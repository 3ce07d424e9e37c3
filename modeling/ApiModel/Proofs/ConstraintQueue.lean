import ApiModel.Proofs.RegistryInvariant
import Mathlib.Data.List.Flatten

/-!
# The queue of constraints

While services are declared, the positions of their constraints are queued. A
position is a triple of a service, a method and a constraint, each as a number,
and a declaration may stop anywhere on its way. Still the queue is at any time
the list of all constraints of the model, once each and in the order of their
positions, which is the order of their declarations: services, methods and
constraints are only ever added at the end.

What makes this work is that the service under construction is the last one
that has methods. References may add further services behind it, but only
undefined ones. `Filing` says how far the declaration of a service has come.
-/

namespace ApiModel

/-! ## Positions -/

section Lists

variable {α β : Type} {as : List α} {f : α × Nat → List β} {k : β → Nat}

theorem mem_flatMap_zipIdx (hk : ∀ p, ∀ b ∈ f p, k b = p.2) {b : β} :
    b ∈ as.zipIdx.flatMap f ↔ ∃ a, as[k b]? = some a ∧ b ∈ f (a, k b) := by
  simp only [List.mem_flatMap, Prod.exists, List.mk_mem_zipIdx_iff_getElem?]
  constructor
  · rintro ⟨a, i, ha, hb⟩
    obtain rfl : k b = i := hk _ b hb
    exact ⟨a, ha, hb⟩
  · rintro ⟨a, ha, hb⟩
    exact ⟨a, k b, ha, hb⟩

theorem nodup_flatMap_zipIdx (hk : ∀ p, ∀ b ∈ f p, k b = p.2) (hf : ∀ p, (f p).Nodup) :
    (as.zipIdx.flatMap f).Nodup := by
  refine List.nodup_flatMap.mpr ⟨fun p _ => hf p, ?_⟩
  have hplaces : (as.zipIdx.map Prod.snd).Nodup := by
    rw [List.zipIdx_map_snd]
    exact List.nodup_range'
  refine (List.pairwise_map.mp hplaces).imp fun {p q} hpq b hp hq => hpq ?_
  rw [← hk p b hp, hk q b hq]

theorem modify_append_cons (as : List α) (a : α) (bs : List α) (g : α → α) :
    (as ++ a :: bs).modify as.length g = as ++ g a :: bs := by
  induction as with
  | nil => rfl
  | cons a as ih => simpa [List.modify_succ_cons] using ih

end Lists

/-- The positions of the constraints of the method `x`, which is at `position`. -/
def Method.constraintRefs (x : Method) (position : MethodRef) : List ConstraintRef :=
  (List.range x.constraints.length).map (⟨position, ·⟩)

def DefinedService.constraintRefs (s : DefinedService) (id : ServiceId) : List ConstraintRef :=
  s.methods.zipIdx.flatMap fun (x, i) => x.constraintRefs ⟨id, i⟩

def Service.constraintRefs (id : ServiceId) : Service → List ConstraintRef
  | .defined s => s.constraintRefs id
  | .undefined _ => []

/-- The positions of all constraints of `m`. -/
def Model.constraintRefs (m : Model) : List ConstraintRef :=
  m.services.toList.zipIdx.flatMap fun (s, i) => s.constraintRefs ⟨i⟩

section Positions

variable {id : ServiceId} {position : MethodRef} {r : ConstraintRef}

theorem Method.mem_constraintRefs {x : Method} :
    r ∈ x.constraintRefs position ↔ r.method = position ∧ r.index < x.constraints.length := by
  simp only [constraintRefs, List.mem_map, List.mem_range]
  constructor
  · rintro ⟨i, hi, rfl⟩
    exact ⟨rfl, hi⟩
  · rintro ⟨rfl, hi⟩
    exact ⟨r.index, hi, rfl⟩

theorem Method.nodup_constraintRefs (x : Method) : (x.constraintRefs position).Nodup :=
  List.nodup_range.map fun _ _ h => congrArg ConstraintRef.index h

theorem DefinedService.mem_constraintRefs {s : DefinedService} : r ∈ s.constraintRefs id ↔
    r.method.service = id ∧ (s.constraint? r.method.index r.index).isSome := by
  have hk : ∀ (p : Method × Nat), ∀ r' ∈ p.1.constraintRefs ⟨id, p.2⟩, r'.method.index = p.2 :=
    fun p r' hr' => by rw [(Method.mem_constraintRefs.mp hr').1]
  rw [constraintRefs, mem_flatMap_zipIdx hk, constraint?, Option.isSome_bind, Option.any_eq_true]
  simp only [Method.mem_constraintRefs, isSome_getElem?]
  constructor
  · rintro ⟨x, hx, hr, hi⟩
    exact ⟨by rw [hr], x, hx, hi⟩
  · rintro ⟨rfl, x, hx, hi⟩
    exact ⟨x, hx, rfl, hi⟩

theorem DefinedService.nodup_constraintRefs (s : DefinedService) : (s.constraintRefs id).Nodup :=
  nodup_flatMap_zipIdx (k := (·.method.index))
    (fun p r hr => by rw [(Method.mem_constraintRefs.mp hr).1]) fun p => p.1.nodup_constraintRefs

theorem Service.mem_constraintRefs {s : Service} : r ∈ s.constraintRefs id ↔
    r.method.service = id ∧
      (s.defined?.bind (·.constraint? r.method.index r.index)).isSome := by
  cases s with
  | defined s => exact DefinedService.mem_constraintRefs
  | undefined n => simp [constraintRefs, defined?]

theorem Service.nodup_constraintRefs (s : Service) : (s.constraintRefs id).Nodup := by
  cases s with
  | defined s => exact s.nodup_constraintRefs
  | undefined n => exact List.nodup_nil

/-- All that is there is among the `constraintRefs`. -/
theorem Model.mem_constraintRefs {m : Model} :
    r ∈ m.constraintRefs ↔ (m.constraint? r).isSome := by
  have hk : ∀ (p : Service × Nat), ∀ r' ∈ p.1.constraintRefs ⟨p.2⟩,
      r'.method.service.index = p.2 :=
    fun p r' hr' => by rw [(Service.mem_constraintRefs.mp hr').1]
  rw [constraintRefs, mem_flatMap_zipIdx hk, constraint?_eq, definedService?, service?,
    Option.bind_assoc, Option.isSome_bind, Option.any_eq_true]
  simp only [Service.mem_constraintRefs, Array.getElem?_toList, true_and]

/-- Nothing is twice among the `constraintRefs`. -/
theorem Model.nodup_constraintRefs (m : Model) : m.constraintRefs.Nodup :=
  nodup_flatMap_zipIdx (k := (·.method.service.index))
    (fun p r hr => by rw [(Service.mem_constraintRefs.mp hr).1]) fun p => p.1.nodup_constraintRefs

end Positions

/-! ## Drafts that file nothing -/

namespace Draft

variable {d d' d'' d₀ : Draft} {s : DefinedService}

/-- From `d` to `d'`, nothing is queued, no service changes, and only undefined ones come in. -/
structure Quiet (d d' : Draft) : Prop where
  constraints : d'.constraints = d.constraints
  services : ∃ more : List Service, (∀ x ∈ more, x.defined? = none) ∧
    d'.model.services.toList = d.model.services.toList ++ more

theorem Quiet.of_services (hc : d'.constraints = d.constraints)
    (hs : d'.model.services = d.model.services) : d.Quiet d' :=
  ⟨hc, [], by simp, by rw [hs, List.append_nil]⟩

theorem Quiet.refl (d : Draft) : d.Quiet d :=
  .of_services rfl rfl

theorem Quiet.trans (h : d.Quiet d') (h' : d'.Quiet d'') : d.Quiet d'' := by
  obtain ⟨hc, more, hmore, hs⟩ := h
  obtain ⟨hc', more', hmore', hs'⟩ := h'
  refine ⟨hc'.trans hc, more ++ more', fun x hx => ?_, by rw [hs', hs, List.append_assoc]⟩
  exact (List.mem_append.mp hx).elim (hmore x) (hmore' x)

theorem quiet_resolveType (n : Name) (slot : TypeSlot) : d.Quiet (resolveType n slot d).2 := by
  rcases h : d.model.findType? n with _ | id
  · rw [resolveType_new h]
    exact .of_services rfl (services_undefinedType d.model n)
  · rw [resolveType_known h]
    exact .refl d

theorem quiet_internList (n : Name) :
    d.Quiet (internList n (fun list => resolveType n (.listElement list)) d).2 := by
  rcases h : d.model.findList? n with _ | id
  · let d₁ : Draft := { d with model := (d.model.allocList n).2 }
    have halloc : d.Quiet d₁ := .of_services rfl (services_undefinedType d.model n)
    have hresolve := quiet_resolveType (d := d₁) n (.listElement (d.model.allocList n).1)
    simp only [internList, h]
    exact (halloc.trans hresolve).trans (.of_services rfl rfl)
  · rw [internList_known h]
    exact .refl d

theorem quiet_resolveService (n : Name) (slot : ServiceSlot) :
    d.Quiet (resolveService n slot d).2 := by
  rcases h : d.model.findService? n with _ | id
  · rw [resolveService_new h]
    rcases hu : d.model.undefinedServices[n]? with _ | id
    · rw [Model.undefinedService_new hu]
      exact ⟨rfl, [.undefined n], by simp [Service.defined?], Array.toList_push⟩
    · rw [Model.undefinedService_known hu]
      exact .of_services rfl rfl
  · rw [resolveService_known h]
    exact .refl d

theorem quiet_placeType (space : String) (x : DataType) : d.Quiet (d.placeType space x) :=
  .of_services rfl (by simp only [placeType, Model.services_house])

/-! ## Drafts that file the constraints of a service -/

/-- Since the draft `d₀` the service `s` has come in, and its constraints have been queued. Only
undefined services follow. -/
structure Filing (d₀ d : Draft) (s : DefinedService) : Prop where
  queue : d.constraints = d₀.constraints ++ s.constraintRefs d₀.nextService
  services : ∃ after : List Service, (∀ x ∈ after, x.defined? = none) ∧
    d.model.services.toList = d₀.model.services.toList ++ .defined s :: after

theorem Filing.quiet (h : d₀.Filing d s) (hq : d.Quiet d') : d₀.Filing d' s := by
  obtain ⟨hc, after, hafter, hs⟩ := h
  obtain ⟨hc', more, hmore, hs'⟩ := hq
  refine ⟨hc'.trans hc, after ++ more, fun x hx => ?_, by rw [hs', hs]; simp⟩
  exact (List.mem_append.mp hx).elim (hafter x) (hmore x)

theorem Filing.definedService? (h : d₀.Filing d s) :
    d.model.definedService? d₀.nextService = some s := by
  obtain ⟨-, after, -, hs⟩ := h
  rw [Model.definedService?_eq_some, Model.service?, ← Array.getElem?_toList, hs, nextService,
    ← Array.length_toList, List.getElem?_append_right (Nat.le_refl _), Nat.sub_self]
  rfl

/-- What `f` does to the service under construction, and what is queued for it, keeps up
`Filing`. -/
theorem Filing.modify (h : d₀.Filing d s) {f : DefinedService → DefinedService}
    {q : List ConstraintRef}
    (hf : (f s).constraintRefs d₀.nextService = s.constraintRefs d₀.nextService ++ q) :
    d₀.Filing { d with
      model := d.model.modifyService d₀.nextService f
      constraints := d.constraints ++ q } (f s) := by
  obtain ⟨hc, after, hafter, hs⟩ := h
  refine ⟨?_, after, hafter, ?_⟩
  · rw [hf, hc, List.append_assoc]
  · show (d.model.services.modify _ _).toList = _
    rw [Array.toList_modify, hs, nextService, ← Array.length_toList]
    exact modify_append_cons ..

/-- The same as `Filing.modify`, where nothing is queued. -/
theorem Filing.modify_same (h : d₀.Filing d s) {f : DefinedService → DefinedService}
    (hf : (f s).constraintRefs d₀.nextService = s.constraintRefs d₀.nextService) :
    d₀.Filing { d with model := d.model.modifyService d₀.nextService f } (f s) := by
  have hmod := h.modify (f := f) (q := []) (by rw [hf, List.append_nil])
  rwa [List.append_nil] at hmod

/-- The constraints of some service are being queued, see `Filing`. -/
def Files (d₀ d : Draft) : Prop :=
  ∃ s, d₀.Filing d s

theorem Files.quiet (h : d₀.Files d) (hq : d.Quiet d') : d₀.Files d' :=
  h.imp fun _ hs => hs.quiet hq

theorem Files.modify (h : d₀.Files d) {f : DefinedService → DefinedService}
    (hf : ∀ s, (f s).methods = s.methods) :
    d₀.Files { d with model := d.model.modifyService d₀.nextService f } := by
  obtain ⟨s, hs⟩ := h
  exact ⟨f s, hs.modify_same (by rw [DefinedService.constraintRefs, hf]; rfl)⟩

/-- The same with the method at place `i` under construction, which has `k` constraints so far. -/
def FilesMethod (d₀ : Draft) (i k : Nat) (d : Draft) : Prop :=
  ∃ (s : DefinedService) (ms : List Method) (x : Method),
    d₀.Filing d { s with methods := ms ++ [x] } ∧ ms.length = i ∧ x.constraints.length = k

theorem FilesMethod.files {i k : Nat} (h : d₀.FilesMethod i k d) : d₀.Files d := by
  obtain ⟨s, ms, x, hx, -, -⟩ := h
  exact ⟨_, hx⟩

theorem FilesMethod.quiet {i k : Nat} (h : d₀.FilesMethod i k d) (hq : d.Quiet d') :
    d₀.FilesMethod i k d' := by
  obtain ⟨s, ms, x, hx, hi, hk⟩ := h
  exact ⟨s, ms, x, hx.quiet hq, hi, hk⟩

theorem constraintRefs_snoc (s : DefinedService) (ms : List Method) (x : Method)
    (id : ServiceId) : DefinedService.constraintRefs { s with methods := ms ++ [x] } id =
      DefinedService.constraintRefs { s with methods := ms } id ++
        x.constraintRefs ⟨id, ms.length⟩ := by
  simp [DefinedService.constraintRefs, List.zipIdx_append]

theorem FilesMethod.addParameter {i k : Nat} (h : d₀.FilesMethod i k d) (p : Parameter) :
    d₀.FilesMethod i k { d with
      model := d.model.modifyMethod ⟨d₀.nextService, i⟩ (·.addParameter p) } := by
  obtain ⟨s, ms, x, hx, rfl, hk⟩ := h
  refine ⟨s, ms, x.addParameter p, ?_, rfl, hk⟩
  have hmod := hx.modify_same (f := (·.modifyMethod ms.length (·.addParameter p))) ?_
  · rwa [Declare.modifyMethod_last] at hmod
  · rw [Declare.modifyMethod_last, constraintRefs_snoc, constraintRefs_snoc]
    rfl

/-- The constraint `c` that is added is queued, as long as it comes last. -/
theorem FilesMethod.addConstraint {i k : Nat} (h : d₀.FilesMethod i k d) (c : Constraint) :
    d₀.FilesMethod i (k + 1) { d with
      model := d.model.modifyMethod ⟨d₀.nextService, i⟩ (·.addConstraint c)
      constraints := d.constraints ++ [⟨⟨d₀.nextService, i⟩, k⟩] } := by
  obtain ⟨s, ms, x, hx, rfl, rfl⟩ := h
  have hlen : (x.addConstraint c).constraints.length = x.constraints.length + 1 :=
    List.length_append
  refine ⟨s, ms, x.addConstraint c, ?_, rfl, hlen⟩
  have hmod := hx.modify (f := (·.modifyMethod ms.length (·.addConstraint c)))
    (q := [⟨⟨d₀.nextService, ms.length⟩, x.constraints.length⟩]) ?_
  · rwa [Declare.modifyMethod_last] at hmod
  · rw [Declare.modifyMethod_last, constraintRefs_snoc, constraintRefs_snoc, List.append_assoc]
    simp only [Method.constraintRefs, hlen, List.range_succ, List.map_append, List.map_cons,
      List.map_nil]

end Draft

/-! ## Runs of declarations -/

namespace Declare

open Draft (Quiet Files FilesMethod)

variable {d d₀ : Draft}

theorem quiet_typeRef (h : d₀.Quiet d) (ref : TypeRef) (slot : TypeSlot) :
    Ensures (typeRef ref slot) d (fun _ => d₀.Quiet) d₀.Quiet := by
  rcases ref with ⟨text, _ | _⟩
  · exact .of_exec (exec_lift _ d) (h.trans (Draft.quiet_resolveType _ _))
  · exact .of_exec (exec_lift _ d) (h.trans (Draft.quiet_internList _))

/-! ### Types -/

theorem quiet_updateModel (h : d₀.Quiet d) {f : Model → Model}
    (hf : ∀ m, (f m).services = m.services) :
    Ensures (updateModel f) d (fun _ => d₀.Quiet) d₀.Quiet :=
  .of_exec (exec_updateModel f d) (h.trans (.of_services rfl (hf d.model)))

theorem quiet_register (h : d₀.Quiet d) {add : Model → Except RegistryError Model}
    (hadd : ∀ m m', add m = .ok m' → m'.services = m.services) :
    Ensures (register add) d (fun _ => d₀.Quiet) d₀.Quiet := by
  rcases hm : add d.model with e | m
  · exact .of_exec (exec_register_error hm) (h.trans (.of_services rfl rfl))
  · exact .of_exec (exec_register_ok hm) (h.trans (.of_services rfl (hadd _ m hm)))

theorem services_addType {m m' : Model} {id : TypeId} (h : m.addType id = .ok m') :
    m'.services = m.services := by
  obtain rfl | ⟨n, module, -, rfl⟩ := Model.addType_cases h
  · rfl
  · cases module <;> rfl

theorem services_addService {m m' : Model} {id : ServiceId} (h : m.addService id = .ok m') :
    m'.services = m.services := by
  obtain rfl | ⟨n, module, -, rfl⟩ := Model.addService_cases h
  · rfl
  · cases module <;> rfl

theorem quiet_member (h : d₀.Quiet d) (id : TypeId) (decl : MemberDecl) :
    Ensures (member id decl) d (fun _ => d₀.Quiet) d₀.Quiet := by
  refine .bind (ensures_checked (fun _ => ?_) fun _ => h)
  refine .bind_exec (exec_get d) ?_
  refine .bind ((quiet_typeRef h decl.type _).imp (fun _ d₁ h₁ => ?_) fun _ h₁ => h₁)
  exact quiet_updateModel h₁ fun _ => rfl

theorem quiet_structBase (h : d₀.Quiet d) (id : TypeId) (base : Option String) :
    Ensures (structBase id base) d (fun _ => d₀.Quiet) d₀.Quiet := by
  cases base with
  | none => exact .pure h
  | some text =>
    refine .bind (ensures_checked (fun _ => ?_) fun _ => h)
    refine .bind_exec (exec_lift _ d) ?_
    exact quiet_updateModel (h.trans (Draft.quiet_resolveType _ _)) fun _ => rfl

theorem quiet_structType (decl : TypeDecl) (supertype : Supertype) (members : List MemberDecl) :
    Ensures (structType decl supertype members) d (fun _ => d.Quiet) d.Quiet := by
  refine .bind (ensures_checked (fun _ => ?_) fun _ => .refl d)
  refine .bind_exec (exec_moduleOf decl.space d) ?_
  let x : DataType := .struct (structShell decl (d.model.house decl.space).1)
  refine .bind_exec (exec_allocType x decl.space d) ?_
  have hplace : d.Quiet (d.placeType decl.space x) := Draft.quiet_placeType decl.space x
  refine .bind ((quiet_register hplace fun _ _ => services_addType).imp (fun ok d₁ h₁ => ?_)
    fun _ h₁ => h₁)
  split
  · refine .bind ((quiet_structBase h₁ _ supertype.base?).imp (fun _ d₂ h₂ => ?_) fun _ h₂ => h₂)
    exact .forM (fun x _ hd => quiet_member hd _ x) h₂ members
  · exact .pure h₁

theorem quiet_enumType (decl : TypeDecl) (constants : List ConstantDecl) :
    Ensures (enumType decl constants) d (fun _ => d.Quiet) d.Quiet := by
  refine .bind (ensures_checked (fun _ => ?_) fun _ => .refl d)
  refine .bind_exec (exec_moduleOf decl.space d) ?_
  let x : DataType := .enum (enumShell decl (d.model.house decl.space).1 [])
  refine .bind_exec (exec_allocType x decl.space d) ?_
  have hplace : d.Quiet (d.placeType decl.space x) := Draft.quiet_placeType decl.space x
  refine .bind ((ensures_enumValues constants).imp ?_ ?_)
  · rintro values _ ⟨-, rfl, -⟩
    refine .bind_exec (exec_updateModel _ _) ?_
    rw [modifyType_placeType]
    have hvalues := Draft.quiet_placeType (d := d) decl.space (x.mapEnum ({ · with values }))
    exact (quiet_register hvalues fun _ _ => services_addType).discard
  · rintro _ ⟨-, rfl⟩
    exact hplace

/-! ### Services -/

theorem quiet_parameter (h : d₀.Quiet d) (decl : ParameterDecl) (slot : TypeSlot) :
    Ensures (parameter decl slot) d (fun _ => d₀.Quiet) d₀.Quiet := by
  refine .bind (ensures_checked (fun _ => ?_) fun _ => h)
  exact .bind ((quiet_typeRef h decl.type slot).imp (fun _ _ h₁ => .pure h₁) fun _ h₁ => h₁)

theorem quiet_parameters (h : d₀.Quiet d) (slot : Nat → TypeSlot) (decls : List ParameterDecl)
    (i : Nat) : Ensures ((decls.zipIdx i).mapM fun (p, j) => parameter p (slot j)) d
      (fun _ => d₀.Quiet) d₀.Quiet := by
  induction decls generalizing d i with
  | nil => exact .pure h
  | cons decl decls ih =>
    rw [List.zipIdx_cons, List.mapM_cons]
    refine .bind ((quiet_parameter h decl (slot i)).imp (fun _ d₁ h₁ => ?_) fun _ h₁ => h₁)
    exact .bind ((ih h₁ (i + 1)).imp (fun _ _ h₂ => .pure h₂) fun _ h₂ => h₂)

theorem files_serviceBase (h : d₀.Files d) (base : Option String) :
    Ensures (serviceBase d₀.nextService base) d (fun _ => d₀.Files) d₀.Files := by
  cases base with
  | none => exact .pure h
  | some text =>
    rw [serviceBase, parseServiceName_eq]
    refine .bind (ensures_checked (fun _ => ?_) fun _ => h)
    refine .bind_exec (exec_lift _ d) (.of_exec (exec_updateModel _ _) ?_)
    exact (h.quiet (Draft.quiet_resolveService _ _)).modify fun _ => rfl

theorem files_methodParameter {i : Nat} (h : d₀.FilesMethod i 0 d) (decl : ParameterDecl)
    (j : Nat) : Ensures (methodParameter ⟨d₀.nextService, i⟩ decl j) d
      (fun _ => d₀.FilesMethod i 0) d₀.Files := by
  refine .bind ((quiet_parameter (.refl d) decl _).imp (fun p d₁ h₁ => ?_) fun _ h₁ => ?_)
  · exact .of_exec (exec_updateModel _ d₁) ((h.quiet h₁).addParameter p)
  · exact h.files.quiet h₁

theorem files_methodConstraint {i k : Nat} (h : d₀.FilesMethod i k d) (decl : ConstraintDecl) :
    Ensures (methodConstraint ⟨d₀.nextService, i⟩ decl k) d
      (fun _ => d₀.FilesMethod i (k + 1)) d₀.Files := by
  refine .bind (.bind (ensures_checked (fun _ => .pure ?_) fun _ => h.files))
  refine .bind_exec (exec_updateModel _ d) (.of_exec (exec_modify _ _) ?_)
  exact h.addConstraint _

theorem files_method (h : d₀.Files d) (decl : MethodDecl) :
    Ensures (method d₀.nextService decl) d (fun _ => d₀.Files) d₀.Files := by
  refine .bind (ensures_checked (fun _ => ?_) fun _ => h)
  refine .bind_exec (exec_get d) ?_
  obtain ⟨s, hs⟩ := h
  rw [show (d.model.definedService? d₀.nextService).elim 0 (·.methods.length) = s.methods.length by
    rw [hs.definedService?]; rfl]
  refine .bind_exec (exec_updateModel _ d) ?_
  -- From here on the method is the last one of the last service with methods.
  let x : Method :=
    { concept := decl.info.concept (Name.ofCase decl.name), service := d₀.nextService }
  have hx : d₀.FilesMethod s.methods.length 0
      { d with model := d.model.modifyService d₀.nextService (·.addMethod x) } := by
    refine ⟨s, s.methods, x, hs.modify_same (f := (·.addMethod x)) ?_, rfl, rfl⟩
    exact (Draft.constraintRefs_snoc s s.methods x _).trans (List.append_nil _)
  refine .bind ((Ensures.forM_zipIdx (I := fun _ => d₀.FilesMethod s.methods.length 0)
    (fun p j _ hd => files_methodParameter hd p j) hx decl.parameters).imp
    (fun _ d₁ h₁ => ?_) fun _ h₁ => h₁)
  refine (Ensures.forM_zipIdx (I := d₀.FilesMethod s.methods.length)
    (fun c k _ hd => files_methodConstraint hd c) h₁ decl.constraints).imp ?_ fun _ h₂ => h₂
  exact fun _ _ h₂ => h₂.files

theorem files_locator (h : d₀.Files d) (decl : LocatorDecl) :
    Ensures (locator d₀.nextService decl) d (fun _ => d₀.Files) d₀.Files := by
  refine .bind (ensures_checked (fun _ => ?_) fun _ => h)
  rw [parseServiceName_eq]
  refine .bind (ensures_checked (fun _ => ?_) fun _ => h)
  refine .bind_exec (exec_get d) (.bind_exec (exec_lift _ d) ?_)
  refine .bind ((quiet_parameters (Draft.quiet_resolveService _ _) _ decl.parameters 0).imp
    (fun ps d₁ h₁ => ?_) fun _ h₁ => h.quiet h₁)
  exact .of_exec (exec_updateModel _ d₁) ((h.quiet h₁).modify fun _ => rfl)

/-- The service of `decl` takes the next place, and then its constraints are queued. -/
theorem files_service (decl : ServiceDecl) :
    Ensures (service decl) d (fun _ => d.Files) fun d' => d.Quiet d' ∨ d.Files d' := by
  rw [service, parseServiceName_eq]
  refine .bind (ensures_checked (fun _ => ?_) fun _ => .inl (.refl d))
  refine .bind_exec (exec_moduleOf decl.space d) ?_
  let s := serviceShell decl (d.model.house decl.space).1
  refine .bind_exec (exec_allocService s decl.space d) ?_
  have hplace : d.Files (d.placeService decl.space s) :=
    ⟨s, (List.append_nil _).symm, [], by simp, Array.toList_push⟩
  have hregister : Ensures (register (·.addService d.nextService)) (d.placeService decl.space s)
      (fun _ => (d.placeService decl.space s).Quiet) (d.placeService decl.space s).Quiet :=
    quiet_register (.refl _) fun _ _ => services_addService
  refine .bind (hregister.imp (fun ok d₁ h₁ => ?_) fun _ h₁ => .inr (hplace.quiet h₁))
  replace h₁ := hplace.quiet h₁
  split
  · refine .bind ((files_serviceBase h₁ decl.supertype.base?).imp (fun _ d₂ h₂ => ?_)
      fun _ h₂ => .inr h₂)
    refine .bind ((Ensures.forM (fun x _ hd => files_method hd x) h₂ decl.methods).imp
      (fun _ d₃ h₃ => ?_) fun _ h₃ => .inr h₃)
    refine .bind ((Ensures.forM (fun x _ hd => files_locator hd x) h₃ decl.locators).imp
      (fun _ d₄ h₄ => ?_) fun _ h₄ => .inr h₄)
    split
    · exact .of_exec (exec_electRoot _ d₄) (h₄.quiet (.of_services rfl rfl))
    · exact .pure h₄
  · exact .pure h₁

end Declare

namespace Draft

variable {d d' : Draft} {s : DefinedService}

theorem of_ensures {decl : Declaration} {I : Draft → Prop}
    (h : Declare.Ensures decl.declare d (fun _ => I) I) : I (d.declare decl).2 := by
  rw [Declare.Ensures] at h
  rw [show d.declare decl = decl.declare.exec d from rfl]
  rcases hx : decl.declare.exec d with ⟨_ | _, d'⟩ <;> rw [hx] at h <;> exact h

/-- Only a `service` files something. -/
theorem files_declare (d : Draft) (decl : Declaration) : d.Quiet (d.declare decl).2 ∨
    (∃ t, decl = .service t) ∧ d.Files (d.declare decl).2 := by
  match decl with
  | .type t =>
    refine .inl (of_ensures ?_)
    unfold Declaration.declare
    dsimp only
    split
    · exact Declare.quiet_structType t _ _
    · exact Declare.quiet_enumType t _
  | .service t =>
    refine of_ensures (I := fun d' => d.Quiet d' ∨ (∃ t', Declaration.service t = .service t') ∧
      d.Files d') ?_
    exact (Declare.files_service t).imp (fun _ _ h => .inr ⟨⟨t, rfl⟩, h⟩)
      fun _ h => h.imp_right fun h => ⟨⟨t, rfl⟩, h⟩
  | .document t =>
    refine .inl (of_ensures ?_)
    unfold Declaration.declare
    exact Declare.quiet_updateModel (.refl d) fun _ => rfl

theorem flatMap_undefined {more : List Service} (h : ∀ x ∈ more, x.defined? = none) (i : Nat) :
    (more.zipIdx i).flatMap (fun (x, j) => x.constraintRefs ⟨j⟩) = [] := by
  refine List.flatMap_eq_nil_iff.mpr fun p hp => ?_
  have hx := h p.1 (List.fst_mem_of_mem_zipIdx hp)
  rcases p with ⟨_ | n, j⟩
  · cases hx
  · rfl

theorem Quiet.constraintRefs (h : d.Quiet d') :
    d'.model.constraintRefs = d.model.constraintRefs := by
  obtain ⟨-, more, hmore, hs⟩ := h
  rw [Model.constraintRefs, hs, List.zipIdx_append, List.flatMap_append, flatMap_undefined hmore,
    List.append_nil]
  rfl

theorem Filing.constraintRefs (h : d.Filing d' s) :
    d'.model.constraintRefs = d.model.constraintRefs ++ s.constraintRefs d.nextService := by
  obtain ⟨-, after, hafter, hs⟩ := h
  rw [Model.constraintRefs, hs, List.zipIdx_append, List.flatMap_append, List.zipIdx_cons,
    List.flatMap_cons, flatMap_undefined hafter, List.append_nil, Nat.zero_add,
    Array.length_toList]
  rfl

/-- The queue `constraints` lists all constraints, in order. -/
theorem constraints_declareEach (ds : List Declaration) :
    (declareEach {} ds).constraints = (declareEach {} ds).model.constraintRefs := by
  induction ds using List.reverseRecOn with
  | nil => rfl
  | append_singleton ds decl ih =>
    rw [declareEach_concat]
    rcases files_declare (declareEach {} ds) decl with h | ⟨-, s, h⟩
    · rw [h.constraints, h.constraintRefs, ih]
    · rw [h.queue, h.constraintRefs, ih]

end Draft

/-! ## The order of declarations -/

/-- The constraints that a declaration holds, with their methods. -/
def Declaration.constraints : Declaration → List (MethodDecl × ConstraintDecl)
  | .service t => t.methods.flatMap fun x => x.constraints.map (x, ·)
  | .type _ | .document _ => []

/-- The constraint at `r`, and its method, are as declared. -/
def Model.Stores (m : Model) (reading : Reading) (r : ConstraintRef)
    (origin : MethodDecl × ConstraintDecl) : Prop :=
  ∃ x c, m.method? r.method = some x ∧ m.constraint? r = some c ∧
    x.concept = origin.1.info.concept (Name.ofCase origin.1.name) ∧
    c.Matches reading r.method origin.2

section Origins

variable {m m' : Model} {reading reading' : Reading} {r : ConstraintRef}
  {origin : MethodDecl × ConstraintDecl} {id : ServiceId} {s : DefinedService}

theorem exists_sublist_flatMap {α β γ δ : Type} {R : α → β → Prop} {S : γ → δ → Prop}
    {f : α → List γ} {g : β → List δ} {as : List α} {bs : List β} (h : List.Forall₂ R as bs)
    (hR : ∀ a ∈ as, ∀ b, R a b → ∃ part, part.Sublist (g b) ∧ List.Forall₂ S (f a) part) :
    ∃ part, part.Sublist (bs.flatMap g) ∧ List.Forall₂ S (as.flatMap f) part := by
  induction h with
  | nil => exact ⟨[], List.Sublist.refl _, .nil⟩
  | @cons a b as bs hab _ ih =>
    obtain ⟨part, hpart, hS⟩ := hR a List.mem_cons_self b hab
    obtain ⟨rest, hrest, hSrest⟩ := ih fun a ha => hR a (List.mem_cons_of_mem _ ha)
    exact ⟨part ++ rest, hpart.append hrest, List.rel_append hS hSrest⟩

theorem Model.method?_of_definedService? (hs : m.definedService? id = some s) (i : Nat) :
    m.method? ⟨id, i⟩ = s.methods[i]? := by
  rw [method?, hs]
  rfl

theorem Method.Matches.stores {position : MethodRef} {x : Method} {part decl : MethodDecl}
    (hx : m.method? position = some x) (h : x.Matches reading position part)
    (hpart : part.IsPart decl) : List.Forall₂ (m.Stores reading) (x.constraintRefs position)
      (part.constraints.map (decl, ·)) := by
  rw [constraintRefs, List.forall₂_map_left_iff, List.forall₂_map_right_iff]
  obtain ⟨hlen, hc⟩ := List.forall₂_iff_get.mp h.constraints
  refine List.forall₂_iff_get.mpr ⟨by rw [List.length_range, hlen], fun i hi hi' => ?_⟩
  have hi'' : i < x.constraints.length := hlen ▸ hi'
  refine ⟨x, x.constraints[i], hx, ?_, ?_, ?_⟩
  · rw [Model.constraint?, hx, Option.bind_some]
    simp
  · rw [h.concept, hpart.name, hpart.info]
  · exact hc i hi'' hi'

/-- What has been declared of the service `s` is stored in the order of its declaration `t`. -/
theorem DefinedService.Records.stores {t : ServiceDecl} {complete : Bool}
    (hs : m.definedService? id = some s) (h : s.Records reading id t complete) :
    ∃ part, part.Sublist (Declaration.service t).constraints ∧
      List.Forall₂ (m.Stores reading) (s.constraintRefs id) part := by
  obtain ⟨_, methods, whole, _, -, hparts, hwhole, -, hmatch⟩ := h.part
  have hmethods : List.Forall₂ (fun (x : Method × Nat) decl => ∃ part : MethodDecl,
      part.IsPart decl ∧ x.1.Matches reading ⟨id, x.2⟩ part) s.methods.zipIdx whole :=
    forall₂_join hmatch.methods hparts.flip fun _ _ part hx hp => ⟨part, hp, hx⟩
  have hmethod : ∀ p ∈ s.methods.zipIdx, ∀ decl, (∃ part : MethodDecl, part.IsPart decl ∧
      p.1.Matches reading ⟨id, p.2⟩ part) →
      ∃ part, part.Sublist (decl.constraints.map (decl, ·)) ∧
        List.Forall₂ (m.Stores reading) (p.1.constraintRefs ⟨id, p.2⟩) part := by
    rintro ⟨x, i⟩ hx decl ⟨part, hp, hm⟩
    have hx' : m.method? ⟨id, i⟩ = some x := by
      rw [Model.method?_of_definedService? hs]
      exact List.mk_mem_zipIdx_iff_getElem?.mp hx
    exact ⟨_, hp.constraints.sublist.map _, hm.stores hx' hp⟩
  obtain ⟨part, hpart, hstores⟩ := exists_sublist_flatMap hmethods hmethod
  exact ⟨part, hpart.trans (hwhole.sublist.flatMap _), hstores⟩

theorem Model.Stores.mono (h : m.Stores reading r origin) (hle : reading.Le reading')
    (hm : ∀ {x}, m.method? r.method = some x → m'.method? r.method = some x) :
    m'.Stores reading' r origin := by
  obtain ⟨x, c, hx, hc, hconcept, hmatch⟩ := h
  rw [constraint?, hx] at hc
  exact ⟨x, c, hm hx, by rw [constraint?, hm hx, hc], hconcept, hmatch.mono hle⟩

theorem Model.Grows.method? (hg : m.Grows ∅ m') {position : MethodRef} {x : Method}
    (hx : m.method? position = some x) : m'.method? position = some x := by
  obtain ⟨s, hs, hi⟩ := Option.bind_eq_some_iff.mp hx
  have hs' := hg.service (Set.notMem_empty _) (definedService?_eq_some.mp hs)
  rw [Model.method?, definedService?_eq_some.mpr hs', Option.bind_some, hi]

end Origins

namespace Draft

variable {d d' : Draft} {s : DefinedService}

/-- What the declaration `t` files is stored as it says. -/
theorem Outcome.stores {t : ServiceDecl} {complete : Bool} (h : d.Outcome (.service t) complete d')
    (hs : d'.model.definedService? d.nextService = some s) :
    ∃ part, part.Sublist (Declaration.service t).constraints ∧
      List.Forall₂ (d'.model.Stores d'.model.reading) (s.constraintRefs d.nextService) part := by
  cases h with
  | unnamedService =>
    exact absurd (Model.service?_lt (Model.definedService?_eq_some.mp hs)) (Nat.lt_irrefl _)
  | @takenService _ s₀ _ _ hx _ =>
    obtain rfl : s₀ = s := by
      have hplace := service?_placeService (d := d) (s := s₀) t.space d.nextService
      rw [if_pos rfl] at hplace
      exact Option.some.inj ((Model.definedService?_eq_some.mpr hplace).symm.trans hs)
    refine ⟨[], List.nil_sublist _, ?_⟩
    rw [DefinedService.constraintRefs, hx.methods]
    exact .nil
  | @addedService _ _ s₁ _ d₁ _ _ _ _ _ _ _ hx _ hr _ hd =>
    have hservices : d'.model.definedService? = d₁.model.definedService? := by
      rw [hd]
      split <;> rfl
    have hreading : d'.model.reading = d₁.model.reading := by
      rw [hd]
      split <;> rfl
    obtain rfl : s₁ = s := by
      rw [hservices, Model.definedService?_eq_some.mpr hx] at hs
      exact Option.some.inj hs
    rw [hreading]
    exact hr.stores hs

/-- The queue `constraints` follows the declarations. -/
theorem origins_declareEach (ds : List Declaration) :
    ∃ origins, origins.Sublist (ds.flatMap (·.constraints)) ∧
      List.Forall₂ ((declareEach {} ds).model.Stores (declareEach {} ds).model.reading)
        (declareEach {} ds).constraints origins := by
  induction ds using List.reverseRecOn with
  | nil => exact ⟨[], List.nil_sublist _, .nil⟩
  | append_singleton ds decl ih =>
    obtain ⟨origins, hsub, hstores⟩ := ih
    have hg := (extends_declareEach ds decl).grows
    replace hstores := hstores.imp fun r origin h => h.mono hg.reading hg.method?
    rw [List.flatMap_append, List.flatMap_singleton]
    rcases files_declare (declareEach {} ds) decl with h | ⟨⟨t, rfl⟩, s, h⟩ <;>
      rw [← declareEach_concat] at h
    · rw [h.constraints]
      exact ⟨origins, hsub.trans (List.sublist_append_left _ _), hstores⟩
    · obtain ⟨part, hpart, hnew⟩ := (outcome_declareEach ds (.service t)).stores h.definedService?
      rw [h.queue]
      exact ⟨origins ++ part, hsub.append hpart, List.rel_append hstores hnew⟩

end Draft

end ApiModel
