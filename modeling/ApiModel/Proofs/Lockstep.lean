import ApiModel.Proofs.Complete

/-!
# Declaring in lockstep

Which names are registered, which lists are interned, and for which names
references are pending in which order: how a declaration goes on from there, and
where it gets to, depends on nothing else. So drafts that agree in this go the
same way, however differently they number their entities. A declaration that is
carried out in one of them is carried out in the other, and they agree
afterwards.
-/

namespace ApiModel

namespace Draft

/-- A draft as far as names go. -/
structure Names where
  types : Name → Bool
  services : Name → Bool
  lists : Name → Bool
  pendingTypes : List Name
  pendingServices : List Name

def names (d : Draft) : Names where
  types n := (d.model.findType? n).isSome
  services n := (d.model.findService? n).isSome
  lists n := (d.model.findList? n).isSome
  pendingTypes := d.pendingTypes.map (·.1)
  pendingServices := d.pendingServices.map (·.1)

variable {d d' : Draft}

section Agreement

variable (h : d.names = d'.names)

include h

theorem isSome_findType?_of_names (n : Name) :
    (d.model.findType? n).isSome ↔ (d'.model.findType? n).isSome :=
  Bool.eq_iff_iff.mp (congrFun (congrArg Names.types h) n)

theorem isSome_findService?_of_names (n : Name) :
    (d.model.findService? n).isSome ↔ (d'.model.findService? n).isSome :=
  Bool.eq_iff_iff.mp (congrFun (congrArg Names.services h) n)

theorem isSome_findList?_of_names (n : Name) :
    (d.model.findList? n).isSome ↔ (d'.model.findList? n).isSome :=
  Bool.eq_iff_iff.mp (congrFun (congrArg Names.lists h) n)

theorem findType?_eq_none_of_names {n : Name} (hn : d.model.findType? n = none) :
    d'.model.findType? n = none := by
  rw [← Option.not_isSome_iff_eq_none, ← isSome_findType?_of_names h, hn]
  exact Bool.false_ne_true

theorem findService?_eq_none_of_names {n : Name} (hn : d.model.findService? n = none) :
    d'.model.findService? n = none := by
  rw [← Option.not_isSome_iff_eq_none, ← isSome_findService?_of_names h, hn]
  exact Bool.false_ne_true

theorem pendingTypes_of_names : d.pendingTypes.map (·.1) = d'.pendingTypes.map (·.1) :=
  congrArg Names.pendingTypes h

theorem pendingServices_of_names :
    d.pendingServices.map (·.1) = d'.pendingServices.map (·.1) :=
  congrArg Names.pendingServices h

end Agreement

/-! ## References -/

/-- A reference waits for the name `n`, and nothing else changes. -/
theorem names_pendType {m : Model} (hr : m.registry = d.model.registry)
    (hl : ∀ n, m.findList? n = d.model.findList? n) (n : Name) (slot : TypeSlot) :
    names { d with model := m, pendingTypes := d.pendingTypes ++ [(n, slot)] } =
      { d.names with pendingTypes := d.names.pendingTypes ++ [n] } := by
  have htypes : m.typeIndex = d.model.typeIndex := congrArg Registry.typeIndex hr
  have hservices : m.serviceIndex = d.model.serviceIndex := congrArg Registry.serviceIndex hr
  simp only [names, Model.findType?, Model.findService?, htypes, hservices, hl, List.map_append,
    List.map_cons, List.map_nil]

theorem names_resolveType (n : Name) (slot : TypeSlot) (d : Draft) :
    (resolveType n slot d).2.names = if d.names.types n then d.names else
      { d.names with pendingTypes := d.names.pendingTypes ++ [n] } := by
  rcases hn : d.model.findType? n with _ | id
  · rw [resolveType_new hn, if_neg (by simp [names, hn])]
    exact names_pendType (registry_undefinedType _ n) (findList?_undefinedType _ n) n slot
  · rw [resolveType_known hn, if_pos (by simp [names, hn])]

theorem names_resolveService (n : Name) (slot : ServiceSlot) (d : Draft) :
    (resolveService n slot d).2.names = if d.names.services n then d.names else
      { d.names with pendingServices := d.names.pendingServices ++ [n] } := by
  rcases hn : d.model.findService? n with _ | id
  · rw [resolveService_new hn, if_neg (by simp [names, hn])]
    have hr := registry_undefinedService d.model n
    have htypes : (d.model.undefinedService n).2.typeIndex = d.model.typeIndex :=
      congrArg Registry.typeIndex hr
    have hservices : (d.model.undefinedService n).2.serviceIndex = d.model.serviceIndex :=
      congrArg Registry.serviceIndex hr
    simp only [names, Model.findType?, Model.findService?, htypes, hservices,
      findList?_undefinedService, List.map_append, List.map_cons, List.map_nil]
  · rw [resolveService_known hn, if_pos (by simp [names, hn])]

/-- A new list by `allocList`, before its element is resolved. -/
theorem names_allocList (n : Name) (d : Draft) :
    names { d with model := (d.model.allocList n).2 } =
      { d.names with lists := fun x => n = x || d.names.lists x } := by
  have hr : (d.model.allocList n).2.registry = d.model.registry := registry_undefinedType d.model n
  have htypes : (d.model.allocList n).2.typeIndex = d.model.typeIndex :=
    congrArg Registry.typeIndex hr
  have hservices : (d.model.allocList n).2.serviceIndex = d.model.serviceIndex :=
    congrArg Registry.serviceIndex hr
  have hlists : ∀ x, ((d.model.allocList n).2.findList? x).isSome =
      (decide (n = x) || (d.model.findList? x).isSome) := by
    intro x
    have hinsert : (d.model.allocList n).2.findList? x =
        ((d.model.undefinedType n).2.listTypes.insert n
          ⟨(d.model.undefinedType n).2.types.size⟩)[x]? := rfl
    have hkeep : (d.model.undefinedType n).2.listTypes[x]? = d.model.findList? x :=
      findList?_undefinedType d.model n x
    rw [hinsert, NameMap.getElem?_insert, hkeep]
    by_cases hx : n = x
    · rw [if_pos hx, decide_eq_true hx]
      rfl
    · rw [if_neg hx, decide_eq_false hx]
      rfl
  simp only [names, Model.findType?, Model.findService?, htypes, hservices, hlists]

/-- By `internList`, a list is interned and its element resolved, unless it has been before. -/
theorem names_internList (n : Name) (d : Draft) :
    (internList n (fun list => resolveType n (.listElement list)) d).2.names =
      if d.names.lists n then d.names else
        if d.names.types n then { d.names with lists := fun x => n = x || d.names.lists x } else
          { d.names with
            lists := fun x => n = x || d.names.lists x
            pendingTypes := d.names.pendingTypes ++ [n] } := by
  rcases hn : d.model.findList? n with _ | id
  · have hresolve := names_resolveType n (.listElement (d.model.allocList n).1)
      { d with model := (d.model.allocList n).2 }
    rw [names_allocList] at hresolve
    rw [if_neg (by simp [names, hn])]
    simp only [internList, hn]
    generalize resolveType n (.listElement (d.model.allocList n).1) _ = resolved at hresolve
    obtain ⟨element, e⟩ := resolved
    exact hresolve
  · rw [internList_known hn, if_pos (by simp [names, hn])]

end Draft

/-! ## Steps in lockstep -/

namespace Declare

variable {α α' β β' : Type}

/-- On drafts that agree in `names`, where `x` is carried out so is `x'`, the values are as `Q`
says, and the drafts agree again. Like `Ensures`, this must not be run. -/
@[irreducible]
def Follows (x : Declare α) (x' : Declare α') (Q : α → α' → Prop) : Prop :=
  ∀ ⦃d d' e : Draft⦄ ⦃a : α⦄, d.names = d'.names → x.exec d = (.ok a, e) →
    ∃ a' e', x'.exec d' = (.ok a', e') ∧ Q a a' ∧ e.names = e'.names

/-- Nothing is said about values. -/
abbrev Any (_ : α) (_ : α') : Prop :=
  True

theorem exec_bind_ok {x : Declare α} {f : α → Declare β} {a : α} {d e : Draft}
    (h : x.exec d = (.ok a, e)) : (x >>= f).exec d = (f a).exec e := by
  rw [exec_bind, h]

theorem Follows.pure {a : α} {a' : α'} {Q : α → α' → Prop} (h : Q a a') :
    Follows (Pure.pure a) (Pure.pure a') Q := by
  rw [Follows] at *
  intro d d' e b hd hx
  obtain ⟨hb, rfl⟩ := Prod.mk.inj (hx.symm.trans (exec_pure a d))
  obtain rfl := Except.ok.inj hb
  exact ⟨a', d', rfl, h, hd⟩

theorem Follows.bind {x : Declare α} {x' : Declare α'} {f : α → Declare β} {f' : α' → Declare β'}
    {Q : α → α' → Prop} {R : β → β' → Prop} (h : Follows x x' Q)
    (hf : ∀ a a', Q a a' → Follows (f a) (f' a') R) : Follows (x >>= f) (x' >>= f') R := by
  rw [Follows] at *
  intro d d' e b hd hx
  rcases h₁ : x.exec d with ⟨err | a, d₁⟩ <;> rw [exec_bind, h₁] at hx
  · cases hx
  · obtain ⟨a', d₁', hx', hq, hd₁⟩ := h hd h₁
    have hfa := hf a a' hq
    rw [Follows] at hfa
    obtain ⟨b', e', hf', hr, he⟩ := hfa hd₁ hx
    exact ⟨b', e', (exec_bind_ok hx').trans hf', hr, he⟩

/-- `Follows` for steps that give no value of interest, one after the other. -/
theorem Follows.seq {x : Declare α} {x' : Declare α'} {y : Declare β} {y' : Declare β'}
    {R : β → β' → Prop} (h : Follows x x' Any) (hy : Follows y y' R) :
    Follows (x >>= fun _ => y) (x' >>= fun _ => y') R :=
  h.bind fun _ _ _ => hy

theorem Follows.forM {f f' : α → Declare PUnit} (h : ∀ a, Follows (f a) (f' a) Any)
    (as : List α) : Follows (as.forM f) (as.forM f') Any := by
  induction as with
  | nil => exact .pure trivial
  | cons a as ih => exact (h a).seq ih

theorem Follows.mapM {f f' : α → Declare β} (h : ∀ a, Follows (f a) (f' a) Any) (as : List α) :
    Follows (as.mapM f) (as.mapM f') Any := by
  induction as with
  | nil => exact .pure trivial
  | cons a as ih =>
    rw [List.mapM_cons, List.mapM_cons]
    exact (h a).bind fun _ _ _ => ih.bind fun _ _ _ => .pure trivial

theorem Follows.exec {x : Declare α} {x' : Declare α'} {Q : α → α' → Prop} {d d' : Draft}
    (h : Follows x x' Q) (hd : d.names = d'.names) (hok : (x.exec d).1.isOk = true) :
    (x'.exec d').1.isOk = true ∧ (x.exec d).2.names = (x'.exec d').2.names := by
  rw [Follows] at h
  rcases hx : x.exec d with ⟨err | a, e⟩
  · rw [hx] at hok
    cases hok
  · obtain ⟨a', e', hx', -, he⟩ := h hd hx
    rw [hx']
    exact ⟨rfl, he⟩

/-- By `checked`, names are read without a look at the draft. -/
theorem follows_checked {role : NameRole} {text : String} {name : Name} :
    Follows (checked role text name) (checked role text name) Eq := by
  unfold checked
  split
  · rw [Follows]
    intro d d' e a _ hx
    cases hx
  · exact .pure rfl

theorem follows_get : Follows get get Any := by
  rw [Follows]
  intro d d' e a hd hx
  obtain ⟨-, rfl⟩ := Prod.mk.inj (hx.symm.trans (exec_get d))
  exact ⟨d', d', rfl, trivial, hd⟩

theorem follows_modify {f f' : Draft → Draft} (hf : ∀ d, (f d).names = d.names)
    (hf' : ∀ d, (f' d).names = d.names) :
    Follows (modify f : Declare PUnit) (modify f') Any := by
  rw [Follows]
  intro d d' e a hd hx
  obtain ⟨-, rfl⟩ := Prod.mk.inj (hx.symm.trans (exec_modify f d))
  exact ⟨⟨⟩, f' d', rfl, trivial, by rw [hf, hf', hd]⟩

theorem follows_lift {x : StateM Draft α} {x' : StateM Draft α'}
    (h : ∀ d d' : Draft, d.names = d'.names → (x d).2.names = (x' d').2.names) :
    Follows (liftM x) (liftM x') Any := by
  rw [Follows]
  intro d d' e a hd hx
  obtain ⟨-, rfl⟩ := Prod.mk.inj (hx.symm.trans (exec_lift x d))
  exact ⟨(x' d').1, (x' d').2, rfl, trivial, h d d' hd⟩

/-! ## References -/

theorem follows_resolveType (n : Name) (slot slot' : TypeSlot) :
    Follows (liftM (Draft.resolveType n slot)) (liftM (Draft.resolveType n slot')) Any :=
  follows_lift fun d d' h => by rw [Draft.names_resolveType, Draft.names_resolveType, h]

theorem follows_resolveService (n : Name) (slot slot' : ServiceSlot) :
    Follows (liftM (Draft.resolveService n slot)) (liftM (Draft.resolveService n slot')) Any :=
  follows_lift fun d d' h => by rw [Draft.names_resolveService, Draft.names_resolveService, h]

theorem follows_typeRef (ref : TypeRef) (slot slot' : TypeSlot) :
    Follows (typeRef ref slot) (typeRef ref slot') Any := by
  unfold typeRef
  split
  · exact follows_lift fun d d' h => by rw [Draft.names_internList, Draft.names_internList, h]
  · exact follows_resolveType _ slot slot'

/-! ## Bodies of structs -/

theorem follows_member (owner owner' : TypeId) (decl : MemberDecl) :
    Follows (member owner decl) (member owner' decl) Any := by
  refine follows_checked.bind fun name _ hname => ?_
  subst hname
  refine follows_get.bind fun d d' _ => ?_
  refine (follows_typeRef decl.type _ _).bind fun type type' _ => ?_
  exact follows_modify (fun _ => rfl) fun _ => rfl

theorem follows_structBase (id id' : TypeId) (base : Option String) :
    Follows (structBase id base) (structBase id' base) Any := by
  cases base with
  | none => exact .pure trivial
  | some text =>
    refine follows_checked.bind fun name _ hname => ?_
    subst hname
    refine (follows_resolveType name _ _).bind fun base base' _ => ?_
    exact follows_modify (fun _ => rfl) fun _ => rfl

/-! ## Bodies of services -/

theorem follows_parameter (decl : ParameterDecl) (slot slot' : TypeSlot) :
    Follows (parameter decl slot) (parameter decl slot') Any := by
  refine follows_checked.bind fun name _ hname => ?_
  subst hname
  exact (follows_typeRef decl.type slot slot').bind fun _ _ _ => .pure trivial

theorem follows_methodParameter (r r' : MethodRef) (decl : ParameterDecl) (i : Nat) :
    Follows (methodParameter r decl i) (methodParameter r' decl i) Any :=
  (follows_parameter decl _ _).bind fun _ _ _ => follows_modify (fun _ => rfl) fun _ => rfl

theorem follows_methodConstraint (r r' : MethodRef) (decl : ConstraintDecl) (i : Nat) :
    Follows (methodConstraint r decl i) (methodConstraint r' decl i) Any := by
  refine Follows.bind (Q := Any) ?_ fun _ _ _ => ?_
  · refine follows_checked.bind fun name _ hname => ?_
    subst hname
    exact .pure trivial
  · exact Follows.seq (follows_modify (fun _ => rfl) fun _ => rfl)
      (follows_modify (fun _ => rfl) fun _ => rfl)

theorem follows_method (id id' : ServiceId) (decl : MethodDecl) :
    Follows (method id decl) (method id' decl) Any := by
  unfold method
  refine follows_checked.bind fun name _ hname => ?_
  subst hname
  refine follows_get.bind fun d d' _ => ?_
  dsimp only
  refine Follows.seq (follows_modify (fun _ => rfl) fun _ => rfl) ?_
  refine Follows.seq (.forM ?_ _) (.forM ?_ _)
  · intro p
    exact follows_methodParameter _ _ p.1 p.2
  · intro c
    exact follows_methodConstraint _ _ c.1 c.2

theorem follows_locator (id id' : ServiceId) (decl : LocatorDecl) :
    Follows (locator id decl) (locator id' decl) Any := by
  unfold locator
  refine follows_checked.bind fun name _ hname => ?_
  subst hname
  rw [parseServiceName_eq]
  refine follows_checked.bind fun target _ htarget => ?_
  subst htarget
  refine follows_get.bind fun d d' _ => ?_
  dsimp only
  refine Follows.bind (follows_resolveService target _ _) fun service service' _ => ?_
  refine Follows.bind (.mapM ?_ _) fun _ _ _ => follows_modify (fun _ => rfl) fun _ => rfl
  intro p
  exact follows_parameter p.1 _ _

theorem follows_serviceBase (id id' : ServiceId) (base : Option String) :
    Follows (serviceBase id base) (serviceBase id' base) Any := by
  cases base with
  | none => exact .pure trivial
  | some text =>
    rw [serviceBase, serviceBase, parseServiceName_eq]
    refine follows_checked.bind fun name _ hname => ?_
    subst hname
    refine (follows_resolveService name _ _).bind fun base base' _ => ?_
    exact follows_modify (fun _ => rfl) fun _ => rfl

theorem follows_electRoot (id id' : ServiceId) : Follows (electRoot id) (electRoot id') Any := by
  rw [Follows]
  intro d d' e a hd hx
  obtain ⟨-, rfl⟩ := Prod.mk.inj (hx.symm.trans (exec_electRoot id d))
  exact ⟨(), d'.elect id', exec_electRoot id' d', trivial, hd⟩

end Declare

/-! ## Registering -/

namespace Draft

variable {d d' e : Draft}

theorem names_enterType {n : Name} (hfree : d.model.findType? n = none) (space : String)
    (x : DataType) : (d.enterType space n x).names =
      { d.names with types := fun y => n = y || d.names.types y } := by
  have htypes : ∀ y, ((d.enterType space n x).model.findType? y).isSome =
      (decide (n = y) || (d.model.findType? y).isSome) := by
    intro y
    rw [Bool.eq_iff_iff, Bool.or_eq_true, decide_eq_true_eq]
    simp only [Option.isSome_iff_exists, findType?_enterType space hfree]
    simp [exists_or, eq_comm]
  simp only [names, htypes, findService?_enterType, findList?_enterType]
  rfl

theorem names_enterService {s : DefinedService} (hfree : d.model.findService? s.name = none)
    (space : String) : (d.enterService space s).names =
      { d.names with services := fun y => s.name = y || d.names.services y } := by
  have hservices : ∀ y, ((d.enterService space s).model.findService? y).isSome =
      (decide (s.name = y) || (d.model.findService? y).isSome) := by
    intro y
    rw [Bool.eq_iff_iff, Bool.or_eq_true, decide_eq_true_eq]
    simp only [Option.isSome_iff_exists, findService?_enterService space hfree]
    simp [exists_or, eq_comm]
  simp only [names, hservices, findType?_enterService, findList?_enterService]
  rfl

end Draft

/-! ## Whole declarations -/

namespace Declare

variable {d d' e : Draft}

theorem exec_checked {role : NameRole} {text : String} {name : Name} (hn : name.isEmpty = false)
    (d : Draft) : (checked role text name).exec d = (.ok name, d) := by
  unfold checked
  rw [if_neg (by simp [hn])]
  exact exec_pure name d

/-- A struct whose name is free is registered by `structType`, and built from there. -/
theorem exec_structType {decl : TypeDecl} (hn : (Name.ofCase decl.name).isEmpty = false)
    (hfree : d.model.findType? (Name.ofCase decl.name) = none) (supertype : Supertype)
    (members : List MemberDecl) : (structType decl supertype members).exec d =
      (structBase d.nextType supertype.base? >>= fun _ =>
        members.forM (member d.nextType)).exec (d.enterType decl.space (Name.ofCase decl.name)
          (.struct (structShell decl (d.model.house decl.space).1))) := by
  have hshell := shell_structShell decl (d.model.house decl.space).1
  have hadd := Draft.addType_placeType decl.space hshell.name hfree
  unfold structType
  refine (exec_bind_ok (exec_checked hn d)).trans ?_
  refine (exec_bind_ok (exec_moduleOf decl.space d)).trans ?_
  refine (exec_bind_ok (exec_allocType _ decl.space d)).trans ?_
  exact exec_bind_ok (exec_register_ok hadd)

/-- An enumeration with valid constants whose name is free is registered by `enumType`. -/
theorem exec_enumType {decl : TypeDecl} (hn : (Name.ofCase decl.name).isEmpty = false)
    (hfree : d.model.findType? (Name.ofCase decl.name) = none) {constants : List ConstantDecl}
    (hconstants : constants.all (·.isNamed) = true) : ∃ values,
      (enumType decl constants).exec d = (.ok (), d.enterType decl.space (Name.ofCase decl.name)
        (.enum (enumShell decl (d.model.house decl.space).1 values))) := by
  let module := (d.model.house decl.space).1
  obtain ⟨values, hvalues⟩ : ∃ values, (constants.mapM (enumValue d.nextType)).exec
      (d.placeType decl.space (.enum (enumShell decl module []))) =
      (.ok values, d.placeType decl.space (.enum (enumShell decl module []))) := by
    have hensures : Ensures (constants.mapM (enumValue d.nextType))
      (d.placeType decl.space (.enum (enumShell decl module []))) _ _ :=
      ensures_enumValues constants
    rw [Ensures] at hensures
    rcases hexec : (constants.mapM (enumValue d.nextType)).exec
      (d.placeType decl.space (.enum (enumShell decl module []))) with ⟨_ | values, e⟩ <;>
      rw [hexec] at hensures
    · rw [hensures.1] at hconstants
      cases hconstants
    · obtain ⟨-, rfl, -⟩ := hensures
      exact ⟨values, rfl⟩
  have hshell := shell_enumShell decl module values
  have hadd := Draft.addType_placeType decl.space hshell.name hfree
  refine ⟨values, ?_⟩
  unfold enumType
  refine (exec_bind_ok (exec_checked hn d)).trans ?_
  refine (exec_bind_ok (exec_moduleOf decl.space d)).trans ?_
  refine (exec_bind_ok (exec_allocType _ decl.space d)).trans ?_
  refine (exec_bind_ok hvalues).trans ?_
  refine (exec_bind_ok (exec_updateModel _ _)).trans ?_
  rw [modifyType_placeType]
  exact exec_discard (exec_register_ok hadd)

/-- The body of a service `id`, and its election. -/
def serviceBody (decl : ServiceDecl) (id : ServiceId) : Declare Unit := do
  serviceBase id decl.supertype.base?
  decl.methods.forM (method id)
  decl.locators.forM (locator id)
  if decl.isRoot then electRoot id

theorem exec_service {decl : ServiceDecl} (hn : (serviceName decl.name).isEmpty = false)
    (hfree : d.model.findService? (serviceName decl.name) = none) :
    (service decl).exec d = (serviceBody decl d.nextService).exec
      (d.enterService decl.space (serviceShell decl (d.model.house decl.space).1)) := by
  have hshell := shell_serviceShell decl (d.model.house decl.space).1
  have hadd := Draft.addService_placeService decl.space (hshell.name.symm ▸ hfree)
  unfold service
  rw [parseServiceName_eq]
  refine (exec_bind_ok (exec_checked hn d)).trans ?_
  refine (exec_bind_ok (exec_moduleOf decl.space d)).trans ?_
  refine (exec_bind_ok (exec_allocService _ decl.space d)).trans ?_
  exact exec_bind_ok (exec_register_ok hadd)

theorem follows_serviceBody (decl : ServiceDecl) (id id' : ServiceId) :
    Follows (serviceBody decl id) (serviceBody decl id') Any := by
  unfold serviceBody
  refine Follows.seq (follows_serviceBase id id' _) ?_
  refine Follows.seq (.forM (follows_method id id') _) ?_
  refine Follows.seq (.forM (follows_locator id id') _) ?_
  split
  · exact follows_electRoot id id'
  · exact .pure trivial

end Declare

namespace Draft

variable {d d' : Draft} {decl : Declaration}

/-- What is carried out under a free name has a name with words and a valid body. -/
theorem Outcome.isNamed_type {t : TypeDecl} {e : Draft} (h : d.Outcome (.type t) true e)
    (hfree : d.model.findType? (Name.ofCase t.name) = none) :
    (Name.ofCase t.name).isEmpty = false ∧ t.body.isNamed = true := by
  cases h with
  | takenType _ _ _ htaken =>
    rw [hfree] at htaken
    cases htaken
  | addedType hn _ _ _ _ _ _ _ _ hc => exact ⟨hn, hc⟩

theorem Outcome.isNamed_service {t : ServiceDecl} {e : Draft}
    (h : d.Outcome (.service t) true e) : (serviceName t.name).isEmpty = false := by
  cases h with
  | takenService hn | addedService hn => exact hn

theorem names_declare_type {t : TypeDecl} (h : d.names = d'.names)
    (hfree : d.model.findType? (Name.ofCase t.name) = none)
    (hn : (Name.ofCase t.name).isEmpty = false) (hbody : t.body.isNamed = true)
    (hok : (d.declare (.type t)).1.isOk = true) : (d'.declare (.type t)).1.isOk = true ∧
      (d.declare (.type t)).2.names = (d'.declare (.type t)).2.names := by
  have hfree' := findType?_eq_none_of_names h hfree
  have henter : ∀ x x', (d.enterType t.space (Name.ofCase t.name) x).names =
      (d'.enterType t.space (Name.ofCase t.name) x').names := by
    intro x x'
    rw [names_enterType hfree, names_enterType hfree', h]
  cases ht : t.body with
  | struct supertype members =>
    have hdecl : ∀ d : Draft, d.declare (.type t) =
        (Declare.structType t supertype members).exec d := by
      intro d
      show (Declaration.type t).declare.exec d = _
      simp only [Declaration.declare, ht]
    rw [hdecl, Declare.exec_structType hn hfree] at hok
    rw [hdecl, hdecl, Declare.exec_structType hn hfree, Declare.exec_structType hn hfree']
    exact ((Declare.follows_structBase _ _ _).seq
      (.forM (Declare.follows_member _ _) members)).exec (henter _ _) hok
  | enum constants =>
    have hdecl : ∀ d : Draft, d.declare (.type t) = (Declare.enumType t constants).exec d := by
      intro d
      show (Declaration.type t).declare.exec d = _
      simp only [Declaration.declare, ht]
    rw [ht] at hbody
    obtain ⟨values, hx⟩ := Declare.exec_enumType hn hfree hbody
    obtain ⟨values', hx'⟩ := Declare.exec_enumType hn hfree' hbody
    rw [hdecl, hdecl, hx, hx']
    exact ⟨rfl, henter _ _⟩

theorem names_declare_service {t : ServiceDecl} (h : d.names = d'.names)
    (hfree : d.model.findService? (serviceName t.name) = none)
    (hn : (serviceName t.name).isEmpty = false)
    (hok : (d.declare (.service t)).1.isOk = true) : (d'.declare (.service t)).1.isOk = true ∧
      (d.declare (.service t)).2.names = (d'.declare (.service t)).2.names := by
  have hfree' := findService?_eq_none_of_names h hfree
  have hdecl : ∀ d : Draft, d.declare (.service t) = (Declare.service t).exec d := fun _ => rfl
  have hname := fun module => (Declare.shell_serviceShell t module).name
  have henter : ∀ k k', (d.enterService t.space (Declare.serviceShell t k)).names =
      (d'.enterService t.space (Declare.serviceShell t k')).names := by
    intro k k'
    rw [names_enterService (by rw [hname, hfree]), names_enterService (by rw [hname, hfree']), h,
      hname, hname]
  rw [hdecl, Declare.exec_service hn hfree] at hok
  rw [hdecl, hdecl, Declare.exec_service hn hfree, Declare.exec_service hn hfree']
  exact (Declare.follows_serviceBody t _ _).exec (henter _ _) hok

/-- A declaration `decl` with a free name that is carried out in `d` is carried out in `d'` if the
drafts agree in `names`, and they agree afterwards. -/
theorem names_declare (hs : d.Sound) (hb : d.Based) (h : d.names = d'.names)
    (htype : ∀ n, decl.typeName? = some n → d.model.findType? n = none)
    (hservice : ∀ n, decl.serviceName? = some n → d.model.findService? n = none)
    (hok : (d.declare decl).1.isOk = true) :
    (d'.declare decl).1.isOk = true ∧ (d.declare decl).2.names = (d'.declare decl).2.names := by
  have ho := outcome_declare hs hb decl
  rw [hok] at ho
  cases decl with
  | document t => exact ⟨rfl, h⟩
  | type t =>
    have hfree := htype _ rfl
    obtain ⟨hn, hbody⟩ := ho.isNamed_type hfree
    exact names_declare_type h hfree hn hbody hok
  | service t => exact names_declare_service h (hservice _ rfl) ho.isNamed_service hok

end Draft

end ApiModel
