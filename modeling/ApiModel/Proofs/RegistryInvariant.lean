import ApiModel.Proofs.Steps
import ApiModel.Proofs.Unambiguous
import Mathlib.Data.List.Nodup

/-!
# The registry stays consistent

Whatever is declared, and whether or not it can be carried out, a model keeps its
entries and its indexes in step. Names lead to entries of that name, modules list
what is registered in them and list it once, the root is registered, everything
that is declared has a name and knows where it stands, and no identifier leads
out of the model.

Most of this goes back to single steps: a step adds what is in order and keeps
what is in order. What concerns modules and the root is read off the outcome of
whole declarations. Settling and parsing then change nothing but references and
expressions.
-/

namespace ApiModel

/-! ## Entries in order -/

/-- The struct `s` at `id` has a name and a module that is there, and its members have names and
point back to it. -/
structure StructType.InOrder (s : StructType) (m : Model) (id : TypeId) : Prop where
  name : s.name.isEmpty = false
  module : m.HasModule s.module
  members : ∀ x ∈ s.members, x.name.isEmpty = false ∧ x.owner = id

structure EnumType.InOrder (e : EnumType) (m : Model) (id : TypeId) : Prop where
  name : e.name.isEmpty = false
  module : m.HasModule e.module
  values : ∀ v ∈ e.values, v.name.isEmpty = false ∧ v.owner = id

/-- Primitives, lists and undefined types have nothing that was declared. -/
def DataType.InOrder (m : Model) (id : TypeId) : DataType → Prop
  | .struct s => s.InOrder m id
  | .enum e => e.InOrder m id
  | .primitive _ | .list _ _ | .undefined _ => True

/-- The method `x` at `position` points back to its service, and its constraints to it. -/
structure Method.InOrder (x : Method) (position : MethodRef) : Prop where
  name : x.name.isEmpty = false
  service : x.service = position.service
  parameters : ∀ p ∈ x.parameters, p.name.isEmpty = false
  constraints : ∀ c ∈ x.constraints, c.concept.name.isEmpty = false ∧ c.method = position

structure Locator.InOrder (l : Locator) : Prop where
  name : l.name.isEmpty = false
  parameters : ∀ p ∈ l.parameters, p.name.isEmpty = false

structure DefinedService.InOrder (s : DefinedService) (m : Model) (id : ServiceId) : Prop where
  name : s.name.isEmpty = false
  module : m.HasModule s.module
  methods : ∀ (i : Nat) (x : Method), s.methods[i]? = some x → x.InOrder ⟨id, i⟩
  locators : ∀ l ∈ s.locators, l.InOrder

/-- Every entry of `m` is in order. -/
structure Model.InOrder (m : Model) : Prop where
  types : ∀ {id t}, m.type? id = some t → t.InOrder m id
  services : ∀ {id s}, m.service? id = some (.defined s) → s.InOrder m id

section Entries

variable {m m' : Model}

theorem Model.Grows.isSome_module? {own : Set Entity} (h : m.Grows own m') {k : ModuleId}
    (hk : (m.module? k).isSome) : (m'.module? k).isSome := by
  obtain ⟨x, hx⟩ := Option.isSome_iff_exists.mp hk
  have hname : m.moduleName? k = some x.name := by rw [Model.moduleName?, hx]; rfl
  obtain ⟨x', hx', -⟩ := Option.map_eq_some_iff.mp (h.moduleName hname)
  exact Option.isSome_iff_exists.mpr ⟨x', hx'⟩

theorem Model.HasModule.mono {module : Option ModuleId} (h : m.HasModule module)
    (hk : ∀ {k}, (m.module? k).isSome → (m'.module? k).isSome) : m'.HasModule module :=
  fun k hmod => hk (h k hmod)

theorem DataType.InOrder.mono {id : TypeId} {t : DataType} (h : t.InOrder m id)
    (hk : ∀ {k}, (m.module? k).isSome → (m'.module? k).isSome) : t.InOrder m' id := by
  cases t with
  | struct s => exact ⟨h.name, h.module.mono hk, h.members⟩
  | enum e => exact ⟨h.name, h.module.mono hk, h.values⟩
  | primitive | list | undefined => trivial

theorem DefinedService.InOrder.mono {id : ServiceId} {s : DefinedService} (h : s.InOrder m id)
    (hk : ∀ {k}, (m.module? k).isSome → (m'.module? k).isSome) : s.InOrder m' id :=
  { h with module := h.module.mono hk }

theorem DataType.Blank.inOrder {id : TypeId} {t : DataType} (h : t.Blank)
    (hk : m.HasModule t.module?) : t.InOrder m id := by
  cases h with
  | struct hn => exact ⟨hn, hk, by simp [StructType.members]⟩
  | enum hn => exact ⟨hn, hk, by simp⟩

theorem DefinedService.Blank.inOrder {id : ServiceId} {s : DefinedService} (h : s.Blank)
    (hk : m.HasModule s.module) : s.InOrder m id :=
  ⟨h.name, hk, by simp [h.methods], by simp [h.locators]⟩

theorem mem_members_addMember {s : StructType} {x y : Member} :
    y ∈ (s.addMember x).members ↔ y ∈ s.members ∨ y = x := by
  unfold StructType.addMember
  split <;> simp only [StructType.members, List.mem_append, List.mem_singleton] <;> tauto

/-- A `DataType.Edit` keeps a type in order. -/
theorem DataType.InOrder.edit {id : TypeId} {t t' : DataType} (h : t.InOrder m id)
    (he : t.Edit id t') : t'.InOrder m id := by
  cases he with
  | values hv => exact ⟨h.name, h.module, hv⟩
  | element => trivial
  | base => exact ⟨h.name, h.module, h.members⟩
  | @member s x hn ho =>
    refine ⟨?_, ?_, fun y hy => ?_⟩
    · rw [Declare.name_addMember]
      exact h.name
    · unfold StructType.addMember
      split <;> exact h.module
    · rcases mem_members_addMember.mp hy with hy | rfl
      · exact h.members y hy
      · exact ⟨hn, ho⟩

theorem DefinedService.InOrder.modifyMethod {id : ServiceId} {s : DefinedService} {i : Nat}
    {f : Method → Method} (h : s.InOrder m id)
    (hf : ∀ x : Method, x.InOrder ⟨id, i⟩ → (f x).InOrder ⟨id, i⟩) :
    (s.modifyMethod i f).InOrder m id := by
  refine { h with methods := fun j y hy => ?_ }
  rw [DefinedService.modifyMethod, List.getElem?_modify] at hy
  obtain ⟨x, hx, rfl⟩ := Option.map_eq_some_iff.mp hy
  split
  · rename_i hij
    subst hij
    exact hf x (h.methods i x hx)
  · exact h.methods j x hx

/-- A `DefinedService.Edit` keeps a service in order. -/
theorem DefinedService.InOrder.edit {id : ServiceId} {s s' : DefinedService} (h : s.InOrder m id)
    (he : s.Edit id s') : s'.InOrder m id := by
  cases he with
  | base => exact ⟨h.name, h.module, h.methods, h.locators⟩
  | method hn =>
    refine { h with methods := fun i x hx => ?_ }
    rw [DefinedService.addMethod, getElem?_snoc] at hx
    split at hx
    · obtain rfl := Option.some.inj hx
      exact ⟨hn, rfl, by simp, by simp⟩
    · exact h.methods i x hx
  | parameter _ hn =>
    refine h.modifyMethod fun x hx => { hx with parameters := fun p hp => ?_ }
    rcases List.mem_append.mp hp with hp | hp
    · exact hx.parameters p hp
    · rw [List.mem_singleton.mp hp, hn]
  | constraint _ hn hc =>
    refine h.modifyMethod fun x hx => { hx with constraints := fun c hmem => ?_ }
    rcases List.mem_append.mp hmem with hmem | hmem
    · exact hx.constraints c hmem
    · obtain rfl := List.mem_singleton.mp hmem
      exact ⟨hn, hc⟩
  | locator hn hp =>
    refine { h with locators := fun l hl => ?_ }
    rcases List.mem_append.mp hl with hl | hl
    · exact h.locators l hl
    · obtain rfl := List.mem_singleton.mp hl
      exact ⟨hn, hp⟩

end Entries

/-! ## Constraints that are there -/

/-- The constraint at `j` of the method at `i`. -/
def DefinedService.constraint? (s : DefinedService) (i j : Nat) : Option Constraint :=
  s.methods[i]?.bind (·.constraints[j]?)

theorem Model.constraint?_eq (m : Model) (r : ConstraintRef) : m.constraint? r =
    (m.definedService? r.method.service).bind (·.constraint? r.method.index r.index) :=
  Option.bind_assoc ..

theorem DefinedService.isSome_constraint?_modifyMethod {s : DefinedService} {f : Method → Method}
    {i j k : Nat} (hf : ∀ x : Method, x.constraints <+: (f x).constraints)
    (h : (s.constraint? i j).isSome) : ((s.modifyMethod k f).constraint? i j).isSome := by
  obtain ⟨c, hc⟩ := Option.isSome_iff_exists.mp h
  obtain ⟨x, hx, hj⟩ := Option.bind_eq_some_iff.mp hc
  rw [DefinedService.constraint?, DefinedService.modifyMethod, List.getElem?_modify, hx]
  simp only [Option.map_eq_map, Option.map_some, Option.bind_some]
  split
  · obtain ⟨rest, hrest⟩ := hf x
    rw [← hrest, List.getElem?_append_left (List.getElem?_eq_some_iff.mp hj).1, hj]
    rfl
  · rw [hj]
    rfl

/-- By a `DefinedService.Edit` no constraint is taken away. -/
theorem DefinedService.Edit.isSome_constraint? {id : ServiceId} {s s' : DefinedService}
    (he : s.Edit id s') {i j : Nat} (h : (s.constraint? i j).isSome) :
    (s'.constraint? i j).isSome := by
  cases he with
  | base | locator => exact h
  | method =>
    obtain ⟨c, hc⟩ := Option.isSome_iff_exists.mp h
    obtain ⟨x, hx, hj⟩ := Option.bind_eq_some_iff.mp hc
    rw [DefinedService.constraint?, DefinedService.addMethod,
      List.getElem?_append_left (List.getElem?_eq_some_iff.mp hx).1, hx, Option.bind_some, hj]
    rfl
  | parameter => exact isSome_constraint?_modifyMethod (fun _ => List.prefix_rfl) h
  | constraint => exact isSome_constraint?_modifyMethod (fun _ => List.prefix_append _ _) h

theorem Model.isSome_constraint?_modifyService {m : Model} {id : ServiceId} {s : DefinedService}
    {f : DefinedService → DefinedService} {r : ConstraintRef}
    (hs : m.service? id = some (.defined s)) (he : s.Edit id (f s))
    (h : (m.constraint? r).isSome) : ((m.modifyService id f).constraint? r).isSome := by
  rw [constraint?_eq] at h ⊢
  by_cases hid : id = r.method.service
  · subst hid
    rw [definedService?_eq_some.mpr hs] at h
    rw [definedService?_eq_some.mpr (service?_modifyService_self hs f)]
    exact he.isSome_constraint? h
  · rwa [definedService?, service?_modifyService_ne m hid]

/-! ## Steps -/

namespace Draft

/-- Every entry of the model of `d` is in order, and what is queued is there. -/
structure InOrder (d : Draft) : Prop where
  model : d.model.InOrder
  queue : ∀ r ∈ d.constraints, (d.model.constraint? r).isSome

variable {d d' : Draft}

/-- A change from `d` to `d'` keeps a draft in order if what it adds or alters is in order. -/
theorem InOrder.of_new (h : d.InOrder)
    (hk : ∀ {k}, (d.model.module? k).isSome → (d'.model.module? k).isSome)
    (htypes : ∀ {id t}, d'.model.type? id = some t →
      d.model.type? id = some t ∨ t.InOrder d'.model id)
    (hservices : ∀ {id s}, d'.model.service? id = some (.defined s) →
      d.model.service? id = some (.defined s) ∨ s.InOrder d'.model id)
    (hconstraint : ∀ {r}, (d.model.constraint? r).isSome → (d'.model.constraint? r).isSome)
    (hqueue : ∀ r ∈ d'.constraints, r ∈ d.constraints ∨ (d'.model.constraint? r).isSome) :
    d'.InOrder where
  model :=
    { types := fun ht => (htypes ht).elim (fun ht => (h.model.types ht).mono hk) id
      services := fun hs => (hservices hs).elim (fun hs => (h.model.services hs).mono hk) id }
  queue r hr := (hqueue r hr).elim (fun hr => hconstraint (h.queue r hr)) id

/-- The same as `InOrder.of_new`, where services stay as they are. -/
theorem InOrder.of_types (h : d.InOrder)
    (hk : ∀ {k}, (d.model.module? k).isSome → (d'.model.module? k).isSome)
    (htypes : ∀ {id t}, d'.model.type? id = some t →
      d.model.type? id = some t ∨ t.InOrder d'.model id)
    (hservices : d'.model.services = d.model.services)
    (hqueue : d'.constraints = d.constraints) : d'.InOrder := by
  have hservice : ∀ id, d'.model.service? id = d.model.service? id := fun id => by
    rw [Model.service?, Model.service?, hservices]
  have hconstraint : ∀ r, d'.model.constraint? r = d.model.constraint? r := fun r => by
    simp only [Model.constraint?, Model.method?, Model.definedService?, hservice]
  exact h.of_new hk htypes (fun hs => .inl (hservice _ ▸ hs)) (fun hr => by rwa [hconstraint])
    fun r hr => .inl (hqueue ▸ hr)

/-- The same as `InOrder.of_new`, where types and modules stay as they are and services only come
in. -/
theorem InOrder.of_services {m : Model} (h : d.InOrder) (hk : m.modules = d.model.modules)
    (htypes : m.types = d.model.types) (hg : d.model.Grows ∅ m)
    (hservices : ∀ {id s}, m.service? id = some (.defined s) →
      d.model.service? id = some (.defined s) ∨ s.InOrder m id) :
    InOrder { d with model := m } := by
  refine h.of_new (fun {k} hs => ?_) (fun {id t} ht => .inl ?_) hservices (fun {r} hr => ?_)
    fun r hr => .inl hr
  · show (m.modules[k.index]?).isSome
    rw [hk]
    exact hs
  · rw [← ht]
    show d.model.types[id.index]? = m.types[id.index]?
    rw [htypes]
  · rw [Model.constraint?_eq] at hr ⊢
    obtain ⟨c, hc⟩ := Option.isSome_iff_exists.mp hr
    obtain ⟨s, hs, hc⟩ := Option.bind_eq_some_iff.mp hc
    have hs' := hg.service (Set.notMem_empty _) (Model.definedService?_eq_some.mp hs)
    show (Option.bind (m.definedService? _) _).isSome
    rw [Model.definedService?_eq_some.mpr hs', Option.bind_some, hc]
    rfl

/-- A type `x` that is in order comes in. -/
theorem InOrder.pushType {m : Model} {x : DataType} (h : d.InOrder)
    (htypes : m.types = d.model.types.push x) (hk : m.modules = d.model.modules)
    (hservices : m.services = d.model.services) (hx : x.InOrder d.model d.nextType) :
    InOrder { d with model := m } := by
  have hmodule : ∀ {k}, (d.model.module? k).isSome → (m.module? k).isSome := fun {k} hs => by
    rwa [Model.module?, hk]
  refine h.of_types hmodule (fun {id t} ht => ?_) hservices rfl
  rw [Model.type?, htypes] at ht
  rcases Model.type?_push_some.mp ht with ⟨rfl, rfl⟩ | ht
  · exact .inr (hx.mono hmodule)
  · exact .inl ht

/-- A service `x` comes in that is undefined or in order. -/
theorem InOrder.pushService {m : Model} {x : Service} (h : d.InOrder)
    (hservices : m.services = d.model.services.push x) (hk : m.modules = d.model.modules)
    (htypes : m.types = d.model.types) (hg : d.model.Grows ∅ m)
    (hx : ∀ s, x = .defined s → s.InOrder m d.nextService) : InOrder { d with model := m } := by
  refine h.of_services hk htypes hg fun {id s} hs => ?_
  rw [Model.service?, hservices] at hs
  rcases Model.service?_push_some.mp hs with ⟨rfl, heq⟩ | hs
  · exact .inr (hx s heq.symm)
  · exact .inl hs

/-- A `Step` keeps a draft in order. -/
theorem Step.inOrder (h : d.Step d') (hd : d.InOrder) : d'.InOrder := by
  cases h with
  | report | deferType | deferService | elect | addDocument =>
    exact hd.of_types id .inl rfl rfl
  | house space =>
    exact hd.of_types (d.model.grows_house space).isSome_module?
      (fun ht => .inl (by rwa [Model.type?, Model.types_house] at ht))
      (d.model.services_house space) rfl
  | @allocType x hx hk =>
    exact hd.pushType rfl rfl rfl (hx.inOrder hk)
  | @editType id x f hx he =>
    refine hd.of_types (fun hk => hk) (fun {id' t} ht => ?_) rfl rfl
    rw [Model.type?_modifyType] at ht
    split at ht
    · rename_i hid
      subst hid
      rw [hx] at ht
      obtain rfl := Option.some.inj ht
      exact .inr (((hd.model.types hx).edit he).mono fun hk => hk)
    · exact .inl ht
  | addType _ _ hm =>
    obtain rfl | ⟨n, module, -, rfl⟩ := Model.addType_cases hm
    · exact hd
    · refine hd.of_types (Model.grows_addType hm).isSome_module?
        (fun ht => .inl (by rwa [Model.type?_withType] at ht)) ?_ rfl
      cases module <;> rfl
  | undefinedType n =>
    rcases h : d.model.undefinedTypes[n]? with _ | id
    · rw [Model.undefinedType_new h]
      exact hd.pushType rfl rfl rfl trivial
    · rw [Model.undefinedType_known h]
      exact hd
  | addList n e =>
    exact hd.pushType rfl rfl rfl trivial
  | @allocService s hs hk =>
    refine hd.pushService rfl rfl rfl (d.model.grows_pushService _) ?_
    rintro _ ⟨⟩
    exact hs.inOrder hk
  | @editService id s f hs he =>
    refine hd.of_new (fun hk => hk) .inl (fun {id' s'} hs' => ?_)
      (Model.isSome_constraint?_modifyService hs he) fun r hr => .inl hr
    replace hs' := (d.model.service?_modifyService id f id').symm.trans hs'
    split at hs'
    · rename_i hid
      subst hid
      rw [hs] at hs'
      obtain rfl := Service.defined.inj (Option.some.inj hs')
      exact .inr (((hd.model.services hs).edit he).mono fun hk => hk)
    · exact .inl hs'
  | addService _ _ hm =>
    obtain rfl | ⟨n, module, -, rfl⟩ := Model.addService_cases hm
    · exact hd
    · refine hd.of_types (Model.grows_addService hm).isSome_module? (fun ht => .inl ?_) ?_ rfl
      · cases module <;> exact ht
      · cases module <;> rfl
  | undefinedService n =>
    rcases h : d.model.undefinedServices[n]? with _ | id
    · rw [Model.undefinedService_new h]
      refine hd.pushService rfl rfl rfl { d.model.grows_pushService (.undefined n) with } ?_
      rintro _ ⟨⟩
    · rw [Model.undefinedService_known h]
      exact hd
  | queue hr =>
    refine ⟨⟨hd.model.types, hd.model.services⟩, fun r' hr' => ?_⟩
    rcases List.mem_append.mp hr' with hr' | hr'
    · exact hd.queue r' hr'
    · rw [List.mem_singleton.mp hr']
      exact hr

theorem inOrder_initial : InOrder {} where
  model :=
    { types := fun ht => by
        obtain ⟨k, rfl⟩ := Model.type?_initial ht
        trivial
      services := fun hs => by
        rw [← Model.definedService?_eq_some, Model.definedService?_initial] at hs
        cases hs }
  queue r hr := by cases hr

theorem inOrder_steps (h : d.Steps d') (hd : d.InOrder) : d'.InOrder := by
  induction h with
  | refl => exact hd
  | tail _ hstep ih => exact hstep.inOrder ih

theorem inOrder_declareEach (ds : List Declaration) : (declareEach {} ds).InOrder :=
  inOrder_steps (steps_declareEach ds) inOrder_initial

/-! ## The root -/

/-- A declaration `decl` keeps the root or elects the service that it registers. -/
theorem Outcome.root_cases {decl : Declaration} {complete : Bool}
    (h : d.Outcome decl complete d') : d'.model.root = d.model.root ∨
      ∃ id ∈ d'.model.serviceIds, d'.model.root = some id := by
  cases h with
  | unnamedType | unnamedService | document => exact .inl rfl
  | droppedType | takenType => exact .inl (joins_placeType d _ _).root
  | takenService => exact .inl (joins_placeService d _ _).root
  | addedType _ _ _ hb => exact .inl ((joins_enterType d _ _ _).builds hb).root
  | @addedService t s₀ _ _ d₁ _ _ hx₀ hfree hb _ _ _ _ _ _ hd =>
    rw [hd]
    split
    · refine .inr ⟨d.nextService, ⟨s₀.name, ?_⟩, rfl⟩
      show d₁.model.findService? s₀.name = some d.nextService
      rw [hb.findService?]
      exact (findService?_enterService t.space (hx₀.name.symm ▸ hfree)).mpr (.inl ⟨rfl, rfl⟩)
    · exact .inl ((joins_enterService d _ _).builds hb).root

theorem root_mem_declareEach (ds : List Declaration) {id : ServiceId}
    (h : (declareEach {} ds).model.root = some id) : id ∈ (declareEach {} ds).model.serviceIds := by
  induction ds using List.reverseRecOn with
  | nil => cases h
  | append_singleton ds decl ih =>
    rcases (outcome_declareEach ds decl).root_cases with hroot | ⟨id', hid', hroot⟩
    · obtain ⟨n, hn⟩ := ih (hroot.symm.trans h)
      exact ⟨n, (extends_declareEach ds decl).grows.findService hn⟩
    · obtain rfl := Option.some.inj (hroot.symm.trans h)
      exact hid'

end Draft

/-! ## Settling -/

namespace Model

variable {m m' : Model}

/-- Every reference in `m` leads to an entry. -/
structure Linked (m : Model) : Prop where
  types : ∀ {slot id}, m.typeAt? slot = some id → (m.type? id).isSome
  services : ∀ {slot id}, m.serviceAt? slot = some id → (m.service? id).isSome

theorem typeAt?_settled (m : Model) (slot : TypeSlot) :
    m.settled.typeAt? slot = (m.typeAt? slot).map m.settledType := by
  rw [settled, ← mapSlots_const]
  exact typeAt?_mapSlots slot

theorem serviceAt?_settled (m : Model) (slot : ServiceSlot) :
    m.settled.serviceAt? slot = (m.serviceAt? slot).map m.settledService := by
  rw [settled, ← mapSlots_const]
  exact serviceAt?_mapSlots slot

theorem isSome_type?_settledType (hi : m.Indexed) {id : TypeId} (h : (m.type? id).isSome) :
    (m.type? (m.settledType id)).isSome := by
  unfold settledType
  split
  · rename_i n hn
    rcases hf : m.findType? n with _ | id'
    · exact h
    · obtain ⟨t, ht, -⟩ := hi.type hf
      exact Option.isSome_iff_exists.mpr ⟨t, ht⟩
  · exact h

theorem isSome_service?_settledService (hi : m.Indexed) {id : ServiceId}
    (h : (m.service? id).isSome) : (m.service? (m.settledService id)).isSome := by
  unfold settledService
  split
  · rename_i n hn
    rcases hf : m.findService? n with _ | id'
    · exact h
    · obtain ⟨s, hs, -⟩ := hi.service hf
      exact Option.isSome_iff_exists.mpr ⟨_, hs⟩
  · exact h

theorem Linked.settled (h : m.Linked) (hi : m.Indexed) : m.settled.Linked where
  types hid := by
    rw [typeAt?_settled] at hid
    obtain ⟨x, hx, rfl⟩ := Option.map_eq_some_iff.mp hid
    rw [type?_settled, Option.isSome_map]
    exact isSome_type?_settledType hi (h.types hx)
  services hid := by
    rw [serviceAt?_settled] at hid
    obtain ⟨x, hx, rfl⟩ := Option.map_eq_some_iff.mp hid
    rw [service?_settled, Option.isSome_map]
    exact isSome_service?_settledService hi (h.services hx)

theorem InOrder.settled (h : m.InOrder) : m.settled.InOrder where
  types {id t} ht := by
    rw [type?_settled] at ht
    obtain ⟨u, hu, rfl⟩ := Option.map_eq_some_iff.mp ht
    have ho := h.types hu
    cases u with
    | struct s =>
      refine ⟨ho.name, ho.module, fun x hx => ?_⟩
      have hmem : x ∈ s.members.map (·.mapRefs m.settledType) := by
        rw [StructType.members, List.map_append]
        exact hx
      obtain ⟨y, hy, rfl⟩ := List.mem_map.mp hmem
      exact ho.members y hy
    | enum e => exact ⟨ho.name, ho.module, ho.values⟩
    | primitive | list | undefined => trivial
  services {id s} hs := by
    rw [service?_settled] at hs
    obtain ⟨u, hu, he⟩ := Option.map_eq_some_iff.mp hs
    cases u with
    | undefined n => cases he
    | defined u =>
      obtain rfl := Service.defined.inj he
      have ho := h.services hu
      refine ⟨ho.name, ho.module, fun i x hx => ?_, fun l hl => ?_⟩
      · obtain ⟨y, hy, rfl⟩ := Option.map_eq_some_iff.mp (List.getElem?_map.symm.trans hx)
        have hm := ho.methods i y hy
        refine { hm with parameters := fun p hp => ?_ }
        obtain ⟨q, hq, rfl⟩ := List.mem_map.mp hp
        exact hm.parameters q hq
      · obtain ⟨k, hk, rfl⟩ := List.mem_map.mp hl
        refine { ho.locators k hk with parameters := fun p hp => ?_ }
        obtain ⟨q, hq, rfl⟩ := List.mem_map.mp hp
        exact (ho.locators k hk).parameters q hq

/-! ## Parsing -/

namespace Reparsed

theorem service? (h : m.Reparsed m') {id : ServiceId} {s : DefinedService}
    (hs : m.service? id = some (.defined s)) :
    ∃ s', m'.service? id = some (.defined s') ∧ s.Reparsed s' := by
  have hlt : id.index < m'.services.size := h.size ▸ service?_lt hs
  have hget : m'.service? id = some m'.services[id.index] := Array.getElem?_eq_getElem hlt
  rcases hx : m'.services[id.index] with s' | n
  · rw [hx] at hget
    obtain ⟨s₀, hs₀, hr⟩ := h.defined hget
    obtain rfl := Service.defined.inj (Option.some.inj (hs.symm.trans hs₀))
    exact ⟨s', hget, hr⟩
  · rw [hx] at hget
    rw [h.undefined.mp hget] at hs
    cases hs

/-- If `m'` is `m` with some constraints parsed, services correspond to each other. -/
theorem definedService? (h : m.Reparsed m') (id : ServiceId) :
    Option.Rel DefinedService.Reparsed (m.definedService? id) (m'.definedService? id) := by
  rcases hs : m.definedService? id with _ | s
  · rcases hs' : m'.definedService? id with _ | s'
    · exact .none
    · obtain ⟨s, hs₀, -⟩ := h.defined (definedService?_eq_some.mp hs')
      rw [definedService?_eq_some.mpr hs₀] at hs
      cases hs
  · obtain ⟨s', hs', hr⟩ := h.service? (definedService?_eq_some.mp hs)
    rw [definedService?_eq_some.mpr hs']
    exact .some hr

theorem isSome_service? (h : m.Reparsed m') (id : ServiceId) :
    (m'.service? id).isSome = (m.service? id).isSome := by
  rw [Model.service?, Model.service?, Bool.eq_iff_iff, isSome_getElem?, isSome_getElem?, h.size]

theorem typeAt? (h : m.Reparsed m') (slot : TypeSlot) : m'.typeAt? slot = m.typeAt? slot := by
  symm
  match slot with
  | .base id | .attribute id _ | .link id _ | .listElement id =>
    exact typeAt?_congr_type rfl (h.type? id).symm
  | .methodParameter ⟨id, i⟩ j =>
    rw [Model.typeAt?, Model.typeAt?, method?, method?, Option.bind_assoc, Option.bind_assoc]
    refine bind_eq_of_optionRel (h.definedService? id) fun s s' hr => ?_
    refine bind_eq_of_optionRel (optionRel_getElem? hr.2 i) fun x x' hx => ?_
    rw [hx.1]
  | .locatorParameter id i j =>
    rw [Model.typeAt?, Model.typeAt?]
    refine bind_eq_of_optionRel (h.definedService? id) fun s s' hr => ?_
    rw [hr.1]

theorem serviceAt? (h : m.Reparsed m') (slot : ServiceSlot) :
    m'.serviceAt? slot = m.serviceAt? slot := by
  symm
  match slot with
  | .base id | .locator id _ =>
    rw [Model.serviceAt?, Model.serviceAt?]
    refine bind_eq_of_optionRel (h.definedService? id) fun s s' hr => ?_
    rw [hr.1]

end Reparsed

theorem Indexed.reparsed (hi : m.Indexed) (h : m.Reparsed m') : m'.Indexed where
  type hn := by
    simp only [h.type?]
    exact hi.type ((h.findType? _).symm.trans hn)
  undefinedType {n id} := by
    rw [h.type?, h.rest]
    exact hi.undefinedType
  list {n id} := by
    simp only [h.type?]
    rw [h.rest]
    exact hi.list
  listElement {n id e} he := by
    rw [h.type?] at he
    rw [TypeNamed, h.type?, h.findType?]
    exact hi.listElement he
  service hn := by
    obtain ⟨s, hs, hname⟩ := hi.service ((h.findService? _).symm.trans hn)
    obtain ⟨s', hs', hr⟩ := h.service? hs
    exact ⟨s', hs', by rw [hr.1]; exact hname⟩
  undefinedService {n id} := by
    rw [h.undefined, h.rest]
    exact hi.undefinedService
  module hn := by
    rw [h.rest] at hn ⊢
    exact hi.module hn

theorem Housed.reparsed (hh : m.Housed) (h : m.Reparsed m') : m'.Housed := by
  refine hh.congr ?_ ?_ ?_ ?_ (fun id _ => typeModule?_congr (h.type? id)) fun id _ => ?_
  · rw [h.rest]
  · rw [h.rest]
  · rw [h.rest]
  · rw [h.rest]
  · refine (bind_eq_of_optionRel (h.definedService? id) fun s s' hr => ?_).symm
    rw [hr.1]

theorem Linked.reparsed (hl : m.Linked) (h : m.Reparsed m') : m'.Linked where
  types hid := by
    rw [h.typeAt?] at hid
    rw [h.type?]
    exact hl.types hid
  services hid := by
    rw [h.serviceAt?] at hid
    rw [h.isSome_service?]
    exact hl.services hid

theorem InOrder.reparsed (ho : m.InOrder) (h : m.Reparsed m') : m'.InOrder := by
  have hk : ∀ {k}, (m.module? k).isSome → (m'.module? k).isSome := fun {k} hk => by
    rw [h.rest]
    exact hk
  refine ⟨fun ht => ?_, fun {id s'} hs' => ?_⟩
  · rw [h.type?] at ht
    exact (ho.types ht).mono hk
  · obtain ⟨s, hs, hr⟩ := h.defined hs'
    have hso := (ho.services hs).mono hk
    rw [hr.1]
    refine { hso with methods := fun i x' hx' => ?_ }
    obtain ⟨x, hx, hxr⟩ := exists_of_optionRel (optionRel_getElem? hr.2 i) hx'
    have hxo := hso.methods i x hx
    rw [hxr.1]
    refine { hxo with constraints := fun c' hc' => ?_ }
    obtain ⟨c, hc, hcr⟩ := exists_of_forall₂ hxr.2 hc'
    rw [hcr]
    exact hxo.constraints c hc

end Model

/-! ## Consistent models -/

/-- Neither a `list` nor an `undefined` type is ever registered. -/
def DataType.IsRegistrable : DataType → Prop
  | .primitive _ | .struct _ | .enum _ => True
  | .list _ _ | .undefined _ => False

/-- What `IsRegistrable` has a name. -/
theorem DataType.InOrder.name {m : Model} {id : TypeId} {t : DataType} (h : t.InOrder m id)
    (hr : t.IsRegistrable) : t.name.isEmpty = false := by
  cases t with
  | primitive k => cases k <;> rfl
  | struct s => exact StructType.InOrder.name h
  | enum e => exact EnumType.InOrder.name h
  | list | undefined => exact hr.elim

theorem Listing.count_eq_one {ι : Type} [DecidableEq ι] {members : ModuleId → Option (List ι)}
    {registered : Set ι} {home : ι → Option ModuleId} (h : Listing members registered home)
    {id : ι} {k : ModuleId} (hid : id ∈ registered) (hk : home id = some k) :
    ∃ xs, members k = some xs ∧ xs.count id = 1 := by
  obtain ⟨xs, hxs⟩ := Option.isSome_iff_exists.mp (h.isSome hid hk)
  exact ⟨xs, hxs, List.count_eq_one_of_mem (h.nodup hxs) ((h.mem hxs id).mpr ⟨hid, hk⟩)⟩

namespace Model

variable {m : Model}

structure Consistent (m : Model) : Prop where
  primitive : ∀ k : PrimitiveKind, m.type? k.typeId = some (.primitive k)
  -- A name leads to an entry of that name, and so no two names lead to the same one.
  type : ∀ {n id}, m.findType? n = some id →
    ∃ t, m.type? id = some t ∧ t.name = n ∧ t.name.isEmpty = false ∧ t.IsRegistrable
  service : ∀ {n id}, m.findService? n = some id →
    ∃ s, m.service? id = some (.defined s) ∧ s.name = n ∧ s.name.isEmpty = false
  type_injective : ∀ {n n' id}, m.findType? n = some id → m.findType? n' = some id → n = n'
  service_injective : ∀ {n n' id},
    m.findService? n = some id → m.findService? n' = some id → n = n'
  -- What is registered is listed once where it belongs, and nothing else is listed.
  typeListed : ∀ {id k}, id ∈ m.typeIds → m.typeModule? id = some k →
    ∃ x, m.module? k = some x ∧ x.types.count id = 1
  listedType : ∀ {k x id}, m.module? k = some x → id ∈ x.types →
    id ∈ m.typeIds ∧ m.typeModule? id = some k
  serviceListed : ∀ {id k}, id ∈ m.serviceIds → m.serviceModule? id = some k →
    ∃ x, m.module? k = some x ∧ x.services.count id = 1
  listedService : ∀ {k x id}, m.module? k = some x → id ∈ x.services →
    id ∈ m.serviceIds ∧ m.serviceModule? id = some k
  root : ∀ {id}, m.root = some id → id ∈ m.serviceIds
  entries : m.InOrder
  -- Identifiers that are neither registered nor listed lead somewhere as well.
  linked : m.Linked
  listType : ∀ {n id}, m.findList? n = some id → (m.type? id).isSome
  undefinedType : ∀ {n : Name} {id}, m.undefinedTypes[n]? = some id → (m.type? id).isSome
  undefinedService : ∀ {n : Name} {id}, m.undefinedServices[n]? = some id → (m.service? id).isSome
  module : ∀ {n k}, m.findModule? n = some k → (m.module? k).isSome

theorem isRegistrable_of_registrableName {t : DataType} {n : Name}
    (h : registrableName t = .ok n) : t.IsRegistrable := by
  cases t with
  | primitive | struct | enum => trivial
  | list | undefined => cases h

theorem consistent_of (hi : m.Indexed) (hh : m.Housed) (ho : m.InOrder) (hl : m.Linked)
    (hp : ∀ k : PrimitiveKind, m.type? k.typeId = some (.primitive k))
    (hroot : ∀ {id}, m.root = some id → id ∈ m.serviceIds) : m.Consistent where
  primitive := hp
  type hn := by
    obtain ⟨t, ht, hname⟩ := hi.type hn
    have hr := isRegistrable_of_registrableName hname
    exact ⟨t, ht, (registrableName_ok hname).1, (ho.types ht).name hr, hr⟩
  service hn := by
    obtain ⟨s, hs, hname⟩ := hi.service hn
    exact ⟨s, hs, hname, (ho.services hs).name⟩
  type_injective hn hn' := by
    obtain ⟨t, ht, hname⟩ := hi.type hn
    obtain ⟨t', ht', hname'⟩ := hi.type hn'
    obtain rfl := Option.some.inj (ht.symm.trans ht')
    exact Except.ok.inj (hname.symm.trans hname')
  service_injective hn hn' := by
    obtain ⟨s, hs, rfl⟩ := hi.service hn
    obtain ⟨s', hs', rfl⟩ := hi.service hn'
    rw [Service.defined.inj (Option.some.inj (hs.symm.trans hs'))]
  typeListed hid hk := by
    obtain ⟨xs, hxs, hcount⟩ := hh.types.count_eq_one hid hk
    obtain ⟨x, hx, rfl⟩ := Option.map_eq_some_iff.mp hxs
    exact ⟨x, hx, hcount⟩
  listedType hx hid := (hh.types.mem (by rw [moduleTypes?, hx]; rfl) _).mp hid
  serviceListed hid hk := by
    obtain ⟨xs, hxs, hcount⟩ := hh.services.count_eq_one hid hk
    obtain ⟨x, hx, rfl⟩ := Option.map_eq_some_iff.mp hxs
    exact ⟨x, hx, hcount⟩
  listedService hx hid := (hh.services.mem (by rw [moduleServices?, hx]; rfl) _).mp hid
  root := hroot
  entries := ho
  linked := hl
  listType hn := by
    obtain ⟨e, he⟩ := hi.list.mp hn
    exact Option.isSome_iff_exists.mpr ⟨_, he⟩
  undefinedType hn := Option.isSome_iff_exists.mpr ⟨_, hi.undefinedType.mp hn⟩
  undefinedService hn := Option.isSome_iff_exists.mpr ⟨_, hi.undefinedService.mp hn⟩
  module hn := by
    obtain ⟨x, hx, -⟩ := Option.map_eq_some_iff.mp (hi.module hn)
    exact Option.isSome_iff_exists.mpr ⟨x, hx⟩

end Model

namespace Draft

variable {d : Draft}

/-- The model of `d` is consistent, and what is pending or queued is there. -/
structure Consistent (d : Draft) : Prop where
  model : d.model.Consistent
  pendingTypes : ∀ {n slot}, (n, slot) ∈ d.pendingTypes → slot.owner.Within d.model
  pendingServices : ∀ {n slot}, (n, slot) ∈ d.pendingServices → slot.owner.Within d.model
  constraints : ∀ r ∈ d.constraints, (d.model.constraint? r).isSome

theorem Sound.linked (hs : d.Sound) : d.model.Linked where
  types hid := by
    obtain ⟨t, ht⟩ := (hs.types hid).refers
    exact Option.isSome_iff_exists.mpr (hs.indexed.type?_of_refers ht)
  services hid := by
    obtain ⟨n, hn⟩ := (hs.services hid).named
    obtain ⟨s, hs, -⟩ := hs.indexed.name_of_serviceNamed hn
    exact Option.isSome_iff_exists.mpr ⟨s, hs⟩

theorem type?_typeId_declareEach (ds : List Declaration) (k : PrimitiveKind) :
    (declareEach {} ds).model.type? k.typeId = some (.primitive k) :=
  (grows_declareEach ds).type (Set.notMem_empty _) (Model.type?_typeId k)

theorem consistent_declareEach (ds : List Declaration) : (declareEach {} ds).Consistent := by
  have hs := (sound_declareEach ds).1
  have ho := inOrder_declareEach ds
  exact
    { model := Model.consistent_of hs.indexed (housed_declareEach ds) ho.model hs.linked
        (type?_typeId_declareEach ds) (root_mem_declareEach ds)
      pendingTypes := hs.typeOwners
      pendingServices := hs.serviceOwners
      constraints := ho.queue }

/-- Whatever is parsed afterwards, the `finishedModel` is consistent. -/
theorem consistent_settled (ds : List Declaration) {m : Model}
    (h : (finishedModel ds).Reparsed m) : m.Consistent := by
  have hs := (sound_declareEach ds).1
  have hi := hs.indexed
  refine Model.consistent_of (hi.settled.reparsed h) ((housed_declareEach ds).settled.reparsed h)
    ((inOrder_declareEach ds).model.settled.reparsed h) ((hs.linked.settled hi).reparsed h)
    (fun k => ?_) fun {id} hroot => ?_
  · rw [h.type?, Model.type?_settled, type?_typeId_declareEach]
    rfl
  · rw [h.rest] at hroot ⊢
    exact root_mem_declareEach ds hroot

/-- Whatever has been declared, and whether or not it could be carried out, the registry is
`Consistent`: it is when the declarations `ds` have been made, any further declaration then reads
and changes entries only that are there, and it still is after `fixup` and when constraints have
been parsed. -/
theorem registry_stays_consistent (ds : List Declaration) :
    (declareEach {} ds).Consistent ∧
      (∀ decl, (declareEach {} ds).Steps ((declareEach {} ds).declare decl).2) ∧
      (declareEach {} ds).fixup.model.Consistent ∧
      ∀ parser a, (declareEach {} ds).build parser = .ok a → a.model.Consistent := by
  obtain ⟨hs, hb⟩ := sound_declareEach ds
  refine ⟨consistent_declareEach ds, fun decl => ?_, ?_, fun parser a ha => ?_⟩
  · exact steps_declare hs.indexed (rooted_steps (steps_declareEach ds) rooted_initial) decl
  · rw [fixup_model hs hb]
    exact consistent_settled ds (.refl _)
  · exact consistent_settled ds (reparsed_build hs hb ha)

/-- A struct declared twice, an enumeration with a constant that has no name, a root that is
replaced, and a service that stops at a constraint without a name. -/
def tangledDeclarations : List Declaration := [
  .type { name := "Vm", space := "model.types", body := .struct (.class "Identified") [
    { name := "disks", type := { name := "Disk", isArray := true }, kind := .link }] },
  .type { name := "VM", space := "other", body := .struct .none [
    { name := "size", type := { name := "Integer" } }] },
  .type { name := "Status", space := "model.types", body := .enum [
    { name := "up" }, { name := "_" }] },
  .service { name := "SystemService", space := "model.services", isRoot := true },
  .service {
    name := "VmsService"
    space := "model.services"
    isRoot := true
    methods := [{ name := "add", parameters := [{ name := "vm", type := { name := "Vm" } }],
                  constraints := [{ name := "mandatory", source := "vm.name" }] }] },
  .service {
    name := "DisksService"
    space := "model.services"
    methods := [{ name := "list", constraints := [
      { name := "_", source := "disks" }] }] },
  .type { name := "Disk", space := "model.types", body := .struct .none [] }]

theorem registry_stays_consistent_tangled : ∃ a,
    (declareEach {} tangledDeclarations).build none = .ok a ∧ a.model.Consistent ∧
      a.model.root = a.model.findService? (Name.ofCase "Vms") := by
  have hsome : (((declareEach {} tangledDeclarations).build none).toOption.filter fun a =>
      a.model.root = a.model.findService? (Name.ofCase "Vms")).isSome = true := by
    decide +kernel
  obtain ⟨a, ha⟩ := Option.isSome_iff_exists.mp hsome
  obtain ⟨ha, hroot⟩ := Option.filter_eq_some_iff.mp ha
  have ha' := eq_ok_of_toOption ha
  exact ⟨a, ha', (registry_stays_consistent tangledDeclarations).2.2.2 none a ha',
    of_decide_eq_true hroot⟩

end Draft

end ApiModel
