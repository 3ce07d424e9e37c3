import ApiModel.Proofs.Growth

/-!
# Growth by single operations

Each operation that declarations use lets a model grow and keeps its indexes
in order. What an operation leaves behind is the model with one more entry, or
one more line in an index, or one entity changed; the operations are brought
into that form first.
-/

namespace ApiModel

/-- The type `t` has no slot. -/
def DataType.Bare (t : DataType) : Prop :=
  t.element? = none ∧ ∀ s, t = .struct s → s.base = none ∧ s.attributes = [] ∧ s.links = []

namespace Model

variable {m : Model}

/-! ## Adding types -/

section Push

variable {t : DataType}

theorem typeAt?_push_bare (ht : t.Bare) (slot : TypeSlot) :
    { m with types := m.types.push t }.typeAt? slot = m.typeAt? slot := by
  by_cases ho : slot.owner = .type ⟨m.types.size⟩
  · have hn : m.type? ⟨m.types.size⟩ = none := type?_eq_none.mpr (le_refl _)
    have ht' : { m with types := m.types.push t }.type? ⟨m.types.size⟩ = some t := by
      rw [type?_push, if_pos rfl]
    match slot with
    | .base owner | .attribute owner _ | .link owner _ =>
      obtain rfl := Entity.type.inj ho
      rw [typeAt?, typeAt?, struct?, struct?, ht', hn]
      rcases hs : t.struct? with _ | s
      · simp [hs]
      · have : t = .struct s := by cases t <;> simp_all [DataType.struct?]
        obtain ⟨hb, ha, hl⟩ := ht.2 s this
        simp [hs, hb, ha, hl]
    | .listElement list =>
      obtain rfl := Entity.type.inj ho
      rw [typeAt?, typeAt?, ht', hn]
      exact ht.1
  · rcases hs : slot.owner with id | id
    · refine typeAt?_congr_type hs ?_
      rw [type?_push, if_neg]
      intro he
      exact ho (hs.trans (congrArg _ (TypeId.eq_iff.mpr he)))
    · exact typeAt?_congr_service hs rfl

theorem typeAt?_push_list (n : Name) (e : TypeId) (slot : TypeSlot) :
    { m with types := m.types.push (.list n e) }.typeAt? slot =
      if slot = .listElement ⟨m.types.size⟩ then some e else m.typeAt? slot := by
  by_cases ho : slot.owner = .type ⟨m.types.size⟩
  · have hn : m.type? ⟨m.types.size⟩ = none := type?_eq_none.mpr (le_refl _)
    have ht' : { m with types := m.types.push (.list n e) }.type? ⟨m.types.size⟩ =
        some (.list n e) := by
      rw [type?_push, if_pos rfl]
    match slot with
    | .base owner | .attribute owner _ | .link owner _ =>
      obtain rfl := Entity.type.inj ho
      rw [typeAt?, typeAt?, struct?, struct?, ht', hn, if_neg (by simp)]
      rfl
    | .listElement list =>
      obtain rfl := Entity.type.inj ho
      rw [typeAt?, ht', if_pos rfl]
      rfl
  · rw [if_neg (fun h => ho (by rw [h]; rfl))]
    rcases hs : slot.owner with id | id
    · refine typeAt?_congr_type hs ?_
      rw [type?_push, if_neg]
      intro he
      exact ho (hs.trans (congrArg _ (TypeId.eq_iff.mpr he)))
    · exact typeAt?_congr_service hs rfl

theorem grows_push (m : Model) (t : DataType) :
    Grows ∅ m { m with types := m.types.push t } :=
  { Grows.refl m with
    type := fun _ h => type?_push_of_some h
    list := type?_push_of_some
    undefinedType := fun hid => by rw [type?_push, if_neg (Nat.ne_of_lt hid)]
    typesSize := by simp }

/-- The type `t`, which is neither a list nor undefined, needs no place in an index. -/
theorem Indexed.push (hi : m.Indexed) (hu : ∀ n, t ≠ .undefined n) (hl : ∀ n e, t ≠ .list n e) :
    { m with types := m.types.push t }.Indexed := by
  have hg := grows_push m t
  refine { hi with type := fun h => ?_, undefinedType := fun {n id} => ?_,
                   list := fun {n id} => ?_, listElement := fun {n id e} h => ?_ }
  · obtain ⟨u, hu, hn⟩ := hi.type h
    exact ⟨u, hg.type (Set.notMem_empty _) hu, hn⟩
  · rw [type?_push_some]
    exact hi.undefinedType.trans (by simp [(hu n).symm])
  · simp only [type?_push_some]
    exact hi.list.trans (by simp [(hl n _).symm])
  · rw [type?_push_some] at h
    exact hg.typeNamed (hi.listElement (h.resolve_left fun h => hl n e h.2.symm))

end Push

/-! ## Undefined types -/

section UndefinedType

variable {n : Name}

theorem undefinedType_known {id : TypeId} (h : m.undefinedTypes[n]? = some id) :
    m.undefinedType n = (id, m) := by
  rw [undefinedType, h]

theorem undefinedType_new (h : m.undefinedTypes[n]? = none) :
    m.undefinedType n = (⟨m.types.size⟩, { m with
      types := m.types.push (.undefined n)
      undefinedTypes := m.undefinedTypes.insert n ⟨m.types.size⟩ }) := by
  rw [undefinedType, h]
  rfl

theorem type?_undefinedType (hi : m.Indexed) (n : Name) :
    (m.undefinedType n).2.type? (m.undefinedType n).1 = some (.undefined n) := by
  rcases h : m.undefinedTypes[n]? with _ | id
  · rw [undefinedType_new h]
    exact (m.type?_push _ _).trans (if_pos rfl)
  · rw [undefinedType_known h]
    exact hi.undefinedType.mp h

theorem grows_undefinedType (m : Model) (n : Name) : Grows ∅ m (m.undefinedType n).2 := by
  rcases h : m.undefinedTypes[n]? with _ | id
  · rw [undefinedType_new h]
    exact { grows_push m (.undefined n) with }
  · rw [undefinedType_known h]
    exact .refl m

theorem typeAt?_undefinedType (m : Model) (n : Name) (slot : TypeSlot) :
    (m.undefinedType n).2.typeAt? slot = m.typeAt? slot := by
  rcases h : m.undefinedTypes[n]? with _ | id
  · rw [undefinedType_new h]
    exact typeAt?_push_bare ⟨rfl, by simp⟩ slot
  · rw [undefinedType_known h]

theorem Indexed.undefined (hi : m.Indexed) (n : Name) : (m.undefinedType n).2.Indexed := by
  rcases h : m.undefinedTypes[n]? with _ | id
  · rw [undefinedType_new h]
    have hg := grows_push m (.undefined n)
    have htype : ∀ {id u}, Model.type? { m with
        types := m.types.push (.undefined n)
        undefinedTypes := m.undefinedTypes.insert n ⟨m.types.size⟩ } id = some u ↔
        (id = ⟨m.types.size⟩ ∧ u = .undefined n) ∨ m.type? id = some u := type?_push_some
    refine { hi with type := fun h => ?_, undefinedType := fun {n' id} => ?_,
                     list := fun {n' id} => ?_, listElement := fun {n' id e} h => ?_ }
    · obtain ⟨u, hu, hn⟩ := hi.type h
      exact ⟨u, hg.type (Set.notMem_empty _) hu, hn⟩
    · rw [htype, ← hi.undefinedType]
      exact (NameMap.getElem?_insert_new h).trans (by simp [and_comm])
    · simp only [htype, reduceCtorEq, and_false, false_or]
      exact hi.list
    · rw [htype] at h
      exact hg.typeNamed (hi.listElement (h.resolve_left (by simp)))
  · rw [undefinedType_known h]
    exact hi

end UndefinedType

/-! ## Lists -/

section List

variable {n : Name} {e : TypeId}

/-- The model with the list of the types called `n`, of which `e` is the one. -/
def withList (m : Model) (n : Name) (e : TypeId) : Model :=
  { m with
    types := m.types.push (.list n e)
    listTypes := m.listTypes.insert n ⟨m.types.size⟩ }

theorem type?_withList {id : TypeId} {u : DataType} :
    (m.withList n e).type? id = some u ↔
      (id = ⟨m.types.size⟩ ∧ u = .list n e) ∨ m.type? id = some u :=
  type?_push_some

theorem typeAt?_withList (slot : TypeSlot) :
    (m.withList n e).typeAt? slot =
      if slot = .listElement ⟨m.types.size⟩ then some e else m.typeAt? slot :=
  typeAt?_push_list n e slot

theorem findList?_withList (h : m.findList? n = none) {n' : Name} {id : TypeId} :
    (m.withList n e).findList? n' = some id ↔
      (n' = n ∧ id = ⟨m.types.size⟩) ∨ m.findList? n' = some id :=
  NameMap.getElem?_insert_new h

theorem grows_withList (h : m.findList? n = none) : Grows ∅ m (m.withList n e) :=
  { grows_push m (.list n e) with
    findList := fun hl => (findList?_withList h).mpr (.inr hl) }

theorem Indexed.withList (hi : m.Indexed) (h : m.findList? n = none) (he : m.TypeNamed n e) :
    (m.withList n e).Indexed := by
  have hg : Grows ∅ m (m.withList n e) := grows_withList h
  refine { hi with type := fun h => ?_, undefinedType := fun {n' id} => ?_,
                   list := fun {n' id} => ?_, listElement := fun {n' id x} h => ?_ }
  · obtain ⟨u, hu, hn⟩ := hi.type h
    exact ⟨u, hg.type (Set.notMem_empty _) hu, hn⟩
  · rw [type?_withList]
    exact hi.undefinedType.trans (by simp)
  · rw [findList?_withList h, hi.list]
    simp [type?_withList, exists_or, and_comm]
  · rcases type?_withList.mp h with ⟨-, hx⟩ | h
    · obtain ⟨rfl, rfl⟩ := DataType.list.inj hx
      exact hg.typeNamed he
    · exact hg.typeNamed (hi.listElement h)

end List

/-! ## Changing a type -/

/-- What indexes know of a type: its name, and everything about lists and undefined types. -/
def SameHeader (t t' : DataType) : Prop :=
  registrableName t = registrableName t' ∧ (∀ n e, t = .list n e ↔ t' = .list n e) ∧
    ∀ n, t = .undefined n ↔ t' = .undefined n

theorem sameHeader_mapStruct {f : StructType → StructType} (hf : ∀ s, (f s).name = s.name)
    (t : DataType) : SameHeader t (t.mapStruct f) := by
  cases t <;> simp [SameHeader, DataType.mapStruct, registrableName, DataType.name, hf]

section ModifyType

variable {id : TypeId} {f : DataType → DataType}

theorem type?_modifyType_list (hf : ∀ t, SameHeader t (f t)) {id' : TypeId} {n : Name}
    {e : TypeId} :
    (m.modifyType id f).type? id' = some (.list n e) ↔ m.type? id' = some (.list n e) := by
  rw [type?_modifyType]
  split
  · rcases m.type? id' with _ | t
    · rfl
    · simpa using ((hf t).2.1 n e).symm
  · rfl

theorem type?_modifyType_undefined (hf : ∀ t, SameHeader t (f t)) {id' : TypeId} {n : Name} :
    (m.modifyType id f).type? id' = some (.undefined n) ↔
      m.type? id' = some (.undefined n) := by
  rw [type?_modifyType]
  split
  · rcases m.type? id' with _ | t
    · rfl
    · simpa using ((hf t).2.2 n).symm
  · rfl

theorem grows_modifyType (hf : ∀ t, SameHeader t (f t)) :
    Grows {.type id} m (m.modifyType id f) :=
  { Grows.refl m with
    type := fun ho h => by
      rw [type?_modifyType, if_neg, h]
      rintro rfl
      exact ho rfl
    list := (type?_modifyType_list hf).mpr
    undefinedType := fun _ => type?_modifyType_undefined hf
    typesSize := (size_modifyType m id f).ge }

theorem Indexed.modifyType (hi : m.Indexed) (hf : ∀ t, SameHeader t (f t)) :
    (m.modifyType id f).Indexed := by
  refine { hi with type := fun {n id'} h => ?_, undefinedType := fun {n' id} => ?_,
                   list := fun {n' id} => ?_, listElement := fun {n' id x} h => ?_ }
  · obtain ⟨t, ht, hn⟩ := hi.type h
    rw [type?_modifyType]
    split
    · exact ⟨f t, by rw [ht]; rfl, (hf t).1.symm.trans hn⟩
    · exact ⟨t, ht, hn⟩
  · rw [type?_modifyType_undefined hf]
    exact hi.undefinedType
  · simp only [type?_modifyType_list hf]
    exact hi.list
  · exact (grows_modifyType hf).typeNamed (hi.listElement ((type?_modifyType_list hf).mp h))

end ModifyType

/-! ## Registering a type -/

section AddType

variable {id : TypeId} {t : DataType} {n : Name}

/-- The model with `id` registered as `n`, in the module `module`. -/
def withType (m : Model) (n : Name) (id : TypeId) (module : Option ModuleId) : Model :=
  { m with typeIndex := m.typeIndex.insert n id }.enterType id module

theorem addType_new (ht : m.type? id = some t) (hn : registrableName t = .ok n)
    (h : m.findType? n = none) : m.addType id = .ok (m.withType n id t.module?) := by
  simp only [addType, ht, hn, h]
  rfl

theorem addType_taken (ht : m.type? id = some t) (hn : registrableName t = .ok n) {other : TypeId}
    (h : m.findType? n = some other) (hne : other ≠ id) :
    m.addType id = .error (.duplicateType n) := by
  simp only [addType, ht, hn, h, if_neg hne]

variable (module : Option ModuleId)

theorem moduleName?_enterType (m : Model) (id : TypeId) (module : Option ModuleId)
    (k : ModuleId) : (m.enterType id module).moduleName? k = m.moduleName? k := by
  cases module with
  | none => rfl
  | some module =>
    simp only [enterType, moduleName?, module?, Array.getElem?_modify]
    split
    · cases m.modules[k.index]? <;> rfl
    · rfl

theorem type?_withType (id' : TypeId) : (m.withType n id module).type? id' = m.type? id' := by
  cases module <;> rfl

theorem typeAt?_withType (slot : TypeSlot) :
    (m.withType n id module).typeAt? slot = m.typeAt? slot := by
  cases module <;> rfl

theorem serviceAt?_withType (slot : ServiceSlot) :
    (m.withType n id module).serviceAt? slot = m.serviceAt? slot := by
  cases module <;> rfl

theorem findService?_withType (x : Name) :
    (m.withType n id module).findService? x = m.findService? x := by
  cases module <;> rfl

theorem findList?_withType (x : Name) :
    (m.withType n id module).findList? x = m.findList? x := by
  cases module <;> rfl

theorem findType?_withType (h : m.findType? n = none) {n' : Name} {id' : TypeId} :
    (m.withType n id module).findType? n' = some id' ↔
      (n' = n ∧ id' = id) ∨ m.findType? n' = some id' := by
  have : (m.withType n id module).findType? n' = (m.typeIndex.insert n id)[n']? := by
    cases module <;> rfl
  rw [this]
  exact NameMap.getElem?_insert_new h

theorem moduleName?_withType (k : ModuleId) :
    (m.withType n id module).moduleName? k = m.moduleName? k :=
  moduleName?_enterType _ id module k

theorem grows_withType (h : m.findType? n = none) : Grows ∅ m (m.withType n id module) := by
  have hname : ∀ k, (m.withType n id module).moduleName? k = m.moduleName? k :=
    moduleName?_withType module
  have hfind : ∀ {n' id'}, m.findType? n' = some id' →
      (m.withType n id module).findType? n' = some id' :=
    fun hf => (findType?_withType module h).mpr (.inr hf)
  cases module <;>
  exact { Grows.refl m with findType := hfind, moduleName := fun hk => (hname _).trans hk }

theorem Indexed.withType (hi : m.Indexed) (ht : m.type? id = some t)
    (hn : registrableName t = .ok n) (h : m.findType? n = none) :
    (m.withType n id module).Indexed := by
  have hg : Grows ∅ m (m.withType n id module) := grows_withType module h
  have htype : ∀ {n' id'}, (m.withType n id module).findType? n' = some id' →
      ∃ u, m.type? id' = some u ∧ registrableName u = .ok n' := by
    intro n' id' hf
    rcases (findType?_withType module h).mp hf with ⟨rfl, rfl⟩ | hf
    · exact ⟨t, ht, hn⟩
    · exact hi.type hf
  have helem : ∀ {n' id' e}, m.type? id' = some (.list n' e) →
      (m.withType n id module).TypeNamed n' e := fun hl => hg.typeNamed (hi.listElement hl)
  have hmod : ∀ {n' k}, m.findModule? n' = some k →
      (m.withType n id module).moduleName? k = some n' :=
    fun hk => (moduleName?_withType module _).trans (hi.module hk)
  cases module <;> exact { hi with type := htype, listElement := helem, module := hmod }

end AddType

/-! ## Services -/

section Service

variable {n : Name} {id : ServiceId}

theorem grows_pushService (m : Model) (s : Service) :
    Grows ∅ m { m with services := m.services.push s } :=
  { Grows.refl m with
    service := fun _ h => service?_push_of_some h
    undefinedService := fun hid => by rw [service?_push, if_neg (Nat.ne_of_lt hid)]
    servicesSize := by simp }

/-- Slots of the service `id` come with its methods, its locators and its base. -/
theorem typeAt?_eq_none_of_service {slot : TypeSlot} (ho : slot.owner = .service id)
    (h : ∀ s, m.service? id = some (.defined s) → s.methods = [] ∧ s.locators = []) :
    m.typeAt? slot = none := by
  match slot with
  | .methodParameter ⟨owner, i⟩ j =>
    obtain rfl := Entity.service.inj ho
    rw [typeAt?, method?]
    rcases hs : m.definedService? owner with _ | s
    · rfl
    · simp [(h s (definedService?_eq_some.mp hs)).1]
  | .locatorParameter owner i j =>
    obtain rfl := Entity.service.inj ho
    rw [typeAt?]
    rcases hs : m.definedService? owner with _ | s
    · rfl
    · simp [(h s (definedService?_eq_some.mp hs)).2]

theorem serviceAt?_eq_none_of_service {slot : ServiceSlot} (ho : slot.owner = .service id)
    (h : ∀ s, m.service? id = some (.defined s) → s.base = none ∧ s.locators = []) :
    m.serviceAt? slot = none := by
  match slot with
  | .base owner =>
    obtain rfl := Entity.service.inj ho
    rw [serviceAt?]
    rcases hs : m.definedService? owner with _ | s
    · rfl
    · exact (h s (definedService?_eq_some.mp hs)).1
  | .locator owner i =>
    obtain rfl := Entity.service.inj ho
    rw [serviceAt?]
    rcases hs : m.definedService? owner with _ | s
    · rfl
    · simp [(h s (definedService?_eq_some.mp hs)).2]

theorem typeAt?_pushService {s : Service}
    (hs : ∀ x, s = .defined x → x.methods = [] ∧ x.locators = []) (slot : TypeSlot) :
    { m with services := m.services.push s }.typeAt? slot = m.typeAt? slot := by
  rcases ho : slot.owner with id | id
  · exact typeAt?_congr_type ho rfl
  · by_cases hid : id.index = m.services.size
    · have hnone : m.typeAt? slot = none := typeAt?_eq_none_of_service ho fun x hx =>
        absurd (service?_lt hx) (Nat.not_lt.mpr hid.ge)
      rw [hnone]
      refine typeAt?_eq_none_of_service ho fun x hx => ?_
      rw [service?_push, if_pos hid] at hx
      exact hs x (Option.some.inj hx)
    · exact typeAt?_congr_service ho (by rw [service?_push, if_neg hid])

theorem serviceAt?_pushService {s : Service}
    (hs : ∀ x, s = .defined x → x.base = none ∧ x.locators = []) (slot : ServiceSlot) :
    { m with services := m.services.push s }.serviceAt? slot = m.serviceAt? slot := by
  rcases ho : slot.owner with id | id
  · cases slot <;> cases ho
  · by_cases hid : id.index = m.services.size
    · have hnone : m.serviceAt? slot = none := serviceAt?_eq_none_of_service ho fun x hx =>
        absurd (service?_lt hx) (Nat.not_lt.mpr hid.ge)
      rw [hnone]
      refine serviceAt?_eq_none_of_service ho fun x hx => ?_
      rw [service?_push, if_pos hid] at hx
      exact hs x (Option.some.inj hx)
    · exact serviceAt?_congr ho (by rw [service?_push, if_neg hid])

theorem Indexed.pushService (hi : m.Indexed) (s : DefinedService) :
    { m with services := m.services.push (.defined s) }.Indexed := by
  have hg := grows_pushService m (.defined s)
  refine { hi with service := fun h => ?_, undefinedService := fun {n id} => ?_ }
  · obtain ⟨u, hu, hn⟩ := hi.service h
    exact ⟨u, hg.service (Set.notMem_empty _) hu, hn⟩
  · rw [service?_push_some]
    exact hi.undefinedService.trans (by simp)

theorem undefinedService_known (h : m.undefinedServices[n]? = some id) :
    m.undefinedService n = (id, m) := by
  rw [undefinedService, h]

theorem undefinedService_new (h : m.undefinedServices[n]? = none) :
    m.undefinedService n = (⟨m.services.size⟩, { m with
      services := m.services.push (.undefined n)
      undefinedServices := m.undefinedServices.insert n ⟨m.services.size⟩ }) := by
  rw [undefinedService, h]
  rfl

theorem service?_undefinedService (hi : m.Indexed) (n : Name) :
    (m.undefinedService n).2.service? (m.undefinedService n).1 = some (.undefined n) := by
  rcases h : m.undefinedServices[n]? with _ | id
  · rw [undefinedService_new h]
    exact (m.service?_push _ _).trans (if_pos rfl)
  · rw [undefinedService_known h]
    exact hi.undefinedService.mp h

theorem grows_undefinedService (m : Model) (n : Name) : Grows ∅ m (m.undefinedService n).2 := by
  rcases h : m.undefinedServices[n]? with _ | id
  · rw [undefinedService_new h]
    exact { grows_pushService m (.undefined n) with }
  · rw [undefinedService_known h]
    exact .refl m

theorem typeAt?_undefinedService (m : Model) (n : Name) (slot : TypeSlot) :
    (m.undefinedService n).2.typeAt? slot = m.typeAt? slot := by
  rcases h : m.undefinedServices[n]? with _ | id
  · rw [undefinedService_new h]
    exact typeAt?_pushService (by simp) slot
  · rw [undefinedService_known h]

theorem serviceAt?_undefinedService (m : Model) (n : Name) (slot : ServiceSlot) :
    (m.undefinedService n).2.serviceAt? slot = m.serviceAt? slot := by
  rcases h : m.undefinedServices[n]? with _ | id
  · rw [undefinedService_new h]
    exact serviceAt?_pushService (by simp) slot
  · rw [undefinedService_known h]

theorem Indexed.undefinedServices (hi : m.Indexed) (n : Name) :
    (m.undefinedService n).2.Indexed := by
  rcases h : m.undefinedServices[n]? with _ | id
  · rw [undefinedService_new h]
    have hg := grows_pushService m (.undefined n)
    refine { hi with service := fun h => ?_, undefinedService := fun {n' id} => ?_ }
    · obtain ⟨u, hu, hn⟩ := hi.service h
      exact ⟨u, hg.service (Set.notMem_empty _) hu, hn⟩
    · refine (NameMap.getElem?_insert_new h).trans (.trans ?_ service?_push_some.symm)
      rw [hi.undefinedService]
      simp [and_comm]
  · rw [undefinedService_known h]
    exact hi

theorem grows_modifyService {f : DefinedService → DefinedService} :
    Grows {.service id} m (m.modifyService id f) :=
  { Grows.refl m with
    service := fun ho h => by
      rw [service?_modifyService, if_neg, h]
      rintro rfl
      exact ho rfl
    undefinedService := fun _ => service?_modifyService_undefined m
    servicesSize := (size_modifyService m id f).ge }

theorem Indexed.modifyService (hi : m.Indexed) {f : DefinedService → DefinedService}
    (hf : ∀ s, (f s).name = s.name) : (m.modifyService id f).Indexed := by
  refine { hi with service := fun {n id'} h => ?_, undefinedService := fun {n' id} => ?_ }
  · obtain ⟨s, hs, hn⟩ := hi.service h
    rw [service?_modifyService]
    split
    · exact ⟨f s, by rw [hs]; rfl, (hf s).trans hn⟩
    · exact ⟨s, hs, hn⟩
  · rw [service?_modifyService_undefined]
    exact hi.undefinedService

/-- The model with `id` registered as the service `n`, in the module `module`. -/
def withService (m : Model) (n : Name) (id : ServiceId) (module : Option ModuleId) : Model :=
  { m with serviceIndex := m.serviceIndex.insert n id }.enterService id module

theorem addService_new {s : DefinedService} (hs : m.service? id = some (.defined s))
    (h : m.findService? s.name = none) :
    m.addService id = .ok (m.withService s.name id s.module) := by
  simp only [addService, hs, h]
  rfl

theorem addService_taken {s : DefinedService} (hs : m.service? id = some (.defined s))
    {other : ServiceId} (h : m.findService? s.name = some other) (hne : other ≠ id) :
    m.addService id = .error (.duplicateService s.name) := by
  simp only [addService, hs, h, if_neg hne]

variable (module : Option ModuleId)

theorem service?_withService (id' : ServiceId) :
    (m.withService n id module).service? id' = m.service? id' := by
  cases module <;> rfl

theorem typeAt?_withService (slot : TypeSlot) :
    (m.withService n id module).typeAt? slot = m.typeAt? slot := by
  cases module <;> rfl

theorem serviceAt?_withService (slot : ServiceSlot) :
    (m.withService n id module).serviceAt? slot = m.serviceAt? slot := by
  cases module <;> rfl

theorem findType?_withService (x : Name) :
    (m.withService n id module).findType? x = m.findType? x := by
  cases module <;> rfl

theorem findList?_withService (x : Name) :
    (m.withService n id module).findList? x = m.findList? x := by
  cases module <;> rfl

theorem findService?_withService (h : m.findService? n = none) {n' : Name} {id' : ServiceId} :
    (m.withService n id module).findService? n' = some id' ↔
      (n' = n ∧ id' = id) ∨ m.findService? n' = some id' := by
  have : (m.withService n id module).findService? n' = (m.serviceIndex.insert n id)[n']? := by
    cases module <;> rfl
  rw [this]
  exact NameMap.getElem?_insert_new h

theorem moduleName?_withService (k : ModuleId) :
    (m.withService n id module).moduleName? k = m.moduleName? k := by
  cases module with
  | none => rfl
  | some module =>
    simp only [withService, enterService, moduleName?, module?, Array.getElem?_modify]
    split
    · cases m.modules[k.index]? <;> rfl
    · rfl

theorem grows_withService (h : m.findService? n = none) :
    Grows ∅ m (m.withService n id module) := by
  have hname : ∀ k, (m.withService n id module).moduleName? k = m.moduleName? k :=
    moduleName?_withService module
  have hfind : ∀ {n' id'}, m.findService? n' = some id' →
      (m.withService n id module).findService? n' = some id' :=
    fun hf => (findService?_withService module h).mpr (.inr hf)
  cases module <;>
  exact { Grows.refl m with findService := hfind, moduleName := fun hk => (hname _).trans hk }

theorem Indexed.withService (hi : m.Indexed) {s : DefinedService}
    (hs : m.service? id = some (.defined s)) (h : m.findService? s.name = none) :
    (m.withService s.name id module).Indexed := by
  have hservice : ∀ {n' id'}, (m.withService s.name id module).findService? n' = some id' →
      ∃ u, m.service? id' = some (.defined u) ∧ u.name = n' := by
    intro n' id' hf
    rcases (findService?_withService module h).mp hf with ⟨rfl, rfl⟩ | hf
    · exact ⟨s, hs, rfl⟩
    · exact hi.service hf
  have hmod : ∀ {n' k}, m.findModule? n' = some k →
      (m.withService s.name id module).moduleName? k = some n' :=
    fun hk => (moduleName?_withService module _).trans (hi.module hk)
  cases module <;> exact { hi with service := hservice, module := hmod }

end Service

/-! ## Modules -/

section Module

variable {n : Name}

theorem internModule_known {k : ModuleId} (h : m.findModule? n = some k) :
    m.internModule n = (k, m) := by
  rw [internModule, h]

theorem internModule_new (h : m.findModule? n = none) : m.internModule n = m.pushModule n := by
  rw [internModule, h]

theorem moduleName?_pushModule {k : ModuleId} {x : Name} :
    (m.pushModule n).2.moduleName? k = some x ↔
      (k = ⟨m.modules.size⟩ ∧ x = n) ∨ m.moduleName? k = some x := by
  simp only [pushModule, moduleName?, module?, Array.getElem?_push]
  by_cases h : k.index = m.modules.size
  · simp [h, ModuleId.eq_iff, eq_comm]
  · simp [h, ModuleId.eq_iff]

theorem findModule?_pushModule (h : m.findModule? n = none) {x : Name} {k : ModuleId} :
    (m.pushModule n).2.findModule? x = some k ↔
      (x = n ∧ k = ⟨m.modules.size⟩) ∨ m.findModule? x = some k :=
  NameMap.getElem?_insert_new h

theorem grows_internModule (m : Model) (n : Name) : Grows ∅ m (m.internModule n).2 := by
  rcases h : m.findModule? n with _ | k
  · rw [internModule_new h]
    exact { Grows.refl m with
      findModule := fun hk => (findModule?_pushModule h).mpr (.inr hk)
      moduleName := fun hk => moduleName?_pushModule.mpr (.inr hk) }
  · rw [internModule_known h]
    exact .refl m

theorem Indexed.internModule (hi : m.Indexed) (n : Name) : (m.internModule n).2.Indexed := by
  rcases h : m.findModule? n with _ | k
  · rw [internModule_new h]
    refine { hi with module := fun {n' k} hk => moduleName?_pushModule.mpr ?_ }
    rcases (findModule?_pushModule h).mp hk with ⟨rfl, rfl⟩ | hk
    · exact .inl ⟨rfl, rfl⟩
    · exact .inr (hi.module hk)
  · rw [internModule_known h]
    exact hi

/-- `internModule` gives the module of the name `n`. -/
theorem findModule?_internModule (m : Model) (n : Name) :
    (m.internModule n).2.findModule? n = some (m.internModule n).1 := by
  rcases h : m.findModule? n with _ | k
  · rw [internModule_new h]
    exact (findModule?_pushModule h).mpr (.inl ⟨rfl, rfl⟩)
  · rw [internModule_known h]
    exact h

end Module

end Model

end ApiModel
