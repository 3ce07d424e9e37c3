import ApiModel.Model.Slot
import ApiModel.Model.Inheritance
import Std.Data.TreeMap.Lemmas

/-!
# Looking things up

What a lookup gives after each of the operations a model is built with. An
operation that adds an entity leaves the entities before it alone, and one that
changes an entity leaves the others alone.
-/

namespace ApiModel

theorem TypeId.eq_iff {a b : TypeId} : a = b ↔ a.index = b.index := by
  cases a; cases b; simp

theorem ServiceId.eq_iff {a b : ServiceId} : a = b ↔ a.index = b.index := by
  cases a; cases b; simp

theorem ModuleId.eq_iff {a b : ModuleId} : a = b ↔ a.index = b.index := by
  cases a; cases b; simp

/-- What has just been added by `push` is changed where it was added. -/
theorem modify_push {α : Type} (as : Array α) (a : α) (f : α → α) :
    (as.push a).modify as.size f = as.push (f a) := by
  refine Array.ext_getElem? fun i => ?_
  rw [Array.getElem?_modify, Array.getElem?_push, Array.getElem?_push]
  by_cases hi : i = as.size
  · simp [hi]
  · simp [hi, Ne.symm hi]

/-- One more entry `a` in a name index, under `k`. -/
theorem NameMap.getElem?_insert {α : Type} (map : NameMap α) (k n : Name) (a : α) :
    (map.insert k a)[n]? = if k = n then some a else map[n]? := by
  rw [Std.TreeMap.getElem?_insert]
  simp only [Std.LawfulEqCmp.compare_eq_iff_eq]

/-- A new name `k` in an index leaves all others. -/
theorem NameMap.getElem?_insert_new {α : Type} {map : NameMap α} {k n : Name} {a b : α}
    (h : map[k]? = none) :
    (map.insert k a)[n]? = some b ↔ (n = k ∧ b = a) ∨ map[n]? = some b := by
  rw [getElem?_insert]
  by_cases hk : k = n
  · subst hk
    simp [h, eq_comm]
  · simp [hk, Ne.symm hk]

/-- The entries of the index `map`, in the order of their names. -/
theorem NameMap.values_eq {α : Type} (map : NameMap α) : map.values = map.toList.map (·.2) := by
  show map.inner.inner.values = (Std.DTreeMap.Internal.Impl.Const.toList map.inner.inner).map _
  rw [Std.DTreeMap.Internal.Impl.values_eq_map_snd,
    Std.DTreeMap.Internal.Impl.Const.toList_eq_toListModel_map, List.map_map]
  rfl

theorem NameMap.mem_values {α : Type} {map : NameMap α} {a : α} :
    a ∈ map.values ↔ ∃ n : Name, map[n]? = some a := by
  simp [values_eq]

namespace Model

variable (m : Model)

/-! ## Adding types -/

theorem type?_eq_none {m : Model} {id : TypeId} : m.type? id = none ↔ m.types.size ≤ id.index := by
  simp [type?]

theorem type?_lt {m : Model} {id : TypeId} {t : DataType} (h : m.type? id = some t) :
    id.index < m.types.size :=
  (Array.getElem?_eq_some_iff.mp h).1

theorem type?_push (t : DataType) (id : TypeId) :
    { m with types := m.types.push t }.type? id =
      if id.index = m.types.size then some t else m.type? id := by
  simp only [type?, Array.getElem?_push]

/-- The entries that were there stay there after a `push`. -/
theorem type?_push_of_some {m : Model} {t u : DataType} {id : TypeId} (h : m.type? id = some t) :
    { m with types := m.types.push u }.type? id = some t := by
  rw [type?_push, if_neg (Nat.ne_of_lt (type?_lt h)), h]

theorem type?_push_some {m : Model} {t u : DataType} {id : TypeId} :
    { m with types := m.types.push t }.type? id = some u ↔
      (id = ⟨m.types.size⟩ ∧ u = t) ∨ m.type? id = some u := by
  rw [type?_push]
  by_cases h : id.index = m.types.size
  · have hn : m.type? id = none := type?_eq_none.mpr (Nat.le_of_eq h.symm)
    simp [h, hn, TypeId.eq_iff, eq_comm]
  · simp [h, TypeId.eq_iff]

theorem type?_modifyType (id : TypeId) (f : DataType → DataType) (id' : TypeId) :
    (m.modifyType id f).type? id' = if id = id' then (m.type? id').map f else m.type? id' := by
  simp only [type?, modifyType, Array.getElem?_modify, TypeId.eq_iff]

/-- The struct at `id`. -/
def struct? (m : Model) (id : TypeId) : Option StructType :=
  (m.type? id).bind DataType.struct?

theorem struct?_eq_some {m : Model} {id : TypeId} {s : StructType} :
    m.struct? id = some s ↔ m.type? id = some (.struct s) := by
  rw [struct?, Option.bind_eq_some_iff]
  constructor
  · rintro ⟨t, ht, hs⟩
    cases t <;> simp_all [DataType.struct?]
  · intro h
    exact ⟨_, h, rfl⟩

theorem type?_modifyStruct (id : TypeId) (f : StructType → StructType) (id' : TypeId) :
    (m.modifyStruct id f).type? id' =
      if id = id' then (m.type? id').map (·.mapStruct f) else m.type? id' :=
  m.type?_modifyType id _ id'

theorem type?_modifyStruct_self {m : Model} {id : TypeId} {s : StructType}
    (h : m.type? id = some (.struct s)) (f : StructType → StructType) :
    (m.modifyStruct id f).type? id = some (.struct (f s)) := by
  rw [type?_modifyStruct, if_pos rfl, h]; rfl

theorem type?_modifyStruct_ne {id id' : TypeId} (h : id ≠ id') (f : StructType → StructType) :
    (m.modifyStruct id f).type? id' = m.type? id' := by
  rw [type?_modifyStruct, if_neg h]

theorem size_modifyType (id : TypeId) (f : DataType → DataType) :
    (m.modifyType id f).types.size = m.types.size := by
  simp [modifyType]

/-! ## Adding services -/

theorem service?_eq_none {m : Model} {id : ServiceId} :
    m.service? id = none ↔ m.services.size ≤ id.index := by
  simp [service?]

theorem service?_lt {m : Model} {id : ServiceId} {s : Service} (h : m.service? id = some s) :
    id.index < m.services.size :=
  (Array.getElem?_eq_some_iff.mp h).1

theorem service?_push (s : Service) (id : ServiceId) :
    { m with services := m.services.push s }.service? id =
      if id.index = m.services.size then some s else m.service? id := by
  simp only [service?, Array.getElem?_push]

theorem service?_push_of_some {m : Model} {s u : Service} {id : ServiceId}
    (h : m.service? id = some s) :
    { m with services := m.services.push u }.service? id = some s := by
  rw [service?_push, if_neg (Nat.ne_of_lt (service?_lt h)), h]

theorem service?_push_some {m : Model} {s u : Service} {id : ServiceId} :
    { m with services := m.services.push s }.service? id = some u ↔
      (id = ⟨m.services.size⟩ ∧ u = s) ∨ m.service? id = some u := by
  rw [service?_push]
  by_cases h : id.index = m.services.size
  · have hn : m.service? id = none := service?_eq_none.mpr (Nat.le_of_eq h.symm)
    simp [h, hn, ServiceId.eq_iff, eq_comm]
  · simp [h, ServiceId.eq_iff]

theorem service?_modifyService (id : ServiceId) (f : DefinedService → DefinedService)
    (id' : ServiceId) :
    (m.modifyService id f).service? id' =
      if id = id' then (m.service? id').map (·.mapDefined f) else m.service? id' := by
  simp only [service?, modifyService, Array.getElem?_modify, ServiceId.eq_iff]

theorem definedService?_eq_some {m : Model} {id : ServiceId} {s : DefinedService} :
    m.definedService? id = some s ↔ m.service? id = some (.defined s) := by
  rw [definedService?, Option.bind_eq_some_iff]
  constructor
  · rintro ⟨t, ht, hs⟩
    cases t <;> simp_all [Service.defined?]
  · intro h
    exact ⟨_, h, rfl⟩

theorem service?_modifyService_self {m : Model} {id : ServiceId} {s : DefinedService}
    (h : m.service? id = some (.defined s)) (f : DefinedService → DefinedService) :
    (m.modifyService id f).service? id = some (.defined (f s)) := by
  rw [service?_modifyService, if_pos rfl, h]; rfl

theorem service?_modifyService_ne {id id' : ServiceId} (h : id ≠ id')
    (f : DefinedService → DefinedService) :
    (m.modifyService id f).service? id' = m.service? id' := by
  rw [service?_modifyService, if_neg h]

/-- By `modifyService`, no undefined service is made or lost. -/
theorem service?_modifyService_undefined {id id' : ServiceId}
    {f : DefinedService → DefinedService} {n : Name} :
    (m.modifyService id f).service? id' = some (.undefined n) ↔
      m.service? id' = some (.undefined n) := by
  rw [service?_modifyService]
  split
  · rcases m.service? id' with _ | t
    · rfl
    · cases t <;> simp [Service.mapDefined]
  · rfl

theorem size_modifyService (id : ServiceId) (f : DefinedService → DefinedService) :
    (m.modifyService id f).services.size = m.services.size := by
  simp [modifyService]

/-! ## Listings -/

variable {m}

theorem mem_registeredTypes {id : TypeId} {t : DataType} :
    (id, t) ∈ m.registeredTypes ↔ (∃ n, m.findType? n = some id) ∧ m.type? id = some t := by
  rw [registeredTypes, List.mem_filterMap]
  constructor
  · rintro ⟨id', hid, hmap⟩
    obtain ⟨t', ht, he⟩ := Option.map_eq_some_iff.mp hmap
    obtain ⟨rfl, rfl⟩ := Prod.mk.inj he
    exact ⟨NameMap.mem_values.mp hid, ht⟩
  · rintro ⟨hid, ht⟩
    exact ⟨id, NameMap.mem_values.mpr hid, by rw [ht]; rfl⟩

theorem mem_structs {id : TypeId} {s : StructType} :
    (id, s) ∈ m.structs ↔ (∃ n, m.findType? n = some id) ∧ m.type? id = some (.struct s) := by
  rw [structs, List.mem_filterMap]
  constructor
  · rintro ⟨⟨id', t⟩, ht, hmap⟩
    obtain ⟨s', hs, he⟩ := Option.map_eq_some_iff.mp hmap
    obtain ⟨rfl, rfl⟩ := Prod.mk.inj he
    cases t with
    | struct s => cases hs; exact mem_registeredTypes.mp ht
    | primitive | enum | list | undefined => cases hs
  · intro h
    exact ⟨(id, .struct s), mem_registeredTypes.mpr h, rfl⟩

theorem mem_registeredServices {id : ServiceId} {s : DefinedService} :
    (id, s) ∈ m.registeredServices ↔
      (∃ n, m.findService? n = some id) ∧ m.service? id = some (.defined s) := by
  rw [registeredServices, List.mem_filterMap]
  constructor
  · rintro ⟨id', hid, hmap⟩
    obtain ⟨s', hs, he⟩ := Option.map_eq_some_iff.mp hmap
    obtain ⟨rfl, rfl⟩ := Prod.mk.inj he
    exact ⟨NameMap.mem_values.mp hid, definedService?_eq_some.mp hs⟩
  · rintro ⟨hid, hs⟩
    exact ⟨id, NameMap.mem_values.mpr hid, by rw [definedService?_eq_some.mpr hs]; rfl⟩

end Model

end ApiModel
