import ApiModel.Proofs.Slots
import Mathlib.Data.Set.Basic

/-!
# Models that grow

While declarations are made a model only grows: what has been registered,
interned or given a place stays, except that the one entity under construction
gains members, parameters, locators or a base. `Grows own` says so, with `own`
for the entities that may change. Lists and undefined entities never do.

`Indexed` ties the indexes of a model to its entries: a registered name leads
to an entity of that name, and there is one list and one undefined type for
each name that has one.
-/

namespace ApiModel

namespace Model

def moduleName? (m : Model) (id : ModuleId) : Option Name :=
  (m.module? id).map (·.name)

/-- `id` is registered as `n`, or is undefined and stands for `n`. -/
def TypeNamed (m : Model) (n : Name) (id : TypeId) : Prop :=
  m.findType? n = some id ∨ m.type? id = some (.undefined n)

def ServiceNamed (m : Model) (n : Name) (id : ServiceId) : Prop :=
  m.findService? n = some id ∨ m.service? id = some (.undefined n)

/-! ## Growth -/

structure Grows (own : Set Entity) (m m' : Model) : Prop where
  type : ∀ {id t}, Entity.type id ∉ own → m.type? id = some t → m'.type? id = some t
  list : ∀ {id n e}, m.type? id = some (.list n e) → m'.type? id = some (.list n e)
  undefinedType : ∀ {id n}, id.index < m.types.size →
    (m'.type? id = some (.undefined n) ↔ m.type? id = some (.undefined n))
  service : ∀ {id s}, Entity.service id ∉ own → m.service? id = some s → m'.service? id = some s
  undefinedService : ∀ {id n}, id.index < m.services.size →
    (m'.service? id = some (.undefined n) ↔ m.service? id = some (.undefined n))
  findType : ∀ {n id}, m.findType? n = some id → m'.findType? n = some id
  findService : ∀ {n id}, m.findService? n = some id → m'.findService? n = some id
  findList : ∀ {n id}, m.findList? n = some id → m'.findList? n = some id
  findModule : ∀ {n id}, m.findModule? n = some id → m'.findModule? n = some id
  moduleName : ∀ {id n}, m.moduleName? id = some n → m'.moduleName? id = some n
  typesSize : m.types.size ≤ m'.types.size
  servicesSize : m.services.size ≤ m'.services.size

namespace Grows

variable {own own' : Set Entity} {m m' m'' : Model}

theorem refl (m : Model) : Grows own m m :=
  ⟨fun _ h => h, id, fun _ => .rfl, fun _ h => h, fun _ => .rfl, id, id, id, id, id, le_refl _,
    le_refl _⟩

theorem trans (h : Grows own m m') (h' : Grows own m' m'') : Grows own m m'' where
  type ho ht := h'.type ho (h.type ho ht)
  list ht := h'.list (h.list ht)
  undefinedType hid :=
    (h'.undefinedType (Nat.lt_of_lt_of_le hid h.typesSize)).trans (h.undefinedType hid)
  service ho hs := h'.service ho (h.service ho hs)
  undefinedService hid :=
    (h'.undefinedService (Nat.lt_of_lt_of_le hid h.servicesSize)).trans (h.undefinedService hid)
  findType ht := h'.findType (h.findType ht)
  findService hs := h'.findService (h.findService hs)
  findList hl := h'.findList (h.findList hl)
  findModule hk := h'.findModule (h.findModule hk)
  moduleName hk := h'.moduleName (h.moduleName hk)
  typesSize := h.typesSize.trans h'.typesSize
  servicesSize := h.servicesSize.trans h'.servicesSize

theorem mono (h : Grows own m m') (ho : own ⊆ own') : Grows own' m m' :=
  { h with
    type := fun hid => h.type fun hmem => hid (ho hmem)
    service := fun hid => h.service fun hmem => hid (ho hmem) }

/-- Entities in `own` that only come into being are no exceptions. -/
theorem of_fresh (h : Grows own m m') (ho : ∀ e ∈ own, ¬e.Within m) : Grows ∅ m m' :=
  { h with
    type := fun _ ht => h.type (fun hmem => ho _ hmem (type?_lt ht)) ht
    service := fun _ hs => h.service (fun hmem => ho _ hmem (service?_lt hs)) hs }

theorem typeNamed (h : Grows own m m') {n : Name} {id : TypeId} (hn : m.TypeNamed n id) :
    m'.TypeNamed n id :=
  hn.imp h.findType fun hu => (h.undefinedType (type?_lt hu)).mpr hu

theorem serviceNamed (h : Grows own m m') {n : Name} {id : ServiceId} (hn : m.ServiceNamed n id) :
    m'.ServiceNamed n id :=
  hn.imp h.findService fun hu => (h.undefinedService (service?_lt hu)).mpr hu

theorem within (h : Grows own m m') {e : Entity} (he : e.Within m) : e.Within m' := by
  cases e with
  | type id => exact Nat.lt_of_lt_of_le he h.typesSize
  | service id => exact Nat.lt_of_lt_of_le he h.servicesSize

/-- A `slot` of an entity that may not change holds what it held. -/
theorem typeAt? (h : Grows own m m') {slot : TypeSlot} (hw : slot.owner.Within m)
    (ho : slot.owner ∉ own) : m'.typeAt? slot = m.typeAt? slot := by
  rcases hs : slot.owner with id | id
  · rw [hs] at hw ho
    obtain ⟨t, ht⟩ : ∃ t, m.type? id = some t := ⟨_, Array.getElem?_eq_getElem hw⟩
    exact typeAt?_congr_type hs ((h.type ho ht).trans ht.symm)
  · rw [hs] at hw ho
    obtain ⟨s, hd⟩ : ∃ s, m.service? id = some s := ⟨_, Array.getElem?_eq_getElem hw⟩
    exact typeAt?_congr_service hs ((h.service ho hd).trans hd.symm)

theorem serviceAt? (h : Grows own m m') {slot : ServiceSlot} (hw : slot.owner.Within m)
    (ho : slot.owner ∉ own) : m'.serviceAt? slot = m.serviceAt? slot := by
  rcases hs : slot.owner with id | id
  · cases slot <;> simp [ServiceSlot.owner] at hs
  · rw [hs] at hw ho
    obtain ⟨s, hd⟩ : ∃ s, m.service? id = some s := ⟨_, Array.getElem?_eq_getElem hw⟩
    exact serviceAt?_congr hs ((h.service ho hd).trans hd.symm)

end Grows

/-! ## Indexes -/

structure Indexed (m : Model) : Prop where
  type : ∀ {n id}, m.findType? n = some id →
    ∃ t, m.type? id = some t ∧ registrableName t = .ok n
  undefinedType : ∀ {n id}, m.undefinedTypes[n]? = some id ↔ m.type? id = some (.undefined n)
  list : ∀ {n id}, m.findList? n = some id ↔ ∃ e, m.type? id = some (.list n e)
  listElement : ∀ {n id e}, m.type? id = some (.list n e) → m.TypeNamed n e
  service : ∀ {n id}, m.findService? n = some id →
    ∃ s, m.service? id = some (.defined s) ∧ s.name = n
  undefinedService : ∀ {n id},
    m.undefinedServices[n]? = some id ↔ m.service? id = some (.undefined n)
  module : ∀ {n id}, m.findModule? n = some id → m.moduleName? id = some n

theorem registrableName_ok {t : DataType} {n : Name} (h : registrableName t = .ok n) :
    t.name = n ∧ (∀ x, t ≠ .undefined x) ∧ ∀ x e, t ≠ .list x e := by
  cases t <;> simp_all [registrableName]

namespace Indexed

variable {m : Model}

/-- A type registered as `n` is no undefined one. -/
theorem type?_ne_undefined (hi : m.Indexed) {n : Name} {id : TypeId}
    (h : m.findType? n = some id) (x : Name) : m.type? id ≠ some (.undefined x) := by
  obtain ⟨t, ht, hn⟩ := hi.type h
  rw [ht]
  exact fun he => (registrableName_ok hn).2.1 x (Option.some.inj he)

theorem service?_ne_undefined (hi : m.Indexed) {n : Name} {id : ServiceId}
    (h : m.findService? n = some id) (x : Name) : m.service? id ≠ some (.undefined x) := by
  obtain ⟨s, hs, -⟩ := hi.service h
  simp [hs]

/-- The entry that `n` leads to goes by that name. -/
theorem name_of_typeNamed (hi : m.Indexed) {n : Name} {id : TypeId} (h : m.TypeNamed n id) :
    ∃ t, m.type? id = some t ∧ t.name = n ∧ ∀ x e, t ≠ .list x e := by
  rcases h with h | h
  · obtain ⟨t, ht, hn⟩ := hi.type h
    exact ⟨t, ht, (registrableName_ok hn).1, (registrableName_ok hn).2.2⟩
  · exact ⟨_, h, rfl, by simp⟩

theorem name_of_serviceNamed (hi : m.Indexed) {n : Name} {id : ServiceId}
    (h : m.ServiceNamed n id) : ∃ s, m.service? id = some s ∧ s.name = n := by
  rcases h with h | h
  · obtain ⟨s, hs, hn⟩ := hi.service h
    exact ⟨_, hs, hn⟩
  · exact ⟨_, h, rfl⟩

end Indexed

end Model

end ApiModel
