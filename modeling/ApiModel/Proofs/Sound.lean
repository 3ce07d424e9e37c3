import ApiModel.Proofs.Ensures
import ApiModel.Proofs.Operations

/-!
# Sound drafts

A draft is sound if every reference in its model leads to what its name stands
for, and if what is pending tells exactly which slots hold an undefined entity:
a slot that holds one is pending under the name of that entity, and under no
other name. Slots that are pending and don't exist are allowed, as a
declaration that stops may leave them behind; they belong to an entity that is
there, so a new entity never inherits one.
-/

namespace ApiModel

/-- What a `TypeRef` is written for: a type by its name, or the list of such types. -/
structure Target where
  name : Name
  isArray : Bool := false
deriving DecidableEq, Repr

def TypeRef.target (ref : TypeRef) : Target :=
  ⟨referenceName ref.name, ref.isArray⟩

/-- Something that a declaration refers to. -/
inductive Request where
  | type (target : Target)
  | service (name : Name)
deriving DecidableEq, Repr

/-- `id` is what a reference to the target may lead to while declarations are made. -/
def Model.Refers (m : Model) : Target → TypeId → Prop
  | ⟨n, true⟩, id => ∃ e, m.type? id = some (.list n e)
  | ⟨n, false⟩, id => m.TypeNamed n id

theorem Model.Grows.refers {own : Set Entity} {m m' : Model} (h : Grows own m m') {t : Target}
    {id : TypeId} (hr : m.Refers t id) : m'.Refers t id := by
  rcases t with ⟨n, _ | _⟩
  · exact h.typeNamed hr
  · obtain ⟨e, he⟩ := hr
    exact ⟨e, h.list he⟩

theorem Model.Indexed.type?_of_refers {m : Model} (hi : m.Indexed) {t : Target} {id : TypeId}
    (h : m.Refers t id) : ∃ u, m.type? id = some u := by
  rcases t with ⟨n, _ | _⟩
  · obtain ⟨u, hu, -⟩ := hi.name_of_typeNamed h
    exact ⟨u, hu⟩
  · obtain ⟨e, he⟩ := h
    exact ⟨_, he⟩

namespace Draft

/-! ## The invariant -/

/-- Nothing is pending in `d` for the `slot`. -/
def QuietType (d : Draft) (slot : TypeSlot) : Prop :=
  ∀ n, (n, slot) ∉ d.pendingTypes

def QuietService (d : Draft) (slot : ServiceSlot) : Prop :=
  ∀ n, (n, slot) ∉ d.pendingServices

/-- `id` may stand in the slot: it is what some reference leads to, and it is undefined exactly
if the slot is pending under its name. -/
structure FitsType (d : Draft) (slot : TypeSlot) (id : TypeId) : Prop where
  refers : ∃ t, d.model.Refers t id
  pending : ∀ n, (n, slot) ∈ d.pendingTypes ↔ d.model.type? id = some (.undefined n)

structure FitsService (d : Draft) (slot : ServiceSlot) (id : ServiceId) : Prop where
  named : ∃ n, d.model.ServiceNamed n id
  pending : ∀ n, (n, slot) ∈ d.pendingServices ↔ d.model.service? id = some (.undefined n)

structure Sound (d : Draft) : Prop where
  indexed : d.model.Indexed
  types : ∀ {slot id}, d.model.typeAt? slot = some id → d.FitsType slot id
  services : ∀ {slot id}, d.model.serviceAt? slot = some id → d.FitsService slot id
  typeOwners : ∀ {n slot}, (n, slot) ∈ d.pendingTypes → slot.owner.Within d.model
  serviceOwners : ∀ {n slot}, (n, slot) ∈ d.pendingServices → slot.owner.Within d.model

/-- Bases that are pending in `d` have been set. -/
structure Based (d : Draft) : Prop where
  types : ∀ {n owner}, (n, .base owner) ∈ d.pendingTypes →
    (d.model.typeAt? (.base owner)).isSome
  services : ∀ {n owner}, (n, .base owner) ∈ d.pendingServices →
    (d.model.serviceAt? (.base owner)).isSome

variable {d d' : Draft}

theorem Sound.quietType (h : d.Sound) {slot : TypeSlot} (hs : ¬slot.owner.Within d.model) :
    d.QuietType slot :=
  fun _ hn => hs (h.typeOwners hn)

theorem Sound.quietService (h : d.Sound) {slot : ServiceSlot} (hs : ¬slot.owner.Within d.model) :
    d.QuietService slot :=
  fun _ hn => hs (h.serviceOwners hn)

/-- If a model `Grows`, what fits is kept, as long as nothing new is pending for the slot. -/
theorem FitsType.grows {slot : TypeSlot} {id : TypeId} (h : d.FitsType slot id)
    (hi : d.model.Indexed) {own : Set Entity} (hg : d.model.Grows own d'.model)
    (hp : ∀ n, (n, slot) ∈ d'.pendingTypes ↔ (n, slot) ∈ d.pendingTypes) :
    d'.FitsType slot id where
  refers := h.refers.imp fun _ ht => hg.refers ht
  pending n := by
    obtain ⟨t, ht⟩ := h.refers
    obtain ⟨u, hu⟩ := hi.type?_of_refers ht
    exact (hp n).trans ((h.pending n).trans (hg.undefinedType (Model.type?_lt hu)).symm)

theorem FitsService.grows {slot : ServiceSlot} {id : ServiceId} (h : d.FitsService slot id)
    (hi : d.model.Indexed) {own : Set Entity} (hg : d.model.Grows own d'.model)
    (hp : ∀ n, (n, slot) ∈ d'.pendingServices ↔ (n, slot) ∈ d.pendingServices) :
    d'.FitsService slot id where
  named := h.named.imp fun _ hn => hg.serviceNamed hn
  pending n := by
    obtain ⟨x, hx⟩ := h.named
    obtain ⟨s, hs, -⟩ := hi.name_of_serviceNamed hx
    exact (hp n).trans ((h.pending n).trans (hg.undefinedService (Model.service?_lt hs)).symm)

end Draft

end ApiModel
