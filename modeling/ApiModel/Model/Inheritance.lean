import ApiModel.Model.Query

/-!
# Inheritance

A struct has at most one base, and so has a service. Following bases from an
entity gives its chain, which either ends or runs into a cycle. A chain within
`n` entities that takes more than `n` steps has met one of them twice, so a
bound on the number of steps loses nothing.
-/

namespace ApiModel

/-- Who inherits from itself, and along which names `path`. -/
structure InheritanceCycle where
  kind : EntityKind
  path : List Name
deriving DecidableEq, Repr

def InheritanceCycle.message (c : InheritanceCycle) : String :=
  let path := " -> ".intercalate (c.path.map (·.display))
  s!"circular {c.kind.label} inheritance detected: {path}"

/-- Continues the chain `seen` at `current` until it ends or comes back to an element of
`seen`; then gives the part from that element on, with the element once more at the end. -/
def findCycle {ι : Type} [DecidableEq ι] (base : ι → Option ι) :
    (fuel : Nat) → (seen : List ι) → (current : Option ι) → Option (List ι)
  | _, _, none => none
  | 0, _, some _ => none
  | fuel + 1, seen, some next =>
    if next ∈ seen then some (seen.dropWhile (· ≠ next) ++ [next])
    else findCycle base fuel (seen ++ [next]) (base next)

namespace Model

def structBase? (m : Model) (id : TypeId) : Option TypeId :=
  ((m.type? id).bind DataType.struct?).bind (·.base)

def serviceBase? (m : Model) (id : ServiceId) : Option ServiceId :=
  (m.definedService? id).bind (·.base)

/-! ## Ancestors -/

/-- The chain that starts at `current` meets `ancestor` within `fuel` further steps. -/
def meets (m : Model) (ancestor : TypeId) : (fuel : Nat) → (current : Option TypeId) → Bool
  | _, none => false
  | 0, some base => base = ancestor
  | fuel + 1, some base => base = ancestor || m.meets ancestor fuel (m.structBase? base)

/-- `ancestor` is the base of `id`, or of its base, and so on. -/
def isExtension (m : Model) (id ancestor : TypeId) : Bool :=
  m.meets ancestor m.types.size (m.structBase? id)

/-! ## Cycles -/

/-- The cycle that the chain of the type `id` runs into, by `findCycle`. -/
def typeCycle? (m : Model) (id : TypeId) : Option InheritanceCycle :=
  (findCycle m.structBase? (m.types.size + 1) [id] (m.structBase? id)).map fun ids =>
    ⟨.type, (ids.filterMap m.type?).map (·.name)⟩

/-- The cycle that the chain of the service `id` runs into, by `findCycle`. -/
def serviceCycle? (m : Model) (id : ServiceId) : Option InheritanceCycle :=
  (findCycle m.serviceBase? (m.services.size + 1) [id] (m.serviceBase? id)).map fun ids =>
    ⟨.service, (ids.filterMap m.service?).map (·.name)⟩

/-- The first cycle, `structs` before `registeredServices` and both by name. -/
def inheritanceCycle? (m : Model) : Option InheritanceCycle :=
  (m.structs.findSome? fun (id, _) => m.typeCycle? id).or
    (m.registeredServices.findSome? fun (id, _) => m.serviceCycle? id)

end Model

end ApiModel
