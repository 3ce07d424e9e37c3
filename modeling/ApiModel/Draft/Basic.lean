import ApiModel.Model.Slot

/-!
# Drafts

A draft is a model under construction. References are resolved in two steps. A
name that is registered resolves at once. Any other name resolves to the
undefined entity of that name, and the slot it goes to is noted as pending.
When everything has been declared, the pending names are looked up once more
and the slots of those that are registered by then are filled in.
-/

namespace ApiModel

structure Draft where
  model : Model := .initial
  pendingTypes : List (Name × TypeSlot) := []
  pendingServices : List (Name × ServiceSlot) := []
  constraints : List ConstraintRef := []
  diagnostics : List Diagnostic := []

namespace Draft

def report (d : Draft) (x : Diagnostic) : Draft :=
  { d with diagnostics := d.diagnostics ++ [x] }

/-! ## First step -/

/-- The type called `name`, for use in `slot`. -/
def resolveType (name : Name) (slot : TypeSlot) : StateM Draft TypeId := fun d =>
  match d.model.findType? name with
  | some id => (id, d)
  | none =>
    let (id, model) := d.model.undefinedType name
    (id, { d with model, pendingTypes := d.pendingTypes ++ [(name, slot)] })

/-- The service called `name`, for use in `slot`. -/
def resolveService (name : Name) (slot : ServiceSlot) : StateM Draft ServiceId := fun d =>
  match d.model.findService? name with
  | some id => (id, d)
  | none =>
    let (id, model) := d.model.undefinedService name
    (id, { d with model, pendingServices := d.pendingServices ++ [(name, slot)] })

/-- The list of elements called `name`. If there is none yet it is created, and its element is
what `element` gives for it. -/
def internList (name : Name) (element : TypeId → StateM Draft TypeId) : StateM Draft TypeId :=
  fun d =>
    match d.model.findList? name with
    | some id => (id, d)
    | none =>
      let (list, model) := d.model.allocList name
      let (id, d) := element list { d with model }
      (list, { d with model := d.model.modifyType list (·.setElement id) })

end Draft

/-! ## Second step -/

/-- How references of one kind are looked up, filled in and reported. -/
structure Reference (ι σ : Type) where
  lookup : Model → Name → Option ι
  assign : Model → σ → ι → Model
  unresolved : Name → Diagnostic

namespace Reference

def types : Reference TypeId TypeSlot :=
  ⟨Model.findType?, Model.assignType, Diagnostic.unresolvedType⟩

def services : Reference ServiceId ServiceSlot :=
  ⟨Model.findService?, Model.assignService, Diagnostic.unresolvedService⟩

variable {ι σ : Type} (r : Reference ι σ)

/-- Fills in one `pending` reference, if its name is registered. -/
def settle (m : Model) (pending : Name × σ) : Model :=
  match r.lookup m pending.1 with
  | some id => r.assign m pending.2 id
  | none => m

def settleAll (m : Model) (pending : List (Name × σ)) : Model :=
  pending.foldl r.settle m

/-- The `pending` names that aren't registered, one for each reference. -/
def unresolvedNames (m : Model) (pending : List (Name × σ)) : List Name :=
  (pending.map (·.1)).filter fun name => (r.lookup m name).isNone

/-- One report for each of the `unresolvedNames`, in the order of first use. -/
def reports (m : Model) (pending : List (Name × σ)) : List Diagnostic :=
  (r.unresolvedNames m pending).eraseDups.map r.unresolved

end Reference

namespace Draft

/-- Settles `pendingTypes`. -/
def fixTypes (d : Draft) : Draft :=
  { d with
    model := Reference.types.settleAll d.model d.pendingTypes
    pendingTypes := []
    diagnostics := d.diagnostics ++ Reference.types.reports d.model d.pendingTypes }

/-- Settles `pendingServices`. -/
def fixServices (d : Draft) : Draft :=
  { d with
    model := Reference.services.settleAll d.model d.pendingServices
    pendingServices := []
    diagnostics := d.diagnostics ++ Reference.services.reports d.model d.pendingServices }

/-- Settles everything that is pending: `fixTypes`, then `fixServices`. -/
def fixup (d : Draft) : Draft :=
  d.fixTypes.fixServices

/-- How many references of `pendingTypes` have no registered name. -/
def unresolvedTypeCount (d : Draft) : Nat :=
  (Reference.types.unresolvedNames d.model d.pendingTypes).length

/-- How many references of `pendingServices` have no registered name. -/
def unresolvedServiceCount (d : Draft) : Nat :=
  (Reference.services.unresolvedNames d.model d.pendingServices).length

end Draft

end ApiModel
