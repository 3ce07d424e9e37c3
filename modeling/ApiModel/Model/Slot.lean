import ApiModel.Model.Registry

/-!
# Slots

A slot is a place in a model that holds a reference. A reference to a name that
isn't registered yet is filled in later, and the slot tells where. Slots that
don't exist are ignored.
-/

namespace ApiModel

/-- A place that refers to a `DataType`. -/
inductive TypeSlot where
  | base (owner : TypeId)
  | attribute (owner : TypeId) (index : Nat)
  | link (owner : TypeId) (index : Nat)
  | listElement (list : TypeId)
  | methodParameter (method : MethodRef) (index : Nat)
  | locatorParameter (service : ServiceId) (locator index : Nat)
deriving DecidableEq, Repr

/-- A place that refers to a `Service`. -/
inductive ServiceSlot where
  | base (owner : ServiceId)
  | locator (owner : ServiceId) (index : Nat)
deriving DecidableEq, Repr

/-- Gives the member at `index` the type `id`. -/
def retypeMember (id : TypeId) (index : Nat) (ms : List Member) : List Member :=
  ms.modify index ({ · with type := id })

/-- Gives the parameter at `index` the type `id`. -/
def retypeParameter (id : TypeId) (index : Nat) (ps : List Parameter) : List Parameter :=
  ps.modify index ({ · with type := id })

namespace Model

def assignType (m : Model) (slot : TypeSlot) (id : TypeId) : Model :=
  match slot with
  | .base owner => m.modifyStruct owner ({ · with base := some id })
  | .attribute owner index =>
    m.modifyStruct owner fun s => { s with attributes := retypeMember id index s.attributes }
  | .link owner index =>
    m.modifyStruct owner fun s => { s with links := retypeMember id index s.links }
  | .listElement list => m.modifyType list (·.setElement id)
  | .methodParameter method index =>
    m.modifyMethod method fun x => { x with parameters := retypeParameter id index x.parameters }
  | .locatorParameter service locator index =>
    m.modifyService service (·.modifyLocator locator fun l =>
      { l with parameters := retypeParameter id index l.parameters })

def assignService (m : Model) (slot : ServiceSlot) (id : ServiceId) : Model :=
  match slot with
  | .base owner => m.modifyService owner ({ · with base := some id })
  | .locator owner index =>
    m.modifyService owner (·.modifyLocator index ({ · with service := id }))

end Model

end ApiModel
