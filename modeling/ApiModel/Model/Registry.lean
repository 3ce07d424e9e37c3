import ApiModel.Diagnostic
import ApiModel.Model.Service

/-!
# The model

A model holds types, services, modules and documents. Types and services keep
the position they were first given, and their identifiers are these positions.
Those that have been registered are also found by name. Lists and undefined
types stay out of the name index: a list is found by the name of its elements,
and an undefined type by the name it stands for, so that there is one of each.
-/

namespace ApiModel

/-- A namespace, with the `types` and `services` registered in it. -/
structure Module where
  name : Name
  types : List TypeId := []
  services : List ServiceId := []

/-- A text that accompanies the `Model`. -/
structure Document where
  name : Name
  source : String
  appendix : Bool

structure Model where
  types : Array DataType := #[]
  typeIndex : NameMap TypeId := ∅
  undefinedTypes : NameMap TypeId := ∅
  listTypes : NameMap TypeId := ∅
  services : Array Service := #[]
  serviceIndex : NameMap ServiceId := ∅
  undefinedServices : NameMap ServiceId := ∅
  modules : Array Module := #[]
  moduleIndex : NameMap ModuleId := ∅
  documents : List Document := []
  root : Option ServiceId := none

/-- Whether a reference is to a type or to a service. -/
inductive EntityKind where
  | type
  | service
deriving DecidableEq, Repr

def EntityKind.label : EntityKind → String
  | .type => "type"
  | .service => "service"

/-- Why an entity can't be registered. -/
inductive RegistryError where
  | duplicateType (name : Name)
  | duplicateService (name : Name)
  | duplicateModule (name : Name)
  | placeholder (kind : EntityKind) (name : Name)
  | list (elementName : Name)
deriving DecidableEq, Repr

namespace RegistryError

def message : RegistryError → String
  | duplicateType name => s!"duplicate type definition: '{name.display}'"
  | duplicateService name => s!"duplicate service definition: '{name.display}'"
  | duplicateModule name => s!"duplicate module definition: '{name.display}'"
  | placeholder kind name => s!"undefined {kind.label} '{name.display}' can't be registered"
  | list elementName =>
    s!"list of '{elementName.display}' is interned, not registered by name"

def diagnostic (e : RegistryError) : Diagnostic :=
  match e with
  | duplicateService _ => .report .duplicateService e.message
  | _ => .report .duplicateType e.message

end RegistryError

namespace Model

/-! ## Types -/

def type? (m : Model) (id : TypeId) : Option DataType :=
  m.types[id.index]?

def findType? (m : Model) (name : Name) : Option TypeId :=
  m.typeIndex[name]?

/-- Gives the type `t` the next position, without registering it. -/
def allocType (m : Model) (t : DataType) : TypeId × Model :=
  (⟨m.types.size⟩, { m with types := m.types.push t })

def modifyType (m : Model) (id : TypeId) (f : DataType → DataType) : Model :=
  { m with types := m.types.modify id.index f }

def modifyStruct (m : Model) (id : TypeId) (f : StructType → StructType) : Model :=
  m.modifyType id (·.mapStruct f)

/-- Lists the type `id` in its module. -/
def enterType (m : Model) (id : TypeId) : Option ModuleId → Model
  | none => m
  | some module =>
    { m with modules := m.modules.modify module.index fun x => { x with types := x.types ++ [id] } }

/-- The name a type may be registered under; a placeholder and a list have none. -/
def registrableName : DataType → Except RegistryError Name
  | .undefined name => .error (.placeholder .type name)
  | .list elementName _ => .error (.list elementName)
  | t => .ok t.name

/-- Registers the type `id` under its name. Doing so twice changes nothing. -/
def addType (m : Model) (id : TypeId) : Except RegistryError Model :=
  match m.type? id with
  | none => .ok m
  | some t =>
    match registrableName t with
    | .error e => .error e
    | .ok name =>
      match m.findType? name with
      | some other => if other = id then .ok m else .error (.duplicateType name)
      | none => .ok ({ m with typeIndex := m.typeIndex.insert name id }.enterType id t.module?)

/-- The type that stands for the unknown `name`. -/
def undefinedType (m : Model) (name : Name) : TypeId × Model :=
  match m.undefinedTypes[name]? with
  | some id => (id, m)
  | none =>
    let (id, m) := m.allocType (.undefined name)
    (id, { m with undefinedTypes := m.undefinedTypes.insert name id })

def findList? (m : Model) (elementName : Name) : Option TypeId :=
  m.listTypes[elementName]?

/-- Allocates the list of an element type that is still unknown but for its `elementName`. -/
def allocList (m : Model) (elementName : Name) : TypeId × Model :=
  let (element, m) := m.undefinedType elementName
  let (id, m) := m.allocType (.list elementName element)
  (id, { m with listTypes := m.listTypes.insert elementName id })

def listCount (m : Model) : Nat :=
  m.listTypes.size

/-! ## Services -/

def service? (m : Model) (id : ServiceId) : Option Service :=
  m.services[id.index]?

def definedService? (m : Model) (id : ServiceId) : Option DefinedService :=
  (m.service? id).bind Service.defined?

def findService? (m : Model) (name : Name) : Option ServiceId :=
  m.serviceIndex[name]?

def allocService (m : Model) (s : Service) : ServiceId × Model :=
  (⟨m.services.size⟩, { m with services := m.services.push s })

def modifyService (m : Model) (id : ServiceId) (f : DefinedService → DefinedService) : Model :=
  { m with services := m.services.modify id.index (·.mapDefined f) }

/-- Lists the service `id` in its module. -/
def enterService (m : Model) (id : ServiceId) : Option ModuleId → Model
  | none => m
  | some module =>
    { m with
      modules := m.modules.modify module.index fun x => { x with services := x.services ++ [id] } }

/-- Registers the service `id` under its name. Doing so twice changes nothing. -/
def addService (m : Model) (id : ServiceId) : Except RegistryError Model :=
  match m.service? id with
  | none => .ok m
  | some (.undefined name) => .error (.placeholder .service name)
  | some (.defined s) =>
    match m.findService? s.name with
    | some other => if other = id then .ok m else .error (.duplicateService s.name)
    | none =>
      .ok ({ m with serviceIndex := m.serviceIndex.insert s.name id }.enterService id s.module)

/-- The service that stands for the unknown `name`. -/
def undefinedService (m : Model) (name : Name) : ServiceId × Model :=
  match m.undefinedServices[name]? with
  | some id => (id, m)
  | none =>
    let (id, m) := m.allocService (.undefined name)
    (id, { m with undefinedServices := m.undefinedServices.insert name id })

/-- Makes `id` the root service. -/
def setRoot (m : Model) (id : ServiceId) : Model :=
  { m with root := some id }

/-! ## Methods and constraints -/

def method? (m : Model) (r : MethodRef) : Option Method :=
  (m.definedService? r.service).bind (·.methods[r.index]?)

def modifyMethod (m : Model) (r : MethodRef) (f : Method → Method) : Model :=
  m.modifyService r.service (·.modifyMethod r.index f)

def constraint? (m : Model) (r : ConstraintRef) : Option Constraint :=
  (m.method? r.method).bind (·.constraints[r.index]?)

def setExpression (m : Model) (r : ConstraintRef) (e : Expr) : Model :=
  m.modifyMethod r.method fun x =>
    { x with constraints := x.constraints.modify r.index ({ · with expression := some e }) }

/-! ## Modules and documents -/

def module? (m : Model) (id : ModuleId) : Option Module :=
  m.modules[id.index]?

def findModule? (m : Model) (name : Name) : Option ModuleId :=
  m.moduleIndex[name]?

/-- Adds a module at the next position, under `name`. -/
def pushModule (m : Model) (name : Name) : ModuleId × Model :=
  let id : ModuleId := ⟨m.modules.size⟩
  (id, { m with
    modules := m.modules.push { name }
    moduleIndex := m.moduleIndex.insert name id })

def addModule (m : Model) (name : Name) : Except RegistryError (ModuleId × Model) :=
  match m.findModule? name with
  | some _ => .error (.duplicateModule name)
  | none => .ok (m.pushModule name)

/-- The module with the given `name`, created by `pushModule` if need be. -/
def internModule (m : Model) (name : Name) : ModuleId × Model :=
  match m.findModule? name with
  | some id => (id, m)
  | none => m.pushModule name

def addDocument (m : Model) (d : Document) : Model :=
  { m with documents := m.documents ++ [d] }

/-! ## The model to start from -/

def addPrimitive (m : Model) (k : PrimitiveKind) : Model :=
  let (id, m) := m.allocType (.primitive k)
  { m with typeIndex := m.typeIndex.insert k.name id }

/-- The model that holds the primitive types only: those of `PrimitiveKind.all`. -/
def initial : Model :=
  PrimitiveKind.all.foldl addPrimitive {}

end Model

end ApiModel
