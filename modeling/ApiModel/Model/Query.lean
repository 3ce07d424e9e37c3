import ApiModel.Model.Registry

/-!
# Reading a model

Registered entities in the order of their names, and the names that registered
entities refer to although nothing declares them.
-/

namespace ApiModel.Model

/-! ## Listings -/

/-- The registered types, in the order of `sortByName`. -/
def registeredTypes (m : Model) : List (TypeId × DataType) :=
  m.typeIndex.values.filterMap fun id => (m.type? id).map (id, ·)

def structs (m : Model) : List (TypeId × StructType) :=
  m.registeredTypes.filterMap fun (id, t) => t.struct?.map (id, ·)

def enums (m : Model) : List (TypeId × EnumType) :=
  m.registeredTypes.filterMap fun (id, t) => t.enum?.map (id, ·)

/-- The registered services, in the order of `sortByName`. -/
def registeredServices (m : Model) : List (ServiceId × DefinedService) :=
  m.serviceIndex.values.filterMap fun id => (m.definedService? id).map (id, ·)

def registeredModules (m : Model) : List (ModuleId × Module) :=
  m.moduleIndex.values.filterMap fun id => (m.module? id).map (id, ·)

def sortedDocuments (m : Model) : List Document :=
  sortByName (·.name) m.documents

/-! ## Unresolved references -/

/-- The types the struct `s` refers to. -/
def structReferences (s : StructType) : List TypeId :=
  s.base.toList ++ s.members.map (·.type)

/-- The types the methods and locators of the service `s` refer to. -/
def serviceTypeReferences (s : DefinedService) : List TypeId :=
  s.methods.flatMap (·.parameters.map (·.type))
    ++ s.locators.flatMap (·.parameters.map (·.type))

/-- The services the service `s` refers to. -/
def serviceReferences (s : DefinedService) : List ServiceId :=
  s.base.toList ++ s.locators.map (·.service)

/-- The types that registered entities refer to: `structReferences` and `serviceTypeReferences`. -/
def typeReferences (m : Model) : List TypeId :=
  m.structs.flatMap (fun (_, s) => structReferences s)
    ++ m.registeredServices.flatMap (fun (_, s) => serviceTypeReferences s)

/-- The name that the reference `id` fails to resolve; in a list, the elements count. -/
def unresolvedName? (m : Model) (id : TypeId) : Option Name := do
  let t ← m.type? id
  let t ← match t.element? with
    | some element => m.type? element
    | none => some t
  t.undefined?

def unresolvedTypes (m : Model) : NameSet :=
  .ofList (m.typeReferences.filterMap m.unresolvedName?)

def unresolvedServices (m : Model) : NameSet :=
  .ofList ((m.registeredServices.flatMap fun (_, s) => serviceReferences s).filterMap
    fun id => (m.service? id).bind Service.undefined?)

end ApiModel.Model
