import ApiModel.Model.Inheritance
import ApiModel.Schema.Definition
import ApiModel.Schema.Exceptions
import ApiModel.Schema.Naming

/-!
# The layout of a schema

Which definitions a model gives rise to. Each enumeration has a simple type and
a type for the list of its values. Each struct has an element, a complex type
and, with few exceptions, an element and a type for its collections. Two types
of the model anchor the layout: resources are the structs that extend the
*identified* type, together with the *API* type, and they extend a type that
the base document supplies.

A member that has no type in the schema is left out and reported.
-/

namespace ApiModel.Schema

structure Config where
  identified : Name := Name.ofCase "Identified"
  api : Name := Name.ofCase "Api"
  /-- The schema type that resources extend. -/
  baseResource : String := "BaseResource"
  /-- The schema type that collections of resources extend. -/
  baseResources : String := "BaseResources"
  naming : SchemaNaming := .standard
  pluralizer : Pluralizer := .english
  /-- Members written as XML attributes. -/
  isAttribute : Name → Bool := standardAttributes.contains
  overrides : Overrides := standardOverrides
  withoutCollection : NameSet := standardWithoutCollection

/-- The two types that the layout hangs on. -/
structure Anchors where
  identified : TypeId
  api : TypeId
deriving DecidableEq, Repr

variable (cfg : Config) (m : Model)

/-! ## Fixed definitions -/

def actions : Definition :=
  .complexType "Actions" none [.reference "link" "Links"] []

/-! ## Enumerations -/

/-- The type for the list of values of the enumeration `name`. -/
def valuesTypeName (name : Name) : String :=
  cfg.naming.type name ++ "Values"

/-- The group that lists the values of every one of `enums`. -/
def enumGroup (enums : List EnumType) : Definition :=
  .group "EnumValues" (enums.map fun e =>
    .element (cfg.naming.tag (cfg.pluralizer.plural e.name)) (valuesTypeName cfg e.name) .once)

def enumValuesType (e : EnumType) : Definition :=
  .complexType (valuesTypeName cfg e.name) none
    [.element (cfg.naming.tag e.name) (cfg.naming.type e.name) .any] []

def facet (v : EnumValue) : Facet :=
  ⟨v.lowerToken, v.upperToken⟩

def enumType (e : EnumType) : Definition :=
  .simpleType (cfg.naming.type e.name) (cfg.naming.primitive .string)
    ((sortByName (·.name) e.values).map facet)

/-! ## Members -/

/-- The schema type of the model type `id`; lists and undefined types have none. -/
def typeName? (id : TypeId) : Option String :=
  match m.type? id with
  | some (.primitive kind) => some (cfg.naming.primitive kind)
  | some (.struct s) => some (cfg.naming.type s.name)
  | some (.enum e) => some (cfg.naming.type e.name)
  | _ => none

/-- The schema type of the member `x` of `owner`, whose model type is `id`, with the `overrides`. -/
def memberTypeName? (owner : StructType) (x : Member) (id : TypeId) : Option String :=
  (cfg.overrides.get? owner.name x.name).or (typeName? cfg m id)

/-- The report that the member `x` of `owner` has been left out. -/
def unrenderable (owner : StructType) (x : Member) : Diagnostic :=
  let t := (m.type? x.type).getD (.undefined ⟨[]⟩)
  .unrenderableMember x.name owner.name t.label t.name

/-- The member `x`, a list, with elements of the type `element`. -/
def listParticle? (owner : StructType) (x : Member) (element : TypeId) : Option Particle :=
  match m.type? element with
  | some (.struct s) =>
    some (.element (cfg.naming.tag x.name)
      (cfg.naming.type (cfg.pluralizer.plural s.name)) .optional)
  | some (.primitive _) | some (.enum _) =>
    (memberTypeName? cfg m owner x element).map fun type =>
      .wrapper (cfg.naming.tag x.name) (cfg.naming.type x.name ++ "List")
        (cfg.naming.tag (cfg.pluralizer.singular x.name)) type (cfg.naming.type x.name)
  | _ => none

def particle? (owner : StructType) (x : Member) : Option Particle :=
  match (m.type? x.type).bind DataType.element? with
  | some element => listParticle? cfg m owner x element
  | none =>
    (memberTypeName? cfg m owner x x.type).map fun type =>
      .element (cfg.naming.tag x.name) type .optional

def attributeUse? (owner : StructType) (x : Member) : Option AttributeUse :=
  (memberTypeName? cfg m owner x x.type).map fun type => ⟨cfg.naming.tag x.name, type⟩

/-- The members of `s` written as elements, by name. -/
def elementMembers (s : StructType) : List Member :=
  (sortByName (·.name) s.members).filter fun x => !cfg.isAttribute x.name

/-- The members of `s` written as XML attributes, by name. -/
def attributeMembers (s : StructType) : List Member :=
  (sortByName (·.name) s.members).filter fun x => cfg.isAttribute x.name

def sequence (s : StructType) : List Particle :=
  (elementMembers cfg s).filterMap (particle? cfg m s)

def attributeUses (s : StructType) : List AttributeUse :=
  (attributeMembers cfg s).filterMap (attributeUse? cfg m s)

/-- The reports on the members of `s`, in the order they would be written. -/
def memberReports (s : StructType) : List Diagnostic :=
  ((elementMembers cfg s).filter fun x => (particle? cfg m s x).isNone).map (unrenderable m s)
    ++ ((attributeMembers cfg s).filter fun x => (attributeUse? cfg m s x).isNone).map
      (unrenderable m s)

/-! ## Structs -/

variable (anchors : Anchors)

def isResource (id : TypeId) : Bool :=
  id = anchors.api || m.isExtension id anchors.identified

/-- What becomes of the base of a struct, see `baseUse`. -/
inductive BaseUse where
  /-- No base of its own: at most the `baseResource` all resources share. -/
  | implied
  | struct (s : StructType)
  | unusable (t : DataType)

def baseUse (s : StructType) : BaseUse :=
  match s.base with
  | none => .implied
  | some base =>
    if base = anchors.identified then .implied
    else
      match (m.type? base).getD (.undefined ⟨[]⟩) with
      | .struct parent => .struct parent
      | t => .unusable t

/-- The schema type that the complex type of the struct `id` extends. -/
def extensionBase? (id : TypeId) (s : StructType) : Option String :=
  match baseUse m anchors s with
  | .struct parent => some (cfg.naming.type parent.name)
  | _ => if isResource m anchors id then some cfg.baseResource else none

def baseReports (s : StructType) : List Diagnostic :=
  match baseUse m anchors s with
  | .unusable t => [.unresolvedBase t.name s.name]
  | _ => []

def structType (id : TypeId) (s : StructType) : List Definition :=
  [.element (cfg.naming.tag s.name) (cfg.naming.type s.name),
    .complexType (cfg.naming.type s.name) (extensionBase? cfg m anchors id s)
      (sequence cfg m s) (attributeUses cfg m s)]

def collectionType (id : TypeId) (s : StructType) : List Definition :=
  let plural := cfg.pluralizer.plural s.name
  [.element (cfg.naming.tag plural) (cfg.naming.type plural),
    .complexType (cfg.naming.type plural)
      (if isResource m anchors id then some cfg.baseResources else none)
      [.reference (cfg.naming.tag s.name) (cfg.naming.type plural)] []]

def structDefinitions (id : TypeId) (s : StructType) : List Definition :=
  structType cfg m anchors id s
    ++ if cfg.withoutCollection.contains s.name then [] else collectionType cfg m anchors id s

def structReports (s : StructType) : List Diagnostic :=
  baseReports m anchors s ++ memberReports cfg m s

/-! ## Everything -/

/-- The structs that have definitions: all but `anchors.identified`. -/
def definedStructs : List (TypeId × StructType) :=
  m.structs.filter fun (id, _) => id ≠ anchors.identified

def definitions : List Definition :=
  let enums := m.enums.map (·.2)
  actions :: enumGroup cfg enums :: enums.map (enumValuesType cfg) ++ enums.map (enumType cfg)
    ++ (definedStructs m anchors).flatMap fun (id, s) => structDefinitions cfg m anchors id s

def reports : List Diagnostic :=
  (definedStructs m anchors).flatMap fun (_, s) => structReports cfg m anchors s

end ApiModel.Schema
