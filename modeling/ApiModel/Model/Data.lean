import ApiModel.Concept

/-!
# Data types

A data type is a primitive, a struct, an enumeration, a list of another type,
or an undefined type that merely stands for a name nothing has declared yet.
Types refer to each other by identifiers, the positions they have in the model
that holds them.
-/

namespace ApiModel

structure TypeId where
  index : Nat
deriving DecidableEq, Repr, Inhabited

structure ModuleId where
  index : Nat
deriving DecidableEq, Repr, Inhabited

/-! ## Primitives -/

inductive PrimitiveKind where
  | boolean
  | string
  | integer
  | decimal
  | date
deriving DecidableEq, Repr

namespace PrimitiveKind

def all : List PrimitiveKind :=
  [.boolean, .string, .integer, .decimal, .date]

def label : PrimitiveKind → String
  | .boolean => "Boolean"
  | .string => "String"
  | .integer => "Integer"
  | .decimal => "Decimal"
  | .date => "Date"

def ofLabel? (label : String) : Option PrimitiveKind :=
  all.find? (·.label = label)

def name (k : PrimitiveKind) : Name :=
  Name.ofCase k.label

/-- Every `Model` holds the primitives, in this order, before anything else. -/
def typeId : PrimitiveKind → TypeId
  | .boolean => ⟨0⟩
  | .string => ⟨1⟩
  | .integer => ⟨2⟩
  | .decimal => ⟨3⟩
  | .date => ⟨4⟩

end PrimitiveKind

/-! ## Structs -/

/-- An `attribute` embeds a value, a `link` refers to another entity. -/
inductive MemberKind where
  | attribute
  | link
deriving DecidableEq, Repr

structure Member where
  concept : Concept
  kind : MemberKind
  type : TypeId
  owner : TypeId

def Member.name (m : Member) : Name :=
  m.concept.name

structure StructType where
  concept : Concept
  module : Option ModuleId := none
  base : Option TypeId := none
  attributes : List Member := []
  links : List Member := []

namespace StructType

def name (s : StructType) : Name :=
  s.concept.name

/-- All members of `s`, attributes first. -/
def members (s : StructType) : List Member :=
  s.attributes ++ s.links

def member? (s : StructType) (name : Name) : Option Member :=
  s.members.find? (·.name = name)

def addMember (s : StructType) (m : Member) : StructType :=
  match m.kind with
  | .attribute => { s with attributes := s.attributes ++ [m] }
  | .link => { s with links := s.links ++ [m] }

end StructType

/-! ## Enumerations -/

structure EnumValue where
  concept : Concept
  owner : TypeId

namespace EnumValue

def name (v : EnumValue) : Name :=
  v.concept.name

/-- The token of `v` in documents. -/
def lowerToken (v : EnumValue) : String :=
  Text.lower v.name.display

/-- The token of `v` in bindings. -/
def upperToken (v : EnumValue) : String :=
  Text.upper v.name.display

end EnumValue

structure EnumType where
  concept : Concept
  module : Option ModuleId := none
  values : List EnumValue := []

def EnumType.name (e : EnumType) : Name :=
  e.concept.name

/-! ## The types of a model -/

inductive DataType where
  | primitive (kind : PrimitiveKind)
  | struct (s : StructType)
  | enum (e : EnumType)
  | list (elementName : Name) (element : TypeId)
  | undefined (name : Name)

namespace DataType

/-- A `list` goes by the name of its elements. -/
def name : DataType → Name
  | primitive kind => kind.name
  | struct s => s.name
  | enum e => e.name
  | list elementName _ => elementName
  | undefined name => name

def label : DataType → String
  | primitive _ => "primitive"
  | struct _ => "struct"
  | enum _ => "enum"
  | list _ _ => "list"
  | undefined _ => "undefined"

def module? : DataType → Option ModuleId
  | struct s => s.module
  | enum e => e.module
  | _ => none

/-- Only a `struct` and an `enum` belong to a module. -/
def setModule (id : ModuleId) : DataType → DataType
  | struct s => struct { s with module := some id }
  | enum e => enum { e with module := some id }
  | t => t

def struct? : DataType → Option StructType
  | struct s => some s
  | _ => none

def enum? : DataType → Option EnumType
  | enum e => some e
  | _ => none

/-- The element of a `list`. -/
def element? : DataType → Option TypeId
  | list _ element => some element
  | _ => none

def undefined? : DataType → Option Name
  | undefined name => some name
  | _ => none

def isPrimitive : DataType → Bool
  | primitive _ => true
  | _ => false

def mapStruct (f : StructType → StructType) : DataType → DataType
  | struct s => struct (f s)
  | t => t

def mapEnum (f : EnumType → EnumType) : DataType → DataType
  | enum e => enum (f e)
  | t => t

def setElement (id : TypeId) : DataType → DataType
  | list elementName _ => list elementName id
  | t => t

end DataType

end ApiModel
