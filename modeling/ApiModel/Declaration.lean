import ApiModel.Model.Service

/-!
# Declarations

What a compilation starts from: types, services and documents as their author
wrote them. Names are plain text here and refer to each other freely, in any
order.
-/

namespace ApiModel

/-- A tag of a documentation comment. -/
structure DocTag where
  name : String
  value : Option String := none
deriving DecidableEq, Repr

structure AnnotationDecl where
  name : String
  parameters : List (String × List String) := []
deriving DecidableEq, Repr

/-- What may accompany any `Declaration`. -/
structure Meta where
  doc : Option String := none
  source : Option String := none
  tags : List DocTag := []
  annotations : List AnnotationDecl := []
deriving DecidableEq, Repr, Inhabited

structure TypeRef where
  name : String
  isArray : Bool := false
deriving DecidableEq, Repr

inductive Supertype where
  | none
  | class (name : String)
  | interfaces (names : List String)
deriving DecidableEq, Repr

/-- Of several interfaces the first is the base. -/
def Supertype.base? : Supertype → Option String
  | .none => Option.none
  | .class name => some name
  | .interfaces names => names.head?

structure MemberDecl where
  name : String
  type : TypeRef
  kind : MemberKind := .attribute
  info : Meta := {}
deriving DecidableEq, Repr

structure ConstantDecl where
  name : String
  info : Meta := {}
deriving DecidableEq, Repr

inductive TypeBody where
  | struct (supertype : Supertype) (members : List MemberDecl)
  | enum (constants : List ConstantDecl)
deriving DecidableEq, Repr

structure TypeDecl where
  name : String
  space : String
  info : Meta := {}
  body : TypeBody
deriving DecidableEq, Repr

structure ParameterDecl where
  name : String
  type : TypeRef
  direction : Direction := .input
  info : Meta := {}
deriving DecidableEq, Repr

structure ConstraintDecl where
  name : String
  direction : Direction := .input
  source : String
  info : Meta := {}
deriving DecidableEq, Repr

structure MethodDecl where
  name : String
  parameters : List ParameterDecl := []
  constraints : List ConstraintDecl := []
  info : Meta := {}
deriving DecidableEq, Repr

structure LocatorDecl where
  name : String
  service : String
  parameters : List ParameterDecl := []
  info : Meta := {}
deriving DecidableEq, Repr

structure ServiceDecl where
  name : String
  space : String
  supertype : Supertype := .none
  isRoot : Bool := false
  methods : List MethodDecl := []
  locators : List LocatorDecl := []
  info : Meta := {}
deriving DecidableEq, Repr

structure DocumentDecl where
  file : String
  source : String
deriving DecidableEq, Repr

inductive Declaration where
  | type (decl : TypeDecl)
  | service (decl : ServiceDecl)
  | document (decl : DocumentDecl)
deriving DecidableEq, Repr

/-! ## Concepts of declarations -/

/-- The text between double quotes, or the whole text if it isn't quoted. -/
def unquote (text : String) : String :=
  match text.toList with
  | [] => text
  | c :: cs =>
    if c = '"' && cs.getLast? = some '"' then String.ofList cs.dropLast else text

def AnnotationDecl.annotation (decl : AnnotationDecl) : Annotation :=
  decl.parameters.foldl
    (fun a (name, values) => a.addValues (Name.ofCase name) (values.map unquote)) {}

/-- Adds the value of a tag to the annotation `a`, unless the value is blank. -/
def DocTag.addTo (tag : DocTag) (a : Annotation) : Annotation :=
  match tag.value with
  | none => a
  | some value =>
    if Text.trim value = "" then a else a.addValues Annotation.valueParameter [value]

/-- The `Concept` of a declaration. Annotations come first, each replacing an earlier one of its
name; tags then add to them. -/
def Meta.concept (info : Meta) (name : Name) : Concept :=
  let start : Concept := { name, source := info.source.filter (· ≠ "") }
  let annotated := info.annotations.foldl
    (fun c decl => c.annotate (Name.ofCase decl.name) decl.annotation) (start.setDoc info.doc)
  info.tags.foldl (fun c tag => c.updateAnnotation (Name.ofCase tag.name) tag.addTo) annotated

end ApiModel
