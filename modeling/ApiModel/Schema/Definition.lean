import ApiModel.Xml.Tag

/-!
# Schema definitions

The part of XML Schema that generated schemas are made of, and how it is
written. Binding hints tell a code generator what to call a class or a
property; they are written as annotations.
-/

namespace ApiModel.Schema

open Xml (Tag)

/-- How often an element may occur: `minOccurs` and `maxOccurs`. -/
inductive Occurs where
  | once
  | optional
  | any
deriving DecidableEq, Repr

def Occurs.attributes : Occurs → List (String × String)
  | once => [("minOccurs", "1"), ("maxOccurs", "1")]
  | optional => [("minOccurs", "0"), ("maxOccurs", "1")]
  | any => [("minOccurs", "0"), ("maxOccurs", "unbounded")]

/-- An entry of an `xs:sequence`. -/
inductive Particle where
  | element (name type : String) (occurs : Occurs)
  /-- Any number of the element `name`, bound to `property`. -/
  | reference (name property : String)
  /-- An element around any number of elements `child`, bound to `property`; the element around
  them is bound to `listClass`. -/
  | wrapper (name listClass child childType property : String)
deriving DecidableEq, Repr

/-- An `xs:attribute` of a type. -/
structure AttributeUse where
  name : String
  type : String
deriving DecidableEq, Repr

/-- A `value` of a restricted type, and the constant `property` it is bound to. -/
structure Facet where
  value : String
  property : String
deriving DecidableEq, Repr

/-- A definition at the top of a schema. -/
inductive Definition where
  | element (name type : String)
  | complexType (name : String) (base : Option String) (sequence : List Particle)
      (attributes : List AttributeUse)
  | simpleType (name base : String) (facets : List Facet)
  | group (name : String) (sequence : List Particle)
deriving DecidableEq, Repr

/-! ## Tags -/

/-- The tags of the element `name` with some `content`. -/
def enclose (name : String) (attributes : List (String × String)) (content : List Tag) : List Tag :=
  .start name attributes :: content ++ [.stop name]

/-- A binding hint: what is annotated is to be called `name`, and `kind` tells what it is bound
to. -/
def binding (kind name : String) : List Tag :=
  enclose "xs:annotation" [] (enclose "xs:appinfo" [] [.empty ("jaxb:" ++ kind) [("name", name)]])

def Particle.tags : Particle → List Tag
  | element name type occurs =>
    [.empty "xs:element" ([("name", name), ("type", type)] ++ occurs.attributes)]
  | reference name property =>
    enclose "xs:element" (("ref", name) :: Occurs.any.attributes) (binding "property" property)
  | wrapper name listClass child childType property =>
    enclose "xs:element" (("name", name) :: Occurs.optional.attributes)
      (enclose "xs:complexType" []
        (binding "class" listClass ++
          enclose "xs:sequence" []
            (enclose "xs:element"
              ([("name", child), ("type", childType)] ++ Occurs.any.attributes)
              (binding "property" property))))

def AttributeUse.tag (a : AttributeUse) : Tag :=
  .empty "xs:attribute" [("name", a.name), ("type", a.type)]

def Facet.tags (f : Facet) : List Tag :=
  enclose "xs:enumeration" [("value", f.value)] (binding "property" f.property)

def sequenceTags (sequence : List Particle) : List Tag :=
  enclose "xs:sequence" [] (sequence.flatMap Particle.tags)

/-- Content that extends `base`, if there is one. -/
def extend (base : Option String) (content : List Tag) : List Tag :=
  match base with
  | none => content
  | some base => enclose "xs:complexContent" [] (enclose "xs:extension" [("base", base)] content)

def Definition.tags : Definition → List Tag
  | element name type => [.empty "xs:element" [("name", name), ("type", type)]]
  | complexType name base sequence attributes =>
    enclose "xs:complexType" [("name", name)]
      (extend base (sequenceTags sequence ++ attributes.map AttributeUse.tag))
  | simpleType name base facets =>
    enclose "xs:simpleType" [("name", name)]
      (enclose "xs:restriction" [("base", base)] (facets.flatMap Facet.tags))
  | group name sequence => enclose "xs:group" [("name", name)] (sequenceTags sequence)

end ApiModel.Schema
