import ApiModel.Name.Parse

/-!
# Concepts

Every entity of a model carries a concept: its name, its documentation, its
annotations and, where it is kept, the source text it was read from.
Annotations are found by name, and so are their parameters. The parameter
called `value` is the one that documentation tags write to.
-/

namespace ApiModel

/-- The values of an annotation, grouped under the names of its parameters. -/
structure Annotation where
  parameters : NameMap (List String) := ∅

namespace Annotation

def valueParameter : Name :=
  Name.ofCase "value"

def parameter? (a : Annotation) (name : Name) : Option (List String) :=
  a.parameters[name]?

/-- Adds `values` at the end of the parameter `name`, which is created if need be. -/
def addValues (a : Annotation) (name : Name) (values : List String) : Annotation :=
  ⟨a.parameters.insert name ((a.parameter? name).getD [] ++ values)⟩

def values (a : Annotation) : List String :=
  (a.parameter? valueParameter).getD []

end Annotation

structure Concept where
  name : Name
  doc : Option String := none
  annotations : NameMap Annotation := ∅
  source : Option String := none

namespace Concept

/-- Documentation is trimmed, and blank documentation is none. -/
def setDoc (c : Concept) (text : Option String) : Concept :=
  { c with doc := (text.map Text.trim).filter (· ≠ "") }

def annotation? (c : Concept) (name : Name) : Option Annotation :=
  c.annotations[name]?

/-- Sets the annotation `name`, replacing the one that had this name. -/
def annotate (c : Concept) (name : Name) (a : Annotation) : Concept :=
  { c with annotations := c.annotations.insert name a }

/-- Changes the annotation `name` by `f`; it is created empty if need be. -/
def updateAnnotation (c : Concept) (name : Name) (f : Annotation → Annotation) : Concept :=
  c.annotate name (f ((c.annotation? name).getD {}))

end Concept

end ApiModel
