import ApiModel.Schema.Base
import ApiModel.Schema.Layout

/-!
# Generating a schema

The layout of a model, written into a base document.
-/

namespace ApiModel.Schema

/-- What a type of the model is needed for, see `Anchors`. -/
inductive AnchorRole where
  | identified
  | api
deriving DecidableEq, Repr

def AnchorRole.label : AnchorRole → String
  | .identified => "identified"
  | .api => "api"

inductive SchemaError where
  | missingType (role : AnchorRole) (name : Name)
  | base (error : BaseError)
deriving DecidableEq, Repr

def SchemaError.message : SchemaError → String
  | missingType role name =>
    s!"the {role.label} type '{name.display}' doesn't exist in the model"
  | base (.invalid fault) => s!"invalid base schema: {fault.message}"
  | base (.malformed fault) => s!"XML error: {fault.message}"

def findAnchor (m : Model) (role : AnchorRole) (name : Name) : Except SchemaError TypeId :=
  match m.findType? name with
  | some id => .ok id
  | none => .error (.missingType role name)

def findAnchors (cfg : Config) (m : Model) : Except SchemaError Anchors := do
  let identified ← findAnchor m .identified cfg.identified
  let api ← findAnchor m .api cfg.api
  return ⟨identified, api⟩

structure Generated where
  xml : String
  diagnostics : List Diagnostic
deriving DecidableEq, Repr

/-- The text of all `definitions`. -/
def definitionChars (cfg : Config) (m : Model) (anchors : Anchors) : List Char :=
  Xml.Tag.renderChars ((definitions cfg m anchors).flatMap Definition.tags)

/-- Generates the schema of `m` in the document `base`, which is read by `read`. -/
def generateBy (read : List Char → Xml.Outline) (cfg : Config) (m : Model) (base : String) :
    Except SchemaError Generated := do
  let anchors ← findAnchors cfg m
  let root ← (locateRootBy read base.toList).mapError .base
  return {
    xml := String.ofList (root.splice base.toList (definitionChars cfg m anchors))
    diagnostics := reports cfg m anchors }

def generate (cfg : Config) (m : Model) (base : String) : Except SchemaError Generated :=
  generateBy Xml.outline cfg m base

end ApiModel.Schema
