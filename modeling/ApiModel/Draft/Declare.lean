import ApiModel.Declaration
import ApiModel.Draft.Basic
import ApiModel.Path

/-!
# Declaring

Each declaration extends a draft. What has a name that is already taken is
reported and left out. A name without any words is an error: the declaration
stops there, and what it has added so far stays.
-/

namespace ApiModel

/-- What a declared name is the name of, for an `InvalidName`. -/
inductive NameRole where
  | type
  | enumValue
  | member
  | service
  | method
  | locator
  | parameter
  | constraint
deriving DecidableEq, Repr

def NameRole.label : NameRole → String
  | .type => "type"
  | .enumValue => "enum value"
  | .member => "member"
  | .service => "service"
  | .method => "method"
  | .locator => "locator"
  | .parameter => "parameter"
  | .constraint => "constraint"

/-- A text that has no words. -/
structure InvalidName where
  role : NameRole
  text : String
deriving DecidableEq, Repr

def InvalidName.message (e : InvalidName) : String :=
  s!"invalid {e.role.label} name '{e.text}'"

/-- Extends a `Draft`. An error keeps the draft as it is at that point. -/
abbrev Declare := ExceptT InvalidName (StateM Draft)

/-! ## Names in declarations -/

/-- Names of services may carry the ending `Service`, which isn't part of the name. -/
def serviceSuffix : List Char :=
  ['S', 'e', 'r', 'v', 'i', 'c', 'e']

/-- Removes the `serviceSuffix`, unless nothing else is left. -/
def stripServiceSuffix (text : String) : String :=
  match serviceSuffix.reverse.isPrefixOf? text.toList.reverse with
  | none | some [] => text
  | some rest => String.ofList rest.reverse

/-- Other spellings of primitive types. -/
def synonym? (text : String) : Option PrimitiveKind :=
  if text ∈ ["Boolean", "bool"] then some .boolean
  else if text ∈ ["Double", "Float", "double", "float"] then some .decimal
  else none

/-- The name of the type that a reference is written for; a `synonym?` is that of a primitive. -/
def referenceName (text : String) : Name :=
  match synonym? text with
  | some kind => kind.name
  | none => Name.ofCase text

namespace Declare

/-- The given `name`, or an error if it has no words. -/
def checked (role : NameRole) (text : String) (name : Name) : Declare Name :=
  if name.isEmpty then throw ⟨role, text⟩ else pure name

def parseName (role : NameRole) (text : String) : Declare Name :=
  checked role text (Name.ofCase text)

def parseServiceName (text : String) : Declare Name :=
  parseName .service (stripServiceSuffix text)

/-! ## Steps on the model -/

def updateModel (f : Model → Model) : Declare Unit :=
  modify fun d => { d with model := f d.model }

/-- Runs a step that hands out an identifier, as `Model.allocType` does. -/
def allocate {ι : Type} (f : Model → ι × Model) : Declare ι :=
  modifyGet fun d => ((f d.model).1, { d with model := (f d.model).2 })

/-- Registers an entity, or reports why it can't be. -/
def register (add : Model → Except RegistryError Model) : Declare Bool :=
  modifyGet fun d =>
    match add d.model with
    | .ok model => (true, { d with model })
    | .error e => (false, d.report e.diagnostic)

/-- The module of the namespace `space`; the empty namespace has none. -/
def moduleOf (space : String) : Declare (Option ModuleId) :=
  let name := Name.ofNamespace space
  if name.isEmpty then pure none else some <$> allocate (·.internModule name)

/-- Resolves the reference `ref` to a type, for use in `slot`. -/
def typeRef (ref : TypeRef) (slot : TypeSlot) : Declare TypeId :=
  let name := referenceName ref.name
  if ref.isArray then
    (Draft.internList name fun list => Draft.resolveType name (.listElement list) :
      StateM Draft TypeId)
  else
    (Draft.resolveType name slot : StateM Draft TypeId)

/-! ## Types -/

def enumValue (owner : TypeId) (decl : ConstantDecl) : Declare EnumValue := do
  let name ← checked .enumValue decl.name (Name.ofConstant decl.name)
  return { concept := decl.info.concept name, owner }

def enumType (decl : TypeDecl) (constants : List ConstantDecl) : Declare Unit := do
  let name ← parseName .type decl.name
  let module ← moduleOf decl.space
  let id ← allocate (·.allocType (.enum { concept := decl.info.concept name, module }))
  let values ← constants.mapM (enumValue id)
  updateModel (·.modifyType id (·.mapEnum ({ · with values })))
  discard (register (·.addType id))

/-- The slot of the next member of the kind `kind`. -/
def memberSlot (owner : TypeId) (kind : MemberKind) (m : Model) : TypeSlot :=
  let s? := (m.type? owner).bind DataType.struct?
  match kind with
  | .attribute => .attribute owner (s?.elim 0 (·.attributes.length))
  | .link => .link owner (s?.elim 0 (·.links.length))

def member (owner : TypeId) (decl : MemberDecl) : Declare Unit := do
  let name ← parseName .member decl.name
  let slot := memberSlot owner decl.kind (← get).model
  let type ← typeRef decl.type slot
  let member : Member := { concept := decl.info.concept name, kind := decl.kind, type, owner }
  updateModel (·.modifyStruct owner (·.addMember member))

def structBase (id : TypeId) : Option String → Declare Unit
  | none => pure ()
  | some text => do
    let name ← parseName .type text
    let base ← (Draft.resolveType name (.base id) : StateM Draft TypeId)
    updateModel (·.modifyStruct id ({ · with base := some base }))

def structType (decl : TypeDecl) (supertype : Supertype) (members : List MemberDecl) :
    Declare Unit := do
  let name ← parseName .type decl.name
  let module ← moduleOf decl.space
  let id ← allocate (·.allocType (.struct { concept := decl.info.concept name, module }))
  if ← register (·.addType id) then
    structBase id supertype.base?
    members.forM (member id)

/-! ## Services -/

def parameter (decl : ParameterDecl) (slot : TypeSlot) : Declare Parameter := do
  let name ← parseName .parameter decl.name
  let type ← typeRef decl.type slot
  return { concept := decl.info.concept name, type, direction := decl.direction }

def constraint (decl : ConstraintDecl) (method : MethodRef) : Declare Constraint := do
  let name ← parseName .constraint decl.name
  return {
    concept := { decl.info.concept name with source := some decl.source }
    direction := decl.direction
    source := decl.source
    method }

def methodParameter (method : MethodRef) (decl : ParameterDecl) (index : Nat) : Declare Unit := do
  let parameter ← parameter decl (.methodParameter method index)
  updateModel (·.modifyMethod method (·.addParameter parameter))

/-- Adds a constraint to `method` and queues it for parsing. -/
def methodConstraint (method : MethodRef) (decl : ConstraintDecl) (index : Nat) :
    Declare Unit := do
  let constraint ← constraint decl method
  updateModel (·.modifyMethod method (·.addConstraint constraint))
  modify fun d => { d with constraints := d.constraints ++ [⟨method, index⟩] }

def method (service : ServiceId) (decl : MethodDecl) : Declare Unit := do
  let name ← parseName .method decl.name
  let index := (((← get).model.definedService? service).elim 0 (·.methods.length))
  let position : MethodRef := ⟨service, index⟩
  let method : Method := { concept := decl.info.concept name, service }
  updateModel (·.modifyService service (·.addMethod method))
  decl.parameters.zipIdx.forM fun (p, i) => methodParameter position p i
  decl.constraints.zipIdx.forM fun (c, i) => methodConstraint position c i

def locator (service : ServiceId) (decl : LocatorDecl) : Declare Unit := do
  let name ← parseName .locator decl.name
  let targetName ← parseServiceName decl.service
  let index := (((← get).model.definedService? service).elim 0 (·.locators.length))
  let target ← (Draft.resolveService targetName (.locator service index) :
    StateM Draft ServiceId)
  let parameters ← decl.parameters.zipIdx.mapM fun (p, i) =>
    parameter p (.locatorParameter service index i)
  let locator : Locator := { concept := decl.info.concept name, service := target, parameters }
  updateModel (·.modifyService service (·.addLocator locator))

def serviceBase (id : ServiceId) : Option String → Declare Unit
  | none => pure ()
  | some text => do
    let name ← parseServiceName text
    let base ← (Draft.resolveService name (.base id) : StateM Draft ServiceId)
    updateModel (·.modifyService id ({ · with base := some base }))

/-- Makes `id` the root, and reports the root it replaces. -/
def electRoot (id : ServiceId) : Declare Unit :=
  modify fun d =>
    let nameOf := fun id => ((d.model.service? id).map (·.name)).getD ⟨[]⟩
    let elected := { d with model := d.model.setRoot id }
    match d.model.root with
    | none => elected
    | some previous => elected.report (.rootReplaced (nameOf previous) (nameOf id))

def service (decl : ServiceDecl) : Declare Unit := do
  let name ← parseServiceName decl.name
  let module ← moduleOf decl.space
  let id ← allocate (·.allocService (.defined { concept := decl.info.concept name, module }))
  if ← register (·.addService id) then
    serviceBase id decl.supertype.base?
    decl.methods.forM (method id)
    decl.locators.forM (locator id)
    if decl.isRoot then electRoot id

end Declare

/-! ## Documents -/

/-- A document is named after its file. What stands before the first hyphen orders the
documents and becomes the first word; if it starts with a letter the document is an appendix. -/
def DocumentDecl.document (decl : DocumentDecl) : Document :=
  let stem := ((Path.ofString decl.file).fileStem?.getD decl.file).toList
  match stem.span (· ≠ '-') with
  | (c :: cs, _ :: rest) => {
      name := (Name.ofCase (String.ofList rest)).withFirst (String.ofList (c :: cs))
      source := decl.source
      appendix := Text.isAlphabetic c }
  | _ => { name := Name.ofCase (String.ofList stem), source := decl.source, appendix := false }

/-! ## Declarations -/

def Declaration.declare : Declaration → Declare Unit
  | .type decl =>
    match decl.body with
    | .struct supertype members => Declare.structType decl supertype members
    | .enum constants => Declare.enumType decl constants
  | .service decl => Declare.service decl
  | .document decl => Declare.updateModel (·.addDocument decl.document)

/-- Declares `decl`, with its outcome. -/
def Draft.declare (d : Draft) (decl : Declaration) : Except InvalidName Unit × Draft :=
  decl.declare.run.run d

/-- Declares all of `decls`, up to the first that fails. -/
def Draft.declareAll (d : Draft) (decls : List Declaration) : Except InvalidName Unit × Draft :=
  (decls.forM Declaration.declare : Declare Unit).run.run d

end ApiModel
