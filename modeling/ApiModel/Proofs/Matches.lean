import ApiModel.Proofs.Building
import ApiModel.Proofs.Related

/-!
# Entities and their declarations

An entity matches a declaration if it says what the declaration says, with the
texts of references replaced by the identifiers they lead to. What it means for
an identifier to be what a text asks for depends on the state of the model, so
it is left open: a `Reading` tells it.
-/

namespace ApiModel

/-! ## Names that declarations are checked for -/

/-- The module that the namespace `space` stands for. -/
def spaceName? (space : String) : Option Name :=
  if (Name.ofNamespace space).isEmpty then none else some (Name.ofNamespace space)

/-- The name of a service, as `text` is written where it is declared or referred to. -/
def serviceName (text : String) : Name :=
  Name.ofCase (stripServiceSuffix text)

def MemberDecl.isNamed (decl : MemberDecl) : Bool :=
  !(Name.ofCase decl.name).isEmpty

def ConstantDecl.isNamed (decl : ConstantDecl) : Bool :=
  !(Name.ofConstant decl.name).isEmpty

def ParameterDecl.isNamed (decl : ParameterDecl) : Bool :=
  !(Name.ofCase decl.name).isEmpty

def ConstraintDecl.isNamed (decl : ConstraintDecl) : Bool :=
  !(Name.ofCase decl.name).isEmpty

def MethodDecl.isNamed (decl : MethodDecl) : Bool :=
  !(Name.ofCase decl.name).isEmpty && decl.parameters.all (·.isNamed)
    && decl.constraints.all (·.isNamed)

def LocatorDecl.isNamed (decl : LocatorDecl) : Bool :=
  !(Name.ofCase decl.name).isEmpty && !(serviceName decl.service).isEmpty
    && decl.parameters.all (·.isNamed)

/-- The names of a declared type apart from its own. -/
def TypeBody.isNamed : TypeBody → Bool
  | .struct supertype members =>
    supertype.base?.all (fun text => !(Name.ofCase text).isEmpty) && members.all (·.isNamed)
  | .enum constants => constants.all (·.isNamed)

/-- The names of the service of `decl` apart from its own. -/
def ServiceDecl.bodyNamed (decl : ServiceDecl) : Bool :=
  decl.supertype.base?.all (fun text => !(serviceName text).isEmpty)
    && decl.methods.all (·.isNamed) && decl.locators.all (·.isNamed)

/-! ## What declarations refer to -/

def MemberDecl.request (decl : MemberDecl) : Request :=
  .type decl.type.target

def ParameterDecl.request (decl : ParameterDecl) : Request :=
  .type decl.type.target

def MethodDecl.requests (decl : MethodDecl) : Set Request :=
  {r | ∃ p ∈ decl.parameters, r = p.request}

def LocatorDecl.requests (decl : LocatorDecl) : Set Request :=
  {r | r = .service (serviceName decl.service) ∨ ∃ p ∈ decl.parameters, r = p.request}

/-- What a struct refers to, with the given `base` and `members`. -/
def structRequests (base : Option String) (members : List MemberDecl) : Set Request :=
  {r | (∃ text ∈ base, r = .type ⟨Name.ofCase text, false⟩) ∨ ∃ x ∈ members, r = x.request}

def TypeDecl.requests (decl : TypeDecl) : Set Request :=
  match decl.body with
  | .struct supertype members => structRequests supertype.base? members
  | .enum _ => ∅

def ServiceDecl.requests (decl : ServiceDecl) : Set Request :=
  {r | (∃ text ∈ decl.supertype.base?, r = .service (serviceName text)) ∨
    (∃ x ∈ decl.methods, r ∈ x.requests) ∨ ∃ x ∈ decl.locators, r ∈ x.requests}

/-! ## Matching -/

/-- What references lead to, and what is known of constraints. -/
structure Reading where
  type : TypeId → Target → Prop
  service : ServiceId → Name → Prop
  module : ModuleId → Name → Prop
  expression : Option Expr → Prop

/-- The reading `r'` holds wherever `r` does. -/
structure Reading.Le (r r' : Reading) : Prop where
  type : ∀ {id t}, r.type id t → r'.type id t
  service : ∀ {id n}, r.service id n → r'.service id n
  module : ∀ {id n}, r.module id n → r'.module id n
  expression : ∀ {x}, r.expression x → r'.expression x

theorem Reading.Le.trans {r r' r'' : Reading} (h : r.Le r') (h' : r'.Le r'') : r.Le r'' :=
  ⟨fun ht => h'.type (h.type ht), fun hs => h'.service (h.service hs),
    fun hk => h'.module (h.module hk), fun hx => h'.expression (h.expression hx)⟩

/-- References in `m` while declarations are made; no constraint has been parsed by then. -/
def Model.reading (m : Model) : Reading where
  type id t := m.Refers t id
  service id n := m.ServiceNamed n id
  module id n := m.moduleName? id = some n
  expression x := x = none

theorem Model.Grows.reading {own : Set Entity} {m m' : Model} (h : Grows own m m') :
    m.reading.Le m'.reading :=
  ⟨h.refers, h.serviceNamed, h.moduleName, id⟩

section Matches

variable (r : Reading)

structure Member.Matches (owner : TypeId) (x : Member) (decl : MemberDecl) : Prop where
  concept : x.concept = decl.info.concept (Name.ofCase decl.name)
  kind : x.kind = decl.kind
  type : r.type x.type decl.type.target
  owner : x.owner = owner

structure EnumValue.Matches (owner : TypeId) (x : EnumValue) (decl : ConstantDecl) : Prop where
  concept : x.concept = decl.info.concept (Name.ofConstant decl.name)
  owner : x.owner = owner

structure Parameter.Matches (x : Parameter) (decl : ParameterDecl) : Prop where
  concept : x.concept = decl.info.concept (Name.ofCase decl.name)
  type : r.type x.type decl.type.target
  direction : x.direction = decl.direction

/-- The source of a constraint is kept twice. -/
structure Constraint.Matches (position : MethodRef) (x : Constraint) (decl : ConstraintDecl) :
    Prop where
  concept : x.concept =
    { decl.info.concept (Name.ofCase decl.name) with source := some decl.source }
  direction : x.direction = decl.direction
  source : x.source = decl.source
  method : x.method = position
  expression : r.expression x.expression

structure Method.Matches (position : MethodRef) (x : Method) (decl : MethodDecl) : Prop where
  concept : x.concept = decl.info.concept (Name.ofCase decl.name)
  service : x.service = position.service
  parameters : List.Forall₂ (Parameter.Matches r) x.parameters decl.parameters
  constraints : List.Forall₂ (Constraint.Matches r position) x.constraints decl.constraints

structure Locator.Matches (x : Locator) (decl : LocatorDecl) : Prop where
  concept : x.concept = decl.info.concept (Name.ofCase decl.name)
  service : r.service x.service (serviceName decl.service)
  parameters : List.Forall₂ (Parameter.Matches r) x.parameters decl.parameters

/-- The struct `s` is that of `decl`, with the given `base` and `members`. -/
structure StructType.Matches (id : TypeId) (s : StructType) (decl : TypeDecl)
    (base : Option String) (members : List MemberDecl) : Prop where
  concept : s.concept = decl.info.concept (Name.ofCase decl.name)
  module : Option.Rel r.module s.module (spaceName? decl.space)
  base : Option.Rel (fun b text => r.type b ⟨Name.ofCase text, false⟩) s.base base
  attributes : List.Forall₂ (Member.Matches r id) s.attributes
    (members.filter (·.kind = .attribute))
  links : List.Forall₂ (Member.Matches r id) s.links (members.filter (·.kind = .link))

structure EnumType.Matches (id : TypeId) (e : EnumType) (decl : TypeDecl)
    (constants : List ConstantDecl) : Prop where
  concept : e.concept = decl.info.concept (Name.ofCase decl.name)
  module : Option.Rel r.module e.module (spaceName? decl.space)
  values : List.Forall₂ (EnumValue.Matches id) e.values constants

/-- The service `s` is that of `decl`, with the given `base`, `methods` and `locators`. -/
structure DefinedService.Matches (id : ServiceId) (s : DefinedService) (decl : ServiceDecl)
    (base : Option String) (methods : List MethodDecl) (locators : List LocatorDecl) : Prop where
  concept : s.concept = decl.info.concept (serviceName decl.name)
  module : Option.Rel r.module s.module (spaceName? decl.space)
  base : Option.Rel (fun b text => r.service b (serviceName text)) s.base base
  methods : List.Forall₂ (fun (x : Method × Nat) decl => x.1.Matches r ⟨id, x.2⟩ decl)
    s.methods.zipIdx methods
  locators : List.Forall₂ (Locator.Matches r) s.locators locators

/-! Where a declaration stops, an entity matches it as far as it goes. -/

def StructType.MatchesPart (id : TypeId) (s : StructType) (decl : TypeDecl)
    (base : Option String) (members : List MemberDecl) : Prop :=
  ∃ base' members', (base' = base ∨ base' = none) ∧ members' <+: members ∧
    s.Matches r id decl base' members'

/-- `part` is the method declaration `decl` up to some parameter or constraint. -/
structure MethodDecl.IsPart (part decl : MethodDecl) : Prop where
  name : part.name = decl.name
  info : part.info = decl.info
  parameters : part.parameters <+: decl.parameters
  constraints : part.constraints <+: decl.constraints

def DefinedService.MatchesPart (id : ServiceId) (s : DefinedService) (decl : ServiceDecl)
    (base : Option String) (methods : List MethodDecl) (locators : List LocatorDecl) : Prop :=
  ∃ base' methods' whole locators', (base' = base ∨ base' = none) ∧
    List.Forall₂ MethodDecl.IsPart methods' whole ∧ whole <+: methods ∧
    locators' <+: locators ∧ s.Matches r id decl base' methods' locators'

/-! What a declaration has led to, and whether it has been carried out completely. -/

def DataType.Records (id : TypeId) (decl : TypeDecl) (complete : Bool) (x : DataType) : Prop :=
  match decl.body with
  | .struct supertype members => ∃ s, x = .struct s ∧
    s.MatchesPart r id decl supertype.base? members ∧
    (complete = true → s.Matches r id decl supertype.base? members)
  | .enum constants => ∃ e, x = .enum e ∧ e.Matches r id decl constants

structure DefinedService.Records (id : ServiceId) (decl : ServiceDecl) (complete : Bool)
    (s : DefinedService) : Prop where
  part : s.MatchesPart r id decl decl.supertype.base? decl.methods decl.locators
  whole : complete = true →
    s.Matches r id decl decl.supertype.base? decl.methods decl.locators

end Matches

theorem StructType.Matches.part {r : Reading} {id : TypeId} {s : StructType} {decl : TypeDecl}
    {base : Option String} {members : List MemberDecl} (h : s.Matches r id decl base members) :
    s.MatchesPart r id decl base members :=
  ⟨base, members, .inl rfl, List.prefix_rfl, h⟩

theorem MethodDecl.IsPart.refl (decl : MethodDecl) : decl.IsPart decl :=
  ⟨rfl, rfl, List.prefix_rfl, List.prefix_rfl⟩

theorem DefinedService.Matches.part {r : Reading} {id : ServiceId} {s : DefinedService}
    {decl : ServiceDecl} {base : Option String} {methods : List MethodDecl}
    {locators : List LocatorDecl} (h : s.Matches r id decl base methods locators) :
    s.MatchesPart r id decl base methods locators :=
  ⟨base, methods, methods, locators, .inl rfl, List.forall₂_same.mpr fun x _ => .refl x,
    List.prefix_rfl, List.prefix_rfl, h⟩

/-! ## Matching by another reading -/

section Mono

variable {r r' : Reading} (h : r.Le r')

include h

theorem Member.Matches.mono {owner : TypeId} {x : Member} {decl : MemberDecl}
    (hx : x.Matches r owner decl) : x.Matches r' owner decl :=
  { hx with type := h.type hx.type }

theorem Parameter.Matches.mono {x : Parameter} {decl : ParameterDecl} (hx : x.Matches r decl) :
    x.Matches r' decl :=
  { hx with type := h.type hx.type }

theorem Constraint.Matches.mono {position : MethodRef} {x : Constraint} {decl : ConstraintDecl}
    (hx : x.Matches r position decl) : x.Matches r' position decl :=
  { hx with expression := h.expression hx.expression }

theorem Method.Matches.mono {position : MethodRef} {x : Method} {decl : MethodDecl}
    (hx : x.Matches r position decl) : x.Matches r' position decl :=
  { hx with
    parameters := hx.parameters.imp fun _ _ => Parameter.Matches.mono h
    constraints := hx.constraints.imp fun _ _ => Constraint.Matches.mono h }

theorem Locator.Matches.mono {x : Locator} {decl : LocatorDecl} (hx : x.Matches r decl) :
    x.Matches r' decl :=
  { hx with
    service := h.service hx.service
    parameters := hx.parameters.imp fun _ _ => Parameter.Matches.mono h }

theorem StructType.Matches.mono {id : TypeId} {s : StructType} {decl : TypeDecl}
    {base : Option String} {members : List MemberDecl} (hs : s.Matches r id decl base members) :
    s.Matches r' id decl base members :=
  { hs with
    module := optionRel_imp h.module hs.module
    base := optionRel_imp h.type hs.base
    attributes := hs.attributes.imp fun _ _ => Member.Matches.mono h
    links := hs.links.imp fun _ _ => Member.Matches.mono h }

theorem EnumType.Matches.mono {id : TypeId} {e : EnumType} {decl : TypeDecl}
    {constants : List ConstantDecl} (he : e.Matches r id decl constants) :
    e.Matches r' id decl constants :=
  { he with module := optionRel_imp h.module he.module }

theorem DefinedService.Matches.mono {id : ServiceId} {s : DefinedService} {decl : ServiceDecl}
    {base : Option String} {methods : List MethodDecl} {locators : List LocatorDecl}
    (hs : s.Matches r id decl base methods locators) :
    s.Matches r' id decl base methods locators :=
  { hs with
    module := optionRel_imp h.module hs.module
    base := optionRel_imp h.service hs.base
    methods := hs.methods.imp fun _ _ => Method.Matches.mono h
    locators := hs.locators.imp fun _ _ => Locator.Matches.mono h }

theorem StructType.MatchesPart.mono {id : TypeId} {s : StructType} {decl : TypeDecl}
    {base : Option String} {members : List MemberDecl}
    (hs : s.MatchesPart r id decl base members) : s.MatchesPart r' id decl base members := by
  obtain ⟨base', members', hb, hm, hs⟩ := hs
  exact ⟨base', members', hb, hm, hs.mono h⟩

theorem DefinedService.MatchesPart.mono {id : ServiceId} {s : DefinedService} {decl : ServiceDecl}
    {base : Option String} {methods : List MethodDecl} {locators : List LocatorDecl}
    (hs : s.MatchesPart r id decl base methods locators) :
    s.MatchesPart r' id decl base methods locators := by
  obtain ⟨base', methods', whole, locators', hb, hp, hm, hl, hs⟩ := hs
  exact ⟨base', methods', whole, locators', hb, hp, hm, hl, hs.mono h⟩

theorem DataType.Records.mono {id : TypeId} {decl : TypeDecl} {complete : Bool} {x : DataType}
    (hx : x.Records r id decl complete) : x.Records r' id decl complete := by
  unfold DataType.Records at hx ⊢
  split at hx
  · obtain ⟨s, rfl, hp, hw⟩ := hx
    exact ⟨s, rfl, hp.mono h, fun hc => (hw hc).mono h⟩
  · obtain ⟨e, rfl, he⟩ := hx
    exact ⟨e, rfl, he.mono h⟩

theorem DefinedService.Records.mono {id : ServiceId} {decl : ServiceDecl} {complete : Bool}
    {s : DefinedService} (hs : s.Records r id decl complete) : s.Records r' id decl complete :=
  ⟨hs.part.mono h, fun hc => (hs.whole hc).mono h⟩

end Mono

end ApiModel
