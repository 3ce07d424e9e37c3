import ApiModel.Proofs.Twins

/-!
# Renumbering

Entities refer to each other, to their modules and to their owners by numbers.
A renumbering replaces these numbers and nothing else. If it takes what each
reference leads to in one model to what it leads to in the other, then entities
that match the same declaration in the two models are equal up to it.

Between two models there is a canonical renumbering: it looks up in the second
model what has the same name as in the first.
-/

namespace ApiModel

/-- New numbers for the entities of a `Model`. -/
structure Renumbering where
  type : TypeId → TypeId
  service : ServiceId → ServiceId
  module : ModuleId → ModuleId

/-! ## Renumbered entities -/

section Renumber

variable (ρ : Renumbering)

def Member.renumber (x : Member) : Member :=
  { x with type := ρ.type x.type, owner := ρ.type x.owner }

def StructType.renumber (s : StructType) : StructType :=
  { s with
    module := s.module.map ρ.module
    base := s.base.map ρ.type
    attributes := s.attributes.map (·.renumber ρ)
    links := s.links.map (·.renumber ρ) }

def EnumValue.renumber (x : EnumValue) : EnumValue :=
  { x with owner := ρ.type x.owner }

def EnumType.renumber (e : EnumType) : EnumType :=
  { e with
    module := e.module.map ρ.module
    values := e.values.map (·.renumber ρ) }

def DataType.renumber : DataType → DataType
  | .struct s => .struct (s.renumber ρ)
  | .enum e => .enum (e.renumber ρ)
  | .list n e => .list n (ρ.type e)
  | t => t

def Parameter.renumber (p : Parameter) : Parameter :=
  { p with type := ρ.type p.type }

def MethodRef.renumber (r : MethodRef) : MethodRef :=
  { r with service := ρ.service r.service }

def Constraint.renumber (c : Constraint) : Constraint :=
  { c with method := c.method.renumber ρ }

def Method.renumber (x : Method) : Method :=
  { x with
    service := ρ.service x.service
    parameters := x.parameters.map (·.renumber ρ)
    constraints := x.constraints.map (·.renumber ρ) }

def Locator.renumber (l : Locator) : Locator :=
  { l with
    service := ρ.service l.service
    parameters := l.parameters.map (·.renumber ρ) }

def DefinedService.renumber (s : DefinedService) : DefinedService :=
  { s with
    module := s.module.map ρ.module
    base := s.base.map ρ.service
    methods := s.methods.map (·.renumber ρ)
    locators := s.locators.map (·.renumber ρ) }

def Service.renumber : Service → Service
  | .defined s => .defined (s.renumber ρ)
  | .undefined n => .undefined n

end Renumber

/-! ## Entities that match the same declaration -/

/-- The renumbering `ρ` takes what the reading `r` allows to what `r'` allows. -/
structure Renumbering.Carries (ρ : Renumbering) (r r' : Reading) : Prop where
  type : ∀ {id id' t}, r.type id t → r'.type id' t → id' = ρ.type id
  service : ∀ {id id' n}, r.service id n → r'.service id' n → id' = ρ.service id
  module : ∀ {id id' n}, r.module id n → r'.module id' n → id' = ρ.module id
  expression : ∀ {x x'}, r.expression x → r'.expression x' → x' = x

section Matches

variable {ρ : Renumbering} {r r' : Reading} (h : ρ.Carries r r')

include h

theorem Member.Matches.eq_renumber {owner : TypeId} {x x' : Member} {decl : MemberDecl}
    (hx : x.Matches r owner decl) (hx' : x'.Matches r' (ρ.type owner) decl) :
    x' = x.renumber ρ := by
  have htype := h.type hx.type hx'.type
  obtain ⟨hconcept, hkind, -, howner⟩ := hx
  obtain ⟨hconcept', hkind', -, howner'⟩ := hx'
  cases x'
  simp_all [Member.renumber]

omit h in
theorem EnumValue.Matches.eq_renumber {owner : TypeId} {x x' : EnumValue} {decl : ConstantDecl}
    (hx : x.Matches owner decl) (hx' : x'.Matches (ρ.type owner) decl) : x' = x.renumber ρ := by
  obtain ⟨hconcept, howner⟩ := hx
  obtain ⟨hconcept', howner'⟩ := hx'
  cases x'
  simp_all [EnumValue.renumber]

theorem Parameter.Matches.eq_renumber {x x' : Parameter} {decl : ParameterDecl}
    (hx : x.Matches r decl) (hx' : x'.Matches r' decl) : x' = x.renumber ρ := by
  have htype := h.type hx.type hx'.type
  obtain ⟨hconcept, -, hdirection⟩ := hx
  obtain ⟨hconcept', -, hdirection'⟩ := hx'
  cases x'
  simp_all [Parameter.renumber]

theorem Constraint.Matches.eq_renumber {position : MethodRef} {x x' : Constraint}
    {decl : ConstraintDecl} (hx : x.Matches r position decl)
    (hx' : x'.Matches r' (position.renumber ρ) decl) : x' = x.renumber ρ := by
  have hexpression := h.expression hx.expression hx'.expression
  obtain ⟨hconcept, hdirection, hsource, hmethod, -⟩ := hx
  obtain ⟨hconcept', hdirection', hsource', hmethod', -⟩ := hx'
  cases x'
  simp_all [Constraint.renumber]

theorem Method.Matches.eq_renumber {position : MethodRef} {x x' : Method} {decl : MethodDecl}
    (hx : x.Matches r position decl) (hx' : x'.Matches r' (position.renumber ρ) decl) :
    x' = x.renumber ρ := by
  have hparameters := eq_map_of_forall₂ (forall₂_join hx.parameters hx'.parameters
    fun _ _ _ => Parameter.Matches.eq_renumber h)
  have hconstraints := eq_map_of_forall₂ (forall₂_join hx.constraints hx'.constraints
    fun _ _ _ => Constraint.Matches.eq_renumber h)
  obtain ⟨hconcept, hservice, -, -⟩ := hx
  obtain ⟨hconcept', hservice', -, -⟩ := hx'
  cases x'
  simp_all [Method.renumber, MethodRef.renumber]

theorem Locator.Matches.eq_renumber {x x' : Locator} {decl : LocatorDecl} (hx : x.Matches r decl)
    (hx' : x'.Matches r' decl) : x' = x.renumber ρ := by
  have hservice := h.service hx.service hx'.service
  have hparameters := eq_map_of_forall₂ (forall₂_join hx.parameters hx'.parameters
    fun _ _ _ => Parameter.Matches.eq_renumber h)
  have hconcept := hx'.concept.trans hx.concept.symm
  cases x'
  simp_all [Locator.renumber]

theorem StructType.Matches.eq_renumber {id : TypeId} {s s' : StructType} {decl : TypeDecl}
    {base : Option String} {members : List MemberDecl} (hs : s.Matches r id decl base members)
    (hs' : s'.Matches r' (ρ.type id) decl base members) : s' = s.renumber ρ := by
  have hmodule := eq_map_of_optionRel (optionRel_join hs.module hs'.module fun _ _ _ => h.module)
  have hbase := eq_map_of_optionRel (optionRel_join hs.base hs'.base fun _ _ _ => h.type)
  have hattributes := eq_map_of_forall₂ (forall₂_join hs.attributes hs'.attributes
    fun _ _ _ => Member.Matches.eq_renumber h)
  have hlinks := eq_map_of_forall₂ (forall₂_join hs.links hs'.links
    fun _ _ _ => Member.Matches.eq_renumber h)
  have hconcept := hs'.concept.trans hs.concept.symm
  cases s'
  simp_all [StructType.renumber]

theorem EnumType.Matches.eq_renumber {id : TypeId} {e e' : EnumType} {decl : TypeDecl}
    {constants : List ConstantDecl} (he : e.Matches r id decl constants)
    (he' : e'.Matches r' (ρ.type id) decl constants) : e' = e.renumber ρ := by
  have hmodule := eq_map_of_optionRel (optionRel_join he.module he'.module fun _ _ _ => h.module)
  have hvalues := eq_map_of_forall₂ (forall₂_join he.values he'.values
    fun _ _ _ hv hv' => hv.eq_renumber hv')
  have hconcept := he'.concept.trans he.concept.symm
  cases e'
  simp_all [EnumType.renumber]

theorem DefinedService.Matches.eq_renumber {id : ServiceId} {s s' : DefinedService}
    {decl : ServiceDecl} {base : Option String} {methods : List MethodDecl}
    {locators : List LocatorDecl} (hs : s.Matches r id decl base methods locators)
    (hs' : s'.Matches r' (ρ.service id) decl base methods locators) : s' = s.renumber ρ := by
  have hmodule := eq_map_of_optionRel (optionRel_join hs.module hs'.module fun _ _ _ => h.module)
  have hbase := eq_map_of_optionRel (optionRel_join hs.base hs'.base fun _ _ _ => h.service)
  have hmethods := eq_map_of_forall₂ (forall₂_join_zipIdx hs.methods hs'.methods
    fun _ _ _ _ => Method.Matches.eq_renumber h)
  have hlocators := eq_map_of_forall₂ (forall₂_join hs.locators hs'.locators
    fun _ _ _ => Locator.Matches.eq_renumber h)
  have hconcept := hs'.concept.trans hs.concept.symm
  cases s'
  simp_all [DefinedService.renumber]

end Matches

/-! ## The renumbering between two models -/

namespace Model

/-- Each entity of `m` gets the number that what goes by its name has in `m'`. -/
def renumbering (m m' : Model) : Renumbering where
  type id :=
    match m.type? id with
    | some (.list n _) => (m'.findList? n).getD id
    | some t => ((m'.findType? t.name).or m'.undefinedTypes[t.name]?).getD id
    | none => id
  service id :=
    match m.service? id with
    | some s => ((m'.findService? s.name).or m'.undefinedServices[s.name]?).getD id
    | none => id
  module id := ((m.moduleName? id).bind m'.findModule?).getD id

variable {m m' : Model} {n : Name}

theorem Resolves.lookup {id : TypeId} (h : m.Resolves n id) :
    (m.findType? n).or m.undefinedTypes[n]? = some id := by
  unfold Resolves at h
  split at h
  · rename_i hn
    rw [hn, h, Option.some_or]
  · rename_i hn
    rw [hn, Option.none_or, h.1]

theorem ResolvesService.lookup {id : ServiceId} (h : m.ResolvesService n id) :
    (m.findService? n).or m.undefinedServices[n]? = some id := by
  unfold ResolvesService at h
  split at h
  · rename_i hn
    rw [hn, h, Option.some_or]
  · rename_i hn
    rw [hn, Option.none_or, h.1]

/-- What a reference leads to in `m` is renumbered to what it leads to in `m'`. -/
theorem carries_renumbering (hi : m.Indexed) (hh : m'.Housed) :
    (m.renumbering m').Carries m.unparsed m'.unparsed where
  type {id id' t} h h' := by
    obtain ⟨n, _ | _⟩ := t
    · replace h : m.Resolves n id := h
      replace h' : m'.Resolves n id' := h'
      obtain ⟨t, ht, rfl, hlist⟩ := hi.name_of_typeNamed h.typeNamed
      simp only [renumbering, ht, h'.lookup, Option.getD_some]
    · obtain ⟨-, e, he, -⟩ := h
      simp only [renumbering, he, show m'.findList? n = some id' from h'.1, Option.getD_some]
  service {id id' n} h h' := by
    replace h : m.ResolvesService n id := h
    replace h' : m'.ResolvesService n id' := h'
    obtain ⟨s, hs, rfl⟩ := hi.name_of_serviceNamed h.serviceNamed
    simp only [renumbering, hs, h'.lookup, Option.getD_some]
  module {id id' n} h h' := by
    simp only [renumbering, show m.moduleName? id = some n from h, Option.bind_some,
      hh.named (show m'.moduleName? id' = some n from h'), Option.getD_some]
  expression h h' := h'.trans h.symm

end Model

end ApiModel
