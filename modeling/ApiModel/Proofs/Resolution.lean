import ApiModel.Proofs.History
import ApiModel.Proofs.Settling
import ApiModel.Analysis

/-!
# References lead where they should

While declarations are made a reference may lead to an undefined entity although
its name is registered later on. Settling replaces exactly these, and parsing
constraints leaves references alone. So in a finished model every reference of
a registered entity leads to what is registered under the name it was written
with, or else to the one undefined entity that stands for this name.
-/

namespace ApiModel

/-! ## Matching after a substitution -/

/-- The substitution by `f` and `g` takes what the reading `r` allows to what `r'` allows. -/
structure Reading.Maps (r r' : Reading) (f : TypeId → TypeId) (g : ServiceId → ServiceId) :
    Prop where
  type : ∀ {id t}, r.type id t → r'.type (f id) t
  service : ∀ {id n}, r.service id n → r'.service (g id) n
  module : ∀ {id n}, r.module id n → r'.module id n
  expression : ∀ {x}, r.expression x → r'.expression x

section MapRefs

variable {r r' : Reading} {f : TypeId → TypeId} {g : ServiceId → ServiceId} (h : r.Maps r' f g)

include h

theorem Member.Matches.mapRefs {owner : TypeId} {x : Member} {decl : MemberDecl}
    (hx : x.Matches r owner decl) : (x.mapRefs f).Matches r' owner decl :=
  ⟨hx.concept, hx.kind, h.type hx.type, hx.owner⟩

theorem Parameter.Matches.mapRefs {x : Parameter} {decl : ParameterDecl} (hx : x.Matches r decl) :
    (x.mapRefs f).Matches r' decl :=
  ⟨hx.concept, h.type hx.type, hx.direction⟩

theorem Method.Matches.mapRefs {position : MethodRef} {x : Method} {decl : MethodDecl}
    (hx : x.Matches r position decl) : (x.mapRefs f).Matches r' position decl where
  concept := hx.concept
  service := hx.service
  parameters := forall₂_map (fun _ _ hp => hp.mapRefs h) hx.parameters
  constraints := hx.constraints.imp fun _ _ hc =>
    { hc with expression := h.expression hc.expression }

theorem Locator.Matches.mapRefs {x : Locator} {decl : LocatorDecl} (hx : x.Matches r decl) :
    (x.mapRefs f g).Matches r' decl :=
  ⟨hx.concept, h.service hx.service, forall₂_map (fun _ _ hp => hp.mapRefs h) hx.parameters⟩

theorem StructType.Matches.mapRefs {id : TypeId} {s : StructType} {decl : TypeDecl}
    {base : Option String} {members : List MemberDecl} (hs : s.Matches r id decl base members) :
    (s.mapRefs f).Matches r' id decl base members where
  concept := hs.concept
  module := optionRel_imp h.module hs.module
  base := optionRel_map hs.base fun _ _ hb => h.type hb
  attributes := forall₂_map (fun _ _ hx => hx.mapRefs h) hs.attributes
  links := forall₂_map (fun _ _ hx => hx.mapRefs h) hs.links

theorem EnumType.Matches.mapRefs {id : TypeId} {e : EnumType} {decl : TypeDecl}
    {constants : List ConstantDecl} (he : e.Matches r id decl constants) :
    e.Matches r' id decl constants :=
  { he with module := optionRel_imp h.module he.module }

theorem DefinedService.Matches.mapRefs {id : ServiceId} {s : DefinedService} {decl : ServiceDecl}
    {base : Option String} {methods : List MethodDecl} {locators : List LocatorDecl}
    (hs : s.Matches r id decl base methods locators) :
    (s.mapRefs f g).Matches r' id decl base methods locators where
  concept := hs.concept
  module := optionRel_imp h.module hs.module
  base := optionRel_map hs.base fun _ _ hb => h.service hb
  methods := by
    rw [DefinedService.mapRefs, List.zipIdx_map]
    exact forall₂_map (fun _ _ hx => hx.mapRefs h) hs.methods
  locators := forall₂_map (fun _ _ hl => hl.mapRefs h) hs.locators

theorem DataType.Records.mapRefs {id : TypeId} {decl : TypeDecl} {complete : Bool} {x : DataType}
    (hx : x.Records r id decl complete) : (x.mapRefs f).Records r' id decl complete := by
  unfold DataType.Records at hx ⊢
  split at hx
  · obtain ⟨s, rfl, ⟨base, members, hb, hm, hpart⟩, hwhole⟩ := hx
    exact ⟨s.mapRefs f, rfl, ⟨base, members, hb, hm, hpart.mapRefs h⟩,
      fun hc => (hwhole hc).mapRefs h⟩
  · obtain ⟨e, rfl, he⟩ := hx
    exact ⟨e, rfl, he.mapRefs h⟩

theorem DefinedService.Records.mapRefs {id : ServiceId} {decl : ServiceDecl} {complete : Bool}
    {s : DefinedService} (hs : s.Records r id decl complete) :
    (s.mapRefs f g).Records r' id decl complete := by
  obtain ⟨⟨base, methods, whole, locators, hb, hm, hw, hl, hpart⟩, hwhole⟩ := hs
  exact ⟨⟨base, methods, whole, locators, hb, hm, hw, hl, hpart.mapRefs h⟩,
    fun hc => (hwhole hc).mapRefs h⟩

end MapRefs

/-! ## What references lead to in the end -/

namespace Model

/-- `id` is the type registered as `n`, or the undefined type `n` if nothing is. -/
def Resolves (m : Model) (n : Name) (id : TypeId) : Prop :=
  match m.findType? n with
  | some registered => id = registered
  | none => m.undefinedTypes[n]? = some id ∧ m.type? id = some (.undefined n)

/-- `id` is what the reference asks for: the type itself, or the one list of such types. -/
def ResolvesTarget (m : Model) : Target → TypeId → Prop
  | ⟨n, false⟩, id => m.Resolves n id
  | ⟨n, true⟩, id =>
    m.findList? n = some id ∧ ∃ e, m.type? id = some (.list n e) ∧ m.Resolves n e

def ResolvesService (m : Model) (n : Name) (id : ServiceId) : Prop :=
  match m.findService? n with
  | some registered => id = registered
  | none => m.undefinedServices[n]? = some id ∧ m.service? id = some (.undefined n)

/-- References in the finished model `m`. -/
def resolution (m : Model) : Reading where
  type id t := m.ResolvesTarget t id
  service id n := m.ResolvesService n id
  module id n := m.moduleName? id = some n
  expression _ := True

/-- References in the model `m` that is settled, with no constraint parsed yet. -/
def unparsed (m : Model) : Reading :=
  { m.resolution with expression := (· = none) }

theorem unparsed_le_resolution (m : Model) : m.unparsed.Le m.resolution :=
  ⟨id, id, id, fun _ => trivial⟩

/-- The model `m` with every reference settled, by `settledType` and `settledService`. -/
def settled (m : Model) : Model :=
  m.mapRefs m.settledType m.settledService

variable {m : Model}

theorem type?_settled (m : Model) (id : TypeId) :
    m.settled.type? id = (m.type? id).map (·.mapRefs m.settledType) :=
  type?_mapRefs id

theorem service?_settled (m : Model) (id : ServiceId) : m.settled.service? id =
    (m.service? id).map (·.mapDefined (·.mapRefs m.settledType m.settledService)) :=
  service?_mapRefs id

theorem settledType_of_registered (hi : m.Indexed) {n : Name} {id : TypeId}
    (h : m.findType? n = some id) : m.settledType id = id := by
  rw [settledType]
  split
  · rename_i x hx
    exact absurd hx (hi.type?_ne_undefined h x)
  · rfl

theorem settledService_of_registered (hi : m.Indexed) {n : Name} {id : ServiceId}
    (h : m.findService? n = some id) : m.settledService id = id := by
  rw [settledService]
  split
  · rename_i x hx
    exact absurd hx (hi.service?_ne_undefined h x)
  · rfl

theorem resolves_settledType (hi : m.Indexed) {n : Name} {id : TypeId} (h : m.TypeNamed n id) :
    m.settled.Resolves n (m.settledType id) := by
  rw [Resolves, show m.settled.findType? n = m.findType? n from rfl]
  rcases h with h | h
  · rw [h]
    exact settledType_of_registered hi h
  · have hs : m.settledType id = (m.findType? n).getD id := by rw [settledType, h]
    rw [hs]
    rcases m.findType? n with _ | other
    · exact ⟨hi.undefinedType.mpr h, by rw [type?_settled, Option.getD_none, h]; rfl⟩
    · rfl

theorem resolvesService_settledService (hi : m.Indexed) {n : Name} {id : ServiceId}
    (h : m.ServiceNamed n id) : m.settled.ResolvesService n (m.settledService id) := by
  rw [ResolvesService, show m.settled.findService? n = m.findService? n from rfl]
  rcases h with h | h
  · rw [h]
    exact settledService_of_registered hi h
  · have hs : m.settledService id = (m.findService? n).getD id := by rw [settledService, h]
    rw [hs]
    rcases m.findService? n with _ | other
    · exact ⟨hi.undefinedService.mpr h,
        by rw [service?_settled, Option.getD_none, h]; rfl⟩
    · rfl

/-- Settling, that is `settledType`, takes every reference to what it asks for. -/
theorem reading_maps_unparsed (hi : m.Indexed) :
    m.reading.Maps m.settled.unparsed m.settledType m.settledService where
  type {id t} h := by
    obtain ⟨n, _ | _⟩ := t
    · exact resolves_settledType hi h
    · obtain ⟨e, he⟩ := h
      have hs : m.settledType id = id := by rw [settledType, he]
      rw [hs]
      refine ⟨hi.list.mpr ⟨e, he⟩, m.settledType e, ?_, resolves_settledType hi (hi.listElement he)⟩
      rw [type?_settled, he]
      rfl
  service h := resolvesService_settledService hi h
  module h := h
  expression h := h

end Model

/-! ## Parsing constraints -/

/-- The constraint `c'` is `c`, apart from the `expression`. -/
def Constraint.Reparsed (c c' : Constraint) : Prop :=
  c' = { c with expression := c'.expression }

def Method.Reparsed (x x' : Method) : Prop :=
  x' = { x with constraints := x'.constraints } ∧
    List.Forall₂ Constraint.Reparsed x.constraints x'.constraints

def DefinedService.Reparsed (s s' : DefinedService) : Prop :=
  s' = { s with methods := s'.methods } ∧ List.Forall₂ Method.Reparsed s.methods s'.methods

/-- The model `m'` is `m`, apart from the expressions of constraints. -/
structure Model.Reparsed (m m' : Model) : Prop where
  rest : m' = { m with services := m'.services }
  size : m'.services.size = m.services.size
  undefined : ∀ {id n}, m'.service? id = some (.undefined n) ↔ m.service? id = some (.undefined n)
  defined : ∀ {id s'}, m'.service? id = some (.defined s') →
    ∃ s, m.service? id = some (.defined s) ∧ s.Reparsed s'

theorem Constraint.Reparsed.refl (c : Constraint) : c.Reparsed c := rfl

theorem Constraint.Reparsed.trans {c c' c'' : Constraint} (h : c.Reparsed c')
    (h' : c'.Reparsed c'') : c.Reparsed c'' := by
  rw [Constraint.Reparsed] at *
  rw [h', h]

theorem Method.Reparsed.refl (x : Method) : x.Reparsed x :=
  ⟨rfl, List.forall₂_same.mpr fun c _ => .refl c⟩

theorem Method.Reparsed.trans {x x' x'' : Method} (h : x.Reparsed x') (h' : x'.Reparsed x'') :
    x.Reparsed x'' := by
  refine ⟨?_, forall₂_join h.2 h'.2.flip fun _ _ _ => .trans⟩
  rw [h'.1, h.1]

theorem DefinedService.Reparsed.refl (s : DefinedService) : s.Reparsed s :=
  ⟨rfl, List.forall₂_same.mpr fun x _ => .refl x⟩

theorem DefinedService.Reparsed.trans {s s' s'' : DefinedService} (h : s.Reparsed s')
    (h' : s'.Reparsed s'') : s.Reparsed s'' := by
  refine ⟨?_, forall₂_join h.2 h'.2.flip fun _ _ _ => .trans⟩
  rw [h'.1, h.1]

namespace Model.Reparsed

variable {m m' m'' : Model}

theorem refl (m : Model) : m.Reparsed m :=
  ⟨rfl, rfl, .rfl, fun h => ⟨_, h, .refl _⟩⟩

theorem trans (h : m.Reparsed m') (h' : m'.Reparsed m'') : m.Reparsed m'' where
  rest := by rw [h'.rest, h.rest]
  size := h'.size.trans h.size
  undefined := h'.undefined.trans h.undefined
  defined hs := by
    obtain ⟨s', hs', hr'⟩ := h'.defined hs
    obtain ⟨s, hs, hr⟩ := h.defined hs'
    exact ⟨s, hs, hr.trans hr'⟩

theorem type? (h : m.Reparsed m') (id : TypeId) : m'.type? id = m.type? id := by
  rw [h.rest]
  rfl

theorem findType? (h : m.Reparsed m') (n : Name) : m'.findType? n = m.findType? n := by
  rw [h.rest]
  rfl

theorem findService? (h : m.Reparsed m') (n : Name) : m'.findService? n = m.findService? n := by
  rw [h.rest]
  rfl

end Model.Reparsed

theorem Model.reparsed_setExpression (m : Model) (r : ConstraintRef) (e : Expr) :
    m.Reparsed (m.setExpression r e) where
  rest := rfl
  size := m.size_modifyService _ _
  undefined := m.service?_modifyService_undefined
  defined {id s'} h := by
    have hconstraint : ∀ c : Constraint, c.Reparsed { c with expression := some e } :=
      fun _ => rfl
    have hmethod : ∀ x : Method, x.Reparsed { x with
        constraints := x.constraints.modify r.index ({ · with expression := some e }) } := fun x =>
      ⟨rfl, forall₂_modify Constraint.Reparsed.refl hconstraint _ _⟩
    replace h := (m.service?_modifyService r.method.service _ id).symm.trans h
    split at h
    · obtain ⟨s, hs, he⟩ := Option.map_eq_some_iff.mp h
      cases s with
      | defined s =>
        obtain rfl := Service.defined.inj he
        exact ⟨s, hs, rfl, forall₂_modify Method.Reparsed.refl hmethod _ _⟩
      | undefined n => cases he
    · exact ⟨s', h, .refl s'⟩

theorem ConstraintPass.reparsed_step (parser : ConstraintParser) (p : ConstraintPass)
    (r : ConstraintRef) : p.model.Reparsed (p.step parser r).model := by
  unfold ConstraintPass.step
  split
  · split
    · exact p.model.reparsed_setExpression r _
    · exact .refl _
  · exact .refl _

/-- `parseConstraints` changes nothing but expressions. -/
theorem reparsed_parseConstraints (parser : Option ConstraintParser) (queue : List ConstraintRef)
    (p : ConstraintPass) : p.model.Reparsed (parseConstraints parser queue p).model := by
  cases parser with
  | none => exact .refl _
  | some parser =>
    rw [parseConstraints]
    induction queue generalizing p with
    | nil => exact .refl _
    | cons r queue ih => exact (p.reparsed_step parser r).trans (ih (p.step parser r))

section Reparsed

variable {r : Reading} (hr : ∀ x, r.expression x)

include hr

theorem Constraint.Matches.reparsed {position : MethodRef} {c c' : Constraint}
    {decl : ConstraintDecl} (h : c.Matches r position decl) (hc : c.Reparsed c') :
    c'.Matches r position decl := by
  rw [hc]
  exact { h with expression := hr _ }

theorem Method.Matches.reparsed {position : MethodRef} {x x' : Method} {decl : MethodDecl}
    (h : x.Matches r position decl) (hx : x.Reparsed x') : x'.Matches r position decl := by
  have hcs : List.Forall₂ (Constraint.Matches r position) x'.constraints decl.constraints := by
    refine forall₂_join hx.2.flip h.constraints.flip fun c' decl c hc hm => ?_
    exact hm.reparsed hr hc
  rw [hx.1]
  exact { h with constraints := hcs }

theorem DefinedService.Matches.reparsed {id : ServiceId} {s s' : DefinedService}
    {decl : ServiceDecl} {base : Option String} {methods : List MethodDecl}
    {locators : List LocatorDecl} (h : s.Matches r id decl base methods locators)
    (hs : s.Reparsed s') : s'.Matches r id decl base methods locators := by
  have hms : List.Forall₂ (fun (x : Method × Nat) decl => x.1.Matches r ⟨id, x.2⟩ decl)
      s'.methods.zipIdx methods := by
    refine forall₂_join (forall₂_zipIdx hs.2 0).flip h.methods.flip fun x' decl x hx hm => ?_
    rw [← hx.2]
    exact hm.reparsed hr hx.1
  rw [hs.1]
  exact { h with methods := hms }

theorem DefinedService.Records.reparsed {id : ServiceId} {s s' : DefinedService}
    {decl : ServiceDecl} {complete : Bool} (h : s.Records r id decl complete)
    (hs : s.Reparsed s') : s'.Records r id decl complete := by
  obtain ⟨⟨base, methods, whole, locators, hb, hm, hw, hl, hpart⟩, hwhole⟩ := h
  exact ⟨⟨base, methods, whole, locators, hb, hm, hw, hl, hpart.reparsed hr hs⟩,
    fun hc => (hwhole hc).reparsed hr hs⟩

end Reparsed

theorem Model.Reparsed.resolution {m m' : Model} (h : m.Reparsed m') :
    m.resolution.Le m'.resolution where
  type {id t} ht := by
    rw [h.rest]
    exact ht
  service {id n} hs := by
    have hundef : m'.service? id = some (.undefined n) ↔ m.service? id = some (.undefined n) :=
      h.undefined
    show m'.ResolvesService n id
    rw [ResolvesService, hundef, h.rest]
    exact hs
  module {id n} hk := by
    rw [h.rest]
    exact hk
  expression hx := hx

/-! ## Finished models -/

/-- A finished model is the `settled` model of the draft, apart from expressions. -/
theorem Draft.reparsed_build {d : Draft} (hs : d.Sound) (hb : d.Based)
    {parser : Option ConstraintParser} {a : Analysis} (h : d.build parser = .ok a) :
    d.model.settled.Reparsed a.model := by
  unfold Draft.build at h
  simp only at h
  split at h
  · cases h
  · obtain rfl := Except.ok.inj h
    rw [Model.settled, ← fixup_model hs hb]
    exact reparsed_parseConstraints parser _ ⟨d.fixup.model, d.fixup.diagnostics⟩

theorem eq_ok_of_toOption {ε α : Type} {x : Except ε α} {a : α} (h : x.toOption = some a) :
    x = .ok a := by
  cases x with
  | error e => cases h
  | ok b => rw [Option.some.inj h]

/-- Whatever has been declared by `ds`, and whether or not some of it was invalid: in a finished
model every reference of a registered struct or service leads to what the declaration that
registered it asks for. A declaration that was cut short is matched up to where it was cut. -/
theorem references_lead_to_declared_names {ds : List Declaration}
    {parser : Option ConstraintParser} {a : Analysis}
    (h : (Draft.declareEach {} ds).build parser = .ok a) :
    (∀ n id s, a.model.findType? n = some id → a.model.type? id = some (.struct s) →
      ∃ pre t post supertype members, ds = pre ++ .type t :: post ∧
        t.body = .struct supertype members ∧ Name.ofCase t.name = n ∧
        Draft.RegistersType pre t id ∧
        s.MatchesPart a.model.resolution id t supertype.base? members ∧
        (((Draft.declareEach {} pre).declare (.type t)).1.isOk = true →
          s.Matches a.model.resolution id t supertype.base? members)) ∧
    (∀ n id s, a.model.findService? n = some id → a.model.service? id = some (.defined s) →
      ∃ pre t post, ds = pre ++ .service t :: post ∧ serviceName t.name = n ∧
        Draft.RegistersService pre t id ∧
        s.MatchesPart a.model.resolution id t t.supertype.base? t.methods t.locators ∧
        (((Draft.declareEach {} pre).declare (.service t)).1.isOk = true →
          s.Matches a.model.resolution id t t.supertype.base? t.methods t.locators)) := by
  obtain ⟨hs, hb⟩ := Draft.sound_declareEach ds
  have hre := Draft.reparsed_build hs hb h
  have hmaps := Model.reading_maps_unparsed hs.indexed
  have hle := (Model.unparsed_le_resolution _).trans hre.resolution
  refine ⟨fun n id s hn hid => ?_, fun n id s hn hid => ?_⟩
  · rw [hre.findType?] at hn
    rw [hre.type?, Model.type?_settled] at hid
    rcases Draft.origin_type hn with ⟨k, hk⟩ | ⟨pre, t, post, x, hds, hname, hreg, hx, hrec⟩
    · rw [hk] at hid
      cases hid
    · rw [hx] at hid
      have hx' : x.mapRefs _ = .struct s := Option.some.inj hid
      have hrec' := (hrec.mapRefs hmaps).mono hle
      rw [hx', DataType.Records] at hrec'
      split at hrec'
      · rename_i supertype members hbody
        obtain ⟨s', hs', hpart, hwhole⟩ := hrec'
        obtain rfl := DataType.struct.inj hs'
        exact ⟨pre, t, post, supertype, members, hds, hbody, hname, hreg, hpart, hwhole⟩
      · obtain ⟨e, he, -⟩ := hrec'
        cases he
  · rw [hre.findService?] at hn
    obtain ⟨s', hs', hrs⟩ := hre.defined hid
    rw [Model.service?_settled] at hs'
    obtain ⟨pre, t, post, s₀, hds, hname, hreg, hs₀, hrec⟩ := Draft.origin_service hn
    rw [hs₀] at hs'
    obtain rfl := Service.defined.inj (Option.some.inj hs')
    have hrec' := ((hrec.mapRefs hmaps).mono hle).reparsed (fun _ => trivial) hrs
    exact ⟨pre, t, post, hds, hname, hreg, hrec'.part, hrec'.whole⟩

/-- A struct with a base that nothing declares and a list of what is declared later, a struct
that is cut short at a member without a name, and a locator that leads nowhere. -/
def forwardDeclarations : List Declaration := [
  .type { name := "Disk", space := "model.types", body := .struct (.class "Identified") [
    { name := "size", type := { name := "Integer" } },
    { name := "vms", type := { name := "Vm", isArray := true }, kind := .link }] },
  .type { name := "Cut", space := "model.types", body := .struct .none [
    { name := "vm", type := { name := "Vm" } },
    { name := "_", type := { name := "Vm" } }] },
  .type { name := "Vm", space := "model.types", body := .struct .none [] },
  .service {
    name := "VmsService"
    space := "model.services"
    locators := [{ name := "vm", service := "VmService",
                   parameters := [{ name := "id", type := { name := "String" } }] }] }]

theorem references_lead_to_declared_names_forward : ∃ a id s,
    (Draft.declareEach {} forwardDeclarations).build none = .ok a ∧
      a.model.findType? (Name.ofCase "Cut") = some id ∧ a.model.type? id = some (.struct s) ∧
      ∃ pre t post supertype members, forwardDeclarations = pre ++ .type t :: post ∧
        t.body = .struct supertype members ∧ Name.ofCase t.name = Name.ofCase "Cut" ∧
        Draft.RegistersType pre t id ∧
        s.MatchesPart a.model.resolution id t supertype.base? members := by
  have hsome : (((Draft.declareEach {} forwardDeclarations).build none).toOption.bind
      (fun a => (a.model.findType? (Name.ofCase "Cut")).bind a.model.struct?)).isSome = true := by
    decide +kernel
  obtain ⟨s, hs⟩ := Option.isSome_iff_exists.mp hsome
  obtain ⟨a, ha, hs⟩ := Option.bind_eq_some_iff.mp hs
  obtain ⟨id, hid, hs⟩ := Option.bind_eq_some_iff.mp hs
  have ha' := eq_ok_of_toOption ha
  have hs' := Model.struct?_eq_some.mp hs
  obtain ⟨pre, t, post, supertype, members, hds, hbody, hname, hreg, hpart, -⟩ :=
    (references_lead_to_declared_names ha').1 _ id s hid hs'
  exact ⟨a, id, s, ha', hid, hs', pre, t, post, supertype, members, hds, hbody, hname, hreg, hpart⟩

end ApiModel
