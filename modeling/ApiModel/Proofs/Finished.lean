import ApiModel.Proofs.Complete
import ApiModel.Proofs.Resolution

/-!
# Finished models

When every declaration has been carried out and everything is settled, the model
portrays the declarations: what is registered comes from a declaration, says
what it says, and refers to what it asks for.
-/

namespace ApiModel

namespace Model

variable {m : Model} {n : Name}

/-! ## Settled models are indexed -/

theorem registrableName_mapRefs (f : TypeId → TypeId) (t : DataType) :
    registrableName (t.mapRefs f) = registrableName t := by
  cases t <;> rfl

theorem type?_settled_undefined {id : TypeId} :
    m.settled.type? id = some (.undefined n) ↔ m.type? id = some (.undefined n) := by
  rw [type?_settled]
  rcases m.type? id with _ | t
  · simp
  · cases t <;> simp [DataType.mapRefs]

theorem type?_settled_list {id e : TypeId} : m.settled.type? id = some (.list n e) ↔
    ∃ e', m.type? id = some (.list n e') ∧ m.settledType e' = e := by
  rw [type?_settled]
  rcases m.type? id with _ | t
  · simp
  · cases t <;> simp [DataType.mapRefs]

theorem service?_settled_undefined {id : ServiceId} :
    m.settled.service? id = some (.undefined n) ↔ m.service? id = some (.undefined n) := by
  rw [service?_settled]
  rcases m.service? id with _ | s
  · simp
  · cases s <;> simp [Service.mapDefined]

theorem Resolves.typeNamed {id : TypeId} (h : m.Resolves n id) : m.TypeNamed n id := by
  unfold Resolves at h
  split at h
  · exact .inl (h ▸ ‹_›)
  · exact .inr h.2

theorem Indexed.settled (hi : m.Indexed) : m.settled.Indexed where
  type {n id} h := by
    obtain ⟨t, ht, hn⟩ := hi.type h
    exact ⟨_, by rw [type?_settled, ht]; rfl, by rw [registrableName_mapRefs]; exact hn⟩
  undefinedType := hi.undefinedType.trans type?_settled_undefined.symm
  list {n id} := by
    refine hi.list.trans ⟨fun ⟨e, he⟩ => ⟨_, type?_settled_list.mpr ⟨e, he, rfl⟩⟩, fun ⟨e, he⟩ => ?_⟩
    obtain ⟨e', he', -⟩ := type?_settled_list.mp he
    exact ⟨e', he'⟩
  listElement h := by
    obtain ⟨e, he, rfl⟩ := type?_settled_list.mp h
    exact (resolves_settledType hi (hi.listElement he)).typeNamed
  service {n id} h := by
    obtain ⟨s, hs, hn⟩ := hi.service h
    exact ⟨s.mapRefs m.settledType m.settledService, by rw [service?_settled, hs]; rfl, hn⟩
  undefinedService := hi.undefinedService.trans service?_settled_undefined.symm
  module := hi.module

/-! ## Portraits -/

/-- The model `m` says what the declarations `ds` say. -/
structure Portrays (m : Model) (ds : List Declaration) : Prop where
  indexed : m.Indexed
  primitives : ∀ k : PrimitiveKind, m.findType? k.name = some k.typeId ∧
    m.type? k.typeId = some (.primitive k)
  types : ∀ {n id}, m.findType? n = some id →
    (∃ k : PrimitiveKind, n = k.name ∧ id = k.typeId) ∨
      ∃ decl ∈ ds, decl.typeName? = some n ∧ m.Records m.unparsed decl true
  typeNames : ∀ {decl n}, decl ∈ ds → decl.typeName? = some n → (m.findType? n).isSome
  services : ∀ {n id}, m.findService? n = some id →
    ∃ decl ∈ ds, decl.serviceName? = some n ∧ m.Records m.unparsed decl true
  serviceNames : ∀ {decl n}, decl ∈ ds → decl.serviceName? = some n →
    (m.findService? n).isSome
  lists : ∀ {n id}, m.findList? n = some id →
    ∃ decl ∈ ds, m.Records m.unparsed decl true ∧ .type ⟨n, true⟩ ∈ decl.requests
  listElements : ∀ {n id e}, m.type? id = some (.list n e) → m.Resolves n e

end Model

namespace Draft

variable {d : Draft} {ds : List Declaration}

theorem Recorded.settled (hi : d.model.Indexed) {decl : Declaration} {complete : Bool}
    (h : d.Recorded decl complete) :
    d.model.settled.Records d.model.settled.unparsed decl complete := by
  have hmaps := Model.reading_maps_unparsed hi
  match decl with
  | .type t =>
    obtain ⟨id, x, hid, hx, hr⟩ := h
    exact ⟨id, _, hid, by rw [Model.type?_settled, hx]; rfl, hr.mapRefs hmaps⟩
  | .service t =>
    obtain ⟨id, s, hid, hs, hr⟩ := h
    exact ⟨id, _, hid, by rw [Model.service?_settled, hs]; rfl, hr.mapRefs hmaps⟩
  | .document _ => exact h.elim

/-- The primitives are there from the start. -/
theorem grows_declareEach (ds : List Declaration) :
    Model.initial.Grows ∅ (declareEach {} ds).model := by
  induction ds using List.reverseRecOn with
  | nil => exact .refl _
  | append_singleton ds decl ih => exact ih.trans (extends_declareEach ds decl).grows

end Draft

/-- The model that an analysis of `ds` ends with. -/
abbrev finishedModel (ds : List Declaration) : Model :=
  (Draft.declareEach {} ds).model.settled

namespace Draft

variable {ds : List Declaration}

/-- What has been `CarriedOut` is portrayed, see `Portrays`. -/
theorem CarriedOut.portrays {es : List Declaration} (hc : CarriedOut es (declareEach {} ds)) :
    (finishedModel ds).Portrays es := by
  have hi := (sound_declareEach ds).1.indexed
  have hg := grows_declareEach ds
  exact
    { indexed := hi.settled
      primitives := fun k => by
        refine ⟨hg.findType (Model.findType?_initial.mpr ⟨k, rfl, rfl⟩), ?_⟩
        rw [Model.type?_settled, hg.type (Set.notMem_empty _) (Model.type?_typeId k)]
        rfl
      types := fun hid =>
        (hc.types hid).imp_right fun ⟨x, hx, hn, hr⟩ => ⟨x, hx, hn, hr.settled hi⟩
      typeNames := hc.typeNames
      services := fun hid => by
        obtain ⟨x, hx, hn, hr⟩ := hc.services hid
        exact ⟨x, hx, hn, hr.settled hi⟩
      serviceNames := hc.serviceNames
      lists := fun hl => by
        obtain ⟨x, hx, hr, hq⟩ := hc.lists hl
        exact ⟨x, hx, hr.settled hi, hq⟩
      listElements := fun hl => by
        obtain ⟨e, he, rfl⟩ := Model.type?_settled_list.mp hl
        exact Model.resolves_settledType hi (hi.listElement he) }

theorem portrays_finishedModel (h : Accepts {} ds) : (finishedModel ds).Portrays ds :=
  (carriedOut_declareEach h).portrays

end Draft

/-! ## Analyses -/

section Analysis

variable {ds : List Declaration}

theorem analyze_of_accepts (h : Draft.Accepts {} ds) : analyze ds =
    match (finishedModel ds).inheritanceCycle? with
    | some cycle => .error (.circularInheritance cycle)
    | none => .ok ⟨finishedModel ds, (Draft.declareEach {} ds).fixup.diagnostics⟩ := by
  obtain ⟨hs, hb⟩ := Draft.sound_declareEach ds
  rw [analyze, analyzeWith, Draft.declareAll_eq_declareEach h]
  simp only [Draft.build, Draft.fixup_model hs hb, parseConstraints]
  rfl

theorem analyze_of_not_accepts (h : ¬Draft.Accepts {} ds) :
    ∃ e, analyze ds = .error (.invalidName e) := by
  rw [← Draft.declareAll_isOk_iff] at h
  rw [analyze, analyzeWith]
  rcases hd : Draft.declareAll {} ds with ⟨e | _, d⟩
  · exact ⟨e, rfl⟩
  · rw [hd] at h
    exact absurd rfl h

theorem analyze_eq_ok {a : Analysis} : analyze ds = .ok a ↔
    Draft.Accepts {} ds ∧ (finishedModel ds).inheritanceCycle? = none ∧
      a = ⟨finishedModel ds, (Draft.declareEach {} ds).fixup.diagnostics⟩ := by
  by_cases hd : Draft.Accepts {} ds
  · rw [analyze_of_accepts hd]
    rcases (finishedModel ds).inheritanceCycle? with _ | cycle
    · simp [hd, eq_comm]
    · simp
  · obtain ⟨e, he⟩ := analyze_of_not_accepts hd
    simp [he, hd]

end Analysis

end ApiModel
