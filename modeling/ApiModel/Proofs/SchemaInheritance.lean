import ApiModel.Proofs.Inheritance
import ApiModel.Proofs.StructTags

/-!
# Inheritance in the schema

The complex type of a struct extends that of its base. Where a chain of bases
comes to its end, what counts is how it ends: at the identified type, and then
all structs of the chain are resources; without a base; or at something that is
no struct, which is reported and otherwise treated like no base at all.

Whether a struct is a resource is found out by a walk along its bases, with a
bound on the number of steps. Chains of an analyzed model end, so the walk
always gets to the end, and it depends on the last struct of the chain only.
-/

namespace ApiModel

open Schema

/-! ## Chains of bases -/

/-- A struct `first` and its bases in turn, up to the first whose base is absent, is no struct, or
is the identified type; that one is the last. -/
inductive BaseChain (m : Model) (identified : TypeId) : (first : TypeId × StructType) →
    (bases : List (TypeId × StructType)) → (last : TypeId × StructType) → Prop where
  | stop {p : TypeId × StructType} (struct : m.struct? p.1 = some p.2)
      (stops : ∀ base, p.2.base = some base → base = identified ∨ m.struct? base = none) :
      BaseChain m identified p [] p
  | next {p q last : TypeId × StructType} {bases : List (TypeId × StructType)}
      (struct : m.struct? p.1 = some p.2) (hasBase : p.2.base = some q.1) (ne : q.1 ≠ identified)
      (further : BaseChain m identified q bases last) : BaseChain m identified p (q :: bases) last

theorem Model.structBase?_eq {m : Model} {id : TypeId} {s : StructType} (h : m.struct? id = some s) :
    m.structBase? id = s.base := by
  rw [structBase?, show (m.type? id).bind DataType.struct? = some s from h]
  rfl

theorem Model.structBase?_eq_none {m : Model} {id : TypeId} (h : m.struct? id = none) :
    m.structBase? id = none := by
  rw [structBase?, show (m.type? id).bind DataType.struct? = none from h]
  rfl

namespace BaseChain

variable {m : Model} {identified : TypeId} {p last : TypeId × StructType}
  {bases : List (TypeId × StructType)}

theorem struct?_first (h : BaseChain m identified p bases last) : m.struct? p.1 = some p.2 := by
  cases h with
  | stop hs => exact hs
  | next hs => exact hs

/-- The `last` struct of a chain is a chain by itself. -/
theorem singleton_last (h : BaseChain m identified p bases last) :
    BaseChain m identified last [] last := by
  induction h with
  | stop hs hstops => exact .stop hs hstops
  | next _ _ _ _ ih => exact ih

theorem last_mem (h : BaseChain m identified p bases last) : last ∈ p :: bases := by
  induction h with
  | stop => exact List.mem_singleton_self _
  | next _ _ _ _ ih => exact List.mem_cons_of_mem _ ih

/-- Where following the bases ends, see `ChainEnds`, there is a `BaseChain`. -/
theorem exists_of_chainEnds (identified : TypeId) {fuel : Nat} (hs : m.struct? p.1 = some p.2)
    (hends : ChainEnds m.structBase? fuel p.2.base) :
    ∃ bases last, BaseChain m identified p bases last := by
  induction fuel generalizing p with
  | zero =>
    rcases hbase : p.2.base with _ | base
    · exact ⟨[], p, .stop hs fun base h => by rw [hbase] at h; cases h⟩
    · rw [hbase] at hends
      exact hends.elim
  | succ fuel ih =>
    rcases hbase : p.2.base with _ | base
    · exact ⟨[], p, .stop hs fun base h => by rw [hbase] at h; cases h⟩
    rw [hbase] at hends
    by_cases hid : base = identified
    · exact ⟨[], p, .stop hs fun _ h => .inl (Option.some.inj (h.symm.trans hbase) ▸ hid)⟩
    rcases hparent : m.struct? base with _ | parent
    · exact ⟨[], p, .stop hs fun _ h => .inr (Option.some.inj (h.symm.trans hbase) ▸ hparent)⟩
    rw [ChainEnds, Model.structBase?_eq hparent] at hends
    obtain ⟨bases, last, h⟩ := ih (p := (base, parent)) hparent hends
    exact ⟨(base, parent) :: bases, last, .next hs hbase hid h⟩

/-- By `meets`, the walk along the bases meets the type `identified` just if the chain stops
there. -/
theorem meets_eq {fuel : Nat} (h : BaseChain m identified p bases last)
    (hends : ChainEnds m.structBase? fuel p.2.base) :
    m.meets identified fuel p.2.base = decide (last.2.base = some identified) := by
  induction h generalizing fuel with
  | @stop p hs hstops =>
    rcases hbase : p.2.base with _ | base
    · cases fuel <;> rfl
    rw [hbase] at hends
    cases fuel with
    | zero => exact hends.elim
    | succ fuel =>
      rw [Model.meets]
      rcases hstops base hbase with rfl | hnone
      · simp
      · rw [Model.structBase?_eq_none hnone]
        cases fuel <;> simp [Model.meets]
  | @next p q last bases hs hbase hne further ih =>
    rw [hbase] at hends ⊢
    cases fuel with
    | zero => exact hends.elim
    | succ fuel =>
      rw [ChainEnds, Model.structBase?_eq further.struct?_first] at hends
      rw [Model.meets, Model.structBase?_eq further.struct?_first, decide_eq_false hne,
        Bool.false_or]
      exact ih hends

/-- If the first struct of a `BaseChain` has definitions, so have all. -/
theorem mem_definedStructs {anchors : Anchors} {ds : List Declaration} (hp : m.Portrays ds)
    (h : BaseChain m anchors.identified p bases last) (hfirst : p ∈ definedStructs m anchors) :
    ∀ q ∈ p :: bases, q ∈ definedStructs m anchors := by
  induction h with
  | stop => exact fun q hq => List.mem_singleton.mp hq ▸ hfirst
  | @next p q last bases hs hbase hne further ih =>
    obtain ⟨n, hn⟩ := hp.resolves_base (Schema.mem_definedStructs.mp hfirst).1 hbase
    have hq := hn.mem_structs (Model.struct?_eq_some.mp further.struct?_first)
    exact List.forall_mem_cons.mpr ⟨hfirst, ih (Schema.mem_definedStructs.mpr ⟨hq, hne⟩)⟩

end BaseChain

namespace Schema

variable {cfg : Config} {m : Model} {anchors : Anchors} {id : TypeId} {s : StructType}

/-! ## What becomes of a base -/

theorem baseUse_eq_struct {parent : StructType} : baseUse m anchors s = .struct parent ↔
    ∃ base, s.base = some base ∧ base ≠ anchors.identified ∧ m.struct? base = some parent := by
  constructor
  · intro huse
    unfold baseUse at huse
    split at huse
    · cases huse
    rename_i base hbase
    split at huse
    · cases huse
    rename_i hne
    split at huse
    · rename_i parent' ht
      obtain rfl := BaseUse.struct.inj huse
      refine ⟨base, hbase, hne, Model.struct?_eq_some.mpr ?_⟩
      rcases hb : m.type? base with _ | t <;> rw [hb] at ht
      · cases ht
      · exact congrArg some ht
    · cases huse
  · rintro ⟨base, hbase, hne, hparent⟩
    simp [baseUse, hbase, hne, Model.struct?_eq_some.mp hparent]

theorem baseUse_implied (h : ∀ base, s.base = some base → base = anchors.identified) :
    baseUse m anchors s = .implied := by
  rcases hbase : s.base with _ | base
  · simp [baseUse, hbase]
  · simp [baseUse, hbase, h base hbase]

theorem baseUse_unusable {base : TypeId} {t : DataType} (hbase : s.base = some base)
    (hne : base ≠ anchors.identified) (ht : m.type? base = some t)
    (hstruct : m.struct? base = none) : baseUse m anchors s = .unusable t := by
  cases t with
  | struct s' => rw [Model.struct?_eq_some.mpr ht] at hstruct; cases hstruct
  | _ => simp [baseUse, hbase, hne, ht]

/-- The report on a base of `s` that isn't used. -/
def ignoredBase? (m : Model) (anchors : Anchors) (s : StructType) : Option Diagnostic :=
  s.base.bind fun base =>
    if base = anchors.identified ∨ (m.struct? base).isSome then none
    else (m.type? base).map fun t => ⟨.error, .unresolvedBase,
      s!"base '{t.name.display}' of type '{s.name.display}' isn't a struct, ignoring it"⟩

theorem baseReports_eq_toList {ds : List Declaration} (hp : m.Portrays ds)
    (hs : (id, s) ∈ m.structs) : baseReports m anchors s = (ignoredBase? m anchors s).toList := by
  rcases hbase : s.base with _ | base
  · rw [baseReports, baseUse_implied (by simp [hbase]), ignoredBase?, hbase]
    rfl
  by_cases hne : base = anchors.identified
  · rw [baseReports, baseUse_implied (by simp [hbase, hne]), ignoredBase?, hbase, Option.bind_some,
      if_pos (.inl hne)]
    rfl
  rcases hparent : m.struct? base with _ | parent
  · obtain ⟨n, hn⟩ := hp.resolves_base hs hbase
    obtain ⟨t, ht, -⟩ := Option.map_eq_some_iff.mp (hn.name hp.indexed)
    rw [baseReports, baseUse_unusable hbase hne ht hparent, ignoredBase?, hbase, Option.bind_some,
      if_neg (by simp [hne, hparent]), ht]
    rfl
  · rw [baseReports, baseUse_eq_struct.mpr ⟨base, hbase, hne, hparent⟩, ignoredBase?, hbase,
      Option.bind_some, if_pos (.inr (by rw [hparent]; rfl))]
    rfl

theorem kind_baseReports : ∀ x ∈ baseReports m anchors s, x.kind = .unresolvedBase := by
  intro x hx
  unfold baseReports at hx
  split at hx
  · rw [List.mem_singleton.mp hx]
    rfl
  · cases hx

theorem kind_memberReports : ∀ x ∈ memberReports cfg m s, x.kind = .unrenderableMember := by
  intro x hx
  rcases List.mem_append.mp hx with hx | hx <;>
    obtain ⟨y, -, rfl⟩ := List.mem_map.mp hx <;> rfl

/-- Of the `reports` on a model, those on bases. -/
theorem filter_reports {ds : List Declaration} (hp : m.Portrays ds) :
    (reports cfg m anchors).filter (·.kind = .unresolvedBase) =
      (definedStructs m anchors).filterMap fun p => ignoredBase? m anchors p.2 := by
  have hstruct : ∀ p ∈ definedStructs m anchors,
      (structReports cfg m anchors p.2).filter (·.kind = .unresolvedBase) =
        (ignoredBase? m anchors p.2).toList := by
    intro p hmem
    rw [structReports, ← List.nil_append (baseReports m anchors p.2),
      filter_kind (by simp) kind_baseReports fun x hx => by rw [kind_memberReports x hx]; decide,
      baseReports_eq_toList hp (mem_definedStructs.mp hmem).1]
  rw [reports, List.filter_flatMap, List.filterMap_eq_flatMap_toList]
  exact List.flatMap_congr hstruct

/-! ## Definitions of a chain -/

section Chain

variable {p last : TypeId × StructType} {bases : List (TypeId × StructType)}

/-- By `isResource`, a struct is a resource just if it is the API type or its chain stops at the
identified type. -/
theorem isResource_eq_of_chain (hc : m.inheritanceCycle? = none) (hp : p ∈ m.structs)
    (h : BaseChain m anchors.identified p bases last) :
    isResource m anchors p.1 =
      decide (p.1 = anchors.api ∨ last.2.base = some anchors.identified) := by
  obtain ⟨⟨n, hid⟩, -⟩ := Model.mem_structs.mp hp
  have hends := Model.chainEnds_structBase?
    (Model.typeCycle?_eq_none hc (Model.resolves_of_registered hid))
  rw [Model.structBase?_eq h.struct?_first] at hends
  rw [isResource, Model.isExtension, Model.structBase?_eq h.struct?_first, h.meets_eq hends,
    Bool.decide_or]

theorem extensionBase?_of_stop (hc : m.inheritanceCycle? = none) (hp : p ∈ m.structs)
    (h : BaseChain m anchors.identified p [] p) : extensionBase? cfg m anchors p.1 p.2 =
      if p.2.base = some anchors.identified ∨ p.1 = anchors.api then some cfg.baseResource
      else none := by
  have hresource := isResource_eq_of_chain hc hp h
  cases h with
  | stop hs hstops =>
    unfold extensionBase?
    split
    · rename_i parent huse
      obtain ⟨base, hbase, hne, hparent⟩ := baseUse_eq_struct.mp huse
      rcases hstops base hbase with hid | hnone
      · exact absurd hid hne
      · cases hparent.symm.trans hnone
    · simp only [hresource, decide_eq_true_eq, or_comm]

/-- The struct `p` has an element and a complex type that extends `base`. -/
def StructEmitted (cfg : Config) (m : Model) (anchors : Anchors) (p : TypeId × StructType)
    (base : Option String) : Prop :=
  ∃ entries attributes, (definitionsFrom cfg m anchors (.struct p.1)).map Definition.tags =
    structTags cfg p.2 base entries attributes

/-- Unless it is exempted, the struct `p` has an element and a complex type for its collections, and
that type extends `base`. -/
def CollectionEmitted (cfg : Config) (m : Model) (anchors : Anchors) (p : TypeId × StructType)
    (base : Option String) : Prop :=
  (definitionsFrom cfg m anchors (.collection p.1)).map Definition.tags =
    if cfg.withoutCollection.contains p.2.name then [] else collectionTags cfg p.2 base

theorem structEmitted_extensionBase? (hi : m.Indexed) (hp : p ∈ definedStructs m anchors) :
    StructEmitted cfg m anchors p (extensionBase? cfg m anchors p.1 p.2) :=
  ⟨_, _, map_tags_struct hi hp⟩

/-- A struct inside a `BaseChain` extends the one after it. -/
theorem isChain_structEmitted (hi : m.Indexed) (h : BaseChain m anchors.identified p bases last)
    (hdefined : ∀ q ∈ p :: bases, q ∈ definedStructs m anchors) :
    (p :: bases).IsChain fun p q =>
      StructEmitted cfg m anchors p (some (cfg.naming.type q.2.name)) := by
  induction h with
  | stop => exact .singleton _
  | @next p q last bases hs hbase hne further ih =>
    obtain ⟨hfirst, hrest⟩ := List.forall_mem_cons.mp hdefined
    refine .cons_cons ?_ (ih hrest)
    have hextension : extensionBase? cfg m anchors p.1 p.2 = some (cfg.naming.type q.2.name) := by
      rw [extensionBase?, baseUse_eq_struct.mpr ⟨q.1, hbase, hne, further.struct?_first⟩]
    exact hextension ▸ structEmitted_extensionBase? hi hfirst

end Chain

/-! ## The whole schema -/

/-- Inheritance in the schema is that of the model, where definitions are told apart by what they
are made for, see `sourced`. Along the `BaseChain` of a struct each complex type extends the next.
The last one extends `baseResource` just if it has the identified type as its base or is the API
type, and collections go by the last one, too. The tags of all definitions make up what is put into
the base document. A base that isn't used is reported once for each struct that has it. -/
theorem schema_mirrors_inheritance {ds : List Declaration} {a : Analysis} (h : analyze ds = .ok a)
    {cfg : Config} {anchors : Anchors} (hanchors : findAnchors cfg a.model = .ok anchors) :
    (sourced cfg a.model anchors).map (·.2) = definitions cfg a.model anchors ∧
    (∀ p ∈ a.model.structs, p.1 ≠ anchors.identified →
      ∃ bases last, BaseChain a.model anchors.identified p bases last ∧
        (p :: bases).IsChain (fun p q =>
          StructEmitted cfg a.model anchors p (some (cfg.naming.type q.2.name))) ∧
        StructEmitted cfg a.model anchors last
          (if last.2.base = some anchors.identified ∨ last.1 = anchors.api
            then some cfg.baseResource else none) ∧
        CollectionEmitted cfg a.model anchors p
          (if p.1 = anchors.api ∨ last.2.base = some anchors.identified
            then some cfg.baseResources else none)) ∧
    ((definedStructs a.model anchors).map (·.1)).Nodup ∧
    ∀ base g, generate cfg a.model base = .ok g →
      (∃ root, locateRoot base.toList = .ok root ∧
        g.xml = String.ofList (root.splice base.toList
          (Xml.Tag.renderChars ((sourced cfg a.model anchors).flatMap (·.2.tags))))) ∧
      g.diagnostics.filter (·.kind = .unresolvedBase) =
        (definedStructs a.model anchors).filterMap fun p => ignoredBase? a.model anchors p.2 := by
  obtain ⟨haccepts, hcycle, rfl⟩ := analyze_eq_ok.mp h
  have hp := Draft.portrays_finishedModel haccepts
  have hi := hp.indexed
  refine ⟨map_snd_sourced cfg _ anchors, fun p hstruct hne => ?_, nodup_definedStructs hi,
    fun base g hg => ?_⟩
  · obtain ⟨⟨n, hid⟩, ht⟩ := Model.mem_structs.mp hstruct
    have hs := Model.struct?_eq_some.mpr ht
    have hends := Model.chainEnds_structBase?
      (Model.typeCycle?_eq_none hcycle (Model.resolves_of_registered hid))
    rw [Model.structBase?_eq hs] at hends
    obtain ⟨bases, last, hchain⟩ := BaseChain.exists_of_chainEnds anchors.identified hs hends
    have hdefined := hchain.mem_definedStructs hp (mem_definedStructs.mpr ⟨hstruct, hne⟩)
    have hlast := hdefined last hchain.last_mem
    have hfirst := hdefined p List.mem_cons_self
    refine ⟨bases, last, hchain, isChain_structEmitted hi hchain hdefined, ?_, ?_⟩
    · rw [← extensionBase?_of_stop hcycle (mem_definedStructs.mp hlast).1 hchain.singleton_last]
      exact structEmitted_extensionBase? hi hlast
    · rw [CollectionEmitted, map_tags_collection hi hfirst,
        isResource_eq_of_chain hcycle hstruct hchain]
      simp only [decide_eq_true_eq]
  · obtain ⟨anchors', root, hanchors', hroot, hxml, hdiagnostics⟩ := generate_eq_ok hg
    obtain rfl := Except.ok.inj (hanchors.symm.trans hanchors')
    refine ⟨⟨root, hroot, hxml⟩, ?_⟩
    rw [hdiagnostics, filter_reports hp]

/-- Structs on the way to the identified type, and one whose base nothing declares. -/
def lineageDeclarations : List Declaration := [
  .type { name := "Backup", space := "types", body := .struct (.class "Disk") [] },
  .type { name := "Disk", space := "types", body := .struct (.interfaces ["Device", "Api"]) [] },
  .type { name := "Device", space := "types", body := .struct (.class "Identified") [] },
  .type { name := "Orphan", space := "types", body := .struct (.class "Missing") [] },
  .type { name := "Identified", space := "types", body := .struct .none [] },
  .type { name := "Api", space := "types", body := .struct .none [] }]

/-- Lines of the complex types of `lineageDeclarations` in the schema. -/
def lineageLines : List (List String) := [
  ["<xs:complexType name=\"Backup\">",
    "  <xs:complexContent>",
    "    <xs:extension base=\"Disk\">",
    "      <xs:sequence>",
    "      </xs:sequence>",
    "    </xs:extension>",
    "  </xs:complexContent>",
    "</xs:complexType>"],
  ["<xs:complexType name=\"Backups\">",
    "  <xs:complexContent>",
    "    <xs:extension base=\"BaseResources\">"],
  ["<xs:complexType name=\"Disk\">",
    "  <xs:complexContent>",
    "    <xs:extension base=\"Device\">"],
  ["<xs:complexType name=\"Device\">",
    "  <xs:complexContent>",
    "    <xs:extension base=\"BaseResource\">"],
  ["<xs:complexType name=\"Orphan\">",
    "  <xs:sequence>",
    "  </xs:sequence>",
    "</xs:complexType>"]]

theorem schema_mirrors_inheritance_lineage : ∃ a anchors g p bases last,
    analyze lineageDeclarations = .ok a ∧ findAnchors withoutOverrides a.model = .ok anchors ∧
    generate withoutOverrides a.model "<schema/>" = .ok g ∧
    a.model.findType? (Name.ofCase "Backup") = some p.1 ∧ p ∈ a.model.structs ∧
    p.1 ≠ anchors.identified ∧ BaseChain a.model anchors.identified p bases last ∧
    (p :: bases).IsChain (fun p q => StructEmitted withoutOverrides a.model anchors p
      (some (SchemaNaming.standard.type q.2.name))) ∧
    StructEmitted withoutOverrides a.model anchors last
      (if last.2.base = some anchors.identified ∨ last.1 = anchors.api
        then some "BaseResource" else none) ∧
    CollectionEmitted withoutOverrides a.model anchors p
      (if p.1 = anchors.api ∨ last.2.base = some anchors.identified
        then some "BaseResources" else none) ∧
    (∀ lines ∈ lineageLines, HasLines g.xml.toList lines) ∧
    g.diagnostics.filter (·.kind = .unresolvedBase) = [⟨.error, .unresolvedBase,
      "base 'missing' of type 'orphan' isn't a struct, ignoring it"⟩] := by
  obtain ⟨a, anchors, id, s, g, ha, hanchors, hdefined, hid, hg, hlines, htest⟩ :=
    exists_definedStruct withoutOverrides lineageDeclarations (Name.ofCase "Backup") lineageLines
      (by repeat' constructor)
      (fun _ _ _ diagnostics =>
        diagnostics.filter (·.kind = .unresolvedBase) = [⟨.error, .unresolvedBase,
          "base 'missing' of type 'orphan' isn't a struct, ignoring it"⟩])
      (by decide +kernel)
  obtain ⟨hstruct, hne⟩ := mem_definedStructs.mp hdefined
  obtain ⟨bases, last, hchain, hemitted, hlast, hcollection⟩ :=
    (schema_mirrors_inheritance ha hanchors).2.1 (id, s) hstruct hne
  exact ⟨a, anchors, g, (id, s), bases, last, ha, hanchors, hg, hid, hstruct, hne, hchain, hemitted,
    hlast, hcollection, hlines, of_decide_eq_true htest⟩

end Schema

end ApiModel
