import ApiModel.Proofs.OrderIndependence
import ApiModel.Proofs.Repeats
import ApiModel.Proofs.SchemaOrder

/-!
# Repeats make no difference

A declaration whose name is taken is reported, and that is all: the model, the
other reports and the schema are those of the declarations without it. Models
are compared up to numbers, which a repeat shifts, and up to modules without
members, which a repeat may leave behind.
-/

namespace ApiModel

/-! ## Models that say the same -/

namespace Model

/-- The modules of `m` that have members. -/
def inhabitedModules (m : Model) : Set ModuleId :=
  {k | ∃ x, m.module? k = some x ∧ (x.types ≠ [] ∨ x.services ≠ [])}

/-- The model `m'` is `m` with other numbers, by `ρ`, apart from modules without members and from
what no registered entity leads to. -/
structure Restates (ρ : Renumbering) (m m' : Model) : Prop where
  typeIds : Set.BijOn ρ.type m.reachableTypes m'.reachableTypes
  serviceIds : Set.BijOn ρ.service m.reachableServices m'.reachableServices
  moduleIds : Set.BijOn ρ.module m.inhabitedModules m'.inhabitedModules
  findType? : ∀ n, m'.findType? n = (m.findType? n).map ρ.type
  findService? : ∀ n, m'.findService? n = (m.findService? n).map ρ.service
  findList? : ∀ n, m'.findList? n = (m.findList? n).map ρ.type
  type? : ∀ id ∈ m.reachableTypes, m'.type? (ρ.type id) = (m.type? id).map (·.renumber ρ)
  service? : ∀ id ∈ m.reachableServices,
    m'.service? (ρ.service id) = (m.service? id).map (·.renumber ρ)
  /-- A module lists the same members in the same order, up to `ρ`. -/
  module? : ∀ {k x}, k ∈ m.inhabitedModules → m.module? k = some x →
    m'.module? (ρ.module k) = some ⟨x.name, x.types.map ρ.type, x.services.map ρ.service⟩
  findModule? : ∀ {n k}, k ∈ m.inhabitedModules → m.findModule? n = some k →
    m'.findModule? n = some (ρ.module k)
  root : m'.root = m.root.map ρ.service
  documents : m'.documents = m.documents
  unresolvedTypes : m'.unresolvedTypes.toList = m.unresolvedTypes.toList
  unresolvedServices : m'.unresolvedServices.toList = m.unresolvedServices.toList

variable {m m' : Model}

theorem listed_name (hh : m.Housed) {ι : Type} (f : Module → List ι) {k : ModuleId} {x : Module}
    (hx : m.module? k = some x) : m.listed f x.name = f x := by
  have hn : m.moduleName? k = some x.name := by rw [moduleName?, hx]; rfl
  rw [listed, hh.named hn, Option.bind_some, hx]
  rfl

theorem exists_inhabited (hi : m.Indexed) {n : Name}
    (h : m.listed Module.types n ≠ [] ∨ m.listed Module.services n ≠ []) :
    ∃ k ∈ m.inhabitedModules, m.moduleName? k = some n := by
  rcases hk : m.findModule? n with _ | k
  · simp [listed, hk] at h
  · obtain ⟨x, hx, -⟩ := hi.isSome_module? hk
    refine ⟨k, ⟨x, hx, ?_⟩, hi.module hk⟩
    simpa [listed, hk, hx] using h

namespace Reflects

variable (h : m.Reflects m')

include h

theorem eq_type {n : Name} {id id' : TypeId} (hid : m.findType? n = some id)
    (hid' : m'.findType? n = some id') : id' = (m.renumbering m').type id := by
  have hfind := h.findType? n
  rw [hid, hid'] at hfind
  exact Option.some.inj hfind

theorem eq_service {n : Name} {id id' : ServiceId} (hid : m.findService? n = some id)
    (hid' : m'.findService? n = some id') : id' = (m.renumbering m').service id := by
  have hfind := h.findService? n
  rw [hid, hid'] at hfind
  exact Option.some.inj hfind

/-! Modules that list the same members -/

variable
  (htypes : ∀ n, m'.listed Module.types n =
    (m.listed Module.types n).map (m.renumbering m').type)
  (hservices : ∀ n, m'.listed Module.services n =
    (m.listed Module.services n).map (m.renumbering m').service)

include htypes hservices

theorem inhabited_forth {k : ModuleId} (hk : k ∈ m.inhabitedModules) :
    ∃ n, m.moduleName? k = some n ∧ ∃ k' ∈ m'.inhabitedModules, m'.moduleName? k' = some n := by
  obtain ⟨x, hx, hne⟩ := hk
  refine ⟨x.name, by rw [moduleName?, hx]; rfl, exists_inhabited h.twins.indexed' ?_⟩
  rw [htypes, hservices, listed_name h.housed _ hx, listed_name h.housed _ hx]
  simpa using hne

theorem inhabited_back {k : ModuleId} (hk : k ∈ m'.inhabitedModules) :
    ∃ n, m'.moduleName? k = some n ∧ ∃ k' ∈ m.inhabitedModules, m.moduleName? k' = some n := by
  obtain ⟨x, hx, hne⟩ := hk
  refine ⟨x.name, by rw [moduleName?, hx]; rfl, exists_inhabited h.twins.indexed ?_⟩
  rw [← listed_name h.housed' Module.types hx, ← listed_name h.housed' Module.services hx, htypes,
    hservices] at hne
  simpa using hne

theorem inhabitedModules (h' : m'.Reflects m) :
    Set.BijOn (m.renumbering m').module m.inhabitedModules m'.inhabitedModules :=
  bijOn_of_names (fun _ => h.inhabited_forth htypes hservices)
    (fun _ => h.inhabited_back htypes hservices) h.carries.module h'.carries.module

theorem inhabited_module? {k : ModuleId} {x : Module} (hk : k ∈ m.inhabitedModules)
    (hx : m.module? k = some x) : m'.module? ((m.renumbering m').module k) =
      some ⟨x.name, x.types.map (m.renumbering m').type,
        x.services.map (m.renumbering m').service⟩ := by
  obtain ⟨n, hn, k', ⟨x', hx', -⟩, hn'⟩ := h.inhabited_forth htypes hservices hk
  obtain rfl := h.carries.module hn hn'
  obtain rfl : x.name = n := by
    rw [moduleName?, hx] at hn
    exact Option.some.inj hn
  have hname : x'.name = x.name := by
    rw [moduleName?, hx'] at hn'
    exact Option.some.inj hn'
  have htypes' : x'.types = x.types.map (m.renumbering m').type := by
    rw [← listed_name h.housed' Module.types hx', hname, htypes, listed_name h.housed _ hx]
  have hservices' : x'.services = x.services.map (m.renumbering m').service := by
    rw [← listed_name h.housed' Module.services hx', hname, hservices, listed_name h.housed _ hx]
  rw [hx', ← hname, ← htypes', ← hservices']

theorem inhabited_findModule? {n : Name} {k : ModuleId} (hk : k ∈ m.inhabitedModules)
    (hfind : m.findModule? n = some k) :
    m'.findModule? n = some ((m.renumbering m').module k) := by
  obtain ⟨n', hn, k', -, hn'⟩ := h.inhabited_forth htypes hservices hk
  obtain rfl : n = n' := Option.some.inj ((h.twins.indexed.module hfind).symm.trans hn)
  rw [h.housed'.named hn', h.carries.module hn hn']

end Reflects

end Model

/-! ## Drafts that agree in names -/

theorem Reference.unresolvedNames_congr {ι σ : Type} {r : Reference ι σ} {m m' : Model}
    {pending pending' : List (Name × σ)}
    (hlookup : ∀ n, (r.lookup m n).isSome ↔ (r.lookup m' n).isSome)
    (hpending : pending.map (·.1) = pending'.map (·.1)) :
    r.unresolvedNames m pending = r.unresolvedNames m' pending' := by
  have hnone : (fun n => (r.lookup m n).isNone) = fun n => (r.lookup m' n).isNone :=
    funext fun n => by
      rw [← Option.not_isSome, ← Option.not_isSome, Bool.eq_iff_iff.mpr (hlookup n)]
  rw [unresolvedNames, unresolvedNames, hpending, hnone]

namespace Draft

/-- The reports on names that references of `d` wait for and nothing has. -/
def missing (d : Draft) : List Diagnostic :=
  Reference.types.reports d.model d.pendingTypes ++
    Reference.services.reports d.model d.pendingServices

variable {d d' : Draft} {ds ds' : List Declaration}

section Agreement

variable (h : d.names = d'.names)

include h

theorem unresolvedTypes_of_names :
    Reference.types.unresolvedNames d.model d.pendingTypes =
      Reference.types.unresolvedNames d'.model d'.pendingTypes :=
  Reference.unresolvedNames_congr (isSome_findType?_of_names h) (pendingTypes_of_names h)

theorem unresolvedServices_of_names :
    Reference.services.unresolvedNames d.model d.pendingServices =
      Reference.services.unresolvedNames d'.model d'.pendingServices :=
  Reference.unresolvedNames_congr (isSome_findService?_of_names h) (pendingServices_of_names h)

theorem missing_of_names : d.missing = d'.missing := by
  rw [missing, missing, Reference.reports, Reference.reports, Reference.reports, Reference.reports,
    unresolvedTypes_of_names h, unresolvedServices_of_names h]

end Agreement

theorem sameNames_of_names (h : (declareEach {} ds).names = (declareEach {} ds').names)
    (ha : Accepts {} ds) (ha' : Accepts {} ds') :
    (finishedModel ds).SameNames (finishedModel ds') where
  types := isSome_findType?_of_names h
  services := isSome_findService?_of_names h
  lists := isSome_findList?_of_names h
  unresolvedTypes n := by
    rw [mem_unresolvedTypes_iff_pending ha, mem_unresolvedTypes_iff_pending ha',
      unresolvedTypes_of_names h]
  unresolvedServices n := by
    rw [mem_unresolvedServices_iff_pending ha, mem_unresolvedServices_iff_pending ha',
      unresolvedServices_of_names h]

theorem isDuplicate_missing {x : Diagnostic} (hx : x ∈ d.missing) :
    x.isDuplicate = false := by
  rcases List.mem_append.mp hx with hx | hx
  · rw [Diagnostic.isDuplicate, kind_reports (fun _ => rfl) x hx]
    rfl
  · rw [Diagnostic.isDuplicate, kind_reports (fun _ => rfl) x hx]
    rfl

/-- Names that are taken, see `isDuplicate`, are reported before names that nothing has. -/
theorem filter_diagnostics (ds : List Declaration) :
    (declareEach {} ds).fixup.diagnostics.filter (!·.isDuplicate) =
      (declareEach {} ds).diagnostics.filter (!·.isDuplicate) ++ (declareEach {} ds).missing ∧
    (declareEach {} ds).fixup.diagnostics.filter (·.isDuplicate) =
      (declareEach {} ds).diagnostics.filter (·.isDuplicate) := by
  obtain ⟨hs, hb⟩ := sound_declareEach ds
  have hall : (declareEach {} ds).missing.filter (!·.isDuplicate) = (declareEach {} ds).missing :=
    List.filter_eq_self.mpr fun x hx => by simp [isDuplicate_missing hx]
  have hnone : (declareEach {} ds).missing.filter (·.isDuplicate) = [] :=
    List.filter_eq_nil_iff.mpr fun x hx => by simp [isDuplicate_missing hx]
  rw [fixup_diagnostics hs hb, List.append_assoc, ← missing, List.filter_append,
    List.filter_append, hall, hnone, List.append_nil]
  exact ⟨rfl, rfl⟩

end Draft

/-! ## Without repeats -/

theorem documents_withoutRepeats (ds : List Declaration) :
    (withoutRepeats ds).filterMap Declaration.document? = ds.filterMap Declaration.document? := by
  induction ds using List.reverseRecOn with
  | nil => rfl
  | append_singleton ds decl ih =>
    cases h : decl.isRepeat ds with
    | true =>
      rw [withoutRepeats_concat_repeat h, ih, List.filterMap_append]
      cases decl with
      | type | service => exact (List.append_nil _).symm
      | document => cases h
    | false => rw [withoutRepeats_concat_new h, List.filterMap_append, List.filterMap_append, ih]

section Repeats

variable {ds : List Declaration}

/-- Two models of `withoutRepeats ds` have the same contents. -/
theorem twins_of_portrays {R : TypeDecl → TypeDecl → Prop} (hrefl : ∀ t, R t t)
    (hR : ∀ t t', R t t' → t.Alike t') {m m' : Model} (hp : m.Portrays (withoutRepeats ds))
    (hp' : m'.Portrays (withoutRepeats ds)) : m.Twins R m' := by
  have hc : Corresponds R (withoutRepeats ds) (withoutRepeats ds) :=
    ⟨fun x hx => ⟨x, hx, .refl hrefl x⟩, fun y hy => ⟨y, hy, .refl hrefl y⟩⟩
  have htypes := nodup_withoutRepeats Declaration.typeName?_eq_some_iff ds
  have hservices := nodup_withoutRepeats Declaration.serviceName?_eq_some_iff ds
  exact hc.twins hR hp hp' (hp'.records_of_isEffective htypes hservices)

variable (ha : Draft.Accepts {} ds)

include ha

theorem portrays_withoutRepeats : (finishedModel ds).Portrays (withoutRepeats ds) ∧
    (finishedModel (withoutRepeats ds)).Portrays (withoutRepeats ds) :=
  ⟨(Draft.carriedOut_withoutRepeats ha).portrays,
    Draft.portrays_finishedModel (Draft.names_withoutRepeats ha).1⟩

/-- What can be reached in one of the models, that of `ds` or of `withoutRepeats ds`, can be reached
in the other. -/
theorem reflects_withoutRepeats :
    (finishedModel ds).Reflects (finishedModel (withoutRepeats ds)) ∧
      (finishedModel (withoutRepeats ds)).Reflects (finishedModel ds) := by
  obtain ⟨ha', hnames⟩ := Draft.names_withoutRepeats ha
  obtain ⟨hp, hp'⟩ := portrays_withoutRepeats ha
  exact ⟨reflects_of_sameNames ha ha' (Draft.sameNames_of_names hnames ha ha')
      (twins_of_portrays (fun _ => rfl) TypeDecl.alike_of_eq hp hp'),
    reflects_of_sameNames ha' ha (Draft.sameNames_of_names hnames.symm ha' ha)
      (twins_of_portrays (fun _ => rfl) TypeDecl.alike_of_eq hp' hp)⟩

/-- For `withoutRepeats ds` alone the same root, members of modules and reports are accounted
for. -/
theorem accounts_withoutRepeats :
    Draft.Accounts (withoutRepeats ds) [] (Draft.declareEach {} (withoutRepeats ds)) := by
  have h := Draft.accounts_declareEach (Draft.names_withoutRepeats ha).1
  rwa [(withoutRepeats_idem ds).1, (withoutRepeats_idem ds).2] at h

theorem restates_withoutRepeats : (finishedModel ds).Restates
    ((finishedModel ds).renumbering (finishedModel (withoutRepeats ds)))
    (finishedModel (withoutRepeats ds)) := by
  obtain ⟨ha', hnames⟩ := Draft.names_withoutRepeats ha
  have hn := Draft.sameNames_of_names hnames ha ha'
  obtain ⟨h, h'⟩ := reflects_withoutRepeats ha
  have hc := Draft.accounts_declareEach ha
  have hc' := accounts_withoutRepeats ha
  have htypes : ∀ n, (finishedModel (withoutRepeats ds)).listed Module.types n = _ := fun n =>
    eq_map_of_forall₂ (forall₂_join (hc.types n) (hc'.types n) fun _ _ _ => h.eq_type)
  have hservices : ∀ n, (finishedModel (withoutRepeats ds)).listed Module.services n = _ :=
    fun n => eq_map_of_forall₂ (forall₂_join (hc.services n) (hc'.services n)
      fun _ _ _ => h.eq_service)
  exact
    { typeIds := h.typeIds h'
      serviceIds := h.serviceIds h'
      moduleIds := h.inhabitedModules htypes hservices h'
      findType? := h.findType?
      findService? := h.findService?
      findList? := h.findList?
      type? := fun _ => h.type?
      service? := fun _ => h.service?
      module? := h.inhabited_module? htypes hservices
      findModule? := h.inhabited_findModule? htypes hservices
      root := eq_map_of_optionRel (optionRel_join hc.root hc'.root fun _ _ _ => h.eq_service)
      documents := by
        show (Draft.declareEach {} (withoutRepeats ds)).model.documents =
          (Draft.declareEach {} ds).model.documents
        rw [Draft.documents_declareEach, Draft.documents_declareEach, documents_withoutRepeats]
      unresolvedTypes := NameSet.toList_eq fun n => (hn.unresolvedTypes n).symm
      unresolvedServices := NameSet.toList_eq fun n => (hn.unresolvedServices n).symm }

/-- Repeats are reported, one by one, and nothing else is reported in a different way than for
`withoutRepeats ds`. -/
theorem diagnostics_withoutRepeats :
    (Draft.declareEach {} ds).fixup.diagnostics.filter (!·.isDuplicate) =
      (Draft.declareEach {} (withoutRepeats ds)).fixup.diagnostics ∧
    List.Forall₂ Diagnostic.ReportsRepeat
      ((Draft.declareEach {} ds).fixup.diagnostics.filter (·.isDuplicate)) (repeats ds) := by
  have hc := Draft.accounts_declareEach ha
  have hc' := accounts_withoutRepeats ha
  obtain ⟨hkept, hrepeats⟩ := Draft.filter_diagnostics ds
  obtain ⟨hkept', hrepeats'⟩ := Draft.filter_diagnostics (withoutRepeats ds)
  -- Where nothing repeats there is nothing to leave out.
  have hself : (Draft.declareEach {} (withoutRepeats ds)).fixup.diagnostics.filter
      (!·.isDuplicate) = (Draft.declareEach {} (withoutRepeats ds)).fixup.diagnostics := by
    have hnone := hrepeats'.trans (List.forall₂_nil_right_iff.mp hc'.duplicates)
    refine List.filter_eq_self.mpr fun x hx => ?_
    rw [Bool.not_eq_true', ← Bool.not_eq_true]
    exact List.filter_eq_nil_iff.mp hnone x hx
  constructor
  · rw [← hself, hkept, hkept', hc.roots, hc'.roots,
      Draft.missing_of_names (Draft.names_withoutRepeats ha).2]
  · rw [hrepeats]
    exact hc.duplicates

end Repeats

/-- Declarations whose names are taken can be left out, by `withoutRepeats`. The analysis of the
others succeeds as well, with the same model up to numbers and modules without members (`Restates`),
and the same reports apart from one for each declaration that is left out. What is compiled is the
same schema, or fails for the same reason. -/
theorem repeats_make_no_difference {ds : List Declaration} {a : Analysis}
    (h : analyze ds = .ok a) : ∃ a' ρ, analyze (withoutRepeats ds) = .ok a' ∧
      a.model.Restates ρ a'.model ∧
      a.diagnostics.filter (!·.isDuplicate) = a'.diagnostics ∧
      List.Forall₂ Diagnostic.ReportsRepeat (a.diagnostics.filter (·.isDuplicate)) (repeats ds) ∧
      ∀ base, (compile ds base).map (·.schema) =
        (compile (withoutRepeats ds) base).map (·.schema) := by
  obtain ⟨ha, hcycle, rfl⟩ := analyze_eq_ok.mp h
  obtain ⟨hp, hp'⟩ := portrays_withoutRepeats ha
  have htwins := twins_of_portrays .refl (fun _ _ => id) hp hp'
  obtain ⟨hreports, hrepeats⟩ := diagnostics_withoutRepeats ha
  have h' := analyze_eq_ok.mpr ⟨(Draft.names_withoutRepeats ha).1,
    htwins.inheritanceCycle?.symm.trans hcycle, rfl⟩
  refine ⟨_, _, h', restates_withoutRepeats ha, hreports, hrepeats, fun base => ?_⟩
  rw [compile_eq, compile_eq, h, h']
  simp only [Schema.generate_eq htwins {} hcycle base]
  rcases Schema.generate {} (finishedModel (withoutRepeats ds)) base with e | g <;> rfl

/-- A second struct in a module of its own, an enumeration with the name of a primitive and a second
root that is one in name only, between declarations that refer to each other and to what nothing
declares. -/
def disksDeclaredTwice : List Declaration := [
  .service {
    name := "SystemService"
    space := "services"
    isRoot := true
    locators := [{ name := "disks", service := "DisksService" }] },
  .type { name := "Disk", space := "types", body := .struct (.class "Identified") [
    { name := "copies", type := { name := "Disk", isArray := true }, kind := .link },
    { name := "status", type := { name := "DiskStatus" } }] },
  .type { name := "disk", space := "drafts", body := .struct (.class "Storage") [
    { name := "snapshots", type := { name := "Snapshot", isArray := true } }] },
  .document { file := "disks.adoc", source := "= Disks" },
  .type { name := "String", space := "types", body := .enum [{ name := "EMPTY" }] },
  .service {
    name := "DisksService"
    space := "services"
    isRoot := true
    methods := [{ name := "add", parameters := [{ name := "disk", type := { name := "Disk" } }] }]
    locators := [{ name := "disk", service := "DiskService" }] },
  .service {
    name := "SystemService"
    space := "services"
    isRoot := true
    locators := [{ name := "hosts", service := "HostsService" }] },
  .type { name := "DiskStatus", space := "types", body := .enum [
    { name := "OK" }, { name := "LOCKED" }] }]

theorem repeats_make_no_difference_disks : ∃ a a' ρ,
    analyze disksDeclaredTwice = .ok a ∧ analyze (withoutRepeats disksDeclaredTwice) = .ok a' ∧
      a.model.findType? (Name.ofCase "DiskStatus") ≠
        a'.model.findType? (Name.ofCase "DiskStatus") ∧
      (repeats disksDeclaredTwice).length = 3 ∧ a.model.Restates ρ a'.model ∧
      a.diagnostics.filter (!·.isDuplicate) = a'.diagnostics ∧
      List.Forall₂ Diagnostic.ReportsRepeat (a.diagnostics.filter (·.isDuplicate))
        (repeats disksDeclaredTwice) ∧
      ∀ base, (compile disksDeclaredTwice base).map (·.schema) =
        (compile (withoutRepeats disksDeclaredTwice) base).map (·.schema) := by
  have hstatus : (analyze disksDeclaredTwice).toOption.map
      (·.model.findType? (Name.ofCase "DiskStatus")) = some (some ⟨12⟩) := by
    decide +kernel
  have hstatus' : (analyze (withoutRepeats disksDeclaredTwice)).toOption.map
      (·.model.findType? (Name.ofCase "DiskStatus")) = some (some ⟨10⟩) := by
    decide +kernel
  obtain ⟨a, ha, hs⟩ := Option.map_eq_some_iff.mp hstatus
  have hok := eq_ok_of_toOption ha
  obtain ⟨a', ρ, hok', hrestates, hreports, hrepeats, hschema⟩ := repeats_make_no_difference hok
  refine ⟨a, a', ρ, hok, hok', ?_, by decide +kernel, hrestates, hreports, hrepeats, hschema⟩
  rw [hok'] at hstatus'
  have hs' : a'.model.findType? (Name.ofCase "DiskStatus") = some ⟨10⟩ := Option.some.inj hstatus'
  rw [hs, hs']
  decide

end ApiModel
