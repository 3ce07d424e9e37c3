import ApiModel.Proofs.Lockstep
import ApiModel.Proofs.Reordering

/-!
# Repeated declarations

A declaration repeats if its name is that of a primitive, or of an earlier
declaration of its kind. Carried out, it is reported and leaves no more behind
than an entity without a name and possibly a module without members. What
matters of a draft is what the other declarations say: they alone are recorded,
listed in modules and elected, and running them alone goes the same way.
-/

namespace ApiModel

/-! ## Which declarations repeat -/

/-- The name is that of a primitive, or of an `earlier` declaration. -/
def Declaration.isRepeat (earlier : List Declaration) : Declaration → Bool
  | .type t => (Name.ofCase t.name).isPrimitive ||
    earlier.any (·.typeName? = some (Name.ofCase t.name))
  | .service t => earlier.any (·.serviceName? = some (serviceName t.name))
  | .document _ => false

/-- After the `earlier` ones, the declarations that repeat or those that don't, as `repeated`
says. -/
def selectFrom (repeated : Bool) (earlier : List Declaration) :
    List Declaration → List Declaration
  | [] => []
  | decl :: ds =>
    (if decl.isRepeat earlier = repeated then [decl] else []) ++
      selectFrom repeated (earlier ++ [decl]) ds

/-- The declarations of `ds` that repeat. -/
def repeats (ds : List Declaration) : List Declaration :=
  selectFrom true [] ds

/-- The declarations of `ds` without those that repeat. -/
def withoutRepeats (ds : List Declaration) : List Declaration :=
  selectFrom false [] ds

section Select

variable {ds : List Declaration} {decl : Declaration}

theorem selectFrom_concat (repeated : Bool) (earlier ds : List Declaration) (decl : Declaration) :
    selectFrom repeated earlier (ds ++ [decl]) = selectFrom repeated earlier ds ++
      if decl.isRepeat (earlier ++ ds) = repeated then [decl] else [] := by
  induction ds generalizing earlier with
  | nil => simp [selectFrom]
  | cons x ds ih =>
    rw [List.cons_append, selectFrom, selectFrom, ih]
    simp

theorem repeats_concat (ds : List Declaration) (decl : Declaration) :
    repeats (ds ++ [decl]) = repeats ds ++ if decl.isRepeat ds then [decl] else [] :=
  selectFrom_concat true [] ds decl

theorem withoutRepeats_concat_repeat (h : decl.isRepeat ds = true) :
    withoutRepeats (ds ++ [decl]) = withoutRepeats ds := by
  rw [withoutRepeats, selectFrom_concat, List.nil_append, h]
  exact List.append_nil _

theorem withoutRepeats_concat_new (h : decl.isRepeat ds = false) :
    withoutRepeats (ds ++ [decl]) = withoutRepeats ds ++ [decl] := by
  rw [withoutRepeats, selectFrom_concat, List.nil_append, h]
  rfl

theorem withoutRepeats_sublist (ds : List Declaration) : (withoutRepeats ds).Sublist ds := by
  induction ds using List.reverseRecOn with
  | nil => exact .slnil
  | append_singleton ds decl ih =>
    cases h : decl.isRepeat ds with
    | true =>
      rw [withoutRepeats_concat_repeat h]
      exact ih.trans (List.sublist_append_left ds [decl])
    | false =>
      rw [withoutRepeats_concat_new h]
      exact ih.append (.refl [decl])

end Select

/-! ## Names with their kinds -/

namespace Declaration

/-- What is declared, as a type or a service. -/
def key? : Declaration → Option (EntityKind × Name)
  | .type t => some (.type, Name.ofCase t.name)
  | .service t => some (.service, serviceName t.name)
  | .document _ => none

variable {decl : Declaration} {n : Name}

theorem typeName?_eq_some_iff : decl.typeName? = some n ↔ decl.key? = some (.type, n) := by
  cases decl <;> simp [typeName?, key?]

theorem serviceName?_eq_some_iff : decl.serviceName? = some n ↔ decl.key? = some (.service, n) := by
  cases decl <;> simp [serviceName?, key?]

end Declaration

/-- The name of a primitive, as that of a type. -/
def IsReserved (k : EntityKind × Name) : Prop :=
  k.1 = .type ∧ k.2.isPrimitive = true

section Keys

variable {ds : List Declaration} {decl : Declaration} {k : EntityKind × Name}

theorem isRepeat_iff (hk : decl.key? = some k) :
    decl.isRepeat ds = true ↔ IsReserved k ∨ ∃ x ∈ ds, x.key? = some k := by
  cases decl with
  | type t =>
    obtain rfl := Option.some.inj hk
    simp [Declaration.isRepeat, IsReserved, Declaration.typeName?_eq_some_iff]
  | service t =>
    obtain rfl := Option.some.inj hk
    simp [Declaration.isRepeat, IsReserved, Declaration.serviceName?_eq_some_iff]
  | document => cases hk

theorem isRepeat_of_key?_none (hk : decl.key? = none) : decl.isRepeat ds = false := by
  cases decl with
  | type | service => cases hk
  | document => rfl

/-- `withoutRepeats` loses no name, except for names of primitives. -/
theorem exists_key_withoutRepeats (hk : ¬IsReserved k) :
    (∃ x ∈ withoutRepeats ds, x.key? = some k) ↔ ∃ x ∈ ds, x.key? = some k := by
  refine ⟨fun ⟨x, hx, hxk⟩ => ⟨x, (withoutRepeats_sublist ds).subset hx, hxk⟩, ?_⟩
  induction ds using List.reverseRecOn with
  | nil => exact id
  | append_singleton ds decl ih =>
    rintro ⟨x, hx, hxk⟩
    cases hdecl : decl.isRepeat ds with
    | true =>
      rw [withoutRepeats_concat_repeat hdecl]
      rcases List.mem_append.mp hx with hx | hx
      · exact ih ⟨x, hx, hxk⟩
      · obtain rfl := List.mem_singleton.mp hx
        exact ih (((isRepeat_iff hxk).mp hdecl).resolve_left hk)
    | false =>
      rw [withoutRepeats_concat_new hdecl]
      rcases List.mem_append.mp hx with hx | hx
      · obtain ⟨y, hy, hyk⟩ := ih ⟨x, hx, hxk⟩
        exact ⟨y, List.mem_append_left _ hy, hyk⟩
      · exact ⟨x, List.mem_append_right _ hx, hxk⟩

/-- What repeats after `ds` repeats after `withoutRepeats ds`. -/
theorem isRepeat_withoutRepeats : decl.isRepeat (withoutRepeats ds) = decl.isRepeat ds := by
  rcases hk : decl.key? with _ | k
  · rw [isRepeat_of_key?_none hk, isRepeat_of_key?_none hk]
  · rw [Bool.eq_iff_iff, isRepeat_iff hk, isRepeat_iff hk]
    by_cases hr : IsReserved k
    · exact iff_of_true (.inl hr) (.inl hr)
    · rw [exists_key_withoutRepeats hr]

/-- Leaving repeats out once is enough: `withoutRepeats` is idempotent. -/
theorem withoutRepeats_idem (ds : List Declaration) :
    withoutRepeats (withoutRepeats ds) = withoutRepeats ds ∧ repeats (withoutRepeats ds) = [] := by
  induction ds using List.reverseRecOn with
  | nil => exact ⟨rfl, rfl⟩
  | append_singleton ds decl ih =>
    cases h : decl.isRepeat ds with
    | true =>
      rw [withoutRepeats_concat_repeat h]
      exact ih
    | false =>
      have h' := isRepeat_withoutRepeats.trans h
      rw [withoutRepeats_concat_new h, withoutRepeats_concat_new h', repeats_concat, ih.1, ih.2, h']
      exact ⟨rfl, rfl⟩

/-- No two declarations of one `kind` that are left have the same name. -/
theorem nodup_withoutRepeats {name? : Declaration → Option Name} {kind : EntityKind}
    (hname : ∀ {decl n}, name? decl = some n ↔ decl.key? = some (kind, n))
    (ds : List Declaration) : ((withoutRepeats ds).filterMap name?).Nodup := by
  induction ds using List.reverseRecOn with
  | nil => exact List.nodup_nil
  | append_singleton ds decl ih =>
    cases h : decl.isRepeat ds with
    | true => rwa [withoutRepeats_concat_repeat h]
    | false =>
      rw [withoutRepeats_concat_new h, nodup_filterMap_concat]
      refine ⟨ih, fun n hn x hx hxn => ?_⟩
      have hrepeat : decl.isRepeat (withoutRepeats ds) = true :=
        (isRepeat_iff (hname.mp hn)).mpr (.inr ⟨x, hx, hname.mp hxn⟩)
      rw [isRepeat_withoutRepeats, h] at hrepeat
      cases hrepeat

end Keys

/-! ## What becomes of a repeat -/

/-- The entity is registered in `m` under that name. -/
def Model.Knows (m : Model) : EntityKind × Name → Prop
  | (.type, n) => (m.findType? n).isSome
  | (.service, n) => (m.findService? n).isSome

/-- The diagnostic `x` reports that the name of the declaration is taken. -/
def Diagnostic.ReportsRepeat (x : Diagnostic) : Declaration → Prop
  | .type t => x = ⟨.warning, .duplicateType,
      s!"duplicate type definition: '{(Name.ofCase t.name).display}'"⟩
  | .service t => x = ⟨.warning, .duplicateService,
      s!"duplicate service definition: '{(serviceName t.name).display}'"⟩
  | .document _ => False

namespace Draft

variable {d d' : Draft} {ds : List Declaration} {decl : Declaration}

/-- The report `x` is all that counts of what is new in `d'`. -/
structure Discards (d : Draft) (x : Diagnostic) (d' : Draft) : Prop where
  grows : d.model.Grows ∅ d'.model
  typeIndex : d'.model.typeIndex = d.model.typeIndex
  serviceIndex : d'.model.serviceIndex = d.model.serviceIndex
  listTypes : d'.model.listTypes = d.model.listTypes
  pendingTypes : d'.pendingTypes = d.pendingTypes
  pendingServices : d'.pendingServices = d.pendingServices
  types : ∀ n, d'.model.listed Module.types n = d.model.listed Module.types n
  services : ∀ n, d'.model.listed Module.services n = d.model.listed Module.services n
  root : d'.model.root = d.model.root
  diagnostics : d'.diagnostics = d.diagnostics ++ [x]

theorem discards_placeType (hi : d.model.Indexed) (space : String) (t : DataType)
    (x : Diagnostic) : d.Discards x ((d.placeType space t).report x) where
  grows := grows_placeType d space t
  typeIndex := by simp only [report, placeType, Model.typeIndex_house]
  serviceIndex := by simp only [report, placeType, Model.serviceIndex_house]
  listTypes := by simp only [report, placeType, Model.listTypes_house]
  pendingTypes := by simp only [report, placeType]
  pendingServices := by simp only [report, placeType]
  types n := listed_placeType hi (fun _ => rfl) space n t
  services n := listed_placeType hi (fun _ => rfl) space n t
  root := (joins_placeType d space t).root
  diagnostics := by simp only [report, placeType]

theorem discards_placeService (hi : d.model.Indexed) (space : String) (s : DefinedService)
    (x : Diagnostic) : d.Discards x ((d.placeService space s).report x) where
  grows := grows_placeService d space s
  typeIndex := by simp only [report, placeService, Model.typeIndex_house]
  serviceIndex := by simp only [report, placeService, Model.serviceIndex_house]
  listTypes := by simp only [report, placeService, Model.listTypes_house]
  pendingTypes := by simp only [report, placeService]
  pendingServices := by simp only [report, placeService]
  types n := listed_placeService hi (fun _ => rfl) space n s
  services n := listed_placeService hi (fun _ => rfl) space n s
  root := (joins_placeService d space s).root
  diagnostics := by simp only [report, placeService]

/-- A declaration whose name is taken is discarded: the draft `Discards` it. -/
theorem Outcome.discards (h : d.Outcome decl true d') (hi : d.model.Indexed)
    {k : EntityKind × Name} (hk : decl.key? = some k) (hknown : d.model.Knows k) :
    ∃ x : Diagnostic, x.ReportsRepeat decl ∧ d.Discards x d' := by
  cases h with
  | @takenType t x =>
    exact ⟨(RegistryError.duplicateType (Name.ofCase t.name)).diagnostic, rfl,
      discards_placeType hi t.space x _⟩
  | @takenService t s =>
    exact ⟨(RegistryError.duplicateService (serviceName t.name)).diagnostic, rfl,
      discards_placeService hi t.space s _⟩
  | addedType _ _ hfree =>
    obtain rfl := Option.some.inj hk
    rw [Model.Knows, hfree] at hknown
    cases hknown
  | addedService _ _ hfree =>
    obtain rfl := Option.some.inj hk
    rw [Model.Knows, hfree] at hknown
    cases hknown
  | document => cases hk

theorem Discards.names {x : Diagnostic} (h : d.Discards x d') : d'.names = d.names := by
  simp only [Draft.names, Model.findType?, Model.findService?, Model.findList?, h.typeIndex,
    h.serviceIndex, h.listTypes, h.pendingTypes, h.pendingServices]

/-- What has been `CarriedOut` is no less so. -/
theorem Discards.carriedOut {x : Diagnostic} (h : d.Discards x d') (hc : CarriedOut ds d) :
    CarriedOut ds d' := by
  have hfindType : ∀ n, d'.model.findType? n = d.model.findType? n := fun n => by
    rw [Model.findType?, h.typeIndex]
    rfl
  have hfindService : ∀ n, d'.model.findService? n = d.model.findService? n := fun n => by
    rw [Model.findService?, h.serviceIndex]
    rfl
  have hfindList : ∀ n, d'.model.findList? n = d.model.findList? n := fun n => by
    rw [Model.findList?, h.listTypes]
    rfl
  exact
    { types := fun hid => by
        refine (hc.types ((hfindType _).symm.trans hid)).imp_right fun hdeclared => ?_
        obtain ⟨y, hy, hn, hr⟩ := hdeclared
        exact ⟨y, hy, hn, hr.grows h.grows⟩
      typeNames := fun hy hn => by
        rw [hfindType]
        exact hc.typeNames hy hn
      services := fun hid => by
        obtain ⟨y, hy, hn, hr⟩ := hc.services ((hfindService _).symm.trans hid)
        exact ⟨y, hy, hn, hr.grows h.grows⟩
      serviceNames := fun hy hn => by
        rw [hfindService]
        exact hc.serviceNames hy hn
      lists := fun hl => by
        obtain ⟨y, hy, hr, hq⟩ := hc.lists ((hfindList _).symm.trans hl)
        exact ⟨y, hy, hr.grows h.grows, hq⟩
      pendingTypes := fun hp => by
        rw [h.pendingTypes] at hp
        obtain ⟨y, hy, hr, hq⟩ := hc.pendingTypes hp
        exact ⟨y, hy, hr.grows h.grows, hq⟩
      pendingServices := fun hp => by
        rw [h.pendingServices] at hp
        obtain ⟨y, hy, hr, hq⟩ := hc.pendingServices hp
        exact ⟨y, hy, hr.grows h.grows, hq⟩ }

/-- By `isRepeat`, a declaration repeats exactly if its name is taken when its turn comes. -/
theorem isRepeat_iff_knows (ha : Accepts {} ds) {k : EntityKind × Name}
    (hk : decl.key? = some k) :
    decl.isRepeat ds = true ↔ (declareEach {} ds).model.Knows k := by
  have hp := portrays_finishedModel ha
  rw [isRepeat_iff hk]
  obtain ⟨_ | _, n⟩ := k
  · have hfind : ((declareEach {} ds).model.findType? n).isSome ↔ _ := hp.isSome_findType?
    rw [Model.Knows, hfind]
    simp [IsReserved, Declaration.typeName?_eq_some_iff]
  · have hfind : ((declareEach {} ds).model.findService? n).isSome ↔ _ := hp.isSome_findService?
    rw [Model.Knows, hfind]
    simp [IsReserved, Declaration.serviceName?_eq_some_iff]

/-! ## Leaving repeats out -/

/-- One more declaration `decl` that is carried out: it is discarded, or it has a new name. -/
theorem repeat_cases (ha : Accepts {} (ds ++ [decl])) :
    (decl.isRepeat ds = true ∧ ∃ x : Diagnostic, x.ReportsRepeat decl ∧
      (declareEach {} ds).Discards x (declareEach {} (ds ++ [decl]))) ∨
    decl.isRepeat ds = false ∧
      ∀ k, decl.key? = some k → ¬(declareEach {} ds).model.Knows k := by
  obtain ⟨hds, hok⟩ := accepts_concat.mp ha
  have ho := outcome_declareEach ds decl
  rw [hok] at ho
  cases h : decl.isRepeat ds with
  | true =>
    refine .inl ⟨rfl, ?_⟩
    rcases hk : decl.key? with _ | k
    · rw [isRepeat_of_key?_none hk] at h
      cases h
    · exact ho.discards (sound_declareEach ds).1.indexed hk ((isRepeat_iff_knows hds hk).mp h)
  | false =>
    refine .inr ⟨rfl, fun k hk hknown => ?_⟩
    rw [(isRepeat_iff_knows hds hk).mpr hknown] at h
    cases h

/-- Only `withoutRepeats ds` is recorded. -/
theorem carriedOut_withoutRepeats (ha : Accepts {} ds) :
    CarriedOut (withoutRepeats ds) (declareEach {} ds) := by
  induction ds using List.reverseRecOn with
  | nil => exact carriedOut_nil
  | append_singleton ds decl ih =>
    obtain ⟨hds, hok⟩ := accepts_concat.mp ha
    rcases repeat_cases ha with ⟨h, x, -, hd⟩ | ⟨h, -⟩
    · rw [withoutRepeats_concat_repeat h]
      exact hd.carriedOut (ih hds)
    · have ho := outcome_declareEach ds decl
      have he := extends_declareEach ds decl
      rw [hok] at ho he
      rw [withoutRepeats_concat_new h]
      exact (ih hds).concat ho he

/-- Without repeats everything is carried out as well, and the drafts agree in `names`. -/
theorem names_withoutRepeats (ha : Accepts {} ds) : Accepts {} (withoutRepeats ds) ∧
    (declareEach {} ds).names = (declareEach {} (withoutRepeats ds)).names := by
  induction ds using List.reverseRecOn with
  | nil => exact ⟨accepts_nil, rfl⟩
  | append_singleton ds decl ih =>
    obtain ⟨hds, hok⟩ := accepts_concat.mp ha
    obtain ⟨hes, hnames⟩ := ih hds
    rcases repeat_cases ha with ⟨h, x, -, hd⟩ | ⟨h, hnew⟩
    · rw [withoutRepeats_concat_repeat h, hd.names]
      exact ⟨hes, hnames⟩
    · obtain ⟨hs, hb⟩ := sound_declareEach ds
      obtain ⟨hok', hnames'⟩ := names_declare hs hb hnames
        (fun n hn => Option.not_isSome_iff_eq_none.mp
          (hnew (.type, n) (Declaration.typeName?_eq_some_iff.mp hn)))
        (fun n hn => Option.not_isSome_iff_eq_none.mp
          (hnew (.service, n) (Declaration.serviceName?_eq_some_iff.mp hn))) hok
      rw [withoutRepeats_concat_new h, accepts_concat, declareEach_concat, declareEach_concat]
      exact ⟨⟨hes, hok'⟩, hnames'⟩

end Draft

/-! ## Roots, members of modules and reports -/

/-- The names of the services in `ds` that are declared as roots. -/
def rootNames (ds : List Declaration) : List Name :=
  ds.filterMap fun decl => if decl.isRoot then decl.serviceName? else none

/-- Each root in `names` after the first takes the place of the one before. -/
def rootReports (names : List Name) : List Diagnostic :=
  List.zipWith .rootReplaced names names.tail

/-- The names that are declared in the module `n`. -/
def declaredIn (name? : Declaration → Option Name) (n : Name) (ds : List Declaration) :
    List Name :=
  ds.filterMap fun decl => if decl.moduleName? = some n then name? decl else none

/-- The diagnostic `x` reports a name that is taken. -/
def Diagnostic.isDuplicate (x : Diagnostic) : Bool :=
  x.kind = .duplicateType || x.kind = .duplicateService

theorem Diagnostic.ReportsRepeat.isDuplicate {x : Diagnostic} {decl : Declaration}
    (h : x.ReportsRepeat decl) : x.isDuplicate = true := by
  cases decl with
  | type t =>
    obtain rfl : x = _ := h
    rfl
  | service t =>
    obtain rfl : x = _ := h
    rfl
  | document => exact h.elim

theorem rootNames_concat (ds : List Declaration) (decl : Declaration) :
    rootNames (ds ++ [decl]) =
      rootNames ds ++ (if decl.isRoot then decl.serviceName? else none).toList := by
  rw [rootNames, List.filterMap_append, ← rootNames, List.filterMap_cons, List.filterMap_nil]
  rcases (if decl.isRoot then decl.serviceName? else none) with _ | n <;> rfl

theorem rootReports_concat (names : List Name) (n : Name) : rootReports (names ++ [n]) =
    rootReports names ++ names.getLast?.toList.map (.rootReplaced · n) := by
  induction names with
  | nil => rfl
  | cons x names ih =>
    cases names with
    | nil => rfl
    | cons y names =>
      have hcons : ∀ zs, rootReports (x :: y :: zs) = .rootReplaced x y :: rootReports (y :: zs) :=
        fun _ => rfl
      rw [List.cons_append, List.cons_append, hcons, ← List.cons_append, ih, hcons,
        List.getLast?_cons_cons, List.cons_append]

theorem declaredIn_concat (name? : Declaration → Option Name) (n : Name) (ds : List Declaration)
    (decl : Declaration) : declaredIn name? n (ds ++ [decl]) = declaredIn name? n ds ++
      if decl.moduleName? = some n then (name? decl).toList else [] := by
  rw [declaredIn, List.filterMap_append]
  congr 1
  by_cases h : decl.moduleName? = some n
  · rw [if_pos h, List.filterMap_cons, if_pos h]
    cases name? decl <;> rfl
  · rw [if_neg h, List.filterMap_cons, if_neg h]
    rfl

theorem forall₂_ite {α β : Type} {R : α → β → Prop} {a : α} {b : β} (h : R a b) {p : Prop}
    [Decidable p] : List.Forall₂ R (if p then [a] else []) (if p then [b] else []) := by
  by_cases hp : p
  · rw [if_pos hp, if_pos hp]
    exact .cons h .nil
  · rw [if_neg hp, if_neg hp]
    exact .nil

namespace Draft

variable {d d' : Draft} {ds es rs : List Declaration} {decl : Declaration}

/-- `es` have been made, with `rs` discarded: the last root is the root, modules list their
declarations, and each root that was replaced and each repeat has been reported, in order. -/
structure Accounts (es rs : List Declaration) (d : Draft) : Prop where
  root : Option.Rel (fun id n => d.model.findService? n = some id) d.model.root
    (rootNames es).getLast?
  types : ∀ n, List.Forall₂ (fun id x => d.model.findType? x = some id)
    (d.model.listed Module.types n) (declaredIn Declaration.typeName? n es)
  services : ∀ n, List.Forall₂ (fun id x => d.model.findService? x = some id)
    (d.model.listed Module.services n) (declaredIn Declaration.serviceName? n es)
  roots : d.diagnostics.filter (!·.isDuplicate) = rootReports (rootNames es)
  duplicates : List.Forall₂ Diagnostic.ReportsRepeat (d.diagnostics.filter (·.isDuplicate)) rs

theorem accounts_nil : Accounts [] [] {} := by
  have hlisted : ∀ {ι : Type} (f : Module → List ι) (n : Name), Model.initial.listed f n = [] := by
    intro ι f n
    rw [Model.listed, Model.findModule?, Model.initial_eq]
    simp
  refine ⟨.none, fun n => ?_, fun n => ?_, rfl, .nil⟩
  · rw [hlisted]
    exact .nil
  · rw [hlisted]
    exact .nil

theorem Accounts.discard (h : Accounts es rs d) {x : Diagnostic} (hx : x.ReportsRepeat decl)
    (hd : d.Discards x d') : Accounts es (rs ++ [decl]) d' where
  root := by
    rw [hd.root]
    exact optionRel_imp hd.grows.findService h.root
  types n := by
    rw [hd.types]
    exact (h.types n).imp fun _ _ => hd.grows.findType
  services n := by
    rw [hd.services]
    exact (h.services n).imp fun _ _ => hd.grows.findService
  roots := by
    rw [hd.diagnostics, List.filter_append, h.roots,
      List.filter_cons_of_neg (by simp [hx.isDuplicate])]
    exact List.append_nil _
  duplicates := by
    rw [hd.diagnostics, List.filter_append, List.filter_cons_of_pos hx.isDuplicate]
    exact List.rel_append h.duplicates (.cons hx .nil)

/-- `Accounts` after a declaration that is no root. -/
theorem Accounts.keep (h : Accounts es rs d) (hg : d.model.Grows ∅ d'.model)
    (hdecl : decl.isRoot = false) (hroot : d'.model.root = d.model.root)
    (hdiagnostics : d'.diagnostics = d.diagnostics)
    (htypes : ∀ n, List.Forall₂ (fun id x => d'.model.findType? x = some id)
      (d'.model.listed Module.types n) (declaredIn Declaration.typeName? n (es ++ [decl])))
    (hservices : ∀ n, List.Forall₂ (fun id x => d'.model.findService? x = some id)
      (d'.model.listed Module.services n) (declaredIn Declaration.serviceName? n (es ++ [decl]))) :
    Accounts (es ++ [decl]) rs d' := by
  have hnames : rootNames (es ++ [decl]) = rootNames es := by
    rw [rootNames_concat, hdecl]
    exact List.append_nil _
  refine ⟨?_, htypes, hservices, ?_, ?_⟩
  · rw [hroot, hnames]
    exact optionRel_imp hg.findService h.root
  · rw [hdiagnostics, hnames]
    exact h.roots
  · rw [hdiagnostics]
    exact h.duplicates

theorem Accounts.document (h : Accounts es rs d) {t : DocumentDecl}
    (ho : d.Outcome (.document t) true d') (hg : d.model.Grows ∅ d'.model) :
    Accounts (es ++ [.document t]) rs d' := by
  cases ho
  refine h.keep hg rfl rfl rfl (fun n => ?_) fun n => ?_
  · rw [declaredIn_concat, if_neg (by simp [Declaration.moduleName?]), List.append_nil]
    exact h.types n
  · rw [declaredIn_concat, if_neg (by simp [Declaration.moduleName?]), List.append_nil]
    exact h.services n

theorem Accounts.type (h : Accounts es rs d) {t : TypeDecl} (ho : d.Outcome (.type t) true d')
    (hi : d.model.Indexed) (hg : d.model.Grows ∅ d'.model)
    (hfree : d.model.findType? (Name.ofCase t.name) = none) :
    Accounts (es ++ [.type t]) rs d' := by
  have hroot := ho.root_type
  cases ho with
  | takenType _ _ _ htaken =>
    rw [hfree] at htaken
    cases htaken
  | addedType _ hx₀ _ hb =>
    have hfind : d'.model.findType? (Name.ofCase t.name) = some d.nextType := by
      rw [hb.findType?]
      exact (findType?_enterType t.space hfree).mpr (.inl ⟨rfl, rfl⟩)
    refine h.keep hg rfl hroot hb.diagnostics (fun n => ?_) fun n => ?_
    · rw [declaredIn_concat, hb.listed, listed_enterType hi hx₀.module]
      refine List.rel_append ((h.types n).imp fun _ _ => hg.findType) ?_
      exact forall₂_ite (R := fun id n => d'.model.findType? n = some id) hfind
    · rw [declaredIn_concat, hb.listed, services_listed_enterType hi hx₀.module]
      simp only [Declaration.serviceName?, Option.toList_none, ite_self, List.append_nil]
      exact (h.services n).imp fun _ _ => hg.findService

/-- By `replacements`, roots are reported by the names they are registered under. -/
theorem replacements_eq (hi : d.model.Indexed) {r : Option Name} {id : ServiceId} {n : Name}
    (hr : Option.Rel (fun id n => d.model.findService? n = some id) d.model.root r)
    (hn : d.model.findService? n = some id) :
    d.replacements id = r.toList.map (.rootReplaced · n) := by
  have hname : ∀ {id n}, d.model.findService? n = some id →
      ((d.model.service? id).map (·.name)).getD ⟨[]⟩ = n := by
    intro id n h
    obtain ⟨s, hs, hname⟩ := hi.service h
    rw [hs]
    exact hname
  unfold replacements
  generalize d.model.root = root at hr
  cases hr with
  | none => rfl
  | some hprevious =>
    simp only [Option.toList_some, List.map_cons, List.map_nil, hname hprevious, hname hn]

theorem isDuplicate_of_mem_replacements {id : ServiceId} {x : Diagnostic}
    (hx : x ∈ d.replacements id) : x.isDuplicate = false := by
  obtain ⟨previous, -, rfl⟩ := List.mem_map.mp hx
  rfl

/-- `Accounts` after a declaration that is a root, and the service `n`. -/
theorem Accounts.elect (h : Accounts es rs d) (hi : d'.model.Indexed)
    (hg : d.model.Grows ∅ d'.model) {n : Name} {id : ServiceId} (hdecl : decl.isRoot = true)
    (hn : decl.serviceName? = some n) (hfind : d'.model.findService? n = some id)
    (hroot : d'.model.root = d.model.root) (hdiagnostics : d'.diagnostics = d.diagnostics)
    (htypes : ∀ n, List.Forall₂ (fun id x => d'.model.findType? x = some id)
      (d'.model.listed Module.types n) (declaredIn Declaration.typeName? n (es ++ [decl])))
    (hservices : ∀ n, List.Forall₂ (fun id x => d'.model.findService? x = some id)
      (d'.model.listed Module.services n) (declaredIn Declaration.serviceName? n (es ++ [decl]))) :
    Accounts (es ++ [decl]) rs (d'.elect id) := by
  have hnames : rootNames (es ++ [decl]) = rootNames es ++ [n] := by
    rw [rootNames_concat, if_pos hdecl, hn]
    rfl
  have hreplaced : d'.replacements id =
      (rootNames es).getLast?.toList.map (.rootReplaced · n) :=
    replacements_eq hi (hroot ▸ optionRel_imp hg.findService h.root) hfind
  refine ⟨?_, htypes, hservices, ?_, ?_⟩
  · rw [hnames, List.getLast?_concat]
    exact .some hfind
  · show (d'.diagnostics ++ d'.replacements id).filter _ = _
    have hall : (d'.replacements id).filter (!·.isDuplicate) = d'.replacements id :=
      List.filter_eq_self.mpr fun x hx => by rw [isDuplicate_of_mem_replacements hx]; rfl
    rw [List.filter_append, hall, hdiagnostics, h.roots, hreplaced, hnames, rootReports_concat]
  · show List.Forall₂ _ ((d'.diagnostics ++ d'.replacements id).filter _) rs
    have hnone : (d'.replacements id).filter (·.isDuplicate) = [] :=
      List.filter_eq_nil_iff.mpr fun x hx => by simp [isDuplicate_of_mem_replacements hx]
    rw [List.filter_append, hnone, hdiagnostics, List.append_nil]
    exact h.duplicates

theorem Accounts.service (h : Accounts es rs d) {t : ServiceDecl}
    (ho : d.Outcome (.service t) true d') (hi : d.model.Indexed) (hg : d.model.Grows ∅ d'.model)
    (hfree : d.model.findService? (serviceName t.name) = none) :
    Accounts (es ++ [.service t]) rs d' := by
  cases ho with
  | takenService _ _ htaken =>
    rw [hfree] at htaken
    cases htaken
  | @addedService _ _ _ _ d₁ _ _ hx₀ _ hb hs₁ _ _ _ _ _ hd =>
    have hroot : d₁.model.root = d.model.root := ((joins_enterService d _ _).builds hb).root
    have hdiagnostics : d₁.diagnostics = d.diagnostics := hb.diagnostics
    have hfind : d₁.model.findService? (serviceName t.name) = some d.nextService := by
      rw [hb.findService?]
      exact (findService?_enterService t.space (hx₀.name.symm ▸ hfree)).mpr
        (.inl ⟨hx₀.name.symm, rfl⟩)
    -- Electing a root changes neither indexes nor modules.
    have hg₁ : d.model.Grows ∅ d₁.model := by
      rw [hd] at hg
      split at hg
      · exact { hg with }
      · exact hg
    have htypes : ∀ n, List.Forall₂ (fun id x => d₁.model.findType? x = some id)
        (d₁.model.listed Module.types n)
        (declaredIn Declaration.typeName? n (es ++ [.service t])) := by
      intro n
      rw [declaredIn_concat, hb.listed, types_listed_enterService hi hx₀.module]
      simp only [Declaration.typeName?, Option.toList_none, ite_self, List.append_nil]
      exact (h.types n).imp fun _ _ => hg₁.findType
    have hservices : ∀ n, List.Forall₂ (fun id x => d₁.model.findService? x = some id)
        (d₁.model.listed Module.services n)
        (declaredIn Declaration.serviceName? n (es ++ [.service t])) := by
      intro n
      rw [declaredIn_concat, hb.listed, listed_enterService hi hx₀.module]
      refine List.rel_append ((h.services n).imp fun _ _ => hg₁.findService) ?_
      exact forall₂_ite (R := fun id n => d₁.model.findService? n = some id) hfind
    cases hr : t.isRoot with
    | false =>
      rw [hr] at hd
      subst hd
      exact h.keep hg₁ hr hroot hdiagnostics htypes hservices
    | true =>
      rw [hr] at hd
      subst hd
      exact h.elect hs₁.indexed hg₁ hr rfl hfind hroot hdiagnostics htypes hservices

/-- Root, members of modules and reports are told by the declarations: `Accounts` holds of every
draft. -/
theorem accounts_declareEach (ha : Accepts {} ds) :
    Accounts (withoutRepeats ds) (repeats ds) (declareEach {} ds) := by
  induction ds using List.reverseRecOn with
  | nil => exact accounts_nil
  | append_singleton ds decl ih =>
    obtain ⟨hds, hok⟩ := accepts_concat.mp ha
    rcases repeat_cases ha with ⟨h, x, hx, hd⟩ | ⟨h, hnew⟩
    · rw [withoutRepeats_concat_repeat h, repeats_concat, if_pos h]
      exact (ih hds).discard hx hd
    · have hi := (sound_declareEach ds).1.indexed
      have ho := outcome_declareEach ds decl
      have hg := (extends_declareEach ds decl).grows
      rw [hok] at ho
      rw [withoutRepeats_concat_new h, repeats_concat, h, if_neg Bool.false_ne_true,
        List.append_nil]
      cases decl with
      | type t => exact (ih hds).type ho hi hg (Option.not_isSome_iff_eq_none.mp (hnew _ rfl))
      | service t =>
        exact (ih hds).service ho hi hg (Option.not_isSome_iff_eq_none.mp (hnew _ rfl))
      | document t => exact (ih hds).document ho hg

end Draft

end ApiModel
