import ApiModel.Proofs.Unambiguous
import ApiModel.Proofs.Unresolved

/-!
# Declarations in another order

Two lists of declarations correspond if each declaration of one has its like in
the other, in any order. What a finished model contains can be told from the
declarations regardless of their order, so models of corresponding declarations
contain the same: the same names are registered, lists of the same elements are
interned, and the same names stay unresolved.
-/

namespace ApiModel

/-! ## Declarations that are alike -/

/-- `bs` has the elements of `as`, and if no two of them have the same name possibly in another
order. -/
def Shuffled {α : Type} (name : α → Name) (as bs : List α) : Prop :=
  bs = as ∨ as.Perm bs ∧ (as.map name).Nodup

theorem Shuffled.perm {α : Type} {name : α → Name} {as bs : List α} (h : Shuffled name as bs) :
    as.Perm bs := by
  rcases h with rfl | ⟨h, -⟩
  · exact .refl _
  · exact h

/-- The members of a struct or the constants of an enumeration may have another order. -/
inductive TypeBody.Alike : TypeBody → TypeBody → Prop
  | struct {supertype : Supertype} {members members' : List MemberDecl}
      (h : Shuffled (fun x => Name.ofCase x.name) members members') :
      Alike (.struct supertype members) (.struct supertype members')
  | enum {constants constants' : List ConstantDecl}
      (h : Shuffled (fun x => Name.ofConstant x.name) constants constants') :
      Alike (.enum constants) (.enum constants')

structure TypeDecl.Alike (t t' : TypeDecl) : Prop where
  name : t'.name = t.name
  space : t'.space = t.space
  info : t'.info = t.info
  body : t.body.Alike t'.body

theorem TypeDecl.Alike.refl (t : TypeDecl) : t.Alike t := by
  refine ⟨rfl, rfl, rfl, ?_⟩
  cases t.body with
  | struct => exact .struct (.inl rfl)
  | enum => exact .enum (.inl rfl)

/-- The same declaration, or types as `R` relates them. -/
inductive Declaration.Like (R : TypeDecl → TypeDecl → Prop) : Declaration → Declaration → Prop
  | type {t t' : TypeDecl} (h : R t t') : Like R (.type t) (.type t')
  | service (t : ServiceDecl) : Like R (.service t) (.service t)
  | document (t : DocumentDecl) : Like R (.document t) (.document t)

theorem TypeBody.Alike.isNamed {b b' : TypeBody} (h : b.Alike b') : b'.isNamed = b.isNamed := by
  cases h with
  | struct h => rw [TypeBody.isNamed, TypeBody.isNamed, h.perm.all_eq]
  | enum h => rw [TypeBody.isNamed, TypeBody.isNamed, h.perm.all_eq]

theorem TypeBody.Alike.isReadAlways {b b' : TypeBody} (h : b.Alike b') :
    b'.isReadAlways = b.isReadAlways := by
  cases h <;> rfl

theorem TypeDecl.Alike.requests {t t' : TypeDecl} (h : t.Alike t') : t'.requests = t.requests := by
  have hbody := h.body
  rw [TypeDecl.requests, TypeDecl.requests]
  generalize t.body = b, t'.body = b' at hbody
  cases hbody with
  | struct h => simp only [structRequests, h.perm.mem_iff]
  | enum h => rfl

namespace Declaration

/-- What the declaration says is in the finished model, unless its name is that of a primitive. -/
def isEffective : Declaration → Bool
  | .type t => !(Name.ofCase t.name).isPrimitive
  | .service _ => true
  | .document _ => false

variable {R : TypeDecl → TypeDecl → Prop} {decl decl' : Declaration} (h : decl.Like R decl')

include h

theorem Like.serviceName? : decl'.serviceName? = decl.serviceName? := by
  cases h <;> rfl

theorem Like.isRoot : decl'.isRoot = decl.isRoot := by
  cases h <;> rfl

variable (hR : ∀ t t', R t t' → t.Alike t')

include hR

theorem Like.typeName? : decl'.typeName? = decl.typeName? := by
  cases h with
  | type h => rw [Declaration.typeName?, Declaration.typeName?, (hR _ _ h).name]
  | service | document => rfl

theorem Like.moduleName? : decl'.moduleName? = decl.moduleName? := by
  cases h with
  | type h => rw [Declaration.moduleName?, Declaration.moduleName?, (hR _ _ h).space]
  | service | document => rfl

theorem Like.requests : decl'.requests = decl.requests := by
  cases h with
  | type h => exact (hR _ _ h).requests
  | service | document => rfl

theorem Like.isEffective : decl'.isEffective = decl.isEffective := by
  cases h with
  | type h => rw [Declaration.isEffective, Declaration.isEffective, (hR _ _ h).name]
  | service | document => rfl

theorem Like.isValid : decl'.isValid = decl.isValid := by
  cases h with
  | type h =>
    rw [Declaration.isValid, Declaration.isValid, (hR _ _ h).name, (hR _ _ h).body.isNamed,
      (hR _ _ h).body.isReadAlways]
  | service | document => rfl

theorem Like.clash? : decl'.clash? = decl.clash? := by
  cases h with
  | type h => rw [Declaration.clash?, Declaration.clash?, (hR _ _ h).name]
  | service | document => rfl

end Declaration

/-- Each declaration of `ds` has its like in `ds'`, and each of `ds'` in `ds`. -/
structure Corresponds (R : TypeDecl → TypeDecl → Prop) (ds ds' : List Declaration) : Prop where
  forth : ∀ x ∈ ds, ∃ y ∈ ds', x.Like R y
  back : ∀ y ∈ ds', ∃ x ∈ ds, x.Like R y

theorem Corresponds.exists_iff {R : TypeDecl → TypeDecl → Prop} {ds ds' : List Declaration}
    (h : Corresponds R ds ds') {P Q : Declaration → Prop} (hPQ : ∀ x y, x.Like R y → (P x ↔ Q y)) :
    (∃ x ∈ ds, P x) ↔ ∃ y ∈ ds', Q y := by
  constructor
  · rintro ⟨x, hx, hp⟩
    obtain ⟨y, hy, hxy⟩ := h.forth x hx
    exact ⟨y, hy, (hPQ x y hxy).mp hp⟩
  · rintro ⟨y, hy, hq⟩
    obtain ⟨x, hx, hxy⟩ := h.back y hy
    exact ⟨x, hx, (hPQ x y hxy).mpr hq⟩

/-! ## Contents -/

namespace Model.Portrays

variable {m : Model} {ds : List Declaration} {decl : Declaration} {n : Name}

theorem isSome_findType? (hp : m.Portrays ds) : (m.findType? n).isSome ↔
    n.isPrimitive = true ∨ ∃ decl ∈ ds, decl.typeName? = some n := by
  constructor
  · intro h
    obtain ⟨id, hid⟩ := Option.isSome_iff_exists.mp h
    rcases hp.types hid with ⟨k, hk, -⟩ | ⟨decl, hd, hn, -⟩
    · exact .inl (Name.isPrimitive_iff.mpr ⟨k, hk⟩)
    · exact .inr ⟨decl, hd, hn⟩
  · rintro (h | ⟨decl, hd, hn⟩)
    · obtain ⟨k, rfl⟩ := Name.isPrimitive_iff.mp h
      rw [(hp.primitives k).1]
      rfl
    · exact hp.typeNames hd hn

theorem isSome_findService? (hp : m.Portrays ds) :
    (m.findService? n).isSome ↔ ∃ decl ∈ ds, decl.serviceName? = some n := by
  constructor
  · intro h
    obtain ⟨id, hid⟩ := Option.isSome_iff_exists.mp h
    obtain ⟨decl, hd, hn, -⟩ := hp.services hid
    exact ⟨decl, hd, hn⟩
  · rintro ⟨decl, hd, hn⟩
    exact hp.serviceNames hd hn

/-- What `decl` records is never a primitive. -/
theorem isEffective (hp : m.Portrays ds) (h : m.Records m.unparsed decl true) :
    decl.isEffective = true := by
  match decl with
  | .type t =>
    obtain ⟨id, x, hid, hx, hr⟩ := h
    rw [Declaration.isEffective, Bool.not_eq_true', Bool.eq_false_iff, Ne, Name.isPrimitive_iff]
    rintro ⟨k, hk⟩
    rw [hk, (hp.primitives k).1] at hid
    obtain rfl := Option.some.inj hid
    obtain rfl := Option.some.inj (hx.symm.trans (hp.primitives k).2)
    unfold DataType.Records at hr
    split at hr
    · obtain ⟨s, hs, -⟩ := hr
      cases hs
    · obtain ⟨e, he, -⟩ := hr
      cases he
  | .service t => rfl
  | .document _ => exact h.elim

/-- Of declarations that have names of their own each is recorded that `isEffective`. -/
theorem records_of_isEffective (hp : m.Portrays ds)
    (htypes : (ds.filterMap Declaration.typeName?).Nodup)
    (hservices : (ds.filterMap Declaration.serviceName?).Nodup)
    (hd : decl ∈ ds) (he : decl.isEffective = true) : m.Records m.unparsed decl true := by
  match decl with
  | .type t =>
    obtain ⟨id, hid⟩ := Option.isSome_iff_exists.mp (hp.typeNames hd rfl)
    rcases hp.types hid with ⟨k, hk, -⟩ | ⟨decl, hd', hn, hr⟩
    · simp [Declaration.isEffective, Name.isPrimitive_iff.mpr ⟨k, hk⟩] at he
    · rwa [eq_of_nodup_filterMap htypes hd hd' rfl hn]
  | .service t =>
    obtain ⟨id, hid⟩ := Option.isSome_iff_exists.mp (hp.serviceNames hd rfl)
    obtain ⟨decl, hd', hn, hr⟩ := hp.services hid
    rwa [eq_of_nodup_filterMap hservices hd hd' rfl hn]
  | .document _ => cases he

/-- Which of `Unambiguous` declarations are recorded depends on each alone. -/
theorem records_iff (hp : m.Portrays ds) (hu : Unambiguous ds) (hd : decl ∈ ds) :
    m.Records m.unparsed decl true ↔ decl.isEffective = true :=
  ⟨hp.isEffective, hp.records_of_isEffective hu.types hu.services hd⟩

theorem isSome_findList? (hp : m.Portrays ds) (hu : Unambiguous ds) : (m.findList? n).isSome ↔
    ∃ decl ∈ ds, decl.isEffective = true ∧ .type ⟨n, true⟩ ∈ decl.requests := by
  constructor
  · intro h
    obtain ⟨id, hid⟩ := Option.isSome_iff_exists.mp h
    obtain ⟨decl, hd, hr, hq⟩ := hp.lists hid
    exact ⟨decl, hd, hp.isEffective hr, hq⟩
  · rintro ⟨decl, hd, he, hq⟩
    obtain ⟨x, -, hx⟩ := ((hp.records_iff hu hd).mpr he).typeReference hq
    rw [show m.findList? n = some x from hx.1]
    rfl

end Model.Portrays

namespace Draft

variable {ds : List Declaration} {n : Name} (ha : Accepts {} ds) (hu : Unambiguous ds)

include ha hu

theorem mem_unresolvedTypes_iff_requested : n ∈ (finishedModel ds).unresolvedTypes ↔
    ¬((finishedModel ds).findType? n).isSome ∧
      ∃ decl ∈ ds, decl.isEffective = true ∧ ∃ t, .type t ∈ decl.requests ∧ t.name = n := by
  rw [mem_unresolvedTypes_iff ha, Option.not_isSome_iff_eq_none]
  refine and_congr_right fun _ => exists_congr fun decl => and_congr_right fun hd => ?_
  rw [(portrays_finishedModel ha).records_iff hu hd]

theorem mem_unresolvedServices_iff_requested : n ∈ (finishedModel ds).unresolvedServices ↔
    ¬((finishedModel ds).findService? n).isSome ∧
      ∃ decl ∈ ds, decl.isEffective = true ∧ .service n ∈ decl.requests := by
  rw [mem_unresolvedServices_iff ha, Option.not_isSome_iff_eq_none]
  refine and_congr_right fun _ => exists_congr fun decl => and_congr_right fun hd => ?_
  rw [(portrays_finishedModel ha).records_iff hu hd]

end Draft

/-! ## Two models of corresponding declarations -/

namespace Model

/-- The structs `s` and `s'`, which related declarations say the same of. -/
inductive StructTwins (R : TypeDecl → TypeDecl → Prop) (m m' : Model) (id : TypeId)
    (s : StructType) (id' : TypeId) (s' : StructType) : Prop
  | intro {t t' : TypeDecl} {supertype : Supertype} {members members' : List MemberDecl}
      (hR : R t t') (hbody : t.body = .struct supertype members)
      (hbody' : t'.body = .struct supertype members')
      (h : s.Matches m.unparsed id t supertype.base? members)
      (h' : s'.Matches m'.unparsed id' t' supertype.base? members') :
      StructTwins R m m' id s id' s'

inductive EnumTwins (R : TypeDecl → TypeDecl → Prop) (m m' : Model) (id : TypeId)
    (e : EnumType) (id' : TypeId) (e' : EnumType) : Prop
  | intro {t t' : TypeDecl} {constants constants' : List ConstantDecl}
      (hR : R t t') (hbody : t.body = .enum constants) (hbody' : t'.body = .enum constants')
      (h : e.Matches m.unparsed id t constants) (h' : e'.Matches m'.unparsed id' t' constants') :
      EnumTwins R m m' id e id' e'

inductive ServiceTwins (m m' : Model) (id : ServiceId) (s : DefinedService) (id' : ServiceId)
    (s' : DefinedService) : Prop
  | intro {t : ServiceDecl}
      (h : s.Matches m.unparsed id t t.supertype.base? t.methods t.locators)
      (h' : s'.Matches m'.unparsed id' t t.supertype.base? t.methods t.locators) :
      ServiceTwins m m' id s id' s'

/-- The same `primitive`, or types that related declarations say the same of. -/
inductive TypeTwins (R : TypeDecl → TypeDecl → Prop) (m m' : Model) (id id' : TypeId) : Prop
  | primitive {k : PrimitiveKind} (hx : m.type? id = some (.primitive k))
      (hx' : m'.type? id' = some (.primitive k)) : TypeTwins R m m' id id'
  | struct {s s' : StructType} (hx : m.type? id = some (.struct s))
      (hx' : m'.type? id' = some (.struct s')) (h : StructTwins R m m' id s id' s') :
      TypeTwins R m m' id id'
  | enum {e e' : EnumType} (hx : m.type? id = some (.enum e))
      (hx' : m'.type? id' = some (.enum e')) (h : EnumTwins R m m' id e id' e') :
      TypeTwins R m m' id id'

/-- The same names are registered in `m` and `m'`, and for what related declarations say. -/
structure Twins (R : TypeDecl → TypeDecl → Prop) (m m' : Model) : Prop where
  indexed : m.Indexed
  indexed' : m'.Indexed
  types : ∀ n, Option.Rel (TypeTwins R m m') (m.findType? n) (m'.findType? n)
  services : ∀ n, Option.Rel (fun id id' => ∃ s s', m.service? id = some (.defined s) ∧
    m'.service? id' = some (.defined s') ∧ ServiceTwins m m' id s id' s')
    (m.findService? n) (m'.findService? n)

theorem typeTwins_of_records {R : TypeDecl → TypeDecl → Prop} (hR : ∀ t t', R t t' → t.Alike t')
    {m m' : Model} {id id' : TypeId} {t t' : TypeDecl} {x x' : DataType} (ht : R t t')
    (hx : m.type? id = some x) (hx' : m'.type? id' = some x')
    (hr : x.Records m.unparsed id t true) (hr' : x'.Records m'.unparsed id' t' true) :
    TypeTwins R m m' id id' := by
  have hbody := (hR t t' ht).body
  unfold DataType.Records at hr hr'
  cases hb : t.body with
  | struct supertype members =>
    cases hb' : t'.body with
    | struct supertype' members' =>
      rw [hb, hb'] at hbody
      rw [hb] at hr
      rw [hb'] at hr'
      cases hbody
      obtain ⟨s, rfl, -, hs⟩ := hr
      obtain ⟨s', rfl, -, hs'⟩ := hr'
      exact .struct hx hx' (.intro ht hb hb' (hs rfl) (hs' rfl))
    | enum => rw [hb, hb'] at hbody; cases hbody
  | enum constants =>
    cases hb' : t'.body with
    | struct => rw [hb, hb'] at hbody; cases hbody
    | enum constants' =>
      rw [hb] at hr
      rw [hb'] at hr'
      obtain ⟨e, rfl, he⟩ := hr
      obtain ⟨e', rfl, he'⟩ := hr'
      exact .enum hx hx' (.intro ht hb hb' he he')

end Model

section Twins

variable {R : TypeDecl → TypeDecl → Prop} {ds ds' : List Declaration} {m m' : Model}
  (hR : ∀ t t', R t t' → t.Alike t') (hc : Corresponds R ds ds')

include hR hc

theorem Corresponds.typeNames {n : Name} :
    (∃ x ∈ ds, x.typeName? = some n) ↔ ∃ y ∈ ds', y.typeName? = some n :=
  hc.exists_iff fun _ _ h => by rw [h.typeName? hR]

omit hR in
theorem Corresponds.serviceNames {n : Name} :
    (∃ x ∈ ds, x.serviceName? = some n) ↔ ∃ y ∈ ds', y.serviceName? = some n :=
  hc.exists_iff fun _ _ h => by rw [h.serviceName?]

theorem Corresponds.moduleNames {n : Name} :
    (∃ x ∈ ds, x.moduleName? = some n) ↔ ∃ y ∈ ds', y.moduleName? = some n :=
  hc.exists_iff fun _ _ h => by rw [h.moduleName? hR]

theorem Corresponds.requests {P : Set Request → Prop} :
    (∃ x ∈ ds, x.isEffective = true ∧ P x.requests) ↔
      ∃ y ∈ ds', y.isEffective = true ∧ P y.requests :=
  hc.exists_iff fun _ _ h => by rw [h.isEffective hR, h.requests hR]

theorem Corresponds.isValid :
    (∀ x ∈ ds, x.isValid = true) ↔ ∀ y ∈ ds', y.isValid = true := by
  constructor
  · intro h y hy
    obtain ⟨x, hx, hxy⟩ := hc.back y hy
    rw [hxy.isValid hR]
    exact h x hx
  · intro h x hx
    obtain ⟨y, hy, hxy⟩ := hc.forth x hx
    rw [← hxy.isValid hR]
    exact h y hy

variable (hp : m.Portrays ds) (hp' : m'.Portrays ds') (hu : Unambiguous ds)
  (hu' : Unambiguous ds')

include hp hp'

theorem Corresponds.findType? {n : Name} :
    (m.findType? n).isSome ↔ (m'.findType? n).isSome := by
  rw [hp.isSome_findType?, hp'.isSome_findType?, hc.typeNames hR]

omit hR in
theorem Corresponds.findService? {n : Name} :
    (m.findService? n).isSome ↔ (m'.findService? n).isSome := by
  rw [hp.isSome_findService?, hp'.isSome_findService?, hc.serviceNames]

include hu hu'

theorem Corresponds.findList? {n : Name} :
    (m.findList? n).isSome ↔ (m'.findList? n).isSome := by
  rw [hp.isSome_findList? hu, hp'.isSome_findList? hu',
    hc.requests hR (P := fun q => .type ⟨n, true⟩ ∈ q)]

omit hu hu' in
theorem Corresponds.twins
    (h' : ∀ {y}, y ∈ ds' → y.isEffective = true → m'.Records m'.unparsed y true) :
    m.Twins R m' := by
  have hrecords : ∀ {x}, x ∈ ds → m.Records m.unparsed x true →
      ∃ y ∈ ds', x.Like R y ∧ m'.Records m'.unparsed y true := by
    intro x hx hr
    obtain ⟨y, hy, hxy⟩ := hc.forth x hx
    refine ⟨y, hy, hxy, h' hy ?_⟩
    rw [hxy.isEffective hR]
    exact hp.isEffective hr
  refine ⟨hp.indexed, hp'.indexed, fun n => ?_, fun n => ?_⟩
  · refine optionRel_of_isSome (hc.findType? hR hp hp') fun id id' hid hid' => ?_
    rcases hp.types hid with ⟨k, rfl, rfl⟩ | ⟨x, hx, hn, hr⟩
    · obtain rfl := Option.some.inj ((hp'.primitives k).1.symm.trans hid')
      exact .primitive (hp.primitives k).2 (hp'.primitives k).2
    · obtain ⟨y, hy, hxy, hr'⟩ := hrecords hx hr
      cases hxy with
      | @type t t' ht =>
        obtain rfl := Option.some.inj hn
        obtain ⟨_, x, hid₁, hx, hr⟩ := hr
        obtain ⟨_, x', hid₁', hx', hr'⟩ := hr'
        rw [(hR _ _ ht).name] at hid₁'
        obtain rfl := Option.some.inj (hid.symm.trans hid₁)
        obtain rfl := Option.some.inj (hid'.symm.trans hid₁')
        exact Model.typeTwins_of_records hR ht hx hx' hr hr'
      | service | document => cases hn
  · refine optionRel_of_isSome (hc.findService? hp hp') fun id id' hid hid' => ?_
    obtain ⟨x, hx, hn, hr⟩ := hp.services hid
    obtain ⟨y, hy, hxy, hr'⟩ := hrecords hx hr
    cases hxy with
    | service t =>
      obtain rfl := Option.some.inj hn
      obtain ⟨_, s, hid₁, hs, hr⟩ := hr
      obtain ⟨_, s', hid₁', hs', hr'⟩ := hr'
      obtain rfl := Option.some.inj (hid.symm.trans hid₁)
      obtain rfl := Option.some.inj (hid'.symm.trans hid₁')
      exact ⟨s, s', hs, hs', .intro (hr.whole rfl) (hr'.whole rfl)⟩
    | type | document => cases hn

end Twins

/-! ## Finished models of corresponding declarations -/

section Finished

variable {R : TypeDecl → TypeDecl → Prop} {ds ds' : List Declaration}
  (hR : ∀ t t', R t t' → t.Alike t') (hc : Corresponds R ds ds') (hu : Unambiguous ds)
  (hu' : Unambiguous ds')

include hR hc hu hu'

theorem Corresponds.accepts : Draft.Accepts {} ds ↔ Draft.Accepts {} ds' := by
  rw [Draft.accepts_iff hu, Draft.accepts_iff hu', hc.isValid hR]

variable (ha : Draft.Accepts {} ds)

include ha

theorem Corresponds.finished_twins : (finishedModel ds).Twins R (finishedModel ds') := by
  have hp' := Draft.portrays_finishedModel ((hc.accepts hR hu hu').mp ha)
  exact hc.twins hR (Draft.portrays_finishedModel ha) hp' fun hy => (hp'.records_iff hu' hy).mpr

theorem Corresponds.mem_unresolvedTypes {n : Name} :
    n ∈ (finishedModel ds).unresolvedTypes ↔ n ∈ (finishedModel ds').unresolvedTypes := by
  have ha' := (hc.accepts hR hu hu').mp ha
  rw [Draft.mem_unresolvedTypes_iff_requested ha hu, Draft.mem_unresolvedTypes_iff_requested ha' hu',
    hc.findType? hR (Draft.portrays_finishedModel ha) (Draft.portrays_finishedModel ha'),
    hc.requests hR (P := fun q => ∃ t, .type t ∈ q ∧ t.name = n)]

theorem Corresponds.mem_unresolvedServices {n : Name} :
    n ∈ (finishedModel ds).unresolvedServices ↔ n ∈ (finishedModel ds').unresolvedServices := by
  have ha' := (hc.accepts hR hu hu').mp ha
  rw [Draft.mem_unresolvedServices_iff_requested ha hu,
    Draft.mem_unresolvedServices_iff_requested ha' hu',
    hc.findService? (Draft.portrays_finishedModel ha) (Draft.portrays_finishedModel ha'),
    hc.requests hR (P := fun q => .service n ∈ q)]

end Finished

end ApiModel
