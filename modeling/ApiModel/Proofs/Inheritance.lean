import ApiModel.Proofs.Twins

/-!
# Inheritance in twin models

Chains of bases are followed with a bound on the number of steps, and the bound
depends on how many entities a model holds. It loses nothing: a chain that goes
on for longer than there are entities with a base has come back to one of them.
So chains of paired entities run in parallel, in both models to their ends or
into cycles of the same names.
-/

namespace ApiModel

/-! ## Chains -/

section Chains

variable {ι κ : Type} {base : ι → Option ι} {base' : κ → Option κ}

/-- No more than `bound` elements have a base. -/
def BasesWithin (base : ι → Option ι) (bound : Nat) : Prop :=
  ∀ xs : List ι, xs.Nodup → (∀ x ∈ xs, (base x).isSome) → xs.length ≤ bound

/-- The chain by `base` ends within `fuel` steps. -/
def ChainEnds (base : ι → Option ι) : (fuel : Nat) → (current : Option ι) → Prop
  | _, none => True
  | 0, some _ => False
  | fuel + 1, some next => ChainEnds base fuel (base next)

theorem basesWithin_of_index (index : ι → Nat) {bound : Nat}
    (hinj : ∀ x y, index x = index y → x = y) (hlt : ∀ x, (base x).isSome → index x < bound) :
    BasesWithin base bound := by
  intro xs hxs hbase
  have hnodup : (xs.map index).Nodup := hxs.map hinj
  have hsub : xs.map index ⊆ List.range bound := by
    intro i hi
    obtain ⟨x, hx, rfl⟩ := List.mem_map.mp hi
    exact List.mem_range.mpr (hlt x (hbase x hx))
  simpa using (List.subperm_of_subset hnodup hsub).length_le

/-- The chain has gone through `seen` without meeting anything twice, and `fuel` steps are enough
for the rest of what has a base. -/
structure Tracks (base : ι → Option ι) (bound fuel : Nat) (seen : List ι) (current : Option ι) :
    Prop where
  nodup : seen.Nodup
  based : current.isSome → ∀ x ∈ seen, (base x).isSome
  enough : bound < fuel + seen.length

theorem Tracks.start {bound fuel : Nat} (h : bound ≤ fuel) (x : ι) :
    Tracks base bound fuel [x] (base x) :=
  ⟨List.nodup_singleton x, by simp, by rw [List.length_singleton]; omega⟩

theorem Tracks.next {bound fuel : Nat} {seen : List ι} {next : ι}
    (h : Tracks base bound (fuel + 1) seen (some next)) (hn : next ∉ seen) :
    Tracks base bound fuel (seen ++ [next]) (base next) where
  nodup := by
    rw [← List.concat_eq_append]
    exact h.nodup.concat hn
  based hb x hx := by
    rcases List.mem_append.mp hx with hx | hx
    · exact h.based rfl x hx
    · rwa [List.mem_singleton.mp hx]
  enough := by
    have := h.enough
    rw [List.length_append, List.length_singleton]
    omega

theorem Tracks.fuel_ne_zero {bound fuel : Nat} (hb : BasesWithin base bound) {seen : List ι}
    {next : ι} (h : Tracks base bound fuel seen (some next)) : fuel ≠ 0 := by
  have hle := hb seen h.nodup (h.based rfl)
  have := h.enough
  omega

variable {P : ι → κ → Prop}

variable [DecidableEq ι] [DecidableEq κ]

theorem findCycle_none (base : ι → Option ι) (fuel : Nat) (seen : List ι) :
    findCycle base fuel seen none = none := by
  cases fuel <;> rfl

/-- For `findCycle`, steps beyond the `bound` change nothing. -/
theorem findCycle_add {bound : Nat} (hb : BasesWithin base bound) (k : Nat) {fuel : Nat}
    {seen : List ι} {current : Option ι} (h : Tracks base bound fuel seen current) :
    findCycle base (fuel + k) seen current = findCycle base fuel seen current := by
  induction fuel generalizing seen current with
  | zero =>
    cases current with
    | none => rw [findCycle_none, findCycle_none]
    | some next => exact absurd rfl (h.fuel_ne_zero hb)
  | succ fuel ih =>
    cases current with
    | none => rw [findCycle_none, findCycle_none]
    | some next =>
      rw [Nat.add_right_comm, findCycle, findCycle]
      split
      · rfl
      · rename_i hn
        exact ih (h.next hn)

/-- A chain in which `findCycle` finds no cycle ends. -/
theorem chainEnds_of_findCycle {bound : Nat} (hb : BasesWithin base bound) {fuel : Nat}
    {seen : List ι} {current : Option ι} (h : Tracks base bound fuel seen current)
    (hnone : findCycle base fuel seen current = none) : ChainEnds base fuel current := by
  induction fuel generalizing seen current with
  | zero =>
    cases current with
    | none => trivial
    | some next => exact absurd rfl (h.fuel_ne_zero hb)
  | succ fuel ih =>
    cases current with
    | none => trivial
    | some next =>
      rw [findCycle] at hnone
      split at hnone
      · cases hnone
      · rename_i hn
        exact ih (h.next hn) hnone

/-- Chains of elements related by `P` run into cycles of elements related by `P`. -/
theorem findCycle_rel (hP : ∀ a b a' b', P a a' → P b b' → (a = b ↔ a' = b'))
    (hbase : ∀ a a', P a a' → Option.Rel P (base a) (base' a')) (fuel : Nat) {seen : List ι}
    {seen' : List κ} (hseen : List.Forall₂ P seen seen') {current : Option ι}
    {current' : Option κ} (hc : Option.Rel P current current') :
    Option.Rel (List.Forall₂ P) (findCycle base fuel seen current)
      (findCycle base' fuel seen' current') := by
  induction fuel generalizing seen seen' current current' with
  | zero => cases hc <;> exact .none
  | succ fuel ih =>
    cases hc with
    | none => exact .none
    | @some next next' hn =>
      rw [findCycle, findCycle]
      by_cases hmem : next ∈ seen
      · rw [if_pos hmem, if_pos ((mem_iff_of_forall₂ hseen hP hn).mp hmem)]
        refine .some (List.rel_append (forall₂_dropWhile hseen fun a b hab => ?_)
          (.cons hn .nil))
        simp only [ne_eq, decide_not, hP _ _ _ _ hab hn]
      · rw [if_neg hmem, if_neg (mt (mem_iff_of_forall₂ hseen hP hn).mpr hmem)]
        exact ih (List.rel_append hseen (.cons hn .nil)) (hbase _ _ hn)

/-- The chains that start at related elements run into cycles with the same labels, by `label` and
`label'`. -/
theorem findCycle_labels {γ : Type} {bound bound' : Nat} (hb : BasesWithin base bound)
    (hb' : BasesWithin base' bound') (hP : ∀ a b a' b', P a a' → P b b' → (a = b ↔ a' = b'))
    (hbase : ∀ a a', P a a' → Option.Rel P (base a) (base' a')) {label : ι → Option γ}
    {label' : κ → Option γ} (hlabel : ∀ a a', P a a' → label a = label' a') {x : ι} {x' : κ}
    (h : P x x') :
    (findCycle base (bound + 1) [x] (base x)).map (·.filterMap label) =
      (findCycle base' (bound' + 1) [x'] (base' x')).map (·.filterMap label') := by
  rw [← findCycle_add hb bound' (.start (Nat.le_succ bound) x),
    ← findCycle_add hb' bound (.start (Nat.le_succ bound') x'),
    show bound + 1 + bound' = bound' + 1 + bound by omega]
  have hrel := findCycle_rel hP hbase (bound' + 1 + bound) (.cons h .nil) (hbase _ _ h)
  generalize findCycle base _ _ _ = ids, findCycle base' _ _ _ = ids' at hrel
  cases hrel with
  | none => rfl
  | some hids => rw [Option.map_some, Option.map_some, filterMap_eq_of_forall₂ hids hlabel]

end Chains

/-! ## Ancestors and cycles of a model -/

namespace Model

variable {m m' : Model} {R : TypeDecl → TypeDecl → Prop}

theorem basesWithin_structBase? (m : Model) : BasesWithin m.structBase? m.types.size := by
  refine basesWithin_of_index TypeId.index (by rintro ⟨_⟩ ⟨_⟩ rfl; rfl) fun id hid => ?_
  by_contra hge
  rw [structBase?, type?, Array.getElem?_eq_none (by omega)] at hid
  cases hid

theorem basesWithin_serviceBase? (m : Model) : BasesWithin m.serviceBase? m.services.size := by
  refine basesWithin_of_index ServiceId.index (by rintro ⟨_⟩ ⟨_⟩ rfl; rfl)
    fun id hid => ?_
  by_contra hge
  rw [serviceBase?, definedService?, service?, Array.getElem?_eq_none (by omega)] at hid
  cases hid

theorem meets_add {ancestor : TypeId} (k : Nat) {fuel : Nat} {current : Option TypeId}
    (h : ChainEnds m.structBase? fuel current) :
    m.meets ancestor (fuel + k) current = m.meets ancestor fuel current := by
  induction fuel generalizing current with
  | zero =>
    cases current with
    | none => cases k <;> rfl
    | some next => exact h.elim
  | succ fuel ih =>
    cases current with
    | none => rw [Nat.add_right_comm]; rfl
    | some next => rw [Nat.add_right_comm, meets, meets, ih h]

/-- The chain of a type without a `typeCycle?` is followed to its end. -/
theorem chainEnds_structBase? {id : TypeId} (h : m.typeCycle? id = none) :
    ChainEnds m.structBase? m.types.size (m.structBase? id) := by
  refine chainEnds_of_findCycle m.basesWithin_structBase? (.start (Nat.le_refl _) id) ?_
  rw [← findCycle_add m.basesWithin_structBase? 1 (.start (Nat.le_refl _) id)]
  rwa [typeCycle?, Option.map_eq_none_iff] at h

/-- In a model without an `inheritanceCycle?` no reference leads into a cycle. -/
theorem typeCycle?_eq_none (h : m.inheritanceCycle? = none) {n : Name} {id : TypeId}
    (hn : m.Resolves n id) : m.typeCycle? id = none := by
  rw [inheritanceCycle?, Option.or_eq_none_iff] at h
  rcases hs : m.struct? id with _ | s
  · rw [typeCycle?, structBase?, show (m.type? id).bind DataType.struct? = none from hs]
    rfl
  · have ht := struct?_eq_some.mp hs
    rcases hn.typeNamed with hid | hu
    · exact List.findSome?_eq_none_iff.mp h.1 (id, s) (mem_structs.mpr ⟨⟨n, hid⟩, ht⟩)
    · rw [ht] at hu
      cases hu

namespace Twins

variable (h : m.Twins R m')

include h

theorem meets {a a' : TypeId} (ha : m.Paired m' a a') (fuel : Nat) {current current' : Option TypeId}
    (hc : Option.Rel (m.Paired m') current current') :
    m.meets a fuel current = m'.meets a' fuel current' := by
  induction fuel generalizing current current' with
  | zero =>
    cases hc with
    | none => rfl
    | some hn => simp only [Model.meets, h.paired_eq_iff hn ha]
  | succ fuel ih =>
    cases hc with
    | none => rfl
    | some hn => simp only [Model.meets, h.paired_eq_iff hn ha, ih (h.structBase? hn)]

theorem typeCycle? {id id' : TypeId} (hp : m.Paired m' id id') :
    m.typeCycle? id = m'.typeCycle? id' := by
  have hnames := findCycle_labels m.basesWithin_structBase? m'.basesWithin_structBase?
    (fun _ _ _ _ => h.paired_eq_iff) (fun _ _ => h.structBase?) (fun _ _ => h.name_eq) hp
  simpa only [Model.typeCycle?, List.map_filterMap, Option.map_map, Function.comp_def] using
    congrArg (Option.map (InheritanceCycle.mk .type)) hnames

theorem serviceCycle? {id id' : ServiceId} (hp : m.PairedService m' id id') :
    m.serviceCycle? id = m'.serviceCycle? id' := by
  have hnames := findCycle_labels m.basesWithin_serviceBase? m'.basesWithin_serviceBase?
    (fun _ _ _ _ => h.pairedService_eq_iff) (fun _ _ => h.serviceBase?)
    (fun _ _ => h.serviceName_eq) hp
  simpa only [Model.serviceCycle?, List.map_filterMap, Option.map_map, Function.comp_def] using
    congrArg (Option.map (InheritanceCycle.mk .service)) hnames

/-- `Twins` have the same inheritance cycle, if any. -/
theorem inheritanceCycle? : m.inheritanceCycle? = m'.inheritanceCycle? := by
  rw [Model.inheritanceCycle?, Model.inheritanceCycle?, ← List.head?_filterMap,
    ← List.head?_filterMap, ← List.head?_filterMap, ← List.head?_filterMap,
    filterMap_eq_of_forall₂ h.structs fun _ _ hp => h.typeCycle? hp.1,
    filterMap_eq_of_forall₂ h.registeredServices fun _ _ hp => h.serviceCycle? hp.1]

/-- `Paired` types extend the same types, provided that there are no cycles. -/
theorem isExtension (hc : m.inheritanceCycle? = none) {id id' a a' : TypeId}
    (hid : m.Paired m' id id') (ha : m.Paired m' a a') :
    m.isExtension id a = m'.isExtension id' a' := by
  have ⟨_, hn, hn'⟩ := hid
  have hends := chainEnds_structBase? (typeCycle?_eq_none hc hn)
  have hends' := chainEnds_structBase?
    (typeCycle?_eq_none (h.inheritanceCycle?.symm.trans hc) hn')
  rw [Model.isExtension, Model.isExtension, ← meets_add m'.types.size hends,
    ← meets_add m.types.size hends', Nat.add_comm m'.types.size]
  exact h.meets ha _ (h.structBase? hid)

end Twins

end Model

/-! ## Analyses of corresponding declarations -/

section Analysis

variable {R : TypeDecl → TypeDecl → Prop} {ds ds' : List Declaration}
  (hR : ∀ t t', R t t' → t.Alike t') (hc : Corresponds R ds ds') (hu : Unambiguous ds)
  (hu' : Unambiguous ds')

include hR hc hu hu'

theorem Corresponds.analyze_isOk : (analyze ds).isOk = (analyze ds').isOk := by
  by_cases ha : Draft.Accepts {} ds
  · have ha' := (hc.accepts hR hu hu').mp ha
    rw [analyze_of_accepts ha, analyze_of_accepts ha',
      (hc.finished_twins hR hu hu' ha).inheritanceCycle?]
    split <;> rfl
  · obtain ⟨e, he⟩ := analyze_of_not_accepts ha
    obtain ⟨e', he'⟩ := analyze_of_not_accepts (mt (hc.accepts hR hu hu').mpr ha)
    rw [he, he']
    rfl

/-- Where all names have words, all that `analyze` can fail for is inheritance, and in the same
way. -/
theorem Corresponds.analyze_error (hn : ∀ decl ∈ ds, decl.isNamed = true) {e : AnalysisError}
    (h : analyze ds = .error e) :
    ∃ cycle, e = .circularInheritance cycle ∧ analyze ds' = .error e := by
  have ha := (Draft.accepts_iff hu).mpr fun decl hd => Declaration.isValid_of_isNamed (hn decl hd)
  rw [analyze_of_accepts ha] at h
  rw [analyze_of_accepts ((hc.accepts hR hu hu').mp ha),
    ← (hc.finished_twins hR hu hu' ha).inheritanceCycle?]
  split at h
  · rename_i cycle _
    obtain rfl := Except.error.inj h
    exact ⟨cycle, rfl, rfl⟩
  · cases h

end Analysis

end ApiModel
