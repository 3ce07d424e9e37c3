import ApiModel.Proofs.CanonicalNames
import Mathlib.Data.List.Flatten

/-!
# Splitting at capital letters

A text in camel case is read in segments, and each segment becomes one word. Two
neighbouring characters decide whether the text is cut between them: it is in
front of a capital letter that follows something else, and nowhere else. Segments
that aren't empty are known by the text they join to and by the places of its
cuts, so there is one way to follow this rule. No segment gets lost with the
empty words, since lower case doesn't make a text empty.
-/

namespace ApiModel

/-! ## Cuts -/

/-- One of `segs` ends and the next one starts in front of position `i` of the joined text. Both
ends of the text count. -/
def CutAt (segs : List (List Char)) (i : Nat) : Prop :=
  ∃ front back, segs = front ++ back ∧ front.flatten.length = i

section CutAt

variable {seg : List Char} {segs : List (List Char)} {i : Nat}

theorem cutAt_zero (segs : List (List Char)) : CutAt segs 0 :=
  ⟨[], segs, rfl, rfl⟩

theorem cutAt_length (segs : List (List Char)) : CutAt segs segs.flatten.length :=
  ⟨segs, [], (List.append_nil segs).symm, rfl⟩

theorem CutAt.le_length (h : CutAt segs i) : i ≤ segs.flatten.length := by
  obtain ⟨front, back, rfl, rfl⟩ := h
  rw [List.flatten_append, List.length_append]
  exact Nat.le_add_right _ _

/-- Behind the start, cuts are those of what follows the first segment `seg`. -/
theorem cutAt_cons :
    CutAt (seg :: segs) i ↔ i = 0 ∨ ∃ j, CutAt segs j ∧ seg.length + j = i := by
  constructor
  · rintro ⟨front, back, hsegs, rfl⟩
    cases front with
    | nil => exact .inl rfl
    | cons first front =>
      obtain ⟨rfl, rfl⟩ := List.cons.inj hsegs
      exact .inr ⟨_, ⟨front, back, rfl, rfl⟩, by rw [List.flatten_cons, List.length_append]⟩
  · rintro (rfl | ⟨_, ⟨front, back, rfl, rfl⟩, rfl⟩)
    · exact cutAt_zero _
    · exact ⟨seg :: front, back, rfl, by rw [List.flatten_cons, List.length_append]⟩

theorem cutAt_cons_add (hseg : seg ≠ []) : CutAt (seg :: segs) (seg.length + i) ↔ CutAt segs i := by
  have hpos := List.length_pos_iff.mpr hseg
  rw [cutAt_cons]
  constructor
  · rintro (h | ⟨j, hj, h⟩)
    · omega
    · rwa [← Nat.add_left_cancel h]
  · exact fun h => .inr ⟨i, h, rfl⟩

/-- The first segment `seg` ends at the first cut. -/
theorem CutAt.length_le (h : CutAt (seg :: segs) i) (hi : 0 < i) : seg.length ≤ i := by
  obtain rfl | ⟨j, -, rfl⟩ := cutAt_cons.mp h
  · exact absurd hi (Nat.lt_irrefl 0)
  · exact Nat.le_add_right _ _

/-- Segments that aren't empty are known by the text they join to and by the places where `CutAt`
holds. -/
theorem eq_of_cutAt_iff {as bs : List (List Char)} (has : ∀ seg ∈ as, seg ≠ [])
    (hbs : ∀ seg ∈ bs, seg ≠ []) (hjoin : as.flatten = bs.flatten)
    (hcut : ∀ i, CutAt as i ↔ CutAt bs i) : as = bs := by
  induction as generalizing bs with
  | nil =>
    cases bs with
    | nil => rfl
    | cons b bs =>
      exact absurd (List.flatten_eq_nil_iff.mp hjoin.symm b List.mem_cons_self)
        (hbs b List.mem_cons_self)
  | cons a as ih =>
    obtain ⟨ha, has⟩ := List.forall_mem_cons.mp has
    cases bs with
    | nil => exact absurd (List.flatten_eq_nil_iff.mp hjoin a List.mem_cons_self) ha
    | cons b bs =>
      obtain ⟨hb, htail⟩ := List.forall_mem_cons.mp hbs
      -- Each of the two texts is cut where the first segment of the other ends.
      have hend {seg : List Char} {segs} (hseg : seg ≠ []) : CutAt (seg :: segs) seg.length :=
        (cutAt_cons_add hseg).mpr (cutAt_zero segs)
      have hlength : a.length = b.length := Nat.le_antisymm
        (((hcut _).mpr (hend hb)).length_le (List.length_pos_iff.mpr hb))
        (((hcut _).mp (hend ha)).length_le (List.length_pos_iff.mpr ha))
      obtain ⟨rfl, hrest⟩ := List.append_inj hjoin hlength
      rw [ih has htail hrest fun i => ?_]
      rw [← cutAt_cons_add ha, hcut, cutAt_cons_add ha]

end CutAt

/-! ## Segments in camel case -/

/-- Segments that `cs` is made of, with a cut in front of each capital letter that follows
something else, and with no other. -/
structure CaseSegments (cs : List Char) (segs : List (List Char)) : Prop where
  nonempty : ∀ seg ∈ segs, seg ≠ []
  flatten : segs.flatten = cs
  cutAt_iff : ∀ i (h : i + 1 < cs.length),
    CutAt segs (i + 1) ↔ Text.isUpper cs[i + 1] = true ∧ Text.isUpper cs[i] = false

theorem CaseSegments.cutAt_congr {cs : List Char} {as bs : List (List Char)} {i : Nat}
    (ha : CaseSegments cs as) (hb : CaseSegments cs bs) (h : CutAt as i) : CutAt bs i := by
  have hle := h.le_length
  rw [ha.flatten] at hle
  cases i with
  | zero => exact cutAt_zero bs
  | succ i =>
    rcases hle.eq_or_lt with heq | hlt
    · rw [heq, ← hb.flatten]
      exact cutAt_length bs
    · exact (hb.cutAt_iff i hlt).mpr ((ha.cutAt_iff i hlt).mp h)

theorem CaseSegments.unique {cs : List Char} {as bs : List (List Char)} (ha : CaseSegments cs as)
    (hb : CaseSegments cs bs) : as = bs :=
  eq_of_cutAt_iff ha.nonempty hb.nonempty (ha.flatten.trans hb.flatten.symm)
    fun _ => ⟨ha.cutAt_congr hb, hb.cutAt_congr ha⟩

theorem flatten_extendFirst (c : Char) (segs : List (List Char)) :
    (extendFirst c segs).flatten = c :: segs.flatten := by
  cases segs <;> rfl

/-- Nothing is lost by `splitCase`. -/
theorem flatten_splitCase (cs : List Char) : (splitCase cs).flatten = cs := by
  fun_induction splitCase cs with
  | case1 => rfl
  | case2 c => rfl
  | case3 c d cs h ih => rw [List.flatten_cons, ih]; rfl
  | case4 c d cs h ih => rw [flatten_extendFirst, ih]

/-- The first segment of `splitCase` starts where the text does. -/
theorem splitCase_cons (d : Char) (cs : List Char) :
    ∃ seg segs, splitCase (d :: cs) = (d :: seg) :: segs := by
  cases cs with
  | nil => exact ⟨[], [], rfl⟩
  | cons e cs =>
    unfold splitCase
    split
    · exact ⟨[], _, rfl⟩
    · cases splitCase (e :: cs) with
      | nil => exact ⟨[], [], rfl⟩
      | cons seg segs => exact ⟨seg, segs, rfl⟩

theorem ne_nil_of_mem_splitCase {cs seg : List Char} (h : seg ∈ splitCase cs) : seg ≠ [] := by
  fun_induction splitCase cs generalizing seg with
  | case1 => cases h
  | case2 c => exact List.mem_singleton.mp h ▸ List.cons_ne_nil _ _
  | case3 c d cs _ ih =>
    rcases List.mem_cons.mp h with rfl | h
    · exact List.cons_ne_nil _ _
    · exact ih h
  | case4 c d cs _ ih =>
    obtain ⟨first, segs, hs⟩ := splitCase_cons d cs
    rw [hs] at h ih
    rcases List.mem_cons.mp h with rfl | h
    · exact List.cons_ne_nil _ _
    · exact ih (List.mem_cons_of_mem _ h)

/-- The segments of `splitCase` are made of what is split. -/
theorem mem_of_mem_splitCase {cs seg : List Char} {c : Char} (h : seg ∈ splitCase cs)
    (hc : c ∈ seg) : c ∈ cs :=
  flatten_splitCase cs ▸ List.mem_flatten_of_mem h hc

/-- With one more character `c` in front all cuts move, except for the one at the start. -/
theorem cutAt_extendFirst {c d : Char} {seg : List Char} {segs : List (List Char)} {i : Nat} :
    CutAt (extendFirst c ((d :: seg) :: segs)) (i + 1) ↔ i ≠ 0 ∧ CutAt ((d :: seg) :: segs) i := by
  simp only [extendFirst, cutAt_cons, List.length_cons]
  constructor
  · rintro (h | ⟨j, hj, h⟩)
    · omega
    · exact ⟨by omega, .inr ⟨j, hj, by omega⟩⟩
  · rintro ⟨hi, rfl | ⟨j, hj, h⟩⟩
    · exact absurd rfl hi
    · exact .inr ⟨j, hj, by omega⟩

theorem startsWord_iff {c d : Char} :
    startsWord c d = true ↔ Text.isUpper d = true ∧ Text.isUpper c = false := by
  rw [startsWord, Bool.and_eq_true, Bool.not_eq_true']

/-- By `splitCase`, a text is cut where a word starts, see `startsWord`. -/
theorem cutAt_splitCase {cs : List Char} {i : Nat} (h : i + 1 < cs.length) :
    CutAt (splitCase cs) (i + 1) ↔ startsWord cs[i] cs[i + 1] = true := by
  fun_induction splitCase cs generalizing i with
  | case1 => cases h
  | case2 c => exact absurd h (by simp)
  | case3 c d cs hstart ih =>
    have hcut : CutAt ([c] :: splitCase (d :: cs)) (i + 1) ↔ CutAt (splitCase (d :: cs)) i := by
      rw [Nat.add_comm]
      exact cutAt_cons_add (List.cons_ne_nil c [])
    rw [hcut]
    cases i with
    | zero => exact iff_of_true (cutAt_zero _) hstart
    | succ i => exact ih (Nat.lt_of_succ_lt_succ h)
  | case4 c d cs hstart ih =>
    obtain ⟨first, segs, hs⟩ := splitCase_cons d cs
    rw [hs] at ih ⊢
    rw [cutAt_extendFirst]
    cases i with
    | zero => exact iff_of_false (fun h => h.1 rfl) hstart
    | succ i => exact (and_iff_right i.succ_ne_zero).trans (ih (Nat.lt_of_succ_lt_succ h))

theorem caseSegments_splitCase (cs : List Char) : CaseSegments cs (splitCase cs) where
  nonempty _ := ne_nil_of_mem_splitCase
  flatten := flatten_splitCase cs
  cutAt_iff _ h := (cutAt_splitCase h).trans startsWord_iff

theorem caseSegments_iff {cs : List Char} {segs : List (List Char)} :
    CaseSegments cs segs ↔ segs = splitCase cs :=
  ⟨fun h => h.unique (caseSegments_splitCase cs), fun h => h ▸ caseSegments_splitCase cs⟩

/-- Every segment of `splitCase` but the first starts with a capital letter. -/
theorem isUpper_of_mem_tail {cs seg : List Char} (h : seg ∈ (splitCase cs).tail) {d : Char}
    (hd : seg.head? = some d) : Text.isUpper d := by
  fun_induction splitCase cs generalizing seg with
  | case1 => cases h
  | case2 c => cases h
  | case3 c e cs hstart ih =>
    obtain ⟨first, segs, hs⟩ := splitCase_cons e cs
    rw [hs] at ih h
    rcases List.mem_cons.mp h with rfl | h
    · obtain rfl := Option.some.inj hd
      exact (Bool.and_eq_true_iff.mp hstart).1
    · exact ih h hd
  | case4 c e cs _ ih =>
    obtain ⟨first, segs, hs⟩ := splitCase_cons e cs
    rw [hs] at ih h
    exact ih h hd

/-! ## Markers at the ends -/

/-- What is left of `cs` when a marker in front is taken off, if there is one, and after that a
marker at the end. -/
def Unmarks (cs rest : List Char) : Prop :=
  ∃ mid, (cs = escapeMarker :: mid ∨ cs = mid ∧ mid.head? ≠ some escapeMarker) ∧
    (mid = rest ++ [escapeMarker] ∨ mid = rest ∧ rest.getLast? ≠ some escapeMarker)

theorem dropMarker_cases (cs : List Char) : cs = escapeMarker :: dropMarker cs ∨
    cs = dropMarker cs ∧ (dropMarker cs).head? ≠ some escapeMarker := by
  cases cs with
  | nil => exact .inr ⟨rfl, nofun⟩
  | cons c cs =>
    by_cases hc : c = escapeMarker
    · rw [dropMarker, if_pos hc, hc]
      exact .inl rfl
    · rw [dropMarker, if_neg hc]
      exact .inr ⟨rfl, fun h => hc (Option.some.inj h)⟩

theorem unmarks_stripMarkers (cs : List Char) : Unmarks cs (stripMarkers cs) := by
  refine ⟨dropMarker cs, dropMarker_cases cs, ?_⟩
  rw [stripMarkers, List.getLast?_reverse]
  refine (dropMarker_cases (dropMarker cs).reverse).imp (fun h => ?_) (And.imp_left fun h => ?_)
  · rw [← List.reverse_cons, ← h, List.reverse_reverse]
  · rw [← h, List.reverse_reverse]

/-- Nothing is left by `stripMarkers` of markers alone. -/
theorem stripMarkers_eq_nil_iff {cs : List Char} : stripMarkers cs = [] ↔
    cs = [] ∨ cs = [escapeMarker] ∨ cs = [escapeMarker, escapeMarker] := by
  constructor
  · intro h
    obtain ⟨mid, hfront, hback⟩ := unmarks_stripMarkers cs
    rw [h] at hback
    obtain rfl | ⟨rfl, -⟩ := hback
    · obtain rfl | ⟨-, hhead⟩ := hfront
      · exact .inr (.inr rfl)
      · exact absurd rfl hhead
    · exact hfront.elim (.inr ∘ .inl) fun h => .inl h.1
  · rintro (rfl | rfl | rfl) <;> rfl

/-! ## Words -/

namespace Name

/-- By `ofCase` each segment becomes a word. -/
theorem words_ofCase (text : String) : (ofCase text).words =
    (splitCase (stripMarkers text.toList)).map fun seg => Text.lower (String.ofList seg) := by
  rw [ofCase, ofSegments, ofWords, List.map_map]
  refine List.filter_eq_self.mpr fun w hw => ?_
  obtain ⟨seg, hseg, rfl⟩ := List.mem_map.mp hw
  refine decide_eq_true (mt Text.lower_eq_empty_iff.mp ?_)
  exact mt String.ofList_eq_empty_iff.mp (ne_nil_of_mem_splitCase hseg)

theorem isEmpty_ofCase_iff (text : String) :
    (ofCase text).isEmpty = true ↔ stripMarkers text.toList = [] := by
  rw [isEmpty, words_ofCase, List.isEmpty_iff, List.map_eq_nil_iff]
  constructor
  · intro h
    rw [← flatten_splitCase (stripMarkers text.toList), h, List.flatten_nil]
  · intro h
    rw [h, splitCase]

/-- The words of a name in camel case are the `CaseSegments` that the rule on capital letters
gives. -/
theorem ofCase_segmented (text : String) :
    -- One marker goes from each end that has one.
    Unmarks text.toList (stripMarkers text.toList) ∧
    -- What is left is cut in one way only, and the words are the segments in lower case.
    (∃ segs, (∀ other, CaseSegments (stripMarkers text.toList) other ↔ other = segs) ∧
      (ofCase text).words = segs.map fun seg => Text.lower (String.ofList seg)) ∧
    -- There are no words in markers alone.
    ((ofCase text).isEmpty = true ↔ text = "" ∨ text = "_" ∨ text = "__") := by
  refine ⟨unmarks_stripMarkers _, ⟨_, fun _ => caseSegments_iff, words_ofCase text⟩, ?_⟩
  have htext (t : String) : text.toList = t.toList ↔ text = t := String.toList_inj
  rw [isEmpty_ofCase_iff, stripMarkers_eq_nil_iff, ← htext "", ← htext "_", ← htext "__"]
  rfl

end Name

end ApiModel
