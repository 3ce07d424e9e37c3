import ApiModel.Text.Casing
import Mathlib.Data.Nat.Bitwise

/-!
# Case mappings

What the tables of letters say of every character. Lower case is final: what
lower-casing yields it doesn't change again, whatever stands around. An
underscore comes from an underscore only. And a letter and its lower case are
of the same kind where it matters for a sigma nearby.

The tables have hundreds of stretches, too many to compare each with each. So a
set of code points is written as one number that has a bit for each of them, and
two sets are compared by one operation on their numbers.
-/

namespace ApiModel.Text

/-! ## Sets of code points as numbers -/

/-- The number with the bits `ns`. -/
def bitset (ns : List Nat) : Nat :=
  ns.foldr (fun n bits => bits ||| 2 ^ n) 0

theorem testBit_bitset (ns : List Nat) (n : Nat) : (bitset ns).testBit n = decide (n ∈ ns) := by
  induction ns with
  | nil => simp [bitset]
  | cons m ns ih =>
    rw [bitset, List.foldr_cons, ← bitset, Nat.testBit_or, ih, Nat.testBit_two_pow]
    simp [Bool.or_comm, eq_comm]

theorem Span.contains_iff {s : Span} {n : Nat} : s.contains n = true ↔
    s.first ≤ n ∧ n ≤ s.last ∧ (n - s.first) % s.step = 0 := by
  simp [contains, and_assoc]

/-- A stretch without gaps is written at once. -/
def Span.bits (s : Span) : Nat :=
  if s.step = 1 then (2 ^ (s.last + 1 - s.first) - 1) <<< s.first
  else bitset ((List.range' s.first (s.last + 1 - s.first)).filter s.contains)

theorem Span.testBit_bits (s : Span) (n : Nat) : s.bits.testBit n = s.contains n := by
  rw [Bool.eq_iff_iff, contains_iff, bits]
  split
  · rename_i hstep
    rw [Nat.testBit_shiftLeft, Nat.testBit_two_pow_sub_one, hstep, Nat.mod_one]
    simp only [Bool.and_eq_true, decide_eq_true_eq, and_true]
    omega
  · rw [testBit_bitset, decide_eq_true_eq, List.mem_filter, List.mem_range'_1, contains_iff]
    omega

def spanBits (spans : List Span) : Nat :=
  spans.foldr (fun s bits => bits ||| s.bits) 0

theorem testBit_spanBits (spans : List Span) (n : Nat) :
    (spanBits spans).testBit n = inSpans spans n := by
  induction spans with
  | nil => simp [spanBits, inSpans]
  | cons s spans ih =>
    rw [spanBits, List.foldr_cons, ← spanBits, Nat.testBit_or, ih, s.testBit_bits, inSpans, inSpans,
      List.any_cons, Bool.or_comm]

section Compare

variable {as bs : List Span} {n : Nat}

theorem inSpans_of_disjoint (h : spanBits as &&& spanBits bs = 0) (hn : inSpans as n = true) :
    inSpans bs n = false := by
  have hbit := Nat.testBit_and (spanBits as) (spanBits bs) n
  rw [h, Nat.zero_testBit, testBit_spanBits, testBit_spanBits, hn, Bool.true_and] at hbit
  exact hbit.symm

theorem inSpans_of_subset (h : spanBits as &&& spanBits bs = spanBits as)
    (hn : inSpans as n = true) : inSpans bs n = true := by
  have hbit := Nat.testBit_and (spanBits as) (spanBits bs) n
  rw [h, testBit_spanBits, testBit_spanBits, hn, Bool.true_and] at hbit
  exact hbit.symm

end Compare

/-! ## Tables of letters -/

/-- What the stretch `s` moves to. -/
def Shift.image (s : Shift) : Span :=
  ⟨s.target, s.target + (s.last - s.first), s.step⟩

section Tables

variable {shifts : List Shift} {n k : Nat}

theorem shift?_eq_some (h : shift? shifts n = some k) :
    ∃ s ∈ shifts, s.contains n ∧ s.image.contains k ∧ n = s.first + (k - s.target) := by
  obtain ⟨s, hs, rfl⟩ := Option.map_eq_some_iff.mp h
  have hn := List.find?_some hs
  obtain ⟨hfirst, hlast, hstep⟩ := Span.contains_iff.mp hn
  have hoffset : s.apply n - s.target = n - s.first := Nat.add_sub_cancel_left ..
  refine ⟨s, List.mem_of_find?_eq_some hs, hn, Span.contains_iff.mpr ⟨?_, ?_, ?_⟩, ?_⟩
  · exact Nat.le_add_right ..
  · exact Nat.add_le_add_left (Nat.sub_le_sub_right hlast _) _
  · rw [← hstep, ← hoffset]
    rfl
  · omega

/-- A letter `n` of the table, and the letter `k` it is mapped to. -/
theorem inSpans_of_shift? (h : shift? shifts n = some k) :
    inSpans (shifts.map (·.toSpan)) n = true ∧ inSpans (shifts.map Shift.image) k = true := by
  obtain ⟨s, hs, hn, hk, -⟩ := shift?_eq_some h
  exact ⟨List.any_eq_true.mpr ⟨_, List.mem_map_of_mem hs, hn⟩,
    List.any_eq_true.mpr ⟨_, List.mem_map_of_mem hs, hk⟩⟩

theorem shift?_eq_none (h : inSpans (shifts.map (·.toSpan)) n = false) :
    shift? shifts n = none := by
  rcases hk : shift? shifts n with _ | k
  · rfl
  · rw [(inSpans_of_shift? hk).1] at h
    cases h

end Tables

/-! ## Lower case of a character -/

/-- A property `P` of ASCII characters is checked one by one. -/
theorem forall_ascii {P : Char → Prop} (h : ∀ n < 128, P (Char.ofNat n)) (c : Char)
    (hc : c.toNat < 128) : P c := by
  have hP := h c.toNat hc
  rwa [Char.ofNat_toNat] at hP

theorem toNat_ofNat {k : Nat} (h : k.isValidChar) : (Char.ofNat k).toNat = k := by
  rw [Char.ofNat, dif_pos h]
  rfl

theorem lowerChar_cases (c : Char) : (c.toNat < 128 ∧ lowerChar c = [c.toLower]) ∨
    lowerChar c = ['i', '\u0307'] ∨
    (128 ≤ c.toNat ∧ ∃ k, shift? lowerShifts c.toNat = some k ∧ lowerChar c = [Char.ofNat k]) ∨
    lowerChar c = [c] := by
  unfold lowerChar
  split
  · exact .inl ⟨‹_›, rfl⟩
  · split
    · exact .inr (.inl rfl)
    · split
      · rename_i hascii _ _ _ hk
        exact .inr (.inr (.inl ⟨Nat.not_lt.mp hascii, _, hk, rfl⟩))
      · exact .inr (.inr (.inr rfl))

/-- Code points that `lowerShifts` doesn't lead to: all of ASCII but its small letters, the letter
that is lower-cased to two, surrogates, and the letters of the table itself. -/
def unsettledSpans : List Span :=
  [⟨0, 0x60, 1⟩, ⟨0x7B, 0x7F, 1⟩, ⟨0x130, 0x130, 1⟩, ⟨0xD800, 0xDFFF, 1⟩] ++
    lowerShifts.map (·.toSpan)

theorem lowerImages_settled :
    spanBits (lowerShifts.map Shift.image) &&& spanBits unsettledSpans = 0 ∧
      (lowerShifts.all fun s => s.image.last < 0x110000) = true := by
  decide +kernel

/-- A letter `k` that `lowerShifts` leads to. -/
theorem lowerChar_ofNat {n k : Nat} (h : shift? lowerShifts n = some k) :
    (Char.ofNat k).toNat = k ∧ (k < 128 → 0x61 ≤ k ∧ k ≤ 0x7A) ∧
      lowerChar (Char.ofNat k) = [Char.ofNat k] := by
  have hsettled := inSpans_of_disjoint lowerImages_settled.1 (inSpans_of_shift? h).2
  have hplain : ∀ a b, ⟨a, b, 1⟩ ∈ unsettledSpans → ¬(a ≤ k ∧ k ≤ b) := by
    rintro a b hmem ⟨ha, hb⟩
    exact List.any_eq_false.mp hsettled _ hmem (Span.contains_iff.mpr ⟨ha, hb, Nat.mod_one _⟩)
  have hbefore := hplain 0 0x60 (by simp [unsettledSpans])
  have hafter := hplain 0x7B 0x7F (by simp [unsettledSpans])
  have hdotted := hplain 0x130 0x130 (by simp [unsettledSpans])
  have hsurrogate := hplain 0xD800 0xDFFF (by simp [unsettledSpans])
  have htable : shift? lowerShifts k = none := by
    rw [inSpans, unsettledSpans, List.any_append, Bool.or_eq_false_iff] at hsettled
    exact shift?_eq_none hsettled.2
  have hbound : k < 0x110000 := by
    obtain ⟨s, hs, -, hk, -⟩ := shift?_eq_some h
    exact Nat.lt_of_le_of_lt (Span.contains_iff.mp hk).2.1
      (of_decide_eq_true (List.all_eq_true.mp lowerImages_settled.2 s hs))
  have htoNat : (Char.ofNat k).toNat = k := toNat_ofNat (by simp only [Nat.isValidChar]; omega)
  refine ⟨htoNat, by omega, ?_⟩
  unfold lowerChar
  rw [htoNat]
  split
  · rename_i hascii
    have hlower : ∀ n < 128, 0x61 ≤ n → (Char.ofNat n).toLower = Char.ofNat n := by decide
    rw [hlower k hascii (by omega)]
  · rw [if_neg, htable]
    intro heq
    have hk : k = 0x130 := htoNat.symm.trans (congrArg Char.toNat heq)
    omega

/-- Lower case is final: what `lowerChar` yields it leaves alone. -/
theorem lowerChar_of_mem {c d : Char} (h : d ∈ lowerChar c) : lowerChar d = [d] := by
  rcases lowerChar_cases c with ⟨hc, hlower⟩ | hlower | ⟨-, k, hk, hlower⟩ | hlower <;>
    rw [hlower] at h
  · obtain rfl := List.mem_singleton.mp h
    exact forall_ascii (P := fun c => lowerChar c.toLower = [c.toLower]) (by decide) c hc
  · rcases List.mem_cons.mp h with rfl | h
    · decide
    · obtain rfl := List.mem_singleton.mp h
      decide
  · obtain rfl := List.mem_singleton.mp h
    exact (lowerChar_ofNat hk).2.2
  · obtain rfl := List.mem_singleton.mp h
    exact hlower

theorem lowerChar_ne_nil (c : Char) : lowerChar c ≠ [] := by
  rcases lowerChar_cases c with ⟨-, h⟩ | h | ⟨-, k, -, h⟩ | h <;> rw [h] <;>
    exact List.cons_ne_nil _ _

theorem underscore_of_mem_lowerChar {c : Char} (h : '_' ∈ lowerChar c) : c = '_' := by
  rcases lowerChar_cases c with ⟨hc, hlower⟩ | hlower | ⟨-, k, hk, hlower⟩ | hlower <;>
    rw [hlower] at h
  · exact forall_ascii (P := fun c => '_' ∈ [c.toLower] → c = '_') (by decide) c hc h
  · exact absurd h (by decide)
  · obtain ⟨htoNat, hascii, -⟩ := lowerChar_ofNat hk
    rw [← List.mem_singleton.mp h] at htoNat
    exact absurd (htoNat ▸ hascii) (by decide)
  · exact (List.mem_singleton.mp h).symm

/-! ## Letters around a sigma -/

theorem lowerChar_sigmas :
    lowerChar 'Σ' = ['σ'] ∧ lowerChar 'σ' = ['σ'] ∧ lowerChar 'ς' = ['ς'] := by
  decide

/-- The letters of `lowerShifts`, and those it leads to. -/
def tableSpans : List Span :=
  lowerShifts.map (·.toSpan) ++ lowerShifts.map Shift.image

theorem tableSpans_cased :
    spanBits tableSpans &&& spanBits (⟨0x61, 0x7A, 1⟩ :: casedSpans) = spanBits tableSpans ∧
      spanBits tableSpans &&& spanBits caseIgnorableSpans = 0 := by
  decide +kernel

theorem class_of_mem_tableSpans {c : Char} (h : inSpans tableSpans c.toNat = true)
    (hascii : c.toNat < 128 → 0x61 ≤ c.toNat ∧ c.toNat ≤ 0x7A) :
    isCased c = true ∧ isCaseIgnorable c = false := by
  by_cases hc : c.toNat < 128
  · exact forall_ascii (P := fun c => 0x61 ≤ c.toNat ∧ c.toNat ≤ 0x7A →
      isCased c = true ∧ isCaseIgnorable c = false) (by decide) c hc (hascii hc)
  · have hcased := inSpans_of_subset tableSpans_cased.1 h
    rw [inSpans, List.any_cons, Bool.or_eq_true, Span.contains_iff] at hcased
    rw [isCased, isCaseIgnorable, inClass, inClass, if_neg hc, if_neg hc]
    exact ⟨hcased.resolve_left fun hsmall => hc (Nat.lt_of_le_of_lt hsmall.2.1 (by decide)),
      inSpans_of_disjoint tableSpans_cased.2 h⟩

/-- A letter `d` and its lower case are of the same kind: `isCased` and `isCaseIgnorable` alike. -/
theorem class_of_lowerChar {c d : Char} (h : lowerChar d = [c]) :
    isCased d = isCased c ∧ isCaseIgnorable d = isCaseIgnorable c := by
  rcases lowerChar_cases d with ⟨hd, hlower⟩ | hlower | ⟨hd, k, hk, hlower⟩ | hlower <;>
    rw [hlower] at h
  · obtain rfl := List.singleton_inj.mp h
    exact forall_ascii (P := fun d => isCased d = isCased d.toLower ∧
      isCaseIgnorable d = isCaseIgnorable d.toLower) (by decide) d hd
  · cases h
  · obtain rfl := List.singleton_inj.mp h
    obtain ⟨htoNat, hascii, -⟩ := lowerChar_ofNat hk
    obtain ⟨hsource, himage⟩ := inSpans_of_shift? hk
    have hd' := class_of_mem_tableSpans (c := d)
      (by rw [inSpans, tableSpans, List.any_append, ← inSpans, hsource, Bool.true_or]) (by omega)
    have hc' := class_of_mem_tableSpans (c := Char.ofNat k)
      (by rw [htoNat, inSpans, tableSpans, List.any_append, ← inSpans, ← inSpans, himage,
        Bool.or_true])
      (by rwa [htoNat])
    exact ⟨hd'.1.trans hc'.1.symm, hd'.2.trans hc'.2.symm⟩
  · obtain rfl := List.singleton_inj.mp h
    exact ⟨rfl, rfl⟩

/-! ## Upper case of a character -/

theorem upperChar_cases (c : Char) : (c.toNat < 128 ∧ upperChar c = [c.toUpper]) ∨
    (∃ letters, (c.toNat, letters) ∈ upperExpansions ∧ upperChar c = letters.map Char.ofNat) ∨
    (∃ k, shift? upperShifts c.toNat = some k ∧ upperChar c = [Char.ofNat k]) ∨
    upperChar c = [c] := by
  unfold upperChar
  split
  · exact .inl ⟨‹_›, rfl⟩
  · split
    · rename_i letters hletters
      obtain ⟨before, after, heq, -⟩ := List.lookup_eq_some_iff.mp hletters
      exact .inr (.inl ⟨letters, by rw [heq]; simp, rfl⟩)
    · split
      · rename_i hk
        exact .inr (.inr (.inl ⟨_, hk, rfl⟩))
      · exact .inr (.inr (.inr rfl))

theorem upperTables_letters :
    (upperExpansions.all fun p => p.2 ≠ [] && p.2.all fun k => k ≠ 0x5F && k ≠ 0x3A3) = true ∧
      (upperShifts.all fun s => !s.image.contains 0x5F &&
        (!s.image.contains 0x3A3 || s.first + (0x3A3 - s.target) ∈ [0x3C2, 0x3C3])) = true := by
  decide +kernel

theorem upperChar_ne_nil (c : Char) : upperChar c ≠ [] := by
  rcases upperChar_cases c with ⟨-, h⟩ | ⟨letters, hletters, h⟩ | ⟨k, -, h⟩ | h <;> rw [h]
  · exact List.cons_ne_nil _ _
  · have hne := List.all_eq_true.mp upperTables_letters.1 _ hletters
    simp only [Bool.and_eq_true, decide_eq_true_eq] at hne
    simpa using hne.1
  · exact List.cons_ne_nil _ _
  · exact List.cons_ne_nil _ _

/-- What an underscore and a capital sigma are the upper case of, by `upperChar`. -/
theorem of_mem_upperChar {c d : Char} (h : d ∈ upperChar c) (hd : d = '_' ∨ d = 'Σ') :
    c = d ∨ d = 'Σ' ∧ (c = 'σ' ∨ c = 'ς') := by
  have hcode : ∀ k, d = Char.ofNat k → d = '_' ∧ k = 0x5F ∨ d = 'Σ' ∧ k = 0x3A3 := by
    rintro k rfl
    by_cases hk : k.isValidChar
    · exact hd.imp (fun hd => ⟨hd, (toNat_ofNat hk).symm.trans (congrArg Char.toNat hd)⟩)
        fun hd => ⟨hd, (toNat_ofNat hk).symm.trans (congrArg Char.toNat hd)⟩
    · rw [Char.ofNat, dif_neg hk] at hd
      exact absurd hd (by decide)
  rcases upperChar_cases c with ⟨hc, hupper⟩ | ⟨letters, hletters, hupper⟩ | ⟨k, hk, hupper⟩ |
      hupper <;> rw [hupper] at h
  · have hascii := forall_ascii (P := fun c => ('_' ∈ [c.toUpper] → c = '_') ∧ 'Σ' ∉ [c.toUpper])
      (by decide) c hc
    rcases hd with rfl | rfl
    · exact .inl (hascii.1 h)
    · exact absurd h hascii.2
  · obtain ⟨k, hk, hdk⟩ := List.mem_map.mp h
    have hne := List.all_eq_true.mp upperTables_letters.1 _ hletters
    simp only [Bool.and_eq_true, List.all_eq_true, decide_eq_true_eq] at hne
    rcases hcode k hdk.symm with ⟨-, hk'⟩ | ⟨-, hk'⟩
    · exact absurd hk' (hne.2 k hk).1
    · exact absurd hk' (hne.2 k hk).2
  · obtain ⟨s, hs, -, himage, hc⟩ := shift?_eq_some hk
    have hletters := List.all_eq_true.mp upperTables_letters.2 s hs
    rw [Bool.and_eq_true, Bool.or_eq_true, Bool.not_eq_true', Bool.not_eq_true',
      decide_eq_true_eq] at hletters
    rcases hcode k (List.mem_singleton.mp h) with ⟨-, rfl⟩ | ⟨hd, rfl⟩
    · exact absurd himage (by simp [hletters.1])
    · have hmem := hletters.2.resolve_left (by simp [himage])
      rw [← hc] at hmem
      refine .inr ⟨hd, ?_⟩
      rw [← Char.ofNat_toNat c]
      rcases List.mem_cons.mp hmem with hc | hc
      · exact .inr (by rw [hc])
      · exact .inl (by rw [List.mem_singleton.mp hc])
  · exact .inl (List.mem_singleton.mp h).symm

theorem underscore_of_mem_upperChar {c : Char} (h : '_' ∈ upperChar c) : c = '_' :=
  (of_mem_upperChar h (.inl rfl)).resolve_right fun hsigma => absurd hsigma.1 (by decide)

/-! ## Lower case of a text -/

section Lower

variable {before after cs : List Char} {c d : Char}

theorem lowerAt_cases (before : List Char) (c : Char) (after : List Char) :
    lowerAt before c after = lowerChar c ∨
      c = 'Σ' ∧ (lowerAt before c after = ['ς'] ∨ lowerAt before c after = ['σ']) := by
  unfold lowerAt
  split
  · split
    · exact .inr ⟨‹_›, .inl rfl⟩
    · exact .inr ⟨‹_›, .inr rfl⟩
  · exact .inl rfl

theorem lowerChar_of_mem_lowerFrom (h : d ∈ lowerFrom before cs) : lowerChar d = [d] := by
  induction cs generalizing before with
  | nil => cases h
  | cons c cs ih =>
    rcases List.mem_append.mp h with h | h
    · rcases lowerAt_cases before c cs with hlower | ⟨-, hlower | hlower⟩ <;> rw [hlower] at h
      · exact lowerChar_of_mem h
      · obtain rfl := List.mem_singleton.mp h
        exact lowerChar_sigmas.2.2
      · obtain rfl := List.mem_singleton.mp h
        exact lowerChar_sigmas.2.1
    · exact ih h

theorem underscore_of_mem_lowerFrom (h : '_' ∈ lowerFrom before cs) : '_' ∈ cs := by
  induction cs generalizing before with
  | nil => cases h
  | cons c cs ih =>
    rcases List.mem_append.mp h with h | h
    · rcases lowerAt_cases before c cs with hlower | ⟨-, hlower | hlower⟩ <;> rw [hlower] at h
      · rw [underscore_of_mem_lowerChar h]
        exact List.mem_cons_self
      · exact absurd h (by decide)
      · exact absurd h (by decide)
    · exact List.mem_cons_of_mem c (ih h)

/-- What stands `before` a character has no influence on the number of letters. -/
theorem length_lowerFrom (before cs : List Char) :
    (lowerFrom before cs).length = (cs.flatMap lowerChar).length := by
  induction cs generalizing before with
  | nil => rfl
  | cons c cs ih =>
    rw [lowerFrom, List.flatMap_cons, List.length_append, List.length_append, ih]
    rcases lowerAt_cases before c cs with hlower | ⟨rfl, hlower | hlower⟩
    · rw [hlower]
    · rw [hlower, lowerChar_sigmas.1]
      rfl
    · rw [hlower, lowerChar_sigmas.1]

theorem lowerFrom_eq_nil_iff : lowerFrom before cs = [] ↔ cs = [] := by
  rw [← List.length_eq_zero_iff, length_lowerFrom, List.length_eq_zero_iff, List.flatMap_eq_nil_iff]
  constructor
  · intro h
    exact List.eq_nil_iff_forall_not_mem.mpr fun c hc => lowerChar_ne_nil c (h c hc)
  · rintro rfl c hc
    cases hc

theorem lowerFrom_eq_self (h : ∀ c ∈ cs, lowerChar c = [c]) (before : List Char) :
    lowerFrom before cs = cs := by
  induction cs generalizing before with
  | nil => rfl
  | cons c cs ih =>
    have hc := h c List.mem_cons_self
    have hsigma : c ≠ 'Σ' := by
      rintro rfl
      exact absurd (lowerChar_sigmas.1.symm.trans hc) (by decide)
    rw [lowerFrom, lowerAt, if_neg hsigma, hc, ih fun d hd => h d (List.mem_cons_of_mem c hd)]
    rfl

theorem lowerFrom_ascii {cs : List Char} (h : ∀ c ∈ cs, c.toNat < 128) (before : List Char) :
    lowerFrom before cs = cs.map Char.toLower := by
  induction cs generalizing before with
  | nil => rfl
  | cons c cs ih =>
    have hc := h c List.mem_cons_self
    have hsigma : c ≠ 'Σ' := by
      rintro rfl
      exact absurd hc (by decide)
    have hchar : lowerChar c = [c.toLower] := by
      unfold lowerChar
      rw [if_pos hc]
    unfold lowerFrom lowerAt
    rw [if_neg hsigma, hchar, ih (fun d hd => h d (List.mem_cons_of_mem c hd))]
    rfl

end Lower

section Texts

variable {text : String}

theorem lower_eq_self_iff : lower text = text ↔ ∀ c ∈ text.toList, lowerChar c = [c] := by
  constructor
  · intro h c hc
    rw [← h, lower, String.toList_ofList] at hc
    exact lowerChar_of_mem_lowerFrom hc
  · intro h
    rw [lower, lowerChars, lowerFrom_eq_self h, String.ofList_toList]

theorem lower_lower (text : String) : lower (lower text) = lower text := by
  refine lower_eq_self_iff.mpr fun c hc => ?_
  rw [lower, String.toList_ofList] at hc
  exact lowerChar_of_mem_lowerFrom hc

theorem lower_eq_empty_iff : lower text = "" ↔ text = "" := by
  rw [← String.toList_inj, ← String.toList_inj, lower, String.toList_ofList]
  exact lowerFrom_eq_nil_iff

end Texts

end ApiModel.Text
