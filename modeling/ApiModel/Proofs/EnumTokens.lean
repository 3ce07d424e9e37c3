import ApiModel.Proofs.CanonicalNames
import ApiModel.Proofs.Outcome
import Mathlib.Data.List.Forall2

/-!
# Tokens of enumerations

The token of a value in bindings is its name in upper case, with underscores
between the words. Read as a constant, it gives the name back if lower case takes
each word back to what it was. Two things can be in the way. Some letters aren't
the lower case of their upper case: `ß` becomes `SS` and then stays `ss`, and `ı`
becomes `I` and then `i`. And both forms of small sigma have one capital form,
which is lower-cased by its place, so a sigma comes back if it had the form that
belongs there. The second isn't changed by upper case, since a letter that does
come back is looked at in the same way by the rule for sigma.

Constants in ASCII meet neither.
-/

namespace ApiModel

namespace Text

/-! ## Back from upper case -/

/-- The lower case of the upper case of `c` is `c`. -/
def Reversible (c : Char) : Prop :=
  (upperChar c).flatMap lowerChar = [c]

instance : DecidablePred Reversible := fun c =>
  inferInstanceAs (Decidable ((upperChar c).flatMap lowerChar = [c]))

/-- After `before`, read backwards, each small sigma has its final form just where it ends a
word. -/
def SigmasPlaced (before : List Char) : List Char → Prop
  | [] => True
  | c :: cs =>
    (c = 'σ' ∨ c = 'ς' → (c = 'ς' ↔ endsWord before cs = true)) ∧ SigmasPlaced (c :: before) cs

instance decidableSigmasPlaced : ∀ before cs, Decidable (SigmasPlaced before cs)
  | _, [] => isTrue trivial
  | before, c :: cs =>
    have := decidableSigmasPlaced (c :: before) cs
    inferInstanceAs (Decidable (_ ∧ _))

/-- Without `Σ`, `lowerFrom` takes letters one by one. -/
theorem lowerFrom_append {cs : List Char} (h : 'Σ' ∉ cs) (before rest : List Char) :
    lowerFrom before (cs ++ rest) =
      cs.flatMap lowerChar ++ lowerFrom (cs.reverse ++ before) rest := by
  induction cs generalizing before with
  | nil => rfl
  | cons c cs ih =>
    rw [List.mem_cons, not_or] at h
    rw [List.cons_append, lowerFrom, lowerAt, if_neg (Ne.symm h.1), ih h.2, List.flatMap_cons,
      List.append_assoc, List.reverse_cons, List.append_assoc, List.singleton_append]

theorem length_le_flatMap {f : Char → List Char} (hf : ∀ c, f c ≠ []) (cs : List Char) :
    cs.length ≤ (cs.flatMap f).length := by
  induction cs with
  | nil => exact Nat.le_refl 0
  | cons c cs ih =>
    have hc := List.length_pos_iff.mpr (hf c)
    rw [List.flatMap_cons, List.length_append, List.length_cons]
    omega

theorem length_le_lowerFrom_upperChars (before cs : List Char) :
    cs.length ≤ (lowerFrom before (upperChars cs)).length := by
  rw [length_lowerFrom]
  exact (length_le_flatMap upperChar_ne_nil cs).trans (length_le_flatMap lowerChar_ne_nil _)

theorem upperChar_sigma {c : Char} (h : c = 'σ' ∨ c = 'ς') : upperChar c = ['Σ'] := by
  rcases h with rfl | rfl <;> decide

/-- Where neither `xs` nor `ys` can be too short, each has to be just as long as its counterpart. -/
theorem append_eq_cons_iff_of_length {xs ys cs : List Char} {c : Char} (hxs : 1 ≤ xs.length)
    (hys : cs.length ≤ ys.length) : xs ++ ys = c :: cs ↔ xs = [c] ∧ ys = cs := by
  constructor
  · intro heq
    have hlength := congrArg List.length heq
    rw [List.length_append, List.length_cons] at hlength
    exact List.append_inj heq (by rw [List.length_singleton]; omega)
  · rintro ⟨rfl, rfl⟩
    rfl

/-- By `lowerFrom` and `upperChars` no letter is lost on the way, so none may be gained if all are
to come back. -/
theorem lowerFrom_upperChars_cons (before : List Char) (c : Char) (cs : List Char) :
    lowerFrom before (upperChars (c :: cs)) = c :: cs ↔
      (if c = 'σ' ∨ c = 'ς' then (c = 'ς' ↔ endsWord before (upperChars cs) = true)
        else Reversible c) ∧
      lowerFrom ((upperChar c).reverse ++ before) (upperChars cs) = cs := by
  have hcons : upperChars (c :: cs) = upperChar c ++ upperChars cs := List.flatMap_cons
  rw [hcons]
  split
  · rename_i hsigma
    rw [upperChar_sigma hsigma, List.singleton_append, lowerFrom, lowerAt, if_pos rfl,
      List.singleton_append, List.cons.injEq]
    refine and_congr_left' ?_
    rcases hsigma with rfl | rfl <;> split <;> simp [*]
  · rename_i hsigma
    by_cases hmem : 'Σ' ∈ upperChar c
    · -- A capital sigma is left, and that doesn't come back.
      obtain rfl | ⟨-, hsmall⟩ := of_mem_upperChar hmem (.inr rfl)
      · have hupper : upperChar 'Σ' = ['Σ'] := by decide
        refine iff_of_false ?_ fun h => absurd h.1 (by decide)
        rw [hupper, List.singleton_append, lowerFrom, lowerAt, if_pos rfl, List.singleton_append,
          List.cons.injEq]
        rintro ⟨hfirst, -⟩
        split at hfirst <;> exact absurd hfirst (by decide)
      · exact absurd hsmall hsigma
    · rw [lowerFrom_append hmem]
      refine append_eq_cons_iff_of_length ?_ (length_le_lowerFrom_upperChars _ cs)
      exact (List.length_pos_iff.mpr (upperChar_ne_nil c)).trans_le
        (length_le_flatMap lowerChar_ne_nil _)

/-! ## Places of sigma -/

/-- The rule for sigma can't tell `c` and `d` apart. -/
structure SameKind (c d : Char) : Prop where
  cased : isCased c = isCased d
  caseIgnorable : isCaseIgnorable c = isCaseIgnorable d

theorem meetsCased_cons (c : Char) (cs : List Char) : meetsCased (c :: cs) =
    if isCaseIgnorable c = true then meetsCased cs else isCased c := by
  by_cases h : isCaseIgnorable c = true <;> simp [meetsCased, h]

theorem meetsCased_eq {cs ds : List Char} (h : List.Forall₂ SameKind cs ds) :
    meetsCased cs = meetsCased ds := by
  induction h with
  | nil => rfl
  | @cons c d cs ds hhead htail ih =>
    rw [meetsCased_cons, meetsCased_cons, hhead.caseIgnorable, hhead.cased, ih]

theorem endsWord_eq {before before' after after' : List Char}
    (hbefore : List.Forall₂ SameKind before before') (hafter : List.Forall₂ SameKind after after') :
    endsWord before after = endsWord before' after' := by
  rw [endsWord, endsWord, meetsCased_eq hbefore, meetsCased_eq hafter]

/-- A character that comes back has one letter for its `upperChar`, of the `SameKind`. -/
theorem upperChar_sameKind {c : Char} (h : c = 'ς' ∨ Reversible c) :
    ∃ d, upperChar c = [d] ∧ SameKind c d := by
  rcases h with rfl | h
  · exact ⟨'Σ', upperChar_sigma (.inr rfl), by decide +kernel, by decide +kernel⟩
  · have hlength := congrArg List.length h
    have hle := length_le_flatMap lowerChar_ne_nil (upperChar c)
    rw [List.length_singleton] at hlength
    obtain ⟨d, ds, hupper⟩ := List.exists_cons_of_ne_nil (upperChar_ne_nil c)
    rw [hupper, List.length_cons, ← hupper, hlength] at hle
    obtain rfl := List.length_eq_zero_iff.mp (by omega : ds.length = 0)
    rw [Reversible, hupper, List.flatMap_singleton] at h
    obtain ⟨hcased, hignorable⟩ := class_of_lowerChar h
    exact ⟨d, hupper, hcased.symm, hignorable.symm⟩

theorem forall₂_upperChars {cs : List Char} (h : ∀ c ∈ cs, c = 'ς' ∨ Reversible c) :
    List.Forall₂ SameKind cs (upperChars cs) := by
  induction cs with
  | nil => exact .nil
  | cons c cs ih =>
    obtain ⟨hc, hcs⟩ := List.forall_mem_cons.mp h
    obtain ⟨d, hupper, hd⟩ := upperChar_sameKind hc
    rw [upperChars, List.flatMap_cons, hupper]
    exact .cons hd (ih hcs)

theorem reversible_sigma : Reversible 'σ' := by decide

theorem reversible_of_lowerFrom {before cs : List Char}
    (h : lowerFrom before (upperChars cs) = cs) : ∀ c ∈ cs, c = 'ς' ∨ Reversible c := by
  induction cs generalizing before with
  | nil => exact fun c hc => absurd hc List.not_mem_nil
  | cons c cs ih =>
    obtain ⟨hc, hcs⟩ := (lowerFrom_upperChars_cons before c cs).mp h
    refine List.forall_mem_cons.mpr ⟨?_, ih hcs⟩
    split at hc
    · rename_i hsigma
      rcases hsigma with rfl | rfl
      · exact .inr reversible_sigma
      · exact .inl rfl
    · exact .inr hc

theorem lowerFrom_upperChars_iff {before before' cs : List Char}
    (h : ∀ c ∈ cs, c = 'ς' ∨ Reversible c) (hbefore : List.Forall₂ SameKind before before') :
    lowerFrom before' (upperChars cs) = cs ↔ SigmasPlaced before cs := by
  induction cs generalizing before before' with
  | nil => exact iff_of_true rfl trivial
  | cons c cs ih =>
    obtain ⟨hc, hcs⟩ := List.forall_mem_cons.mp h
    obtain ⟨d, hupper, hd⟩ := upperChar_sameKind hc
    rw [lowerFrom_upperChars_cons, SigmasPlaced, hupper, List.reverse_singleton,
      List.singleton_append, ih hcs (.cons hd hbefore),
      endsWord_eq hbefore (forall₂_upperChars hcs)]
    refine and_congr_left' ?_
    split
    · rename_i hsigma
      exact ⟨fun h _ => h, fun h => h hsigma⟩
    · rename_i hsigma
      exact iff_of_true (hc.resolve_left fun hfinal => hsigma (.inr hfinal))
        fun h => absurd h hsigma

/-- Which texts come back from `upperChars`. -/
theorem lowerChars_upperChars_iff (cs : List Char) : lowerChars (upperChars cs) = cs ↔
    (∀ c ∈ cs, c = 'ς' ∨ Reversible c) ∧ SigmasPlaced [] cs := by
  constructor
  · intro h
    have hrev := reversible_of_lowerFrom h
    exact ⟨hrev, (lowerFrom_upperChars_iff hrev .nil).mp h⟩
  · rintro ⟨hrev, hplaced⟩
    exact (lowerFrom_upperChars_iff hrev .nil).mpr hplaced

/-! ## Plain letters -/

section Ascii

variable {before cs : List Char}

theorem ascii_of_mem_lowerFrom (h : ∀ c ∈ cs, c.toNat < 128) :
    ∀ d ∈ lowerFrom before cs, d.toNat < 128 := by
  rw [lowerFrom_ascii h]
  refine List.forall_mem_map.mpr fun c hc => ?_
  exact forall_ascii (P := fun c => c.toLower.toNat < 128) (by decide) c (h c hc)

theorem reversible_of_ascii {c : Char} (hc : c.toNat < 128) (hlower : lowerChar c = [c]) :
    Reversible c :=
  forall_ascii (P := fun c => lowerChar c = [c] → Reversible c) (by decide +kernel) c hc hlower

theorem sigmasPlaced_of_ascii (h : ∀ c ∈ cs, c.toNat < 128) : SigmasPlaced before cs := by
  induction cs generalizing before with
  | nil => trivial
  | cons c cs ih =>
    obtain ⟨hc, hcs⟩ := List.forall_mem_cons.mp h
    refine ⟨?_, ih hcs⟩
    rintro (rfl | rfl) <;> exact absurd hc (by decide)

end Ascii

theorem upperChars_intercalate (segs : List (List Char)) :
    upperChars (['_'].intercalate segs) = ['_'].intercalate (segs.map upperChars) := by
  have hmarker : upperChars ['_'] = ['_'] := by decide
  have happend (xs ys : List Char) : upperChars (xs ++ ys) = upperChars xs ++ upperChars ys :=
    List.flatMap_append
  induction segs with
  | nil => rfl
  | cons seg segs ih =>
    cases segs with
    | nil => rw [List.map_singleton, List.intercalate_singleton, List.intercalate_singleton]
    | cons seg' segs =>
      rw [List.intercalate_cons_cons, happend, happend, hmarker, ih]
      simp only [List.map_cons, List.intercalate_cons_cons]

end Text

/-! ## Names of constants -/

namespace Name

variable {n : Name}

/-- Words are divided by `_` in the text, so that none holds one. -/
theorem separate_ofConstant {text w : String} (hw : w ∈ (ofConstant text).words) :
    Separate '_' w.toList := by
  obtain ⟨hne, x, hx, rfl⟩ := mem_words_ofWords.mp hw
  obtain ⟨seg, hseg, rfl⟩ := List.mem_map.mp hx
  have hfree : '_' ∉ (Text.lower (String.ofList seg)).toList := by
    intro hmem
    rw [Text.lower, String.toList_ofList, String.toList_ofList] at hmem
    exact not_mem_of_mem_splitOn hseg (Text.underscore_of_mem_lowerFrom hmem)
  exact ⟨mt String.toList_eq_nil_iff.mp hne, hfree, hfree⟩

theorem toList_display (n : Name) :
    n.display.toList = ['_'].intercalate (n.words.map String.toList) := by
  rw [display, join, String.toList_intercalate]
  rfl

/-- `Text.upper` leaves words apart, and they are put in lower case one by one. -/
theorem ofConstant_upper_display (h : ∀ w ∈ n.words, Separate '_' w.toList) :
    ofConstant (Text.upper n.display) = ⟨n.words.map fun w => Text.lower (Text.upper w)⟩ := by
  have hupper : Text.upper n.display =
      String.ofList (['_'].intercalate (n.words.map fun w => Text.upperChars w.toList)) := by
    rw [Text.upper, toList_display, Text.upperChars_intercalate, List.map_map]
    rfl
  have hsep : ∀ w ∈ n.words, Separate '_' (Text.upperChars w.toList) := by
    intro w hw
    have hfree : '_' ∉ Text.upperChars w.toList := by
      intro hmem
      obtain ⟨c, hc, hmem⟩ := List.mem_flatMap.mp hmem
      exact (h w hw).separator (Text.underscore_of_mem_upperChar hmem ▸ hc)
    refine ⟨fun hnil => ?_, hfree, hfree⟩
    obtain ⟨c, cs, hcs⟩ := List.exists_cons_of_ne_nil (h w hw).nonempty
    exact Text.upperChar_ne_nil c (List.flatMap_eq_nil_iff.mp hnil c (hcs ▸ List.mem_cons_self))
  rw [hupper, ofConstant, ofSeparated_intercalate (List.forall_mem_map.mpr hsep), ofSegments,
    ofWords, List.map_map, List.map_map, List.filter_eq_self.mpr]
  · rfl
  · refine List.forall_mem_map.mpr fun w hw => decide_eq_true ?_
    exact mt Text.lower_eq_empty_iff.mp (mt String.ofList_eq_empty_iff.mp (hsep w hw).nonempty)

/-- The name `n` comes back from upper case if all its words do. -/
theorem ofConstant_upper_display_eq_iff (h : ∀ w ∈ n.words, Separate '_' w.toList) :
    ofConstant (Text.upper n.display) = n ↔ ∀ w ∈ n.words, Text.lower (Text.upper w) = w := by
  obtain ⟨words⟩ := n
  rw [ofConstant_upper_display h, mk.injEq]
  exact ⟨fun heq => List.map_eq_map_iff.mp (heq.trans (List.map_id words).symm),
    fun hback => (List.map_congr_left hback).trans (List.map_id words)⟩

theorem ascii_ofConstant {text w : String} (h : ∀ c ∈ text.toList, c.toNat < 128)
    (hw : w ∈ (ofConstant text).words) : ∀ c ∈ w.toList, c.toNat < 128 := by
  obtain ⟨-, x, hx, rfl⟩ := mem_words_ofWords.mp hw
  obtain ⟨seg, hseg, rfl⟩ := List.mem_map.mp hx
  rw [Text.lower, String.toList_ofList, String.toList_ofList]
  exact Text.ascii_of_mem_lowerFrom fun c hc =>
    h c ((stripMarkers_sublist _).mem (mem_of_mem_splitOn hseg hc))

end Name

/-! ## Tokens -/

theorem Text.lower_upper_iff (text : String) : lower (upper text) = text ↔
    (∀ c ∈ text.toList, c = 'ς' ∨ Reversible c) ∧ SigmasPlaced [] text.toList := by
  rw [← lowerChars_upperChars_iff, ← String.toList_inj, lower, upper, String.toList_ofList,
    String.toList_ofList]

namespace EnumValue

variable {v : EnumValue} {text : String}

theorem ofConstant_upperToken_eq_iff (h : v.name = Name.ofConstant text) :
    Name.ofConstant v.upperToken = v.name ↔ ∀ w ∈ v.name.words,
      (∀ c ∈ w.toList, c = 'ς' ∨ Text.Reversible c) ∧ Text.SigmasPlaced [] w.toList := by
  have hsep : ∀ w ∈ v.name.words, Separate '_' w.toList :=
    fun w hw => Name.separate_ofConstant (h ▸ hw)
  rw [upperToken, Name.ofConstant_upper_display_eq_iff hsep]
  exact forall₂_congr fun w _ => Text.lower_upper_iff w

theorem ofConstant_upperToken_of_ascii (h : v.name = Name.ofConstant text)
    (hascii : ∀ c ∈ text.toList, c.toNat < 128) : Name.ofConstant v.upperToken = v.name := by
  refine (ofConstant_upperToken_eq_iff h).mpr fun w hw => ?_
  have hcanonical : v.name.Canonical := h ▸ Name.canonical_ofSeparated '_' text
  have hw' := Name.ascii_ofConstant hascii (h ▸ hw)
  have hlowered := Text.lower_eq_self_iff.mp (hcanonical.lowered w hw)
  exact ⟨fun c hc => .inr (Text.reversible_of_ascii (hw' c hc) (hlowered c hc)),
    Text.sigmasPlaced_of_ascii hw'⟩

end EnumValue

namespace Declare

theorem exec_enumValue (owner : TypeId) (decl : ConstantDecl) (d : Draft)
    (h : decl.isNamed = true) : ∃ v, (enumValue owner decl).exec d = (.ok v, d) ∧
      v.name = Name.ofConstant decl.name := by
  have hname : (Name.ofConstant decl.name).isEmpty = false := by
    simpa [ConstantDecl.isNamed] using h
  refine ⟨⟨decl.info.concept (Name.ofConstant decl.name), owner⟩, ?_, name_concept _ _⟩
  rw [enumValue, checked, hname]
  rfl

/-- The value of a constant has an `upperToken` that is read as its name again exactly if, in each
word, all letters are the lower case of their upper case and each sigma has the form that its place
asks for. -/
theorem enumValue_upperToken_iff (owner : TypeId) (decl : ConstantDecl) (d : Draft)
    (h : decl.isNamed = true) : ∃ v, (enumValue owner decl).exec d = (.ok v, d) ∧
      v.name = Name.ofConstant decl.name ∧
      (Name.ofConstant v.upperToken = v.name ↔ ∀ w ∈ v.name.words,
        (∀ c ∈ w.toList, c = 'ς' ∨ Text.Reversible c) ∧ Text.SigmasPlaced [] w.toList) ∧
      ((∀ c ∈ decl.name.toList, c.toNat < 128) → Name.ofConstant v.upperToken = v.name) := by
  obtain ⟨v, hexec, hv⟩ := exec_enumValue owner decl d h
  exact ⟨v, hexec, hv, EnumValue.ofConstant_upperToken_eq_iff hv,
    EnumValue.ofConstant_upperToken_of_ascii hv⟩

/-- A final sigma comes back at the end of a word. -/
theorem enumValue_upperToken_iff_logos :
    ConstantDecl.isNamed { name := "ΛΌΓΟΣ_READ" } = true ∧
      ∃ v, (enumValue ⟨0⟩ { name := "ΛΌΓΟΣ_READ" }).exec {} = (.ok v, {}) ∧
        v.name = ⟨["λόγος", "read"]⟩ ∧ Name.ofConstant v.upperToken = ⟨["λόγος", "read"]⟩ := by
  have hnamed : ConstantDecl.isNamed { name := "ΛΌΓΟΣ_READ" } = true := by decide +kernel
  obtain ⟨v, hexec, hv, hiff, -⟩ := enumValue_upperToken_iff ⟨0⟩ { name := "ΛΌΓΟΣ_READ" } {} hnamed
  have hname : v.name = ⟨["λόγος", "read"]⟩ := hv.trans (by decide +kernel)
  have hletters : (["λόγος", "read"].all fun w => (w.toList.all fun c => c = 'ς' ∨
      Text.Reversible c) && decide (Text.SigmasPlaced [] w.toList)) = true := by decide +kernel
  refine ⟨hnamed, v, hexec, hname, (hiff.mpr fun w hw => ?_).trans hname⟩
  rw [hname] at hw
  obtain ⟨hreversible, hplaced⟩ := Bool.and_eq_true_iff.mp (List.all_eq_true.mp hletters w hw)
  exact ⟨fun c hc => of_decide_eq_true (List.all_eq_true.mp hreversible c hc),
    of_decide_eq_true hplaced⟩

/-- The upper case of `ß` is two letters long, and these stay two. -/
theorem enumValue_upperToken_strasse : ∃ v,
    (enumValue ⟨0⟩ { name := "straße" }).exec {} = (.ok v, {}) ∧
      v.name.isEmpty = false ∧ v.name = ⟨["straße"]⟩ ∧ v.upperToken = "STRASSE" ∧
        Name.ofConstant v.upperToken = ⟨["strasse"]⟩ := by
  obtain ⟨v, hexec, hv⟩ := exec_enumValue ⟨0⟩ { name := "straße" } {} (by decide +kernel)
  have hname : v.name = ⟨["straße"]⟩ := hv.trans (by decide +kernel)
  have htoken : v.upperToken = "STRASSE" := by
    rw [EnumValue.upperToken, hname]
    decide +kernel
  refine ⟨v, hexec, by rw [hname]; rfl, hname, htoken, ?_⟩
  rw [htoken]
  decide +kernel

end Declare

end ApiModel
