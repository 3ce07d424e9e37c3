import ApiModel.Proofs.CanonicalNames
import ApiModel.Schema.Naming

/-!
# Plural and singular

The singular of a plural is the word that the plural was made of, for most words
but not for all. It reads `ies` as the plural of `y`, so `cookie` comes back as
`cooky`; and it takes `es` off wherever the plural of a sibilant could have it
from, so `house` comes back as `hous`. Neither rule is applied if it would leave
nothing in front of the ending: `ie` comes back, but then the sibilants `s`, `x`,
`z`, `ch` and `sh` don't, as words of their own.

Both are rules on the last letters of the last word. They are taken apart once,
into one case for each rule.
-/

namespace ApiModel.Pluralizer

/-! ## Endings -/

section Endings

variable {ending cs stem : List Char}

theorem stem?_eq_some_iff : stem? ending cs = some stem ↔ cs = stem ++ ending := by
  rw [stem?, Option.map_eq_some_iff]
  constructor
  · rintro ⟨rest, hrest, rfl⟩
    rw [List.isPrefixOf?_eq_some_iff_append_eq] at hrest
    rw [← List.reverse_reverse cs, ← hrest, List.reverse_append, List.reverse_reverse]
  · rintro rfl
    refine ⟨stem.reverse, ?_, List.reverse_reverse stem⟩
    rw [List.isPrefixOf?_eq_some_iff_append_eq, List.reverse_append]

theorem any_stem?_iff : (stem? ending cs).any (· ≠ []) = true ↔
    ∃ stem, stem ≠ [] ∧ cs = stem ++ ending := by
  constructor
  · intro h
    rcases hstem : stem? ending cs with _ | stem <;> rw [hstem] at h
    · cases h
    · exact ⟨stem, of_decide_eq_true h, stem?_eq_some_iff.mp hstem⟩
  · rintro ⟨stem, hne, hcs⟩
    rw [stem?_eq_some_iff.mpr hcs]
    exact decide_eq_true hne

end Endings

/-! ## The rules -/

/-- A sibilant takes `es`, a `y` after a consonant becomes `ies`, and all else takes `s`. -/
theorem pluralChars_cases (cs : List Char) :
    (∃ e ∈ sibilants, ∃ stem, cs = stem ++ e ∧ pluralChars cs = cs ++ ['e', 's']) ∨
      (∀ e ∈ sibilants, ∀ stem, cs ≠ stem ++ e) ∧
        ((∃ stem, stem ≠ [] ∧ cs = stem ++ ['y'] ∧ pluralChars cs = stem ++ ['i', 'e', 's']) ∨
          pluralChars cs = cs ++ ['s']) := by
  rw [pluralChars]
  split
  · rename_i hsibilant
    obtain ⟨e, he, hstem⟩ := List.any_eq_true.mp hsibilant
    obtain ⟨stem, hstem⟩ := Option.isSome_iff_exists.mp hstem
    exact .inl ⟨e, he, stem, stem?_eq_some_iff.mp hstem, rfl⟩
  · rename_i hsibilant
    refine .inr ⟨fun e he stem hcs => hsibilant (List.any_eq_true.mpr ⟨e, he, ?_⟩), ?_⟩
    · rw [stem?_eq_some_iff.mpr hcs]
      rfl
    · split
      · exact .inr rfl
      · rename_i stem hstem
        split
        · rename_i hlast
          refine .inl ⟨stem, ?_, stem?_eq_some_iff.mp hstem, rfl⟩
          rintro rfl
          cases hlast
        · exact .inr rfl

/-- The rules for `ies`, for what may be the plural of a sibilant, and for all else. -/
theorem singularChars_cases (cs : List Char) :
    (∃ stem, stem ≠ [] ∧ cs = stem ++ ['i', 'e', 's'] ∧ singularChars cs = stem ++ ['y']) ∨
      (¬∃ stem, stem ≠ [] ∧ cs = stem ++ ['i', 'e', 's']) ∧
        ((∃ e ∈ sibilants, ∃ stem, stem ≠ [] ∧ cs = stem ++ (e ++ ['e', 's']) ∧
            singularChars cs = stem ++ e) ∨
          (∀ e ∈ sibilants, ∀ stem, stem ≠ [] → cs ≠ stem ++ (e ++ ['e', 's'])) ∧
            singularChars cs = dropS cs) := by
  rw [singularChars]
  split
  · rename_i c stem hstem
    exact .inl ⟨c :: stem, List.cons_ne_nil _ _, stem?_eq_some_iff.mp hstem, rfl⟩
  · rename_i hstem
    refine .inr ⟨?_, ?_⟩
    · rintro ⟨_ | ⟨c, stem⟩, hne, hcs⟩
      · exact hne rfl
      · exact hstem c stem (stem?_eq_some_iff.mpr hcs)
    · split
      · rename_i hsibilant
        obtain ⟨ending, hending, hany⟩ := List.any_eq_true.mp hsibilant
        obtain ⟨e, he, rfl⟩ := List.mem_map.mp hending
        obtain ⟨stem, hne, hcs⟩ := any_stem?_iff.mp hany
        refine .inl ⟨e, he, stem, hne, hcs, ?_⟩
        rw [hcs, ← List.append_assoc]
        simp
      · rename_i hsibilant
        refine .inr ⟨fun e he stem hne hcs => hsibilant ?_, rfl⟩
        exact List.any_eq_true.mpr
          ⟨_, List.mem_map_of_mem he, any_stem?_iff.mpr ⟨stem, hne, hcs⟩⟩

/-! ## There and back -/

/-- Endings of words that `singularChars` takes for something else. -/
def lostEndings : List (List Char) :=
  ['i', 'e'] :: sibilants.map (· ++ ['e'])

section RoundTrip

variable {e cs stem : List Char}

theorem getLast?_of_sibilant (stem : List Char) (he : e ∈ sibilants) :
    (stem ++ e).getLast? ∈ [some 's', some 'x', some 'z', some 'h'] := by
  have hlast : ∀ e ∈ sibilants, e ≠ [] ∧ e.getLast? ∈ [some 's', some 'x', some 'z', some 'h'] := by
    decide
  rw [List.getLast?_append_of_ne_nil stem (hlast e he).1]
  exact (hlast e he).2

theorem getLast?_of_lostEnding (he : e ∈ lostEndings) : (stem ++ e).getLast? = some 'e' := by
  have hlast : ∀ e ∈ lostEndings, e ≠ [] ∧ e.getLast? = some 'e' := by decide
  rw [List.getLast?_append_of_ne_nil stem (hlast e he).1]
  exact (hlast e he).2

/-- A word whose last letter isn't the one that all `lostEndings` have. -/
theorem not_lost (h : cs.getLast? ≠ some 'e') :
    ∀ e ∈ lostEndings, ∀ stem, stem ≠ [] → cs ≠ stem ++ e := by
  rintro e he stem - rfl
  exact h (getLast?_of_lostEnding he)

/-- The plural of a sibilant: `es` is taken off again if anything stands before the sibilant. -/
theorem singularChars_sibilant (he : e ∈ sibilants) (hne : stem ≠ []) :
    singularChars (stem ++ e ++ ['e', 's']) = stem ++ e := by
  rcases singularChars_cases (stem ++ e ++ ['e', 's']) with ⟨stem', -, hies, -⟩ |
      ⟨-, ⟨e', -, stem', -, heq, hsingular⟩ | ⟨hnone, -⟩⟩
  · have hi : stem ++ e = stem' ++ ['i'] := by
      have : stem ++ e ++ ['e', 's'] = stem' ++ ['i'] ++ ['e', 's'] := by simpa using hies
      exact List.append_cancel_right this
    have hlast := getLast?_of_sibilant stem he
    rw [hi, List.getLast?_concat] at hlast
    exact absurd hlast (by decide)
  · rw [← List.append_assoc] at heq
    rw [hsingular, List.append_cancel_right heq]
  · exact absurd (List.append_assoc ..) (hnone e he stem hne)

/-- A plural with `ies`. -/
theorem singularChars_ies (hne : stem ≠ []) :
    singularChars (stem ++ ['i', 'e', 's']) = stem ++ ['y'] := by
  rcases singularChars_cases (stem ++ ['i', 'e', 's']) with ⟨stem', -, hies, hsingular⟩ | ⟨hnone, -⟩
  · rw [hsingular, List.append_cancel_right hies]
  · exact absurd ⟨stem, hne, rfl⟩ hnone

/-- A plural with `s` alone. -/
theorem singularChars_s (hne : cs ≠ []) (hsibilant : ∀ e ∈ sibilants, ∀ stem, cs ≠ stem ++ e) :
    singularChars (cs ++ ['s']) = cs ↔ ∀ e ∈ lostEndings, ∀ stem, stem ≠ [] → cs ≠ stem ++ e := by
  have hcancel : ∀ ending stem, cs ++ ['s'] = stem ++ (ending ++ ['s']) ↔ cs = stem ++ ending := by
    intro ending stem
    rw [← List.append_assoc, List.append_left_inj]
  rcases singularChars_cases (cs ++ ['s']) with ⟨stem, hstem, heq, hsingular⟩ |
      ⟨hies, ⟨e, he, stem, hstem, heq, hsingular⟩ | ⟨hnone, hsingular⟩⟩
  · -- `ie` is read as the plural of `y`.
    have hcs := (hcancel ['i', 'e'] stem).mp heq
    rw [hsingular]
    constructor
    · intro hy
      have hlast := congrArg List.getLast? (hy.trans hcs)
      rw [List.getLast?_concat, getLast?_of_lostEnding (by decide)] at hlast
      exact absurd hlast (by decide)
    · intro hlost
      exact absurd hcs (hlost _ (by decide) stem hstem)
  · -- The word is taken for a sibilant with `es`.
    have hcs := (hcancel (e ++ ['e']) stem).mp (by simpa using heq)
    rw [hsingular]
    constructor
    · intro hshort
      have hlength := congrArg List.length (hshort.trans hcs)
      simp at hlength
    · intro hlost
      exact absurd hcs (hlost _ (List.mem_cons_of_mem _ (List.mem_map_of_mem he)) stem hstem)
  · have hlast : cs.getLast? ≠ some 's' := by
      intro hs
      obtain ⟨stem, hcs⟩ := List.getLast?_eq_some_iff.mp hs
      exact hsibilant ['s'] (by decide) stem hcs
    have hdrop : dropS (cs ++ ['s']) = cs := by
      rw [dropS, stem?_eq_some_iff.mpr rfl]
      simp [hne, hlast]
    rw [hsingular, hdrop]
    refine iff_of_true rfl fun e he stem hstem hcs => ?_
    rcases List.mem_cons.mp he with rfl | hmem
    · exact hies ⟨stem, hstem, (hcancel ['i', 'e'] stem).mpr hcs⟩
    · obtain ⟨e', he', rfl⟩ := List.mem_map.mp hmem
      have hes := (hcancel (e' ++ ['e']) stem).mpr hcs
      exact hnone e' he' stem hstem (by simpa using hes)

theorem singularChars_pluralChars_iff (hne : cs ≠ []) : singularChars (pluralChars cs) = cs ↔
    cs ∉ sibilants ∧ ∀ e ∈ lostEndings, ∀ stem, stem ≠ [] → cs ≠ stem ++ e := by
  by_cases hmem : cs ∈ sibilants
  · have hsibilants : ∀ cs ∈ sibilants, singularChars (pluralChars cs) ≠ cs := by decide
    exact iff_of_false (hsibilants cs hmem) fun h => h.1 hmem
  rcases pluralChars_cases cs with ⟨e, he, stem, hcs, hplural⟩ |
      ⟨hsibilant, ⟨stem, hstem, hcs, hplural⟩ | hplural⟩
  · have hstem : stem ≠ [] := by
      rintro rfl
      exact hmem (hcs ▸ he)
    rw [hplural, hcs, singularChars_sibilant he hstem, ← hcs]
    refine iff_of_true rfl ⟨hmem, not_lost fun hlast => ?_⟩
    have hsibilant := getLast?_of_sibilant stem he
    rw [← hcs, hlast] at hsibilant
    exact absurd hsibilant (by decide)
  · rw [hplural, singularChars_ies hstem, ← hcs]
    refine iff_of_true rfl ⟨hmem, not_lost ?_⟩
    rw [hcs, List.getLast?_concat]
    decide
  · rw [hplural, singularChars_s hne hsibilant]
    exact ⟨fun h => ⟨hmem, h⟩, fun h => h.2⟩

end RoundTrip

/-! ## Letters -/

/-- The letters that `pluralChars` adds. -/
def endingLetters : List Char :=
  ['s', 'e', 'i']

/-- A plural starts as the singular does, and is made of its letters and the `endingLetters`. -/
theorem head?_pluralChars {cs : List Char} (hne : cs ≠ []) :
    (pluralChars cs).head? = cs.head? ∧ ∀ c ∈ pluralChars cs, c ∈ cs ∨ c ∈ endingLetters := by
  have hes : ∀ c ∈ ['i', 'e', 's'], c ∈ endingLetters := by simp [endingLetters]
  rcases pluralChars_cases cs with ⟨e, -, stem, -, hplural⟩ |
      ⟨-, ⟨stem, hstem, hcs, hplural⟩ | hplural⟩ <;> rw [hplural]
  · refine ⟨List.head?_append_of_ne_nil _ hne, fun c hc => (List.mem_append.mp hc).imp id ?_⟩
    exact fun hc => hes c (List.mem_cons_of_mem _ hc)
  · rw [hcs, List.head?_append_of_ne_nil _ hstem, List.head?_append_of_ne_nil _ hstem]
    exact ⟨rfl, fun c hc => (List.mem_append.mp hc).imp (List.mem_append_left _) (hes c)⟩
  · refine ⟨List.head?_append_of_ne_nil _ hne, fun c hc => (List.mem_append.mp hc).imp id ?_⟩
    exact fun hc => hes c (List.mem_cons_of_mem _ (List.mem_cons_of_mem _ hc))

theorem pluralChars_ne_nil {cs : List Char} (hne : cs ≠ []) : pluralChars cs ≠ [] := by
  intro hnil
  have hhead := (head?_pluralChars hne).1
  rw [hnil] at hhead
  exact hne (List.head?_eq_none_iff.mp hhead.symm)

/-- A singular is made of the letters of the plural, but for a `y`. -/
theorem mem_singularChars {cs : List Char} (hne : cs ≠ []) :
    singularChars cs ≠ [] ∧ ∀ c ∈ singularChars cs, c ∈ cs ∨ c = 'y' := by
  rcases singularChars_cases cs with ⟨stem, hstem, hcs, hsingular⟩ |
      ⟨-, ⟨e, -, stem, hstem, hcs, hsingular⟩ | ⟨-, hsingular⟩⟩ <;> rw [hsingular]
  · refine ⟨List.append_ne_nil_of_left_ne_nil hstem _, fun c hc => ?_⟩
    rw [hcs]
    exact (List.mem_append.mp hc).imp (List.mem_append_left _) List.mem_singleton.mp
  · refine ⟨List.append_ne_nil_of_left_ne_nil hstem _, fun c hc => .inl ?_⟩
    rw [hcs, ← List.append_assoc]
    exact List.mem_append_left _ hc
  · rw [dropS]
    split
    · exact ⟨hne, fun c hc => .inl hc⟩
    · rename_i stem hstem
      split
      · exact ⟨hne, fun c hc => .inl hc⟩
      · rename_i hkeep
        refine ⟨fun hnil => hkeep (by simp [hnil]), fun c hc => .inl ?_⟩
        rw [stem?_eq_some_iff.mp hstem]
        exact List.mem_append_left _ hc

/-! ## Names -/

section Names

variable {n : Name} {init : List String} {w : String}

/-- By `mapLastWord` a word is mapped letter by letter, so lower case has nothing to do. -/
theorem mapLastWord_eq (h : n.Canonical) (hn : n.words = init ++ [w]) {f : List Char → List Char}
    {added : List Char} (hadded : (added.all fun c => Text.lowerChar c = [c]) = true)
    (hf : f w.toList ≠ [] ∧ ∀ c ∈ f w.toList, c ∈ w.toList ∨ c ∈ added) :
    n.mapLastWord (fun w => String.ofList (f w.toList)) =
      ⟨init ++ [String.ofList (f w.toList)]⟩ := by
  have hw : w ∈ n.words := hn ▸ List.mem_append_right _ List.mem_cons_self
  have hlower : Text.lower (String.ofList (f w.toList)) = String.ofList (f w.toList) := by
    refine Text.lower_eq_self_iff.mpr fun c hc => ?_
    rw [String.toList_ofList] at hc
    rcases hf.2 c hc with hc | hc
    · exact Text.lower_eq_self_iff.mp (h.lowered w hw) c hc
    · exact of_decide_eq_true (List.all_eq_true.mp hadded c hc)
  rw [h.mapLastWord hn, hlower]
  rw [Ne, ← String.toList_inj, String.toList_ofList]
  exact hf.1

theorem plural_eq (h : n.Canonical) (hn : n.words = init ++ [w]) :
    english.plural n = ⟨init ++ [String.ofList (pluralChars w.toList)]⟩ := by
  have hw : w.toList ≠ [] := h.toList_ne_nil (by simp [hn])
  have hletters : (endingLetters.all fun c => Text.lowerChar c = [c]) = true := by decide
  exact mapLastWord_eq h hn hletters
    ⟨pluralChars_ne_nil hw, (head?_pluralChars hw).2⟩

theorem singular_eq (h : n.Canonical) (hn : n.words = init ++ [w]) :
    english.singular n = ⟨init ++ [String.ofList (singularChars w.toList)]⟩ := by
  have hw : w.toList ≠ [] := h.toList_ne_nil (by simp [hn])
  have hletters : (['y'].all fun c => Text.lowerChar c = [c]) = true := by decide
  refine mapLastWord_eq h hn hletters ⟨(mem_singularChars hw).1, fun c hc => ?_⟩
  exact ((mem_singularChars hw).2 c hc).imp id List.mem_singleton.mpr

theorem singular_plural_iff (h : n.Canonical) (hn : n.words = init ++ [w]) :
    english.singular (english.plural n) = n ↔ singularChars (pluralChars w.toList) = w.toList := by
  have hplural : (english.plural n).Canonical := h.canonical_mapLastWord _
  have hwords : (english.plural n).words = init ++ [String.ofList (pluralChars w.toList)] := by
    rw [plural_eq h hn]
  rw [singular_eq hplural hwords, String.toList_ofList]
  obtain ⟨words⟩ := n
  obtain rfl : words = init ++ [w] := hn
  simp [← String.toList_inj]

end Names

/-- The singular of a plural is the name that the plural was made of, except where the last word `w`
is a sibilant, or ends in `ie` or a sibilant with `e` and has something in front of that. -/
theorem singular_plural_eq_self_iff (ws : List String) {w : String}
    (hw : (Name.ofWords ws).lastWord? = some w) :
    english.singular (english.plural (Name.ofWords ws)) = Name.ofWords ws ↔
      w ∉ ["s", "x", "z", "ch", "sh"] ∧
        ∀ e ∈ ["ie", "se", "xe", "ze", "che", "she"], ¬∃ stem, stem ≠ "" ∧ w = stem ++ e := by
  have hcanonical := Name.canonical_ofWords ws
  obtain ⟨init, hwords⟩ := List.getLast?_eq_some_iff.mp hw
  have hne : w.toList ≠ [] := hcanonical.toList_ne_nil (by simp [hwords])
  rw [singular_plural_iff hcanonical hwords, singularChars_pluralChars_iff hne]
  have hsibilants : sibilants = ["s", "x", "z", "ch", "sh"].map String.toList := by decide
  have hlost : lostEndings = ["ie", "se", "xe", "ze", "che", "she"].map String.toList := by decide
  rw [hsibilants, hlost, List.mem_map_of_injective fun _ _ => String.toList_inj.mp,
    List.forall_mem_map]
  refine and_congr_right fun _ => forall₂_congr fun e _ => ?_
  constructor
  · rintro h ⟨stem, hstem, rfl⟩
    exact h stem.toList (fun hnil => hstem (String.toList_inj.mp hnil)) String.toList_append
  · intro h stem hstem heq
    refine h ⟨String.ofList stem, ?_, ?_⟩ <;> simp [← String.toList_inj, hstem, heq]

/-- `storage policies` has the singular it comes from, `web cookies` doesn't. -/
theorem singular_plural_eq_self_iff_policy :
    (Name.ofWords ["Storage", "Policy"]).lastWord? = some "policy" ∧
      english.singular (english.plural (Name.ofWords ["Storage", "Policy"])) =
        Name.ofWords ["Storage", "Policy"] ∧
      (Name.ofWords ["Web", "Cookie"]).lastWord? = some "cookie" ∧
      english.singular (english.plural (Name.ofWords ["Web", "Cookie"])) ≠
        Name.ofWords ["Web", "Cookie"] := by
  have hpolicy : (Name.ofWords ["Storage", "Policy"]).lastWord? = some "policy" := by decide
  have hcookie : (Name.ofWords ["Web", "Cookie"]).lastWord? = some "cookie" := by decide
  refine ⟨hpolicy, (singular_plural_eq_self_iff _ hpolicy).mpr ⟨by decide, ?_⟩, hcookie,
    fun h => ((singular_plural_eq_self_iff _ hcookie).mp h).2 "ie" (by decide) ⟨"cook", ?_, ?_⟩⟩
  · rintro e he ⟨stem, -, heq⟩
    have hlast : ∀ e ∈ ["ie", "se", "xe", "ze", "che", "she"], e.toList.getLast? = some 'e' := by
      decide
    have hpolicy := congrArg (fun text => text.toList.getLast?) heq
    simp [List.getLast?_append, hlast e he] at hpolicy
  · decide
  · decide

end ApiModel.Pluralizer
