import ApiModel.Name.Parse
import ApiModel.Proofs.CaseMapping
import Mathlib.Data.List.Basic

/-!
# Canonical names

Words are lower-cased as a name is made, and empty words are dropped. So a name
is its own canonical form: made from its words once more, it stays the same. A
name whose words are free of markers and of the separator is also read back from
the text that its words are joined to.
-/

namespace ApiModel

/-! ## Escape markers -/

theorem dropMarker_eq_self {cs : List Char} (h : cs.head? ≠ some escapeMarker) :
    dropMarker cs = cs := by
  cases cs with
  | nil => rfl
  | cons c cs => exact if_neg fun hc => h (congrArg some hc)

/-- A text without markers at its ends is left as it stands by `stripMarkers`. -/
theorem stripMarkers_eq_self {cs : List Char} (hhead : cs.head? ≠ some escapeMarker)
    (hlast : cs.getLast? ≠ some escapeMarker) : stripMarkers cs = cs := by
  rw [stripMarkers, dropMarker_eq_self hhead, dropMarker_eq_self (by rwa [List.head?_reverse]),
    List.reverse_reverse]

theorem dropMarker_sublist (cs : List Char) : (dropMarker cs).Sublist cs := by
  cases cs with
  | nil => exact .slnil
  | cons c cs =>
    rw [dropMarker]
    split
    · exact List.sublist_cons_self c cs
    · exact .refl _

theorem stripMarkers_sublist (cs : List Char) : (stripMarkers cs).Sublist cs := by
  have hback := (dropMarker_sublist (dropMarker cs).reverse).reverse
  rw [List.reverse_reverse] at hback
  exact hback.trans (dropMarker_sublist cs)

namespace Name

/-! ## Words -/

/-- No word of `n` is empty, and lower case leaves each of them alone. -/
structure Canonical (n : Name) : Prop where
  nonempty : ∀ w ∈ n.words, w ≠ ""
  lowered : ∀ w ∈ n.words, Text.lower w = w

variable {n : Name}

theorem mem_words_ofWords {ws : List String} {w : String} :
    w ∈ (ofWords ws).words ↔ w ≠ "" ∧ ∃ x ∈ ws, Text.lower x = w := by
  simp [ofWords, and_comm]

theorem canonical_ofWords (ws : List String) : (ofWords ws).Canonical where
  nonempty w hw := (mem_words_ofWords.mp hw).1
  lowered w hw := by
    obtain ⟨-, x, -, rfl⟩ := mem_words_ofWords.mp hw
    exact Text.lower_lower x

theorem Canonical.ofWords_words (h : n.Canonical) : ofWords n.words = n := by
  obtain ⟨words⟩ := n
  rw [ofWords, List.map_congr_left h.lowered, List.map_id', List.filter_eq_self.mpr]
  exact fun w hw => decide_eq_true (h.nonempty w hw)

theorem Canonical.toList_ne_nil (h : n.Canonical) {w : String} (hw : w ∈ n.words) :
    w.toList ≠ [] := fun hnil => h.nonempty w hw (String.toList_inj.mp hnil)

theorem Canonical.canonical_mapLastWord (h : n.Canonical) (f : String → String) :
    (n.mapLastWord f).Canonical := by
  rw [Name.mapLastWord]
  split
  · exact h
  · exact canonical_ofWords _

/-- By `mapLastWord` there is another last word, and nothing else. -/
theorem Canonical.mapLastWord (h : n.Canonical) {init : List String} {w : String}
    (hn : n.words = init ++ [w]) {f : String → String} (hf : f w ≠ "") :
    n.mapLastWord f = ⟨init ++ [Text.lower (f w)]⟩ := by
  have hcanonical : Canonical ⟨init ++ [Text.lower (f w)]⟩ := by
    have hinit : ∀ x ∈ init, x ∈ n.words := fun x hx => hn ▸ List.mem_append_left _ hx
    constructor <;> intro x hx <;> rcases List.mem_append.mp hx with hx | hx
    · exact h.nonempty x (hinit x hx)
    · rw [List.mem_singleton.mp hx]
      exact mt Text.lower_eq_empty_iff.mp hf
    · exact h.lowered x (hinit x hx)
    · rw [List.mem_singleton.mp hx, Text.lower_lower]
  rw [Name.mapLastWord, lastWord?, hn, List.getLast?_concat]
  simp only [List.dropLast_concat]
  exact hcanonical.ofWords_words

end Name

/-! ## Separators -/

theorem not_mem_of_mem_splitOn {c : Char} {cs seg : List Char} (h : seg ∈ cs.splitOn c) :
    c ∉ seg := by
  induction cs generalizing seg with
  | nil =>
    rw [List.splitOn_nil, List.mem_singleton] at h
    rw [h]
    exact List.not_mem_nil
  | cons d cs ih =>
    rw [List.splitOn_cons_eq_if_modifyHead] at h
    split at h
    · rcases List.mem_cons.mp h with rfl | h
      · exact List.not_mem_nil
      · exact ih h
    · rename_i hne
      -- The first segment gets longer by a character that isn't the separator.
      obtain ⟨first, rest, hsplit⟩ := List.exists_cons_of_ne_nil (List.splitOn_ne_nil c cs)
      rw [hsplit, List.modifyHead_cons] at h
      rw [hsplit] at ih
      rcases List.mem_cons.mp h with rfl | h
      · refine List.not_mem_cons_of_ne_of_not_mem ?_ (ih List.mem_cons_self)
        rintro rfl
        exact hne (beq_self_eq_true c)
      · exact ih (List.mem_cons_of_mem _ h)

theorem mem_intercalate {c d : Char} {seg : List Char} {segs : List (List Char)}
    (hseg : seg ∈ segs) (hd : d ∈ seg) : d ∈ [c].intercalate segs := by
  induction segs with
  | nil => cases hseg
  | cons first segs ih =>
    cases segs with
    | nil => rwa [List.intercalate_singleton, ← List.mem_singleton.mp hseg]
    | cons second segs =>
      rw [List.intercalate_cons_cons]
      rcases List.mem_cons.mp hseg with rfl | hseg
      · exact List.mem_append_left _ (List.mem_append_left _ hd)
      · exact List.mem_append_right _ (ih hseg)

theorem of_mem_intercalate {c d : Char} {segs : List (List Char)} (h : d ∈ [c].intercalate segs) :
    d = c ∨ ∃ seg ∈ segs, d ∈ seg := by
  induction segs with
  | nil => cases h
  | cons first segs ih =>
    cases segs with
    | nil =>
      rw [List.intercalate_singleton] at h
      exact .inr ⟨first, List.mem_cons_self, h⟩
    | cons second segs =>
      rw [List.intercalate_cons_cons, List.mem_append, List.mem_append, List.mem_singleton] at h
      rcases h with (h | h) | h
      · exact .inr ⟨first, List.mem_cons_self, h⟩
      · exact .inl h
      · exact (ih h).imp_right fun ⟨seg, hseg, hd⟩ => ⟨seg, List.mem_cons_of_mem _ hseg, hd⟩

theorem mem_of_mem_splitOn {c d : Char} {cs seg : List Char} (hseg : seg ∈ cs.splitOn c)
    (hd : d ∈ seg) : d ∈ cs := by
  have hjoin : [c].intercalate (cs.splitOn c) = cs := List.intercalate_splitOn c
  exact hjoin ▸ mem_intercalate hseg hd

/-- A text joined by `c` has at its ends what segments have at theirs. -/
theorem ends_intercalate {c : Char} {segs : List (List Char)} (hne : segs ≠ [])
    (hseg : ∀ seg ∈ segs, seg ≠ []) :
    (∃ seg ∈ segs, ∃ d ∈ seg, ([c].intercalate segs).head? = some d) ∧
      ∃ seg ∈ segs, ∃ d ∈ seg, ([c].intercalate segs).getLast? = some d := by
  induction segs with
  | nil => exact absurd rfl hne
  | cons seg segs ih =>
    obtain ⟨hfirst, hrest⟩ := List.forall_mem_cons.mp hseg
    have hhead : seg.head? = some (seg.head hfirst) := List.head?_eq_some_head hfirst
    have hlast : seg.getLast? = some (seg.getLast hfirst) := List.getLast?_eq_some_getLast hfirst
    cases segs with
    | nil =>
      rw [List.intercalate_singleton]
      exact ⟨⟨seg, List.mem_cons_self, _, List.head_mem hfirst, hhead⟩,
        seg, List.mem_cons_self, _, List.getLast_mem hfirst, hlast⟩
    | cons seg' segs =>
      obtain ⟨-, last, hmem, d, hd, heq⟩ := ih (List.cons_ne_nil _ _) hrest
      rw [List.intercalate_cons_cons, List.getLast?_append, heq, List.append_assoc,
        List.head?_append_of_ne_nil _ hfirst]
      exact ⟨⟨seg, List.mem_cons_self, _, List.head_mem hfirst, hhead⟩,
        last, List.mem_cons_of_mem _ hmem, d, hd, rfl⟩

/-- A segment `seg` that stands between separators `c` and can't be mistaken for more than one. -/
structure Separate (c : Char) (seg : List Char) : Prop where
  nonempty : seg ≠ []
  marker : escapeMarker ∉ seg
  separator : c ∉ seg

namespace Name

/-- By `ofSeparated`, joined segments are read one by one. -/
theorem ofSeparated_intercalate {c : Char} {segs : List (List Char)}
    (h : ∀ seg ∈ segs, Separate c seg) :
    ofSeparated c (String.ofList ([c].intercalate segs)) = ofSegments segs := by
  rw [ofSeparated, String.toList_ofList]
  by_cases hne : segs = []
  · subst hne
    show ofSegments (List.splitOn c []) = _
    rw [List.splitOn_nil]
    decide
  · obtain ⟨⟨first, hfirst, d, hd, hhead⟩, last, hlast, d', hd', hend⟩ :=
      ends_intercalate (c := c) hne fun seg hseg => (h seg hseg).nonempty
    rw [stripMarkers_eq_self,
      List.splitOn_intercalate c (fun seg hseg => (h seg hseg).separator) hne]
    · rw [hhead]
      exact fun heq => (h first hfirst).marker (Option.some.inj heq ▸ hd)
    · rw [hend]
      exact fun heq => (h last hlast).marker (Option.some.inj heq ▸ hd')

/-- By `ofSeparated`, a joined name is read back. -/
theorem Canonical.ofSeparated_join {n : Name} (h : n.Canonical) {c : Char}
    (hsep : ∀ w ∈ n.words, Separate c w.toList) :
    ofSeparated c (n.join (String.singleton c)) = n := by
  have hjoin : n.join (String.singleton c) =
      String.ofList ([c].intercalate (n.words.map String.toList)) := by
    rw [← String.toList_inj, join, String.toList_intercalate, String.toList_singleton,
      String.toList_ofList]
  rw [hjoin, ofSeparated_intercalate (List.forall_mem_map.mpr hsep), ofSegments, List.map_map]
  simp only [Function.comp_def, String.ofList_toList, List.map_id']
  exact h.ofWords_words

theorem canonical_ofSeparated (c : Char) (text : String) : (ofSeparated c text).Canonical :=
  canonical_ofWords _

/-! ## Names made step by step -/

/-- Names that are read from words or from text, and those with another first or last word. -/
inductive Made : Name → Prop
  | ofWords (ws : List String) : Made (ofWords ws)
  | ofCase (text : String) : Made (ofCase text)
  | ofSeparated (c : Char) (text : String) : Made (ofSeparated c text)
  | withFirst {n : Name} (h : Made n) (word : String) : Made (n.withFirst word)
  | mapLastWord {n : Name} (h : Made n) (f : String → String) : Made (n.mapLastWord f)

theorem Made.canonical {n : Name} (h : Made n) : n.Canonical := by
  induction h with
  | ofWords ws => exact canonical_ofWords ws
  | ofCase text => exact canonical_ofWords _
  | ofSeparated c text => exact canonical_ofSeparated c text
  | withFirst _ word _ => exact canonical_ofWords _
  -- A name without words is left as it was, so here the last step alone isn't enough.
  | mapLastWord _ f ih => exact ih.canonical_mapLastWord f

/-- However a name was `Made`, its words are `Canonical`. So they make the same name once more, and
if neither markers nor separators stand in them, so does the text that they are joined to. -/
theorem names_stay_canonical {n : Name} (h : Made n) :
    n.Canonical ∧ ofWords n.words = n ∧
      ∀ c, (∀ w ∈ n.words, escapeMarker ∉ w.toList ∧ c ∉ w.toList) →
        ofSeparated c (n.join (String.singleton c)) = n := by
  have hn := h.canonical
  refine ⟨hn, hn.ofWords_words, fun c hfree => hn.ofSeparated_join fun w hw => ?_⟩
  exact ⟨hn.toList_ne_nil hw, (hfree w hw).1, (hfree w hw).2⟩

/-- A capital sigma ends the last word, both before and after it gets longer, and `İ` becomes two
characters. -/
theorem names_stay_canonical_odos :
    Made (((ofCase "_mainΟΔΟΣ").mapLastWord (· ++ "ΙΣ")).withFirst "İd") ∧
      ((ofCase "_mainΟΔΟΣ").mapLastWord (· ++ "ΙΣ")).withFirst "İd" =
        ⟨["i\u0307d", "main", "οδοςις"]⟩ ∧
      ofWords ["i\u0307d", "main", "οδοςις"] = ⟨["i\u0307d", "main", "οδοςις"]⟩ ∧
      ofSeparated '.' "i\u0307d.main.οδοςις" = ⟨["i\u0307d", "main", "οδοςις"]⟩ := by
  have hmade : Made (((ofCase "_mainΟΔΟΣ").mapLastWord (· ++ "ΙΣ")).withFirst "İd") :=
    .withFirst (.mapLastWord (.ofCase _) _) _
  have hwords : ((ofCase "_mainΟΔΟΣ").mapLastWord (· ++ "ΙΣ")).withFirst "İd" =
      ⟨["i\u0307d", "main", "οδοςις"]⟩ := by decide +kernel
  obtain ⟨-, hsame, hread⟩ := names_stay_canonical (hwords ▸ hmade)
  exact ⟨hmade, hwords, hsame, hread '.' (by decide)⟩

end Name

end ApiModel
