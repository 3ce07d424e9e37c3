import ApiModel.Xml.Attribute
import ApiModel.Xml.Tag
import Mathlib.Data.List.Infix
import Mathlib.Data.List.TakeWhile

/-!
# Attributes, written and read

Values of attributes may hold any characters. They are escaped, so that no
quotation mark is left inside a written value; the value ends where its
quotation ends, and undoing the escapes gives it back. Keys are written as they
are, so they have to be legible.
-/

namespace ApiModel.Xml

/-! ## Escapes -/

/-- Puts characters in place of the references to them, if all references are to predefined
characters. -/
def unescape : List Char → Option (List Char)
  | [] => some []
  | '&' :: 'l' :: 't' :: ';' :: cs => (unescape cs).map ('<' :: ·)
  | '&' :: 'g' :: 't' :: ';' :: cs => (unescape cs).map ('>' :: ·)
  | '&' :: 'a' :: 'm' :: 'p' :: ';' :: cs => (unescape cs).map ('&' :: ·)
  | '&' :: 'a' :: 'p' :: 'o' :: 's' :: ';' :: cs => (unescape cs).map ('\x27' :: ·)
  | '&' :: 'q' :: 'u' :: 'o' :: 't' :: ';' :: cs => (unescape cs).map ('"' :: ·)
  | c :: cs => if c = '&' then none else (unescape cs).map (c :: ·)

/-- The character `c` is escaped, or stands for itself. -/
theorem escapeChar_cases (c : Char) :
    (c, escapeChar c) ∈ [('<', "&lt;".toList), ('>', "&gt;".toList), ('&', "&amp;".toList),
      ('\x27', "&apos;".toList), ('"', "&quot;".toList)] ∨
      c ≠ '&' ∧ c ≠ '"' ∧ escapeChar c = [c] := by
  unfold escapeChar
  split_ifs <;> simp_all

theorem unescape_escapeChar (c : Char) (cs : List Char) :
    unescape (escapeChar c ++ cs) = (unescape cs).map (c :: ·) := by
  rcases escapeChar_cases c with h | ⟨hamp, -, h⟩
  · simp only [List.mem_cons, Prod.mk.injEq, List.not_mem_nil, or_false] at h
    rcases h with ⟨rfl, h⟩ | ⟨rfl, h⟩ | ⟨rfl, h⟩ | ⟨rfl, h⟩ | ⟨rfl, h⟩ <;> rw [h] <;> rfl
  · rw [h, List.singleton_append, unescape, if_neg hamp]
    all_goals
      intro cs hc
      exact absurd hc hamp

theorem unescape_flatMap (value : List Char) : unescape (value.flatMap escapeChar) = some value := by
  induction value with
  | nil => rfl
  | cons c value ih => rw [List.flatMap_cons, unescape_escapeChar, ih, Option.map_some]

theorem quote_notMem_flatMap (value : List Char) : '"' ∉ value.flatMap escapeChar := by
  intro h
  obtain ⟨c, -, hc⟩ := List.mem_flatMap.mp h
  rcases escapeChar_cases c with h | ⟨-, hquote, h⟩
  · simp only [List.mem_cons, Prod.mk.injEq, List.not_mem_nil, or_false] at h
    rcases h with ⟨-, h⟩ | ⟨-, h⟩ | ⟨-, h⟩ | ⟨-, h⟩ | ⟨-, h⟩ <;>
      rw [h] at hc <;> exact absurd hc (by decide)
  · rw [h] at hc
    exact hquote (List.mem_singleton.mp hc).symm

/-! ## Legible names -/

def isNameChar (c : Char) : Bool :=
  c.isAlpha || c = ':'

/-- A `name` that can be written as it is. -/
def isLegible (name : String) : Bool :=
  !name.toList.isEmpty && name.toList.all isNameChar

theorem isLegible_iff {name : String} : isLegible name = true ↔
    name.toList ≠ [] ∧ ∀ c ∈ name.toList, isNameChar c = true := by
  simp [isLegible]

theorem ne_of_isNameChar {c d : Char} (hc : isNameChar c = true) (hd : isNameChar d = false) :
    c ≠ d := by
  rintro rfl
  cases hc.symm.trans hd

theorem isSpace_of_isNameChar {c : Char} (h : isNameChar c = true) : isSpace c = false := by
  rw [Bool.eq_false_iff]
  intro hspace
  simp only [isSpace, Bool.or_eq_true, decide_eq_true_eq] at hspace
  rcases hspace with ((rfl | rfl) | rfl) | rfl <;> exact absurd h (by decide)

theorem isQuote_of_isNameChar {c : Char} (h : isNameChar c = true) : isQuote c = false := by
  rw [Bool.eq_false_iff]
  intro hquote
  simp only [isQuote, Bool.or_eq_true, decide_eq_true_eq] at hquote
  rcases hquote with rfl | rfl <;> exact absurd h (by decide)

theorem isKeyChar_of_isNameChar {c : Char} (h : isNameChar c = true) : isKeyChar c = true := by
  simp [isKeyChar, isSpace_of_isNameChar h, ne_of_isNameChar h (show isNameChar '=' = false by decide)]

/-! ## Reading attributes -/

/-- The first attribute of a text, read by `attributesFrom`. -/
theorem attributesFrom_attributeChars {key value : String} (hkey : isLegible key = true)
    {seen : List (List Char)} (hseen : key.toList ∉ seen) (fuel : Nat) (rest : List Char) :
    attributesFrom (fuel + 1) seen (attributeChars key value ++ rest) =
      (key.toList, value.toList.flatMap escapeChar) ::
        attributesFrom fuel (key.toList :: seen) rest := by
  obtain ⟨hne, hchars⟩ := isLegible_iff.mp hkey
  obtain ⟨c, cs, hcs⟩ := List.exists_cons_of_ne_nil hne
  rw [hcs] at hchars hseen
  obtain ⟨hc, hrest⟩ := List.forall_mem_cons.mp hchars
  have hkeyChars : ∀ d ∈ cs, isKeyChar d = true := fun d hd => isKeyChar_of_isNameChar (hrest d hd)
  have hvalueChars : ∀ d ∈ value.toList.flatMap escapeChar, decide (d ≠ '"') = true := fun d hd =>
    decide_eq_true fun h => quote_notMem_flatMap value.toList (h ▸ hd)
  have hstay : ∀ {d : Char} (ds : List Char), isSpace d = false →
      List.dropWhile isSpace (d :: ds) = d :: ds := fun ds hd =>
    List.dropWhile_cons_of_neg (by rw [hd]; exact Bool.false_ne_true)
  have htext : attributeChars key value ++ rest = ' ' :: c ::
      (cs ++ '=' :: '"' :: (value.toList.flatMap escapeChar ++ '"' :: rest)) := by
    simp [attributeChars, hcs]
  have hspan : (value.toList.flatMap escapeChar ++ '"' :: rest).span (· ≠ '"') =
      (value.toList.flatMap escapeChar, '"' :: rest) := by
    rw [List.span_eq_takeWhile_dropWhile, List.takeWhile_append_of_pos hvalueChars,
      List.dropWhile_append_of_pos hvalueChars, List.takeWhile_cons_of_neg (by decide),
      List.dropWhile_cons_of_neg (by decide), List.append_nil]
  -- The key ends at the equality sign, and the value at its closing quotation mark.
  rw [htext, attributesFrom, List.dropWhile_cons_of_pos (by decide),
    hstay _ (isSpace_of_isNameChar hc)]
  simp only [List.takeWhile_append_of_pos hkeyChars, List.dropWhile_append_of_pos hkeyChars]
  rw [List.takeWhile_cons_of_neg (by decide), List.dropWhile_cons_of_neg (by decide),
    List.append_nil, hstay _ (by decide)]
  simp only [ne_eq, not_true_eq_false, if_false, hseen]
  rw [hstay _ (by decide)]
  simp only [← ne_eq, hspan, hcs]
  rfl

theorem attributesFrom_attributesChars {attributes : List (String × String)}
    (hkeys : ∀ a ∈ attributes, isLegible a.1 = true) (hnodup : (attributes.map (·.1)).Nodup)
    {seen : List (List Char)} (hseen : ∀ a ∈ attributes, a.1.toList ∉ seen) {fuel : Nat}
    (hfuel : attributes.length ≤ fuel) : attributesFrom fuel seen (attributesChars attributes) =
      attributes.map fun a => (a.1.toList, a.2.toList.flatMap escapeChar) := by
  induction attributes generalizing seen fuel with
  | nil => cases fuel <;> rfl
  | cons a attributes ih =>
    obtain ⟨hkey, hkeys⟩ := List.forall_mem_cons.mp hkeys
    obtain ⟨hnew, hseen⟩ := List.forall_mem_cons.mp hseen
    rw [List.map_cons, List.nodup_cons] at hnodup
    cases fuel with
    | zero => cases hfuel
    | succ fuel =>
      rw [attributesChars, List.flatMap_cons, attributesFrom_attributeChars hkey hnew, ← attributesChars,
        ih hkeys hnodup.2 (fun b hb => ?_) (Nat.le_of_succ_le_succ hfuel), List.map_cons]
      rw [List.mem_cons, not_or]
      refine ⟨fun h => hnodup.1 ?_, hseen b hb⟩
      rw [← String.toList_inj.mp h]
      exact List.mem_map_of_mem hb

theorem length_le_attributesChars (attributes : List (String × String)) :
    attributes.length ≤ (attributesChars attributes).length := by
  induction attributes with
  | nil => exact Nat.le_refl 0
  | cons a attributes ih =>
    have hpos : 0 < (attributeChars a.1 a.2).length := by simp [attributeChars]
    have hlength : (attributesChars (a :: attributes)).length =
        (attributeChars a.1 a.2).length + (attributesChars attributes).length := by
      rw [attributesChars, List.flatMap_cons, List.length_append]
      rfl
    rw [hlength, List.length_cons]
    omega

/-- Attributes with keys that are `isLegible` are read as they are written. -/
theorem attributes_attributesChars {attributes : List (String × String)}
    (hkeys : ∀ a ∈ attributes, isLegible a.1 = true) (hnodup : (attributes.map (·.1)).Nodup) :
    Xml.attributes (attributesChars attributes) =
      attributes.map fun a => (a.1.toList, a.2.toList.flatMap escapeChar) :=
  attributesFrom_attributesChars hkeys hnodup (by simp) (length_le_attributesChars attributes)

end ApiModel.Xml
