import ApiModel.Xml.Bytes
import Mathlib.Data.List.Infix

/-!
# Offsets and texts

An offset in bytes divides a text where a character begins. For such an offset,
taking and dropping bytes gives back the two parts. The last end tag of a text
is found by its mark: it begins at the last `</`, and no `</` comes after that.
-/

namespace ApiModel.Xml

variable {cs before after : List Char} {offset : Nat}

/-! ## Dividing a text -/

theorem byteLength_append (cs rest : List Char) :
    byteLength (cs ++ rest) = byteLength cs + byteLength rest := by
  induction cs with
  | nil => rw [List.nil_append, byteLength, Nat.zero_add]
  | cons c cs ih => rw [List.cons_append, byteLength, byteLength, ih, Nat.add_assoc]

theorem byteLength_pos (h : cs ≠ []) : 0 < byteLength cs := by
  obtain ⟨c, cs, rfl⟩ := List.exists_cons_of_ne_nil h
  exact Nat.add_pos_left c.utf8Size_pos _

theorem offsetOf_append (cs rest : List Char) : offsetOf (cs ++ rest) rest = byteLength cs := by
  rw [offsetOf, byteLength_append]
  omega

theorem takeBytes_append (cs rest : List Char) : takeBytes (byteLength cs) (cs ++ rest) = cs := by
  induction cs with
  | nil =>
    cases rest with
    | nil => rfl
    | cons c rest =>
      have hpos := c.utf8Size_pos
      rw [List.nil_append, byteLength, takeBytes, if_neg (by omega)]
  | cons c cs ih =>
    rw [List.cons_append, byteLength, takeBytes, if_pos (by omega), Nat.add_sub_cancel_left, ih]

theorem dropBytes_append (cs rest : List Char) :
    dropBytes (byteLength cs) (cs ++ rest) = rest := by
  induction cs with
  | nil =>
    cases rest with
    | nil => rfl
    | cons c rest =>
      have hpos := c.utf8Size_pos
      rw [List.nil_append, byteLength, dropBytes, if_neg (by omega)]
  | cons c cs ih =>
    rw [List.cons_append, byteLength, dropBytes, if_pos (by omega), Nat.add_sub_cancel_left, ih]

/-- The `part` of a text between two offsets. -/
theorem takeBytes_dropBytes_append (cs part rest : List Char) :
    takeBytes (byteLength (cs ++ part) - byteLength cs)
      (dropBytes (byteLength cs) (cs ++ part ++ rest)) = part := by
  rw [byteLength_append, Nat.add_sub_cancel_left, List.append_assoc, dropBytes_append,
    takeBytes_append]

/-! ## The last end tag -/

/-- What an end tag begins with. -/
def endMark : List Char := ['<', '/']

theorem endMark_prefix_cons {c : Char} :
    endMark <+: c :: cs ↔ c = '<' ∧ cs.head? = some '/' := by
  constructor
  · rintro ⟨after, h⟩
    obtain ⟨rfl, rfl⟩ := List.cons.inj h
    exact ⟨rfl, rfl⟩
  · rintro ⟨rfl, h⟩
    obtain ⟨after, rfl⟩ := List.head?_eq_some_iff.mp h
    exact ⟨after, rfl⟩

theorem not_infix_of_no_slash (h : '/' ∉ cs) : ¬endMark <:+: cs :=
  fun hmark => h (hmark.subset (by decide))

/-- An `endMark` can't be completed by a text that has no slash. -/
theorem endMark_infix_of_append (h : endMark <:+: cs ++ after) (hafter : '/' ∉ after) :
    endMark <:+: cs := by
  induction cs with
  | nil => exact absurd h (not_infix_of_no_slash hafter)
  | cons c cs ih =>
    rw [List.cons_append, List.infix_cons_iff, endMark_prefix_cons] at h
    rw [List.infix_cons_iff, endMark_prefix_cons]
    refine h.imp (fun ⟨hc, hhead⟩ => ⟨hc, ?_⟩) ih
    cases cs with
    | nil => exact absurd (List.mem_of_mem_head? hhead) hafter
    | cons d cs => exact hhead

theorem lastEndTag?_cons (c : Char) (cs : List Char) : lastEndTag? offset (c :: cs) =
    (lastEndTag? (offset + c.utf8Size) cs).or
      (if c = '<' ∧ cs.head? = some '/' then some offset else none) := by
  by_cases h : c = '<' ∧ cs.head? = some '/'
  · obtain ⟨rfl, hhead⟩ := h
    obtain ⟨cs, rfl⟩ := List.head?_eq_some_iff.mp hhead
    rfl
  · rw [if_neg h, Option.or_none, lastEndTag?]
    intro ds hc hcs
    exact h ⟨hc, by rw [hcs]; rfl⟩

theorem lastEndTag?_eq_none : lastEndTag? offset cs = none ↔ ¬endMark <:+: cs := by
  induction cs generalizing offset with
  | nil => exact ⟨fun _ => not_infix_of_no_slash (by simp), fun _ => rfl⟩
  | cons c cs ih =>
    rw [lastEndTag?_cons, Option.or_eq_none_iff, ih, List.infix_cons_iff, endMark_prefix_cons,
      not_or, and_comm]
    simp

/-- The last end tag, which comes after `before`, is found. -/
theorem lastEndTag?_append (h : ¬endMark <:+: '/' :: after) :
    lastEndTag? offset (before ++ endMark ++ after) = some (offset + byteLength before) := by
  induction before generalizing offset with
  | nil =>
    rw [List.nil_append, show endMark ++ after = '<' :: '/' :: after from rfl, lastEndTag?_cons,
      lastEndTag?_eq_none.mpr h]
    rfl
  | cons c before ih =>
    rw [List.cons_append, List.cons_append, lastEndTag?_cons, ih, byteLength, Nat.add_assoc]
    rfl

/-- Where there is an `endMark`, there is a last one. -/
theorem exists_last_endMark (h : endMark <:+: cs) :
    ∃ before after, cs = before ++ endMark ++ after ∧ ¬endMark <:+: '/' :: after := by
  induction cs with
  | nil => exact absurd h (not_infix_of_no_slash (by simp))
  | cons c cs ih =>
    by_cases hcs : endMark <:+: cs
    · obtain ⟨before, after, rfl, hlast⟩ := ih hcs
      exact ⟨c :: before, after, rfl, hlast⟩
    · obtain ⟨after, hafter⟩ := (List.infix_cons_iff.mp h).resolve_right hcs
      obtain ⟨rfl, rfl⟩ := List.cons.inj hafter
      exact ⟨[], after, rfl, hcs⟩

end ApiModel.Xml
