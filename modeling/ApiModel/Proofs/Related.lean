import Mathlib.Data.List.Forall2

/-!
# Related options and lists

Entities are compared with their declarations, and models with each other, entry
by entry. Here is what these comparisons need of options and lists whose
elements are related in order.
-/

namespace ApiModel

variable {α β γ : Type}

/-! ## Options -/

section Options

variable {x : Option α} {y : Option β} {z : Option γ}

theorem optionRel_imp {R S : α → β → Prop} (h : ∀ {a b}, R a b → S a b) :
    Option.Rel R x y → Option.Rel S x y
  | .none => .none
  | .some hr => .some (h hr)

theorem optionRel_map {R : α → β → Prop} {S : γ → β → Prop} {f : α → γ} (hxy : Option.Rel R x y)
    (h : ∀ a b, R a b → S (f a) b) : Option.Rel S (x.map f) y := by
  cases hxy with
  | none => exact .none
  | some hr => exact .some (h _ _ hr)

/-- Options `x` and `y` that are related to the same option are related to each other. -/
theorem optionRel_join {S : α → γ → Prop} {S' : β → γ → Prop} {T : α → β → Prop}
    (hx : Option.Rel S x z) (hy : Option.Rel S' y z) (hT : ∀ a b c, S a c → S' b c → T a b) :
    Option.Rel T x y := by
  cases hx with
  | none => cases hy; exact .none
  | some hs =>
    cases hy with
    | some hs' => exact .some (hT _ _ _ hs hs')

theorem optionRel_self {S : α → β → Prop} (h : Option.Rel S x y) :
    Option.Rel (fun a b => x = some a ∧ y = some b ∧ S a b) x y := by
  cases h with
  | none => exact .none
  | some hs => exact .some ⟨rfl, rfl, hs⟩

theorem optionRel_of_isSome {R : α → β → Prop} (h : x.isSome ↔ y.isSome)
    (hR : ∀ a b, x = some a → y = some b → R a b) : Option.Rel R x y := by
  rcases x with _ | a <;> rcases y with _ | b
  · exact .none
  · simp at h
  · simp at h
  · exact .some (hR a b rfl rfl)

theorem exists_of_optionRel {R : α → β → Prop} (h : Option.Rel R x y) {b : β} (hb : b ∈ y) :
    ∃ a ∈ x, R a b := by
  cases h with
  | none => cases hb
  | some hr =>
    obtain rfl := Option.some.inj hb
    exact ⟨_, rfl, hr⟩

theorem eq_map_of_optionRel {f : α → β} (h : Option.Rel (fun a b => b = f a) x y) :
    y = x.map f := by
  cases h with
  | none => rfl
  | some h => rw [h, Option.map_some]

theorem optionRel_map₂ {δ : Type} {R : α → β → Prop} {S : γ → δ → Prop} {f : α → γ} {g : β → δ}
    (h : Option.Rel R x y) (hfg : ∀ a b, R a b → S (f a) (g b)) :
    Option.Rel S (x.map f) (y.map g) := by
  cases h with
  | some hab => exact .some (hfg _ _ hab)
  | none => exact .none

theorem optionRel_bind {δ : Type} {R : α → β → Prop} {S : γ → δ → Prop} {f : α → Option γ}
    {g : β → Option δ} (h : Option.Rel R x y) (hfg : ∀ a b, R a b → Option.Rel S (f a) (g b)) :
    Option.Rel S (x.bind f) (y.bind g) := by
  cases h with
  | some hab => exact hfg _ _ hab
  | none => exact .none

theorem bind_eq_of_optionRel {R : α → β → Prop} (h : Option.Rel R x y) {f : α → Option γ}
    {g : β → Option γ} (hfg : ∀ a b, R a b → f a = g b) : x.bind f = y.bind g := by
  cases h with
  | some hab => exact hfg _ _ hab
  | none => rfl

end Options

/-! ## Lists -/

section Lists

variable {as : List α} {bs : List β} {cs : List γ}

theorem forall₂_map {R : α → β → Prop} {S : γ → β → Prop} {f : α → γ}
    (h : ∀ a b, R a b → S (f a) b) (hab : List.Forall₂ R as bs) : List.Forall₂ S (as.map f) bs :=
  List.forall₂_map_left_iff.mpr (hab.imp h)

theorem forall₂_modify {R : α → α → Prop} (hrefl : ∀ a, R a a) {f : α → α} (hf : ∀ a, R a (f a))
    (as : List α) (i : Nat) : List.Forall₂ R as (as.modify i f) := by
  induction as generalizing i with
  | nil => simp
  | cons a as ih =>
    cases i with
    | zero => exact .cons (hf a) (List.forall₂_same.mpr fun a _ => hrefl a)
    | succ i => exact .cons (hrefl a) (ih i)

/-- Lists `as` and `bs` that are related to the same list are related to each other. -/
theorem forall₂_join {S : α → γ → Prop} {S' : β → γ → Prop} {T : α → β → Prop}
    (h : List.Forall₂ S as cs) (h' : List.Forall₂ S' bs cs)
    (hT : ∀ a b c, S a c → S' b c → T a b) : List.Forall₂ T as bs := by
  induction h generalizing bs with
  | nil => cases h'; exact .nil
  | cons h _ ih =>
    cases h' with
    | cons h' hrest => exact .cons (hT _ _ _ h h') (ih hrest)

/-- The same as `forall₂_join`, where the relations also tell the positions. -/
theorem forall₂_join_zipIdx {S : α × Nat → γ → Prop} {S' : β × Nat → γ → Prop}
    {T : α → β → Prop} {start : Nat} (h : List.Forall₂ S (as.zipIdx start) cs)
    (h' : List.Forall₂ S' (bs.zipIdx start) cs)
    (hT : ∀ a b c i, S (a, i) c → S' (b, i) c → T a b) : List.Forall₂ T as bs := by
  induction as generalizing bs cs start with
  | nil =>
    cases h
    cases bs with
    | nil => exact .nil
    | cons => cases h'
  | cons a as ih =>
    cases h with
    | cons ha h =>
      cases bs with
      | nil => cases h'
      | cons b bs =>
        cases h' with
        | cons hb h' => exact .cons (hT _ _ _ _ ha hb) (ih h h')

theorem forall₂_zipIdx {R : α → β → Prop} (h : List.Forall₂ R as bs) (i : Nat) :
    List.Forall₂ (fun x y => R x.1 y.1 ∧ x.2 = y.2) (as.zipIdx i) (bs.zipIdx i) := by
  induction h generalizing i with
  | nil => exact .nil
  | cons hr _ ih => exact .cons ⟨hr, rfl⟩ (ih (i + 1))

theorem optionRel_getElem? {R : α → β → Prop} (h : List.Forall₂ R as bs) (i : Nat) :
    Option.Rel R as[i]? bs[i]? := by
  induction h generalizing i with
  | nil => exact .none
  | cons hab _ ih =>
    cases i with
    | zero => exact .some hab
    | succ i => exact ih i

theorem forall₂_of_zipIdx {R : α → β → Prop} {i : Nat}
    (h : List.Forall₂ (fun x b => R x.1 b) (as.zipIdx i) bs) : List.Forall₂ R as bs := by
  rw [← List.zipIdx_map_fst i as]
  exact List.forall₂_map_left_iff.mpr h

section Related

variable {R : α → β → Prop} (h : List.Forall₂ R as bs)

include h

theorem exists_of_forall₂ {b : β} (hb : b ∈ bs) : ∃ a ∈ as, R a b := by
  induction h with
  | nil => cases hb
  | cons hr _ ih =>
    rcases List.mem_cons.mp hb with rfl | hb
    · exact ⟨_, List.mem_cons_self, hr⟩
    · obtain ⟨a, ha, hr⟩ := ih hb
      exact ⟨a, List.mem_cons_of_mem _ ha, hr⟩

theorem mem_iff_of_forall₂ (hR : ∀ a b a' b', R a a' → R b b' → (a = b ↔ a' = b')) {a : α} {b : β}
    (hab : R a b) : a ∈ as ↔ b ∈ bs := by
  induction h with
  | nil => simp
  | cons hr _ ih => rw [List.mem_cons, List.mem_cons, ih, hR _ _ _ _ hab hr]

theorem forall₂_filter {p : α → Bool} {q : β → Bool} (hpq : ∀ a b, R a b → p a = q b) :
    List.Forall₂ R (as.filter p) (bs.filter q) :=
  List.rel_filter (fun a b hab => Bool.eq_iff_iff.mp (hpq a b hab)) h

theorem forall₂_dropWhile {p : α → Bool} {q : β → Bool} (hpq : ∀ a b, R a b → p a = q b) :
    List.Forall₂ R (as.dropWhile p) (bs.dropWhile q) := by
  induction h with
  | nil => exact .nil
  | cons hab hrest ih =>
    rw [List.dropWhile_cons, List.dropWhile_cons, hpq _ _ hab]
    split
    · exact ih
    · exact .cons hab hrest

theorem map_eq_of_forall₂ {f : α → γ} {g : β → γ} (hfg : ∀ a b, R a b → f a = g b) :
    as.map f = bs.map g := by
  induction h with
  | nil => rfl
  | cons hab _ ih => rw [List.map_cons, List.map_cons, hfg _ _ hab, ih]

theorem flatMap_eq_of_forall₂ {f : α → List γ} {g : β → List γ} (hfg : ∀ a b, R a b → f a = g b) :
    as.flatMap f = bs.flatMap g := by
  rw [List.flatMap_def, List.flatMap_def, map_eq_of_forall₂ h hfg]

theorem filterMap_eq_of_forall₂ {f : α → Option γ} {g : β → Option γ}
    (hfg : ∀ a b, R a b → f a = g b) : as.filterMap f = bs.filterMap g := by
  induction h with
  | nil => rfl
  | cons hab _ ih => rw [List.filterMap_cons, List.filterMap_cons, hfg _ _ hab, ih]

end Related

theorem eq_map_of_forall₂ {f : α → β} (h : List.Forall₂ (fun a b => b = f a) as bs) :
    bs = as.map f := by
  rw [map_eq_of_forall₂ h fun a b hab => hab.symm, List.map_id']

end Lists

end ApiModel
