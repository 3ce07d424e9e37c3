import ApiModel.Proofs.History
import ApiModel.Analysis

/-!
# Declarations that are all carried out

An analysis goes on only if every declaration has been carried out. Then a draft
is what its declarations say: each registered name is that of a primitive or of
a declaration that is recorded completely, each declared name is registered, and
lists and pending references are those that recorded declarations ask for.
-/

namespace ApiModel

namespace Draft

variable {d d' : Draft} {ds : List Declaration} {decl : Declaration}

/-! ## Runs without an error -/

theorem declareAll_cons (d : Draft) (decl : Declaration) (ds : List Declaration) :
    d.declareAll (decl :: ds) = match d.declare decl with
      | (.ok _, d') => d'.declareAll ds
      | (.error e, d') => (.error e, d') := by
  show ((decl :: ds).forM Declaration.declare : Declare Unit).exec d = _
  rw [Declare.forM_cons, Declare.exec_bind, show decl.declare.exec d = d.declare decl from rfl]
  rcases d.declare decl with ⟨_ | _, d'⟩ <;> rfl

/-- Every one of the declarations `ds` is carried out completely. -/
def Accepts (d : Draft) (ds : List Declaration) : Prop :=
  ∀ pre decl post, ds = pre ++ decl :: post → ((d.declareEach pre).declare decl).1.isOk = true

theorem accepts_nil : d.Accepts [] := fun pre x post h => by simp at h

theorem accepts_cons : d.Accepts (decl :: ds) ↔
    (d.declare decl).1.isOk = true ∧ (d.declare decl).2.Accepts ds := by
  constructor
  · intro h
    exact ⟨h [] decl ds rfl, fun pre x post hds => h (decl :: pre) x post (by rw [hds]; rfl)⟩
  · rintro ⟨hd, h⟩ pre x post hds
    cases pre with
    | nil =>
      obtain ⟨rfl, rfl⟩ := List.cons.inj hds
      exact hd
    | cons y pre =>
      obtain ⟨rfl, rfl⟩ := List.cons.inj hds
      exact h pre x post rfl

theorem accepts_concat : d.Accepts (ds ++ [decl]) ↔
    d.Accepts ds ∧ ((d.declareEach ds).declare decl).1.isOk = true := by
  induction ds generalizing d with
  | nil => exact accepts_cons.trans ⟨fun h => ⟨accepts_nil, h.1⟩, fun h => ⟨h.2, accepts_nil⟩⟩
  | cons x ds ih => rw [List.cons_append, accepts_cons, accepts_cons, ih, and_assoc]; rfl

/-- `declareAll` gets through exactly if each declaration is carried out. -/
theorem declareAll_isOk_iff : (d.declareAll ds).1.isOk = true ↔ d.Accepts ds := by
  induction ds generalizing d with
  | nil => exact iff_of_true rfl accepts_nil
  | cons decl ds ih =>
    rw [accepts_cons, declareAll_cons]
    rcases d.declare decl with ⟨_ | _, d'⟩
    · exact iff_of_false (by simp [Except.isOk, Except.toBool]) (by simp [Except.isOk, Except.toBool])
    · simp only [ih]
      exact (and_iff_right rfl).symm

theorem declareAll_eq_declareEach (h : d.Accepts ds) :
    d.declareAll ds = (.ok (), d.declareEach ds) := by
  induction ds generalizing d with
  | nil => rfl
  | cons decl ds ih =>
    obtain ⟨hd, h⟩ := accepts_cons.mp h
    rw [declareAll_cons]
    rcases hx : d.declare decl with ⟨_ | _, d'⟩
    · rw [hx] at hd
      cases hd
    · rw [hx] at h
      simp only [ih h]
      rw [declareEach, declareEach, List.foldl_cons, hx]

/-! ## What is registered -/

/-- A type `decl` that is carried out completely has its name registered, by itself or before. -/
theorem Outcome.findType? (h : d.Outcome decl true d') {n : Name} (hn : decl.typeName? = some n) :
    (d'.model.findType? n).isSome := by
  cases h with
  | takenType _ _ _ htaken =>
    obtain rfl := Option.some.inj hn
    show ((d.placeType _ _).model.findType? _).isSome
    rw [findType?_placeType, htaken]
    rfl
  | @addedType t _ _ _ _ _ _ hfree hb =>
    obtain rfl := Option.some.inj hn
    rw [hb.findType?, (findType?_enterType t.space hfree).mpr (.inl ⟨rfl, rfl⟩)]
    rfl
  | takenService | addedService | document => cases hn

theorem Outcome.findService? (h : d.Outcome decl true d') {n : Name}
    (hn : decl.serviceName? = some n) : (d'.model.findService? n).isSome := by
  cases h with
  | takenService _ _ htaken =>
    obtain rfl := Option.some.inj hn
    show ((d.placeService _ _).model.findService? _).isSome
    rw [findService?_placeService, htaken]
    rfl
  | @addedService t _ _ _ d₁ _ _ hx₀ hfree hb _ _ _ _ _ _ hd =>
    obtain rfl := Option.some.inj hn
    have h₁ : (d₁.model.findService? (serviceName t.name)).isSome := by
      have hfree' := hx₀.name.symm ▸ hfree
      rw [hb.findService?,
        (findService?_enterService t.space hfree').mpr (.inl ⟨hx₀.name.symm, rfl⟩)]
      rfl
    rw [hd]
    split <;> exact h₁
  | takenType | addedType | document => cases hn

/-- The draft `d` is what the declarations `ds` say. -/
structure CarriedOut (ds : List Declaration) (d : Draft) : Prop where
  types : ∀ {n id}, d.model.findType? n = some id →
    (∃ k : PrimitiveKind, n = k.name ∧ id = k.typeId) ∨
      ∃ decl ∈ ds, decl.typeName? = some n ∧ d.Recorded decl true
  typeNames : ∀ {decl n}, decl ∈ ds → decl.typeName? = some n → (d.model.findType? n).isSome
  services : ∀ {n id}, d.model.findService? n = some id →
    ∃ decl ∈ ds, decl.serviceName? = some n ∧ d.Recorded decl true
  serviceNames : ∀ {decl n}, decl ∈ ds → decl.serviceName? = some n →
    (d.model.findService? n).isSome
  lists : ∀ {n id}, d.model.findList? n = some id →
    ∃ decl ∈ ds, d.Recorded decl true ∧ .type ⟨n, true⟩ ∈ decl.requests
  pendingTypes : ∀ {n slot}, (n, slot) ∈ d.pendingTypes →
    ∃ decl ∈ ds, d.Recorded decl true ∧ ∃ t, .type t ∈ decl.requests ∧ t.name = n
  pendingServices : ∀ {n slot}, (n, slot) ∈ d.pendingServices →
    ∃ decl ∈ ds, d.Recorded decl true ∧ .service n ∈ decl.requests

theorem carriedOut_nil : CarriedOut [] {} where
  types h := .inl (Model.findType?_initial.mp h)
  typeNames h := by cases h
  services h := by
    obtain ⟨s, hs, -⟩ := Model.indexed_initial.service h
    rw [← Model.definedService?_eq_some, Model.definedService?_initial] at hs
    cases hs
  serviceNames h := by cases h
  lists h := by
    obtain ⟨e, he⟩ := Model.indexed_initial.list.mp h
    obtain ⟨k, hk⟩ := Model.type?_initial he
    cases hk
  pendingTypes h := by cases h
  pendingServices h := by cases h

theorem CarriedOut.concat (h : CarriedOut ds d) (ho : d.Outcome decl true d')
    (he : d.Extends decl true d') : CarriedOut (ds ++ [decl]) d' := by
  have hold : ∀ {P : Declaration → Prop}, (∃ x ∈ ds, P x) → ∃ x ∈ ds ++ [decl], P x :=
    fun ⟨x, hx, hp⟩ => ⟨x, List.mem_append_left _ hx, hp⟩
  have hnew : ∀ {P : Declaration → Prop}, P decl → ∃ x ∈ ds ++ [decl], P x :=
    fun hp => ⟨decl, by simp, hp⟩
  have hkeep : ∀ {x}, d.Recorded x true → d'.Recorded x true := fun hr => hr.grows he.grows
  exact
    { types := fun hid => by
        rcases he.types hid with hid | ⟨-, hn, hr⟩
        · exact (h.types hid).imp_right fun ⟨x, hx, hn, hr⟩ => hold ⟨x, hx, hn, hkeep hr⟩
        · exact .inr (hnew ⟨hn, hr⟩)
      typeNames := fun {x n} hx hn => by
        rcases List.mem_append.mp hx with hx | hx
        · obtain ⟨id, hid⟩ := Option.isSome_iff_exists.mp (h.typeNames hx hn)
          rw [he.grows.findType hid]
          rfl
        · obtain rfl := List.mem_singleton.mp hx
          exact ho.findType? hn
      services := fun hid => by
        rcases he.services hid with hid | ⟨-, hn, hr⟩
        · obtain ⟨x, hx, hn, hr⟩ := h.services hid
          exact hold ⟨x, hx, hn, hkeep hr⟩
        · exact hnew ⟨hn, hr⟩
      serviceNames := fun {x n} hx hn => by
        rcases List.mem_append.mp hx with hx | hx
        · obtain ⟨id, hid⟩ := Option.isSome_iff_exists.mp (h.serviceNames hx hn)
          rw [he.grows.findService hid]
          rfl
        · obtain rfl := List.mem_singleton.mp hx
          exact ho.findService? hn
      lists := fun hl => by
        rcases he.lists hl with hl | hr
        · obtain ⟨x, hx, hr, hq⟩ := h.lists hl
          exact hold ⟨x, hx, hkeep hr, hq⟩
        · exact hnew hr
      pendingTypes := fun hp => by
        rcases he.pendingTypes hp with hp | hr
        · obtain ⟨x, hx, hr, hq⟩ := h.pendingTypes hp
          exact hold ⟨x, hx, hkeep hr, hq⟩
        · exact hnew hr
      pendingServices := fun hp => by
        rcases he.pendingServices hp with hp | hr
        · obtain ⟨x, hx, hr, hq⟩ := h.pendingServices hp
          exact hold ⟨x, hx, hkeep hr, hq⟩
        · exact hnew hr }

theorem carriedOut_declareEach (h : Accepts {} ds) : CarriedOut ds (declareEach {} ds) := by
  induction ds using List.reverseRecOn with
  | nil => exact carriedOut_nil
  | append_singleton ds decl ih =>
    obtain ⟨hds, hok⟩ := accepts_concat.mp h
    have ho := outcome_declareEach ds decl
    have he := extends_declareEach ds decl
    rw [hok] at ho he
    exact (ih hds).concat ho he

end Draft

end ApiModel
