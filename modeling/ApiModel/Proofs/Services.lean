import ApiModel.Proofs.Structs

/-!
# Building services

Methods are added first and filled afterwards, so a method whose parameters or
constraints stop holds the ones up to there. A locator is added when all its
references have been resolved. If one of its parameters stops it, the slots of
the references before stay pending and never come to be: no other locator takes
their place, since the declaration ends there.
-/

namespace ApiModel

namespace Draft

variable {d d₁ : Draft} {e : Entity}

/-- A change of the entity `e` that neither makes nor changes slots. -/
theorem Open.keep (ho : d.Open e) (hg : d.model.Grows {e} d₁.model) (hi : d₁.model.Indexed)
    (hpt : d₁.pendingTypes = d.pendingTypes) (hps : d₁.pendingServices = d.pendingServices)
    (htype : ∀ slot, d₁.model.typeAt? slot = d.model.typeAt? slot)
    (hservice : ∀ slot, d₁.model.serviceAt? slot = d.model.serviceAt? slot) : d₁.Open e where
  sound := ho.sound.extend hg hi (fun _ h => hpt ▸ h) (fun h => .inl (hpt ▸ h))
    (fun h => .inl ((htype _).symm.trans h)) (fun _ h => hps ▸ h) (fun h => .inl (hps ▸ h))
    fun h => .inl ((hservice _).symm.trans h)
  based :=
    { types := fun h => by rw [htype]; exact ho.based.types (hpt ▸ h)
      services := fun h => by rw [hservice]; exact ho.based.services (hps ▸ h) }
  within := hg.within ho.within
  types hown hnone n hn := ho.types hown ((htype _).symm.trans hnone) n (hpt ▸ hn)
  services hown hnone n hn := ho.services hown ((hservice _).symm.trans hnone) n (hps ▸ hn)

/-- A draft stays `Open` if a service that has been resolved is put where it belongs. -/
theorem Open.placeService (ho : d.Open e) {slot : ServiceSlot} (hslot : slot.owner = e) {n : Name}
    {id : ServiceId} (hr : d.ReferredService slot n id d₁) {m : Model}
    (hg : d₁.model.Grows {e} m) (hi : m.Indexed)
    (htype : ∀ slot', m.typeAt? slot' = d₁.model.typeAt? slot')
    (hservice : ∀ slot', m.serviceAt? slot' =
      if slot' = slot then some id else d₁.model.serviceAt? slot') :
    Open { d₁ with model := m } e := by
  have htypeAt : ∀ {slot' : TypeSlot}, slot'.owner.Within d.model →
      d₁.model.typeAt? slot' = d.model.typeAt? slot' := fun hw =>
    hr.builds.grows.typeAt? hw (Set.notMem_empty _)
  have hserviceAt : ∀ {slot' : ServiceSlot}, slot'.owner.Within d.model →
      d₁.model.serviceAt? slot' = d.model.serviceAt? slot' := fun hw =>
    hr.builds.grows.serviceAt? hw (Set.notMem_empty _)
  exact
    { sound := by
        refine hr.sound.extend hg hi (fun _ h => h) .inl (fun h => .inl ((htype _).symm.trans h))
          (fun _ h => h) .inl fun {slot' x} h => ?_
        replace h := (hservice slot').symm.trans h
        split at h
        · rename_i hs
          obtain rfl := hs
          obtain rfl := Option.some.inj h
          exact .inr (hr.fits.grows hr.sound.indexed hg fun _ => .rfl)
        · exact .inl h
      based :=
        { types := fun {x owner} h => by
            have hs := ho.based.types (hr.pendingTypes ▸ h)
            obtain ⟨b, hb⟩ := Option.isSome_iff_exists.mp hs
            show (m.typeAt? _).isSome
            rwa [htype, htypeAt (Model.within_of_typeAt? hb)]
          services := fun {x owner} h => by
            show (m.serviceAt? _).isSome
            rw [hservice]
            split
            · rfl
            · rename_i hne
              have hs := ho.based.services ((hr.others hne).mp h)
              obtain ⟨b, hb⟩ := Option.isSome_iff_exists.mp hs
              rwa [hserviceAt (Model.within_of_serviceAt? hb)] }
      within := hg.within (hr.builds.grows.within ho.within)
      types := fun {slot'} hown hnone x hx => by
        refine ho.types hown ?_ x (hr.pendingTypes ▸ hx)
        rw [← htypeAt (hown ▸ ho.within), ← htype]
        exact hnone
      services := fun {slot'} hown hnone x hx => by
        replace hnone := (hservice slot').symm.trans hnone
        split at hnone
        · cases hnone
        · rename_i hne
          refine ho.services hown ?_ x ((hr.others hne).mp hx)
          rwa [hserviceAt (hown ▸ ho.within)] at hnone }

end Draft

namespace Declare

variable {d : Draft} {id : ServiceId} {s : DefinedService}

/-- The service `id` is under construction, and what it has follows from its parts `xs`. -/
def HoldsService {β : Type} (id : ServiceId) (g : List β → DefinedService) (d : Draft)
    (xs : List β) : Prop :=
  d.Open (.service id) ∧ d.model.service? id = some (.defined (g xs))

/-! ## Methods -/

theorem ensures_parameter {slot : TypeSlot} (hs : d.Sound) (hw : slot.owner.Within d.model)
    (hnone : d.model.typeAt? slot = none) (hq : d.QuietType slot) (decl : ParameterDecl) :
    Ensures (parameter decl slot) d
      (fun p d' => decl.isNamed = true ∧ d.Referred slot decl.type.target p.type d' ∧
        p.Matches d'.model.reading decl)
      (fun d' => decl.isNamed = false ∧ d' = d) := by
  refine .bind (ensures_checked (fun hn => ?_)
    fun hn => ⟨by simp [ParameterDecl.isNamed, hn], rfl⟩)
  obtain ⟨ty, d₁, hx, hr⟩ := exec_typeRef hs hw hnone hq decl.type
  exact .bind_exec hx (.pure ⟨by simp [ParameterDecl.isNamed, hn], hr, rfl, hr.refers, rfl⟩)

theorem modify_snoc {α : Type} (as : List α) (a : α) (f : α → α) :
    (as ++ [a]).modify as.length f = as ++ [f a] := by
  induction as with
  | nil => rfl
  | cons b bs ih => simpa [List.modify_succ_cons] using ih

section Method

variable {ms : List Method} {x : Method}

/-- The method that `modifyMethod` fills is the last one. -/
theorem modifyMethod_last (s : DefinedService) (ms : List Method) (x : Method)
    (f : Method → Method) :
    DefinedService.modifyMethod { s with methods := ms ++ [x] } ms.length f =
      { s with methods := ms ++ [f x] } := by
  simp only [DefinedService.modifyMethod, modify_snoc]

theorem ensures_methodParameter (ho : d.Open (.service id))
    (hs : d.model.service? id = some (.defined { s with methods := ms ++ [x] }))
    (decl : ParameterDecl) :
    Ensures (methodParameter ⟨id, ms.length⟩ decl x.parameters.length) d
      (fun _ d' => decl.isNamed = true ∧ d'.Open (.service id) ∧
        d.Builds {.service id} {decl.request} d' ∧
        ∃ p, d'.model.service? id =
            some (.defined { s with methods := ms ++ [x.addParameter p] }) ∧
          p.Matches d'.model.reading decl)
      (fun d' => decl.isNamed = false ∧ d' = d) := by
  have hmethod : (ms ++ [x])[ms.length]? = some x := List.getElem?_concat_length
  have hnone : d.model.typeAt? (.methodParameter ⟨id, ms.length⟩ x.parameters.length) = none := by
    rw [Model.typeAt?, Model.method?, Model.definedService?_eq_some.mpr hs]
    simp
  have hw : (TypeSlot.methodParameter ⟨id, ms.length⟩ x.parameters.length).owner.Within d.model :=
    ho.within
  refine .bind ((ensures_parameter ho.sound hw hnone (ho.types rfl hnone) decl).imp ?_ ?_)
  · rintro p d₁ ⟨hn, hr, hp⟩
    refine .of_exec (exec_updateModel _ _) ?_
    have hs₁ := hr.builds.grows.service (Set.notMem_empty _) hs
    have hbuilds : d₁.Builds {.service id} {decl.request}
        { d₁ with model := d₁.model.modifyMethod ⟨id, ms.length⟩ (·.addParameter p) } :=
      .of_modifyService
    refine ⟨hn, ?_, (hr.builds.mono (Set.empty_subset _) subset_rfl).trans hbuilds, p, ?_,
      hp.mono hbuilds.grows.reading⟩
    · exact ho.place rfl hr hbuilds.grows (hr.sound.indexed.modifyService fun _ => rfl)
        (Model.typeAt?_addParameter hs₁ hmethod p)
        (Model.serviceAt?_modifyService_of_eq hs₁ rfl rfl)
    · exact (Model.service?_modifyService_self hs₁ _).trans (by rw [modifyMethod_last])
  · exact fun d' h => h

theorem rounds_methodParameter (id : ServiceId) (s : DefinedService) (ms : List Method)
    (x : Method) :
    Rounds (methodParameter ⟨id, ms.length⟩) {.service id} (fun decl => {decl.request})
      ParameterDecl.isNamed (fun r _ => Parameter.Matches r)
      (HoldsService id fun ps => { s with methods := ms ++ [{ x with parameters := ps }] })
      (fun d ps _ => HoldsService id
        (fun ps => { s with methods := ms ++ [{ x with parameters := ps }] }) d ps) where
  mono h hx := hx.mono h
  round := by
    rintro d ps ⟨ho, hs⟩ decl
    refine (ensures_methodParameter ho hs decl).imp ?_ ?_
    · rintro _ d₁ ⟨hn, ho₁, hb₁, p, hs₁, hp⟩
      exact ⟨hn, hb₁, p, ⟨ho₁, hs₁⟩, hp⟩
    · rintro _ ⟨hn, rfl⟩
      exact ⟨hn, .refl _, ho, hs⟩

theorem ensures_methodParameters (ho : d.Open (.service id))
    (hs : d.model.service? id = some (.defined { s with methods := ms ++ [x] }))
    (decls : List ParameterDecl) :
    Ensures ((decls.zipIdx x.parameters.length).forM fun (p, i) =>
        methodParameter ⟨id, ms.length⟩ p i) d
      (fun _ d' => decls.all (·.isNamed) = true ∧ d'.Open (.service id) ∧
        d.Builds {.service id} {r | ∃ p ∈ decls, r = p.request} d' ∧
        ∃ ps, d'.model.service? id = some (.defined
            { s with methods := ms ++ [{ x with parameters := x.parameters ++ ps }] }) ∧
          List.Forall₂ (Parameter.Matches d'.model.reading) ps decls)
      (fun d' => decls.all (·.isNamed) = false ∧ d'.Open (.service id) ∧
        d.Builds {.service id} {r | ∃ p ∈ decls, r = p.request} d' ∧
        ∃ ps done, done <+: decls ∧ d'.model.service? id = some (.defined
            { s with methods := ms ++ [{ x with parameters := x.parameters ++ ps }] }) ∧
          List.Forall₂ (Parameter.Matches d'.model.reading) ps done) := by
  have hd : HoldsService id (fun ps => { s with methods := ms ++ [{ x with parameters := ps }] }) d
      x.parameters := ⟨ho, hs⟩
  refine ((rounds_methodParameter id s ms x).ensures hd decls).imp ?_ ?_
  · rintro _ d₁ ⟨hall, hb₁, ps, ⟨ho₁, hs₁⟩, hps⟩
    exact ⟨hall, ho₁, hb₁, ps, hs₁, forall₂_of_zipIdx hps⟩
  · rintro d₁ ⟨hall, hb₁, ps, done, a, hdone, ⟨ho₁, hs₁⟩, hps⟩
    exact ⟨hall, ho₁, hb₁, ps, done, (List.prefix_append done [a]).trans hdone, hs₁,
      forall₂_of_zipIdx hps⟩

theorem ensures_methodConstraint (ho : d.Open (.service id))
    (hs : d.model.service? id = some (.defined { s with methods := ms ++ [x] }))
    (decl : ConstraintDecl) (i : Nat) :
    Ensures (methodConstraint ⟨id, ms.length⟩ decl i) d
      (fun _ d' => decl.isNamed = true ∧ d'.Open (.service id) ∧
        d.Builds {.service id} ∅ d' ∧
        ∃ c, d'.model.service? id =
            some (.defined { s with methods := ms ++ [x.addConstraint c] }) ∧
          c.Matches d'.model.reading ⟨id, ms.length⟩ decl)
      (fun d' => decl.isNamed = false ∧ d' = d) := by
  refine .bind (.bind (ensures_checked (fun hn => .pure ?_)
    fun hn => ⟨by simp [ConstraintDecl.isNamed, hn], rfl⟩))
  refine .bind_exec (exec_updateModel _ _) (.of_exec (exec_modify _ _) ?_)
  let c : Constraint :=
    { concept := { decl.info.concept (Name.ofCase decl.name) with source := some decl.source }
      direction := decl.direction
      source := decl.source
      method := ⟨id, ms.length⟩ }
  have hbuilds : d.Builds {.service id} ∅
      { d with model := d.model.modifyMethod ⟨id, ms.length⟩ (·.addConstraint c) } :=
    .of_modifyService
  refine ⟨by simp [ConstraintDecl.isNamed, hn], ?_,
    { hbuilds with constraints := List.prefix_append _ _ }, c,
    (Model.service?_modifyService_self hs _).trans (by rw [modifyMethod_last]),
    rfl, rfl, rfl, rfl, rfl⟩
  refine ho.keep hbuilds.grows (ho.sound.indexed.modifyService fun _ => rfl) rfl rfl
    (Model.typeAt?_modifyService_of_eq hs (fun j => ?_) rfl)
    (Model.serviceAt?_modifyService_of_eq hs rfl rfl)
  rw [modifyMethod_last]
  simp only [getElem?_snoc]
  split <;> rfl

theorem rounds_methodConstraint (id : ServiceId) (s : DefinedService) (ms : List Method)
    (x : Method) :
    Rounds (methodConstraint ⟨id, ms.length⟩) {.service id} (fun _ => ∅) ConstraintDecl.isNamed
      (fun r _ => Constraint.Matches r ⟨id, ms.length⟩)
      (HoldsService id fun cs => { s with methods := ms ++ [{ x with constraints := cs }] })
      (fun d cs _ => HoldsService id
        (fun cs => { s with methods := ms ++ [{ x with constraints := cs }] }) d cs) where
  mono h hx := hx.mono h
  round := by
    rintro d cs ⟨ho, hs⟩ decl
    refine (ensures_methodConstraint ho hs decl cs.length).imp ?_ ?_
    · rintro _ d₁ ⟨hn, ho₁, hb₁, c, hs₁, hc⟩
      exact ⟨hn, hb₁, c, ⟨ho₁, hs₁⟩, hc⟩
    · rintro _ ⟨hn, rfl⟩
      exact ⟨hn, .refl _, ho, hs⟩

theorem ensures_methodConstraints (ho : d.Open (.service id))
    (hs : d.model.service? id = some (.defined { s with methods := ms ++ [x] }))
    (decls : List ConstraintDecl) :
    Ensures ((decls.zipIdx x.constraints.length).forM fun (c, i) => methodConstraint ⟨id, ms.length⟩ c i) d
      (fun _ d' => decls.all (·.isNamed) = true ∧ d'.Open (.service id) ∧
        d.Builds {.service id} ∅ d' ∧
        ∃ cs, d'.model.service? id = some (.defined
            { s with methods := ms ++ [{ x with constraints := x.constraints ++ cs }] }) ∧
          List.Forall₂ (Constraint.Matches d'.model.reading ⟨id, ms.length⟩) cs decls)
      (fun d' => decls.all (·.isNamed) = false ∧ d'.Open (.service id) ∧
        d.Builds {.service id} ∅ d' ∧
        ∃ cs done, done <+: decls ∧ d'.model.service? id = some (.defined
            { s with methods := ms ++ [{ x with constraints := x.constraints ++ cs }] }) ∧
          List.Forall₂ (Constraint.Matches d'.model.reading ⟨id, ms.length⟩) cs done) := by
  have hd : HoldsService id (fun cs => { s with methods := ms ++ [{ x with constraints := cs }] }) d
      x.constraints := ⟨ho, hs⟩
  refine ((rounds_methodConstraint id s ms x).ensures hd decls).imp ?_ ?_
  · rintro _ d₁ ⟨hall, hb₁, cs, ⟨ho₁, hs₁⟩, hcs⟩
    exact ⟨hall, ho₁, hb₁.mono subset_rfl (by simp), cs, hs₁, forall₂_of_zipIdx hcs⟩
  · rintro d₁ ⟨hall, hb₁, cs, done, a, hdone, ⟨ho₁, hs₁⟩, hcs⟩
    exact ⟨hall, ho₁, hb₁.mono subset_rfl (by simp), cs, done,
      (List.prefix_append done [a]).trans hdone, hs₁, forall₂_of_zipIdx hcs⟩

end Method

/-- The methods `xs`, added to those of `s`, match `decls`. -/
def MethodsMatch (r : Reading) (id : ServiceId) (s : DefinedService) (xs : List Method)
    (decls : List MethodDecl) : Prop :=
  List.Forall₂ (fun (x : Method × Nat) decl => x.1.Matches r ⟨id, x.2⟩ decl)
    (xs.zipIdx s.methods.length) decls

theorem ensures_method (ho : d.Open (.service id)) (hs : d.model.service? id = some (.defined s))
    (decl : MethodDecl) :
    Ensures (method id decl) d
      (fun _ d' => decl.isNamed = true ∧ d'.Open (.service id) ∧
        d.Builds {.service id} decl.requests d' ∧
        ∃ x, d'.model.service? id = some (.defined (s.addMethod x)) ∧
          x.Matches d'.model.reading ⟨id, s.methods.length⟩ decl)
      (fun d' => decl.isNamed = false ∧ d'.Open (.service id) ∧
        d.Builds {.service id} decl.requests d' ∧
        ∃ xs parts whole,
          d'.model.service? id = some (.defined { s with methods := s.methods ++ xs }) ∧
          MethodsMatch d'.model.reading id s xs parts ∧
          List.Forall₂ MethodDecl.IsPart parts whole ∧ whole <+: [decl]) := by
  refine .bind (ensures_checked (fun hn => ?_) fun hn => ?_)
  · refine .bind_exec (exec_get d) ?_
    rw [show (d.model.definedService? id).elim 0 (·.methods.length) = s.methods.length by
      rw [Model.definedService?_eq_some.mpr hs]; rfl]
    refine .bind_exec (exec_updateModel _ _) ?_
    let x : Method := { concept := decl.info.concept (Name.ofCase decl.name), service := id }
    have hb₁ : d.Builds {.service id} decl.requests
        { d with model := d.model.modifyService id (·.addMethod x) } := .of_modifyService
    have hs₁ : (d.model.modifyService id (·.addMethod x)).service? id =
        some (.defined { s with methods := s.methods ++ [x] }) :=
      Model.service?_modifyService_self hs _
    have ho₁ : Draft.Open { d with model := d.model.modifyService id (·.addMethod x) }
        (.service id) := by
      refine ho.keep hb₁.grows (ho.sound.indexed.modifyService fun _ => rfl) rfl rfl
        (Model.typeAt?_modifyService_of_eq hs (fun j => ?_) rfl)
        (Model.serviceAt?_modifyService_of_eq hs rfl rfl)
      rw [DefinedService.addMethod, getElem?_snoc]
      split
      · rename_i hj
        rw [List.getElem?_eq_none (Nat.le_of_eq hj.symm)]
        rfl
      · rfl
    refine .bind ((ensures_methodParameters ho₁ hs₁ decl.parameters).imp ?_ ?_)
    · rintro _ d₂ ⟨hps, ho₂, hb₂, ps, hs₂, hmps⟩
      refine (ensures_methodConstraints ho₂ hs₂ decl.constraints).imp ?_ ?_
      · rintro _ d₃ ⟨hcs, ho₃, hb₃, cs, hs₃, hmcs⟩
        exact ⟨by simp [MethodDecl.isNamed, hn, hps, hcs], ho₃,
          (hb₁.trans hb₂).trans (hb₃.mono subset_rfl (Set.empty_subset _)), _, hs₃, rfl, rfl,
          hmps.imp fun _ _ => .mono hb₃.grows.reading, hmcs⟩
      · rintro d₃ ⟨hcs, ho₃, hb₃, cs, done, hdone, hs₃, hmcs⟩
        refine ⟨by simp [MethodDecl.isNamed, hcs], ho₃,
          (hb₁.trans hb₂).trans (hb₃.mono subset_rfl (Set.empty_subset _)), [_],
          [{ decl with constraints := done }], [decl], hs₃, .cons ⟨rfl, rfl, ?_, hmcs⟩ .nil,
          .cons ⟨rfl, rfl, List.prefix_rfl, hdone⟩ .nil, List.prefix_rfl⟩
        exact hmps.imp fun _ _ => .mono hb₃.grows.reading
    · rintro d₂ ⟨hps, ho₂, hb₂, ps, done, hdone, hs₂, hmps⟩
      exact ⟨by simp [MethodDecl.isNamed, hps], ho₂, hb₁.trans hb₂, [_],
        [{ decl with parameters := done, constraints := [] }], [decl], hs₂,
        .cons ⟨rfl, rfl, hmps, .nil⟩ .nil,
        .cons ⟨rfl, rfl, hdone, List.nil_prefix⟩ .nil, List.prefix_rfl⟩
  · exact ⟨by simp [MethodDecl.isNamed, hn], ho, .refl d, [], [], [], by simpa using hs, .nil,
      .nil, List.nil_prefix⟩

/-- A `method` that stops stays in the service with what it has. -/
theorem rounds_method (id : ServiceId) (s : DefinedService) :
    Rounds (fun decl _ => method id decl) {.service id} MethodDecl.requests MethodDecl.isNamed
      (fun r i x => Method.Matches r ⟨id, i⟩ x)
      (HoldsService id fun xs => { s with methods := xs })
      (fun d xs decl => d.Open (.service id) ∧ ∃ ys parts whole,
        d.model.service? id = some (.defined { s with methods := xs ++ ys }) ∧
        MethodsMatch d.model.reading id { s with methods := xs } ys parts ∧
        List.Forall₂ MethodDecl.IsPart parts whole ∧ whole <+: [decl]) where
  mono h hx := hx.mono h
  round := by
    rintro d xs ⟨ho, hs⟩ decl
    refine (ensures_method ho hs decl).imp ?_ ?_
    · rintro _ d₁ ⟨hn, ho₁, hb₁, x, hs₁, hx⟩
      exact ⟨hn, hb₁, x, ⟨ho₁, hs₁⟩, hx⟩
    · rintro d₁ ⟨hn, ho₁, hb₁, hpart⟩
      exact ⟨hn, hb₁, ho₁, hpart⟩

theorem ensures_methods (ho : d.Open (.service id)) (hs : d.model.service? id = some (.defined s))
    (decls : List MethodDecl) :
    Ensures (decls.forM (method id)) d
      (fun _ d' => decls.all (·.isNamed) = true ∧ d'.Open (.service id) ∧
        d.Builds {.service id} {r | ∃ x ∈ decls, r ∈ x.requests} d' ∧
        ∃ xs, d'.model.service? id = some (.defined { s with methods := s.methods ++ xs }) ∧
          MethodsMatch d'.model.reading id s xs decls)
      (fun d' => decls.all (·.isNamed) = false ∧ d'.Open (.service id) ∧
        d.Builds {.service id} {r | ∃ x ∈ decls, r ∈ x.requests} d' ∧
        ∃ xs parts whole,
          d'.model.service? id = some (.defined { s with methods := s.methods ++ xs }) ∧
          MethodsMatch d'.model.reading id s xs parts ∧
          List.Forall₂ MethodDecl.IsPart parts whole ∧ whole <+: decls) := by
  rw [← forM_zipIdx _ _ s.methods.length]
  have hd : HoldsService id (fun xs => { s with methods := xs }) d s.methods := ⟨ho, hs⟩
  refine ((rounds_method id s).ensures hd decls).imp ?_ ?_
  · rintro _ d₁ ⟨hall, hb₁, xs, ⟨ho₁, hs₁⟩, hxs⟩
    exact ⟨hall, ho₁, hb₁, xs, hs₁, hxs⟩
  · rintro d₁ ⟨hall, hb₁, xs, done, a, hdone, ⟨ho₁, ys, parts, whole, hs₁, hys, hparts, hwhole⟩, hxs⟩
    refine ⟨hall, ho₁, hb₁, xs ++ ys, done ++ parts, done ++ whole, by rwa [← List.append_assoc],
      ?_, List.rel_append (List.forall₂_same.mpr fun x _ => .refl x) hparts,
      ((List.prefix_append_right_inj done).mpr hwhole).trans hdone⟩
    rw [MethodsMatch, List.length_append] at hys
    rw [MethodsMatch, List.zipIdx_append]
    exact List.rel_append hxs hys

/-! ## Locators -/

end Declare

namespace Draft

/-- References have been resolved for the slots in `slots`, and have not been put there yet. -/
structure Gathers (d : Draft) (asked : Set Request) (slots : Set TypeSlot) (d' : Draft) :
    Prop where
  builds : d.Builds ∅ asked d'
  sound : d'.Sound
  others : ∀ {n slot}, slot ∉ slots →
    (∀ list, slot = .listElement list → (Entity.type list).Within d.model) →
    ((n, slot) ∈ d'.pendingTypes ↔ (n, slot) ∈ d.pendingTypes)
  services : d'.model.services = d.model.services
  pendingServices : d'.pendingServices = d.pendingServices

namespace Gathers

variable {d d' d'' : Draft} {asked asked' : Set Request} {slots slots' : Set TypeSlot}

theorem refl (hs : d.Sound) : Gathers d asked slots d :=
  ⟨.refl d, hs, fun _ _ => .rfl, rfl, rfl⟩

theorem trans (h : Gathers d asked slots d') (h' : Gathers d' asked slots d'') :
    Gathers d asked slots d'' where
  builds := h.builds.trans h'.builds
  sound := h'.sound
  others hslot hw := (h'.others hslot fun list hl => h.builds.grows.within (hw list hl)).trans
    (h.others hslot hw)
  services := h'.services.trans h.services
  pendingServices := h'.pendingServices.trans h.pendingServices

theorem mono (h : Gathers d asked slots d') (ha : asked ⊆ asked') (hs : slots ⊆ slots') :
    Gathers d asked' slots' d' :=
  { h with
    builds := h.builds.mono subset_rfl ha
    others := fun hslot => h.others fun hmem => hslot (hs hmem) }

theorem service? (h : Gathers d asked slots d') (id : ServiceId) :
    d'.model.service? id = d.model.service? id := by
  rw [Model.service?, Model.service?, h.services]

/-- No `base` is among what locators gather. -/
theorem based (h : Gathers d asked slots d') (hb : d.Based)
    (hslots : ∀ owner, TypeSlot.base owner ∉ slots) : d'.Based where
  types {n owner} hp := by
    have hs := hb.types ((h.others (hslots owner) (by simp)).mp hp)
    obtain ⟨b, hb⟩ := Option.isSome_iff_exists.mp hs
    rwa [h.builds.grows.typeAt? (Model.within_of_typeAt? hb) (Set.notMem_empty _)]
  services {n owner} hp := by
    rw [serviceAt?_eq_of_services h.services]
    exact hb.services (h.pendingServices ▸ hp)

end Gathers

theorem Referred.gathers {d d' : Draft} {slot : TypeSlot} {t : Target} {id : TypeId}
    (h : Referred d slot t id d') : Gathers d {.type t} {slot} d' :=
  { h with others := fun hslot hw => h.others hslot hw }

end Draft

namespace Declare

variable {d : Draft} {id : ServiceId} {s : DefinedService}

/-- The slots of the parameters of the locator `k`, from the parameter `i` on. -/
def locatorSlots (id : ServiceId) (k i : Nat) : Set TypeSlot :=
  {slot | ∃ j, i ≤ j ∧ slot = .locatorParameter id k j}

theorem ensures_locatorParameters {k i : Nat} (hs : d.Sound)
    (hw : ∀ j, (TypeSlot.locatorParameter id k j).owner.Within d.model)
    (hnone : ∀ j, d.model.typeAt? (.locatorParameter id k j) = none)
    (hq : ∀ j, i ≤ j → d.QuietType (.locatorParameter id k j)) (decls : List ParameterDecl) :
    Ensures ((decls.zipIdx i).mapM fun (p, j) => parameter p (.locatorParameter id k j)) d
      (fun ps d' => decls.all (·.isNamed) = true ∧
        d.Gathers {r | ∃ p ∈ decls, r = p.request} (locatorSlots id k i) d' ∧
        (∀ j, i + ps.length ≤ j → d'.QuietType (.locatorParameter id k j)) ∧
        List.Forall₂ (Parameter.Matches d'.model.reading) ps decls ∧
        ∀ (j : Nat) p, ps[j]? = some p → d'.FitsType (.locatorParameter id k (i + j)) p.type)
      (fun d' => decls.all (·.isNamed) = false ∧
        d.Gathers {r | ∃ p ∈ decls, r = p.request} (locatorSlots id k i) d') := by
  induction decls generalizing d i with
  | nil => exact .pure ⟨rfl, .refl hs, fun j hj => hq j hj, .nil, by simp⟩
  | cons decl decls ih =>
    have hhead : ({decl.request} : Set Request) ⊆ {r | ∃ p ∈ decl :: decls, r = p.request} := by
      rintro r rfl
      exact ⟨decl, List.mem_cons_self .., rfl⟩
    have htail : {r | ∃ p ∈ decls, r = ParameterDecl.request p} ⊆
        {r | ∃ p ∈ decl :: decls, r = p.request} := by
      rintro r ⟨p, hp, rfl⟩
      exact ⟨p, List.mem_cons_of_mem _ hp, rfl⟩
    have hslot : {TypeSlot.locatorParameter id k i} ⊆ locatorSlots id k i := by
      rintro _ rfl
      exact ⟨i, le_rfl, rfl⟩
    have hslots : locatorSlots id k (i + 1) ⊆ locatorSlots id k i := by
      rintro _ ⟨j, hj, rfl⟩
      exact ⟨j, Nat.le_of_succ_le hj, rfl⟩
    rw [List.zipIdx_cons, List.mapM_cons]
    refine .bind ((ensures_parameter hs (hw i) (hnone i) (hq i le_rfl) decl).imp ?_ ?_)
    · rintro p d₁ ⟨hn, hr, hp⟩
      have hg₁ := hr.gathers.mono hhead hslot
      have hq₁ : ∀ j, i + 1 ≤ j → d₁.QuietType (.locatorParameter id k j) := by
        intro j hj n hpend
        refine hq j (Nat.le_of_succ_le hj) n ((hr.others ?_ (by simp)).mp hpend)
        simp [Nat.ne_of_gt hj]
      have hnone₁ : ∀ j, d₁.model.typeAt? (.locatorParameter id k j) = none :=
        fun j => (hr.typeAt? (hw j)).trans (hnone j)
      refine .bind ((ih hr.sound (fun j => hr.builds.grows.within (hw j)) hnone₁ hq₁).imp ?_ ?_)
      · rintro ps d₂ ⟨hall, hg₂, hq₂, hps, hfit⟩
        refine .pure ⟨by simp [hn, hall], hg₁.trans (hg₂.mono htail hslots), fun j hj => ?_,
          .cons (hp.mono hg₂.builds.grows.reading) hps, fun j q hj => ?_⟩
        · exact hq₂ j (by simpa [Nat.add_right_comm, Nat.add_assoc] using hj)
        · cases j with
          | zero =>
            obtain rfl := Option.some.inj hj
            refine hr.fits.grows hr.sound.indexed hg₂.builds.grows fun n => ?_
            refine hg₂.others ?_ (by simp)
            rintro ⟨j, hj, he⟩
            simp only [TypeSlot.locatorParameter.injEq, true_and] at he
            omega
          | succ j =>
            have := hfit j q hj
            rwa [Nat.add_right_comm, Nat.add_assoc] at this
      · rintro d₂ ⟨hall, hg₂⟩
        exact ⟨by simp [hall], hg₁.trans (hg₂.mono htail hslots)⟩
    · rintro _ ⟨hn, rfl⟩
      exact ⟨by simp [hn], .refl hs⟩

end Declare

namespace Draft

variable {d d₁ d₂ : Draft} {id target : ServiceId} {s : DefinedService} {n : Name}
  {asked : Set Request}

theorem ReferredService.based {slot : ServiceSlot} (hr : d.ReferredService slot n target d₁)
    (hb : d.Based) (hslot : ∀ owner, slot ≠ .base owner) : d₁.Based where
  types h := by
    obtain ⟨b, hb⟩ := Option.isSome_iff_exists.mp (hb.types (hr.pendingTypes ▸ h))
    rw [hr.builds.grows.typeAt? (Model.within_of_typeAt? hb) (Set.notMem_empty _), hb]
    rfl
  services {_ owner} h := by
    obtain ⟨b, hb⟩ := Option.isSome_iff_exists.mp
      (hb.services ((hr.others (hslot owner).symm).mp h))
    rw [hr.builds.grows.serviceAt? (Model.within_of_serviceAt? hb) (Set.notMem_empty _), hb]
    rfl

theorem base_notMem_locatorSlots {k i : Nat} (owner : TypeId) :
    TypeSlot.base owner ∉ Declare.locatorSlots id k i := by
  rintro ⟨j, -, h⟩
  cases h

/-- A locator `l` can be added once its references have been resolved. -/
theorem sound_addLocator (hs : d₂.model.service? id = some (.defined s))
    (hr : d.ReferredService (.locator id s.locators.length) n target d₁)
    (hg : d₁.Gathers asked (Declare.locatorSlots id s.locators.length 0) d₂) {l : Locator}
    (hl : l.service = target)
    (hfit : ∀ (j : Nat) p, l.parameters[j]? = some p →
      d₂.FitsType (.locatorParameter id s.locators.length j) p.type) :
    Sound { d₂ with model := d₂.model.modifyService id (·.addLocator l) } := by
  have hg₂ : d₂.model.Grows {.service id} (d₂.model.modifyService id (·.addLocator l)) :=
    Model.grows_modifyService
  have hservice : d₂.FitsService (.locator id s.locators.length) target :=
    hr.fits.grows hr.sound.indexed hg.builds.grows fun _ => by rw [hg.pendingServices]
  refine hg.sound.extend hg₂ (hg.sound.indexed.modifyService fun _ => rfl) (fun _ h => h) .inl
    (fun {slot x} h => ?_) (fun _ h => h) .inl fun {slot x} h => ?_
  · by_cases hslot : ∃ j, slot = .locatorParameter id s.locators.length j
    · obtain ⟨j, rfl⟩ := hslot
      replace h := (Model.typeAt?_addLocator_new hs l j).symm.trans h
      obtain ⟨p, hp, rfl⟩ := Option.map_eq_some_iff.mp h
      exact .inr ((hfit j p hp).grows hg.sound.indexed hg₂ fun _ => .rfl)
    · exact .inl ((Model.typeAt?_addLocator_old hs l (not_exists.mp hslot)).symm.trans h)
  · replace h := (Model.serviceAt?_addLocator hs l slot).symm.trans h
    split at h
    · rename_i hslot
      obtain rfl := hslot
      obtain rfl := Option.some.inj h
      rw [hl]
      exact .inr (hservice.grows hg.sound.indexed hg₂ fun _ => .rfl)
    · exact .inl h

/-- A draft stays `Open` for a service that gets such a locator. -/
theorem Open.placeLocator (ho : d.Open (.service id))
    (hs : d.model.service? id = some (.defined s))
    (hr : d.ReferredService (.locator id s.locators.length) n target d₁)
    (hg : d₁.Gathers asked (Declare.locatorSlots id s.locators.length 0) d₂) {l : Locator}
    (hl : l.service = target)
    (hfit : ∀ (j : Nat) p, l.parameters[j]? = some p →
      d₂.FitsType (.locatorParameter id s.locators.length j) p.type)
    (hq : ∀ j, l.parameters.length ≤ j →
      d₂.QuietType (.locatorParameter id s.locators.length j)) :
    Open { d₂ with model := d₂.model.modifyService id (·.addLocator l) } (.service id) := by
  have hgrows := hr.builds.grows.trans hg.builds.grows
  have hs₂ := hgrows.service (Set.notMem_empty _) hs
  have hg₂ : d₂.model.Grows {.service id} (d₂.model.modifyService id (·.addLocator l)) :=
    Model.grows_modifyService
  have hbased := hg.based (hr.based ho.based (by simp)) base_notMem_locatorSlots
  have hold : ∀ {slot : TypeSlot}, (∀ j, slot ≠ .locatorParameter id s.locators.length j) →
      slot ∉ Declare.locatorSlots id s.locators.length 0 :=
    fun hne ⟨j, _, he⟩ => hne j he
  refine ⟨sound_addLocator hs₂ hr hg hl hfit, ⟨fun {x owner} h => ?_, fun {x owner} h => ?_⟩,
    hg₂.within (hgrows.within ho.within), fun {slot} hown hnone x hx => ?_,
    fun {slot} hown hnone x hx => ?_⟩
  · rw [Model.typeAt?_addLocator_old hs₂ l (by simp)]
    exact hbased.types h
  · rw [Model.serviceAt?_addLocator hs₂ l, if_neg (by simp)]
    exact hbased.services h
  · by_cases hslot : ∃ j, slot = .locatorParameter id s.locators.length j
    · obtain ⟨j, rfl⟩ := hslot
      replace hnone := (Model.typeAt?_addLocator_new hs₂ l j).symm.trans hnone
      exact hq j (by simpa using hnone) x hx
    · have hne := not_exists.mp hslot
      have hw : slot.owner.Within d.model := hown ▸ ho.within
      replace hnone := (Model.typeAt?_addLocator_old hs₂ l hne).symm.trans hnone
      rw [hgrows.typeAt? hw (Set.notMem_empty _)] at hnone
      refine ho.types hown hnone x (hr.pendingTypes ▸ (hg.others (hold hne) ?_).mp hx)
      exact fun list hlist => hr.builds.grows.within (TypeSlot.within_list hw list hlist)
  · replace hnone := (Model.serviceAt?_addLocator hs₂ l slot).symm.trans hnone
    split at hnone
    · cases hnone
    · rename_i hne
      rw [hgrows.serviceAt? (hown ▸ ho.within) (Set.notMem_empty _)] at hnone
      exact ho.services hown hnone x ((hr.others hne).mp (hg.pendingServices ▸ hx))

end Draft

namespace Declare

variable {d : Draft} {id : ServiceId} {s : DefinedService}

theorem parseServiceName_eq (text : String) : parseServiceName text =
    checked .service (stripServiceSuffix text) (serviceName text) := rfl

/-- By `locator`, a locator is added with its references resolved; if it stops, the service is as
before. -/
theorem ensures_locator (ho : d.Open (.service id)) (hs : d.model.service? id = some (.defined s))
    (decl : LocatorDecl) :
    Ensures (locator id decl) d
      (fun _ d' => decl.isNamed = true ∧ d'.Open (.service id) ∧
        d.Builds {.service id} decl.requests d' ∧
        ∃ l, d'.model.service? id = some (.defined (s.addLocator l)) ∧
          l.Matches d'.model.reading decl)
      (fun d' => decl.isNamed = false ∧ d'.Sound ∧ d'.Based ∧
        d.Builds {.service id} decl.requests d' ∧
        d'.model.service? id = some (.defined s)) := by
  refine .bind (ensures_checked (fun hn => ?_)
    fun hn => ⟨by simp [LocatorDecl.isNamed, hn], ho.sound, ho.based, .refl d, hs⟩)
  rw [parseServiceName_eq]
  refine .bind (ensures_checked (fun ht => ?_)
    fun ht => ⟨by simp [LocatorDecl.isNamed, ht], ho.sound, ho.based, .refl d, hs⟩)
  refine .bind_exec (exec_get d) ?_
  rw [show (d.model.definedService? id).elim 0 (·.locators.length) = s.locators.length by
    rw [Model.definedService?_eq_some.mpr hs]; rfl]
  have hs' := Model.definedService?_eq_some.mpr hs
  have hnone : d.model.serviceAt? (.locator id s.locators.length) = none := by
    rw [Model.serviceAt?, hs']
    simp
  have hw : (ServiceSlot.locator id s.locators.length).owner.Within d.model := ho.within
  have hr := Draft.referred_resolveService ho.sound hw hnone (ho.services rfl hnone)
    (serviceName decl.service)
  refine .bind_exec (exec_lift _ d) ?_
  generalize hx : Draft.resolveService (serviceName decl.service)
    (.locator id s.locators.length) d = x at hr
  obtain ⟨target, d₁⟩ := x
  have hreq₁ : ({.service (serviceName decl.service)} : Set Request) ⊆ decl.requests := by
    rintro _ rfl
    exact .inl rfl
  have hreq₂ : {r | ∃ p ∈ decl.parameters, r = ParameterDecl.request p} ⊆ decl.requests :=
    fun r hr => .inr hr
  have hwp : ∀ j, (TypeSlot.locatorParameter id s.locators.length j).owner.Within d.model :=
    fun _ => ho.within
  have hnonep : ∀ j, d.model.typeAt? (.locatorParameter id s.locators.length j) = none :=
    fun j => by rw [Model.typeAt?, hs']; simp
  refine .bind ((ensures_locatorParameters hr.sound
    (fun j => hr.builds.grows.within (hwp j))
    (fun j => (hr.builds.grows.typeAt? (hwp j) (Set.notMem_empty _)).trans (hnonep j))
    (fun j (_ : 0 ≤ j) x hx => ho.types rfl (hnonep j) x (hr.pendingTypes ▸ hx))
    decl.parameters).imp ?_ ?_)
  · rintro ps d₂ ⟨hall, hg, hq, hps, hfit⟩
    refine .of_exec (exec_updateModel _ _) ?_
    let l : Locator :=
      { concept := decl.info.concept (Name.ofCase decl.name), service := target, parameters := ps }
    have hbuilds : d₂.Builds {.service id} decl.requests
        { d₂ with model := d₂.model.modifyService id (·.addLocator l) } := .of_modifyService
    have hb := (hr.builds.mono (Set.empty_subset _) hreq₁).trans
      ((hg.builds.mono (Set.empty_subset _) hreq₂).trans hbuilds)
    refine ⟨by simp [LocatorDecl.isNamed, hn, ht, hall],
      ho.placeLocator hs hr hg rfl (fun j p hp => ?_) (fun j hj => hq j (by simpa using hj)), hb,
      l, ?_, rfl, ?_, hps.imp fun _ _ => .mono hbuilds.grows.reading⟩
    · have := hfit j p hp
      rwa [Nat.zero_add] at this
    · exact Model.service?_modifyService_self ((hg.service? id).trans
        (hr.builds.grows.service (Set.notMem_empty _) hs)) _
    · exact hbuilds.grows.serviceNamed (hg.builds.grows.serviceNamed hr.named)
  · rintro d₂ ⟨hall, hg⟩
    refine ⟨by simp [LocatorDecl.isNamed, hall], hg.sound,
      hg.based (hr.based ho.based (by simp)) Draft.base_notMem_locatorSlots,
      (hr.builds.mono (Set.empty_subset _) hreq₁).trans
        (hg.builds.mono (Set.empty_subset _) hreq₂), ?_⟩
    exact (hg.service? id).trans (hr.builds.grows.service (Set.notMem_empty _) hs)

theorem rounds_locator (id : ServiceId) (s : DefinedService) :
    Rounds (fun decl _ => locator id decl) {.service id} LocatorDecl.requests LocatorDecl.isNamed
      (fun r _ => Locator.Matches r) (HoldsService id fun ls => { s with locators := ls })
      (fun d ls _ => d.Sound ∧ d.Based ∧
        d.model.service? id = some (.defined { s with locators := ls })) where
  mono h hx := hx.mono h
  round := by
    rintro d ls ⟨ho, hs⟩ decl
    refine (ensures_locator ho hs decl).imp ?_ ?_
    · rintro _ d₁ ⟨hn, ho₁, hb₁, l, hs₁, hl⟩
      exact ⟨hn, hb₁, l, ⟨ho₁, hs₁⟩, hl⟩
    · rintro d₁ ⟨hn, hsound, hbased, hb₁, hs₁⟩
      exact ⟨hn, hb₁, hsound, hbased, hs₁⟩

theorem ensures_locators (ho : d.Open (.service id)) (hs : d.model.service? id = some (.defined s))
    (decls : List LocatorDecl) :
    Ensures (decls.forM (locator id)) d
      (fun _ d' => decls.all (·.isNamed) = true ∧ d'.Open (.service id) ∧
        d.Builds {.service id} {r | ∃ x ∈ decls, r ∈ x.requests} d' ∧
        ∃ ls, d'.model.service? id = some (.defined { s with locators := s.locators ++ ls }) ∧
          List.Forall₂ (Locator.Matches d'.model.reading) ls decls)
      (fun d' => decls.all (·.isNamed) = false ∧ d'.Sound ∧ d'.Based ∧
        d.Builds {.service id} {r | ∃ x ∈ decls, r ∈ x.requests} d' ∧
        ∃ ls done, done <+: decls ∧
          d'.model.service? id = some (.defined { s with locators := s.locators ++ ls }) ∧
          List.Forall₂ (Locator.Matches d'.model.reading) ls done) := by
  rw [← forM_zipIdx _ _ s.locators.length]
  have hd : HoldsService id (fun ls => { s with locators := ls }) d s.locators := ⟨ho, hs⟩
  refine ((rounds_locator id s).ensures hd decls).imp ?_ ?_
  · rintro _ d₁ ⟨hall, hb₁, ls, ⟨ho₁, hs₁⟩, hls⟩
    exact ⟨hall, ho₁, hb₁, ls, hs₁, forall₂_of_zipIdx hls⟩
  · rintro d₁ ⟨hall, hb₁, ls, done, a, hdone, ⟨hsound, hbased, hs₁⟩, hls⟩
    exact ⟨hall, hsound, hbased, hb₁, ls, done, (List.prefix_append done [a]).trans hdone, hs₁,
      forall₂_of_zipIdx hls⟩

/-! ## Services -/

theorem ensures_serviceBase (ho : d.Open (.service id))
    (hs : d.model.service? id = some (.defined s)) (hbase : s.base = none)
    (base : Option String) :
    Ensures (serviceBase id base) d
      (fun _ d' => base.all (fun text => !(serviceName text).isEmpty) = true ∧
        d'.Open (.service id) ∧
        d.Builds {.service id} {r | ∃ text ∈ base, r = .service (serviceName text)} d' ∧
        ∃ b, d'.model.service? id = some (.defined { s with base := b }) ∧
          Option.Rel (fun b text => d'.model.ServiceNamed (serviceName text) b) b base)
      (fun d' => base.all (fun text => !(serviceName text).isEmpty) = false ∧ d' = d) := by
  cases base with
  | none => exact .pure ⟨rfl, ho, .refl d, none, by rw [← hbase]; exact hs, .none⟩
  | some text =>
    refine .bind ?_
    rw [parseServiceName_eq]
    refine ensures_checked (fun hn => ?_) fun hn => ⟨by simp [hn], rfl⟩
    have hnone : d.model.serviceAt? (.base id) = none := by
      rw [Model.serviceAt?, Model.definedService?_eq_some.mpr hs]
      exact hbase
    have hw : (ServiceSlot.base id).owner.Within d.model := ho.within
    have hr := Draft.referred_resolveService ho.sound hw hnone (ho.services rfl hnone)
      (serviceName text)
    refine .bind_exec (exec_lift _ d) (.of_exec (exec_updateModel _ _) ?_)
    generalize hx : Draft.resolveService (serviceName text) (.base id) d = x at hr
    obtain ⟨b, d₁⟩ := x
    have hs₁ := hr.builds.grows.service (Set.notMem_empty _) hs
    have hbuilds : d₁.Builds {.service id} {.service (serviceName text)}
        { d₁ with model := d₁.model.modifyService id ({ · with base := some b }) } :=
      .of_modifyService
    refine ⟨by simp [hn], ?_, ((hr.builds.mono (Set.empty_subset _) subset_rfl).trans
      hbuilds).mono subset_rfl ?_, some b, Model.service?_modifyService_self hs₁ _,
      .some (hbuilds.grows.serviceNamed hr.named)⟩
    · exact ho.placeService rfl hr hbuilds.grows (hr.sound.indexed.modifyService fun _ => rfl)
        (Model.typeAt?_modifyService_of_eq hs₁ (fun _ => rfl) rfl)
        (Model.serviceAt?_setBase hs₁ b)
    · rintro _ rfl
      exact ⟨text, rfl, rfl⟩

/-- What follows the registration of the service `id`, up to the choice of the root. -/
theorem ensures_serviceBody (ho : d.Open (.service id))
    (hs : d.model.service? id = some (.defined s)) {decl : ServiceDecl}
    (hconcept : s.concept = decl.info.concept (serviceName decl.name))
    (hmodule : Option.Rel d.model.reading.module s.module (spaceName? decl.space))
    (hb : s.base = none) (hm : s.methods = []) (hl : s.locators = []) :
    Ensures (do
        serviceBase id decl.supertype.base?
        decl.methods.forM (method id)
        decl.locators.forM (locator id)) d
      (fun _ d' => decl.bodyNamed = true ∧ d'.Sound ∧ d'.Based ∧
        d.Builds {.service id} decl.requests d' ∧
        ∃ s', d'.model.service? id = some (.defined s') ∧ s'.module = s.module ∧
          s'.Matches d'.model.reading id decl decl.supertype.base? decl.methods decl.locators)
      (fun d' => decl.bodyNamed = false ∧ d'.Sound ∧ d'.Based ∧
        d.Builds {.service id} decl.requests d' ∧
        ∃ s', d'.model.service? id = some (.defined s') ∧ s'.module = s.module ∧
          s'.MatchesPart d'.model.reading id decl decl.supertype.base? decl.methods
            decl.locators) := by
  have hreq₁ : {r | ∃ text ∈ decl.supertype.base?, r = .service (serviceName text)} ⊆
      decl.requests := fun r hr => .inl hr
  have hreq₂ : {r | ∃ x ∈ decl.methods, r ∈ MethodDecl.requests x} ⊆ decl.requests :=
    fun r hr => .inr (.inl hr)
  have hreq₃ : {r | ∃ x ∈ decl.locators, r ∈ LocatorDecl.requests x} ⊆ decl.requests :=
    fun r hr => .inr (.inr hr)
  refine .bind ((ensures_serviceBase ho hs hb decl.supertype.base?).imp ?_ ?_)
  · rintro _ d₁ ⟨hn, ho₁, hb₁, b, hs₁, hbase⟩
    have hg₁ := hb₁.grows.reading
    replace hb₁ := hb₁.mono (subset_refl {Entity.service id}) hreq₁
    refine .bind ((ensures_methods ho₁ hs₁ decl.methods).imp ?_ ?_)
    · rintro _ d₂ ⟨hall, ho₂, hb₂, xs, hs₂, hxs⟩
      have hg₂ := hb₂.grows.reading
      replace hb₂ := hb₁.trans (hb₂.mono subset_rfl hreq₂)
      simp only [hm, List.nil_append] at hs₂
      rw [MethodsMatch, hm] at hxs
      refine (ensures_locators ho₂ hs₂ decl.locators).imp ?_ ?_
      · rintro _ d₃ ⟨hall', ho₃, hb₃, ls, hs₃, hls⟩
        have hg₃ := hb₃.grows.reading
        simp only [hl, List.nil_append] at hs₃
        exact ⟨by simp [ServiceDecl.bodyNamed, hn, hall, hall'], ho₃.sound, ho₃.based,
          hb₂.trans (hb₃.mono subset_rfl hreq₃), _, hs₃, rfl, hconcept,
          optionRel_imp (fun h => hg₃.module (hg₂.module (hg₁.module h))) hmodule,
          optionRel_imp (fun h => hg₃.service (hg₂.service h)) hbase,
          hxs.imp fun _ _ h => h.mono hg₃, hls⟩
      · rintro d₃ ⟨hall', hsound, hbased, hb₃, ls, done, hdone, hs₃, hls⟩
        have hg₃ := hb₃.grows.reading
        simp only [hl, List.nil_append] at hs₃
        exact ⟨by simp [ServiceDecl.bodyNamed, hall'], hsound, hbased,
          hb₂.trans (hb₃.mono subset_rfl hreq₃), _, hs₃, rfl, decl.supertype.base?, decl.methods,
          decl.methods, done, .inl rfl, List.forall₂_same.mpr fun x _ => .refl x, List.prefix_rfl,
          hdone, hconcept,
          optionRel_imp (fun h => hg₃.module (hg₂.module (hg₁.module h))) hmodule,
          optionRel_imp (fun h => hg₃.service (hg₂.service h)) hbase,
          hxs.imp fun _ _ h => h.mono hg₃, hls⟩
    · rintro d₂ ⟨hall, ho₂, hb₂, xs, parts, whole, hs₂, hxs, hparts, hwhole⟩
      have hg₂ := hb₂.grows.reading
      simp only [hm, List.nil_append] at hs₂
      rw [MethodsMatch, hm] at hxs
      exact ⟨by simp [ServiceDecl.bodyNamed, hall], ho₂.sound, ho₂.based,
        hb₁.trans (hb₂.mono subset_rfl hreq₂), _, hs₂, rfl, decl.supertype.base?, parts, whole, [],
        .inl rfl, hparts, hwhole, List.nil_prefix, hconcept,
        optionRel_imp (fun h => hg₂.module (hg₁.module h)) hmodule,
        optionRel_imp hg₂.service hbase, hxs, by rw [hl]; exact .nil⟩
  · rintro _ ⟨hn, rfl⟩
    exact ⟨by simp [ServiceDecl.bodyNamed, hn], ho.sound, ho.based, .refl _, s, hs, rfl, none, [], [],
      [], .inr rfl, .nil, List.nil_prefix, List.nil_prefix, hconcept, hmodule,
      by rw [hb]; exact .none, by rw [hm]; exact .nil, by rw [hl]; exact .nil⟩

end Declare

end ApiModel
