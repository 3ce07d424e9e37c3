import ApiModel.Proofs.Matches

/-!
# Building structs

The entity under construction is *open*: nothing is pending for a slot of it that
doesn't exist yet. So the next member finds its slot free, and what becomes
pending for it is pending for that member alone. A struct is built member by
member, and stays open throughout; where the building stops, the struct holds
the members up to there.
-/

namespace ApiModel

namespace Draft

/-- Slots of `e` are pending only if they exist. -/
structure Open (d : Draft) (e : Entity) : Prop where
  sound : d.Sound
  based : d.Based
  within : e.Within d.model
  types : ∀ {slot : TypeSlot}, slot.owner = e → d.model.typeAt? slot = none → d.QuietType slot
  services : ∀ {slot : ServiceSlot}, slot.owner = e → d.model.serviceAt? slot = none →
    d.QuietService slot

variable {d d₁ : Draft} {e : Entity}

theorem Referred.typeAt? {slot : TypeSlot} {t : Target} {ty : TypeId}
    (h : d.Referred slot t ty d₁) {slot' : TypeSlot} (hw : slot'.owner.Within d.model) :
    d₁.model.typeAt? slot' = d.model.typeAt? slot' :=
  h.builds.grows.typeAt? hw (Set.notMem_empty _)

/-- A draft stays `Open` if a reference that has been resolved is put where it belongs. -/
theorem Open.place (ho : d.Open e) {slot : TypeSlot} (hslot : slot.owner = e) {t : Target}
    {ty : TypeId} (hr : d.Referred slot t ty d₁) {m : Model} (hg : d₁.model.Grows {e} m)
    (hi : m.Indexed)
    (htype : ∀ slot', m.typeAt? slot' = if slot' = slot then some ty else d₁.model.typeAt? slot')
    (hservice : ∀ slot', m.serviceAt? slot' = d₁.model.serviceAt? slot') :
    Open { d₁ with model := m } e where
  sound := by
    refine hr.sound.extend hg hi (fun _ h => h) .inl (fun {slot' id} h => ?_) (fun _ h => h) .inl
      fun {slot' id} h => .inl ((hservice slot').symm.trans h)
    replace h := (htype slot').symm.trans h
    split at h
    · rename_i hs
      obtain rfl := hs
      obtain rfl := Option.some.inj h
      exact .inr (hr.fits.grows hr.sound.indexed hg fun _ => .rfl)
    · exact .inl h
  based :=
    { types := fun {n owner} h => by
        show (m.typeAt? _).isSome
        rw [htype]
        split
        · rfl
        · rename_i hne
          have hs := ho.based.types ((hr.others hne (by simp)).mp h)
          obtain ⟨b, hb⟩ := Option.isSome_iff_exists.mp hs
          rwa [hr.typeAt? (Model.within_of_typeAt? hb)]
      services := fun {n owner} h => by
        show (m.serviceAt? _).isSome
        rw [hservice, serviceAt?_eq_of_services hr.services]
        exact ho.based.services (hr.pendingServices ▸ h) }
  within := hg.within (hr.builds.grows.within ho.within)
  types {slot'} hown hnone n hn := by
    replace hnone := (htype slot').symm.trans hnone
    split at hnone
    · cases hnone
    · rename_i hne
      have hw : slot'.owner.Within d.model := hown ▸ ho.within
      refine ho.types hown ?_ n ((hr.others hne (TypeSlot.within_list hw)).mp hn)
      rwa [hr.typeAt? hw] at hnone
  services {slot'} hown hnone n hn := by
    refine ho.services hown ?_ n (hr.pendingServices ▸ hn)
    rw [← serviceAt?_eq_of_services hr.services, ← hservice]
    exact hnone

end Draft

namespace Declare

/-! ## Loops over declarations -/

section Loop

variable {α β : Type}

/-- Each round of a loop adds a part that fits its declaration, or stops. `Holds d xs` says that
`d` has the parts `xs`, and `Stops d xs a` that the loop has come to `a` with these parts. -/
structure Rounds (f : α → Nat → Declare PUnit) (own : Set Entity) (asked : α → Set Request)
    (named : α → Bool) (Fits : Reading → Nat → β → α → Prop) (Holds : Draft → List β → Prop)
    (Stops : Draft → List β → α → Prop) : Prop where
  mono : ∀ {r r' i x a}, r.Le r' → Fits r i x a → Fits r' i x a
  round : ∀ {d xs}, Holds d xs → ∀ a, Ensures (f a xs.length) d
    (fun _ d' => named a = true ∧ d.Builds own (asked a) d' ∧
      ∃ x, Holds d' (xs ++ [x]) ∧ Fits d'.model.reading xs.length x a)
    (fun d' => named a = false ∧ d.Builds own (asked a) d' ∧ Stops d' xs a)

variable {f : α → Nat → Declare PUnit} {own : Set Entity} {asked : α → Set Request}
  {named : α → Bool} {Fits : Reading → Nat → β → α → Prop} {Holds : Draft → List β → Prop}
  {Stops : Draft → List β → α → Prop}

theorem Rounds.ensures (h : Rounds f own asked named Fits Holds Stops) {d : Draft} {xs : List β}
    (hd : Holds d xs) (decls : List α) :
    Ensures ((decls.zipIdx xs.length).forM fun x => f x.1 x.2) d
      (fun _ d' => decls.all named = true ∧ d.Builds own {r | ∃ a ∈ decls, r ∈ asked a} d' ∧
        ∃ ys, Holds d' (xs ++ ys) ∧
          List.Forall₂ (fun y a => Fits d'.model.reading y.2 y.1 a) (ys.zipIdx xs.length) decls)
      (fun d' => decls.all named = false ∧ d.Builds own {r | ∃ a ∈ decls, r ∈ asked a} d' ∧
        ∃ ys done a, done ++ [a] <+: decls ∧ Stops d' (xs ++ ys) a ∧
          List.Forall₂ (fun y a => Fits d'.model.reading y.2 y.1 a) (ys.zipIdx xs.length)
            done) := by
  induction decls generalizing d xs with
  | nil => exact .pure ⟨rfl, .refl d, [], by rwa [List.append_nil], .nil⟩
  | cons a decls ih =>
    have hhead : asked a ⊆ {r | ∃ a' ∈ a :: decls, r ∈ asked a'} :=
      fun r hr => ⟨a, List.mem_cons_self, hr⟩
    have htail : {r | ∃ a ∈ decls, r ∈ asked a} ⊆ {r | ∃ a' ∈ a :: decls, r ∈ asked a'} := by
      rintro r ⟨a', ha, hr⟩
      exact ⟨a', List.mem_cons_of_mem _ ha, hr⟩
    rw [List.zipIdx_cons, forM_cons]
    refine .bind ((h.round hd a).imp ?_ ?_)
    · rintro _ d₁ ⟨hn, hb₁, x, hd₁, hx⟩
      have hlen : xs.length + 1 = (xs ++ [x]).length := by rw [List.length_append]; rfl
      rw [hlen]
      refine (ih hd₁).imp ?_ ?_
      · rintro _ d₂ ⟨hall, hb₂, ys, hd₂, hys⟩
        rw [← hlen] at hys
        exact ⟨by simp [hn, hall], (hb₁.mono subset_rfl hhead).trans (hb₂.mono subset_rfl htail),
          x :: ys, by rwa [List.append_cons], .cons (h.mono hb₂.grows.reading hx) hys⟩
      · rintro d₂ ⟨hall, hb₂, ys, done, b, hdone, hd₂, hys⟩
        rw [← hlen] at hys
        exact ⟨by simp [hall], (hb₁.mono subset_rfl hhead).trans (hb₂.mono subset_rfl htail),
          x :: ys, a :: done, b, (List.prefix_cons_inj a).mpr hdone, by rwa [List.append_cons],
          .cons (h.mono hb₂.grows.reading hx) hys⟩
    · rintro d₁ ⟨hn, hb₁, hd₁⟩
      exact ⟨by simp [hn], hb₁.mono subset_rfl hhead, [], [], a, List.prefix_append [a] decls,
        by rwa [List.append_nil], .nil⟩

theorem forM_zipIdx (g : α → Declare PUnit) (decls : List α) (i : Nat) :
    ((decls.zipIdx i).forM fun x => g x.1) = decls.forM g := by
  induction decls generalizing i with
  | nil => rfl
  | cons a decls ih => rw [List.zipIdx_cons, forM_cons, forM_cons, ih]

/-- A loop keeps what each round passes on to the next, `I`. -/
theorem Ensures.forM_zipIdx {I : Nat → Draft → Prop} {stopped : Draft → Prop}
    (hf : ∀ a i d, I i d → Ensures (f a i) d (fun _ => I (i + 1)) stopped) {d : Draft} {i : Nat}
    (hd : I i d) (as : List α) :
    Ensures ((as.zipIdx i).forM fun a => f a.1 a.2) d (fun _ => I (i + as.length)) stopped := by
  induction as generalizing d i with
  | nil => exact .pure hd
  | cons a as ih =>
    rw [List.zipIdx_cons, forM_cons]
    refine .bind ((hf a i d hd).imp (fun _ d₁ hd₁ => ?_) fun _ h => h)
    rw [List.length_cons, Nat.add_comm as.length, ← Nat.add_assoc]
    exact ih hd₁

theorem Ensures.forM {g : α → Declare PUnit} {I stopped : Draft → Prop}
    (hg : ∀ a d, I d → Ensures (g a) d (fun _ => I) stopped) {d : Draft} (hd : I d)
    (as : List α) : Ensures (as.forM g) d (fun _ => I) stopped := by
  rw [← Declare.forM_zipIdx g as 0]
  exact .forM_zipIdx (I := fun _ => I) (fun a _ => hg a) hd as

end Loop

/-! ## Members -/

variable {d : Draft} {id : TypeId} {s : StructType}

theorem name_addMember (x : Member) (s : StructType) : (s.addMember x).name = s.name := by
  unfold StructType.addMember
  split <;> rfl

/-- By `member`, a member is added with its type resolved, or nothing changes. -/
theorem ensures_member (ho : d.Open (.type id)) (hs : d.model.type? id = some (.struct s))
    (decl : MemberDecl) :
    Ensures (member id decl) d
      (fun _ d' => decl.isNamed = true ∧ d'.Open (.type id) ∧
        d.Builds {.type id} {decl.request} d' ∧
        ∃ x, d'.model.type? id = some (.struct (s.addMember x)) ∧
          x.Matches d'.model.reading id decl)
      (fun d' => decl.isNamed = false ∧ d' = d) := by
  refine .bind (ensures_checked (fun hn => ?_) fun hn => ⟨by simp [MemberDecl.isNamed, hn], rfl⟩)
  refine .bind_exec (exec_get d) ?_
  have hown : (memberSlot id decl.kind d.model).owner = .type id := Model.owner_memberSlot _
  have hw : (memberSlot id decl.kind d.model).owner.Within d.model := hown ▸ ho.within
  have hnone := Model.typeAt?_memberSlot hs decl.kind
  obtain ⟨ty, d₁, hx, hr⟩ := exec_typeRef ho.sound hw hnone (ho.types hown hnone) decl.type
  refine .bind_exec hx (.of_exec (exec_updateModel _ _) ?_)
  let x : Member :=
    { concept := decl.info.concept (Name.ofCase decl.name), kind := decl.kind, type := ty,
      owner := id }
  have hs₁ := hr.builds.grows.type (Set.notMem_empty _) hs
  have hheader := Model.sameHeader_mapStruct (name_addMember x)
  have hbuilds : d₁.Builds {.type id} {decl.request}
      { d₁ with model := d₁.model.modifyStruct id (·.addMember x) } := .of_modifyType hheader
  have hslot : memberSlot id decl.kind d₁.model = memberSlot id decl.kind d.model := by
    rw [Model.memberSlot_eq hs, Model.memberSlot_eq hs₁]
  refine ⟨by simp [MemberDecl.isNamed, hn], ?_,
    (hr.builds.mono (Set.empty_subset _) subset_rfl).trans hbuilds, x,
    Model.type?_modifyStruct_self hs₁ _, ⟨rfl, rfl, hbuilds.grows.refers hr.refers, rfl⟩⟩
  refine ho.place hown hr hbuilds.grows (hr.sound.indexed.modifyType hheader) (fun slot' => ?_)
    fun slot' => Draft.serviceAt?_eq_of_services rfl slot'
  rw [← hslot]
  exact Model.typeAt?_addMember hs₁ x slot'

/-- The struct `id` is under construction, with the members `xs` besides those of `s`. -/
def HoldsMembers (id : TypeId) (s : StructType) (d : Draft) (xs : List Member) : Prop :=
  d.Open (.type id) ∧ d.model.type? id = some (.struct (xs.foldl .addMember s))

theorem rounds_member (id : TypeId) (s : StructType) :
    Rounds (fun decl _ => member id decl) {.type id} (fun decl => {decl.request})
      MemberDecl.isNamed (fun r _ => Member.Matches r id) (HoldsMembers id s)
      (fun d xs _ => HoldsMembers id s d xs) where
  mono h hx := hx.mono h
  round := by
    rintro d xs ⟨ho, hs⟩ decl
    refine (ensures_member ho hs decl).imp ?_ ?_
    · rintro _ d₁ ⟨hn, ho₁, hb₁, x, hs₁, hx⟩
      exact ⟨hn, hb₁, x, ⟨ho₁, by rwa [List.foldl_append]⟩, hx⟩
    · rintro _ ⟨hn, rfl⟩
      exact ⟨hn, .refl _, ho, hs⟩

/-- By `member`, members are added one after the other. -/
theorem ensures_members (ho : d.Open (.type id)) (hs : d.model.type? id = some (.struct s))
    (decls : List MemberDecl) :
    Ensures (decls.forM (member id)) d
      (fun _ d' => decls.all (·.isNamed) = true ∧ d'.Open (.type id) ∧
        d.Builds {.type id} {r | ∃ x ∈ decls, r = x.request} d' ∧
        ∃ xs : List Member, d'.model.type? id = some (.struct (xs.foldl .addMember s)) ∧
          List.Forall₂ (Member.Matches d'.model.reading id) xs decls)
      (fun d' => decls.all (·.isNamed) = false ∧ d'.Open (.type id) ∧
        d.Builds {.type id} {r | ∃ x ∈ decls, r = x.request} d' ∧
        ∃ (xs : List Member) (done : List MemberDecl), done <+: decls ∧
          d'.model.type? id = some (.struct (xs.foldl .addMember s)) ∧
          List.Forall₂ (Member.Matches d'.model.reading id) xs done) := by
  rw [← forM_zipIdx _ _ 0]
  have hd : HoldsMembers id s d [] := ⟨ho, hs⟩
  refine ((rounds_member id s).ensures hd decls).imp ?_ ?_
  · rintro _ d₁ ⟨hall, hb₁, xs, ⟨ho₁, hs₁⟩, hxs⟩
    exact ⟨hall, ho₁, hb₁, xs, hs₁, forall₂_of_zipIdx hxs⟩
  · rintro d₁ ⟨hall, hb₁, xs, done, a, hdone, ⟨ho₁, hs₁⟩, hxs⟩
    exact ⟨hall, ho₁, hb₁, xs, done, (List.prefix_append done [a]).trans hdone, hs₁,
      forall₂_of_zipIdx hxs⟩

/-- By `structBase`, the base is set first, if there is one. -/
theorem ensures_structBase (ho : d.Open (.type id)) (hs : d.model.type? id = some (.struct s))
    (hbase : s.base = none) (base : Option String) :
    Ensures (structBase id base) d
      (fun _ d' => base.all (fun text => !(Name.ofCase text).isEmpty) = true ∧
        d'.Open (.type id) ∧ d.Builds {.type id} (structRequests base []) d' ∧
        ∃ b, d'.model.type? id = some (.struct { s with base := b }) ∧
          Option.Rel (fun b text => d'.model.Refers ⟨Name.ofCase text, false⟩ b) b base)
      (fun d' => base.all (fun text => !(Name.ofCase text).isEmpty) = false ∧ d' = d) := by
  cases base with
  | none => exact .pure ⟨rfl, ho, .refl d, none, by rw [← hbase]; exact hs, .none⟩
  | some text =>
    refine .bind (ensures_checked (fun hn => ?_) fun hn => ⟨by simp [hn], rfl⟩)
    have hnone : d.model.typeAt? (.base id) = none := by
      rw [Model.typeAt?, Model.struct?_eq_some.mpr hs]
      exact hbase
    have hw : (TypeSlot.base id).owner.Within d.model := ho.within
    have hr := Draft.referred_resolveType ho.sound hw hnone (ho.types rfl hnone)
      (Name.ofCase text)
    refine .bind_exec (exec_lift _ d) (.of_exec (exec_updateModel _ _) ?_)
    generalize hx : Draft.resolveType (Name.ofCase text) (.base id) d = x at hr
    obtain ⟨b, d₁⟩ := x
    have hs₁ := hr.builds.grows.type (Set.notMem_empty _) hs
    have hheader := Model.sameHeader_mapStruct (f := ({ · with base := some b })) fun _ => rfl
    have hbuilds : d₁.Builds {.type id} {.type ⟨Name.ofCase text, false⟩}
        { d₁ with model := d₁.model.modifyStruct id ({ · with base := some b }) } :=
      .of_modifyType hheader
    refine ⟨by simp [hn], ?_, ((hr.builds.mono (Set.empty_subset _) subset_rfl).trans
      hbuilds).mono subset_rfl ?_, some b, Model.type?_modifyStruct_self hs₁ _,
      .some (hbuilds.grows.refers hr.refers)⟩
    · exact ho.place rfl hr hbuilds.grows (hr.sound.indexed.modifyType hheader)
        (Model.typeAt?_setBase hs₁ b) fun slot' => Draft.serviceAt?_eq_of_services rfl slot'
    · rintro r rfl
      exact .inl ⟨text, rfl, rfl⟩

/-- By `addMember`, members go to the `attributes` or to the `links`, in order. -/
theorem foldl_addMember (xs : List Member) (s : StructType) :
    xs.foldl .addMember s = { s with
      attributes := s.attributes ++ xs.filter (·.kind = .attribute)
      links := s.links ++ xs.filter (·.kind = .link) } := by
  induction xs generalizing s with
  | nil => simp
  | cons x xs ih =>
    rw [List.foldl_cons, ih]
    cases hk : x.kind <;> simp [StructType.addMember, hk]

theorem matches_foldl_addMember {r : Reading} {decl : TypeDecl} {base : Option String}
    {members : List MemberDecl} {xs : List Member}
    (hconcept : s.concept = decl.info.concept (Name.ofCase decl.name))
    (hmodule : Option.Rel r.module s.module (spaceName? decl.space))
    (hbase : Option.Rel (fun b text => r.type b ⟨Name.ofCase text, false⟩) s.base base)
    (ha : s.attributes = []) (hl : s.links = [])
    (hxs : List.Forall₂ (Member.Matches r id) xs members) :
    (xs.foldl .addMember s).Matches r id decl base members := by
  rw [foldl_addMember]
  refine ⟨hconcept, hmodule, hbase, ?_, ?_⟩
  · rw [ha, List.nil_append]
    exact List.rel_filter (fun _ _ h => by simp [h.kind]) hxs
  · rw [hl, List.nil_append]
    exact List.rel_filter (fun _ _ h => by simp [h.kind]) hxs

/-- What follows the registration of the struct `id`. -/
theorem ensures_structBody (ho : d.Open (.type id)) (hs : d.model.type? id = some (.struct s))
    {decl : TypeDecl} (hconcept : s.concept = decl.info.concept (Name.ofCase decl.name))
    (hmodule : Option.Rel d.model.reading.module s.module (spaceName? decl.space))
    (hb : s.base = none) (ha : s.attributes = []) (hl : s.links = []) (supertype : Supertype)
    (members : List MemberDecl) :
    Ensures (do structBase id supertype.base?; members.forM (member id)) d
      (fun _ d' => (TypeBody.struct supertype members).isNamed = true ∧ d'.Open (.type id) ∧
        d.Builds {.type id} (structRequests supertype.base? members) d' ∧
        ∃ s', d'.model.type? id = some (.struct s') ∧ s'.module = s.module ∧
          s'.Matches d'.model.reading id decl supertype.base? members)
      (fun d' => (TypeBody.struct supertype members).isNamed = false ∧ d'.Open (.type id) ∧
        d.Builds {.type id} (structRequests supertype.base? members) d' ∧
        ∃ s', d'.model.type? id = some (.struct s') ∧ s'.module = s.module ∧
          s'.MatchesPart d'.model.reading id decl supertype.base? members) := by
  have hreq₁ : structRequests supertype.base? [] ⊆ structRequests supertype.base? members :=
    fun r hr => hr.imp_right fun ⟨_, hx, _⟩ => by simp at hx
  have hreq₂ : {r | ∃ x ∈ members, r = MemberDecl.request x} ⊆
      structRequests supertype.base? members := fun r hr => .inr hr
  refine .bind ((ensures_structBase ho hs hb supertype.base?).imp ?_ ?_)
  · rintro _ d₁ ⟨hn, ho₁, hb₁, b, hs₁, hbase⟩
    have hg₁ := hb₁.grows.reading
    refine (ensures_members ho₁ hs₁ members).imp ?_ ?_
    · rintro _ d₂ ⟨hall, ho₂, hb₂, xs, hs₂, hxs⟩
      have hg₂ := hb₂.grows.reading
      refine ⟨by simp [TypeBody.isNamed, hn, hall], ho₂,
        (hb₁.mono subset_rfl hreq₁).trans (hb₂.mono subset_rfl hreq₂), _, hs₂,
        by rw [foldl_addMember], ?_⟩
      exact matches_foldl_addMember hconcept
        (optionRel_imp (fun h => hg₂.module (hg₁.module h)) hmodule)
        (optionRel_imp hg₂.type hbase) ha hl hxs
    · rintro d₂ ⟨hall, ho₂, hb₂, xs, done, hdone, hs₂, hxs⟩
      have hg₂ := hb₂.grows.reading
      refine ⟨by simp [TypeBody.isNamed, hn, hall], ho₂,
        (hb₁.mono subset_rfl hreq₁).trans (hb₂.mono subset_rfl hreq₂), _, hs₂,
        by rw [foldl_addMember], supertype.base?, done, .inl rfl, hdone, ?_⟩
      exact matches_foldl_addMember hconcept
        (optionRel_imp (fun h => hg₂.module (hg₁.module h)) hmodule)
        (optionRel_imp hg₂.type hbase) ha hl hxs
  · rintro _ ⟨hn, rfl⟩
    refine ⟨by simp [TypeBody.isNamed, hn], ho, .refl _, s, hs, rfl, none, [], .inr rfl,
      List.nil_prefix, hconcept, hmodule, by rw [hb]; exact .none, ?_, ?_⟩
    · rw [ha]; exact .nil
    · rw [hl]; exact .nil

end Declare

end ApiModel
