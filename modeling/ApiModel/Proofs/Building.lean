import ApiModel.Proofs.Sound

/-!
# Building an entity

Once an entity has been registered, the rest of its declaration builds it: it
resolves references and adds what holds them. `Builds own asked` says what that
does to a draft. Apart from the entities in `own` nothing changes that was there,
the registry stays as it is, and new lists and new pending references come from
what has been `asked` for.

A single type reference is the heart of it. `Referred` says what resolving one
leaves behind, whichever way it goes: the name may be registered or not, and the
reference may be to a list that exists, to one that doesn't, or to no list.
-/

namespace ApiModel

/-- What registering changes, and building doesn't. -/
structure Registry where
  typeIndex : NameMap TypeId
  serviceIndex : NameMap ServiceId
  moduleIndex : NameMap ModuleId
  modules : Array Module
  documents : List Document
  root : Option ServiceId

def Model.registry (m : Model) : Registry :=
  ⟨m.typeIndex, m.serviceIndex, m.moduleIndex, m.modules, m.documents, m.root⟩

namespace Draft

structure Builds (own : Set Entity) (asked : Set Request) (d d' : Draft) : Prop where
  grows : d.model.Grows own d'.model
  registry : d'.model.registry = d.model.registry
  diagnostics : d'.diagnostics = d.diagnostics
  lists : ∀ {n id}, d'.model.findList? n = some id →
    d.model.findList? n = some id ∨ .type ⟨n, true⟩ ∈ asked
  pendingTypes : d.pendingTypes <+: d'.pendingTypes
  newTypes : ∀ {n slot}, (n, slot) ∈ d'.pendingTypes →
    (n, slot) ∈ d.pendingTypes ∨ ∃ t, .type t ∈ asked ∧ t.name = n
  pendingServices : d.pendingServices <+: d'.pendingServices
  newServices : ∀ {n slot}, (n, slot) ∈ d'.pendingServices →
    (n, slot) ∈ d.pendingServices ∨ .service n ∈ asked
  constraints : d.constraints <+: d'.constraints

namespace Builds

variable {own own' : Set Entity} {asked asked' : Set Request} {d d' d'' : Draft}

theorem refl (d : Draft) : Builds own asked d d :=
  ⟨.refl _, rfl, rfl, .inl, List.prefix_rfl, .inl, List.prefix_rfl, .inl, List.prefix_rfl⟩

theorem trans (h : Builds own asked d d') (h' : Builds own asked d' d'') :
    Builds own asked d d'' where
  grows := h.grows.trans h'.grows
  registry := h'.registry.trans h.registry
  diagnostics := h'.diagnostics.trans h.diagnostics
  lists hl := (h'.lists hl).elim h.lists .inr
  pendingTypes := h.pendingTypes.trans h'.pendingTypes
  newTypes hp := (h'.newTypes hp).elim h.newTypes .inr
  pendingServices := h.pendingServices.trans h'.pendingServices
  newServices hp := (h'.newServices hp).elim h.newServices .inr
  constraints := h.constraints.trans h'.constraints

theorem mono (h : Builds own asked d d') (ho : own ⊆ own') (ha : asked ⊆ asked') :
    Builds own' asked' d d' :=
  { h with
    grows := h.grows.mono ho
    lists := fun hl => (h.lists hl).imp_right (ha ·)
    newTypes := fun hp => (h.newTypes hp).imp_right fun ⟨t, ht, hn⟩ => ⟨t, ha ht, hn⟩
    newServices := fun hp => (h.newServices hp).imp_right (ha ·) }

theorem findType? (h : Builds own asked d d') (n : Name) :
    d'.model.findType? n = d.model.findType? n :=
  congrArg (fun r : Registry => r.typeIndex[n]?) h.registry

theorem findService? (h : Builds own asked d d') (n : Name) :
    d'.model.findService? n = d.model.findService? n :=
  congrArg (fun r : Registry => r.serviceIndex[n]?) h.registry

/-- The type `id` changes by `f`, and nothing else. -/
theorem of_modifyType {id : TypeId} {f : DataType → DataType}
    (hf : ∀ t, Model.SameHeader t (f t)) :
    Builds {.type id} asked d { d with model := d.model.modifyType id f } :=
  { (refl d : Builds {.type id} asked d d) with grows := Model.grows_modifyType hf }

theorem of_modifyService {id : ServiceId} {f : DefinedService → DefinedService} :
    Builds {.service id} asked d { d with model := d.model.modifyService id f } :=
  { (refl d : Builds {.service id} asked d d) with grows := Model.grows_modifyService }

end Builds

/-! ## Soundness of drafts that grow -/

section Extend

variable {d d' : Draft}

theorem serviceAt?_eq_of_services {m m' : Model} (h : m'.services = m.services)
    (slot : ServiceSlot) : m'.serviceAt? slot = m.serviceAt? slot := by
  cases slot <;> simp only [Model.serviceAt?, Model.definedService?, Model.service?, h]

/-- A draft stays `Sound` if what is new is pending for slots that held nothing, and new slots hold
what fits. -/
theorem Sound.extend (hs : d.Sound) {own : Set Entity} (hg : d.model.Grows own d'.model)
    (hi : d'.model.Indexed)
    (hold : d.pendingTypes ⊆ d'.pendingTypes)
    (hnew : ∀ {n slot}, (n, slot) ∈ d'.pendingTypes → (n, slot) ∈ d.pendingTypes ∨
      slot.owner.Within d'.model ∧ d.model.typeAt? slot = none)
    (hfit : ∀ {slot id}, d'.model.typeAt? slot = some id →
      d.model.typeAt? slot = some id ∨ d'.FitsType slot id)
    (holdS : d.pendingServices ⊆ d'.pendingServices)
    (hnewS : ∀ {n slot}, (n, slot) ∈ d'.pendingServices → (n, slot) ∈ d.pendingServices ∨
      slot.owner.Within d'.model ∧ d.model.serviceAt? slot = none)
    (hfitS : ∀ {slot id}, d'.model.serviceAt? slot = some id →
      d.model.serviceAt? slot = some id ∨ d'.FitsService slot id) : d'.Sound where
  indexed := hi
  types {slot id} h := by
    rcases hfit h with h | h
    · refine (hs.types h).grows hs.indexed hg fun n => ⟨fun hp => ?_, fun hp => hold hp⟩
      rcases hnew hp with hp | ⟨-, hn⟩
      · exact hp
      · rw [hn] at h; cases h
    · exact h
  services {slot id} h := by
    rcases hfitS h with h | h
    · refine (hs.services h).grows hs.indexed hg fun n => ⟨fun hp => ?_, fun hp => holdS hp⟩
      rcases hnewS hp with hp | ⟨-, hn⟩
      · exact hp
      · rw [hn] at h; cases h
    · exact h
  typeOwners h := (hnew h).elim (fun h => hg.within (hs.typeOwners h)) And.left
  serviceOwners h := (hnewS h).elim (fun h => hg.within (hs.serviceOwners h)) And.left

end Extend

/-! ## Resolving a type reference -/

/-- `id` is what the reference `t` in `slot` has been resolved to. -/
structure Referred (d : Draft) (slot : TypeSlot) (t : Target) (id : TypeId) (d' : Draft) :
    Prop where
  builds : Builds ∅ {.type t} d d'
  sound : d'.Sound
  refers : d'.model.Refers t id
  pending : ∀ n, (n, slot) ∈ d'.pendingTypes ↔ d'.model.type? id = some (.undefined n)
  others : ∀ {n slot'}, slot' ≠ slot →
    (∀ list, slot' = .listElement list → (Entity.type list).Within d.model) →
    ((n, slot') ∈ d'.pendingTypes ↔ (n, slot') ∈ d.pendingTypes)
  services : d'.model.services = d.model.services
  pendingServices : d'.pendingServices = d.pendingServices

theorem Referred.fits {d d' : Draft} {slot : TypeSlot} {t : Target} {id : TypeId}
    (h : Referred d slot t id d') : d'.FitsType slot id :=
  ⟨⟨t, h.refers⟩, h.pending⟩

section ResolveType

variable {d : Draft} {slot : TypeSlot} {n : Name}

theorem registry_undefinedType (m : Model) (n : Name) :
    (m.undefinedType n).2.registry = m.registry := by
  rcases h : m.undefinedTypes[n]? with _ | id
  · rw [Model.undefinedType_new h]; rfl
  · rw [Model.undefinedType_known h]

theorem findList?_undefinedType (m : Model) (n x : Name) :
    (m.undefinedType n).2.findList? x = m.findList? x := by
  rcases h : m.undefinedTypes[n]? with _ | id
  · rw [Model.undefinedType_new h]; rfl
  · rw [Model.undefinedType_known h]

theorem services_undefinedType (m : Model) (n : Name) :
    (m.undefinedType n).2.services = m.services := by
  rcases h : m.undefinedTypes[n]? with _ | id
  · rw [Model.undefinedType_new h]
  · rw [Model.undefinedType_known h]

theorem resolveType_known {id : TypeId} (h : d.model.findType? n = some id) :
    resolveType n slot d = (id, d) := by
  rw [resolveType, h]

theorem resolveType_new (h : d.model.findType? n = none) (slot : TypeSlot) :
    resolveType n slot d = ((d.model.undefinedType n).1, { d with
      model := (d.model.undefinedType n).2
      pendingTypes := d.pendingTypes ++ [(n, slot)] }) := by
  rw [resolveType, h]

/-- By `resolveType`, the name `n` is resolved for a slot that is still to come. -/
theorem referred_resolveType (hs : d.Sound) (hw : slot.owner.Within d.model)
    (hnone : d.model.typeAt? slot = none) (hq : d.QuietType slot) (n : Name) :
    Referred d slot ⟨n, false⟩ (resolveType n slot d).1 (resolveType n slot d).2 := by
  rcases hn : d.model.findType? n with _ | id
  · rw [resolveType_new hn]
    have hg := Model.grows_undefinedType d.model n
    have hu := Model.type?_undefinedType hs.indexed n
    have hmem : ∀ {x slot'}, (x, slot') ∈ d.pendingTypes ++ [(n, slot)] ↔
        (x, slot') ∈ d.pendingTypes ∨ (x = n ∧ slot' = slot) := by simp
    refine
      { builds :=
          { (Builds.refl d : Builds ∅ {.type ⟨n, false⟩} d d) with
            grows := hg
            registry := registry_undefinedType _ n
            lists := fun h => .inl (by rwa [findList?_undefinedType] at h)
            pendingTypes := List.prefix_append _ _
            newTypes := fun h => (hmem.mp h).imp_right fun h => ⟨⟨n, false⟩, rfl, h.1.symm⟩ }
        sound := hs.extend hg (hs.indexed.undefined n)
          (fun _ h => List.mem_append_left _ h)
          (fun h => (hmem.mp h).imp_right fun h => ?_)
          (fun h => .inl (by rwa [Model.typeAt?_undefinedType] at h))
          (fun _ h => h) .inl
          (fun h => .inl (by rwa [serviceAt?_eq_of_services (services_undefinedType _ n)] at h))
        refers := .inr hu
        pending := fun x => ?_
        others := fun hne _ => hmem.trans (or_iff_left fun h => hne h.2)
        services := services_undefinedType _ n
        pendingServices := rfl }
    · obtain ⟨-, rfl⟩ := h
      exact ⟨hg.within hw, hnone⟩
    · rw [hmem, hu, or_iff_right (hq x)]
      simp [eq_comm]
  · rw [resolveType_known hn]
    refine
      { builds := .refl d
        sound := hs
        refers := .inl hn
        pending := fun x => ⟨fun h => absurd h (hq x), fun h => ?_⟩
        others := fun _ _ => .rfl
        services := rfl
        pendingServices := rfl }
    exact absurd h (hs.indexed.type?_ne_undefined hn x)

end ResolveType

/-! ## Lists -/

section InternList

variable {d : Draft} {slot : TypeSlot} {n : Name}

theorem internList_known {id : TypeId} {element : TypeId → StateM Draft TypeId}
    (h : d.model.findList? n = some id) : internList n element d = (id, d) := by
  rw [internList, h]

theorem allocList_eq (m : Model) (n : Name) :
    m.allocList n = (⟨(m.undefinedType n).2.types.size⟩,
      (m.undefinedType n).2.withList n (m.undefinedType n).1) := rfl

theorem modifyType_withList (m : Model) (n : Name) (e id : TypeId) :
    (m.withList n e).modifyType ⟨m.types.size⟩ (·.setElement id) = m.withList n id := by
  simp only [Model.modifyType, Model.withList, modify_push, DataType.setElement]

theorem findType?_withList_undefinedType (m : Model) (n x : Name) (e : TypeId) :
    ((m.undefinedType n).2.withList n e).findType? x = m.findType? x :=
  congrArg (fun r : Registry => r.typeIndex[x]?) (registry_undefinedType m n)

/-- By `internList`, a new list of a registered type. -/
theorem internList_registered {id : TypeId} (h : d.model.findList? n = none)
    (hn : d.model.findType? n = some id) :
    internList n (fun list => resolveType n (.listElement list)) d =
      (⟨(d.model.undefinedType n).2.types.size⟩,
        { d with model := (d.model.undefinedType n).2.withList n id }) := by
  have hr : resolveType n (.listElement ⟨(d.model.undefinedType n).2.types.size⟩)
      { d with model := (d.model.undefinedType n).2.withList n (d.model.undefinedType n).1 } =
      (id, { d with
        model := (d.model.undefinedType n).2.withList n (d.model.undefinedType n).1 }) :=
    resolveType_known ((findType?_withList_undefinedType ..).trans hn)
  simp only [internList, h, allocList_eq, hr, modifyType_withList]

/-- By `internList`, a new list of a type that isn't registered: the undefined type that its making
has found or made is found again for its element. -/
theorem internList_unregistered (hi : d.model.Indexed) (h : d.model.findList? n = none)
    (hn : d.model.findType? n = none) :
    internList n (fun list => resolveType n (.listElement list)) d =
      (⟨(d.model.undefinedType n).2.types.size⟩, { d with
        model := (d.model.undefinedType n).2.withList n (d.model.undefinedType n).1
        pendingTypes := d.pendingTypes ++
          [(n, .listElement ⟨(d.model.undefinedType n).2.types.size⟩)] }) := by
  let m := (d.model.undefinedType n).2.withList n (d.model.undefinedType n).1
  have hu : m.undefinedTypes[n]? = some (d.model.undefinedType n).1 :=
    (hi.undefined n).undefinedType.mpr (Model.type?_undefinedType hi n)
  have hr := resolveType_new (d := { d with model := m })
    ((findType?_withList_undefinedType d.model n n _).trans hn)
    (.listElement ⟨(d.model.undefinedType n).2.types.size⟩)
  simp only [Model.undefinedType_known hu] at hr
  simp only [internList, h, allocList_eq]
  rw [hr]
  simp only [m, modifyType_withList]

section NewList

/-! A new list, with its element pending under the name that the element stands for, if any. -/

variable {e : TypeId} {pending : List (Name × TypeSlot)} (hs : d.Sound)
  (hl : d.model.findList? n = none) (he : (d.model.undefinedType n).2.TypeNamed n e)
  (hpre : d.pendingTypes <+: pending)
  (hmem : ∀ {x slot'}, (x, slot') ∈ pending ↔ (x, slot') ∈ d.pendingTypes ∨
    slot' = .listElement ⟨(d.model.undefinedType n).2.types.size⟩ ∧
      (d.model.undefinedType n).2.type? e = some (.undefined x))

theorem findList?_undefinedType_none (hl : d.model.findList? n = none) :
    (d.model.undefinedType n).2.findList? n = none :=
  (findList?_undefinedType _ n n).trans hl

include hs hl he hpre hmem

theorem builds_withList : Builds ∅ {.type ⟨n, true⟩} d
    { d with model := (d.model.undefinedType n).2.withList n e, pendingTypes := pending } := by
  have hl' := findList?_undefinedType_none hl
  obtain ⟨t, ht, hname, -⟩ := (hs.indexed.undefined n).name_of_typeNamed he
  exact
    { (Builds.refl d : Builds ∅ {.type ⟨n, true⟩} d d) with
      grows := (Model.grows_undefinedType d.model n).trans (Model.grows_withList hl')
      registry := registry_undefinedType _ n
      lists := fun {x id} h => by
        rcases (Model.findList?_withList hl').mp h with ⟨rfl, -⟩ | h
        · exact .inr rfl
        · rw [findList?_undefinedType] at h
          exact .inl h
      pendingTypes := hpre
      newTypes := fun {x slot'} h => by
        rcases hmem.mp h with h | ⟨-, h⟩
        · exact .inl h
        · obtain rfl := Option.some.inj (ht.symm.trans h)
          exact .inr ⟨⟨n, true⟩, rfl, hname.symm⟩ }

omit hpre in
theorem fitsType_withList : Draft.FitsType
    { d with model := (d.model.undefinedType n).2.withList n e, pendingTypes := pending }
    (.listElement ⟨(d.model.undefinedType n).2.types.size⟩) e := by
  have hg : (d.model.undefinedType n).2.Grows ∅ ((d.model.undefinedType n).2.withList n e) :=
    Model.grows_withList (findList?_undefinedType_none hl)
  obtain ⟨t, ht, -⟩ := (hs.indexed.undefined n).name_of_typeNamed he
  have hquiet : d.QuietType (.listElement ⟨(d.model.undefinedType n).2.types.size⟩) :=
    hs.quietType (Nat.not_lt.mpr (Model.grows_undefinedType d.model n).typesSize)
  refine ⟨⟨⟨n, false⟩, hg.typeNamed he⟩, fun x => ?_⟩
  exact (hmem.trans (or_iff_right (hquiet x))).trans ((and_iff_right rfl).trans
    (hg.undefinedType (Model.type?_lt ht)).symm)

theorem sound_withList : Sound
    { d with model := (d.model.undefinedType n).2.withList n e, pendingTypes := pending } := by
  have hi := (hs.indexed.undefined n).withList (findList?_undefinedType_none hl) he
  have hnew : d.model.type? ⟨(d.model.undefinedType n).2.types.size⟩ = none :=
    Model.type?_eq_none.mpr (Model.grows_undefinedType d.model n).typesSize
  refine hs.extend (builds_withList hs hl he hpre hmem).grows hi hpre.subset
    (fun {x slot'} h => ?_) (fun {slot' id} h => ?_) (fun _ h => h) .inl
    fun {slot' id} h => .inl ?_
  · rcases hmem.mp h with h | ⟨rfl, -⟩
    · exact .inl h
    · refine .inr ⟨Model.type?_lt (Model.type?_withList.mpr (.inl ⟨rfl, rfl⟩)), ?_⟩
      rw [Model.typeAt?, hnew]
      rfl
  · replace h := (Model.typeAt?_withList slot').symm.trans h
    split at h
    · rename_i hslot
      obtain rfl := hslot
      obtain rfl := Option.some.inj h
      exact .inr (fitsType_withList hs hl he hmem)
    · rw [Model.typeAt?_undefinedType] at h
      exact .inl h
  · exact (serviceAt?_eq_of_services (services_undefinedType _ n) slot').symm.trans h

theorem referred_withList (hw : slot.owner.Within d.model) (hq : d.QuietType slot) :
    Referred d slot ⟨n, true⟩ ⟨(d.model.undefinedType n).2.types.size⟩
      { d with
        model := (d.model.undefinedType n).2.withList n e
        pendingTypes := pending } := by
  have hlist : ((d.model.undefinedType n).2.withList n e).type?
      ⟨(d.model.undefinedType n).2.types.size⟩ = some (.list n e) :=
    Model.type?_withList.mpr (.inl ⟨rfl, rfl⟩)
  -- The slot of the new list isn't one that could have been pending before.
  have hne : ∀ {slot' : TypeSlot},
      (∀ list, slot' = .listElement list → (Entity.type list).Within d.model) →
      slot' ≠ .listElement ⟨(d.model.undefinedType n).2.types.size⟩ :=
    fun hw' h => Nat.not_lt.mpr (Model.grows_undefinedType d.model n).typesSize (hw' _ h)
  exact
    { builds := builds_withList hs hl he hpre hmem
      sound := sound_withList hs hl he hpre hmem
      refers := ⟨e, hlist⟩
      pending := fun x => by
        rw [hmem, or_iff_right (hq x), hlist]
        simp [hne (TypeSlot.within_list hw)]
      others := fun _ hw' => hmem.trans (or_iff_left fun h => hne hw' h.1)
      services := services_undefinedType _ n
      pendingServices := rfl }

end NewList

theorem referred_internList (hs : d.Sound) (hw : slot.owner.Within d.model)
    (hq : d.QuietType slot) (n : Name) :
    Referred d slot ⟨n, true⟩
      (internList n (fun list => resolveType n (.listElement list)) d).1
      (internList n (fun list => resolveType n (.listElement list)) d).2 := by
  rcases hl : d.model.findList? n with _ | list
  · have hu := Model.type?_undefinedType hs.indexed n
    have hg := Model.grows_undefinedType d.model n
    rcases hn : d.model.findType? n with _ | id
    · rw [internList_unregistered hs.indexed hl hn]
      refine referred_withList hs hl (.inr hu) (List.prefix_append _ _) (fun {x slot'} => ?_) hw hq
      simp [hu, and_comm, eq_comm]
    · rw [internList_registered hl hn]
      have hid := (hs.indexed.undefined n).type?_ne_undefined (hg.findType hn)
      exact referred_withList hs hl (.inl (hg.findType hn)) List.prefix_rfl
        (fun {x slot'} => (or_iff_left fun h => hid x h.2).symm) hw hq
  · rw [internList_known hl]
    obtain ⟨e, he⟩ := hs.indexed.list.mp hl
    exact
      { builds := .refl d
        sound := hs
        refers := ⟨e, he⟩
        pending := fun x => ⟨fun h => absurd h (hq x), fun h => by simp [he] at h⟩
        others := fun _ _ => .rfl
        services := rfl
        pendingServices := rfl }

end InternList

/-! ## Resolving a service reference -/

/-- `id` is what the reference to the service `n` in `slot` has been resolved to. -/
structure ReferredService (d : Draft) (slot : ServiceSlot) (n : Name) (id : ServiceId)
    (d' : Draft) : Prop where
  builds : Builds ∅ {.service n} d d'
  sound : d'.Sound
  named : d'.model.ServiceNamed n id
  pending : ∀ x, (x, slot) ∈ d'.pendingServices ↔ d'.model.service? id = some (.undefined x)
  others : ∀ {x slot'}, slot' ≠ slot →
    ((x, slot') ∈ d'.pendingServices ↔ (x, slot') ∈ d.pendingServices)
  pendingTypes : d'.pendingTypes = d.pendingTypes

theorem ReferredService.fits {d d' : Draft} {slot : ServiceSlot} {n : Name} {id : ServiceId}
    (h : ReferredService d slot n id d') : d'.FitsService slot id :=
  ⟨⟨n, h.named⟩, h.pending⟩

section ResolveService

variable {d : Draft} {slot : ServiceSlot} {n : Name}

theorem registry_undefinedService (m : Model) (n : Name) :
    (m.undefinedService n).2.registry = m.registry := by
  rcases h : m.undefinedServices[n]? with _ | id
  · rw [Model.undefinedService_new h]; rfl
  · rw [Model.undefinedService_known h]

theorem findList?_undefinedService (m : Model) (n x : Name) :
    (m.undefinedService n).2.findList? x = m.findList? x := by
  rcases h : m.undefinedServices[n]? with _ | id
  · rw [Model.undefinedService_new h]; rfl
  · rw [Model.undefinedService_known h]

theorem resolveService_known {id : ServiceId} (h : d.model.findService? n = some id) :
    resolveService n slot d = (id, d) := by
  rw [resolveService, h]

theorem resolveService_new (h : d.model.findService? n = none) (slot : ServiceSlot) :
    resolveService n slot d = ((d.model.undefinedService n).1, { d with
      model := (d.model.undefinedService n).2
      pendingServices := d.pendingServices ++ [(n, slot)] }) := by
  rw [resolveService, h]

theorem referred_resolveService (hs : d.Sound) (hw : slot.owner.Within d.model)
    (hnone : d.model.serviceAt? slot = none) (hq : d.QuietService slot) (n : Name) :
    ReferredService d slot n (resolveService n slot d).1 (resolveService n slot d).2 := by
  rcases hn : d.model.findService? n with _ | id
  · rw [resolveService_new hn]
    have hg := Model.grows_undefinedService d.model n
    have hu := Model.service?_undefinedService hs.indexed n
    have hmem : ∀ {x slot'}, (x, slot') ∈ d.pendingServices ++ [(n, slot)] ↔
        (x, slot') ∈ d.pendingServices ∨ (x = n ∧ slot' = slot) := by simp
    refine
      { builds :=
          { (Builds.refl d : Builds ∅ {.service n} d d) with
            grows := hg
            registry := registry_undefinedService _ n
            lists := fun h => .inl (by rwa [findList?_undefinedService] at h)
            pendingServices := List.prefix_append _ _
            newServices := fun h => (hmem.mp h).imp_right fun h => congrArg _ h.1 }
        sound := hs.extend hg (hs.indexed.undefinedServices n) (fun _ h => h) .inl
          (fun h => .inl (by rwa [Model.typeAt?_undefinedService] at h))
          (fun _ h => List.mem_append_left _ h)
          (fun h => (hmem.mp h).imp_right fun h => ?_)
          (fun h => .inl (by rwa [Model.serviceAt?_undefinedService] at h))
        named := .inr hu
        pending := fun x => ?_
        others := fun hne => hmem.trans (or_iff_left fun h => hne h.2)
        pendingTypes := rfl }
    · obtain ⟨-, rfl⟩ := h
      exact ⟨hg.within hw, hnone⟩
    · rw [hmem, hu, or_iff_right (hq x)]
      simp [eq_comm]
  · rw [resolveService_known hn]
    exact
      { builds := .refl d
        sound := hs
        named := .inl hn
        pending := fun x => ⟨fun h => absurd h (hq x),
          fun h => absurd h (hs.indexed.service?_ne_undefined hn x)⟩
        others := fun _ => .rfl
        pendingTypes := rfl }

end ResolveService

end Draft

/-! ## References in declarations -/

namespace Declare

variable {d : Draft}

/-- By `typeRef`, a reference resolves, whatever it is. -/
theorem exec_typeRef {slot : TypeSlot} (hs : d.Sound) (hw : slot.owner.Within d.model)
    (hnone : d.model.typeAt? slot = none) (hq : d.QuietType slot) (ref : TypeRef) :
    ∃ id d', (typeRef ref slot).exec d = (.ok id, d') ∧ d.Referred slot ref.target id d' := by
  rcases ref with ⟨text, _ | _⟩
  · exact ⟨_, _, rfl, Draft.referred_resolveType hs hw hnone hq (referenceName text)⟩
  · exact ⟨_, _, rfl, Draft.referred_internList hs hw hq (referenceName text)⟩

end Declare

end ApiModel
