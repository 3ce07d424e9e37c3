import ApiModel.Proofs.Sound

/-!
# Settling what is pending

Settling goes through the pending references one by one and assigns to their
slots. In a sound draft the outcome is as simple as can be: throughout the
model, each reference to an undefined entity becomes a reference to the entity
registered under its name, if there is one, and everything else stays.

An assignment is a change of all slots that leaves all but one alone. Changes
of all slots compose, so the whole pass is one such change, and what it does to
a slot depends on what is pending for that slot only.
-/

namespace ApiModel

section List

variable {α β : Type}

theorem mapIdx_congr {as : List α} {f g : Nat → α → β}
    (h : ∀ i a, as[i]? = some a → f i a = g i a) : as.mapIdx f = as.mapIdx g := by
  refine List.ext_getElem? fun i => ?_
  rw [List.getElem?_mapIdx, List.getElem?_mapIdx]
  exact Option.map_congr fun a ha => h i a ha

theorem mapIdx_eq_self {as : List α} {f : Nat → α → α}
    (h : ∀ i a, as[i]? = some a → f i a = a) : as.mapIdx f = as := by
  refine List.ext_getElem? fun i => ?_
  rw [List.getElem?_mapIdx]
  exact (Option.map_congr fun a ha => h i a ha).trans Option.map_id_apply

theorem modify_eq_mapIdx (as : List α) (i : Nat) (f : α → α) :
    as.modify i f = as.mapIdx fun j a => if i = j then f a else a := by
  refine List.ext_getElem? fun j => ?_
  rw [List.getElem?_modify, List.getElem?_mapIdx]
  rfl

theorem mapIdx_const (as : List α) (f : α → β) : (as.mapIdx fun _ => f) = as.map f := by
  refine List.ext_getElem? fun i => ?_
  rw [List.getElem?_mapIdx, List.getElem?_map]

end List

/-! ## Changing all slots -/

section MapSlots

variable (f : TypeSlot → TypeId → TypeId) (g : ServiceSlot → ServiceId → ServiceId)

def StructType.mapSlots (id : TypeId) (s : StructType) : StructType :=
  { s with
    base := s.base.map (f (.base id))
    attributes := s.attributes.mapIdx fun i x => { x with type := f (.attribute id i) x.type }
    links := s.links.mapIdx fun i x => { x with type := f (.link id i) x.type } }

def DataType.mapSlots (id : TypeId) : DataType → DataType
  | .struct s => .struct (s.mapSlots f id)
  | .list n e => .list n (f (.listElement id) e)
  | t => t

def Method.mapSlots (position : MethodRef) (x : Method) : Method :=
  { x with
    parameters := x.parameters.mapIdx fun i p =>
      { p with type := f (.methodParameter position i) p.type } }

def Locator.mapSlots (id : ServiceId) (k : Nat) (l : Locator) : Locator :=
  { l with
    service := g (.locator id k) l.service
    parameters := l.parameters.mapIdx fun i p =>
      { p with type := f (.locatorParameter id k i) p.type } }

def DefinedService.mapSlots (id : ServiceId) (s : DefinedService) : DefinedService :=
  { s with
    base := s.base.map (g (.base id))
    methods := s.methods.mapIdx fun i x => x.mapSlots f ⟨id, i⟩
    locators := s.locators.mapIdx fun k l => l.mapSlots f g id k }

/-- Changes each reference in `m`, depending on the slot it stands in. -/
def Model.mapSlots (m : Model) : Model :=
  { m with
    types := m.types.mapIdx fun i t => t.mapSlots f ⟨i⟩
    services := m.services.mapIdx fun i s => s.mapDefined (·.mapSlots f g ⟨i⟩) }

end MapSlots

namespace Model

variable {m : Model} {f f' : TypeSlot → TypeId → TypeId} {g g' : ServiceSlot → ServiceId → ServiceId}

theorem type?_mapSlots (id : TypeId) :
    (m.mapSlots f g).type? id = (m.type? id).map (·.mapSlots f id) :=
  Array.getElem?_mapIdx

theorem service?_mapSlots (id : ServiceId) :
    (m.mapSlots f g).service? id = (m.service? id).map (·.mapDefined (·.mapSlots f g id)) :=
  Array.getElem?_mapIdx

theorem definedService?_mapSlots (id : ServiceId) :
    (m.mapSlots f g).definedService? id = (m.definedService? id).map (·.mapSlots f g id) := by
  rw [definedService?, service?_mapSlots, definedService?]
  rcases m.service? id with _ | s
  · rfl
  · cases s <;> rfl

theorem struct?_mapSlots (id : TypeId) :
    (m.mapSlots f g).struct? id = (m.struct? id).map (·.mapSlots f id) := by
  rw [struct?, type?_mapSlots, struct?]
  rcases m.type? id with _ | t
  · rfl
  · cases t <;> rfl

theorem typeAt?_mapSlots (slot : TypeSlot) :
    (m.mapSlots f g).typeAt? slot = (m.typeAt? slot).map (f slot) := by
  match slot with
  | .base id =>
    rw [typeAt?, typeAt?, struct?_mapSlots]
    cases m.struct? id <;> rfl
  | .attribute id i | .link id i =>
    rw [typeAt?, typeAt?, struct?_mapSlots]
    cases m.struct? id <;> simp [StructType.mapSlots, Function.comp_def]
  | .listElement id =>
    rw [typeAt?, typeAt?, type?_mapSlots]
    rcases m.type? id with _ | t
    · rfl
    · cases t <;> rfl
  | .methodParameter ⟨id, k⟩ i =>
    rw [typeAt?, typeAt?, method?, method?, definedService?_mapSlots]
    rcases m.definedService? id with _ | s
    · rfl
    · simp only [Option.map_some, Option.bind_some, DefinedService.mapSlots, List.getElem?_mapIdx]
      cases s.methods[k]? <;> simp [Method.mapSlots, Function.comp_def]
  | .locatorParameter id k i =>
    rw [typeAt?, typeAt?, definedService?_mapSlots]
    rcases m.definedService? id with _ | s
    · rfl
    · simp only [Option.map_some, Option.bind_some, DefinedService.mapSlots, List.getElem?_mapIdx]
      cases s.locators[k]? <;> simp [Locator.mapSlots, Function.comp_def]

theorem serviceAt?_mapSlots (slot : ServiceSlot) :
    (m.mapSlots f g).serviceAt? slot = (m.serviceAt? slot).map (g slot) := by
  cases slot with
  | base id =>
    rw [serviceAt?, serviceAt?, definedService?_mapSlots]
    cases m.definedService? id <;> rfl
  | locator id k =>
    rw [serviceAt?, serviceAt?, definedService?_mapSlots]
    rcases m.definedService? id with _ | s
    · rfl
    · simp only [Option.map_some, Option.bind_some, DefinedService.mapSlots, List.getElem?_mapIdx]
      cases s.locators[k]? <;> rfl

/-- Two models with the same `types` and `services` are the same if nothing else differs. -/
theorem mapSlots_ext {m' : Model} (h : m' = { m with types := m'.types, services := m'.services })
    (htypes : ∀ id, m'.type? id = (m.type? id).map (·.mapSlots f id))
    (hservices : ∀ id, m'.service? id = (m.service? id).map (·.mapDefined (·.mapSlots f g id))) :
    m' = m.mapSlots f g := by
  have ht : m'.types = (m.mapSlots f g).types := Array.ext_getElem? fun i =>
    (htypes ⟨i⟩).trans (type?_mapSlots ⟨i⟩).symm
  have hs : m'.services = (m.mapSlots f g).services := Array.ext_getElem? fun i =>
    (hservices ⟨i⟩).trans (service?_mapSlots ⟨i⟩).symm
  rw [h, ht, hs]
  rfl

/-- For `mapSlots`, only what stands in the slots of the model matters. -/
theorem mapSlots_congr (hf : ∀ slot x, m.typeAt? slot = some x → f slot x = f' slot x)
    (hg : ∀ slot x, m.serviceAt? slot = some x → g slot x = g' slot x) :
    m.mapSlots f g = m.mapSlots f' g' := by
  refine mapSlots_ext rfl (fun id => ?_) fun id => ?_
  · rw [type?_mapSlots]
    refine Option.map_congr fun t ht => ?_
    cases t with
    | struct s =>
      have hs := struct?_eq_some.mpr ht
      have hbase : s.base.map (f (.base id)) = s.base.map (f' (.base id)) :=
        Option.map_congr fun b hb => hf _ b (by rw [typeAt?, hs]; exact hb)
      have hattributes := mapIdx_congr fun i (x : Member) (hx : s.attributes[i]? = some x) =>
        congrArg (fun ty => { x with type := ty })
          (hf (.attribute id i) _ (by rw [typeAt?, hs, Option.bind_some, hx]; rfl))
      have hlinks := mapIdx_congr fun i (x : Member) (hx : s.links[i]? = some x) =>
        congrArg (fun ty => { x with type := ty })
          (hf (.link id i) _ (by rw [typeAt?, hs, Option.bind_some, hx]; rfl))
      rw [DataType.mapSlots, DataType.mapSlots, StructType.mapSlots, StructType.mapSlots, hbase,
        hattributes, hlinks]
    | list n e => rw [DataType.mapSlots, DataType.mapSlots, hf _ e (by rw [typeAt?, ht]; rfl)]
    | primitive _ | enum _ | undefined _ => rfl
  · rw [service?_mapSlots]
    refine Option.map_congr fun s hs => ?_
    cases s with
    | defined s =>
      have hd := definedService?_eq_some.mpr hs
      have hbase : s.base.map (g (.base id)) = s.base.map (g' (.base id)) :=
        Option.map_congr fun b hb => hg _ b (by rw [serviceAt?, hd]; exact hb)
      have hmethods := mapIdx_congr fun i (x : Method) (hx : s.methods[i]? = some x) => by
        have hps := mapIdx_congr fun j (p : Parameter) (hp : x.parameters[j]? = some p) =>
          congrArg (fun ty => { p with type := ty })
            (hf (.methodParameter ⟨id, i⟩ j) _
              (by rw [typeAt?, method?, hd, Option.bind_some, hx, Option.bind_some, hp]; rfl))
        exact congrArg (fun ps => { x with parameters := ps }) hps
      have hlocators := mapIdx_congr fun k (l : Locator) (hl : s.locators[k]? = some l) => by
        have hps := mapIdx_congr fun j (p : Parameter) (hp : l.parameters[j]? = some p) =>
          congrArg (fun ty => { p with type := ty })
            (hf (.locatorParameter id k j) _
              (by rw [typeAt?, hd, Option.bind_some, hl, Option.bind_some, hp]; rfl))
        have htarget : g (.locator id k) l.service = g' (.locator id k) l.service :=
          hg _ _ (by rw [serviceAt?, hd, Option.bind_some, hl]; rfl)
        exact congrArg₂ (fun x ps => { l with service := x, parameters := ps }) htarget hps
      exact congrArg Service.defined (by
        simp only [DefinedService.mapSlots, Method.mapSlots, Locator.mapSlots, hbase, hmethods,
          hlocators])
    | undefined n => rfl

theorem mapSlots_mapSlots (m : Model) :
    (m.mapSlots f g).mapSlots f' g' =
      m.mapSlots (fun slot x => f' slot (f slot x)) (fun slot x => g' slot (g slot x)) := by
  refine mapSlots_ext rfl (fun id => ?_) fun id => ?_
  · rw [type?_mapSlots, type?_mapSlots, Option.map_map]
    refine Option.map_congr fun t _ => ?_
    cases t <;> simp [DataType.mapSlots, StructType.mapSlots, List.mapIdx_mapIdx, Function.comp_def]
  · rw [service?_mapSlots, service?_mapSlots, Option.map_map]
    refine Option.map_congr fun s _ => ?_
    cases s <;> simp [Service.mapDefined, DefinedService.mapSlots, Method.mapSlots,
      Locator.mapSlots, List.mapIdx_mapIdx, Function.comp_def]

end Model

section Self

variable {f : TypeSlot → TypeId → TypeId} {g : ServiceSlot → ServiceId → ServiceId}

/-- The type `t` stays as it is if its slots do. -/
theorem DataType.mapSlots_eq_self {id : TypeId}
    (hf : ∀ slot x, slot.owner = .type id → f slot x = x) (t : DataType) :
    t.mapSlots f id = t := by
  cases t with
  | struct s =>
    have hbase : s.base.map (f (.base id)) = s.base :=
      (Option.map_congr fun b _ => hf _ b rfl).trans Option.map_id_apply
    have hattributes := mapIdx_eq_self fun i (x : Member) (_ : s.attributes[i]? = some x) =>
      congrArg (fun ty => { x with type := ty }) (hf (.attribute id i) x.type rfl)
    have hlinks := mapIdx_eq_self fun i (x : Member) (_ : s.links[i]? = some x) =>
      congrArg (fun ty => { x with type := ty }) (hf (.link id i) x.type rfl)
    rw [DataType.mapSlots, StructType.mapSlots, hbase, hattributes, hlinks]
  | list n e => rw [DataType.mapSlots, hf _ e rfl]
  | primitive _ | enum _ | undefined _ => rfl

theorem DefinedService.mapSlots_eq_self {id : ServiceId}
    (hf : ∀ slot x, slot.owner = .service id → f slot x = x)
    (hg : ∀ slot x, slot.owner = .service id → g slot x = x) (s : DefinedService) :
    s.mapSlots f g id = s := by
  have hbase : s.base.map (g (.base id)) = s.base :=
    (Option.map_congr fun b _ => hg _ b rfl).trans Option.map_id_apply
  have hmethods : (s.methods.mapIdx fun i x => x.mapSlots f ⟨id, i⟩) = s.methods := by
    refine mapIdx_eq_self fun i x _ => ?_
    have hps := mapIdx_eq_self fun j (p : Parameter) (_ : x.parameters[j]? = some p) =>
      congrArg (fun ty => { p with type := ty }) (hf (.methodParameter ⟨id, i⟩ j) p.type rfl)
    rw [Method.mapSlots, hps]
  have hlocators : (s.locators.mapIdx fun k l => l.mapSlots f g id k) = s.locators := by
    refine mapIdx_eq_self fun k l _ => ?_
    have hps := mapIdx_eq_self fun j (p : Parameter) (_ : l.parameters[j]? = some p) =>
      congrArg (fun ty => { p with type := ty }) (hf (.locatorParameter id k j) p.type rfl)
    rw [Locator.mapSlots, hps, hg _ _ rfl]
  rw [DefinedService.mapSlots, hbase, hmethods, hlocators]

theorem Service.mapSlots_eq_self {id : ServiceId}
    (hf : ∀ slot x, slot.owner = .service id → f slot x = x)
    (hg : ∀ slot x, slot.owner = .service id → g slot x = x) (s : Service) :
    s.mapDefined (·.mapSlots f g id) = s := by
  cases s with
  | defined s => exact congrArg Service.defined (s.mapSlots_eq_self hf hg)
  | undefined n => rfl

end Self

/-! ## Assignments -/

/-- Puts `id` into `slot` and leaves the others. -/
def TypeSlot.put (slot : TypeSlot) (id : TypeId) (slot' : TypeSlot) (x : TypeId) : TypeId :=
  if slot' = slot then id else x

def ServiceSlot.put (slot : ServiceSlot) (id : ServiceId) (slot' : ServiceSlot) (x : ServiceId) :
    ServiceId :=
  if slot' = slot then id else x

namespace Model

variable {m : Model} {f : TypeSlot → TypeId → TypeId} {g : ServiceSlot → ServiceId → ServiceId}

theorem modifyType_eq_mapSlots {id : TypeId} {h : DataType → DataType}
    (hself : ∀ t, m.type? id = some t → h t = t.mapSlots f id)
    (hf : ∀ slot x, slot.owner ≠ .type id → f slot x = x) :
    m.modifyType id h = m.mapSlots f (fun _ x => x) := by
  refine mapSlots_ext rfl (fun id' => ?_) fun id' => ?_
  · rw [type?_modifyType]
    split
    · rename_i he
      subst he
      exact Option.map_congr fun t ht => hself t ht
    · rename_i he
      refine (Option.map_id_apply.symm.trans (Option.map_congr fun t _ => ?_))
      refine (t.mapSlots_eq_self fun slot x ho => hf slot x ?_).symm
      rw [ho]
      exact fun h => he (Entity.type.inj h).symm
  · refine (Option.map_id_apply.symm.trans (Option.map_congr fun s _ => ?_))
    exact (s.mapSlots_eq_self (fun slot x ho => hf slot x (by simp [ho])) fun _ _ _ => rfl).symm

theorem modifyService_eq_mapSlots {id : ServiceId} {h : DefinedService → DefinedService}
    (hself : ∀ s, m.service? id = some (.defined s) → h s = s.mapSlots f g id)
    (hf : ∀ slot x, slot.owner ≠ .service id → f slot x = x)
    (hg : ∀ slot x, slot.owner ≠ .service id → g slot x = x) :
    m.modifyService id h = m.mapSlots f g := by
  refine mapSlots_ext rfl (fun id' => ?_) fun id' => ?_
  · refine (Option.map_id_apply.symm.trans (Option.map_congr fun t _ => ?_))
    exact (t.mapSlots_eq_self fun slot x ho => hf slot x (by simp [ho])).symm
  · rw [service?_modifyService]
    split
    · rename_i he
      subst he
      refine Option.map_congr fun s hs => ?_
      cases s with
      | defined s => exact congrArg Service.defined (hself s hs)
      | undefined n => rfl
    · rename_i he
      have hne : ∀ {e : Entity}, e = .service id' → e ≠ .service id := by
        rintro _ rfl h
        exact he (Entity.service.inj h).symm
      refine (Option.map_id_apply.symm.trans (Option.map_congr fun s _ => ?_))
      exact (s.mapSlots_eq_self (fun slot x ho => hf slot x (hne ho))
        fun slot x ho => hg slot x (hne ho)).symm

theorem mapSlots_id (m : Model) : m.mapSlots (fun _ x => x) (fun _ x => x) = m := by
  refine (mapSlots_ext rfl (fun id => ?_) fun id => ?_).symm
  · exact (Option.map_id_apply.symm.trans (Option.map_congr fun t _ =>
      (t.mapSlots_eq_self fun _ _ _ => rfl).symm))
  · exact (Option.map_id_apply.symm.trans (Option.map_congr fun s _ =>
      (s.mapSlots_eq_self (fun _ _ _ => rfl) fun _ _ _ => rfl).symm))

theorem put_ne_owner {slot : TypeSlot} {id : TypeId} {e : Entity} (he : slot.owner = e)
    (slot' : TypeSlot) (x : TypeId) (hne : slot'.owner ≠ e) : slot.put id slot' x = x := by
  refine if_neg ?_
  rintro rfl
  exact hne he

theorem put_ne_serviceOwner {slot : ServiceSlot} {id : ServiceId} {e : Entity}
    (he : slot.owner = e) (slot' : ServiceSlot) (x : ServiceId) (hne : slot'.owner ≠ e) :
    slot.put id slot' x = x := by
  refine if_neg ?_
  rintro rfl
  exact hne he

theorem map_put_ne {slot slot' : TypeSlot} (h : slot' ≠ slot) (id : TypeId) (b : Option TypeId) :
    b.map (slot.put id slot') = b := by
  cases b <;> simp [TypeSlot.put, h]

/-- Members but the one at `i` stay. -/
theorem retypeMember_eq_mapIdx (id : TypeId) (i : Nat) (xs : List Member) :
    retypeMember id i xs =
      xs.mapIdx fun j x => { x with type := if j = i then id else x.type } := by
  rw [retypeMember, modify_eq_mapIdx]
  refine mapIdx_congr fun j x _ => ?_
  simp only [eq_comm (a := i)]
  split <;> rfl

theorem retypeParameter_eq_mapIdx (id : TypeId) (i : Nat) (ps : List Parameter) :
    retypeParameter id i ps =
      ps.mapIdx fun j p => { p with type := if j = i then id else p.type } := by
  rw [retypeParameter, modify_eq_mapIdx]
  refine mapIdx_congr fun j p _ => ?_
  simp only [eq_comm (a := i)]
  split <;> rfl

/-- `assignType` changes one slot; a base can only be replaced, not added, in this way. -/
theorem assignType_eq_mapSlots (slot : TypeSlot) (id : TypeId)
    (hbase : ∀ owner, slot = .base owner → (m.typeAt? slot).isSome) :
    m.assignType slot id = m.mapSlots (slot.put id) (fun _ x => x) := by
  match slot with
  | .base owner =>
    refine modifyType_eq_mapSlots (fun t ht => ?_) (put_ne_owner rfl)
    cases t with
    | struct s =>
      obtain ⟨b, hb⟩ := Option.isSome_iff_exists.mp (hbase owner rfl)
      rw [typeAt?, struct?_eq_some.mpr ht, Option.bind_some] at hb
      simp [DataType.mapStruct, DataType.mapSlots, StructType.mapSlots, TypeSlot.put, hb,
        mapIdx_eq_self]
    | list n e => simp [DataType.mapStruct, DataType.mapSlots, TypeSlot.put]
    | primitive _ | enum _ | undefined _ => rfl
  | .attribute owner i | .link owner i =>
    refine modifyType_eq_mapSlots (fun t ht => ?_) (put_ne_owner rfl)
    cases t with
    | struct s =>
      simp [DataType.mapStruct, DataType.mapSlots, StructType.mapSlots, TypeSlot.put,
        retypeMember_eq_mapIdx, mapIdx_eq_self, map_put_ne]
    | list n e => simp [DataType.mapStruct, DataType.mapSlots, TypeSlot.put]
    | primitive _ | enum _ | undefined _ => rfl
  | .listElement list =>
    refine modifyType_eq_mapSlots (fun t ht => ?_) (put_ne_owner rfl)
    cases t with
    | struct s =>
      simp [DataType.setElement, DataType.mapSlots, StructType.mapSlots, TypeSlot.put,
        mapIdx_eq_self, map_put_ne]
    | list n e => simp [DataType.setElement, DataType.mapSlots, TypeSlot.put]
    | primitive _ | enum _ | undefined _ => rfl
  | .methodParameter ⟨owner, k⟩ i =>
    refine modifyService_eq_mapSlots (fun s hs => ?_) (put_ne_owner rfl) fun _ _ _ => rfl
    have hlocators : (s.locators.mapIdx fun j l => l.mapSlots
        ((TypeSlot.methodParameter ⟨owner, k⟩ i).put id) (fun _ x => x) owner j) = s.locators :=
      mapIdx_eq_self fun j l _ => by simp [Locator.mapSlots, TypeSlot.put, mapIdx_eq_self]
    rw [DefinedService.modifyMethod, DefinedService.mapSlots, modify_eq_mapIdx, hlocators,
      Option.map_id']
    refine congrArg (fun xs => { s with methods := xs }) (mapIdx_congr fun j x _ => ?_)
    split
    · rename_i hk
      subst hk
      simp [Method.mapSlots, TypeSlot.put, retypeParameter_eq_mapIdx]
    · rename_i hk
      simp [Method.mapSlots, TypeSlot.put, Ne.symm hk, mapIdx_eq_self]
  | .locatorParameter owner k i =>
    refine modifyService_eq_mapSlots (fun s hs => ?_) (put_ne_owner rfl) fun _ _ _ => rfl
    have hmethods : (s.methods.mapIdx fun j x => x.mapSlots
        ((TypeSlot.locatorParameter owner k i).put id) ⟨owner, j⟩) = s.methods :=
      mapIdx_eq_self fun j x _ => by simp [Method.mapSlots, TypeSlot.put, mapIdx_eq_self]
    rw [DefinedService.modifyLocator, DefinedService.mapSlots, modify_eq_mapIdx, hmethods,
      Option.map_id']
    refine congrArg (fun ls => { s with locators := ls }) (mapIdx_congr fun j l _ => ?_)
    split
    · rename_i hk
      subst hk
      simp [Locator.mapSlots, TypeSlot.put, retypeParameter_eq_mapIdx]
    · rename_i hk
      simp [Locator.mapSlots, TypeSlot.put, Ne.symm hk, mapIdx_eq_self]

theorem assignService_eq_mapSlots (slot : ServiceSlot) (id : ServiceId)
    (hbase : ∀ owner, slot = .base owner → (m.serviceAt? slot).isSome) :
    m.assignService slot id = m.mapSlots (fun _ x => x) (slot.put id) := by
  have hmethods : ∀ (s : DefinedService) owner, (s.methods.mapIdx fun j x =>
      x.mapSlots (fun _ x => x) ⟨owner, j⟩) = s.methods := fun s owner =>
    mapIdx_eq_self fun j x _ => by simp [Method.mapSlots, mapIdx_eq_self]
  match slot with
  | .base owner =>
    refine modifyService_eq_mapSlots (fun s hs => ?_) (fun _ _ _ => rfl) (put_ne_serviceOwner rfl)
    obtain ⟨b, hb⟩ := Option.isSome_iff_exists.mp (hbase owner rfl)
    rw [serviceAt?, definedService?_eq_some.mpr hs, Option.bind_some] at hb
    have hlocators : (s.locators.mapIdx fun j l => l.mapSlots (fun _ x => x)
        ((ServiceSlot.base owner).put id) owner j) = s.locators :=
      mapIdx_eq_self fun j l _ => by simp [Locator.mapSlots, ServiceSlot.put, mapIdx_eq_self]
    rw [DefinedService.mapSlots, hmethods, hlocators, hb]
    simp [ServiceSlot.put]
  | .locator owner k =>
    refine modifyService_eq_mapSlots (fun s hs => ?_) (fun _ _ _ => rfl) (put_ne_serviceOwner rfl)
    have hbase : s.base.map ((ServiceSlot.locator owner k).put id (.base owner)) = s.base := by
      cases s.base <;> simp [ServiceSlot.put]
    rw [DefinedService.modifyLocator, DefinedService.mapSlots, modify_eq_mapIdx, hmethods, hbase]
    refine congrArg (fun ls => { s with locators := ls }) (mapIdx_congr fun j l _ => ?_)
    split
    · rename_i hk
      subst hk
      simp [Locator.mapSlots, ServiceSlot.put, mapIdx_eq_self]
    · rename_i hk
      simp [Locator.mapSlots, ServiceSlot.put, Ne.symm hk, mapIdx_eq_self]

end Model

/-! ## The whole pass -/

namespace Reference

variable {ι σ : Type} [DecidableEq σ] (r : Reference ι σ)

/-- What the pass over `pending` leaves in a `slot` that holds `x`. -/
def fill (m : Model) (pending : List (Name × σ)) (slot : σ) (x : ι) : ι :=
  pending.foldl (fun x p => if p.2 = slot then (r.lookup m p.1).getD x else x) x

theorem fill_cons_self (m : Model) (n : Name) (ps : List (Name × σ)) (slot : σ) (x : ι) :
    r.fill m ((n, slot) :: ps) slot x = r.fill m ps slot ((r.lookup m n).getD x) := by
  simp only [fill, List.foldl_cons, if_true]

theorem fill_cons_ne (m : Model) {p : Name × σ} {slot : σ} (hp : p.2 ≠ slot)
    (ps : List (Name × σ)) (x : ι) : r.fill m (p :: ps) slot x = r.fill m ps slot x := by
  simp only [fill, List.foldl_cons, if_neg hp]

theorem fill_eq_self {m : Model} {pending : List (Name × σ)} {slot : σ}
    (h : ∀ n, (n, slot) ∉ pending) (x : ι) : r.fill m pending slot x = x := by
  induction pending with
  | nil => rfl
  | cons p ps ih =>
    have hp : p.2 ≠ slot := fun hp => h p.1 (by rw [← hp]; exact List.mem_cons_self ..)
    rw [fill_cons_ne r m hp, ih fun n hn => h n (List.mem_cons_of_mem _ hn)]

/-- If a `slot` is pending under one name `n`, that name decides. -/
theorem fill_eq {m : Model} {pending : List (Name × σ)} {slot : σ} {n : Name}
    (h : ∀ x, (x, slot) ∈ pending → x = n) (hn : (n, slot) ∈ pending) (x : ι) :
    r.fill m pending slot x = (r.lookup m n).getD x := by
  induction pending generalizing x with
  | nil => cases hn
  | cons p ps ih =>
    have hps : ∀ y, (y, slot) ∈ ps → y = n := fun y hy => h y (List.mem_cons_of_mem _ hy)
    by_cases hp : p.2 = slot
    · obtain ⟨y, slot'⟩ := p
      obtain rfl : slot' = slot := hp
      obtain rfl := h y (List.mem_cons_self ..)
      rw [fill_cons_self]
      by_cases hmem : (y, slot') ∈ ps
      · rw [ih hps hmem]
        cases r.lookup m y <;> rfl
      · exact r.fill_eq_self (fun z hz => hmem (hps z hz ▸ hz)) _
    · rw [fill_cons_ne r m hp]
      refine ih hps ((List.mem_cons.mp hn).resolve_left fun he => hp ?_) x
      rw [← he]

/-- `subst` changes what slots hold, and nothing that names are looked up in. Assigning a slot that
is `Fit` for it is a case of that. -/
structure Substitutes (subst : Model → (σ → ι → ι) → Model) (Fit : Model → σ → Prop) : Prop where
  id : ∀ m, subst m (fun _ x => x) = m
  comp : ∀ m f f', subst (subst m f) f' = subst m fun slot x => f' slot (f slot x)
  assign : ∀ {m slot} (id : ι), Fit m slot →
    r.assign m slot id = subst m fun slot' x => if slot' = slot then id else x
  lookup : ∀ m f, r.lookup (subst m f) = r.lookup m
  fit : ∀ {m slot} f, Fit m slot → Fit (subst m f) slot

variable {r} {subst : Model → (σ → ι → ι) → Model} {Fit : Model → σ → Prop}

theorem Substitutes.settle (h : r.Substitutes subst Fit) {m : Model} {n : Name} {slot : σ}
    (hslot : Fit m slot) : r.settle m (n, slot) =
      subst m fun slot' x => if slot = slot' then (r.lookup m n).getD x else x := by
  rw [Reference.settle]
  rcases r.lookup m n with _ | id
  · simpa using (h.id m).symm
  · simpa only [eq_comm, Option.getD_some] using h.assign id hslot

/-- The pass `settleAll` as a whole is one substitution. -/
theorem Substitutes.settleAll (h : r.Substitutes subst Fit) {m : Model}
    {pending : List (Name × σ)} (hpending : ∀ p ∈ pending, Fit m p.2) :
    r.settleAll m pending = subst m (r.fill m pending) := by
  induction pending generalizing m with
  | nil => exact (h.id m).symm
  | cons p ps ih =>
    obtain ⟨hp, hps⟩ := List.forall_mem_cons.mp hpending
    have hfit : ∀ f, ∀ q ∈ ps, Fit (subst m f) q.2 := fun f q hq => h.fit f (hps q hq)
    show r.settleAll (r.settle m (p.1, p.2)) ps = _
    rw [h.settle hp, ih (hfit _), h.comp]
    simp only [fill, h.lookup]
    rfl

end Reference

namespace Model

theorem substitutes_types : Reference.types.Substitutes (fun m f => m.mapSlots f fun _ x => x)
    fun m slot => ∀ owner, slot = .base owner → (m.typeAt? slot).isSome where
  id := mapSlots_id
  comp m _ _ := mapSlots_mapSlots m
  assign id hslot := assignType_eq_mapSlots _ id hslot
  lookup _ _ := rfl
  fit _ hslot owner ho := by
    rw [typeAt?_mapSlots, Option.isSome_map]
    exact hslot owner ho

theorem substitutes_services : Reference.services.Substitutes
    (fun m g => m.mapSlots (fun _ x => x) g)
    fun m slot => ∀ owner, slot = .base owner → (m.serviceAt? slot).isSome where
  id := mapSlots_id
  comp m _ _ := mapSlots_mapSlots m
  assign id hslot := assignService_eq_mapSlots _ id hslot
  lookup _ _ := rfl
  fit _ hslot owner ho := by
    rw [serviceAt?_mapSlots, Option.isSome_map]
    exact hslot owner ho

theorem settleTypes_eq_mapSlots {m : Model} {pending : List (Name × TypeSlot)}
    (hbase : ∀ n owner, (n, .base owner) ∈ pending → (m.typeAt? (.base owner)).isSome) :
    Reference.types.settleAll m pending =
      m.mapSlots (Reference.types.fill m pending) (fun _ x => x) := by
  refine substitutes_types.settleAll ?_
  rintro ⟨n, _⟩ hp owner rfl
  exact hbase n owner hp

theorem settleServices_eq_mapSlots {m : Model} {pending : List (Name × ServiceSlot)}
    (hbase : ∀ n owner, (n, .base owner) ∈ pending → (m.serviceAt? (.base owner)).isSome) :
    Reference.services.settleAll m pending =
      m.mapSlots (fun _ x => x) (Reference.services.fill m pending) := by
  refine substitutes_services.settleAll ?_
  rintro ⟨n, _⟩ hp owner rfl
  exact hbase n owner hp

end Model

/-! ## Settled models -/

section MapRefs

variable (f : TypeId → TypeId) (g : ServiceId → ServiceId)

def Member.mapRefs (x : Member) : Member :=
  { x with type := f x.type }

def Parameter.mapRefs (p : Parameter) : Parameter :=
  { p with type := f p.type }

def StructType.mapRefs (s : StructType) : StructType :=
  { s with
    base := s.base.map f
    attributes := s.attributes.map (·.mapRefs f)
    links := s.links.map (·.mapRefs f) }

def DataType.mapRefs : DataType → DataType
  | .struct s => .struct (s.mapRefs f)
  | .list n e => .list n (f e)
  | t => t

def Method.mapRefs (x : Method) : Method :=
  { x with parameters := x.parameters.map (·.mapRefs f) }

def Locator.mapRefs (l : Locator) : Locator :=
  { l with service := g l.service, parameters := l.parameters.map (·.mapRefs f) }

def DefinedService.mapRefs (s : DefinedService) : DefinedService :=
  { s with
    base := s.base.map g
    methods := s.methods.map (·.mapRefs f)
    locators := s.locators.map (·.mapRefs f g) }

/-- Substitutes each reference in `m`. -/
def Model.mapRefs (m : Model) : Model :=
  { m with
    types := m.types.map (·.mapRefs f)
    services := m.services.map (·.mapDefined (·.mapRefs f g)) }

end MapRefs

namespace Model

variable {m : Model} {f : TypeId → TypeId} {g : ServiceId → ServiceId}

theorem type?_mapRefs (id : TypeId) :
    (m.mapRefs f g).type? id = (m.type? id).map (·.mapRefs f) :=
  Array.getElem?_map

theorem service?_mapRefs (id : ServiceId) :
    (m.mapRefs f g).service? id = (m.service? id).map (·.mapDefined (·.mapRefs f g)) :=
  Array.getElem?_map

/-- By `mapSlots`, a change that is the same for all slots is a substitution. -/
theorem mapSlots_const (m : Model) (f : TypeId → TypeId) (g : ServiceId → ServiceId) :
    m.mapSlots (fun _ => f) (fun _ => g) = m.mapRefs f g := by
  refine (mapSlots_ext rfl (fun id => ?_) fun id => ?_).symm
  · rw [type?_mapRefs]
    refine Option.map_congr fun t _ => ?_
    cases t <;> simp [DataType.mapSlots, DataType.mapRefs, StructType.mapSlots,
      StructType.mapRefs, mapIdx_const, Member.mapRefs]
  · rw [service?_mapRefs]
    refine Option.map_congr fun s _ => ?_
    cases s <;> simp [Service.mapDefined, DefinedService.mapSlots, DefinedService.mapRefs,
      mapIdx_const, Method.mapSlots, Method.mapRefs, Locator.mapSlots, Locator.mapRefs,
      Parameter.mapRefs]

/-- What a reference to `id` becomes once everything has been declared. -/
def settledType (m : Model) (id : TypeId) : TypeId :=
  match m.type? id with
  | some (.undefined n) => (m.findType? n).getD id
  | _ => id

def settledService (m : Model) (id : ServiceId) : ServiceId :=
  match m.service? id with
  | some (.undefined n) => (m.findService? n).getD id
  | _ => id

end Model

namespace Draft

variable {d : Draft}

theorem fill_eq_settledType (hs : d.Sound) {slot : TypeSlot} {x : TypeId}
    (h : d.model.typeAt? slot = some x) :
    Reference.types.fill d.model d.pendingTypes slot x = d.model.settledType x := by
  have hfit := hs.types h
  rw [Model.settledType]
  split
  · rename_i n hx
    exact Reference.types.fill_eq
      (fun y hy => DataType.undefined.inj (Option.some.inj (((hfit.pending y).mp hy).symm.trans hx)))
      ((hfit.pending n).mpr hx) x
  · rename_i hx
    exact Reference.types.fill_eq_self (fun y hy => hx y ((hfit.pending y).mp hy)) x

theorem fill_eq_settledService (hs : d.Sound) {slot : ServiceSlot} {x : ServiceId}
    (h : d.model.serviceAt? slot = some x) :
    Reference.services.fill d.model d.pendingServices slot x = d.model.settledService x := by
  have hfit := hs.services h
  rw [Model.settledService]
  split
  · rename_i n hx
    exact Reference.services.fill_eq
      (fun y hy => Service.undefined.inj (Option.some.inj (((hfit.pending y).mp hy).symm.trans hx)))
      ((hfit.pending n).mpr hx) x
  · rename_i hx
    exact Reference.services.fill_eq_self (fun y hy => hx y ((hfit.pending y).mp hy)) x

theorem fixTypes_model (hs : d.Sound) (hb : d.Based) : d.fixTypes.model =
    d.model.mapSlots (fun _ => d.model.settledType) (fun _ x => x) :=
  (Model.settleTypes_eq_mapSlots fun _ _ h => hb.types h).trans
    (Model.mapSlots_congr (fun _ _ h => fill_eq_settledType hs h) fun _ _ _ => rfl)

/-- `fixTypes` leaves the registered services. -/
theorem lookup_fixTypes (hs : d.Sound) (hb : d.Based) :
    Reference.services.lookup d.fixTypes.model = Reference.services.lookup d.model := by
  rw [fixTypes_model hs hb]
  rfl

/-- By `fixup`, every reference to an undefined entity whose name is registered is substituted in a
`Sound` draft. -/
theorem fixup_model (hs : d.Sound) (hb : d.Based) :
    d.fixup.model = d.model.mapRefs d.model.settledType d.model.settledService := by
  have hservice : ∀ slot, d.fixTypes.model.serviceAt? slot = d.model.serviceAt? slot := by
    intro slot
    rw [fixTypes_model hs hb, Model.serviceAt?_mapSlots]
    exact Option.map_id_apply
  have hservices : d.fixup.model =
      d.fixTypes.model.mapSlots (fun _ x => x) (fun _ => d.model.settledService) := by
    refine (Model.settleServices_eq_mapSlots fun _ owner h => ?_).trans
      (Model.mapSlots_congr (fun _ _ _ => rfl) fun slot x h => ?_)
    · rw [hservice]
      exact hb.services h
    · have hfill : Reference.services.fill d.fixTypes.model d.pendingServices slot x =
          Reference.services.fill d.model d.pendingServices slot x := by
        simp only [Reference.fill, lookup_fixTypes hs hb]
      exact hfill.trans (fill_eq_settledService hs ((hservice slot).symm.trans h))
  rw [hservices, fixTypes_model hs hb, Model.mapSlots_mapSlots, ← Model.mapSlots_const]

theorem fixup_diagnostics (hs : d.Sound) (hb : d.Based) : d.fixup.diagnostics =
    d.diagnostics ++ Reference.types.reports d.model d.pendingTypes ++
      Reference.services.reports d.model d.pendingServices := by
  have hreports : Reference.services.reports d.fixTypes.model d.pendingServices =
      Reference.services.reports d.model d.pendingServices := by
    simp only [Reference.reports, Reference.unresolvedNames, lookup_fixTypes hs hb]
  exact congrArg (d.fixTypes.diagnostics ++ ·) hreports

end Draft

end ApiModel
