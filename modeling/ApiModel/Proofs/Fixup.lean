import ApiModel.Proofs.Unresolved
import Mathlib.Data.List.Nodup

/-!
# Settling any draft

What settling does to a sound draft is a substitution (`Settling`). Here nothing
is assumed of the draft: a slot may be pending under several names or have no
place in the model, and a struct may be given a base that it hadn't.

A model is what stands in its slots together with all the rest, which is what
`hollow` leaves of it. An assignment keeps the rest and changes one slot, if the
model has it. Names are looked up in the rest, so assignments don't affect
lookups, and of several assignments to a slot the last one counts.
-/

namespace ApiModel

/-! ## A model without its references -/

def Member.hollow (x : Member) : Member :=
  { x with type := default }

def Parameter.hollow (p : Parameter) : Parameter :=
  { p with type := default }

def StructType.hollow (s : StructType) : StructType :=
  { s with
    base := none
    attributes := s.attributes.map Member.hollow
    links := s.links.map Member.hollow }

def DataType.hollow : DataType → DataType
  | .struct s => .struct s.hollow
  | .list n _ => .list n default
  | t => t

def Method.hollow (x : Method) : Method :=
  { x with parameters := x.parameters.map Parameter.hollow }

def Locator.hollow (l : Locator) : Locator :=
  { l with service := default, parameters := l.parameters.map Parameter.hollow }

def DefinedService.hollow (s : DefinedService) : DefinedService :=
  { s with
    base := none
    methods := s.methods.map Method.hollow
    locators := s.locators.map Locator.hollow }

/-- The model `m` with all its slots emptied. -/
def Model.hollow (m : Model) : Model :=
  { m with
    types := m.types.map DataType.hollow
    services := m.services.map (·.mapDefined DefinedService.hollow) }

section Maps

variable {α β : Type} {f : α → β}

theorem option_eq_of_map_eq {a b : Option α} (hf : a.map f = b.map f)
    (h : ∀ x y, a = some x → b = some y → f x = f y → x = y) : a = b := by
  match a, b with
  | none, none => rfl
  | some x, some y => rw [h x y rfl rfl (Option.some.inj hf)]
  | none, some y | some x, none => cases hf

theorem list_eq_of_map_eq {as bs : List α} (hf : as.map f = bs.map f)
    (h : ∀ (i : Nat) x y, as[i]? = some x → bs[i]? = some y → f x = f y → x = y) : as = bs := by
  refine List.ext_getElem? fun i => option_eq_of_map_eq ?_ (h i)
  rw [← List.getElem?_map, ← List.getElem?_map, hf]

theorem map_modify_of_eq {g : α → α} (h : ∀ a, f (g a) = f a) (i : Nat) (as : List α) :
    (as.modify i g).map f = as.map f := by
  refine List.ext_getElem? fun j => ?_
  rw [List.getElem?_map, List.getElem?_map, List.getElem?_modify]
  split
  · exact (Option.map_map ..).trans (Option.map_congr fun a _ => h a)
  · exact congrArg _ Option.map_id_apply

end Maps

theorem Member.eq_of_hollow {xs ys : List Member} (h : xs.map hollow = ys.map hollow)
    (htype : ∀ i : Nat, xs[i]?.map (·.type) = ys[i]?.map (·.type)) : xs = ys := by
  refine list_eq_of_map_eq h fun i x y hx hy hxy => ?_
  have ht := htype i
  rw [hx, hy] at ht
  cases x
  cases y
  simp_all [hollow]

theorem Parameter.eq_of_hollow {ps qs : List Parameter} (h : ps.map hollow = qs.map hollow)
    (htype : ∀ i : Nat, ps[i]?.map (·.type) = qs[i]?.map (·.type)) : ps = qs := by
  refine list_eq_of_map_eq h fun i p q hp hq hpq => ?_
  have ht := htype i
  rw [hp, hq] at ht
  cases p
  cases q
  simp_all [hollow]

namespace Model

variable {m m' : Model}

theorem type?_hollow (m : Model) (id : TypeId) :
    m.hollow.type? id = (m.type? id).map DataType.hollow :=
  Array.getElem?_map

theorem service?_hollow (m : Model) (id : ServiceId) :
    m.hollow.service? id = (m.service? id).map (·.mapDefined DefinedService.hollow) :=
  Array.getElem?_map

section Ext

variable (ht : ∀ slot, m'.typeAt? slot = m.typeAt? slot)
  (hs : ∀ slot, m'.serviceAt? slot = m.serviceAt? slot)

include ht

theorem struct_eq_of_hollow {id : TypeId} {s s' : StructType} (hx : m.struct? id = some s)
    (hx' : m'.struct? id = some s') (h : s'.hollow = s.hollow) : s' = s := by
  have hbase := ht (.base id)
  have hattributes := fun i => ht (.attribute id i)
  have hlinks := fun i => ht (.link id i)
  simp only [typeAt?, hx, hx', Option.bind_some] at hbase hattributes hlinks
  simp only [StructType.hollow, StructType.mk.injEq, true_and] at h
  obtain ⟨hconcept, hmodule, ha, hl⟩ := h
  have ha := Member.eq_of_hollow ha hattributes
  have hl := Member.eq_of_hollow hl hlinks
  cases s
  cases s'
  simp_all

theorem type_eq_of_hollow {id : TypeId} {x x' : DataType} (hx : m.type? id = some x)
    (hx' : m'.type? id = some x') (h : x'.hollow = x.hollow) : x' = x := by
  match x, x', h with
  | .struct s, .struct s', h =>
    rw [struct_eq_of_hollow ht (struct?_eq_some.mpr hx) (struct?_eq_some.mpr hx')
      (DataType.struct.inj h)]
  | .list n e, .list n' e', h =>
    have helement := ht (.listElement id)
    simp only [typeAt?, hx, hx', Option.bind_some, DataType.element?] at helement
    rw [(DataType.list.inj h).1, Option.some.inj helement]
  | .primitive _, .primitive _, h | .enum _, .enum _, h | .undefined _, .undefined _, h => exact h

theorem methods_eq_of_hollow {id : ServiceId} {s s' : DefinedService}
    (hx : m.definedService? id = some s) (hx' : m'.definedService? id = some s')
    (h : s'.methods.map Method.hollow = s.methods.map Method.hollow) : s'.methods = s.methods := by
  refine list_eq_of_map_eq h fun k x' x hk' hk hxx => ?_
  have hps := fun i => ht (.methodParameter ⟨id, k⟩ i)
  simp only [typeAt?, method?, hx, hx', Option.bind_some, hk, hk'] at hps
  simp only [Method.hollow, Method.mk.injEq] at hxx
  obtain ⟨hconcept, hservice, hp, hc⟩ := hxx
  have hp := Parameter.eq_of_hollow hp hps
  cases x
  cases x'
  simp_all

include hs

theorem locators_eq_of_hollow {id : ServiceId} {s s' : DefinedService}
    (hx : m.definedService? id = some s) (hx' : m'.definedService? id = some s')
    (h : s'.locators.map Locator.hollow = s.locators.map Locator.hollow) :
    s'.locators = s.locators := by
  refine list_eq_of_map_eq h fun k l' l hk' hk hll => ?_
  have hps := fun i => ht (.locatorParameter id k i)
  have htarget := hs (.locator id k)
  simp only [typeAt?, serviceAt?, hx, hx', Option.bind_some, hk, hk', Option.map_some] at hps htarget
  simp only [Locator.hollow, Locator.mk.injEq, true_and] at hll
  obtain ⟨hconcept, hp⟩ := hll
  have hp := Parameter.eq_of_hollow hp hps
  cases l
  cases l'
  simp_all

theorem service_eq_of_hollow {id : ServiceId} {x x' : Service} (hx : m.service? id = some x)
    (hx' : m'.service? id = some x')
    (h : x'.mapDefined DefinedService.hollow = x.mapDefined DefinedService.hollow) : x' = x := by
  match x, x', h with
  | .defined s, .defined s', h =>
    have hd := definedService?_eq_some.mpr hx
    have hd' := definedService?_eq_some.mpr hx'
    have hbase := hs (.base id)
    simp only [serviceAt?, hd, hd', Option.bind_some] at hbase
    simp only [Service.mapDefined, DefinedService.hollow, Service.defined.injEq,
      DefinedService.mk.injEq, true_and] at h
    obtain ⟨hconcept, hmodule, hmethods, hlocators⟩ := h
    have hmethods := methods_eq_of_hollow ht hd hd' hmethods
    have hlocators := locators_eq_of_hollow ht hs hd hd' hlocators
    cases s
    cases s'
    simp_all
  | .undefined _, .undefined _, h => exact h

/-- What stands in its slots and all the rest, its `hollow`, determine a model. -/
theorem eq_of_hollow (h : m'.hollow = m.hollow) : m' = m := by
  have htypes : m'.types = m.types := Array.ext_getElem? fun i =>
    option_eq_of_map_eq
      (by rw [← Array.getElem?_map, ← Array.getElem?_map]; exact congrArg (·.types[i]?) h)
      fun x' x hx' hx =>
        type_eq_of_hollow ht (show m.type? ⟨i⟩ = some x from hx) hx'
  have hservices : m'.services = m.services := Array.ext_getElem? fun i =>
    option_eq_of_map_eq
      (by rw [← Array.getElem?_map, ← Array.getElem?_map]; exact congrArg (·.services[i]?) h)
      fun x' x hx' hx =>
        service_eq_of_hollow ht hs (show m.service? ⟨i⟩ = some x from hx) hx'
  cases m
  cases m'
  simp_all [hollow]

end Ext

/-! ## Places for references -/

/-- Whether `m` has the slot. A struct has a place for its `base` even if it has no base. -/
def hasTypeSlot (m : Model) : TypeSlot → Bool
  | .base owner => (m.struct? owner).isSome
  | slot => (m.typeAt? slot).isSome

def hasServiceSlot (m : Model) : ServiceSlot → Bool
  | .base owner => (m.definedService? owner).isSome
  | slot => (m.serviceAt? slot).isSome

theorem struct?_hollow (m : Model) (id : TypeId) :
    m.hollow.struct? id = (m.struct? id).map StructType.hollow := by
  rw [struct?, type?_hollow, struct?]
  rcases m.type? id with _ | t
  · rfl
  · cases t <;> rfl

theorem definedService?_hollow (m : Model) (id : ServiceId) :
    m.hollow.definedService? id = (m.definedService? id).map DefinedService.hollow := by
  rw [definedService?, service?_hollow, definedService?]
  rcases m.service? id with _ | s
  · rfl
  · cases s <;> rfl

/-- Emptying the slots of `m` leaves them where they are. -/
theorem hasTypeSlot_hollow (m : Model) (slot : TypeSlot) :
    m.hollow.hasTypeSlot slot = m.hasTypeSlot slot := by
  match slot with
  | .base id => rw [hasTypeSlot, hasTypeSlot, struct?_hollow, Option.isSome_map]
  | .attribute id i | .link id i =>
    simp only [hasTypeSlot, typeAt?, struct?_hollow]
    cases m.struct? id <;> simp [StructType.hollow]
  | .listElement id =>
    simp only [hasTypeSlot, typeAt?, type?_hollow]
    rcases m.type? id with _ | t
    · rfl
    · cases t <;> rfl
  | .methodParameter ⟨id, k⟩ i =>
    simp only [hasTypeSlot, typeAt?, method?, definedService?_hollow]
    rcases m.definedService? id with _ | s
    · rfl
    · simp only [Option.map_some, Option.bind_some, DefinedService.hollow, List.getElem?_map]
      cases s.methods[k]? <;> simp [Method.hollow]
  | .locatorParameter id k i =>
    simp only [hasTypeSlot, typeAt?, definedService?_hollow]
    rcases m.definedService? id with _ | s
    · rfl
    · simp only [Option.map_some, Option.bind_some, DefinedService.hollow, List.getElem?_map]
      cases s.locators[k]? <;> simp [Locator.hollow]

theorem hasServiceSlot_hollow (m : Model) (slot : ServiceSlot) :
    m.hollow.hasServiceSlot slot = m.hasServiceSlot slot := by
  cases slot with
  | base id => rw [hasServiceSlot, hasServiceSlot, definedService?_hollow, Option.isSome_map]
  | locator id k =>
    simp only [hasServiceSlot, serviceAt?, definedService?_hollow]
    cases m.definedService? id <;> simp [DefinedService.hollow]

/-- Nothing stands where `m` has no `slot`. -/
theorem typeAt?_eq_none {slot : TypeSlot} (h : m.hasTypeSlot slot = false) :
    m.typeAt? slot = none := by
  cases slot with
  | base id => rw [typeAt?, Option.isSome_eq_false_iff.mp h |> Option.isNone_iff_eq_none.mp]; rfl
  | _ => exact Option.isNone_iff_eq_none.mp (Option.isSome_eq_false_iff.mp h)

theorem serviceAt?_eq_none {slot : ServiceSlot} (h : m.hasServiceSlot slot = false) :
    m.serviceAt? slot = none := by
  cases slot with
  | base id => rw [serviceAt?, Option.isSome_eq_false_iff.mp h |> Option.isNone_iff_eq_none.mp]; rfl
  | _ => exact Option.isNone_iff_eq_none.mp (Option.isSome_eq_false_iff.mp h)

/-! ## Assignments -/

theorem hollow_modifyType (m : Model) (id : TypeId) {f : DataType → DataType}
    (hf : ∀ t, (f t).hollow = t.hollow) : (m.modifyType id f).hollow = m.hollow := by
  have htypes : (m.modifyType id f).hollow.types = m.hollow.types := by
    refine Array.ext_getElem? fun i => ?_
    simp only [hollow, modifyType, Array.getElem?_map, Array.getElem?_modify]
    split
    · exact (Option.map_map ..).trans (Option.map_congr fun t _ => hf t)
    · rfl
  calc (m.modifyType id f).hollow
      = { m.hollow with types := (m.modifyType id f).hollow.types } := rfl
    _ = m.hollow := by rw [htypes]

theorem hollow_modifyService (m : Model) (id : ServiceId) {f : DefinedService → DefinedService}
    (hf : ∀ s, (f s).hollow = s.hollow) : (m.modifyService id f).hollow = m.hollow := by
  have hservices : (m.modifyService id f).hollow.services = m.hollow.services := by
    refine Array.ext_getElem? fun i => ?_
    simp only [hollow, modifyService, Array.getElem?_map, Array.getElem?_modify]
    split
    · refine (Option.map_map ..).trans (Option.map_congr fun s _ => ?_)
      cases s <;> simp [Service.mapDefined, hf]
    · rfl
  calc (m.modifyService id f).hollow
      = { m.hollow with services := (m.modifyService id f).hollow.services } := rfl
    _ = m.hollow := by rw [hservices]

/-- `assignType` leaves everything but references alone. -/
theorem hollow_assignType (m : Model) (slot : TypeSlot) (id : TypeId) :
    (m.assignType slot id).hollow = m.hollow := by
  have hmembers : ∀ i xs, (retypeMember id i xs).map Member.hollow = xs.map Member.hollow := by
    refine fun i xs => map_modify_of_eq ?_ i xs
    exact fun _ => rfl
  have hparameters : ∀ i ps, (retypeParameter id i ps).map Parameter.hollow =
      ps.map Parameter.hollow := by
    refine fun i ps => map_modify_of_eq ?_ i ps
    exact fun _ => rfl
  match slot with
  | .base owner => exact hollow_modifyType m owner fun t => by cases t <;> rfl
  | .attribute owner i | .link owner i =>
    refine hollow_modifyType m owner fun t => ?_
    cases t <;> simp [DataType.mapStruct, DataType.hollow, StructType.hollow, hmembers]
  | .listElement list => exact hollow_modifyType m list fun t => by cases t <;> rfl
  | .methodParameter method i =>
    refine hollow_modifyService m method.service fun s => ?_
    refine congrArg (fun methods => { s.hollow with methods }) (map_modify_of_eq (fun x => ?_) _ _)
    rw [Method.hollow, hparameters, Method.hollow]
  | .locatorParameter owner k i =>
    refine hollow_modifyService m owner fun s => ?_
    refine congrArg (fun locators => { s.hollow with locators }) (map_modify_of_eq (fun l => ?_) _ _)
    rw [Locator.hollow, hparameters, Locator.hollow]

theorem hollow_assignService (m : Model) (slot : ServiceSlot) (id : ServiceId) :
    (m.assignService slot id).hollow = m.hollow := by
  cases slot with
  | base owner => exact hollow_modifyService m owner fun _ => rfl
  | locator owner k =>
    refine hollow_modifyService m owner fun s => ?_
    refine congrArg (fun locators => { s.hollow with locators }) (map_modify_of_eq ?_ _ _)
    exact fun _ => rfl

/-- `assignType` concerns references to types only. -/
theorem serviceAt?_assignType (m : Model) (slot : TypeSlot) (id : TypeId) (slot' : ServiceSlot) :
    (m.assignType slot id).serviceAt? slot' = m.serviceAt? slot' := by
  cases slot with
  | base owner => cases slot' <;> rfl
  | _ => rw [assignType_eq_mapSlots _ _ (by simp), serviceAt?_mapSlots, Option.map_id']

theorem modifyStruct_eq_self {id : TypeId} (h : m.struct? id = none)
    (f : StructType → StructType) : m.modifyStruct id f = m := by
  have htypes : (m.modifyStruct id f).types = m.types := by
    refine Array.ext_getElem? fun i => (m.type?_modifyStruct id f ⟨i⟩).trans ?_
    split
    · rename_i hi
      subst hi
      refine (Option.map_congr fun t ht => ?_).trans Option.map_id_apply
      cases t with
      | struct s => cases h.symm.trans (struct?_eq_some.mpr ht)
      | _ => rfl
    · rfl
  exact congrArg (fun types => { m with types }) htypes

theorem modifyService_eq_self {id : ServiceId} (h : m.definedService? id = none)
    (f : DefinedService → DefinedService) : m.modifyService id f = m := by
  have hservices : (m.modifyService id f).services = m.services := by
    refine Array.ext_getElem? fun i => (m.service?_modifyService id f ⟨i⟩).trans ?_
    split
    · rename_i hi
      subst hi
      refine (Option.map_congr fun s hs => ?_).trans Option.map_id_apply
      cases s with
      | defined s => cases h.symm.trans (definedService?_eq_some.mpr hs)
      | undefined n => rfl
    · rfl
  exact congrArg (fun services => { m with services }) hservices

theorem typeAt?_assignService (m : Model) (slot : ServiceSlot) (id : ServiceId) (slot' : TypeSlot) :
    (m.assignService slot id).typeAt? slot' = m.typeAt? slot' := by
  cases slot with
  | base owner =>
    rcases hs : m.definedService? owner with _ | s
    · rw [assignService, modifyService_eq_self hs]
    · exact typeAt?_modifyService_of_eq (definedService?_eq_some.mp hs) (fun _ => rfl) rfl slot'
  | locator owner k => rw [assignService_eq_mapSlots _ _ (by simp), typeAt?_mapSlots, Option.map_id']

/-- `assignType` changes the one `slot`, if the model has it. -/
theorem typeAt?_assignType (m : Model) (slot : TypeSlot) (id : TypeId) (slot' : TypeSlot) :
    (m.assignType slot id).typeAt? slot' =
      if slot' = slot ∧ m.hasTypeSlot slot then some id else m.typeAt? slot' := by
  have hput : ∀ x : Option TypeId,
      x.map (slot.put id slot') = if slot' = slot ∧ x.isSome then some id else x := by
    intro x
    cases x <;> by_cases h : slot' = slot <;> simp [TypeSlot.put, h]
  cases slot with
  | base owner =>
    rcases hs : m.struct? owner with _ | s
    · simp [assignType, modifyStruct_eq_self hs, hasTypeSlot, hs]
    · simp [assignType, typeAt?_setBase (struct?_eq_some.mp hs), hasTypeSlot, hs]
  | _ =>
    rw [assignType_eq_mapSlots _ _ (by simp), typeAt?_mapSlots, hput]
    refine if_congr (and_congr_right fun h => ?_) rfl rfl
    subst h
    rfl

theorem serviceAt?_assignService (m : Model) (slot : ServiceSlot) (id : ServiceId)
    (slot' : ServiceSlot) : (m.assignService slot id).serviceAt? slot' =
      if slot' = slot ∧ m.hasServiceSlot slot then some id else m.serviceAt? slot' := by
  cases slot with
  | base owner =>
    rcases hs : m.definedService? owner with _ | s
    · simp [assignService, modifyService_eq_self hs, hasServiceSlot, hs]
    · simp [assignService, serviceAt?_setBase (definedService?_eq_some.mp hs), hasServiceSlot, hs]
  | locator owner k =>
    rw [assignService_eq_mapSlots _ _ (by simp), serviceAt?_mapSlots]
    by_cases h : slot' = .locator owner k
    · subst h
      cases hx : m.serviceAt? (.locator owner k) <;> simp [ServiceSlot.put, hasServiceSlot, hx]
    · cases m.serviceAt? slot' <;> simp [ServiceSlot.put, h]

end Model

/-! ## Kinds of references -/

/-- How the slots of one kind are read (`at?`), whether a model has them (`has`), and when two
models differ at most in what stands there (`Apart`). -/
structure SlotKind (ι σ : Type) where
  at? : Model → σ → Option ι
  has : Model → σ → Bool
  Apart : Model → Model → Prop

def SlotKind.types : SlotKind TypeId TypeSlot where
  at? := Model.typeAt?
  has := Model.hasTypeSlot
  Apart m m' := m'.hollow = m.hollow ∧ ∀ slot, m'.serviceAt? slot = m.serviceAt? slot

def SlotKind.services : SlotKind ServiceId ServiceSlot where
  at? := Model.serviceAt?
  has := Model.hasServiceSlot
  Apart m m' := m'.hollow = m.hollow ∧ ∀ slot, m'.typeAt? slot = m.typeAt? slot

namespace Reference

variable {ι σ : Type}

theorem settleAll_concat (r : Reference ι σ) (m : Model) (pending : List (Name × σ))
    (p : Name × σ) : r.settleAll m (pending ++ [p]) = r.settle (r.settleAll m pending) p := by
  rw [settleAll, List.foldl_append]
  rfl

theorem length_unresolvedNames (r : Reference ι σ) (m : Model) (pending : List (Name × σ)) :
    (r.unresolvedNames m pending).length = pending.countP fun p => (r.lookup m p.1).isNone := by
  rw [unresolvedNames, ← List.countP_eq_length_filter, List.countP_map]
  rfl

variable [DecidableEq σ]

/-- What one kind of `Reference` has in common with the other. -/
structure Lawful (r : Reference ι σ) (k : SlotKind ι σ) : Prop where
  refl : ∀ m, k.Apart m m
  symm : ∀ {m m'}, k.Apart m m' → k.Apart m' m
  trans : ∀ {m m' m''}, k.Apart m m' → k.Apart m' m'' → k.Apart m m''
  lookup : ∀ {m m'}, k.Apart m m' → r.lookup m' = r.lookup m
  has : ∀ {m m'}, k.Apart m m' → k.has m' = k.has m
  absent : ∀ {m slot}, k.has m slot = false → k.at? m slot = none
  assign : ∀ {m slot id}, k.Apart m (r.assign m slot id)
  at?_assign : ∀ {m slot id slot'}, k.at? (r.assign m slot id) slot' =
    if slot' = slot ∧ k.has m slot then some id else k.at? m slot'
  ext : ∀ {m m'}, k.Apart m m' → (∀ slot, k.at? m' slot = k.at? m slot) → m' = m

theorem lawful_types : types.Lawful .types where
  refl _ := ⟨rfl, fun _ => rfl⟩
  symm h := ⟨h.1.symm, fun slot => (h.2 slot).symm⟩
  trans h h' := ⟨h'.1.trans h.1, fun slot => (h'.2 slot).trans (h.2 slot)⟩
  lookup h := funext fun n => congrArg (·.typeIndex[n]?) h.1
  has {m m'} h := funext fun slot => (m'.hasTypeSlot_hollow slot).symm.trans
    ((congrArg (·.hasTypeSlot slot) h.1).trans (m.hasTypeSlot_hollow slot))
  absent := Model.typeAt?_eq_none
  assign := ⟨Model.hollow_assignType .., Model.serviceAt?_assignType _ _ _⟩
  at?_assign := Model.typeAt?_assignType ..
  ext h ht := Model.eq_of_hollow ht h.2 h.1

theorem lawful_services : services.Lawful .services where
  refl _ := ⟨rfl, fun _ => rfl⟩
  symm h := ⟨h.1.symm, fun slot => (h.2 slot).symm⟩
  trans h h' := ⟨h'.1.trans h.1, fun slot => (h'.2 slot).trans (h.2 slot)⟩
  lookup h := funext fun n => congrArg (·.serviceIndex[n]?) h.1
  has {m m'} h := funext fun slot => (m'.hasServiceSlot_hollow slot).symm.trans
    ((congrArg (·.hasServiceSlot slot) h.1).trans (m.hasServiceSlot_hollow slot))
  absent := Model.serviceAt?_eq_none
  assign := ⟨Model.hollow_assignService .., Model.typeAt?_assignService _ _ _⟩
  at?_assign := Model.serviceAt?_assignService ..
  ext h hs := Model.eq_of_hollow h.2 hs h.1

variable {r : Reference ι σ} {k : SlotKind ι σ} {m : Model} {pending : List (Name × σ)}

/-! ## The last reference counts -/

variable (r) in
/-- What the last of the `pending` references to `slot` leads to, among those with a registered
name. -/
def last? (m : Model) (pending : List (Name × σ)) (slot : σ) : Option ι :=
  (pending.reverse.filter (·.2 = slot)).findSome? fun p => r.lookup m p.1

theorem last?_concat (p : Name × σ) (slot : σ) : r.last? m (pending ++ [p]) slot =
    if p.2 = slot then (r.lookup m p.1).or (r.last? m pending slot)
    else r.last? m pending slot := by
  rw [last?, last?, List.reverse_append, List.reverse_singleton, List.singleton_append,
    List.filter_cons]
  by_cases h : p.2 = slot
  · rw [if_pos (decide_eq_true h), if_pos h, List.findSome?_cons]
    cases r.lookup m p.1 <;> rfl
  · rw [if_neg (by simpa using h), if_neg h]

theorem Lawful.apart_settleAll (hr : r.Lawful k) (m : Model) (pending : List (Name × σ)) :
    k.Apart m (r.settleAll m pending) := by
  induction pending using List.reverseRecOn with
  | nil => exact hr.refl m
  | append_singleton ps p ih =>
    rw [settleAll_concat, settle]
    split
    · exact hr.trans ih hr.assign
    · exact ih

/-- What stands in `slot` once everything has been settled by `settleAll`. -/
theorem Lawful.at?_settleAll (hr : r.Lawful k) (m : Model) (pending : List (Name × σ)) (slot : σ) :
    k.at? (r.settleAll m pending) slot =
      if k.has m slot then (r.last? m pending slot).or (k.at? m slot) else none := by
  induction pending using List.reverseRecOn with
  | nil =>
    cases h : k.has m slot with
    | true => rfl
    | false => exact hr.absent h
  | append_singleton ps p ih =>
    have hapart := hr.apart_settleAll m ps
    rw [settleAll_concat, settle, hr.lookup hapart, last?_concat]
    rcases r.lookup m p.1 with _ | id
    · simp only [ih, Option.none_or, ite_self]
    · simp only [hr.at?_assign, hr.has hapart, ih, eq_comm (a := slot)]
      by_cases hp : p.2 = slot
      · subst hp
        cases k.has m p.2 <;> simp
      · simp only [hp, false_and, if_false]

/-! ## Reports -/

/-- `eraseDups` keeps names where they come first. -/
theorem pairwise_idxOf_eraseDups (names : List Name) (p : Name → Bool) :
    (names.filter p).eraseDups.Pairwise fun a b => names.idxOf a < names.idxOf b := by
  induction names generalizing p with
  | nil => exact .nil
  | cons n ns ih =>
    have hne : ∀ {q : Name → Bool}, q n = false → ∀ a ∈ (ns.filter q).eraseDups, n ≠ a := by
      rintro q hq a ha rfl
      rw [List.mem_eraseDups, List.mem_filter, hq] at ha
      cases ha.2
    have hrest : ∀ {q : Name → Bool}, q n = false →
        (ns.filter q).eraseDups.Pairwise fun a b => (n :: ns).idxOf a < (n :: ns).idxOf b := by
      intro q hq
      refine (ih q).imp_of_mem fun {a b} ha hb hab => ?_
      rw [List.idxOf_cons_ne _ (hne hq a ha), List.idxOf_cons_ne _ (hne hq b hb)]
      exact Nat.succ_lt_succ hab
    rw [List.filter_cons]
    split
    · rw [List.eraseDups_cons, List.filter_filter, List.pairwise_cons]
      refine ⟨fun b hb => ?_, hrest (by simp)⟩
      rw [List.idxOf_cons_self, List.idxOf_cons_ne _ (hne (by simp) b hb)]
      exact Nat.succ_pos _
    · exact hrest (by simpa using ‹¬p n = true›)

/-! ## One pass -/

/-- How far a pass over the `pending` references has come: the `model` and the findings so far, the
names that have been reported, and how many references were left. -/
structure Pass where
  model : Model
  diagnostics : List Diagnostic
  reported : List Name := []
  unresolved : Nat := 0

/-- Looks the name in `p` up in the model as it is by then, and either fills the slot in or reports
the name, unless that has been done. -/
def visit (r : Reference ι σ) (s : Pass) (p : Name × σ) : Pass :=
  match r.lookup s.model p.1 with
  | some id => { s with model := r.assign s.model p.2 id }
  | none =>
    if p.1 ∈ s.reported then { s with unresolved := s.unresolved + 1 }
    else {
      model := s.model
      diagnostics := s.diagnostics ++ [r.unresolved p.1]
      reported := s.reported ++ [p.1]
      unresolved := s.unresolved + 1 }

def pass (r : Reference ι σ) (m : Model) (ds : List Diagnostic) (pending : List (Name × σ)) : Pass :=
  pending.foldl r.visit { model := m, diagnostics := ds }

theorem eraseDups_concat (names : List Name) (n : Name) : (names ++ [n]).eraseDups =
    if n ∈ names then names.eraseDups else names.eraseDups ++ [n] := by
  rw [List.eraseDups_append]
  split <;> simp [List.removeAll, List.eraseDups_cons, *]

/-- A single `pass` gives what `settleAll`, reporting and counting give one by one, since
assignments don't affect lookups. -/
theorem Lawful.pass_eq (hr : r.Lawful k) (m : Model) (ds : List Diagnostic)
    (pending : List (Name × σ)) : r.pass m ds pending = {
      model := r.settleAll m pending
      diagnostics := ds ++ r.reports m pending
      reported := (r.unresolvedNames m pending).eraseDups
      unresolved := (r.unresolvedNames m pending).length } := by
  induction pending using List.reverseRecOn with
  | nil => simp [pass, settleAll, reports, unresolvedNames]
  | append_singleton ps p ih =>
    have hpass : r.pass m ds (ps ++ [p]) = r.visit (r.pass m ds ps) p := by
      rw [pass, List.foldl_append]
      rfl
    rw [hpass, ih, visit, settleAll_concat, settle]
    simp only [hr.lookup (hr.apart_settleAll m ps)]
    have hnames : r.unresolvedNames m (ps ++ [p]) =
        r.unresolvedNames m ps ++ if (r.lookup m p.1).isNone then [p.1] else [] := by
      simp only [unresolvedNames, List.map_append, List.filter_append, List.map_singleton,
        List.filter_singleton, cond_eq_ite]
    rcases hp : r.lookup m p.1 with _ | id
    · simp only [hp, Option.isNone_none, if_true] at hnames
      simp only [reports, hnames, eraseDups_concat, List.mem_eraseDups, List.length_append,
        List.length_singleton]
      split <;> simp
    · simp only [hp, Option.isNone_some, Bool.false_eq_true, if_false, List.append_nil] at hnames
      simp only [reports, hnames]

/-! ## Slots pending once -/

theorem last?_eq_some_iff (hn : (pending.map (·.2)).Nodup) {slot : σ} {id : ι} :
    r.last? m pending slot = some id ↔ ∃ n, (n, slot) ∈ pending ∧ r.lookup m n = some id := by
  have hfound : ∀ {id}, r.last? m pending slot = some id →
      ∃ n, (n, slot) ∈ pending ∧ r.lookup m n = some id := by
    intro id h
    obtain ⟨⟨n, slot'⟩, hp, hid⟩ := List.exists_of_findSome?_eq_some h
    rw [List.mem_filter, List.mem_reverse, decide_eq_true_iff] at hp
    obtain ⟨hp, rfl⟩ := hp
    exact ⟨n, hp, hid⟩
  refine ⟨hfound, fun ⟨n, hp, hid⟩ => ?_⟩
  rcases h : r.last? m pending slot with _ | id'
  · have hnone := List.findSome?_eq_none_iff.mp h (n, slot) (by simpa using hp)
    cases hid.symm.trans hnone
  · obtain ⟨n', hp', hid'⟩ := hfound h
    obtain ⟨rfl, -⟩ := Prod.mk.inj (List.inj_on_of_nodup_map hn hp hp' rfl)
    exact hid'.symm.trans hid

/-- If no slot is `pending` twice, the order of the pending references doesn't matter. -/
theorem Lawful.settleAll_perm (hr : r.Lawful k) (m : Model) {pending' : List (Name × σ)}
    (hp : pending'.Perm pending) (hn : (pending.map (·.2)).Nodup) :
    r.settleAll m pending' = r.settleAll m pending := by
  have hlast : ∀ slot, r.last? m pending' slot = r.last? m pending slot := by
    refine fun slot => Option.ext fun id => ?_
    rw [last?_eq_some_iff hn, last?_eq_some_iff ((hp.map _).nodup_iff.mpr hn)]
    simp only [hp.mem_iff]
  refine hr.ext (hr.trans (hr.symm (hr.apart_settleAll m pending)) (hr.apart_settleAll m pending'))
    fun slot => ?_
  rw [hr.at?_settleAll, hr.at?_settleAll, hlast]

/-! ## Exactly what is settled -/

/-- All that settling the `pending` references does to the model `m` and to the findings `ds`, where
`report` is the finding on a name. -/
structure Settles (r : Reference ι σ) (k : SlotKind ι σ) (report : Name → Diagnostic) (m : Model)
    (ds : List Diagnostic) (pending : List (Name × σ)) (unresolved : Nat) (m' : Model)
    (ds' : List Diagnostic) : Prop where
  /-- It is done in one `Reference.pass`. -/
  pass : (r.pass m ds pending).model = m' ∧ (r.pass m ds pending).diagnostics = ds' ∧
    (r.pass m ds pending).unresolved = unresolved
  count : unresolved = pending.countP fun p => (r.lookup m p.1).isNone
  /-- Each name that isn't registered is reported once, in the order of first use. -/
  reports : ∃ names : List Name, names.Nodup ∧
    (∀ n, n ∈ names ↔ (∃ slot, (n, slot) ∈ pending) ∧ r.lookup m n = none) ∧
    (names.Pairwise fun a b => (pending.map (·.1)).idxOf a < (pending.map (·.1)).idxOf b) ∧
    ds' = ds ++ names.map report
  filled : ∀ slot, k.has m slot → k.at? m' slot = (r.last? m pending slot).or (k.at? m slot)
  absent : ∀ slot, k.has m slot = false → k.has m' slot = false ∧ k.at? m' slot = none
  apart : k.Apart m m'

theorem Lawful.settles (hr : r.Lawful k) (m : Model) (ds : List Diagnostic)
    (pending : List (Name × σ)) :
    r.Settles k r.unresolved m ds pending (r.unresolvedNames m pending).length
      (r.settleAll m pending) (ds ++ r.reports m pending) where
  pass := by rw [hr.pass_eq]; exact ⟨rfl, rfl, rfl⟩
  count := r.length_unresolvedNames m pending
  reports := by
    refine ⟨(r.unresolvedNames m pending).eraseDups, nodup_eraseDups _, fun n => ?_,
      pairwise_idxOf_eraseDups _ _, rfl⟩
    rw [List.mem_eraseDups, r.mem_unresolvedNames]
  filled slot h := by rw [hr.at?_settleAll, if_pos h]
  absent slot h := by
    have hhas : k.has (r.settleAll m pending) slot = false := by
      rw [hr.has (hr.apart_settleAll m pending), h]
    exact ⟨hhas, hr.absent hhas⟩
  apart := hr.apart_settleAll m pending

end Reference

namespace Draft

/-- Whatever the model, the findings and the pending references of `d` are, `fixup` does exactly
this: slots that the model has take what the last pending reference with a registered name leads to,
names that aren't registered are reported once each, and nothing else changes. If no slot is pending
twice, the order of the pending references doesn't matter. -/
theorem fixup_exact (d : Draft) :
    Reference.types.Settles .types
        (fun n => ⟨.error, .unresolvedType, s!"can't resolve type '{n.display}'"⟩)
        d.model d.diagnostics d.pendingTypes d.unresolvedTypeCount d.fixTypes.model
        d.fixTypes.diagnostics ∧
      Reference.services.Settles .services
        (fun n => ⟨.error, .unresolvedService, s!"can't resolve service '{n.display}'"⟩)
        d.model d.diagnostics d.pendingServices d.unresolvedServiceCount d.fixServices.model
        d.fixServices.diagnostics ∧
      (∀ pending, pending.Perm d.pendingTypes → (d.pendingTypes.map (·.2)).Nodup →
        { d with pendingTypes := pending }.fixTypes.model = d.fixTypes.model ∧
        { d with pendingTypes := pending }.unresolvedTypeCount = d.unresolvedTypeCount) ∧
      ∀ pending, pending.Perm d.pendingServices → (d.pendingServices.map (·.2)).Nodup →
        { d with pendingServices := pending }.fixServices.model = d.fixServices.model ∧
        { d with pendingServices := pending }.unresolvedServiceCount = d.unresolvedServiceCount := by
  refine ⟨Reference.lawful_types.settles .., Reference.lawful_services.settles ..,
    fun pending hp hn => ⟨Reference.lawful_types.settleAll_perm _ hp hn, ?_⟩,
    fun pending hp hn => ⟨Reference.lawful_services.settleAll_perm _ hp hn, ?_⟩⟩
  · simp only [unresolvedTypeCount, Reference.length_unresolvedNames, hp.countP_eq]
  · simp only [unresolvedServiceCount, Reference.length_unresolvedNames, hp.countP_eq]

/-- A struct whose base and members are declared later or not at all, in a draft that has two more
references pending, for members that the struct hasn't got. Statements about it are only evaluated
where a proof says so. -/
@[irreducible]
def crowdedDraft : Draft :=
  let d := declareEach {} [
    .type { name := "Vm", space := "types", body := .struct (.class "Device") [
      { name := "disk", type := { name := "Disk" } },
      { name := "nics", type := { name := "Nic", isArray := true } }] },
    .type { name := "Disk", space := "types", body := .struct .none [] }]
  { d with pendingTypes := d.pendingTypes ++
    [(Name.ofCase "Disk", .link ⟨5⟩ 3), (Name.ofCase "Nic", .attribute ⟨5⟩ 2)] }

theorem fixup_exact_crowded :
    { crowdedDraft with pendingTypes := crowdedDraft.pendingTypes.reverse }.fixTypes.model =
        crowdedDraft.fixTypes.model ∧
      crowdedDraft.unresolvedTypeCount = 3 ∧
      crowdedDraft.fixTypes.model.typeAt? (.attribute ⟨5⟩ 0) =
        (crowdedDraft.model.findType? (Name.ofCase "Disk")).or
          (crowdedDraft.model.typeAt? (.attribute ⟨5⟩ 0)) ∧
      (crowdedDraft.pendingTypes.map (·.2)).Nodup ∧ crowdedDraft.pendingTypes.length = 5 ∧
      crowdedDraft.fixTypes.diagnostics =
        [⟨.error, .unresolvedType, "can't resolve type 'device'"⟩,
          ⟨.error, .unresolvedType, "can't resolve type 'nic'"⟩] := by
  have hfacts : ((crowdedDraft.pendingTypes.map (·.2)).Nodup ∧
      crowdedDraft.pendingTypes.length = 5 ∧
      crowdedDraft.fixTypes.diagnostics =
        [⟨.error, .unresolvedType, "can't resolve type 'device'"⟩,
          ⟨.error, .unresolvedType, "can't resolve type 'nic'"⟩]) ∧
      (crowdedDraft.pendingTypes.countP fun p =>
        (Reference.types.lookup crowdedDraft.model p.1).isNone) = 3 ∧
      crowdedDraft.model.hasTypeSlot (.attribute ⟨5⟩ 0) = true ∧
      Reference.types.last? crowdedDraft.model crowdedDraft.pendingTypes (.attribute ⟨5⟩ 0) =
        crowdedDraft.model.findType? (Name.ofCase "Disk") := by
    decide +kernel
  obtain ⟨hpending, hcount, hhas, hlast⟩ := hfacts
  obtain ⟨hsettles, -, hperm, -⟩ := fixup_exact crowdedDraft
  have hfilled := hsettles.filled (.attribute ⟨5⟩ 0) hhas
  rw [hlast] at hfilled
  exact ⟨(hperm _ (List.reverse_perm _) hpending.1).1, hsettles.count.trans hcount, hfilled,
    hpending⟩

end Draft

end ApiModel
