import ApiModel.Proofs.Reordering
import Mathlib.Data.List.Sort

/-!
# Twin models

Models of corresponding declarations number their entities differently. Two
identifiers are paired if they are what the same reference leads to. Paired
types are equal in kind and name, and the listings of twin models by name are
paired entry by entry.
-/

namespace ApiModel

/-! ## Listings by name -/

/-- Names in order, `ns` and `ns'`, are determined by which names there are. -/
theorem eq_of_ordered {ns ns' : List Name} (h : ns.Pairwise fun a b => compare a b = .lt)
    (h' : ns'.Pairwise fun a b => compare a b = .lt) (hm : ∀ n, n ∈ ns ↔ n ∈ ns') : ns = ns' := by
  have hnodup : ∀ {xs : List Name}, xs.Pairwise (fun a b => compare a b = .lt) → xs.Nodup := by
    refine fun hx => hx.imp ?_
    rintro a _ hlt rfl
    exact Std.OrientedCmp.not_lt_of_lt hlt hlt
  refine List.Perm.eq_of_pairwise ?_ h h'
    ((List.perm_ext_iff_of_nodup (hnodup h) (hnodup h')).mpr hm)
  intro a b _ _ hab hba
  exact (Std.OrientedCmp.not_lt_of_lt hab hba).elim

theorem NameSet.toList_eq {names names' : NameSet} (h : ∀ n, n ∈ names ↔ n ∈ names') :
    names.toList = names'.toList :=
  eq_of_ordered names.ordered_toList names'.ordered_toList fun n => by
    rw [Std.TreeSet.mem_toList, Std.TreeSet.mem_toList, h]

/-- Indexes `map` and `map'` with the same names list their entries side by side. -/
theorem NameMap.toList_rel {α β : Type} {map : NameMap α} {map' : NameMap β}
    {S : Name → α → β → Prop} (h : ∀ n : Name, Option.Rel (S n) map[n]? map'[n]?) :
    List.Forall₂ (fun p p' => S p.1 p.2 p'.2) map.toList map'.toList := by
  have hkeys : map.toList.map (·.1) = map'.toList.map (·.1) := by
    refine eq_of_ordered (List.pairwise_map.mpr map.ordered_keys_toList)
      (List.pairwise_map.mpr map'.ordered_keys_toList) fun n => ?_
    have hmem : ∀ {γ : Type} (map : NameMap γ),
        n ∈ map.toList.map (·.1) ↔ map[n]?.isSome := fun map => by simp
    have hn := h n
    rw [hmem, hmem]
    generalize map[n]? = x, map'[n]? = y at hn
    cases hn <;> rfl
  rw [List.forall₂_iff_get]
  refine ⟨by simpa using congrArg List.length hkeys, fun i hi hi' => ?_⟩
  have hx := Std.TreeMap.mem_toList_iff_getElem?_eq_some.mp (List.get_mem map.toList ⟨i, hi⟩)
  have hy := Std.TreeMap.mem_toList_iff_getElem?_eq_some.mp (List.get_mem map'.toList ⟨i, hi'⟩)
  have hkey : (map.toList.get ⟨i, hi⟩).1 = (map'.toList.get ⟨i, hi'⟩).1 := by
    have hget := congrArg (·[i]?) hkeys
    simpa only [List.getElem?_map, List.getElem?_eq_getElem hi, List.getElem?_eq_getElem hi',
      Option.map_some, Option.some.injEq, List.get_eq_getElem] using hget
  rw [← hkey] at hy
  have hn := h (map.toList.get ⟨i, hi⟩).1
  rw [hx, hy] at hn
  cases hn with
  | some hn => exact hn

/-! ## What references lead to -/

namespace Model

variable {m m' : Model} {n : Name} {R : TypeDecl → TypeDecl → Prop}

/-- The references to the same type lead to `id` in `m` and to `id'` in `m'`. -/
def Paired (m m' : Model) (id id' : TypeId) : Prop :=
  ∃ n, m.Resolves n id ∧ m'.Resolves n id'

def PairedService (m m' : Model) (id id' : ServiceId) : Prop :=
  ∃ n, m.ResolvesService n id ∧ m'.ResolvesService n id'

theorem resolves_of_registered {id : TypeId} (h : m.findType? n = some id) : m.Resolves n id := by
  rw [Resolves, h]

theorem resolvesService_of_registered {id : ServiceId} (h : m.findService? n = some id) :
    m.ResolvesService n id := by
  rw [ResolvesService, h]

theorem Resolves.unique {id id' : TypeId} (h : m.Resolves n id) (h' : m.Resolves n id') :
    id = id' := by
  rw [Resolves] at h h'
  rcases hn : m.findType? n with _ | r <;> simp only [hn] at h h'
  · exact Option.some.inj (h.1.symm.trans h'.1)
  · exact h.trans h'.symm

theorem ResolvesService.unique {id id' : ServiceId} (h : m.ResolvesService n id)
    (h' : m.ResolvesService n id') : id = id' := by
  rw [ResolvesService] at h h'
  rcases hn : m.findService? n with _ | r <;> simp only [hn] at h h'
  · exact Option.some.inj (h.1.symm.trans h'.1)
  · exact h.trans h'.symm

theorem ResolvesService.serviceNamed {id : ServiceId} (h : m.ResolvesService n id) :
    m.ServiceNamed n id := by
  unfold ResolvesService at h
  split at h
  · exact .inl (h ▸ ‹_›)
  · exact .inr h.2

theorem Resolves.name {id : TypeId} (h : m.Resolves n id) (hi : m.Indexed) :
    (m.type? id).map (·.name) = some n := by
  obtain ⟨t, ht, hn, -⟩ := hi.name_of_typeNamed h.typeNamed
  rw [ht, Option.map_some, hn]

theorem ResolvesService.name {id : ServiceId} (h : m.ResolvesService n id) (hi : m.Indexed) :
    (m.service? id).map (·.name) = some n := by
  obtain ⟨s, hs, hn⟩ := hi.name_of_serviceNamed h.serviceNamed
  rw [hs, Option.map_some, hn]

/-- By `Resolves`, names and what they lead to determine each other. -/
theorem biUnique_resolves (hi : m.Indexed) : Relator.BiUnique m.Resolves :=
  ⟨fun _ _ _ hn hx => Option.some.inj ((hn.name hi).symm.trans (hx.name hi)),
    fun _ _ _ hn hx => hn.unique hx⟩

theorem biUnique_resolvesService (hi : m.Indexed) : Relator.BiUnique m.ResolvesService :=
  ⟨fun _ _ _ hn hx => Option.some.inj ((hn.name hi).symm.trans (hx.name hi)),
    fun _ _ _ hn hx => hn.unique hx⟩

theorem StructTwins.base {id id' : TypeId} {s s' : StructType}
    (h : StructTwins R m m' id s id' s') : Option.Rel (m.Paired m') s.base s'.base := by
  obtain ⟨-, -, -, hs, hs'⟩ := h
  exact optionRel_join hs.base hs'.base fun _ _ _ hb hb' => ⟨_, hb, hb'⟩

theorem ServiceTwins.base {id id' : ServiceId} {s s' : DefinedService}
    (h : ServiceTwins m m' id s id' s') : Option.Rel (m.PairedService m') s.base s'.base := by
  obtain ⟨hs, hs'⟩ := h
  exact optionRel_join hs.base hs'.base fun _ _ _ hb hb' => ⟨_, hb, hb'⟩

namespace Twins

variable (h : m.Twins R m')

include h

theorem name_eq {id id' : TypeId} (hp : m.Paired m' id id') :
    (m.type? id).map (·.name) = (m'.type? id').map (·.name) := by
  obtain ⟨n, hn, hn'⟩ := hp
  rw [hn.name h.indexed, hn'.name h.indexed']

theorem serviceName_eq {id id' : ServiceId} (hp : m.PairedService m' id id') :
    (m.service? id).map (·.name) = (m'.service? id').map (·.name) := by
  obtain ⟨n, hn, hn'⟩ := hp
  rw [hn.name h.indexed, hn'.name h.indexed']

/-- Being `Paired` is one to one. -/
theorem paired_eq_iff {a b a' b' : TypeId} (ha : m.Paired m' a a') (hb : m.Paired m' b b') :
    a = b ↔ a' = b' := by
  obtain ⟨n, hn, hn'⟩ := ha
  obtain ⟨x, hx, hx'⟩ := hb
  calc a = b
    _ ↔ n = x := (Relator.rel_eq (biUnique_resolves h.indexed) hn hx).symm
    _ ↔ a' = b' := Relator.rel_eq (biUnique_resolves h.indexed') hn' hx'

theorem pairedService_eq_iff {a b a' b' : ServiceId} (ha : m.PairedService m' a a')
    (hb : m.PairedService m' b b') : a = b ↔ a' = b' := by
  obtain ⟨n, hn, hn'⟩ := ha
  obtain ⟨x, hx, hx'⟩ := hb
  calc a = b
    _ ↔ n = x := (Relator.rel_eq (biUnique_resolvesService h.indexed) hn hx).symm
    _ ↔ a' = b' := Relator.rel_eq (biUnique_resolvesService h.indexed') hn' hx'

omit h in
theorem paired_of_registered {id id' : TypeId} (hid : m.findType? n = some id)
    (hid' : m'.findType? n = some id') : m.Paired m' id id' :=
  ⟨n, resolves_of_registered hid, resolves_of_registered hid'⟩

omit h in
theorem pairedService_of_registered {id id' : ServiceId} (hid : m.findService? n = some id)
    (hid' : m'.findService? n = some id') : m.PairedService m' id id' :=
  ⟨n, resolvesService_of_registered hid, resolvesService_of_registered hid'⟩

/-- `Paired` types are the same primitive, structs or enumerations that are declared alike, or
undefined. -/
theorem paired_cases {id id' : TypeId} (hp : m.Paired m' id id') : TypeTwins R m m' id id' ∨
    ∃ n, m.type? id = some (.undefined n) ∧ m'.type? id' = some (.undefined n) := by
  obtain ⟨n, hn, hn'⟩ := hp
  have ht := h.types n
  rw [Resolves] at hn hn'
  generalize m.findType? n = x, m'.findType? n = x' at hn hn' ht
  cases ht with
  | none => exact .inr ⟨n, hn.2, hn'.2⟩
  | some ht =>
    obtain rfl : id = _ := hn
    obtain rfl : id' = _ := hn'
    exact .inl ht

theorem pairedService_cases {id id' : ServiceId} (hp : m.PairedService m' id id') :
    (∃ s s', m.service? id = some (.defined s) ∧ m'.service? id' = some (.defined s') ∧
      ServiceTwins m m' id s id' s') ∨
    ∃ n, m.service? id = some (.undefined n) ∧ m'.service? id' = some (.undefined n) := by
  obtain ⟨n, hn, hn'⟩ := hp
  have hs := h.services n
  rw [ResolvesService] at hn hn'
  generalize m.findService? n = x, m'.findService? n = x' at hn hn' hs
  cases hs with
  | none => exact .inr ⟨n, hn.2, hn'.2⟩
  | some hs =>
    obtain rfl : id = _ := hn
    obtain rfl : id' = _ := hn'
    exact .inl hs

/-! ## Bases -/

theorem structBase? {id id' : TypeId} (hp : m.Paired m' id id') :
    Option.Rel (m.Paired m') (m.structBase? id) (m'.structBase? id') := by
  rcases h.paired_cases hp with ht | ⟨n, hx, hx'⟩
  · cases ht with
    | struct hx hx' hs =>
      rw [Model.structBase?, Model.structBase?, hx, hx']
      exact hs.base
    | primitive hx hx' | enum hx hx' =>
      rw [Model.structBase?, Model.structBase?, hx, hx']
      exact .none
  · rw [Model.structBase?, Model.structBase?, hx, hx']
    exact .none

theorem serviceBase? {id id' : ServiceId} (hp : m.PairedService m' id id') :
    Option.Rel (m.PairedService m') (m.serviceBase? id) (m'.serviceBase? id') := by
  rcases h.pairedService_cases hp with ⟨s, s', hx, hx', hs⟩ | ⟨n, hx, hx'⟩
  · rw [Model.serviceBase?, Model.serviceBase?, definedService?, definedService?, hx, hx']
    exact hs.base
  · rw [Model.serviceBase?, Model.serviceBase?, definedService?, definedService?, hx, hx']
    exact .none

/-! ## Listings of twins -/

theorem registeredTypes : List.Forall₂ (fun p p' => m.Paired m' p.1 p'.1 ∧
    TypeTwins R m m' p.1 p'.1 ∧ m.type? p.1 = some p.2 ∧ m'.type? p'.1 = some p'.2)
    m.registeredTypes m'.registeredTypes := by
  have hvalues : List.Forall₂ (fun id id' => m.Paired m' id id' ∧ TypeTwins R m m' id id')
      m.typeIndex.values m'.typeIndex.values := by
    rw [NameMap.values_eq, NameMap.values_eq, List.forall₂_map_left_iff,
      List.forall₂_map_right_iff]
    refine NameMap.toList_rel (S := fun _ id id' => m.Paired m' id id' ∧ TypeTwins R m m' id id')
      fun n => optionRel_imp ?_ (optionRel_self (h.types n))
    exact fun ⟨hid, hid', ht⟩ => ⟨paired_of_registered hid hid', ht⟩
  refine List.rel_filterMap (fun id id' ⟨hp, ht⟩ => ?_) hvalues
  obtain ⟨x, x', hx, hx'⟩ : ∃ x x', m.type? id = some x ∧ m'.type? id' = some x' := by
    cases ht with
    | primitive hx hx' | struct hx hx' | enum hx hx' => exact ⟨_, _, hx, hx'⟩
  rw [hx, hx']
  exact .some ⟨hp, ht, hx, hx'⟩

theorem structs : List.Forall₂ (fun p p' => m.Paired m' p.1 p'.1 ∧
    StructTwins R m m' p.1 p.2 p'.1 p'.2) m.structs m'.structs := by
  refine List.rel_filterMap ?_ h.registeredTypes
  rintro ⟨id, t⟩ ⟨id', t'⟩ ⟨hp, ht, hid, hid'⟩
  cases ht with
  | struct hx hx' hs =>
    obtain rfl := Option.some.inj (hid.symm.trans hx)
    obtain rfl := Option.some.inj (hid'.symm.trans hx')
    exact .some ⟨hp, hs⟩
  | primitive hx hx' | enum hx hx' =>
    obtain rfl := Option.some.inj (hid.symm.trans hx)
    obtain rfl := Option.some.inj (hid'.symm.trans hx')
    exact .none

theorem enums : List.Forall₂ (fun p p' => EnumTwins R m m' p.1 p.2 p'.1 p'.2) m.enums
    m'.enums := by
  refine List.rel_filterMap ?_ h.registeredTypes
  rintro ⟨id, t⟩ ⟨id', t'⟩ ⟨hp, ht, hid, hid'⟩
  cases ht with
  | enum hx hx' he =>
    obtain rfl := Option.some.inj (hid.symm.trans hx)
    obtain rfl := Option.some.inj (hid'.symm.trans hx')
    exact .some he
  | primitive hx hx' | struct hx hx' =>
    obtain rfl := Option.some.inj (hid.symm.trans hx)
    obtain rfl := Option.some.inj (hid'.symm.trans hx')
    exact .none

theorem registeredServices : List.Forall₂ (fun p p' => m.PairedService m' p.1 p'.1 ∧
    ServiceTwins m m' p.1 p.2 p'.1 p'.2) m.registeredServices m'.registeredServices := by
  have hvalues : List.Forall₂ (fun id id' => m.PairedService m' id id' ∧ ∃ s s',
      m.service? id = some (.defined s) ∧ m'.service? id' = some (.defined s') ∧
        ServiceTwins m m' id s id' s') m.serviceIndex.values m'.serviceIndex.values := by
    rw [NameMap.values_eq, NameMap.values_eq, List.forall₂_map_left_iff,
      List.forall₂_map_right_iff]
    refine NameMap.toList_rel (S := fun _ id id' => m.PairedService m' id id' ∧ ∃ s s',
      m.service? id = some (.defined s) ∧ m'.service? id' = some (.defined s') ∧
        ServiceTwins m m' id s id' s') fun n => optionRel_imp ?_ (optionRel_self (h.services n))
    exact fun ⟨hid, hid', ht⟩ => ⟨pairedService_of_registered hid hid', ht⟩
  refine List.rel_filterMap (fun id id' ⟨hp, s, s', hs, hs', ht⟩ => ?_) hvalues
  rw [definedService?_eq_some.mpr hs, definedService?_eq_some.mpr hs']
  exact .some ⟨hp, ht⟩

end Twins

end Model

end ApiModel
