import ApiModel.Proofs.Inheritance
import ApiModel.Proofs.RegistryInvariant
import Mathlib.Data.List.Chain

/-!
# Following bases

The bases of an entity, one after the other, are its chain. Two questions are put
to chains: whether a type lies on the chain of another one, and whether a chain
comes back to where it has been. Both are answered by a walk with a counter, and
a chain may be of any shape: it may end, it may go round, and it may run into a
cycle that it didn't start in.

A chain that reaches something reaches it without a detour, before it has met
anything twice. Only what has a base is left behind on the way, and there are no
more such entities than there are places in the model, so the counter never cuts
a walk short. A chain that comes back meets nothing new from then on: the first
entity that it comes back to divides the way into the cycle from the cycle.
-/

namespace ApiModel

section Chains

variable {ι : Type} {base : ι → Option ι} {x y : ι}

/-! ## Chains -/

/-- What `k` steps by `base` lead to from `x`. -/
def chain (base : ι → Option ι) (x : ι) : (k : Nat) → Option ι
  | 0 => some x
  | k + 1 => (chain base x k).bind base

/-- However far the `chain` of `x` is followed, it goes on. -/
def Endless (base : ι → Option ι) (x : ι) : Prop :=
  ∀ k, (chain base x k).isSome

/-- The `chain` of `x` comes back to what it meets after `k` steps. -/
def Returns (base : ι → Option ι) (x : ι) (k : Nat) : Prop :=
  (chain base x k).isSome ∧ ∃ l, k < l ∧ chain base x l = chain base x k

/-- The chain of `x` runs into the cycle of `c` and `cs`, and `c` is the first thing on the chain
that the chain comes back to. -/
structure RunsInto (base : ι → Option ι) (x c : ι) (cs : List ι) : Prop where
  nodup : (c :: cs).Nodup
  closed : (c :: cs ++ [c]).IsChain fun a b => base a = some b
  first : ∃ k, chain base x k = some c ∧ Returns base x k ∧ ∀ l < k, ¬Returns base x l

theorem chain_add (base : ι → Option ι) (x : ι) (k l : Nat) :
    chain base x (k + l) = (chain base x k).bind (chain base · l) := by
  induction l with
  | zero => exact (Option.bind_fun_some (chain base x k)).symm
  | succ l ih =>
    rw [← Nat.add_assoc, chain, ih, Option.bind_assoc]
    rfl

theorem chain_succ (base : ι → Option ι) (x : ι) (k : Nat) :
    chain base x (k + 1) = (base x).bind (chain base · k) := by
  rw [Nat.add_comm, chain_add]
  rfl

/-- From equal places a `chain` goes on in the same way. -/
theorem chain_add_congr {i j : Nat} (h : chain base x i = chain base x j) (l : Nat) :
    chain base x (i + l) = chain base x (j + l) := by
  rw [chain_add, chain_add, h]

theorem isSome_chain_of_le {k l : Nat} (hkl : k ≤ l) (h : (chain base x l).isSome) :
    (chain base x k).isSome := by
  obtain ⟨d, rfl⟩ := Nat.exists_eq_add_of_le hkl
  rw [chain_add] at h
  exact Option.isSome_of_isSome_bind h

/-- While a chain meets nothing twice, it leaves behind as many entities as it takes steps, and all
of them have a `base`. -/
theorem le_of_distinct {bound k : Nat} (hb : BasesWithin base bound)
    (hsome : (chain base x k).isSome)
    (hne : ∀ i j, i < j → j < k → chain base x i ≠ chain base x j) : k ≤ bound := by
  let met := (List.range k).filterMap (chain base x)
  have hmet : met.map some = (List.range k).map (chain base x) := by
    rw [List.map_filterMap_some_eq_filter_map_isSome, List.filter_eq_self]
    intro o ho
    obtain ⟨i, hi, rfl⟩ := List.mem_map.mp ho
    exact isSome_chain_of_le (Nat.le_of_lt (List.mem_range.mp hi)) hsome
  have hnodup : met.Nodup := by
    refine List.Nodup.of_map some (hmet ▸ List.Nodup.map_on (fun i hi j hj hij => ?_)
      List.nodup_range)
    rcases Nat.lt_trichotomy i j with h | h | h
    · exact absurd hij (hne i j h (List.mem_range.mp hj))
    · exact h
    · exact absurd hij.symm (hne j i h (List.mem_range.mp hi))
  have hbased : ∀ y ∈ met, (base y).isSome := by
    intro y hy
    obtain ⟨i, hi, hiy⟩ := List.mem_filterMap.mp hy
    have hnext : (chain base x (i + 1)).isSome :=
      isSome_chain_of_le (List.mem_range.mp hi) hsome
    rwa [chain, hiy] at hnext
  have hlength : met.length = k := by
    rw [← List.length_map (f := some), hmet, List.length_map, List.length_range]
  exact hlength ▸ hb met hnodup hbased

/-- What a `chain` reaches, it reaches within the `bound`. -/
theorem exists_le_bound {bound k : Nat} (hb : BasesWithin base bound)
    (h : chain base x k = some y) : ∃ l ≤ bound, chain base x l = some y := by
  induction k using Nat.strong_induction_on with
  | h k ih =>
    by_cases hd : ∃ i j, i < j ∧ j < k ∧ chain base x i = chain base x j
    · -- A detour from `j` back to `i` is left out.
      obtain ⟨i, j, hij, hjk, heq⟩ := hd
      obtain ⟨d, rfl⟩ := Nat.exists_eq_add_of_lt hjk
      refine ih (i + (d + 1)) (by omega) ?_
      rw [chain_add_congr heq, ← h, Nat.add_assoc]
    · refine ⟨k, le_of_distinct hb (by rw [h]; rfl) fun i j hij hjk heq => ?_, h⟩
      exact hd ⟨i, j, hij, hjk, heq⟩

/-! ## Chains that come back -/

/-- Once a chain has come back, from step `q` to step `p`, it meets nothing new. -/
theorem exists_lt_of_returns {p q : Nat} (hpq : p < q) (h : chain base x q = chain base x p)
    {l : Nat} (hl : p ≤ l) : ∃ k, p ≤ k ∧ k < q ∧ chain base x l = chain base x k := by
  induction l using Nat.strong_induction_on with
  | h l ih =>
    rcases Nat.lt_or_ge l q with hlq | hql
    · exact ⟨l, hl, hlq, rfl⟩
    · obtain ⟨d, rfl⟩ := Nat.exists_eq_add_of_le hql
      obtain ⟨k, hpk, hkq, hk⟩ := ih (p + d) (by omega) (by omega)
      exact ⟨k, hpk, hkq, (chain_add_congr h d).trans hk⟩

theorem exists_chain_eq_none {fuel k : Nat} (h : ChainEnds base fuel (chain base x k)) :
    ∃ l, chain base x l = none := by
  induction fuel generalizing k with
  | zero =>
    rcases hk : chain base x k with _ | y
    · exact ⟨k, hk⟩
    · rw [hk] at h
      exact h.elim
  | succ fuel ih =>
    rcases hk : chain base x k with _ | y
    · exact ⟨k, hk⟩
    · refine ih (k := k + 1) ?_
      rw [hk] at h
      rw [chain, hk]
      exact h

theorem Returns.endless {k : Nat} (h : Returns base x k) : Endless base x := by
  obtain ⟨hsome, q, hkq, hq⟩ := h
  intro l
  rcases Nat.le_total k l with hkl | hlk
  · obtain ⟨j, -, hjq, hj⟩ := exists_lt_of_returns hkq hq hkl
    rw [hj]
    exact isSome_chain_of_le (Nat.le_of_lt hjq) (hq ▸ hsome)
  · exact isSome_chain_of_le hlk hsome

theorem RunsInto.endless {c : ι} {cs : List ι} (h : RunsInto base x c cs) : Endless base x := by
  obtain ⟨k, -, hk, -⟩ := h.first
  exact hk.endless

/-! ## The search for a cycle -/

/-- The chain of `x` has come through `seen` without meeting anything twice, and `current` is
next. -/
structure Walk (base : ι → Option ι) (x : ι) (seen : List ι) (current : Option ι) : Prop where
  nodup : seen.Nodup
  visited : ∀ i < seen.length, seen[i]? = chain base x i
  current : current = chain base x seen.length

theorem Walk.start (base : ι → Option ι) (x : ι) : Walk base x [x] (base x) where
  nodup := List.nodup_singleton x
  visited i hi := by
    obtain rfl : i = 0 := by simpa using hi
    rfl
  current := rfl

theorem Walk.visited_next {seen : List ι} {next : ι} (h : Walk base x seen (some next)) :
    ∀ i < (seen ++ [next]).length, (seen ++ [next])[i]? = chain base x i := by
  intro i hi
  rw [List.length_append, List.length_singleton] at hi
  rcases Nat.lt_succ_iff_lt_or_eq.mp hi with hlt | rfl
  · rw [List.getElem?_append_left hlt, h.visited i hlt]
  · rw [List.getElem?_concat_length, h.current]

theorem Walk.next {seen : List ι} {next : ι} (h : Walk base x seen (some next))
    (hn : next ∉ seen) : Walk base x (seen ++ [next]) (base next) where
  nodup := by
    rw [← List.concat_eq_append]
    exact h.nodup.concat hn
  visited := h.visited_next
  current := by
    rw [List.length_append, List.length_singleton, chain, ← h.current]
    rfl

theorem isChain_of_visited {xs : List ι} (h : ∀ i < xs.length, xs[i]? = chain base x i) :
    xs.IsChain fun a b => base a = some b := by
  rw [List.isChain_iff_getElem]
  intro i hi
  have hnext := h (i + 1) hi
  rw [chain, ← h i (Nat.lt_of_succ_lt hi), List.getElem?_eq_getElem hi,
    List.getElem?_eq_getElem (Nat.lt_of_succ_lt hi)] at hnext
  exact hnext.symm

/-- A chain that comes back to `next` for the first time runs into the cycle that starts there. -/
theorem Walk.runsInto {pre cs : List ι} {next : ι}
    (h : Walk base x (pre ++ next :: cs) (some next)) : RunsInto base x next cs := by
  have hlt : pre.length < (pre ++ next :: cs).length := by simp
  have hat : chain base x pre.length = some next := by
    rw [← h.visited _ hlt, List.getElem?_append_right (Nat.le_refl _), Nat.sub_self]
    rfl
  have hback : chain base x (pre ++ next :: cs).length = chain base x pre.length :=
    h.current.symm.trans hat.symm
  refine ⟨h.nodup.sublist (List.sublist_append_right _ _), ?_, pre.length, hat,
    ⟨by rw [hat]; rfl, _, hlt, hback⟩, ?_⟩
  · have hchain := isChain_of_visited h.visited_next
    rw [List.append_assoc] at hchain
    exact hchain.right_of_append
  · -- What lies before the cycle is met once, since the chain never leaves the cycle.
    rintro k hk ⟨-, l, hkl, heq⟩
    obtain ⟨j, hkj, hj, hjk⟩ : ∃ j, k < j ∧ j < (pre ++ next :: cs).length ∧
        chain base x j = chain base x k := by
      rcases Nat.lt_or_ge l pre.length with hlp | hpl
      · exact ⟨l, hkl, Nat.lt_trans hlp hlt, heq⟩
      · obtain ⟨j, hpj, hj, hlj⟩ := exists_lt_of_returns hlt hback hpl
        exact ⟨j, Nat.lt_of_lt_of_le hk hpj, hj, hlj.symm.trans heq⟩
    rw [← h.visited j hj, ← h.visited k (Nat.lt_trans hkj hj),
      List.getElem?_inj hj h.nodup] at hjk
    omega

variable [DecidableEq ι]

/-- Where `findCycle` finds a cycle, the chain `RunsInto` it. -/
theorem Walk.of_findCycle {fuel : Nat} {seen : List ι} {current : Option ι}
    (h : Walk base x seen current) {ids : List ι}
    (hids : findCycle base fuel seen current = some ids) :
    ∃ c cs, ids = c :: cs ++ [c] ∧ RunsInto base x c cs := by
  induction fuel generalizing seen current with
  | zero => cases current <;> cases hids
  | succ fuel ih =>
    cases current with
    | none => cases hids
    | some next =>
      rw [findCycle] at hids
      split at hids
      · rename_i hmem
        obtain ⟨pre, cs, rfl, hpre⟩ := List.eq_append_cons_of_mem hmem
        have hdrop : (pre ++ next :: cs).dropWhile (· ≠ next) = next :: cs := by
          rw [List.dropWhile_append_of_pos, List.dropWhile_cons_of_neg (by simp)]
          intro a ha
          exact decide_eq_true fun he => hpre (he ▸ ha)
        rw [hdrop] at hids
        exact ⟨next, cs, (Option.some.inj hids).symm, h.runsInto⟩
      · rename_i hn
        exact ih (h.next hn) hids

/-- `findCycle` finds nothing just if the chain comes to an end. -/
theorem findCycle_eq_none_iff {bound : Nat} (hb : BasesWithin base bound) (x : ι) :
    findCycle base (bound + 1) [x] (base x) = none ↔ ¬Endless base x := by
  constructor
  · intro h hendless
    obtain ⟨l, hl⟩ := exists_chain_eq_none (k := 1)
      (chainEnds_of_findCycle hb (.start (Nat.le_succ bound) x) h)
    have hsome := hendless l
    rw [hl] at hsome
    cases hsome
  · intro h
    rcases hids : findCycle base (bound + 1) [x] (base x) with _ | ids
    · rfl
    · obtain ⟨c, cs, -, hc⟩ := (Walk.start base x).of_findCycle hids
      exact absurd hc.endless h

/-- `findCycle` with nothing to bound it: a search that has come through `seen` goes on at `current`
and ends with the `result`. It is stuck at what isn't `there`. -/
inductive Search (base : ι → Option ι) (there : ι → Prop) :
    (seen : List ι) → (current : Option ι) → (result : Option (List ι)) → Prop
  | ended {seen : List ι} : Search base there seen none none
  | closed {seen : List ι} {next : ι} (hmem : next ∈ seen) :
      Search base there seen (some next) (some (seen.dropWhile (· ≠ next) ++ [next]))
  | further {seen : List ι} {next : ι} {result : Option (List ι)} (hn : next ∉ seen)
      (hthere : there next) (hrest : Search base there (seen ++ [next]) (base next) result) :
      Search base there seen (some next) result

/-- Without a bound the `Search` ends as well, and with the same result as `findCycle`. -/
theorem search_findCycle {there : ι → Prop} {bound : Nat} (hb : BasesWithin base bound)
    (hthere : ∀ a b, base a = some b → there b) {fuel : Nat} {seen : List ι} {current : Option ι}
    (h : Tracks base bound fuel seen current) (hc : ∀ next, current = some next → there next) :
    Search base there seen current (findCycle base fuel seen current) := by
  induction fuel generalizing seen current with
  | zero =>
    cases current with
    | none => exact .ended
    | some next => exact absurd rfl (h.fuel_ne_zero hb)
  | succ fuel ih =>
    cases current with
    | none => exact .ended
    | some next =>
      rw [findCycle]
      split
      · rename_i hmem
        exact .closed hmem
      · rename_i hn
        exact .further hn (hc next rfl) (ih (h.next hn) (hthere next))

end Chains

/-! ## Ancestors -/

namespace Model

variable {m : Model}

theorem meets_iff {ancestor : TypeId} {fuel : Nat} {current : Option TypeId} :
    m.meets ancestor fuel current = true ↔
      ∃ k ≤ fuel, current.bind (chain m.structBase? · k) = some ancestor := by
  induction fuel generalizing current with
  | zero =>
    cases current with
    | none => simp [meets]
    | some b => simp [meets, chain]
  | succ fuel ih =>
    cases current with
    | none => simp [meets]
    | some b =>
      rw [meets, Bool.or_eq_true, ih, decide_eq_true_eq]
      simp only [Option.bind_some, ← chain_succ]
      constructor
      · rintro (rfl | ⟨k, hk, h⟩)
        · exact ⟨0, Nat.zero_le _, rfl⟩
        · exact ⟨k + 1, Nat.succ_le_succ hk, h⟩
      · rintro ⟨_ | k, hk, h⟩
        · exact .inl (Option.some.inj h)
        · exact .inr ⟨k, Nat.le_of_succ_le_succ hk, h⟩

/-- By `isExtension`, a type extends just what lies on the chain of its bases, whatever the shape of
the chain. -/
theorem isExtension_iff_chain (m : Model) (id ancestor : TypeId) :
    m.isExtension id ancestor = true ↔ ∃ k ≥ 1, chain m.structBase? id k = some ancestor := by
  rw [isExtension, meets_iff]
  constructor
  · rintro ⟨k, -, h⟩
    exact ⟨k + 1, Nat.succ_pos k, (chain_succ _ id k).trans h⟩
  · rintro ⟨_ | k, hk, h⟩
    · cases hk
    · rw [chain_succ] at h
      obtain ⟨b, hb, hk⟩ := Option.bind_eq_some_iff.mp h
      obtain ⟨l, hl, hchain⟩ := exists_le_bound m.basesWithin_structBase? hk
      exact ⟨l, hl, by rw [hb]; exact hchain⟩

/-! ## Inheritance cycles -/

/-- No base leads out of the model `m`. -/
structure BasesInRange (m : Model) : Prop where
  structs : ∀ {id base}, m.structBase? id = some base → (m.type? base).isSome
  services : ∀ {id base}, m.serviceBase? id = some base → (m.service? base).isSome

/-- The struct `id` is registered as `n`. -/
def RegistersStruct (m : Model) (n : Name) (id : TypeId) : Prop :=
  m.findType? n = some id ∧ ∃ s, m.type? id = some (.struct s)

/-- The service `id` is registered as `n`, and is defined. -/
def RegistersService (m : Model) (n : Name) (id : ServiceId) : Prop :=
  m.findService? n = some id ∧ ∃ s, m.service? id = some (.defined s)

def typeName? (m : Model) (id : TypeId) : Option Name :=
  (m.type? id).map (·.name)

def serviceName? (m : Model) (id : ServiceId) : Option Name :=
  (m.service? id).map (·.name)

theorem Linked.basesInRange (h : m.Linked) : m.BasesInRange where
  structs {id b} hb := h.types (show m.typeAt? (.base id) = some b from hb)
  services {id b} hb := h.services (show m.serviceAt? (.base id) = some b from hb)

end Model

/-- Of all that is registered, `id` comes first by name among what has an `Endless` chain. -/
structure FirstEndless {ι : Type} (registers : Name → ι → Prop) (base : ι → Option ι) (n : Name)
    (id : ι) : Prop where
  registered : registers n id
  endless : Endless base id
  least : ∀ n' id', registers n' id' → Endless base id' → (compare n n').isLE

/-- The `names` are those along a cycle that the chain of `x` runs into. -/
def SpellsCycle {ι : Type} (base : ι → Option ι) (name? : ι → Option Name) (x : ι)
    (names : List Name) : Prop :=
  ∃ c cs, RunsInto base x c cs ∧ names.map some = (c :: cs ++ [c]).map name?

theorem NameMap.findSome?_values_eq_some {α β : Type} {map : NameMap α} {f : α → Option β} {b : β}
    (h : map.values.findSome? f = some b) : ∃ n a, map[n]? = some a ∧ f a = some b ∧
      ∀ (n' : Name) (a' : α), map[n']? = some a' → (f a').isSome → (compare n n').isLE := by
  rw [values_eq, List.findSome?_map] at h
  obtain ⟨before, ⟨n, a⟩, after, hsplit, hb, hbefore⟩ := List.findSome?_eq_some_iff.mp h
  have hmem : ∀ {n' a'}, map[n']? = some a' ↔ (n', a') ∈ before ++ (n, a) :: after := by
    intro n' a'
    rw [← hsplit]
    exact Std.TreeMap.mem_toList_iff_getElem?_eq_some.symm
  refine ⟨n, a, hmem.mpr (by simp), hb, fun n' a' hn' hsome => ?_⟩
  rcases List.mem_append.mp (hmem.mp hn') with hin | hin
  · have hnone : f a' = none := hbefore _ hin
    rw [hnone] at hsome
    cases hsome
  · rcases List.mem_cons.mp hin with heq | hin
    · obtain ⟨rfl, -⟩ := Prod.mk.inj heq
      exact Std.ReflCmp.isLE_rfl
    · have hordered := map.ordered_keys_toList
      rw [hsplit, List.pairwise_append, List.pairwise_cons] at hordered
      rw [hordered.2.1.1 _ hin]
      rfl

/-- The names that `findCycle` reports are those of the cycle. -/
theorem spellsCycle_of_findCycle {ι α : Type} [DecidableEq ι] {base : ι → Option ι} {fuel : Nat}
    {x : ι} {ids : List ι} (h : findCycle base fuel [x] (base x) = some ids)
    {find : ι → Option α} (hfind : ∀ a, (base a).isSome → (find a).isSome) (name : α → Name) :
    SpellsCycle base (fun id => (find id).map name) x ((ids.filterMap find).map name) := by
  obtain ⟨c, cs, rfl, hc⟩ := (Walk.start base x).of_findCycle h
  have hbased : ∀ a ∈ c :: cs, (base a).isSome := by
    intro a ha
    obtain ⟨i, hi, rfl⟩ := List.mem_iff_getElem.mp ha
    have hnext := List.isChain_iff_getElem.mp hc.closed i (by simpa using hi)
    rw [List.getElem_append_left hi] at hnext
    exact Option.isSome_iff_exists.mpr ⟨_, hnext⟩
  refine ⟨c, cs, hc, ?_⟩
  rw [List.map_filterMap, List.map_filterMap_some_eq_filter_map_isSome, List.filter_eq_self]
  intro o ho
  obtain ⟨a, ha, rfl⟩ := List.mem_map.mp ho
  rw [Option.isSome_map]
  refine hfind a (hbased a ?_)
  rcases List.mem_append.mp ha with ha | ha
  · exact ha
  · exact List.mem_singleton.mp ha ▸ List.mem_cons_self

namespace Model

variable {m : Model}

theorem isSome_type?_of_structBase? {id : TypeId} (h : (m.structBase? id).isSome) :
    (m.type? id).isSome :=
  Option.isSome_of_isSome_bind (Option.isSome_of_isSome_bind h)

theorem isSome_service?_of_serviceBase? {id : ServiceId} (h : (m.serviceBase? id).isSome) :
    (m.service? id).isSome :=
  Option.isSome_of_isSome_bind (Option.isSome_of_isSome_bind h)

theorem typeCycle?_eq_none_iff {id : TypeId} :
    m.typeCycle? id = none ↔ ¬Endless m.structBase? id := by
  rw [typeCycle?, Option.map_eq_none_iff, findCycle_eq_none_iff m.basesWithin_structBase?]

theorem serviceCycle?_eq_none_iff {id : ServiceId} :
    m.serviceCycle? id = none ↔ ¬Endless m.serviceBase? id := by
  rw [serviceCycle?, Option.map_eq_none_iff, findCycle_eq_none_iff m.basesWithin_serviceBase?]

theorem spellsCycle_of_typeCycle? {id : TypeId} {cycle : InheritanceCycle}
    (h : m.typeCycle? id = some cycle) :
    cycle.kind = .type ∧ SpellsCycle m.structBase? m.typeName? id cycle.path := by
  obtain ⟨ids, hids, rfl⟩ := Option.map_eq_some_iff.mp h
  exact ⟨rfl, spellsCycle_of_findCycle hids (fun _ => isSome_type?_of_structBase?) _⟩

theorem spellsCycle_of_serviceCycle? {id : ServiceId} {cycle : InheritanceCycle}
    (h : m.serviceCycle? id = some cycle) :
    cycle.kind = .service ∧ SpellsCycle m.serviceBase? m.serviceName? id cycle.path := by
  obtain ⟨ids, hids, rfl⟩ := Option.map_eq_some_iff.mp h
  exact ⟨rfl, spellsCycle_of_findCycle hids (fun _ => isSome_service?_of_serviceBase?) _⟩

theorem registersStruct_of_endless {n : Name} {id : TypeId} (hn : m.findType? n = some id)
    (h : Endless m.structBase? id) : m.RegistersStruct n id := by
  have hbase : (m.structBase? id).isSome := h 1
  obtain ⟨s, hs⟩ := Option.isSome_iff_exists.mp (Option.isSome_of_isSome_bind hbase)
  exact ⟨hn, s, struct?_eq_some.mp hs⟩

theorem registersService_of_endless {n : Name} {id : ServiceId} (hn : m.findService? n = some id)
    (h : Endless m.serviceBase? id) : m.RegistersService n id := by
  have hbase : (m.serviceBase? id).isSome := h 1
  obtain ⟨s, hs⟩ := Option.isSome_iff_exists.mp (Option.isSome_of_isSome_bind hbase)
  exact ⟨hn, s, definedService?_eq_some.mp hs⟩

/-- What isn't among `structs` may be looked at as well: it has no base, and `typeCycle?` finds
nothing. -/
theorem findSome?_structs (m : Model) : (m.structs.findSome? fun (id, _) => m.typeCycle? id) =
    m.typeIndex.values.findSome? m.typeCycle? := by
  rw [structs, registeredTypes, ← List.head?_filterMap, ← List.head?_filterMap,
    List.filterMap_filterMap, List.filterMap_filterMap]
  congr 2
  funext id
  rcases hs : m.struct? id with _ | s
  · rw [typeCycle?, structBase?, show (m.type? id).bind DataType.struct? = none from hs]
    rcases ht : m.type? id with _ | t
    · rfl
    · rw [struct?, ht] at hs
      simp [show t.struct? = none from hs, findCycle_none]
  · rw [struct?_eq_some.mp hs]
    rfl

theorem findSome?_registeredServices (m : Model) :
    (m.registeredServices.findSome? fun (id, _) => m.serviceCycle? id) =
      m.serviceIndex.values.findSome? m.serviceCycle? := by
  rw [registeredServices, ← List.head?_filterMap, ← List.head?_filterMap,
    List.filterMap_filterMap]
  congr 2
  funext id
  rcases hs : m.definedService? id with _ | s
  · rw [serviceCycle?, serviceBase?, hs]
    simp [findCycle_none]
  · rfl

end Model

/-! ## The check -/

section FirstEndless

variable {ι α : Type} {base : ι → Option ι} {map : NameMap ι} {registers : Name → ι → Prop}
  {cycle? : ι → Option α} (hcycle : ∀ id, cycle? id = none ↔ ¬Endless base id)
  (hregistered : ∀ {n id}, registers n id → map[n]? = some id)
  (hregisters : ∀ {n id}, map[n]? = some id → Endless base id → registers n id)

include hcycle hregistered hregisters

theorem findSome?_values_eq_none_iff : map.values.findSome? cycle? = none ↔
    ∀ n id, registers n id → ¬Endless base id := by
  rw [List.findSome?_eq_none_iff]
  constructor
  · intro h n id hn
    exact (hcycle id).mp (h id (NameMap.mem_values.mpr ⟨n, hregistered hn⟩))
  · intro h id hid
    obtain ⟨n, hn⟩ := NameMap.mem_values.mp hid
    exact (hcycle id).mpr fun hendless => h n id (hregisters hn hendless) hendless

theorem firstEndless_of_findSome? {cycle : α} (h : map.values.findSome? cycle? = some cycle) :
    ∃ n id, FirstEndless registers base n id ∧ cycle? id = some cycle := by
  have hsome : ∀ {id}, Endless base id ↔ (cycle? id).isSome := fun {id} => by
    rw [← not_iff_not, ← hcycle id, Bool.not_eq_true, Option.isSome_eq_false_iff,
      Option.isNone_iff_eq_none]
  obtain ⟨n, id, hn, hid, hleast⟩ := NameMap.findSome?_values_eq_some h
  have hendless : Endless base id := hsome.mpr (by rw [hid]; rfl)
  exact ⟨n, id, ⟨hregisters hn hendless, hendless,
    fun n' id' hn' hid' => hleast n' id' (hregistered hn') (hsome.mp hid')⟩, hid⟩

end FirstEndless

namespace Model

variable {m : Model}

theorem findSome?_structs_eq_none_iff :
    (m.structs.findSome? fun (id, _) => m.typeCycle? id) = none ↔
      ∀ n id, m.RegistersStruct n id → ¬Endless m.structBase? id := by
  rw [findSome?_structs]
  exact findSome?_values_eq_none_iff (fun _ => typeCycle?_eq_none_iff) (·.1)
    registersStruct_of_endless

theorem findSome?_registeredServices_eq_none_iff :
    (m.registeredServices.findSome? fun (id, _) => m.serviceCycle? id) = none ↔
      ∀ n id, m.RegistersService n id → ¬Endless m.serviceBase? id := by
  rw [findSome?_registeredServices]
  exact findSome?_values_eq_none_iff (fun _ => serviceCycle?_eq_none_iff) (·.1)
    registersService_of_endless

/-- Inheritance is checked exactly. Every `Search` for a cycle ends and looks up only what is there.
`inheritanceCycle?` reports nothing just if all chains of registered structs and services end.
Otherwise the report is about the first of them by name whose chain doesn't, structs before
services, and names the cycle that its chain runs into. -/
theorem inheritance_check_exact (m : Model) (hm : m.BasesInRange) :
    (∀ n id, m.RegistersStruct n id → ∃ ids,
      Search m.structBase? (fun id => (m.type? id).isSome) [id] (m.structBase? id) ids ∧
        m.typeCycle? id = ids.map fun ids => ⟨.type, (ids.filterMap m.type?).map (·.name)⟩) ∧
    (∀ n id, m.RegistersService n id → ∃ ids,
      Search m.serviceBase? (fun id => (m.service? id).isSome) [id] (m.serviceBase? id) ids ∧
        m.serviceCycle? id =
          ids.map fun ids => ⟨.service, (ids.filterMap m.service?).map (·.name)⟩) ∧
    (m.inheritanceCycle? = none ↔
      (∀ n id, m.RegistersStruct n id → ¬Endless m.structBase? id) ∧
        ∀ n id, m.RegistersService n id → ¬Endless m.serviceBase? id) ∧
    ∀ cycle, m.inheritanceCycle? = some cycle →
      (cycle.kind = .type ∧ ∃ n id, FirstEndless m.RegistersStruct m.structBase? n id ∧
        SpellsCycle m.structBase? m.typeName? id cycle.path) ∨
      (cycle.kind = .service ∧ (∀ n id, m.RegistersStruct n id → ¬Endless m.structBase? id) ∧
        ∃ n id, FirstEndless m.RegistersService m.serviceBase? n id ∧
          SpellsCycle m.serviceBase? m.serviceName? id cycle.path) := by
  refine ⟨fun n id _ => ⟨_, ?_, rfl⟩, fun n id _ => ⟨_, ?_, rfl⟩, ?_, fun cycle h => ?_⟩
  · exact search_findCycle m.basesWithin_structBase? (fun _ _ => hm.structs)
      (.start (Nat.le_succ _) id) fun _ => hm.structs
  · exact search_findCycle m.basesWithin_serviceBase? (fun _ _ => hm.services)
      (.start (Nat.le_succ _) id) fun _ => hm.services
  · rw [inheritanceCycle?, Option.or_eq_none_iff, findSome?_structs_eq_none_iff,
      findSome?_registeredServices_eq_none_iff]
  · rcases Option.or_eq_some_iff.mp h with htype | ⟨hnone, hservice⟩
    · rw [findSome?_structs] at htype
      obtain ⟨n, id, hfirst, hid⟩ := firstEndless_of_findSome?
        (fun _ => typeCycle?_eq_none_iff) (·.1) registersStruct_of_endless htype
      obtain ⟨hkind, hpath⟩ := spellsCycle_of_typeCycle? hid
      exact .inl ⟨hkind, n, id, hfirst, hpath⟩
    · rw [findSome?_registeredServices] at hservice
      obtain ⟨n, id, hfirst, hid⟩ := firstEndless_of_findSome?
        (fun _ => serviceCycle?_eq_none_iff) (·.1) registersService_of_endless hservice
      obtain ⟨hkind, hpath⟩ := spellsCycle_of_serviceCycle? hid
      exact .inr ⟨hkind, findSome?_structs_eq_none_iff.mp hnone, n, id, hfirst, hpath⟩

/-- A struct whose chain runs into a cycle that it isn't part of. -/
def loopDeclarations : List Declaration := [
  .type { name := "Mirror", space := "types", body := .struct (.class "Loop") [] },
  .type { name := "Entry", space := "types", body := .struct (.class "Loop") [] },
  .type { name := "Loop", space := "types", body := .struct (.class "Mirror") [] },
  .type { name := "Dangling", space := "types", body := .struct (.class "Nothing") [] }]

theorem inheritance_check_exact_loop :
    (finishedModel loopDeclarations).inheritanceCycle? =
        some ⟨.type, [Name.ofCase "Loop", Name.ofCase "Mirror", Name.ofCase "Loop"]⟩ ∧
      ∃ n id, FirstEndless (finishedModel loopDeclarations).RegistersStruct
          (finishedModel loopDeclarations).structBase? n id ∧
        SpellsCycle (finishedModel loopDeclarations).structBase?
          (finishedModel loopDeclarations).typeName? id
          [Name.ofCase "Loop", Name.ofCase "Mirror", Name.ofCase "Loop"] := by
  have hcycle : (finishedModel loopDeclarations).inheritanceCycle? =
      some ⟨.type, [Name.ofCase "Loop", Name.ofCase "Mirror", Name.ofCase "Loop"]⟩ := by
    decide +kernel
  have hrange := (Draft.consistent_settled loopDeclarations (.refl _)).linked.basesInRange
  refine ⟨hcycle, ?_⟩
  rcases (inheritance_check_exact _ hrange).2.2.2 _ hcycle with h | ⟨hkind, -⟩
  · exact h.2
  · cases hkind

end Model

end ApiModel
