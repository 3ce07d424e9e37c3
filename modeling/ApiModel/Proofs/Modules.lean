import ApiModel.Proofs.Finished

/-!
# Modules and their members

A module lists the types and services registered in it. `Housed` says that it
lists exactly those that name it as their module, each of them once, and that a
name leads to the one module called so. Every declaration keeps this, and so
does settling.
-/

namespace ApiModel

/-! ## Listings -/

/-- Modules list, as `members`, exactly the `registered` entities that have them as their `home`,
once each. -/
structure Listing {ι : Type} (members : ModuleId → Option (List ι)) (registered : Set ι)
    (home : ι → Option ModuleId) : Prop where
  mem : ∀ {k xs}, members k = some xs → ∀ id, id ∈ xs ↔ id ∈ registered ∧ home id = some k
  isSome : ∀ {id k}, id ∈ registered → home id = some k → (members k).isSome
  nodup : ∀ {k xs}, members k = some xs → xs.Nodup

namespace Listing

variable {ι : Type} {members members' : ModuleId → Option (List ι)} {registered registered' : Set ι}
  {home home' : ι → Option ModuleId}

theorem congr (h : Listing members registered home) (hm : ∀ k, members' k = members k)
    (hr : registered' = registered) (hh : ∀ id ∈ registered, home' id = home id) :
    Listing members' registered' home' := by
  subst hr
  refine ⟨fun hk id => ?_, fun hid hk => ?_, fun hk => ?_⟩
  · rw [h.mem ((hm _).symm.trans hk) id]
    exact and_congr_right fun hid => by rw [hh id hid]
  · rw [hm]
    exact h.isSome hid ((hh _ hid).symm.trans hk)
  · exact h.nodup ((hm _).symm.trans hk)

/-- A new module `k₀` lists nothing, as nothing has a home that isn't there. -/
theorem push (h : Listing members registered home) {k₀ : ModuleId} (hk₀ : members k₀ = none)
    (hm : ∀ k, members' k = if k = k₀ then some [] else members k) :
    Listing members' registered home := by
  have hne : ∀ {id k}, id ∈ registered → home id = some k → k ≠ k₀ := by
    rintro id _ hid hk rfl
    have hsome := h.isSome hid hk
    rw [hk₀] at hsome
    cases hsome
  refine ⟨fun {k xs} hk id => ?_, fun hid hk => ?_, fun {k xs} hk => ?_⟩
  · rw [hm] at hk
    split at hk
    · obtain rfl := Option.some.inj hk
      exact iff_of_false List.not_mem_nil fun ⟨hid, hh⟩ => hne hid hh ‹_›
    · exact h.mem hk id
  · rw [hm, if_neg (hne hid hk)]
    exact h.isSome hid hk
  · rw [hm] at hk
    split at hk
    · exact Option.some.inj hk ▸ List.nodup_nil
    · exact h.nodup hk

/-- One more entity `x`, listed in its `home`. -/
theorem add (h : Listing members registered home) {x : ι} (hnew : x ∉ registered)
    (hx : ∀ k, home x = some k → (members k).isSome)
    (hm : ∀ k, members' k =
      if home x = some k then (members k).map (· ++ [x]) else members k)
    (hr : ∀ id, id ∈ registered' ↔ id = x ∨ id ∈ registered) (hh : ∀ id, home' id = home id) :
    Listing members' registered' home' := by
  refine ⟨fun {k xs} hk id => ?_, fun {id k} hid hk => ?_, fun {k xs} hk => ?_⟩
  · rw [hr, hh, or_and_right]
    rw [hm] at hk
    split at hk
    · obtain ⟨ys, hys, rfl⟩ := Option.map_eq_some_iff.mp hk
      rw [List.mem_append, List.mem_singleton, h.mem hys id, or_comm]
      exact or_congr_left (iff_self_and.mpr fun he => he ▸ ‹_›)
    · rename_i hne
      rw [h.mem hk id]
      exact (or_iff_right fun ⟨he, hh⟩ => hne (he ▸ hh)).symm
  · rw [hh] at hk
    have hsome : (members k).isSome := by
      rcases (hr id).mp hid with rfl | hid
      · exact hx k hk
      · exact h.isSome hid hk
    rw [hm]
    split
    · rwa [Option.isSome_map]
    · exact hsome
  · rw [hm] at hk
    split at hk
    · obtain ⟨ys, hys, rfl⟩ := Option.map_eq_some_iff.mp hk
      refine List.nodup_append.mpr ⟨h.nodup hys, by simp, fun y hy z hz => ?_⟩
      rintro rfl
      exact hnew (List.mem_singleton.mp hz ▸ ((h.mem hys y).mp hy).1)
    · exact h.nodup hk

end Listing

/-! ## Modules of a model -/

namespace Model

variable {m m' : Model}

def moduleTypes? (m : Model) (k : ModuleId) : Option (List TypeId) :=
  (m.module? k).map (·.types)

def moduleServices? (m : Model) (k : ModuleId) : Option (List ServiceId) :=
  (m.module? k).map (·.services)

/-- The registered types of `m`. -/
def typeIds (m : Model) : Set TypeId :=
  {id | ∃ n, m.findType? n = some id}

def serviceIds (m : Model) : Set ServiceId :=
  {id | ∃ n, m.findService? n = some id}

def typeModule? (m : Model) (id : TypeId) : Option ModuleId :=
  (m.type? id).bind (·.module?)

def serviceModule? (m : Model) (id : ServiceId) : Option ModuleId :=
  (m.definedService? id).bind (·.module)

structure Housed (m : Model) : Prop where
  named : ∀ {k n}, m.moduleName? k = some n → m.findModule? n = some k
  types : Listing m.moduleTypes? m.typeIds m.typeModule?
  services : Listing m.moduleServices? m.serviceIds m.serviceModule?

theorem typeModule?_congr {id : TypeId} (h : m'.type? id = m.type? id) :
    m'.typeModule? id = m.typeModule? id := by
  rw [typeModule?, typeModule?, h]

theorem serviceModule?_congr {id : ServiceId} (h : m'.service? id = m.service? id) :
    m'.serviceModule? id = m.serviceModule? id := by
  rw [serviceModule?, serviceModule?, definedService?, definedService?, h]

/-- For `Housed`, nothing but the indexes, the modules and the homes of registered entities
counts. -/
theorem Housed.congr (h : m.Housed) (hmodules : m'.modules = m.modules)
    (hindex : m'.moduleIndex = m.moduleIndex) (htypes : m'.typeIndex = m.typeIndex)
    (hservices : m'.serviceIndex = m.serviceIndex)
    (htype : ∀ id ∈ m.typeIds, m'.typeModule? id = m.typeModule? id)
    (hservice : ∀ id ∈ m.serviceIds, m'.serviceModule? id = m.serviceModule? id) :
    m'.Housed where
  named hk := by
    rw [findModule?, hindex]
    rw [moduleName?, module?, hmodules] at hk
    exact h.named hk
  types := h.types.congr (fun k => by rw [moduleTypes?, moduleTypes?, module?, module?, hmodules])
    (by simp only [typeIds, findType?, htypes]) htype
  services := h.services.congr
    (fun k => by rw [moduleServices?, moduleServices?, module?, module?, hmodules])
    (by simp only [serviceIds, findService?, hservices]) hservice

theorem Housed.settled (h : m.Housed) : m.settled.Housed := by
  refine h.congr rfl rfl rfl rfl (fun id _ => ?_) fun id _ => ?_
  · rw [typeModule?, typeModule?, type?_settled]
    rcases m.type? id with _ | t
    · rfl
    · cases t <;> rfl
  · rw [serviceModule?, serviceModule?, definedService?, definedService?, service?_settled]
    rcases m.service? id with _ | s
    · rfl
    · cases s <;> rfl

theorem Housed.setTypes (h : m.Housed) {types : Array DataType}
    (ht : ∀ id ∈ m.typeIds, ({ m with types } : Model).type? id = m.type? id) :
    ({ m with types } : Model).Housed :=
  h.congr rfl rfl rfl rfl (fun id hid => typeModule?_congr (ht id hid)) fun _ _ => rfl

theorem Housed.setServices (h : m.Housed) {services : Array Service}
    (hs : ∀ id ∈ m.serviceIds, ({ m with services } : Model).service? id = m.service? id) :
    ({ m with services } : Model).Housed :=
  h.congr rfl rfl rfl rfl (fun _ _ => rfl) fun id hid => serviceModule?_congr (hs id hid)

/-! ## Interning a module -/

theorem module?_pushModule (n : Name) (k : ModuleId) : (m.pushModule n).2.module? k =
    if k = ⟨m.modules.size⟩ then some { name := n } else m.module? k := by
  simp only [pushModule, module?, Array.getElem?_push, ModuleId.eq_iff]

theorem module?_size (m : Model) : m.module? ⟨m.modules.size⟩ = none :=
  Array.getElem?_eq_none (Nat.le_refl _)

theorem Housed.internModule (h : m.Housed) (n : Name) : (m.internModule n).2.Housed := by
  rcases hn : m.findModule? n with _ | k
  · rw [internModule_new hn]
    exact
      { named := fun hk => (findModule?_pushModule hn).mpr
          ((moduleName?_pushModule.mp hk).imp (fun ⟨hk, hx⟩ => ⟨hx, hk⟩) h.named)
        types := h.types.push (congrArg _ m.module?_size) fun k => by
          rw [moduleTypes?, module?_pushModule]
          split <;> rfl
        services := h.services.push (congrArg _ m.module?_size) fun k => by
          rw [moduleServices?, module?_pushModule]
          split <;> rfl }
  · rw [internModule_known hn]
    exact h

theorem Housed.house (h : m.Housed) (space : String) : (m.house space).2.Housed := by
  rw [Model.house]
  split
  · exact h
  · exact h.internModule _

/-- The module that `house` gives for a namespace is there. -/
theorem isSome_module?_house (hi : m.Indexed) {space : String} {k : ModuleId}
    (h : (m.house space).1 = some k) : ((m.house space).2.module? k).isSome := by
  have hr := named_house hi space
  rw [h] at hr
  generalize spaceName? space = n? at hr
  cases hr with
  | some hn =>
    obtain ⟨x, hx, -⟩ := Option.map_eq_some_iff.mp hn
    rw [hx]
    rfl

/-! ## Registering in a module -/

theorem module?_enterType (id : TypeId) (module : Option ModuleId) (k : ModuleId) :
    (m.enterType id module).module? k = if module = some k then
      (m.module? k).map fun x => { x with types := x.types ++ [id] } else m.module? k := by
  cases module with
  | none => rfl
  | some module =>
    simp only [enterType, module?, Array.getElem?_modify, Option.some.injEq, ModuleId.eq_iff]

theorem module?_enterService (id : ServiceId) (module : Option ModuleId) (k : ModuleId) :
    (m.enterService id module).module? k = if module = some k then
      (m.module? k).map fun x => { x with services := x.services ++ [id] } else m.module? k := by
  cases module with
  | none => rfl
  | some module =>
    simp only [enterService, module?, Array.getElem?_modify, Option.some.injEq, ModuleId.eq_iff]

theorem moduleIndex_withType (m : Model) (n : Name) (id : TypeId) (module : Option ModuleId) :
    (m.withType n id module).moduleIndex = m.moduleIndex := by
  cases module <;> rfl

theorem moduleIndex_withService (m : Model) (n : Name) (id : ServiceId)
    (module : Option ModuleId) : (m.withService n id module).moduleIndex = m.moduleIndex := by
  cases module <;> rfl

theorem module?_withType (m : Model) (n : Name) (id : TypeId) (module : Option ModuleId)
    (k : ModuleId) : (m.withType n id module).module? k = if module = some k then
      (m.module? k).map fun x => { x with types := x.types ++ [id] } else m.module? k :=
  module?_enterType id module k

theorem module?_withService (m : Model) (n : Name) (id : ServiceId) (module : Option ModuleId)
    (k : ModuleId) : (m.withService n id module).module? k = if module = some k then
      (m.module? k).map fun x => { x with services := x.services ++ [id] } else m.module? k :=
  module?_enterService id module k

theorem Housed.withType (h : m.Housed) {n : Name} {id : TypeId} {module : Option ModuleId}
    (hfree : m.findType? n = none) (hnew : id ∉ m.typeIds) (hid : m.typeModule? id = module)
    (hk : ∀ k, module = some k → (m.module? k).isSome) :
    (m.withType n id module).Housed where
  named {k x} hx := by
    rw [moduleName?_withType] at hx
    exact (show (m.withType n id module).findModule? x = m.findModule? x by
      cases module <;> rfl).trans (h.named hx)
  types := by
    refine h.types.add (x := id) hnew (fun k hm => ?_) (fun k => ?_) (fun id' => ?_) fun id' =>
      typeModule?_congr (type?_withType module id')
    · rw [moduleTypes?, Option.isSome_map]
      exact hk k (hid.symm.trans hm)
    · rw [moduleTypes?, moduleTypes?, Model.withType, module?_enterType, hid]
      split
      · rw [Option.map_map, Option.map_map]
        rfl
      · rfl
    · simp only [typeIds, Set.mem_ofPred_eq, findType?_withType module hfree, exists_or,
        exists_eq_left]
  services := by
    refine h.services.congr (fun k => ?_) ?_ fun id' _ =>
      serviceModule?_congr (by cases module <;> rfl)
    · rw [moduleServices?, moduleServices?, Model.withType, module?_enterType]
      split
      · rw [Option.map_map]
        rfl
      · rfl
    · simp only [serviceIds, findService?_withType]

theorem Housed.withService (h : m.Housed) {n : Name} {id : ServiceId} {module : Option ModuleId}
    (hfree : m.findService? n = none) (hnew : id ∉ m.serviceIds)
    (hid : m.serviceModule? id = module) (hk : ∀ k, module = some k → (m.module? k).isSome) :
    (m.withService n id module).Housed where
  named {k x} hx := by
    rw [moduleName?_withService] at hx
    exact (show (m.withService n id module).findModule? x = m.findModule? x by
      cases module <;> rfl).trans (h.named hx)
  types := by
    refine h.types.congr (fun k => ?_) ?_ fun id' _ => typeModule?_congr (by cases module <;> rfl)
    · rw [moduleTypes?, moduleTypes?, Model.withService, module?_enterService]
      split
      · rw [Option.map_map]
        rfl
      · rfl
    · simp only [typeIds, findType?_withService]
  services := by
    refine h.services.add (x := id) hnew (fun k hm => ?_) (fun k => ?_) (fun id' => ?_) fun id' =>
      serviceModule?_congr (service?_withService module id')
    · rw [moduleServices?, Option.isSome_map]
      exact hk k (hid.symm.trans hm)
    · rw [moduleServices?, moduleServices?, Model.withService, module?_enterService, hid]
      split
      · rw [Option.map_map, Option.map_map]
        rfl
      · rfl
    · simp only [serviceIds, Set.mem_ofPred_eq, findService?_withService module hfree, exists_or,
        exists_eq_left]

/-! ## Members by the name of their module -/

/-- What the module `n` of `m` lists; nothing if there is no such module. -/
def listed {ι : Type} (f : Module → List ι) (m : Model) (n : Name) : List ι :=
  ((m.findModule? n).bind m.module?).elim [] f

section Listed

variable {ι : Type} {f : Module → List ι}

theorem listed_congr (hmodules : m'.modules = m.modules) (hindex : m'.moduleIndex = m.moduleIndex)
    (n : Name) : m'.listed f n = m.listed f n := by
  have hmodule : m'.module? = m.module? := funext fun k => by rw [module?, module?, hmodules]
  rw [listed, listed, findModule?, findModule?, hmodule, hindex]

theorem Indexed.isSome_module? (hi : m.Indexed) {n : Name} {k : ModuleId}
    (h : m.findModule? n = some k) : ∃ x, m.module? k = some x ∧ x.name = n :=
  Option.map_eq_some_iff.mp (hi.module h)

/-- A new module, by `pushModule`, lists nothing. -/
theorem listed_pushModule (hi : m.Indexed) (hf : ∀ n, f { name := n } = []) {n : Name}
    (hn : m.findModule? n = none) (x : Name) : (m.pushModule n).2.listed f x = m.listed f x := by
  unfold listed
  by_cases hx : x = n
  · subst hx
    rw [(findModule?_pushModule hn).mpr (.inl ⟨rfl, rfl⟩), hn, Option.bind_some, module?_pushModule,
      if_pos rfl]
    exact hf x
  · have hfind : (m.pushModule n).2.findModule? x = m.findModule? x := by
      refine Option.ext fun k => ?_
      rw [findModule?_pushModule hn]
      exact or_iff_right fun h => hx h.1
    rw [hfind]
    rcases hk : m.findModule? x with _ | k
    · rfl
    · obtain ⟨y, hy, -⟩ := hi.isSome_module? hk
      rw [Option.bind_some, Option.bind_some, module?_pushModule, if_neg]
      rintro rfl
      rw [module?_size] at hy
      cases hy

theorem listed_house (hi : m.Indexed) (hf : ∀ n, f { name := n } = []) (space : String)
    (n : Name) : (m.house space).2.listed f n = m.listed f n := by
  rw [house]
  split
  · rfl
  · rename_i x _
    rcases hx : m.findModule? x with _ | k
    · rw [internModule_new hx]
      exact listed_pushModule hi hf hx n
    · rw [internModule_known hx]

/-- The module that `house` gives for a namespace is the one of its name. -/
theorem findModule?_house_iff (hi : m.Indexed) {space : String} {n : Name} {k : ModuleId}
    (hk : (m.house space).1 = some k) :
    (m.house space).2.findModule? n = some k ↔ spaceName? space = some n := by
  rw [house] at hk ⊢
  rcases hs : spaceName? space with _ | x <;> simp only [hs] at hk ⊢
  · cases hk
  · obtain rfl := Option.some.inj hk
    have hfind := findModule?_internModule m x
    constructor
    · intro hn
      obtain ⟨y, hy, rfl⟩ := (hi.internModule x).isSome_module? hn
      obtain ⟨z, hz, rfl⟩ := (hi.internModule x).isSome_module? hfind
      rw [Option.some.inj (hy.symm.trans hz)]
    · intro hn
      obtain rfl := Option.some.inj hn
      exact hfind

/-- One module lists `more`. -/
theorem listed_of_module? (hi : m.Indexed) {g : Module → Module} {more : List ι}
    (hf : ∀ x, f (g x) = f x ++ more) (hindex : m'.moduleIndex = m.moduleIndex)
    {module : Option ModuleId} (hm : ∀ k, m'.module? k =
      if module = some k then (m.module? k).map g else m.module? k) (n : Name) :
    m'.listed f n = m.listed f n ++
      if module.isSome ∧ m.findModule? n = module then more else [] := by
  have hfind : m'.findModule? n = m.findModule? n := by rw [findModule?, hindex]; rfl
  unfold listed
  rw [hfind]
  rcases hn : m.findModule? n with _ | k
  · rw [if_neg]
    · rfl
    · rintro ⟨hsome, rfl⟩
      cases hsome
  · obtain ⟨x, hx, -⟩ := hi.isSome_module? hn
    rw [Option.bind_some, Option.bind_some, hm, hx]
    by_cases hk : module = some k
    · rw [if_pos hk, if_pos ⟨by rw [hk]; rfl, hk.symm⟩]
      exact hf x
    · rw [if_neg hk, if_neg fun h => hk h.2.symm]
      exact (List.append_nil _).symm

end Listed

end Model

/-! ## Declarations -/

namespace Draft

variable {d d' : Draft} {decl : Declaration} {complete : Bool}

theorem housed_placeType (hi : d.model.Indexed) (hh : d.model.Housed) (space : String)
    (x : DataType) : (d.placeType space x).model.Housed := by
  rw [placeType]
  refine (hh.house space).setTypes ?_
  rintro id ⟨n, hn⟩
  rw [Model.findType?, Model.typeIndex_house] at hn
  have hne := ne_nextType hi hn
  simp only [Model.type?, Model.types_house, Array.getElem?_push]
  exact if_neg fun h => hne (TypeId.eq_iff.mpr h)

theorem housed_placeService (hi : d.model.Indexed) (hh : d.model.Housed) (space : String)
    (s : DefinedService) : (d.placeService space s).model.Housed := by
  rw [placeService]
  refine (hh.house space).setServices ?_
  rintro id ⟨n, hn⟩
  rw [Model.findService?, Model.serviceIndex_house] at hn
  have hne := ne_nextService hi hn
  simp only [Model.service?, Model.services_house, Array.getElem?_push]
  exact if_neg fun h => hne (ServiceId.eq_iff.mpr h)

theorem housed_enterType {n : Name} {x : DataType} {space : String} (hi : d.model.Indexed)
    (hh : d.model.Housed) (hfree : d.model.findType? n = none)
    (hx : x.module? = (d.model.house space).1) : (d.enterType space n x).model.Housed := by
  refine (housed_placeType hi hh space x).withType ((findType?_placeType space n).trans hfree) ?_ ?_
    fun k hk => ?_
  · rintro ⟨n', hn'⟩
    rw [findType?_placeType] at hn'
    exact ne_nextType hi hn' rfl
  · rw [Model.typeModule?, type?_placeType_self]
    rfl
  · have hhouse := Model.isSome_module?_house hi (hx.symm.trans hk)
    simpa only [placeType, Model.module?] using hhouse

theorem housed_enterService {s : DefinedService} {space : String} (hi : d.model.Indexed)
    (hh : d.model.Housed) (hfree : d.model.findService? s.name = none)
    (hs : s.module = (d.model.house space).1) : (d.enterService space s).model.Housed := by
  refine (housed_placeService hi hh space s).withService
    ((findService?_placeService space _).trans hfree) ?_ ?_ fun k hk => ?_
  · rintro ⟨n', hn'⟩
    rw [findService?_placeService] at hn'
    exact ne_nextService hi hn' rfl
  · rw [Model.serviceModule?, Model.definedService?, service?_placeService_self]
    rfl
  · have hhouse := Model.isSome_module?_house hi (hs.symm.trans hk)
    simpa only [placeService, Model.module?] using hhouse

section Listed

variable {ι : Type} {f : Module → List ι} (hi : d.model.Indexed) (hf : ∀ n, f { name := n } = [])
  (space : String) (n : Name)

include hi hf

theorem listed_placeType (x : DataType) :
    (d.placeType space x).model.listed f n = d.model.listed f n := by
  rw [← Model.listed_house hi hf space n]
  exact Model.listed_congr (by simp only [placeType]) (by simp only [placeType]) n

theorem listed_placeService (s : DefinedService) :
    (d.placeService space s).model.listed f n = d.model.listed f n := by
  rw [← Model.listed_house hi hf space n]
  exact Model.listed_congr (by simp only [placeService]) (by simp only [placeService]) n

/-- What enters the module of the namespace `space` is listed under its name. -/
theorem listed_enter {m : Model} {module : Option ModuleId} {g : Module → Module} {more : List ι}
    (hg : ∀ x, f (g x) = f x ++ more) (hmodule : module = (d.model.house space).1)
    (hindex : m.moduleIndex = (d.model.house space).2.moduleIndex)
    (hm : ∀ k, m.module? k = if module = some k then ((d.model.house space).2.module? k).map g
      else (d.model.house space).2.module? k) :
    m.listed f n = d.model.listed f n ++ if spaceName? space = some n then more else [] := by
  rw [Model.listed_of_module? (hi.house space) hg hindex hm, Model.listed_house hi hf]
  congr 1
  rw [hmodule]
  rcases hk : (d.model.house space).1 with _ | k
  · have hrel := Model.named_house hi space
    rw [hk] at hrel
    generalize spaceName? space = s? at hrel
    cases hrel
    rfl
  · simp only [Model.findModule?_house_iff hi hk, Option.isSome_some, true_and]

end Listed

theorem moduleIndex_enterType (d : Draft) (space : String) (y : Name) (x : DataType) :
    (d.enterType space y x).model.moduleIndex = (d.model.house space).2.moduleIndex := by
  simp only [enterType, Model.moduleIndex_withType, placeType]

theorem moduleIndex_enterService (d : Draft) (space : String) (s : DefinedService) :
    (d.enterService space s).model.moduleIndex = (d.model.house space).2.moduleIndex := by
  simp only [enterService, Model.moduleIndex_withService, placeService]

theorem module?_enterType (d : Draft) (space : String) (y : Name) (x : DataType) (k : ModuleId) :
    (d.enterType space y x).model.module? k = if x.module? = some k then
      ((d.model.house space).2.module? k).map fun z => { z with types := z.types ++ [d.nextType] }
      else (d.model.house space).2.module? k := by
  simp only [enterType, Model.module?_withType]
  simp only [placeType, Model.module?]

theorem module?_enterService (d : Draft) (space : String) (s : DefinedService) (k : ModuleId) :
    (d.enterService space s).model.module? k = if s.module = some k then
      ((d.model.house space).2.module? k).map fun z =>
        { z with services := z.services ++ [d.nextService] }
      else (d.model.house space).2.module? k := by
  simp only [enterService, Model.module?_withService]
  simp only [placeService, Model.module?]

section Entered

variable (hi : d.model.Indexed) {space : String}

include hi

theorem listed_enterType {x : DataType} (hx : x.module? = (d.model.house space).1) (y n : Name) :
    (d.enterType space y x).model.listed Module.types n = d.model.listed Module.types n ++
      if spaceName? space = some n then [d.nextType] else [] :=
  listed_enter hi (fun _ => rfl) space n (fun _ => rfl) hx (moduleIndex_enterType d space y x)
    (module?_enterType d space y x)

theorem services_listed_enterType {x : DataType} (hx : x.module? = (d.model.house space).1)
    (y n : Name) : (d.enterType space y x).model.listed Module.services n =
      d.model.listed Module.services n := by
  have h := listed_enter (f := Module.services) hi (fun _ => rfl) space n
    (g := fun z => { z with types := z.types ++ [d.nextType] })
    (fun z => (List.append_nil z.services).symm) hx (moduleIndex_enterType d space y x)
    (module?_enterType d space y x)
  rwa [ite_self, List.append_nil] at h

theorem listed_enterService {s : DefinedService} (hs : s.module = (d.model.house space).1)
    (n : Name) : (d.enterService space s).model.listed Module.services n =
      d.model.listed Module.services n ++
        if spaceName? space = some n then [d.nextService] else [] :=
  listed_enter hi (fun _ => rfl) space n (fun _ => rfl) hs (moduleIndex_enterService d space s)
    (module?_enterService d space s)

theorem types_listed_enterService {s : DefinedService} (hs : s.module = (d.model.house space).1)
    (n : Name) : (d.enterService space s).model.listed Module.types n =
      d.model.listed Module.types n := by
  have h := listed_enter (f := Module.types) hi (fun _ => rfl) space n
    (g := fun z => { z with services := z.services ++ [d.nextService] })
    (fun z => (List.append_nil z.types).symm) hs (moduleIndex_enterService d space s)
    (module?_enterService d space s)
  rwa [ite_self, List.append_nil] at h

end Entered

theorem Builds.listed {ι : Type} {f : Module → List ι} {own : Set Entity} {asked : Set Request}
    (h : d.Builds own asked d') (n : Name) : d'.model.listed f n = d.model.listed f n :=
  Model.listed_congr (congrArg Registry.modules h.registry)
    (congrArg Registry.moduleIndex h.registry) n

/-- What `Builds` an entity keeps its home. -/
theorem Builds.housed {own : Set Entity} {asked : Set Request} (h : d.Builds own asked d')
    (hi : d.model.Indexed) (hh : d.model.Housed)
    (htype : ∀ id, Entity.type id ∈ own → d'.model.typeModule? id = d.model.typeModule? id)
    (hservice : ∀ id, Entity.service id ∈ own →
      d'.model.serviceModule? id = d.model.serviceModule? id) : d'.model.Housed := by
  refine hh.congr (congrArg Registry.modules h.registry) (congrArg Registry.moduleIndex h.registry)
    (congrArg Registry.typeIndex h.registry) (congrArg Registry.serviceIndex h.registry)
    (fun id ⟨n, hn⟩ => ?_) fun id ⟨n, hn⟩ => ?_
  · by_cases hown : Entity.type id ∈ own
    · exact htype id hown
    · obtain ⟨t, ht, -⟩ := hi.type hn
      exact Model.typeModule?_congr ((h.grows.type hown ht).trans ht.symm)
  · by_cases hown : Entity.service id ∈ own
    · exact hservice id hown
    · obtain ⟨s, hs, -⟩ := hi.service hn
      exact Model.serviceModule?_congr ((h.grows.service hown hs).trans hs.symm)

theorem Outcome.housed (h : d.Outcome decl complete d') (hs : d.Sound) (hb : d.Based)
    (hh : d.model.Housed) : d'.model.Housed := by
  have hi := hs.indexed
  cases h with
  | unnamedType | unnamedService => exact hh
  | droppedType | takenType => exact housed_placeType hi hh _ _
  | @addedType t x₀ x _ _ _ hx₀ hfree hb' _ _ hx hmodule =>
    refine hb'.housed (open_enterType t.space hs hb hx₀.bare hx₀.name hfree).sound.indexed
      (housed_enterType hi hh hfree hx₀.module) ?_ fun _ hid => by cases hid
    rintro id ⟨⟩
    rw [Model.typeModule?, Model.typeModule?, hx, type?_enterType_self]
    exact hmodule
  | takenService => exact housed_placeService hi hh _ _
  | @addedService t s₀ s _ d₁ _ _ hx₀ hfree hb' _ _ hx hmodule _ _ hd =>
    have hfree' := hx₀.name.symm ▸ hfree
    have hopen := open_enterService t.space hs hb hx₀.base hx₀.methods hx₀.locators hfree'
    have h₁ : d₁.model.Housed := by
      refine hb'.housed hopen.sound.indexed (housed_enterService hi hh hfree' hx₀.module)
        (fun _ hid => by cases hid) ?_
      rintro id ⟨⟩
      rw [Model.serviceModule?, Model.serviceModule?, Model.definedService?, Model.definedService?,
        hx, service?_enterService_self]
      exact hmodule
    rw [hd]
    split
    · exact h₁.congr rfl rfl rfl rfl (fun _ _ => rfl) fun _ _ => rfl
    · exact h₁
  | document => exact hh.congr rfl rfl rfl rfl (fun _ _ => rfl) fun _ _ => rfl

theorem housed_initial : Model.initial.Housed := by
  have hnone : ∀ k, Model.initial.module? k = none := fun k => by
    rw [Model.module?, Model.initial_eq]
    simp
  have htypes : ∀ k, Model.initial.moduleTypes? k = none := fun k => by
    rw [Model.moduleTypes?, hnone]
    rfl
  have hservices : ∀ k, Model.initial.moduleServices? k = none := fun k => by
    rw [Model.moduleServices?, hnone]
    rfl
  refine ⟨fun {k n} hk => ?_, ⟨fun {k xs} hk => ?_, fun {id k} hid hk => ?_, fun {k xs} hk => ?_⟩,
    ⟨fun {k xs} hk => ?_, fun {id k} _ hk => ?_, fun {k xs} hk => ?_⟩⟩
  · rw [Model.moduleName?, hnone] at hk
    cases hk
  · rw [htypes] at hk
    cases hk
  · obtain ⟨n, hn⟩ := hid
    obtain ⟨t, ht, -⟩ := Model.indexed_initial.type hn
    obtain ⟨p, rfl⟩ := Model.type?_initial ht
    rw [Model.typeModule?, ht] at hk
    cases hk
  · rw [htypes] at hk
    cases hk
  · rw [hservices] at hk
    cases hk
  · rw [Model.serviceModule?, Model.definedService?_initial] at hk
    cases hk
  · rw [hservices] at hk
    cases hk

theorem housed_declareEach (ds : List Declaration) : (declareEach {} ds).model.Housed := by
  induction ds using List.reverseRecOn with
  | nil => exact housed_initial
  | append_singleton ds decl ih =>
    obtain ⟨hs, hb⟩ := sound_declareEach ds
    exact (outcome_declareEach ds decl).housed hs hb ih

end Draft

end ApiModel
