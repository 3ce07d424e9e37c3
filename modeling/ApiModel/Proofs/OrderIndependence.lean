import ApiModel.Proofs.Inheritance
import ApiModel.Proofs.Renumbering
import Mathlib.Data.Set.Function

/-!
# The order of declarations

References are resolved at once or later on, depending on what has been declared
by then, and entities are numbered as they come up. All that the order of
unambiguous declarations changes in the end is these numbers: every reference
leads to what goes by the same name.
-/

namespace ApiModel

namespace Model

variable {m m' : Model}

/-! ## What can be reached -/

def reachableTypes (m : Model) : Set TypeId :=
  {id | m.Reachable (.type id)}

def reachableServices (m : Model) : Set ServiceId :=
  {id | m.Reachable (.service id)}

/-- The numbers that are in use for modules of `m`. -/
def moduleIds (m : Model) : Set ModuleId :=
  {k | (m.module? k).isSome}

theorem reachable_of_registered {e : Entity} (h : e.Registered m) : m.Reachable e :=
  ⟨e, h, .refl⟩

/-- By `findList?`, lists are found only where a declaration asks for them. -/
theorem Portrays.reachable_list {ds : List Declaration} (hp : m.Portrays ds) {n : Name}
    {id : TypeId} (h : m.findList? n = some id) : m.Reachable (.type id) := by
  obtain ⟨decl, -, hr, hq⟩ := hp.lists h
  obtain ⟨x, hx, hlist, -⟩ := hr.typeReference hq
  obtain rfl := Option.some.inj (h.symm.trans hlist)
  obtain ⟨slot, ho, hx⟩ := slot_of_typeReference hx
  exact ⟨slot.owner, ho, .single (.type hx)⟩

theorem Portrays.resolvesTarget_list {ds : List Declaration} (hp : m.Portrays ds) {n : Name}
    {id : TypeId} (h : m.findList? n = some id) : m.ResolvesTarget ⟨n, true⟩ id := by
  obtain ⟨e, he⟩ := hp.indexed.list.mp h
  exact ⟨h, e, he, hp.listElements he⟩

theorem resolves_of_undefined (hi : m.Indexed) {n : Name} {id : TypeId}
    (hn : m.findType? n = none) (h : m.type? id = some (.undefined n)) : m.Resolves n id := by
  rw [Resolves, hn]
  exact ⟨hi.undefinedType.mpr h, h⟩

theorem resolvesService_of_undefined (hi : m.Indexed) {n : Name} {id : ServiceId}
    (hn : m.findService? n = none) (h : m.service? id = some (.undefined n)) :
    m.ResolvesService n id := by
  rw [ResolvesService, hn]
  exact ⟨hi.undefinedService.mpr h, h⟩

end Model

namespace Draft

variable {d : Draft} {ds : List Declaration}

/-- In the end every `slot` holds what some reference leads to. -/
theorem Sound.resolvesTarget (hs : d.Sound) {slot : TypeSlot} {x : TypeId}
    (h : d.model.settled.typeAt? slot = some x) : ∃ t, d.model.settled.ResolvesTarget t x := by
  rw [Model.settled, ← Model.mapSlots_const, Model.typeAt?_mapSlots] at h
  obtain ⟨x₀, hx₀, rfl⟩ := Option.map_eq_some_iff.mp h
  obtain ⟨t, ht⟩ := (hs.types hx₀).refers
  exact ⟨t, (Model.reading_maps_unparsed hs.indexed).type ht⟩

theorem Sound.resolvesService (hs : d.Sound) {slot : ServiceSlot} {x : ServiceId}
    (h : d.model.settled.serviceAt? slot = some x) :
    ∃ n, d.model.settled.ResolvesService n x := by
  rw [Model.settled, ← Model.mapSlots_const, Model.serviceAt?_mapSlots] at h
  obtain ⟨x₀, hx₀, rfl⟩ := Option.map_eq_some_iff.mp h
  obtain ⟨n, hn⟩ := (hs.services hx₀).named
  exact ⟨n, (Model.reading_maps_unparsed hs.indexed).service hn⟩

theorem resolvesTarget_of_reachable {id : TypeId} (h : (finishedModel ds).Reachable (.type id)) :
    ∃ t, (finishedModel ds).ResolvesTarget t id := by
  obtain ⟨e, ho, hpath⟩ := h
  rcases hpath.cases_tail with rfl | ⟨_, -, hstep⟩
  · obtain ⟨n, hn⟩ := ho
    exact ⟨⟨n, false⟩, Model.resolves_of_registered hn⟩
  · cases hstep with
    | type hx => exact (sound_declareEach ds).1.resolvesTarget hx

theorem resolvesService_of_reachable {id : ServiceId}
    (h : (finishedModel ds).Reachable (.service id)) :
    ∃ n, (finishedModel ds).ResolvesService n id := by
  obtain ⟨e, ho, hpath⟩ := h
  rcases hpath.cases_tail with rfl | ⟨_, -, hstep⟩
  · obtain ⟨n, hn⟩ := ho
    exact ⟨n, Model.resolvesService_of_registered hn⟩
  · cases hstep with
    | service hx => exact (sound_declareEach ds).1.resolvesService hx

end Draft

/-! ## Equal up to numbers -/

/-- Numbers that are determined by names, by `named` in one model and by `named'` in the other, are
in bijection. -/
theorem bijOn_of_names {ι ν : Type} {s s' : Set ι} {named named' : ι → ν → Prop} {f g : ι → ι}
    (h : ∀ a ∈ s, ∃ n, named a n ∧ ∃ b ∈ s', named' b n)
    (h' : ∀ b ∈ s', ∃ n, named' b n ∧ ∃ a ∈ s, named a n)
    (hf : ∀ {a b n}, named a n → named' b n → b = f a)
    (hg : ∀ {b a n}, named' b n → named a n → a = g b) : Set.BijOn f s s' := by
  have hinv : Set.InvOn g f s s' := by
    constructor
    · intro a ha
      obtain ⟨n, hn, b, -, hn'⟩ := h a ha
      rw [← hf hn hn', ← hg hn' hn]
    · intro b hb
      obtain ⟨n, hn', a, -, hn⟩ := h' b hb
      rw [← hg hn' hn, ← hf hn hn']
  refine hinv.bijOn (fun a ha => ?_) fun b hb => ?_
  · obtain ⟨n, hn, b, hb, hn'⟩ := h a ha
    rwa [← hf hn hn']
  · obtain ⟨n, hn', a, ha, hn⟩ := h' b hb
    rwa [← hg hn' hn]

/-- A `Listing` is renamed with what it lists. -/
theorem Listing.rename {ι : Type} {members members' : ModuleId → Option (List ι)}
    {registered registered' : Set ι} {home home' : ι → Option ModuleId}
    (h : Listing members registered home) (h' : Listing members' registered' home') {f : ι → ι}
    {g : ModuleId → ModuleId} (hr : registered' = f '' registered)
    (hh : ∀ id ∈ registered, home' (f id) = (home id).map g)
    (hg : Set.InjOn g {k | (members k).isSome}) {k : ModuleId} {xs xs' : List ι}
    (hk : members k = some xs) (hk' : members' (g k) = some xs') (id : ι) :
    id ∈ xs' ↔ id ∈ xs.map f := by
  rw [h'.mem hk' id, hr, List.mem_map]
  constructor
  · rintro ⟨⟨a, ha, rfl⟩, hhome⟩
    rw [hh a ha] at hhome
    obtain ⟨j, hj, hjk⟩ := Option.map_eq_some_iff.mp hhome
    obtain rfl := hg (h.isSome ha hj) (Option.isSome_iff_exists.mpr ⟨xs, hk⟩) hjk
    exact ⟨a, (h.mem hk a).mpr ⟨ha, hj⟩, rfl⟩
  · rintro ⟨a, ha, rfl⟩
    obtain ⟨hreg, hhome⟩ := (h.mem hk a).mp ha
    exact ⟨⟨a, hreg, rfl⟩, by rw [hh a hreg, hhome]; rfl⟩

namespace Model

/-- The model `m'` is `m` with other numbers, by `ρ`, as far as registered entities lead. -/
structure Renumbers (ρ : Renumbering) (m m' : Model) : Prop where
  typeIds : Set.BijOn ρ.type m.reachableTypes m'.reachableTypes
  serviceIds : Set.BijOn ρ.service m.reachableServices m'.reachableServices
  moduleIds : Set.BijOn ρ.module m.moduleIds m'.moduleIds
  findType? : ∀ n, m'.findType? n = (m.findType? n).map ρ.type
  findService? : ∀ n, m'.findService? n = (m.findService? n).map ρ.service
  findList? : ∀ n, m'.findList? n = (m.findList? n).map ρ.type
  findModule? : ∀ n, m'.findModule? n = (m.findModule? n).map ρ.module
  type? : ∀ id ∈ m.reachableTypes, m'.type? (ρ.type id) = (m.type? id).map (·.renumber ρ)
  service? : ∀ id ∈ m.reachableServices,
    m'.service? (ρ.service id) = (m.service? id).map (·.renumber ρ)
  /-- A module lists the same members up to `ρ`, in any order. -/
  module? : ∀ {k x}, m.module? k = some x → ∃ x', m'.module? (ρ.module k) = some x' ∧
    x'.name = x.name ∧ (∀ id, id ∈ x'.types ↔ id ∈ x.types.map ρ.type) ∧
    ∀ id, id ∈ x'.services ↔ id ∈ x.services.map ρ.service
  root : m'.root = m.root.map ρ.service
  documents : m.documents.Perm m'.documents
  unresolvedTypes : m.unresolvedTypes.toList = m'.unresolvedTypes.toList
  unresolvedServices : m.unresolvedServices.toList = m'.unresolvedServices.toList

/-- What references lead to in `m` has its counterpart in `m'`. -/
structure Reflects (m m' : Model) : Prop where
  twins : m.Twins Eq m'
  housed : m.Housed
  housed' : m'.Housed
  type : ∀ id ∈ m.reachableTypes, ∃ t, m.ResolvesTarget t id ∧
    ∃ id' ∈ m'.reachableTypes, m'.ResolvesTarget t id'
  service : ∀ id ∈ m.reachableServices, ∃ n, m.ResolvesService n id ∧
    ∃ id' ∈ m'.reachableServices, m'.ResolvesService n id'
  list : ∀ n, (m.findList? n).isSome ↔ (m'.findList? n).isSome

/-- The models `m` and `m'` have the same modules, too. -/
structure Mirrors (m m' : Model) : Prop extends Reflects m m' where
  module : ∀ n, (m.findModule? n).isSome ↔ (m'.findModule? n).isSome

namespace Reflects

variable {m m' : Model} (h : m.Reflects m')

include h

theorem carries : (m.renumbering m').Carries m.unparsed m'.unparsed :=
  carries_renumbering h.twins.indexed h.housed'

/-! Entries -/

theorem paired_renumber {id id' : TypeId} (hp : m.Paired m' id id') :
    m'.type? id' = (m.type? id).map (·.renumber (m.renumbering m')) := by
  obtain rfl : id' = (m.renumbering m').type id := by
    obtain ⟨n, hn, hn'⟩ := hp
    exact h.carries.type (t := ⟨n, false⟩) hn hn'
  rcases h.twins.paired_cases hp with ht | ⟨n, hx, hx'⟩
  · cases ht with
    | primitive hx hx' => rw [hx, hx']; rfl
    | struct hx hx' hs =>
      obtain ⟨rfl, hb, hb', hs, hs'⟩ := hs
      obtain ⟨-, rfl⟩ := TypeBody.struct.inj (hb.symm.trans hb')
      rw [hx, hx', Option.map_some, DataType.renumber, hs.eq_renumber h.carries hs']
    | enum hx hx' he =>
      obtain ⟨rfl, hb, hb', he, he'⟩ := he
      obtain rfl := TypeBody.enum.inj (hb.symm.trans hb')
      rw [hx, hx', Option.map_some, DataType.renumber, he.eq_renumber h.carries he']
  · rw [hx, hx']
    rfl

theorem type? {id : TypeId} (hid : id ∈ m.reachableTypes) :
    m'.type? ((m.renumbering m').type id) =
      (m.type? id).map (·.renumber (m.renumbering m')) := by
  obtain ⟨t, ht, id', -, ht'⟩ := h.type id hid
  rw [← h.carries.type ht ht']
  obtain ⟨n, _ | _⟩ := t
  · exact h.paired_renumber ⟨n, ht, ht'⟩
  · obtain ⟨-, e, he, hn⟩ := ht
    obtain ⟨-, e', he', hn'⟩ := ht'
    rw [he, he', Option.map_some, DataType.renumber, h.carries.type (t := ⟨n, false⟩) hn hn']

theorem service? {id : ServiceId} (hid : id ∈ m.reachableServices) :
    m'.service? ((m.renumbering m').service id) =
      (m.service? id).map (·.renumber (m.renumbering m')) := by
  obtain ⟨n, hn, id', -, hn'⟩ := h.service id hid
  obtain rfl := h.carries.service hn hn'
  rcases h.twins.pairedService_cases ⟨n, hn, hn'⟩ with ⟨s, s', hx, hx', ⟨hs, hs'⟩⟩ | ⟨n, hx, hx'⟩
  · rw [hx, hx', Option.map_some, Service.renumber, hs.eq_renumber h.carries hs']
  · rw [hx, hx']
    rfl

/-! Names -/

theorem findType? (n : Name) : m'.findType? n = (m.findType? n).map (m.renumbering m').type :=
  eq_map_of_optionRel (optionRel_imp (fun ht => h.carries.type (t := ⟨n, false⟩)
    (resolves_of_registered ht.1) (resolves_of_registered ht.2.1)) (optionRel_self (h.twins.types n)))

theorem findService? (n : Name) :
    m'.findService? n = (m.findService? n).map (m.renumbering m').service :=
  eq_map_of_optionRel (optionRel_imp (fun hs => h.carries.service
    (resolvesService_of_registered hs.1) (resolvesService_of_registered hs.2.1))
    (optionRel_self (h.twins.services n)))

theorem findList? (n : Name) : m'.findList? n = (m.findList? n).map (m.renumbering m').type := by
  refine eq_map_of_optionRel (optionRel_of_isSome (h.list n) fun id id' hid hid' => ?_)
  obtain ⟨e, he⟩ := h.twins.indexed.list.mp hid
  simp only [renumbering, he, hid', Option.getD_some]

/-! Numbers -/

theorem typeIds (h' : m'.Reflects m) :
    Set.BijOn (m.renumbering m').type m.reachableTypes m'.reachableTypes :=
  bijOn_of_names h.type h'.type h.carries.type h'.carries.type

theorem serviceIds (h' : m'.Reflects m) :
    Set.BijOn (m.renumbering m').service m.reachableServices m'.reachableServices :=
  bijOn_of_names h.service h'.service h.carries.service h'.carries.service

end Reflects

namespace Mirrors

variable {m m' : Model} (h : m.Mirrors m')

include h

theorem findModule? (n : Name) :
    m'.findModule? n = (m.findModule? n).map (m.renumbering m').module :=
  eq_map_of_optionRel (optionRel_of_isSome (h.module n) fun _ _ hk hk' =>
    h.carries.module (h.twins.indexed.module hk) (h.twins.indexed'.module hk'))

/-- A module of the same name in `m'`. -/
theorem exists_module {k : ModuleId} (hk : k ∈ m.moduleIds) :
    ∃ n, m.moduleName? k = some n ∧ ∃ k' ∈ m'.moduleIds, m'.moduleName? k' = some n := by
  obtain ⟨x, hx⟩ := Option.isSome_iff_exists.mp hk
  have hn : m.moduleName? k = some x.name := by rw [moduleName?, hx]; rfl
  obtain ⟨k', hk'⟩ := Option.isSome_iff_exists.mp
    ((h.module _).mp (Option.isSome_iff_exists.mpr ⟨k, h.housed.named hn⟩))
  have hn' := h.twins.indexed'.module hk'
  refine ⟨x.name, hn, k', ?_, hn'⟩
  obtain ⟨x', hx', -⟩ := Option.map_eq_some_iff.mp hn'
  exact Option.isSome_iff_exists.mpr ⟨x', hx'⟩

variable (h' : m'.Mirrors m)

include h'

theorem moduleIds : Set.BijOn (m.renumbering m').module m.moduleIds m'.moduleIds :=
  bijOn_of_names (fun _ => h.exists_module) (fun _ => h'.exists_module) h.carries.module
    h'.carries.module

/-! Members of modules -/

theorem typeMembers {k : ModuleId} {x x' : Module} (hx : m.module? k = some x)
    (hx' : m'.module? ((m.renumbering m').module k) = some x') (id : TypeId) :
    id ∈ x'.types ↔ id ∈ x.types.map (m.renumbering m').type := by
  refine h.housed.types.rename h.housed'.types ?_ (fun id hid => ?_) ?_
    (by rw [moduleTypes?, hx]; rfl) (by rw [moduleTypes?, hx']; rfl) id
  · ext id
    simp only [Model.typeIds, Set.mem_ofPred_eq, Set.mem_image, h.findType?,
      Option.map_eq_some_iff]
    grind
  · rw [typeModule?, typeModule?, h.type? (reachable_of_registered hid)]
    rcases m.type? id with _ | t
    · rfl
    · cases t <;> rfl
  · simp only [moduleTypes?, Option.isSome_map]
    exact (h.moduleIds h').injOn

theorem serviceMembers {k : ModuleId} {x x' : Module} (hx : m.module? k = some x)
    (hx' : m'.module? ((m.renumbering m').module k) = some x') (id : ServiceId) :
    id ∈ x'.services ↔ id ∈ x.services.map (m.renumbering m').service := by
  refine h.housed.services.rename h.housed'.services ?_ (fun id hid => ?_) ?_
    (by rw [moduleServices?, hx]; rfl) (by rw [moduleServices?, hx']; rfl) id
  · ext id
    simp only [Model.serviceIds, Set.mem_ofPred_eq, Set.mem_image, h.findService?,
      Option.map_eq_some_iff]
    grind
  · rw [serviceModule?, serviceModule?, definedService?, definedService?,
      h.service? (reachable_of_registered hid)]
    rcases m.service? id with _ | s
    · rfl
    · cases s <;> rfl
  · simp only [moduleServices?, Option.isSome_map]
    exact (h.moduleIds h').injOn

theorem module? {k : ModuleId} {x : Module} (hx : m.module? k = some x) :
    ∃ x', m'.module? ((m.renumbering m').module k) = some x' ∧ x'.name = x.name ∧
      (∀ id, id ∈ x'.types ↔ id ∈ x.types.map (m.renumbering m').type) ∧
      ∀ id, id ∈ x'.services ↔ id ∈ x.services.map (m.renumbering m').service := by
  obtain ⟨n, hn, k', -, hn'⟩ := h.exists_module (Option.isSome_iff_exists.mpr ⟨x, hx⟩)
  obtain rfl := h.carries.module hn hn'
  obtain ⟨x', hx', rfl⟩ := Option.map_eq_some_iff.mp hn'
  rw [moduleName?, hx] at hn
  exact ⟨x', hx', (Option.some.inj hn).symm, h.typeMembers h' hx hx', h.serviceMembers h' hx hx'⟩

end Mirrors

end Model

/-! ## Models with the same names -/

/-- The same names are registered, interned and left unresolved in `m` and `m'`. -/
structure Model.SameNames (m m' : Model) : Prop where
  types : ∀ n, (m.findType? n).isSome ↔ (m'.findType? n).isSome
  services : ∀ n, (m.findService? n).isSome ↔ (m'.findService? n).isSome
  lists : ∀ n, (m.findList? n).isSome ↔ (m'.findList? n).isSome
  unresolvedTypes : ∀ n, n ∈ m.unresolvedTypes ↔ n ∈ m'.unresolvedTypes
  unresolvedServices : ∀ n, n ∈ m.unresolvedServices ↔ n ∈ m'.unresolvedServices

section SameNames

variable {ds ds' : List Declaration} (ha : Draft.Accepts {} ds) (ha' : Draft.Accepts {} ds')
  (hn : (finishedModel ds).SameNames (finishedModel ds'))

include ha ha' hn

theorem exists_reachableType {id : TypeId} (hid : id ∈ (finishedModel ds).reachableTypes) :
    ∃ t, (finishedModel ds).ResolvesTarget t id ∧
      ∃ id' ∈ (finishedModel ds').reachableTypes, (finishedModel ds').ResolvesTarget t id' := by
  have hm' := Draft.portrays_finishedModel ha'
  obtain ⟨t, ht⟩ := Draft.resolvesTarget_of_reachable hid
  refine ⟨t, ht, ?_⟩
  obtain ⟨n, _ | _⟩ := t
  · rcases hfind' : (finishedModel ds').findType? n with _ | id'
    · have hfind : (finishedModel ds).findType? n = none := by
        rw [← Option.not_isSome_iff_eq_none, hn.types, hfind']
        exact Bool.false_ne_true
      rw [Model.ResolvesTarget, Model.Resolves, hfind] at ht
      have hmem := (Draft.mem_unresolvedTypes_iff_reachable ha).mpr ⟨id, hid, ht.2⟩
      rw [hn.unresolvedTypes, Draft.mem_unresolvedTypes_iff_reachable ha'] at hmem
      obtain ⟨id', hid', hx⟩ := hmem
      exact ⟨id', hid', Model.resolves_of_undefined hm'.indexed hfind' hx⟩
    · exact ⟨id', Model.reachable_of_registered ⟨n, hfind'⟩, Model.resolves_of_registered hfind'⟩
  · obtain ⟨id', hid'⟩ := Option.isSome_iff_exists.mp
      ((hn.lists n).mp (Option.isSome_iff_exists.mpr ⟨id, ht.1⟩))
    exact ⟨id', hm'.reachable_list hid', hm'.resolvesTarget_list hid'⟩

theorem exists_reachableService {id : ServiceId}
    (hid : id ∈ (finishedModel ds).reachableServices) :
    ∃ n, (finishedModel ds).ResolvesService n id ∧
      ∃ id' ∈ (finishedModel ds').reachableServices,
        (finishedModel ds').ResolvesService n id' := by
  have hm' := Draft.portrays_finishedModel ha'
  obtain ⟨n, hr⟩ := Draft.resolvesService_of_reachable hid
  refine ⟨n, hr, ?_⟩
  rcases hfind' : (finishedModel ds').findService? n with _ | id'
  · have hfind : (finishedModel ds).findService? n = none := by
      rw [← Option.not_isSome_iff_eq_none, hn.services, hfind']
      exact Bool.false_ne_true
    rw [Model.ResolvesService, hfind] at hr
    have hmem := (Draft.mem_unresolvedServices_iff_reachable ha).mpr ⟨id, hid, hr.2⟩
    rw [hn.unresolvedServices, Draft.mem_unresolvedServices_iff_reachable ha'] at hmem
    obtain ⟨id', hid', hx⟩ := hmem
    exact ⟨id', hid', Model.resolvesService_of_undefined hm'.indexed hfind' hx⟩
  · exact ⟨id', Model.reachable_of_registered ⟨n, hfind'⟩,
      Model.resolvesService_of_registered hfind'⟩

theorem reflects_of_sameNames (ht : (finishedModel ds).Twins Eq (finishedModel ds')) :
    (finishedModel ds).Reflects (finishedModel ds') where
  twins := ht
  housed := (Draft.housed_declareEach ds).settled
  housed' := (Draft.housed_declareEach ds').settled
  type _ := exists_reachableType ha ha' hn
  service _ := exists_reachableService ha ha' hn
  list := hn.lists

end SameNames

/-! ## Permuted declarations -/

theorem Declaration.Like.refl {R : TypeDecl → TypeDecl → Prop} (hR : ∀ t, R t t)
    (decl : Declaration) : decl.Like R decl := by
  cases decl with
  | type t => exact .type (hR t)
  | service t => exact .service t
  | document t => exact .document t

theorem TypeDecl.alike_of_eq (t t' : TypeDecl) (h : t = t') : t.Alike t' :=
  h ▸ .refl t

section Permuted

variable {ds ds' : List Declaration} (hp : ds.Perm ds')

include hp

theorem corresponds_of_perm : Corresponds Eq ds ds' where
  forth x hx := ⟨x, hp.mem_iff.mp hx, .refl (fun _ => rfl) x⟩
  back y hy := ⟨y, hp.mem_iff.mpr hy, .refl (fun _ => rfl) y⟩

variable (hu : Unambiguous ds)

include hu

theorem accepts_of_perm : Draft.Accepts {} ds ↔ Draft.Accepts {} ds' :=
  (corresponds_of_perm hp).accepts TypeDecl.alike_of_eq hu (hu.perm hp)

variable (ha : Draft.Accepts {} ds)

include ha

theorem sameNames_of_perm : (finishedModel ds).SameNames (finishedModel ds') := by
  have hc := corresponds_of_perm hp
  have hu' := hu.perm hp
  have hm := Draft.portrays_finishedModel ha
  have hm' := Draft.portrays_finishedModel ((accepts_of_perm hp hu).mp ha)
  exact
    { types := fun _ => hc.findType? TypeDecl.alike_of_eq hm hm'
      services := fun _ => hc.findService? hm hm'
      lists := fun _ => hc.findList? TypeDecl.alike_of_eq hm hm' hu hu'
      unresolvedTypes := fun _ => hc.mem_unresolvedTypes TypeDecl.alike_of_eq hu hu' ha
      unresolvedServices := fun _ => hc.mem_unresolvedServices TypeDecl.alike_of_eq hu hu' ha }

theorem mirrors_of_perm : (finishedModel ds).Mirrors (finishedModel ds') := by
  have hc := corresponds_of_perm hp
  have ha' := (accepts_of_perm hp hu).mp ha
  exact
    { reflects_of_sameNames ha ha' (sameNames_of_perm hp hu ha)
        (hc.finished_twins TypeDecl.alike_of_eq hu (hu.perm hp) ha) with
      module := fun _ => (Draft.isSome_findModule?_declareEach ha).trans
        ((hc.moduleNames TypeDecl.alike_of_eq).trans
          (Draft.isSome_findModule?_declareEach ha').symm) }

theorem root_of_perm : (finishedModel ds').root = (finishedModel ds).root.map
    ((finishedModel ds).renumbering (finishedModel ds')).service := by
  have he := Draft.elects_declareEach hu ha
  have he' := Draft.elects_declareEach (hu.perm hp) ((accepts_of_perm hp hu).mp ha)
  refine eq_map_of_optionRel (optionRel_of_isSome ⟨fun h => ?_, fun h => ?_⟩
    fun id id' hid hid' => ?_)
  · obtain ⟨id, hid⟩ := Option.isSome_iff_exists.mp h
    obtain ⟨t, ht, hr, -⟩ := he.root hid
    exact he'.isSome (hp.mem_iff.mp ht) hr
  · obtain ⟨id, hid⟩ := Option.isSome_iff_exists.mp h
    obtain ⟨t, ht, hr, -⟩ := he'.root hid
    exact he.isSome (hp.mem_iff.mpr ht) hr
  · obtain ⟨t, ht, hr, hn⟩ := he.root hid
    obtain ⟨t', ht', hr', hn'⟩ := he'.root hid'
    obtain rfl := Declaration.service.inj (hu.eq_of_isRoot ht (hp.mem_iff.mpr ht') hr hr')
    have hfind := (mirrors_of_perm hp hu ha).findService? (serviceName t.name)
    rw [show (finishedModel ds).findService? _ = some id from hn,
      show (finishedModel ds').findService? _ = some id' from hn'] at hfind
    exact Option.some.inj hfind

theorem renumbers_of_perm : (finishedModel ds).Renumbers
    ((finishedModel ds).renumbering (finishedModel ds')) (finishedModel ds') := by
  have hn := sameNames_of_perm hp hu ha
  have h := mirrors_of_perm hp hu ha
  have h' := mirrors_of_perm hp.symm (hu.perm hp) ((accepts_of_perm hp hu).mp ha)
  exact
    { typeIds := h.typeIds h'.toReflects
      serviceIds := h.serviceIds h'.toReflects
      moduleIds := h.moduleIds h'
      findType? := h.findType?
      findService? := h.findService?
      findList? := h.findList?
      findModule? := h.findModule?
      type? := fun _ => h.type?
      service? := fun _ => h.service?
      module? := h.module? h'
      root := root_of_perm hp hu ha
      documents := by
        show (Draft.declareEach {} ds).model.documents.Perm (Draft.declareEach {} ds').model.documents
        rw [Draft.documents_declareEach, Draft.documents_declareEach]
        exact hp.filterMap _
      unresolvedTypes := NameSet.toList_eq hn.unresolvedTypes
      unresolvedServices := NameSet.toList_eq hn.unresolvedServices }

end Permuted

/-- The order of `Unambiguous` declarations makes no difference to whether `analyze` succeeds, nor
to the cycle that it fails for if all names have words, and makes no difference to the model apart
from numbers. -/
theorem analysis_equal_up_to_numbers {ds ds' : List Declaration} (hp : ds.Perm ds')
    (hu : Unambiguous ds) :
    (analyze ds).isOk = (analyze ds').isOk ∧
    ((∀ decl ∈ ds, decl.isNamed = true) → ∀ e, analyze ds = .error e →
      ∃ cycle, e = .circularInheritance cycle ∧ analyze ds' = .error e) ∧
    ∀ a a', analyze ds = .ok a → analyze ds' = .ok a' → ∃ ρ, a.model.Renumbers ρ a'.model := by
  have hc := corresponds_of_perm hp
  refine ⟨hc.analyze_isOk TypeDecl.alike_of_eq hu (hu.perm hp), fun hn e he =>
    hc.analyze_error TypeDecl.alike_of_eq hu (hu.perm hp) hn he, fun a a' ha ha' => ?_⟩
  obtain ⟨hds, -, rfl⟩ := analyze_eq_ok.mp ha
  obtain ⟨-, -, rfl⟩ := analyze_eq_ok.mp ha'
  exact ⟨_, renumbers_of_perm hp hu hds⟩

/-- References in both directions, between structs and between services, to a list, to a
primitive and to what nothing declares. -/
def crossingDeclarations : List Declaration := [
  .service {
    name := "SystemService"
    space := "model.services"
    isRoot := true
    locators := [{ name := "vms", service := "VmsService" }] },
  .type { name := "Vm", space := "model.types", body := .struct (.class "Identified") [
    { name := "status", type := { name := "VmStatus" } },
    { name := "disks", type := { name := "Disk", isArray := true }, kind := .link }] },
  .document { file := "introduction.adoc", source := "= Introduction" },
  .type { name := "VmStatus", space := "model.types", body := .enum [
    { name := "UP" }, { name := "DOWN" }] },
  .type { name := "Disk", space := "model.types", body := .struct .none [
    { name := "vm", type := { name := "Vm" }, kind := .link },
    { name := "size", type := { name := "Integer" } }] },
  .service {
    name := "VmsService"
    space := "model.services"
    methods := [{ name := "add", parameters := [{ name := "vm", type := { name := "Vm" } }],
                  constraints := [{ name := "input", source := "mandatory(vm().name());" }] }]
    locators := [{ name := "vm", service := "VmService" }] }]

theorem analysis_equal_up_to_numbers_crossing : ∃ a a',
    analyze crossingDeclarations = .ok a ∧ analyze crossingDeclarations.reverse = .ok a' ∧
      a.model.findType? (Name.ofCase "Vm") ≠ a'.model.findType? (Name.ofCase "Vm") ∧
      ∃ ρ, a.model.Renumbers ρ a'.model := by
  have hvm : (analyze crossingDeclarations).toOption.map (·.model.findType? (Name.ofCase "Vm")) =
      some (some ⟨5⟩) := by
    decide +kernel
  have hvm' : (analyze crossingDeclarations.reverse).toOption.map
      (·.model.findType? (Name.ofCase "Vm")) = some (some ⟨8⟩) := by
    decide +kernel
  obtain ⟨a, ha, hv⟩ := Option.map_eq_some_iff.mp hvm
  obtain ⟨a', ha', hv'⟩ := Option.map_eq_some_iff.mp hvm'
  have hok := eq_ok_of_toOption ha
  have hok' := eq_ok_of_toOption ha'
  have hu : Unambiguous crossingDeclarations :=
    ⟨by decide +kernel, by decide +kernel, by decide +kernel⟩
  refine ⟨a, a', hok, hok', ?_,
    (analysis_equal_up_to_numbers (List.reverse_perm _).symm hu).2.2 a a' hok hok'⟩
  rw [hv, hv']
  decide

end ApiModel
