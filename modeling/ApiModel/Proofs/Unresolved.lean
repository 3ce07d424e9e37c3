import ApiModel.Proofs.Finished
import Mathlib.Logic.Relation

/-!
# What stays unresolved

A name is reported if it is pending and nothing has been registered under it. A
finished model tells the unresolved names by looking at what its registered
entities refer to. Both are the names that recorded declarations ask for and
that nothing declares, and both are what leads from a registered entity to an
undefined one.
-/

namespace ApiModel

/-! ## Reachable entities -/

/-- The entity has been registered in `m` under some name. -/
def Entity.Registered (m : Model) : Entity → Prop
  | .type id => ∃ n, m.findType? n = some id
  | .service id => ∃ n, m.findService? n = some id

namespace Model

/-- One entity refers to another in one of its slots, a `TypeSlot` or a `ServiceSlot`. -/
inductive RefersTo (m : Model) : Entity → Entity → Prop
  | type {slot : TypeSlot} {x : TypeId} (h : m.typeAt? slot = some x) :
      RefersTo m slot.owner (.type x)
  | service {slot : ServiceSlot} {x : ServiceId} (h : m.serviceAt? slot = some x) :
      RefersTo m slot.owner (.service x)

/-- References lead from a `Registered` entity to `e`. -/
def Reachable (m : Model) (e : Entity) : Prop :=
  ∃ r : Entity, r.Registered m ∧ Relation.ReflTransGen m.RefersTo r e

/-! ## References and slots -/

variable {m : Model}

/-- What the struct `s` refers to stands in one of its slots. -/
theorem slot_of_structReference {id x : TypeId} {s : StructType}
    (hs : m.type? id = some (.struct s)) (hx : x ∈ structReferences s) :
    ∃ slot, slot.owner = .type id ∧ m.typeAt? slot = some x := by
  have hstruct := struct?_eq_some.mpr hs
  rcases List.mem_append.mp hx with hx | hx
  · refine ⟨.base id, rfl, ?_⟩
    rw [typeAt?, hstruct]
    exact Option.mem_toList.mp hx
  · obtain ⟨y, hy, rfl⟩ := List.mem_map.mp hx
    rcases List.mem_append.mp hy with hy | hy
    · obtain ⟨i, hi⟩ := List.mem_iff_getElem?.mp hy
      exact ⟨.attribute id i, rfl, by rw [typeAt?, hstruct, Option.bind_some, hi]; rfl⟩
    · obtain ⟨i, hi⟩ := List.mem_iff_getElem?.mp hy
      exact ⟨.link id i, rfl, by rw [typeAt?, hstruct, Option.bind_some, hi]; rfl⟩

theorem slot_of_serviceTypeReference {id : ServiceId} {x : TypeId} {s : DefinedService}
    (hs : m.service? id = some (.defined s)) (hx : x ∈ serviceTypeReferences s) :
    ∃ slot, slot.owner = .service id ∧ m.typeAt? slot = some x := by
  have hdefined := definedService?_eq_some.mpr hs
  rcases List.mem_append.mp hx with hx | hx
  · obtain ⟨y, hy, hx⟩ := List.mem_flatMap.mp hx
    obtain ⟨p, hp, rfl⟩ := List.mem_map.mp hx
    obtain ⟨k, hk⟩ := List.mem_iff_getElem?.mp hy
    obtain ⟨i, hi⟩ := List.mem_iff_getElem?.mp hp
    refine ⟨.methodParameter ⟨id, k⟩ i, rfl, ?_⟩
    rw [typeAt?, method?, hdefined, Option.bind_some, hk, Option.bind_some, hi]
    rfl
  · obtain ⟨l, hl, hx⟩ := List.mem_flatMap.mp hx
    obtain ⟨p, hp, rfl⟩ := List.mem_map.mp hx
    obtain ⟨k, hk⟩ := List.mem_iff_getElem?.mp hl
    obtain ⟨i, hi⟩ := List.mem_iff_getElem?.mp hp
    refine ⟨.locatorParameter id k i, rfl, ?_⟩
    rw [typeAt?, hdefined, Option.bind_some, hk, Option.bind_some, hi]
    rfl

theorem slot_of_serviceReference {id x : ServiceId} {s : DefinedService}
    (hs : m.service? id = some (.defined s)) (hx : x ∈ serviceReferences s) :
    ∃ slot, slot.owner = .service id ∧ m.serviceAt? slot = some x := by
  have hdefined := definedService?_eq_some.mpr hs
  rcases List.mem_append.mp hx with hx | hx
  · refine ⟨.base id, rfl, ?_⟩
    rw [serviceAt?, hdefined]
    exact Option.mem_toList.mp hx
  · obtain ⟨l, hl, rfl⟩ := List.mem_map.mp hx
    obtain ⟨k, hk⟩ := List.mem_iff_getElem?.mp hl
    exact ⟨.locator id k, rfl, by rw [serviceAt?, hdefined, Option.bind_some, hk]; rfl⟩

theorem mem_typeReferences {x : TypeId} : x ∈ m.typeReferences ↔
    (∃ n id s, m.findType? n = some id ∧ m.type? id = some (.struct s) ∧
      x ∈ structReferences s) ∨
    ∃ n id s, m.findService? n = some id ∧ m.service? id = some (.defined s) ∧
      x ∈ serviceTypeReferences s := by
  rw [typeReferences, List.mem_append, List.mem_flatMap, List.mem_flatMap]
  refine or_congr ⟨?_, ?_⟩ ⟨?_, ?_⟩
  · rintro ⟨⟨id, s⟩, hs, hx⟩
    obtain ⟨⟨n, hn⟩, hs⟩ := mem_structs.mp hs
    exact ⟨n, id, s, hn, hs, hx⟩
  · rintro ⟨n, id, s, hn, hs, hx⟩
    exact ⟨(id, s), mem_structs.mpr ⟨⟨n, hn⟩, hs⟩, hx⟩
  · rintro ⟨⟨id, s⟩, hs, hx⟩
    obtain ⟨⟨n, hn⟩, hs⟩ := mem_registeredServices.mp hs
    exact ⟨n, id, s, hn, hs, hx⟩
  · rintro ⟨n, id, s, hn, hs, hx⟩
    exact ⟨(id, s), mem_registeredServices.mpr ⟨⟨n, hn⟩, hs⟩, hx⟩

theorem slot_of_typeReference {x : TypeId} (h : x ∈ m.typeReferences) :
    ∃ slot, slot.owner.Registered m ∧ m.typeAt? slot = some x := by
  rcases mem_typeReferences.mp h with ⟨n, id, s, hn, hs, hx⟩ | ⟨n, id, s, hn, hs, hx⟩
  · obtain ⟨slot, ho, hx⟩ := slot_of_structReference hs hx
    exact ⟨slot, by rw [ho]; exact ⟨n, hn⟩, hx⟩
  · obtain ⟨slot, ho, hx⟩ := slot_of_serviceTypeReference hs hx
    exact ⟨slot, by rw [ho]; exact ⟨n, hn⟩, hx⟩

theorem mem_serviceReferences {x : ServiceId} :
    x ∈ m.registeredServices.flatMap (fun (_, s) => serviceReferences s) ↔
      ∃ n id s, m.findService? n = some id ∧ m.service? id = some (.defined s) ∧
        x ∈ serviceReferences s := by
  rw [List.mem_flatMap]
  constructor
  · rintro ⟨⟨id, s⟩, hs, hx⟩
    obtain ⟨⟨n, hn⟩, hs⟩ := mem_registeredServices.mp hs
    exact ⟨n, id, s, hn, hs, hx⟩
  · rintro ⟨n, id, s, hn, hs, hx⟩
    exact ⟨(id, s), mem_registeredServices.mpr ⟨⟨n, hn⟩, hs⟩, hx⟩

end Model

/-! ## What declarations ask for is referred to -/

section Requests

variable {r : Reading}

theorem StructType.Matches.reference {id : TypeId} {s : StructType} {decl : TypeDecl}
    {base : Option String} {members : List MemberDecl} (h : s.Matches r id decl base members)
    {t : Target} (ht : .type t ∈ structRequests base members) :
    ∃ x ∈ Model.structReferences s, r.type x t := by
  rcases ht with ⟨text, htext, ht⟩ | ⟨y, hy, ht⟩
  · obtain rfl := Request.type.inj ht
    obtain ⟨b, hb, hr⟩ := exists_of_optionRel h.base htext
    exact ⟨b, List.mem_append_left _ (Option.mem_toList.mpr hb), hr⟩
  · obtain rfl := Request.type.inj ht
    have hmem : ∃ x ∈ s.members, r.type x.type y.type.target := by
      rcases hk : y.kind with _ | _
      · obtain ⟨x, hx, hm⟩ := exists_of_forall₂ h.attributes (List.mem_filter.mpr ⟨hy, by simp [hk]⟩)
        exact ⟨x, List.mem_append_left _ hx, hm.type⟩
      · obtain ⟨x, hx, hm⟩ := exists_of_forall₂ h.links (List.mem_filter.mpr ⟨hy, by simp [hk]⟩)
        exact ⟨x, List.mem_append_right _ hx, hm.type⟩
    obtain ⟨x, hx, hm⟩ := hmem
    exact ⟨x.type, List.mem_append_right _ (List.mem_map_of_mem hx), hm⟩

theorem DefinedService.Matches.typeReference {id : ServiceId} {s : DefinedService}
    {decl : ServiceDecl}
    (h : s.Matches r id decl decl.supertype.base? decl.methods decl.locators)
    {t : Target} (ht : .type t ∈ decl.requests) :
    ∃ x ∈ Model.serviceTypeReferences s, r.type x t := by
  rcases ht with ⟨text, -, ht⟩ | ⟨y, hy, p, hp, ht⟩ | ⟨y, hy, ht | ⟨p, hp, ht⟩⟩
  · cases ht
  · obtain rfl := Request.type.inj ht
    obtain ⟨⟨x, k⟩, hx, hm⟩ := exists_of_forall₂ h.methods hy
    obtain ⟨q, hq, hm⟩ := exists_of_forall₂ hm.parameters hp
    refine ⟨q.type, List.mem_append_left _ (List.mem_flatMap.mpr ⟨x, ?_, ?_⟩), hm.type⟩
    · exact List.fst_mem_of_mem_zipIdx hx
    · exact List.mem_map_of_mem hq
  · cases ht
  · obtain rfl := Request.type.inj ht
    obtain ⟨x, hx, hm⟩ := exists_of_forall₂ h.locators hy
    obtain ⟨q, hq, hm⟩ := exists_of_forall₂ hm.parameters hp
    exact ⟨q.type, List.mem_append_right _ (List.mem_flatMap.mpr ⟨x, hx, List.mem_map_of_mem hq⟩),
      hm.type⟩

theorem DefinedService.Matches.serviceReference {id : ServiceId} {s : DefinedService}
    {decl : ServiceDecl}
    (h : s.Matches r id decl decl.supertype.base? decl.methods decl.locators)
    {n : Name} (hn : .service n ∈ decl.requests) :
    ∃ x ∈ Model.serviceReferences s, r.service x n := by
  rcases hn with ⟨text, htext, hn⟩ | ⟨y, -, p, -, hn⟩ | ⟨y, hy, hn | ⟨p, -, hn⟩⟩
  · obtain rfl := Request.service.inj hn
    obtain ⟨b, hb, hr⟩ := exists_of_optionRel h.base htext
    exact ⟨b, List.mem_append_left _ (Option.mem_toList.mpr hb), hr⟩
  · cases hn
  · obtain rfl := Request.service.inj hn
    obtain ⟨x, hx, hm⟩ := exists_of_forall₂ h.locators hy
    exact ⟨x.service, List.mem_append_right _ (List.mem_map_of_mem hx), hm.service⟩
  · cases hn

namespace Model

variable {m : Model} {decl : Declaration}

theorem Records.typeReference (h : m.Records r decl true) {t : Target}
    (ht : .type t ∈ decl.requests) : ∃ x ∈ m.typeReferences, r.type x t := by
  match decl with
  | .type decl =>
    obtain ⟨id, x, hid, hx, hr⟩ := h
    unfold DataType.Records at hr
    simp only [Declaration.requests, TypeDecl.requests] at ht
    split at hr
    · rename_i supertype members hbody
      obtain ⟨s, rfl, -, hs⟩ := hr
      rw [hbody] at ht
      obtain ⟨y, hy, ht⟩ := (hs rfl).reference ht
      exact ⟨y, mem_typeReferences.mpr (.inl ⟨_, id, s, hid, hx, hy⟩), ht⟩
    · rename_i constants hbody
      rw [hbody] at ht
      exact ht.elim
  | .service decl =>
    obtain ⟨id, s, hid, hs, hr⟩ := h
    obtain ⟨y, hy, ht⟩ := (hr.whole rfl).typeReference ht
    exact ⟨y, mem_typeReferences.mpr (.inr ⟨_, id, s, hid, hs, hy⟩), ht⟩
  | .document _ => exact h.elim

theorem Records.serviceReference (h : m.Records r decl true) {n : Name}
    (hn : .service n ∈ decl.requests) :
    ∃ x ∈ m.registeredServices.flatMap (fun (_, s) => serviceReferences s), r.service x n := by
  match decl with
  | .type decl =>
    simp only [Declaration.requests, TypeDecl.requests] at hn
    split at hn
    · rcases hn with ⟨text, -, hn⟩ | ⟨y, -, hn⟩ <;> cases hn
    · exact hn.elim
  | .service decl =>
    obtain ⟨id, s, hid, hs, hr⟩ := h
    obtain ⟨y, hy, hn⟩ := (hr.whole rfl).serviceReference hn
    exact ⟨y, mem_serviceReferences.mpr ⟨_, id, s, hid, hs, hy⟩, hn⟩
  | .document _ => exact h.elim

end Model

end Requests

/-! ## Unresolved names -/

namespace Model

variable {m : Model} {n : Name}

theorem undefined?_eq_some {t : DataType} : t.undefined? = some n ↔ t = .undefined n := by
  cases t <;> simp [DataType.undefined?]

theorem unresolvedName?_of_resolvesTarget {t : Target} {x : TypeId} (h : m.ResolvesTarget t x)
    (hn : m.findType? t.name = none) : m.unresolvedName? x = some t.name := by
  have hundef : ∀ {id}, m.Resolves t.name id → m.type? id = some (.undefined t.name) := by
    intro id hid
    rw [Resolves, hn] at hid
    exact hid.2
  obtain ⟨n, _ | _⟩ := t
  · simp [unresolvedName?, hundef h, DataType.element?, DataType.undefined?]
  · obtain ⟨-, e, he, hr⟩ := h
    simp [unresolvedName?, he, hundef hr, DataType.element?, DataType.undefined?]

/-- An `unresolvedName?` is that of an undefined type, which is referred to or is the element of a
list that is. -/
theorem unresolvedName?_eq_some {x : TypeId} (h : m.unresolvedName? x = some n) :
    m.type? x = some (.undefined n) ∨
      ∃ e, m.typeAt? (.listElement x) = some e ∧ m.type? e = some (.undefined n) := by
  obtain ⟨t, ht, h⟩ := Option.bind_eq_some_iff.mp h
  rcases he : t.element? with _ | e
  · rw [he] at h
    exact .inl (ht.trans (congrArg some (undefined?_eq_some.mp h)))
  · rw [he] at h
    obtain ⟨u, hu, h⟩ := Option.bind_eq_some_iff.mp h
    exact .inr ⟨e, by rw [typeAt?, ht]; exact he, hu.trans (congrArg some (undefined?_eq_some.mp h))⟩

theorem mem_unresolvedTypes :
    n ∈ m.unresolvedTypes ↔ ∃ x ∈ m.typeReferences, m.unresolvedName? x = some n := by
  rw [unresolvedTypes, Std.TreeSet.mem_ofList, List.contains_iff_mem, List.mem_filterMap]

theorem mem_unresolvedServices : n ∈ m.unresolvedServices ↔
    ∃ x ∈ m.registeredServices.flatMap (fun (_, s) => serviceReferences s),
      m.service? x = some (.undefined n) := by
  rw [unresolvedServices, Std.TreeSet.mem_ofList, List.contains_iff_mem, List.mem_filterMap]
  refine exists_congr fun x => and_congr_right fun _ => ?_
  rcases m.service? x with _ | s
  · simp
  · cases s <;> simp [Service.undefined?]

/-- After `settledType`, only a name that nothing is registered under still leads to an undefined
type. -/
theorem settledType_undefined (hi : m.Indexed) {x : TypeId}
    (h : m.type? (m.settledType x) = some (.undefined n)) :
    m.type? x = some (.undefined n) ∧ m.findType? n = none := by
  rw [settledType] at h
  split at h
  · rename_i n' hx
    rcases hn : m.findType? n' with _ | id
    · rw [hn, Option.getD_none, hx] at h
      obtain rfl := DataType.undefined.inj (Option.some.inj h)
      exact ⟨hx, hn⟩
    · rw [hn] at h
      exact absurd h (hi.type?_ne_undefined hn n)
  · rename_i hx
    exact absurd h (hx n)

theorem settledService_undefined (hi : m.Indexed) {x : ServiceId}
    (h : m.service? (m.settledService x) = some (.undefined n)) :
    m.service? x = some (.undefined n) ∧ m.findService? n = none := by
  rw [settledService] at h
  split at h
  · rename_i n' hx
    rcases hn : m.findService? n' with _ | id
    · rw [hn, Option.getD_none, hx] at h
      obtain rfl := Service.undefined.inj (Option.some.inj h)
      exact ⟨hx, hn⟩
    · rw [hn] at h
      exact absurd h (hi.service?_ne_undefined hn n)
  · rename_i hx
    exact absurd h (hx n)

end Model

namespace Draft

variable {d : Draft} {ds : List Declaration} {n : Name}

/-- A `slot` that holds an undefined type in the end has been pending for a name that nothing is
registered under. -/
theorem Sound.pending_of_settled (hs : d.Sound) {slot : TypeSlot} {x : TypeId}
    (hx : d.model.settled.typeAt? slot = some x)
    (hn : d.model.settled.type? x = some (.undefined n)) :
    (n, slot) ∈ d.pendingTypes ∧ d.model.findType? n = none := by
  rw [Model.settled, ← Model.mapSlots_const, Model.typeAt?_mapSlots] at hx
  obtain ⟨x₀, hx₀, rfl⟩ := Option.map_eq_some_iff.mp hx
  obtain ⟨hu, hnone⟩ := Model.settledType_undefined hs.indexed (Model.type?_settled_undefined.mp hn)
  exact ⟨((hs.types hx₀).pending n).mpr hu, hnone⟩

theorem Sound.pendingService_of_settled (hs : d.Sound) {slot : ServiceSlot} {x : ServiceId}
    (hx : d.model.settled.serviceAt? slot = some x)
    (hn : d.model.settled.service? x = some (.undefined n)) :
    (n, slot) ∈ d.pendingServices ∧ d.model.findService? n = none := by
  rw [Model.settled, ← Model.mapSlots_const, Model.serviceAt?_mapSlots] at hx
  obtain ⟨x₀, hx₀, rfl⟩ := Option.map_eq_some_iff.mp hx
  obtain ⟨hu, hnone⟩ :=
    Model.settledService_undefined hs.indexed (Model.service?_settled_undefined.mp hn)
  exact ⟨((hs.services hx₀).pending n).mpr hu, hnone⟩

theorem Sound.pending_of_unresolved (hs : d.Sound) (h : n ∈ d.model.settled.unresolvedTypes) :
    (∃ slot, (n, slot) ∈ d.pendingTypes) ∧ d.model.findType? n = none := by
  obtain ⟨x, hx, hn⟩ := Model.mem_unresolvedTypes.mp h
  obtain ⟨slot, -, hx⟩ := Model.slot_of_typeReference hx
  rcases Model.unresolvedName?_eq_some hn with hu | ⟨e, he, hu⟩
  · obtain ⟨hp, hnone⟩ := hs.pending_of_settled hx hu
    exact ⟨⟨slot, hp⟩, hnone⟩
  · obtain ⟨hp, hnone⟩ := hs.pending_of_settled he hu
    exact ⟨⟨.listElement x, hp⟩, hnone⟩

theorem Sound.pendingService_of_unresolved (hs : d.Sound)
    (h : n ∈ d.model.settled.unresolvedServices) :
    (∃ slot, (n, slot) ∈ d.pendingServices) ∧ d.model.findService? n = none := by
  obtain ⟨x, hx, hn⟩ := Model.mem_unresolvedServices.mp h
  obtain ⟨_, id, s, -, hid, hx⟩ := Model.mem_serviceReferences.mp hx
  obtain ⟨slot, -, hx⟩ := Model.slot_of_serviceReference hid hx
  obtain ⟨hp, hnone⟩ := hs.pendingService_of_settled hx hn
  exact ⟨⟨slot, hp⟩, hnone⟩

end Draft

namespace Model

variable {m : Model} {n : Name} {decl : Declaration}

/-- What a recorded declaration `decl` asks for is unresolved if nothing has its name. -/
theorem Records.unresolvedType (h : m.Records m.unparsed decl true) {t : Target}
    (ht : .type t ∈ decl.requests) (hn : m.findType? t.name = none) :
    t.name ∈ m.unresolvedTypes := by
  obtain ⟨x, hx, hr⟩ := h.typeReference ht
  exact mem_unresolvedTypes.mpr ⟨x, hx, unresolvedName?_of_resolvesTarget hr hn⟩

theorem Records.unresolvedService (h : m.Records m.unparsed decl true)
    (hd : .service n ∈ decl.requests) (hn : m.findService? n = none) :
    n ∈ m.unresolvedServices := by
  obtain ⟨x, hx, hr⟩ := h.serviceReference hd
  replace hr : m.ResolvesService n x := hr
  rw [ResolvesService, hn] at hr
  exact mem_unresolvedServices.mpr ⟨x, hx, hr.2⟩

end Model

namespace Draft

variable {ds : List Declaration} {n : Name} (h : Accepts {} ds)

include h

/-- A pending name `n` that nothing is registered under is unresolved. -/
theorem unresolvedType_of_pending {slot : TypeSlot}
    (hp : (n, slot) ∈ (declareEach {} ds).pendingTypes)
    (hn : (declareEach {} ds).model.findType? n = none) :
    n ∈ (finishedModel ds).unresolvedTypes := by
  obtain ⟨decl, -, hr, t, ht, rfl⟩ := (carriedOut_declareEach h).pendingTypes hp
  exact (hr.settled (sound_declareEach ds).1.indexed).unresolvedType ht hn

theorem unresolvedService_of_pending {slot : ServiceSlot}
    (hp : (n, slot) ∈ (declareEach {} ds).pendingServices)
    (hn : (declareEach {} ds).model.findService? n = none) :
    n ∈ (finishedModel ds).unresolvedServices := by
  obtain ⟨decl, -, hr, hd⟩ := (carriedOut_declareEach h).pendingServices hp
  exact (hr.settled (sound_declareEach ds).1.indexed).unresolvedService hd hn

/-- The `unresolvedTypes` are those that recorded declarations ask for and nothing declares. -/
theorem mem_unresolvedTypes_iff : n ∈ (finishedModel ds).unresolvedTypes ↔
    (finishedModel ds).findType? n = none ∧
      ∃ decl ∈ ds, (finishedModel ds).Records (finishedModel ds).unparsed decl true ∧
        ∃ t, .type t ∈ decl.requests ∧ t.name = n := by
  have hs := (sound_declareEach ds).1
  constructor
  · intro hu
    obtain ⟨⟨slot, hp⟩, hn⟩ := hs.pending_of_unresolved hu
    obtain ⟨decl, hd, hr, ht⟩ := (carriedOut_declareEach h).pendingTypes hp
    exact ⟨hn, decl, hd, hr.settled hs.indexed, ht⟩
  · rintro ⟨hn, decl, -, hr, t, ht, rfl⟩
    exact hr.unresolvedType ht hn

theorem mem_unresolvedServices_iff : n ∈ (finishedModel ds).unresolvedServices ↔
    (finishedModel ds).findService? n = none ∧
      ∃ decl ∈ ds, (finishedModel ds).Records (finishedModel ds).unparsed decl true ∧
        .service n ∈ decl.requests := by
  have hs := (sound_declareEach ds).1
  constructor
  · intro hu
    obtain ⟨⟨slot, hp⟩, hn⟩ := hs.pendingService_of_unresolved hu
    obtain ⟨decl, hd, hr, ht⟩ := (carriedOut_declareEach h).pendingServices hp
    exact ⟨hn, decl, hd, hr.settled hs.indexed, ht⟩
  · rintro ⟨hn, decl, -, hr, hd⟩
    exact hr.unresolvedService hd hn

/-- The `unresolvedTypes` are the names of the undefined types that are `Reachable`. -/
theorem mem_unresolvedTypes_iff_reachable :
    n ∈ (finishedModel ds).unresolvedTypes ↔
      ∃ id, (finishedModel ds).Reachable (.type id) ∧
        (finishedModel ds).type? id = some (.undefined n) := by
  have hs := (sound_declareEach ds).1
  constructor
  · intro hu
    obtain ⟨x, hx, hn⟩ := Model.mem_unresolvedTypes.mp hu
    obtain ⟨slot, ho, hx⟩ := Model.slot_of_typeReference hx
    have hstep := Relation.ReflTransGen.single (Model.RefersTo.type hx)
    rcases Model.unresolvedName?_eq_some hn with hu | ⟨e, he, hu⟩
    · exact ⟨x, ⟨_, ho, hstep⟩, hu⟩
    · exact ⟨e, ⟨_, ho, hstep.tail (.type he)⟩, hu⟩
  · rintro ⟨id, ⟨e, ⟨ho, hpath⟩⟩, hu⟩
    rcases hpath.cases_tail with he | ⟨_, -, hstep⟩
    · subst he
      obtain ⟨n', hn'⟩ := ho
      exact absurd hu (hs.indexed.settled.type?_ne_undefined hn' n)
    · cases hstep with
      | type hx =>
        obtain ⟨hp, hn⟩ := hs.pending_of_settled hx hu
        exact unresolvedType_of_pending h hp hn

theorem mem_unresolvedServices_iff_reachable :
    n ∈ (finishedModel ds).unresolvedServices ↔
      ∃ id, (finishedModel ds).Reachable (.service id) ∧
        (finishedModel ds).service? id = some (.undefined n) := by
  have hs := (sound_declareEach ds).1
  constructor
  · intro hu
    obtain ⟨x, hx, hn⟩ := Model.mem_unresolvedServices.mp hu
    obtain ⟨n', id, s, hid, hs, hx⟩ := Model.mem_serviceReferences.mp hx
    obtain ⟨slot, ho, hx⟩ := Model.slot_of_serviceReference hs hx
    exact ⟨x, ⟨slot.owner, by rw [ho]; exact ⟨n', hid⟩, .single (.service hx)⟩, hn⟩
  · rintro ⟨id, ⟨e, ⟨ho, hpath⟩⟩, hu⟩
    rcases hpath.cases_tail with he | ⟨_, -, hstep⟩
    · subst he
      obtain ⟨n', hn'⟩ := ho
      exact absurd hu (hs.indexed.settled.service?_ne_undefined hn' n)
    · cases hstep with
      | service hx =>
        obtain ⟨hp, hn⟩ := hs.pendingService_of_settled hx hu
        exact unresolvedService_of_pending h hp hn

end Draft

/-! ## Reports -/

theorem NameSet.nodup_toList (names : NameSet) : names.toList.Nodup := by
  refine names.distinct_toList.imp ?_
  rintro a _ h rfl
  exact h Std.ReflCmp.compare_self

theorem nodup_eraseDups : ∀ names : List Name, names.eraseDups.Nodup
  | [] => by simp
  | n :: names => by
    rw [List.eraseDups_cons, List.nodup_cons, List.mem_eraseDups]
    exact ⟨by simp, nodup_eraseDups _⟩
termination_by names => names.length
decreasing_by exact Nat.lt_succ_of_le (List.length_filter_le _ _)

namespace Reference

variable {ι σ : Type} (r : Reference ι σ)

theorem mem_unresolvedNames {m : Model} {pending : List (Name × σ)} {n : Name} :
    n ∈ r.unresolvedNames m pending ↔ (∃ slot, (n, slot) ∈ pending) ∧ r.lookup m n = none := by
  rw [unresolvedNames, List.mem_filter, List.mem_map, Option.isNone_iff_eq_none]
  refine and_congr_left fun _ => ⟨?_, ?_⟩
  · rintro ⟨⟨_, slot⟩, hp, rfl⟩
    exact ⟨slot, hp⟩
  · rintro ⟨slot, hp⟩
    exact ⟨_, hp, rfl⟩

/-- There is one of the `reports` for each name that is `pending` and not registered. -/
theorem reports_perm {m : Model} {pending : List (Name × σ)} {names : NameSet}
    (h : ∀ n, n ∈ names ↔ n ∈ r.unresolvedNames m pending) :
    (r.reports m pending).Perm (names.toList.map r.unresolved) := by
  refine List.Perm.map _ ((List.perm_ext_iff_of_nodup ?_ (NameSet.nodup_toList names)).mpr fun n => ?_)
  · exact nodup_eraseDups _
  · rw [List.mem_eraseDups, Std.TreeSet.mem_toList, h]

end Reference

namespace Draft

variable {d d' : Draft} {ds : List Declaration} {decl : Declaration}

/-- Declaring reports on names that are taken and roots that are replaced, and nothing else. -/
theorem Outcome.diagnostics {complete : Bool} (h : d.Outcome decl complete d') :
    ∀ x ∈ d'.diagnostics, x ∈ d.diagnostics ∨
      x.kind ∈ [DiagnosticKind.duplicateType, .duplicateService, .rootReplaced] := by
  cases h with
  | unnamedType | droppedType | unnamedService | document => exact fun x hx => .inl hx
  | takenType | takenService =>
    intro x hx
    refine (List.mem_append.mp hx).imp_right fun hx => ?_
    rw [List.mem_singleton.mp hx]
    simp [RegistryError.diagnostic, Diagnostic.report]
  | addedType _ _ _ hb => rw [hb.diagnostics]; exact fun x hx => .inl hx
  | @addedService _ _ _ _ d₁ _ _ _ _ hb _ _ _ _ _ _ hd =>
    have h₁ : ∀ x ∈ d₁.diagnostics, x ∈ d.diagnostics := by
      rw [hb.diagnostics]
      exact fun x hx => hx
    rw [hd]
    split
    · intro x hx
      refine (List.mem_append.mp hx).imp (h₁ x) fun hx => ?_
      obtain ⟨previous, -, rfl⟩ := List.mem_map.mp hx
      simp [Diagnostic.rootReplaced, Diagnostic.report]
    · exact fun x hx => .inl (h₁ x hx)

theorem diagnostics_declareEach (ds : List Declaration) : ∀ x ∈ (declareEach {} ds).diagnostics,
    x.kind ∈ [DiagnosticKind.duplicateType, .duplicateService, .rootReplaced] := by
  induction ds using List.reverseRecOn with
  | nil => intro x hx; cases hx
  | append_singleton ds decl ih =>
    intro x hx
    exact ((outcome_declareEach ds decl).diagnostics x hx).elim (ih x) id

variable (h : Accepts {} ds)

include h

/-- The `unresolvedTypes` are the names that are reported. -/
theorem mem_unresolvedTypes_iff_pending {n : Name} : n ∈ (finishedModel ds).unresolvedTypes ↔
    n ∈ Reference.types.unresolvedNames (declareEach {} ds).model
      (declareEach {} ds).pendingTypes := by
  rw [Reference.mem_unresolvedNames]
  exact ⟨(sound_declareEach ds).1.pending_of_unresolved,
    fun ⟨⟨_, hp⟩, hn⟩ => unresolvedType_of_pending h hp hn⟩

theorem mem_unresolvedServices_iff_pending {n : Name} :
    n ∈ (finishedModel ds).unresolvedServices ↔
      n ∈ Reference.services.unresolvedNames (declareEach {} ds).model
        (declareEach {} ds).pendingServices := by
  rw [Reference.mem_unresolvedNames]
  exact ⟨(sound_declareEach ds).1.pendingService_of_unresolved,
    fun ⟨⟨_, hp⟩, hn⟩ => unresolvedService_of_pending h hp hn⟩

theorem reports_types_perm :
    (Reference.types.reports (declareEach {} ds).model (declareEach {} ds).pendingTypes).Perm
      ((finishedModel ds).unresolvedTypes.toList.map .unresolvedType) :=
  Reference.types.reports_perm fun _ => mem_unresolvedTypes_iff_pending h

theorem reports_services_perm :
    (Reference.services.reports (declareEach {} ds).model
      (declareEach {} ds).pendingServices).Perm
      ((finishedModel ds).unresolvedServices.toList.map .unresolvedService) :=
  Reference.services.reports_perm fun _ => mem_unresolvedServices_iff_pending h

end Draft

section Analysis

/-- Diagnostics of the kind `k`, among those of other kinds. -/
theorem filter_kind {k : DiagnosticKind} {pre xs post : List Diagnostic}
    (hpre : ∀ x ∈ pre, x.kind ≠ k) (hxs : ∀ x ∈ xs, x.kind = k) (hpost : ∀ x ∈ post, x.kind ≠ k) :
    (pre ++ xs ++ post).filter (·.kind = k) = xs := by
  rw [List.filter_append, List.filter_append, List.filter_eq_nil_iff.mpr (by simpa using hpre),
    List.filter_eq_self.mpr (by simpa using hxs), List.filter_eq_nil_iff.mpr (by simpa using hpost),
    List.nil_append, List.append_nil]

theorem kind_reports {ι σ : Type} {r : Reference ι σ} {k : DiagnosticKind}
    (hr : ∀ n, (r.unresolved n).kind = k) {m : Model} {pending : List (Name × σ)} :
    ∀ x ∈ r.reports m pending, x.kind = k := by
  intro x hx
  obtain ⟨n, -, rfl⟩ := List.mem_map.mp hx
  exact hr n

variable {ds : List Declaration} {a : Analysis} (h : analyze ds = .ok a)

include h

theorem unresolvedType_diagnostics : (a.diagnostics.filter (·.kind = .unresolvedType)).Perm
    (a.model.unresolvedTypes.toList.map .unresolvedType) := by
  obtain ⟨hd, -, rfl⟩ := analyze_eq_ok.mp h
  obtain ⟨hs, hb⟩ := Draft.sound_declareEach ds
  simp only [Draft.fixup_diagnostics hs hb]
  rw [filter_kind (fun x hx hk => ?_) (kind_reports fun _ => rfl) fun x hx => ?_]
  · exact Draft.reports_types_perm hd
  · simpa [hk] using Draft.diagnostics_declareEach ds x hx
  · rw [kind_reports (fun _ => rfl) x hx]
    decide

theorem unresolvedService_diagnostics : (a.diagnostics.filter (·.kind = .unresolvedService)).Perm
    (a.model.unresolvedServices.toList.map .unresolvedService) := by
  obtain ⟨hd, -, rfl⟩ := analyze_eq_ok.mp h
  obtain ⟨hs, hb⟩ := Draft.sound_declareEach ds
  simp only [Draft.fixup_diagnostics hs hb]
  rw [← List.append_nil (_ ++ _), filter_kind (fun x hx hk => ?_) (kind_reports fun _ => rfl) (by simp)]
  · exact Draft.reports_services_perm hd
  · rcases List.mem_append.mp hx with hx | hx
    · simpa [hk] using Draft.diagnostics_declareEach ds x hx
    · rw [kind_reports (fun _ => rfl) x hx] at hk
      cases hk

end Analysis

theorem forall_kind_ne_iff {k : DiagnosticKind} {xs : List Diagnostic} {names : NameSet}
    {f : Name → Diagnostic} (h : (xs.filter (·.kind = k)).Perm (names.toList.map f)) :
    (∀ x ∈ xs, x.kind ≠ k) ↔ ∀ n, n ∉ names := by
  calc (∀ x ∈ xs, x.kind ≠ k)
    _ ↔ xs.filter (·.kind = k) = [] := by simp [List.filter_eq_nil_iff]
    _ ↔ names.toList.map f = [] := by
      rw [← List.length_eq_zero_iff, h.length_eq, List.length_eq_zero_iff]
    _ ↔ ∀ n, n ∉ names := by
      rw [List.map_eq_nil_iff, List.eq_nil_iff_forall_not_mem]
      simp only [Std.TreeSet.mem_toList]

/-- Each name that stays unresolved, by `unresolvedTypes` and `unresolvedServices`, is reported
exactly once, and nothing else is reported as unresolved. So nothing is if no undefined entity is
`Reachable`. -/
theorem unresolved_names_reported_once {ds : List Declaration} {a : Analysis}
    (h : analyze ds = .ok a) :
    (a.diagnostics.filter (·.kind = .unresolvedType)).Perm
      (a.model.unresolvedTypes.toList.map fun n =>
        ⟨.error, .unresolvedType, s!"can't resolve type '{n.display}'"⟩) ∧
    (a.diagnostics.filter (·.kind = .unresolvedService)).Perm
      (a.model.unresolvedServices.toList.map fun n =>
        ⟨.error, .unresolvedService, s!"can't resolve service '{n.display}'"⟩) ∧
    ((∀ x ∈ a.diagnostics, x.kind ≠ .unresolvedType) ↔
      ∀ id n, a.model.Reachable (.type id) → a.model.type? id ≠ some (.undefined n)) ∧
    ((∀ x ∈ a.diagnostics, x.kind ≠ .unresolvedService) ↔
      ∀ id n, a.model.Reachable (.service id) → a.model.service? id ≠ some (.undefined n)) := by
  have htypes := unresolvedType_diagnostics h
  have hservices := unresolvedService_diagnostics h
  refine ⟨htypes, hservices, (forall_kind_ne_iff htypes).trans ?_,
    (forall_kind_ne_iff hservices).trans ?_⟩
  · obtain ⟨hd, -, rfl⟩ := analyze_eq_ok.mp h
    simp only [Draft.mem_unresolvedTypes_iff_reachable hd]
    exact ⟨fun hn id n hr hu => hn n ⟨id, hr, hu⟩, fun hn n ⟨id, hr, hu⟩ => hn id n hr hu⟩
  · obtain ⟨hd, -, rfl⟩ := analyze_eq_ok.mp h
    simp only [Draft.mem_unresolvedServices_iff_reachable hd]
    exact ⟨fun hn id n hr hu => hn n ⟨id, hr, hu⟩, fun hn n ⟨id, hr, hu⟩ => hn id n hr hu⟩

/-- Names without a declaration as a base, in lists, in parameters and as the target of a
locator; what a struct that comes second asks for doesn't count. -/
def danglingDeclarations : List Declaration := [
  .service {
    name := "DisksService"
    space := "services"
    methods := [{ name := "add", parameters := [{ name := "disk", type := { name := "Disk" } },
                                                { name := "host", type := { name := "Host" } }] }]
    locators := [{ name := "disk", service := "DiskService" }] },
  .type { name := "Disk", space := "types", body := .struct (.class "Identified") [
    { name := "snapshots", type := { name := "Snapshot", isArray := true } },
    { name := "copies", type := { name := "Snapshot", isArray := true } }] },
  .type { name := "Disk", space := "types", body := .struct .none [
    { name := "ghost", type := { name := "Ghost" } }] }]

theorem unresolved_names_reported_once_dangling : ∃ a, analyze danglingDeclarations = .ok a ∧
    a.model.unresolvedTypes.toList = [⟨["host"]⟩, ⟨["identified"]⟩, ⟨["snapshot"]⟩] ∧
    (a.diagnostics.filter (·.kind = .unresolvedType)).Perm
      (a.model.unresolvedTypes.toList.map fun n =>
        ⟨.error, .unresolvedType, s!"can't resolve type '{n.display}'"⟩) := by
  have hnames : (analyze danglingDeclarations).toOption.map (·.model.unresolvedTypes.toList) =
      some [⟨["host"]⟩, ⟨["identified"]⟩, ⟨["snapshot"]⟩] := by
    decide +kernel
  obtain ⟨a, ha, hn⟩ := Option.map_eq_some_iff.mp hnames
  have ha' := eq_ok_of_toOption ha
  exact ⟨a, ha', hn, (unresolved_names_reported_once ha').1⟩

end ApiModel
