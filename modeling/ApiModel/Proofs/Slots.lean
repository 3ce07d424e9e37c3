import ApiModel.Draft.Declare
import ApiModel.Proofs.Lookup

/-!
# What stands in a slot

Reading a slot gives the reference that stands there, or nothing if the model
has no such place. A slot belongs to the entity it lies in and depends on that
entity only. Adding a member, a parameter or a locator to an entity makes the
slots of what is added and changes no other; assigning to a slot changes that
slot and no other.
-/

namespace ApiModel

/-- What references start from and lead to. -/
inductive Entity where
  | type (id : TypeId)
  | service (id : ServiceId)
deriving DecidableEq, Repr

/-- The entity is part of `m`, whatever it is. -/
def Entity.Within (m : Model) : Entity → Prop
  | .type id => id.index < m.types.size
  | .service id => id.index < m.services.size

def TypeSlot.owner : TypeSlot → Entity
  | .base owner | .attribute owner _ | .link owner _ | .listElement owner => .type owner
  | .methodParameter method _ => .service method.service
  | .locatorParameter service _ _ => .service service

def ServiceSlot.owner : ServiceSlot → Entity
  | .base owner | .locator owner _ => .service owner

theorem TypeSlot.within_list {slot : TypeSlot} {m : Model} (hw : slot.owner.Within m)
    (list : TypeId) (h : slot = .listElement list) : (Entity.type list).Within m := by
  subst h
  exact hw

theorem getElem?_snoc {α : Type} (as : List α) (a : α) (i : Nat) :
    (as ++ [a])[i]? = if i = as.length then some a else as[i]? := by
  rw [List.getElem?_append]
  split
  · rw [if_neg (by omega)]
  · rename_i h
    split
    · simp [*]
    · rw [List.getElem?_eq_none (by simp; omega), List.getElem?_eq_none (by omega)]

namespace Model

/-- The type that stands in a slot of `m`. -/
def typeAt? (m : Model) : TypeSlot → Option TypeId
  | .base owner => (m.struct? owner).bind (·.base)
  | .attribute owner index => (m.struct? owner).bind fun s => s.attributes[index]?.map (·.type)
  | .link owner index => (m.struct? owner).bind fun s => s.links[index]?.map (·.type)
  | .listElement list => (m.type? list).bind DataType.element?
  | .methodParameter method index =>
    (m.method? method).bind fun x => x.parameters[index]?.map (·.type)
  | .locatorParameter service locator index =>
    (m.definedService? service).bind fun s =>
      s.locators[locator]?.bind fun l => l.parameters[index]?.map (·.type)

/-- The service that stands in a slot of `m`. -/
def serviceAt? (m : Model) : ServiceSlot → Option ServiceId
  | .base owner => (m.definedService? owner).bind (·.base)
  | .locator owner index =>
    (m.definedService? owner).bind fun s => s.locators[index]?.map (·.service)

variable {m m' : Model}

/-! ## Slots depend on their owner -/

theorem typeAt?_congr_type {slot : TypeSlot} {id : TypeId} (ho : slot.owner = .type id)
    (h : m'.type? id = m.type? id) : m'.typeAt? slot = m.typeAt? slot := by
  cases slot <;> simp_all [TypeSlot.owner, typeAt?, struct?]

theorem typeAt?_congr_service {slot : TypeSlot} {id : ServiceId} (ho : slot.owner = .service id)
    (h : m'.service? id = m.service? id) : m'.typeAt? slot = m.typeAt? slot := by
  cases slot <;> simp_all [TypeSlot.owner, typeAt?, method?, definedService?]

theorem serviceAt?_congr {slot : ServiceSlot} {id : ServiceId} (ho : slot.owner = .service id)
    (h : m'.service? id = m.service? id) : m'.serviceAt? slot = m.serviceAt? slot := by
  cases slot <;> simp_all [ServiceSlot.owner, serviceAt?, definedService?]

theorem within_of_struct? {id : TypeId} {s : StructType} (h : m.struct? id = some s) :
    (Entity.type id).Within m :=
  type?_lt (struct?_eq_some.mp h)

theorem within_of_definedService? {id : ServiceId} {s : DefinedService}
    (h : m.definedService? id = some s) : (Entity.service id).Within m :=
  service?_lt (definedService?_eq_some.mp h)

/-- The `owner` of a slot that holds something is part of the model. -/
theorem within_of_typeAt? {slot : TypeSlot} {id : TypeId} (h : m.typeAt? slot = some id) :
    slot.owner.Within m := by
  match slot with
  | .base _ | .attribute _ _ | .link _ _ =>
    obtain ⟨s, hs, -⟩ := Option.bind_eq_some_iff.mp h
    exact within_of_struct? hs
  | .listElement _ =>
    obtain ⟨t, ht, -⟩ := Option.bind_eq_some_iff.mp h
    exact type?_lt ht
  | .methodParameter _ _ =>
    obtain ⟨x, hx, -⟩ := Option.bind_eq_some_iff.mp h
    obtain ⟨s, hs, -⟩ := Option.bind_eq_some_iff.mp hx
    exact within_of_definedService? hs
  | .locatorParameter _ _ _ =>
    obtain ⟨s, hs, -⟩ := Option.bind_eq_some_iff.mp h
    exact within_of_definedService? hs

theorem within_of_serviceAt? {slot : ServiceSlot} {id : ServiceId}
    (h : m.serviceAt? slot = some id) : slot.owner.Within m := by
  match slot with
  | .base _ | .locator _ _ =>
    obtain ⟨s, hs, -⟩ := Option.bind_eq_some_iff.mp h
    exact within_of_definedService? hs

/-! ## Slots of a struct that grows -/

section Struct

variable {id : TypeId} {s : StructType}

theorem typeAt?_modifyStruct_ne {slot : TypeSlot} (f : StructType → StructType)
    (ho : slot.owner ≠ .type id) : (m.modifyStruct id f).typeAt? slot = m.typeAt? slot := by
  rcases h : slot.owner with id' | id'
  · refine typeAt?_congr_type h (m.type?_modifyStruct_ne ?_ f)
    rintro rfl
    exact ho h
  · exact typeAt?_congr_service h rfl

/-- The `memberSlot` of the next member is made from the number of members of its `kind`. -/
theorem memberSlot_eq (h : m.type? id = some (.struct s)) (kind : MemberKind) :
    Declare.memberSlot id kind m = match kind with
      | .attribute => .attribute id s.attributes.length
      | .link => .link id s.links.length := by
  cases kind <;> simp [Declare.memberSlot, h, DataType.struct?]

theorem owner_memberSlot (kind : MemberKind) :
    (Declare.memberSlot id kind m).owner = .type id := by
  cases kind <;> rfl

/-- Nothing stands where the next member goes, in its `memberSlot`. -/
theorem typeAt?_memberSlot (h : m.type? id = some (.struct s)) (kind : MemberKind) :
    m.typeAt? (Declare.memberSlot id kind m) = none := by
  rw [memberSlot_eq h]
  cases kind <;> simp [typeAt?, struct?_eq_some.mpr h]

theorem typeAt?_addMember (h : m.type? id = some (.struct s)) (x : Member) (slot : TypeSlot) :
    (m.modifyStruct id (·.addMember x)).typeAt? slot =
      if slot = Declare.memberSlot id x.kind m then some x.type else m.typeAt? slot := by
  by_cases ho : slot.owner = .type id
  · have hs := struct?_eq_some.mpr h
    have hs' : (m.modifyStruct id (·.addMember x)).struct? id = some (s.addMember x) :=
      struct?_eq_some.mpr (type?_modifyStruct_self h _)
    rw [memberSlot_eq h]
    match slot with
    | .base owner =>
      obtain rfl := Entity.type.inj ho
      rw [typeAt?, typeAt?, hs, hs']
      cases hk : x.kind <;> simp [StructType.addMember, hk]
    | .attribute owner i =>
      obtain rfl := Entity.type.inj ho
      rw [typeAt?, typeAt?, hs, hs']
      cases hk : x.kind
      · simp only [Option.bind_some, StructType.addMember, hk, getElem?_snoc,
          TypeSlot.attribute.injEq, true_and]
        split <;> rfl
      · simp [StructType.addMember, hk]
    | .link owner i =>
      obtain rfl := Entity.type.inj ho
      rw [typeAt?, typeAt?, hs, hs']
      cases hk : x.kind
      · simp [StructType.addMember, hk]
      · simp only [Option.bind_some, StructType.addMember, hk, getElem?_snoc,
          TypeSlot.link.injEq, true_and]
        split <;> rfl
    | .listElement owner =>
      obtain rfl := Entity.type.inj ho
      rw [typeAt?, typeAt?, type?_modifyStruct_self h, h]
      cases x.kind <;> rfl
  · rw [if_neg, typeAt?_modifyStruct_ne _ ho]
    rintro rfl
    exact ho (owner_memberSlot _)

theorem typeAt?_setBase (h : m.type? id = some (.struct s)) (b : TypeId) (slot : TypeSlot) :
    (m.modifyStruct id ({ · with base := some b })).typeAt? slot =
      if slot = .base id then some b else m.typeAt? slot := by
  by_cases ho : slot.owner = .type id
  · have hs := struct?_eq_some.mpr h
    have hs' : (m.modifyStruct id ({ · with base := some b })).struct? id =
        some { s with base := some b } :=
      struct?_eq_some.mpr (type?_modifyStruct_self h _)
    match slot with
    | .base owner | .attribute owner _ | .link owner _ =>
      obtain rfl := Entity.type.inj ho
      simp [typeAt?, hs, hs']
    | .listElement owner =>
      obtain rfl := Entity.type.inj ho
      rw [typeAt?, typeAt?, type?_modifyStruct_self h, h]
      rfl
  · rw [if_neg, typeAt?_modifyStruct_ne _ ho]
    rintro rfl
    exact ho rfl

end Struct

/-! ## Slots of a service that grows -/

section Service

variable {id : ServiceId} {s : DefinedService}

theorem typeAt?_modifyService_ne {slot : TypeSlot} (f : DefinedService → DefinedService)
    (ho : slot.owner ≠ .service id) : (m.modifyService id f).typeAt? slot = m.typeAt? slot := by
  rcases h : slot.owner with id' | id'
  · exact typeAt?_congr_type h rfl
  · refine typeAt?_congr_service h (m.service?_modifyService_ne ?_ f)
    rintro rfl
    exact ho h

theorem serviceAt?_modifyService_ne {slot : ServiceSlot} (f : DefinedService → DefinedService)
    (ho : slot.owner ≠ .service id) :
    (m.modifyService id f).serviceAt? slot = m.serviceAt? slot := by
  rcases h : slot.owner with id' | id'
  · cases slot <;> simp [ServiceSlot.owner] at h
  · refine serviceAt?_congr h (m.service?_modifyService_ne ?_ f)
    rintro rfl
    exact ho h

/-- By `typeAt?`, the parameters of methods and locators are read only. -/
theorem typeAt?_modifyService_of_eq (h : m.service? id = some (.defined s))
    {f : DefinedService → DefinedService}
    (hm : ∀ i : Nat, (f s).methods[i]?.elim [] (·.parameters) =
      s.methods[i]?.elim [] (·.parameters))
    (hl : (f s).locators = s.locators) (slot : TypeSlot) :
    (m.modifyService id f).typeAt? slot = m.typeAt? slot := by
  by_cases ho : slot.owner = .service id
  · have hs := definedService?_eq_some.mpr h
    have hs' : (m.modifyService id f).definedService? id = some (f s) :=
      definedService?_eq_some.mpr (service?_modifyService_self h f)
    match slot with
    | .methodParameter r j =>
      obtain rfl := Entity.service.inj ho
      have hj := congrArg (fun ps => ps[j]?.map Parameter.type) (hm r.index)
      rw [typeAt?, typeAt?, method?, method?, hs, hs', Option.bind_some, Option.bind_some]
      cases hx : (f s).methods[r.index]? <;> cases hy : s.methods[r.index]? <;> simp_all
    | .locatorParameter o i j =>
      obtain rfl := Entity.service.inj ho
      rw [typeAt?, typeAt?, hs, hs', Option.bind_some, Option.bind_some, hl]
  · exact typeAt?_modifyService_ne _ ho

/-- By `serviceAt?`, the base and the locators are read only. -/
theorem serviceAt?_modifyService_of_eq (h : m.service? id = some (.defined s))
    {f : DefinedService → DefinedService} (hb : (f s).base = s.base)
    (hl : (f s).locators = s.locators) (slot : ServiceSlot) :
    (m.modifyService id f).serviceAt? slot = m.serviceAt? slot := by
  by_cases ho : slot.owner = .service id
  · have hs := definedService?_eq_some.mpr h
    have hs' : (m.modifyService id f).definedService? id = some (f s) :=
      definedService?_eq_some.mpr (service?_modifyService_self h f)
    match slot with
    | .base owner =>
      obtain rfl := Entity.service.inj ho
      rw [serviceAt?, serviceAt?, hs, hs', Option.bind_some, Option.bind_some, hb]
    | .locator owner i =>
      obtain rfl := Entity.service.inj ho
      rw [serviceAt?, serviceAt?, hs, hs', Option.bind_some, Option.bind_some, hl]
  · exact serviceAt?_modifyService_ne _ ho

theorem serviceAt?_setBase (h : m.service? id = some (.defined s)) (b : ServiceId)
    (slot : ServiceSlot) :
    (m.modifyService id ({ · with base := some b })).serviceAt? slot =
      if slot = .base id then some b else m.serviceAt? slot := by
  by_cases ho : slot.owner = .service id
  · have hs := definedService?_eq_some.mpr h
    have hs' : (m.modifyService id ({ · with base := some b })).definedService? id =
        some { s with base := some b } :=
      definedService?_eq_some.mpr (service?_modifyService_self h _)
    match slot with
    | .base owner | .locator owner _ =>
      obtain rfl := Entity.service.inj ho
      simp [serviceAt?, hs, hs']
  · rw [if_neg, serviceAt?_modifyService_ne _ ho]
    rintro rfl
    exact ho rfl

theorem typeAt?_addParameter (h : m.service? id = some (.defined s)) {k : Nat} {x : Method}
    (hx : s.methods[k]? = some x) (p : Parameter) (slot : TypeSlot) :
    (m.modifyMethod ⟨id, k⟩ (·.addParameter p)).typeAt? slot =
      if slot = .methodParameter ⟨id, k⟩ x.parameters.length then some p.type
      else m.typeAt? slot := by
  by_cases ho : slot.owner = .service id
  · have hs := definedService?_eq_some.mpr h
    have hs' : (m.modifyMethod ⟨id, k⟩ (·.addParameter p)).definedService? id =
        some (s.modifyMethod k (·.addParameter p)) :=
      definedService?_eq_some.mpr (service?_modifyService_self h _)
    match slot with
    | .methodParameter ⟨o, i⟩ j =>
      obtain rfl := Entity.service.inj ho
      rw [typeAt?, typeAt?, method?, method?, hs, hs', Option.bind_some, Option.bind_some,
        DefinedService.modifyMethod, List.getElem?_modify]
      by_cases hk : k = i
      · subst hk
        simp only [hx, Option.map_eq_map, Option.map_some, if_true, Option.bind_some,
          Method.addParameter, getElem?_snoc, TypeSlot.methodParameter.injEq, true_and]
        split <;> rfl
      · have hne : TypeSlot.methodParameter ⟨o, i⟩ j ≠
            .methodParameter ⟨o, k⟩ x.parameters.length := by
          simp [Ne.symm hk]
        rw [if_neg hne]
        simp [hk]
    | .locatorParameter o i j =>
      obtain rfl := Entity.service.inj ho
      rw [typeAt?, typeAt?, hs, hs', if_neg (by simp)]
      rfl
  · rw [if_neg, modifyMethod, typeAt?_modifyService_ne _ ho]
    rintro rfl
    exact ho rfl

section Locator

variable (h : m.service? id = some (.defined s)) (l : Locator)

include h

theorem typeAt?_addLocator_new (j : Nat) :
    (m.modifyService id (·.addLocator l)).typeAt? (.locatorParameter id s.locators.length j) =
      l.parameters[j]?.map (·.type) := by
  have hs' : (m.modifyService id (·.addLocator l)).definedService? id = some (s.addLocator l) :=
    definedService?_eq_some.mpr (service?_modifyService_self h _)
  rw [typeAt?, hs', Option.bind_some, DefinedService.addLocator, List.getElem?_concat_length,
    Option.bind_some]

theorem typeAt?_addLocator_old {slot : TypeSlot}
    (hne : ∀ j, slot ≠ .locatorParameter id s.locators.length j) :
    (m.modifyService id (·.addLocator l)).typeAt? slot = m.typeAt? slot := by
  by_cases ho : slot.owner = .service id
  · have hs := definedService?_eq_some.mpr h
    have hs' : (m.modifyService id (·.addLocator l)).definedService? id = some (s.addLocator l) :=
      definedService?_eq_some.mpr (service?_modifyService_self h _)
    match slot with
    | .methodParameter r j =>
      obtain rfl := Entity.service.inj ho
      rw [typeAt?, typeAt?, method?, method?, hs, hs']
      rfl
    | .locatorParameter o i j =>
      obtain rfl := Entity.service.inj ho
      have hi : i ≠ s.locators.length := fun hi => hne j (by rw [hi])
      rw [typeAt?, typeAt?, hs, hs', Option.bind_some, Option.bind_some,
        DefinedService.addLocator, getElem?_snoc, if_neg hi]
  · exact typeAt?_modifyService_ne _ ho

theorem serviceAt?_addLocator (slot : ServiceSlot) :
    (m.modifyService id (·.addLocator l)).serviceAt? slot =
      if slot = .locator id s.locators.length then some l.service else m.serviceAt? slot := by
  by_cases ho : slot.owner = .service id
  · have hs := definedService?_eq_some.mpr h
    have hs' : (m.modifyService id (·.addLocator l)).definedService? id = some (s.addLocator l) :=
      definedService?_eq_some.mpr (service?_modifyService_self h _)
    match slot with
    | .base owner =>
      obtain rfl := Entity.service.inj ho
      rw [serviceAt?, serviceAt?, hs, hs', if_neg (by simp)]
      rfl
    | .locator owner i =>
      obtain rfl := Entity.service.inj ho
      rw [serviceAt?, serviceAt?, hs, hs', Option.bind_some, Option.bind_some,
        DefinedService.addLocator, getElem?_snoc]
      simp only [ServiceSlot.locator.injEq, true_and]
      split <;> rfl
  · rw [if_neg, serviceAt?_modifyService_ne _ ho]
    rintro rfl
    exact ho rfl

end Locator

end Service

end Model

end ApiModel
