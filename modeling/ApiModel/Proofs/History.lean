import ApiModel.Proofs.Outcome
import Mathlib.Data.List.Induction

/-!
# Declaring one after the other

Whatever the declarations are and whether they can be carried out, a draft stays
sound, keeps what it has, and what it newly has comes from the declaration that
was made. So every registered entity goes back to the one declaration that
registered it, and every pending reference to a declaration that asks for it.
-/

namespace ApiModel

namespace Declaration

/-- The name under which a type is declared. -/
def typeName? : Declaration → Option Name
  | .type t => some (Name.ofCase t.name)
  | _ => none

/-- The name under which a service is declared. -/
def serviceName? : Declaration → Option Name
  | .service t => some (serviceName t.name)
  | _ => none

def requests : Declaration → Set Request
  | .type t => t.requests
  | .service t => t.requests
  | .document _ => ∅

end Declaration

/-- What is registered in `m` under the name of `decl` is what `decl` says. -/
def Model.Records (m : Model) (r : Reading) (decl : Declaration) (complete : Bool) : Prop :=
  match decl with
  | .type t => ∃ id x, m.findType? (Name.ofCase t.name) = some id ∧ m.type? id = some x ∧
    x.Records r id t complete
  | .service t => ∃ id s, m.findService? (serviceName t.name) = some id ∧
    m.service? id = some (.defined s) ∧ s.Records r id t complete
  | .document _ => False

namespace Draft

variable {d d' : Draft}

/-- The declaration `decl` has been made, and `d` says what it says. -/
def Recorded (d : Draft) (decl : Declaration) (complete : Bool) : Prop :=
  d.model.Records d.model.reading decl complete

theorem Recorded.grows {decl : Declaration} {complete : Bool} (h : d.Recorded decl complete)
    (hg : d.model.Grows ∅ d'.model) : d'.Recorded decl complete := by
  match decl with
  | .type t =>
    obtain ⟨id, x, hid, hx, hr⟩ := h
    exact ⟨id, x, hg.findType hid, hg.type (Set.notMem_empty _) hx, hr.mono hg.reading⟩
  | .service t =>
    obtain ⟨id, s, hid, hs, hr⟩ := h
    exact ⟨id, s, hg.findService hid, hg.service (Set.notMem_empty _) hs, hr.mono hg.reading⟩
  | .document _ => exact h.elim

/-! ## One declaration -/

/-- What `decl` may change in `d`. -/
structure Extends (d : Draft) (decl : Declaration) (complete : Bool) (d' : Draft) : Prop where
  sound : d'.Sound
  based : d'.Based
  grows : d.model.Grows ∅ d'.model
  types : ∀ {n id}, d'.model.findType? n = some id → d.model.findType? n = some id ∨
    d.model.findType? n = none ∧ decl.typeName? = some n ∧ d'.Recorded decl complete
  services : ∀ {n id}, d'.model.findService? n = some id → d.model.findService? n = some id ∨
    d.model.findService? n = none ∧ decl.serviceName? = some n ∧ d'.Recorded decl complete
  lists : ∀ {n id}, d'.model.findList? n = some id → d.model.findList? n = some id ∨
    d'.Recorded decl complete ∧ .type ⟨n, true⟩ ∈ decl.requests
  pendingTypes : ∀ {n slot}, (n, slot) ∈ d'.pendingTypes → (n, slot) ∈ d.pendingTypes ∨
    d'.Recorded decl complete ∧ ∃ t, .type t ∈ decl.requests ∧ t.name = n
  pendingServices : ∀ {n slot}, (n, slot) ∈ d'.pendingServices →
    (n, slot) ∈ d.pendingServices ∨ d'.Recorded decl complete ∧ .service n ∈ decl.requests

variable {decl : Declaration} {complete : Bool}

/-- Being `Sound` is a matter of the model and of what is pending. -/
theorem Sound.withDiagnostics (h : d.Sound) (ds : List Diagnostic) :
    Sound { d with diagnostics := ds } :=
  { h with
    types := fun ht => ⟨(h.types ht).refers, (h.types ht).pending⟩
    services := fun hs => ⟨(h.services hs).named, (h.services hs).pending⟩ }

/-- `Extends` for a declaration that registers nothing. -/
theorem Extends.of_registry {m : Model} (hs : Sound { d with model := m })
    (hb : Based { d with model := m }) (hg : d.model.Grows ∅ m)
    (htypes : m.typeIndex = d.model.typeIndex) (hservices : m.serviceIndex = d.model.serviceIndex)
    (hlists : m.listTypes = d.model.listTypes) (ds : List Diagnostic) :
    Extends d decl complete { d with model := m, diagnostics := ds } where
  sound := hs.withDiagnostics ds
  based := ⟨hb.types, hb.services⟩
  grows := hg
  types {n _} h := .inl (by rw [← h]; exact congrArg (·[n]?) htypes.symm)
  services {n _} h := .inl (by rw [← h]; exact congrArg (·[n]?) hservices.symm)
  lists {n _} h := .inl (by rw [← h]; exact congrArg (·[n]?) hlists.symm)
  pendingTypes := .inl
  pendingServices := .inl

/-- By `elect`, neither what is registered changes nor what is pending. -/
theorem Extends.elect (h : d.Extends decl complete d') (id : ServiceId) :
    d.Extends decl complete (d'.elect id) := by
  have hg : d'.model.Grows ∅ (d'.elect id).model :=
    { (Model.Grows.refl d'.model : Model.Grows ∅ _ _) with }
  exact
    { sound := h.sound.extend hg { h.sound.indexed with } (fun _ h => h) .inl .inl (fun _ h => h)
        .inl .inl
      based := ⟨h.based.types, h.based.services⟩
      grows := h.grows.trans hg
      types := fun ht => (h.types ht).imp_right fun ⟨hn, ht, hr⟩ => ⟨hn, ht, hr.grows hg⟩
      services := fun hs => (h.services hs).imp_right fun ⟨hn, hs, hr⟩ => ⟨hn, hs, hr.grows hg⟩
      lists := fun hl => (h.lists hl).imp_right fun ⟨hr, hl⟩ => ⟨hr.grows hg, hl⟩
      pendingTypes := fun hp => (h.pendingTypes hp).imp_right fun ⟨hr, hp⟩ => ⟨hr.grows hg, hp⟩
      pendingServices := fun hp =>
        (h.pendingServices hp).imp_right fun ⟨hr, hp⟩ => ⟨hr.grows hg, hp⟩ }

theorem extends_addedType {t : TypeDecl} {x₀ x : DataType}
    (hfree : d.model.findType? (Name.ofCase t.name) = none)
    (hb : (d.enterType t.space (Name.ofCase t.name) x₀).Builds {.type d.nextType} t.requests d')
    (hs : d'.Sound) (hbased : d'.Based) (hx : d'.model.type? d.nextType = some x)
    (hr : x.Records d'.model.reading d.nextType t complete) :
    d.Extends (.type t) complete d' := by
  have hfind : ∀ {n id}, d'.model.findType? n = some id ↔
      (n = Name.ofCase t.name ∧ id = d.nextType) ∨ d.model.findType? n = some id := by
    intro n id
    rw [hb.findType?]
    exact findType?_enterType t.space hfree
  have hrec : d'.Recorded (.type t) complete :=
    ⟨d.nextType, x, hfind.mpr (.inl ⟨rfl, rfl⟩), hx, hr⟩
  have hgrows : d.model.Grows {.type d.nextType} d'.model :=
    ((grows_enterType t.space hfree).mono (Set.empty_subset _)).trans hb.grows
  exact
    { sound := hs
      based := hbased
      grows := hgrows.of_fresh (by rintro _ rfl; exact Nat.lt_irrefl _)
      types := fun {n id} h => by
        rcases hfind.mp h with ⟨rfl, -⟩ | h
        · exact .inr ⟨hfree, rfl, hrec⟩
        · exact .inl h
      services := fun {n id} h => .inl (by
        rwa [hb.findService?, findService?_enterType] at h)
      lists := fun {n id} h => (hb.lists h).imp
        (fun h => by rwa [findList?_enterType] at h) fun h => ⟨hrec, h⟩
      pendingTypes := fun h => (hb.newTypes h).imp_right fun h => ⟨hrec, h⟩
      pendingServices := fun h => (hb.newServices h).imp_right fun h => ⟨hrec, h⟩ }

theorem extends_addedService {t : ServiceDecl} {s₀ s : DefinedService}
    (hname : s₀.name = serviceName t.name)
    (hfree : d.model.findService? (serviceName t.name) = none)
    (hb : (d.enterService t.space s₀).Builds {.service d.nextService} t.requests d')
    (hs : d'.Sound) (hbased : d'.Based)
    (hx : d'.model.service? d.nextService = some (.defined s))
    (hr : s.Records d'.model.reading d.nextService t complete) :
    d.Extends (.service t) complete d' := by
  have hfree' : d.model.findService? s₀.name = none := hname.symm ▸ hfree
  have hfind : ∀ {n id}, d'.model.findService? n = some id ↔
      (n = serviceName t.name ∧ id = d.nextService) ∨ d.model.findService? n = some id := by
    intro n id
    rw [hb.findService?, ← hname]
    exact findService?_enterService t.space hfree'
  have hrec : d'.Recorded (.service t) complete :=
    ⟨d.nextService, s, hfind.mpr (.inl ⟨rfl, rfl⟩), hx, hr⟩
  have hgrows : d.model.Grows {.service d.nextService} d'.model :=
    ((grows_enterService t.space hfree').mono (Set.empty_subset _)).trans hb.grows
  exact
    { sound := hs
      based := hbased
      grows := hgrows.of_fresh (by rintro _ rfl; exact Nat.lt_irrefl _)
      types := fun {n id} h => .inl (by
        rwa [hb.findType?, findType?_enterService] at h)
      services := fun {n id} h => by
        rcases hfind.mp h with ⟨rfl, -⟩ | h
        · exact .inr ⟨hfree, rfl, hrec⟩
        · exact .inl h
      lists := fun {n id} h => (hb.lists h).imp
        (fun h => by rwa [findList?_enterService] at h) fun h => ⟨hrec, h⟩
      pendingTypes := fun h => (hb.newTypes h).imp_right fun h => ⟨hrec, h⟩
      pendingServices := fun h => (hb.newServices h).imp_right fun h => ⟨hrec, h⟩ }

/-- `Extends` for a type that takes a place without being registered. -/
theorem extends_placeType {t : TypeDecl} {module : Option ModuleId} {x : DataType} (hs : d.Sound)
    (hb : d.Based) (hx : t.Shell module x) (ds : List Diagnostic) :
    d.Extends decl complete { d.placeType t.space x with diagnostics := ds } := by
  have ho := open_placeType t.space hs hb hx.bare hx.name
  exact .of_registry ho.sound ho.based (grows_placeType d _ _)
    (by simp only [Model.typeIndex_house])
    (by simp only [Model.serviceIndex_house])
    (by simp only [Model.listTypes_house]) ds

theorem extends_placeService {t : ServiceDecl} {module : Option ModuleId} {s : DefinedService}
    (hs : d.Sound) (hb : d.Based) (hx : t.Shell module s) (ds : List Diagnostic) :
    d.Extends decl complete { d.placeService t.space s with diagnostics := ds } := by
  have ho := open_placeService t.space hs hb hx.base hx.methods hx.locators
  exact .of_registry ho.sound ho.based (grows_placeService d _ _)
    (by simp only [Model.typeIndex_house])
    (by simp only [Model.serviceIndex_house])
    (by simp only [Model.listTypes_house]) ds

theorem Outcome.extends (h : d.Outcome decl complete d') (hs : d.Sound) (hb : d.Based) :
    d.Extends decl complete d' := by
  cases h with
  | unnamedType _ | unnamedService _ => exact .of_registry hs hb (.refl _) rfl rfl rfl _
  | droppedType _ _ _ hx | takenType _ _ hx _ => exact extends_placeType hs hb hx _
  | addedType _ hx₀ hfree hb hs hbased hx _ hr _ =>
    exact extends_addedType hfree hb hs hbased hx hr
  | takenService _ hx _ => exact extends_placeService hs hb hx _
  | addedService _ hx₀ hfree hb hs hbased hx _ hr _ hd =>
    have he := extends_addedService hx₀.name hfree hb hs hbased hx hr
    rw [hd]
    split
    · exact he.elect _
    · exact he
  | @document t =>
    have hg : d.model.Grows ∅ (d.model.addDocument t.document) :=
      { (Model.Grows.refl d.model : Model.Grows ∅ _ _) with }
    exact .of_registry (hs.extend hg { hs.indexed with } (fun _ h => h) .inl .inl (fun _ h => h)
      .inl .inl) ⟨hb.types, hb.services⟩ hg rfl rfl rfl _

/-! ## The draft to start from -/

end Draft

namespace Model

theorem initial_eq : initial = {
    types := (PrimitiveKind.all.map .primitive).toArray
    typeIndex := initial.typeIndex } := rfl

theorem type?_initial {id : TypeId} {t : DataType} (h : initial.type? id = some t) :
    ∃ k, t = .primitive k := by
  rw [type?, initial_eq, List.getElem?_toArray, List.getElem?_map] at h
  obtain ⟨k, -, rfl⟩ := Option.map_eq_some_iff.mp h
  exact ⟨k, rfl⟩

theorem type?_typeId (k : PrimitiveKind) : initial.type? k.typeId = some (.primitive k) := by
  cases k <;> rfl

theorem findType?_initial {n : Name} {id : TypeId} :
    initial.findType? n = some id ↔ ∃ k : PrimitiveKind, n = k.name ∧ id = k.typeId := by
  constructor
  · intro h
    simp only [findType?, initial, PrimitiveKind.all, List.foldl, addPrimitive, allocType,
      NameMap.getElem?_insert] at h
    split at h
    · exact ⟨.date, Eq.symm ‹_›, (Option.some.inj h).symm⟩
    split at h
    · exact ⟨.decimal, Eq.symm ‹_›, (Option.some.inj h).symm⟩
    split at h
    · exact ⟨.integer, Eq.symm ‹_›, (Option.some.inj h).symm⟩
    split at h
    · exact ⟨.string, Eq.symm ‹_›, (Option.some.inj h).symm⟩
    split at h
    · exact ⟨.boolean, Eq.symm ‹_›, (Option.some.inj h).symm⟩
    · simp at h
  · rintro ⟨k, rfl, rfl⟩
    cases k <;> decide

theorem indexed_initial : initial.Indexed where
  type h := by
    obtain ⟨k, rfl, rfl⟩ := findType?_initial.mp h
    exact ⟨_, type?_typeId k, rfl⟩
  undefinedType {n id} := by
    have hnone : initial.type? id ≠ some (.undefined n) := fun h => by
      obtain ⟨k, hk⟩ := type?_initial h
      cases hk
    rw [iff_false_right hnone, initial_eq]
    simp
  list {n id} := by
    have hnone : ¬∃ e, initial.type? id = some (.list n e) := fun ⟨e, h⟩ => by
      obtain ⟨k, hk⟩ := type?_initial h
      cases hk
    rw [iff_false_right hnone, findList?, initial_eq]
    simp
  listElement h := by
    obtain ⟨k, hk⟩ := type?_initial h
    cases hk
  service h := by
    rw [findService?, initial_eq] at h
    simp at h
  undefinedService {n id} := by
    rw [service?, initial_eq]
    simp
  module h := by
    rw [findModule?, initial_eq] at h
    simp at h

theorem struct?_initial (id : TypeId) : initial.struct? id = none := by
  rcases h : initial.struct? id with _ | s
  · rfl
  · obtain ⟨k, hk⟩ := type?_initial (struct?_eq_some.mp h)
    cases hk

theorem definedService?_initial (id : ServiceId) : initial.definedService? id = none := by
  rw [definedService?, service?, initial_eq]
  rfl

theorem typeAt?_initial (slot : TypeSlot) : initial.typeAt? slot = none := by
  match slot with
  | .base id | .attribute id _ | .link id _ => rw [typeAt?, struct?_initial]; rfl
  | .listElement id =>
    rcases h : initial.type? id with _ | t
    · rw [typeAt?, h]; rfl
    · obtain ⟨k, rfl⟩ := type?_initial h
      rw [typeAt?, h]; rfl
  | .methodParameter r _ => rw [typeAt?, method?, definedService?_initial]; rfl
  | .locatorParameter id _ _ => rw [typeAt?, definedService?_initial]; rfl

theorem serviceAt?_initial (slot : ServiceSlot) : initial.serviceAt? slot = none := by
  cases slot <;> rw [serviceAt?, definedService?_initial] <;> rfl

end Model

namespace Draft

theorem sound_initial : Sound {} where
  indexed := Model.indexed_initial
  types {slot id} h := by rw [Model.typeAt?_initial] at h; cases h
  services {slot id} h := by rw [Model.serviceAt?_initial] at h; cases h
  typeOwners h := by cases h
  serviceOwners h := by cases h

theorem based_initial : Based {} where
  types h := by cases h
  services h := by cases h

/-! ## Any declarations -/

/-- Makes the declarations `ds` one after the other, whether they can be carried out or not. -/
def declareEach (d : Draft) (ds : List Declaration) : Draft :=
  ds.foldl (fun d decl => (d.declare decl).2) d

theorem declareEach_concat (d : Draft) (ds : List Declaration) (decl : Declaration) :
    d.declareEach (ds ++ [decl]) = ((d.declareEach ds).declare decl).2 := by
  rw [declareEach, List.foldl_append]
  rfl

theorem sound_declareEach (ds : List Declaration) :
    (declareEach {} ds).Sound ∧ (declareEach {} ds).Based := by
  induction ds using List.reverseRecOn with
  | nil => exact ⟨sound_initial, based_initial⟩
  | append_singleton ds decl ih =>
    have h := (outcome_declare ih.1 ih.2 decl).extends ih.1 ih.2
    rw [declareEach_concat]
    exact ⟨h.sound, h.based⟩

theorem outcome_declareEach (ds : List Declaration) (decl : Declaration) :
    (declareEach {} ds).Outcome decl ((declareEach {} ds).declare decl).1.isOk
      (declareEach {} (ds ++ [decl])) := by
  obtain ⟨hs, hb⟩ := sound_declareEach ds
  rw [declareEach_concat]
  exact outcome_declare hs hb decl

theorem extends_declareEach (ds : List Declaration) (decl : Declaration) :
    (declareEach {} ds).Extends decl ((declareEach {} ds).declare decl).1.isOk
      (declareEach {} (ds ++ [decl])) := by
  obtain ⟨hs, hb⟩ := sound_declareEach ds
  exact (outcome_declareEach ds decl).extends hs hb

theorem grows_declareEach_append (ds post : List Declaration) :
    (declareEach {} ds).model.Grows ∅ (declareEach {} (ds ++ post)).model := by
  induction post using List.reverseRecOn with
  | nil =>
    rw [List.append_nil]
    exact .refl _
  | append_singleton post decl ih =>
    rw [← List.append_assoc]
    exact ih.trans (extends_declareEach (ds ++ post) decl).grows

/-- `t`, declared after `pre`, is what has registered the type `id` under its name. -/
structure RegistersType (pre : List Declaration) (t : TypeDecl) (id : TypeId) : Prop where
  before : (declareEach {} pre).model.findType? (Name.ofCase t.name) = none
  after : (declareEach {} (pre ++ [.type t])).model.findType? (Name.ofCase t.name) = some id

structure RegistersService (pre : List Declaration) (t : ServiceDecl) (id : ServiceId) : Prop where
  before : (declareEach {} pre).model.findService? (serviceName t.name) = none
  after : (declareEach {} (pre ++ [.service t])).model.findService? (serviceName t.name) = some id

/-- A type registered as `n` is a primitive, or goes back to the declaration that registered it. -/
theorem origin_type {ds : List Declaration} {n : Name} {id : TypeId}
    (h : (declareEach {} ds).model.findType? n = some id) :
    (∃ k, (declareEach {} ds).model.type? id = some (.primitive k)) ∨
      ∃ pre t post x, ds = pre ++ .type t :: post ∧ Name.ofCase t.name = n ∧
        RegistersType pre t id ∧ (declareEach {} ds).model.type? id = some x ∧
        x.Records (declareEach {} ds).model.reading id t
          ((declareEach {} pre).declare (.type t)).1.isOk := by
  induction ds using List.reverseRecOn with
  | nil =>
    obtain ⟨k, -, rfl⟩ := Model.findType?_initial.mp h
    exact .inl ⟨k, Model.type?_typeId k⟩
  | append_singleton ds decl ih =>
    have hext := extends_declareEach ds decl
    have hkeep : ∀ {x}, (declareEach {} ds).model.type? id = some x →
        (declareEach {} (ds ++ [decl])).model.type? id = some x :=
      hext.grows.type (Set.notMem_empty _)
    rcases hext.types h with hold | ⟨hnew, hname, hrec⟩
    · rcases ih hold with ⟨k, hk⟩ | ⟨pre, t, post, x, rfl, hn, hreg, hx, hr⟩
      · exact .inl ⟨k, hkeep hk⟩
      · exact .inr ⟨pre, t, post ++ [decl], x, by simp, hn, hreg, hkeep hx,
          hr.mono hext.grows.reading⟩
    · match decl with
      | .type t =>
        obtain rfl := Option.some.inj hname
        obtain ⟨id', x, hid, hx, hr⟩ := hrec
        obtain rfl := Option.some.inj (h.symm.trans hid)
        exact .inr ⟨ds, t, [], x, rfl, rfl, ⟨hnew, h⟩, hx, hr⟩

theorem origin_service {ds : List Declaration} {n : Name} {id : ServiceId}
    (h : (declareEach {} ds).model.findService? n = some id) :
    ∃ pre t post s, ds = pre ++ .service t :: post ∧ serviceName t.name = n ∧
      RegistersService pre t id ∧ (declareEach {} ds).model.service? id = some (.defined s) ∧
      s.Records (declareEach {} ds).model.reading id t
        ((declareEach {} pre).declare (.service t)).1.isOk := by
  induction ds using List.reverseRecOn with
  | nil =>
    obtain ⟨s, hs, -⟩ := Model.indexed_initial.service h
    rw [← Model.definedService?_eq_some, Model.definedService?_initial] at hs
    cases hs
  | append_singleton ds decl ih =>
    have hext := extends_declareEach ds decl
    rcases hext.services h with hold | ⟨hnew, hname, hrec⟩
    · obtain ⟨pre, t, post, s, rfl, hn, hreg, hs, hr⟩ := ih hold
      exact ⟨pre, t, post ++ [decl], s, by simp, hn, hreg,
        hext.grows.service (Set.notMem_empty _) hs, hr.mono hext.grows.reading⟩
    · match decl with
      | .service t =>
        obtain rfl := Option.some.inj hname
        obtain ⟨id', s, hid, hs, hr⟩ := hrec
        obtain rfl := Option.some.inj (h.symm.trans hid)
        exact ⟨ds, t, [], s, rfl, rfl, ⟨hnew, h⟩, hs, hr⟩

end Draft

end ApiModel
