import ApiModel.Proofs.Services

/-!
# What a declaration does

A declaration with a valid name enters its module and takes the next place.
If its name is taken, a report is all that follows. Otherwise the entity is
registered and built from its declaration, as far as that goes. `Outcome` lists
the cases, and whether the declaration has been carried out completely.
-/

namespace ApiModel

/-! ## Modules -/

namespace Model

variable {m : Model}

/-- The module of the namespace `space`, interned in `m`. -/
def house (m : Model) (space : String) : Option ModuleId × Model :=
  match spaceName? space with
  | none => (none, m)
  | some n => (some (m.internModule n).1, (m.internModule n).2)

theorem internModule_eq (m : Model) (n : Name) : ∃ modules moduleIndex,
    (m.internModule n).2 = { m with modules, moduleIndex } := by
  rcases h : m.findModule? n with _ | k
  · exact ⟨_, _, by rw [internModule_new h]; rfl⟩
  · exact ⟨m.modules, m.moduleIndex, by rw [internModule_known h]⟩

/-- By `house`, nothing but modules changes. -/
theorem house_eq (m : Model) (space : String) : ∃ modules moduleIndex,
    (m.house space).2 = { m with modules, moduleIndex } := by
  rw [house]
  split
  · exact ⟨m.modules, m.moduleIndex, rfl⟩
  · exact internModule_eq m _

theorem types_house (m : Model) (space : String) : (m.house space).2.types = m.types := by
  obtain ⟨_, _, h⟩ := m.house_eq space
  rw [h]

theorem services_house (m : Model) (space : String) : (m.house space).2.services = m.services := by
  obtain ⟨_, _, h⟩ := m.house_eq space
  rw [h]

theorem typeIndex_house (m : Model) (space : String) :
    (m.house space).2.typeIndex = m.typeIndex := by
  obtain ⟨_, _, h⟩ := m.house_eq space
  rw [h]

theorem serviceIndex_house (m : Model) (space : String) :
    (m.house space).2.serviceIndex = m.serviceIndex := by
  obtain ⟨_, _, h⟩ := m.house_eq space
  rw [h]

theorem listTypes_house (m : Model) (space : String) :
    (m.house space).2.listTypes = m.listTypes := by
  obtain ⟨_, _, h⟩ := m.house_eq space
  rw [h]

theorem grows_house (m : Model) (space : String) : Grows ∅ m (m.house space).2 := by
  rw [house]
  split
  · exact .refl m
  · exact grows_internModule m _

theorem Indexed.house (hi : m.Indexed) (space : String) : (m.house space).2.Indexed := by
  rw [Model.house]
  split
  · exact hi
  · exact hi.internModule _

/-- The module that `house` gives is the one that the namespace names. -/
theorem named_house (hi : m.Indexed) (space : String) :
    Option.Rel (m.house space).2.reading.module (m.house space).1 (spaceName? space) := by
  rw [house]
  split
  · rename_i h
    rw [h]
    exact .none
  · rename_i n h
    rw [h]
    exact .some ((hi.internModule n).module (findModule?_internModule m n))

end Model

/-! ## Taking a place -/

namespace Draft

variable {d : Draft} {e : Entity}

/-- A draft is `Open` for an entity `e` that has only come into being and has no slot yet. -/
theorem open_of_new {m : Model} (hs : d.Sound) (hb : d.Based) (hg : d.model.Grows ∅ m)
    (hi : m.Indexed) (htype : ∀ slot, m.typeAt? slot = d.model.typeAt? slot)
    (hservice : ∀ slot, m.serviceAt? slot = d.model.serviceAt? slot) (he : e.Within m)
    (hnew : ¬e.Within d.model) : Open { d with model := m } e where
  sound := hs.extend hg hi (fun _ h => h) .inl (fun h => .inl ((htype _).symm.trans h))
    (fun _ h => h) .inl fun h => .inl ((hservice _).symm.trans h)
  based :=
    { types := fun h => by
        show (m.typeAt? _).isSome
        rw [htype]
        exact hb.types h
      services := fun h => by
        show (m.serviceAt? _).isSome
        rw [hservice]
        exact hb.services h }
  within := he
  types hown _ := hs.quietType (hown ▸ hnew)
  services hown _ := hs.quietService (hown ▸ hnew)

/-- The identifier of the next type in `d`. -/
def nextType (d : Draft) : TypeId :=
  ⟨d.model.types.size⟩

def nextService (d : Draft) : ServiceId :=
  ⟨d.model.services.size⟩

/-- The draft `d` with one more type `x`, and with the module of the namespace. -/
def placeType (d : Draft) (space : String) (x : DataType) : Draft :=
  { d with model := { (d.model.house space).2 with types := d.model.types.push x } }

def placeService (d : Draft) (space : String) (s : DefinedService) : Draft :=
  { d with model := { (d.model.house space).2 with services := d.model.services.push (.defined s) } }

/-- The draft `d` with one more type `x`, registered as `n`. -/
def enterType (d : Draft) (space : String) (n : Name) (x : DataType) : Draft :=
  { d with model := (d.placeType space x).model.withType n d.nextType x.module? }

def enterService (d : Draft) (space : String) (s : DefinedService) : Draft :=
  { d with model := (d.placeService space s).model.withService s.name d.nextService s.module }

section Types

variable {n : Name} {x : DataType} (space : String)

theorem placeType_eq (d : Draft) (space : String) (x : DataType) :
    d.placeType space x = { d with model :=
      { (d.model.house space).2 with types := (d.model.house space).2.types.push x } } := by
  rw [placeType, Model.types_house]

theorem grows_placeType (d : Draft) (space : String) (x : DataType) :
    d.model.Grows ∅ (d.placeType space x).model := by
  rw [placeType_eq]
  exact (d.model.grows_house space).trans (Model.grows_push _ x)

theorem type?_placeType (id : TypeId) :
    (d.placeType space x).model.type? id = if id = d.nextType then some x else d.model.type? id := by
  simp only [placeType, Model.type?, Array.getElem?_push, TypeId.eq_iff, nextType]

theorem type?_placeType_self (d : Draft) (space : String) (x : DataType) :
    (d.placeType space x).model.type? d.nextType = some x := by
  rw [type?_placeType, if_pos rfl]

theorem findType?_placeType (n : Name) :
    (d.placeType space x).model.findType? n = d.model.findType? n := by
  simp only [placeType, Model.findType?, Model.typeIndex_house]

theorem typeAt?_placeType (hx : x.Bare) (slot : TypeSlot) :
    (d.placeType space x).model.typeAt? slot = d.model.typeAt? slot := by
  obtain ⟨_, _, h⟩ := d.model.house_eq space
  rw [placeType, h]
  exact Model.typeAt?_push_bare (m := d.model) hx slot

theorem serviceAt?_placeType (slot : ServiceSlot) :
    (d.placeType space x).model.serviceAt? slot = d.model.serviceAt? slot :=
  serviceAt?_eq_of_services (by simp only [placeType, Model.services_house]) slot

theorem nextType_within : (Entity.type d.nextType).Within (d.placeType space x).model := by
  simp [Entity.Within, placeType, nextType]

theorem indexed_placeType (hi : d.model.Indexed) (hn : Model.registrableName x = .ok n) :
    (d.placeType space x).model.Indexed := by
  obtain ⟨-, hu, hl⟩ := Model.registrableName_ok hn
  rw [placeType_eq]
  exact (hi.house space).push hu hl

theorem open_placeType (hs : d.Sound) (hb : d.Based) (hx : x.Bare)
    (hn : Model.registrableName x = .ok n) : (d.placeType space x).Open (.type d.nextType) :=
  open_of_new hs hb (grows_placeType d space x) (indexed_placeType space hs.indexed hn)
    (typeAt?_placeType space hx) (serviceAt?_placeType space) (nextType_within space)
    (Nat.lt_irrefl _)

theorem type?_enterType (id : TypeId) :
    (d.enterType space n x).model.type? id = if id = d.nextType then some x else d.model.type? id :=
  (Model.type?_withType _ id).trans (type?_placeType space id)

theorem type?_enterType_self : (d.enterType space n x).model.type? d.nextType = some x := by
  rw [type?_enterType, if_pos rfl]

theorem findType?_enterType (hfree : d.model.findType? n = none) {n' : Name} {id : TypeId} :
    (d.enterType space n x).model.findType? n' = some id ↔
      (n' = n ∧ id = d.nextType) ∨ d.model.findType? n' = some id := by
  rw [enterType, Model.findType?_withType _ ((findType?_placeType space n).trans hfree),
    findType?_placeType]

theorem findService?_enterType (n' : Name) :
    (d.enterType space n x).model.findService? n' = d.model.findService? n' := by
  rw [enterType, Model.findService?_withType]
  simp only [placeType, Model.findService?, Model.serviceIndex_house]

theorem findList?_enterType (n' : Name) :
    (d.enterType space n x).model.findList? n' = d.model.findList? n' := by
  rw [enterType, Model.findList?_withType]
  simp only [placeType, Model.findList?, Model.listTypes_house]

theorem grows_enterType (hfree : d.model.findType? n = none) :
    d.model.Grows ∅ (d.enterType space n x).model :=
  (grows_placeType d space x).trans
    (Model.grows_withType _ ((findType?_placeType space n).trans hfree))

theorem open_enterType (hs : d.Sound) (hb : d.Based) (hx : x.Bare)
    (hn : Model.registrableName x = .ok n) (hfree : d.model.findType? n = none) :
    (d.enterType space n x).Open (.type d.nextType) := by
  refine open_of_new hs hb (grows_enterType space hfree)
    ((indexed_placeType space hs.indexed hn).withType _ (d.type?_placeType_self space x) hn
      ((findType?_placeType space n).trans hfree))
    (fun slot => (Model.typeAt?_withType _ slot).trans (typeAt?_placeType space hx slot))
    (fun slot => (Model.serviceAt?_withType _ slot).trans (serviceAt?_placeType space slot))
    ?_ (Nat.lt_irrefl _)
  exact (Model.grows_withType _ ((findType?_placeType space n).trans hfree)).within
    (nextType_within space)

/-- The module that a type has entered by `enterType` is the one of its namespace. -/
theorem module_enterType (hi : d.model.Indexed) (hfree : d.model.findType? n = none) :
    Option.Rel (d.enterType space n x).model.reading.module (d.model.house space).1
      (spaceName? space) := by
  have hg₁ : (d.model.house space).2.Grows ∅ (d.placeType space x).model := by
    rw [placeType_eq]
    exact Model.grows_push _ x
  have hg₂ : (d.placeType space x).model.Grows ∅ (d.enterType space n x).model :=
    Model.grows_withType x.module? ((findType?_placeType space n).trans hfree)
  exact optionRel_imp (fun h => hg₂.moduleName (hg₁.moduleName h)) (Model.named_house hi space)

theorem ne_nextType (hi : d.model.Indexed) {id : TypeId} (h : d.model.findType? n = some id) :
    id ≠ d.nextType := by
  rintro rfl
  obtain ⟨t, ht, -⟩ := hi.type h
  exact Nat.lt_irrefl _ (Model.type?_lt ht)

theorem addType_placeType (hn : Model.registrableName x = .ok n)
    (hfree : d.model.findType? n = none) :
    (d.placeType space x).model.addType d.nextType = .ok (d.enterType space n x).model :=
  Model.addType_new (d.type?_placeType_self space x) hn ((findType?_placeType space n).trans hfree)

theorem addType_placeType_taken (hi : d.model.Indexed) (hn : Model.registrableName x = .ok n)
    {id : TypeId} (htaken : d.model.findType? n = some id) :
    (d.placeType space x).model.addType d.nextType = .error (.duplicateType n) :=
  Model.addType_taken (d.type?_placeType_self space x) hn
    ((findType?_placeType space n).trans htaken) (ne_nextType hi htaken)

end Types

section Services

variable {s : DefinedService} (space : String)

theorem placeService_eq (d : Draft) (space : String) (s : DefinedService) :
    d.placeService space s = { d with model :=
      { (d.model.house space).2 with
        services := (d.model.house space).2.services.push (.defined s) } } := by
  rw [placeService, Model.services_house]

theorem grows_placeService (d : Draft) (space : String) (s : DefinedService) :
    d.model.Grows ∅ (d.placeService space s).model := by
  rw [placeService_eq]
  exact (d.model.grows_house space).trans (Model.grows_pushService _ _)

theorem service?_placeService (id : ServiceId) :
    (d.placeService space s).model.service? id =
      if id = d.nextService then some (.defined s) else d.model.service? id := by
  simp only [placeService, Model.service?, Array.getElem?_push, ServiceId.eq_iff, nextService]

theorem service?_placeService_self (d : Draft) (space : String) (s : DefinedService) :
    (d.placeService space s).model.service? d.nextService = some (.defined s) := by
  rw [service?_placeService, if_pos rfl]

theorem findService?_placeService (n : Name) :
    (d.placeService space s).model.findService? n = d.model.findService? n := by
  simp only [placeService, Model.findService?, Model.serviceIndex_house]

theorem typeAt?_placeService (hm : s.methods = []) (hl : s.locators = []) (slot : TypeSlot) :
    (d.placeService space s).model.typeAt? slot = d.model.typeAt? slot := by
  obtain ⟨_, _, h⟩ := d.model.house_eq space
  rw [placeService, h]
  refine Model.typeAt?_pushService (m := d.model) ?_ slot
  rintro _ ⟨⟩
  exact ⟨hm, hl⟩

theorem serviceAt?_placeService (hb : s.base = none) (hl : s.locators = []) (slot : ServiceSlot) :
    (d.placeService space s).model.serviceAt? slot = d.model.serviceAt? slot := by
  obtain ⟨_, _, h⟩ := d.model.house_eq space
  rw [placeService, h]
  refine Model.serviceAt?_pushService (m := d.model) ?_ slot
  rintro _ ⟨⟩
  exact ⟨hb, hl⟩

theorem nextService_within :
    (Entity.service d.nextService).Within (d.placeService space s).model := by
  simp [Entity.Within, placeService, nextService]

theorem indexed_placeService (hi : d.model.Indexed) :
    (d.placeService space s).model.Indexed := by
  rw [placeService_eq]
  exact (hi.house space).pushService s

theorem open_placeService (hs : d.Sound) (hbased : d.Based) (hb : s.base = none)
    (hm : s.methods = []) (hl : s.locators = []) :
    (d.placeService space s).Open (.service d.nextService) :=
  open_of_new hs hbased (grows_placeService d space s) (indexed_placeService space hs.indexed)
    (typeAt?_placeService space hm hl) (serviceAt?_placeService space hb hl)
    (nextService_within space) (Nat.lt_irrefl _)

theorem service?_enterService (id : ServiceId) :
    (d.enterService space s).model.service? id =
      if id = d.nextService then some (.defined s) else d.model.service? id :=
  (Model.service?_withService _ id).trans (service?_placeService space id)

theorem service?_enterService_self :
    (d.enterService space s).model.service? d.nextService = some (.defined s) := by
  rw [service?_enterService, if_pos rfl]

theorem findService?_enterService (hfree : d.model.findService? s.name = none) {n : Name}
    {id : ServiceId} : (d.enterService space s).model.findService? n = some id ↔
      (n = s.name ∧ id = d.nextService) ∨ d.model.findService? n = some id := by
  rw [enterService, Model.findService?_withService _
    ((findService?_placeService space s.name).trans hfree), findService?_placeService]

theorem findType?_enterService (n : Name) :
    (d.enterService space s).model.findType? n = d.model.findType? n := by
  rw [enterService, Model.findType?_withService]
  simp only [placeService, Model.findType?, Model.typeIndex_house]

theorem findList?_enterService (n : Name) :
    (d.enterService space s).model.findList? n = d.model.findList? n := by
  rw [enterService, Model.findList?_withService]
  simp only [placeService, Model.findList?, Model.listTypes_house]

theorem grows_enterService (hfree : d.model.findService? s.name = none) :
    d.model.Grows ∅ (d.enterService space s).model :=
  (grows_placeService d space s).trans
    (Model.grows_withService _ ((findService?_placeService space s.name).trans hfree))

theorem open_enterService (hs : d.Sound) (hbased : d.Based) (hb : s.base = none)
    (hm : s.methods = []) (hl : s.locators = []) (hfree : d.model.findService? s.name = none) :
    (d.enterService space s).Open (.service d.nextService) := by
  refine open_of_new hs hbased (grows_enterService space hfree)
    ((indexed_placeService space hs.indexed).withService _ (d.service?_placeService_self space s)
      ((findService?_placeService space s.name).trans hfree))
    (fun slot => (Model.typeAt?_withService _ slot).trans (typeAt?_placeService space hm hl slot))
    (fun slot => (Model.serviceAt?_withService _ slot).trans
      (serviceAt?_placeService space hb hl slot))
    ?_ (Nat.lt_irrefl _)
  exact (Model.grows_withService _ ((findService?_placeService space s.name).trans hfree)).within
    (nextService_within space)

theorem module_enterService (hi : d.model.Indexed) (hfree : d.model.findService? s.name = none) :
    Option.Rel (d.enterService space s).model.reading.module (d.model.house space).1
      (spaceName? space) := by
  have hg₁ : (d.model.house space).2.Grows ∅ (d.placeService space s).model := by
    rw [placeService_eq]
    exact Model.grows_pushService _ _
  have hg₂ : (d.placeService space s).model.Grows ∅ (d.enterService space s).model :=
    Model.grows_withService s.module ((findService?_placeService space s.name).trans hfree)
  exact optionRel_imp (fun h => hg₂.moduleName (hg₁.moduleName h)) (Model.named_house hi space)

theorem ne_nextService (hi : d.model.Indexed) {n : Name} {id : ServiceId}
    (h : d.model.findService? n = some id) : id ≠ d.nextService := by
  rintro rfl
  obtain ⟨s, hs, -⟩ := hi.service h
  exact Nat.lt_irrefl _ (Model.service?_lt hs)

theorem addService_placeService (hfree : d.model.findService? s.name = none) :
    (d.placeService space s).model.addService d.nextService = .ok (d.enterService space s).model :=
  Model.addService_new (d.service?_placeService_self space s)
    ((findService?_placeService space s.name).trans hfree)

theorem addService_placeService_taken (hi : d.model.Indexed) {id : ServiceId}
    (htaken : d.model.findService? s.name = some id) :
    (d.placeService space s).model.addService d.nextService = .error (.duplicateService s.name) :=
  Model.addService_taken (d.service?_placeService_self space s)
    ((findService?_placeService space s.name).trans htaken) (ne_nextService hi htaken)

end Services

end Draft

/-! ## Outcomes -/

/-- What the type of `decl` starts from: its name, its module and no reference. -/
structure TypeDecl.Shell (decl : TypeDecl) (module : Option ModuleId) (x : DataType) : Prop where
  bare : x.Bare
  name : Model.registrableName x = .ok (Name.ofCase decl.name)
  module : x.module? = module

structure ServiceDecl.Shell (decl : ServiceDecl) (module : Option ModuleId) (s : DefinedService) :
    Prop where
  base : s.base = none
  methods : s.methods = []
  locators : s.locators = []
  name : s.name = serviceName decl.name
  module : s.module = module

namespace Draft

/-- The reports on the roots that `id` takes the place of. -/
def replacements (d : Draft) (id : ServiceId) : List Diagnostic :=
  let nameOf := fun id => ((d.model.service? id).map (·.name)).getD ⟨[]⟩
  d.model.root.toList.map fun previous => .rootReplaced (nameOf previous) (nameOf id)

/-- The draft `d` with `id` as its root. -/
def elect (d : Draft) (id : ServiceId) : Draft :=
  { d with
    model := d.model.setRoot id
    diagnostics := d.diagnostics ++ d.replacements id }

/-- What becomes of `d` by a declaration, and whether the declaration has been carried out
completely. -/
inductive Outcome (d : Draft) : Declaration → Bool → Draft → Prop
  | unnamedType {t : TypeDecl} (hn : (Name.ofCase t.name).isEmpty = true) :
      Outcome d (.type t) false d
  /-- An enumeration with an invalid constant. -/
  | droppedType {t : TypeDecl} {constants : List ConstantDecl} {x : DataType}
      (hn : (Name.ofCase t.name).isEmpty = false) (hbody : t.body = .enum constants)
      (hc : t.body.isNamed = false) (hx : t.Shell (d.model.house t.space).1 x) :
      Outcome d (.type t) false (d.placeType t.space x)
  | takenType {t : TypeDecl} {x : DataType} {id : TypeId}
      (hn : (Name.ofCase t.name).isEmpty = false)
      (hbody : ∀ constants, t.body = .enum constants → t.body.isNamed = true)
      (hx : t.Shell (d.model.house t.space).1 x)
      (htaken : d.model.findType? (Name.ofCase t.name) = some id) :
      Outcome d (.type t) true ((d.placeType t.space x).report
        (RegistryError.duplicateType (Name.ofCase t.name)).diagnostic)
  | addedType {t : TypeDecl} {x₀ x : DataType} {complete : Bool} {d' : Draft}
      (hn : (Name.ofCase t.name).isEmpty = false) (hx₀ : t.Shell (d.model.house t.space).1 x₀)
      (hfree : d.model.findType? (Name.ofCase t.name) = none)
      (hb : (d.enterType t.space (Name.ofCase t.name) x₀).Builds {.type d.nextType} t.requests d')
      (hs : d'.Sound) (hbased : d'.Based) (hx : d'.model.type? d.nextType = some x)
      (hmodule : x.module? = x₀.module?)
      (hr : x.Records d'.model.reading d.nextType t complete)
      (hc : t.body.isNamed = complete) : Outcome d (.type t) complete d'
  | unnamedService {t : ServiceDecl} (hn : (serviceName t.name).isEmpty = true) :
      Outcome d (.service t) false d
  | takenService {t : ServiceDecl} {s : DefinedService} {id : ServiceId}
      (hn : (serviceName t.name).isEmpty = false) (hx : t.Shell (d.model.house t.space).1 s)
      (htaken : d.model.findService? (serviceName t.name) = some id) :
      Outcome d (.service t) true ((d.placeService t.space s).report
        (RegistryError.duplicateService (serviceName t.name)).diagnostic)
  | addedService {t : ServiceDecl} {s₀ s : DefinedService} {complete : Bool} {d₁ d' : Draft}
      (hn : (serviceName t.name).isEmpty = false) (hx₀ : t.Shell (d.model.house t.space).1 s₀)
      (hfree : d.model.findService? (serviceName t.name) = none)
      (hb : (d.enterService t.space s₀).Builds {.service d.nextService} t.requests d₁)
      (hs : d₁.Sound) (hbased : d₁.Based)
      (hx : d₁.model.service? d.nextService = some (.defined s)) (hmodule : s.module = s₀.module)
      (hr : s.Records d₁.model.reading d.nextService t complete)
      (hc : t.bodyNamed = complete)
      (hd : d' = if complete && t.isRoot then d₁.elect d.nextService else d₁) :
      Outcome d (.service t) complete d'
  | document {t : DocumentDecl} :
      Outcome d (.document t) true { d with model := d.model.addDocument t.document }

end Draft

namespace Declare

open Draft (Outcome)

variable {d : Draft}

theorem exec_moduleOf (space : String) (d : Draft) : (moduleOf space).exec d =
    (.ok (d.model.house space).1, { d with model := (d.model.house space).2 }) := by
  simp only [moduleOf, Model.house, spaceName?]
  split <;> rfl

theorem exec_allocType (x : DataType) (space : String) (d : Draft) :
    (allocate (·.allocType x)).exec { d with model := (d.model.house space).2 } =
      (.ok d.nextType, d.placeType space x) := by
  rw [exec_allocate]
  simp only [Model.allocType, Draft.placeType, Draft.nextType, Model.types_house]

theorem exec_allocService (s : DefinedService) (space : String) (d : Draft) :
    (allocate (·.allocService (.defined s))).exec { d with model := (d.model.house space).2 } =
      (.ok d.nextService, d.placeService space s) := by
  rw [exec_allocate]
  simp only [Model.allocService, Draft.placeService, Draft.nextService, Model.services_house]

theorem exec_register_ok {add : Model → Except RegistryError Model} {m : Model}
    (h : add d.model = .ok m) : (register add).exec d = (.ok true, { d with model := m }) := by
  show (Except.ok _, _) = _
  rw [h]

theorem exec_register_error {add : Model → Except RegistryError Model} {e : RegistryError}
    (h : add d.model = .error e) : (register add).exec d = (.ok false, d.report e.diagnostic) := by
  show (Except.ok _, _) = _
  rw [h]

/-- Carried out completely, or stopped: the two cases of an `Outcome`. -/
abbrev Yields (x : Declare Unit) (d : Draft) (decl : Declaration) : Prop :=
  Ensures x d (fun _ d' => Outcome d decl true d') (fun d' => Outcome d decl false d')

/-! ### Structs -/

/-- The struct that `decl` starts from. -/
def structShell (decl : TypeDecl) (module : Option ModuleId) : StructType :=
  { concept := decl.info.concept (Name.ofCase decl.name), module }

theorem name_concept (info : Meta) (n : Name) : (info.concept n).name = n := by
  have hannotate : ∀ (c : Concept) (decls : List AnnotationDecl),
      (decls.foldl (fun c decl => c.annotate (Name.ofCase decl.name) decl.annotation) c).name =
        c.name := by
    intro c decls
    induction decls generalizing c with
    | nil => rfl
    | cons decl decls ih => exact ih _
  have htag : ∀ (c : Concept) (tags : List DocTag),
      (tags.foldl (fun c tag => c.updateAnnotation (Name.ofCase tag.name) tag.addTo) c).name =
        c.name := by
    intro c tags
    induction tags generalizing c with
    | nil => rfl
    | cons tag tags ih => exact ih _
  exact (htag _ _).trans (hannotate _ _)

theorem shell_structShell (decl : TypeDecl) (module : Option ModuleId) :
    decl.Shell module (.struct (structShell decl module)) where
  bare := by
    refine ⟨rfl, ?_⟩
    rintro _ ⟨⟩
    exact ⟨rfl, rfl, rfl⟩
  name := congrArg Except.ok (name_concept _ _)
  module := rfl

theorem yields_structType (hs : d.Sound) (hb : d.Based) {decl : TypeDecl} {supertype : Supertype}
    {members : List MemberDecl} (hbody : decl.body = .struct supertype members) :
    Yields (structType decl supertype members) d (.type decl) := by
  refine .bind (ensures_checked (fun hn => ?_) fun hn => .unnamedType hn)
  refine .bind_exec (exec_moduleOf decl.space d) ?_
  let module := (d.model.house decl.space).1
  have hshell := shell_structShell decl module
  refine .bind_exec (exec_allocType (.struct (structShell decl module)) decl.space d) ?_
  rcases hfree : d.model.findType? (Name.ofCase decl.name) with _ | other
  · refine .bind_exec (exec_register_ok (Draft.addType_placeType _ hshell.name hfree)) ?_
    have hopen := Draft.open_enterType decl.space hs hb hshell.bare hshell.name hfree
    have hmodule := Draft.module_enterType decl.space (x := .struct (structShell decl module))
      hs.indexed hfree
    have hrequests : structRequests supertype.base? members = decl.requests := by
      rw [TypeDecl.requests, hbody]
    have hrecords : ∀ {d' s complete},
        StructType.MatchesPart (d' : Draft).model.reading d.nextType s decl supertype.base?
          members →
        (complete = true →
          s.Matches d'.model.reading d.nextType decl supertype.base? members) →
        DataType.Records d'.model.reading d.nextType decl complete (.struct s) := by
      intro d' s complete hpart hwhole
      rw [DataType.Records, hbody]
      exact ⟨s, rfl, hpart, hwhole⟩
    refine (ensures_structBody hopen (Draft.type?_enterType_self _) rfl hmodule rfl rfl rfl
      supertype members).imp ?_ ?_
    · rintro _ d' ⟨hn', ho', hb', s, hs', hmod, hmatch⟩
      rw [hrequests] at hb'
      exact .addedType hn hshell hfree hb' ho'.sound ho'.based hs' hmod
        (hrecords hmatch.part fun _ => hmatch) (hbody ▸ hn')
    · rintro d' ⟨hn', ho', hb', s, hs', hmod, hmatch⟩
      rw [hrequests] at hb'
      exact .addedType hn hshell hfree hb' ho'.sound ho'.based hs' hmod
        (hrecords hmatch (by simp)) (hbody ▸ hn')
  · have hadd := Draft.addType_placeType_taken decl.space hs.indexed hshell.name hfree
    refine .bind_exec (exec_register_error hadd) (.pure ?_)
    refine .takenType hn ?_ hshell hfree
    rw [hbody]
    rintro _ ⟨⟩

/-! ### Enumerations -/

theorem ensures_enumValues {id : TypeId} (constants : List ConstantDecl) :
    Ensures (constants.mapM (enumValue id)) d
      (fun vs d' => constants.all (·.isNamed) = true ∧ d' = d ∧
        List.Forall₂ (EnumValue.Matches id) vs constants)
      (fun d' => constants.all (·.isNamed) = false ∧ d' = d) := by
  induction constants with
  | nil => exact .pure ⟨rfl, rfl, .nil⟩
  | cons decl constants ih =>
    rw [List.mapM_cons]
    refine .bind (.bind (ensures_checked (fun hn => .pure ?_)
      fun hn => ⟨by simp [ConstantDecl.isNamed, hn], rfl⟩))
    refine .bind (ih.imp ?_ ?_)
    · rintro vs _ ⟨hall, rfl, hvs⟩
      have hn' : decl.isNamed = true := by simp [ConstantDecl.isNamed, hn]
      exact .pure ⟨by simp [hn', hall], rfl, .cons ⟨rfl, rfl⟩ hvs⟩
    · rintro _ ⟨hall, rfl⟩
      exact ⟨by simp [hall], rfl⟩

/-- The enumeration of `decl`, with the given `values`. -/
def enumShell (decl : TypeDecl) (module : Option ModuleId) (values : List EnumValue) : EnumType :=
  { concept := decl.info.concept (Name.ofCase decl.name), module, values }

theorem shell_enumShell (decl : TypeDecl) (module : Option ModuleId) (values : List EnumValue) :
    decl.Shell module (.enum (enumShell decl module values)) where
  bare := ⟨rfl, by simp⟩
  name := congrArg Except.ok (name_concept _ _)
  module := rfl

theorem modifyType_placeType (d : Draft) (space : String) (x : DataType)
    (f : DataType → DataType) : (d.placeType space x).model.modifyType d.nextType f =
      (d.placeType space (f x)).model := by
  simp only [Model.modifyType, Draft.placeType, Draft.nextType, modify_push]

theorem exec_discard {α : Type} {x : Declare α} {a : α} {d' : Draft} (h : x.exec d = (.ok a, d')) :
    (discard x : Declare PUnit).exec d = (.ok (), d') := by
  rw [discard_eq_bind, exec_bind, h]
  rfl

theorem yields_enumType (hs : d.Sound) (hb : d.Based) {decl : TypeDecl}
    {constants : List ConstantDecl} (hbody : decl.body = .enum constants) :
    Yields (enumType decl constants) d (.type decl) := by
  refine .bind (ensures_checked (fun hn => ?_) fun hn => .unnamedType hn)
  refine .bind_exec (exec_moduleOf decl.space d) ?_
  let module := (d.model.house decl.space).1
  refine .bind_exec (exec_allocType (.enum (enumShell decl module [])) decl.space d) ?_
  refine .bind ((ensures_enumValues constants).imp ?_ ?_)
  · rintro values _ ⟨hall, rfl, hvalues⟩
    have hshell := shell_enumShell decl module values
    let x : DataType := .enum (enumShell decl module values)
    refine .bind_exec (exec_updateModel _ _) ?_
    rw [show { d.placeType decl.space (.enum (enumShell decl module [])) with
        model := (d.placeType decl.space (.enum (enumShell decl module []))).model.modifyType
          d.nextType (·.mapEnum ({ · with values })) } = d.placeType decl.space x by
      rw [modifyType_placeType]; rfl]
    have hnamed : decl.body.isNamed = true := by rw [hbody]; exact hall
    rcases hfree : d.model.findType? (Name.ofCase decl.name) with _ | other
    · have hadd := Draft.addType_placeType decl.space hshell.name hfree
      refine .of_exec (exec_discard (exec_register_ok hadd)) ?_
      have hopen := Draft.open_enterType decl.space hs hb hshell.bare hshell.name hfree
      refine .addedType hn hshell hfree (.refl _) hopen.sound hopen.based
        (Draft.type?_enterType_self _) rfl ?_ hnamed
      rw [DataType.Records, hbody]
      exact ⟨_, rfl, rfl, Draft.module_enterType decl.space hs.indexed hfree, hvalues⟩
    · have hadd := Draft.addType_placeType_taken decl.space hs.indexed hshell.name hfree
      exact .of_exec (exec_discard (exec_register_error hadd))
        (.takenType hn (fun _ _ => hnamed) hshell hfree)
  · rintro _ ⟨hall, rfl⟩
    exact .droppedType hn hbody (by rw [hbody]; exact hall) (shell_enumShell decl module [])

/-! ### Services -/

def serviceShell (decl : ServiceDecl) (module : Option ModuleId) : DefinedService :=
  { concept := decl.info.concept (serviceName decl.name), module }

theorem shell_serviceShell (decl : ServiceDecl) (module : Option ModuleId) :
    decl.Shell module (serviceShell decl module) :=
  ⟨rfl, rfl, rfl, name_concept _ _, rfl⟩

theorem exec_electRoot (id : ServiceId) (d : Draft) :
    (electRoot id).exec d = (.ok (), d.elect id) := by
  refine (exec_modify _ d).trans ?_
  simp only [Draft.elect, Draft.replacements]
  cases d.model.root <;> simp [Draft.report]

theorem yields_service (hs : d.Sound) (hb : d.Based) (decl : ServiceDecl) :
    Yields (service decl) d (.service decl) := by
  rw [Yields, service, parseServiceName_eq]
  refine .bind (ensures_checked (fun hn => ?_) fun hn => .unnamedService hn)
  refine .bind_exec (exec_moduleOf decl.space d) ?_
  let module := (d.model.house decl.space).1
  have hshell := shell_serviceShell decl module
  refine .bind_exec (exec_allocService (serviceShell decl module) decl.space d) ?_
  rcases hfree : d.model.findService? (serviceName decl.name) with _ | other
  · have hfree' : d.model.findService? (serviceShell decl module).name = none :=
      hshell.name.symm ▸ hfree
    refine .bind_exec (exec_register_ok (Draft.addService_placeService _ hfree')) ?_
    have hopen := Draft.open_enterService decl.space hs hb hshell.base hshell.methods
      hshell.locators hfree'
    have hbody := ensures_serviceBody hopen (Draft.service?_enterService_self _) rfl
      (Draft.module_enterService decl.space hs.indexed hfree') rfl rfl rfl
    rw [if_pos rfl, ← bind_assoc, ← bind_assoc]
    rw [← bind_assoc] at hbody
    refine .bind (hbody.imp ?_ ?_)
    · rintro _ d₁ ⟨hn', hs₁, hb₁, hbuilds, s, hx, hmod, hmatch⟩
      have hd : ∀ {d'}, d' = (if true && decl.isRoot then d₁.elect d.nextService else d₁) →
          Outcome d (.service decl) true d' :=
        .addedService hn hshell hfree hbuilds hs₁ hb₁ hx hmod ⟨hmatch.part, fun _ => hmatch⟩ hn'
      split
      · rename_i hroot
        exact .of_exec (exec_electRoot d.nextService d₁) (hd (by simp [hroot]))
      · rename_i hroot
        exact .pure (hd (by simp [hroot]))
    · rintro d₁ ⟨hn', hs₁, hb₁, hbuilds, s, hx, hmod, hmatch⟩
      exact .addedService hn hshell hfree hbuilds hs₁ hb₁ hx hmod ⟨hmatch, by simp⟩ hn' (by simp)
  · have htaken : d.model.findService? (serviceShell decl module).name = some other :=
      hshell.name.symm ▸ hfree
    have hadd := Draft.addService_placeService_taken decl.space hs.indexed htaken
    refine .bind_exec (exec_register_error hadd) (.pure ?_)
    rw [hshell.name]
    exact .takenService hn hshell hfree

end Declare

/-- What one declaration `decl` does, whatever it is. -/
theorem Draft.outcome_declare {d : Draft} (hs : d.Sound) (hb : d.Based) (decl : Declaration) :
    d.Outcome decl (d.declare decl).1.isOk (d.declare decl).2 := by
  have hyields : Declare.Yields decl.declare d decl := by
    unfold Declaration.declare
    split
    · split
      · exact Declare.yields_structType hs hb ‹_›
      · exact Declare.yields_enumType hs hb ‹_›
    · exact Declare.yields_service hs hb _
    · exact .of_exec (Declare.exec_updateModel _ d) .document
  rw [Declare.Yields, Declare.Ensures] at hyields
  rw [show d.declare decl = decl.declare.exec d from rfl]
  rcases h : decl.declare.exec d with ⟨_ | _, d'⟩ <;> rw [h] at hyields <;> exact hyields

end ApiModel
