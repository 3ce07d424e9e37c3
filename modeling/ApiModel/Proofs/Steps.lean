import ApiModel.Proofs.Modules
import Mathlib.Logic.Relation

/-!
# Declarations, step by step

A declaration works on a draft in small steps: it enters a module, gives an
entity the next place, registers it, notes a pending reference, adds a member,
and so on. `Step` lists them. Each step is given the entries that it reads or
changes, so a run that is made of steps never looks for an entry that isn't
there, and what a step adds has a name and knows where it stands.

Every declaration is such a run, whether it is carried out or stops on its way.
So what all steps keep is kept by all declarations, with no need to look at
declarations again.
-/

namespace ApiModel

/-! ## Changes of a single entry -/

/-- A type as it first takes its place: it has a name and no parts. -/
inductive DataType.Blank : DataType → Prop
  | struct {concept : Concept} {module : Option ModuleId} (hn : concept.name.isEmpty = false) :
      Blank (.struct { concept, module })
  | enum {concept : Concept} {module : Option ModuleId} (hn : concept.name.isEmpty = false) :
      Blank (.enum { concept, module })

/-- What may happen to the type `id` after that. -/
inductive DataType.Edit (id : TypeId) : DataType → DataType → Prop
  | values {e : EnumType} {values : List EnumValue}
      (hv : ∀ v ∈ values, v.name.isEmpty = false ∧ v.owner = id) :
      Edit id (.enum e) (.enum { e with values })
  | element {n : Name} {e : TypeId} (e' : TypeId) : Edit id (.list n e) (.list n e')
  | base {s : StructType} (b : TypeId) : Edit id (.struct s) (.struct { s with base := some b })
  | member {s : StructType} {x : Member} (hn : x.name.isEmpty = false) (ho : x.owner = id) :
      Edit id (.struct s) (.struct (s.addMember x))

structure DefinedService.Blank (s : DefinedService) : Prop where
  name : s.name.isEmpty = false
  methods : s.methods = []
  locators : s.locators = []

/-- What may happen to the service `id` once it has its place. -/
inductive DefinedService.Edit (id : ServiceId) : DefinedService → DefinedService → Prop
  | base {s : DefinedService} (b : ServiceId) : Edit id s { s with base := some b }
  | method {s : DefinedService} {concept : Concept} (hn : concept.name.isEmpty = false) :
      Edit id s (s.addMethod { concept, service := id })
  | parameter {s : DefinedService} {i : Nat} {p : Parameter} (hi : i < s.methods.length)
      (hn : p.name.isEmpty = false) : Edit id s (s.modifyMethod i (·.addParameter p))
  | constraint {s : DefinedService} {i : Nat} {c : Constraint} (hi : i < s.methods.length)
      (hn : c.concept.name.isEmpty = false) (hc : c.method = ⟨id, i⟩) :
      Edit id s (s.modifyMethod i (·.addConstraint c))
  | locator {s : DefinedService} {l : Locator} (hn : l.name.isEmpty = false)
      (hp : ∀ p ∈ l.parameters, p.name.isEmpty = false) : Edit id s (s.addLocator l)

/-! ## Steps of a draft -/

/-- The module that an entry of `m` names is there. -/
def Model.HasModule (m : Model) (module : Option ModuleId) : Prop :=
  ∀ k, module = some k → (m.module? k).isSome

namespace Draft

inductive Step (d : Draft) : Draft → Prop
  | report (x : Diagnostic) : Step d (d.report x)
  | house (space : String) : Step d { d with model := (d.model.house space).2 }
  | allocType {x : DataType} (hx : x.Blank) (hk : d.model.HasModule x.module?) :
      Step d { d with model := (d.model.allocType x).2 }
  | editType {id : TypeId} {x : DataType} {f : DataType → DataType}
      (hx : d.model.type? id = some x) (he : x.Edit id (f x)) :
      Step d { d with model := d.model.modifyType id f }
  | addType {id : TypeId} {x : DataType} {m : Model} (hx : d.model.type? id = some x)
      (hk : d.model.HasModule x.module?) (hm : d.model.addType id = .ok m) :
      Step d { d with model := m }
  | undefinedType (n : Name) : Step d { d with model := (d.model.undefinedType n).2 }
  | addList (n : Name) (e : TypeId) : Step d { d with model := d.model.withList n e }
  | deferType {slot : TypeSlot} (n : Name) (hslot : slot.owner.Within d.model) :
      Step d { d with pendingTypes := d.pendingTypes ++ [(n, slot)] }
  | allocService {s : DefinedService} (hs : s.Blank) (hk : d.model.HasModule s.module) :
      Step d { d with model := (d.model.allocService (.defined s)).2 }
  | editService {id : ServiceId} {s : DefinedService} {f : DefinedService → DefinedService}
      (hs : d.model.service? id = some (.defined s)) (he : s.Edit id (f s)) :
      Step d { d with model := d.model.modifyService id f }
  | addService {id : ServiceId} {s : DefinedService} {m : Model}
      (hs : d.model.service? id = some (.defined s)) (hk : d.model.HasModule s.module)
      (hm : d.model.addService id = .ok m) : Step d { d with model := m }
  | undefinedService (n : Name) : Step d { d with model := (d.model.undefinedService n).2 }
  | deferService {slot : ServiceSlot} (n : Name) (hslot : slot.owner.Within d.model) :
      Step d { d with pendingServices := d.pendingServices ++ [(n, slot)] }
  | queue {r : ConstraintRef} (hr : (d.model.constraint? r).isSome) :
      Step d { d with constraints := d.constraints ++ [r] }
  | elect {id : ServiceId} {s : DefinedService} (hs : d.model.service? id = some (.defined s))
      (hroot : ∀ previous, d.model.root = some previous → (d.model.service? previous).isSome) :
      Step d (d.elect id)
  | addDocument (x : Document) : Step d { d with model := d.model.addDocument x }

/-- One `Step` after the other. -/
abbrev Steps : Draft → Draft → Prop :=
  Relation.ReflTransGen Step

/-! ## Resolving references -/

/-- From `d` to `d'`, steps that look for what a reference leads to. They touch no entry that is
there. -/
structure Consults (d d' : Draft) : Prop where
  steps : d.Steps d'
  types : ∀ {id t}, d.model.type? id = some t → d'.model.type? id = some t
  services : ∀ {id s}, d.model.service? id = some s → d'.model.service? id = some s

namespace Consults

variable {d d' d'' : Draft}

theorem refl (d : Draft) : Consults d d :=
  ⟨.refl, id, id⟩

theorem trans (h : Consults d d') (h' : Consults d' d'') : Consults d d'' :=
  ⟨h.steps.trans h'.steps, fun ht => h'.types (h.types ht), fun hs => h'.services (h.services hs)⟩

theorem method? (h : Consults d d') {r : MethodRef} {x : Method}
    (hx : d.model.method? r = some x) : d'.model.method? r = some x := by
  obtain ⟨s, hs, hr⟩ := Option.bind_eq_some_iff.mp hx
  refine Option.bind_eq_some_iff.mpr ⟨s, ?_, hr⟩
  exact Model.definedService?_eq_some.mpr (h.services (Model.definedService?_eq_some.mp hs))

end Consults

variable {d : Draft}

theorem consults_undefinedType (n : Name) :
    d.Consults { d with model := (d.model.undefinedType n).2 } :=
  have hg := d.model.grows_undefinedType n
  ⟨.single (.undefinedType n), hg.type (Set.notMem_empty _), hg.service (Set.notMem_empty _)⟩

theorem consults_undefinedService (n : Name) :
    d.Consults { d with model := (d.model.undefinedService n).2 } :=
  have hg := d.model.grows_undefinedService n
  ⟨.single (.undefinedService n), hg.type (Set.notMem_empty _), hg.service (Set.notMem_empty _)⟩

theorem consults_resolveType (n : Name) {slot : TypeSlot} (hw : slot.owner.Within d.model) :
    d.Consults (resolveType n slot d).2 := by
  rcases hn : d.model.findType? n with _ | id
  · rw [resolveType_new hn]
    refine (consults_undefinedType n).trans ⟨.single (.deferType n ?_), id, id⟩
    exact (d.model.grows_undefinedType n).within hw
  · rw [resolveType_known hn]
    exact .refl d

theorem consults_resolveService (n : Name) {slot : ServiceSlot}
    (hw : slot.owner.Within d.model) : d.Consults (resolveService n slot d).2 := by
  rcases hn : d.model.findService? n with _ | id
  · rw [resolveService_new hn]
    refine (consults_undefinedService n).trans ⟨.single (.deferService n ?_), id, id⟩
    exact (d.model.grows_undefinedService n).within hw
  · rw [resolveService_known hn]
    exact .refl d

/-- By `internList`, a list is made before its element is looked for, and gets its element
afterwards. -/
theorem consults_internList (n : Name) :
    d.Consults (internList n (fun list => resolveType n (.listElement list)) d).2 := by
  rcases hl : d.model.findList? n with _ | list
  · let m := (d.model.undefinedType n).2
    let list : TypeId := ⟨m.types.size⟩
    let d₁ : Draft := { d with model := m.withList n (d.model.undefinedType n).1 }
    have hlist : d₁.model.type? list = some (.list n (d.model.undefinedType n).1) :=
      Model.type?_withList.mpr (.inl ⟨rfl, rfl⟩)
    have h₁ : d.Consults d₁ :=
      (consults_undefinedType n).trans ⟨.single (.addList n _),
        fun ht => Model.type?_withList.mpr (.inr ht), id⟩
    have hw : (TypeSlot.listElement list).owner.Within d₁.model := Model.type?_lt hlist
    have h₂ := consults_resolveType n hw
    have hnew : ∀ {id t}, d.model.type? id = some t → list ≠ id := by
      rintro id t ht rfl
      exact Nat.not_lt.mpr (d.model.grows_undefinedType n).typesSize (Model.type?_lt ht)
    have heq : internList n (fun list => resolveType n (.listElement list)) d =
        (list, { (resolveType n (.listElement list) d₁).2 with
          model := (resolveType n (.listElement list) d₁).2.model.modifyType list
            (·.setElement (resolveType n (.listElement list) d₁).1) }) := by
      simp only [internList, hl]
      rfl
    rw [heq]
    refine ⟨(h₁.trans h₂).steps.tail (.editType (h₂.types hlist) (.element _)),
      fun ht => ?_, fun hs => (h₁.trans h₂).services hs⟩
    rw [Model.type?_modifyType, if_neg (hnew ht)]
    exact (h₁.trans h₂).types ht
  · rw [internList_known hl]
    exact .refl d

end Draft

namespace Model

variable {m m' : Model}

/-- `addType` either finds a type registered or enters it. -/
theorem addType_cases {id : TypeId} (h : m.addType id = .ok m') :
    m' = m ∨ ∃ n module, m.findType? n = none ∧ m' = m.withType n id module := by
  unfold addType at h
  split at h
  · exact .inl (Except.ok.inj h).symm
  · split at h
    · cases h
    · split at h
      · split at h
        · exact .inl (Except.ok.inj h).symm
        · cases h
      · exact .inr ⟨_, _, ‹_›, (Except.ok.inj h).symm⟩

theorem addService_cases {id : ServiceId} (h : m.addService id = .ok m') :
    m' = m ∨ ∃ n module, m.findService? n = none ∧ m' = m.withService n id module := by
  unfold addService at h
  split at h
  · exact .inl (Except.ok.inj h).symm
  · cases h
  · split at h
    · split at h
      · exact .inl (Except.ok.inj h).symm
      · cases h
    · exact .inr ⟨_, _, ‹_›, (Except.ok.inj h).symm⟩

theorem grows_addType {id : TypeId} (h : m.addType id = .ok m') : m.Grows ∅ m' := by
  obtain rfl | ⟨n, module, hn, rfl⟩ := addType_cases h
  · exact .refl _
  · exact grows_withType module hn

theorem grows_addService {id : ServiceId} (h : m.addService id = .ok m') : m.Grows ∅ m' := by
  obtain rfl | ⟨n, module, hn, rfl⟩ := addService_cases h
  · exact .refl _
  · exact grows_withService module hn

end Model

namespace Draft

/-! ## The root -/

/-- The root of `d`, if there is one, is there. -/
def Rooted (d : Draft) : Prop :=
  ∀ id, d.model.root = some id → (d.model.service? id).isSome

variable {d d' : Draft}

theorem Rooted.of_services (h : d.Rooted) (hroot : d'.model.root = d.model.root)
    (hs : ∀ {id}, (d.model.service? id).isSome → (d'.model.service? id).isSome) : d'.Rooted :=
  fun id hid => hs (h id (hroot.symm.trans hid))

theorem Step.rooted (h : d.Step d') (hr : d.Rooted) : d'.Rooted := by
  have hgrows : ∀ {m : Model}, d.model.Grows ∅ m → ∀ {id},
      (d.model.service? id).isSome → (m.service? id).isSome := by
    intro m hg id hs
    obtain ⟨s, hs⟩ := Option.isSome_iff_exists.mp hs
    exact Option.isSome_iff_exists.mpr ⟨s, hg.service (Set.notMem_empty _) hs⟩
  cases h with
  | report | allocType | editType | addList | deferType | deferService | queue | addDocument =>
    exact hr
  | house space =>
    obtain ⟨modules, moduleIndex, h⟩ := d.model.house_eq space
    have hroot : (d.model.house space).2.root = d.model.root := by rw [h]
    exact hr.of_services hroot (hgrows (d.model.grows_house space))
  | addType _ _ hm =>
    refine hr.of_services ?_ (hgrows (Model.grows_addType hm))
    obtain rfl | ⟨n, module, -, rfl⟩ := Model.addType_cases hm
    · rfl
    · cases module <;> rfl
  | undefinedType n =>
    exact hr.of_services (congrArg Registry.root (registry_undefinedType d.model n))
      (hgrows (d.model.grows_undefinedType n))
  | allocService => exact hr.of_services rfl (hgrows (d.model.grows_pushService _))
  | @editService id s f hs =>
    refine hr.of_services rfl fun {id'} h => ?_
    rw [Model.service?_modifyService]
    split
    · rwa [Option.isSome_map]
    · exact h
  | addService _ _ hm =>
    refine hr.of_services ?_ (hgrows (Model.grows_addService hm))
    obtain rfl | ⟨n, module, -, rfl⟩ := Model.addService_cases hm
    · rfl
    · cases module <;> rfl
  | undefinedService n =>
    exact hr.of_services (congrArg Registry.root (registry_undefinedService d.model n))
      (hgrows (d.model.grows_undefinedService n))
  | elect hs _ =>
    rintro _ ⟨⟩
    exact Option.isSome_iff_exists.mpr ⟨_, hs⟩

theorem rooted_steps (h : d.Steps d') (hr : d.Rooted) : d'.Rooted := by
  induction h with
  | refl => exact hr
  | tail _ hstep ih => exact hstep.rooted ih

end Draft

namespace Declare

open Draft (Step Steps Consults)

variable {α β : Type} {x : Declare α} {d : Draft} {P : α → Draft → Prop}

/-! ## Runs of steps -/

/-- From the draft `d`, `x` makes steps, and what it ends with is as in `P` unless it stops. -/
def Advances (x : Declare α) (d : Draft) (P : α → Draft → Prop) : Prop :=
  Ensures x d (fun a d' => d.Steps d' ∧ P a d') d.Steps

theorem Advances.bind {f : α → Declare β} {Q : β → Draft → Prop} (h : Advances x d P)
    (hf : ∀ a d', d.Steps d' → P a d' → Advances (f a) d' Q) :
    Advances (x >>= f) d Q := by
  refine Ensures.bind (h.imp ?_ fun _ hs => hs)
  rintro a d₁ ⟨hs, ha⟩
  exact (hf a d₁ hs ha).imp (fun _ _ h' => ⟨hs.trans h'.1, h'.2⟩) fun _ hs' => hs.trans hs'

theorem Advances.of_exec {a : α} {d' : Draft} (hx : x.exec d = (.ok a, d')) (hs : d.Steps d')
    (hp : P a d') : Advances x d P :=
  Ensures.of_exec hx ⟨hs, hp⟩

theorem Advances.bind_exec {f : α → Declare β} {Q : β → Draft → Prop} {a : α} {d₁ : Draft}
    (hx : x.exec d = (.ok a, d₁)) (hs : d.Steps d₁) (h : Advances (f a) d₁ Q) :
    Advances (x >>= f) d Q :=
  .bind (.of_exec hx hs ⟨rfl, rfl⟩ : Advances x d fun b d' => a = b ∧ d₁ = d') (by
    rintro _ _ - ⟨rfl, rfl⟩
    exact h)

theorem Advances.pure {a : α} (hp : P a d) : Advances (pure a) d P :=
  .of_exec (exec_pure a d) .refl hp

/-- A loop `Advances` if each round passes on what the next one needs, `I`. -/
theorem Advances.forM_zipIdx {f : α → Nat → Declare PUnit} {I : Nat → Draft → Prop}
    (hf : ∀ a i d, I i d → Advances (f a i) d fun _ => I (i + 1)) {i : Nat}
    (hd : I i d) (as : List α) :
    Advances ((as.zipIdx i).forM fun a => f a.1 a.2) d fun _ => I (i + as.length) := by
  refine Ensures.forM_zipIdx (I := fun i d' => d.Steps d' ∧ I i d') ?_ ⟨.refl, hd⟩ as
  rintro a i d₁ ⟨hs, hd₁⟩
  exact (hf a i d₁ hd₁).imp (fun _ _ h => ⟨hs.trans h.1, h.2⟩) fun _ hs' => hs.trans hs'

theorem Advances.forM {f : α → Declare PUnit} {I : Draft → Prop}
    (hf : ∀ a d, I d → Advances (f a) d fun _ => I) (hd : I d) (as : List α) :
    Advances (as.forM f) d fun _ => I := by
  rw [← Declare.forM_zipIdx f as 0]
  exact .forM_zipIdx (I := fun _ => I) (fun a _ => hf a) hd as

theorem advances_checked {role : NameRole} {text : String} {name : Name} :
    Advances (checked role text name) d fun n d' => n = name ∧ d = d' ∧ name.isEmpty = false :=
  ensures_checked (fun hn => ⟨.refl, rfl, rfl, hn⟩) fun _ => .refl

theorem advances_typeRef (ref : TypeRef) {slot : TypeSlot} (hw : slot.owner.Within d.model) :
    Advances (typeRef ref slot) d fun _ d' => d.Consults d' := by
  rcases ref with ⟨text, _ | _⟩
  · have hc := Draft.consults_resolveType (referenceName text) hw
    exact .of_exec (exec_lift _ d) hc.steps hc
  · have hc := Draft.consults_internList (d := d) (referenceName text)
    exact .of_exec (exec_lift _ d) hc.steps hc

theorem isEmpty_concept {info : Meta} {n : Name} (hn : n.isEmpty = false) :
    (info.concept n).name.isEmpty = false := by
  rw [name_concept, hn]

theorem advances_register {add : Model → Except RegistryError Model}
    (hadd : ∀ m, add d.model = .ok m → Step d { d with model := m }) :
    Advances (register add) d fun ok d' => ok = true → add d.model = .ok d'.model := by
  rcases h : add d.model with e | m
  · exact .of_exec (exec_register_error h) (.single (.report _)) (by simp)
  · exact .of_exec (exec_register_ok h) (.single (hadd m h)) fun _ => rfl

/-! ## Types -/

/-- `id` is a struct, whatever it holds so far. -/
def IsStruct (id : TypeId) (d : Draft) : Prop :=
  ∃ s, d.model.type? id = some (.struct s)

theorem advances_editStruct {id : TypeId} {f : StructType → StructType} (hs : IsStruct id d)
    (he : ∀ s, DataType.Edit id (.struct s) (.struct (f s))) :
    Advances (updateModel (·.modifyStruct id f)) d fun _ => IsStruct id := by
  obtain ⟨s, hs⟩ := hs
  exact .of_exec (exec_updateModel _ d) (.single (.editType hs (he s)))
    ⟨_, Model.type?_modifyStruct_self hs f⟩

theorem advances_member {id : TypeId} (decl : MemberDecl) (hs : IsStruct id d) :
    Advances (member id decl) d fun _ => IsStruct id := by
  refine advances_checked.bind ?_
  rintro _ _ - ⟨rfl, rfl, hn⟩
  refine .bind_exec (exec_get d) .refl ?_
  have hw : (memberSlot id decl.kind d.model).owner.Within d.model := by
    rw [Model.owner_memberSlot]
    exact Model.type?_lt hs.choose_spec
  refine (advances_typeRef decl.type hw).bind fun ty d₁ _ hc => ?_
  exact advances_editStruct (hs.imp fun _ h => hc.types h) fun s =>
    .member (isEmpty_concept hn) rfl

theorem advances_structBase {id : TypeId} (base : Option String) (hs : IsStruct id d) :
    Advances (structBase id base) d fun _ => IsStruct id := by
  cases base with
  | none => exact .pure hs
  | some text =>
    refine advances_checked.bind ?_
    rintro _ _ - ⟨rfl, rfl, hn⟩
    have hw : (TypeSlot.base id).owner.Within d.model := Model.type?_lt hs.choose_spec
    have hc := Draft.consults_resolveType (Name.ofCase text) hw
    refine .bind_exec (exec_lift _ d) hc.steps ?_
    exact advances_editStruct (hs.imp fun _ h => hc.types h) fun s => .base _

/-- By `placeType`, a type takes the next place, in a module that has been entered. -/
theorem step_placeType (hi : d.model.Indexed) {space : String} {x : DataType} (hx : x.Blank)
    (hk : x.module? = (d.model.house space).1) :
    Step { d with model := (d.model.house space).2 } (d.placeType space x) := by
  have hm : (d.model.house space).2.HasModule x.module? :=
    fun k hk' => Model.isSome_module?_house hi (hk.symm.trans hk')
  rw [Draft.placeType_eq]
  generalize (d.model.house space).2 = m at hm
  exact Step.allocType (d := { d with model := m }) hx hm

theorem hasModule_placeType (hi : d.model.Indexed) (space : String) (x : DataType) :
    (d.placeType space x).model.HasModule (d.model.house space).1 := by
  intro k hk
  have hhouse := Model.isSome_module?_house hi hk
  simpa only [Draft.placeType, Model.module?] using hhouse

theorem advances_structType (hi : d.model.Indexed) (decl : TypeDecl) (supertype : Supertype)
    (members : List MemberDecl) :
    Advances (structType decl supertype members) d fun _ _ => True := by
  refine advances_checked.bind ?_
  rintro _ _ - ⟨rfl, rfl, hn⟩
  refine .bind_exec (exec_moduleOf decl.space d) (.single (.house decl.space)) ?_
  let x : DataType := .struct (structShell decl (d.model.house decl.space).1)
  have hx := d.type?_placeType_self decl.space x
  refine .bind_exec (exec_allocType x decl.space d)
    (.single (step_placeType hi (.struct (isEmpty_concept hn)) rfl)) ?_
  refine (advances_register fun m hm => .addType hx (hasModule_placeType hi _ _) hm).bind ?_
  rintro ok d₁ - hok
  split
  · have hs : IsStruct d.nextType d₁ :=
      ⟨_, (Model.grows_addType (hok ‹_›)).type (Set.notMem_empty _) hx⟩
    refine (advances_structBase supertype.base? hs).bind fun _ d₂ _ hs₂ => ?_
    exact (Advances.forM (fun decl _ => advances_member decl) hs₂ members).imp
      (fun _ _ h => ⟨h.1, trivial⟩) fun _ h => h
  · exact .pure trivial

theorem advances_enumValues {id : TypeId} (constants : List ConstantDecl) :
    Advances (constants.mapM (enumValue id)) d fun vs d' => d = d' ∧
      ∀ v ∈ vs, v.name.isEmpty = false ∧ v.owner = id := by
  induction constants with
  | nil => exact .pure ⟨rfl, by simp⟩
  | cons decl constants ih =>
    rw [List.mapM_cons]
    refine Advances.bind (P := fun v d' => d = d' ∧ v.name.isEmpty = false ∧ v.owner = id)
      (advances_checked.bind ?_) ?_
    · rintro _ _ - ⟨rfl, rfl, hn⟩
      exact .pure ⟨rfl, isEmpty_concept hn, rfl⟩
    · rintro v _ - ⟨rfl, hv⟩
      refine ih.bind ?_
      rintro vs _ - ⟨rfl, hvs⟩
      exact .pure ⟨rfl, List.forall_mem_cons.mpr ⟨hv, hvs⟩⟩

theorem advances_enumType (hi : d.model.Indexed) (decl : TypeDecl)
    (constants : List ConstantDecl) :
    Advances (enumType decl constants) d fun _ _ => True := by
  refine advances_checked.bind ?_
  rintro _ _ - ⟨rfl, rfl, hn⟩
  refine .bind_exec (exec_moduleOf decl.space d) (.single (.house decl.space)) ?_
  let module := (d.model.house decl.space).1
  refine .bind_exec (exec_allocType (.enum (enumShell decl module [])) decl.space d)
    (.single (step_placeType hi (.enum (isEmpty_concept hn)) rfl)) ?_
  refine (advances_enumValues constants).bind ?_
  rintro values _ - ⟨rfl, hvalues⟩
  refine .bind_exec (exec_updateModel _ _)
    (.single (.editType (d.type?_placeType_self _ _) (.values hvalues))) ?_
  rw [modifyType_placeType]
  let x : DataType := .enum (enumShell decl module values)
  rcases h : (d.placeType decl.space x).model.addType d.nextType with e | m
  · exact .of_exec (exec_discard (exec_register_error h)) (.single (.report _)) trivial
  · exact .of_exec (exec_discard (exec_register_ok h))
      (.single (.addType (d.type?_placeType_self _ x) (hasModule_placeType hi _ _) h)) trivial

/-! ## Services -/

/-- `id` is a defined service, whatever it holds so far. -/
def IsService (id : ServiceId) (d : Draft) : Prop :=
  ∃ s, d.model.service? id = some (.defined s)

theorem IsService.consults {d' : Draft} {id : ServiceId} (h : IsService id d)
    (hc : d.Consults d') : IsService id d' :=
  h.imp fun _ h => hc.services h

theorem advances_editService {id : ServiceId} {f : DefinedService → DefinedService}
    (hs : IsService id d) (he : ∀ s, DefinedService.Edit id s (f s)) :
    Advances (updateModel (·.modifyService id f)) d fun _ => IsService id := by
  obtain ⟨s, hs⟩ := hs
  exact .of_exec (exec_updateModel _ d) (.single (.editService hs (he s)))
    ⟨_, Model.service?_modifyService_self hs f⟩

theorem advances_serviceBase {id : ServiceId} (base : Option String) (hs : IsService id d) :
    Advances (serviceBase id base) d fun _ => IsService id := by
  cases base with
  | none => exact .pure hs
  | some text =>
    rw [serviceBase, parseServiceName_eq]
    refine advances_checked.bind ?_
    rintro _ _ - ⟨rfl, rfl, hn⟩
    have hw : (ServiceSlot.base id).owner.Within d.model := Model.service?_lt hs.choose_spec
    have hc := Draft.consults_resolveService (serviceName text) hw
    exact .bind_exec (exec_lift _ d) hc.steps
      (advances_editService (hs.consults hc) fun s => .base _)

theorem advances_parameter (decl : ParameterDecl) {slot : TypeSlot}
    (hw : slot.owner.Within d.model) :
    Advances (parameter decl slot) d fun p d' => d.Consults d' ∧ p.name.isEmpty = false := by
  refine advances_checked.bind ?_
  rintro _ _ - ⟨rfl, rfl, hn⟩
  exact (advances_typeRef decl.type hw).bind fun ty d₁ _ hc => .pure ⟨hc, isEmpty_concept hn⟩

/-- The method at `r` is there, with `k` constraints so far. -/
def IsMethod (r : MethodRef) (k : Nat) (d : Draft) : Prop :=
  ∃ x, d.model.method? r = some x ∧ x.constraints.length = k

theorem IsMethod.isService {r : MethodRef} {k : Nat} (h : IsMethod r k d) :
    ∃ s, d.model.service? r.service = some (.defined s) ∧ r.index < s.methods.length := by
  obtain ⟨x, hx, -⟩ := h
  obtain ⟨s, hs, hr⟩ := Option.bind_eq_some_iff.mp hx
  exact ⟨s, Model.definedService?_eq_some.mp hs, (List.getElem?_eq_some_iff.mp hr).1⟩

theorem method?_modifyMethod {m : Model} {r : MethodRef} {x : Method} {f : Method → Method}
    (hx : m.method? r = some x) : (m.modifyMethod r f).method? r = some (f x) := by
  obtain ⟨s, hs, hr⟩ := Option.bind_eq_some_iff.mp hx
  refine Option.bind_eq_some_iff.mpr ⟨s.modifyMethod r.index f, ?_, ?_⟩
  · exact Model.definedService?_eq_some.mpr
      (Model.service?_modifyService_self (Model.definedService?_eq_some.mp hs) _)
  · rw [DefinedService.modifyMethod, List.getElem?_modify_eq, hr]
    rfl

theorem advances_editMethod {r : MethodRef} {k : Nat} {f : Method → Method}
    (hr : IsMethod r k d)
    (he : ∀ s : DefinedService, r.index < s.methods.length →
      s.Edit r.service (s.modifyMethod r.index f)) :
    Advances (updateModel (·.modifyMethod r f)) d fun _ d' =>
      ∃ x, d.model.method? r = some x ∧ x.constraints.length = k ∧
        d'.model.method? r = some (f x) := by
  obtain ⟨s, hs, hi⟩ := hr.isService
  obtain ⟨x, hx, hk⟩ := hr
  exact .of_exec (exec_updateModel _ d) (.single (.editService hs (he s hi)))
    ⟨x, hx, hk, method?_modifyMethod hx⟩

theorem advances_methodParameter {r : MethodRef} (decl : ParameterDecl) (index : Nat)
    (hr : IsMethod r 0 d) : Advances (methodParameter r decl index) d fun _ => IsMethod r 0 := by
  have hw : (TypeSlot.methodParameter r index).owner.Within d.model :=
    Model.service?_lt hr.isService.choose_spec.1
  refine (advances_parameter decl hw).bind ?_
  rintro p d₁ - ⟨hc, hn⟩
  have hr₁ : IsMethod r 0 d₁ := hr.imp fun _ ⟨hx, hk⟩ => ⟨hc.method? hx, hk⟩
  refine (advances_editMethod hr₁ fun s hi => .parameter hi hn).imp ?_ fun _ h => h
  rintro _ d₂ ⟨hs, x, -, hk, hx⟩
  exact ⟨hs, _, hx, hk⟩

theorem advances_methodConstraint {r : MethodRef} (decl : ConstraintDecl) (k : Nat)
    (hr : IsMethod r k d) :
    Advances (methodConstraint r decl k) d fun _ => IsMethod r (k + 1) := by
  refine Advances.bind (P := fun c d' => d = d' ∧ c.concept.name.isEmpty = false ∧ c.method = r)
    (advances_checked.bind ?_) ?_
  · rintro _ _ - ⟨rfl, rfl, hn⟩
    exact .pure ⟨rfl, isEmpty_concept hn, rfl⟩
  · rintro c _ - ⟨rfl, hn, hc⟩
    refine (advances_editMethod hr fun s hi => .constraint hi hn hc).bind ?_
    rintro _ d₁ - ⟨x, -, hk, hx⟩
    have hlen : (x.addConstraint c).constraints.length = k + 1 := by
      rw [Method.addConstraint, List.length_append, hk]
      rfl
    refine .of_exec (exec_modify _ d₁) (.single (.queue ?_)) ⟨_, hx, hlen⟩
    rw [Model.constraint?, hx, Option.bind_some, isSome_getElem?]
    exact Nat.lt_of_lt_of_eq (Nat.lt_succ_self k) hlen.symm

theorem advances_method {id : ServiceId} (decl : MethodDecl) (hs : IsService id d) :
    Advances (method id decl) d fun _ => IsService id := by
  refine advances_checked.bind ?_
  rintro _ _ - ⟨rfl, rfl, hn⟩
  obtain ⟨s, hs⟩ := hs
  refine .bind_exec (exec_get d) .refl ?_
  rw [show (d.model.definedService? id).elim 0 (·.methods.length) = s.methods.length by
    rw [Model.definedService?_eq_some.mpr hs]; rfl]
  let x : Method := { concept := decl.info.concept (Name.ofCase decl.name), service := id }
  refine .bind_exec (exec_updateModel _ d)
    (.single (.editService hs (.method (isEmpty_concept hn)))) ?_
  have hr : IsMethod ⟨id, s.methods.length⟩ 0
      { d with model := d.model.modifyService id (·.addMethod x) } := by
    refine ⟨x, ?_, rfl⟩
    rw [Model.method?, Model.definedService?_eq_some.mpr (Model.service?_modifyService_self hs _)]
    exact List.getElem?_concat_length
  refine (Advances.forM_zipIdx (I := fun _ => IsMethod ⟨id, s.methods.length⟩ 0)
    (fun p i _ => advances_methodParameter p i) hr decl.parameters).bind fun _ d₁ _ hr₁ => ?_
  refine (Advances.forM_zipIdx (I := IsMethod ⟨id, s.methods.length⟩)
    (fun c i _ => advances_methodConstraint c i) hr₁ decl.constraints).imp ?_ fun _ h => h
  rintro _ d₂ ⟨hsteps, hr₂⟩
  exact ⟨hsteps, hr₂.isService.imp fun _ h => h.1⟩

theorem advances_locatorParameters {id : ServiceId} {k : Nat} (hs : IsService id d)
    (decls : List ParameterDecl) (i : Nat) :
    Advances ((decls.zipIdx i).mapM fun (p, j) => parameter p (.locatorParameter id k j)) d
      fun ps d' => IsService id d' ∧ ∀ p ∈ ps, p.name.isEmpty = false := by
  induction decls generalizing d i with
  | nil => exact .pure ⟨hs, by simp⟩
  | cons decl decls ih =>
    rw [List.zipIdx_cons, List.mapM_cons]
    have hw : (TypeSlot.locatorParameter id k i).owner.Within d.model :=
      Model.service?_lt hs.choose_spec
    refine (advances_parameter decl hw).bind ?_
    rintro p d₁ - ⟨hc, hn⟩
    refine (ih (hs.consults hc) (i + 1)).bind ?_
    rintro ps d₂ - ⟨hs₂, hps⟩
    exact .pure ⟨hs₂, List.forall_mem_cons.mpr ⟨hn, hps⟩⟩

theorem advances_locator {id : ServiceId} (decl : LocatorDecl) (hs : IsService id d) :
    Advances (locator id decl) d fun _ => IsService id := by
  unfold locator
  refine advances_checked.bind ?_
  rintro _ _ - ⟨rfl, rfl, hn⟩
  rw [parseServiceName_eq]
  refine advances_checked.bind ?_
  rintro _ _ - ⟨rfl, rfl, -⟩
  refine .bind_exec (exec_get d) .refl ?_
  generalize (d.model.definedService? id).elim 0 (·.locators.length) = k
  have hw : (ServiceSlot.locator id k).owner.Within d.model := Model.service?_lt hs.choose_spec
  have hc := Draft.consults_resolveService (serviceName decl.service) hw
  refine .bind_exec (exec_lift _ d) hc.steps ?_
  refine (advances_locatorParameters (hs.consults hc) decl.parameters 0).bind ?_
  rintro ps d₂ - ⟨hs₂, hps⟩
  exact advances_editService hs₂ fun s => .locator (isEmpty_concept hn) hps

theorem step_placeService (hi : d.model.Indexed) {space : String} {s : DefinedService}
    (hs : s.Blank) (hk : s.module = (d.model.house space).1) :
    Step { d with model := (d.model.house space).2 } (d.placeService space s) := by
  have hm : (d.model.house space).2.HasModule s.module :=
    fun k hk' => Model.isSome_module?_house hi (hk.symm.trans hk')
  rw [Draft.placeService_eq]
  generalize (d.model.house space).2 = m at hm
  exact Step.allocService (d := { d with model := m }) hs hm

theorem hasModule_placeService (hi : d.model.Indexed) (space : String) (s : DefinedService) :
    (d.placeService space s).model.HasModule (d.model.house space).1 := by
  intro k hk
  have hhouse := Model.isSome_module?_house hi hk
  simpa only [Draft.placeService, Model.module?] using hhouse

theorem advances_service (hi : d.model.Indexed) (hroot : d.Rooted) (decl : ServiceDecl) :
    Advances (service decl) d fun _ _ => True := by
  rw [service, parseServiceName_eq]
  refine advances_checked.bind ?_
  rintro _ _ - ⟨rfl, rfl, hn⟩
  refine .bind_exec (exec_moduleOf decl.space d) (.single (.house decl.space)) ?_
  let s := serviceShell decl (d.model.house decl.space).1
  have hs := d.service?_placeService_self decl.space s
  have hplace : Step _ (d.placeService decl.space s) :=
    step_placeService hi ⟨isEmpty_concept hn, rfl, rfl⟩ rfl
  have hroot₀ := hplace.rooted ((Step.house decl.space).rooted hroot)
  refine .bind_exec (exec_allocService s decl.space d) (.single hplace) ?_
  refine (advances_register fun m hm => .addService hs (hasModule_placeService hi _ _) hm).bind ?_
  rintro ok d₁ hs₁ hok
  split
  · have hid : IsService d.nextService d₁ :=
      ⟨_, (Model.grows_addService (hok ‹_›)).service (Set.notMem_empty _) hs⟩
    refine (advances_serviceBase decl.supertype.base? hid).bind fun _ d₂ hs₂ hid₂ => ?_
    refine (Advances.forM (fun x _ => advances_method x) hid₂ decl.methods).bind
      fun _ d₃ hs₃ hid₃ => ?_
    refine (Advances.forM (fun x _ => advances_locator x) hid₃ decl.locators).bind
      fun _ d₄ hs₄ hid₄ => ?_
    split
    · have hroot₄ := Draft.rooted_steps (((hs₁.trans hs₂).trans hs₃).trans hs₄) hroot₀
      exact .of_exec (exec_electRoot _ d₄) (.single (.elect hid₄.choose_spec hroot₄)) trivial
    · exact .pure trivial
  · exact .pure trivial

end Declare

/-! ## Declarations -/

namespace Draft

variable {d : Draft}

/-- A declaration `decl` is made of `Steps`, whether it is carried out or not. -/
theorem steps_declare (hi : d.model.Indexed) (hroot : d.Rooted) (decl : Declaration) :
    d.Steps (d.declare decl).2 := by
  have hadvances : Declare.Advances decl.declare d fun _ _ => True := by
    unfold Declaration.declare
    split
    · split
      · exact Declare.advances_structType hi _ _ _
      · exact Declare.advances_enumType hi _ _
    · exact Declare.advances_service hi hroot _
    · exact .of_exec (Declare.exec_updateModel _ d) (.single (.addDocument _)) trivial
  rw [Declare.Advances, Declare.Ensures] at hadvances
  rw [show d.declare decl = decl.declare.exec d from rfl]
  rcases h : decl.declare.exec d with ⟨_ | _, d'⟩ <;> rw [h] at hadvances
  · exact hadvances
  · exact hadvances.1

theorem rooted_initial : Rooted {} := by
  rintro id ⟨⟩

theorem steps_declareEach (ds : List Declaration) : Steps {} (declareEach {} ds) := by
  induction ds using List.reverseRecOn with
  | nil => exact .refl
  | append_singleton ds decl ih =>
    rw [declareEach_concat]
    exact ih.trans
      (steps_declare (sound_declareEach ds).1.indexed (rooted_steps ih rooted_initial) decl)

end Draft

end ApiModel
