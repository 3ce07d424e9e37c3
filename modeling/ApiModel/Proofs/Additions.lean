import ApiModel.Proofs.RegistryInvariant

/-!
# Declarations only add

A declaration leaves everything that a draft has as it is, whether it is carried
out or stops on its way. Entities keep their places and all that belongs to
them, names keep what they lead to, and reports, documents, pending references,
queued constraints and the listings of modules get longer at their ends. Only
the root may be replaced, by a service that has been declared completely.

The entities and the names of a draft that grows have been dealt with
(`Extends`). What gets longer does so with every single step.
-/

namespace ApiModel

/-- The module `x'` is `x` with more added to it. -/
structure Module.Leads (x x' : Module) : Prop where
  name : x'.name = x.name
  types : x.types <+: x'.types
  services : x.services <+: x'.services

namespace Module.Leads

variable {x x' x'' : Module}

theorem refl (x : Module) : x.Leads x :=
  ⟨rfl, List.prefix_rfl, List.prefix_rfl⟩

theorem trans (h : x.Leads x') (h' : x'.Leads x'') : x.Leads x'' :=
  ⟨h'.name.trans h.name, h.types.trans h'.types, h.services.trans h'.services⟩

end Module.Leads

/-- The modules of `m` are there in `m'`. -/
def Model.ModulesLead (m m' : Model) : Prop :=
  ∀ k x, m.module? k = some x → ∃ x', m'.module? k = some x' ∧ x.Leads x'

namespace Model

variable {m m' : Model}

theorem ModulesLead.of_eq (h : m'.modules = m.modules) : m.ModulesLead m' :=
  fun _ x hx => ⟨x, by rw [module?, h]; exact hx, .refl x⟩

theorem ModulesLead.trans {m'' : Model} (h : m.ModulesLead m') (h' : m'.ModulesLead m'') :
    m.ModulesLead m'' := by
  intro k x hx
  obtain ⟨x', hx', hl⟩ := h k x hx
  obtain ⟨x'', hx'', hl'⟩ := h' k x' hx'
  exact ⟨x'', hx'', hl.trans hl'⟩

theorem modulesLead_house (m : Model) (space : String) : m.ModulesLead (m.house space).2 := by
  rw [house]
  split
  · exact .of_eq rfl
  · rename_i n _
    rcases hn : m.findModule? n with _ | k
    · rw [internModule_new hn]
      intro k x hx
      have hne : k ≠ ⟨m.modules.size⟩ := by
        rintro rfl
        cases m.module?_size.symm.trans hx
      exact ⟨x, by rw [module?_pushModule, if_neg hne, hx], .refl x⟩
    · rw [internModule_known hn]
      exact .of_eq rfl

theorem modulesLead_withType (m : Model) (n : Name) (id : TypeId) (module : Option ModuleId) :
    m.ModulesLead (m.withType n id module) := by
  intro k x hx
  rw [module?_withType, hx]
  split
  · exact ⟨_, rfl, rfl, List.prefix_append _ _, List.prefix_rfl⟩
  · exact ⟨x, rfl, .refl x⟩

theorem modulesLead_withService (m : Model) (n : Name) (id : ServiceId)
    (module : Option ModuleId) : m.ModulesLead (m.withService n id module) := by
  intro k x hx
  rw [module?_withService, hx]
  split
  · exact ⟨_, rfl, rfl, List.prefix_rfl, List.prefix_append _ _⟩
  · exact ⟨x, rfl, .refl x⟩

end Model

namespace Draft

variable {d d' d'' : Draft}

/-! ## What gets longer -/

structure Appends (d d' : Draft) : Prop where
  diagnostics : d.diagnostics <+: d'.diagnostics
  documents : d.model.documents <+: d'.model.documents
  pendingTypes : d.pendingTypes <+: d'.pendingTypes
  pendingServices : d.pendingServices <+: d'.pendingServices
  constraints : d.constraints <+: d'.constraints
  modules : d.model.ModulesLead d'.model

namespace Appends

theorem refl (d : Draft) : d.Appends d :=
  ⟨List.prefix_rfl, List.prefix_rfl, List.prefix_rfl, List.prefix_rfl, List.prefix_rfl,
    .of_eq rfl⟩

theorem trans (h : d.Appends d') (h' : d'.Appends d'') : d.Appends d'' where
  diagnostics := h.diagnostics.trans h'.diagnostics
  documents := h.documents.trans h'.documents
  pendingTypes := h.pendingTypes.trans h'.pendingTypes
  pendingServices := h.pendingServices.trans h'.pendingServices
  constraints := h.constraints.trans h'.constraints
  modules := h.modules.trans h'.modules

theorem of_model {m : Model} (hdocuments : m.documents = d.model.documents)
    (hmodules : d.model.ModulesLead m) : d.Appends { d with model := m } :=
  { refl d with
    documents := hdocuments ▸ List.prefix_rfl
    modules := hmodules }

end Appends

/-- No `Step` takes anything away. -/
theorem Step.appends (h : d.Step d') : d.Appends d' := by
  cases h with
  | report x => exact { Appends.refl d with diagnostics := List.prefix_append _ _ }
  | house space =>
    obtain ⟨modules, moduleIndex, h⟩ := d.model.house_eq space
    exact .of_model (by rw [h]) (d.model.modulesLead_house space)
  | allocType | editType | addList | allocService | editService =>
    exact .of_model rfl (.of_eq rfl)
  | addType _ _ hm =>
    obtain rfl | ⟨n, module, -, rfl⟩ := Model.addType_cases hm
    · exact .refl d
    · exact .of_model (by cases module <;> rfl) (d.model.modulesLead_withType n _ module)
  | undefinedType n =>
    have hregistry := registry_undefinedType d.model n
    exact .of_model (congrArg Registry.documents hregistry)
      (.of_eq (congrArg Registry.modules hregistry))
  | deferType n => exact { Appends.refl d with pendingTypes := List.prefix_append _ _ }
  | addService _ _ hm =>
    obtain rfl | ⟨n, module, -, rfl⟩ := Model.addService_cases hm
    · exact .refl d
    · exact .of_model (by cases module <;> rfl) (d.model.modulesLead_withService n _ module)
  | undefinedService n =>
    have hregistry := registry_undefinedService d.model n
    exact .of_model (congrArg Registry.documents hregistry)
      (.of_eq (congrArg Registry.modules hregistry))
  | deferService n => exact { Appends.refl d with pendingServices := List.prefix_append _ _ }
  | queue => exact { Appends.refl d with constraints := List.prefix_append _ _ }
  | elect =>
    exact { Appends.refl d with
      diagnostics := List.prefix_append _ _
      modules := .of_eq rfl }
  | addDocument x =>
    exact { Appends.refl d with
      documents := List.prefix_append _ _
      modules := .of_eq rfl }

theorem appends_steps (h : d.Steps d') : d.Appends d' := by
  induction h with
  | refl => exact .refl d
  | tail _ hstep ih => exact ih.trans hstep.appends

/-! ## The root -/

/-- A service becomes the root if it is marked so, has a name of its own and is declared completely,
as `complete` says. -/
def rootAfter (d : Draft) (complete : Bool) : Declaration → Option ServiceId
  | .service t =>
    if t.isRoot ∧ d.model.findService? (serviceName t.name) = none ∧ complete then
      some d.nextService
    else d.model.root
  | _ => d.model.root

theorem Outcome.root {decl : Declaration} {complete : Bool} (h : d.Outcome decl complete d') :
    d'.model.root = d.rootAfter complete decl := by
  cases h with
  | unnamedType | document => rfl
  | droppedType | takenType => exact (joins_placeType d _ _).root
  | addedType _ _ _ hb => exact ((joins_enterType d _ _ _).builds hb).root
  | unnamedService => simp [rootAfter]
  | takenService _ _ htaken =>
    rw [rootAfter, if_neg (by simp [htaken])]
    exact (joins_placeService d _ _).root
  | addedService _ _ hfree hb _ _ _ _ _ _ hd =>
    rw [hd, rootAfter]
    simp only [hfree, true_and, Bool.and_eq_true, and_comm]
    split
    · rfl
    · exact ((joins_enterService d _ _).builds hb).root

/-! ## What stays -/

/-- Nothing that `d` has is missing or different in `d'`. -/
structure Keeps (d d' : Draft) : Prop extends Appends d d' where
  type : ∀ {id t}, d.model.type? id = some t → d'.model.type? id = some t
  service : ∀ {id s}, d.model.service? id = some s → d'.model.service? id = some s
  typeName : ∀ {n id}, d.model.findType? n = some id → d'.model.findType? n = some id
  serviceName : ∀ {n id}, d.model.findService? n = some id → d'.model.findService? n = some id
  moduleName : ∀ {n id}, d.model.findModule? n = some id → d'.model.findModule? n = some id
  list : ∀ {n id}, d.model.findList? n = some id → d'.model.findList? n = some id
  undefinedType : ∀ {n : Name} {id}, d.model.undefinedTypes[n]? = some id →
    d'.model.undefinedTypes[n]? = some id
  undefinedService : ∀ {n : Name} {id}, d.model.undefinedServices[n]? = some id →
    d'.model.undefinedServices[n]? = some id

/-- The declaration `decl` keeps all that there is after any declarations `ds`, whether these and
itself are carried out or not. The root alone is replaced, just if `decl` is that of a root service
whose name isn't taken and it is carried out. -/
theorem declare_only_adds (ds : List Declaration) (decl : Declaration) :
    (declareEach {} ds).Keeps ((declareEach {} ds).declare decl).2 ∧
      ((declareEach {} ds).declare decl).2.model.root =
        (declareEach {} ds).rootAfter ((declareEach {} ds).declare decl).1.isOk decl := by
  have hs := (sound_declareEach ds).1
  have hextends := extends_declareEach ds decl
  have houtcome := outcome_declareEach ds decl
  rw [declareEach_concat] at hextends houtcome
  have hg := hextends.grows
  have hsteps := steps_declare hs.indexed (rooted_steps (steps_declareEach ds) rooted_initial) decl
  refine ⟨{ appends_steps hsteps with
    type := hg.type (Set.notMem_empty _)
    service := hg.service (Set.notMem_empty _)
    typeName := hg.findType
    serviceName := hg.findService
    moduleName := hg.findModule
    list := hg.findList
    undefinedType := fun h => ?_
    undefinedService := fun h => ?_ }, houtcome.root⟩
  · rw [hs.indexed.undefinedType] at h
    rw [hextends.sound.indexed.undefinedType]
    exact hg.type (Set.notMem_empty _) h
  · rw [hs.indexed.undefinedService] at h
    rw [hextends.sound.indexed.undefinedService]
    exact hg.service (Set.notMem_empty _) h

end Draft

end ApiModel
