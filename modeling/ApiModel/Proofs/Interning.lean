import ApiModel.Proofs.RegistryInvariant

/-!
# Lists and placeholders are interned

A model has one list for each element name that some array is declared with, and
one undefined entity for each name that is asked for before it is declared. All
indexes of a model are exact, so that much can be read off its entries at any
time. What takes more is that the arrays of all declarations share these lists:
wherever an array is declared, as a member, as a parameter of a method or as one
of a locator, what ends up in its place is the list of its canonical element
name. `Writes` tells which place a reference is written to.
-/

namespace ApiModel

/-! ## One entry for each name -/

namespace Model

variable {m m' : Model}

structure Interned (m : Model) : Prop where
  list_unique : ∀ {n id id' e e'}, m.type? id = some (.list n e) →
    m.type? id' = some (.list n e') → id = id'
  undefinedType_unique : ∀ {n id id'}, m.type? id = some (.undefined n) →
    m.type? id' = some (.undefined n) → id = id'
  undefinedService_unique : ∀ {n id id'}, m.service? id = some (.undefined n) →
    m.service? id' = some (.undefined n) → id = id'
  -- The indexes lead to these entries and to nothing else.
  listTypes : ∀ {n id}, m.findList? n = some id ↔ ∃ e, m.type? id = some (.list n e)
  undefinedTypes : ∀ {n : Name} {id},
    m.undefinedTypes[n]? = some id ↔ m.type? id = some (.undefined n)
  undefinedServices : ∀ {n : Name} {id},
    m.undefinedServices[n]? = some id ↔ m.service? id = some (.undefined n)
  element : ∀ {n id e}, m.type? id = some (.list n e) →
    ∃ t, m.type? e = some t ∧ t.name = n ∧ ∀ n' e', t ≠ .list n' e'

/-- A model that is `Indexed` leaves no room for a second entry. -/
theorem Indexed.interned (hi : m.Indexed) : m.Interned where
  list_unique h h' := Option.some.inj ((hi.list.mpr ⟨_, h⟩).symm.trans (hi.list.mpr ⟨_, h'⟩))
  undefinedType_unique h h' :=
    Option.some.inj ((hi.undefinedType.mpr h).symm.trans (hi.undefinedType.mpr h'))
  undefinedService_unique h h' :=
    Option.some.inj ((hi.undefinedService.mpr h).symm.trans (hi.undefinedService.mpr h'))
  listTypes := hi.list
  undefinedTypes := hi.undefinedType
  undefinedServices := hi.undefinedService
  element h := hi.name_of_typeNamed (hi.listElement h)

end Model

/-! ## Where references are written to -/

theorem getElem?_of_initial {α : Type} {as bs : List α} (h : as <+: bs) {i : Nat} {a : α}
    (ha : as[i]? = some a) : bs[i]? = some a := by
  obtain ⟨hi, rfl⟩ := List.getElem?_eq_some_iff.mp ha
  exact List.prefix_iff_getElem?.mp h i hi

/-- The slot of the member at `i`, which is counted among those of its `kind`. -/
def TypeSlot.member (id : TypeId) (kind : MemberKind) (i : Nat) : TypeSlot :=
  match kind with
  | .attribute => .attribute id i
  | .link => .link id i

def StructType.ofKind (s : StructType) : MemberKind → List Member
  | .attribute => s.attributes
  | .link => s.links

theorem Model.typeAt?_member {m : Model} {id : TypeId} {s : StructType} (h : m.struct? id = some s)
    (kind : MemberKind) (i : Nat) :
    m.typeAt? (.member id kind i) = (s.ofKind kind)[i]?.map (·.type) := by
  match kind with
  | .attribute | .link =>
    rw [TypeSlot.member, Model.typeAt?, h]
    rfl

/-! Entities hold, place by place, what their declarations write there. -/

section Places

variable {r : Reading}

/-- The reference `ref` is written for what is held, `x`. -/
abbrev Reading.Reference (r : Reading) (x : TypeId) (ref : TypeRef) : Prop :=
  r.type x ref.target

theorem StructType.Matches.member {id : TypeId} {s : StructType} {decl : TypeDecl}
    {base : Option String} {members : List MemberDecl} (h : s.Matches r id decl base members)
    (kind : MemberKind) (i : Nat) :
    Option.Rel r.Reference ((s.ofKind kind)[i]?.map (·.type))
      ((members.filter (·.kind = kind))[i]?.map (·.type)) := by
  have hmembers : List.Forall₂ (Member.Matches r id) (s.ofKind kind)
      (members.filter (·.kind = kind)) := by
    match kind with
    | .attribute => exact h.attributes
    | .link => exact h.links
  exact optionRel_map₂ (optionRel_getElem? hmembers i) fun _ _ hx => hx.type

theorem Parameter.Matches.reference {xs : List Parameter} {decls : List ParameterDecl}
    (h : List.Forall₂ (Parameter.Matches r) xs decls) (j : Nat) :
    Option.Rel r.Reference (xs[j]?.map (·.type)) (decls[j]?.map (·.type)) :=
  optionRel_map₂ (optionRel_getElem? h j) fun _ _ hx => hx.type

variable {id : ServiceId} {s : DefinedService} {decl : ServiceDecl} {base : Option String}
  {methods : List MethodDecl} {locators : List LocatorDecl}

theorem DefinedService.Matches.methodParameter
    (h : s.Matches r id decl base methods locators) (i j : Nat) :
    Option.Rel r.Reference (s.methods[i]?.bind fun x => x.parameters[j]?.map (·.type))
      (methods[i]?.bind fun x => x.parameters[j]?.map (·.type)) := by
  have hparameter := optionRel_bind (optionRel_getElem? h.methods i)
    (f := fun x => x.1.parameters[j]?.map (·.type))
    fun x decl hx => Parameter.Matches.reference hx.parameters j
  rwa [List.getElem?_zipIdx, Option.bind_map] at hparameter

theorem DefinedService.Matches.locatorParameter
    (h : s.Matches r id decl base methods locators) (i j : Nat) :
    Option.Rel r.Reference (s.locators[i]?.bind fun x => x.parameters[j]?.map (·.type))
      (locators[i]?.bind fun x => x.parameters[j]?.map (·.type)) :=
  optionRel_bind (optionRel_getElem? h.locators i) fun _ _ hx =>
    Parameter.Matches.reference hx.parameters j

end Places

namespace Draft

/-- One of the declarations `ds` writes the reference to the slot, and has been carried out
completely or not. -/
inductive Writes (ds : List Declaration) : TypeSlot → TypeRef → Bool → Prop
  | member {pre post : List Declaration} {t : TypeDecl} {supertype : Supertype}
      {members : List MemberDecl} {id : TypeId} {kind : MemberKind} {i : Nat} {x : MemberDecl}
      (hds : ds = pre ++ .type t :: post) (hbody : t.body = .struct supertype members)
      (hreg : RegistersType pre t id) (hx : (members.filter (·.kind = kind))[i]? = some x) :
      Writes ds (.member id kind i) x.type ((declareEach {} pre).declare (.type t)).1.isOk
  | methodParameter {pre post : List Declaration} {t : ServiceDecl} {id : ServiceId} {i j : Nat}
      {x : MethodDecl} {p : ParameterDecl} (hds : ds = pre ++ .service t :: post)
      (hreg : RegistersService pre t id) (hx : t.methods[i]? = some x)
      (hp : x.parameters[j]? = some p) :
      Writes ds (.methodParameter ⟨id, i⟩ j) p.type
        ((declareEach {} pre).declare (.service t)).1.isOk
  | locatorParameter {pre post : List Declaration} {t : ServiceDecl} {id : ServiceId} {i j : Nat}
      {x : LocatorDecl} {p : ParameterDecl} (hds : ds = pre ++ .service t :: post)
      (hreg : RegistersService pre t id) (hx : t.locators[i]? = some x)
      (hp : x.parameters[j]? = some p) :
      Writes ds (.locatorParameter id i j) p.type
        ((declareEach {} pre).declare (.service t)).1.isOk

/-- What the declaration `t` has registered says what `t` says, ever after. -/
theorem RegistersType.records {pre : List Declaration} {t : TypeDecl} {id : TypeId}
    (h : RegistersType pre t id) (post : List Declaration) :
    ∃ x, (declareEach {} (pre ++ .type t :: post)).model.type? id = some x ∧
      x.Records (declareEach {} (pre ++ .type t :: post)).model.reading id t
        ((declareEach {} pre).declare (.type t)).1.isOk := by
  have hg := grows_declareEach_append (pre ++ [.type t]) post
  rw [List.append_assoc] at hg
  rcases (extends_declareEach pre (.type t)).types h.after with hold | ⟨-, -, hrec⟩
  · rw [h.before] at hold
    cases hold
  · obtain ⟨id', x, hid, hx, hr⟩ := hrec
    obtain rfl := Option.some.inj (h.after.symm.trans hid)
    exact ⟨x, hg.type (Set.notMem_empty _) hx, hr.mono hg.reading⟩

theorem RegistersService.records {pre : List Declaration} {t : ServiceDecl} {id : ServiceId}
    (h : RegistersService pre t id) (post : List Declaration) :
    ∃ s, (declareEach {} (pre ++ .service t :: post)).model.service? id = some (.defined s) ∧
      s.Records (declareEach {} (pre ++ .service t :: post)).model.reading id t
        ((declareEach {} pre).declare (.service t)).1.isOk := by
  have hg := grows_declareEach_append (pre ++ [.service t]) post
  rw [List.append_assoc] at hg
  rcases (extends_declareEach pre (.service t)).services h.after with hold | ⟨-, -, hrec⟩
  · rw [h.before] at hold
    cases hold
  · obtain ⟨id', s, hid, hs, hr⟩ := hrec
    obtain rfl := Option.some.inj (h.after.symm.trans hid)
    exact ⟨s, hg.service (Set.notMem_empty _) hs, hr.mono hg.reading⟩

/-- As far as an entity goes, it holds what is written; and it does where the declaration has been
carried out completely, that is, if `complete`. -/
theorem reference_of_part {r : Reading} {x? : Option TypeId} {part whole : Option TypeRef}
    {complete : Bool} (hpart : Option.Rel r.Reference x? part)
    (hle : ∀ ref, part = some ref → whole = some ref)
    (hwhole : complete = true → Option.Rel r.Reference x? whole) {ref : TypeRef}
    (h : whole = some ref) :
    (∀ x, x? = some x → r.Reference x ref) ∧ (complete = true → x?.isSome) := by
  constructor
  · rintro x rfl
    generalize part = part' at hpart hle
    cases hpart with
    | some hx =>
      obtain rfl := Option.some.inj ((hle _ rfl).symm.trans h)
      exact hx
  · intro hc
    have hrel := hwhole hc
    rw [h] at hrel
    cases hrel
    rfl

/-- What is held in a `slot` where `ref` is written is what `ref` leads to. -/
theorem Writes.reference {ds : List Declaration} {slot : TypeSlot} {ref : TypeRef}
    {complete : Bool} (h : Writes ds slot ref complete) :
    (∀ x, (declareEach {} ds).model.typeAt? slot = some x →
      (declareEach {} ds).model.Refers ref.target x) ∧
    (complete = true → ((declareEach {} ds).model.typeAt? slot).isSome) := by
  cases h with
  | @member pre post t supertype members id kind i x hds hbody hreg hx =>
    subst hds
    obtain ⟨y, hy, hr⟩ := hreg.records post
    rw [DataType.Records, hbody] at hr
    obtain ⟨s, rfl, ⟨base', members', -, hinit, hpart⟩, hwhole⟩ := hr
    rw [Model.typeAt?_member (Model.struct?_eq_some.mpr hy)]
    refine reference_of_part (hpart.member kind i) (fun ref href => ?_)
      (fun hc => (hwhole hc).member kind i) (by rw [hx]; rfl)
    obtain ⟨z, hz, rfl⟩ := Option.map_eq_some_iff.mp href
    rw [getElem?_of_initial (hinit.filter _) hz]
    rfl
  | @methodParameter pre post t id i j x p hds hreg hx hp =>
    subst hds
    obtain ⟨s, hs, ⟨base', methods', whole, locators', -, hparts, hinit, -, hpart⟩, hwhole⟩ :=
      hreg.records post
    rw [Model.typeAt?, Model.method?, Model.definedService?_eq_some.mpr hs]
    refine reference_of_part (hpart.methodParameter i j) (fun ref href => ?_)
      (fun hc => (hwhole hc).methodParameter i j) (by rw [hx, Option.bind_some, hp]; rfl)
    obtain ⟨y, hy, href⟩ := Option.bind_eq_some_iff.mp href
    obtain ⟨q, hq, rfl⟩ := Option.map_eq_some_iff.mp href
    obtain ⟨w, hw, hyw⟩ := exists_of_optionRel (optionRel_getElem? hparts.flip i) hy
    rw [getElem?_of_initial hinit hw, Option.bind_some, getElem?_of_initial hyw.parameters hq]
    rfl
  | @locatorParameter pre post t id i j x p hds hreg hx hp =>
    subst hds
    obtain ⟨s, hs, ⟨base', methods', whole, locators', -, -, -, hinit, hpart⟩, hwhole⟩ :=
      hreg.records post
    rw [Model.typeAt?, Model.definedService?_eq_some.mpr hs]
    refine reference_of_part (hpart.locatorParameter i j) (fun ref href => ?_)
      (fun hc => (hwhole hc).locatorParameter i j) (by rw [hx, Option.bind_some, hp]; rfl)
    obtain ⟨y, hy, href⟩ := Option.bind_eq_some_iff.mp href
    rw [getElem?_of_initial hinit hy]
    exact href

end Draft

/-! ## Arrays share their lists -/

namespace Model

variable {m m' : Model} {ds : List Declaration}

/-- Everything is `Interned`, and the arrays of `ds` share the lists. -/
structure Shares (m : Model) (ds : List Declaration) : Prop extends m.Interned where
  held : ∀ {slot ref complete}, Draft.Writes ds slot ref complete → ref.isArray = true →
    (∀ x, m.typeAt? slot = some x → m.findList? (referenceName ref.name) = some x) ∧
      (complete = true → (m.typeAt? slot).isSome)
  shared : ∀ {slot slot' ref ref' complete complete' x x'}, Draft.Writes ds slot ref complete →
    Draft.Writes ds slot' ref' complete' → ref.isArray = true → ref'.isArray = true →
    referenceName ref.name = referenceName ref'.name → m.typeAt? slot = some x →
    m.typeAt? slot' = some x' → x = x'

theorem shares_of (hi : m.Indexed)
    (h : ∀ {slot ref complete}, Draft.Writes ds slot ref complete → ref.isArray = true →
      (∀ x, m.typeAt? slot = some x → m.findList? (referenceName ref.name) = some x) ∧
        (complete = true → (m.typeAt? slot).isSome)) : m.Shares ds where
  toInterned := hi.interned
  held := h
  shared hw hw' ha ha' hn hx hx' := by
    have hlist := (h hw ha).1 _ hx
    have hlist' := (h hw' ha').1 _ hx'
    rw [hn] at hlist
    exact Option.some.inj (hlist.symm.trans hlist')

/-- By `settledType`, references to lists are left alone. -/
theorem settledType_list {id : TypeId} {n : Name} {e : TypeId}
    (h : m.type? id = some (.list n e)) : m.settledType id = id := by
  rw [settledType, h]

theorem Shares.settled (h : m.Shares ds) (hi : m.Indexed) : m.settled.Shares ds := by
  refine shares_of hi.settled fun {slot ref complete} hw ha => ?_
  obtain ⟨hlist, hsome⟩ := h.held hw ha
  rw [typeAt?_settled, Option.isSome_map]
  refine ⟨fun x hx => ?_, hsome⟩
  obtain ⟨y, hy, rfl⟩ := Option.map_eq_some_iff.mp hx
  have hfind := hlist y hy
  obtain ⟨e, he⟩ := hi.list.mp hfind
  rw [settledType_list he]
  exact hfind

theorem Shares.reparsed (h : m.Shares ds) (hi : m.Indexed) (hr : m.Reparsed m') :
    m'.Shares ds := by
  refine shares_of (hi.reparsed hr) fun hw ha => ?_
  have hfind : ∀ n, m'.findList? n = m.findList? n := fun n => by
    rw [hr.rest]
    rfl
  rw [hr.typeAt?, hfind]
  exact h.held hw ha

end Model

namespace Draft

theorem shares_declareEach (ds : List Declaration) : (declareEach {} ds).model.Shares ds := by
  have hi := (sound_declareEach ds).1.indexed
  refine Model.shares_of hi fun {slot ref complete} hw ha => ?_
  obtain ⟨hrefers, hsome⟩ := hw.reference
  refine ⟨fun x hx => ?_, hsome⟩
  have hlist := hrefers x hx
  rw [TypeRef.target, ha] at hlist
  exact hi.list.mpr hlist

/-- Whatever has been declared, there is one list for each element name and one undefined entity for
each name, the indexes lead to exactly these, and arrays with the same canonical element name share
their list: the model `Shares`. Settling references and parsing constraints keeps all of it. -/
theorem lists_interned_once (ds : List Declaration) :
    (declareEach {} ds).model.Shares ds ∧
      ∀ parser a, (declareEach {} ds).build parser = .ok a → a.model.Shares ds := by
  obtain ⟨hs, hb⟩ := sound_declareEach ds
  have hshares := shares_declareEach ds
  refine ⟨hshares, fun parser a ha => ?_⟩
  exact (hshares.settled hs.indexed).reparsed hs.indexed.settled (reparsed_build hs hb ha)

/-- Arrays of a primitive, of a struct that is declared later, and of one that never is. -/
def arrayStruct : TypeDecl :=
  { name := "Vm", space := "model.types", body := .struct .none [
    { name := "disks", type := { name := "Disk", isArray := true }, kind := .link },
    { name := "flags", type := { name := "bool", isArray := true } },
    { name := "nics", type := { name := "Nic", isArray := true } }] }

def arrayService : ServiceDecl :=
  { name := "VmsService", space := "model.services", methods := [
    { name := "list", parameters := [
      { name := "disks", type := { name := "disk", isArray := true } },
      { name := "flags", type := { name := "Boolean", isArray := true } }] }] }

/-- The service asks for the arrays of `arrayStruct`, under other names. -/
def arrayDeclarations : List Declaration :=
  [.type arrayStruct, .type { name := "Disk", space := "", body := .struct .none [] },
    .service arrayService]

theorem lists_interned_once_arrays : ∃ a x c c',
    (declareEach {} arrayDeclarations).build none = .ok a ∧
      Writes arrayDeclarations (.attribute ⟨5⟩ 0) { name := "bool", isArray := true } c ∧
      Writes arrayDeclarations (.methodParameter ⟨⟨0⟩, 0⟩ 1)
        { name := "Boolean", isArray := true } c' ∧
      a.model.typeAt? (.attribute ⟨5⟩ 0) = some x ∧
      a.model.typeAt? (.methodParameter ⟨⟨0⟩, 0⟩ 1) = some x := by
  have hsome : (((declareEach {} arrayDeclarations).build none).toOption.bind fun a =>
      (a.model.typeAt? (.attribute ⟨5⟩ 0)).bind fun _ =>
        a.model.typeAt? (.methodParameter ⟨⟨0⟩, 0⟩ 1)).isSome = true := by
    decide +kernel
  obtain ⟨x', hx'⟩ := Option.isSome_iff_exists.mp hsome
  obtain ⟨a, ha, hx'⟩ := Option.bind_eq_some_iff.mp hx'
  obtain ⟨x, hx, hx'⟩ := Option.bind_eq_some_iff.mp hx'
  have ha' := eq_ok_of_toOption ha
  have hw : Writes arrayDeclarations (.member ⟨5⟩ .attribute 0) _ _ :=
    .member (show arrayDeclarations = [] ++ .type arrayStruct :: _ from rfl) rfl
      ⟨by decide +kernel, by decide +kernel⟩ rfl
  have hw' : Writes arrayDeclarations (.methodParameter ⟨⟨0⟩, 0⟩ 1) _ _ :=
    .methodParameter
      (show arrayDeclarations = arrayDeclarations.take 2 ++ .service arrayService :: [] from rfl)
      ⟨by decide +kernel, by decide +kernel⟩ rfl rfl
  obtain rfl : x = x' :=
    ((lists_interned_once arrayDeclarations).2 none a ha').shared hw hw' rfl rfl
      (by decide +kernel) hx hx'
  exact ⟨a, x, _, _, ha', hw, hw', hx, hx'⟩

end Draft

end ApiModel
