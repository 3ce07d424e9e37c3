import ApiModel.Proofs.Modules
import Mathlib.Data.List.Perm.Basic

/-!
# Unambiguous declarations

If no two types and no two services have the same name and there is at most one
root, then whether a declaration can be carried out depends on it alone, and so
does what is reported on it. What the whole of the declarations leads to can be
told without their order: which modules and documents there are, which service
is the root, and up to order what is reported.
-/

namespace ApiModel

/-! ## Properties of declarations -/

namespace Declaration

def isRoot : Declaration → Bool
  | .service t => t.isRoot
  | _ => false

/-- The module that a declaration belongs to. -/
def moduleName? : Declaration → Option Name
  | .type t => spaceName? t.space
  | .service t => spaceName? t.space
  | .document _ => none

def document? : Declaration → Option Document
  | .document t => some t.document
  | _ => none

end Declaration

def Name.isPrimitive (n : Name) : Bool :=
  PrimitiveKind.all.any (·.name = n)

theorem Name.isPrimitive_iff {n : Name} :
    n.isPrimitive = true ↔ ∃ k : PrimitiveKind, n = k.name := by
  simp only [isPrimitive, List.any_eq_true, decide_eq_true_eq]
  refine exists_congr fun k => ⟨fun ⟨_, h⟩ => h.symm, fun h => ⟨?_, h.symm⟩⟩
  cases k <;> decide

/-- The constants of an `enum` are always read; the body of a `struct` is if its name isn't
taken. -/
def TypeBody.isReadAlways : TypeBody → Bool
  | .struct _ _ => false
  | .enum _ => true

namespace Declaration

/-- The names in the declaration that are read all have words. The name of a primitive is
taken. -/
def isValid : Declaration → Bool
  | .type t => !(Name.ofCase t.name).isEmpty &&
    (!t.body.isReadAlways && (Name.ofCase t.name).isPrimitive || t.body.isNamed)
  | .service t => !(serviceName t.name).isEmpty && t.bodyNamed
  | .document _ => true

/-- All names in the declaration have words. -/
def isNamed : Declaration → Bool
  | .type t => !(Name.ofCase t.name).isEmpty && t.body.isNamed
  | .service t => !(serviceName t.name).isEmpty && t.bodyNamed
  | .document _ => true

theorem isValid_of_isNamed {decl : Declaration} (h : decl.isNamed = true) :
    decl.isValid = true := by
  cases decl <;> simp_all [isNamed, isValid]

/-- The report on a type that has the name of a primitive, see `isPrimitive`. -/
def clash? : Declaration → Option Diagnostic
  | .type t =>
    if (Name.ofCase t.name).isPrimitive then
      some (RegistryError.duplicateType (Name.ofCase t.name)).diagnostic
    else none
  | _ => none

end Declaration

/-- No two types and no two services in `ds` have the same name, and there is at most one root. -/
structure Unambiguous (ds : List Declaration) : Prop where
  types : (ds.filterMap Declaration.typeName?).Nodup
  services : (ds.filterMap Declaration.serviceName?).Nodup
  roots : (ds.filter Declaration.isRoot).length ≤ 1

theorem nodup_filterMap_concat {α β : Type} {f : α → Option β} {as : List α} {a : α} :
    ((as ++ [a]).filterMap f).Nodup ↔
      (as.filterMap f).Nodup ∧ ∀ b, f a = some b → ∀ x ∈ as, f x ≠ some b := by
  rw [List.filterMap_append, List.nodup_append]
  rcases ha : f a with _ | b
  · simp [ha]
  · simp only [List.filterMap_cons, ha, List.filterMap_nil, List.mem_filterMap,
      List.mem_singleton, Option.some.injEq]
    refine and_congr_right fun _ => ⟨?_, fun h => ⟨by simp, ?_⟩⟩
    · rintro ⟨-, h⟩ _ rfl x hx hxb
      exact h b ⟨x, hx, hxb⟩ b rfl rfl
    · rintro _ ⟨x, hx, hxb⟩ _ rfl rfl
      exact h _ rfl x hx hxb

theorem eq_of_nodup_filterMap {α β : Type} {f : α → Option β} {as : List α}
    (h : (as.filterMap f).Nodup) {x y : α} (hx : x ∈ as) (hy : y ∈ as) {b : β}
    (hxb : f x = some b) (hyb : f y = some b) : x = y := by
  induction as using List.reverseRecOn with
  | nil => cases hx
  | append_singleton as a ih =>
    obtain ⟨has, ha⟩ := nodup_filterMap_concat.mp h
    rw [List.mem_append, List.mem_singleton] at hx hy
    rcases hx with hx | rfl <;> rcases hy with hy | rfl
    · exact ih has hx hy
    · exact absurd hxb (ha b hyb x hx)
    · exact absurd hyb (ha b hxb y hy)
    · rfl

namespace Unambiguous

variable {ds ds' : List Declaration} {decl : Declaration}

theorem perm (h : Unambiguous ds) (hp : ds.Perm ds') : Unambiguous ds' where
  types := (hp.filterMap _).nodup h.types
  services := (hp.filterMap _).nodup h.services
  roots := (hp.filter _).length_eq ▸ h.roots

theorem left (h : Unambiguous (ds ++ [decl])) : Unambiguous ds where
  types := (nodup_filterMap_concat.mp h.types).1
  services := (nodup_filterMap_concat.mp h.services).1
  roots := by
    have hr := h.roots
    rw [List.filter_append, List.length_append] at hr
    omega

theorem eq_of_isRoot (h : Unambiguous ds) {x y : Declaration} (hx : x ∈ ds) (hy : y ∈ ds)
    (hxr : x.isRoot = true) (hyr : y.isRoot = true) : x = y := by
  have hroots := h.roots
  have hx' := List.mem_filter.mpr ⟨hx, hxr⟩
  have hy' := List.mem_filter.mpr ⟨hy, hyr⟩
  match hf : ds.filter Declaration.isRoot with
  | [] => rw [hf] at hx'; cases hx'
  | [a] =>
    rw [hf] at hx' hy'
    rw [List.mem_singleton.mp hx', List.mem_singleton.mp hy']
  | _ :: _ :: _ => rw [hf] at hroots; simp at hroots

/-- There is no root before the root `decl`. -/
theorem not_isRoot (h : Unambiguous (ds ++ [decl])) (hd : decl.isRoot = true) {x : Declaration}
    (hx : x ∈ ds) : x.isRoot ≠ true := by
  intro hxr
  have hr := h.roots
  have hpos := List.length_pos_of_mem (List.mem_filter.mpr ⟨hx, hxr⟩)
  rw [List.filter_append, List.length_append, List.filter_cons_of_pos hd, List.length_cons] at hr
  omega

end Unambiguous

/-! ## What is free -/

namespace Draft

variable {ds : List Declaration} {decl : Declaration}

/-- Before the type `decl` is declared its name is that of a primitive, or free. -/
theorem isSome_findType?_iff (h : Unambiguous (ds ++ [decl])) {n : Name}
    (hn : decl.typeName? = some n) :
    ((declareEach {} ds).model.findType? n).isSome ↔ n.isPrimitive = true := by
  rw [Name.isPrimitive_iff, Option.isSome_iff_exists]
  constructor
  · rintro ⟨id, hid⟩
    rcases origin_type hid with ⟨k, hk⟩ | ⟨pre, t, post, x, rfl, hname, -⟩
    · obtain ⟨t, ht, hname⟩ := (sound_declareEach ds).1.indexed.type hid
      obtain rfl := Option.some.inj (hk.symm.trans ht)
      exact ⟨k, (Except.ok.inj hname).symm⟩
    · exact absurd (congrArg some hname)
        ((nodup_filterMap_concat.mp h.types).2 n hn (.type t) (by simp))
  · rintro ⟨k, rfl⟩
    exact ⟨k.typeId, (grows_declareEach ds).findType (Model.findType?_initial.mpr ⟨k, rfl, rfl⟩)⟩

theorem findService?_eq_none (h : Unambiguous (ds ++ [decl])) {n : Name}
    (hn : decl.serviceName? = some n) : (declareEach {} ds).model.findService? n = none := by
  rcases hid : (declareEach {} ds).model.findService? n with _ | id
  · rfl
  · obtain ⟨pre, t, post, s, rfl, hname, -⟩ := origin_service hid
    exact absurd (congrArg some hname)
      ((nodup_filterMap_concat.mp h.services).2 n hn (.service t) (by simp))

/-! ## What is valid -/

/-- Whether `decl` can be carried out depends on it alone: it has to be `isValid`. -/
theorem declare_isOk_iff (h : Unambiguous (ds ++ [decl])) :
    ((declareEach {} ds).declare decl).1.isOk = decl.isValid := by
  have ho := outcome_declareEach ds decl
  generalize ((declareEach {} ds).declare decl).1.isOk = complete,
    declareEach {} (ds ++ [decl]) = d' at ho
  cases ho with
  | unnamedType hn => simp [Declaration.isValid, hn]
  | droppedType hn hbody hc =>
    rw [hbody] at hc
    simp [Declaration.isValid, hbody, hc, TypeBody.isReadAlways]
  | @takenType t x id hn hbody hx htaken =>
    have hprim := (isSome_findType?_iff h rfl).mp (by rw [htaken]; rfl)
    cases ht : t.body with
    | struct => simp [Declaration.isValid, hn, hprim, ht, TypeBody.isReadAlways]
    | enum constants =>
      have hnamed := hbody constants ht
      rw [ht] at hnamed
      simp [Declaration.isValid, hn, ht, hnamed]
  | @addedType t x₀ x _ _ hn _ hfree _ _ _ _ _ _ hc =>
    have hprim : (Name.ofCase t.name).isPrimitive = false := by
      rw [Bool.eq_false_iff, Ne, ← isSome_findType?_iff h rfl, hfree]
      simp
    simp [Declaration.isValid, hn, hprim, hc]
  | unnamedService hn => simp [Declaration.isValid, hn]
  | takenService _ _ htaken => rw [findService?_eq_none h rfl] at htaken; cases htaken
  | addedService hn _ _ _ _ _ _ _ _ hc => simp [Declaration.isValid, hn, hc]
  | document => rfl

theorem accepts_iff (h : Unambiguous ds) : Accepts {} ds ↔ ∀ decl ∈ ds, decl.isValid = true := by
  induction ds using List.reverseRecOn with
  | nil => exact iff_of_true accepts_nil (by simp)
  | append_singleton ds decl ih =>
    rw [accepts_concat, ih h.left, declare_isOk_iff h]
    simp [or_imp, forall_and]

end Draft

/-! ## Modules and documents -/

namespace Model

variable {m : Model}

theorem isSome_findModule?_house {space : String} {n : Name} :
    ((m.house space).2.findModule? n).isSome ↔
      (m.findModule? n).isSome ∨ spaceName? space = some n := by
  rw [house]
  split
  · rename_i h
    simp [h]
  · rename_i x h
    rw [h]
    rcases hx : m.findModule? x with _ | k
    · rw [internModule_new hx]
      simp only [Option.isSome_iff_exists, findModule?_pushModule hx, exists_or]
      simp [or_comm, eq_comm]
    · rw [internModule_known hx]
      refine (or_iff_left_of_imp fun he => ?_).symm
      rw [← Option.some.inj he, hx]
      rfl

end Model

namespace Draft

variable {d d' : Draft} {ds : List Declaration} {decl : Declaration} {complete : Bool}

/-- The draft `d` has one more declaration in the namespace, and no other root or document. -/
structure Joins (d : Draft) (space : String) (m : Model) : Prop where
  moduleIndex : m.moduleIndex = (d.model.house space).2.moduleIndex
  documents : m.documents = d.model.documents
  root : m.root = d.model.root

theorem joins_placeType (d : Draft) (space : String) (x : DataType) :
    d.Joins space (d.placeType space x).model := by
  obtain ⟨_, _, h⟩ := d.model.house_eq space
  exact ⟨by simp only [placeType], by simp only [placeType, h], by simp only [placeType, h]⟩

theorem joins_placeService (d : Draft) (space : String) (s : DefinedService) :
    d.Joins space (d.placeService space s).model := by
  obtain ⟨_, _, h⟩ := d.model.house_eq space
  exact ⟨by simp only [placeService], by simp only [placeService, h],
    by simp only [placeService, h]⟩

section Joins

variable {space : String} {m : Model}

theorem Joins.withType (h : d.Joins space m) (n : Name) (id : TypeId) (module : Option ModuleId) :
    d.Joins space (m.withType n id module) := by
  cases module <;> exact ⟨h.moduleIndex, h.documents, h.root⟩

theorem Joins.withService (h : d.Joins space m) (n : Name) (id : ServiceId)
    (module : Option ModuleId) : d.Joins space (m.withService n id module) := by
  cases module <;> exact ⟨h.moduleIndex, h.documents, h.root⟩

theorem Joins.builds {d₀ : Draft} (h : d.Joins space d₀.model) {own : Set Entity}
    {asked : Set Request} (hb : d₀.Builds own asked d') : d.Joins space d'.model where
  moduleIndex := (congrArg Registry.moduleIndex hb.registry).trans h.moduleIndex
  documents := (congrArg Registry.documents hb.registry).trans h.documents
  root := (congrArg Registry.root hb.registry).trans h.root

theorem joins_enterType (d : Draft) (space : String) (n : Name) (x : DataType) :
    d.Joins space (d.enterType space n x).model := by
  rw [enterType]
  exact (joins_placeType d space x).withType n d.nextType x.module?

theorem joins_enterService (d : Draft) (space : String) (s : DefinedService) :
    d.Joins space (d.enterService space s).model := by
  rw [enterService]
  exact (joins_placeService d space s).withService s.name d.nextService s.module

theorem Joins.findModule? (h : d.Joins space m) {n : Name} :
    (m.findModule? n).isSome ↔ (d.model.findModule? n).isSome ∨ spaceName? space = some n := by
  rw [Model.findModule?, h.moduleIndex]
  exact Model.isSome_findModule?_house

end Joins

theorem Outcome.findModule? (h : d.Outcome decl true d') {n : Name} :
    (d'.model.findModule? n).isSome ↔
      (d.model.findModule? n).isSome ∨ decl.moduleName? = some n := by
  cases h with
  | takenType => exact (joins_placeType d _ _).findModule?
  | addedType _ _ _ hb => exact ((joins_enterType d _ _ _).builds hb).findModule?
  | takenService => exact (joins_placeService d _ _).findModule?
  | addedService _ _ _ hb _ _ _ _ _ _ hd =>
    have h₁ := ((joins_enterService d _ _).builds hb).findModule? (n := n)
    rw [hd]
    split <;> exact h₁
  | document => simp [Declaration.moduleName?, Model.addDocument, Model.findModule?]

theorem Outcome.documents (h : d.Outcome decl complete d') :
    d'.model.documents = d.model.documents ++ decl.document?.toList := by
  cases h with
  | unnamedType | unnamedService => exact (List.append_nil _).symm
  | droppedType | takenType =>
    exact (joins_placeType d _ _).documents.trans (List.append_nil _).symm
  | addedType _ _ _ hb => exact ((joins_enterType d _ _ _).builds hb).documents.trans (List.append_nil _).symm
  | takenService => exact (joins_placeService d _ _).documents.trans (List.append_nil _).symm
  | addedService _ _ _ hb _ _ _ _ _ _ hd =>
    have h₁ := ((joins_enterService d _ _).builds hb).documents.trans (List.append_nil _).symm
    rw [hd]
    split <;> exact h₁
  | document => rfl

theorem isSome_findModule?_declareEach (h : Accepts {} ds) {n : Name} :
    ((declareEach {} ds).model.findModule? n).isSome ↔ ∃ decl ∈ ds, decl.moduleName? = some n := by
  induction ds using List.reverseRecOn with
  | nil =>
    refine iff_of_false ?_ (by simp)
    show ¬(Model.initial.findModule? n).isSome
    rw [Model.findModule?, Model.initial_eq]
    simp
  | append_singleton ds decl ih =>
    obtain ⟨hds, hok⟩ := accepts_concat.mp h
    have ho := outcome_declareEach ds decl
    rw [hok] at ho
    rw [ho.findModule?, ih hds]
    simp [or_and_right, exists_or]

theorem documents_declareEach (ds : List Declaration) :
    (declareEach {} ds).model.documents = ds.filterMap Declaration.document? := by
  induction ds using List.reverseRecOn with
  | nil => rfl
  | append_singleton ds decl ih =>
    rw [(outcome_declareEach ds decl).documents, ih, List.filterMap_append]
    cases decl <;> rfl

/-! ## Root and reports -/

theorem Outcome.root_type {t : TypeDecl} (h : d.Outcome (.type t) true d') :
    d'.model.root = d.model.root := by
  cases h with
  | takenType => exact (joins_placeType d _ _).root
  | addedType _ _ _ hb => exact ((joins_enterType d _ _ _).builds hb).root

theorem Outcome.diagnostics_type {t : TypeDecl} (h : d.Outcome (.type t) true d') :
    d'.diagnostics = d.diagnostics ++ (if (d.model.findType? (Name.ofCase t.name)).isSome then
      [(RegistryError.duplicateType (Name.ofCase t.name)).diagnostic] else []) := by
  cases h with
  | takenType _ _ _ htaken =>
    rw [htaken]
    rfl
  | addedType _ _ hfree hb =>
    rw [hfree, hb.diagnostics]
    exact (List.append_nil _).symm

theorem Outcome.root_service {t : ServiceDecl} (h : d.Outcome (.service t) true d')
    (hfree : d.model.findService? (serviceName t.name) = none) : d'.model.root =
      if t.isRoot then d'.model.findService? (serviceName t.name) else d.model.root := by
  cases h with
  | takenService _ _ htaken => rw [hfree] at htaken; cases htaken
  | @addedService _ _ _ _ d₁ _ _ hx₀ _ hb _ _ _ _ _ _ hd =>
    have hroot := ((joins_enterService d _ _).builds hb).root
    have hfind : d₁.model.findService? (serviceName t.name) = some d.nextService := by
      rw [hb.findService?]
      exact (findService?_enterService t.space (hx₀.name.symm ▸ hfree)).mpr
        (.inl ⟨hx₀.name.symm, rfl⟩)
    cases hr : t.isRoot with
    | false =>
      rw [hr] at hd
      subst hd
      exact hroot
    | true =>
      rw [hr] at hd
      subst hd
      exact hfind.symm

theorem Outcome.diagnostics_service {t : ServiceDecl} (h : d.Outcome (.service t) true d')
    (hfree : d.model.findService? (serviceName t.name) = none)
    (hroot : t.isRoot = true → d.model.root = none) : d'.diagnostics = d.diagnostics := by
  cases h with
  | takenService _ _ htaken => rw [hfree] at htaken; cases htaken
  | @addedService _ _ _ _ d₁ _ _ _ _ hb _ _ _ _ _ _ hd =>
    have hdiag : d₁.diagnostics = d.diagnostics := hb.diagnostics
    cases hr : t.isRoot with
    | false =>
      rw [hr] at hd
      subst hd
      exact hdiag
    | true =>
      have hnone : d₁.model.root = none :=
        ((joins_enterService d _ _).builds hb).root.trans (hroot hr)
      rw [hr] at hd
      subst hd
      simp [elect, replacements, hnone, hdiag]

/-- The root of `d` is the service that `ds` declare as the root. -/
structure Elects (ds : List Declaration) (d : Draft) : Prop where
  root : ∀ {id}, d.model.root = some id → ∃ t, .service t ∈ ds ∧ t.isRoot = true ∧
    d.model.findService? (serviceName t.name) = some id
  isSome : ∀ {t}, .service t ∈ ds → t.isRoot = true → d.model.root.isSome

/-- Declarations `decl` other than a root leave the root. -/
theorem Elects.keep (h : Elects ds d) (hd : decl.isRoot = false)
    (hg : d.model.Grows ∅ d'.model) (hr : d'.model.root = d.model.root) :
    Elects (ds ++ [decl]) d' where
  root hid := by
    obtain ⟨t, ht, htr, hid⟩ := h.root (hr.symm.trans hid)
    exact ⟨t, List.mem_append_left _ ht, htr, hg.findService hid⟩
  isSome {t} ht htr := by
    rw [hr]
    rcases List.mem_append.mp ht with ht | ht
    · exact h.isSome ht htr
    · rw [← List.mem_singleton.mp ht] at hd
      exact absurd htr (by simpa [Declaration.isRoot] using hd)

theorem Elects.concat (h : Elects ds d) (ho : d.Outcome decl true d')
    (hg : d.model.Grows ∅ d'.model)
    (hfree : ∀ n, decl.serviceName? = some n → d.model.findService? n = none) :
    Elects (ds ++ [decl]) d' := by
  cases decl with
  | type t => exact h.keep rfl hg ho.root_type
  | document t => cases ho; exact h.keep rfl hg rfl
  | service t =>
    have hroot := ho.root_service (hfree _ rfl)
    cases hr : t.isRoot with
    | false => exact h.keep hr hg (by rw [hroot, hr]; rfl)
    | true =>
      rw [hr, if_pos rfl] at hroot
      exact
        { root := fun hid => ⟨t, by simp, hr, hroot.symm.trans hid⟩
          isSome := fun _ _ => by rw [hroot]; exact ho.findService? rfl }

/-- What is reported on `decl` depends on it alone, see `clash?`. -/
theorem Outcome.diagnostics_eq (ho : d.Outcome decl true d')
    (htype : ∀ n, decl.typeName? = some n →
      ((d.model.findType? n).isSome ↔ n.isPrimitive = true))
    (hfree : ∀ n, decl.serviceName? = some n → d.model.findService? n = none)
    (hroot : decl.isRoot = true → d.model.root = none) :
    d'.diagnostics = d.diagnostics ++ decl.clash?.toList := by
  cases decl with
  | type t =>
    rw [ho.diagnostics_type]
    simp only [htype _ rfl, Declaration.clash?]
    split <;> rfl
  | document t => cases ho; exact (List.append_nil _).symm
  | service t =>
    exact (ho.diagnostics_service (hfree _ rfl) hroot).trans (List.append_nil _).symm

theorem elects_declareEach (h : Unambiguous ds) (ha : Accepts {} ds) :
    Elects ds (declareEach {} ds) := by
  induction ds using List.reverseRecOn with
  | nil =>
    constructor
    · intro id hid
      cases hid
    · intro t ht
      cases ht
  | append_singleton ds decl ih =>
    obtain ⟨hds, hok⟩ := accepts_concat.mp ha
    have ho := outcome_declareEach ds decl
    rw [hok] at ho
    exact (ih h.left hds).concat ho (extends_declareEach ds decl).grows
      fun n hn => findService?_eq_none h hn

theorem diagnostics_of_unambiguous (h : Unambiguous ds) (ha : Accepts {} ds) :
    (declareEach {} ds).diagnostics = ds.filterMap Declaration.clash? := by
  induction ds using List.reverseRecOn with
  | nil => rfl
  | append_singleton ds decl ih =>
    obtain ⟨hds, hok⟩ := accepts_concat.mp ha
    have ho := outcome_declareEach ds decl
    rw [hok] at ho
    rw [ho.diagnostics_eq (fun n hn => isSome_findType?_iff h hn)
      (fun n hn => findService?_eq_none h hn) fun hr => ?_, ih h.left hds, List.filterMap_append]
    · cases hc : decl.clash? <;> simp [hc]
    · rcases hroot : (declareEach {} ds).model.root with _ | id
      · rfl
      · obtain ⟨t, ht, htr, -⟩ := (elects_declareEach h.left hds).root hroot
        exact absurd htr (h.not_isRoot hr ht)

end Draft

end ApiModel
