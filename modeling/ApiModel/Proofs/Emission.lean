import ApiModel.Proofs.Twins
import ApiModel.Schema.Generate

/-!
# What definitions are made for

The definitions of a schema form one list, and the name of a definition doesn't
tell which type of the model it was made for: different names may be spelled
alike. So each definition is listed here together with its origin. A registered
type is listed once, hence what is made for it is all that has its origin. And
what a registered struct refers to is registered, unless nothing declares it.
-/

namespace ApiModel

/-! ## Listings without repetitions -/

section Lists

variable {α β κ : Type}

theorem sublist_map_filterMap {f : α → Option β} {key : α → κ} {key' : β → κ}
    (h : ∀ a b, f a = some b → key' b = key a) (as : List α) :
    ((as.filterMap f).map key').Sublist (as.map key) := by
  induction as with
  | nil => exact .slnil
  | cons a as ih =>
    rcases hf : f a with _ | b
    · rw [List.filterMap_cons_none hf]
      exact ih.cons _
    · rw [List.filterMap_cons_some hf, List.map_cons, List.map_cons, h a b hf]
      exact ih.cons_cons _

theorem flatMap_eq_nil (as : List α) : as.flatMap (fun _ => ([] : List β)) = [] :=
  List.flatMap_eq_nil_iff.mpr fun _ _ => rfl

/-- Only one element, `a`, contributes. -/
theorem flatMap_eq_of_unique {key : α → κ} {as : List α} (hnodup : (as.map key).Nodup) {a : α}
    (ha : a ∈ as) {f : α → List β} (hf : ∀ b, key b ≠ key a → f b = []) : as.flatMap f = f a := by
  induction as with
  | nil => cases ha
  | cons b as ih =>
    rw [List.map_cons, List.nodup_cons] at hnodup
    rw [List.flatMap_cons]
    rcases List.mem_cons.mp ha with rfl | hmem
    · rw [List.flatMap_eq_nil_iff.mpr fun b hb => hf b fun hkey =>
        hnodup.1 (hkey ▸ List.mem_map_of_mem hb), List.append_nil]
    · rw [hf b fun hkey => hnodup.1 (hkey ▸ List.mem_map_of_mem hmem), ih hnodup.2 hmem,
        List.nil_append]

end Lists

namespace Model

variable {m : Model}

theorem nodup_registeredTypes (hi : m.Indexed) : (m.registeredTypes.map (·.1)).Nodup := by
  have hvalues : m.typeIndex.values.Nodup := by
    rw [NameMap.values_eq]
    refine List.Nodup.map_on (fun p hp q hq hid => ?_) ?_
    · -- An identifier has the name of the type it stands for.
      have hname : ∀ p ∈ m.typeIndex.toList, (m.type? p.2).map (·.name) = some p.1 := fun p hp =>
        (resolves_of_registered (Std.TreeMap.mem_toList_iff_getElem?_eq_some.mp hp)).name hi
      refine Prod.ext (Option.some.inj ?_) hid
      rw [← hname p hp, ← hname q hq, hid]
    · refine m.typeIndex.ordered_keys_toList.imp ?_
      rintro p _ hlt rfl
      exact Std.OrientedCmp.not_lt_of_lt hlt hlt
  refine List.Nodup.sublist ?_ (hvalues.map (f := id) fun _ _ => id)
  refine sublist_map_filterMap (fun id p hp => ?_) _
  obtain ⟨t, -, rfl⟩ := Option.map_eq_some_iff.mp hp
  rfl

theorem nodup_structs (hi : m.Indexed) : (m.structs.map (·.1)).Nodup := by
  refine (nodup_registeredTypes hi).sublist (sublist_map_filterMap (fun p q hq => ?_) _)
  obtain ⟨s, -, rfl⟩ := Option.map_eq_some_iff.mp hq
  rfl

theorem nodup_enums (hi : m.Indexed) : (m.enums.map (·.1)).Nodup := by
  refine (nodup_registeredTypes hi).sublist (sublist_map_filterMap (fun p q hq => ?_) _)
  obtain ⟨e, -, rfl⟩ := Option.map_eq_some_iff.mp hq
  rfl

theorem mem_enums {id : TypeId} {e : EnumType} :
    (id, e) ∈ m.enums ↔ (∃ n, m.findType? n = some id) ∧ m.type? id = some (.enum e) := by
  rw [enums, List.mem_filterMap]
  constructor
  · rintro ⟨⟨id', t⟩, ht, hmap⟩
    obtain ⟨e', he, heq⟩ := Option.map_eq_some_iff.mp hmap
    obtain ⟨rfl, rfl⟩ := Prod.mk.inj heq
    cases t with
    | enum e => cases he; exact mem_registeredTypes.mp ht
    | primitive | struct | list | undefined => cases he
  · intro h
    exact ⟨(id, .enum e), mem_registeredTypes.mpr h, rfl⟩

/-! ## What registered structs refer to -/

section References

variable {ds : List Declaration} {n : Name} {id : TypeId} {s : StructType}

theorem Resolves.registered (h : m.Resolves n id) {t : DataType} (ht : m.type? id = some t)
    (hdefined : ∀ x, t ≠ .undefined x) : m.findType? n = some id := by
  rcases h.typeNamed with hid | hundefined
  · exact hid
  · exact absurd (Option.some.inj (ht.symm.trans hundefined)) (hdefined n)

theorem Resolves.mem_structs (h : m.Resolves n id) (ht : m.type? id = some (.struct s)) :
    (id, s) ∈ m.structs :=
  Model.mem_structs.mpr ⟨⟨n, h.registered ht fun _ hx => by cases hx⟩, ht⟩

theorem Resolves.mem_enums {e : EnumType} (h : m.Resolves n id) (ht : m.type? id = some (.enum e)) :
    (id, e) ∈ m.enums :=
  Model.mem_enums.mpr ⟨⟨n, h.registered ht fun _ hx => by cases hx⟩, ht⟩

variable (hp : m.Portrays ds) (hs : (id, s) ∈ m.structs)

include hp hs

/-- The registered struct `s` says what one of the declarations says. -/
theorem Portrays.exists_declaration : ∃ decl supertype members, .type decl ∈ ds ∧
    decl.body = .struct supertype members ∧ s.Matches m.unparsed id decl supertype.base? members := by
  obtain ⟨⟨n, hid⟩, ht⟩ := Model.mem_structs.mp hs
  rcases hp.types hid with ⟨k, -, rfl⟩ | ⟨decl, hmem, hn, hr⟩
  · cases ht.symm.trans (hp.primitives k).2
  · match decl with
    | .type t =>
      obtain ⟨id', x, hid', hx, hr⟩ := hr
      obtain rfl := Option.some.inj hn
      obtain rfl := Option.some.inj (hid.symm.trans hid')
      obtain rfl := Option.some.inj (ht.symm.trans hx)
      unfold DataType.Records at hr
      split at hr
      · rename_i supertype members hbody
        obtain ⟨s', hs', -, hr⟩ := hr
        obtain rfl := DataType.struct.inj hs'
        exact ⟨t, supertype, members, hmem, hbody, hr rfl⟩
      · obtain ⟨e, he, -⟩ := hr
        cases he
    | .service t => cases hn
    | .document t => cases hn

theorem Portrays.exists_matches :
    ∃ decl base members, s.Matches m.unparsed id decl base members := by
  obtain ⟨decl, supertype, members, -, -, h⟩ := hp.exists_declaration hs
  exact ⟨decl, supertype.base?, members, h⟩

theorem Portrays.resolves_base {base : TypeId} (hbase : s.base = some base) :
    ∃ n, m.Resolves n base := by
  obtain ⟨decl, text, members, h⟩ := hp.exists_matches hs
  have hrel := h.base
  rw [hbase] at hrel
  cases hrel with
  | some hr => exact ⟨_, hr⟩

theorem Portrays.resolves_member {x : Member} (hx : x ∈ s.members) :
    ∃ t, m.ResolvesTarget t x.type := by
  obtain ⟨decl, text, members, h⟩ := hp.exists_matches hs
  rcases List.mem_append.mp hx with hx | hx
  · obtain ⟨y, -, hy⟩ := exists_of_forall₂ h.attributes.flip hx
    exact ⟨_, hy.type⟩
  · obtain ⟨y, -, hy⟩ := exists_of_forall₂ h.links.flip hx
    exact ⟨_, hy.type⟩

end References

end Model

namespace Schema

variable (cfg : Config) (m : Model) (anchors : Anchors)

/-! ## Origins -/

/-- What a `Definition` is made for. -/
inductive Origin where
  /-- The definition that every schema has. -/
  | actions
  /-- The values of all enumerations. -/
  | enumGroup
  /-- The values of an enumeration. -/
  | enumValues (id : TypeId)
  | enum (id : TypeId)
  | struct (id : TypeId)
  /-- Collections of a struct. -/
  | collection (id : TypeId)
deriving DecidableEq

/-- The definitions `ds`, all with the origin `o`. -/
def tagged (o : Origin) (ds : List Definition) : List (Origin × Definition) :=
  ds.map (o, ·)

/-- The definitions that have the origin `o`. -/
def madeFor (o : Origin) (xs : List (Origin × Definition)) : List Definition :=
  (xs.filter (·.1 = o)).map (·.2)

theorem map_snd_tagged (o : Origin) (ds : List Definition) : (tagged o ds).map (·.2) = ds := by
  simp [tagged]

@[simp] theorem madeFor_append (o : Origin) (xs ys : List (Origin × Definition)) :
    madeFor o (xs ++ ys) = madeFor o xs ++ madeFor o ys := by
  simp [madeFor]

@[simp] theorem madeFor_flatMap {α : Type} (o : Origin) (as : List α)
    (f : α → List (Origin × Definition)) :
    madeFor o (as.flatMap f) = as.flatMap fun a => madeFor o (f a) := by
  simp only [madeFor, List.filter_flatMap, List.map_flatMap]

@[simp] theorem madeFor_tagged (o o' : Origin) (ds : List Definition) :
    madeFor o (tagged o' ds) = if o' = o then ds else [] := by
  by_cases h : o' = o <;> simp [madeFor, tagged, List.filter_map, Function.comp_def, h]

/-- The `definitions`, each with its origin. -/
def sourced : List (Origin × Definition) :=
  tagged .actions [actions]
    ++ tagged .enumGroup [enumGroup cfg (m.enums.map (·.2))]
    ++ m.enums.flatMap (fun p => tagged (.enumValues p.1) [enumValuesType cfg p.2])
    ++ m.enums.flatMap (fun p => tagged (.enum p.1) [enumType cfg p.2])
    ++ (definedStructs m anchors).flatMap fun p =>
      tagged (.struct p.1) (structType cfg m anchors p.1 p.2)
        ++ tagged (.collection p.1) (if cfg.withoutCollection.contains p.2.name then []
          else collectionType cfg m anchors p.1 p.2)

/-- What is `sourced` are the `definitions` of the schema. -/
theorem map_snd_sourced : (sourced cfg m anchors).map (·.2) = definitions cfg m anchors := by
  simp only [sourced, definitions, structDefinitions, List.map_append, List.map_flatMap,
    map_snd_tagged, List.map_map, ← List.map_eq_flatMap, Function.comp_def, List.cons_append,
    List.nil_append]

theorem flatMap_tags_sourced : (sourced cfg m anchors).flatMap (·.2.tags) =
    (definitions cfg m anchors).flatMap Definition.tags := by
  rw [← map_snd_sourced, List.flatMap_map]

/-- What is made for the origin `o`. -/
def definitionsFrom (o : Origin) : List Definition :=
  madeFor o (sourced cfg m anchors)

variable {cfg m anchors} {id : TypeId}

theorem mem_definedStructs {s : StructType} : (id, s) ∈ definedStructs m anchors ↔
    (id, s) ∈ m.structs ∧ id ≠ anchors.identified := by
  simp [definedStructs]

theorem nodup_definedStructs (hi : m.Indexed) : ((definedStructs m anchors).map (·.1)).Nodup :=
  (Model.nodup_structs hi).sublist (List.filter_sublist.map _)

theorem definitionsFrom_struct (hi : m.Indexed) {s : StructType}
    (h : (id, s) ∈ definedStructs m anchors) :
    definitionsFrom cfg m anchors (.struct id) = structType cfg m anchors id s := by
  simp only [definitionsFrom, sourced, madeFor_append, madeFor_flatMap, madeFor_tagged, reduceCtorEq,
    if_false, flatMap_eq_nil, List.nil_append, List.append_nil, Origin.struct.injEq]
  rw [flatMap_eq_of_unique (nodup_definedStructs hi) h fun p hp => if_neg hp, if_pos rfl]

theorem definitionsFrom_collection (hi : m.Indexed) {s : StructType}
    (h : (id, s) ∈ definedStructs m anchors) :
    definitionsFrom cfg m anchors (.collection id) =
      if cfg.withoutCollection.contains s.name then [] else collectionType cfg m anchors id s := by
  simp only [definitionsFrom, sourced, madeFor_append, madeFor_flatMap, madeFor_tagged, reduceCtorEq,
    if_false, flatMap_eq_nil, List.nil_append, Origin.collection.injEq]
  rw [flatMap_eq_of_unique (nodup_definedStructs hi) h fun p hp => if_neg hp, if_pos rfl]

theorem definitionsFrom_enum (hi : m.Indexed) {e : EnumType} (h : (id, e) ∈ m.enums) :
    definitionsFrom cfg m anchors (.enum id) = [enumType cfg e] := by
  simp only [definitionsFrom, sourced, madeFor_append, madeFor_flatMap, madeFor_tagged, reduceCtorEq,
    if_false, flatMap_eq_nil, List.nil_append, List.append_nil, Origin.enum.injEq]
  rw [flatMap_eq_of_unique (Model.nodup_enums hi) h fun p hp => if_neg hp, if_pos rfl]

/-! ## Generation -/

variable {base : String} {root : RootSpan}

theorem generateBy_eq_ok {read : List Char → Xml.Outline} {g : Generated}
    (h : generateBy read cfg m base = .ok g) :
    ∃ anchors root, findAnchors cfg m = .ok anchors ∧ locateRootBy read base.toList = .ok root ∧
      g.xml = String.ofList (root.splice base.toList (definitionChars cfg m anchors)) ∧
      g.diagnostics = reports cfg m anchors := by
  simp only [generateBy, bind, Except.bind] at h
  rcases hanchors : findAnchors cfg m with e | anchors
  · rw [hanchors] at h
    cases h
  rcases hroot : locateRootBy read base.toList with e | root
  · rw [hanchors, hroot] at h
    cases h
  · rw [hanchors, hroot] at h
    obtain rfl := Except.ok.inj h
    exact ⟨anchors, root, rfl, rfl, rfl, rfl⟩

/-- A schema is the document `base` with the tags of all definitions put in. -/
theorem generate_eq_ok {g : Generated} (h : generate cfg m base = .ok g) :
    ∃ anchors root, findAnchors cfg m = .ok anchors ∧ locateRoot base.toList = .ok root ∧
      g.xml = String.ofList (root.splice base.toList
        (Xml.Tag.renderChars ((sourced cfg m anchors).flatMap (·.2.tags)))) ∧
      g.diagnostics = reports cfg m anchors := by
  obtain ⟨anchors, root, hanchors, hroot, hxml, hdiagnostics⟩ := generateBy_eq_ok h
  refine ⟨anchors, root, hanchors, hroot, ?_, hdiagnostics⟩
  rw [hxml, definitionChars, flatMap_tags_sourced]

theorem generate_of_root (hanchors : findAnchors cfg m = .ok anchors)
    (hroot : locateRoot base.toList = .ok root) :
    generate cfg m base = .ok ⟨String.ofList (root.splice base.toList
      (definitionChars cfg m anchors)), reports cfg m anchors⟩ := by
  rw [locateRoot] at hroot
  rw [generate, generateBy, hanchors, hroot]
  rfl

end Schema

end ApiModel
