import ApiModel.Proofs.RegistryInvariant
import ApiModel.Proofs.SchemaOrder
import ApiModel.Proofs.Spelling
import ApiModel.Proofs.StructTags
import Mathlib.Data.List.Perm.Lattice

/-!
# Names that clash in a schema

No two types are registered under the same name, but the definitions of a schema
have more names than that: plurals, names with a final `Values`, and the fixed
name `Actions`. What is registered may have such a name as well, and two structs
may have the same plural. The schema then defines a name twice.

With plain names these are the only ways. Spelling keeps such names apart, so the
definitions have different names exactly if the names behind them differ, and
nothing but plurals, values and actions needs a look.
-/

namespace ApiModel.Schema

/-! ## Names behind definitions -/

/-- The name of a definition, if it defines a type: a `complexType` or a `simpleType`. -/
def Definition.typeName? : Definition → Option String
  | complexType name _ _ _ => some name
  | simpleType name _ _ => some name
  | element _ _ | group _ _ => none

/-- The name of a definition, if it defines an `element`. -/
def Definition.elementName? : Definition → Option String
  | element name _ => some name
  | complexType _ _ _ _ | simpleType _ _ _ | group _ _ => none

theorem name_eq_of_enclose {key key' n name : String} {content content' : List Xml.Tag}
    (h : enclose key [("name", n)] content = .start key' [("name", name)] :: content') :
    n = name := by
  simp only [enclose, List.cons_append, List.cons.injEq, Xml.Tag.start.injEq, Prod.mk.injEq] at h
  exact h.1.2.1.2

/-- The definition `d` has the `typeName?` `name` just if its tags are those of a complex or simple
type with this name. -/
theorem Definition.typeName?_eq_some {d : Definition} {name : String} : d.typeName? = some name ↔
    ∃ key ∈ ["xs:complexType", "xs:simpleType"], ∃ content,
      d.tags = .start key [("name", name)] :: content ++ [.stop key] := by
  cases d with
  | element => simp [typeName?, tags]
  | group => simp [typeName?, tags, enclose]
  | complexType n | simpleType n =>
    constructor
    · rintro ⟨⟩
      exact ⟨_, by simp, _, rfl⟩
    · rintro ⟨key, -, content, htags⟩
      exact congrArg some (name_eq_of_enclose htags)

/-- The definition `d` has the `elementName?` `name` just if its tag is that of an element with this
name. -/
theorem Definition.elementName?_eq_some {d : Definition} {name : String} :
    d.elementName? = some name ↔
      ∃ type, d.tags = [.empty "xs:element" [("name", name), ("type", type)]] := by
  cases d with
  | element n type => simp [elementName?, tags]
  | complexType | simpleType | group => simp [elementName?, tags, enclose]

def actionsName : Name :=
  ⟨["actions"]⟩

def valuesName (n : Name) : Name :=
  n.withLast "values"

section Names

variable (m : Model) (anchors : Anchors)

def enumNames : List Name :=
  m.enums.map (·.2.name)

def structNames : List Name :=
  (definedStructs m anchors).map (·.2.name)

/-- The `definedStructs` that have a type for their collections. -/
def collectedStructs : List (TypeId × StructType) :=
  (definedStructs m anchors).filter fun p => !standardWithoutCollection.contains p.2.name

def pluralNames : List Name :=
  (collectedStructs m anchors).map fun p => Pluralizer.english.plural p.2.name

def typeNames : List Name :=
  actionsName :: ((enumNames m).map valuesName ++ (enumNames m ++ (structNames m anchors ++
    pluralNames m anchors)))

def elementNames : List Name :=
  structNames m anchors ++ pluralNames m anchors

/-- No type is registered under a name that the schema uses for something else, and no two such
names are the same. -/
structure TypesApart : Prop where
  actions : actionsName ∉ enumNames m ∧ actionsName ∉ structNames m anchors ∧
    actionsName ∉ pluralNames m anchors
  values : ∀ n ∈ enumNames m, valuesName n ∉ enumNames m ∧ valuesName n ∉ structNames m anchors ∧
    valuesName n ∉ pluralNames m anchors
  plurals : ∀ n ∈ pluralNames m anchors, n ∉ enumNames m ∧ n ∉ structNames m anchors
  collections : (pluralNames m anchors).Nodup

/-- No struct is named like one of the `collectedStructs` in the plural, and these have names of their
own. -/
structure ElementsApart : Prop where
  plurals : ∀ n ∈ pluralNames m anchors, n ∉ structNames m anchors
  collections : (pluralNames m anchors).Nodup

instance : Decidable (TypesApart m anchors) :=
  decidable_of_iff ((actionsName ∉ enumNames m ∧ actionsName ∉ structNames m anchors ∧
      actionsName ∉ pluralNames m anchors) ∧
    (∀ n ∈ enumNames m, valuesName n ∉ enumNames m ∧ valuesName n ∉ structNames m anchors ∧
      valuesName n ∉ pluralNames m anchors) ∧
    (∀ n ∈ pluralNames m anchors, n ∉ enumNames m ∧ n ∉ structNames m anchors) ∧
    (pluralNames m anchors).Nodup)
    ⟨fun ⟨ha, hv, hp, hc⟩ => ⟨ha, hv, hp, hc⟩,
      fun h => ⟨h.actions, h.values, h.plurals, h.collections⟩⟩

instance : Decidable (ElementsApart m anchors) :=
  decidable_of_iff ((∀ n ∈ pluralNames m anchors, n ∉ structNames m anchors) ∧
    (pluralNames m anchors).Nodup)
    ⟨fun ⟨hp, hc⟩ => ⟨hp, hc⟩, fun h => ⟨h.plurals, h.collections⟩⟩

end Names

/-! ## Names of definitions -/

section Definitions

variable {m : Model} {anchors : Anchors}

theorem capitalized_valuesName (n : Name) :
    SchemaNaming.capitalized (valuesName n) = valuesTypeName {} n := by
  unfold SchemaNaming.capitalized valuesName Name.withLast
  rw [List.map_append, String.join_append]
  rfl

theorem flatMap_collection {β : Type} (f : TypeId × StructType → β) :
    (definedStructs m anchors).flatMap (fun p =>
      if standardWithoutCollection.contains p.2.name then [] else [f p]) =
      (collectedStructs m anchors).map f := by
  unfold collectedStructs
  induction definedStructs m anchors with
  | nil => rfl
  | cons p ps ih =>
    rw [List.flatMap_cons, ih, List.filter_cons]
    cases standardWithoutCollection.contains p.2.name <;> rfl

/-- Each struct has a name that `g` reads, and a plural if it has a type for its collections. -/
theorem perm_structDefinitions {g : Definition → Option String} {spell : Name → String}
    (hstruct : ∀ p : TypeId × StructType,
      (structType {} m anchors p.1 p.2).filterMap g = [spell p.2.name])
    (hcollection : ∀ p : TypeId × StructType,
      (collectionType {} m anchors p.1 p.2).filterMap g =
        [spell (Pluralizer.english.plural p.2.name)]) :
    (((definedStructs m anchors).flatMap fun p =>
      structDefinitions {} m anchors p.1 p.2).filterMap g).Perm
      ((elementNames m anchors).map spell) := by
  have hdefinitions : ∀ p : TypeId × StructType,
      (structDefinitions {} m anchors p.1 p.2).filterMap g = spell p.2.name ::
        if standardWithoutCollection.contains p.2.name then []
        else [spell (Pluralizer.english.plural p.2.name)] := by
    intro p
    have hcfg : ({} : Config).withoutCollection = standardWithoutCollection := rfl
    rw [structDefinitions, List.filterMap_append, hstruct, hcfg]
    cases standardWithoutCollection.contains p.2.name with
    | true => rfl
    | false => exact congrArg (_ :: ·) (hcollection p)
  rw [List.filterMap_flatMap]
  simp only [hdefinitions]
  refine (List.map_append_flatMap_perm _ _ _).symm.trans (.of_eq ?_)
  rw [flatMap_collection, elementNames, List.map_append, structNames, pluralNames, List.map_map,
    List.map_map]
  rfl

/-- Up to order, the types that a schema defines are spelled from `typeNames`. -/
theorem perm_typeNames : ((definitions {} m anchors).filterMap Definition.typeName?).Perm
    ((typeNames m anchors).map SchemaNaming.capitalized) := by
  have hactions : SchemaNaming.capitalized actionsName = "Actions" := by decide
  have hvalues : (enumNames m).map (SchemaNaming.capitalized ∘ valuesName) =
      m.enums.map fun p => valuesTypeName {} p.2.name := by
    simp only [enumNames, List.map_map, Function.comp_def, capitalized_valuesName]
  have hstructs : (((definedStructs m anchors).flatMap fun p =>
      structDefinitions {} m anchors p.1 p.2).filterMap Definition.typeName?).Perm
      ((elementNames m anchors).map SchemaNaming.capitalized) :=
    perm_structDefinitions (fun _ => rfl) fun _ => rfl
  have hdefinitions : (definitions {} m anchors).filterMap Definition.typeName? =
      "Actions" :: (m.enums.map (fun p => valuesTypeName {} p.2.name) ++
        ((enumNames m).map SchemaNaming.capitalized ++
          ((definedStructs m anchors).flatMap fun p =>
            structDefinitions {} m anchors p.1 p.2).filterMap Definition.typeName?)) := by
    unfold definitions
    simp only [List.filterMap_append, List.filterMap_cons, List.filterMap_map, actions, enumGroup,
      enumValuesType, enumType, Definition.typeName?, Function.comp_def, List.filterMap_eq_map',
      enumNames, List.map_map, List.cons_append, List.append_assoc]
    rfl
  rw [hdefinitions, typeNames, List.map_cons, hactions, List.map_append, List.map_append,
    List.map_map, hvalues]
  exact .cons _ (.append_left _ (.append_left _ hstructs))

theorem perm_elementNames : ((definitions {} m anchors).filterMap Definition.elementName?).Perm
    ((elementNames m anchors).map (·.join "_")) := by
  have hdefinitions : (definitions {} m anchors).filterMap Definition.elementName? =
      ((definedStructs m anchors).flatMap fun p =>
        structDefinitions {} m anchors p.1 p.2).filterMap Definition.elementName? := by
    unfold definitions
    simp only [List.filterMap_append, List.filterMap_cons, List.filterMap_map, actions, enumGroup,
      enumValuesType, enumType, Definition.elementName?, Function.comp_def]
    simp
  rw [hdefinitions]
  exact perm_structDefinitions (fun _ => rfl) fun _ => rfl

end Definitions

/-! ## Registered names -/

section Registered

variable {m : Model} {anchors : Anchors} {id : TypeId}

theorem findType?_of_enum (hi : m.Indexed) {e : EnumType} (h : (id, e) ∈ m.enums) :
    m.findType? e.name = some id := by
  obtain ⟨⟨n, hn⟩, ht⟩ := Model.mem_enums.mp h
  obtain ⟨t, ht', hname⟩ := hi.type hn
  obtain rfl := Option.some.inj (ht.symm.trans ht')
  obtain rfl := Except.ok.inj hname
  exact hn

theorem findType?_of_struct (hi : m.Indexed) {s : StructType} (h : (id, s) ∈ m.structs) :
    m.findType? s.name = some id := by
  obtain ⟨⟨n, hn⟩, ht⟩ := Model.mem_structs.mp h
  obtain ⟨t, ht', hname⟩ := hi.type hn
  obtain rfl := Option.some.inj (ht.symm.trans ht')
  obtain rfl := Except.ok.inj hname
  exact hn

/-- Entries with identifiers of their own have names of their own, if `findType?` leads back to
them. -/
theorem nodup_names {α : Type} {f : α → Name} {xs : List (TypeId × α)}
    (hids : (xs.map (·.1)).Nodup) (h : ∀ p ∈ xs, m.findType? (f p.2) = some p.1) :
    (xs.map fun p => f p.2).Nodup := by
  refine List.Nodup.map_on (fun p hp q hq hname => ?_) (List.Nodup.of_map _ hids)
  have hid : p.1 = q.1 := by
    have hp' := h p hp
    rw [hname, h q hq] at hp'
    exact (Option.some.inj hp').symm
  exact List.inj_on_of_nodup_map hids hp hq hid

theorem nodup_enumNames (hi : m.Indexed) : (enumNames m).Nodup :=
  nodup_names (f := EnumType.name) (Model.nodup_enums hi) fun _ hp => findType?_of_enum hi hp

theorem nodup_structNames (hi : m.Indexed) : (structNames m anchors).Nodup :=
  nodup_names (f := StructType.name) (nodup_definedStructs hi) fun _ hp =>
    findType?_of_struct hi (mem_definedStructs.mp hp).1

/-- `enumNames` and `structNames` share no name. -/
theorem enumNames_disjoint (hi : m.Indexed) {n : Name} (he : n ∈ enumNames m)
    (hs : n ∈ structNames m anchors) : False := by
  obtain ⟨⟨id, e⟩, hmem, rfl⟩ := List.mem_map.mp he
  obtain ⟨⟨id', s⟩, hmem', hname⟩ := List.mem_map.mp hs
  have hs' := (mem_definedStructs.mp hmem').1
  have hid := findType?_of_enum hi hmem
  have hid' := findType?_of_struct hi hs'
  simp only at hname
  rw [hname, hid] at hid'
  obtain rfl := Option.some.inj hid'
  have ht := (Model.mem_enums.mp hmem).2
  have ht' := (Model.mem_structs.mp hs').2
  cases ht.symm.trans ht'

theorem nodup_declared (hi : m.Indexed) : (enumNames m ++ structNames m anchors).Nodup := by
  refine List.nodup_append.mpr ⟨nodup_enumNames hi, nodup_structNames hi, fun n hn n' hn' => ?_⟩
  rintro rfl
  exact enumNames_disjoint hi hn hn'

theorem actionsName_ne_valuesName (n : Name) : actionsName ≠ valuesName n := by
  intro h
  have hlast := congrArg Name.lastWord? h
  rw [valuesName, Name.withLast, Name.lastWord?, Name.lastWord?, List.getLast?_concat] at hlast
  exact absurd hlast (by decide)

/-- Of the `typeNames`, what is registered is apart, and names of values are apart from each
other. -/
theorem typeNames_nodup_iff (hi : m.Indexed) :
    (typeNames m anchors).Nodup ↔ TypesApart m anchors := by
  have hvalues : ((enumNames m).map valuesName).Nodup :=
    (nodup_enumNames hi).map_on fun _ _ _ _ => Name.withLast_inj.mp
  unfold typeNames
  simp only [List.nodup_cons, List.nodup_append, List.mem_append, not_or]
  constructor
  · rintro ⟨⟨-, hactions⟩, -, ⟨-, ⟨-, hplural, hstruct⟩, henum⟩, hvalue⟩
    refine ⟨hactions, fun n hn => ?_, fun n hn => ⟨fun he => ?_, fun hs => ?_⟩, hplural⟩
    · have hne := hvalue _ (List.mem_map_of_mem hn)
      exact ⟨fun he => hne _ (.inl he) rfl, fun hs => hne _ (.inr (.inl hs)) rfl,
        fun hp => hne _ (.inr (.inr hp)) rfl⟩
    · exact henum n he n (.inr hn) rfl
    · exact hstruct n hs n hn rfl
  · intro h
    refine ⟨⟨fun hmem => ?_, h.actions⟩, hvalues, ⟨nodup_enumNames hi,
      ⟨nodup_structNames hi, h.collections, ?_⟩, ?_⟩, ?_⟩
    · obtain ⟨n, -, hn⟩ := List.mem_map.mp hmem
      exact actionsName_ne_valuesName n hn.symm
    · intro n hn n' hn'
      rintro rfl
      exact (h.plurals n hn').2 hn
    · intro n hn n' hn'
      rintro rfl
      rcases hn' with hn' | hn'
      · exact enumNames_disjoint hi hn hn'
      · exact (h.plurals n hn').1 hn
    · intro n hn n' hn'
      rintro rfl
      obtain ⟨e, he, rfl⟩ := List.mem_map.mp hn
      obtain ⟨henum, hstruct, hplural⟩ := h.values e he
      rcases hn' with hn' | hn' | hn'
      · exact henum hn'
      · exact hstruct hn'
      · exact hplural hn'

theorem elementNames_nodup_iff (hi : m.Indexed) :
    (elementNames m anchors).Nodup ↔ ElementsApart m anchors := by
  unfold elementNames
  rw [List.nodup_append]
  constructor
  · rintro ⟨-, hplural, hstruct⟩
    exact ⟨fun n hn hs => hstruct n hs n hn rfl, hplural⟩
  · intro h
    refine ⟨nodup_structNames hi, h.collections, fun n hn n' hn' => ?_⟩
    rintro rfl
    exact h.plurals n hn' hn

end Registered

/-! ## Plain declarations -/

theorem plain_valuesName {n : Name} (h : n.Plain) : (valuesName n).Plain :=
  h.withLast (by decide) (by decide) (by decide)

section Plain

variable {ds : List Declaration} {anchors : Anchors} (ha : Draft.Accepts {} ds)

include ha

section Declared

variable {P : Name → Prop} (hP : ∀ t, .type t ∈ ds → P (.ofCase t.name))

include hP

/-- What is registered and not a `primitive` goes back to a declaration. -/
theorem forall_registered {n : Name} {id : TypeId} {t : DataType}
    (hn : (finishedModel ds).findType? n = some id) (ht : (finishedModel ds).type? id = some t)
    (hprimitive : ∀ k, t ≠ .primitive k) : P n := by
  have hp := Draft.portrays_finishedModel ha
  rcases hp.types hn with ⟨k, -, rfl⟩ | ⟨decl, hmem, hdecl, -⟩
  · exact absurd (Option.some.inj (ht.symm.trans (hp.primitives k).2)) (hprimitive k)
  · cases decl with
    | type t =>
      obtain rfl := Option.some.inj hdecl
      exact hP t hmem
    | service => cases hdecl
    | document => cases hdecl

theorem forall_enumNames : ∀ n ∈ enumNames (finishedModel ds), P n := by
  intro n hn
  obtain ⟨⟨id, e⟩, hmem, rfl⟩ := List.mem_map.mp hn
  have hi := (Draft.portrays_finishedModel ha).indexed
  exact forall_registered ha hP (findType?_of_enum hi hmem) (Model.mem_enums.mp hmem).2
    fun k hk => by cases hk

theorem forall_structNames : ∀ n ∈ structNames (finishedModel ds) anchors, P n := by
  intro n hn
  obtain ⟨⟨id, s⟩, hmem, rfl⟩ := List.mem_map.mp hn
  have hi := (Draft.portrays_finishedModel ha).indexed
  have hs := (mem_definedStructs.mp hmem).1
  exact forall_registered ha hP (findType?_of_struct hi hs) (Model.mem_structs.mp hs).2
    fun k hk => by cases hk

/-- What holds of all names that are declared, and of their plurals, holds of all `elementNames`. -/
theorem forall_elementNames {Q : Name → Prop} (hname : ∀ n, P n → Q n)
    (hplural : ∀ n, P n → Q (Pluralizer.english.plural n)) :
    ∀ n ∈ elementNames (finishedModel ds) anchors, Q n := by
  intro n hn
  rcases List.mem_append.mp hn with hn | hn
  · exact hname n (forall_structNames ha hP n hn)
  · obtain ⟨p, hp, rfl⟩ := List.mem_map.mp hn
    exact hplural p.2.name (forall_structNames ha hP p.2.name
      (List.mem_map_of_mem (List.mem_of_mem_filter hp)))

end Declared

theorem plain_typeNames (hplain : ∀ t, .type t ∈ ds → (Name.ofCase t.name).Plain) :
    ∀ n ∈ typeNames (finishedModel ds) anchors, n.Plain := by
  intro n hn
  rcases List.mem_cons.mp hn with rfl | hn
  · have hactions : actionsName = Name.ofCase "actions" := by decide +kernel
    rw [hactions]
    exact (Name.plain_ofCase (by decide) (by decide)).1
  rcases List.mem_append.mp hn with hn | hn
  · obtain ⟨e, he, rfl⟩ := List.mem_map.mp hn
    exact plain_valuesName (forall_enumNames ha hplain e he)
  rcases List.mem_append.mp hn with hn | hn
  · exact forall_enumNames ha hplain n hn
  · exact forall_elementNames ha hplain (fun _ h => h) (fun _ h => h.plural) n hn

theorem unbroken_elementNames (hplain : ∀ t, .type t ∈ ds →
    (Name.ofCase t.name).Plain ∧ (Name.ofCase t.name).Unbroken) :
    ∀ n ∈ elementNames (finishedModel ds) anchors, n.words ≠ [] ∧ n.Unbroken :=
  forall_elementNames (P := fun n => n.Plain ∧ n.Unbroken) ha hplain
    (fun _ h => ⟨h.1.nonempty, h.2⟩) fun _ h => ⟨h.1.plural.nonempty, h.2.plural h.1⟩

end Plain

/-! ## Whole schemas -/

/-- Names and their spellings repeat together, where `spell` keeps names apart. -/
theorem nodup_spelled_iff {spell : Name → String} {names : List Name}
    (h : ∀ n ∈ names, ∀ n' ∈ names, spell n = spell n' → n = n') :
    (names.map spell).Nodup ↔ names.Nodup :=
  ⟨fun hnodup => .of_map _ hnodup, fun hnodup => hnodup.map_on h⟩

/-- In a compiled schema whose types have `Plain` names, the types that are declared have different
names, and so have the types for values of enumerations. All types that it defines have different
names exactly if those of values, collections and actions are apart, `TypesApart`. If no underscore
stands inside of a word, elements of structs have different names as well, and all elements exactly
if those of collections are apart, `ElementsApart`. Names of definitions are those in their tags,
and these are the tags of the schema. -/
theorem schema_names_distinct_iff {ds : List Declaration} {base : String} {c : Compilation}
    (hplain : ∀ t, .type t ∈ ds → (Name.ofCase t.name).Plain) (h : compile ds base = .ok c) :
    ∃ anchors root, findAnchors {} c.model = .ok anchors ∧ locateRoot base.toList = .ok root ∧
      c.schema = String.ofList (root.splice base.toList
        (Xml.Tag.renderChars ((definitions {} c.model anchors).flatMap (·.tags)))) ∧
      (∀ d ∈ definitions {} c.model anchors, ∀ name,
        (d.typeName? = some name ↔ ∃ key ∈ ["xs:complexType", "xs:simpleType"], ∃ content,
          d.tags = .start key [("name", name)] :: content ++ [.stop key]) ∧
        (d.elementName? = some name ↔
          ∃ type, d.tags = [.empty "xs:element" [("name", name), ("type", type)]])) ∧
      ((enumNames c.model ++ structNames c.model anchors).map SchemaNaming.capitalized).Nodup ∧
      ((enumNames c.model).map (valuesTypeName {})).Nodup ∧
      (((definitions {} c.model anchors).filterMap Definition.typeName?).Nodup ↔
        TypesApart c.model anchors) ∧
      ((∀ t, .type t ∈ ds → (Name.ofCase t.name).Unbroken) →
        ((structNames c.model anchors).map (·.join "_")).Nodup ∧
        (((definitions {} c.model anchors).filterMap Definition.elementName?).Nodup ↔
          ElementsApart c.model anchors)) := by
  obtain ⟨a, g, hanalyze, hg, rfl⟩ := compile_eq_ok.mp h
  obtain ⟨anchors, root, hanchors, hroot, hxml, -⟩ := generate_eq_ok hg
  obtain ⟨ha, -, rfl⟩ := analyze_eq_ok.mp hanalyze
  have hi := (Draft.portrays_finishedModel ha).indexed
  have henums := forall_enumNames ha hplain
  have hstructs : ∀ n ∈ structNames (finishedModel ds) anchors, n.Plain :=
    forall_structNames ha hplain
  have htypes : ∀ n ∈ typeNames (finishedModel ds) anchors, n.Plain := plain_typeNames ha hplain
  refine ⟨anchors, root, hanchors, hroot, ?_,
    fun d _ name => ⟨Definition.typeName?_eq_some, Definition.elementName?_eq_some⟩, ?_, ?_, ?_,
    fun hunbroken => ?_⟩
  · rw [hxml, flatMap_tags_sourced]
  · have hdeclared : ∀ n ∈ enumNames (finishedModel ds) ++ structNames (finishedModel ds) anchors,
        n.Plain := fun n hn => (List.mem_append.mp hn).elim (henums n) (hstructs n)
    exact (nodup_spelled_iff fun n hn n' hn' =>
      (hdeclared n hn).capitalized_inj (hdeclared n' hn')).mpr (nodup_declared hi)
  · refine (nodup_spelled_iff fun n hn n' hn' heq => ?_).mpr (nodup_enumNames hi)
    rw [← capitalized_valuesName, ← capitalized_valuesName] at heq
    exact Name.withLast_inj.mp ((plain_valuesName (henums n hn)).capitalized_inj
      (plain_valuesName (henums n' hn')) heq)
  · rw [perm_typeNames.nodup_iff, ← typeNames_nodup_iff hi]
    exact nodup_spelled_iff fun n hn n' hn' => (htypes n hn).capitalized_inj (htypes n' hn')
  · have helements : ∀ n ∈ elementNames (finishedModel ds) anchors, n.words ≠ [] ∧ n.Unbroken :=
      unbroken_elementNames ha fun t ht => ⟨hplain t ht, hunbroken t ht⟩
    have hinj : ∀ n ∈ elementNames (finishedModel ds) anchors,
        ∀ n' ∈ elementNames (finishedModel ds) anchors, n.join "_" = n'.join "_" → n = n' :=
      fun n hn n' hn' => (helements n hn).2.join_inj (helements n' hn').2 (helements n hn).1
        (helements n' hn').1
    constructor
    · exact (nodup_spelled_iff fun n hn n' hn' => hinj n (List.mem_append_left _ hn) n'
        (List.mem_append_left _ hn')).mpr (nodup_structNames hi)
    · rw [perm_elementNames.nodup_iff, ← elementNames_nodup_iff hi]
      exact nodup_spelled_iff hinj

theorem schema_names_distinct_iff_catalog : ∃ c anchors,
    compile catalogDeclarations "<schema/>" = .ok c ∧ findAnchors {} c.model = .ok anchors ∧
      ((definitions {} c.model anchors).filterMap Definition.typeName?).Nodup ∧
      ((definitions {} c.model anchors).filterMap Definition.elementName?).Nodup ∧
      TypesApart c.model anchors ∧ ElementsApart c.model anchors ∧
      (definitions {} c.model anchors).filterMap Definition.typeName? =
        ["Actions", "DiskFormatValues", "DiskFormat", "Api", "Apis", "Disk", "Disks"] ∧
      (definitions {} c.model anchors).filterMap Definition.elementName? =
        ["api", "apis", "disk", "disks"] := by
  have hsome : ((compile catalogDeclarations "<schema/>").toOption.bind fun c =>
      (findAnchors {} c.model).toOption.map fun anchors =>
        decide (TypesApart c.model anchors ∧ ElementsApart c.model anchors ∧
          (definitions {} c.model anchors).filterMap Definition.typeName? =
            ["Actions", "DiskFormatValues", "DiskFormat", "Api", "Apis", "Disk", "Disks"] ∧
          (definitions {} c.model anchors).filterMap Definition.elementName? =
            ["api", "apis", "disk", "disks"])) = some true := by
    decide +kernel
  obtain ⟨c, hc, hsome⟩ := Option.bind_eq_some_iff.mp hsome
  obtain ⟨anchors, hanchors, hfacts⟩ := Option.map_eq_some_iff.mp hsome
  have hfacts := of_decide_eq_true hfacts
  have hplain : ∀ t, .type t ∈ catalogDeclarations →
      (Name.ofCase t.name).Plain ∧ (Name.ofCase t.name).Unbroken := by
    intro t ht
    simp only [catalogDeclarations, List.mem_cons, List.not_mem_nil, Declaration.type.injEq,
      or_false] at ht
    rcases ht with rfl | rfl | rfl | rfl <;> exact Name.plain_ofCase (by decide) (by decide)
  obtain ⟨anchors', -, hanchors', -, -, -, -, -, htypes, helements⟩ :=
    schema_names_distinct_iff (fun t ht => (hplain t ht).1) (eq_ok_of_toOption hc)
  obtain rfl := Except.ok.inj (hanchors'.symm.trans (eq_ok_of_toOption hanchors))
  exact ⟨c, anchors', eq_ok_of_toOption hc, hanchors', htypes.mpr hfacts.1,
    (helements fun t ht => (hplain t ht).2).2.mpr hfacts.2.1, hfacts⟩

/-! ## Names that clash -/

/-- The schema of `ds` defines some type twice, and some element. -/
def Clashing (ds : List Declaration) : Prop :=
  ∃ c anchors, compile ds "<schema/>" = .ok c ∧ findAnchors {} c.model = .ok anchors ∧
    ¬((definitions {} c.model anchors).filterMap Definition.typeName?).Nodup ∧
    ¬((definitions {} c.model anchors).filterMap Definition.elementName?).Nodup

/-- Structs of the given `names`, besides the anchors. -/
def structDeclarations (names : List String) : List Declaration :=
  (["Identified", "Api"] ++ names).map fun name =>
    .type { name, space := "types", body := .struct .none [] }

theorem clashing_of_decide {ds : List Declaration}
    (h : ((compile ds "<schema/>").toOption.bind fun c =>
      (findAnchors {} c.model).toOption.map fun anchors => decide (
        ¬((definitions {} c.model anchors).filterMap Definition.typeName?).Nodup ∧
        ¬((definitions {} c.model anchors).filterMap Definition.elementName?).Nodup)) =
      some true) : Clashing ds := by
  obtain ⟨c, hc, h⟩ := Option.bind_eq_some_iff.mp h
  obtain ⟨anchors, hanchors, h⟩ := Option.map_eq_some_iff.mp h
  exact ⟨c, anchors, eq_ok_of_toOption hc, eq_ok_of_toOption hanchors, of_decide_eq_true h⟩

/-- A struct may be named like the collections of another. Spelling may also take registered names
together: those of types where names are not plain, and those of elements with underscores. -/
theorem registered_names_clash : Clashing (structDeclarations ["Disk", "Disks"]) ∧
    Clashing (structDeclarations ["ß", "sS", "a_b", "aB"]) :=
  ⟨clashing_of_decide (by decide +kernel), clashing_of_decide (by decide +kernel)⟩

end ApiModel.Schema
