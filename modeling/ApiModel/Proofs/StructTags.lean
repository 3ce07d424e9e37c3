import Mathlib.Data.List.Infix
import ApiModel.Proofs.Emission
import ApiModel.Proofs.Layout

/-!
# What is written for a struct

A struct is written as one element and one complex type, and in the complex type
there is an entry for each member that can be rendered. Statements about schemas
are about the tags of these definitions, and here the tags are spelled out:
`structTags` and `collectionTags` for the definitions, `ElementEntry` for a
member among the elements, and an empty `xs:attribute` for any other.

`EntryType` says which type an entry names. Everything that is known about the
type of an entry follows from it, by `forall₂_entries`.
-/

namespace ApiModel

/-! ## Members of a struct by name -/

theorem mem_sortByName {α : Type} {key : α → Name} {as : List α} {a : α} :
    a ∈ sortByName key as ↔ a ∈ as :=
  (perm_sortByName as).mem_iff

/-- What `filter` keeps of a list corresponds to what `filterMap` makes of it. -/
theorem forall₂_filter_filterMap {α β : Type} {f : α → Option β} {p : α → Bool} {R : α → β → Prop}
    {as : List α} (hp : ∀ a ∈ as, (f a).isSome = p a)
    (hR : ∀ a ∈ as, ∀ b, f a = some b → R a b) :
    List.Forall₂ R (as.filter p) (as.filterMap f) := by
  induction as with
  | nil => exact .nil
  | cons a as ih =>
    obtain ⟨ha, has⟩ := List.forall_mem_cons.mp hp
    obtain ⟨hRa, hRas⟩ := List.forall_mem_cons.mp hR
    rcases hf : f a with _ | b <;> rw [hf] at ha
    · rw [List.filterMap_cons_none hf, List.filter_cons_of_neg (by simp [← ha])]
      exact ih has hRas
    · rw [List.filterMap_cons_some hf, List.filter_cons_of_pos (by simp [← ha])]
      exact .cons (hRa b hf) (ih has hRas)

/-- A type that the schema has a type for. -/
def DataType.isExpressible : DataType → Bool
  | primitive _ | struct _ | enum _ => true
  | list _ _ | undefined _ => false

namespace Schema

open Xml (Tag)

section Members

variable (cfg : Config) (m : Model) (s : StructType)

/-- Whether there is a type to name for the member `x`. For a list among the elements it is the type
of its elements that counts, whatever the table of `overrides` says. -/
def isRenderable (x : Member) : Bool :=
  match m.type? x.type, cfg.isAttribute x.name with
  | some (.list _ element), false => (m.type? element).any DataType.isExpressible
  | t, _ => (cfg.overrides.get? s.name x.name).isSome || t.any DataType.isExpressible

/-- The members that are XML attributes, or those that aren't, by name. -/
def memberGroup (asAttribute : Bool) : List Member :=
  (sortByName (·.name) s.members).filter (cfg.isAttribute ·.name = asAttribute)

def renderedMembers (asAttribute : Bool) : List Member :=
  (memberGroup cfg s asAttribute).filter (isRenderable cfg m s)

/-- The members that aren't `isRenderable`, in the order they would be written. -/
def omittedMembers : List Member :=
  (memberGroup cfg s false ++ memberGroup cfg s true).filter (!isRenderable cfg m s ·)

variable {cfg m s} {x : Member}

theorem mem_memberGroup {asAttribute : Bool} : x ∈ memberGroup cfg s asAttribute ↔
    x ∈ s.members ∧ cfg.isAttribute x.name = asAttribute := by
  simp [memberGroup, mem_sortByName]

theorem elementMembers_eq : elementMembers cfg s = memberGroup cfg s false := by
  refine List.filter_congr fun x _ => ?_
  cases cfg.isAttribute x.name <;> rfl

theorem attributeMembers_eq : attributeMembers cfg s = memberGroup cfg s true := by
  refine List.filter_congr fun x _ => ?_
  cases cfg.isAttribute x.name <;> rfl

theorem isSome_typeName? (id : TypeId) :
    (typeName? cfg m id).isSome = (m.type? id).any DataType.isExpressible := by
  rw [typeName?]
  rcases m.type? id with _ | t
  · rfl
  · cases t <;> rfl

theorem isSome_memberTypeName? (id : TypeId) : (memberTypeName? cfg m s x id).isSome =
    ((cfg.overrides.get? s.name x.name).isSome || (m.type? id).any DataType.isExpressible) := by
  rw [memberTypeName?, Option.isSome_or, isSome_typeName?]

theorem isSome_listParticle? (element : TypeId) : (listParticle? cfg m s x element).isSome =
    (m.type? element).any DataType.isExpressible := by
  rw [listParticle?]
  rcases ht : m.type? element with _ | t
  · rfl
  · cases t with
    | primitive | enum => simp [isSome_memberTypeName?, ht, DataType.isExpressible]
    | struct | list | undefined => rfl

theorem isSome_particle? (h : cfg.isAttribute x.name = false) :
    (particle? cfg m s x).isSome = isRenderable cfg m s x := by
  rw [particle?, isRenderable, h]
  rcases ht : m.type? x.type with _ | t
  · simp [isSome_memberTypeName?, ht]
  · cases t with
    | list n element => simp [DataType.element?, isSome_listParticle?]
    | _ => simp [DataType.element?, isSome_memberTypeName?, ht]

theorem isSome_attributeUse? (h : cfg.isAttribute x.name = true) :
    (attributeUse? cfg m s x).isSome = isRenderable cfg m s x := by
  rw [attributeUse?, isRenderable, h, Option.isSome_map, isSome_memberTypeName?]
  rcases m.type? x.type with _ | t
  · rfl
  · cases t <;> rfl

end Members

/-! ## Tags -/

/-- The tags of a binding hint, whose `element` is that of a class or a property. -/
def hintTags (element name : String) : List Tag :=
  [.start "xs:annotation" [], .start "xs:appinfo" [], .empty element [("name", name)],
    .stop "xs:appinfo", .stop "xs:annotation"]

/-- The tags of a complex type. What it has itself stands directly in it or, if there is a `base`,
in an extension of that. -/
def complexTypeTags (name : String) (base : Option String) (entries attributes : List Tag) :
    List Tag :=
  let content := .start "xs:sequence" [] :: entries ++ .stop "xs:sequence" :: attributes
  match base with
  | none => .start "xs:complexType" [("name", name)] :: content ++ [.stop "xs:complexType"]
  | some base =>
    [.start "xs:complexType" [("name", name)], .start "xs:complexContent" [],
        .start "xs:extension" [("base", base)]] ++ content ++
      [.stop "xs:extension", .stop "xs:complexContent", .stop "xs:complexType"]

/-- The tags of the element and of the complex type of the struct `s`, with the given `entries` and
`attributes`. -/
def structTags (cfg : Config) (s : StructType) (base : Option String) (entries : List (List Tag))
    (attributes : List Tag) : List (List Tag) :=
  [[.empty "xs:element" [("name", cfg.naming.tag s.name), ("type", cfg.naming.type s.name)]],
    complexTypeTags (cfg.naming.type s.name) base entries.flatten attributes]

/-- The tags of the element and of the complex type for collections of the struct `s`. -/
def collectionTags (cfg : Config) (s : StructType) (base : Option String) : List (List Tag) :=
  let plural := cfg.pluralizer.plural s.name
  [[.empty "xs:element" [("name", cfg.naming.tag plural), ("type", cfg.naming.type plural)]],
    complexTypeTags (cfg.naming.type plural) base
      (.start "xs:element"
          [("ref", cfg.naming.tag s.name), ("minOccurs", "0"), ("maxOccurs", "unbounded")] ::
        hintTags "jaxb:property" (cfg.naming.type plural) ++ [.stop "xs:element"]) []]

/-- The tags of a member among the elements that is called `name` and names the type `type`. The
values of a list are elements of their own inside it, unless they are structs. -/
inductive ElementEntry (name type : String) : List Tag → Prop where
  | value : ElementEntry name type [.empty "xs:element"
      [("name", name), ("type", type), ("minOccurs", "0"), ("maxOccurs", "1")]]
  | list (listClass child property : String) : ElementEntry name type
      ([.start "xs:element" [("name", name), ("minOccurs", "0"), ("maxOccurs", "1")],
          .start "xs:complexType" []] ++ hintTags "jaxb:class" listClass ++
        [.start "xs:sequence" [], .start "xs:element"
          [("name", child), ("type", type), ("minOccurs", "0"), ("maxOccurs", "unbounded")]] ++
        hintTags "jaxb:property" property ++
        [.stop "xs:element", .stop "xs:sequence", .stop "xs:complexType", .stop "xs:element"])

theorem binding_eq_hintTags (kind name : String) :
    binding kind name = hintTags ("jaxb:" ++ kind) name :=
  rfl

theorem tags_complexType (name : String) (base : Option String) (sequence : List Particle)
    (attributes : List AttributeUse) : (Definition.complexType name base sequence attributes).tags =
      complexTypeTags name base (sequence.map Particle.tags).flatten
        (attributes.map AttributeUse.tag) := by
  cases base <;>
    simp [Definition.tags, extend, sequenceTags, enclose, complexTypeTags, List.flatMap_def]

theorem tags_simpleType (name base : String) (facets : List Facet) :
    (Definition.simpleType name base facets).tags =
      [.start "xs:simpleType" [("name", name)], .start "xs:restriction" [("base", base)]] ++
        facets.flatMap Facet.tags ++ [.stop "xs:restriction", .stop "xs:simpleType"] := by
  simp [Definition.tags, enclose]

theorem elementEntry_wrapper (name listClass child childType property : String) :
    ElementEntry name childType
      (Particle.wrapper name listClass child childType property).tags := by
  have h : ElementEntry name childType _ := .list listClass child property
  simpa [Particle.tags, enclose, binding_eq_hintTags, Occurs.attributes] using h

/-! ## The type that an entry names -/

section Types

variable {cfg : Config} {m : Model} {s : StructType} {x : Member}

/-- The `type` named for the member `x` among the elements. -/
inductive EntryType (cfg : Config) (m : Model) (owner : StructType) (x : Member) (type : String) :
    Prop where
  | value (single : (m.type? x.type).bind DataType.element? = none)
      (named : memberTypeName? cfg m owner x x.type = some type)
  | structs {n : Name} {element : TypeId} {s : StructType}
      (list : m.type? x.type = some (.list n element)) (values : m.struct? element = some s)
      (plural : type = cfg.naming.type (cfg.pluralizer.plural s.name))
  | values {n : Name} {element : TypeId} (list : m.type? x.type = some (.list n element))
      (others : m.struct? element = none)
      (named : memberTypeName? cfg m owner x element = some type)

theorem listParticle?_eq_some {n : Name} {element : TypeId} {q : Particle}
    (hlist : m.type? x.type = some (.list n element))
    (h : listParticle? cfg m s x element = some q) :
    ∃ type, ElementEntry (cfg.naming.tag x.name) type q.tags ∧ EntryType cfg m s x type := by
  unfold listParticle? at h
  split at h
  · rename_i s' hs'
    obtain rfl := Option.some.inj h
    exact ⟨_, .value, .structs hlist (Model.struct?_eq_some.mpr hs') rfl⟩
  · rename_i k hk
    obtain ⟨type, htype, rfl⟩ := Option.map_eq_some_iff.mp h
    exact ⟨type, elementEntry_wrapper .., .values hlist (by rw [Model.struct?, hk]; rfl) htype⟩
  · rename_i e he
    obtain ⟨type, htype, rfl⟩ := Option.map_eq_some_iff.mp h
    exact ⟨type, elementEntry_wrapper .., .values hlist (by rw [Model.struct?, he]; rfl) htype⟩
  · cases h

theorem particle?_eq_some {q : Particle} (h : particle? cfg m s x = some q) :
    ∃ type, ElementEntry (cfg.naming.tag x.name) type q.tags ∧ EntryType cfg m s x type := by
  unfold particle? at h
  split at h
  · rename_i element helement
    obtain ⟨t, ht, he⟩ := Option.bind_eq_some_iff.mp helement
    cases t with
    | list n element' =>
      obtain rfl := Option.some.inj he
      exact listParticle?_eq_some ht h
    | primitive | struct | enum | undefined => cases he
  · rename_i hsingle
    obtain ⟨type, htype, rfl⟩ := Option.map_eq_some_iff.mp h
    exact ⟨type, .value, .value hsingle htype⟩

variable (cfg m s)

/-- The `renderedMembers` have an entry each, in this order, and what holds of the `EntryType` of a
member holds of the type in its entry. -/
theorem forall₂_entries {R : Member → String → Prop}
    (hR : ∀ x ∈ s.members, cfg.isAttribute x.name = false →
      ∀ type, EntryType cfg m s x type → R x type) :
    List.Forall₂ (fun (x : Member) tags =>
        ∃ type, ElementEntry (cfg.naming.tag x.name) type tags ∧ R x type)
      (renderedMembers cfg m s false) ((sequence cfg m s).map Particle.tags) := by
  rw [sequence, elementMembers_eq, List.forall₂_map_right_iff]
  refine forall₂_filter_filterMap
    (fun x hx => isSome_particle? (mem_memberGroup.mp hx).2) fun x hx q hq => ?_
  obtain ⟨hmem, hgroup⟩ := mem_memberGroup.mp hx
  obtain ⟨type, hentry, htype⟩ := particle?_eq_some hq
  exact ⟨type, hentry, hR x hmem hgroup type htype⟩

theorem forall₂_attributes {R : Member → String → Prop}
    (hR : ∀ x ∈ s.members, cfg.isAttribute x.name = true →
      ∀ type, memberTypeName? cfg m s x x.type = some type → R x type) :
    List.Forall₂ (fun (x : Member) t => ∃ type,
        t = .empty "xs:attribute" [("name", cfg.naming.tag x.name), ("type", type)] ∧ R x type)
      (renderedMembers cfg m s true) ((attributeUses cfg m s).map AttributeUse.tag) := by
  rw [attributeUses, attributeMembers_eq, List.forall₂_map_right_iff]
  refine forall₂_filter_filterMap
    (fun x hx => isSome_attributeUse? (mem_memberGroup.mp hx).2) fun x hx u hu => ?_
  obtain ⟨hmem, hgroup⟩ := mem_memberGroup.mp hx
  obtain ⟨type, htype, rfl⟩ := Option.map_eq_some_iff.mp hu
  exact ⟨type, rfl, hR x hmem hgroup type htype⟩

end Types

/-! ## The tags of definitions -/

section Definitions

variable {cfg : Config} {m : Model} {anchors : Anchors} {p : TypeId × StructType}

theorem map_tags_structType (id : TypeId) (s : StructType) :
    (structType cfg m anchors id s).map Definition.tags =
      structTags cfg s (extensionBase? cfg m anchors id s) ((sequence cfg m s).map Particle.tags)
        ((attributeUses cfg m s).map AttributeUse.tag) := by
  simp only [structType, List.map_cons, List.map_nil, tags_complexType, structTags]
  rfl

theorem map_tags_collectionType (id : TypeId) (s : StructType) :
    (collectionType cfg m anchors id s).map Definition.tags =
      collectionTags cfg s (if isResource m anchors id then some cfg.baseResources else none) := by
  simp only [collectionType, List.map_cons, List.map_nil, tags_complexType, collectionTags]
  rfl

theorem map_tags_struct (hi : m.Indexed) (h : p ∈ definedStructs m anchors) :
    (definitionsFrom cfg m anchors (.struct p.1)).map Definition.tags =
      structTags cfg p.2 (extensionBase? cfg m anchors p.1 p.2)
        ((sequence cfg m p.2).map Particle.tags)
        ((attributeUses cfg m p.2).map AttributeUse.tag) := by
  rw [definitionsFrom_struct hi h, map_tags_structType]

theorem map_tags_collection (hi : m.Indexed) (h : p ∈ definedStructs m anchors) :
    (definitionsFrom cfg m anchors (.collection p.1)).map Definition.tags =
      if cfg.withoutCollection.contains p.2.name then []
      else collectionTags cfg p.2
        (if isResource m anchors p.1 then some cfg.baseResources else none) := by
  rw [definitionsFrom_collection hi h]
  split
  · rfl
  · exact map_tags_collectionType p.1 p.2

end Definitions

/-! ## Schemas of given declarations -/

/-- The usual configuration, in which members have the types of the model. -/
def withoutOverrides : Config where
  overrides := ∅

/-- The characters of lines that each have a line break before them. -/
def lineChars : List String → List Char
  | [] => []
  | line :: lines => '\n' :: line.toList ++ lineChars lines

/-- The `lines` stand in `text`, one after the other. -/
def HasLines (text : List Char) (lines : List String) : Prop :=
  lineChars lines <:+: text

/-- A test for `cs <:+: text`. Which instance decides that depends on what is imported, and not all
of them can be evaluated on long texts. -/
def isInfix (cs text : List Char) : Bool :=
  text.tails.any cs.isPrefixOf

theorem isInfix_iff {cs text : List Char} : isInfix cs text = true ↔ cs <:+: text := by
  rw [isInfix, List.any_eq_true, List.infix_iff_prefix_suffix]
  refine exists_congr fun rest => ?_
  rw [List.mem_tails, List.isPrefixOf_iff_prefix, and_comm]

/-- Lines that are given by their characters, see `lineChars`. Long literals are costly to decode,
and here none needs to be. -/
inductive Spelled : List String → List Char → Prop
  | nil : Spelled [] []
  | cons (line : List Char) {lines : List String} {rest : List Char} (h : Spelled lines rest) :
    Spelled (String.ofList line :: lines) ('\n' :: line ++ rest)

theorem Spelled.lineChars_eq {lines : List String} {cs : List Char} (h : Spelled lines cs) :
    lineChars lines = cs := by
  induction h with
  | nil => rfl
  | cons line _ ih => rw [lineChars, String.toList_ofList, ih]

theorem infix_splice (r : RootSpan) (base defs : List Char) : defs <:+: r.splice base defs := by
  unfold RootSpan.splice
  split
  · exact ⟨_, ['\n'] ++ _, (List.append_assoc ..).symm⟩
  · refine ⟨Xml.takeBytes r.openEnd base ++ r.missing.flatMap Namespace.chars ++ ['>', '\n'],
      ['\n', '<', '/'] ++ r.name ++ ['>'] ++ Xml.dropBytes r.stop base, ?_⟩
    simp only [List.append_assoc]

/-- What stands in the definitions `defs` stands in the whole schema. -/
theorem hasLines_splice {blocks : List (List String)} {chars : List (List Char)}
    (hspelled : List.Forall₂ Spelled blocks chars) {defs : List Char}
    (hall : chars.all (isInfix · defs) = true) (r : RootSpan) (base : List Char) :
    ∀ lines ∈ blocks, HasLines (r.splice base defs) lines := by
  intro lines hlines
  obtain ⟨cs, hcs, hline⟩ := exists_of_forall₂ hspelled.flip hlines
  have hinfix := isInfix_iff.mp (List.all_eq_true.mp hall cs hcs)
  rw [HasLines, hline.lineChars_eq]
  exact hinfix.trans (infix_splice r base defs)

/-- An analysis that ends well has a struct of the name `n`. The schema has some `blocks` of lines,
and the struct passes a `test` together with the text of the schema and the reports on it. -/
theorem exists_definedStruct (cfg : Config) (ds : List Declaration) (n : Name)
    (blocks : List (List String)) {chars : List (List Char)}
    (hspelled : List.Forall₂ Spelled blocks chars)
    (test : Model → StructType → List Char → List Diagnostic → Bool)
    (h : ((analyze ds).toOption.bind fun a =>
      (findAnchors cfg a.model).toOption.bind fun anchors =>
        (locateRoot "<schema/>".toList).toOption.bind fun root =>
          (a.model.findType? n).bind fun id =>
            (a.model.struct? id).map fun s => id ≠ anchors.identified &&
              (chars.all (isInfix · (definitionChars cfg a.model anchors)) &&
              test a.model s (root.splice "<schema/>".toList (definitionChars cfg a.model anchors))
                (reports cfg a.model anchors))) = some true) :
    ∃ a anchors id s g, analyze ds = .ok a ∧ findAnchors cfg a.model = .ok anchors ∧
      (id, s) ∈ definedStructs a.model anchors ∧ a.model.findType? n = some id ∧
      generate cfg a.model "<schema/>" = .ok g ∧
      (∀ lines ∈ blocks, HasLines g.xml.toList lines) ∧
      test a.model s g.xml.toList g.diagnostics = true := by
  obtain ⟨a, ha, h⟩ := Option.bind_eq_some_iff.mp h
  obtain ⟨anchors, hanchors, h⟩ := Option.bind_eq_some_iff.mp h
  obtain ⟨root, hroot, h⟩ := Option.bind_eq_some_iff.mp h
  obtain ⟨id, hid, h⟩ := Option.bind_eq_some_iff.mp h
  obtain ⟨s, hs, h⟩ := Option.map_eq_some_iff.mp h
  obtain ⟨hne, h⟩ := Bool.and_eq_true_iff.mp h
  obtain ⟨hall, htest⟩ := Bool.and_eq_true_iff.mp h
  have hanchors := eq_ok_of_toOption hanchors
  refine ⟨a, anchors, id, s, _, eq_ok_of_toOption ha, hanchors,
    mem_definedStructs.mpr ⟨Model.mem_structs.mpr ⟨⟨n, hid⟩, Model.struct?_eq_some.mp hs⟩,
      of_decide_eq_true hne⟩, hid, generate_of_root hanchors (eq_ok_of_toOption hroot), ?_⟩
  rw [String.toList_ofList]
  exact ⟨hasLines_splice hspelled hall root _, htest⟩

end Schema

end ApiModel
