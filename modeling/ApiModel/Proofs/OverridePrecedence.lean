import ApiModel.Proofs.MemberEntries

/-!
# Precedence of overrides

A row of the table of overrides takes the place of the type that would be named
for a member otherwise. That goes for XML attributes of any type, for elements
that aren't lists, and for the values of lists of primitives or enumerations. A
list of structs has the type for collections of the struct all the same, and a
list of anything else is left out whatever the table says.
-/

namespace ApiModel.Schema

open Xml (Tag)

/-- The struct whose values the member `x` holds, if it is written as an element and is a list. -/
def listedStruct? (cfg : Config) (m : Model) (x : Member) : Option StructType :=
  if cfg.isAttribute x.name then none
  else ((m.type? x.type).bind DataType.element?).bind m.struct?

/-- The type named for a member that has a row with the given `text`, if it holds the values of
`listed`. -/
def rowType (cfg : Config) (listed : Option StructType) (text : String) : String :=
  match listed with
  | none => text
  | some s => cfg.naming.type (cfg.pluralizer.plural s.name)

/-- The member `x` is a list among the elements whose values have no type in the schema. -/
def IsInexpressibleList (cfg : Config) (m : Model) (x : Member) : Prop :=
  cfg.isAttribute x.name = false ∧
    ∃ n element, m.type? x.type = some (.list n element) ∧
      (m.type? element).any DataType.isExpressible = false

/-- What the entries of the struct `s` have to do with the rows on its members. -/
structure RowsTaken (cfg : Config) (m : Model) (s : StructType) (entries : List (List Tag))
    (attributes : List Tag) : Prop where
  elements : List.Forall₂ (fun (x : Member) tags => ∃ type,
      ElementEntry (cfg.naming.tag x.name) type tags ∧
      ∀ text, cfg.overrides.get? s.name x.name = some text →
        type = rowType cfg (listedStruct? cfg m x) text)
    (renderedMembers cfg m s false) entries
  attributes : List.Forall₂ (fun (x : Member) t => ∃ type,
      t = .empty "xs:attribute" [("name", cfg.naming.tag x.name), ("type", type)] ∧
      ∀ text, cfg.overrides.get? s.name x.name = some text → type = text)
    (renderedMembers cfg m s true) attributes
  /-- Rows are on `renderedMembers`, with one exception. -/
  present : ∀ x ∈ s.members, ∀ text, cfg.overrides.get? s.name x.name = some text →
    (x ∈ renderedMembers cfg m s (cfg.isAttribute x.name) ↔ ¬IsInexpressibleList cfg m x)

variable {cfg : Config} {m : Model} {s : StructType} {x : Member} {type text : String}

theorem eq_of_row (hrow : cfg.overrides.get? s.name x.name = some text) {id : TypeId}
    (h : memberTypeName? cfg m s x id = some type) : type = text := by
  rw [memberTypeName?, hrow, Option.some_or] at h
  exact (Option.some.inj h).symm

/-- Only a list of structs names another type than that of its row, see `rowType`. -/
theorem EntryType.eq_rowType (hx : cfg.isAttribute x.name = false) (h : EntryType cfg m s x type)
    (hrow : cfg.overrides.get? s.name x.name = some text) :
    type = rowType cfg (listedStruct? cfg m x) text := by
  rw [listedStruct?, hx, if_neg Bool.false_ne_true]
  cases h with
  | value hsingle hname =>
    rw [hsingle]
    exact eq_of_row hrow hname
  | structs hlist hvalues hplural =>
    rw [hlist, Option.bind_some, DataType.element?, Option.bind_some, hvalues]
    exact hplural
  | values hlist hothers hname =>
    rw [hlist, Option.bind_some, DataType.element?, Option.bind_some, hothers]
    exact eq_of_row hrow hname

/-- A row is enough for `isRenderable`, unless the member is a list among the elements. -/
theorem isRenderable_of_row (hrow : cfg.overrides.get? s.name x.name = some text) :
    isRenderable cfg m s x = true ↔ ¬IsInexpressibleList cfg m x := by
  rw [isRenderable, IsInexpressibleList]
  split
  · rename_i n element hlist hx
    simp [hlist, hx]
  · rename_i hother
    simp only [hrow, Option.isSome_some, Bool.true_or, true_iff]
    rintro ⟨hx, n, element, hlist, -⟩
    exact hother n element hlist hx

theorem mem_renderedMembers (hx : x ∈ s.members) :
    x ∈ renderedMembers cfg m s (cfg.isAttribute x.name) ↔ isRenderable cfg m s x = true := by
  simp [renderedMembers, memberGroup, mem_sortByName, hx]

theorem rowsTaken (cfg : Config) (m : Model) (s : StructType) :
    RowsTaken cfg m s ((sequence cfg m s).map Particle.tags)
      ((attributeUses cfg m s).map AttributeUse.tag) where
  elements := forall₂_entries cfg m s fun _ _ hx _ htype _ hrow => htype.eq_rowType hx hrow
  attributes := forall₂_attributes cfg m s fun _ _ _ _ hname _ hrow => eq_of_row hrow hname
  present x hx text hrow := by
    rw [mem_renderedMembers hx, isRenderable_of_row hrow]

/-- In the schema of any model, the type named for a member is that of its row in `overrides`, if it
has one; except that lists of structs have the type for collections of the struct, and that lists of
what has no type in the schema have no entry. -/
theorem overrides_take_precedence (cfg : Config) (m : Model) (anchors : Anchors)
    {p : TypeId × StructType} (h : p ∈ definedStructs m anchors) :
    structDefinitions cfg m anchors p.1 p.2 <:+: definitions cfg m anchors ∧
      (∃ base entries attributes collection,
        (structDefinitions cfg m anchors p.1 p.2).map Definition.tags =
          structTags cfg p.2 base entries attributes ++ collection ∧
        RowsTaken cfg m p.2 entries attributes) ∧
      ∀ base g, findAnchors cfg m = .ok anchors → generate cfg m base = .ok g →
        ∃ root, locateRoot base.toList = .ok root ∧
          g.xml = String.ofList (root.splice base.toList
            (Tag.renderChars ((definitions cfg m anchors).flatMap (·.tags)))) := by
  have htags : (structDefinitions cfg m anchors p.1 p.2).map Definition.tags = _ ++ _ :=
    (List.map_append ..).trans (congrArg (· ++ _) (map_tags_structType p.1 p.2))
  refine ⟨?_, ⟨_, _, _, _, htags, rowsTaken cfg m p.2⟩, fun base g hanchors hg => ?_⟩
  · have hinfix : structDefinitions cfg m anchors p.1 p.2 <:+:
        (definedStructs m anchors).flatMap fun p => structDefinitions cfg m anchors p.1 p.2 :=
      List.infix_of_mem_flatten (List.mem_map_of_mem h)
    exact hinfix.trans (List.suffix_append _ _).isInfix
  · obtain ⟨anchors', root, hanchors', hroot, hxml, -⟩ := generate_eq_ok hg
    obtain rfl := Except.ok.inj (hanchors.symm.trans hanchors')
    refine ⟨root, hroot, ?_⟩
    rw [hxml, flatMap_tags_sourced]

/-- A struct with a row on each of its members, in `standardOverrides`: an undefined type, a list of
strings and a list of structs. -/
def sampledDeclarations : List Declaration := [
  .type { name := "Identified", space := "types", body := .struct .none [] },
  .type { name := "Api", space := "types", body := .struct .none [] },
  .type { name := "Sample", space := "types", body := .struct .none [] },
  .type { name := "Statistic", space := "types", body := .struct .none [
    { name := "unit", type := { name := "String", isArray := true } },
    { name := "kind", type := { name := "Sample", isArray := true } },
    { name := "type", type := { name := "Missing" } }] }]

/-- Lines of the struct of `sampledDeclarations` in the schema. -/
def sampledLines : List (List String) := [
  ["<xs:complexType name=\"Statistic\">",
    "  <xs:sequence>",
    "    <xs:element name=\"kind\" type=\"Samples\" minOccurs=\"0\" maxOccurs=\"1\"/>",
    "    <xs:element name=\"type\" type=\"ValueType\" minOccurs=\"0\" maxOccurs=\"1\"/>",
    "    <xs:element name=\"unit\" minOccurs=\"0\" maxOccurs=\"1\">"],
  ["          <xs:element name=\"unit\" type=\"StatisticUnit\" minOccurs=\"0\" maxOccurs=\"unbounded\">"]]

theorem exists_sampled : ∃ a anchors id s g,
    analyze sampledDeclarations = .ok a ∧ findAnchors {} a.model = .ok anchors ∧
    (id, s) ∈ definedStructs a.model anchors ∧ generate {} a.model "<schema/>" = .ok g ∧
    (∀ lines ∈ sampledLines, HasLines g.xml.toList lines) ∧
    (renderedMembers {} a.model s false).map (fun x =>
        (x.name.display, (standardOverrides.get? s.name x.name).map fun text =>
          rowType {} (listedStruct? {} a.model x) text)) =
      [("kind", some "Samples"), ("type", some "ValueType"), ("unit", some "StatisticUnit")] ∧
    (∃ x ∈ s.members, x.name = Name.ofCase "kind" ∧ SchemaNaming.standard.tag x.name = "kind") ∧
    standardOverrides.get? s.name (Name.ofCase "kind") = some "StatisticKind" ∧
    isInfix "StatisticKind".toList g.xml.toList = false := by
  obtain ⟨a, anchors, id, s, g, ha, hanchors, hdefined, -, hg, hlines, htest⟩ :=
    exists_definedStruct {} sampledDeclarations (Name.ofCase "Statistic") sampledLines
      (by repeat' constructor)
      (fun m s text _ =>
        (renderedMembers {} m s false).map (fun x =>
            (x.name.display, (standardOverrides.get? s.name x.name).map fun text =>
              rowType {} (listedStruct? {} m x) text)) =
          [("kind", some "Samples"), ("type", some "ValueType"), ("unit", some "StatisticUnit")] ∧
        (∃ x ∈ s.members, x.name = Name.ofCase "kind" ∧
          SchemaNaming.standard.tag x.name = "kind") ∧
        standardOverrides.get? s.name (Name.ofCase "kind") = some "StatisticKind" ∧
        isInfix "StatisticKind".toList text = false)
      (by decide +kernel)
  exact ⟨a, anchors, id, s, g, ha, hanchors, hdefined, hg, hlines, of_decide_eq_true htest⟩

theorem overrides_take_precedence_sampled :
    ∃ a anchors g p base entries attributes collection,
      analyze sampledDeclarations = .ok a ∧ findAnchors {} a.model = .ok anchors ∧
      generate {} a.model "<schema/>" = .ok g ∧ p ∈ definedStructs a.model anchors ∧
      (structDefinitions {} a.model anchors p.1 p.2).map Definition.tags =
        structTags {} p.2 base entries attributes ++ collection ∧
      RowsTaken {} a.model p.2 entries attributes ∧
      (∀ lines ∈ sampledLines, HasLines g.xml.toList lines) ∧
      (renderedMembers {} a.model p.2 false).map (fun x =>
          (x.name.display, (standardOverrides.get? p.2.name x.name).map fun text =>
            rowType {} (listedStruct? {} a.model x) text)) =
        [("kind", some "Samples"), ("type", some "ValueType"),
          ("unit", some "StatisticUnit")] := by
  obtain ⟨a, anchors, id, s, g, ha, hanchors, hdefined, hg, hlines, hrows, -⟩ := exists_sampled
  obtain ⟨-, ⟨base, entries, attributes, collection, htags, htaken⟩, -⟩ :=
    overrides_take_precedence {} a.model anchors hdefined
  exact ⟨a, anchors, g, (id, s), base, entries, attributes, collection, ha, hanchors, hg, hdefined,
    htags, htaken, hlines, hrows⟩

/-- The row for the `kind` of a statistic is passed over if that is a list of structs, and what it
says is nowhere in the schema. -/
theorem list_of_structs_not_overridden : ∃ a anchors id s g, analyze sampledDeclarations = .ok a ∧
    findAnchors {} a.model = .ok anchors ∧ (id, s) ∈ definedStructs a.model anchors ∧
    generate {} a.model "<schema/>" = .ok g ∧
    (∃ x ∈ s.members, x.name = Name.ofCase "kind" ∧ SchemaNaming.standard.tag x.name = "kind") ∧
    standardOverrides.get? s.name (Name.ofCase "kind") = some "StatisticKind" ∧
    HasLines g.xml.toList ["<xs:complexType name=\"Statistic\">", "  <xs:sequence>",
      "    <xs:element name=\"kind\" type=\"Samples\" minOccurs=\"0\" maxOccurs=\"1\"/>",
      "    <xs:element name=\"type\" type=\"ValueType\" minOccurs=\"0\" maxOccurs=\"1\"/>",
      "    <xs:element name=\"unit\" minOccurs=\"0\" maxOccurs=\"1\">"] ∧
    ¬"StatisticKind".toList <:+: g.xml.toList := by
  obtain ⟨a, anchors, id, s, g, ha, hanchors, hdefined, hg, hlines, -, hmember, hrow, hnone⟩ :=
    exists_sampled
  exact ⟨a, anchors, id, s, g, ha, hanchors, hdefined, hg, hmember, hrow,
    hlines _ List.mem_cons_self, fun h => Bool.false_ne_true (hnone ▸ isInfix_iff.mpr h)⟩

end ApiModel.Schema
