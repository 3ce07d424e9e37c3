import ApiModel.Proofs.EnumTokens
import ApiModel.Proofs.MemberEntries
import ApiModel.Proofs.RegistryInvariant
import ApiModel.Proofs.Resolution

/-!
# Facets of enumerations

An enumeration is written with one facet for each of its values, in the order of
their names. A facet has the token of its value for documents, and inside it the
binding hint with the other token of the same value. Tokens for documents are in
lower case, as the words of names are already, so a token is nothing but the
words with underscores between them. No word of a constant has an underscore in
it, and so the token tells what the words are: two values share a token only if
they have the same name.
-/

namespace ApiModel

/-! ## Tokens for documents -/

namespace Name

theorem Canonical.lower_display {n : Name} (h : n.Canonical) :
    Text.lower n.display = n.display := by
  refine Text.lower_eq_self_iff.mpr fun c hc => ?_
  rw [toList_display] at hc
  rcases of_mem_intercalate hc with rfl | ⟨seg, hseg, hc⟩
  · decide
  · obtain ⟨w, hw, rfl⟩ := List.mem_map.mp hseg
    exact Text.lower_eq_self_iff.mp (h.lowered w hw) c hc

end Name

theorem EnumValue.ofConstant_lowerToken {v : EnumValue} {text : String}
    (h : v.name = Name.ofConstant text) : Name.ofConstant v.lowerToken = v.name := by
  have hcanonical : v.name.Canonical := h ▸ Name.canonical_ofSeparated '_' text
  rw [lowerToken, hcanonical.lower_display]
  exact hcanonical.ofSeparated_join fun w hw => Name.separate_ofConstant (h ▸ hw)

/-! ## Enumerations of a model -/

namespace Draft

variable {ds : List Declaration} {parser : Option ConstraintParser} {a : Analysis}

theorem indexed_build (h : (declareEach {} ds).build parser = .ok a) : a.model.Indexed := by
  obtain ⟨hs, hb⟩ := sound_declareEach ds
  exact hs.indexed.settled.reparsed (reparsed_build hs hb h)

/-- The values of the enumeration `e` are those of the declaration that it comes from. -/
theorem enum_declared (h : (declareEach {} ds).build parser = .ok a) {id : TypeId} {e : EnumType}
    (he : (id, e) ∈ a.model.enums) :
    ∃ t constants, .type t ∈ ds ∧ t.body = .enum constants ∧ e.name = Name.ofCase t.name ∧
      List.Forall₂ (EnumValue.Matches id) e.values constants := by
  obtain ⟨hs, hb⟩ := sound_declareEach ds
  have hre := reparsed_build hs hb h
  obtain ⟨⟨n, hn⟩, hid⟩ := Model.mem_enums.mp he
  rw [hre.findType?] at hn
  rw [hre.type?, Model.type?_settled] at hid
  rcases origin_type hn with ⟨k, hk⟩ | ⟨pre, t, post, x, hds, -, -, hx, hrec⟩
  · rw [hk] at hid
    cases hid
  · rw [hx] at hid
    rw [DataType.Records] at hrec
    split at hrec
    · obtain ⟨s, rfl, -⟩ := hrec
      cases hid
    · rename_i constants hbody
      obtain ⟨e', rfl, hmatches⟩ := hrec
      obtain rfl : e' = e := by
        simpa [DataType.mapRefs] using hid
      refine ⟨t, constants, hds ▸ List.mem_append_right _ List.mem_cons_self, hbody, ?_,
        hmatches.values⟩
      rw [EnumType.name, hmatches.concept, Declare.name_concept]

theorem ofConstant_lowerToken_of_enum (h : (declareEach {} ds).build parser = .ok a) {id : TypeId}
    {e : EnumType} (he : (id, e) ∈ a.model.enums) {v : EnumValue} (hv : v ∈ e.values) :
    Name.ofConstant v.lowerToken = v.name := by
  obtain ⟨-, constants, -, -, -, hvalues⟩ := enum_declared h he
  obtain ⟨decl, -, hmatches⟩ := exists_of_forall₂ hvalues.flip hv
  have hname : v.name = Name.ofConstant decl.name := by
    rw [EnumValue.name, hmatches.concept, Declare.name_concept]
  exact EnumValue.ofConstant_lowerToken hname

end Draft

/-! ## Facets -/

namespace Schema

theorem tags_facet (v : EnumValue) : (facet v).tags =
    [.start "xs:enumeration" [("value", v.lowerToken)], .start "xs:annotation" [],
      .start "xs:appinfo" [], .empty "jaxb:property" [("name", v.upperToken)], .stop "xs:appinfo",
      .stop "xs:annotation", .stop "xs:enumeration"] :=
  rfl

open Draft in
/-- A schema has one definition for each enumeration `e` of a model, with a facet for each value in
the order of names, and in each facet the binding hint of the same value. By `Name.ofConstant`, the
token of a facet is read as the name of its value. -/
theorem enumFacets_written {ds : List Declaration} {parser : Option ConstraintParser}
    {a : Analysis} (h : (declareEach {} ds).build parser = .ok a) {id : TypeId} {e : EnumType}
    (he : (id, e) ∈ a.model.enums) :
    (∃ t constants, .type t ∈ ds ∧ t.body = .enum constants ∧ e.name = Name.ofCase t.name ∧
      List.Forall₂ (EnumValue.Matches id) e.values constants) ∧
    (∃ values, OrderedBy (·.name) e.values values ∧
      ∀ cfg base g, generate cfg a.model base = .ok g →
        ∃ anchors root, findAnchors cfg a.model = .ok anchors ∧
          locateRoot base.toList = .ok root ∧
          g.xml = String.ofList (root.splice base.toList
            (Xml.Tag.renderChars ((sourced cfg a.model anchors).flatMap (·.2.tags)))) ∧
          (definitionsFrom cfg a.model anchors (.enum id)).map Definition.tags =
            [[.start "xs:simpleType" [("name", cfg.naming.type e.name)],
                .start "xs:restriction" [("base", cfg.naming.primitive .string)]] ++
              (values.flatMap fun v =>
                [.start "xs:enumeration" [("value", v.lowerToken)],
                  .start "xs:annotation" [], .start "xs:appinfo" [],
                  .empty "jaxb:property" [("name", v.upperToken)],
                  .stop "xs:appinfo", .stop "xs:annotation", .stop "xs:enumeration"]) ++
              [.stop "xs:restriction", .stop "xs:simpleType"]]) ∧
    (∀ v ∈ e.values, Name.ofConstant v.lowerToken = v.name) ∧
    ∀ v ∈ e.values, ∀ v' ∈ e.values, v.lowerToken = v'.lowerToken → v.name = v'.name := by
  have hback : ∀ v ∈ e.values, Name.ofConstant v.lowerToken = v.name :=
    fun v hv => ofConstant_lowerToken_of_enum h he hv
  refine ⟨enum_declared h he, ⟨_, orderedBy_sortByName _, fun cfg base g hg => ?_⟩, hback,
    fun v hv v' hv' heq => ?_⟩
  · obtain ⟨anchors, root, hanchors, hroot, hxml, -⟩ := generate_eq_ok hg
    refine ⟨anchors, root, hanchors, hroot, hxml, ?_⟩
    rw [definitionsFrom_enum (indexed_build h) he, List.map_singleton, enumType, tags_simpleType,
      List.flatMap_map]
    simp only [tags_facet]
  · rw [← hback v hv, heq, hback v' hv']

/-- An enumeration with two constants of one name and words beyond ASCII, beside one that stops at a
constant without a name. -/
def accessDeclarations : List Declaration := [
  .type { name := "Identified", space := "types", body := .struct .none [] },
  .type { name := "Api", space := "types", body := .struct .none [] },
  .type { name := "Access", space := "types", body := .enum [
    { name := "WRITE" }, { name := "READ_ONLY" }, { name := "ΤΈΛΟΣ" }, { name := "_read_only" },
    { name := "straße" }] },
  .type { name := "Broken", space := "types", body := .enum [{ name := "_" }] }]

/-- Lines of the enumeration of `accessDeclarations` in the schema: those of the first facet, of the
third and of the last, by name. -/
def accessLines : List (List String) := [
  ["<xs:simpleType name=\"Access\">",
    "  <xs:restriction base=\"xs:string\">",
    "    <xs:enumeration value=\"read_only\">",
    "      <xs:annotation>",
    "        <xs:appinfo>",
    "          <jaxb:property name=\"READ_ONLY\"/>",
    "        </xs:appinfo>",
    "      </xs:annotation>",
    "    </xs:enumeration>",
    "    <xs:enumeration value=\"read_only\">"],
  ["    <xs:enumeration value=\"straße\">",
    "      <xs:annotation>",
    "        <xs:appinfo>",
    "          <jaxb:property name=\"STRASSE\"/>",
    "        </xs:appinfo>",
    "      </xs:annotation>",
    "    </xs:enumeration>",
    "    <xs:enumeration value=\"write\">"],
  ["    <xs:enumeration value=\"τέλος\">",
    "      <xs:annotation>",
    "        <xs:appinfo>",
    "          <jaxb:property name=\"ΤΈΛΟΣ\"/>",
    "        </xs:appinfo>",
    "      </xs:annotation>",
    "    </xs:enumeration>",
    "  </xs:restriction>",
    "</xs:simpleType>"]]

open Draft in
theorem exists_access : ∃ a anchors id e g,
    (declareEach {} accessDeclarations).build none = .ok a ∧
    findAnchors withoutOverrides a.model = .ok anchors ∧ (id, e) ∈ a.model.enums ∧
    generate withoutOverrides a.model "<schema/>" = .ok g ∧
    SchemaNaming.standard.type e.name = "Access" ∧
    e.values.map (·.lowerToken) = ["write", "read_only", "τέλος", "read_only", "straße"] ∧
    ∀ lines ∈ accessLines, HasLines g.xml.toList lines := by
  obtain ⟨chars, hspelled, hbuilt⟩ : ∃ chars, List.Forall₂ Spelled accessLines chars ∧
      (((declareEach {} accessDeclarations).build none).toOption.bind fun a =>
        (findAnchors withoutOverrides a.model).toOption.bind fun anchors =>
          (locateRoot "<schema/>".toList).toOption.bind fun root =>
            (a.model.findType? (Name.ofCase "Access")).bind fun id =>
              ((a.model.type? id).bind DataType.enum?).map fun e =>
                decide (SchemaNaming.standard.type e.name = "Access" ∧
                  e.values.map (·.lowerToken) =
                    ["write", "read_only", "τέλος", "read_only", "straße"]) &&
                chars.all (isInfix · (definitionChars withoutOverrides a.model anchors))) =
        some true :=
    ⟨_, by repeat' constructor, by decide +kernel⟩
  obtain ⟨a, ha, hbuilt⟩ := Option.bind_eq_some_iff.mp hbuilt
  obtain ⟨anchors, hanchors, hbuilt⟩ := Option.bind_eq_some_iff.mp hbuilt
  obtain ⟨root, hroot, hbuilt⟩ := Option.bind_eq_some_iff.mp hbuilt
  obtain ⟨id, hid, hbuilt⟩ := Option.bind_eq_some_iff.mp hbuilt
  obtain ⟨e, he, htest⟩ := Option.map_eq_some_iff.mp hbuilt
  obtain ⟨htest, hall⟩ := Bool.and_eq_true_iff.mp htest
  obtain ⟨htype, htokens⟩ := of_decide_eq_true htest
  obtain ⟨t, ht, he⟩ := Option.bind_eq_some_iff.mp he
  obtain rfl : t = .enum e := by
    cases t <;> simp [DataType.enum?] at he
    rw [he]
  have hanchors := eq_ok_of_toOption hanchors
  refine ⟨a, anchors, id, e, _, eq_ok_of_toOption ha, hanchors, Model.mem_enums.mpr ⟨⟨_, hid⟩, ht⟩,
    generate_of_root hanchors (eq_ok_of_toOption hroot), htype, htokens, ?_⟩
  rw [String.toList_ofList]
  exact hasLines_splice hspelled hall root _

open Draft in
theorem enumFacets_written_access : ∃ a g anchors id e values,
    (declareEach {} accessDeclarations).build none = .ok a ∧
      generate withoutOverrides a.model "<schema/>" = .ok g ∧
      findAnchors withoutOverrides a.model = .ok anchors ∧
      (id, e) ∈ a.model.enums ∧ OrderedBy (·.name) e.values values ∧
      (∀ v ∈ e.values, Name.ofConstant v.lowerToken = v.name) ∧
      (definitionsFrom withoutOverrides a.model anchors (.enum id)).map Definition.tags =
        [[.start "xs:simpleType" [("name", "Access")],
            .start "xs:restriction" [("base", "xs:string")]] ++
          (values.flatMap fun v =>
            [.start "xs:enumeration" [("value", v.lowerToken)],
              .start "xs:annotation" [], .start "xs:appinfo" [],
              .empty "jaxb:property" [("name", v.upperToken)],
              .stop "xs:appinfo", .stop "xs:annotation", .stop "xs:enumeration"]) ++
          [.stop "xs:restriction", .stop "xs:simpleType"]] ∧
      e.values.map (·.lowerToken) = ["write", "read_only", "τέλος", "read_only", "straße"] ∧
      ∀ lines ∈ accessLines, HasLines g.xml.toList lines := by
  obtain ⟨a, anchors, id, e, g, ha, hanchors, hmem, hg, htype, htokens, hlines⟩ := exists_access
  obtain ⟨-, ⟨values, hordered, hwritten⟩, hback, -⟩ := enumFacets_written ha hmem
  obtain ⟨anchors', -, hanchors', -, -, htags⟩ := hwritten _ _ _ hg
  obtain rfl := Except.ok.inj (hanchors.symm.trans hanchors')
  rw [show withoutOverrides.naming.type e.name = "Access" from htype] at htags
  exact ⟨a, g, anchors, id, e, values, ha, hg, hanchors, hmem, hordered, hback, htags, htokens,
    hlines⟩

end Schema

end ApiModel
