import ApiModel.Proofs.SchemaInheritance

/-!
# Entries for members

Each member of a struct ends up in one of three places: as an entry of the
sequence, as an XML attribute, or in a report that it has been left out. Which
one depends on the classifier and on whether the member can be rendered, and
that in turn on its type and on the table of overrides. In each place members
are ordered by name, and among members of one name attributes come before links
and otherwise the one declared first comes first.
-/

namespace ApiModel

/-! ## Sorting by name -/

/-- The elements of `as`, ordered by `key`; those of one `key` are in the order that they have in
`as`. -/
structure OrderedBy {α : Type} (key : α → Name) (as bs : List α) : Prop where
  perm : bs.Perm as
  ascending : bs.Pairwise fun a b => (compare (key a) (key b)).isLE
  stable : ∀ n, bs.filter (key · = n) = as.filter (key · = n)

section Sorting

variable {α : Type} {key : α → Name}

theorem filter_insertByName (n : Name) (a : α) (bs : List α) :
    (insertByName key a bs).filter (key · = n) = (a :: bs).filter (key · = n) := by
  induction bs with
  | nil => rfl
  | cons b bs ih =>
    rw [insertByName]
    split
    · rfl
    · rename_i hlt
      -- What `a` is moved behind has another key.
      have hne : key a ≠ key b := fun heq => hlt (by rw [heq, Std.ReflOrd.compare_self]; rfl)
      by_cases hb : key b = n
      · have ha : key a ≠ n := hb ▸ hne
        simp only [List.filter_cons, hb, ha, decide_true, decide_false, ih]
        rfl
      · simp only [List.filter_cons, hb, decide_false, ih]
        rfl

theorem orderedBy_sortByName (as : List α) : OrderedBy key as (sortByName key as) where
  perm := perm_sortByName as
  ascending := pairwise_sortByName as
  stable n := by
    induction as with
    | nil => rfl
    | cons a as ih =>
      rw [sortByName, List.foldr_cons, ← sortByName, filter_insertByName, List.filter_cons,
        List.filter_cons, ih]

end Sorting

namespace Schema

variable (cfg : Config) (m : Model) (s : StructType)

/-! ## What is reported -/

theorem memberReports_eq_map :
    memberReports cfg m s = (omittedMembers cfg m s).map (unrenderable m s) := by
  have hnone : ∀ {β : Type} {o : Option β} {b : Bool}, o.isSome = b → o.isNone = !b := by
    intro β o b h
    rw [← h, Option.not_isSome]
  rw [memberReports, elementMembers_eq, attributeMembers_eq, omittedMembers, List.filter_append,
    List.map_append]
  congr 2
  · exact List.filter_congr fun x hx => hnone (isSome_particle? (mem_memberGroup.mp hx).2)
  · exact List.filter_congr fun x hx => hnone (isSome_attributeUse? (mem_memberGroup.mp hx).2)

/-- The `omittedMembers`, each with its struct, in the order of the reports. -/
def allOmitted (anchors : Anchors) : List (StructType × Member) :=
  (definedStructs m anchors).flatMap fun p => (omittedMembers cfg m p.2).map (p.2, ·)

/-- Of the `reports` on a model, those on members. -/
theorem filter_reports_members (anchors : Anchors) :
    (reports cfg m anchors).filter (·.kind = .unrenderableMember) =
      (allOmitted cfg m anchors).map fun q => unrenderable m q.1 q.2 := by
  have hstruct : ∀ p ∈ definedStructs m anchors,
      (structReports cfg m anchors p.2).filter (·.kind = .unrenderableMember) =
        ((omittedMembers cfg m p.2).map (p.2, ·)).map fun q => unrenderable m q.1 q.2 := by
    intro p _
    rw [structReports, ← List.append_nil (_ ++ _),
      filter_kind (fun x hx => by rw [kind_baseReports x hx]; decide) kind_memberReports (by simp),
      memberReports_eq_map, List.map_map]
    rfl
  rw [reports, allOmitted, List.filter_flatMap, List.map_flatMap]
  exact List.flatMap_congr hstruct

/-- A type that has no place in the schema, with the words that reports use for it. -/
inductive Unplaced : DataType → (kind : String) → (name : Name) → Prop where
  | list (n : Name) (element : TypeId) : Unplaced (.list n element) "list" n
  | undefined (n : Name) : Unplaced (.undefined n) "undefined" n

/-- The report `d` on a member `x` of the struct `s` that is left out. -/
def OmissionReport (m : Model) (s : StructType) (x : Member) (d : Diagnostic) : Prop :=
  ∃ t kind n, m.type? x.type = some t ∧ Unplaced t kind n ∧
    d = ⟨.error, .unrenderableMember,
      s!"member '{x.name.display}' of type '{s.name.display}' has {kind} type '{n.display}', skipping it"⟩

variable {cfg m s}

theorem isRenderable_of_expressible {x : Member} {t : DataType} (ht : m.type? x.type = some t)
    (h : t.isExpressible = true) : isRenderable cfg m s x = true := by
  cases t with
  | list | undefined => cases h
  | _ => simp [isRenderable, ht, DataType.isExpressible]

theorem omissionReport_unrenderable {x : Member} {t : DataType} (ht : m.type? x.type = some t)
    (h : isRenderable cfg m s x = false) : OmissionReport m s x (unrenderable m s x) := by
  rw [unrenderable, ht]
  cases t with
  | list n element => exact ⟨_, _, _, ht, .list n element, rfl⟩
  | undefined n => exact ⟨_, _, _, ht, .undefined n, rfl⟩
  | _ => rw [isRenderable_of_expressible ht rfl] at h; cases h

theorem exists_memberType {ds : List Declaration} (hp : m.Portrays ds) {id : TypeId}
    (hs : (id, s) ∈ m.structs) {x : Member} (hx : x ∈ s.members) : ∃ t, m.type? x.type = some t := by
  obtain ⟨⟨n, isArray⟩, ht⟩ := hp.resolves_member hs hx
  cases isArray with
  | false =>
    obtain ⟨t, htype, -⟩ := hp.indexed.name_of_typeNamed (Model.Resolves.typeNamed ht)
    exact ⟨t, htype⟩
  | true =>
    obtain ⟨-, e, hlist, -⟩ := ht
    exact ⟨_, hlist⟩

theorem forall₂_omissionReport {ds : List Declaration} (hp : m.Portrays ds) (anchors : Anchors) :
    List.Forall₂ (fun q d => OmissionReport m q.1 q.2 d) (allOmitted cfg m anchors)
      ((reports cfg m anchors).filter (·.kind = .unrenderableMember)) := by
  rw [filter_reports_members, List.forall₂_map_right_iff, List.forall₂_same]
  intro q hq
  obtain ⟨⟨id, s⟩, hdefined, hq⟩ := List.mem_flatMap.mp hq
  obtain ⟨x, hx, rfl⟩ := List.mem_map.mp hq
  obtain ⟨hgroup, hrenderable⟩ := List.mem_filter.mp hx
  have hmember : x ∈ s.members := by
    rcases List.mem_append.mp hgroup with h | h <;> exact (mem_memberGroup.mp h).1
  obtain ⟨t, ht⟩ := exists_memberType hp (mem_definedStructs.mp hdefined).1 hmember
  exact omissionReport_unrenderable ht (by simpa using hrenderable)

variable (cfg m s)

/-- Each member of `s` is in one of the three places. -/
theorem length_members : (renderedMembers cfg m s false).length +
    (renderedMembers cfg m s true).length + (omittedMembers cfg m s).length =
      s.members.length := by
  have hgroup : ∀ group : List Member, group.length =
      (group.filter (isRenderable cfg m s)).length +
        (group.filter (!isRenderable cfg m s ·)).length :=
    fun group => List.length_eq_length_filter_add _
  have hgroups : s.members.length =
      (memberGroup cfg s true).length + (memberGroup cfg s false).length := by
    have hsorted : (sortByName (·.name) s.members).Perm s.members := perm_sortByName _
    rw [← hsorted.length_eq, List.length_eq_length_filter_add fun x => cfg.isAttribute x.name,
      ← attributeMembers_eq, ← elementMembers_eq]
    rfl
  have htrue := hgroup (memberGroup cfg s true)
  have hfalse := hgroup (memberGroup cfg s false)
  rw [omittedMembers, List.filter_append, List.length_append]
  simp only [renderedMembers]
  omega

/-! ## Whole schemas -/

variable {cfg m}

/-- The definitions of the struct `p` have an entry for each member that can be rendered. -/
def MembersWritten (cfg : Config) (m : Model) (anchors : Anchors) (p : TypeId × StructType) : Prop :=
  ∃ base entries attributes,
    (definitionsFrom cfg m anchors (.struct p.1)).map Definition.tags =
      structTags cfg p.2 base entries attributes ∧
    List.Forall₂ (fun (x : Member) tags => ∃ type,
        ElementEntry (cfg.naming.tag x.name) type tags)
      (renderedMembers cfg m p.2 false) entries ∧
    List.Forall₂ (fun (x : Member) t => ∃ type,
        t = .empty "xs:attribute" [("name", cfg.naming.tag x.name), ("type", type)])
      (renderedMembers cfg m p.2 true) attributes ∧
    entries.length + attributes.length + (omittedMembers cfg m p.2).length = p.2.members.length

theorem membersWritten {anchors : Anchors} (hi : m.Indexed) {p : TypeId × StructType}
    (h : p ∈ definedStructs m anchors) : MembersWritten cfg m anchors p := by
  have helements := forall₂_entries cfg m p.2 (R := fun _ _ => True) fun _ _ _ _ _ => trivial
  have hattributes := forall₂_attributes cfg m p.2 (R := fun _ _ => True) fun _ _ _ _ _ => trivial
  refine ⟨_, _, _, map_tags_struct hi h, helements.imp fun _ _ ⟨type, hentry, _⟩ => ⟨type, hentry⟩,
    hattributes.imp fun _ _ ⟨type, ht, _⟩ => ⟨type, ht⟩, ?_⟩
  rw [← helements.length_eq, ← hattributes.length_eq, length_members]

/-- The members of the struct `p` are those of one of the declarations `ds`, attributes before
links. -/
def MembersDeclared (ds : List Declaration) (m : Model) (p : TypeId × StructType) : Prop :=
  ∃ decl supertype members, .type decl ∈ ds ∧ decl.body = .struct supertype members ∧
    p.2.name = Name.ofCase decl.name ∧
    List.Forall₂ (Member.Matches m.unparsed p.1) p.2.members
      (members.filter (·.kind = .attribute) ++ members.filter (·.kind = .link))

theorem membersDeclared {ds : List Declaration} (hp : m.Portrays ds) {p : TypeId × StructType}
    (h : p ∈ m.structs) : MembersDeclared ds m p := by
  obtain ⟨decl, supertype, members, hmem, hbody, hs⟩ := hp.exists_declaration h
  refine ⟨decl, supertype, members, hmem, hbody, ?_, List.rel_append hs.attributes hs.links⟩
  rw [StructType.name, hs.concept, Declare.name_concept]

/-- A generated schema has one entry for each declared member that can be rendered, among the
elements or after them among the XML attributes as `isAttribute` says, and one report for each other
member. Entries and reports are in the order of names, and where names are the same in that of the
declaration, attributes before links. -/
theorem members_written_or_reported {ds : List Declaration} {a : Analysis} (h : analyze ds = .ok a)
    {cfg : Config} {base : String} {g : Generated} (hg : generate cfg a.model base = .ok g) :
    ∃ anchors root, findAnchors cfg a.model = .ok anchors ∧ locateRoot base.toList = .ok root ∧
      g.xml = String.ofList (root.splice base.toList
        (Xml.Tag.renderChars ((sourced cfg a.model anchors).flatMap (·.2.tags)))) ∧
      (∀ p ∈ a.model.structs, p.1 ≠ anchors.identified → MembersDeclared ds a.model p ∧
        OrderedBy (·.name) p.2.members (sortByName (·.name) p.2.members) ∧
        MembersWritten cfg a.model anchors p) ∧
      List.Forall₂ (fun q d => OmissionReport a.model q.1 q.2 d)
        ((definedStructs a.model anchors).flatMap fun p =>
          (omittedMembers cfg a.model p.2).map (p.2, ·))
        (g.diagnostics.filter (·.kind = .unrenderableMember)) := by
  obtain ⟨haccepts, -, rfl⟩ := analyze_eq_ok.mp h
  have hp := Draft.portrays_finishedModel haccepts
  obtain ⟨anchors, root, hanchors, hroot, hxml, hdiagnostics⟩ := generate_eq_ok hg
  refine ⟨anchors, root, hanchors, hroot, hxml, fun p hstruct hne => ?_, ?_⟩
  · exact ⟨membersDeclared hp hstruct, orderedBy_sortByName _,
      membersWritten hp.indexed (mem_definedStructs.mpr ⟨hstruct, hne⟩)⟩
  · rw [hdiagnostics]
    exact forall₂_omissionReport hp anchors

/-- A struct with members of one name, members that only an override or nothing gives a type, and a
list among the XML attributes. -/
def statisticDeclarations : List Declaration := [
  .type { name := "Statistic", space := "types", body := .struct (.class "Identified") [
    { name := "values", type := { name := "Value", isArray := true } },
    { name := "host", type := { name := "Statistic" }, kind := .link },
    { name := "host", type := { name := "String" } },
    { name := "kind", type := { name := "Kind" } },
    { name := "id", type := { name := "String", isArray := true } },
    { name := "href", type := { name := "String" } },
    { name := "tags", type := { name := "String", isArray := true }, kind := .link }] },
  .type { name := "Identified", space := "types", body := .struct .none [] },
  .type { name := "Api", space := "types", body := .struct .none [] }]

/-- The lines of the struct of `statisticDeclarations` in the schema. -/
def statisticLines : List String := [
  "<xs:element name=\"statistic\" type=\"Statistic\"/>",
  "<xs:complexType name=\"Statistic\">",
  "  <xs:complexContent>",
  "    <xs:extension base=\"BaseResource\">",
  "      <xs:sequence>",
  "        <xs:element name=\"host\" type=\"xs:string\" minOccurs=\"0\" maxOccurs=\"1\"/>",
  "        <xs:element name=\"host\" type=\"Statistic\" minOccurs=\"0\" maxOccurs=\"1\"/>",
  "        <xs:element name=\"kind\" type=\"StatisticKind\" minOccurs=\"0\" maxOccurs=\"1\"/>",
  "        <xs:element name=\"tags\" minOccurs=\"0\" maxOccurs=\"1\">",
  "          <xs:complexType>",
  "            <xs:annotation>",
  "              <xs:appinfo>",
  "                <jaxb:class name=\"TagsList\"/>",
  "              </xs:appinfo>",
  "            </xs:annotation>",
  "            <xs:sequence>",
  "              <xs:element name=\"tag\" type=\"xs:string\" minOccurs=\"0\" maxOccurs=\"unbounded\">",
  "                <xs:annotation>",
  "                  <xs:appinfo>",
  "                    <jaxb:property name=\"Tags\"/>",
  "                  </xs:appinfo>",
  "                </xs:annotation>",
  "              </xs:element>",
  "            </xs:sequence>",
  "          </xs:complexType>",
  "        </xs:element>",
  "      </xs:sequence>",
  "      <xs:attribute name=\"href\" type=\"xs:string\"/>",
  "    </xs:extension>",
  "  </xs:complexContent>",
  "</xs:complexType>"]

/-- The `overrides` give one of the members of that struct a type. -/
def statisticConfig : Config where
  overrides := .ofRows [(Name.ofCase "Statistic", Name.ofCase "kind", "StatisticKind")]

theorem members_written_or_reported_statistic : ∃ a g anchors p,
    analyze statisticDeclarations = .ok a ∧ generate statisticConfig a.model "<schema/>" = .ok g ∧
    findAnchors statisticConfig a.model = .ok anchors ∧ p ∈ a.model.structs ∧
    p.1 ≠ anchors.identified ∧ MembersWritten statisticConfig a.model anchors p ∧
    HasLines g.xml.toList statisticLines ∧
    (renderedMembers statisticConfig a.model p.2 false).map (fun x => (x.name.display, x.kind)) =
      [("host", .attribute), ("host", .link), ("kind", .attribute), ("tags", .link)] ∧
    (renderedMembers statisticConfig a.model p.2 true).map (·.name.display) = ["href"] ∧
    (omittedMembers statisticConfig a.model p.2).map (·.name.display) = ["values", "id"] ∧
    g.diagnostics.filter (·.kind = .unrenderableMember) = [
      ⟨.error, .unrenderableMember,
        "member 'values' of type 'statistic' has list type 'value', skipping it"⟩,
      ⟨.error, .unrenderableMember,
        "member 'id' of type 'statistic' has list type 'string', skipping it"⟩] := by
  obtain ⟨a, anchors, id, s, g, ha, hanchors, hdefined, -, hg, hlines, htest⟩ :=
    exists_definedStruct statisticConfig statisticDeclarations (Name.ofCase "Statistic")
      [statisticLines]
      (by repeat' constructor)
      (fun m s _ diagnostics =>
        (renderedMembers statisticConfig m s false).map (fun x => (x.name.display, x.kind)) =
            [("host", .attribute), ("host", .link), ("kind", .attribute), ("tags", .link)] ∧
          (renderedMembers statisticConfig m s true).map (·.name.display) = ["href"] ∧
          (omittedMembers statisticConfig m s).map (·.name.display) = ["values", "id"] ∧
          diagnostics.filter (·.kind = .unrenderableMember) = [
            ⟨.error, .unrenderableMember,
              "member 'values' of type 'statistic' has list type 'value', skipping it"⟩,
            ⟨.error, .unrenderableMember,
              "member 'id' of type 'statistic' has list type 'string', skipping it"⟩])
      (by decide +kernel)
  obtain ⟨hstruct, hne⟩ := mem_definedStructs.mp hdefined
  obtain ⟨anchors', -, hanchors', -, -, hall, -⟩ := members_written_or_reported ha hg
  obtain rfl := Except.ok.inj (hanchors.symm.trans hanchors')
  exact ⟨a, g, anchors, (id, s), ha, hg, hanchors, hstruct, hne, (hall (id, s) hstruct hne).2.2,
    hlines _ (List.mem_singleton_self _), of_decide_eq_true htest⟩

end Schema

end ApiModel
