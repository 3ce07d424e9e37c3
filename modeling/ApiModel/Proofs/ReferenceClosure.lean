import ApiModel.Proofs.SchemaOrder
import ApiModel.Proofs.StructTags

/-!
# References in a schema

The entries of a struct in the schema name types. Where such a name is neither
taken from the table of overrides nor that of a primitive, it stands for a type
of the model, and the schema defines it: the complex type of a struct, the simple
type of an enumeration, or the type for collections of a struct.

There are two exceptions, both about types that the layout passes over. The
identified type has no definitions, and there are structs without collections,
but members may refer to either as to any other type. What is written then names
nothing that is made for that type.
-/

namespace ApiModel.Schema

/-! ## Types of entries -/

/-- The type of the values of a member with the type `id`: of a list, that of its elements. -/
def valueType (m : Model) (id : TypeId) : TypeId :=
  ((m.type? id).bind DataType.element?).getD id

/-- Where the `type` comes from that is named for the member `x`. -/
inductive Grounded (cfg : Config) (m : Model) (anchors : Anchors) (owner : StructType) (x : Member)
    (type : String) : Prop where
  | override (row : cfg.overrides.get? owner.name x.name = some type)
  | primitive {k : PrimitiveKind} (values : m.type? (valueType m x.type) = some (.primitive k))
      (builtin : type = cfg.naming.primitive k)
  | enum {e : EnumType} (values : m.type? (valueType m x.type) = some (.enum e))
      (defined : ∃ base facets,
        (definitionsFrom cfg m anchors (.enum (valueType m x.type))).map Definition.tags =
          [[.start "xs:simpleType" [("name", type)], .start "xs:restriction" [("base", base)]] ++
            facets ++ [.stop "xs:restriction", .stop "xs:simpleType"]])
  | struct {s : StructType} (value : m.type? x.type = some (.struct s))
      (defined : x.type ≠ anchors.identified → ∃ tag base entries attributes,
        (definitionsFrom cfg m anchors (.struct x.type)).map Definition.tags =
          [[.empty "xs:element" [("name", tag), ("type", type)]],
            complexTypeTags type base entries attributes])
  | collection {n : Name} {element : TypeId} {s : StructType}
      (list : m.type? x.type = some (.list n element)) (values : m.type? element = some (.struct s))
      (defined : element ≠ anchors.identified → cfg.withoutCollection.contains s.name = false →
        ∃ tag base entries attributes,
          (definitionsFrom cfg m anchors (.collection element)).map Definition.tags =
            [[.empty "xs:element" [("name", tag), ("type", type)]],
              complexTypeTags type base entries attributes])

section Grounded

variable {cfg : Config} {m : Model} {anchors : Anchors} {ds : List Declaration} {id : TypeId}
  {s : StructType} {x : Member} {type : String}

theorem valueType_of_element? (h : (m.type? id).bind DataType.element? = none) :
    valueType m id = id := by
  rw [valueType, h]
  rfl

theorem valueType_of_list {n : Name} {element : TypeId} (h : m.type? id = some (.list n element)) :
    valueType m id = element := by
  rw [valueType, h]
  rfl

variable (hp : m.Portrays ds) (hs : (id, s) ∈ m.structs) (hx : x ∈ s.members)

include hp hs hx

/-- The `valueType` of a member is what some name leads to. -/
theorem resolves_valueType : ∃ n, m.Resolves n (valueType m x.type) := by
  obtain ⟨⟨n, isArray⟩, ht⟩ := hp.resolves_member hs hx
  cases isArray with
  | false =>
    obtain ⟨t, htype, -, hlist⟩ := hp.indexed.name_of_typeNamed (Model.Resolves.typeNamed ht)
    refine ⟨n, ?_⟩
    rw [valueType_of_element?]
    · exact ht
    · rw [htype]
      cases t with
      | list n' e => exact absurd rfl (hlist n' e)
      | _ => rfl
  | true =>
    obtain ⟨-, e, hlist, he⟩ := ht
    exact ⟨n, by rw [valueType_of_list hlist]; exact he⟩

/-- A name from the table, of a primitive or of an enumeration is `Grounded`; what is left are
structs. -/
theorem grounded_or_struct (h : memberTypeName? cfg m s x (valueType m x.type) = some type) :
    Grounded cfg m anchors s x type ∨
      ∃ s', m.type? (valueType m x.type) = some (.struct s') ∧ type = cfg.naming.type s'.name := by
  rcases Option.or_eq_some_iff.mp h with hrow | ⟨-, hname⟩
  · exact .inl (.override hrow)
  unfold typeName? at hname
  split at hname
  · rename_i k hk
    exact .inl (.primitive hk (Option.some.inj hname).symm)
  · rename_i s' hs'
    exact .inr ⟨s', hs', (Option.some.inj hname).symm⟩
  · rename_i e he
    obtain rfl := Option.some.inj hname
    obtain ⟨n, hn⟩ := resolves_valueType hp hs hx
    have htags : (definitionsFrom cfg m anchors (.enum (valueType m x.type))).map Definition.tags =
        [(enumType cfg e).tags] := by
      rw [definitionsFrom_enum hp.indexed (hn.mem_enums he), List.map_singleton]
    rw [enumType, tags_simpleType] at htags
    exact .inl (.enum he ⟨_, _, htags⟩)
  · cases hname

/-- A member `x` that isn't a list. -/
theorem grounded_value (hsingle : (m.type? x.type).bind DataType.element? = none)
    (h : memberTypeName? cfg m s x x.type = some type) : Grounded cfg m anchors s x type := by
  have hvalue := valueType_of_element? hsingle
  rw [← hvalue] at h
  rcases grounded_or_struct hp hs hx h with hg | ⟨s', hs', rfl⟩
  · exact hg
  · obtain ⟨n, hn⟩ := resolves_valueType hp hs hx
    rw [hvalue] at hn hs'
    refine .struct hs' fun hne => ?_
    exact ⟨_, _, _, _, map_tags_struct hp.indexed
      (mem_definedStructs.mpr ⟨hn.mem_structs hs', hne⟩)⟩

/-- A list of structs `s'` has the type for their collections. -/
theorem grounded_collection {n : Name} {element : TypeId} {s' : StructType}
    (hlist : m.type? x.type = some (.list n element)) (hs' : m.struct? element = some s') :
    Grounded cfg m anchors s x (cfg.naming.type (cfg.pluralizer.plural s'.name)) := by
  have hstruct := Model.struct?_eq_some.mp hs'
  refine .collection hlist hstruct fun hne hcollection => ?_
  obtain ⟨n', hn⟩ := resolves_valueType hp hs hx
  rw [valueType_of_list hlist] at hn
  have htags : (definitionsFrom cfg m anchors (.collection element)).map Definition.tags = _ :=
    map_tags_collection hp.indexed (mem_definedStructs.mpr ⟨hn.mem_structs hstruct, hne⟩)
  rw [hcollection, if_neg Bool.false_ne_true] at htags
  exact ⟨_, _, _, _, htags⟩

theorem EntryType.grounded (h : EntryType cfg m s x type) : Grounded cfg m anchors s x type := by
  cases h with
  | value hsingle hname => exact grounded_value hp hs hx hsingle hname
  | structs hlist hs' hplural => exact hplural ▸ grounded_collection hp hs hx hlist hs'
  | values hlist hothers hname =>
    have hvalue := valueType_of_list hlist
    rw [← hvalue] at hname hothers
    refine (grounded_or_struct hp hs hx hname).resolve_right ?_
    rintro ⟨s', hs', -⟩
    cases hothers.symm.trans (Model.struct?_eq_some.mpr hs')

/-- The member `x` as an XML attribute. If it is a list, its type is from the table. -/
theorem grounded_attribute (h : memberTypeName? cfg m s x x.type = some type) :
    Grounded cfg m anchors s x type := by
  rcases helement : (m.type? x.type).bind DataType.element? with _ | element
  · exact grounded_value hp hs hx helement h
  · rcases Option.or_eq_some_iff.mp h with hrow | ⟨-, hname⟩
    · exact .override hrow
    · obtain ⟨t, ht, he⟩ := Option.bind_eq_some_iff.mp helement
      cases t with
      | list n element' => rw [typeName?, ht] at hname; cases hname
      | primitive | struct | enum | undefined => cases he

end Grounded

/-! ## Whole schemas -/

/-- All types that the definitions of the struct `p` name for its members are `Grounded`. -/
def EntriesGrounded (cfg : Config) (m : Model) (anchors : Anchors) (p : TypeId × StructType) : Prop :=
  ∃ base entries attributes, (definitionsFrom cfg m anchors (.struct p.1)).map Definition.tags =
      structTags cfg p.2 base entries attributes ∧
    List.Forall₂ (fun (x : Member) tags => ∃ type,
        ElementEntry (cfg.naming.tag x.name) type tags ∧ Grounded cfg m anchors p.2 x type)
      (renderedMembers cfg m p.2 false) entries ∧
    List.Forall₂ (fun (x : Member) t => ∃ type,
        t = .empty "xs:attribute" [("name", cfg.naming.tag x.name), ("type", type)] ∧
          Grounded cfg m anchors p.2 x type)
      (renderedMembers cfg m p.2 true) attributes

theorem entriesGrounded {cfg : Config} {m : Model} {anchors : Anchors} {ds : List Declaration}
    (hp : m.Portrays ds) {p : TypeId × StructType} (h : p ∈ definedStructs m anchors) :
    EntriesGrounded cfg m anchors p := by
  have hs := (mem_definedStructs.mp h).1
  exact ⟨_, _, _, map_tags_struct hp.indexed h,
    forall₂_entries cfg m p.2 fun _ hx _ _ htype => htype.grounded hp hs hx,
    forall₂_attributes cfg m p.2 fun _ hx _ _ hname => grounded_attribute hp hs hx hname⟩

/-- In a compiled schema, every type named for a member is `Grounded`: it is from the table of
overrides, is that of a primitive, or is defined in the schema for the very type of the member;
except that nothing is said of references to the identified type and of lists of structs without
collections. Names and types are those in the tags of the schema. -/
theorem member_types_grounded {ds : List Declaration} {base : String} {c : Compilation}
    (h : compile ds base = .ok c) : ∃ anchors root, findAnchors {} c.model = .ok anchors ∧
      locateRoot base.toList = .ok root ∧
      c.schema = String.ofList (root.splice base.toList
        (Xml.Tag.renderChars ((sourced {} c.model anchors).flatMap (·.2.tags)))) ∧
      (sourced {} c.model anchors).map (·.2) = definitions {} c.model anchors ∧
      ∀ p ∈ definedStructs c.model anchors, EntriesGrounded {} c.model anchors p := by
  obtain ⟨a, g, ha, hg, rfl⟩ := compile_eq_ok.mp h
  obtain ⟨anchors, root, hanchors, hroot, hxml, -⟩ := generate_eq_ok hg
  obtain ⟨haccepts, -, rfl⟩ := analyze_eq_ok.mp ha
  exact ⟨anchors, root, hanchors, hroot, hxml, map_snd_sourced {} _ anchors,
    fun p hmem => entriesGrounded (Draft.portrays_finishedModel haccepts) hmem⟩

/-- Lines of the schema of `catalogDeclarations` that name the types of two members, and lines that
define these types. -/
def catalogLines : List (List String) := [
  ["        <xs:element name=\"copies\" type=\"Disks\" minOccurs=\"0\" maxOccurs=\"1\"/>",
    "        <xs:element name=\"format\" type=\"DiskFormat\" minOccurs=\"0\" maxOccurs=\"1\"/>"],
  ["<xs:complexType name=\"Disks\">"],
  ["<xs:simpleType name=\"DiskFormat\">"]]

theorem member_types_grounded_catalog : ∃ c anchors p,
    compile catalogDeclarations "<schema/>" = .ok c ∧ findAnchors {} c.model = .ok anchors ∧
    c.model.findType? (Name.ofCase "Disk") = some p.1 ∧ p ∈ definedStructs c.model anchors ∧
    EntriesGrounded {} c.model anchors p ∧
    ∀ lines ∈ catalogLines, HasLines c.schema.toList lines := by
  obtain ⟨a, anchors, id, s, g, ha, hanchors, hdefined, hid, hg, hlines, -⟩ :=
    exists_definedStruct {} catalogDeclarations (Name.ofCase "Disk") catalogLines
      (by repeat' constructor) (fun _ _ _ _ => true) (by decide +kernel)
  have hc : compile catalogDeclarations "<schema/>" = .ok _ :=
    compile_eq_ok.mpr ⟨a, g, ha, hg, rfl⟩
  obtain ⟨anchors', -, hanchors', -, -, -, hall⟩ := member_types_grounded hc
  obtain rfl := Except.ok.inj (hanchors.symm.trans hanchors')
  exact ⟨_, anchors, (id, s), hc, hanchors, hid, hdefined, hall _ hdefined, hlines⟩

/-! ## Where references lead nowhere -/

def Definition.name : Definition → String
  | element name _ => name
  | complexType name _ _ _ => name
  | simpleType name _ _ => name
  | group name _ => name

/-- A struct with members of the identified type and of a type that has no collection. -/
def jobDeclarations : List Declaration := [
  .type { name := "Identified", space := "types", body := .struct .none [] },
  .type { name := "Api", space := "types", body := .struct .none [] },
  .type { name := "Action", space := "types", body := .struct .none [] },
  .type { name := "Job", space := "types", body := .struct (.class "Identified") [
    { name := "owner", type := { name := "Identified" }, kind := .link },
    { name := "parts", type := { name := "Identified", isArray := true } },
    { name := "steps", type := { name := "Action", isArray := true } }] }]

/-- The members of the identified type name types that the schema of `jobDeclarations` doesn't
define, and the list of actions names a type that isn't made for them. -/
theorem member_types_undefined : ∃ c anchors id,
    compile jobDeclarations "<schema/>" = .ok c ∧ findAnchors {} c.model = .ok anchors ∧
    c.model.findType? (Name.ofCase "Job") = some id ∧
    definitionsFrom {} c.model anchors (.struct id) = [.element "job" "Job",
      .complexType "Job" (some "BaseResource") [.element "owner" "Identified" .optional,
        .element "parts" "Identifieds" .optional, .element "steps" "Actions" .optional] []] ∧
    (∀ member ∈ ["owner", "parts", "steps"],
      standardOverrides.get? (Name.ofCase "Job") (Name.ofCase member) = none) ∧
    (∀ k, SchemaNaming.builtinType k ∉ ["Identified", "Identifieds", "Actions"]) ∧
    (∀ d ∈ definitions {} c.model anchors, d.name ≠ "Identified" ∧ d.name ≠ "Identifieds") ∧
    ∀ x ∈ sourced {} c.model anchors, x.2.name = "Actions" → x.1 = .actions := by
  have hsome : ((compile jobDeclarations "<schema/>").toOption.bind fun c =>
      (findAnchors {} c.model).toOption.bind fun anchors =>
        (c.model.findType? (Name.ofCase "Job")).map fun id => decide (
          definitionsFrom {} c.model anchors (.struct id) = [.element "job" "Job",
            .complexType "Job" (some "BaseResource") [.element "owner" "Identified" .optional,
              .element "parts" "Identifieds" .optional, .element "steps" "Actions" .optional] []] ∧
          (∀ member ∈ ["owner", "parts", "steps"],
            standardOverrides.get? (Name.ofCase "Job") (Name.ofCase member) = none) ∧
          (∀ d ∈ definitions {} c.model anchors, d.name ≠ "Identified" ∧ d.name ≠ "Identifieds") ∧
          ∀ x ∈ sourced {} c.model anchors, x.2.name = "Actions" → x.1 = .actions)) = some true := by
    decide +kernel
  obtain ⟨c, hc, hsome⟩ := Option.bind_eq_some_iff.mp hsome
  obtain ⟨anchors, hanchors, hsome⟩ := Option.bind_eq_some_iff.mp hsome
  obtain ⟨id, hid, hdefinitions⟩ := Option.map_eq_some_iff.mp hsome
  obtain ⟨hjob, hrows, hnames, hactions⟩ := of_decide_eq_true hdefinitions
  refine ⟨c, anchors, id, eq_ok_of_toOption hc, eq_ok_of_toOption hanchors, hid, hjob, hrows, ?_,
    hnames, hactions⟩
  intro k
  cases k <;> decide

end ApiModel.Schema
