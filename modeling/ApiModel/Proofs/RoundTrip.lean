import ApiModel.Proofs.BaseDocument
import ApiModel.Proofs.Rendering

/-!
# Reading a schema back

A schema that is generated without a base document is read back as what was
written: the root, and in it the tags of all definitions in order, each with the
attributes it was given. Names of the model, of whatever characters, only ever
get into values of attributes. The names of tags and the keys of attributes are
fixed and legible, and every definition closes the elements it opens.
-/

namespace ApiModel

namespace Xml

/-! ## Elements that are closed -/

/-- Each `start` tag has a `stop` tag of the same name, and elements don't overlap. -/
inductive Paired : List Tag → Prop
  | nil : Paired []
  | empty {ts} (name : String) (attributes : List (String × String)) (after : Paired ts) :
      Paired (.empty name attributes :: ts)
  | element {ts ts'} (name : String) (attributes : List (String × String)) (inside : Paired ts)
      (after : Paired ts') : Paired (.start name attributes :: ts ++ .stop name :: ts')

variable {ts ts' : List Tag}

theorem Paired.append (h : Paired ts) (h' : Paired ts') : Paired (ts ++ ts') := by
  induction h with
  | nil => exact h'
  | empty name attributes _ ih => exact .empty name attributes ih
  | element name attributes inside _ _ ih =>
    rw [List.append_assoc]
    exact .element name attributes inside ih

theorem nest_stop (name : String) (opened : List (List Char)) :
    nest (name.toList :: opened) (Tag.stop name).event = .ok opened :=
  if_pos rfl

/-- `Paired` tags are read without a fault, wherever they stand. -/
theorem Paired.nest (h : Paired ts) (opened : List (List Char)) :
    (ts.map Tag.event).foldlM nest opened = .ok opened := by
  induction h generalizing opened with
  | nil => rfl
  | empty name attributes _ ih => exact ih opened
  | @element ts ts' name attributes _ _ ih ih' =>
    calc ((.start name attributes :: ts ++ .stop name :: ts').map Tag.event).foldlM Xml.nest opened
      _ = (ts.map Tag.event ++ (Tag.stop name).event :: ts'.map Tag.event).foldlM Xml.nest
          (name.toList :: opened) := by
        rw [List.cons_append, List.map_cons, List.map_append, List.map_cons]
        rfl
      _ = (ts'.map Tag.event).foldlM Xml.nest opened := by
        rw [List.foldlM_append, ih]
        show ((Tag.stop name).event :: ts'.map Tag.event).foldlM Xml.nest _ = _
        rw [List.foldlM_cons, nest_stop]
        rfl
      _ = .ok opened := ih' opened

/-! ## Well-formed sequences of tags -/

/-- The tags `ts` can be written as they are, and elements are closed. -/
structure WellFormed (ts : List Tag) : Prop where
  legible : ∀ t ∈ ts, t.isLegible = true
  paired : Paired ts

/-- A `name` and `keys` that can be written as they are, and no key twice. -/
def legibleNames (name : String) (keys : List String) : Bool :=
  isLegible name && keys.all isLegible && keys.Nodup

theorem Tag.isLegible_of_names {t : Tag} {keys : List String}
    (hkeys : t.attributes.map (·.1) = keys) (h : legibleNames t.name keys = true) :
    t.isLegible = true := by
  subst hkeys
  simpa [legibleNames, Tag.isLegible, List.all_map, Function.comp_def] using h

namespace WellFormed

theorem append (h : WellFormed ts) (h' : WellFormed ts') : WellFormed (ts ++ ts') :=
  ⟨List.forall_mem_append.mpr ⟨h.legible, h'.legible⟩, h.paired.append h'.paired⟩

theorem flatMap {α : Type} {as : List α} {f : α → List Tag} (h : ∀ a ∈ as, WellFormed (f a)) :
    WellFormed (as.flatMap f) := by
  induction as with
  | nil => exact ⟨by simp, .nil⟩
  | cons a as ih =>
    obtain ⟨ha, has⟩ := List.forall_mem_cons.mp h
    rw [List.flatMap_cons]
    exact ha.append (ih has)

variable {name : String} {attributes : List (String × String)}

theorem empty (keys : List String) (hkeys : attributes.map (·.1) = keys)
    (h : legibleNames name keys = true) : WellFormed [.empty name attributes] := by
  have htag : (Tag.empty name attributes).isLegible = true := Tag.isLegible_of_names hkeys h
  exact ⟨List.forall_mem_singleton.mpr htag, .empty name attributes .nil⟩

theorem enclose (keys : List String) (hkeys : attributes.map (·.1) = keys)
    (h : legibleNames name keys = true) (hts : WellFormed ts) :
    WellFormed (Schema.enclose name attributes ts) := by
  have hstart : (Tag.start name attributes).isLegible = true := Tag.isLegible_of_names hkeys h
  have hstop : (Tag.stop name).isLegible = true := by
    simpa [Tag.isLegible, Tag.name, Tag.attributes] using (Tag.isLegible_eq.mp hstart).1
  refine ⟨?_, .element name attributes hts.paired .nil⟩
  rw [Schema.enclose, List.cons_append, List.forall_mem_cons, List.forall_mem_append,
    List.forall_mem_singleton]
  exact ⟨hstart, hts.legible, hstop⟩

end WellFormed

/-! ## What a reader sees -/

/-- The text `chars` of attributes holds the given keys and, once unescaped, the given values. -/
def ShowsAttributes (chars : List Char) (attributes : List (String × String)) : Prop :=
  (Xml.attributes chars).map (fun a => (a.1, unescape a.2)) =
    attributes.map fun a => (a.1.toList, some a.2.toList)

/-- The event is a tag of the same kind, with the same name and the same attributes. -/
def Event.Shows : Event → Tag → Prop
  | .start name chars, .start name' attributes =>
    name = name'.toList ∧ ShowsAttributes chars attributes
  | .empty name chars, .empty name' attributes =>
    name = name'.toList ∧ ShowsAttributes chars attributes
  | .stop name, .stop name' => name = name'.toList
  | _, _ => False

theorem Tag.shows_event {t : Tag} (h : t.isLegible = true) : t.event.Shows t := by
  obtain ⟨-, hkeys, hnodup⟩ := Tag.isLegible_eq.mp h
  have hshows : ShowsAttributes (attributesChars t.attributes) t.attributes := by
    rw [ShowsAttributes, attributes_attributesChars hkeys hnodup, List.map_map]
    refine List.map_congr_left fun a _ => ?_
    rw [Function.comp_apply, unescape_flatMap]
  cases t with
  | start | empty => exact ⟨rfl, hshows⟩
  | stop => rfl

/-- A `text` that is read as an XML `declaration` and the given `tags`, with nothing but spaces
between them. -/
structure ReadAs (text declaration : List Char) (tags : List Tag) : Prop where
  complete : (outline text).fault = none
  declaration : (outline text).events.head?.map (·.event) = some (.instruction declaration)
  tags : List.Forall₂ Event.Shows
    (((outline text).events.map (·.event)).filter Event.isTag) tags
  blank : ∀ e ∈ (outline text).events.tail, e.event.isTag = false → e.event.IsBlank

/-- Only tags open or close elements, see `Event.isTag`. -/
theorem foldlM_nest_filter (es : List Event) (opened : List (List Char)) :
    (es.filter Event.isTag).foldlM nest opened = es.foldlM nest opened := by
  induction es generalizing opened with
  | nil => rfl
  | cons e es ih =>
    rcases htag : e.isTag with _ | _
    · have hnest : nest opened e = .ok opened := by
        cases e with
        | start | empty | stop => cases htag
        | _ => rfl
      rw [List.filter_cons_of_neg (by simp [htag]), ih, List.foldlM_cons, hnest]
      rfl
    · rw [List.filter_cons_of_pos htag, List.foldlM_cons, List.foldlM_cons]
      exact bind_congr ih

end Xml

namespace Schema

open Xml

/-! ## Definitions -/

theorem wellFormed_binding (kind name : String) (h : isLegible ("jaxb:" ++ kind) = true) :
    WellFormed (binding kind name) := by
  have hname : legibleNames ("jaxb:" ++ kind) ["name"] = true := by
    rw [legibleNames, h]
    decide
  exact .enclose [] rfl (by decide) (.enclose [] rfl (by decide) (.empty ["name"] rfl hname))

theorem wellFormed_particle (p : Particle) : WellFormed p.tags := by
  cases p with
  | element name type occurs =>
    refine .empty ["name", "type", "minOccurs", "maxOccurs"] ?_ (by decide)
    cases occurs <;> rfl
  | reference name property =>
    exact .enclose ["ref", "minOccurs", "maxOccurs"] rfl (by decide)
      (wellFormed_binding "property" property (by decide))
  | wrapper name listClass child childType property =>
    have hchild : WellFormed (Schema.enclose "xs:element"
        ([("name", child), ("type", childType)] ++ Occurs.any.attributes)
        (binding "property" property)) :=
      .enclose ["name", "type", "minOccurs", "maxOccurs"] rfl (by decide)
        (wellFormed_binding "property" property (by decide))
    exact .enclose ["name", "minOccurs", "maxOccurs"] rfl (by decide)
      (.enclose [] rfl (by decide) (.append (wellFormed_binding "class" listClass (by decide))
        (.enclose [] rfl (by decide) hchild)))

theorem wellFormed_facet (f : Facet) : WellFormed f.tags :=
  .enclose ["value"] rfl (by decide) (wellFormed_binding "property" f.property (by decide))

theorem wellFormed_attribute (a : AttributeUse) : WellFormed [a.tag] :=
  .empty ["name", "type"] rfl (by decide)

theorem wellFormed_sequence (sequence : List Particle) : WellFormed (sequenceTags sequence) :=
  .enclose [] rfl (by decide) (.flatMap fun p _ => wellFormed_particle p)

theorem wellFormed_extend (base : Option String) {content : List Tag} (h : WellFormed content) :
    WellFormed (extend base content) := by
  cases base with
  | none => exact h
  | some base =>
    exact .enclose [] rfl (by decide) (.enclose ["base"] rfl (by decide) h)

theorem wellFormed_definition (d : Definition) : WellFormed d.tags := by
  cases d with
  | element name type => exact .empty ["name", "type"] rfl (by decide)
  | complexType name base sequence attributes =>
    have hattributes : WellFormed (attributes.map AttributeUse.tag) := by
      rw [List.map_eq_flatMap]
      exact .flatMap fun a _ => wellFormed_attribute a
    exact .enclose ["name"] rfl (by decide)
      (wellFormed_extend base ((wellFormed_sequence sequence).append hattributes))
  | simpleType name base facets =>
    exact .enclose ["name"] rfl (by decide)
      (.enclose ["base"] rfl (by decide) (.flatMap fun f _ => wellFormed_facet f))
  | group name sequence =>
    exact .enclose ["name"] rfl (by decide) (wellFormed_sequence sequence)

/-! ## The standalone document -/

/-- What the XML declaration of `defaultBase` says. -/
def declaration : List Char :=
  "xml version=\"1.0\" encoding=\"UTF-8\"".toList

def rootAttributes : List (String × String) := [
  ("xmlns:xs", "http://www.w3.org/2001/XMLSchema"),
  ("xmlns:jaxb", "http://java.sun.com/xml/ns/jaxb"),
  ("jaxb:version", "2.0"),
  ("version", "1.0")]

/-- A `declaration`, and the given `text` below. -/
def declared (text : List Char) : List Char :=
  '<' :: '?' :: declaration ++ '?' :: '>' :: text

theorem reads_declared (text : List Char) :
    Reads [] (declared text) [⟨.instruction declaration, text⟩] [] text :=
  .next rfl rfl .done

/-- The end of the last line. -/
theorem reads_newline : Reads [] ['\n'] [⟨.text ['\n'], []⟩] [] [] :=
  .next rfl rfl .done

theorem readText_declared (text : List Char) : readText (declared text) = declared text :=
  readText_eq_self (by simp [declared, byteOrderMark])

/-- The tag of the root of `defaultBase`, which has no content. -/
def emptyRoot : Tag :=
  .empty "xs:schema" rootAttributes

theorem wellFormed_emptyRoot : WellFormed [emptyRoot] :=
  .empty ["xmlns:xs", "xmlns:jaxb", "jaxb:version", "version"] rfl (by decide)

set_option maxRecDepth 4000 in
theorem toList_defaultBase : defaultBase.toList = declared ('\n' :: emptyRoot.chars ++ ['\n']) :=
  -- The literal is a list of characters, which is compared with the other side as it is.
  @String.toList_ofList (declared ('\n' :: emptyRoot.chars ++ ['\n']))

/-- The root of the document `defaultBase`. -/
def defaultRoot : EmptyElement where
  lead := declared ['\n']
  name := "xs:schema".toList
  attributes := attributesChars rootAttributes
  tail := ['\n']

theorem isRoot_defaultRoot : defaultRoot.IsRoot (outline defaultBase.toList) defaultBase.toList where
  chars := by
    rw [toList_defaultBase]
    simp [EmptyElement.opening, defaultRoot, declared, emptyRoot, Tag.chars]
  events := by
    have hroot := reads_line (wellFormed_emptyRoot.legible _ List.mem_cons_self)
      (show nest [] emptyRoot.event = .ok [] from rfl) 0 ['\n']
    have hreads := (reads_declared _).append (hroot.append reads_newline)
    have houtline := outline_eq_iff.mpr ⟨[], hreads⟩
    rw [toList_defaultBase]
    exact ⟨[_, _], [_], houtline, by simp [Event.isTag]⟩

theorem missingNamespaces_rootAttributes :
    missingNamespaces (attributesChars rootAttributes) = [] := by
  have hlegible := wellFormed_emptyRoot.legible _ List.mem_cons_self
  obtain ⟨-, hkeys, hnodup⟩ := Tag.isLegible_eq.mp hlegible
  have hattributes := attributes_attributesChars hkeys hnodup
  simp only [emptyRoot, Tag.attributes] at hattributes
  simp only [missingNamespaces, hattributes]
  decide

/-! ## Its content -/

def rootStart : Tag :=
  .start "xs:schema" rootAttributes

def rootStop : Tag :=
  .stop "xs:schema"

/-- The root with the given `tags` in it. -/
def standaloneRoot (tags : List Tag) : OpenElement where
  lead := declared ['\n']
  name := "xs:schema".toList
  attributes := attributesChars rootAttributes
  content := Tag.linesFrom 0 tags ++ ['\n']
  space := []
  tail := ['\n']

/-- The document with the given `tags` in its root. -/
def standaloneChars (tags : List Tag) : List Char :=
  declared ('\n' :: rootStart.chars ++ (standaloneRoot tags).body)

variable {tags : List Tag}

theorem body_standaloneRoot (tags : List Tag) : (standaloneRoot tags).body =
    Tag.linesFrom 0 tags ++ ('\n' :: rootStop.chars ++ ['\n']) := by
  simp [OpenElement.body, standaloneRoot, endMark, rootStop, Tag.chars]

theorem missing_standaloneRoot (tags : List Tag) : (standaloneRoot tags).span.missing = [] := by
  rw [OpenElement.span, standaloneRoot, missingNamespaces_rootAttributes]

theorem wellFormed_root (h : WellFormed tags) :
    WellFormed (enclose "xs:schema" rootAttributes tags) :=
  .enclose ["xmlns:xs", "xmlns:jaxb", "jaxb:version", "version"] rfl (by decide) h

/-- The events of `standaloneChars`, where those `inside` the root are the given ones and a last
line. -/
def standaloneEvents (tags : List Tag) (inside : List Located) : List Located :=
  ⟨.instruction declaration, '\n' :: rootStart.chars ++ (standaloneRoot tags).body⟩ ::
    (lineEvents 0 rootStart (standaloneRoot tags).body ++
      (inside ++ (lineEvents 0 rootStop ['\n'] ++ [⟨.text ['\n'], []⟩])))

theorem outline_standaloneChars (h : WellFormed tags) : ∃ inside, Renders inside tags ∧
    outline (standaloneChars tags) = ⟨standaloneEvents tags inside, none⟩ := by
  have hroot := (wellFormed_root h).legible
  have hstart := reads_line (hroot rootStart List.mem_cons_self)
    (show nest [] rootStart.event = .ok ["xs:schema".toList] from rfl) 0 (standaloneRoot tags).body
  have hstop := reads_line (hroot rootStop (by simp [enclose, rootStop]))
    (nest_stop "xs:schema" []) 0 ['\n']
  obtain ⟨inside, hrenders, hinside⟩ := reads_linesFrom h.legible
    (h.paired.nest ["xs:schema".toList]) 0 ('\n' :: rootStop.chars ++ ['\n'])
  rw [← body_standaloneRoot] at hinside
  exact ⟨inside, hrenders, outline_eq_iff.mpr ⟨[], (reads_declared _).append
    (hstart.append (hinside.append (hstop.append reads_newline)))⟩⟩

theorem readAs_standaloneChars (h : WellFormed tags) :
    ReadAs (standaloneChars tags) declaration (enclose "xs:schema" rootAttributes tags) := by
  obtain ⟨inside, hinside, houtline⟩ := outline_standaloneChars h
  have hend : Renders [⟨.text ['\n'], []⟩] [] := by
    refine ⟨rfl, fun e he _ => ?_⟩
    rw [List.mem_singleton.mp he]
    exact ⟨['\n'], rfl, List.forall_mem_singleton.mpr rfl⟩
  have hrenders := (renders_line 0 rootStart (standaloneRoot tags).body).append
    (hinside.append ((renders_line 0 rootStop ['\n']).append hend))
  constructor
  · rw [houtline]
  · rw [houtline]
    rfl
  · rw [houtline, standaloneEvents, List.map_cons, List.filter_cons_of_neg (by simp [Event.isTag]),
      hrenders.tags, List.forall₂_map_left_iff]
    exact List.forall₂_same.mpr fun t ht => Tag.shows_event ((wellFormed_root h).legible t ht)
  · rw [houtline]
    exact hrenders.blank

theorem isRoot_standaloneRoot (h : WellFormed tags) :
    (standaloneRoot tags).IsRoot (outline (standaloneChars tags)) (standaloneChars tags) where
  chars := by
    simp [standaloneChars, OpenElement.opening, standaloneRoot, declared, rootStart, Tag.chars]
  space := by simp [standaloneRoot]
  events := by
    obtain ⟨inside, hinside, houtline⟩ := outline_standaloneChars h
    let x := standaloneRoot tags
    let lastLine : Located := ⟨.text ['\n'], rootStop.chars ++ ['\n']⟩
    have hnest : ((inside ++ [lastLine]).map (·.event)).foldlM nest [] = .ok [] := by
      rw [← foldlM_nest_filter, List.map_append, List.filter_append, hinside.tags]
      simpa [lastLine, Event.isTag] using h.paired.nest []
    have hevents : standaloneEvents tags inside =
        [⟨.instruction declaration, '\n' :: rootStart.chars ++ x.body⟩,
          ⟨.text ['\n'], rootStart.chars ++ x.body⟩] ++ ⟨.start x.name x.attributes, x.body⟩ ::
          ((inside ++ [lastLine]) ++ ⟨.stop x.name, x.tail⟩ :: [⟨.text ['\n'], []⟩]) := by
      rw [List.append_assoc]
      rfl
    rw [hevents] at houtline
    exact ⟨_, _, _, houtline, by simp [Event.isTag], hnest⟩

variable {cfg : Config} {m : Model} {anchors : Anchors}

theorem generate_defaultBase (h : findAnchors cfg m = .ok anchors) :
    generate cfg m defaultBase = .ok ⟨String.ofList (standaloneChars
      ((definitions cfg m anchors).flatMap Definition.tags)), reports cfg m anchors⟩ := by
  have hbom : readText defaultBase.toList = defaultBase.toList := by
    rw [toList_defaultBase, readText_declared]
  have hnamespaces :
      namespaceDeclarations ((Xml.attributes (attributesChars rootAttributes)).map (·.1)) = [] := by
    rw [← missingNamespaces_chars, missingNamespaces_rootAttributes]
    rfl
  obtain ⟨t, ts, htags⟩ : ∃ t ts, (definitions cfg m anchors).flatMap Definition.tags = t :: ts :=
    ⟨_, _, rfl⟩
  have hlines : '\n' :: definitionChars cfg m anchors =
      Tag.linesFrom 0 ((definitions cfg m anchors).flatMap Definition.tags) := by
    rw [definitionChars, htags]
    cases t <;> rfl
  have hchars : defaultRoot.span.splice defaultBase.toList (definitionChars cfg m anchors) =
      standaloneChars ((definitions cfg m anchors).flatMap Definition.tags) := by
    rw [EmptyElement.splice_span isRoot_defaultRoot.chars, standaloneChars, body_standaloneRoot,
      ← hlines]
    simp [defaultRoot, hnamespaces, EmptyElement.opening, declared, rootStart, rootStop, Tag.chars]
  rw [generate_of_root h (isRoot_defaultRoot.locateRootBy_eq hbom), hchars]

/-- The tags of a schema without a base document: those of `definitions` inside the root. -/
def standaloneTags (cfg : Config) (m : Model) (anchors : Anchors) : List Tag :=
  enclose "xs:schema" rootAttributes ((definitions cfg m anchors).flatMap Definition.tags)

/-- A schema in `defaultBase` is read back as the tags that were written, and its root is found
again. -/
theorem standalone_schema_reads_back (cfg : Config) (m : Model) {anchors : Anchors}
    (h : findAnchors cfg m = .ok anchors) :
    ∃ g, generate cfg m defaultBase = .ok g ∧
      ReadAs g.xml.toList declaration (standaloneTags cfg m anchors) ∧
      Paired (standaloneTags cfg m anchors) ∧
      ∃ root, locateRoot g.xml.toList = .ok root ∧ root.name = "xs:schema".toList ∧
        root.missing = [] := by
  have htags : WellFormed ((definitions cfg m anchors).flatMap Definition.tags) :=
    .flatMap fun d _ => wellFormed_definition d
  refine ⟨_, generate_defaultBase h, ?_, (wellFormed_root htags).paired, ?_⟩
  · rw [String.toList_ofList]
    exact readAs_standaloneChars htags
  · rw [String.toList_ofList]
    exact ⟨_, (isRoot_standaloneRoot htags).locateRootBy_eq (readText_declared _), rfl,
      missing_standaloneRoot _⟩

/-- Names of types that look like tags, and a base that would end the schema. -/
def markupConfig : Config where
  naming := .dotted
  baseResource := "\"</xs:schema>&'"

theorem standalone_schema_reads_back_markup : ∃ a anchors g, analyze anchorDeclarations = .ok a ∧
    findAnchors markupConfig a.model = .ok anchors ∧
    .start "xs:extension" [("base", "\"</xs:schema>&'")] ∈
      standaloneTags markupConfig a.model anchors ∧
    .start "xs:complexType" [("name", "T<api>")] ∈ standaloneTags markupConfig a.model anchors ∧
    generate markupConfig a.model defaultBase = .ok g ∧
    ReadAs g.xml.toList declaration (standaloneTags markupConfig a.model anchors) := by
  have h : ((analyze anchorDeclarations).toOption.bind fun a =>
      (findAnchors markupConfig a.model).toOption.map fun anchors =>
        (decide (.start "xs:extension" [("base", "\"</xs:schema>&'")] ∈
          standaloneTags markupConfig a.model anchors),
        decide (.start "xs:complexType" [("name", "T<api>")] ∈
          standaloneTags markupConfig a.model anchors))) = some (true, true) := by
    decide +kernel
  obtain ⟨a, ha, h⟩ := Option.bind_eq_some_iff.mp h
  obtain ⟨anchors, hanchors, h⟩ := Option.map_eq_some_iff.mp h
  obtain ⟨hbase, hname⟩ := Prod.mk.inj h
  have hanchors := eq_ok_of_toOption hanchors
  obtain ⟨g, hg, hread, -⟩ := standalone_schema_reads_back markupConfig a.model hanchors
  exact ⟨a, anchors, g, eq_ok_of_toOption ha, hanchors, of_decide_eq_true hbase,
    of_decide_eq_true hname, hg, hread⟩

end Schema

end ApiModel
