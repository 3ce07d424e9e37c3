import ApiModel.Proofs.Emission
import ApiModel.Proofs.RootElement

/-!
# Base documents are kept

A schema is its base document with text put in at two places. The namespaces
that the root lacks are declared at the end of its start tag, and the
definitions are put before its end tag, or, if the root consists of one tag,
between that tag and an end tag of its own. Everything else is copied.

The end tag is looked for backwards from the end of the root, by its mark `</`.
Nothing keeps the mark out of the name of an element. If the name of the root
has it, the definitions are put inside the end tag, before the last mark of the
name.
-/

namespace ApiModel.Schema

open Xml

/-! ## What is put in -/

/-- The namespaces declared for a root that has attributes with the given `keys`. -/
def namespaceDeclarations (keys : List (List Char)) : List Char :=
  (if keys.contains "xmlns:xs".toList then []
    else " xmlns:xs=\"http://www.w3.org/2001/XMLSchema\"".toList) ++
  (if keys.contains "xmlns:jaxb".toList then []
    else " xmlns:jaxb=\"http://java.sun.com/xml/ns/jaxb\"".toList)

theorem all_ne_key (attributes : List (List Char × List Char)) (key : List Char) :
    attributes.all (·.1 ≠ key) = !(attributes.map (·.1)).contains key := by
  induction attributes with
  | nil => rfl
  | cons a attributes ih =>
    rw [List.all_cons, ih, List.map_cons, List.contains_cons]
    by_cases h : key = a.1
    · simp [h]
    · simp [h, Ne.symm h]

theorem missingNamespaces_chars (attributes : List Char) :
    (missingNamespaces attributes).flatMap Namespace.chars =
      namespaceDeclarations ((Xml.attributes attributes).map (·.1)) := by
  simp only [missingNamespaces, requiredNamespaces, all_ne_key, namespaceDeclarations]
  cases hxs : ((Xml.attributes attributes).map (·.1)).contains "xmlns:xs".toList <;>
  cases hjaxb : ((Xml.attributes attributes).map (·.1)).contains "xmlns:jaxb".toList <;>
    simp only [List.filter_cons, List.filter_nil, hxs, hjaxb, if_true, if_false, Bool.not_true,
      Bool.not_false, Bool.false_eq_true] <;> rfl

/-! ## Where the end tag is found -/

/-- The beginning `</name` of an end tag, divided before its last mark. -/
structure DividedAtMark (name kept cut : List Char) : Prop where
  chars : endMark ++ name = kept ++ endMark ++ cut
  last : ¬endMark <:+: '/' :: cut

namespace DividedAtMark

variable {name kept cut : List Char}

theorem exists_divided (name : List Char) : ∃ kept cut, DividedAtMark name kept cut := by
  obtain ⟨kept, cut, hchars, hlast⟩ := exists_last_endMark (List.infix_append' [] endMark name)
  exact ⟨kept, cut, hchars, hlast⟩

/-- Nothing is `kept` of an end tag unless its name has a mark. -/
theorem kept_eq_nil (h : DividedAtMark name kept cut) : kept = [] ↔ ¬endMark <:+: name := by
  constructor
  · rintro rfl hname
    obtain rfl := List.append_cancel_left h.chars
    exact h.last (List.infix_cons hname)
  · intro hname
    match kept, h.chars with
    | [], _ => rfl
    | [_], hchars => cases hchars
    | _ :: _ :: kept, hchars =>
      obtain ⟨-, hchars⟩ := List.cons.inj hchars
      obtain ⟨-, rfl⟩ := List.cons.inj hchars
      exact absurd (List.infix_append kept endMark cut) hname

end DividedAtMark

namespace OpenElement

variable {x : OpenElement} {o : Outline} {base kept cut : List Char}

theorem closed_eq (hd : DividedAtMark x.name kept cut) :
    x.closed =
      x.opening ++ ('>' :: x.content ++ kept) ++ (endMark ++ (cut ++ (x.space ++ ['>']))) := by
  have h : x.closed = x.opening ++ '>' :: x.content ++ (endMark ++ x.name) ++ (x.space ++ ['>']) := by
    simp [closed]
  rw [h, hd.chars]
  simp

theorem span_close (hd : DividedAtMark x.name kept cut) (hspace : ∀ c ∈ x.space, isSpace c = true) :
    x.span.close = some (byteLength (x.opening ++ ('>' :: x.content ++ kept))) := by
  have hafter : '/' ∉ x.space ++ ['>'] := by
    intro h
    rcases List.mem_append.mp h with h | h
    · exact absurd (hspace _ h) (by decide)
    · exact absurd h (by decide)
  have hlast : ¬endMark <:+: '/' :: (cut ++ (x.space ++ ['>'])) := fun h =>
    hd.last (endMark_infix_of_append h hafter)
  rw [span, closed_eq hd, ← List.append_assoc, lastEndTag?_append hlast, Nat.zero_add]

/-- The document with `defs` put into an `OpenElement`. -/
theorem splice_span (h : x.IsRoot o base) (hd : DividedAtMark x.name kept cut) (defs : List Char) :
    x.span.splice base defs =
      x.opening ++ namespaceDeclarations ((Xml.attributes x.attributes).map (·.1)) ++
        ('>' :: x.content ++ kept) ++
        newlineUnless (('>' :: x.content ++ kept).getLast? = some '\n') ++ defs ++ ['\n'] ++
        (endMark ++ cut ++ x.space ++ '>' :: x.tail) := by
  have hbase : base = x.opening ++ ('>' :: x.content ++ kept) ++
      (endMark ++ cut ++ x.space ++ '>' :: x.tail) := by
    rw [h.chars, ← closed_append_tail, closed_eq hd]
    simp
  have hopen : takeBytes (byteLength x.opening) base = x.opening := by
    rw [hbase, List.append_assoc, takeBytes_append]
  have hmiddle : takeBytes
      (byteLength (x.opening ++ ('>' :: x.content ++ kept)) - byteLength x.opening)
      (dropBytes (byteLength x.opening) base) = '>' :: x.content ++ kept := by
    rw [hbase, takeBytes_dropBytes_append]
  have hend : dropBytes (byteLength (x.opening ++ ('>' :: x.content ++ kept))) base =
      endMark ++ cut ++ x.space ++ '>' :: x.tail := by
    rw [hbase, dropBytes_append]
  have hnamespaces : x.span.missing.flatMap Namespace.chars =
      namespaceDeclarations ((Xml.attributes x.attributes).map (·.1)) :=
    missingNamespaces_chars x.attributes
  have hopenEnd : x.span.openEnd = byteLength x.opening := rfl
  have hselfClosing : x.span.selfClosing = false := rfl
  simp only [RootSpan.splice, span_close hd h.space, hnamespaces, hopenEnd, hselfClosing, hopen,
    hmiddle, hend, Bool.not_false, Option.filter_some, if_true]

end OpenElement

/-- The document with `defs` put into an `EmptyElement`. -/
theorem EmptyElement.splice_span {x : EmptyElement} {base : List Char}
    (h : base = x.opening ++ '/' :: '>' :: x.tail) (defs : List Char) :
    x.span.splice base defs =
      x.opening ++ namespaceDeclarations ((Xml.attributes x.attributes).map (·.1)) ++
        ['>', '\n'] ++ defs ++ ['\n', '<', '/'] ++ x.name ++ ['>'] ++ x.tail := by
  have hbase : base = x.opening ++ ['/', '>'] ++ x.tail := by
    rw [h, List.append_assoc]
    rfl
  have hopen : takeBytes (byteLength x.opening) base = x.opening := by
    rw [hbase, List.append_assoc, takeBytes_append]
  have hend : dropBytes (byteLength (x.opening ++ ['/', '>'])) base = x.tail := by
    rw [hbase, dropBytes_append]
  simp only [RootSpan.splice, span, hopen, hend, missingNamespaces_chars, Option.filter_none]

/-! ## Generation -/

theorem readText_eq_self {cs : List Char} (h : cs.head? ≠ some byteOrderMark) : readText cs = cs := by
  cases cs with
  | nil => rfl
  | cons c cs => rw [readText, if_neg fun hc => h (congrArg some hc)]

/-- The `text` is the document `base`, which has the outline `o`, with `defs` put in. In a root with
content, the namespaces it lacks go before the `>` of its start tag, and the definitions go before
the last mark of its end tag. A root that consists of one tag is given an end tag, and the
definitions go before it. -/
inductive Spliced (o : Outline) (defs base text : List Char) : Prop where
  | content (x : OpenElement) (kept cut : List Char) (root : x.IsRoot o base)
      (divided : DividedAtMark x.name kept cut)
      (chars : text =
        x.opening ++ namespaceDeclarations ((Xml.attributes x.attributes).map (·.1)) ++
          ('>' :: x.content ++ kept) ++
          newlineUnless (('>' :: x.content ++ kept).getLast? = some '\n') ++ defs ++ ['\n'] ++
          (endMark ++ cut ++ x.space ++ '>' :: x.tail))
  | tag (x : EmptyElement) (root : x.IsRoot o base)
      (chars : text =
        x.opening ++ namespaceDeclarations ((Xml.attributes x.attributes).map (·.1)) ++
          ['>', '\n'] ++ defs ++ ['\n', '<', '/'] ++ x.name ++ ['>'] ++ x.tail)

/-- A schema is its base document with definitions put in that are the same for every document and
every reader whose outlines are `Outline.Faithful`. -/
theorem exists_spliced (cfg : Config) (m : Model) :
    ∃ defs : List Char, ∀ read : List Char → Outline, (∀ text, (read text).Faithful text) →
      ∀ (base : String) (g : Generated), base.toList.head? ≠ some byteOrderMark →
        generateBy read cfg m base = .ok g →
          Spliced (read base.toList) defs base.toList g.xml.toList := by
  refine ⟨(findAnchors cfg m).toOption.elim [] (definitionChars cfg m),
    fun read hread base g hbom hg => ?_⟩
  obtain ⟨anchors, root, hanchors, hroot, hxml, -⟩ := generateBy_eq_ok hg
  rw [hanchors, hxml, String.toList_ofList]
  rcases exists_root_of_locateRootBy hread (readText_eq_self hbom) hroot with
    ⟨x, hx, rfl⟩ | ⟨x, hx, rfl⟩
  · obtain ⟨kept, cut, hd⟩ := DividedAtMark.exists_divided x.name
    exact .content x kept cut hx hd (x.splice_span hx hd _)
  · exact .tag x hx (x.splice_span hx.chars _)

/-- A schema is its base document with definitions put in that are the same for every document, see
`Spliced`. The last mark of an end tag is where the end tag begins, unless the name has a mark
itself. -/
theorem base_document_kept (cfg : Config) (m : Model) :
    (∃ defs : List Char, ∀ (base : String) (g : Generated),
      base.toList.head? ≠ some byteOrderMark → generate cfg m base = .ok g →
        Spliced (outline base.toList) defs base.toList g.xml.toList) ∧
    ∀ name kept cut : List Char, DividedAtMark name kept cut →
      (kept = [] ↔ ¬endMark <:+: name) := by
  obtain ⟨defs, hdefs⟩ := exists_spliced cfg m
  exact ⟨⟨defs, hdefs outline outline_faithful⟩, fun _ _ _ => DividedAtMark.kept_eq_nil⟩

/-- The types that every schema needs. -/
def anchorDeclarations : List Declaration := [
  .type { name := "Identified", space := "types", body := .struct .none [] },
  .type { name := "Api", space := "types", body := .struct .none [] }]

/-- A document whose root holds an element of its own name, and marks `</` that don't begin a
tag. -/
def nestedDocument : String :=
  "<!-- </a> --><a b='</a>'><a/><a></a><![CDATA[</a>]]></a >\n<!-- </ -->"

theorem exists_anchors : ∃ a anchors, analyze anchorDeclarations = .ok a ∧
    findAnchors {} a.model = .ok anchors := by
  have h : ((analyze anchorDeclarations).toOption.bind fun a =>
      (findAnchors {} a.model).toOption.map fun _ => ()) = some () := by
    decide +kernel
  obtain ⟨a, ha, hanchors⟩ := Option.bind_eq_some_iff.mp h
  obtain ⟨anchors, hanchors, -⟩ := Option.map_eq_some_iff.mp hanchors
  exact ⟨a, anchors, eq_ok_of_toOption ha, eq_ok_of_toOption hanchors⟩

theorem base_document_kept_nested : ∃ a g defs, analyze anchorDeclarations = .ok a ∧
    generate {} a.model nestedDocument = .ok g ∧
    Spliced (outline nestedDocument.toList) defs nestedDocument.toList g.xml.toList := by
  obtain ⟨a, anchors, ha, hanchors⟩ := exists_anchors
  have hroot : (locateRoot nestedDocument.toList).toOption.map (·.close) = some (some 52) := by
    decide +kernel
  obtain ⟨root, hroot, -⟩ := Option.map_eq_some_iff.mp hroot
  have hg := generate_of_root hanchors (eq_ok_of_toOption hroot)
  obtain ⟨⟨defs, hdefs⟩, -⟩ := base_document_kept {} a.model
  exact ⟨a, _, defs, ha, hg, hdefs nestedDocument _ (by decide) hg⟩

/-- The definitions don't go before the end tag `</a</b>` of this root, but inside it. -/
theorem definitions_inside_end_tag : ∃ a g, analyze anchorDeclarations = .ok a ∧
    generate {} a.model "<a</b></a</b>" = .ok g ∧
    ∀ before namespaces middle newline defs rest : List Char,
      "<a</b></a</b>".toList = before ++ middle ++ rest → "</a</b>".toList <+: rest →
        g.xml.toList ≠ before ++ namespaces ++ middle ++ newline ++ defs ++ ['\n'] ++ rest := by
  obtain ⟨a, anchors, ha, hanchors⟩ := exists_anchors
  have hroot : (locateRoot "<a</b></a</b>".toList).toOption.map
      (fun root => (root.selfClosing, root.close)) = some (false, some 9) := by
    decide +kernel
  obtain ⟨root, hroot, hclose⟩ := Option.map_eq_some_iff.mp hroot
  obtain ⟨hopen, hclose⟩ := Prod.mk.inj hclose
  refine ⟨a, _, ha, generate_of_root hanchors (eq_ok_of_toOption hroot), ?_⟩
  intro before namespaces middle newline defs rest hbase hrest hxml
  -- What the document ends with ends the schema, too, and a line ends right before that.
  have hcut : "\n</b>".toList <:+ root.splice "<a</b></a</b>".toList
      (definitionChars {} a.model anchors) := by
    have hdrop : ['\n'] ++ dropBytes 9 "<a</b></a</b>".toList = "\n</b>".toList := by decide
    simp only [RootSpan.splice, hopen, hclose, Bool.not_false, Option.filter_some, if_true,
      List.append_assoc, hdrop]
    simp only [← List.append_assoc]
    exact List.suffix_append _ _
  have hend : "</a</b>".toList <:+ rest :=
    List.suffix_of_suffix_length_le (by decide) ⟨before ++ middle, hbase.symm⟩ hrest.length_le
  rw [String.toList_ofList] at hxml
  rw [hxml] at hcut
  exact absurd (List.suffix_of_suffix_length_le hcut (hend.trans (List.suffix_append _ rest))
    (by decide)) (by decide)

end ApiModel.Schema
