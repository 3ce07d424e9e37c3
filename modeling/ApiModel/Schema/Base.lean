import ApiModel.Xml.Attribute
import ApiModel.Xml.Bytes

/-!
# Base documents

Generated definitions go into a base document, right before its root element
ends. The document is copied as it is; all that is added to its own text are
the namespaces that the root lacks.
-/

namespace ApiModel.Schema

open Xml

/-- A document that is read without a fault and still can't be used. -/
inductive BaseFault where
  | unbalancedEnd
  | multipleRoots
  | noRoot
  | unclosedRoot (name : List Char)
deriving DecidableEq, Repr

def BaseFault.message : BaseFault → String
  | unbalancedEnd => "unbalanced end tag"
  | multipleRoots => "more than one root element"
  | noRoot => "the document has no root element"
  | unclosedRoot name => s!"root element '{String.ofList name}' isn't closed"

inductive BaseError where
  | malformed (fault : Fault)
  | invalid (fault : BaseFault)
deriving DecidableEq, Repr

/-! ## Namespaces -/

structure Namespace where
  key : String
  uri : String
deriving DecidableEq, Repr

/-- The namespaces that generated definitions use: those of `xs` and `jaxb`. -/
def requiredNamespaces : List Namespace :=
  [⟨"xmlns:xs", "http://www.w3.org/2001/XMLSchema"⟩,
    ⟨"xmlns:jaxb", "http://java.sun.com/xml/ns/jaxb"⟩]

def Namespace.chars (n : Namespace) : List Char :=
  ' ' :: n.key.toList ++ ['=', '"'] ++ n.uri.toList ++ ['"']

/-- The `requiredNamespaces` that the attributes of a root don't declare. -/
def missingNamespaces (attributes : List Char) : List Namespace :=
  requiredNamespaces.filter fun n => (Xml.attributes attributes).all (·.1 ≠ n.key.toList)

/-! ## The root -/

/-- Where the root element `name` lies, in bytes. -/
structure RootSpan where
  name : List Char
  /-- Where the `>` or `/>` of the start tag is. -/
  openEnd : Nat
  selfClosing : Bool
  /-- Where the end tag is. -/
  close : Option Nat
  /-- Where the element has ended. -/
  stop : Nat
  missing : List Namespace
deriving DecidableEq, Repr

/-- What is known of the root while the events of an `Outline` are gone through. -/
structure RootSearch where
  depth : Nat := 0
  root : Option RootSpan := none
deriving DecidableEq, Repr

namespace RootSearch

/-- A start tag, which ends at `stop`, opens the root. -/
def enterRoot (s : RootSearch) (name attributes : List Char) (stop : Nat) (selfClosing : Bool) :
    Except BaseFault RootSpan :=
  if s.root.isSome then .error .multipleRoots
  else .ok {
    name
    openEnd := stop - if selfClosing then 2 else 1
    selfClosing
    close := none
    stop
    missing := missingNamespaces attributes }

/-- Goes on by the event `x` of the `text` that is read. -/
def step (base text : List Char) (s : RootSearch) (x : Located) : Except BaseFault RootSearch :=
  match x.event with
  | .start name attributes =>
    if s.depth = 0 then do
      let root ← s.enterRoot name attributes (offsetOf text x.rest) false
      return ⟨1, some root⟩
    else .ok { s with depth := s.depth + 1 }
  | .empty name attributes =>
    if s.depth = 0 then do
      let root ← s.enterRoot name attributes (offsetOf text x.rest) true
      return ⟨0, some root⟩
    else .ok s
  | .stop _ =>
    match s.depth with
    | 0 => .error .unbalancedEnd
    | 1 =>
      let stop := offsetOf text x.rest
      let close := lastEndTag? 0 (takeBytes stop base)
      .ok ⟨0, s.root.map ({ · with close, stop })⟩
    | depth + 2 => .ok { s with depth := depth + 1 }
  | _ => .ok s

/-- The root, once all events have been gone through. -/
def finish (s : RootSearch) : Except BaseFault RootSpan :=
  match s.root with
  | none => .error .noRoot
  | some root =>
    if 0 < s.depth || (!root.selfClosing && root.close.isNone) then
      .error (.unclosedRoot root.name)
    else .ok root

end RootSearch

def byteOrderMark : Char := '\ufeff'

/-- The document as it is read: a byte order mark at its beginning is passed over. -/
def readText : List Char → List Char
  | [] => []
  | c :: cs => if c = byteOrderMark then cs else c :: cs

/-- Finds the root element among the events that `read` yields for a document. Offsets count from
the beginning of the `readText`. -/
def locateRootBy (read : List Char → Outline) (base : List Char) : Except BaseError RootSpan := do
  let text := readText base
  let outline := read text
  let search ← (outline.events.foldlM (RootSearch.step base text) {}).mapError .invalid
  match outline.fault with
  | some fault => throw (.malformed fault)
  | none => search.finish.mapError .invalid

def locateRoot (base : List Char) : Except BaseError RootSpan :=
  locateRootBy Xml.outline base

/-! ## Putting definitions in -/

def newlineUnless (present : Bool) : List Char :=
  if present then [] else ['\n']

/-- The document with `definitions` put in before the end of its root. -/
def RootSpan.splice (r : RootSpan) (base definitions : List Char) : List Char :=
  let head := takeBytes r.openEnd base ++ r.missing.flatMap Namespace.chars
  match r.close.filter fun _ => !r.selfClosing with
  | some close =>
    let content := takeBytes (close - r.openEnd) (dropBytes r.openEnd base)
    head ++ content ++ newlineUnless (content.getLast? = some '\n') ++ definitions ++ ['\n']
      ++ dropBytes close base
  | none =>
    head ++ ['>', '\n'] ++ definitions ++ ['\n', '<', '/'] ++ r.name ++ ['>']
      ++ dropBytes r.stop base

/-- The document to use where no other is given. -/
def defaultBase : String :=
  "<?xml version=\"1.0\" encoding=\"UTF-8\"?>\n<xs:schema xmlns:xs=\"http://www.w3.org/2001/XMLSchema\" xmlns:jaxb=\"http://java.sun.com/xml/ns/jaxb\" jaxb:version=\"2.0\" version=\"1.0\"/>\n"

end ApiModel.Schema
