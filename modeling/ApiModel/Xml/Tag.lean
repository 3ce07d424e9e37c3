/-!
# Writing tags

XML is written as a sequence of tags, one to a line, indented by depth. Values
of attributes are escaped; names are written as they are given.
-/

namespace ApiModel.Xml

inductive Tag where
  | start (name : String) (attributes : List (String × String))
  | empty (name : String) (attributes : List (String × String))
  | stop (name : String)
deriving DecidableEq, Repr

/-! ## One tag -/

def escapeChar (c : Char) : List Char :=
  if c = '<' then "&lt;".toList
  else if c = '>' then "&gt;".toList
  else if c = '&' then "&amp;".toList
  else if c = '\x27' then "&apos;".toList
  else if c = '"' then "&quot;".toList
  else [c]

def attributeChars (key value : String) : List Char :=
  ' ' :: key.toList ++ ['=', '"'] ++ value.toList.flatMap escapeChar ++ ['"']

def attributesChars (attributes : List (String × String)) : List Char :=
  attributes.flatMap fun (key, value) => attributeChars key value

namespace Tag

def chars : Tag → List Char
  | start name attributes =>
    '<' :: name.toList ++ attributesChars attributes ++ ['>']
  | empty name attributes =>
    '<' :: name.toList ++ attributesChars attributes ++ ['/', '>']
  | stop name => '<' :: '/' :: name.toList ++ ['>']

/-! ## Sequences of tags -/

def indentStep : Nat := 2

/-- The indentation a tag is written with, where the text has come to `indent`. -/
def ownIndent (indent : Nat) : Tag → Nat
  | stop _ => indent - indentStep
  | _ => indent

/-- The indentation after a tag, see `indentStep`. -/
def nextIndent (indent : Nat) : Tag → Nat
  | start _ _ => indent + indentStep
  | empty _ _ => indent
  | stop _ => indent - indentStep

/-- Tags on lines of their own, the first with `indent`. -/
def linesFrom (indent : Nat) : List Tag → List Char
  | [] => []
  | t :: ts =>
    '\n' :: List.replicate (t.ownIndent indent) ' ' ++ t.chars ++ linesFrom (t.nextIndent indent) ts

/-- The text of a sequence of tags, see `linesFrom`. Nothing stands in front of the first. -/
def renderChars : List Tag → List Char
  | [] => []
  | t :: ts => t.chars ++ linesFrom (t.nextIndent 0) ts

def render (tags : List Tag) : String :=
  String.ofList (renderChars tags)

end Tag

end ApiModel.Xml
