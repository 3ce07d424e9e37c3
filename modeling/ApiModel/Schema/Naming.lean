import ApiModel.Model.Data

/-!
# Names in the schema

How names are spelled in a schema, how they are put in the plural and the
singular, and which members become XML attributes. A schema is generated for
any choice of these. The usual ones are `SchemaNaming.standard`,
`Pluralizer.english` and `standardAttributes`; `SchemaNaming.dotted` and
`Pluralizer.suffixed` are sample configurations that differ from them on
purpose.
-/

namespace ApiModel

/-- Spelling of a `Name` in a schema. -/
structure SchemaNaming where
  /-- Names of elements. -/
  tag : Name → String
  /-- Names of types. -/
  type : Name → String
  /-- Names of the types that a `PrimitiveKind` has in a schema. -/
  primitive : PrimitiveKind → String

namespace SchemaNaming

def capitalized (n : Name) : String :=
  String.join (n.words.map Text.capitalize)

def builtinType : PrimitiveKind → String
  | .boolean => "xs:boolean"
  | .string => "xs:string"
  | .integer => "xs:int"
  | .decimal => "xs:decimal"
  | .date => "xs:dateTime"

/-- Elements as `dns_servers`, types as `DnsServers`. -/
def standard : SchemaNaming :=
  ⟨(·.join "_"), capitalized, builtinType⟩

/-- A sample configuration: elements as `dns.servers`, types as `T<dns-servers>`. -/
def dotted : SchemaNaming where
  tag n := n.join "."
  type n := "T<" ++ n.join "-" ++ ">"
  primitive k := "p:" ++ k.label

end SchemaNaming

structure Pluralizer where
  plural : Name → Name
  singular : Name → Name

namespace Pluralizer

def isVowel (c : Char) : Bool :=
  c ∈ ['a', 'e', 'i', 'o', 'u']

/-- Endings that take `es` in the plural, see `english`. -/
def sibilants : List (List Char) :=
  [['s'], ['x'], ['z'], ['c', 'h'], ['s', 'h']]

/-- What stands before the `ending` of `cs`. -/
def stem? (ending cs : List Char) : Option (List Char) :=
  (ending.reverse.isPrefixOf? cs.reverse).map List.reverse

def pluralChars (cs : List Char) : List Char :=
  if sibilants.any fun ending => (stem? ending cs).isSome then cs ++ ['e', 's']
  else
    match stem? ['y'] cs with
    | none => cs ++ ['s']
    | some stem =>
      if stem.getLast?.any (!isVowel ·) then stem ++ ['i', 'e', 's'] else cs ++ ['s']

/-- Endings of plurals that lose `es` in the singular, see `english`. -/
def sibilantPlurals : List (List Char) :=
  sibilants.map (· ++ ['e', 's'])

/-- Removes a final `s`, unless nothing or another `s` stands before it. -/
def dropS (cs : List Char) : List Char :=
  match stem? ['s'] cs with
  | none => cs
  | some stem => if stem = [] || stem.getLast? = some 's' then cs else stem

def singularChars (cs : List Char) : List Char :=
  match stem? ['i', 'e', 's'] cs with
  | some (c :: stem) => c :: stem ++ ['y']
  | _ =>
    if sibilantPlurals.any fun ending => (stem? ending cs).any (· ≠ []) then
      cs.dropLast.dropLast
    else dropS cs

/-- The regular plural of English nouns: `pluralChars` and `singularChars` of the last word. -/
def english : Pluralizer where
  plural n := n.mapLastWord fun w => String.ofList (pluralChars w.toList)
  singular n := n.mapLastWord fun w => String.ofList (singularChars w.toList)

/-- A sample configuration: a plural is marked by a fixed ending, and the singular loses one
character. -/
def suffixed : Pluralizer where
  plural n := n.mapLastWord (· ++ "LIST")
  singular n := n.mapLastWord fun w => String.ofList w.toList.dropLast

end Pluralizer

/-! ## XML attributes -/

/-- The set of the names that `Name.ofCase` reads from `texts`. -/
def nameSet (texts : List String) : NameSet :=
  .ofList (texts.map Name.ofCase)

/-- Members that are usually written as XML attributes, as `id` and `href`. -/
def standardAttributes : NameSet :=
  nameSet ["id", "href", "rel"]

end ApiModel
