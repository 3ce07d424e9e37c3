import ApiModel.Name.Basic

/-!
# Reading names

Identifiers are written either in camel case, where a capital letter after a
letter that isn't one starts a new word, or with a separator between the words.
An identifier may carry one escape marker at each end, which keeps it apart
from the reserved words of the notation it is written in and isn't part of the
name.
-/

namespace ApiModel

/-! ## Escape markers -/

def escapeMarker : Char := '_'

def dropMarker : List Char → List Char
  | [] => []
  | c :: cs => if c = escapeMarker then cs else c :: cs

/-- Removes one `escapeMarker` in front, then one at the end. -/
def stripMarkers (cs : List Char) : List Char :=
  (dropMarker (dropMarker cs).reverse).reverse

/-! ## Camel case -/

/-- A new word starts between `c` and `d`. -/
def startsWord (c d : Char) : Bool :=
  Text.isUpper d && !Text.isUpper c

/-- Adds `c` to the first segment. -/
def extendFirst (c : Char) : List (List Char) → List (List Char)
  | [] => [[c]]
  | seg :: segs => (c :: seg) :: segs

def splitCase : List Char → List (List Char)
  | [] => []
  | [c] => [[c]]
  | c :: d :: cs =>
    if startsWord c d then [c] :: splitCase (d :: cs)
    else extendFirst c (splitCase (d :: cs))

/-! ## Names from text -/

namespace Name

def ofSegments (segments : List (List Char)) : Name :=
  ofWords (segments.map String.ofList)

/-- Reads camel case, by `startsWord`. A run of capital letters stays in one word. -/
def ofCase (text : String) : Name :=
  ofSegments (splitCase (stripMarkers text.toList))

/-- Reads words divided by `separator`. -/
def ofSeparated (separator : Char) (text : String) : Name :=
  ofSegments ((stripMarkers text.toList).splitOn separator)

/-- Constants of enumerations divide their words by `_`, see `ofSeparated`. -/
def ofConstant (text : String) : Name :=
  ofSeparated '_' text

/-- Namespaces divide their words by `.`, see `ofSeparated`. -/
def ofNamespace (text : String) : Name :=
  ofSeparated '.' text

end Name

end ApiModel
