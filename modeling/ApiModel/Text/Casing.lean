import ApiModel.Text.CaseData
import ApiModel.Text.Class

/-!
# Lower and upper case

Case mapping of whole texts. A character maps to a list of characters, since
some letters have no single counterpart: `İ` is lower-cased to an `i` followed
by a combining dot, and `ß` is upper-cased to `SS`. Both maps look at one
character at a time, with one exception: a capital sigma is lower-cased to `ς`
where it ends a word and to `σ` everywhere else.
-/

namespace ApiModel.Text

/-! ## Single characters -/

/-- Lower case of `c`, whatever stands around it. -/
def lowerChar (c : Char) : List Char :=
  if c.toNat < 0x80 then [c.toLower]
  else if c = 'İ' then ['i', '\u0307']
  else match shift? lowerShifts c.toNat with
    | some n => [Char.ofNat n]
    | none => [c]

def upperChar (c : Char) : List Char :=
  if c.toNat < 0x80 then [c.toUpper]
  else match upperExpansions.lookup c.toNat with
    | some letters => letters.map Char.ofNat
    | none =>
      match shift? upperShifts c.toNat with
      | some n => [Char.ofNat n]
      | none => [c]

/-! ## Texts -/

/-- The first character of `cs` that isn't looked through is a cased letter. -/
def meetsCased (cs : List Char) : Bool :=
  match cs.dropWhile isCaseIgnorable with
  | [] => false
  | c :: _ => isCased c

/-- A sigma between `before`, read backwards from it, and `after` ends a word. -/
def endsWord (before after : List Char) : Bool :=
  meetsCased before && !meetsCased after

/-- Lower case of `c` between `before`, read backwards, and `after`. -/
def lowerAt (before : List Char) (c : Char) (after : List Char) : List Char :=
  if c = 'Σ' then [if endsWord before after then 'ς' else 'σ'] else lowerChar c

def lowerFrom (before : List Char) : List Char → List Char
  | [] => []
  | c :: cs => lowerAt before c cs ++ lowerFrom (c :: before) cs

def lowerChars (cs : List Char) : List Char :=
  lowerFrom [] cs

def upperChars (cs : List Char) : List Char :=
  cs.flatMap upperChar

def lower (text : String) : String :=
  String.ofList (lowerChars text.toList)

def upper (text : String) : String :=
  String.ofList (upperChars text.toList)

/-- Upper-cases the first character of `text` only. -/
def capitalize (text : String) : String :=
  match text.toList with
  | [] => ""
  | c :: cs => String.ofList (upperChar c ++ cs)

end ApiModel.Text
