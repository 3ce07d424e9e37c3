import ApiModel.Text.ClassData

/-!
# Character classes

ASCII characters are classified directly, all others by table.
-/

namespace ApiModel.Text

/-- Extends the class `ascii` of ASCII characters by the spans it has `beyond` them. -/
def inClass (ascii : Char → Bool) (beyond : List Span) (c : Char) : Bool :=
  if c.toNat < 0x80 then ascii c else inSpans beyond c.toNat

def isUpper : Char → Bool :=
  inClass Char.isUpper upperSpans

def isAlphabetic : Char → Bool :=
  inClass Char.isAlpha alphabeticSpans

def isCased : Char → Bool :=
  inClass Char.isAlpha casedSpans

/-- Characters that are looked through when asking what a letter stands next to. -/
def isCaseIgnorable : Char → Bool :=
  inClass (fun c => c.toNat ∈ [0x27, 0x2E, 0x3A, 0x5E, 0x60]) caseIgnorableSpans

def isBlank : Char → Bool :=
  inClass (fun c => c = ' ' || (9 ≤ c.toNat && c.toNat ≤ 13)) blankSpans

/-- Removes the blanks at both ends of `text`. -/
def trim (text : String) : String :=
  String.ofList ((text.toList.dropWhile isBlank).reverse.dropWhile isBlank).reverse

end ApiModel.Text
