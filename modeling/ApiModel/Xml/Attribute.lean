import ApiModel.Xml.Event

/-!
# Reading attributes

The attributes in a start tag, as far as they can be made out. A key that has
no value, or a value without quotation marks, is passed over, and so is a key
that was used before.
-/

namespace ApiModel.Xml

/-- Continues a key after its first character, as all but `=` and blanks do. -/
def isKeyChar (c : Char) : Bool :=
  c ≠ '=' && !isSpace c

/-- Reads on after the keys `seen`. Each key takes up a character at least, so the number of
characters bounds that of the keys. -/
def attributesFrom :
    (fuel : Nat) → (seen : List (List Char)) → List Char → List (List Char × List Char)
  | 0, _, _ => []
  | fuel + 1, seen, cs =>
    match cs.dropWhile isSpace with
    | [] => []
    | c :: cs =>
      let key := c :: cs.takeWhile isKeyChar
      match (cs.dropWhile isKeyChar).dropWhile isSpace with
      | [] => []
      | d :: after =>
        if d ≠ '=' then attributesFrom fuel seen (d :: after)
        else if key ∈ seen then attributesFrom fuel seen (after.dropWhile (!isSpace ·))
        else
          match after.dropWhile isSpace with
          | [] => []
          | q :: value =>
            if isQuote q then
              match value.span (· ≠ q) with
              | (_, []) => []
              | (value, _ :: rest) => (key, value) :: attributesFrom fuel (key :: seen) rest
            else attributesFrom fuel (key :: seen) ((q :: value).dropWhile (!isSpace ·))

/-- Keys and values in the text `cs` of a start tag, the values as written. -/
def attributes (cs : List Char) : List (List Char × List Char) :=
  attributesFrom cs.length [] cs

end ApiModel.Xml
