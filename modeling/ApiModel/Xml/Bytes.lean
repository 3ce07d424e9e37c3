/-!
# Offsets in bytes

Places in a document are given by the number of bytes before them.
-/

namespace ApiModel.Xml

def byteLength : List Char → Nat
  | [] => 0
  | c :: cs => c.utf8Size + byteLength cs

/-- Where `rest`, the end of `text`, begins. -/
def offsetOf (text rest : List Char) : Nat :=
  byteLength text - byteLength rest

/-- The characters that lie within the first `n` bytes. -/
def takeBytes : Nat → List Char → List Char
  | _, [] => []
  | n, c :: cs => if c.utf8Size ≤ n then c :: takeBytes (n - c.utf8Size) cs else []

/-- The characters that don't lie within the first `n` bytes. -/
def dropBytes : Nat → List Char → List Char
  | _, [] => []
  | n, c :: cs => if c.utf8Size ≤ n then dropBytes (n - c.utf8Size) cs else c :: cs

/-- The offset of the last `</`, where the text itself starts at `offset`. -/
def lastEndTag? (offset : Nat) : List Char → Option Nat
  | [] => none
  | '<' :: '/' :: cs => (lastEndTag? (offset + 1) ('/' :: cs)).or (some offset)
  | c :: cs => lastEndTag? (offset + c.utf8Size) cs

end ApiModel.Xml
