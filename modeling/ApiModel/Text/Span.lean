/-!
# Stretches of code points

Letters of one kind lie in long regular stretches: all of `A` to `Z`, every
second code point of an alphabet that alternates capital and small letters.
A character class is a list of such stretches, and a case mapping is a list of
stretches that move as a whole.
-/

namespace ApiModel.Text

/-- Every `step`-th code point from `first` to `last`. -/
structure Span where
  first : Nat
  last : Nat
  step : Nat
deriving DecidableEq, Repr

def Span.contains (s : Span) (n : Nat) : Bool :=
  s.first ≤ n && n ≤ s.last && (n - s.first) % s.step == 0

def inSpans (spans : List Span) (n : Nat) : Bool :=
  spans.any (·.contains n)

/-- A `Span` together with the code point its first element moves to. -/
structure Shift extends Span where
  target : Nat
deriving DecidableEq, Repr

def Shift.apply (s : Shift) (n : Nat) : Nat :=
  s.target + (n - s.first)

/-- The image of `n` under the first of `shifts` that moves it. -/
def shift? (shifts : List Shift) (n : Nat) : Option Nat :=
  (shifts.find? (·.contains n)).map (·.apply n)

end ApiModel.Text
