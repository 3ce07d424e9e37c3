import ApiModel.Text.Casing
import Std.Data.TreeMap
import Std.Data.TreeSet

/-!
# Names

A name is the sequence of lower-case words behind an identifier, independent of
the convention the identifier was written in: `diskAttachment`,
`DiskAttachment` and `DISK_ATTACHMENT` can all stand for `disk attachment`.
Names are compared word by word, and everything that is listed by name is
listed in that order.
-/

namespace ApiModel

structure Name where
  words : List String
deriving DecidableEq, Repr, Inhabited

namespace Name

/-! ## Order -/

instance : Ord Name where
  compare a b := compare a.words b.words

instance : Std.TransOrd Name where
  eq_swap := Std.OrientedOrd.eq_swap (α := List String)
  isLE_trans := Std.TransOrd.isLE_trans (α := List String)

instance : Std.LawfulEqOrd Name where
  compare_self := Std.ReflOrd.compare_self (α := List String)
  eq_of_compare {a b} h := by
    cases a
    cases b
    exact congrArg mk (Std.LawfulEqOrd.eq_of_compare (α := List String) h)

/-! ## Words -/

/-- Words are put in lower case, and those that are empty are dropped. -/
def ofWords (words : List String) : Name :=
  ⟨(words.map Text.lower).filter (· ≠ "")⟩

def isEmpty (n : Name) : Bool :=
  n.words.isEmpty

def lastWord? (n : Name) : Option String :=
  n.words.getLast?

/-- Replaces the last word by its image under `f`. -/
def mapLastWord (n : Name) (f : String → String) : Name :=
  match n.lastWord? with
  | none => n
  | some w => ofWords (n.words.dropLast ++ [Text.lower (f w)])

/-- Puts `word` in front of the words of `n`. -/
def withFirst (n : Name) (word : String) : Name :=
  ofWords (word :: n.words)

/-! ## Text -/

def join (n : Name) (separator : String) : String :=
  separator.intercalate n.words

/-- The text the name `n` is shown as. -/
def display (n : Name) : String :=
  n.join "_"

end Name

abbrev NameMap (α : Type) := Std.TreeMap Name α

abbrev NameSet := Std.TreeSet Name

/-! ## Sorting by name -/

/-- Puts `a` in front of the first element whose `key` isn't smaller. -/
def insertByName {α : Type} (key : α → Name) (a : α) : List α → List α
  | [] => [a]
  | b :: bs =>
    if (compare (key a) (key b)).isLE then a :: b :: bs else b :: insertByName key a bs

/-- Sorts by ascending `key`; elements with the same `key` keep their order. -/
def sortByName {α : Type} (key : α → Name) (as : List α) : List α :=
  as.foldr (insertByName key) []

end ApiModel
