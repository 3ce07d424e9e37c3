/-!
# Paths

A path is kept as the text between its slashes. Empty segments and single dots
lead nowhere; what remains are its components. Two dots lead to the parent.
-/

namespace ApiModel

structure Path where
  segments : List String
deriving DecidableEq, Repr

namespace Path

def ofString (text : String) : Path :=
  ⟨(text.toList.splitOn '/').map String.ofList⟩

/-- A segment that leads nowhere. -/
def isIdle (segment : String) : Bool :=
  segment = "" || segment = "."

def components (p : Path) : List String :=
  p.segments.filter (!isIdle ·)

/-- Spelled as a directory, with a slash or a dot at the end. -/
def namesDirectory (p : Path) : Bool :=
  p.segments.getLast?.any isIdle

def append (p q : Path) : Path :=
  ⟨p.segments ++ q.segments⟩

/-- Removes segments that are `isIdle` at the end. -/
def trimEnd (p : Path) : Path :=
  ⟨(p.segments.reverse.dropWhile isIdle).reverse⟩

/-- Removes segments that are `isIdle` at both ends. -/
def trim (p : Path) : Path :=
  trimEnd ⟨p.segments.dropWhile isIdle⟩

/-- The path without its last component. -/
def parent? (p : Path) : Option Path :=
  match p.trimEnd.segments with
  | [] => none
  | segments => some (trimEnd ⟨segments.dropLast⟩)

/-- The path from the directory `dir` on, if it leads through it. -/
def relativeTo? (dir p : Path) : Option Path :=
  (dir.segments.isPrefixOf? p.segments).map fun rest => trim ⟨rest⟩

def toString (p : Path) : String :=
  "/".intercalate p.segments

/-! ## File names -/

/-- The last component, unless it leads to a parent. -/
def fileName? (p : Path) : Option String :=
  p.components.getLast?.filter (· ≠ "..")

/-- A file name without its extension: what stands before the last dot, unless the dot is at
the very beginning. -/
def stemOf (name : String) : String :=
  let reversed := name.toList.reverse
  let before := (reversed.dropWhile (· ≠ '.')).drop 1
  if before = [] then name else String.ofList before.reverse

def fileStem? (p : Path) : Option String :=
  p.fileName?.map stemOf

end Path

end ApiModel
