import ApiModel.Path
import Std.Data.TreeMap

/-!
# File stores

A file store is the state that reading and writing files work on: a tree of
folders with files in it. A location is the sequence of names that leads to a
place from the root; the root itself always exists.
-/

namespace ApiModel

inductive Node where
  | folder
  | file (content : ByteArray)

structure FileStore where
  nodes : Std.TreeMap (List String) Node := ∅

/-- Why a path can't be used. -/
inductive FileFault where
  | notFound
  | notFolder
  | isFolder
  | exists
  | notText
  | badName
deriving DecidableEq, Repr

def FileFault.message : FileFault → String
  | notFound => "no such file or folder"
  | notFolder => "not a folder"
  | isFolder => "is a folder"
  | .exists => "already exists"
  | notText => "isn't text in UTF-8"
  | badName => "has a name that no file can have"

namespace FileStore

/-! ## Looking up -/

def node? (fs : FileStore) (location : List String) : Option Node :=
  if location = [] then some .folder else fs.nodes[location]?

/-- Names have at most 255 bytes. -/
def isName (component : String) : Bool :=
  component.utf8ByteSize ≤ 255

/-- Paths are spelled with fewer than 4096 bytes, none of them zero. -/
def isUsable (p : Path) : Bool :=
  p.toString.utf8ByteSize < 4096 && !p.toString.toList.contains '\x00'

/-- Goes on from `location`, which has to be a folder, to `component` in it. -/
def enter (fs : FileStore) (location : List String) (component : String) :
    Except FileFault (List String) :=
  match fs.node? location with
  | none => .error .notFound
  | some (.file _) => .error .notFolder
  | some .folder =>
    if component = ".." then .ok location.dropLast
    else if isName component then .ok (location ++ [component])
    else .error .badName

/-- The location that `p` leads to; nothing needs to be there yet. -/
def locate (fs : FileStore) (p : Path) : Except FileFault (List String) :=
  if isUsable p then p.components.foldlM fs.enter [] else .error .badName

def read (fs : FileStore) (p : Path) : Except FileFault ByteArray := do
  let location ← fs.locate p
  match fs.node? location with
  | none => throw .notFound
  | some .folder => throw .isFolder
  | some (.file content) => if p.namesDirectory then throw .notFolder else return content

/-! ## Changing -/

/-- Changes a `FileStore`. An error keeps the store as it is at that point. -/
abbrev Action := ExceptT FileFault (StateM FileStore)

def put (fs : FileStore) (location : List String) (n : Node) : FileStore :=
  ⟨fs.nodes.insert location n⟩

/-- Goes on from `location` into the folder `component`, which is made if it is missing. -/
def enterFolder (location : List String) (component : String) : Action (List String) := fun fs =>
  match fs.enter location component with
  | .error fault => (.error fault, fs)
  | .ok inner =>
    match fs.node? inner with
    | some .folder => (.ok inner, fs)
    | some (.file _) => (.error .exists, fs)
    | none => (.ok inner, fs.put inner .folder)

/-- Makes the folder `p` and the folders it lies in, as far as they are missing. -/
def makeFolders (p : Path) : Action Unit :=
  if isUsable p then discard (p.components.foldlM enterFolder []) else throw .badName

def write (p : Path) (content : ByteArray) : Action Unit := fun fs =>
  match fs.locate p with
  | .error fault => (.error fault, fs)
  | .ok location =>
    match fs.node? location with
    | some .folder => (.error .isFolder, fs)
    | _ =>
      if p.namesDirectory then (.error .notFolder, fs)
      else (.ok (), fs.put location (.file content))

end FileStore

end ApiModel
