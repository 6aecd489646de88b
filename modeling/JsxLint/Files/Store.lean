import JsxLint.Files.Path
import JsxLint.Text.Utf8

/-!
Files and folders, and how paths lead through them. A path is followed part by part, so two dots
only lead out of a folder that exists. Names and paths are limited in length, in bytes.
-/

namespace JsxLint

inductive Entry where
  | file (content : Bytes)
  | folder (entries : List (String × Entry))
deriving Repr, Inhabited

namespace Entry

/-- The entry at a location below this one. -/
def get? : Entry → List String → Option Entry
  | entry, [] => some entry
  | .folder entries, name :: rest => (entries.lookup name).bind (·.get? rest)
  | .file _, _ :: _ => none

/-- Puts an entry at a location, making folders on the way. A file on the way stays in place. -/
def put (entry : Entry) : List String → Entry → Entry
  | [], new => new
  | name :: rest, new =>
    match entry with
    | .file content => .file content
    | .folder entries =>
      let old := (entries.lookup name).getD (.folder [])
      .folder ((entries.filter fun other => other.1 ≠ name) ++ [(name, old.put rest new)])

mutual

/-- The locations of everything below an entry, folders included. -/
def descendants : Entry → List (List String)
  | .file _ => []
  | .folder entries => descendantsAll entries

def descendantsAll : List (String × Entry) → List (List String)
  | [] => []
  | (name, entry) :: rest => [name] :: (descendants entry).map (name :: ·) ++ descendantsAll rest

end

end Entry

/-- Everything there is, and the location of the current folder. -/
structure Store where
  root : Entry
  current : List String
deriving Repr, Inhabited

namespace Store

def isFolderAt (store : Store) (location : List String) : Bool :=
  match store.root.get? location with
  | some (.folder _) => true
  | _ => false

/-- The location one step from a folder. -/
def step (location : List String) (name : String) : List String :=
  if name = ".." then location.dropLast else location ++ [name]

/-- Follows the parts of a path from a location. -/
def follow (store : Store) : List String → List String → Option (List String)
  | location, [] => some location
  | location, name :: rest =>
    if store.isFolderAt location then store.follow (step location name) rest else none

/-- Where a path begins. -/
def origin (store : Store) (path : Path) : List String :=
  if path.anchor = "" then store.current else []

/-- The location a path leads to. Nothing need be there. -/
def locate? (store : Store) (path : Path) : Option (List String) :=
  store.follow (store.origin path) path.parts

/-- The most bytes of a name. -/
def nameLimit : Nat :=
  255

/-- The most bytes of a path. -/
def pathLimit : Nat :=
  4095

/-- A name that is too long is looked up in a folder on the way. -/
def meetsLongName (store : Store) : List String → List String → Bool
  | _, [] => false
  | location, name :: rest =>
    store.isFolderAt location &&
      (nameLimit < name.utf8ByteSize || store.meetsLongName (step location name) rest)

/-- The path cannot even be looked up. A path that ends nowhere before its long name is merely
missing. -/
def refuses (store : Store) (path : Path) : Bool :=
  pathLimit < path.render.utf8ByteSize || store.meetsLongName (store.origin path) path.parts

def get? (store : Store) (path : Path) : Option Entry :=
  (store.locate? path).bind store.root.get?

/-- The content of the file at a path. -/
def read? (store : Store) (path : Path) : Option Bytes :=
  match store.get? path with
  | some (.file content) => some content
  | _ => none

/-- Gives the file at a path a new content. -/
def write (store : Store) (path : Path) (content : Bytes) : Store :=
  match store.locate? path with
  | some location => { store with root := store.root.put location (.file content) }
  | none => store

/-- The suffixes of source files. -/
def sourceSuffixes : List String :=
  [".tsx", ".jsx"]

/-- The paths of everything below a folder that is named like a source file, in order. -/
def sourcesBelow (path : Path) (folder : Entry) : List Path :=
  let paths := folder.descendants.map fun location => { path with parts := path.parts ++ location }
  (paths.filter fun candidate => sourceSuffixes.contains candidate.suffix).mergeSort Path.le

/-- The paths to lint for a path given by name: a folder stands for the sources below it. -/
def expand (store : Store) (path : Path) : List Path :=
  match store.get? path with
  | some (.folder entries) => sourcesBelow path (.folder entries)
  | _ => [path]

end Store
end JsxLint
