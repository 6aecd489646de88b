/-!
File paths in normal form. Repeated slashes and single dots are dropped and two dots are kept,
since what they mean depends on the file system. A leading slash makes a path absolute; exactly
two of them are kept apart from one.
-/

namespace JsxLint

structure Path where
  /-- Nothing, one slash or two. -/
  anchor : String
  parts : List String
deriving DecidableEq, Repr, Inhabited

namespace Path

/-- The slash-separated pieces of a text. -/
def pieces : List Char → List (List Char)
  | [] => [[]]
  | '/' :: rest => [] :: pieces rest
  | c :: rest =>
    match pieces rest with
    | piece :: others => (c :: piece) :: others
    | [] => [[c]]

def anchorOf : List Char → String
  | '/' :: '/' :: '/' :: _ => "/"
  | '/' :: '/' :: _ => "//"
  | '/' :: _ => "/"
  | _ => ""

def ofString (text : String) : Path :=
  let parts := (pieces text.toList).map String.ofList
  ⟨anchorOf text.toList, parts.filter fun part => part ≠ "" ∧ part ≠ "."⟩

/-- The printed form; the path without any part is the current directory. -/
def render (path : Path) : String :=
  if path.anchor = "" ∧ path.parts = [] then "."
  else path.anchor ++ "/".intercalate path.parts

/-- The last part, or nothing. -/
def name (path : Path) : String :=
  path.parts.getLast?.getD ""

/-- The path of an entry in the directory at this path. -/
def child (path : Path) (name : String) : Path :=
  { path with parts := path.parts ++ [name] }

/-- A name from its last dot on, unless the dot begins or ends the name. -/
def suffix (path : Path) : String :=
  let reversed := path.name.toList.reverse
  let extension := reversed.takeWhile (· ≠ '.')
  let stem := (reversed.dropWhile (· ≠ '.')).drop 1
  if extension.isEmpty || stem.isEmpty then "" else String.ofList ('.' :: extension.reverse)

/-- The null character ends a name for a file system, so none can hold it. -/
def hasNull (path : Path) : Bool :=
  path.parts.any fun part => part.toList.contains '\x00'

/-- Lists of parts are ordered by the first part in which they differ. -/
def partsLe : List String → List String → Bool
  | [], _ => true
  | _ :: _, [] => false
  | a :: as, b :: bs => a < b || (a = b && partsLe as bs)

/-- Paths are ordered part by part. -/
def le (a b : Path) : Bool :=
  partsLe a.parts b.parts

end Path
end JsxLint
