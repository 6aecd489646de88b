import JsxLint.Toml.Scalar

/-!
TOML documents. A document is a list of statements: a header opens a table or adds one to an array
of tables, and a pair gives a key of the open table a value. A table is declared by one header
only, dotted keys do not reach into tables declared elsewhere, and arrays and inline tables are
complete where they are written.
-/

namespace JsxLint
namespace Toml

open Reader

/-- The key begins with one of the closed keys. -/
def isWithin (closed : List Key) (key : Key) : Bool :=
  closed.any fun outer => outer.isPrefixOf key

/-- The room that a document has for nested values. An array takes two units of it and an inline
table three. -/
def nestingRoom : Nat :=
  986

/-- The room that is left inside a value. -/
def enter (room units : Nat) : Reader Nat :=
  if room < units then throw .nestedTooDeep else return room - units

mutual

def value : Nat → Nat → Reader Value
  | 0, _ => refuse
  | fuel + 1, room => do
    match ← text? with
    | some text => return .text text
    | none =>
      if ← accept "[" then
        return .array (← arrayItems fuel (← enter room 2))
      else if ← accept "\x7b" then
        let room ← enter room 3
        skipSpace
        if ← accept "\x7d" then return .table []
        else return .table (← inlinePairs fuel room [] [])
      else
        scalar

/-- Reads the items of an array and its closing bracket. A comma may follow the last item. -/
def arrayItems : Nat → Nat → Reader (List Value)
  | 0, _ => refuse
  | fuel + 1, room => do
    skipLines
    if ← accept "]" then
      return []
    else
      let item ← value fuel room
      skipLines
      if ← accept "]" then
        return [item]
      else
        expect ","
        return item :: (← arrayItems fuel room)

def pair : Nat → Nat → Reader (Key × Value)
  | 0, _ => refuse
  | fuel + 1, room => do
    let name ← key
    expect "="
    skipSpace
    return (name, ← value fuel room)

/-- Reads the remaining pairs of an inline table and its closing brace. -/
def inlinePairs : Nat → Nat → Table → List Key → Reader Table
  | 0, _, _, _ => refuse
  | fuel + 1, room, table, closed => do
    let (name, item) ← pair fuel room
    match if isWithin closed name then none
      else updateAt false (define? (name.getLast?.getD "") item) name.dropLast table with
    | none => refuse
    | some extended =>
      skipSpace
      if ← accept "\x7d" then
        return extended
      else
        expect ","
        skipSpace
        inlinePairs fuel room extended (if item.isContainer then name :: closed else closed)

end

/-- A document as far as it has been read. -/
structure Draft where
  root : Table
  /-- The table that pairs belong to. -/
  header : Key
  /-- Keys that a header can no longer open. -/
  declared : List Key
  /-- Keys that dotted keys went through since the last header. -/
  passed : List Key
  /-- Arrays and inline tables, which nothing can be added to. -/
  closed : List Key
deriving Repr, Inhabited

namespace Draft

def empty : Draft :=
  ⟨[], [], [], [], []⟩

/-- Ends the section of a header. -/
def endSection (draft : Draft) : Draft :=
  { draft with declared := draft.declared ++ draft.passed, passed := [] }

/-- Opens a table. -/
def openTable? (draft : Draft) (name : Key) : Option Draft := do
  if draft.declared.contains name || isWithin draft.closed name then
    none
  else
    let root ← updateAt true some name draft.root
    return { draft with root, header := name, declared := draft.declared ++ [name] }

/-- Adds a table to an array of tables and opens it. What was declared inside the table before it
can be declared anew. -/
def openElement? (draft : Draft) (name : Key) : Option Draft := do
  if isWithin draft.closed name then
    none
  else
    let root ← updateAt true (appendTable? (name.getLast?.getD "")) name.dropLast draft.root
    return { draft with
      root
      header := name
      declared := (draft.declared.filter fun inner => !name.isPrefixOf inner) ++ [name]
      closed := draft.closed.filter fun inner => !name.isPrefixOf inner }

/-- Gives a key of the open table a value. -/
def define? (draft : Draft) (name : Key) (item : Value) : Option Draft := do
  let through := (List.range (name.length - 1)).map fun i => draft.header ++ name.take (i + 1)
  let parent := draft.header ++ name.dropLast
  if through.any draft.declared.contains || isWithin draft.closed parent then
    none
  else
    let root ← updateAt true (Toml.define? (name.getLast?.getD "") item) parent draft.root
    return { draft with
      root
      passed := draft.passed ++ through
      closed := if item.isContainer then draft.closed ++ [draft.header ++ name]
        else draft.closed }

end Draft

/-- Reads one statement, if the line has one. -/
def statement (draft : Draft) : Reader Draft := do
  if ← accept "[[" then
    skipSpace
    let name ← key
    expect "]]"
    require (draft.endSection.openElement? name)
  else if ← accept "[" then
    skipSpace
    let name ← key
    expect "]"
    require (draft.endSection.openTable? name)
  else
    match ← peek with
    | none | some '\n' | some '#' => return draft
    | some _ =>
      let (name, item) ← fueled fun fuel => pair fuel nestingRoom
      require (draft.define? name item)

/-- Reads statements to the end of the text, one a line. -/
def statements : Nat → Draft → Reader Draft
  | 0, _ => refuse
  | fuel + 1, draft => do
    skipSpace
    let draft ← statement draft
    skipSpace
    skipComment
    if ← accept "\n" then statements fuel draft
    else if (← peek).isSome then refuse
    else return draft

/-- Line ends of two characters count as one. -/
def joinLineEnds : List Char → List Char
  | '\r' :: '\n' :: rest => '\n' :: joinLineEnds rest
  | c :: rest => c :: joinLineEnds rest
  | [] => []

/-- The table a document describes. -/
def parse (text : String) : Except Refusal Table :=
  ((fueled fun fuel => statements fuel Draft.empty) (joinLineEnds text.toList)).map (·.1.root)

end Toml
end JsxLint
