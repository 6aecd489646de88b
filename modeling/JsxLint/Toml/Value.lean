/-!
Values of a TOML document. Numbers, dates and times are kept as they are written, since only texts,
arrays and tables are looked into. A table is changed at a dotted key, through tables on the way
and, where allowed, through the last element of an array of tables.
-/

namespace JsxLint
namespace Toml

inductive Value where
  | text (value : String)
  | truth (value : Bool)
  | number (literal : String)
  | moment (literal : String)
  | array (items : List Value)
  | table (entries : List (String × Value))
deriving Repr, Inhabited

/-- Entries with distinct names, in the order in which they were made. -/
abbrev Table := List (String × Value)

/-- The names of a dotted key. -/
abbrev Key := List String

namespace Value

/-- Arrays and tables. -/
def isContainer : Value → Bool
  | .array _ | .table _ => true
  | _ => false

def text? : Value → Option String
  | .text value => some value
  | _ => none

end Value

/-- Gives a name a value, in the place of the old one if there is one. -/
def assign (name : String) (value : Value) : Table → Table
  | [] => [(name, value)]
  | (other, old) :: rest =>
    if other = name then (name, value) :: rest else (other, old) :: assign name value rest

/-- Gives a new name a value. -/
def define? (name : String) (value : Value) (table : Table) : Option Table :=
  if (table.lookup name).isSome then none else some (assign name value table)

/-- Changes the table at a key. Missing tables on the way are made; any other value on the way
makes the change impossible. -/
def updateAt (throughArrays : Bool) (change : Table → Option Table) : Key → Table → Option Table
  | [], table => change table
  | name :: rest, table =>
    match table.lookup name with
    | none => do
      return assign name (.table (← updateAt throughArrays change rest [])) table
    | some (.table inner) => do
      return assign name (.table (← updateAt throughArrays change rest inner)) table
    | some (.array items) =>
      match throughArrays, items.getLast? with
      | true, some (.table inner) => do
        let changed ← updateAt throughArrays change rest inner
        return assign name (.array (items.dropLast ++ [.table changed])) table
      | _, _ => none
    | some _ => none

/-- Adds an empty table to the array under a name. -/
def appendTable? (name : String) (table : Table) : Option Table :=
  match table.lookup name with
  | none => some (assign name (.array [.table []]) table)
  | some (.array items) => some (assign name (.array (items ++ [.table []])) table)
  | some _ => none

end Toml
end JsxLint
