/-!
Reading a text from its front. A reader takes what it wants and leaves the rest, or refuses the
text.
-/

namespace JsxLint
namespace Toml

/-- Why a text is not read. -/
inductive Refusal where
  /-- The text is no document. -/
  | malformed
  /-- A whole number has more digits than are read. -/
  | oversizedNumber (digits : Nat)
  /-- Arrays and inline tables are nested deeper than is read. -/
  | nestedTooDeep
deriving DecidableEq, Repr

abbrev Reader := StateT (List Char) (Except Refusal)

namespace Reader

def refuse {α : Type} : Reader α :=
  throw .malformed

/-- Goes on with a value, or refuses the text if there is none. -/
def require {α : Type} : Option α → Reader α
  | some value => return value
  | none => refuse

def peek : Reader (Option Char) :=
  fun chars => .ok (chars.head?, chars)

/-- Takes the longest run of wanted characters. -/
def takeWhile (wanted : Char → Bool) : Reader (List Char) :=
  fun chars => .ok (chars.takeWhile wanted, chars.dropWhile wanted)

def skipWhile (wanted : Char → Bool) : Reader Unit :=
  fun chars => .ok ((), chars.dropWhile wanted)

/-- Takes one wanted character. -/
def takeOne (wanted : Char → Bool) : Reader Char :=
  fun chars =>
    match chars with
    | c :: rest => if wanted c then .ok (c, rest) else .error .malformed
    | [] => .error .malformed

/-- Takes a text if it comes next, and says whether it did. -/
def accept (text : String) : Reader Bool :=
  fun chars =>
    if text.toList.isPrefixOf chars then .ok (true, chars.drop text.length)
    else .ok (false, chars)

def expect (text : String) : Reader Unit := do
  if ← accept text then return () else refuse

/-- Reads something if it is there, and leaves the text alone if not. -/
def attempt {α : Type} (reader : Reader α) : Reader (Option α) :=
  fun chars =>
    match reader chars with
    | .ok (value, rest) => .ok (some value, rest)
    | .error .malformed => .ok (none, chars)
    | .error refusal => .error refusal

/-- The characters a reader takes, beside its result. -/
def withTaken {α : Type} (reader : Reader α) : Reader (α × String) :=
  fun chars => do
    let (value, rest) ← reader chars
    return ((value, String.ofList (chars.take (chars.length - rest.length))), rest)

end Reader

open Reader

/-- Characters that may stand nowhere but, some of them, between the lines. -/
def isControl (c : Char) : Bool :=
  (c.toNat < 32 && c ≠ '\t') || c.toNat = 127

def isSpace (c : Char) : Bool :=
  c = ' ' || c = '\t'

def skipSpace : Reader Unit :=
  skipWhile isSpace

/-- Skips a comment up to the end of its line. -/
def skipComment : Reader Unit := do
  if ← accept "#" then
    let comment ← takeWhile (· ≠ '\n')
    if comment.any isControl then refuse

/-- Skips blank space, line ends and comments. -/
def skipLinesWithin : Nat → Reader Unit
  | 0 => return ()
  | fuel + 1 => do
    skipWhile fun c => isSpace c || c = '\n'
    if (← peek) = some '#' then
      skipComment
      skipLinesWithin fuel

def skipLines : Reader Unit :=
  fun chars => skipLinesWithin chars.length chars

end Toml
end JsxLint
