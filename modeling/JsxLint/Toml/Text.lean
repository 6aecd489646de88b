import JsxLint.Text.Hex
import JsxLint.Toml.Reader

/-!
Texts and keys of a TOML document. A text between double quotes knows escapes, one between single
quotes does not, and tripled quotes let a text run over several lines.
-/

namespace JsxLint
namespace Toml

open Reader

/-- Reads a character written as a number of hexadecimal digits. -/
def hexChar (width : Nat) : Reader Char := do
  let chars ← get
  let digits ← require ((chars.take width).mapM Text.hexValue?)
  let code := digits.foldl (fun total digit => 16 * total + digit) 0
  if digits.length = width ∧ code.isValidChar then
    set (chars.drop width)
    return Char.ofNat code
  else
    refuse

/-- The characters with a short escape. -/
def shortEscapes : List (Char × Char) :=
  [('b', '\x08'), ('t', '\t'), ('n', '\n'), ('f', '\x0c'), ('r', '\r'), ('"', '"'), ('\\', '\\')]

/-- Reads what follows a backslash. Where a text may run over several lines, a backslash at the
end of a line joins it to the next text. -/
def escape (multiline : Bool) : Reader (List Char) := do
  match ← takeOne fun _ => true with
  | 'u' => return [← hexChar 4]
  | 'U' => return [← hexChar 8]
  | c =>
    if multiline && (isSpace c || c = '\n') then
      if c ≠ '\n' then
        skipSpace
        expect "\n"
      skipWhile fun c => isSpace c || c = '\n'
      return []
    else
      match shortEscapes.lookup c with
      | some meant => return [meant]
      | none => refuse

/-- Reads a text up to its closing double quotes. -/
def basicBody (multiline : Bool) : Nat → Reader (List Char)
  | 0 => refuse
  | fuel + 1 => do
    if ← accept (if multiline then "\"\"\"" else "\"") then
      return []
    else
      match ← takeOne fun _ => true with
      | '\\' => return (← escape multiline) ++ (← basicBody multiline fuel)
      | c =>
        if isControl c && !(multiline && c = '\n') then refuse
        else return c :: (← basicBody multiline fuel)

/-- Reads a text up to its closing single quotes. -/
def literalBody (multiline : Bool) : Nat → Reader (List Char)
  | 0 => refuse
  | fuel + 1 => do
    if ← accept (if multiline then "'''" else "'") then
      return []
    else
      let c ← takeOne fun c => !isControl c || (multiline && c = '\n')
      return c :: (← literalBody multiline fuel)

/-- Gives a reader as many steps as there are characters left. -/
def fueled {α : Type} (reader : Nat → Reader α) : Reader α :=
  fun chars => reader (chars.length + 1) chars

/-- Up to two quotes that stand right before the closing three belong to the text. -/
def trailingQuotes (quote : Char) : Reader (List Char) := do
  if ← accept (String.singleton quote) then
    if ← accept (String.singleton quote) then return [quote, quote] else return [quote]
  else
    return []

/-- Reads a text that may run over several lines, after its opening quotes. A line end right
after them does not count. -/
def multilineText (quote : Char) (body : Nat → Reader (List Char)) : Reader String := do
  discard (accept "\n")
  let chars ← fueled body
  return String.ofList (chars ++ (← trailingQuotes quote))

/-- Reads a text within one line, if one comes next. -/
def lineText? : Reader (Option String) := do
  if ← accept "\"" then return some (String.ofList (← fueled (basicBody false)))
  else if ← accept "'" then return some (String.ofList (← fueled (literalBody false)))
  else return none

/-- Reads a text of any form, if one comes next. -/
def text? : Reader (Option String) := do
  if ← accept "\"\"\"" then return some (← multilineText '"' (basicBody true))
  else if ← accept "'''" then return some (← multilineText '\'' (literalBody true))
  else lineText?

def isBareKeyChar (c : Char) : Bool :=
  c.isAlphanum || c = '-' || c = '_'

/-- Reads one name of a key, and the space after it. -/
def keyPart : Reader String := do
  let name ← match ← lineText? with
    | some name => pure name
    | none => do
      let first ← takeOne isBareKeyChar
      pure (String.ofList (first :: (← takeWhile isBareKeyChar)))
  skipSpace
  return name

def keyParts : Nat → Reader (List String)
  | 0 => refuse
  | fuel + 1 => do
    let name ← keyPart
    if ← accept "." then
      skipSpace
      return name :: (← keyParts fuel)
    else
      return [name]

/-- Reads a dotted key, and the space after it. -/
def key : Reader (List String) :=
  fueled keyParts

end Toml
end JsxLint
