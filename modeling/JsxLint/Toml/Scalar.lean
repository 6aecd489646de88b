import JsxLint.Toml.Text
import JsxLint.Toml.Value

/-!
Truth values, numbers, dates and times of a TOML document.
-/

namespace JsxLint
namespace Toml

open Reader

/-- Digits after the first one; an underscore may stand between two digits. -/
def moreDigits (isDigit : Char → Bool) : List Char → List Char
  | '_' :: c :: rest => if isDigit c then moreDigits isDigit rest else '_' :: c :: rest
  | c :: rest => if isDigit c then moreDigits isDigit rest else c :: rest
  | [] => []

def digits (isDigit : Char → Bool) : Reader Unit := do
  discard (takeOne isDigit)
  modify (moreDigits isDigit)

/-- A whole number in another base than ten. -/
def prefixedNumber : Reader Unit := do
  expect "0"
  match ← takeOne fun _ => true with
  | 'x' => digits fun c => (Text.hexValue? c).isSome
  | 'b' => digits fun c => c = '0' || c = '1'
  | 'o' => digits fun c => '0' ≤ c && c ≤ '7'
  | _ => refuse

def skipSign : Reader Unit := do
  if (← peek) = some '+' || (← peek) = some '-' then discard (takeOne fun _ => true)

def fraction : Reader Unit := do
  expect "."
  digits Char.isDigit

def exponent : Reader Unit := do
  discard (takeOne fun c => c = 'e' || c = 'E')
  skipSign
  digits Char.isDigit

/-- A number in base ten, with or without fraction and exponent. A number of several digits does
not begin with zero. -/
def decimalNumber : Reader Unit := do
  skipSign
  if !(← accept "0") then digits Char.isDigit
  discard (attempt fraction)
  discard (attempt exponent)

def specialNumber : Reader Unit := do
  skipSign
  if !(← accept "inf") then expect "nan"

/-- Reads a number of fixed width within bounds. -/
def fixedDigits (width low high : Nat) : Reader Nat := do
  let chars ← get
  let taken := chars.take width
  let value := taken.foldl (fun total c => 10 * total + (c.toNat - '0'.toNat)) 0
  if taken.length = width ∧ taken.all Char.isDigit ∧ low ≤ value ∧ value ≤ high then
    set (chars.drop width)
    return value
  else
    refuse

def isLeapYear (year : Nat) : Bool :=
  year % 4 = 0 && (year % 100 ≠ 0 || year % 400 = 0)

def daysIn (year month : Nat) : Nat :=
  if month = 2 then (if isLeapYear year then 29 else 28)
  else if month = 4 || month = 6 || month = 9 || month = 11 then 30
  else 31

/-- Reads a date and says whether the calendar has it. -/
def date : Reader Bool := do
  let year ← fixedDigits 4 0 9999
  expect "-"
  let month ← fixedDigits 2 1 12
  expect "-"
  let day ← fixedDigits 2 1 31
  return 1 ≤ year && day ≤ daysIn year month

/-- Reads a time of day, with any number of digits of a second. -/
def time : Reader Unit := do
  discard (fixedDigits 2 0 23)
  expect ":"
  discard (fixedDigits 2 0 59)
  expect ":"
  discard (fixedDigits 2 0 59)
  discard (attempt do
    expect "."
    discard (takeOne Char.isDigit)
    skipWhile Char.isDigit)

def offset : Reader Unit := do
  match ← takeOne fun _ => true with
  | 'Z' | 'z' => return ()
  | '+' | '-' =>
    discard (fixedDigits 2 0 23)
    expect ":"
    discard (fixedDigits 2 0 59)
  | _ => refuse

/-- Reads a date, with a time and an offset if they follow. -/
def dateTime : Reader Bool := do
  let valid ← date
  discard (attempt do
    discard (takeOne fun c => c = 'T' || c = 't' || c = ' ')
    time
    discard (attempt offset))
  return valid

def truth? : Reader (Option Bool) := do
  if ← accept "true" then return some true
  else if ← accept "false" then return some false
  else return none

/-- The most digits of a whole number in base ten. -/
def wholeDigitLimit : Nat :=
  4300

/-- How many digits count against the limit: those of a whole number in base ten. -/
def wholeDigits (literal : String) : Nat :=
  let chars := literal.toList
  if chars.all fun c => c.isDigit || c = '_' || c = '+' || c = '-' then
    chars.countP Char.isDigit
  else
    0

def number : Reader String := do
  let (_, literal) ← withTaken ((prefixedNumber <|> decimalNumber) <|> specialNumber)
  if wholeDigitLimit < wholeDigits literal then
    throw (.oversizedNumber (wholeDigits literal))
  else
    return literal

/-- Reads a value that is no text and no container. What looks like a date has to be one. -/
def scalar : Reader Value := do
  match ← truth? with
  | some value => return .truth value
  | none =>
    match ← attempt (withTaken dateTime) with
    | some (true, literal) => return .moment literal
    | some (false, _) => refuse
    | none =>
      match ← attempt (withTaken time) with
      | some (_, literal) => return .moment literal
      | none => return .number (← number)

end Toml
end JsxLint
