import JsxLint.Text.Hex
import JsxLint.Text.Visible

/-!
The quoted form of a word in a message. Single quotes are used unless the word holds a single
quote and no double one; the quote in use and the backslash are escaped, and a character without
a visible form is written by its code.
-/

namespace JsxLint
namespace Text

def escapeChar (quote c : Char) : List Char :=
  if c = quote || c = '\\' then ['\\', c]
  else if c = '\n' then ['\\', 'n']
  else if c = '\r' then ['\\', 'r']
  else if c = '\t' then ['\\', 't']
  else if isInvisible c then
    if c.toNat ≤ 0xFF then '\\' :: 'x' :: hexDigits 2 c.toNat
    else if c.toNat ≤ 0xFFFF then '\\' :: 'u' :: hexDigits 4 c.toNat
    else '\\' :: 'U' :: hexDigits 8 c.toNat
  else [c]

def quoted (word : String) : String :=
  let chars := word.toList
  let quote := if '\'' ∈ chars ∧ '"' ∉ chars then '"' else '\''
  String.ofList (quote :: chars.flatMap (escapeChar quote) ++ [quote])

end Text
end JsxLint
