import JsxLint.Text.Blank

/-!
The literal text an attribute value carries. A value is literal when it is a quoted string, or
an expression container around nothing but a quoted string or a template without substitutions.
-/

namespace JsxLint
namespace Component

/-- Drops one newline at the very end, if there is one. -/
def dropFinalNewline (chars : List Char) : List Char :=
  if chars.getLast? = some '\n' then chars.dropLast else chars

/-- A template substitution begins somewhere in the text. -/
def hasSubstitution : List Char → Bool
  | '$' :: '\x7b' :: _ => true
  | _ :: rest => hasSubstitution rest
  | [] => false

/-- The text between two equal quotes, in which that quote does not occur again. A text between
back quotes also holds no substitution. -/
def unquote? (quotes : List Char) : List Char → Option (List Char)
  | [] => none
  | quote :: rest =>
    let value := rest.dropLast
    if quote ∈ quotes ∧ rest.getLast? = some quote ∧ quote ∉ value ∧
        ¬ (quote = '\x60' ∧ hasSubstitution value) then
      some value
    else
      none

/-- What an expression container holds, without the blanks around it. -/
def braced? : List Char → Option (List Char)
  | '\x7b' :: rest =>
    if rest.getLast? = some '\x7d' then some (Text.trimBlank rest.dropLast) else none
  | _ => none

def literal? (text : String) : Option String :=
  let chars := dropFinalNewline text.toList
  let value? :=
    match braced? chars with
    | some inner => unquote? ['"', '\'', '\x60'] inner
    | none => unquote? ['"', '\''] chars
  value?.map String.ofList

end Component
end JsxLint
