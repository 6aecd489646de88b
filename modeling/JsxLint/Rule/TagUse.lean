import JsxLint.Rule.Basic
import JsxLint.Tag

/-!
Rules that report every use of one tag name. Such a rule can also stand for a replacement that
cannot be imported, and then fails at the first use.
-/

namespace JsxLint
namespace TagUse

/-- The tag is spelled with the wanted name. -/
def uses (source : Bytes) (wanted : Option String) (tag : Cursor) : Except Failure Bool :=
  match tag.tagName? with
  | some name => return some (← name.text source) = wanted
  | none => return false

def inspect (wanted unimportable : Option String) (context : Context) (tag : Cursor) :
    Logged (Option Finding) := do
  if ← uses context.source wanted tag then
    match unimportable with
    | some component => Logged.ofExcept (.error (.missingImport component .noDeclaration))
    | none => return some ⟨"tag " ++ wanted.getD "", [], none⟩
  else
    return none

end TagUse

/-- A rule that reports the tags of a name. -/
def Rule.tagUse (id name : String) (severity : Severity) (tag unimportable : Option String) :
    Rule where
  id := id
  name := name
  severity := severity
  autoFixable := false
  description := ""
  inspect := TagUse.inspect tag unimportable

end JsxLint
