import JsxLint.Component.Match
import JsxLint.Component.Replacement
import JsxLint.Rule.Basic

/-!
The built-in rule: a generic box of the library that carries a telling attribute should be the
specific component the library has for it.
-/

namespace JsxLint
namespace SpecificComponent

def generic : String := "Box"

/-- The tag is the library's generic component. -/
def eligible (resolver : Resolver) (tag : Cursor) : Except Failure Bool :=
  match tag.tagName? with
  | some name => do
    if (← name.text resolver.source) = generic then Component.isLibraryTag resolver tag
    else return false
  | none => return false

def message (attr specific : String) : String :=
  "'" ++ generic ++ "' with attribute '" ++ attr ++ "' could be replaced by '" ++ specific ++ "'."

/-- What is found at a tag whose attribute prescribes a component. -/
def finding (context : Context) (tag : Cursor) (found : Component.Match) : Logged Finding := do
  let attr ← found.attr.text context.source
  Logged.record [.replacementFound context.path (tag.row + 1) generic found.specific]
  let fix ← Component.plan context.resolver tag found.attr found.specific
  return {
    message := message attr found.specific
    data := [("invalid_component", generic), ("valid_component", found.specific),
      ("attribute", attr)]
    fix := some fix }

def inspect (context : Context) (tag : Cursor) : Logged (Option Finding) := do
  if ← eligible context.resolver tag then
    match ← Component.match? context.source generic tag with
    | some found => return some (← finding context tag found)
    | none => return none
  else
    return none

end SpecificComponent

def Rule.specificComponent : Rule where
  id := "C001"
  name := "require-specific-component"
  severity := .error
  autoFixable := true
  description :=
    "Box used with an attribute that a more specific Chakra component provides, e.g. Flex."
  inspect := SpecificComponent.inspect

end JsxLint
