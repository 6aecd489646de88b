import JsxLint.Rule.SpecificComponent

/-!
The collection of known rules. Ids are unique; a choice of rules names them by the start of their
id or by their full name.
-/

namespace JsxLint

/-- Rules in the order of their registration. -/
structure Registry where
  rules : List Rule

namespace Registry

def empty : Registry :=
  ⟨[]⟩

def register (registry : Registry) (rule : Rule) : Except Failure Registry :=
  if registry.rules.any fun known => known.id = rule.id then .error (.duplicateRule rule.id)
  else .ok ⟨registry.rules ++ [rule]⟩

/-- The registry that holds the built-in rule. -/
def builtin : Registry :=
  ⟨[Rule.specificComponent]⟩

/-- The first rule with this id or name. -/
def find? (registry : Registry) (key : String) : Option Rule :=
  registry.rules.find? fun rule => key = rule.id ∨ key = rule.name

end Registry

namespace Rule

/-- An entry of a choice of rules means this rule. -/
def matchesEntry (rule : Rule) (entry : String) : Bool :=
  entry.toList.isPrefixOf rule.id.toList || rule.name = entry

def matchesAny (rule : Rule) (entries : List String) : Bool :=
  entries.any rule.matchesEntry

end Rule

/-- The rules that some entry of `select` and no entry of `ignore` means. -/
def Registry.enabled (registry : Registry) (select ignore : List String) : List Rule :=
  registry.rules.filter fun rule => rule.matchesAny select && !rule.matchesAny ignore

end JsxLint
