import JsxLint.Rule.Registry
import Mathlib.Data.List.Nodup

/-!
Registries as they come about. Rules are registered one after the other, and a rule whose id is
taken is turned away and leaves everything as it was. So an id stands for one rule at most. Names
are not checked when a rule is registered, and nothing is said of them here.
-/

namespace JsxLint
namespace Registry

/-- The registry after an attempt to register a rule, successful or not. -/
def attempt (registry : Registry) (rule : Rule) : Registry :=
  match registry.register rule with
  | .ok extended => extended
  | .error _ => registry

/-- The registry after attempts to register some rules, one after the other. -/
def attemptAll (registry : Registry) (rules : List Rule) : Registry :=
  rules.foldl attempt registry

/-- The registry comes about by registering rules beside the built-in one. -/
def Reached (registry : Registry) : Prop :=
  ∃ rules, registry = builtin.attemptAll rules

def UniqueIds (registry : Registry) : Prop :=
  (registry.rules.map (·.id)).Nodup

theorem attempt_cases (registry : Registry) (rule : Rule) :
    (rule.id ∈ registry.rules.map (·.id) ∧ registry.attempt rule = registry) ∨
      (rule.id ∉ registry.rules.map (·.id) ∧
        (registry.attempt rule).rules = registry.rules ++ [rule]) := by
  have guard : (registry.rules.any fun known => known.id = rule.id) = true ↔
      rule.id ∈ registry.rules.map (·.id) := by
    simp
  by_cases taken : rule.id ∈ registry.rules.map (·.id)
  · exact .inl ⟨taken, by rw [attempt, register, if_pos (guard.2 taken)]⟩
  · exact .inr ⟨taken, by rw [attempt, register, if_neg (mt guard.1 taken)]⟩

theorem uniqueIds_builtin : builtin.UniqueIds :=
  List.nodup_singleton _

theorem UniqueIds.attempt {registry : Registry} (unique : registry.UniqueIds) (rule : Rule) :
    (registry.attempt rule).UniqueIds := by
  obtain ⟨-, same⟩ | ⟨free, extended⟩ := registry.attempt_cases rule
  · rw [same]
    exact unique
  · rw [UniqueIds, extended, List.map_append]
    refine unique.append (List.nodup_singleton _) ?_
    simpa using free

theorem UniqueIds.attemptAll {registry : Registry} (unique : registry.UniqueIds)
    (rules : List Rule) : (registry.attemptAll rules).UniqueIds := by
  induction rules generalizing registry with
  | nil => exact unique
  | cons rule rest ih => exact ih (unique.attempt rule)

theorem Reached.uniqueIds {registry : Registry} (reached : registry.Reached) :
    registry.UniqueIds := by
  obtain ⟨rules, rfl⟩ := reached
  exact uniqueIds_builtin.attemptAll rules

theorem UniqueIds.eq_of_id {registry : Registry} (unique : registry.UniqueIds) {a b : Rule}
    (ha : a ∈ registry.rules) (hb : b ∈ registry.rules) (same : a.id = b.id) : a = b :=
  List.inj_on_of_nodup_map unique ha hb same

end Registry
end JsxLint
