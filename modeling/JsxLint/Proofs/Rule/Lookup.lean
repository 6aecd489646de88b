import JsxLint.Proofs.Rule.Registry
import JsxLint.Rule.TagUse

/-!
Which rule answers to an id. Rules are looked up by id and by name at once and the first one wins,
so a rule answers to its own id unless a rule that was registered before has this id for its name.
Two rules of one name are allowed; which of them answers to the name is not considered.
-/

namespace JsxLint
namespace Registry

variable {registry : Registry} {rule : Rule} {earlier later : List Rule}

theorem register_eq_error {cause : Failure} :
    registry.register rule = .error cause ↔
      rule.id ∈ registry.rules.map (·.id) ∧ cause = .duplicateRule rule.id := by
  have guard : (registry.rules.any fun known => known.id = rule.id) = true ↔
      rule.id ∈ registry.rules.map (·.id) := by
    simp
  unfold register
  split
  case isTrue taken => simp only [guard.1 taken, Except.error.injEq, true_and, eq_comm]
  case isFalse free => simp only [mt guard.2 free, reduceCtorEq, false_and]

theorem UniqueIds.id_ne_of_split (unique : registry.UniqueIds)
    (split : registry.rules = earlier ++ rule :: later) :
    ∀ other ∈ earlier, other.id ≠ rule.id := by
  intro other before
  rw [UniqueIds, split, List.map_append, List.nodup_append] at unique
  exact unique.2.2 _ (List.mem_map_of_mem before) _ (by simp)

/-- The first of the rules before it that has the id for its name answers to the id of a rule, or
else the rule itself. -/
theorem UniqueIds.find?_id (unique : registry.UniqueIds)
    (split : registry.rules = earlier ++ rule :: later) :
    registry.find? rule.id =
      some ((earlier.find? fun other => other.name = rule.id).getD rule) := by
  have by_name : ∀ other ∈ earlier, decide (rule.id = other.id ∨ rule.id = other.name) =
      decide (other.name = rule.id) := by
    intro other before
    have fresh := (unique.id_ne_of_split split other before).symm
    simp only [fresh, false_or, eq_comm]
  have first : (earlier.find? fun other => rule.id = other.id ∨ rule.id = other.name) =
      earlier.find? fun other => other.name = rule.id := by
    rw [← List.head?_filter, ← List.head?_filter, List.filter_congr by_name]
  rw [find?, split, List.find?_append, first, List.find?_cons_of_pos (by simp)]
  cases earlier.find? fun other => other.name = rule.id <;> rfl

/-- In every registry that comes about, ids are different, and a rule is turned away only because
its id is taken, which leaves the rules as they were. A rule answers to its own id exactly if no
rule before it has that id for its name; otherwise the first such rule does. -/
theorem reached_rule_found_by_id_iff (reached : registry.Reached) :
    (registry.rules.map (·.id)).Nodup ∧
    (∀ rule cause, registry.register rule = .error cause →
      cause = .duplicateRule rule.id ∧ (registry.attempt rule).rules = registry.rules) ∧
    ∀ earlier rule later, registry.rules = earlier ++ rule :: later →
      registry.find? rule.id =
        some ((earlier.find? fun other => other.name = rule.id).getD rule) ∧
      (registry.find? rule.id = some rule ↔ ∀ other ∈ earlier, other.name ≠ rule.id) := by
  have unique := reached.uniqueIds
  refine ⟨unique, fun rule cause refused => ?_, fun earlier rule later split => ?_⟩
  · obtain ⟨taken, rfl⟩ := register_eq_error.1 refused
    obtain ⟨-, same⟩ | ⟨free, -⟩ := registry.attempt_cases rule
    · exact ⟨rfl, by rw [same]⟩
    · exact absurd taken free
  · have answer := unique.find?_id split
    refine ⟨answer, ?_⟩
    rw [answer, Option.some.injEq]
    cases named : earlier.find? fun other => other.name = rule.id with
    | none => simpa using named
    | some other =>
        have before := List.mem_of_find?_eq_some named
        have hides : other.name = rule.id := by simpa using List.find?_some named
        have fresh := unique.id_ne_of_split split other before
        refine iff_of_false (fun same => fresh ?_) fun none => none other before hides
        rw [← same, Option.getD_some]

/-- A rule with the name of a rule before it, and one that is turned away. -/
def namesakeRegistry : Registry :=
  builtin.attemptAll
    [.tagUse "N1" "C001" .warning (some "p") none, .tagUse "N1" "again" .warning (some "b") none]

/-- A name that is the id of an earlier rule hides neither of the two. -/
theorem reached_rule_found_by_id_iff_namesake :
    namesakeRegistry.Reached ∧ namesakeRegistry.rules.map (·.id) = ["C001", "N1"] ∧
    namesakeRegistry.find? "C001" = some .specificComponent ∧
    namesakeRegistry.find? "N1" = some (.tagUse "N1" "C001" .warning (some "p") none) := by
  have reached : namesakeRegistry.Reached := ⟨_, rfl⟩
  obtain ⟨-, -, found⟩ := reached_rule_found_by_id_iff reached
  have rules : namesakeRegistry.rules =
      [.specificComponent, .tagUse "N1" "C001" .warning (some "p") none] := rfl
  refine ⟨reached, rfl, ?_, ?_⟩
  · exact (found [] _ _ rules).2.2 (by simp)
  · exact (found [_] _ [] rules).2.2 (by simp [Rule.specificComponent, Rule.tagUse])

/-- A rule that has the id of the next one for its name. -/
def hidingRegistry : Registry :=
  builtin.attemptAll
    [.tagUse "B001" "C002" .warning (some "b") none,
     .tagUse "C002" "no-div" .warning (some "div") none]

theorem rule_hidden_by_earlier_name :
    hidingRegistry.Reached ∧ ∃ rule ∈ hidingRegistry.rules,
      (hidingRegistry.find? rule.id).map (·.id) = some "B001" ∧
        hidingRegistry.find? rule.id ≠ some rule := by
  refine ⟨⟨_, rfl⟩, .tagUse "C002" "no-div" .warning (some "div") none, ?_, rfl, fun same => ?_⟩
  · exact List.mem_of_getElem? (i := 2) rfl
  · exact absurd (congrArg (Option.map (·.id)) same) (by decide)

end Registry
end JsxLint
