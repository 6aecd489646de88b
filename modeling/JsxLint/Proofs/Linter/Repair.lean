import JsxLint.Linter.Repair
import JsxLint.Proofs.Linter.Batch

/-!
Fixing and linting in turns. A run is a chain of passes, each of which applies something, and it
ends in one of two ways: a further pass finds nothing to apply, or the limit is reached. In the
first case the text is a fixed point; nothing is said of whether one is ever reached.
-/

namespace JsxLint
namespace Batch

theorem applied_foldl_ne_nil (issues : List Issue) (batch : Batch) (h : batch.applied ≠ []) :
    (issues.foldl add batch).applied ≠ [] := by
  induction issues generalizing batch with
  | nil => exact h
  | cons issue rest ih =>
      apply ih
      obtain ⟨-, hadd⟩ | ⟨-, hadd⟩ := batch.add_cases issue
      · rw [hadd]
        exact h
      · rw [hadd]
        exact List.append_ne_nil_of_right_ne_nil _ (List.cons_ne_nil _ _)

theorem add_empty (issue : Issue) : empty.add issue = ⟨[issue], []⟩ := rfl

/-- The first issue in the queue meets nothing to conflict with, so putting issues off never
leaves a batch empty. -/
theorem applied_ofIssues_eq_nil_iff {issues : List Issue} :
    (ofIssues issues).applied = [] ↔ ∀ issue ∈ issues, issue.edits = [] := by
  constructor
  · intro h issue hi
    cases hq : queue issues with
    | nil =>
        have : issue ∉ queue issues := by simp [hq]
        simpa [mem_queue, hi, Issue.fixable] using this
    | cons first rest =>
        rw [ofIssues, hq, List.foldl_cons, add_empty] at h
        exact absurd h (applied_foldl_ne_nil rest _ (List.cons_ne_nil _ _))
  · intro h
    apply List.eq_nil_iff_forall_not_mem.2
    intro issue hi
    obtain ⟨hmem, fixable⟩ := mem_of_mem_applied hi
    simp [Issue.fixable, h issue hmem] at fixable

end Batch

namespace Linter

/-- The passes of a run from one text to another, each with the number of issues it applied. -/
inductive Passes (linter : Linter) (path : Path) : String → List Nat → String → Prop where
  | done (source : String) : Passes linter path source [] source
  | pass {before after : String} {issues : List Issue} {outcome : Outcome} {counts : List Nat}
      (analyzed : (linter.analyze path before).result = .ok issues)
      (fixed : (applyFixes before issues).result = .ok outcome)
      (modified : outcome.applied ≠ [])
      (rest : Passes linter path outcome.source counts after) :
      Passes linter path before (outcome.applied.length :: counts) after

theorem Passes.pos {linter : Linter} {path : Path} {before after : String} {counts : List Nat}
    (h : linter.Passes path before counts after) : ∀ count ∈ counts, 0 < count := by
  induction h with
  | done source =>
      intro count hc
      cases hc
  | pass analyzed fixed modified rest ih =>
      intro count hc
      rcases List.mem_cons.1 hc with rfl | hc
      · exact List.length_pos_iff.2 modified
      · exact ih count hc

theorem Passes.length_le_total {linter : Linter} {path : Path} {before after : String}
    {counts : List Nat} (h : linter.Passes path before counts after) :
    counts.length ≤ counts.foldr (· + ·) 0 := by
  induction h with
  | done source => exact Nat.le_refl 0
  | pass analyzed fixed modified rest ih =>
      have := List.length_pos_iff.2 modified
      simp only [List.length_cons, List.foldr_cons]
      omega

theorem Passes.source_eq {linter : Linter} {path : Path} {before after : String}
    {counts : List Nat} (h : linter.Passes path before counts after) (hc : counts = []) :
    after = before := by
  cases h with
  | done source => rfl
  | pass analyzed fixed modified rest => cases hc

variable {linter : Linter} {path : Path}

theorem repairFrom_zero {report final : Report}
    (h : (linter.repairFrom path 0 report).result = .ok final) :
    ∃ issues, (linter.analyze path report.source).result = .ok issues ∧
      final = { report with issues } := by
  simp only [repairFrom, Logged.result_bind, Logged.result_record, ok_bind,
    Logged.result_pure] at h
  obtain ⟨issues, analyzed, h⟩ := bind_eq_ok.1 h
  exact ⟨issues, analyzed, (Except.ok.inj h).symm⟩

/-- A pass either applies something and the run goes on from the new text, or it applies nothing
and the run is over. -/
theorem repairFrom_succ {left : Nat} {report final : Report}
    (h : (linter.repairFrom path (left + 1) report).result = .ok final) :
    ∃ issues outcome, (linter.analyze path report.source).result = .ok issues ∧
      (applyFixes report.source issues).result = .ok outcome ∧
      ((outcome.applied ≠ [] ∧
          (linter.repairFrom path left ⟨outcome.source, issues, report.passes + 1,
            report.fixed + outcome.applied.length⟩).result = .ok final) ∨
        (outcome.applied = [] ∧ final = { report with issues, passes := report.passes + 1 })) := by
  simp only [repairFrom, Logged.result_bind] at h
  obtain ⟨issues, analyzed, h⟩ := bind_eq_ok.1 h
  obtain ⟨outcome, applied, h⟩ := bind_eq_ok.1 h
  refine ⟨issues, outcome, analyzed, applied, ?_⟩
  by_cases none : outcome.applied = []
  · refine .inr ⟨none, ?_⟩
    simpa [Outcome.modified, none, eq_comm] using h
  · refine .inl ⟨none, ?_⟩
    simpa [Outcome.modified, none] using h

theorem edits_eq_nil {source : String} {issues : List Issue} {outcome : Outcome}
    (applied : (applyFixes source issues).result = .ok outcome) (none : outcome.applied = []) :
    ∀ issue ∈ issues, issue.edits = [] := by
  rw [result_applyFixes] at applied
  obtain ⟨text, -, rfl⟩ := map_eq_ok.1 applied
  exact Batch.applied_ofIssues_eq_nil_iff.1 none

/-- Where a run stands at its end, seen from any of its passes. -/
theorem repairFrom_passes {left : Nat} {report final : Report}
    (h : (linter.repairFrom path left report).result = .ok final) :
    (linter.analyze path final.source).result = .ok final.issues ∧
    ∃ counts, linter.Passes path report.source counts final.source ∧
      final.fixed = report.fixed + counts.foldr (· + ·) 0 ∧
      ((final.passes = report.passes + counts.length + 1 ∧ counts.length < left ∧
          ∀ issue ∈ final.issues, issue.edits = []) ∨
        (final.passes = report.passes + left ∧ counts.length = left)) := by
  -- The report is generalised because each pass goes on from the one that the pass before left.
  induction left generalizing report with
  | zero =>
      obtain ⟨issues, analyzed, rfl⟩ := repairFrom_zero h
      exact ⟨analyzed, [], .done _, rfl, .inr ⟨rfl, rfl⟩⟩
  | succ left ih =>
      obtain ⟨issues, outcome, analyzed, applied, ⟨modified, h⟩ | ⟨none, rfl⟩⟩ :=
        repairFrom_succ h
      · obtain ⟨final_analyzed, counts, rest, fixed, ending⟩ := ih h
        refine ⟨final_analyzed, outcome.applied.length :: counts,
          .pass analyzed applied modified rest, ?_, ?_⟩
        · simp only [fixed, List.foldr_cons]
          omega
        · simp only [List.length_cons]
          rcases ending with ⟨passes, short, settled⟩ | ⟨passes, full⟩
          · exact .inl ⟨by simp only [passes]; omega, by omega, settled⟩
          · exact .inr ⟨by simp only [passes]; omega, by omega⟩
      · exact ⟨analyzed, [], .done _, rfl, .inl ⟨rfl, Nat.succ_pos _, edits_eq_nil applied none⟩⟩

theorem repair_of_settled {source : String} {issues : List Issue}
    (analyzed : (linter.analyze path source).result = .ok issues)
    (settled : ∀ issue ∈ issues, issue.edits = []) :
    (linter.repair path source).result = .ok ⟨source, issues, 1, 0⟩ := by
  have none := Batch.applied_ofIssues_eq_nil_iff.2 settled
  have applied : (applyFixes source issues).result = .ok ⟨Batch.ofIssues issues, source⟩ := by
    rw [result_applyFixes, Batch.applyTo_of_isEmpty none]
    rfl
  simp [repair, passLimit, repairFrom, analyzed, applied, Outcome.modified, none]

/-- A run reports its final text faithfully: the issues are those of that text, the count is what
its passes applied, and it stops at a fixed point unless ten passes each applied something. -/
theorem repair_reports_final_text (linter : Linter) (path : Path) (source : String)
    {report : Report} (h : (linter.repair path source).result = .ok report) :
    1 ≤ report.passes ∧ report.passes ≤ 10 ∧
    (linter.analyze path report.source).result = .ok report.issues ∧
    report.passes - 1 ≤ report.fixed ∧
    (report.fixed = 0 → report.source = source) ∧
    ∃ counts, linter.Passes path source counts report.source ∧
      report.fixed = counts.foldr (· + ·) 0 ∧ (∀ count ∈ counts, 0 < count) ∧
      ((report.passes = counts.length + 1 ∧
          (∀ issue ∈ report.issues, issue.edits = []) ∧
          (linter.repair path report.source).result =
            .ok ⟨report.source, report.issues, 1, 0⟩) ∨
        (report.passes = 10 ∧ counts.length = 10)) := by
  obtain ⟨analyzed, counts, passes, fixed, ending⟩ := repairFrom_passes h
  simp only [Nat.zero_add, passLimit] at fixed ending
  have bound := passes.length_le_total
  have unchanged : report.fixed = 0 → report.source = source := by
    intro zero
    exact passes.source_eq (List.length_eq_zero_iff.1 (by omega))
  rcases ending with ⟨count, short, settled⟩ | ⟨count, full⟩
  · exact ⟨by omega, by omega, analyzed, by omega, unchanged, counts, passes, fixed, passes.pos,
      .inl ⟨count, settled, repair_of_settled analyzed settled⟩⟩
  · exact ⟨by omega, by omega, analyzed, by omega, unchanged, counts, passes, fixed, passes.pos,
      .inr ⟨count, full⟩⟩

/-- A linter that wants the letter `a` in place of a text that is the letter `b`. -/
def letterLinter : Linter where
  parse bytes := .node
    { start := 0, stop := bytes.length, kind := .jsxSelfClosingElement, row := 0, column := 0
      named := true, missing := false, hasError := false, field := none } []
  rules :=
    [{ id := "R"
       name := "letter"
       severity := .error
       autoFixable := true
       description := ""
       inspect := fun context _ => pure
        (if context.source = Text.encode "b" then
          some ⟨"", [], some ⟨[⟨⟨0, 1⟩, "a", by decide⟩], List.pairwise_singleton _ _⟩⟩
        else
          none) }]

theorem repair_reports_final_text_letter :
    (letterLinter.repair (Path.ofString "x") "b").result = .ok ⟨"a", [], 2, 1⟩ ∧
    (letterLinter.analyze (Path.ofString "x") "a").result = .ok [] := by
  have result : (letterLinter.repair (Path.ofString "x") "b").result = .ok ⟨"a", [], 2, 1⟩ :=
    eq_ok_of_toOption (by decide +kernel)
  obtain ⟨-, -, analyzed, -⟩ := repair_reports_final_text letterLinter (Path.ofString "x") "b" result
  exact ⟨result, analyzed⟩

end Linter
end JsxLint
