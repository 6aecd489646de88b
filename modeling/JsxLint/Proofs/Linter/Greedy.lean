import JsxLint.Proofs.Linter.Repair
import Mathlib.Data.List.Nodup

/-!
Which fixes go into a batch. The issues that have something to change stand in a queue, ordered by
where they first change the source and then by line and column, and each of them is taken unless it
conflicts with one taken before it. An issue that was put off blocks nobody. The order in which the
issues were handed over shows only among those with the same place in the queue.
-/

namespace JsxLint
namespace Issue

/-- Some of the issues that were handed over, by key and within one key as they were handed over. -/
structure InFixOrder (input list : List Issue) : Prop where
  sorted : list.Pairwise fun a b => a.fixKey ≤ b.fixKey
  stable : ∀ key, (list.filter fun issue => issue.fixKey = key).Sublist input

theorem InFixOrder.sublist {input list part : List Issue} (h : InFixOrder input list)
    (sub : part.Sublist list) : InFixOrder input part where
  sorted := h.sorted.sublist sub
  stable key := (sub.filter _).trans (h.stable key)

end Issue

namespace Batch

theorem inFixOrder_queue (issues : List Issue) : Issue.InFixOrder issues (queue issues) where
  sorted := (List.pairwise_mergeSort Issue.fixLe_trans Issue.fixLe_total _).imp Issue.fixLe_iff.1
  stable key := by
    -- Issues with one key are in order already, and sorting leaves them as they are.
    rw [queue, StableSort.filter_mergeSort Issue.fixLe_trans Issue.fixLe_total,
      List.mergeSort_of_pairwise]
    · exact List.filter_sublist.trans List.filter_sublist
    · refine List.pairwise_of_forall_mem_list fun a ha b hb => Issue.fixLe_iff.2 ?_
      have left : a.fixKey = key := of_decide_eq_true (List.mem_filter.1 ha).2
      have right : b.fixKey = key := of_decide_eq_true (List.mem_filter.1 hb).2
      rw [left, right]

/-- The batch in which those issues are applied that have been marked so. -/
def ofVerdicts (verdicts : List (Issue × Bool)) : Batch where
  applied := (verdicts.filter (·.2)).map (·.1)
  deferred := (verdicts.filter (!·.2)).map (·.1)

/-- An issue is put off exactly if it conflicts with one that comes before it and is applied. -/
def Greedy (verdicts : List (Issue × Bool)) : Prop :=
  ∀ front issue taken back, verdicts = front ++ (issue, taken) :: back →
    (taken = false ↔ ∃ earlier, (earlier, true) ∈ front ∧ issue.conflictsWith earlier = true)

theorem greedy_nil : Greedy [] := by
  intro front issue taken back split
  simp at split

theorem Greedy.concat {verdicts : List (Issue × Bool)} (h : Greedy verdicts) {issue : Issue}
    {taken : Bool}
    (verdict : taken = false ↔
      ∃ earlier, (earlier, true) ∈ verdicts ∧ issue.conflictsWith earlier = true) :
    Greedy (verdicts ++ [(issue, taken)]) := by
  intro front other mark back split
  rcases List.eq_nil_or_concat back with rfl | ⟨back, last, rfl⟩
  · obtain ⟨rfl, same⟩ := List.append_inj' split rfl
    obtain ⟨rfl, rfl⟩ := Prod.mk.inj (List.cons.inj same).1
    exact verdict
  · rw [List.concat_eq_append, ← List.cons_append, ← List.append_assoc] at split
    exact h front other mark back (List.append_inj' split rfl).1

theorem mem_applied_ofVerdicts {verdicts : List (Issue × Bool)} {issue : Issue} :
    issue ∈ (ofVerdicts verdicts).applied ↔ (issue, true) ∈ verdicts := by
  simp [ofVerdicts]

theorem ofVerdicts_concat (verdicts : List (Issue × Bool)) (issue : Issue) (taken : Bool) :
    ofVerdicts (verdicts ++ [(issue, taken)]) =
      if taken then
        ⟨(ofVerdicts verdicts).applied ++ [issue], (ofVerdicts verdicts).deferred⟩
      else
        ⟨(ofVerdicts verdicts).applied, (ofVerdicts verdicts).deferred ++ [issue]⟩ := by
  cases taken <;> simp [ofVerdicts]

/-- Taking one more issue, or putting it off, is one more verdict. -/
theorem Greedy.exists_add {verdicts : List (Issue × Bool)} (h : Greedy verdicts) (issue : Issue) :
    ∃ taken, Greedy (verdicts ++ [(issue, taken)]) ∧
      (ofVerdicts verdicts).add issue = ofVerdicts (verdicts ++ [(issue, taken)]) := by
  obtain ⟨⟨earlier, he, conflict⟩, hadd⟩ | ⟨free, hadd⟩ := (ofVerdicts verdicts).add_cases issue
  · have blocked := mem_applied_ofVerdicts.1 he
    refine ⟨false, h.concat (iff_of_true rfl ⟨earlier, blocked, conflict⟩), ?_⟩
    rw [hadd, ofVerdicts_concat, if_neg Bool.false_ne_true]
  · refine ⟨true, h.concat (iff_of_false Bool.noConfusion ?_), ?_⟩
    · rintro ⟨earlier, he, conflict⟩
      rw [free earlier (mem_applied_ofVerdicts.2 he)] at conflict
      cases conflict
    · rw [hadd, ofVerdicts_concat, if_pos rfl]

theorem Greedy.exists_foldl_add {verdicts : List (Issue × Bool)} (h : Greedy verdicts)
    (issues : List Issue) :
    ∃ later, later.map (·.1) = issues ∧ Greedy (verdicts ++ later) ∧
      issues.foldl add (ofVerdicts verdicts) = ofVerdicts (verdicts ++ later) := by
  induction issues generalizing verdicts with
  | nil => exact ⟨[], rfl, by rwa [List.append_nil], by rw [List.append_nil, List.foldl_nil]⟩
  | cons issue rest ih =>
      obtain ⟨taken, greedy, hadd⟩ := h.exists_add issue
      obtain ⟨later, listed, greedy, run⟩ := ih greedy
      rw [List.append_assoc, List.singleton_append] at greedy run
      exact ⟨(issue, taken) :: later, by rw [List.map_cons, listed], greedy,
        by rw [List.foldl_cons, hadd, run]⟩

theorem exists_verdicts (issues : List Issue) :
    ∃ verdicts, verdicts.map (·.1) = queue issues ∧ Greedy verdicts ∧
      ofIssues issues = ofVerdicts verdicts :=
  greedy_nil.exists_foldl_add (queue issues)

theorem sublist_ofVerdicts (verdicts : List (Issue × Bool)) :
    (ofVerdicts verdicts).applied.Sublist (verdicts.map (·.1)) ∧
      (ofVerdicts verdicts).deferred.Sublist (verdicts.map (·.1)) :=
  ⟨List.filter_sublist.map _, List.filter_sublist.map _⟩

end Batch

/-- The issues that have something to change are divided among those applied and those put off, both
in the order of the queue. Applied ones go together; one is put off only for an earlier one that is
applied, so none could be added; and something is applied if there is anything to apply. -/
theorem applyFixes_divides_queue (source : String) (issues : List Issue) {outcome : Outcome}
    (returned : (applyFixes source issues).result = .ok outcome) :
    (outcome.applied ++ outcome.deferred).Perm (issues.filter (·.fixable)) ∧
    Issue.InFixOrder issues outcome.applied ∧ Issue.InFixOrder issues outcome.deferred ∧
    outcome.Compatible ∧
    (∃ verdicts, Issue.InFixOrder issues (verdicts.map (·.1)) ∧
      outcome.toBatch = Batch.ofVerdicts verdicts ∧ Batch.Greedy verdicts) ∧
    (outcome.applied ≠ [] ↔ ∃ issue ∈ issues, issue.fixable = true) := by
  rw [result_applyFixes] at returned
  obtain ⟨text, -, rfl⟩ := map_eq_ok.1 returned
  obtain ⟨verdicts, listed, greedy, batch⟩ := Batch.exists_verdicts issues
  have order := Batch.inFixOrder_queue issues
  rw [← listed] at order
  obtain ⟨applied, deferred⟩ := Batch.sublist_ofVerdicts verdicts
  rw [← batch] at applied deferred
  refine ⟨Batch.perm_filter_ofIssues issues, order.sublist applied, order.sublist deferred,
    Batch.compatible_ofIssues issues, ⟨verdicts, order, batch, greedy⟩, ?_⟩
  rw [Ne, Batch.applied_ofIssues_eq_nil_iff]
  simp [Issue.fixable]

def rangeIssue (start length : Nat) (text : String) : Issue :=
  replacingIssue start (start + length) text (Nat.le_add_right start length)

/-- The second and the third begin at the same place, and nothing but the order in which they are
handed over decides between them; the last has nothing to change. -/
def rivalIssues : List Issue :=
  [rangeIssue 4 2 "z", rangeIssue 0 3 "yy", rangeIssue 0 2 "x",
   { rangeIssue 0 1 "" with fix := none }]

theorem applyFixes_divides_queue_rivals : ∃ outcome,
    (applyFixes "abcdef" rivalIssues).result = .ok outcome ∧
    outcome.applied = [rangeIssue 0 3 "yy", rangeIssue 4 2 "z"] ∧
    outcome.deferred = [rangeIssue 0 2 "x"] ∧
    (outcome.applied ++ outcome.deferred).Perm (rivalIssues.filter (·.fixable)) ∧
    Issue.InFixOrder rivalIssues outcome.applied ∧
    Issue.InFixOrder rivalIssues outcome.deferred ∧ outcome.Compatible ∧
    ∃ verdicts, Issue.InFixOrder rivalIssues (verdicts.map (·.1)) ∧
      outcome.toBatch = Batch.ofVerdicts verdicts ∧ Batch.Greedy verdicts := by
  have batch : Batch.ofIssues rivalIssues =
      ⟨[rangeIssue 0 3 "yy", rangeIssue 4 2 "z"], [rangeIssue 0 2 "x"]⟩ := by
    have fixable : rivalIssues.filter (·.fixable) =
        rangeIssue 4 2 "z" :: [rangeIssue 0 3 "yy", rangeIssue 0 2 "x"] := by decide +kernel
    rw [Batch.ofIssues, Batch.queue, fixable,
      StableSort.mergeSort_cons_eq Issue.fixLe_trans Issue.fixLe_total,
      List.mergeSort_of_pairwise (by decide)]
    decide +kernel
  have ascii : ∀ byte ∈ Text.encode "abcdef", byte.toNat ≤ 127 := by decide +kernel
  have inside : ∀ issue ∈ rivalIssues, ∀ edit ∈ issue.edits,
      edit.stop ≤ (Text.encode "abcdef").length := by decide
  have cuts : ∀ issue ∈ (Batch.ofIssues rivalIssues).applied, ∀ edit ∈ issue.edits,
      Text.Boundary "abcdef" edit.start ∧ Text.Boundary "abcdef" edit.stop := by
    intro issue taken edit he
    have stop := inside issue (Batch.mem_of_mem_applied taken).1 edit he
    exact ⟨Text.boundary_of_ascii ascii (edit.start_le_stop.trans stop),
      Text.boundary_of_ascii ascii stop⟩
  obtain ⟨text, applied⟩ := Batch.exists_applyTo (Batch.compatible_ofIssues rivalIssues) cuts
  have returned : (applyFixes "abcdef" rivalIssues).result =
      .ok ⟨Batch.ofIssues rivalIssues, text⟩ := by
    rw [result_applyFixes, applied]
    rfl
  obtain ⟨divided, first, second, compatible, greedy, -⟩ :=
    applyFixes_divides_queue "abcdef" rivalIssues returned
  exact ⟨_, returned, congrArg (·.applied) batch, congrArg (·.deferred) batch, divided, first,
    second, compatible, greedy⟩

namespace Batch

/-- Where no two issues have the same key, the queue does not show the order they came in. -/
theorem queue_eq_of_perm {issues others : List Issue}
    (perm : (others.filter (·.fixable)).Perm (issues.filter (·.fixable)))
    (distinct : ((issues.filter (·.fixable)).map (·.fixKey)).Nodup) :
    queue others = queue issues := by
  have sorted_others := (List.mergeSort_perm (others.filter (·.fixable)) Issue.fixLe).trans perm
  have sorted_issues := List.mergeSort_perm (issues.filter (·.fixable)) Issue.fixLe
  refine (sorted_others.trans sorted_issues.symm).eq_of_pairwise ?_
    (inFixOrder_queue others).sorted (inFixOrder_queue issues).sorted
  intro a b ha hb hab hba
  exact List.inj_on_of_nodup_map distinct (sorted_others.mem_iff.1 ha)
    (sorted_issues.mem_iff.1 hb) (hab.antisymm hba)

end Batch

/-- In whatever order issues with different keys are handed over, the same ones are applied and put
off, with the same text or failure and the same record. -/
theorem applyFixes_of_perm (source : String) {issues others : List Issue}
    (perm : others.Perm issues)
    (distinct : ((issues.filter (·.fixable)).map (·.fixKey)).Nodup) :
    applyFixes source others = applyFixes source issues ∧
      Batch.ofIssues others = Batch.ofIssues issues := by
  have same : Batch.ofIssues others = Batch.ofIssues issues := by
    rw [Batch.ofIssues, Batch.ofIssues, Batch.queue_eq_of_perm (perm.filter _) distinct]
  exact ⟨by rw [applyFixes, applyFixes, same], same⟩

theorem applyFixes_of_perm_overlapping :
    ((overlappingIssues.filter (·.fixable)).map (·.fixKey)).Nodup ∧
    overlappingIssues.reverse.Perm overlappingIssues ∧
    applyFixes "aéb" overlappingIssues.reverse = applyFixes "aéb" overlappingIssues ∧
    (Batch.ofIssues overlappingIssues.reverse).deferred = [replacingIssue 1 3 "ü" (by decide)] := by
  have distinct : ((overlappingIssues.filter (·.fixable)).map (·.fixKey)).Nodup := by decide
  have perm := List.reverse_perm overlappingIssues
  obtain ⟨same, -⟩ := applyFixes_of_perm "aéb" perm distinct
  have sorted : Batch.queue overlappingIssues.reverse = overlappingIssues.reverse :=
    List.mergeSort_of_pairwise (by decide)
  refine ⟨distinct, perm, same, ?_⟩
  rw [Batch.ofIssues, sorted]
  decide +kernel

end JsxLint
