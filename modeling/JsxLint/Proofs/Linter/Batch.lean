import JsxLint.Linter.Batch
import JsxLint.Proofs.Edit.Merge
import JsxLint.Proofs.Edit.Splice
import JsxLint.Proofs.StableSort
import JsxLint.Proofs.Success
import Mathlib.Data.Prod.Lex

/-!
Taking fixes one by one into a batch. Whether a fix is taken is decided by comparing it with each
fix taken before; whether the batch can be applied is decided by the merged edits. The invariant
that joins the two is that no two applied issues conflict.
-/

namespace JsxLint
namespace Issue

/-- What the queue is ordered by: where the first edit starts, then line and column. -/
def fixKey (issue : Issue) : ℕ ×ₗ ℤ ×ₗ ℤ :=
  toLex ((issue.edits.head?.map (·.start)).getD 0, toLex (issue.line, issue.column))

theorem fixLe_iff {a b : Issue} : a.fixLe b = true ↔ a.fixKey ≤ b.fixKey := by
  simp only [fixLe, le, fixKey, Prod.Lex.toLex_le_toLex, decide_eq_true_eq]

theorem fixLe_trans (a b c : Issue) (hab : a.fixLe b = true) (hbc : b.fixLe c = true) :
    a.fixLe c = true :=
  fixLe_iff.2 ((fixLe_iff.1 hab).trans (fixLe_iff.1 hbc))

theorem fixLe_total (a b : Issue) : (a.fixLe b || b.fixLe a) = true := by
  rw [Bool.or_eq_true, fixLe_iff, fixLe_iff]
  exact LinearOrder.le_total _ _

theorem disjoint_edits (issue : Issue) : Edit.Disjoint issue.edits := by
  unfold edits
  cases issue.fix with
  | none => exact .nil
  | some fix => exact fix.disjoint_edits

theorem overlaps_eq_false {mine theirs : Issue} (h : mine.conflictsWith theirs = false)
    {a b : Edit} (ha : a ∈ mine.edits) (hb : b ∈ theirs.edits) : a.overlaps b = false := by
  unfold edits at ha hb
  unfold conflictsWith at h
  cases hm : mine.fix with
  | none => simp [hm] at ha
  | some f =>
      cases ht : theirs.fix with
      | none => simp [ht] at hb
      | some g =>
          simp only [hm, ht] at ha hb h
          exact Fix.overlaps_eq_false h ha hb

theorem exists_overlaps {mine theirs : Issue} (h : mine.conflictsWith theirs = true) :
    ∃ a ∈ mine.edits, ∃ b ∈ theirs.edits, a.overlaps b = true := by
  unfold conflictsWith at h
  split at h
  · rename_i f g hm ht
    simpa [edits, hm, ht, Fix.conflictsWith] using h
  · cases h

end Issue

namespace Batch

theorem add_cases (batch : Batch) (issue : Issue) :
    ((∃ taken ∈ batch.applied, issue.conflictsWith taken = true) ∧
      batch.add issue = ⟨batch.applied, batch.deferred ++ [issue]⟩) ∨
    ((∀ taken ∈ batch.applied, issue.conflictsWith taken = false) ∧
      batch.add issue = ⟨batch.applied ++ [issue], batch.deferred⟩) := by
  unfold add
  split
  · rename_i h
    exact .inl ⟨by simpa using h, rfl⟩
  · rename_i h
    exact .inr ⟨by simpa using h, rfl⟩

/-- What one step keeps holds of the batch that all issues lead to. -/
theorem ofIssues_keeps {motive : Batch → Prop} (issues : List Issue) (start : motive empty)
    (step : ∀ batch, motive batch → ∀ issue ∈ queue issues, motive (batch.add issue)) :
    motive (ofIssues issues) :=
  List.foldlRecOn (queue issues) add start step

theorem mem_queue {issues : List Issue} {issue : Issue} :
    issue ∈ queue issues ↔ issue ∈ issues ∧ issue.fixable = true := by
  rw [queue, List.mem_mergeSort, List.mem_filter]

/-- No two applied issues conflict. -/
def Compatible (batch : Batch) : Prop :=
  batch.applied.Pairwise fun earlier later => later.conflictsWith earlier = false

theorem Compatible.add {batch : Batch} (h : batch.Compatible) (issue : Issue) :
    (batch.add issue).Compatible := by
  obtain ⟨-, hadd⟩ | ⟨free, hadd⟩ := batch.add_cases issue
  · rw [hadd]
    exact h
  · rw [hadd]
    refine List.pairwise_append.2 ⟨h, List.pairwise_singleton _ _, ?_⟩
    intro taken ht later hl
    rw [List.mem_singleton.1 hl]
    exact free taken ht

theorem compatible_ofIssues (issues : List Issue) : (ofIssues issues).Compatible :=
  ofIssues_keeps issues .nil fun _ h issue _ => h.add issue

theorem mem_of_mem_applied {issues : List Issue} {issue : Issue}
    (h : issue ∈ (ofIssues issues).applied) : issue ∈ issues ∧ issue.fixable = true := by
  refine ofIssues_keeps (motive := fun batch => ∀ taken ∈ batch.applied,
    taken ∈ issues ∧ taken.fixable = true) issues ?_ ?_ issue h
  · intro taken ht
    cases ht
  · intro batch hb next hn taken ht
    obtain ⟨-, hadd⟩ | ⟨-, hadd⟩ := batch.add_cases next
    · rw [hadd] at ht
      exact hb taken ht
    · rw [hadd] at ht
      rcases List.mem_append.1 ht with ht | ht
      · exact hb taken ht
      · rw [List.mem_singleton.1 ht]
        exact mem_queue.1 hn

/-- An issue is put off only for one that is applied. -/
theorem exists_conflict_of_mem_deferred {issues : List Issue} {issue : Issue}
    (h : issue ∈ (ofIssues issues).deferred) :
    ∃ taken ∈ (ofIssues issues).applied, issue.conflictsWith taken = true := by
  refine ofIssues_keeps (motive := fun batch => ∀ waiting ∈ batch.deferred,
    ∃ taken ∈ batch.applied, waiting.conflictsWith taken = true) issues ?_ ?_ issue h
  · intro waiting hw
    cases hw
  · intro batch hb next _ waiting hw
    obtain ⟨conflict, hadd⟩ | ⟨-, hadd⟩ := batch.add_cases next
    · rw [hadd] at hw ⊢
      rcases List.mem_append.1 hw with hw | hw
      · exact hb waiting hw
      · rw [List.mem_singleton.1 hw]
        exact conflict
    · rw [hadd] at hw ⊢
      obtain ⟨taken, ht, conflict⟩ := hb waiting hw
      exact ⟨taken, List.mem_append_left _ ht, conflict⟩

theorem foldl_add_perm (issues : List Issue) (batch : Batch) :
    ((issues.foldl add batch).applied ++ (issues.foldl add batch).deferred).Perm
      (batch.applied ++ batch.deferred ++ issues) := by
  induction issues generalizing batch with
  | nil => simp
  | cons issue rest ih =>
      refine (ih (batch.add issue)).trans ?_
      obtain ⟨-, hadd⟩ | ⟨-, hadd⟩ := batch.add_cases issue
      · simp [hadd]
      · simp only [hadd, List.append_assoc, List.singleton_append]
        exact List.perm_middle.symm.append_left _

/-- No issue that has something to change is lost or taken twice. -/
theorem perm_filter_ofIssues (issues : List Issue) :
    ((ofIssues issues).applied ++ (ofIssues issues).deferred).Perm
      (issues.filter (·.fixable)) :=
  (foldl_add_perm (queue issues) empty).trans (List.mergeSort_perm _ _)

theorem perm_ofIssues {issues : List Issue} (fixable : ∀ issue ∈ issues, issue.fixable = true) :
    ((ofIssues issues).applied ++ (ofIssues issues).deferred).Perm issues := by
  have complete := perm_filter_ofIssues issues
  rwa [List.filter_eq_self.2 fixable] at complete

theorem Compatible.disjoint_edits {batch : Batch} (h : batch.Compatible) :
    Edit.Disjoint (batch.applied.flatMap (·.edits)) := by
  refine List.pairwise_flatMap.2 ⟨fun issue _ => issue.disjoint_edits, ?_⟩
  refine h.imp ?_
  intro earlier later free a ha b hb
  rw [Edit.overlaps_comm]
  exact Issue.overlaps_eq_false free hb ha

theorem applyTo_of_isEmpty {batch : Batch} (h : batch.applied = []) (source : String) :
    batch.applyTo source = .ok source := by
  simp [applyTo, h]

/-- An empty batch is no exception: it merges into a fix that changes nothing. -/
theorem applyTo_eq (batch : Batch) (source : String) {merged : Fix}
    (hm : Fix.ofEdits (batch.applied.flatMap (·.edits)) = .ok merged)
    (he : merged.edits.Perm (batch.applied.flatMap (·.edits))) :
    batch.applyTo source = Text.decode (merged.apply (Text.encode source)) := by
  by_cases h : batch.applied = []
  · have none : merged.edits = [] := by simpa [h] using he
    rw [applyTo_of_isEmpty h, Fix.apply, none, Fix.applyFrom, List.drop_zero,
      Text.decode_encode]
  · simp [applyTo, h, hm, bind, Except.bind]

theorem exists_applyTo {batch : Batch} (compatible : batch.Compatible) {source : String}
    (cuts : ∀ issue ∈ batch.applied, ∀ edit ∈ issue.edits,
      Text.Boundary source edit.start ∧ Text.Boundary source edit.stop) :
    ∃ text, batch.applyTo source = .ok text := by
  obtain ⟨merged, hm, he⟩ := Fix.exists_ofEdits compatible.disjoint_edits
  have inside : ∀ edit ∈ merged.edits,
      Text.Boundary source edit.start ∧ Text.Boundary source edit.stop := by
    intro edit hedit
    obtain ⟨issue, hi, hedit⟩ := List.mem_flatMap.1 (he.mem_iff.1 hedit)
    exact cuts issue hi edit hedit
  obtain ⟨text, ht⟩ := Fix.exists_applyFrom source merged.edits 0 (Text.boundary_zero source) inside
  exact ⟨text, by rw [applyTo_eq batch source hm he, Fix.apply, ht, Text.decode_encode]⟩

end Batch

theorem result_applyFixes (source : String) (issues : List Issue) :
    (applyFixes source issues).result =
      Outcome.mk (Batch.ofIssues issues) <$> (Batch.ofIssues issues).applyTo source := by
  simp [applyFixes]

/-- Merging accepted fixes is safe. Each issue with something to change is applied or put off. The
edits of the applied issues, and no others, make up one fix; applying it can fail only because what
comes out is no text, and does not fail when every edit begins and ends between characters of the
source. -/
theorem applyFixes_merges (source : String) (issues : List Issue) :
    ((Batch.ofIssues issues).applied ++ (Batch.ofIssues issues).deferred).Perm
      (issues.filter (·.fixable)) ∧
    ∃ merged : Fix,
      Fix.ofEdits ((Batch.ofIssues issues).applied.flatMap (·.edits)) = .ok merged ∧
      merged.edits.Perm ((Batch.ofIssues issues).applied.flatMap (·.edits)) ∧
      (∀ failure, (applyFixes source issues).result = .error failure → failure = .notUtf8) ∧
      (∀ outcome, (applyFixes source issues).result = .ok outcome →
        outcome.toBatch = Batch.ofIssues issues ∧
        Text.encode outcome.source = merged.apply (Text.encode source)) ∧
      ((∀ issue ∈ issues, ∀ edit ∈ issue.edits,
          Text.Boundary source edit.start ∧ Text.Boundary source edit.stop) →
        ∃ outcome, (applyFixes source issues).result = .ok outcome ∧
          outcome.toBatch = Batch.ofIssues issues ∧
          Text.encode outcome.source = Edit.spliceAll merged.edits (Text.encode source)) := by
  have disjoint := (Batch.compatible_ofIssues issues).disjoint_edits
  obtain ⟨merged, hm, he⟩ := Fix.exists_ofEdits disjoint
  have result : (applyFixes source issues).result =
      Outcome.mk (Batch.ofIssues issues) <$> Text.decode (merged.apply (Text.encode source)) := by
    rw [result_applyFixes, Batch.applyTo_eq _ source hm he]
  refine ⟨Batch.perm_filter_ofIssues issues, merged, hm, he, ?_, ?_, ?_⟩
  · intro failure hf
    rw [result] at hf
    cases hd : Text.decode (merged.apply (Text.encode source)) with
    | ok text => simp [hd, Functor.map, Except.map] at hf
    | error cause =>
        rw [Text.eq_notUtf8_of_decode hd] at hd
        simpa [hd, Functor.map, Except.map, eq_comm] using hf
  · intro outcome ho
    rw [result] at ho
    obtain ⟨text, hd, rfl⟩ := map_eq_ok.1 ho
    exact ⟨rfl, Text.encode_of_decode hd⟩
  · intro boundaries
    have inside : ∀ edit ∈ merged.edits,
        Text.Boundary source edit.start ∧ Text.Boundary source edit.stop := by
      intro edit hedit
      obtain ⟨issue, hi, hedit⟩ := List.mem_flatMap.1 (he.mem_iff.1 hedit)
      exact boundaries issue (Batch.mem_of_mem_applied hi).1 edit hedit
    obtain ⟨text, ht⟩ := Fix.exists_applyFrom source merged.edits 0 (Text.boundary_zero source)
      inside
    refine ⟨⟨Batch.ofIssues issues, text⟩, ?_, rfl, ?_⟩
    · rw [result, Fix.apply, ht, Text.decode_encode]
      rfl
    · rw [← Fix.apply_eq_spliceAll merged _ fun edit hedit => (inside edit hedit).2.le_length]
      exact ht.symm

def replacingIssue (start stop : Nat) (text : String) (h : start ≤ stop) : Issue where
  path := Path.ofString "a.tsx"
  line := 1
  column := start
  ruleId := "R"
  message := ""
  severity := .error
  autoFixable := true
  context := none
  data := []
  fix := some ⟨[⟨⟨start, stop⟩, text, h⟩], List.pairwise_singleton _ _⟩

/-- The second and the third issue overlap; a character of two bytes stands in both. -/
def overlappingIssues : List Issue :=
  [replacingIssue 3 4 "y" (by decide), replacingIssue 1 3 "ü" (by decide),
   replacingIssue 0 3 "" (by decide)]

theorem applyFixes_merges_overlapping : ∃ merged outcome,
    Fix.ofEdits ((Batch.ofIssues overlappingIssues).applied.flatMap (·.edits)) = .ok merged ∧
    (∀ issue ∈ overlappingIssues, ∀ edit ∈ issue.edits,
      Text.Boundary "aéb" edit.start ∧ Text.Boundary "aéb" edit.stop) ∧
    (applyFixes "aéb" overlappingIssues).result = .ok outcome ∧
    Text.encode outcome.source = Edit.spliceAll merged.edits (Text.encode "aéb") ∧
    outcome.applied = [replacingIssue 0 3 "" (by decide), replacingIssue 3 4 "y" (by decide)] ∧
    outcome.deferred = [replacingIssue 1 3 "ü" (by decide)] ∧ outcome.source = "y" := by
  have one : Text.Boundary "aéb" 1 := ⟨"a", "éb", rfl, rfl⟩
  have three : Text.Boundary "aéb" 3 := ⟨"aé", "b", rfl, rfl⟩
  have boundaries : ∀ issue ∈ overlappingIssues, ∀ edit ∈ issue.edits,
      Text.Boundary "aéb" edit.start ∧ Text.Boundary "aéb" edit.stop := by
    simp only [overlappingIssues, List.forall_mem_cons, replacingIssue, Issue.edits]
    exact ⟨⟨⟨three, Text.boundary_end _⟩, by simp⟩, ⟨⟨one, three⟩, by simp⟩,
      ⟨⟨Text.boundary_zero _, three⟩, by simp⟩, by simp⟩
  have batch : Batch.ofIssues overlappingIssues =
      ⟨[replacingIssue 0 3 "" (by decide), replacingIssue 3 4 "y" (by decide)],
        [replacingIssue 1 3 "ü" (by decide)]⟩ := by
    have fixable : overlappingIssues.filter (·.fixable) = overlappingIssues := by decide +kernel
    rw [Batch.ofIssues, Batch.queue, fixable, overlappingIssues,
      StableSort.mergeSort_cons_eq Issue.fixLe_trans Issue.fixLe_total,
      StableSort.mergeSort_cons_eq Issue.fixLe_trans Issue.fixLe_total, List.mergeSort_singleton]
    decide +kernel
  obtain ⟨-, merged, accepted, perm, -, -, spliced⟩ := applyFixes_merges "aéb" overlappingIssues
  obtain ⟨outcome, result, divided, text⟩ := spliced boundaries
  rw [batch] at perm divided
  have edits : [⟨⟨0, 3⟩, "", by decide⟩, ⟨⟨3, 4⟩, "y", by decide⟩] = merged.edits :=
    Fix.edits_eq_of_perm (by unfold Edit.Precedes; decide) perm.symm
  have bytes : Text.encode outcome.source = Text.encode "y" := by
    rw [text, ← edits]
    decide +kernel
  have source_eq : outcome.source = "y" := by simpa using congrArg Text.decode bytes
  exact ⟨merged, outcome, accepted, boundaries, result, text, by rw [divided], by rw [divided],
    source_eq⟩

end JsxLint
