import JsxLint.Proofs.Edit.Compose
import Mathlib.Data.List.Perm.Subperm

/-!
Which lists of edits make up a fix, and what is said of the others. A list is refused exactly if
two of its edits overlap, wherever they stand. Sorting keeps edits of one range in the order in
which they were handed over, so the sorted list of a refused one is not determined by its edits;
but its ranges are, and a refusal names nothing else.
-/

namespace JsxLint
namespace Edit

theorem overlaps_congr {a b c d : Edit} (left : a.toSpan = c.toSpan) (right : b.toSpan = d.toSpan) :
    a.overlaps b = c.overlaps d := by
  simp only [overlaps, left, right]

/-- The ranges of sorted edits do not depend on the order in which the edits were given. -/
theorem map_toSpan_mergeSort {xs ys : List Edit} (perm : xs.Perm ys) :
    (xs.mergeSort le).map (·.toSpan) = (ys.mergeSort le).map (·.toSpan) := by
  let inOrder (a b : Span) : Prop := a.start < b.start ∨ (a.start = b.start ∧ a.stop ≤ b.stop)
  have sorted (edits : List Edit) : ((edits.mergeSort le).map (·.toSpan)).Pairwise inOrder := by
    refine List.pairwise_map.2 ((List.pairwise_mergeSort le_trans le_total edits).imp ?_)
    intro a b h
    simpa only [le, decide_eq_true_eq] using h
  have same : (xs.mergeSort le).Perm (ys.mergeSort le) :=
    (List.mergeSort_perm xs le).trans (perm.trans (List.mergeSort_perm ys le).symm)
  refine (same.map _).eq_of_pairwise ?_ (sorted xs) (sorted ys)
  rintro ⟨start, stop⟩ ⟨start', stop'⟩ - - hab hba
  simp only [inOrder] at hab hba
  rw [Span.mk.injEq]
  omega

end Edit

namespace Fix

theorem firstOverlap?_congr {xs ys : List Edit} (spans : xs.map (·.toSpan) = ys.map (·.toSpan)) :
    (firstOverlap? xs).map (Prod.map (·.toSpan) (·.toSpan)) =
      (firstOverlap? ys).map (Prod.map (·.toSpan) (·.toSpan)) := by
  induction xs generalizing ys with
  | nil =>
      obtain rfl := List.map_eq_nil_iff.1 spans.symm
      rfl
  | cons a rest ih =>
      obtain ⟨c, others, rfl, first, tail⟩ := List.map_eq_cons_iff.1 spans.symm
      cases rest with
      | nil =>
          obtain rfl := List.map_eq_nil_iff.1 tail
          rfl
      | cons b rest =>
          obtain ⟨d, others, rfl, second, -⟩ := List.map_eq_cons_iff.1 tail
          rw [firstOverlap?, firstOverlap?, Edit.overlaps_congr first second]
          split
          · simp [first, second]
          · exact ih tail.symm

theorem firstOverlap?_eq_some {edits : List Edit} {a b : Edit}
    (h : firstOverlap? edits = some (a, b)) : a.overlaps b = true ∧ [a, b].Sublist edits := by
  fun_induction firstOverlap? edits with
  | case1 c d rest found =>
      obtain ⟨rfl, rfl⟩ := Prod.mk.inj (Option.some.inj h)
      exact ⟨found, ((List.nil_sublist rest).cons_cons d).cons_cons c⟩
  | case2 c d rest _ ih => exact (ih h).imp_right fun sublist => sublist.cons c
  | case3 => cases h

theorem ofEdits_eq_error {edits : List Edit} {cause : Failure} :
    ofEdits edits = .error cause ↔ ∃ earlier later,
      firstOverlap? (edits.mergeSort Edit.le) = some (earlier, later) ∧
        cause = .overlappingEdits later.toSpan earlier.toSpan := by
  simp only [ofEdits]
  split
  · rename_i none
    simp [none]
  · rename_i earlier later found
    simp only [found, Except.error.injEq, Option.some.injEq, Prod.mk.injEq]
    constructor
    · rintro rfl
      exact ⟨earlier, later, ⟨rfl, rfl⟩, rfl⟩
    · rintro ⟨_, _, ⟨rfl, rfl⟩, rfl⟩
      rfl

theorem exists_ofEdits_iff {edits : List Edit} :
    (∃ fix, ofEdits edits = .ok fix) ↔ Edit.Disjoint edits := by
  constructor
  · rintro ⟨fix, accepted⟩
    exact fix.disjoint_edits.perm (perm_of_ofEdits accepted)
  · intro disjoint
    obtain ⟨fix, accepted, -⟩ := exists_ofEdits disjoint
    exact ⟨fix, accepted⟩

theorem eq_of_edits {f g : Fix} (h : f.edits = g.edits) : f = g := by
  cases f
  cases g
  cases h
  rfl

theorem ofEdits_perm {xs ys : List Edit} (perm : xs.Perm ys) : ofEdits xs = ofEdits ys := by
  cases outcome : ofEdits xs with
  | error cause =>
      obtain ⟨earlier, later, found, rfl⟩ := ofEdits_eq_error.1 outcome
      have spans := firstOverlap?_congr (Edit.map_toSpan_mergeSort perm)
      rw [found] at spans
      obtain ⟨⟨first, second⟩, found, ranges⟩ := Option.map_eq_some_iff.1 spans.symm
      obtain ⟨left, right⟩ := Prod.mk.inj ranges
      exact (ofEdits_eq_error.2 ⟨first, second, found,
        congrArg₂ Failure.overlappingEdits right.symm left.symm⟩).symm
  | ok fix =>
      have disjoint := exists_ofEdits_iff.1 ⟨fix, outcome⟩
      obtain ⟨other, accepted, held⟩ := exists_ofEdits (disjoint.perm perm)
      have same : fix.edits.Perm other.edits :=
        (perm_of_ofEdits outcome).trans (perm.trans held.symm)
      rw [accepted, eq_of_edits (edits_eq_of_perm fix.ordered same)]

/-- Edits make up a fix exactly if no two of them overlap. The fix then holds each of them once, one
behind the other; otherwise the refusal names the ranges of two edits that do overlap. Either way
the outcome is the same in whatever order the edits are handed over. -/
theorem ofEdits_accepts_iff_disjoint (edits : List Edit) :
    ((∃ fix, ofEdits edits = .ok fix) ↔ Edit.Disjoint edits) ∧
    (∀ fix, ofEdits edits = .ok fix →
      fix.edits.Perm edits ∧ fix.edits.IsChain fun a b => a.stop ≤ b.start) ∧
    (∀ cause, ofEdits edits = .error cause → ∃ earlier later, [earlier, later].Subperm edits ∧
      earlier.overlaps later = true ∧
      cause = .overlappingEdits later.toSpan earlier.toSpan) ∧
    ∀ other, other.Perm edits → ofEdits other = ofEdits edits := by
  refine ⟨exists_ofEdits_iff, fun fix accepted => ⟨perm_of_ofEdits accepted, ?_⟩, ?_,
    fun other perm => ofEdits_perm perm⟩
  · exact (fix.ordered.imp fun h => h.1).isChain
  · intro cause refused
    obtain ⟨earlier, later, found, rfl⟩ := ofEdits_eq_error.1 refused
    obtain ⟨overlap, sublist⟩ := firstOverlap?_eq_some found
    exact ⟨earlier, later, sublist.subperm.trans (List.mergeSort_perm _ _).subperm, overlap, rfl⟩

/-- Each of them begins where another ends. -/
def touching : List Edit :=
  [⟨⟨4, 6⟩, "y", Nat.le_add_right 4 2⟩, .insert 4 "z", ⟨⟨2, 4⟩, "x", Nat.le_add_right 2 2⟩]

/-- Two of them have the same range. -/
def rivals : List Edit :=
  [⟨⟨0, 4⟩, "a", Nat.zero_le 4⟩, ⟨⟨0, 4⟩, "c", Nat.zero_le 4⟩, .insert 2 "b"]

theorem ofEdits_accepts_iff_disjoint_touching :
    Edit.Disjoint touching ∧ ¬ Edit.Disjoint rivals ∧
    (∃ fix, ofEdits touching = .ok fix ∧ ofEdits touching.reverse = .ok fix ∧
      fix.edits.Perm touching ∧ fix.edits.IsChain fun a b => a.stop ≤ b.start) ∧
    ∃ cause, ofEdits rivals = .error cause ∧ ofEdits rivals.reverse = .error cause ∧
      cause.message = "Edit [0, 4) overlaps [0, 4)" ∧
      ∃ earlier later, [earlier, later].Subperm rivals ∧ earlier.overlaps later = true ∧
        cause = .overlappingEdits later.toSpan earlier.toSpan := by
  have disjoint : Edit.Disjoint touching := by unfold Edit.Disjoint; decide
  have refused : ofEdits rivals = .error (.overlappingEdits ⟨0, 4⟩ ⟨0, 4⟩) := by
    have sorted : rivals.mergeSort Edit.le = rivals := List.mergeSort_of_pairwise (by decide)
    exact ofEdits_eq_error.2 ⟨_, _, by rw [sorted]; rfl, rfl⟩
  obtain ⟨accepts, held, -, reordered⟩ := ofEdits_accepts_iff_disjoint touching
  obtain ⟨accepts_rivals, -, named, reordered_rivals⟩ := ofEdits_accepts_iff_disjoint rivals
  obtain ⟨fix, accepted⟩ := accepts.2 disjoint
  refine ⟨disjoint, ?_, ⟨fix, accepted, ?_, held fix accepted⟩, _, refused, ?_, by decide,
    named _ refused⟩
  · intro disjoint
    obtain ⟨fix, accepted⟩ := accepts_rivals.2 disjoint
    rw [refused] at accepted
    cases accepted
  · rw [reordered _ (List.reverse_perm _), accepted]
  · rw [reordered_rivals _ (List.reverse_perm _), refused]

end Fix
end JsxLint
