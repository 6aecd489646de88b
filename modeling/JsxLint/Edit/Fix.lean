import JsxLint.Edit.Basic
import JsxLint.Text.Utf8

/-!
A fix: edits of one source that are applied together. The edits stand in the order of their
ranges and no two of them overlap. Main statement: on a sorted list it is enough to compare
neighbours (`pairwise_precedes_of_firstOverlap?_eq_none`), which is how a fix is accepted.
-/

namespace JsxLint
namespace Edit

/-- The first edit ends before the second begins, and they do not overlap. -/
def Precedes (a b : Edit) : Prop :=
  a.stop ≤ b.start ∧ a.overlaps b = false

theorem precedes_of_le {a b : Edit} (hle : a.le b = true) (h : a.overlaps b = false) :
    a.Precedes b := by
  refine ⟨?_, h⟩
  have ha := a.start_le_stop
  have hb := b.start_le_stop
  simp only [le, decide_eq_true_eq] at hle
  simp only [overlaps] at h
  split at h <;> simp only [decide_eq_false_iff_not] at h <;> omega

theorem Precedes.trans {a b c : Edit} (hab : a.Precedes b) (hbc : b.Precedes c) :
    a.Precedes c := by
  obtain ⟨hab, oab⟩ := hab
  obtain ⟨hbc, obc⟩ := hbc
  have ha := a.start_le_stop
  have hb := b.start_le_stop
  have hc := c.start_le_stop
  refine ⟨by omega, ?_⟩
  simp only [overlaps] at oab obc ⊢
  split at oab <;> split at obc <;> split <;>
    simp only [decide_eq_false_iff_not] at oab obc ⊢ <;> omega

end Edit

structure Fix where
  edits : List Edit
  ordered : edits.Pairwise Edit.Precedes
deriving DecidableEq, Repr

namespace Fix

/-- The first two neighbours that overlap. -/
def firstOverlap? : List Edit → Option (Edit × Edit)
  | a :: b :: rest => if a.overlaps b then some (a, b) else firstOverlap? (b :: rest)
  | _ => none

theorem pairwise_precedes_of_firstOverlap?_eq_none {edits : List Edit}
    (sorted : edits.Pairwise fun a b => a.le b = true) (h : firstOverlap? edits = none) :
    edits.Pairwise Edit.Precedes := by
  induction edits with
  | nil => exact .nil
  | cons a rest ih =>
    cases rest with
    | nil => exact List.pairwise_singleton _ _
    | cons b rest =>
      rw [firstOverlap?] at h
      split at h
      · cases h
      · rename_i hab
        have tail := ih sorted.of_cons h
        have step : a.Precedes b :=
          Edit.precedes_of_le (List.rel_of_pairwise_cons sorted List.mem_cons_self) (by simpa using hab)
        refine List.pairwise_cons.2 ⟨fun c hc => ?_, tail⟩
        rcases List.mem_cons.1 hc with rfl | hc
        · exact step
        · exact step.trans (List.rel_of_pairwise_cons tail hc)

/-- Sorts the edits, keeping the given order among equal ranges, and refuses them when two
neighbours overlap. -/
def ofEdits (edits : List Edit) : Except Failure Fix :=
  let sorted := edits.mergeSort Edit.le
  match h : firstOverlap? sorted with
  | none =>
    .ok ⟨sorted, pairwise_precedes_of_firstOverlap?_eq_none
      (List.pairwise_mergeSort Edit.le_trans Edit.le_total edits) h⟩
  | some (earlier, later) => .error (.overlappingEdits later.toSpan earlier.toSpan)

def conflictsWith (mine theirs : Fix) : Bool :=
  mine.edits.any fun a => theirs.edits.any fun b => a.overlaps b

/-- The source from an offset on, with each edit's range replaced by its text. -/
def applyFrom (source : Bytes) : Nat → List Edit → Bytes
  | offset, [] => source.drop offset
  | offset, edit :: rest =>
    Text.slice source offset edit.start ++ Text.encode edit.text ++
      applyFrom source edit.stop rest

def apply (fix : Fix) (source : Bytes) : Bytes :=
  applyFrom source 0 fix.edits

end Fix
end JsxLint
