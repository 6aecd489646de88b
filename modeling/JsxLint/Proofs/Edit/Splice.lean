import JsxLint.Edit.Fix
import JsxLint.Proofs.Text.Boundary

/-!
Edits carried out one at a time. A fix goes through the source once from left to right; the same
bytes come out when its edits are spliced in from the last to the first, each into what the ones
after it left. Both readings agree as long as no edit reaches past the end of the source.
-/

namespace JsxLint
namespace Edit

/-- The bytes with the range of one edit replaced by its text. -/
def splice (edit : Edit) (bytes : Bytes) : Bytes :=
  bytes.take edit.start ++ Text.encode edit.text ++ bytes.drop edit.stop

/-- The bytes with all edits spliced in, the last of the list first. -/
def spliceAll (edits : List Edit) (bytes : Bytes) : Bytes :=
  edits.foldr splice bytes

theorem take_splice (edit : Edit) (bytes : Bytes) {count : Nat}
    (hc : count ≤ edit.start) (hb : edit.start ≤ bytes.length) :
    (edit.splice bytes).take count = bytes.take count := by
  rw [splice, List.append_assoc, List.take_append_of_le_length (by simp; omega), List.take_take,
    Nat.min_eq_left hc]

theorem take_spliceAll (edits : List Edit) (bytes : Bytes) {count : Nat}
    (hc : ∀ edit ∈ edits, count ≤ edit.start) (hb : ∀ edit ∈ edits, edit.stop ≤ bytes.length)
    (ordered : edits.Pairwise Precedes) :
    (spliceAll edits bytes).take count = bytes.take count := by
  induction edits generalizing count with
  | nil => rfl
  | cons edit rest ih =>
      obtain ⟨first, ordered⟩ := List.pairwise_cons.1 ordered
      have tail {n : Nat} (hn : n ≤ edit.stop) :
          (spliceAll rest bytes).take n = bytes.take n :=
        ih (fun later hl => Nat.le_trans hn (first later hl).1)
          (fun later hl => hb later (List.mem_cons_of_mem _ hl)) ordered
      have hstart := hc edit List.mem_cons_self
      have hstop := hb edit List.mem_cons_self
      have hle := edit.start_le_stop
      have room : edit.start ≤ (spliceAll rest bytes).length := by
        have := congrArg List.length (tail hle)
        simp only [List.length_take] at this
        omega
      change (edit.splice (spliceAll rest bytes)).take count = bytes.take count
      rw [take_splice edit _ hstart room, tail (Nat.le_trans hstart hle)]

end Edit

namespace Fix

theorem applyFrom_eq_drop_spliceAll (source : Bytes) (edits : List Edit) (offset : Nat)
    (ho : ∀ edit ∈ edits, offset ≤ edit.start) (hb : ∀ edit ∈ edits, edit.stop ≤ source.length)
    (ordered : edits.Pairwise Edit.Precedes) :
    applyFrom source offset edits = (Edit.spliceAll edits source).drop offset := by
  induction edits generalizing offset with
  | nil => rfl
  | cons edit rest ih =>
      obtain ⟨first, ordered⟩ := List.pairwise_cons.1 ordered
      have hrest : ∀ later ∈ rest, edit.stop ≤ later.start := fun later hl => (first later hl).1
      have hbrest : ∀ later ∈ rest, later.stop ≤ source.length :=
        fun later hl => hb later (List.mem_cons_of_mem _ hl)
      have hle := edit.start_le_stop
      have hoff := ho edit List.mem_cons_self
      have hstop := hb edit List.mem_cons_self
      have before : (Edit.spliceAll rest source).take edit.start = source.take edit.start :=
        Edit.take_spliceAll rest source (fun later hl => Nat.le_trans hle (hrest later hl))
          hbrest ordered
      change _ = ((Edit.spliceAll rest source).take edit.start ++ Text.encode edit.text ++
        (Edit.spliceAll rest source).drop edit.stop).drop offset
      rw [before, applyFrom, ih edit.stop hrest hbrest ordered, List.append_assoc,
        List.append_assoc, List.drop_append_of_le_length (by simp; omega), Text.slice]

/-- A fix is its edits spliced in from the last to the first. -/
theorem apply_eq_spliceAll (fix : Fix) (source : Bytes)
    (hb : ∀ edit ∈ fix.edits, edit.stop ≤ source.length) :
    fix.apply source = Edit.spliceAll fix.edits source := by
  rw [apply, applyFrom_eq_drop_spliceAll source fix.edits 0 (fun _ _ => Nat.zero_le _) hb
    fix.ordered, List.drop_zero]

theorem apply_singleton {fix : Fix} {edit : Edit} (only : fix.edits = [edit]) (source : Bytes) :
    fix.apply source =
      source.take edit.start ++ Text.encode edit.text ++ source.drop edit.stop := by
  rw [apply, only]
  rfl

theorem exists_applyFrom (source : String) (edits : List Edit) (offset : Nat)
    (ho : Text.Boundary source offset)
    (he : ∀ edit ∈ edits, Text.Boundary source edit.start ∧ Text.Boundary source edit.stop) :
    ∃ result, applyFrom (Text.encode source) offset edits = Text.encode result := by
  induction edits generalizing offset with
  | nil => exact ho.exists_drop
  | cons edit rest ih =>
      obtain ⟨hstart, hstop⟩ := he edit List.mem_cons_self
      obtain ⟨kept, hk⟩ := ho.exists_slice hstart
      obtain ⟨tail, ht⟩ := ih edit.stop hstop
        (fun later hl => he later (List.mem_cons_of_mem _ hl))
      refine ⟨kept ++ edit.text ++ tail, ?_⟩
      rw [applyFrom, hk, ht, Text.encode_append, Text.encode_append]

end Fix
end JsxLint
