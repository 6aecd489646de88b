import JsxLint.Proofs.Edit.Shift
import JsxLint.Proofs.Success
import Mathlib.Data.List.TakeWhile

/-!
Lines and columns of offsets. Rows count newlines and columns count the characters behind the last
one, so between two offsets of one row lies nothing but characters of that row. Offsets at which a
text can be cut therefore stand in the order of their rows and columns, and no two of them share
both. Offsets inside a character have no column.
-/

namespace JsxLint
namespace Text

/-- How many lines end before an offset. -/
def row (source : Bytes) (offset : Nat) : Nat :=
  (source.take offset).count 10

/-- The bytes behind the last newline. -/
def lastLine (bytes : Bytes) : Bytes :=
  (bytes.reverse.takeWhile (· ≠ 10)).reverse

theorem lineLeadBytes_eq (source : Bytes) (offset : Nat) :
    lineLeadBytes source offset = lastLine (source.take offset) := rfl

theorem lastLine_append (front : Bytes) {part : Bytes} (plain : 10 ∉ part) :
    lastLine (front ++ part) = lastLine front ++ part := by
  have kept : ∀ byte ∈ part.reverse, (byte ≠ 10 : Bool) = true := by
    intro byte mem
    refine decide_eq_true fun same => plain ?_
    exact same ▸ List.mem_reverse.1 mem
  rw [lastLine, List.reverse_append, List.takeWhile_append_of_pos kept, List.reverse_append,
    List.reverse_reverse, lastLine]

theorem lastLine_newline (front : Bytes) : lastLine (front ++ [10]) = [] := by
  rw [lastLine, List.reverse_append]
  rfl

theorem not_mem_lastLine (bytes : Bytes) : 10 ∉ lastLine bytes := by
  intro mem
  have := List.mem_takeWhile_imp (List.mem_reverse.1 mem)
  simp at this

theorem row_add_count (source : Bytes) {first second : Nat} (le : first ≤ second) :
    row source first + (slice source first second).count 10 = row source second := by
  have front : source.take first = (source.take second).take first := by
    rw [List.take_take, Nat.min_eq_left le]
  rw [row, front, slice, ← List.count_append, List.take_append_drop, row]

/-- On one row, the line up to an offset goes on from the line up to an earlier one. -/
theorem lineLeadBytes_of_row_eq {source : Bytes} {first second : Nat} (le : first ≤ second)
    (same : row source first = row source second) :
    lineLeadBytes source second = lineLeadBytes source first ++ slice source first second := by
  have plain : 10 ∉ slice source first second := by
    rw [← List.count_eq_zero]
    have := row_add_count source le
    omega
  have whole : source.take first ++ slice source first second = source.take second := by
    have front : source.take first = (source.take second).take first := by
      rw [List.take_take, Nat.min_eq_left le]
    rw [slice, front, List.take_append_drop]
  rw [lineLeadBytes_eq, lineLeadBytes_eq, ← whole, lastLine_append _ plain]

/-- How many characters stand before an offset on its line. -/
def column (source : Bytes) (offset : Nat) : Except Failure Nat :=
  return (← decode (lineLeadBytes source offset)).length

theorem column_of_lead {source : Bytes} {offset : Nat} {lead : String}
    (bytes : lineLeadBytes source offset = encode lead) :
    column source offset = .ok lead.length := by
  rw [column, bytes, decode_encode, ok_bind]
  rfl

/-- A later offset is on a later row, or further to the right on the same. -/
theorem Boundary.position_lt {text : String} {first second m n : Nat}
    (here : Boundary text first) (there : Boundary text second) (lt : first < second)
    (left : column (encode text) first = .ok m) (right : column (encode text) second = .ok n) :
    row (encode text) first < row (encode text) second ∨
      row (encode text) first = row (encode text) second ∧ m < n := by
  have rows := row_add_count (encode text) (Nat.le_of_lt lt)
  by_cases same : row (encode text) first = row (encode text) second
  · refine .inr ⟨same, ?_⟩
    obtain ⟨lead, at_first⟩ := here.exists_lineLeadBytes
    obtain ⟨part, between⟩ := here.exists_slice there
    have at_second : lineLeadBytes (encode text) second = encode (lead ++ part) := by
      rw [lineLeadBytes_of_row_eq (Nat.le_of_lt lt) same, at_first, between, encode_append]
    have some_part : part ≠ "" := by
      rintro rfl
      have length := congrArg List.length between
      have := there.le_length
      simp only [slice, List.length_drop, List.length_take, encode_empty, List.length_nil] at length
      omega
    obtain rfl := Except.ok.inj (left.symm.trans (column_of_lead at_first))
    obtain rfl := Except.ok.inj (right.symm.trans (column_of_lead at_second))
    have := Nat.pos_of_ne_zero fun none => some_part (String.length_eq_zero_iff.1 none)
    rw [String.length_append]
    omega
  · exact .inl (by omega)

end Text
end JsxLint
