import JsxLint.Failure

/-!
A single text edit: the replacement of a byte range. Its range never runs backwards, and two
edits overlap when both change a common byte, when one inserts strictly inside the range of the
other, or when both insert at the same offset.
-/

namespace JsxLint

/-- Puts `text` in place of the bytes of a range; an empty range makes it an insertion. -/
structure Edit extends Span where
  text : String
  start_le_stop : start ≤ stop := by decide
deriving DecidableEq, Repr

namespace Edit

/-- An edit from numbers of any sign. -/
def ofRange (start stop : Int) (text : String) : Except Failure Edit :=
  if h : 0 ≤ start ∧ start ≤ stop then
    .ok ⟨⟨start.toNat, stop.toNat⟩, text, by simp; omega⟩
  else
    .error (.invalidRange start stop)

/-- Replaces the text of a range. -/
def replace (span : Span) (text : String) : Except Failure Edit :=
  ofRange span.start span.stop text

/-- Deletes the text between two offsets. -/
def delete (start stop : Nat) : Except Failure Edit :=
  ofRange start stop ""

def insert (offset : Nat) (text : String) : Edit :=
  ⟨⟨offset, offset⟩, text, Nat.le_refl offset⟩

def overlaps (a b : Edit) : Bool :=
  if a.start = a.stop ∧ b.start = b.stop then a.start = b.start
  else a.start < b.stop ∧ b.start < a.stop

/-- Edits are ordered by where they start, then by where they stop. -/
def le (a b : Edit) : Bool :=
  a.start < b.start ∨ (a.start = b.start ∧ a.stop ≤ b.stop)

theorem le_trans (a b c : Edit) (hab : a.le b = true) (hbc : b.le c = true) : a.le c = true := by
  simp only [le, decide_eq_true_eq] at *
  omega

theorem le_total (a b : Edit) : (a.le b || b.le a) = true := by
  simp only [le, Bool.or_eq_true, decide_eq_true_eq]
  omega

theorem overlaps_comm (a b : Edit) : a.overlaps b = b.overlaps a := by
  simp only [overlaps, and_comm, eq_comm]

end Edit
end JsxLint
