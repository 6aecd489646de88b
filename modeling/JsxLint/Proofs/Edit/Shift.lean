import JsxLint.Proofs.Edit.Splice

/-!
Where a range of the source stands once a fix has been applied, and which bytes stand there then.
An insertion right at an end of a range is outside of it, so a range without bytes stays empty.
Ranges that an edit cuts into without lying inside are not considered.
-/

namespace JsxLint
namespace Text

theorem slice_append_drop (bytes : Bytes) {start middle : Nat} (hm : start ≤ middle)
    (hl : middle ≤ bytes.length) :
    slice bytes start middle ++ bytes.drop middle = bytes.drop start := by
  rw [slice, ← List.drop_append_of_le_length (by simp; omega), List.take_append_drop]

theorem slice_append_slice (bytes : Bytes) {start middle stop : Nat} (hm : start ≤ middle)
    (hs : middle ≤ stop) (hl : middle ≤ bytes.length) :
    slice bytes start middle ++ slice bytes middle stop = slice bytes start stop := by
  have := slice_append_drop (bytes.take stop) hm (by simp; omega)
  rwa [slice, List.take_take, Nat.min_eq_left hs] at this

theorem slice_append_left (left middle right : Bytes) :
    slice (left ++ middle ++ right) left.length (left.length + middle.length) = middle := by
  rw [slice, ← List.length_append, List.take_left, List.drop_left]

theorem slice_eq_nil (bytes : Bytes) {start stop : Nat} (h : stop ≤ start) :
    slice bytes start stop = [] := by
  simp only [slice, List.drop_eq_nil_iff, List.length_take]
  omega

theorem getElem?_of_slice {bytes rest : Bytes} {start stop : Nat} {byte : UInt8}
    (h : slice bytes start stop = byte :: rest) : bytes[start]? = some byte := by
  have first : (slice bytes start stop)[0]? = some byte := by rw [h]; rfl
  rw [slice, List.getElem?_drop, List.getElem?_take] at first
  split at first
  · exact first
  · cases first

end Text

namespace Edit

/-- By how much an edit makes the source longer. -/
def growth (edit : Edit) : Int :=
  (Text.encode edit.text).length + edit.start - edit.stop

def totalGrowth : List Edit → Int
  | [] => 0
  | edit :: rest => edit.growth + totalGrowth rest

@[simp] theorem totalGrowth_nil : totalGrowth [] = 0 := rfl

@[simp] theorem totalGrowth_cons (edit : Edit) (rest : List Edit) :
    totalGrowth (edit :: rest) = edit.growth + totalGrowth rest := rfl

@[simp] theorem totalGrowth_append (xs ys : List Edit) :
    totalGrowth (xs ++ ys) = totalGrowth xs + totalGrowth ys := by
  induction xs with
  | nil => simp
  | cons edit rest ih =>
      simp only [List.cons_append, totalGrowth_cons, ih]
      omega

theorem totalGrowth_filter_add (p : Edit → Bool) (edits : List Edit) :
    totalGrowth (edits.filter p) + totalGrowth (edits.filter fun edit => !p edit) =
      totalGrowth edits := by
  induction edits with
  | nil => rfl
  | cons edit rest ih =>
      by_cases h : p edit = true
      · rw [List.filter_cons_of_pos h, List.filter_cons_of_neg (by simp [h]), totalGrowth_cons,
          totalGrowth_cons]
        omega
      · rw [List.filter_cons_of_neg h, List.filter_cons_of_pos (by simp [h]), totalGrowth_cons,
          totalGrowth_cons]
        omega

/-- The edit changes a byte of the range, or inserts strictly inside it. -/
def Touches (edit : Edit) (span : Span) : Prop :=
  span.start < edit.stop ∧ edit.start < span.stop

theorem not_touches_of_overlaps {a b : Edit} (h : a.overlaps b = false) :
    ¬ a.Touches b.toSpan := by
  have ha := a.start_le_stop
  have hb := b.start_le_stop
  unfold Touches
  simp only [overlaps] at h
  split at h <;> simp only [decide_eq_false_iff_not] at h <;> omega

end Edit

namespace Fix

/-- The new offset of the start of a range: edits that end before it have moved it. -/
def startAfter (fix : Fix) (offset : Nat) : Nat :=
  (offset + Edit.totalGrowth (fix.edits.filter fun edit => edit.stop ≤ offset)).toNat

/-- The new offset of the end of a range: edits that begin before it have moved it. -/
def stopAfter (fix : Fix) (offset : Nat) : Nat :=
  (offset + Edit.totalGrowth (fix.edits.filter fun edit => edit.start < offset)).toNat

/-- What stands after the fix where the range stood before. -/
def textAfter (fix : Fix) (source : Bytes) (span : Span) : Bytes :=
  Text.slice (fix.apply source) (fix.startAfter span.start) (fix.stopAfter span.stop)

theorem applyFrom_eq_slice_append (source : Bytes) (edits : List Edit) {offset middle : Nat}
    (hm : offset ≤ middle) (hl : middle ≤ source.length)
    (hs : ∀ edit ∈ edits, middle ≤ edit.start) :
    applyFrom source offset edits =
      Text.slice source offset middle ++ applyFrom source middle edits := by
  cases edits with
  | nil => exact (Text.slice_append_drop source hm hl).symm
  | cons edit rest =>
      rw [applyFrom, applyFrom,
        ← Text.slice_append_slice source hm (hs edit List.mem_cons_self) hl]
      simp only [List.append_assoc]

/-- Edits that end before an offset and edits that begin after it do not see each other. -/
theorem applyFrom_append (source : Bytes) (xs ys : List Edit) {offset middle : Nat}
    (hm : offset ≤ middle) (hl : middle ≤ source.length)
    (hx : ∀ edit ∈ xs, edit.stop ≤ middle) (hy : ∀ edit ∈ ys, middle ≤ edit.start) :
    applyFrom source offset (xs ++ ys) =
      applyFrom (source.take middle) offset xs ++ applyFrom source middle ys := by
  induction xs generalizing offset with
  | nil => exact applyFrom_eq_slice_append source ys hm hl hy
  | cons edit rest ih =>
      have hstop := hx edit List.mem_cons_self
      have hle := edit.start_le_stop
      rw [List.cons_append, applyFrom, applyFrom, ih hstop
        fun later hl => hx later (List.mem_cons_of_mem _ hl)]
      simp only [Text.slice, List.take_take, Nat.min_eq_left (Nat.le_trans hle hstop),
        List.append_assoc]

theorem length_applyFrom (source : Bytes) (edits : List Edit) {offset limit : Nat}
    (ho : offset ≤ limit) (hl : limit ≤ source.length)
    (hs : ∀ edit ∈ edits, offset ≤ edit.start) (he : ∀ edit ∈ edits, edit.stop ≤ limit)
    (ordered : edits.Pairwise Edit.Precedes) :
    ((applyFrom (source.take limit) offset edits).length : Int) =
      limit - offset + Edit.totalGrowth edits := by
  induction edits generalizing offset with
  | nil =>
      simp only [applyFrom, List.length_drop, List.length_take, Edit.totalGrowth_nil]
      omega
  | cons edit rest ih =>
      obtain ⟨first, ordered⟩ := List.pairwise_cons.1 ordered
      have hstart := hs edit List.mem_cons_self
      have hstop := he edit List.mem_cons_self
      have hle := edit.start_le_stop
      have tail := ih hstop (fun later hr => (first later hr).1)
        (fun later hr => he later (List.mem_cons_of_mem _ hr)) ordered
      simp only [applyFrom, List.length_append, Text.slice, List.length_drop, List.length_take,
        Edit.totalGrowth_cons, Edit.growth]
      omega

theorem filter_append_eq_left {xs ys : List Edit} {p : Edit → Prop} [DecidablePred p]
    (hx : ∀ edit ∈ xs, p edit) (hy : ∀ edit ∈ ys, ¬ p edit) :
    (xs ++ ys).filter (fun edit => p edit) = xs := by
  rw [List.filter_append, List.filter_eq_self.2, List.filter_eq_nil_iff.2, List.append_nil]
  · intro edit h
    simpa using hy edit h
  · intro edit h
    simpa using hx edit h

/-- The edits of a fix around a range: those before it, those inside it and those after it. The
hypotheses leave out insertions at an end of an empty range, which could stand on either side. -/
theorem textAfter_of_split (fix : Fix) (source : Bytes) (span : Span) (xs inner ys : List Edit)
    (split : fix.edits = xs ++ inner ++ ys) (hspan : span.start < span.stop)
    (hl : span.stop ≤ source.length) (hx : ∀ edit ∈ xs, edit.stop ≤ span.start)
    (hi : ∀ edit ∈ inner, span.start ≤ edit.start ∧ edit.stop ≤ span.stop ∧ edit.Touches span)
    (hy : ∀ edit ∈ ys, span.stop ≤ edit.start) :
    fix.textAfter source span = applyFrom (source.take span.stop) span.start inner := by
  have ordered := fix.ordered
  rw [split] at ordered
  obtain ⟨orderedLeft, -, -⟩ := List.pairwise_append.1 ordered
  obtain ⟨orderedX, orderedI, -⟩ := List.pairwise_append.1 orderedLeft
  have before : fix.edits.filter (fun edit => edit.stop ≤ span.start) = xs := by
    rw [split, List.append_assoc]
    refine filter_append_eq_left hx ?_
    intro edit h
    rcases List.mem_append.1 h with h | h
    · exact Nat.not_le_of_lt (hi edit h).2.2.1
    · have := hy edit h
      have := edit.start_le_stop
      omega
  have upTo : fix.edits.filter (fun edit => edit.start < span.stop) = xs ++ inner := by
    rw [split]
    refine filter_append_eq_left ?_ fun edit h => Nat.not_lt_of_le (hy edit h)
    intro edit h
    rcases List.mem_append.1 h with h | h
    · have := hx edit h
      have := edit.start_le_stop
      omega
    · exact (hi edit h).2.2.2
  have result : fix.apply source = applyFrom (source.take span.start) 0 xs ++
      applyFrom (source.take span.stop) span.start inner ++ applyFrom source span.stop ys := by
    have hxi : ∀ edit ∈ xs ++ inner, edit.stop ≤ span.stop := by
      intro edit h
      rcases List.mem_append.1 h with h | h
      · exact Nat.le_trans (hx edit h) (Nat.le_of_lt hspan)
      · exact (hi edit h).2.1
    rw [apply, split, applyFrom_append source (xs ++ inner) ys (Nat.zero_le _) hl hxi hy,
      applyFrom_append (source.take span.stop) xs inner (Nat.zero_le _)
        (by simp; omega) hx fun edit h => (hi edit h).1,
      List.take_take, Nat.min_eq_left (Nat.le_of_lt hspan)]
  have left := length_applyFrom source xs (Nat.zero_le _) (by omega : span.start ≤ source.length)
    (fun _ _ => Nat.zero_le _) hx orderedX
  have middle := length_applyFrom source inner (Nat.le_of_lt hspan) hl
    (fun edit h => (hi edit h).1) (fun edit h => (hi edit h).2.1) orderedI
  have start : fix.startAfter span.start =
      (applyFrom (source.take span.start) 0 xs).length := by
    rw [startAfter, before]
    omega
  have stop : fix.stopAfter span.stop = (applyFrom (source.take span.start) 0 xs).length +
      (applyFrom (source.take span.stop) span.start inner).length := by
    rw [stopAfter, upTo, Edit.totalGrowth_append]
    omega
  rw [textAfter, start, stop, result, Text.slice_append_left]

theorem split_at_offset (fix : Fix) (offset : Nat) :
    ∃ xs ys, fix.edits = xs ++ ys ∧ (∀ edit ∈ xs, edit.stop ≤ offset) ∧
      ∀ edit ∈ ys, offset < edit.stop := by
  obtain ⟨edits, ordered⟩ := fix
  induction edits with
  | nil => exact ⟨[], [], rfl, by simp, by simp⟩
  | cons edit rest ih =>
      obtain ⟨first, ordered⟩ := List.pairwise_cons.1 ordered
      by_cases h : edit.stop ≤ offset
      · obtain ⟨xs, ys, split, hx, hy⟩ := ih ordered
        refine ⟨edit :: xs, ys, congrArg (edit :: ·) split, ?_, hy⟩
        intro later hl
        rcases List.mem_cons.1 hl with rfl | hl
        · exact h
        · exact hx later hl
      · refine ⟨[], edit :: rest, rfl, by simp, ?_⟩
        intro later hl
        rcases List.mem_cons.1 hl with rfl | hl
        · exact Nat.lt_of_not_le h
        · have := (first later hl).1
          have := later.start_le_stop
          omega

theorem totalGrowth_filter_le (edits : List Edit) {p q : Edit → Prop} [DecidablePred p]
    [DecidablePred q] (shrinks : ∀ edit ∈ edits, p edit → ¬ q edit → edit.growth ≤ 0)
    (grows : ∀ edit ∈ edits, q edit → ¬ p edit → 0 ≤ edit.growth) :
    Edit.totalGrowth (edits.filter fun edit => p edit) ≤
      Edit.totalGrowth (edits.filter fun edit => q edit) := by
  induction edits with
  | nil => exact Int.le_refl _
  | cons edit rest ih =>
      have tail := ih (fun other h => shrinks other (List.mem_cons_of_mem _ h))
        (fun other h => grows other (List.mem_cons_of_mem _ h))
      have shrinks := shrinks edit List.mem_cons_self
      have grows := grows edit List.mem_cons_self
      by_cases hp : p edit <;> by_cases hq : q edit <;>
        simp [hp, hq] at shrinks grows ⊢ <;> omega

/-- A range without bytes stays empty, unless an edit with a text replaces what is around it. -/
theorem textAfter_of_empty (fix : Fix) (source : Bytes) (span : Span)
    (hspan : span.start = span.stop)
    (around : ∀ edit ∈ fix.edits, edit.Touches span → edit.text = "") :
    fix.textAfter source span = [] := by
  apply Text.slice_eq_nil
  have := totalGrowth_filter_le fix.edits (p := fun edit => edit.start < span.stop)
    (q := fun edit => edit.stop ≤ span.start) ?_ ?_
  · simp only [stopAfter, startAfter]
    omega
  · intro edit he before after
    have none := around edit he ⟨by omega, before⟩
    have := edit.start_le_stop
    simp only [Edit.growth, none, Text.encode_empty, List.length_nil]
    omega
  · intro edit he before after
    simp only [Edit.growth]
    omega

theorem textAfter_of_untouched (fix : Fix) (source : Bytes) (span : Span)
    (hspan : span.start ≤ span.stop) (hl : span.stop ≤ source.length)
    (untouched : ∀ edit ∈ fix.edits, ¬ edit.Touches span) :
    fix.textAfter source span = Text.slice source span.start span.stop := by
  rcases Nat.eq_or_lt_of_le hspan with empty | nonempty
  · rw [textAfter_of_empty fix source span empty fun edit he h => absurd h (untouched edit he),
      Text.slice_eq_nil source (Nat.le_of_eq empty.symm)]
  · obtain ⟨xs, ys, split, hx, hy⟩ := fix.split_at_offset span.start
    refine textAfter_of_split fix source span xs [] ys (by simp [split]) nonempty hl hx
      (by simp) ?_
    intro edit he
    have apart := untouched edit (by simp [split, he])
    exact Nat.le_of_not_lt fun h => apart ⟨hy edit he, h⟩

/-- A byte that no edit changes stands at its new place. -/
theorem getElem?_apply_of_untouched (fix : Fix) {source : Bytes} {offset : Nat} {byte : UInt8}
    (here : source[offset]? = some byte)
    (untouched : ∀ edit ∈ fix.edits, ¬ edit.Touches ⟨offset, offset + 1⟩) :
    (fix.apply source)[fix.startAfter offset]? = some byte := by
  obtain ⟨inside, -⟩ := List.getElem?_eq_some_iff.1 here
  have before : Text.slice source offset (offset + 1) = [byte] := by
    rw [Text.slice, List.take_add_one, here, Option.toList_some,
      List.drop_left' (List.length_take_of_le (Nat.le_of_lt inside))]
  have after :=
    fix.textAfter_of_untouched source ⟨offset, offset + 1⟩ (Nat.le_succ _) inside untouched
  exact Text.getElem?_of_slice (after.trans before)

theorem split_at_edit (fix : Fix) {edit : Edit} (he : edit ∈ fix.edits) :
    ∃ xs ys, fix.edits = xs ++ edit :: ys ∧ (∀ other ∈ xs, other.Precedes edit) ∧
      ∀ other ∈ ys, edit.Precedes other := by
  obtain ⟨xs, ys, split⟩ := List.append_of_mem he
  have ordered := fix.ordered
  rw [split] at ordered
  obtain ⟨-, right, across⟩ := List.pairwise_append.1 ordered
  exact ⟨xs, ys, split, fun other h => across other h edit List.mem_cons_self,
    (List.pairwise_cons.1 right).1⟩

theorem eq_or_apart (fix : Fix) {a b : Edit} (ha : a ∈ fix.edits) (hb : b ∈ fix.edits) :
    a = b ∨ a.overlaps b = false := by
  obtain ⟨xs, ys, split, before, after⟩ := fix.split_at_edit hb
  rw [split] at ha
  rcases List.mem_append.1 ha with h | h
  · exact .inr (before a h).2
  · rcases List.mem_cons.1 h with rfl | h
    · exact .inl rfl
    · exact .inr (Edit.overlaps_comm a b ▸ (after a h).2)

theorem eq_or_not_touches (fix : Fix) {a b : Edit} (ha : a ∈ fix.edits) (hb : b ∈ fix.edits) :
    a = b ∨ ¬ a.Touches b.toSpan :=
  (fix.eq_or_apart ha hb).imp_right Edit.not_touches_of_overlaps

/-- A range that one edit replaces has that edit's text; where there was nothing to replace, the
text stands outside of it. -/
theorem textAfter_of_replaced (fix : Fix) (source : Bytes) {edit : Edit} (he : edit ∈ fix.edits)
    (hl : edit.stop ≤ source.length) :
    fix.textAfter source edit.toSpan =
      if edit.start < edit.stop then Text.encode edit.text else [] := by
  split
  · rename_i nonempty
    obtain ⟨xs, ys, split, before, after⟩ := fix.split_at_edit he
    rw [textAfter_of_split fix source edit.toSpan xs [edit] ys (by simp [split]) nonempty hl
      (fun other h => (before other h).1) (by simp [Edit.Touches, nonempty])
      fun other h => (after other h).1]
    simp [applyFrom, Text.slice]
  · rename_i empty
    have := edit.start_le_stop
    refine textAfter_of_empty fix source edit.toSpan (by omega) ?_
    intro other ho touches
    rcases fix.eq_or_not_touches ho he with rfl | apart
    · unfold Edit.Touches at touches
      omega
    · exact absurd touches apart

theorem textAfter_of_deleted (fix : Fix) (source : Bytes) (span : Span) {edit : Edit}
    (he : edit ∈ fix.edits) (deletes : edit.text = "") (hspan : span.start ≤ span.stop)
    (hstart : edit.start ≤ span.start) (hstop : span.stop ≤ edit.stop) :
    fix.textAfter source span = [] := by
  rcases Nat.eq_or_lt_of_le hspan with empty | nonempty
  · refine textAfter_of_empty fix source span empty ?_
    intro other ho touches
    rcases fix.eq_or_not_touches ho he with rfl | apart
    · exact deletes
    · unfold Edit.Touches at touches apart
      omega
  obtain ⟨xs, ys, split, before, after⟩ := fix.split_at_edit he
  have start : fix.edits.filter (fun other => other.stop ≤ span.start) = xs := by
    rw [split]
    refine filter_append_eq_left (fun other h => Nat.le_trans (before other h).1 hstart) ?_
    intro other h
    rcases List.mem_cons.1 h with rfl | h
    · omega
    · have := (after other h).1
      have := other.start_le_stop
      omega
  have stop : fix.edits.filter (fun other => other.start < span.stop) = xs ++ [edit] := by
    rw [split, List.append_cons]
    refine filter_append_eq_left ?_ fun other h => by have := (after other h).1; omega
    intro other h
    rcases List.mem_append.1 h with h | h
    · have := (before other h).1
      have := other.start_le_stop
      omega
    · rw [List.mem_singleton.1 h]
      omega
  apply Text.slice_eq_nil
  rw [startAfter, stopAfter, start, stop, Edit.totalGrowth_append]
  simp only [Edit.totalGrowth_cons, Edit.totalGrowth_nil, Edit.growth, deletes,
    Text.encode_empty, List.length_nil]
  omega

end Fix
end JsxLint
