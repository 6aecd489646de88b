import JsxLint.Proofs.Edit.Compose

/-!
A fix carried out in one go and edit by edit. Both give the same bytes, and what lies outside the
ranges of the edits comes through in order, each byte moved by what the edits before it insert and
delete. An insertion right in front of a byte is before it. Sources that end inside the last edit
are left out.
-/

namespace JsxLint
namespace Fix

/-- The offset lies in the range of no edit. -/
def Spares (fix : Fix) (offset : Nat) : Prop :=
  ∀ edit ∈ fix.edits, ¬ (edit.start ≤ offset ∧ offset < edit.stop)

theorem Spares.not_touches {fix : Fix} {offset : Nat} (spared : fix.Spares offset) {edit : Edit}
    (he : edit ∈ fix.edits) : ¬ edit.Touches ⟨offset, offset + 1⟩ := by
  rintro ⟨after, before⟩
  exact spared edit he ⟨Nat.le_of_lt_succ before, after⟩

/-- The edit that comes last also ends last. -/
theorem stop_le_of_getLast? (fix : Fix) {edit last : Edit} (he : edit ∈ fix.edits)
    (hl : fix.edits.getLast? = some last) : edit.stop ≤ last.stop := by
  have ordered := fix.ordered
  obtain ⟨front, split⟩ := List.getLast?_eq_some_iff.1 hl
  rw [split] at ordered he
  rcases List.mem_append.1 he with he | he
  · have := ((List.pairwise_append.1 ordered).2.2 edit he last List.mem_cons_self).1
    have := last.start_le_stop
    omega
  · exact Nat.le_of_eq (congrArg (·.stop) (List.mem_singleton.1 he))

/-- Edits before an offset never delete more than what stands before it, so nothing is cut off when
the offset is moved. -/
theorem startAfter_eq (fix : Fix) (offset : Nat) :
    (fix.startAfter offset : Int) =
      offset + Edit.totalGrowth (fix.edits.filter fun edit => edit.stop ≤ offset) := by
  have inside : ((0 : Nat) : Int) ≤
      offset + Edit.totalGrowth (fix.edits.filter fun edit => edit.stop ≤ offset) :=
    Edit.le_add_totalGrowth (Nat.zero_le _) (fun _ _ => Nat.zero_le _)
      (fun edit h => of_decide_eq_true (List.mem_filter.1 h).2)
      (fix.ordered.sublist List.filter_sublist)
  rw [startAfter]
  omega

theorem startAfter_lt (fix : Fix) {first second : Nat} (spared : fix.Spares first)
    (lt : first < second) : fix.startAfter first < fix.startAfter second := by
  obtain ⟨xs, ys, split, hx, hy⟩ := fix.split_at_offset first
  have ordered := fix.ordered
  rw [split] at ordered
  have upToFirst : fix.edits.filter (fun edit => edit.stop ≤ first) = xs := by
    rw [split]
    exact filter_append_eq_left hx fun edit h => Nat.not_le_of_lt (hy edit h)
  have upToSecond : fix.edits.filter (fun edit => edit.stop ≤ second) =
      xs ++ ys.filter fun edit => edit.stop ≤ second := by
    rw [split, List.filter_append, List.filter_eq_self.2]
    intro edit h
    exact decide_eq_true (Nat.le_trans (hx edit h) (Nat.le_of_lt lt))
  -- What ends behind the first offset also starts behind it, since the offset itself is spared.
  have between : ((first + 1 : Nat) : Int) ≤
      second + Edit.totalGrowth (ys.filter fun edit => edit.stop ≤ second) := by
    refine Edit.le_add_totalGrowth lt ?_ (fun edit h => of_decide_eq_true (List.mem_filter.1 h).2)
      ((List.pairwise_append.1 ordered).2.1.sublist List.filter_sublist)
    intro edit h
    have here := (List.mem_filter.1 h).1
    have := hy edit here
    have := spared edit (split ▸ List.mem_append_right _ here)
    omega
  have left := fix.startAfter_eq first
  have right := fix.startAfter_eq second
  rw [upToFirst] at left
  rw [upToSecond, Edit.totalGrowth_append] at right
  omega

/-- Ranges that follow each other do so after the fix, unless an edit reaches over both. -/
theorem stopAfter_le_startAfter (fix : Fix) {first second : Nat} (le : first ≤ second)
    (between : ∀ edit ∈ fix.edits, edit.start < first → edit.stop ≤ second) :
    fix.stopAfter first ≤ fix.startAfter second := by
  obtain ⟨xs, ys, split, hx, hy⟩ := fix.split_at_offset second
  have ordered := fix.ordered
  rw [split] at ordered
  have upToSecond : fix.edits.filter (fun edit => edit.stop ≤ second) = xs := by
    rw [split]
    exact filter_append_eq_left hx fun edit h => Nat.not_le_of_lt (hy edit h)
  have none : ys.filter (fun edit => edit.start < first) = [] := by
    refine List.filter_eq_nil_iff.2 fun edit h early => ?_
    have := between edit (split ▸ List.mem_append_right _ h) (of_decide_eq_true early)
    have := hy edit h
    omega
  have upToFirst : fix.edits.filter (fun edit => edit.start < first) =
      xs.filter fun edit => edit.start < first := by
    rw [split, List.filter_append, none, List.append_nil]
  have parts := Edit.totalGrowth_filter_add (fun edit => edit.start < first) xs
  have later : (first : Int) ≤
      second + Edit.totalGrowth (xs.filter fun edit => !decide (edit.start < first)) := by
    refine Edit.le_add_totalGrowth le (fun edit h => ?_)
      (fun edit h => hx edit (List.mem_filter.1 h).1)
      ((List.pairwise_append.1 ordered).1.sublist List.filter_sublist)
    simpa using (List.mem_filter.1 h).2
  rw [stopAfter, startAfter, upToFirst, upToSecond]
  omega

theorem length_apply (fix : Fix) {source : Bytes}
    (hb : ∀ edit ∈ fix.edits, edit.stop ≤ source.length) :
    ((fix.apply source).length : Int) = source.length + Edit.totalGrowth fix.edits := by
  have := length_applyFrom source fix.edits (Nat.zero_le _) (Nat.le_refl _)
    (fun _ _ => Nat.zero_le _) hb fix.ordered
  rw [List.take_length] at this
  rw [apply]
  omega

/-- One pass from left to right does what splicing the edits in from the last to the first does. The
source grows by as much as its edits do together. A byte outside all ranges is found again behind
what the edits before it have left, and no two such bytes change places. -/
theorem apply_splices_from_last (fix : Fix) (source : Bytes)
    (fits : ∀ last ∈ fix.edits.getLast?, last.stop ≤ source.length) :
    fix.apply source = Edit.spliceAll fix.edits source ∧
    ((fix.apply source).length : Int) = source.length + Edit.totalGrowth fix.edits ∧
    (∀ offset byte, source[offset]? = some byte → fix.Spares offset →
      (fix.apply source)[fix.startAfter offset]? = some byte ∧
      (fix.startAfter offset : Int) =
        offset + Edit.totalGrowth (fix.edits.filter fun edit => edit.stop ≤ offset)) ∧
    ∀ first second, fix.Spares first → fix.Spares second → first < second →
      fix.startAfter first < fix.startAfter second := by
  have inside : ∀ edit ∈ fix.edits, edit.stop ≤ source.length := by
    intro edit he
    obtain ⟨last, hl⟩ := Option.isSome_iff_exists.1
      (List.getLast?_isSome.2 (List.ne_nil_of_mem he))
    exact Nat.le_trans (fix.stop_le_of_getLast? he hl) (fits last hl)
  refine ⟨fix.apply_eq_spliceAll source inside, fix.length_apply inside, ?_, ?_⟩
  · intro offset byte here spared
    exact ⟨fix.getElem?_apply_of_untouched here fun edit he => spared.not_touches he,
      fix.startAfter_eq offset⟩
  · intro first second spared _ lt
    exact fix.startAfter_lt spared lt

/-- Each of its edits begins where the one before it ends. -/
def adjacent : Fix :=
  ⟨[⟨⟨5, 7⟩, "é!", by decide⟩, .insert 7 "z", ⟨⟨7, 9⟩, "", by decide⟩],
    by unfold Edit.Precedes; decide⟩

theorem apply_splices_from_last_adjacent :
    (∀ last ∈ adjacent.edits.getLast?, last.stop ≤ (Text.encode "0123456789").length) ∧
    adjacent.Spares 1 ∧ adjacent.Spares 9 ∧
    adjacent.apply (Text.encode "0123456789") =
      Edit.spliceAll adjacent.edits (Text.encode "0123456789") ∧
    (adjacent.apply (Text.encode "0123456789")).length = 10 ∧
    (adjacent.apply (Text.encode "0123456789"))[adjacent.startAfter 9]? = some 57 ∧
    adjacent.startAfter 1 < adjacent.startAfter 9 := by
  have fits : ∀ last ∈ adjacent.edits.getLast?,
      last.stop ≤ (Text.encode "0123456789").length := by decide
  have left : adjacent.Spares 1 := by unfold Spares; decide
  have right : adjacent.Spares 9 := by unfold Spares; decide
  obtain ⟨spliced, length, kept, order⟩ :=
    apply_splices_from_last adjacent (Text.encode "0123456789") fits
  have growth :
      ((Text.encode "0123456789").length : Int) + Edit.totalGrowth adjacent.edits = 10 := by
    decide
  exact ⟨fits, left, right, spliced, by omega, (kept 9 57 (by decide) right).1,
    order 1 9 left right (by decide)⟩

end Fix
end JsxLint
