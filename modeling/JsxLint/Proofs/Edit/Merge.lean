import JsxLint.Edit.Fix

/-!
Which lists of edits make up a fix. The constructor compares neighbours of the sorted list only;
that is enough for it to accept every list in which no two edits overlap, in whatever order they
are handed over. That it accepts nothing else is not needed here.
-/

namespace JsxLint
namespace Edit

/-- No two edits at different places of the list overlap. -/
def Disjoint (edits : List Edit) : Prop :=
  edits.Pairwise fun a b => a.overlaps b = false

theorem Disjoint.perm {xs ys : List Edit} (h : Disjoint xs) (p : xs.Perm ys) : Disjoint ys :=
  p.pairwise h fun hab => by rwa [overlaps_comm]

theorem Precedes.asymm {a b : Edit} (hab : a.Precedes b) : ¬ b.Precedes a := by
  rintro ⟨back, -⟩
  obtain ⟨forth, apart⟩ := hab
  have ha := a.start_le_stop
  have hb := b.start_le_stop
  simp only [overlaps] at apart
  split at apart <;> simp only [decide_eq_false_iff_not] at apart <;> omega

end Edit

namespace Fix

theorem disjoint_edits (fix : Fix) : Edit.Disjoint fix.edits :=
  fix.ordered.imp fun h => h.2

/-- A fix holds its edits in the only order they have. -/
theorem edits_eq_of_perm {fix : Fix} {edits : List Edit} (ordered : edits.Pairwise Edit.Precedes)
    (perm : edits.Perm fix.edits) : edits = fix.edits :=
  perm.eq_of_pairwise (fun _ _ _ _ hab hba => absurd hba hab.asymm) ordered fix.ordered

theorem overlaps_eq_false {f g : Fix} (apart : f.conflictsWith g = false) {a b : Edit}
    (ha : a ∈ f.edits) (hb : b ∈ g.edits) : a.overlaps b = false := by
  simp only [conflictsWith, List.any_eq_false, Bool.not_eq_true] at apart
  exact apart a ha b hb

theorem conflictsWith_comm (f g : Fix) : f.conflictsWith g = g.conflictsWith f := by
  rw [Bool.eq_iff_iff]
  simp only [conflictsWith, List.any_eq_true]
  constructor
  · rintro ⟨a, ha, b, hb, h⟩
    exact ⟨b, hb, a, ha, Edit.overlaps_comm a b ▸ h⟩
  · rintro ⟨b, hb, a, ha, h⟩
    exact ⟨a, ha, b, hb, Edit.overlaps_comm b a ▸ h⟩

theorem disjoint_append {f g : Fix} (apart : f.conflictsWith g = false) :
    Edit.Disjoint (f.edits ++ g.edits) :=
  List.pairwise_append.2 ⟨f.disjoint_edits, g.disjoint_edits,
    fun _ ha _ hb => overlaps_eq_false apart ha hb⟩

theorem firstOverlap?_eq_none {edits : List Edit} (h : Edit.Disjoint edits) :
    firstOverlap? edits = none := by
  fun_induction firstOverlap? edits with
  | case1 a b rest hab =>
      have := List.rel_of_pairwise_cons h (List.mem_cons_self (a := b))
      simp [this] at hab
  | case2 a b rest hab ih => exact ih h.of_cons
  | case3 => rfl

theorem ofEdits_eq_ok {edits : List Edit}
    (h : firstOverlap? (edits.mergeSort Edit.le) = none) :
    ∃ fix, ofEdits edits = .ok fix := by
  simp only [ofEdits]
  split
  · exact ⟨_, rfl⟩
  · rename_i found
    rw [h] at found
    cases found

theorem perm_of_ofEdits {edits : List Edit} {fix : Fix} (h : ofEdits edits = .ok fix) :
    fix.edits.Perm edits := by
  simp only [ofEdits] at h
  split at h
  · obtain rfl := Except.ok.inj h
    exact List.mergeSort_perm edits Edit.le
  · cases h

/-- Edits that do not overlap make up a fix, which holds each of them once. -/
theorem exists_ofEdits {edits : List Edit} (h : Edit.Disjoint edits) :
    ∃ fix, ofEdits edits = .ok fix ∧ fix.edits.Perm edits := by
  have sorted := List.mergeSort_perm edits Edit.le
  obtain ⟨fix, hf⟩ := ofEdits_eq_ok (firstOverlap?_eq_none (h.perm sorted.symm))
  exact ⟨fix, hf, perm_of_ofEdits hf⟩

theorem exists_ofEdits_singleton (edit : Edit) :
    ∃ fix, ofEdits [edit] = .ok fix ∧ fix.edits = [edit] := by
  obtain ⟨fix, made, perm⟩ := exists_ofEdits (List.pairwise_singleton _ edit)
  exact ⟨fix, made, List.perm_singleton.1 perm⟩

end Fix
end JsxLint
