/-!
Sorting that keeps the given order among elements of which neither comes before the other. Leaving
elements out before or after sorting makes no difference, and the sorted list depends on nothing
but the order of the elements within each class of ties.
-/

namespace JsxLint
namespace StableSort

variable {α : Type} {le : α → α → Bool}
  (trans : ∀ a b c, le a b = true → le b c = true → le a c = true)
  (total : ∀ a b, (le a b || le b a) = true)

/-- Neither element comes strictly before the other. -/
def tied (le : α → α → Bool) (a b : α) : Bool :=
  le a b && le b a

include total

theorem le_self (a : α) : le a a = true := by
  simpa using total a a

theorem mem_of_filter_tied {xs ys : List α} {a : α}
    (ties : xs.filter (tied le a) = ys.filter (tied le a)) (mem : a ∈ xs) : a ∈ ys := by
  have : a ∈ xs.filter (tied le a) := List.mem_filter.2 ⟨mem, by simp [tied, le_self total a]⟩
  rw [ties] at this
  exact (List.mem_filter.1 this).1

theorem head_le {a b : α} {xs : List α} (sorted : (a :: xs).Pairwise fun a b => le a b = true)
    (mem : b ∈ a :: xs) : le a b = true := by
  rcases List.mem_cons.1 mem with rfl | later
  · exact le_self total b
  · exact List.rel_of_pairwise_cons sorted later

/-- Two sorted lists with the same classes of ties are the same. -/
theorem eq_of_filter_tied {xs ys : List α} (sorted_xs : xs.Pairwise fun a b => le a b = true)
    (sorted_ys : ys.Pairwise fun a b => le a b = true)
    (ties : ∀ a, xs.filter (tied le a) = ys.filter (tied le a)) : xs = ys := by
  induction xs generalizing ys with
  | nil =>
      refine (List.eq_nil_iff_forall_not_mem.2 fun b mem => ?_).symm
      exact absurd (mem_of_filter_tied total (ties b).symm mem) List.not_mem_nil
  | cons a xs ih =>
      have mem : a ∈ ys := mem_of_filter_tied total (ties a) List.mem_cons_self
      cases ys with
      | nil => cases mem
      | cons b ys =>
          -- Each head is in the other list, so the two are tied and each is first of its class.
          have back := mem_of_filter_tied total (ties b).symm List.mem_cons_self
          have tie : tied le a b = true := by
            rw [tied, head_le total sorted_xs back, head_le total sorted_ys mem, Bool.and_self]
          have heads := ties a
          rw [List.filter_cons_of_pos (by simp [tied, le_self total a]),
            List.filter_cons_of_pos tie] at heads
          obtain ⟨rfl, -⟩ := List.cons.inj heads
          refine congrArg (a :: ·) (ih sorted_xs.of_cons sorted_ys.of_cons fun c => ?_)
          have tails := ties c
          simp only [List.filter_cons] at tails
          split at tails
          · exact (List.cons.inj tails).2
          · exact tails

include trans

/-- An element that is added in front goes behind all that come before it and nothing else. -/
theorem mergeSort_cons_eq (a : α) (xs : List α) :
    (a :: xs).mergeSort le =
      (xs.mergeSort le).filter (fun b => !le a b) ++ a :: (xs.mergeSort le).filter (le a) := by
  obtain ⟨front, back, sorted, rest, before⟩ := List.mergeSort_cons trans total a xs
  have ordered := List.pairwise_mergeSort trans total (a :: xs)
  rw [sorted] at ordered
  have after : ∀ b ∈ back, le a b = true :=
    (List.pairwise_cons.1 (List.pairwise_append.1 ordered).2.1).1
  have front_eq : (front ++ back).filter (fun b => !le a b) = front := by
    rw [List.filter_append, List.filter_eq_self.2 before, List.filter_eq_nil_iff.2,
      List.append_nil]
    intro b hb
    simp [after b hb]
  have back_eq : (front ++ back).filter (le a) = back := by
    rw [List.filter_append, List.filter_eq_self.2 after, List.filter_eq_nil_iff.2,
      List.nil_append]
    intro b hb
    simpa using before b hb
  rw [sorted, rest, front_eq, back_eq]

/-- What is left out may be left out before or after sorting. -/
theorem filter_mergeSort (p : α → Bool) (xs : List α) :
    (xs.mergeSort le).filter p = (xs.filter p).mergeSort le := by
  induction xs with
  | nil => simp
  | cons a rest ih =>
      by_cases kept : p a = true
      · rw [List.filter_cons_of_pos kept, mergeSort_cons_eq trans total,
          mergeSort_cons_eq trans total, ← ih, List.filter_append, List.filter_cons_of_pos kept]
        simp only [List.filter_filter, Bool.and_comm]
      · obtain ⟨front, back, sorted, rest_eq, -⟩ := List.mergeSort_cons trans total a rest
        rw [List.filter_cons_of_neg kept, ← ih, sorted, rest_eq, List.filter_append,
          List.filter_append, List.filter_cons_of_neg kept]

theorem mergeSort_eq_of_filter_tied {xs ys : List α}
    (ties : ∀ a, xs.filter (tied le a) = ys.filter (tied le a)) :
    xs.mergeSort le = ys.mergeSort le := by
  refine eq_of_filter_tied total (List.pairwise_mergeSort trans total xs)
    (List.pairwise_mergeSort trans total ys) fun a => ?_
  rw [filter_mergeSort trans total, filter_mergeSort trans total, ties]

end StableSort
end JsxLint
