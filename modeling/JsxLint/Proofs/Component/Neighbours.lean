import JsxLint.Proofs.Component.Removal
import JsxLint.Proofs.Edit.Survival

/-!
What the removal of an attribute leaves in the tag. The stretch that goes with the attribute ends at
a neighbour, wherever the attribute stands, so the name of the tag and the other attributes keep
their texts and their order. Comments can go with the attribute; they are not considered here.
-/

namespace JsxLint
namespace Component

open Cursor (Reaches ofRoot)

variable {tree : Tree} {length : Nat} {tag attr : Cursor}

/-- A child that is not passed over is the attribute itself or keeps clear of what is removed. -/
theorem Removes.apart {start stop : Nat} {between : List Cursor}
    (h : Removes tag attr start stop between) (wf : tree.WellFormed length)
    (here : Reaches (ofRoot tree) tag) (hattr : attr ∈ tag.attributes)
    (filled : attr.start < attr.stop) {child : Cursor} (hc : child ∈ tag.children)
    (kept : child ∉ between) : child = attr ∨ child.stop ≤ start ∨ stop ≤ child.start := by
  have ordered := Cursor.pairwise_children wf here
  have forward {c : Cursor} (mem : c ∈ tag.children) : c.start ≤ c.stop :=
    Cursor.start_le_stop wf (.child here mem)
  have is_attr {twin : Cursor} (mem : twin ∈ tag.children) (same : twin.span = attr.span) :
      twin = attr :=
    Cursor.eq_of_span_eq wf here mem (Cursor.mem_children_of_attributes hattr) same filled
  cases h with
  | @first twin back split same =>
      obtain rfl := is_attr (by simp [split]) same
      rw [split] at ordered hc
      rcases List.mem_cons.1 hc with rfl | later
      · exact .inl rfl
      · exact .inr (.inr (List.rel_of_pairwise_cons ordered later))
  | @upTo front _ back twin following split same =>
      obtain rfl := is_attr (by simp [split]) same
      have next := forward (c := following) (by simp [split])
      rw [split] at ordered hc
      obtain ⟨-, rest, across⟩ := List.pairwise_append.1 ordered
      simp only [List.mem_append, List.mem_cons] at hc
      rcases hc with earlier | rfl | passed | rfl | later
      · exact .inr (.inl (across child earlier twin List.mem_cons_self))
      · exact .inl rfl
      · exact absurd passed kept
      · exact .inr (.inr (Nat.le_refl _))
      · have tail := (List.pairwise_append.1 rest.of_cons).2.1
        have := List.rel_of_pairwise_cons tail later
        exact .inr (.inr (by omega))
  | @behind front _ back previous twin split same =>
      obtain rfl := is_attr (by simp [split]) same
      have last := forward (c := previous) (by simp [split])
      rw [split] at ordered hc
      obtain ⟨-, rest, across⟩ := List.pairwise_append.1 ordered
      simp only [List.mem_append, List.mem_cons] at hc
      rcases hc with earlier | rfl | passed | rfl | later
      · have := across child earlier previous List.mem_cons_self
        exact .inr (.inl (by omega))
      · exact .inr (.inl (Nat.le_refl _))
      · exact absurd passed kept
      · exact .inl rfl
      · have tail := (List.pairwise_append.1 rest.of_cons).2.1
        exact .inr (.inr (List.rel_of_pairwise_cons tail later))

/-- What goes with an attribute keeps clear of the others. -/
theorem apart_of_removed (wf : tree.WellFormed length) (here : Reaches (ofRoot tree) tag)
    (hattr : attr ∈ tag.attributes) (filled : attr.start < attr.stop) {removal : Edit}
    (removed : removeAttribute tag attr = .ok removal) {other : Cursor}
    (mem : other ∈ tag.attributes) :
    other = attr ∨ other.stop ≤ removal.start ∨ removal.stop ≤ other.start := by
  obtain ⟨start, stop, removes, made⟩ := exists_removes hattr
  obtain ⟨-, at_start, at_stop, -⟩ := Edit.ofRange_eq_ok.1 (made.symm.trans removed)
  rw [at_start, at_stop]
  refine removes.apart wf here hattr filled (Cursor.mem_children_of_attributes mem) ?_
  intro passed
  rw [Cursor.attributes_eq, List.mem_filter, (Cursor.mem_passedOver passed).2] at mem
  cases mem.2

/-- What is removed lies between the attributes before and those after. -/
theorem exists_removal_between (wf : tree.WellFormed length) (here : Reaches (ofRoot tree) tag)
    (hattr : attr ∈ tag.attributes) (filled : attr.start < attr.stop) {removal : Edit}
    (removed : removeAttribute tag attr = .ok removal) :
    ∃ front back, tag.attributes = front ++ attr :: back ∧
      (∀ other ∈ front, other.stop ≤ removal.start) ∧
      ∀ other ∈ back, removal.stop ≤ other.start := by
  obtain ⟨_, again, -, left, right, -⟩ := exists_removal wf here hattr filled
  obtain rfl := Except.ok.inj (removed.symm.trans again)
  have forward {other : Cursor} (mem : other ∈ tag.attributes) : other.start ≤ other.stop :=
    Cursor.start_le_stop wf (.child here (Cursor.mem_children_of_attributes mem))
  have ordered := Cursor.pairwise_attributes wf here
  obtain ⟨front, back, split⟩ := List.append_of_mem hattr
  rw [split] at ordered
  obtain ⟨-, rest, across⟩ := List.pairwise_append.1 ordered
  refine ⟨front, back, split, fun other mem => ?_, fun other mem => ?_⟩
  · have before := across other mem attr List.mem_cons_self
    have listed : other ∈ tag.attributes := by simp [split, mem]
    have := forward listed
    rcases apart_of_removed wf here hattr filled removed listed with rfl | clear | clear
    · omega
    · exact clear
    · omega
  · have after := List.rel_of_pairwise_cons rest mem
    have listed : other ∈ tag.attributes := by simp [split, mem]
    have := forward listed
    rcases apart_of_removed wf here hattr filled removed listed with rfl | clear | clear
    · omega
    · omega
    · exact clear

/-- An attribute that is not empty can be removed from its tag, wherever it stands in it. What goes
lies in the tag, behind its name and between the attributes before and after; these keep their
texts and their order. -/
theorem removal_keeps_other_attributes (source : Bytes) (tree : Tree) (tag attr : Cursor)
    (wf : tree.WellFormed source.length) (here : tag ∈ (ofRoot tree).tags)
    (name_first : ∀ name ∈ tag.tagName?, ∀ other ∈ tag.attributes, name.stop ≤ other.start)
    (hattr : attr ∈ tag.attributes) (filled : attr.start < attr.stop) :
    ∃ removal fix front back,
      removeAttribute tag attr = .ok removal ∧ Fix.ofEdits [removal] = .ok fix ∧
      tag.attributes = front ++ attr :: back ∧
      removal.start ≤ attr.start ∧ attr.stop ≤ removal.stop ∧ removal.Within tag ∧
      (∀ name ∈ tag.tagName?, name.stop ≤ removal.start) ∧
      (∀ other ∈ front, other.stop ≤ removal.start) ∧
      (∀ other ∈ back, removal.stop ≤ other.start) ∧
      fix.apply source = source.take removal.start ++ source.drop removal.stop ∧
      (∀ other ∈ front ++ back,
        fix.textAfter source other.span = Text.slice source other.start other.stop) ∧
      (front ++ back).Pairwise fun a b => fix.stopAfter a.stop ≤ fix.startAfter b.start := by
  have reached := Tree.mem_nodes.1 (List.mem_filter.1 here).1
  obtain ⟨removal, removed, text, left, right, within, after⟩ :=
    exists_removal wf reached hattr filled
  obtain ⟨front, back, split, before, behind⟩ :=
    exists_removal_between wf reached hattr filled removed
  obtain ⟨fix, made, edits⟩ := Fix.exists_ofEdits_singleton removal
  have kept : (front ++ back).Sublist tag.attributes := by
    rw [split]
    exact (List.Sublist.refl front).append (List.sublist_cons_self attr back)
  have reaches {other : Cursor} (mem : other ∈ front ++ back) : Reaches (ofRoot tree) other :=
    .child reached (Cursor.mem_children_of_attributes (kept.subset mem))
  refine ⟨removal, fix, front, back, removed, made, split, left, right, within, ?_, before,
    behind, ?_, ?_, ?_⟩
  · intro name at_name
    exact after name (Cursor.mem_children_of_child?_eq at_name) (name_first name at_name)
  · rw [Fix.apply_singleton edits, text, Text.encode_empty, List.append_nil]
  · intro other mem
    refine fix.textAfter_of_untouched source other.span (Cursor.start_le_stop wf (reaches mem))
      (Cursor.stop_le_length wf (reaches mem)) fun edit he ⟨early, late⟩ => ?_
    obtain rfl : edit = removal := List.mem_singleton.1 (edits ▸ he)
    rcases List.mem_append.1 mem with mem | mem
    · exact Nat.not_lt_of_le (before other mem) late
    · exact Nat.not_lt_of_le (behind other mem) early
  · refine ((Cursor.pairwise_attributes wf reached).sublist kept).imp_of_mem fun {a b} ha _ le => ?_
    refine fix.stopAfter_le_startAfter le fun edit he early => ?_
    obtain rfl : edit = removal := List.mem_singleton.1 (edits ▸ he)
    have := Cursor.start_le_stop wf (reaches ha)
    rcases List.mem_append.1 ha with mem | mem
    · have := before a mem
      omega
    · have := behind a mem
      omega

/-- The last of three attributes goes with the space before it; the comment between the others is
left alone. -/
theorem removal_keeps_other_attributes_last :
    commentedTree.WellFormed commentedSource.length ∧
    commentedTag ∈ (ofRoot commentedTree).tags ∧
    (∀ name ∈ commentedTag.tagName?, ∀ other ∈ commentedTag.attributes, name.stop ≤ other.start) ∧
    ∃ attr ∈ commentedTag.attributes, attr.start < attr.stop ∧ ∃ removal fix front back,
      removeAttribute commentedTag attr = .ok removal ∧ Fix.ofEdits [removal] = .ok fix ∧
      commentedTag.attributes = front ++ attr :: back ∧
      fix.apply commentedSource = Text.encode "<B p /*c*/ q/>" ∧
      (∀ other ∈ front ++ back, fix.textAfter commentedSource other.span =
        Text.slice commentedSource other.start other.stop) ∧
      (front ++ back).Pairwise fun a b => fix.stopAfter a.stop ≤ fix.startAfter b.start := by
  have hattr : commentedTag.attributes.getD 2 default ∈ commentedTag.attributes :=
    List.mem_of_getElem? (i := 2) rfl
  have name_first : ∀ name ∈ commentedTag.tagName?, ∀ other ∈ commentedTag.attributes,
      name.stop ≤ other.start := by decide +kernel
  have filled : (commentedTag.attributes.getD 2 default).start <
      (commentedTag.attributes.getD 2 default).stop := by decide +kernel
  obtain ⟨removal, fix, front, back, removed, made, split, -, -, -, -, -, -, applied, texts,
      order⟩ :=
    removal_keeps_other_attributes commentedSource commentedTree commentedTag _
      commentedTree_wellFormed commentedTag_mem_tags name_first hattr filled
  have range : (removeAttribute commentedTag (commentedTag.attributes.getD 2 default)).toOption =
      some ⟨⟨12, 14⟩, "", by decide⟩ := by decide +kernel
  obtain rfl := Except.ok.inj (removed.symm.trans (eq_ok_of_toOption range))
  exact ⟨commentedTree_wellFormed, commentedTag_mem_tags, name_first, _, hattr, filled, _, fix,
    front, back, removed, made, split, applied.trans (by decide +kernel), texts, order⟩

end Component
end JsxLint
