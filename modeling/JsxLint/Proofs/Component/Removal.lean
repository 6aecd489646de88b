import JsxLint.Proofs.Component.Feasible
import Mathlib.Data.List.Chain
import Mathlib.Data.List.TakeWhile

/-!
What is deleted together with an attribute. Besides the attribute itself it is the stretch up to a
neighbour: the next attribute, for the last one the attribute before it, and for the only one the
child before it. Where nothing but white space stands between the children of a tag, that stretch is
white space except for the children it passes over, and a comment between two attributes is such a
child. What counts as white space does not matter.
-/

namespace JsxLint
namespace Text

/-- The byte at an offset is part of a character that counts as white space. -/
def WhiteAt (white : Char → Bool) (source : Bytes) (offset : Nat) : Prop :=
  ∃ c front back, white c = true ∧ source = front ++ encode (String.ofList [c]) ++ back ∧
    front.length ≤ offset ∧ offset < front.length + (encode (String.ofList [c])).length

/-- All bytes between two offsets are white space. -/
def WhiteBetween (white : Char → Bool) (source : Bytes) (start stop : Nat) : Prop :=
  ∀ offset, start ≤ offset → offset < stop → WhiteAt white source offset

theorem WhiteBetween.mono {white : Char → Bool} {source : Bytes} {start stop first last : Nat}
    (h : WhiteBetween white source start stop) (left : start ≤ first) (right : last ≤ stop) :
    WhiteBetween white source first last :=
  fun offset after before => h offset (Nat.le_trans left after) (Nat.lt_of_lt_of_le before right)

/-- A character of one byte is known by its byte. -/
theorem whiteAt_iff_of_ascii {white : Char → Bool} {source : Bytes} {offset : Nat} {c : Char}
    (ascii : c.toNat ≤ 127) (here : source[offset]? = some (UInt8.ofNat c.toNat)) :
    WhiteAt white source offset ↔ white c = true := by
  constructor
  · rintro ⟨d, front, back, blank, split, after, before⟩
    have mem : UInt8.ofNat c.toNat ∈ encode (String.ofList [d]) := by
      rw [split, List.append_assoc, List.getElem?_append_right after,
        List.getElem?_append_left (by omega)] at here
      exact List.mem_of_getElem? here
    rwa [← eq_of_mem_encode ascii mem]
  · intro blank
    obtain ⟨inside, byte⟩ := List.getElem?_eq_some_iff.1 here
    have single : encode (String.ofList [c]) = [source[offset]] := by
      rw [byte, encode_singleton, String.utf8EncodeChar]
      exact if_pos ascii
    have front : (source.take offset).length = offset :=
      List.length_take_of_le (Nat.le_of_lt inside)
    refine ⟨c, source.take offset, source.drop (offset + 1), blank, ?_, ?_, ?_⟩
    · rw [single, List.append_assoc, List.singleton_append, List.getElem_cons_drop,
        List.take_append_drop]
    · exact Nat.le_of_eq front
    · rw [single, front, List.length_singleton]
      exact Nat.lt_succ_self _

end Text

namespace Cursor

variable {white : Char → Bool} {source : Bytes}

def isAttribute (c : Cursor) : Bool :=
  c.named && c.kind.isAttribute

theorem attributes_eq (tag : Cursor) : tag.attributes = tag.children.filter (·.isAttribute) := by
  simp only [attributes, namedChildren, List.filter_filter, isAttribute, Bool.and_comm]

/-- Nothing but white space stands between neighbouring children. -/
def Spaced (white : Char → Bool) (source : Bytes) (c : Cursor) : Prop :=
  c.children.IsChain fun a b => Text.WhiteBetween white source a.stop b.start

/-- What lies between two children is white space exactly if the children between them are. -/
theorem whiteBetween_iff {a b : Cursor} {between : List Cursor}
    (spaced : (a :: (between ++ [b])).IsChain fun a b =>
      Text.WhiteBetween white source a.stop b.start)
    (ordered : (a :: (between ++ [b])).Pairwise fun a b => a.stop ≤ b.start) :
    Text.WhiteBetween white source a.stop b.start ↔
      ∀ child ∈ between, Text.WhiteBetween white source child.start child.stop := by
  constructor
  · intro blank child mem
    obtain ⟨first, ordered⟩ := List.pairwise_cons.1 ordered
    exact blank.mono (first child (List.mem_append_left _ mem))
      ((List.pairwise_append.1 ordered).2.2 child mem b List.mem_cons_self)
  · intro blank
    -- An offset is in the first gap, in the first child, or behind both.
    induction between generalizing a with
    | nil => exact (List.isChain_cons_cons.1 spaced).1
    | cons child rest ih =>
        obtain ⟨gap, spaced⟩ := List.isChain_cons_cons.1 spaced
        have tail := ih spaced ordered.of_cons fun later h => blank later (List.mem_cons_of_mem _ h)
        intro offset after before
        by_cases inGap : offset < child.start
        · exact gap offset after inGap
        · by_cases inChild : offset < child.stop
          · exact blank child List.mem_cons_self offset (Nat.le_of_not_lt inGap) inChild
          · exact tail offset (Nat.le_of_not_lt inChild) before

theorem Spaced.whiteBetween_iff {c a b : Cursor} {front between back : List Cursor}
    (spaced : c.Spaced white source) (ordered : c.children.Pairwise fun a b => a.stop ≤ b.start)
    (split : c.children = front ++ a :: (between ++ b :: back)) :
    a.stop ≤ b.start ∧ (Text.WhiteBetween white source a.stop b.start ↔
      ∀ child ∈ between, Text.WhiteBetween white source child.start child.stop) := by
  have part : a :: (between ++ [b]) <:+: c.children := ⟨front, back, by simp [split]⟩
  have ordered := ordered.sublist part.sublist
  have order : a.stop ≤ b.start := List.rel_of_pairwise_cons ordered (by simp)
  have gaps := List.IsChain.infix spaced part
  exact ⟨order, Cursor.whiteBetween_iff gaps ordered⟩

/-- The child is an attribute with the range of another. -/
def looksLike (attr child : Cursor) : Bool :=
  child.isAttribute && child.span = attr.span

/-- The children in front of the first one that looks like the attribute. -/
def childrenBefore (tag attr : Cursor) : List Cursor :=
  tag.children.takeWhile (!attr.looksLike ·)

def childrenAfter (tag attr : Cursor) : List Cursor :=
  (tag.children.dropWhile (!attr.looksLike ·)).tail

/-- The children between an attribute and the neighbour up to which it is removed. -/
def passedOver (tag attr : Cursor) : List Cursor :=
  if (tag.childrenAfter attr).any (·.isAttribute) then
    (tag.childrenAfter attr).takeWhile (!·.isAttribute)
  else if (tag.childrenBefore attr).any (·.isAttribute) then
    ((tag.childrenBefore attr).reverse.takeWhile (!·.isAttribute)).reverse
  else
    []

theorem takeWhile_not_isAttribute {between back : List Cursor} {next : Cursor}
    (none : ∀ child ∈ between, child.isAttribute = false) (own : next.isAttribute = true) :
    (between ++ next :: back).takeWhile (!·.isAttribute) = between := by
  rw [List.takeWhile_append_of_pos fun child h => by rw [none child h, Bool.not_false],
    List.takeWhile_cons_of_neg (by simp [own]), List.append_nil]

theorem passedOver_of_following {tag attr following : Cursor} {between back : List Cursor}
    (after : tag.childrenAfter attr = between ++ following :: back)
    (none : ∀ child ∈ between, child.isAttribute = false) (own : following.isAttribute = true) :
    tag.passedOver attr = between := by
  rw [passedOver, if_pos (by simp [after, own]), after, takeWhile_not_isAttribute none own]

theorem passedOver_of_previous {tag attr previous : Cursor} {front between : List Cursor}
    (last : ∀ child ∈ tag.childrenAfter attr, child.isAttribute = false)
    (before : tag.childrenBefore attr = front ++ previous :: between)
    (none : ∀ child ∈ between, child.isAttribute = false) (own : previous.isAttribute = true) :
    tag.passedOver attr = between := by
  have backwards : (tag.childrenBefore attr).reverse =
      between.reverse ++ previous :: front.reverse := by
    simp [before]
  rw [passedOver, if_neg (by simpa using last), if_pos (by simp [before, own]), backwards,
    takeWhile_not_isAttribute (by simpa using none) own, List.reverse_reverse]

theorem passedOver_of_only {tag attr : Cursor}
    (last : ∀ child ∈ tag.childrenAfter attr, child.isAttribute = false)
    (first : ∀ child ∈ tag.childrenBefore attr, child.isAttribute = false) :
    tag.passedOver attr = [] := by
  rw [passedOver, if_neg (by simpa using last), if_neg (by simpa using first)]

theorem mem_passedOver {tag attr child : Cursor} (h : child ∈ tag.passedOver attr) :
    child ∈ tag.children ∧ child.isAttribute = false := by
  unfold passedOver at h
  split at h
  · have later : (tag.childrenAfter attr).Sublist tag.children :=
      (List.tail_sublist _).trans (List.dropWhile_sublist _)
    exact ⟨later.subset ((List.takeWhile_sublist _).subset h),
      by simpa using List.mem_takeWhile_imp h⟩
  · split at h
    · rw [List.mem_reverse] at h
      have earlier := List.mem_reverse.1 ((List.takeWhile_sublist _).subset h)
      exact ⟨(List.takeWhile_sublist _).subset earlier, by simpa using List.mem_takeWhile_imp h⟩
    · cases h

theorem exists_split {tag attr : Cursor} (hattr : attr ∈ tag.attributes) :
    ∃ twin, tag.children = tag.childrenBefore attr ++ twin :: tag.childrenAfter attr ∧
      twin.isAttribute = true ∧ twin.span = attr.span := by
  rw [attributes_eq] at hattr
  obtain ⟨mem, own⟩ := List.mem_filter.1 hattr
  cases rest : tag.children.dropWhile (!attr.looksLike ·) with
  | nil =>
      have := List.dropWhile_eq_nil_iff.1 rest attr mem
      simp [looksLike, own] at this
  | cons twin after =>
      have first : attr.looksLike twin = true := by
        have := List.head_dropWhile_not (!attr.looksLike ·) (l := tag.children) (by simp [rest])
        simpa [rest] using this
      simp only [looksLike, Bool.and_eq_true, decide_eq_true_eq] at first
      refine ⟨twin, ?_, first⟩
      rw [childrenBefore, childrenAfter, rest, List.tail_cons, ← rest,
        List.takeWhile_append_dropWhile]

theorem span_ne_of_mem_childrenBefore {tag attr child : Cursor}
    (h : child ∈ tag.childrenBefore attr) (own : child.isAttribute = true) :
    child.span ≠ attr.span := by
  have := List.mem_takeWhile_imp h
  simpa [looksLike, own] using this

/-- No attribute stands behind the last one. -/
theorem exists_split_of_filter {children front : List Cursor} {previous : Cursor}
    (h : children.filter (·.isAttribute) = front ++ [previous]) :
    ∃ skipped between, children = skipped ++ previous :: between ∧
      previous.isAttribute = true ∧ ∀ child ∈ between, child.isAttribute = false := by
  obtain ⟨head, tail, rfl, -, found⟩ := List.filter_eq_append_iff.1 h
  obtain ⟨skipped, between, rfl, -, own, rest⟩ := List.filter_eq_cons_iff.1 found
  exact ⟨head ++ skipped, between, (List.append_assoc ..).symm, own,
    by simpa using List.filter_eq_nil_iff.1 rest⟩

theorem prevSibling?_of_split {b c : Cursor} {front back : List Cursor}
    (split : b.children = front ++ c :: back) : c.prevSibling? = front.getLast? := by
  have here : b.children[front.length]? = some c := by
    rw [split, List.getElem?_append_right (Nat.le_refl _), Nat.sub_self, List.getElem?_cons_zero]
  rw [children, List.getElem?_mapIdx] at here
  obtain ⟨child, -, rfl⟩ := Option.map_eq_some_iff.1 here
  rw [List.getLast?_eq_getElem?]
  cases length : front.length with
  | zero => rw [List.length_eq_zero_iff.1 length]; rfl
  | succ index =>
      have before : b.children[index]? = front[index]? := by
        rw [split, List.getElem?_append_left (by omega)]
      rw [Nat.add_sub_cancel, ← before, children, List.getElem?_mapIdx]
      rfl

end Cursor

namespace Component

section

variable {tag attr twin : Cursor} {front rest : List Cursor}

theorem findIdx?_of_split (attrs : tag.attributes = front ++ twin :: rest)
    (same : twin.span = attr.span) (others : ∀ other ∈ front, other.span ≠ attr.span) :
    tag.attributes.findIdx? (fun candidate => candidate.span = attr.span) =
      some front.length := by
  have missing : front.findIdx? (fun candidate => candidate.span = attr.span) = none :=
    List.findIdx?_eq_none_iff.2 fun other h => decide_eq_false (others other h)
  simp [attrs, List.findIdx?_append, missing, List.findIdx?_cons, same]

theorem removeAttribute_of_followed {following : Cursor}
    (attrs : tag.attributes = front ++ twin :: following :: rest)
    (same : twin.span = attr.span) (others : ∀ other ∈ front, other.span ≠ attr.span) :
    removeAttribute tag attr = Edit.delete attr.start following.start := by
  have next : tag.attributes[front.length + 1]? = some following := by simp [attrs]
  simp only [removeAttribute, findIdx?_of_split attrs same others, next]

theorem removeAttribute_of_last {previous : Cursor}
    (attrs : tag.attributes = front ++ [previous] ++ [twin])
    (same : twin.span = attr.span)
    (others : ∀ other ∈ front ++ [previous], other.span ≠ attr.span) :
    removeAttribute tag attr = Edit.delete previous.stop attr.stop := by
  simp only [removeAttribute, findIdx?_of_split attrs same others]
  simp [attrs]

theorem removeAttribute_of_only (attrs : tag.attributes = [attr]) :
    removeAttribute tag attr =
      Edit.delete ((attr.prevSibling?.map (·.stop)).getD attr.start) attr.stop := by
  simp [removeAttribute, attrs]

end

/-- From where to where an attribute is removed, and which children are passed over on the way to a
neighbour. -/
inductive Removes (tag attr : Cursor) : Nat → Nat → List Cursor → Prop where
  | first {twin : Cursor} {back : List Cursor} (split : tag.children = twin :: back)
      (same : twin.span = attr.span) : Removes tag attr attr.start attr.stop []
  | upTo {front between back : List Cursor} {twin following : Cursor}
      (split : tag.children = front ++ twin :: (between ++ following :: back))
      (same : twin.span = attr.span) : Removes tag attr attr.start following.start between
  | behind {front between back : List Cursor} {previous twin : Cursor}
      (split : tag.children = front ++ previous :: (between ++ twin :: back))
      (same : twin.span = attr.span) : Removes tag attr previous.stop attr.stop between

theorem exists_removes_only {tag attr : Cursor} {front back : List Cursor}
    (split : tag.children = front ++ attr :: back) (attrs : tag.attributes = [attr]) :
    ∃ start stop, Removes tag attr start stop [] ∧
      removeAttribute tag attr = Edit.delete start stop := by
  rw [removeAttribute_of_only attrs, Cursor.prevSibling?_of_split split]
  rcases List.eq_nil_or_concat front with rfl | ⟨front, previous, rfl⟩
  · exact ⟨_, _, .first split rfl, rfl⟩
  · rw [List.concat_eq_append] at split ⊢
    rw [List.append_assoc] at split
    refine ⟨_, _, .behind split rfl, ?_⟩
    rw [List.getLast?_concat]
    rfl

theorem exists_removes {tag attr : Cursor} (hattr : attr ∈ tag.attributes) :
    ∃ start stop, Removes tag attr start stop (tag.passedOver attr) ∧
      removeAttribute tag attr = Edit.delete start stop := by
  obtain ⟨twin, split, own, same⟩ := Cursor.exists_split hattr
  have attrs : tag.attributes = (tag.childrenBefore attr).filter (·.isAttribute) ++
      twin :: (tag.childrenAfter attr).filter (·.isAttribute) := by
    rw [Cursor.attributes_eq, split, List.filter_append, List.filter_cons_of_pos own]
  have others : ∀ other ∈ (tag.childrenBefore attr).filter (·.isAttribute),
      other.span ≠ attr.span := fun other h =>
    Cursor.span_ne_of_mem_childrenBefore (List.mem_filter.1 h).1 (List.mem_filter.1 h).2
  -- Attributes that follow decide, then attributes before; only then siblings of any kind.
  cases after : (tag.childrenAfter attr).filter (·.isAttribute) with
  | cons following rest =>
      rw [after] at attrs
      obtain ⟨between, back, later, none, next, -⟩ := List.filter_eq_cons_iff.1 after
      rw [Cursor.passedOver_of_following later (by simpa using none) next]
      rw [later] at split
      exact ⟨_, _, .upTo split same, removeAttribute_of_followed attrs same others⟩
  | nil =>
      rw [after] at attrs
      have last : ∀ child ∈ tag.childrenAfter attr, child.isAttribute = false := by
        simpa using List.filter_eq_nil_iff.1 after
      rcases List.eq_nil_or_concat ((tag.childrenBefore attr).filter (·.isAttribute)) with
        before | ⟨front, previous, before⟩
      · rw [before, List.nil_append] at attrs
        obtain rfl : attr = twin := by simpa [attrs] using hattr
        have first : ∀ child ∈ tag.childrenBefore attr, child.isAttribute = false := by
          simpa using List.filter_eq_nil_iff.1 before
        rw [Cursor.passedOver_of_only last first]
        exact exists_removes_only split attrs
      · rw [List.concat_eq_append] at before
        rw [before] at attrs others
        obtain ⟨skipped, between, whole, previous_own, none⟩ :=
          Cursor.exists_split_of_filter before
        rw [Cursor.passedOver_of_previous last whole none previous_own]
        rw [whole, List.append_assoc, List.cons_append] at split
        exact ⟨_, _, .behind split same, removeAttribute_of_last attrs same others⟩

/-- All bytes that an edit takes away outside of a node are white space. -/
def WhiteOutside (white : Char → Bool) (source : Bytes) (edit : Edit) (c : Cursor) : Prop :=
  ∀ offset, edit.start ≤ offset → offset < edit.stop → offset < c.start ∨ c.stop ≤ offset →
    Text.WhiteAt white source offset

section

variable {white : Char → Bool} {source : Bytes} {edit : Edit} {c : Cursor}

theorem whiteOutside_of_start (start : edit.start = c.start) (forward : c.start ≤ c.stop) :
    WhiteOutside white source edit c ↔ Text.WhiteBetween white source c.stop edit.stop := by
  constructor
  · intro outside offset after before
    exact outside offset (by omega) before (.inr after)
  · intro blank offset after before outside
    exact blank offset (by omega) before

theorem whiteOutside_of_stop (stop : edit.stop = c.stop) (forward : c.start ≤ c.stop) :
    WhiteOutside white source edit c ↔ Text.WhiteBetween white source edit.start c.start := by
  constructor
  · intro outside offset after before
    exact outside offset after (by omega) (.inl before)
  · intro blank offset after before outside
    exact blank offset after (by omega)

end

theorem Removes.whiteOutside_iff {tree : Tree} {white : Char → Bool} {source : Bytes}
    {tag attr : Cursor} {start stop : Nat} {between : List Cursor}
    (h : Removes tag attr start stop between) (wf : tree.WellFormed source.length)
    (here : Cursor.Reaches (Cursor.ofRoot tree) tag) (hattr : attr ∈ tag.attributes)
    (spaced : tag.Spaced white source) :
    start ≤ attr.start ∧ attr.stop ≤ stop ∧
      ∀ edit : Edit, edit.start = start → edit.stop = stop →
        (WhiteOutside white source edit attr ↔
          ∀ child ∈ between, Text.WhiteBetween white source child.start child.stop) := by
  have forward := Cursor.start_le_stop wf (.child here (Cursor.mem_children_of_attributes hattr))
  have ordered := Cursor.pairwise_children wf here
  cases h with
  | first split same =>
      refine ⟨Nat.le_refl _, Nat.le_refl _, fun edit left right => ?_⟩
      rw [whiteOutside_of_start left forward, right]
      refine iff_of_true (fun offset after before => ?_) (by simp)
      omega
  | @upTo _ _ _ twin following split same =>
      obtain ⟨order, blank⟩ := spaced.whiteBetween_iff ordered split
      have stop : twin.stop = attr.stop := congrArg Span.stop same
      rw [stop] at order blank
      refine ⟨Nat.le_refl _, order, fun edit left right => ?_⟩
      rw [whiteOutside_of_start left forward, right, blank]
  | @behind _ _ _ previous twin split same =>
      obtain ⟨order, blank⟩ := spaced.whiteBetween_iff ordered split
      have start : twin.start = attr.start := congrArg Span.start same
      rw [start] at order blank
      refine ⟨order, Nat.le_refl _, fun edit left right => ?_⟩
      rw [whiteOutside_of_stop right forward, left, blank]

/-- An attribute of a tag can always be removed, and what goes with it lies around it. Where white
space stands between the children of the tag, nothing else goes exactly if the children between the
attribute and its neighbour are white space; these are no attributes themselves. -/
theorem removal_white_iff (white : Char → Bool) (source : Bytes) (tree : Tree)
    (tag attr : Cursor) (wf : tree.WellFormed source.length)
    (here : tag ∈ (Cursor.ofRoot tree).tags) (hattr : attr ∈ tag.attributes)
    (spaced : tag.Spaced white source) :
    ∃ removal, removeAttribute tag attr = .ok removal ∧ removal.text = "" ∧
      removal.start ≤ attr.start ∧ attr.stop ≤ removal.stop ∧
      (WhiteOutside white source removal attr ↔
        ∀ child ∈ tag.passedOver attr, Text.WhiteBetween white source child.start child.stop) ∧
      ∀ child ∈ tag.passedOver attr, child ∈ tag.children ∧ child.isAttribute = false := by
  have reached := Tree.mem_nodes.1 (List.mem_filter.1 here).1
  have forward := Cursor.start_le_stop wf (.child reached (Cursor.mem_children_of_attributes hattr))
  obtain ⟨start, stop, removes, removed⟩ := exists_removes hattr
  obtain ⟨left, right, blank⟩ := removes.whiteOutside_iff wf reached hattr spaced
  obtain ⟨removal, made, at_start, at_stop, text⟩ :=
    Edit.exists_ofRange (left.trans (forward.trans right)) ""
  refine ⟨removal, removed.trans made, text, at_start ▸ left, at_stop ▸ right,
    blank removal at_start at_stop, fun child h => Cursor.mem_passedOver h⟩

def commentedSource : Bytes :=
  Text.encode "<B p /*c*/ q r/>"

def token (symbol : String) (start stop : Nat) : Tree :=
  .node { start, stop, kind := .other symbol, row := 0, column := start, named := false,
          missing := false, hasError := false, field := none } []

/-- A tag with a comment between its first two attributes. -/
def commentedTree : Tree :=
  .onFirstLine .program 0 16 none
    [.onFirstLine .jsxSelfClosingElement 0 16 none
      [token "<" 0 1,
       .onFirstLine .identifier 1 2 (some .name) [],
       .onFirstLine .jsxAttribute 3 4 none [],
       .onFirstLine (.other "comment") 5 10 none [],
       .onFirstLine .jsxAttribute 11 12 none [],
       .onFirstLine .jsxAttribute 13 14 none [],
       token "/>" 14 16]]

def commentedTag : Cursor :=
  (Cursor.ofRoot commentedTree).children.getD 0 default

theorem commentedTree_wellFormed : commentedTree.WellFormed commentedSource.length := by
  decide +kernel

theorem commentedTag_mem_tags : commentedTag ∈ (Cursor.ofRoot commentedTree).tags := by
  have step : commentedTag ∈ (Cursor.ofRoot commentedTree).children :=
    List.mem_of_getElem? (i := 0) rfl
  exact List.mem_filter.2 ⟨Tree.mem_nodes.2 (Cursor.reaches_of_mem_children step), rfl⟩

theorem commentedTag_spaced : commentedTag.Spaced Text.isBlank commentedSource := by
  have gaps : commentedTag.children.IsChain fun a b =>
      ∀ offset < b.start, a.stop ≤ offset → commentedSource[offset]? = some 32 := by
    decide +kernel
  refine gaps.imp fun a b spaces offset after before => ?_
  exact (Text.whiteAt_iff_of_ascii (c := ' ') (by decide) (spaces offset before after)).2 rfl

/-- The second attribute goes with the space behind it and nothing else. -/
theorem removal_white_iff_commented :
    commentedTree.WellFormed commentedSource.length ∧
    commentedTag ∈ (Cursor.ofRoot commentedTree).tags ∧
    commentedTag.Spaced Text.isBlank commentedSource ∧
    ∃ attr ∈ commentedTag.attributes, ∃ removal,
      removeAttribute commentedTag attr = .ok removal ∧ removal.toSpan = ⟨11, 13⟩ ∧
      WhiteOutside Text.isBlank commentedSource removal attr := by
  have hattr : commentedTag.attributes.getD 1 default ∈ commentedTag.attributes :=
    List.mem_of_getElem? (i := 1) rfl
  obtain ⟨removal, removed, -, -, -, blank, -⟩ :=
    removal_white_iff Text.isBlank commentedSource commentedTree commentedTag _
      commentedTree_wellFormed commentedTag_mem_tags hattr commentedTag_spaced
  have range : (removeAttribute commentedTag (commentedTag.attributes.getD 1 default)).toOption =
      some ⟨⟨11, 13⟩, "", by decide⟩ := by decide +kernel
  have spans := congrArg (·.toSpan) (Except.ok.inj (removed.symm.trans (eq_ok_of_toOption range)))
  have nothing : commentedTag.passedOver (commentedTag.attributes.getD 1 default) = [] := rfl
  refine ⟨commentedTree_wellFormed, commentedTag_mem_tags, commentedTag_spaced, _, hattr, removal,
    removed, spans, blank.2 fun child passed => ?_⟩
  rw [nothing] at passed
  cases passed

/-- A comment between an attribute and the next goes with the attribute. -/
theorem comment_removed_with_attribute :
    commentedTree.WellFormed commentedSource.length ∧
    commentedTag ∈ (Cursor.ofRoot commentedTree).tags ∧
    commentedTag.Spaced Text.isBlank commentedSource ∧
    ∃ attr ∈ commentedTag.attributes, ∃ removal,
      removeAttribute commentedTag attr = .ok removal ∧
      ¬ WhiteOutside Text.isBlank commentedSource removal attr := by
  have hattr : commentedTag.attributes.getD 0 default ∈ commentedTag.attributes :=
    List.mem_of_getElem? (i := 0) rfl
  have range : (removeAttribute commentedTag (commentedTag.attributes.getD 0 default)).toOption =
      some ⟨⟨3, 11⟩, "", by decide⟩ := by decide +kernel
  refine ⟨commentedTree_wellFormed, commentedTag_mem_tags, commentedTag_spaced, _, hattr, _,
    eq_ok_of_toOption range, fun outside => ?_⟩
  have slash := outside 5 (by decide) (by decide) (.inr (by decide))
  have blank : Text.isBlank '/' = true :=
    (Text.whiteAt_iff_of_ascii (by decide) (by decide)).1 slash
  cases blank

end Component
end JsxLint
