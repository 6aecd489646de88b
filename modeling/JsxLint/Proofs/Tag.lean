import JsxLint.Proofs.Edit.Shift
import JsxLint.Proofs.Tree.Place
import JsxLint.Tag

/-!
How tags lie in a tree: where their children begin and end, which names an element has in its two
tags, and which edits can reach these names. What the grammar promises beyond fitting ranges is
said in `Tree.TagGrammar`; nothing here depends on what is edited and why.
-/

namespace JsxLint
namespace Cursor

/-- The offset is the start or the end of one of the node's children. -/
def IsEdge (c : Cursor) (offset : Nat) : Prop :=
  ∃ child ∈ c.children, offset = child.start ∨ offset = child.stop

theorem IsEdge.outside {tree : Tree} {length : Nat} {b c : Cursor} {offset : Nat}
    (h : b.IsEdge offset) (wf : tree.WellFormed length) (hb : Reaches (ofRoot tree) b)
    (step : c ∈ b.children) : c.stop ≤ offset ∨ offset ≤ c.start := by
  obtain ⟨child, hc, eq⟩ := h
  have forward := start_le_stop wf (.child hb hc)
  rcases siblings_apart wf hb step hc with rfl | before | after
  · omega
  · omega
  · omega

theorem IsEdge.inside {tree : Tree} {length : Nat} {b : Cursor} {offset : Nat}
    (h : b.IsEdge offset) (wf : tree.WellFormed length) (hb : Reaches (ofRoot tree) b) :
    b.start ≤ offset ∧ offset ≤ b.stop := by
  obtain ⟨child, hc, eq⟩ := h
  have forward := start_le_stop wf (.child hb hc)
  have := inside_of_mem_children wf hb hc
  omega

theorem mem_children_of_attributes {tag attr : Cursor} (h : attr ∈ tag.attributes) :
    attr ∈ tag.children :=
  mem_children_of_namedChildren (List.mem_filter.1 h).1

theorem getElem?_of_prevSibling? {b c previous : Cursor} (step : c ∈ b.children)
    (h : c.prevSibling? = some previous) :
    ∃ index, b.children[index]? = some previous ∧ b.children[index + 1]? = some c := by
  obtain ⟨index, hi, rfl⟩ := mem_children.1 step
  cases index with
  | zero => cases h
  | succ index =>
      have hi' : index < b.focus.children.length := by omega
      refine ⟨index, ?_, by simp [children, hi]⟩
      simpa [children, prevSibling?, down, hi'] using h

theorem mem_children_of_prevSibling? {b c previous : Cursor} (step : c ∈ b.children)
    (h : c.prevSibling? = some previous) : previous ∈ b.children := by
  obtain ⟨index, at_previous, -⟩ := getElem?_of_prevSibling? step h
  exact List.mem_of_getElem? at_previous

/-- Opening, self-closing and closing tags. -/
def isMarkup (c : Cursor) : Bool :=
  c.kind.isTag || c.kind = .jsxClosingElement

def openingTag? (element : Cursor) : Option Cursor :=
  element.childOfKind? .jsxOpeningElement

/-- The closing tag of an element, found as it is for the tags in it. -/
def ownClosing? (element : Cursor) : Option Cursor :=
  (element.child? .closeTag).or (element.childOfKind? .jsxClosingElement)

def openingName? (element : Cursor) : Option Cursor :=
  element.openingTag?.bind (·.tagName?)

def closingName? (element : Cursor) : Option Cursor :=
  element.ownClosing?.bind (·.tagName?)

theorem mem_children_of_ownClosing? {element closing : Cursor}
    (h : element.ownClosing? = some closing) : closing ∈ element.children := by
  rcases Option.or_eq_some_iff.1 h with h | ⟨-, h⟩
  · exact mem_children_of_child?_eq h
  · exact (mem_children_of_childOfKind? h).1

theorem openingName?_eq_some {element name : Cursor} (h : element.openingName? = some name) :
    ∃ opened, element.openingTag? = some opened ∧ opened.tagName? = some name ∧
      Reaches element name := by
  obtain ⟨opened, at_opened, at_name⟩ := Option.bind_eq_some_iff.1 h
  exact ⟨opened, at_opened, at_name, .child
    (reaches_of_mem_children (mem_children_of_childOfKind? at_opened).1)
    (mem_children_of_child?_eq at_name)⟩

theorem closingName?_eq_some {element name : Cursor} (h : element.closingName? = some name) :
    ∃ closed, element.ownClosing? = some closed ∧ closed.tagName? = some name ∧
      Reaches element name := by
  obtain ⟨closed, at_closed, at_name⟩ := Option.bind_eq_some_iff.1 h
  exact ⟨closed, at_closed, at_name, .child
    (reaches_of_mem_children (mem_children_of_ownClosing? at_closed))
    (mem_children_of_child?_eq at_name)⟩

theorem closingTag?_eq_some {tag closing : Cursor} :
    tag.closingTag? = some closing ↔
      ∃ element, tag.parent? = some element ∧ element.kind = .jsxElement ∧
        element.ownClosing? = some closing := by
  unfold closingTag?
  cases tag.parent? with
  | none => simp
  | some element => simp [ownClosing?]

end Cursor

namespace Tree

/-- What the grammar promises of tags: the closing tag of an element is one, and the name of a tag
holds neither tags nor imports. -/
structure TagGrammar (tree : Tree) : Prop where
  closing_kind : ∀ element ∈ tree.nodes, element.kind = .jsxElement →
    ∀ closing ∈ element.ownClosing?, closing.kind = .jsxClosingElement
  name_plain : ∀ tag ∈ tree.nodes, tag.isMarkup = true → ∀ name ∈ tag.tagName?,
    ∀ below ∈ name.preorder, below.isMarkup = false ∧ below.kind ≠ .importSpecifier

end Tree

namespace Cursor

variable {tree : Tree} {length : Nat}

theorem isMarkup_of_isTag {c : Cursor} (h : c.kind.isTag = true) : c.isMarkup = true := by
  simp [isMarkup, h]

theorem isMarkup_of_closing {c : Cursor} (h : c.kind = .jsxClosingElement) :
    c.isMarkup = true := by
  simp [isMarkup, h]

theorem not_reaches_markup (grammar : tree.TagGrammar) {tag name below : Cursor}
    (here : Reaches (ofRoot tree) tag) (markup : tag.isMarkup = true)
    (at_name : tag.tagName? = some name) (hb : below.isMarkup = true) : ¬ Reaches name below := by
  intro down
  have plain := grammar.name_plain tag (Tree.mem_nodes.2 here) markup name at_name below
    (mem_preorder.2 down)
  rw [hb] at plain
  cases plain.1

theorem not_reaches_specifier (grammar : tree.TagGrammar) {tag name below : Cursor}
    (here : Reaches (ofRoot tree) tag) (markup : tag.isMarkup = true)
    (at_name : tag.tagName? = some name) (hb : below.kind = .importSpecifier) :
    ¬ Reaches name below := by
  intro down
  exact (grammar.name_plain tag (Tree.mem_nodes.2 here) markup name at_name below
    (mem_preorder.2 down)).2 hb

/-- A node around the name of a tag is around the tag. -/
theorem reaches_tag_of_reaches_name (grammar : tree.TagGrammar) {tag name above : Cursor}
    (here : Reaches (ofRoot tree) tag) (markup : tag.isMarkup = true)
    (at_name : tag.tagName? = some name) (ha : above.isMarkup = true)
    (h : Reaches above name) : Reaches above tag := by
  refine h.parent (mem_children_of_child?_eq at_name) ?_
  rintro rfl
  exact not_reaches_markup grammar here markup at_name ha (.refl _)

theorem names_apart (wf : tree.WellFormed length) (grammar : tree.TagGrammar)
    {a b x y : Cursor} (ha : Reaches (ofRoot tree) a) (hb : Reaches (ofRoot tree) b)
    (markup_a : a.isMarkup = true) (markup_b : b.isMarkup = true)
    (hx : a.tagName? = some x) (hy : b.tagName? = some y) :
    a = b ∨ x.stop ≤ y.start ∨ y.stop ≤ x.start := by
  have stepx := mem_children_of_child?_eq hx
  have stepy := mem_children_of_child?_eq hy
  by_cases eq : x = y
  · exact .inl (eq_of_mem_children stepx (eq ▸ stepy))
  · rcases nested_or_apart wf (.child ha stepx) (.child hb stepy) with down | up | apart
    · have := down.parent stepy eq
      exact absurd this (not_reaches_markup grammar ha markup_a hx markup_b)
    · have := up.parent stepx (Ne.symm eq)
      exact absurd this (not_reaches_markup grammar hb markup_b hy markup_a)
    · exact .inr apart

theorem not_touches_of_apart {edit : Edit} {x y : Cursor} (span : edit.toSpan = x.span)
    (apart : x.stop ≤ y.start ∨ y.stop ≤ x.start) : ¬ edit.Touches y.span := by
  intro touches
  have after : y.start < edit.stop := touches.1
  have before : edit.start < y.stop := touches.2
  have start : edit.start = x.start := congrArg Span.start span
  have stop : edit.stop = x.stop := congrArg Span.stop span
  omega

/-- An insertion after a node stands inside those around the node only. -/
theorem reaches_of_insertion_touches (wf : tree.WellFormed length) {edit : Edit}
    {last c : Cursor} (hl : Reaches (ofRoot tree) last) (hc : Reaches (ofRoot tree) c)
    (start : edit.start = last.stop) (stop : edit.stop = last.stop)
    (touches : edit.Touches c.span) : Reaches c last := by
  have after : c.start < edit.stop := touches.1
  have before : edit.start < c.stop := touches.2
  have forward := start_le_stop wf hl
  rcases nested_or_apart wf hl hc with down | up | apart
  · have := Reaches.inside wf hl down
    omega
  · exact up
  · omega

/-- A deletion from edge to edge of a tag takes a place below the tag whole or not at all. -/
theorem swallowed_of_deletion_touches (wf : tree.WellFormed length) {edit : Edit}
    {tag c : Cursor} (ht : Reaches (ofRoot tree) tag) (hc : Reaches (ofRoot tree) c)
    (not_above : ¬ Reaches c tag) (start : tag.IsEdge edit.start) (stop : tag.IsEdge edit.stop)
    (touches : edit.Touches c.span) :
    ∃ part ∈ tag.children, Reaches part c ∧ edit.start ≤ part.start ∧ part.stop ≤ edit.stop := by
  have after : c.start < edit.stop := touches.1
  have before : edit.start < c.stop := touches.2
  have hstart := start.inside wf ht
  have hstop := stop.inside wf ht
  rcases nested_or_apart wf ht hc with down | up | apart
  · rcases down.eq_or_child with rfl | ⟨part, hp, down⟩
    · exact absurd (.refl _) not_above
    · have within := Reaches.inside wf (.child ht hp) down
      have first := start.outside wf ht hp
      have last := stop.outside wf ht hp
      exact ⟨part, hp, down, by omega, by omega⟩
  · exact absurd up not_above
  · omega

end Cursor
end JsxLint
