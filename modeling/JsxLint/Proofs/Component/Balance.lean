import JsxLint.Proofs.Component.Plan

/-!
Whether elements keep equal names in their two tags when a tag is replaced. The closing tag that
is renamed is that of the element around the tag. For a tag that opens this element it is the
right one; a tag that is a child of it takes the closing tag of its parent along, and the names of
that element then differ. Nothing else goes wrong.
-/

namespace JsxLint

def Span.bytes (source : Bytes) (span : Span) : Bytes :=
  Text.slice source span.start span.stop

namespace Tree

/-- The opening and the closing name of each element are equal, where `text` says what stands at
a range. -/
def Balanced (tree : Tree) (text : Span → Bytes) : Prop :=
  ∀ element ∈ tree.nodes, element.kind = .jsxElement →
    ∀ opening ∈ element.openingName?, ∀ closing ∈ element.closingName?,
      text opening.span = text closing.span

instance (tree : Tree) (text : Span → Bytes) : Decidable (tree.Balanced text) :=
  inferInstanceAs (Decidable (∀ _ ∈ _, _))

end Tree

namespace Component

/-- A deleted range takes an element whole. -/
def Swallows (fix : Fix) (tag element : Cursor) : Prop :=
  ∃ edit ∈ fix.edits, edit.text = "" ∧ ∃ part ∈ tag.children, Cursor.Reaches part element ∧
    edit.start ≤ part.start ∧ part.stop ≤ edit.stop

/-- The closing tag renamed along with a tag is that of an element which the tag does not open,
and the name there becomes a different one. -/
def Misnames (source : Bytes) (tag : Cursor) (component : String) : Prop :=
  ∃ element opening closing, tag.parent? = some element ∧ element.kind = .jsxElement ∧
    element.openingTag? ≠ some tag ∧ element.openingName? = some opening ∧
    element.closingName? = some closing ∧ closing.start < closing.stop ∧
    closing.span.bytes source ≠ Text.encode component

/-- The second tag closes the element around the first, which the first does not open. -/
def TakesClosing (tag closing : Cursor) : Prop :=
  ∃ element, tag.parent? = some element ∧ element.kind = .jsxElement ∧
    element.openingTag? ≠ some tag ∧ element.ownClosing? = some closing

/-- A tag of another element: it is not what closes the element that the first tag opens, and
neither this tag nor an import stands in it. -/
structure Foreign (tree : Tree) (tag other : Cursor) : Prop where
  here : other ∈ tree.nodes
  markup : other.isMarkup = true
  not_own : ∀ element, tag.parent? = some element → element.openingTag? = some tag →
    element.ownClosing? ≠ some other
  not_around : ∀ below, Cursor.Reaches other below → below ≠ tag ∧ below.kind ≠ .importSpecifier

open Cursor (Reaches ofRoot)

variable {source : Bytes} {tree : Tree} {tag : Cursor} {component : String} {fix : Fix}

theorem closing_in_parent (grammar : tree.TagGrammar) (here : Reaches (ofRoot tree) tag)
    {closing : Cursor} (h : tag.closingTag? = some closing) :
    ∃ element, Reaches (ofRoot tree) element ∧ element.kind = .jsxElement ∧
      tag ∈ element.children ∧ closing ∈ element.children ∧
      element.ownClosing? = some closing ∧ closing.kind = .jsxClosingElement := by
  obtain ⟨element, parent, kind, own⟩ := Cursor.closingTag?_eq_some.1 h
  obtain ⟨above, step⟩ := here.of_parent? parent
  exact ⟨element, above, kind, step, Cursor.mem_children_of_ownClosing? own, own,
    grammar.closing_kind element (Tree.mem_nodes.2 above) kind closing own⟩

/-- The only edits at the name of a tag rename it or delete it. -/
theorem touches_name_cases (wf : tree.WellFormed source.length) (grammar : tree.TagGrammar)
    (here : Reaches (ofRoot tree) tag) (is_tag : tag.kind.isTag = true) {edit : Edit}
    (role : Role tree tag component edit) {other name : Cursor}
    (ho : Reaches (ofRoot tree) other) (markup : other.isMarkup = true)
    (at_name : other.tagName? = some name) (touches : edit.Touches name.span) :
    tag = other ∨ tag.closingTag? = some other ∨ edit.text = "" ∧
      ∃ part ∈ tag.children, Reaches part name ∧ edit.start ≤ part.start ∧
        part.stop ≤ edit.stop := by
  have reach : Reaches (ofRoot tree) name := .child ho (Cursor.mem_children_of_child?_eq at_name)
  cases role with
  | opening mine span text =>
      rcases Cursor.names_apart wf grammar here ho (Cursor.isMarkup_of_isTag is_tag) markup mine
        at_name with eq | apart
      · exact .inl eq
      · exact absurd touches (Cursor.not_touches_of_apart span apart)
  | closing at_closing mine span text =>
      obtain ⟨element, above, -, -, step, -, kind⟩ := closing_in_parent grammar here at_closing
      rcases Cursor.names_apart wf grammar (.child above step) ho
        (Cursor.isMarkup_of_closing kind) markup mine at_name with eq | apart
      · exact .inr (.inl (eq ▸ at_closing))
      · exact absurd touches (Cursor.not_touches_of_apart span apart)
  | removal text start stop =>
      have not_above := Cursor.not_reaches_markup grammar ho markup at_name
        (Cursor.isMarkup_of_isTag is_tag)
      exact .inr (.inr ⟨text, Cursor.swallowed_of_deletion_touches wf here reach not_above start
        stop touches⟩)
  | specifier last kind start stop =>
      have around := Cursor.reaches_of_insertion_touches wf (Tree.mem_nodes.1 last) reach start
        stop touches
      exact absurd around (Cursor.not_reaches_specifier grammar ho markup at_name kind)

/-- What is deleted below a tag together with the name of an element takes the element along. -/
theorem reaches_element_of_reaches_name {part element other name : Cursor}
    (hp : part ∈ tag.children) (ho : other ∈ element.children) (hn : name ∈ other.children)
    (other_ne : tag ≠ other) (element_ne : tag ≠ element) (h : Reaches part name) :
    Reaches part element := by
  have up : Reaches part other := by
    refine h.parent hn ?_
    rintro rfl
    exact other_ne (Cursor.eq_of_mem_children hp hn)
  refine up.parent ho ?_
  rintro rfl
  exact element_ne (Cursor.eq_of_mem_children hp ho)

theorem textAfter_of_kept (wf : tree.WellFormed source.length) (grammar : tree.TagGrammar)
    (here : Reaches (ofRoot tree) tag) (is_tag : tag.kind.isTag = true)
    (roles : ∀ edit ∈ fix.edits, Role tree tag component edit) {element other name : Cursor}
    (he : Reaches (ofRoot tree) element) (kind : element.kind = .jsxElement)
    (ho : other ∈ element.children) (markup : other.isMarkup = true)
    (at_name : other.tagName? = some name) (ne : tag ≠ other)
    (not_closing : tag.closingTag? ≠ some other) (kept : ¬ Swallows fix tag element) :
    fix.textAfter source name.span = name.span.bytes source := by
  have step := Cursor.mem_children_of_child?_eq at_name
  have reach : Reaches (ofRoot tree) name := .child (.child he ho) step
  refine Fix.textAfter_of_untouched fix source name.span (Cursor.start_le_stop wf reach)
    (Cursor.stop_le_length wf reach) ?_
  intro edit hedit touches
  rcases touches_name_cases wf grammar here is_tag (roles edit hedit) (.child he ho) markup
    at_name touches with eq | closing | ⟨text, part, hp, down, swallowed⟩
  · exact ne eq
  · exact not_closing closing
  · have element_ne : tag ≠ element := by
      rintro rfl
      rw [kind] at is_tag
      cases is_tag
    exact kept ⟨edit, hedit, text, part, hp,
      reaches_element_of_reaches_name hp ho step ne element_ne down, swallowed⟩

theorem textAfter_of_swallowed (wf : tree.WellFormed source.length)
    (here : Reaches (ofRoot tree) tag) {element name : Cursor} (h : Swallows fix tag element)
    (down : Reaches element name) : fix.textAfter source name.span = [] := by
  obtain ⟨edit, hedit, text, part, hp, around, first, last⟩ := h
  have reach : Reaches (ofRoot tree) part := .child here hp
  have inside := Reaches.inside wf reach (around.trans down)
  exact Fix.textAfter_of_deleted fix source name.span hedit text
    (Cursor.start_le_stop wf (reach.trans (around.trans down)))
    (Nat.le_trans first inside.1) (Nat.le_trans inside.2 last)

theorem textAfter_of_renamed (wf : tree.WellFormed source.length) {name : Cursor}
    (reach : Reaches (ofRoot tree) name)
    (h : ∃ edit ∈ fix.edits, edit.toSpan = name.span ∧ edit.text = component) :
    fix.textAfter source name.span =
      if name.start < name.stop then Text.encode component else [] := by
  obtain ⟨edit, hedit, span, rfl⟩ := h
  have start : edit.start = name.start := congrArg Span.start span
  have stop : edit.stop = name.stop := congrArg Span.stop span
  have bound := Cursor.stop_le_length wf reach
  rw [← span, Fix.textAfter_of_replaced fix source hedit (stop ▸ bound), start, stop]

theorem length_bytes (wf : tree.WellFormed source.length) {c : Cursor}
    (reach : Reaches (ofRoot tree) c) : (c.span.bytes source).length = c.stop - c.start := by
  have bound := Cursor.stop_le_length wf reach
  rw [Span.bytes, Text.slice, List.length_drop, List.length_take]
  change min c.stop source.length - c.start = _
  rw [Nat.min_eq_left bound]

theorem not_swallows_parent {element : Cursor} (step : tag ∈ element.children) :
    ¬ Swallows fix tag element := by
  rintro ⟨edit, -, -, part, hp, up, -⟩
  exact Cursor.not_reaches_of_mem_children hp (.child up step)

section

variable (wf : tree.WellFormed source.length) (grammar : tree.TagGrammar)
  (here : Reaches (ofRoot tree) tag) (is_tag : tag.kind.isTag = true)
  (roles : ∀ edit ∈ fix.edits, Role tree tag component edit)
  (opens : ∀ name, tag.tagName? = some name →
    ∃ edit ∈ fix.edits, edit.toSpan = name.span ∧ edit.text = component)
  (closes : ∀ closing name, tag.closingTag? = some closing → closing.tagName? = some name →
    ∃ edit ∈ fix.edits, edit.toSpan = name.span ∧ edit.text = component)

include wf grammar here is_tag roles

/-- An opening name is renamed with its own tag only. -/
theorem textAfter_of_opening {element opened name : Cursor} (he : Reaches (ofRoot tree) element)
    (kind : element.kind = .jsxElement) (ho : element.openingTag? = some opened)
    (at_name : opened.tagName? = some name) (ne : tag ≠ opened)
    (kept : ¬ Swallows fix tag element) :
    fix.textAfter source name.span = name.span.bytes source := by
  obtain ⟨step, opened_kind⟩ := Cursor.mem_children_of_childOfKind? ho
  have markup : opened.isMarkup = true := Cursor.isMarkup_of_isTag (by rw [opened_kind]; rfl)
  refine textAfter_of_kept wf grammar here is_tag roles he kind step markup at_name ne ?_ kept
  intro closing
  obtain ⟨-, -, -, -, -, -, closing_kind⟩ := closing_in_parent grammar here closing
  rw [opened_kind] at closing_kind
  cases closing_kind

/-- A closing name is renamed with a tag right below its element only. -/
theorem textAfter_of_closing {element closed name : Cursor} (he : Reaches (ofRoot tree) element)
    (kind : element.kind = .jsxElement) (hc : element.ownClosing? = some closed)
    (at_name : closed.tagName? = some name) (not_closing : tag.closingTag? ≠ some closed)
    (kept : ¬ Swallows fix tag element) :
    fix.textAfter source name.span = name.span.bytes source := by
  have closed_kind := grammar.closing_kind element (Tree.mem_nodes.2 he) kind closed hc
  have ne : tag ≠ closed := by
    rintro rfl
    rw [closed_kind] at is_tag
    cases is_tag
  exact textAfter_of_kept wf grammar here is_tag roles he kind
    (Cursor.mem_children_of_ownClosing? hc) (Cursor.isMarkup_of_closing closed_kind) at_name ne
    not_closing kept

include opens closes

theorem balanced_textAfter (balanced : tree.Balanced (Span.bytes source))
    (safe : ¬ Misnames source tag component) : tree.Balanced (fix.textAfter source) := by
  intro element he kind opening ho closing hc
  have before := balanced element he kind opening ho closing hc
  have above := Tree.mem_nodes.1 he
  obtain ⟨opened, atOpened, atOpening, reachOpening⟩ := Cursor.openingName?_eq_some ho
  obtain ⟨closed, atClosed, atClosing, reachClosing⟩ := Cursor.closingName?_eq_some hc
  have lengths := congrArg List.length before
  rw [length_bytes wf (above.trans reachOpening),
    length_bytes wf (above.trans reachClosing)] at lengths
  by_cases own : tag = opened
  · subst own
    have step := (Cursor.mem_children_of_childOfKind? atOpened).1
    have at_closing : tag.closingTag? = some closed := Cursor.closingTag?_eq_some.2
      ⟨element, Cursor.parent?_of_mem_children step, kind, atClosed⟩
    have together : opening.start < opening.stop ↔ closing.start < closing.stop := by omega
    rw [textAfter_of_renamed wf (above.trans reachOpening) (opens opening atOpening),
      textAfter_of_renamed wf (above.trans reachClosing)
        (closes closed closing at_closing atClosing)]
    simp only [together]
  · -- Both names of an element stand below one child of the tag, so both go or both stay.
    by_cases swallowed : Swallows fix tag element
    · rw [textAfter_of_swallowed wf here swallowed reachOpening,
        textAfter_of_swallowed wf here swallowed reachClosing]
    · rw [textAfter_of_opening wf grammar here is_tag roles above kind atOpened atOpening own
        swallowed]
      by_cases at_closing : tag.closingTag? = some closed
      · -- The tag is a child of this very element, so the two names agree only if nothing changes.
        obtain ⟨parent, -, -, step, stepParent, -, -⟩ := closing_in_parent grammar here at_closing
        obtain rfl := Cursor.eq_of_mem_children stepParent
          (Cursor.mem_children_of_ownClosing? atClosed)
        rw [textAfter_of_renamed wf (above.trans reachClosing)
          (closes closed closing at_closing atClosing)]
        split
        · rename_i nonempty
          refine before.trans (Classical.byContradiction fun differs => safe ?_)
          have other : parent.openingTag? ≠ some tag := by
            rw [atOpened]
            exact fun eq => own (Option.some.inj eq).symm
          exact ⟨parent, opening, closing, Cursor.parent?_of_mem_children step, kind, other, ho, hc,
            nonempty, differs⟩
        · apply List.length_eq_zero_iff.1
          rw [length_bytes wf (above.trans reachOpening)]
          omega
      · rw [textAfter_of_closing wf grammar here is_tag roles above kind atClosed atClosing
          at_closing swallowed]
        exact before

omit opens in
/-- The element whose closing tag was taken keeps its opening name. -/
theorem not_balanced_textAfter (balanced : tree.Balanced (Span.bytes source))
    (misnamed : Misnames source tag component) : ¬ tree.Balanced (fix.textAfter source) := by
  obtain ⟨element, opening, closing, parent, kind, other, ho, hc, nonempty, differs⟩ := misnamed
  obtain ⟨above, step⟩ := here.of_parent? parent
  have he := Tree.mem_nodes.2 above
  obtain ⟨opened, atOpened, atOpening, -⟩ := Cursor.openingName?_eq_some ho
  obtain ⟨closed, atClosed, atClosing, reachClosing⟩ := Cursor.closingName?_eq_some hc
  have at_closing : tag.closingTag? = some closed :=
    Cursor.closingTag?_eq_some.2 ⟨element, parent, kind, atClosed⟩
  have ne : tag ≠ opened := by
    rintro rfl
    exact other atOpened
  intro after
  have equal := after element he kind opening ho closing hc
  rw [textAfter_of_opening wf grammar here is_tag roles above kind atOpened atOpening ne
      (not_swallows_parent step),
    textAfter_of_renamed wf (above.trans reachClosing) (closes closed closing at_closing atClosing),
    if_pos nonempty] at equal
  exact differs ((balanced element he kind opening ho closing hc).symm.trans equal)

end

theorem Role.place (wf : tree.WellFormed source.length) (here : Reaches (ofRoot tree) tag)
    {edit : Edit} (role : Role tree tag component edit) :
    (tag.start ≤ edit.start ∧ edit.stop ≤ tag.stop) ∨
      (∃ closing name, tag.closingTag? = some closing ∧ closing.tagName? = some name ∧
        edit.toSpan = name.span) ∨
      ∃ specifier ∈ tree.nodes, specifier.kind = .importSpecifier ∧
        edit.start = specifier.stop ∧ edit.stop = specifier.stop := by
  cases role with
  | opening at_name span text =>
      have inside := Cursor.inside_of_mem_children wf here
        (Cursor.mem_children_of_child?_eq at_name)
      refine .inl ?_
      rw [span]
      exact inside
  | closing at_closing at_name span text => exact .inr (.inl ⟨_, _, at_closing, at_name, span⟩)
  | removal text start stop => exact .inl ⟨(start.inside wf here).1, (stop.inside wf here).2⟩
  | specifier last kind start stop => exact .inr (.inr ⟨_, last, kind, start, stop⟩)

/-- An edit at a tag of another element deletes it whole or was meant for one's own closing tag. -/
theorem touches_foreign_tag (wf : tree.WellFormed source.length) (grammar : tree.TagGrammar)
    (here : Reaches (ofRoot tree) tag) (is_tag : tag.kind.isTag = true) {edit : Edit}
    (role : Role tree tag component edit) {other : Cursor} (foreign : Foreign tree tag other)
    (touches : edit.Touches other.span) :
    (edit.text = "" ∧ edit.start ≤ other.start ∧ other.stop ≤ edit.stop) ∨
      TakesClosing tag other := by
  have ho := Tree.mem_nodes.1 foreign.here
  have markup := foreign.markup
  have not_above : ¬ Reaches other tag := fun around => (foreign.not_around tag around).1 rfl
  cases role with
  | opening mine span text =>
      have tag_markup := Cursor.isMarkup_of_isTag is_tag
      have reach := Reaches.child here (Cursor.mem_children_of_child?_eq mine)
      rcases Cursor.nested_or_apart wf reach ho with down | up | apart
      · exact absurd down (Cursor.not_reaches_markup grammar here tag_markup mine markup)
      · exact absurd (Cursor.reaches_tag_of_reaches_name grammar here tag_markup mine markup up)
          not_above
      · exact absurd touches (Cursor.not_touches_of_apart span apart)
  | closing at_closing mine span text =>
      obtain ⟨element, above, element_kind, step, closing_step, own, kind⟩ :=
        closing_in_parent grammar here at_closing
      have closing_here := Reaches.child above closing_step
      have closing_markup := Cursor.isMarkup_of_closing kind
      have reach := Reaches.child closing_here (Cursor.mem_children_of_child?_eq mine)
      rcases Cursor.nested_or_apart wf reach ho with down | up | apart
      · exact absurd down
          (Cursor.not_reaches_markup grammar closing_here closing_markup mine markup)
      · have up := Cursor.reaches_tag_of_reaches_name grammar closing_here closing_markup mine
          markup up
        have same : other = _ := Classical.byContradiction fun ne =>
          not_above (.child (up.parent closing_step ne) step)
        obtain rfl := same
        have parent := Cursor.parent?_of_mem_children step
        exact .inr ⟨element, parent, element_kind,
          fun opens => foreign.not_own element parent opens own, own⟩
      · exact absurd touches (Cursor.not_touches_of_apart span apart)
  | removal text start stop =>
      obtain ⟨part, hp, down, first, last⟩ :=
        Cursor.swallowed_of_deletion_touches wf here ho not_above start stop touches
      have inside := Reaches.inside wf (.child here hp) down
      exact .inl ⟨text, Nat.le_trans first inside.1, Nat.le_trans inside.2 last⟩
  | specifier last kind start stop =>
      have around := Cursor.reaches_of_insertion_touches wf (Tree.mem_nodes.1 last) ho start stop
        touches
      exact absurd kind (foreign.not_around _ around).2

theorem exists_touches_of_takesClosing (wf : tree.WellFormed source.length)
    (here : Reaches (ofRoot tree) tag) {closing name : Cursor} (takes : TakesClosing tag closing)
    (at_name : closing.tagName? = some name) (nonempty : name.start < name.stop)
    (closes : ∀ closing name, tag.closingTag? = some closing → closing.tagName? = some name →
      ∃ edit ∈ fix.edits, edit.toSpan = name.span ∧ edit.text = component) :
    ∃ edit ∈ fix.edits, edit.Touches closing.span := by
  obtain ⟨element, parent, kind, -, own⟩ := takes
  obtain ⟨edit, he, span, -⟩ := closes closing name
    (Cursor.closingTag?_eq_some.2 ⟨element, parent, kind, own⟩) at_name
  have step := Cursor.mem_children_of_ownClosing? own
  have inside := Cursor.inside_of_mem_children wf (.child (here.of_parent? parent).1 step)
    (Cursor.mem_children_of_child?_eq at_name)
  have start : edit.start = name.start := congrArg Span.start span
  have stop : edit.stop = name.stop := congrArg Span.stop span
  refine ⟨edit, he, ?_, ?_⟩
  · exact Nat.lt_of_le_of_lt inside.1 (stop ▸ nonempty)
  · exact Nat.lt_of_lt_of_le (start ▸ nonempty) inside.2

theorem renameClosing?_eq_none_iff :
    renameClosing? tag component = .ok none ↔
      ¬ ∃ element closing, tag.parent? = some element ∧ element.kind = .jsxElement ∧
        element.closingName? = some closing := by
  constructor
  · rintro h ⟨element, name, parent, kind, closing⟩
    obtain ⟨closed, at_closed, at_name, -⟩ := Cursor.closingName?_eq_some closing
    have at_closing := Cursor.closingTag?_eq_some.2 ⟨element, parent, kind, at_closed⟩
    obtain ⟨-, none⟩ | ⟨edit, found, some, -⟩ := renameClosing?_eq_ok h
    · rw [at_closing, Option.bind_some, at_name] at none
      cases none
    · cases some
  · intro alone
    unfold renameClosing?
    split
    · rename_i name hn
      obtain ⟨closed, at_closed, at_name⟩ := Option.bind_eq_some_iff.1 hn
      obtain ⟨element, parent, kind, own⟩ := Cursor.closingTag?_eq_some.1 at_closed
      refine absurd ⟨element, name, parent, kind, ?_⟩ alone
      rw [Cursor.closingName?, own, Option.bind_some, at_name]
    · rfl

theorem exists_renameClosing? (wf : tree.WellFormed source.length)
    (here : Reaches (ofRoot tree) tag) {element closing : Cursor}
    (parent : tag.parent? = some element) (kind : element.kind = .jsxElement)
    (named : element.closingName? = some closing) :
    ∃ edit, renameClosing? tag component = .ok (some edit) ∧ edit.toSpan = closing.span ∧
      edit.text = component := by
  obtain ⟨closed, at_closed, at_name, down⟩ := Cursor.closingName?_eq_some named
  have at_closing := Cursor.closingTag?_eq_some.2 ⟨element, parent, kind, at_closed⟩
  have forward := Cursor.start_le_stop wf ((here.of_parent? parent).1.trans down)
  refine ⟨⟨closing.span, component, forward⟩, ?_, rfl, rfl⟩
  rw [renameClosing?, at_closing, Option.bind_some, at_name]
  exact map_eq_ok.2 ⟨_, Edit.replace_eq_ok.2 ⟨forward, rfl, rfl⟩, rfl⟩

/-- Replacing a tag renames the closing tag of the element around it. That is right for the tag
which opens the element. Any other tag right below takes a closing tag that is not its own; just
then, and only if the name changes there, do elements lose their balance, and just then is a tag
of another element edited that is not deleted with the attribute. -/
theorem plan_keeps_balance_iff (source : Bytes) (tree : Tree) (tag : Cursor) (component : String)
    (wf : tree.WellFormed source.length) (grammar : tree.TagGrammar)
    (htag : tag ∈ (ofRoot tree).tags) :
    (renameClosing? tag component = .ok none ↔
      ¬ ∃ element closing, tag.parent? = some element ∧ element.kind = .jsxElement ∧
        element.closingName? = some closing) ∧
    (∀ element closing, tag.parent? = some element → element.kind = .jsxElement →
      element.closingName? = some closing →
      ∃ edit, renameClosing? tag component = .ok (some edit) ∧ edit.toSpan = closing.span ∧
        edit.text = component) ∧
    ∀ resolver attr fix, Resolver.ofTree source tree = .ok resolver → attr ∈ tag.attributes →
      (plan resolver tag attr component).result = .ok fix →
      (tree.Balanced (Span.bytes source) →
        (tree.Balanced (fix.textAfter source) ↔ ¬ Misnames source tag component)) ∧
      (∀ edit ∈ fix.edits, (tag.start ≤ edit.start ∧ edit.stop ≤ tag.stop) ∨
        (∃ closing name, tag.closingTag? = some closing ∧ closing.tagName? = some name ∧
          edit.toSpan = name.span) ∨
        ∃ specifier ∈ tree.nodes, specifier.kind = .importSpecifier ∧
          edit.start = specifier.stop ∧ edit.stop = specifier.stop) ∧
      (∀ other, Foreign tree tag other → ∀ edit ∈ fix.edits, edit.Touches other.span →
        (edit.text = "" ∧ edit.start ≤ other.start ∧ other.stop ≤ edit.stop) ∨
          TakesClosing tag other) ∧
      (∀ other name, TakesClosing tag other → other.tagName? = some name →
        name.start < name.stop → ∃ edit ∈ fix.edits, edit.Touches other.span) := by
  obtain ⟨here, is_tag⟩ := List.mem_filter.1 htag
  have here := Tree.mem_nodes.1 here
  refine ⟨renameClosing?_eq_none_iff, ?_, ?_⟩
  · intro element closing parent kind named
    exact exists_renameClosing? wf here parent kind named
  · intro resolver attr fix bindings hattr planned
    have roles : ∀ edit ∈ fix.edits, Role tree tag component edit :=
      fun edit he => role_of_mem_plan bindings hattr planned he
    have opens : ∀ name, tag.tagName? = some name →
        ∃ edit ∈ fix.edits, edit.toSpan = name.span ∧ edit.text = component :=
      fun name at_name => exists_opening_of_plan planned at_name
    have closes : ∀ closing name, tag.closingTag? = some closing →
        closing.tagName? = some name →
        ∃ edit ∈ fix.edits, edit.toSpan = name.span ∧ edit.text = component :=
      fun closing name at_closing at_name => exists_closing_of_plan planned at_closing at_name
    refine ⟨?_, fun edit he => (roles edit he).place wf here, ?_, ?_⟩
    · intro balanced
      constructor
      · intro after misnamed
        exact not_balanced_textAfter wf grammar here is_tag roles closes balanced misnamed after
      · intro safe
        exact balanced_textAfter wf grammar here is_tag roles opens closes balanced safe
    · intro other foreign edit he touches
      exact touches_foreign_tag wf grammar here is_tag (roles edit he) foreign touches
    · intro other name takes at_name nonempty
      exact exists_touches_of_takesClosing wf here takes at_name nonempty closes

/-- An element with a self-closing tag in it. -/
def nestedSource : Bytes :=
  Text.encode "import{Box}from'@chakra-ui/react';<Box><Box as='p'/></Box>"

def nestedTree : Tree :=
  .onFirstLine .program 0 58 none
    [.boxImport,
     .onFirstLine .jsxElement 34 58 none
      [.onFirstLine .jsxOpeningElement 34 39 none
        [.onFirstLine .identifier 35 38 (some .name) []],
       .onFirstLine .jsxSelfClosingElement 39 52 none
        [.onFirstLine .identifier 40 43 (some .name) [], .attributeAt 44 46 50],
       .onFirstLine .jsxClosingElement 52 58 (some .closeTag)
        [.onFirstLine .identifier 54 57 (some .name) []]]]

def nestedElement : Cursor :=
  (ofRoot nestedTree).children.getD 1 default

def nestedTag : Cursor :=
  nestedElement.children.getD 1 default

def nestedAttribute : Cursor :=
  nestedTag.attributes.getD 0 default

theorem nestedTag_mem_tags : nestedTag ∈ (ofRoot nestedTree).tags := by
  have element : nestedElement ∈ (ofRoot nestedTree).children :=
    List.mem_of_getElem? (i := 1) rfl
  have tag : nestedTag ∈ nestedElement.children := List.mem_of_getElem? (i := 1) rfl
  have reach : Reaches (ofRoot nestedTree) nestedTag :=
    .child (Cursor.reaches_of_mem_children element) tag
  exact List.mem_filter.2 ⟨Tree.mem_nodes.2 reach, rfl⟩

theorem nestedAttribute_mem_attributes : nestedAttribute ∈ nestedTag.attributes :=
  List.mem_of_getElem? (i := 0) rfl

theorem exists_nestedPlan : ∃ resolver fix,
    Resolver.ofTree nestedSource nestedTree = .ok resolver ∧
    (plan resolver nestedTag nestedAttribute "Text").result = .ok fix := by
  have bindings : ((Resolver.ofTree nestedSource nestedTree).bind fun resolver =>
      extendImport? resolver nestedTag "Text").toOption = some (some (.insert 10 ", Text")) := by
    decide +kernel
  obtain ⟨resolver, bindings, import_edit⟩ := bind_eq_ok.1 (eq_ok_of_toOption bindings)
  have opening : (renameOpening nestedTag "Text").toOption = some ⟨⟨40, 43⟩, "Text", by decide⟩ := by
    decide +kernel
  have closing : (renameClosing? nestedTag "Text").toOption =
      some (some ⟨⟨54, 57⟩, "Text", by decide⟩) := by
    decide +kernel
  have removal : (removeAttribute nestedTag nestedAttribute).toOption =
      some ⟨⟨43, 50⟩, "", by decide⟩ := by
    decide +kernel
  obtain ⟨fix, planned, -⟩ := exists_plan (eq_ok_of_toOption opening) (eq_ok_of_toOption closing)
    (eq_ok_of_toOption removal) import_edit (by unfold Edit.Disjoint; decide)
  exact ⟨resolver, fix, bindings, planned⟩

theorem nestedTree_wellFormed : nestedTree.WellFormed nestedSource.length := by decide +kernel

theorem nestedTree_tagGrammar : nestedTree.TagGrammar where
  closing_kind := by decide +kernel
  name_plain := by decide +kernel

theorem nestedTree_balanced : nestedTree.Balanced (Span.bytes nestedSource) := by decide +kernel

theorem nestedElement_openingTag?_ne : nestedElement.openingTag? ≠ some nestedTag := by
  intro same
  have kinds : nestedElement.openingTag?.map (·.kind) = some .jsxSelfClosingElement := by
    rw [same]
    rfl
  cases kinds

theorem nestedTag_misnames : Misnames nestedSource nestedTag "Text" :=
  ⟨nestedElement, _, _, rfl, rfl, nestedElement_openingTag?_ne, rfl, rfl, by decide, by decide⟩

theorem plan_keeps_balance_iff_nested : ∃ resolver fix,
    nestedTree.WellFormed nestedSource.length ∧ nestedTree.TagGrammar ∧
    nestedTag ∈ (ofRoot nestedTree).tags ∧
    Resolver.ofTree nestedSource nestedTree = .ok resolver ∧
    (plan resolver nestedTag nestedAttribute "Text").result = .ok fix ∧
    nestedTree.Balanced (Span.bytes nestedSource) ∧
    (nestedTree.Balanced (fix.textAfter nestedSource) ↔ ¬ Misnames nestedSource nestedTag "Text") ∧
    ∃ edit ∈ fix.edits, edit.Touches ⟨52, 58⟩ := by
  obtain ⟨resolver, fix, bindings, planned⟩ := exists_nestedPlan
  obtain ⟨-, -, result⟩ := plan_keeps_balance_iff nestedSource nestedTree nestedTag "Text"
    nestedTree_wellFormed nestedTree_tagGrammar nestedTag_mem_tags
  obtain ⟨balance, -, -, edited⟩ := result resolver nestedAttribute fix bindings
    nestedAttribute_mem_attributes planned
  have takes : TakesClosing nestedTag (nestedElement.children.getD 2 default) :=
    ⟨nestedElement, rfl, rfl, nestedElement_openingTag?_ne, rfl⟩
  exact ⟨resolver, fix, nestedTree_wellFormed, nestedTree_tagGrammar, nestedTag_mem_tags, bindings,
    planned, nestedTree_balanced, balance nestedTree_balanced, edited _ _ takes rfl (by decide)⟩

/-- A self-closing tag does have a closing tag renamed, that of its parent, and the parent is left
with two different names. -/
theorem self_closing_tag_renames_parent :
    nestedTag ∈ (ofRoot nestedTree).tags ∧ nestedTag.kind = .jsxSelfClosingElement ∧
    renameClosing? nestedTag "Text" ≠ .ok none ∧
    nestedTree.WellFormed nestedSource.length ∧ nestedTree.TagGrammar ∧
    nestedTree.Balanced (Span.bytes nestedSource) ∧
    ∃ resolver fix, Resolver.ofTree nestedSource nestedTree = .ok resolver ∧
      nestedAttribute ∈ nestedTag.attributes ∧
      (plan resolver nestedTag nestedAttribute "Text").result = .ok fix ∧
      ¬ nestedTree.Balanced (fix.textAfter nestedSource) := by
  obtain ⟨resolver, fix, bindings, planned⟩ := exists_nestedPlan
  have here := Tree.mem_nodes.1 (List.mem_filter.1 nestedTag_mem_tags).1
  have renamed : renameClosing? nestedTag "Text" ≠ .ok none := by
    rw [Ne, renameClosing?_eq_none_iff, Classical.not_not]
    exact ⟨_, _, rfl, rfl, rfl⟩
  refine ⟨nestedTag_mem_tags, rfl, renamed, nestedTree_wellFormed, nestedTree_tagGrammar,
    nestedTree_balanced, resolver, fix, bindings, nestedAttribute_mem_attributes,
    planned, ?_⟩
  exact not_balanced_textAfter nestedTree_wellFormed nestedTree_tagGrammar here rfl
    (fun edit he => role_of_mem_plan bindings nestedAttribute_mem_attributes planned he)
    (fun closing name at_closing at_name => exists_closing_of_plan planned at_closing at_name)
    nestedTree_balanced nestedTag_misnames

end Component
end JsxLint
