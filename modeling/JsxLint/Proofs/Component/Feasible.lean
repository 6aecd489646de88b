import JsxLint.Proofs.Component.Plan
import JsxLint.Proofs.Tree.Text

/-!
That a replacement can be planned. A name of known origin leads back to a specifier in the braces
of an import, and of the four edits no two overlap, wherever the import stands and even if the
closing tag has an empty name. What the grammar has to promise for this is said in
`Tree.EditGrammar`.
-/

namespace JsxLint
namespace Edit

theorem exists_ofRange {start stop : Nat} (forward : start ≤ stop) (text : String) :
    ∃ edit, ofRange start stop text = .ok edit ∧ edit.start = start ∧ edit.stop = stop ∧
      edit.text = text :=
  ⟨⟨⟨start, stop⟩, text, forward⟩, ofRange_eq_ok.2 ⟨forward, rfl, rfl, rfl⟩, rfl, rfl, rfl⟩

def Within (edit : Edit) (c : Cursor) : Prop :=
  c.start ≤ edit.start ∧ edit.stop ≤ c.stop

theorem overlaps_eq_false_of_filled {a b : Edit} (filled : a.start < a.stop)
    (apart : a.stop ≤ b.start ∨ b.stop ≤ a.start) : a.overlaps b = false := by
  simp only [overlaps]
  split <;> simp only [decide_eq_false_iff_not] <;> omega

theorem overlaps_eq_false_of_gap {a b : Edit} (gap : a.stop < b.start ∨ b.stop < a.start) :
    a.overlaps b = false := by
  have := a.start_le_stop
  have := b.start_le_stop
  simp only [overlaps]
  split <;> simp only [decide_eq_false_iff_not] <;> omega

theorem overlaps_eq_false_of_within {a b : Edit} {c d : Cursor} (filled : a.start < a.stop)
    (ha : a.Within c) (hb : b.Within d) (apart : c.stop ≤ d.start ∨ d.stop ≤ c.start) :
    a.overlaps b = false := by
  unfold Within at ha hb
  exact overlaps_eq_false_of_filled filled (by omega)

end Edit

namespace Tree

/-- What the grammar promises of the nodes that a replacement goes by. -/
structure EditGrammar (tree : Tree) : Prop where
  name_first : ∀ tag ∈ tree.nodes, tag.kind.isTag = true → ∀ name ∈ tag.tagName?,
    ∀ attr ∈ tag.attributes, name.stop ≤ attr.start
  closing_kind : ∀ element ∈ tree.nodes, ∀ closing ∈ element.child? .closeTag,
    closing.kind = .jsxClosingElement
  one_braces : ∀ clause ∈ tree.nodes, clause.kind = .importClause →
    (clause.children.filter (·.kind = .namedImports)).length ≤ 1
  module_last : ∀ declaration ∈ tree.nodes, declaration.kind = .importStatement →
    ∀ clause ∈ declaration.importClause?, ∀ module ∈ declaration.moduleName?,
      clause.stop ≤ module.start
  imports_apart : ∀ declaration ∈ tree.nodes, declaration.kind = .importStatement →
    ∀ markup ∈ tree.nodes, markup.isMarkup = true →
      declaration.stop ≤ markup.start ∨ markup.stop ≤ declaration.start

end Tree

namespace Cursor

variable {tree : Tree} {length : Nat}

theorem stop_le_of_prevSibling? (wf : tree.WellFormed length) {b c previous : Cursor}
    (hb : Reaches (ofRoot tree) b) (step : c ∈ b.children) (filled : c.start < c.stop)
    (h : c.prevSibling? = some previous) :
    previous.stop ≤ c.start ∧
      ∀ child ∈ b.children, child.stop ≤ c.start → child.stop ≤ previous.stop := by
  have ordered := List.pairwise_iff_getElem.1 (pairwise_children wf hb)
  have forward := start_le_stop wf (.child hb (mem_children_of_prevSibling? step h))
  obtain ⟨index, at_previous, at_c⟩ := getElem?_of_prevSibling? step h
  obtain ⟨hp, rfl⟩ := List.getElem?_eq_some_iff.1 at_previous
  obtain ⟨hc, rfl⟩ := List.getElem?_eq_some_iff.1 at_c
  refine ⟨ordered index (index + 1) hp hc (by omega), fun child mem before => ?_⟩
  have child_forward := start_le_stop wf (.child hb mem)
  obtain ⟨other, ho, rfl⟩ := List.mem_iff_getElem.1 mem
  rcases Nat.lt_trichotomy other index with lt | rfl | gt
  · have := ordered other index ho hp lt
    omega
  · exact Nat.le_refl _
  · -- What comes later starts behind the node, so it cannot end before it.
    rcases Nat.lt_or_ge (index + 1) other with lt | ge
    · have := ordered (index + 1) other hc ho lt
      omega
    · obtain rfl : other = index + 1 := by omega
      omega

/-- A node that is not empty is known by its range among its siblings. -/
theorem eq_of_span_eq (wf : tree.WellFormed length) {b c d : Cursor}
    (hb : Reaches (ofRoot tree) b) (hc : c ∈ b.children) (hd : d ∈ b.children)
    (same : c.span = d.span) (filled : d.start < d.stop) : c = d := by
  have start : c.start = d.start := congrArg Span.start same
  have stop : c.stop = d.stop := congrArg Span.stop same
  rcases siblings_apart wf hb hc hd with eq | apart | apart
  · exact eq
  · omega
  · omega

theorem pairwise_attributes (wf : tree.WellFormed length) {tag : Cursor}
    (ht : Reaches (ofRoot tree) tag) : tag.attributes.Pairwise fun a b => a.stop ≤ b.start :=
  (pairwise_children wf ht).sublist (List.filter_sublist.trans List.filter_sublist)

/-- The place of an attribute in its tag is found by its range, unless it is empty. -/
theorem findIdx?_attributes (wf : tree.WellFormed length) {tag attr : Cursor}
    (ht : Reaches (ofRoot tree) tag) (hattr : attr ∈ tag.attributes)
    (filled : attr.start < attr.stop) :
    ∃ index, tag.attributes.findIdx? (fun candidate => candidate.span = attr.span) = some index ∧
      tag.attributes[index]? = some attr := by
  cases found : tag.attributes.findIdx? fun candidate => candidate.span = attr.span with
  | none =>
      have := List.findIdx?_eq_none_iff.1 found attr hattr
      simp at this
  | some index =>
      refine ⟨index, rfl, ?_⟩
      obtain ⟨hi, same, -⟩ := List.findIdx?_eq_some_iff_getElem.1 found
      have same : tag.attributes[index].span = attr.span := by simpa using same
      have here := mem_children_of_attributes (List.getElem_mem hi)
      rw [List.getElem?_eq_getElem hi,
        eq_of_span_eq wf ht here (mem_children_of_attributes hattr) same filled]

theorem closingTag?_apart (wf : tree.WellFormed length) (grammar : tree.EditGrammar)
    {tag closing : Cursor} (ht : tag ∈ tree.nodes) (kind : tag.kind.isTag = true)
    (h : tag.closingTag? = some closing) :
    closing ∈ tree.nodes ∧ closing.isMarkup = true ∧
      (tag.stop ≤ closing.start ∨ closing.stop ≤ tag.start) := by
  obtain ⟨element, above, -, own⟩ := closingTag?_eq_some.1 h
  obtain ⟨there, step⟩ := (Tree.mem_nodes.1 ht).of_parent? above
  have below := mem_children_of_ownClosing? own
  have closes : closing.kind = .jsxClosingElement := by
    rcases Option.or_eq_some_iff.1 own with at_field | ⟨-, by_kind⟩
    · exact grammar.closing_kind element (Tree.mem_nodes.2 there) closing at_field
    · exact (mem_children_of_childOfKind? by_kind).2
  refine ⟨Tree.mem_nodes.2 (.child there below), isMarkup_of_closing closes, ?_⟩
  rcases siblings_apart wf there step below with rfl | apart
  · rw [closes] at kind
    cases kind
  · exact apart

theorem childOfKind?_namedImports (grammar : tree.EditGrammar) {clause braces : Cursor}
    (hc : clause ∈ tree.nodes) (kind : clause.kind = .importClause) (hb : braces ∈ clause.children)
    (hk : braces.kind = .namedImports) : clause.childOfKind? .namedImports = some braces := by
  have mem : braces ∈ clause.children.filter (·.kind = .namedImports) :=
    List.mem_filter.2 ⟨hb, by simpa using hk⟩
  have alone := grammar.one_braces clause hc kind
  rw [childOfKind?, ← List.head?_filter]
  generalize clause.children.filter (·.kind = .namedImports) = list at mem alone
  cases list with
  | nil => cases mem
  | cons first rest =>
      cases rest with
      | nil => rw [List.mem_singleton.1 mem, List.head?_cons]
      | cons second rest => simp at alone

theorem stop_le_getLast? (wf : tree.WellFormed length) {declaration specifier last : Cursor}
    (hd : declaration ∈ tree.nodes) (hs : specifier ∈ declaration.importSpecifiers)
    (hl : declaration.importSpecifiers.getLast? = some last) : specifier.stop ≤ last.stop := by
  have below := (reaches_of_mem_importSpecifiers (List.mem_of_getLast? hl)).1
  have forward := start_le_stop wf ((Tree.mem_nodes.1 hd).trans below)
  obtain ⟨clause, braces, hc, hb, -⟩ := mem_importSpecifiers.1 hs
  have there := (Tree.mem_nodes.1 hd).trans (.child (reaches_of_mem_children
    (mem_children_of_childOfKind? hc).1) (mem_children_of_childOfKind? hb).1)
  have ordered : declaration.importSpecifiers.Pairwise fun a b => a.stop ≤ b.start := by
    rw [importSpecifiers, hc, Option.bind_some, hb]
    exact (pairwise_children wf there).sublist (List.filter_sublist.trans List.filter_sublist)
  obtain ⟨front, split⟩ := List.getLast?_eq_some_iff.1 hl
  rw [split] at ordered hs
  rcases List.mem_append.1 hs with hs | hs
  · have := (List.pairwise_append.1 ordered).2.2 specifier hs last List.mem_cons_self
    omega
  · obtain rfl := List.mem_singleton.1 hs
    exact Nat.le_refl _

/-- An import goes on at both sides of its last specifier. -/
theorem getLast?_inside (wf : tree.WellFormed length) (grammar : tree.EditGrammar)
    {declaration specifier bound module last : Cursor} (hd : declaration ∈ tree.nodes)
    (kind : declaration.kind = .importStatement) (hs : specifier ∈ declaration.importSpecifiers)
    (at_local : specifier.localName? = some bound) (bound_filled : bound.start < bound.stop)
    (at_module : declaration.moduleName? = some module) (module_filled : module.start < module.stop)
    (hl : declaration.importSpecifiers.getLast? = some last) :
    declaration.start < last.stop ∧ last.stop < declaration.stop := by
  have root := Tree.mem_nodes.1 hd
  have below := (reaches_of_mem_importSpecifiers hs).1
  have specifier_inside := Reaches.inside wf root below
  have bound_inside := inside_of_mem_children wf (root.trans below)
    (mem_children_of_localName? at_local)
  have late := stop_le_getLast? wf hd hs hl
  obtain ⟨clause, braces, hc, hb, listed⟩ := mem_importSpecifiers.1 (List.mem_of_getLast? hl)
  have last_inside := Reaches.inside wf (.child root (mem_children_of_childOfKind? hc).1)
    (.child (reaches_of_mem_children (mem_children_of_childOfKind? hb).1) (mem_specifiers listed).1)
  have order := grammar.module_last declaration hd kind clause hc module at_module
  have module_inside := inside_of_mem_children wf root (mem_children_of_child?_eq at_module)
  omega

theorem enclosingImport?_of_specifier {declaration clause braces specifier : Cursor}
    (kind : declaration.kind = .importStatement) (hc : declaration.importClause? = some clause)
    (hb : braces ∈ clause.namedChildren) (braces_kind : braces.kind = .namedImports)
    (hs : specifier ∈ braces.specifiers) : specifier.enclosingImport? = some declaration := by
  obtain ⟨clause_step, clause_kind⟩ := mem_children_of_childOfKind? hc
  obtain ⟨step, specifier_kind⟩ := mem_specifiers hs
  have above : specifier.ancestors = braces :: clause :: declaration :: declaration.ancestors := by
    rw [ancestors_of_mem_children step,
      ancestors_of_mem_children (mem_children_of_namedChildren hb),
      ancestors_of_mem_children clause_step]
  simp [enclosingImport?, specifier_kind, ancestorOfKind?, above, braces_kind, clause_kind, kind]

end Cursor

namespace Component

open Cursor (Reaches ofRoot)

variable {tree : Tree} {source : Bytes} {resolver : Resolver}

/-- The specifier that a name stands for is among those that its import is known by. -/
theorem exists_specifier_of_importDeclaration? (grammar : tree.EditGrammar)
    (built : Resolver.ofTree source tree = .ok resolver) {name declaration : Cursor}
    {text : String} (at_name : name.text source = .ok text)
    (h : importDeclaration? resolver name = .ok (some declaration)) :
    ∃ specifier ∈ declaration.importSpecifiers, ∃ bound, specifier.localName? = some bound ∧
      bound.text source = .ok text := by
  obtain ⟨-, -, found, symbol, first, at_found, lookup, hf, first_kind, around⟩ :=
    importDeclaration?_eq_some built h
  obtain rfl := Except.ok.inj (at_found.symm.trans at_name)
  obtain ⟨-, -, collected⟩ := Resolver.ofTree_eq_ok built
  obtain ⟨-, -, -, binding, hb, name_eq, rfl⟩ := Resolver.exists_binding_of_lookup? lookup hf
  obtain ⟨node, here, occurrence, ho, bound⟩ := (ScopeTable.mem_bindings collected).1 hb
  obtain ⟨text, -, declares⟩ := ScopeTable.bind_eq_ok_iff.1 bound
  rw [declares] at first_kind around
  obtain ⟨kind, -, at_local, clause, braces, hc, part, braces_kind, hs⟩ :=
    (Cursor.specifier_mem_occurrences first_kind).1 ho
  obtain rfl : node = declaration := Option.some.inj
    ((Cursor.enclosingImport?_of_specifier kind hc part braces_kind hs).symm.trans around)
  obtain ⟨step, clause_kind⟩ := Cursor.mem_children_of_childOfKind? hc
  have there := Tree.mem_nodes_of_mem_children here step
  have only := Cursor.childOfKind?_namedImports grammar there clause_kind
    (Cursor.mem_children_of_namedChildren part) braces_kind
  exact ⟨occurrence.node, Cursor.mem_importSpecifiers.2 ⟨clause, braces, hc, only, hs⟩,
    occurrence.name, at_local, name_eq ▸ text⟩

/-- What is removed covers the attribute, stays in the tag, and comes after what all attributes come
after. -/
theorem exists_removal {length : Nat} (wf : tree.WellFormed length)
    {tag attr : Cursor} (ht : Reaches (ofRoot tree) tag) (hattr : attr ∈ tag.attributes)
    (filled : attr.start < attr.stop) :
    ∃ removal, removeAttribute tag attr = .ok removal ∧ removal.text = "" ∧
      removal.start ≤ attr.start ∧ attr.stop ≤ removal.stop ∧ removal.Within tag ∧
      ∀ child ∈ tag.children, (∀ other ∈ tag.attributes, child.stop ≤ other.start) →
        child.stop ≤ removal.start := by
  obtain ⟨index, found, at_index⟩ := Cursor.findIdx?_attributes wf ht hattr filled
  have step := Cursor.mem_children_of_attributes hattr
  have inside := Cursor.inside_of_mem_children wf ht step
  have before {i j : Nat} {a b : Cursor} (lt : i < j) (ha : tag.attributes[i]? = some a)
      (hb : tag.attributes[j]? = some b) : a.stop ≤ b.start := by
    obtain ⟨hi, rfl⟩ := List.getElem?_eq_some_iff.1 ha
    obtain ⟨hj, rfl⟩ := List.getElem?_eq_some_iff.1 hb
    exact List.pairwise_iff_getElem.1 (Cursor.pairwise_attributes wf ht) i j hi hj lt
  have conclude {start stop : Nat} (left : start ≤ attr.start) (right : attr.stop ≤ stop)
      (first : tag.start ≤ start) (last : stop ≤ tag.stop)
      (after : ∀ child ∈ tag.children, (∀ other ∈ tag.attributes, child.stop ≤ other.start) →
        child.stop ≤ start) :
      ∃ removal, Edit.delete start stop = .ok removal ∧ removal.text = "" ∧
        removal.start ≤ attr.start ∧ attr.stop ≤ removal.stop ∧ removal.Within tag ∧
        ∀ child ∈ tag.children, (∀ other ∈ tag.attributes, child.stop ≤ other.start) →
          child.stop ≤ removal.start := by
    have forward : start ≤ stop := by omega
    obtain ⟨removal, made, rfl, rfl, text⟩ := Edit.exists_ofRange forward ""
    exact ⟨removal, made, text, left, right, ⟨first, last⟩, after⟩
  simp only [removeAttribute, found]
  cases next : tag.attributes[index + 1]? with
  | some following =>
      have there := Cursor.mem_children_of_attributes (List.mem_of_getElem? next)
      have within := Cursor.inside_of_mem_children wf ht there
      have forward := Cursor.start_le_stop wf (.child ht there)
      exact conclude (Nat.le_refl _) (before (Nat.lt_succ_self _) at_index next) inside.1
        (by omega) fun child _ first => first attr hattr
  | none =>
      cases hp : if tag.attributes.length = 1 then attr.prevSibling?
        else tag.attributes[index - 1]? with
      | none =>
          exact conclude (Nat.le_refl _) (Nat.le_refl _) inside.1 inside.2
            fun child _ first => first attr hattr
      | some previous =>
          suffices previous ∈ tag.children ∧ previous.stop ≤ attr.start ∧
              ∀ child ∈ tag.children, (∀ other ∈ tag.attributes, child.stop ≤ other.start) →
                child.stop ≤ previous.stop by
            have within := Cursor.inside_of_mem_children wf ht this.1
            have forward := Cursor.start_le_stop wf (.child ht this.1)
            exact conclude this.2.1 (Nat.le_refl _) (Nat.le_trans within.1 forward) inside.2
              this.2.2
          split at hp
          · obtain ⟨left, right⟩ := Cursor.stop_le_of_prevSibling? wf ht step filled hp
            exact ⟨Cursor.mem_children_of_prevSibling? step hp, left,
              fun child hc first => right child hc (first attr hattr)⟩
          · rename_i several
            have positive : index - 1 < index := by
              have := (List.getElem?_eq_some_iff.1 at_index).1
              have := List.getElem?_eq_none_iff.1 next
              omega
            have there := Cursor.mem_children_of_attributes (List.mem_of_getElem? hp)
            have forward := Cursor.start_le_stop wf (.child ht there)
            refine ⟨there, before positive hp at_index, fun child _ first => ?_⟩
            exact Nat.le_trans (first previous (List.mem_of_getElem? hp)) forward

theorem exists_removeAttribute {length : Nat} (wf : tree.WellFormed length)
    {tag attr child : Cursor} (ht : Reaches (ofRoot tree) tag) (hattr : attr ∈ tag.attributes)
    (filled : attr.start < attr.stop) (hc : child ∈ tag.children)
    (first : ∀ other ∈ tag.attributes, child.stop ≤ other.start) :
    ∃ removal, removeAttribute tag attr = .ok removal ∧ removal.text = "" ∧
      removal.start ≤ attr.start ∧ attr.stop ≤ removal.stop ∧ removal.Within tag ∧
      child.stop ≤ removal.start := by
  obtain ⟨removal, removed, text, left, right, within, after⟩ := exists_removal wf ht hattr filled
  exact ⟨removal, removed, text, left, right, within, after child hc first⟩

theorem origin?_eq_some {name : Cursor} {origin : String}
    (h : origin? resolver name = .ok (some origin)) :
    ∃ declaration module text, importDeclaration? resolver name = .ok (some declaration) ∧
      declaration.moduleName? = some module ∧ module.text resolver.source = .ok text ∧
      inner text = origin := by
  obtain ⟨declaration?, imported, h⟩ := bind_eq_ok.1 h
  split at h
  · rename_i module at_module
    obtain ⟨declaration, rfl, at_module⟩ := Option.bind_eq_some_iff.1 at_module
    obtain ⟨text, read, h⟩ := bind_eq_ok.1 h
    exact ⟨declaration, module, text, imported, at_module, read, Option.some.inj (pure_eq_ok.1 h)⟩
  · cases h

section

variable {source : String}

section

variable (cuts : ∀ c ∈ tree.nodes, Text.Boundary source c.start ∧ Text.Boundary source c.stop)

include cuts

theorem exists_specifierBinds {specifier : Cursor} (here : specifier ∈ tree.nodes)
    (component : String) :
    ∃ binds, specifierBinds (Text.encode source) component specifier = .ok binds := by
  unfold specifierBinds
  cases at_name : specifier.localName? with
  | none => exact ⟨false, rfl⟩
  | some name =>
      obtain ⟨text, read⟩ := Cursor.exists_text cuts
        (Tree.mem_nodes_of_mem_children here (Cursor.mem_children_of_localName? at_name))
      exact ⟨text = component, bind_eq_ok.2 ⟨text, read, rfl⟩⟩

theorem exists_specifierSeparator (declaration : Cursor) {last : Cursor}
    (here : last ∈ tree.nodes) :
    ∃ separator, specifierSeparator (Text.encode source) declaration last = .ok separator := by
  unfold specifierSeparator
  split
  · exact ⟨_, rfl⟩
  · obtain ⟨lead, read⟩ := Cursor.exists_lineLead cuts here
    exact ⟨_, bind_eq_ok.2 ⟨lead, read, rfl⟩⟩

/-- An import with named specifiers can be extended, unless there is nothing to add. -/
theorem exists_extendImport?
    (built : Resolver.ofTree (Text.encode source) tree = .ok resolver)
    {tag name declaration last : Cursor} (at_name : tag.tagName? = some name)
    (imported : importDeclaration? resolver name = .ok (some declaration))
    (hl : declaration.importSpecifiers.getLast? = some last) (component : String) :
    ∃ binds separator,
      declaration.importSpecifiers.anyM (specifierBinds (Text.encode source) component) =
        .ok binds ∧
      specifierSeparator (Text.encode source) declaration last = .ok separator ∧
      extendImport? resolver tag component =
        .ok (if binds then none else some (Edit.insert last.stop (separator ++ component))) := by
  obtain ⟨source_eq, -, -⟩ := Resolver.ofTree_eq_ok built
  obtain ⟨there, -⟩ := importDeclaration?_eq_some built imported
  have listed : ∀ other ∈ declaration.importSpecifiers, other ∈ tree.nodes := fun other ho =>
    Tree.mem_nodes.2 ((Tree.mem_nodes.1 there).trans (Cursor.reaches_of_mem_importSpecifiers ho).1)
  obtain ⟨separator, separated⟩ := exists_specifierSeparator cuts declaration
    (listed last (List.mem_of_getLast? hl))
  obtain ⟨binds, any⟩ := exists_anyM fun other ho => exists_specifierBinds cuts (listed other ho)
    component
  refine ⟨binds, separator, any, separated, ?_⟩
  simp only [extendImport?, at_name, imported, ok_bind, hl, source_eq, any, separated]
  split
  · rfl
  · rfl

end

/-- A name that has an origin is bound in the braces of an import, and these end inside it. -/
theorem exists_import_of_origin? {length : Nat} (wf : tree.WellFormed length)
    (grammar : tree.EditGrammar) (built : Resolver.ofTree (Text.encode source) tree = .ok resolver)
    {name : Cursor} {text origin : String} (read : name.text (Text.encode source) = .ok text)
    (named : text ≠ "") (known : origin? resolver name = .ok (some origin))
    (origin_named : origin ≠ "") :
    ∃ declaration ∈ tree.nodes, declaration.kind = .importStatement ∧
      importDeclaration? resolver name = .ok (some declaration) ∧
      ∃ last, declaration.importSpecifiers.getLast? = some last ∧
        declaration.start < last.stop ∧ last.stop < declaration.stop := by
  obtain ⟨declaration, module, module_text, imported, at_module, module_read, rfl⟩ :=
    origin?_eq_some known
  have module_filled : module.start < module.stop := by
    refine Cursor.start_lt_stop_of_text module_read fun empty => origin_named ?_
    rw [empty]
    rfl
  obtain ⟨there, kind, -⟩ := importDeclaration?_eq_some built imported
  obtain ⟨specifier, hs, bound, at_local, bound_read⟩ :=
    exists_specifier_of_importDeclaration? grammar built read imported
  have bound_filled := Cursor.start_lt_stop_of_text bound_read named
  have hl := List.getLast?_eq_some_getLast (List.ne_nil_of_mem hs)
  exact ⟨declaration, there, kind, imported, _, hl, Cursor.getLast?_inside wf grammar there kind hs
    at_local bound_filled at_module module_filled hl⟩

theorem exists_renameOpening {length : Nat} (wf : tree.WellFormed length) {tag name : Cursor}
    (ht : Reaches (ofRoot tree) tag) (at_name : tag.tagName? = some name) (component : String) :
    ∃ opening, renameOpening tag component = .ok opening ∧ opening.start = name.start ∧
      opening.stop = name.stop ∧ opening.Within tag := by
  have step := Cursor.mem_children_of_child?_eq at_name
  have inside := Cursor.inside_of_mem_children wf ht step
  have forward := Cursor.start_le_stop wf (.child ht step)
  obtain ⟨opening, made, start, stop, -⟩ := Edit.exists_ofRange forward component
  refine ⟨opening, ?_, start, stop, ?_⟩
  · rw [renameOpening, at_name]
    exact made
  · rw [Edit.Within, start, stop]
    exact inside

theorem exists_closingEdit? {length : Nat} (wf : tree.WellFormed length)
    (grammar : tree.EditGrammar) {tag : Cursor} (ht : tag ∈ tree.nodes)
    (kind : tag.kind.isTag = true) (component : String) :
    ∃ closing?, renameClosing? tag component = .ok closing? := by
  unfold renameClosing?
  cases at_name : tag.closingTag?.bind (·.tagName?) with
  | none => exact ⟨none, rfl⟩
  | some name =>
      obtain ⟨closing, at_closing, at_name⟩ := Option.bind_eq_some_iff.1 at_name
      obtain ⟨there, -⟩ := Cursor.closingTag?_apart wf grammar ht kind at_closing
      have forward := Cursor.start_le_stop wf (.child (Tree.mem_nodes.1 there)
        (Cursor.mem_children_of_child?_eq at_name))
      obtain ⟨edit, made, -⟩ := Edit.exists_ofRange forward component
      exact ⟨some edit, map_eq_ok.2 ⟨edit, made, rfl⟩⟩

/-- The renamed closing tag lies apart from the tag. -/
theorem within_of_renameClosing? {length : Nat} (wf : tree.WellFormed length)
    (grammar : tree.EditGrammar) {tag : Cursor} {component : String} {edit : Edit}
    (ht : tag ∈ tree.nodes) (kind : tag.kind.isTag = true)
    (h : renameClosing? tag component = .ok (some edit)) :
    ∃ closing ∈ tree.nodes, closing.isMarkup = true ∧ edit.Within closing ∧
      (tag.stop ≤ closing.start ∨ closing.stop ≤ tag.start) := by
  obtain ⟨none, -⟩ | ⟨mine, name, same, at_name, span, -⟩ := renameClosing?_eq_ok h
  · cases none
  · obtain rfl := Option.some.inj same
    obtain ⟨closing, at_closing, at_name⟩ := Option.bind_eq_some_iff.1 at_name
    obtain ⟨there, markup, apart⟩ := Cursor.closingTag?_apart wf grammar ht kind at_closing
    refine ⟨closing, there, markup, ?_, apart⟩
    have inside := Cursor.inside_of_mem_children wf (Tree.mem_nodes.1 there)
      (Cursor.mem_children_of_child?_eq at_name)
    rw [Edit.Within, span]
    exact inside

theorem disjoint_parts {opening removal : Edit} {closing? import? : Option Edit}
    (removed : opening.overlaps removal = false)
    (closed : ∀ closing ∈ closing?,
      opening.overlaps closing = false ∧ removal.overlaps closing = false)
    (imported : ∀ added ∈ import?,
      opening.overlaps added = false ∧ removal.overlaps added = false ∧
        ∀ closing ∈ closing?, closing.overlaps added = false) :
    Edit.Disjoint ([opening] ++ closing?.toList ++ [removal] ++ import?.toList) := by
  unfold Edit.Disjoint
  cases closing? with
  | none => cases import? <;> simp_all
  | some closing =>
      have swapped := Edit.overlaps_comm removal closing
      cases import? <;> simp_all

theorem range_of_extendImport? {tag name declaration last : Cursor} {component : String}
    {edit : Edit} (h : extendImport? resolver tag component = .ok (some edit))
    (at_name : tag.tagName? = some name)
    (imported : importDeclaration? resolver name = .ok (some declaration))
    (hl : declaration.importSpecifiers.getLast? = some last) :
    edit.start = last.stop ∧ edit.stop = last.stop := by
  obtain ⟨_, _, _, same_name, same_import, same_last, -, appends⟩ := extendImport?_eq_ok h
  obtain rfl := Option.some.inj (at_name.symm.trans same_name)
  obtain rfl := Option.some.inj (Except.ok.inj (imported.symm.trans same_import))
  obtain rfl := Option.some.inj (hl.symm.trans same_last)
  exact ⟨(appends edit rfl).start_eq, (appends edit rfl).stop_eq⟩

/-- A named tag of known origin can have any of its attributes traded for another name. -/
theorem exists_plan_of_origin? (covers : tree.Covers source) (grammar : tree.EditGrammar)
    (built : Resolver.ofTree (Text.encode source) tree = .ok resolver) {tag name attr : Cursor}
    {text origin : String} (ht : tag ∈ tree.nodes) (kind : tag.kind.isTag = true)
    (at_name : tag.tagName? = some name) (read : name.text (Text.encode source) = .ok text)
    (named : text ≠ "") (known : origin? resolver name = .ok (some origin))
    (origin_named : origin ≠ "") (hattr : attr ∈ tag.attributes)
    (filled : attr.start < attr.stop) (component : String) :
    ∃ fix, (plan resolver tag attr component).result = .ok fix := by
  have wf := covers.fits
  have root := Tree.mem_nodes.1 ht
  have name_filled := Cursor.start_lt_stop_of_text read named
  obtain ⟨declaration, there, import_kind, imported, last, hl, ahead, behind⟩ :=
    exists_import_of_origin? wf grammar built read named known origin_named
  obtain ⟨opening, opened, start, stop, opening_within⟩ :=
    exists_renameOpening wf root at_name component
  obtain ⟨closing?, closed⟩ := exists_closingEdit? wf grammar ht kind component
  obtain ⟨removal, removed, -, left, right, removal_within, after⟩ := exists_removeAttribute wf root
    hattr filled (Cursor.mem_children_of_child?_eq at_name)
    (grammar.name_first tag ht kind name at_name)
  obtain ⟨import?, extended⟩ : ∃ import?, extendImport? resolver tag component = .ok import? := by
    obtain ⟨_, _, -, -, extended⟩ :=
      exists_extendImport? covers.cuts built at_name imported hl component
    exact ⟨_, extended⟩
  have opening_filled : opening.start < opening.stop := by omega
  have removal_filled : removal.start < removal.stop := by omega
  refine (exists_plan opened closed removed extended (disjoint_parts ?_ ?_ ?_)).imp fun _ h => h.1
  · exact Edit.overlaps_eq_false_of_filled opening_filled (.inl (by omega))
  · rintro closing rfl
    obtain ⟨tail, -, -, within, apart⟩ := within_of_renameClosing? wf grammar ht kind closed
    exact ⟨Edit.overlaps_eq_false_of_within opening_filled opening_within within apart,
      Edit.overlaps_eq_false_of_within removal_filled removal_within within apart⟩
  · rintro added rfl
    obtain ⟨added_start, added_stop⟩ := range_of_extendImport? extended at_name imported hl
    have within : added.Within declaration := ⟨by omega, by omega⟩
    have apart := (grammar.imports_apart declaration there import_kind tag ht
      (Cursor.isMarkup_of_isTag kind)).symm
    refine ⟨Edit.overlaps_eq_false_of_within opening_filled opening_within within apart,
      Edit.overlaps_eq_false_of_within removal_filled removal_within within apart, ?_⟩
    rintro closing rfl
    obtain ⟨tail, tail_here, markup, ⟨first, final⟩, -⟩ :=
      within_of_renameClosing? wf grammar ht kind closed
    -- The name may be empty: the insertion stands strictly inside its import, so not at its edge.
    have apart := grammar.imports_apart declaration there import_kind tail tail_here markup
    have forward := closing.start_le_stop
    exact Edit.overlaps_eq_false_of_gap (by omega)

end

end Component
end JsxLint
