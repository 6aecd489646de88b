import JsxLint.Component.Replacement
import JsxLint.Proofs.Edit.Merge
import JsxLint.Proofs.Scope.Table
import JsxLint.Proofs.Tag

/-!
What a planned replacement consists of: the renamed name of the tag, the renamed name of a closing
tag if one is found, the removed attribute, and a new specifier if the import lacks it. For each
of these edits its range and its text are given. Whether the right closing tag is found is left to
others.
-/

namespace JsxLint
namespace Edit

theorem ofRange_eq_ok {start stop : Nat} {text : String} {edit : Edit} :
    ofRange start stop text = .ok edit ↔
      start ≤ stop ∧ edit.start = start ∧ edit.stop = stop ∧ edit.text = text := by
  obtain ⟨⟨first, last⟩, mine, forward⟩ := edit
  unfold ofRange
  split
  · rename_i h
    simp only [Except.ok.injEq, Edit.mk.injEq, Int.toNat_natCast, Span.mk.injEq]
    constructor
    · rintro ⟨⟨rfl, rfl⟩, rfl⟩
      exact ⟨Int.ofNat_le.1 h.2, rfl, rfl, rfl⟩
    · rintro ⟨-, rfl, rfl, rfl⟩
      exact ⟨⟨rfl, rfl⟩, rfl⟩
  · rename_i h
    constructor
    · intro impossible
      cases impossible
    · rintro ⟨le, -, -, -⟩
      exact absurd ⟨Int.natCast_nonneg _, Int.ofNat_le.2 le⟩ h

theorem replace_eq_ok {span : Span} {text : String} {edit : Edit} :
    replace span text = .ok edit ↔
      span.start ≤ span.stop ∧ edit.toSpan = span ∧ edit.text = text := by
  rw [replace, ofRange_eq_ok]
  obtain ⟨start, stop⟩ := span
  obtain ⟨⟨first, last⟩, mine, forward⟩ := edit
  simp only [Span.mk.injEq, and_assoc]

end Edit

theorem Text.allBlank_iff {text : String} :
    allBlank text = true ↔ text ≠ "" ∧ ∀ c ∈ text.toList, isBlank c = true := by
  simp [allBlank]

namespace Component

variable {resolver : Resolver} {tag attr : Cursor} {component : String}

theorem renameOpening_eq_ok {edit : Edit} (h : renameOpening tag component = .ok edit) :
    ∃ name, tag.tagName? = some name ∧ edit.toSpan = name.span ∧ edit.text = component := by
  unfold renameOpening at h
  split at h
  · rename_i name hn
    obtain ⟨-, span, text⟩ := Edit.replace_eq_ok.1 h
    exact ⟨name, hn, span, text⟩
  · cases h

theorem renameClosing?_eq_ok {edit? : Option Edit}
    (h : renameClosing? tag component = .ok edit?) :
    (edit? = none ∧ tag.closingTag?.bind (·.tagName?) = none) ∨
      ∃ edit name, edit? = some edit ∧ tag.closingTag?.bind (·.tagName?) = some name ∧
        edit.toSpan = name.span ∧ edit.text = component := by
  unfold renameClosing? at h
  split at h
  · rename_i name hn
    obtain ⟨edit, he, rfl⟩ := map_eq_ok.1 h
    obtain ⟨-, span, text⟩ := Edit.replace_eq_ok.1 he
    exact .inr ⟨edit, name, rfl, hn, span, text⟩
  · rename_i none
    exact .inl ⟨(Except.ok.inj h).symm, none⟩

/-- What goes with an attribute begins and ends at children of its tag. -/
theorem removeAttribute_eq_ok {edit : Edit} (hattr : attr ∈ tag.attributes)
    (h : removeAttribute tag attr = .ok edit) :
    edit.text = "" ∧ tag.IsEdge edit.start ∧ tag.IsEdge edit.stop := by
  have here := Cursor.mem_children_of_attributes hattr
  simp only [removeAttribute] at h
  split at h
  · cases h
  · rename_i index _
    split at h
    · rename_i following hf
      obtain ⟨-, start, stop, text⟩ := Edit.ofRange_eq_ok.1 h
      have next := Cursor.mem_children_of_attributes (List.mem_of_getElem? hf)
      exact ⟨text, ⟨attr, here, .inl start⟩, ⟨following, next, .inl stop⟩⟩
    · obtain ⟨-, start, stop, text⟩ := Edit.ofRange_eq_ok.1 h
      refine ⟨text, ?_, ⟨attr, here, .inr stop⟩⟩
      cases hp : if tag.attributes.length = 1 then attr.prevSibling?
        else tag.attributes[index - 1]? with
      | none =>
          rw [hp] at start
          exact ⟨attr, here, .inl start⟩
      | some previous =>
          rw [hp] at start
          refine ⟨previous, ?_, .inr start⟩
          split at hp
          · exact Cursor.mem_children_of_prevSibling? here hp
          · exact Cursor.mem_children_of_attributes (List.mem_of_getElem? hp)

/-- The specifier in the braces of an import that a tag's name stands for. -/
theorem importDeclaration?_eq_some {source : Bytes} {tree : Tree} {name declaration : Cursor}
    (bindings : Resolver.ofTree source tree = .ok resolver)
    (h : importDeclaration? resolver name = .ok (some declaration)) :
    declaration ∈ tree.nodes ∧ declaration.kind = .importStatement ∧
      ∃ text symbol first, name.text source = .ok text ∧
        resolver.lookup? name text = some symbol ∧ symbol.declaration? = some first ∧
        first.kind = .importSpecifier ∧ first.node.enclosingImport? = some declaration := by
  obtain ⟨source_eq, importOf_eq, -⟩ := Resolver.ofTree_eq_ok bindings
  obtain ⟨symbol?, resolved, h⟩ := bind_eq_ok.1 h
  split at h
  · rename_i first hf
    split at h
    · rename_i kind
      obtain ⟨symbol, rfl, hf⟩ := Option.bind_eq_some_iff.1 hf
      obtain ⟨text, ht, found⟩ := Resolver.resolve?_eq_some resolved
      rw [source_eq] at ht
      rw [pure_eq_ok, importOf_eq] at h
      have here := Resolver.reaches_of_lookup? bindings found hf
      obtain ⟨above, -, import_kind⟩ := Cursor.enclosingImport?_eq_some here h
      exact ⟨Tree.mem_nodes.2 above, import_kind, text, symbol, first, ht, found, hf, kind, h⟩
    · cases h
  · cases h

/-- What comes before a specifier that is to stand below another one. -/
def indentBelow (lead : String) : String :=
  if Text.allBlank lead then lead else String.ofList (List.replicate lead.length ' ')

theorem blank_of_mem_indentBelow {lead : String} {c : Char} (mem : c ∈ (indentBelow lead).toList) :
    Text.isBlank c = true := by
  unfold indentBelow at mem
  split at mem
  · rename_i blank
    exact (Text.allBlank_iff.1 blank).2 c mem
  · rw [String.toList_ofList] at mem
    rw [List.eq_of_mem_replicate mem]
    decide

/-- A comma and white space stand between two specifiers. -/
theorem specifierSeparator_eq_ok {source : Bytes} {declaration last : Cursor} {separator : String}
    (h : specifierSeparator source declaration last = .ok separator) :
    ∃ blanks, separator = "," ++ blanks ∧ ∀ c ∈ blanks.toList, Text.isBlank c = true := by
  unfold specifierSeparator at h
  split at h
  · obtain rfl := pure_eq_ok.1 h
    refine ⟨" ", rfl, fun c mem => ?_⟩
    rw [List.mem_singleton.1 mem]
    decide
  · obtain ⟨lead, -, h⟩ := bind_eq_ok.1 h
    obtain rfl := pure_eq_ok.1 h
    refine ⟨"\n" ++ indentBelow lead, ?_, fun c mem => ?_⟩
    · rw [← String.append_assoc]
      rfl
    · rw [String.toList_append, List.mem_append] at mem
      rcases mem with newline | indent
      · rw [List.mem_singleton.1 newline]
        decide
      · exact blank_of_mem_indentBelow indent

/-- Adding a component to an import puts a separator and the name right behind the last specifier.
The separator is a comma and white space. -/
structure Appends (source : Bytes) (declaration last : Cursor) (component : String) (edit : Edit) :
    Prop where
  start_eq : edit.start = last.stop
  stop_eq : edit.stop = last.stop
  text_eq : ∃ blanks, specifierSeparator source declaration last = .ok ("," ++ blanks) ∧
    edit.text = "," ++ blanks ++ component ∧ ∀ c ∈ blanks.toList, Text.isBlank c = true

theorem appends_insert {source : Bytes} {declaration last : Cursor} {separator : String}
    (separated : specifierSeparator source declaration last = .ok separator) :
    Appends source declaration last component (Edit.insert last.stop (separator ++ component)) := by
  obtain ⟨blanks, rfl, blank⟩ := specifierSeparator_eq_ok separated
  exact ⟨rfl, rfl, blanks, separated, rfl, blank⟩

/-- An import is extended right after its last specifier, unless one of them binds the component. -/
theorem extendImport?_eq_ok {edit? : Option Edit}
    (h : extendImport? resolver tag component = .ok edit?) :
    ∃ name declaration last, tag.tagName? = some name ∧
      importDeclaration? resolver name = .ok (some declaration) ∧
      declaration.importSpecifiers.getLast? = some last ∧
      (edit? = none ↔ ∃ specifier ∈ declaration.importSpecifiers,
        specifierBinds resolver.source component specifier = .ok true) ∧
      ∀ edit ∈ edit?, Appends resolver.source declaration last component edit := by
  unfold extendImport? at h
  split at h
  · rename_i name hn
    obtain ⟨declaration?, hd, h⟩ := bind_eq_ok.1 h
    split at h
    · rename_i declaration
      split at h
      · rename_i last hl
        obtain ⟨found, hf, h⟩ := bind_eq_ok.1 h
        refine ⟨name, declaration, last, hn, hd, hl, ?_⟩
        cases found with
        | true =>
            obtain rfl := pure_eq_ok.1 h
            exact ⟨iff_of_true rfl (anyM_eq_true hf), fun edit he => by cases he⟩
        | false =>
            obtain ⟨separator, separated, h⟩ := bind_eq_ok.1 h
            obtain rfl := pure_eq_ok.1 h
            refine ⟨iff_of_false (Option.some_ne_none _) ?_, fun edit he => ?_⟩
            · rintro ⟨specifier, hs, binds⟩
              cases (anyM_eq_false hf specifier hs).symm.trans binds
            · obtain rfl := Option.some.inj he
              exact appends_insert separated
      · cases h
    · cases h
  · cases h

/-- What an edit of a replacement is there for. -/
inductive Role (tree : Tree) (tag : Cursor) (component : String) (edit : Edit) : Prop where
  | opening {name : Cursor} (at_name : tag.tagName? = some name)
      (span_eq : edit.toSpan = name.span) (text_eq : edit.text = component)
  | closing {closing name : Cursor} (at_closing : tag.closingTag? = some closing)
      (at_name : closing.tagName? = some name) (span_eq : edit.toSpan = name.span)
      (text_eq : edit.text = component)
  | removal (text_eq : edit.text = "") (start_edge : tag.IsEdge edit.start)
      (stop_edge : tag.IsEdge edit.stop)
  | specifier {last : Cursor} (here : last ∈ tree.nodes) (kind_eq : last.kind = .importSpecifier)
      (start_eq : edit.start = last.stop) (stop_eq : edit.stop = last.stop)

theorem plan_eq_ok {fix : Fix} (h : (plan resolver tag attr component).result = .ok fix) :
    ∃ opening closing? removal import?,
      renameOpening tag component = .ok opening ∧
      renameClosing? tag component = .ok closing? ∧
      removeAttribute tag attr = .ok removal ∧
      extendImport? resolver tag component = .ok import? ∧
      fix.edits.Perm ([opening] ++ closing?.toList ++ [removal] ++ import?.toList) := by
  simp only [plan, Logged.result_bind, Logged.result_liftM, Logged.result_record] at h
  obtain ⟨opening, ho, h⟩ := bind_eq_ok.1 h
  obtain ⟨closing?, hc, h⟩ := bind_eq_ok.1 h
  obtain ⟨removal, hr, h⟩ := bind_eq_ok.1 h
  obtain ⟨import?, hi, h⟩ := bind_eq_ok.1 h
  exact ⟨opening, closing?, removal, import?, ho, hc, hr, hi, Fix.perm_of_ofEdits h⟩

theorem exists_plan {opening removal : Edit} {closing? import? : Option Edit}
    (ho : renameOpening tag component = .ok opening)
    (hc : renameClosing? tag component = .ok closing?)
    (hr : removeAttribute tag attr = .ok removal)
    (hi : extendImport? resolver tag component = .ok import?)
    (disjoint : Edit.Disjoint ([opening] ++ closing?.toList ++ [removal] ++ import?.toList)) :
    ∃ fix, (plan resolver tag attr component).result = .ok fix ∧
      fix.edits.Perm ([opening] ++ closing?.toList ++ [removal] ++ import?.toList) := by
  obtain ⟨fix, hf, perm⟩ := Fix.exists_ofEdits disjoint
  refine ⟨fix, ?_, perm⟩
  simp only [plan, Logged.result_bind, Logged.result_liftM, Logged.result_record, ho, hc, hr, hi,
    ok_bind, hf]

theorem role_of_mem_plan {source : Bytes} {tree : Tree} {fix : Fix}
    (bindings : Resolver.ofTree source tree = .ok resolver) (hattr : attr ∈ tag.attributes)
    (h : (plan resolver tag attr component).result = .ok fix) {edit : Edit}
    (he : edit ∈ fix.edits) : Role tree tag component edit := by
  obtain ⟨opening, closing?, removal, import?, ho, hc, hr, hi, perm⟩ := plan_eq_ok h
  rw [perm.mem_iff] at he
  simp only [List.mem_append, List.mem_singleton, Option.mem_toList] at he
  obtain ((rfl | he) | rfl) | he := he
  · obtain ⟨name, at_name, span, text⟩ := renameOpening_eq_ok ho
    exact .opening at_name span text
  · obtain ⟨rfl, -⟩ | ⟨mine, name, rfl, at_closing, span, text⟩ := renameClosing?_eq_ok hc
    · cases he
    · obtain rfl := Option.some.inj he
      obtain ⟨closing, at_closing, at_name⟩ := Option.bind_eq_some_iff.1 at_closing
      exact .closing at_closing at_name span text
  · obtain ⟨text, start, stop⟩ := removeAttribute_eq_ok hattr hr
    exact .removal text start stop
  · obtain ⟨name, declaration, last, -, hd, hl, -, appends⟩ := extendImport?_eq_ok hi
    obtain ⟨here, -⟩ := importDeclaration?_eq_some bindings hd
    obtain ⟨below, kind⟩ := Cursor.reaches_of_mem_importSpecifiers (List.mem_of_getLast? hl)
    exact .specifier (Tree.mem_nodes.2 ((Tree.mem_nodes.1 here).trans below)) kind
      (appends edit he).start_eq (appends edit he).stop_eq

theorem exists_opening_of_plan {fix : Fix} {name : Cursor}
    (h : (plan resolver tag attr component).result = .ok fix) (at_name : tag.tagName? = some name) :
    ∃ edit ∈ fix.edits, edit.toSpan = name.span ∧ edit.text = component := by
  obtain ⟨opening, closing?, removal, import?, ho, -, -, -, perm⟩ := plan_eq_ok h
  obtain ⟨found, at_found, span, text⟩ := renameOpening_eq_ok ho
  obtain rfl := Option.some.inj (at_found.symm.trans at_name)
  exact ⟨opening, perm.mem_iff.2 (by simp), span, text⟩

theorem exists_closing_of_plan {fix : Fix} {closing name : Cursor}
    (h : (plan resolver tag attr component).result = .ok fix)
    (at_closing : tag.closingTag? = some closing) (at_name : closing.tagName? = some name) :
    ∃ edit ∈ fix.edits, edit.toSpan = name.span ∧ edit.text = component := by
  obtain ⟨opening, closing?, removal, import?, -, hc, -, -, perm⟩ := plan_eq_ok h
  obtain ⟨-, none⟩ | ⟨edit, found, rfl, at_found, span, text⟩ := renameClosing?_eq_ok hc
  · rw [at_closing, Option.bind_some, at_name] at none
    cases none
  · rw [at_closing, Option.bind_some, at_name] at at_found
    obtain rfl := Option.some.inj at_found
    exact ⟨edit, perm.mem_iff.2 (by simp), span, text⟩

end Component
end JsxLint
