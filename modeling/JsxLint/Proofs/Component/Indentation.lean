import JsxLint.Proofs.Component.Capture
import JsxLint.Proofs.Component.Feasible
import JsxLint.Proofs.Edit.Merge
import JsxLint.Proofs.Edit.Splice
import JsxLint.Proofs.Text.Newline
import JsxLint.Proofs.Text.Position

/-!
Where a name is added to an import whose specifiers stand on lines of their own. It comes on a new
line right behind the last specifier, with as many characters before it as stand before that one:
the same ones if all of them are blank, else spaces. The two may differ in their bytes, since only
characters are counted. A tab is one character, however wide it is shown.
-/

namespace JsxLint
namespace Text

theorem newline_mem_encode_iff {text : String} : 10 ∈ encode text ↔ '\n' ∈ text.toList := by
  suffices ∀ chars : List Char, 10 ∈ encode (String.ofList chars) ↔ '\n' ∈ chars by
    simpa using this text.toList
  intro chars
  induction chars with
  | nil => simp
  | cons c rest ih =>
      rw [encode_cons, List.mem_append, List.mem_cons, ih]
      refine or_congr_left ⟨fun mem => (eq_of_mem_encode (by decide) mem).symm, ?_⟩
      rintro rfl
      decide

/-- Behind a newline, a line begins anew. -/
theorem lineLeadBytes_newline (front back : Bytes) {line : Bytes} (plain : 10 ∉ line) :
    lineLeadBytes (front ++ [10] ++ line ++ back) (front ++ [10] ++ line).length = line := by
  rw [lineLeadBytes_eq, List.take_left, lastLine_append _ plain, lastLine_newline, List.nil_append]

/-- The column of what stands on a new line is the length of its indentation. -/
theorem column_newline (front back : Bytes) {indent : String} (plain : '\n' ∉ indent.toList) :
    column (front ++ encode (",\n" ++ indent) ++ back)
      (front ++ encode (",\n" ++ indent)).length = .ok indent.length := by
  have bytes : front ++ encode (",\n" ++ indent) = front ++ [44] ++ [10] ++ encode indent := by
    rw [encode_append, List.append_assoc front, List.append_assoc front]
    rfl
  refine column_of_lead ?_
  rw [bytes]
  exact lineLeadBytes_newline _ _ fun mem => plain (newline_mem_encode_iff.1 mem)

/-- A node behind a comma, a newline and an indentation has its own text, and the length of the
indentation for its column. -/
theorem text_and_column_newline (front back : Bytes) {indent component : String} {c : Cursor}
    (plain : '\n' ∉ indent.toList)
    (start : c.start = front.length + (encode (",\n" ++ indent)).length)
    (stop : c.stop = c.start + (encode component).length) :
    c.text (front ++ encode (",\n" ++ indent ++ component) ++ back) = .ok component ∧
      c.column (front ++ encode (",\n" ++ indent ++ component) ++ back) = .ok indent.length := by
  rw [← List.length_append] at start
  rw [encode_append, ← List.append_assoc]
  constructor
  · rw [Cursor.text, stop, start, slice_append_left, decode_encode]
  · change column _ c.start = _
    rw [start, List.append_assoc]
    exact column_newline front _ plain

theorem newline_not_mem_of_lineLead {source : Bytes} {c : Cursor} {lead : String}
    (read : c.lineLead source = .ok lead) : '\n' ∉ lead.toList := by
  rw [← newline_mem_encode_iff, encode_of_decode read]
  exact not_mem_lastLine _

end Text

namespace Component

theorem length_indentBelow (lead : String) : (indentBelow lead).length = lead.length := by
  unfold indentBelow
  split
  · rfl
  · simp

theorem indentBelow_of_blank {lead : String} (blank : ∀ c ∈ lead.toList, Text.isBlank c = true) :
    indentBelow lead = lead := by
  by_cases empty : lead = ""
  · rw [empty]
    rfl
  · rw [indentBelow, if_pos (Text.allBlank_iff.2 ⟨empty, blank⟩)]

theorem newline_not_mem_indentBelow {lead : String} (plain : '\n' ∉ lead.toList) :
    '\n' ∉ (indentBelow lead).toList := by
  unfold indentBelow
  split
  · exact plain
  · rw [String.toList_ofList]
    intro mem
    exact absurd (List.eq_of_mem_replicate mem) (by decide)

theorem specifierSeparator_of_row_ne {source : Bytes} {declaration last : Cursor} {lead : String}
    (rows : declaration.row ≠ last.row) (read : last.lineLead source = .ok lead) :
    specifierSeparator source declaration last = .ok (",\n" ++ indentBelow lead) := by
  rw [specifierSeparator, if_neg rows, read]
  rfl

/-- An import is extended by a name that none of its specifiers binds. -/
theorem extendImport?_of_unbound {tree : Tree} {source component separator : String}
    {resolver : Resolver} {tag name declaration last : Cursor}
    (cuts : ∀ c ∈ tree.nodes, Text.Boundary source c.start ∧ Text.Boundary source c.stop)
    (built : Resolver.ofTree (Text.encode source) tree = .ok resolver)
    (at_name : tag.tagName? = some name)
    (imported : importDeclaration? resolver name = .ok (some declaration))
    (hl : declaration.importSpecifiers.getLast? = some last)
    (unbound : ∀ specifier ∈ declaration.importSpecifiers, ∀ bound ∈ specifier.localName?,
      bound.text (Text.encode source) ≠ .ok component)
    (separated : specifierSeparator (Text.encode source) declaration last = .ok separator) :
    extendImport? resolver tag component =
      .ok (some (Edit.insert last.stop (separator ++ component))) := by
  obtain ⟨binds, found, any, same, extended⟩ :=
    exists_extendImport? cuts built at_name imported hl component
  obtain rfl := Except.ok.inj (same.symm.trans separated)
  cases binds with
  | true =>
      obtain ⟨specifier, hs, binds⟩ := anyM_eq_true any
      obtain ⟨bound, at_bound, read⟩ := specifierBinds_eq_true.1 binds
      exact absurd read (unbound specifier hs bound at_bound)
  | false => exact extended

/-- Where the last specifier of an import starts on another row than the import, a name that none of
the specifiers binds is added right behind the last one: a comma, one newline, and the name in the
column of that specifier. The rest of the source stays as it is. -/
theorem extension_keeps_column (source : String) (tree : Tree)
    (cuts : ∀ c ∈ tree.nodes, Text.Boundary source c.start ∧ Text.Boundary source c.stop)
    {resolver : Resolver} (built : Resolver.ofTree (Text.encode source) tree = .ok resolver)
    {tag name declaration last : Cursor} (at_name : tag.tagName? = some name)
    (imported : importDeclaration? resolver name = .ok (some declaration))
    (hl : declaration.importSpecifiers.getLast? = some last)
    (rows : declaration.row ≠ last.row) (component : String)
    (unbound : ∀ specifier ∈ declaration.importSpecifiers, ∀ bound ∈ specifier.localName?,
      bound.text (Text.encode source) ≠ .ok component) :
    ∃ edit fix after lead indent,
      extendImport? resolver tag component = .ok (some edit) ∧ Fix.ofEdits [edit] = .ok fix ∧
      fix.apply (Text.encode source) = Text.encode after ∧
      Text.encode after = (Text.encode source).take last.stop ++
        Text.encode (",\n" ++ indent ++ component) ++ (Text.encode source).drop last.stop ∧
      (∀ c ∈ indent.toList, Text.isBlank c = true ∧ c ≠ '\n') ∧
      last.lineLead (Text.encode source) = .ok lead ∧
      ((∀ c ∈ lead.toList, Text.isBlank c = true) → indent = lead) ∧
      last.column (Text.encode source) = .ok lead.length ∧
      (∀ inserted : Cursor,
        inserted.start = last.stop + (Text.encode (",\n" ++ indent)).length →
        inserted.stop = inserted.start + (Text.encode component).length →
        inserted.text (Text.encode after) = .ok component ∧
        inserted.column (Text.encode after) = .ok lead.length) ∧
      (Text.encode source).Sublist (Text.encode after) := by
  obtain ⟨there, -⟩ := importDeclaration?_eq_some built imported
  have here : last ∈ tree.nodes := Tree.mem_nodes.2 ((Tree.mem_nodes.1 there).trans
    (Cursor.reaches_of_mem_importSpecifiers (List.mem_of_getLast? hl)).1)
  have stop := (cuts last here).2
  obtain ⟨lead, read⟩ := Cursor.exists_lineLead cuts here
  have plain := newline_not_mem_indentBelow (Text.newline_not_mem_of_lineLead read)
  have extended := extendImport?_of_unbound cuts built at_name imported hl unbound
    (specifierSeparator_of_row_ne rows read)
  obtain ⟨fix, made, only⟩ := Fix.exists_ofEdits_singleton
    (Edit.insert last.stop (",\n" ++ indentBelow lead ++ component))
  obtain ⟨after, applied⟩ := Fix.exists_applyFrom source fix.edits 0 (Text.boundary_zero source)
    (by simpa [only] using ⟨stop, stop⟩)
  have bytes : Text.encode after = (Text.encode source).take last.stop ++
      Text.encode (",\n" ++ indentBelow lead ++ component) ++ (Text.encode source).drop last.stop :=
    applied.symm.trans (Fix.apply_singleton only _)
  have length : ((Text.encode source).take last.stop).length = last.stop :=
    List.length_take_of_le stop.le_length
  refine ⟨_, fix, after, lead, indentBelow lead, extended, made, applied, bytes, ?_, read,
    indentBelow_of_blank, bind_eq_ok.2 ⟨lead, read, rfl⟩, ?_, ?_⟩
  · intro c mem
    refine ⟨blank_of_mem_indentBelow mem, ?_⟩
    rintro rfl
    exact plain mem
  · intro inserted start stop
    rw [bytes, ← length_indentBelow lead]
    exact Text.text_and_column_newline _ _ plain (by rw [start, length]) stop
  · have kept := (List.sublist_append_left ((Text.encode source).take last.stop)
      (Text.encode (",\n" ++ indentBelow lead ++ component))).append
        (List.Sublist.refl ((Text.encode source).drop last.stop))
    rwa [List.take_append_drop, ← bytes] at kept

def accentedImportSource : String :=
  "import \x7b\n\té, Box \x7d from 'm'\n<Box/>"

def accentedImportResult : String :=
  "import \x7b\n\té, Box,\n    Flex \x7d from 'm'\n<Box/>"

/-- A named node on a line that begins at an offset. -/
def nodeOnLine (row first : Nat) (kind : Kind) (start stop : Nat) (field : Option Field)
    (children : List Tree) : Tree :=
  .node { start, stop, kind, row, column := start - first, named := true, missing := false,
          hasError := false, field } children

/-- Two specifiers share the second line, behind a tab. -/
def accentedImportTree : Tree :=
  nodeOnLine 0 0 .program 0 35 none
    [nodeOnLine 0 0 .importStatement 0 28 none
      [nodeOnLine 0 0 .importClause 7 19 none
        [nodeOnLine 0 0 .namedImports 7 19 none
          [nodeOnLine 1 9 .importSpecifier 10 12 none
            [nodeOnLine 1 9 .identifier 10 12 (some .name) []],
           nodeOnLine 1 9 .importSpecifier 14 17 none
            [nodeOnLine 1 9 .identifier 14 17 (some .name) []]]],
       nodeOnLine 1 9 (.other "string") 25 28 (some .source) []],
     nodeOnLine 2 29 .jsxSelfClosingElement 29 35 none
      [nodeOnLine 2 29 .identifier 30 33 (some .name) []]]

def accentedImportTag : Cursor :=
  ((Cursor.ofRoot accentedImportTree).descend? [1]).getD default

/-- Four characters of five bytes stand before the last specifier. -/
theorem extension_keeps_column_accented :
    (∀ c ∈ accentedImportTree.nodes,
      Text.Boundary accentedImportSource c.start ∧ Text.Boundary accentedImportSource c.stop) ∧
    ∃ resolver name declaration last edit fix indent,
      Resolver.ofTree (Text.encode accentedImportSource) accentedImportTree = .ok resolver ∧
      accentedImportTag.tagName? = some name ∧
      importDeclaration? resolver name = .ok (some declaration) ∧
      declaration.importSpecifiers.getLast? = some last ∧ declaration.row ≠ last.row ∧
      extendImport? resolver accentedImportTag "Flex" = .ok (some edit) ∧
      Fix.ofEdits [edit] = .ok fix ∧
      fix.apply (Text.encode accentedImportSource) = Text.encode accentedImportResult ∧
      last.column (Text.encode accentedImportSource) = .ok 4 ∧
      ∀ inserted : Cursor, inserted.start = last.stop + (Text.encode (",\n" ++ indent)).length →
        inserted.stop = inserted.start + 4 →
        inserted.text (Text.encode accentedImportResult) = .ok "Flex" ∧
        inserted.column (Text.encode accentedImportResult) = .ok 4 := by
  have cuts : ∀ c ∈ accentedImportTree.nodes, Text.Boundary accentedImportSource c.start ∧
      Text.Boundary accentedImportSource c.stop := by decide +kernel
  have evaluated : ((Resolver.ofTree (Text.encode accentedImportSource) accentedImportTree).bind
      fun resolver => (importDeclaration? resolver (accentedImportTag.tagName?.getD default)).bind
        fun declaration? => (extendImport? resolver accentedImportTag "Flex").map
          fun edit? => (declaration?.isSome, edit?)).toOption =
      some (true, some (.insert 17 ",\n    Flex")) := by
    decide +kernel
  have at_name : accentedImportTag.tagName? = some (accentedImportTag.tagName?.getD default) := rfl
  have imports : ∀ c ∈ accentedImportTree.nodes, c.kind = .importStatement →
      (∃ last ∈ c.importSpecifiers.getLast?, c.row ≠ last.row ∧
        (last.column (Text.encode accentedImportSource)).toOption = some 4) ∧
      ∀ specifier ∈ c.importSpecifiers, ∀ bound ∈ specifier.localName?,
        (bound.text (Text.encode accentedImportSource)).toOption ≠ some "Flex" := by
    decide +kernel
  obtain ⟨resolver, built, evaluated⟩ := bind_eq_ok.1 (eq_ok_of_toOption evaluated)
  obtain ⟨declaration?, imported, evaluated⟩ := bind_eq_ok.1 evaluated
  obtain ⟨edit?, extended, evaluated⟩ := map_eq_ok.1 evaluated
  obtain ⟨found, rfl⟩ := Prod.mk.inj evaluated
  obtain ⟨declaration, rfl⟩ := Option.isSome_iff_exists.1 found
  obtain ⟨there, kind, -⟩ := importDeclaration?_eq_some built imported
  obtain ⟨⟨last, hl, rows, column⟩, unbound⟩ := imports declaration there kind
  obtain ⟨edit, fix, after, lead, indent, same, made, applied, -, -, -, -, counted, stands, -⟩ :=
    extension_keeps_column accentedImportSource accentedImportTree cuts built at_name imported hl
      rows "Flex" fun specifier hs bound at_bound read =>
        unbound specifier hs bound at_bound (by rw [read]; rfl)
  obtain rfl := Option.some.inj (Except.ok.inj (same.symm.trans extended))
  have only := List.perm_singleton.1 (Fix.perm_of_ofEdits made)
  have result : fix.apply (Text.encode accentedImportSource) = Text.encode accentedImportResult :=
    (Fix.apply_singleton only _).trans (by decide +kernel)
  have column := eq_ok_of_toOption column
  rw [← applied, result, Except.ok.inj (counted.symm.trans column)] at stands
  exact ⟨cuts, resolver, _, declaration, last, _, fix, indent, built, at_name, imported, hl, rows,
    extended, made, result, column, stands⟩

end Component
end JsxLint
