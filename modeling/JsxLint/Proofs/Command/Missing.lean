import JsxLint.Proofs.Command.Interruption
import JsxLint.Proofs.Files.Expansion

/-!
Runs that end at a path without a file. A folder that is given by name stands for everything below
it that is named like a source, and a folder among these has no content to lint: the run comes to
it, says that it does not exist, and ends. Where no folder is named like a source, a given folder
stands for the source files below it and no run on it ends that way.
-/

namespace JsxLint
namespace Text

/-- The character has no place in a control sequence. -/
def standsApart (c : Char) : Bool :=
  c ≠ escapeCharacter && c ≠ '[' && !isParameter c && !c.isAlpha

/-- No sequence reaches over a character that has no place in one, so what follows it is kept. -/
theorem exists_dropSequences_append (held front : List Char) {back : List Char} {c : Char}
    (apart : standsApart c = true) (plain : escapeCharacter ∉ back) :
    ∃ kept, dropSequences held (front ++ c :: back) = kept ++ c :: back := by
  simp only [standsApart, Bool.and_eq_true, decide_eq_true_eq, Bool.not_eq_true'] at apart
  obtain ⟨⟨⟨no_escape, no_bracket⟩, no_parameter⟩, no_letter⟩ := apart
  induction front generalizing held with
  | nil =>
      -- Whatever is held back by now turns out to be no sequence.
      have stays : continues held c = false := by
        unfold continues
        split <;> simp [no_escape, no_bracket, no_parameter]
      have open_end : completes held c = false := by simp [completes, no_letter]
      refine ⟨held.reverse, ?_⟩
      rw [List.nil_append, dropSequences, stays, open_end]
      simp [no_escape, dropSequences_of_not_mem plain]
  | cons first front ih =>
      rw [List.cons_append, dropSequences]
      split
      case isTrue => exact ih _
      case isFalse =>
        split
        case isTrue => exact ih _
        case isFalse =>
          split
          case isTrue =>
            obtain ⟨kept, rest⟩ := ih [first]
            exact ⟨held.reverse ++ kept, by rw [rest, List.append_assoc]⟩
          case isFalse =>
            obtain ⟨kept, rest⟩ := ih []
            exact ⟨held.reverse ++ first :: kept, by rw [rest]; simp⟩

end Text

theorem Report.suffix_printed {message : String} {front back : List Char} {c : Char}
    (ending : message.toList = front ++ c :: back) (apart : Text.standsApart c = true)
    (plain : Text.escapeCharacter ∉ back) : c :: back ++ ['\n'] <:+ (printed message).toList := by
  obtain ⟨kept, dropped⟩ := Text.exists_dropSequences_append [] front apart plain
  refine ⟨kept, ?_⟩
  simp [printed, Text.withoutSequences, ending, dropped]

/-- A message about a fix that could not be made ends with a full stop or a parenthesis. -/
theorem Failure.exists_message_eq {cause : Failure} (reported : cause.ofFix = true) :
    ∃ front c, cause.message.toList = front ++ [c] ∧ (c = '.' ∨ c = ')') := by
  cases cause with
  | missingImport component gap =>
      obtain ⟨front, ending⟩ : ∃ front, gap.message.toList = front ++ ['.'] := by
        cases gap
        · exact ⟨"No ImportDeclaration found".toList, by decide⟩
        · exact ⟨"Import declaration has no named specifiers".toList, by decide⟩
      refine ⟨("Cannot import '" ++ component ++ "': ").toList ++ front, '.', ?_, .inl rfl⟩
      change ("Cannot import '" ++ component ++ "': " ++ gap.message).toList = _
      rw [String.toList_append, ending, List.append_assoc]
  | overlappingEdits later earlier =>
      obtain ⟨front, ending⟩ : ∃ front, earlier.render.toList = front ++ [')'] := by
        rw [Span.render, Span.renderEnds, String.toList_append]
        exact ⟨_, rfl⟩
      refine ⟨("Edit " ++ later.render ++ " overlaps ").toList ++ front, ')', ?_, .inr rfl⟩
      change ("Edit " ++ later.render ++ " overlaps " ++ earlier.render).toList = _
      rw [String.toList_append, ending, List.append_assoc]
  | _ => cases reported

/-- The run ended with the message that a path does not exist. -/
def Run.EndsMissing (run : Run) : Prop :=
  run.exitCode = 2 ∧ " does not exist\n".toList <:+ run.stderr.toList

instance (run : Run) : Decidable run.EndsMissing :=
  inferInstanceAs (Decidable (_ ∧ _))

theorem Progress.endsMissing_stop (progress : Progress) (path : Path) :
    (progress.stop 2 ("Error: " ++ path.render ++ " does not exist")).EndsMissing := by
  have ending : ("Error: " ++ path.render ++ " does not exist").toList =
      ("Error: " ++ path.render).toList ++ ' ' :: "does not exist".toList := by
    simp
  have printed := Report.suffix_printed ending (by decide) (by decide)
  refine ⟨rfl, List.IsSuffix.trans printed ?_⟩
  simp [stop]

theorem Progress.not_endsMissing_crash (progress : Progress) (cause : Failure) :
    ¬ (progress.crash cause).EndsMissing :=
  fun ends => absurd (show 1 = 2 from ends.1) (by decide)

namespace Command

variable {parse : Bytes → Tree} {registry : Registry} {linter : Linter} {fix : Bool}
  {options : Options} {store final : Store} {path other : Path} {paths : List Path}
  {report : Report} {reports : List Report} {cause : Option Failure} {arguments : List String}
  {entries : List (String × Entry)}

theorem not_endsMissing_fail (progress : Progress) (verbose : Bool) (path : Path)
    (cause : Failure) : ¬ (fail progress verbose path cause).EndsMissing := by
  unfold fail
  split
  case isTrue reported =>
    rintro ⟨-, missing⟩
    obtain ⟨front, c, ending, last⟩ := Failure.exists_message_eq reported
    have whole : ("Error: " ++ path.render ++ ": " ++ cause.message).toList =
        ("Error: " ++ path.render ++ ": ").toList ++ front ++ c :: [] := by
      simp [ending]
    have apart : Text.standsApart c = true := by rcases last with rfl | rfl <;> decide
    have printed : [c, '\n'] <:+ ((progress.log verbose [.lintingFailed path]).stop 2
        ("Error: " ++ path.render ++ ": " ++ cause.message)).stderr.toList :=
      (Report.suffix_printed whole apart List.not_mem_nil).trans (by simp [Progress.stop])
    -- Both messages end the same stream, with different characters before the line end.
    have told : ['t', '\n'] <:+ " does not exist\n".toList := by decide
    have same := List.suffix_of_suffix_length_le printed (told.trans missing) le_rfl
    cases same.eq_of_length rfl
    rcases last with h | h <;> cases h
  case isFalse => exact progress.not_endsMissing_crash cause

/-- Of all that can end a run at a path, only a path without a file gives the message. -/
theorem endsMissing_lintFile {progress : Progress} {ended : Run}
    (halts : Halts linter options.fix progress.store path cause)
    (halted : lintFile linter options progress path = .error ended) :
    ended.EndsMissing ↔ cause = none := by
  cases halts with
  | missing absent =>
      simp only [lintFile, absent] at halted
      cases halted
      exact iff_of_true (progress.endsMissing_stop path) rfl
  | garbled stored invalid =>
      simp only [lintFile, stored, invalid] at halted
      cases halted
      exact iff_of_false (progress.not_endsMissing_crash _) (by simp)
  | failing stored decoded failed =>
      simp only [lintFile, stored, decoded, failed] at halted
      cases halted
      exact iff_of_false (not_endsMissing_fail _ _ _ _) (by simp)

/-- Linting a file takes no file away and brings none. -/
theorem read?_settle_eq_none_iff (lints : Lints linter fix store path report) :
    (settle store path report).read? other = none ↔ store.read? other = none := by
  by_cases same : store.locate? path = store.locate? other
  · have there : store.read? other = store.read? path := by
      simp only [Store.read?, Store.get?, same]
    have after : (settle store path report).read? other =
        (settle store path report).read? path := by
      simp only [Store.read?, Store.get?, locate?_settle lints, same]
    rw [after, there, read?_settle_self lints]
    obtain ⟨content, _, stored, _⟩ := lints
    rw [stored]
    split <;> simp
  · rw [read?_settle_of_apart lints (.of_ne same)]

theorem Sequence.read?_eq_none_iff (sequence : Sequence linter fix store paths reports final) :
    final.read? other = none ↔ store.read? other = none := by
  induction sequence with
  | done store => rfl
  | file lints rest ih => rw [ih, read?_settle_eq_none_iff lints]

/-- A run ends with the message if and only if it comes to a path without a file. -/
theorem endsMissing_run_iff (reads : read? arguments = some (.lint options)) :
    (run parse registry store arguments).EndsMissing ↔
      ∃ linter done path rest reports final, Ready parse registry store options linter ∧
        options.paths.flatMap store.expand = done ++ path :: rest ∧
        Sequence linter options.fix store done reports final ∧ store.read? path = none := by
  constructor
  · intro ends
    obtain ⟨linter, ready⟩ | failed := ready_or_exitCode_eq_one reads
    · obtain ⟨done, reports, final, left, split, sequence, ending⟩ :=
        exists_sequence linter options.fix store (options.paths.flatMap store.expand)
      obtain rfl | ⟨path, rest, cause, rfl, halts⟩ := ending
      · have collected := split.trans (List.append_nil done)
        obtain ⟨-, -, code, -⟩ := ready.run_of_sequence reads (collected ▸ sequence)
        have two := code.symm.trans ends.1
        unfold Report.exitCode at two
        split at two <;> cases two
      · obtain ⟨progress, rfl, -, ends_at⟩ := ready.run_of_error reads split sequence
        obtain ⟨ended, halted, -⟩ := lintFile_of_halts halts
        rw [ends_at ended halted, endsMissing_lintFile halts halted] at ends
        subst ends
        cases halts with
        | missing absent =>
            exact ⟨linter, done, path, rest, reports, _, ready, split, sequence,
              sequence.read?_eq_none_iff.1 absent⟩
    · exact absurd (failed.symm.trans ends.1) (by decide)
  · rintro ⟨linter, done, path, rest, reports, final, ready, split, sequence, absent⟩
    obtain ⟨progress, rfl, -, ends_at⟩ := ready.run_of_error reads split sequence
    have halts : Halts linter options.fix progress.store path none :=
      .missing (sequence.read?_eq_none_iff.2 absent)
    obtain ⟨ended, halted, -⟩ := lintFile_of_halts halts
    rw [ends_at ended halted]
    exact (endsMissing_lintFile halts halted).2 rfl

/-- A folder that is given by name stands for what is named like a source below it, in order and
each once. These are exactly the source files if and only if no folder is named like a source, and a
run on the folder ends with the message that a path does not exist if and only if it comes to such a
folder, having linted all files before it. -/
theorem folder_expands_to_files_iff (proper : store.root.Proper)
    (here : store.get? path = some (.folder entries)) :
    (store.expand path).Pairwise (fun a b => a.le b = true) ∧ (store.expand path).Nodup ∧
    (∀ source, source ∈ store.expand path ↔
      ∃ entry, Store.SourceAt path (.folder entries) source entry) ∧
    ((∀ source, source ∈ store.expand path ↔
        ∃ content, Store.SourceAt path (.folder entries) source (.file content)) ↔
      ∀ source inner, ¬ Store.SourceAt path (.folder entries) source (.folder inner)) ∧
    ∀ parse registry arguments options, read? arguments = some (.lint options) →
      options.paths = [path] →
      ((run parse registry store arguments).EndsMissing ↔
        ∃ linter done source rest reports final inner,
          Ready parse registry store options linter ∧
          store.expand path = done ++ source :: rest ∧
          Sequence linter options.fix store done reports final ∧
          Store.SourceAt path (.folder entries) source (.folder inner)) := by
  refine ⟨Store.pairwise_expand here, Store.nodup_expand proper here,
    fun source => Store.mem_expand proper here, Store.mem_expand_iff_file_iff proper here, ?_⟩
  intro parse registry arguments options reads given
  have collected : options.paths.flatMap store.expand = store.expand path := by simp [given]
  rw [endsMissing_run_iff reads, collected]
  constructor
  · rintro ⟨linter, done, source, rest, reports, final, ready, split, sequence, absent⟩
    have mem : source ∈ store.expand path := by simp [split]
    obtain ⟨inner, folder⟩ := (Store.read?_eq_none_iff_of_mem_expand proper here mem).1 absent
    exact ⟨linter, done, source, rest, reports, final, inner, ready, split, sequence, folder⟩
  · rintro ⟨linter, done, source, rest, reports, final, inner, ready, split, sequence, folder⟩
    have mem : source ∈ store.expand path := by simp [split]
    exact ⟨linter, done, source, rest, reports, final, ready, split, sequence,
      (Store.read?_eq_none_iff_of_mem_expand proper here mem).2 ⟨inner, folder⟩⟩

/-- A folder with a source, another source further below and a file of another kind. -/
def nestedEntries : List (String × Entry) :=
  [("b.jsx", .file []), ("e", .folder [("a.tsx", .file [])]), ("notes.md", .file [])]

def nestedStore : Store where
  root := .folder [("d", .folder nestedEntries)]
  current := []

/-- The two sources are collected, and a run on the folder does not end with the message. -/
theorem folder_expands_to_files_iff_nested :
    nestedStore.expand ⟨"", ["d"]⟩ = [⟨"", ["d", "b.jsx"]⟩, ⟨"", ["d", "e", "a.tsx"]⟩] ∧
    ¬ (run (fun _ => default) .builtin nestedStore ["lint", "d"]).EndsMissing := by
  have proper : nestedStore.root.Proper := by
    simp [nestedStore, nestedEntries, Entry.Proper, Entry.ProperAll]
  have here : nestedStore.get? ⟨"", ["d"]⟩ = some (.folder nestedEntries) := rfl
  have named : (((Entry.folder nestedEntries).descendants.map (Path.join ⟨"", ["d"]⟩)).filter
      fun candidate => Store.sourceSuffixes.contains candidate.suffix) =
        [⟨"", ["d", "b.jsx"]⟩, ⟨"", ["d", "e", "a.tsx"]⟩] := by
    decide +kernel
  have collected : nestedStore.expand ⟨"", ["d"]⟩ =
      [⟨"", ["d", "b.jsx"]⟩, ⟨"", ["d", "e", "a.tsx"]⟩] := by
    rw [Store.expand_eq here, named, List.mergeSort_of_pairwise (by decide +kernel)]
  obtain ⟨-, -, listed, -, ends⟩ := folder_expands_to_files_iff proper here
  refine ⟨collected, fun missing => ?_⟩
  rw [ends _ _ _ { paths := [⟨"", ["d"]⟩] } (by decide +kernel) rfl] at missing
  obtain ⟨linter, done, source, rest, reports, final, inner, -, -, -, folder⟩ := missing
  have mem := (listed source).2 ⟨_, folder⟩
  have found := folder.get? proper here
  rw [collected] at mem
  simp only [List.mem_cons, List.not_mem_nil, or_false] at mem
  rcases mem with rfl | rfl <;> cases found

/-- A folder that holds an empty folder named like a source. -/
def sourceFolderStore : Store where
  root := .folder [("d", .folder [("x.tsx", .folder [])])]
  current := []

/-- The path of the empty folder is collected although no file is there, and the run ends with the
message that it does not exist. -/
theorem folder_named_like_source_ends_run :
    sourceFolderStore.root.Proper ∧
    sourceFolderStore.get? ⟨"", ["d"]⟩ = some (.folder [("x.tsx", .folder [])]) ∧
    ⟨"", ["d", "x.tsx"]⟩ ∈ sourceFolderStore.expand ⟨"", ["d"]⟩ ∧
    sourceFolderStore.get? ⟨"", ["d", "x.tsx"]⟩ = some (.folder []) ∧
    (run (fun _ => default) .builtin sourceFolderStore ["lint", "d"]).EndsMissing := by
  refine ⟨?_, rfl, by decide +kernel, rfl, by decide +kernel⟩
  simp [sourceFolderStore, Entry.Proper, Entry.ProperAll]

end Command
end JsxLint
