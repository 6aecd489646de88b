import JsxLint.Proofs.Command.Rewrite
import JsxLint.Proofs.Command.Sequence
import JsxLint.Proofs.Files.Store
import Mathlib.Data.List.Forall2

/-!
A run that fixes files and ends at one of them. Every file before that one is left as its own fixing
leaves it, and nothing is written from there on: a file that cannot be linted to the end is never
written in part, whichever of its passes fails. The files are taken to be different ones; where two
paths lead to one file, the second is fixed on top of the first.
-/

namespace JsxLint
namespace Store

/-- The two paths do not lead to the same place. -/
def Apart (store : Store) (a b : Path) : Prop :=
  ∀ location, store.locate? a = some location → store.locate? b ≠ some location

theorem Apart.of_ne {store : Store} {a b : Path} (ne : store.locate? a ≠ store.locate? b) :
    store.Apart a b :=
  fun _ ha hb => ne (ha.trans hb.symm)

theorem Apart.symm {store : Store} {a b : Path} (apart : store.Apart a b) : store.Apart b a :=
  fun location hb ha => apart location ha hb

end Store

namespace Command

variable {linter : Linter} {fix : Bool} {store final other_store : Store} {path other : Path}
  {paths : List Path} {report : Report} {reports : List Report} {cause : Option Failure}

theorem Lints.congr (lints : Lints linter fix store path report)
    (same : other_store.read? path = store.read? path) :
    Lints linter fix other_store path report := by
  simpa only [Lints, same] using lints

theorem Halts.congr (halts : Halts linter fix store path cause)
    (same : other_store.read? path = store.read? path) :
    Halts linter fix other_store path cause := by
  cases halts with
  | missing absent => exact .missing (same.trans absent)
  | garbled stored invalid => exact .garbled (same.trans stored) invalid
  | failing stored decoded failed => exact .failing (same.trans stored) decoded failed

theorem locate?_settle (lints : Lints linter fix store path report) (other : Path) :
    (settle store path report).locate? other = store.locate? other := by
  obtain ⟨content, -, stored, -⟩ := lints
  unfold settle
  split
  · exact Store.locate?_write stored _ other
  · rfl

theorem read?_settle_self (lints : Lints linter fix store path report) :
    (settle store path report).read? path =
      if report.modified then some (Text.encode report.source) else store.read? path := by
  obtain ⟨content, -, stored, -⟩ := lints
  unfold settle
  split
  · exact Store.read?_write_self stored _
  · rfl

theorem read?_settle_of_apart (lints : Lints linter fix store path report)
    (apart : store.Apart path other) :
    (settle store path report).read? other = store.read? other := by
  obtain ⟨content, -, stored, -⟩ := lints
  obtain ⟨location, at_path, -⟩ := Store.read?_eq_some.1 stored
  unfold settle
  split
  · refine Store.read?_write_of_ne stored _ fun same => ?_
    exact apart location at_path (same.trans at_path)
  · rfl

theorem apart_settle (lints : Lints linter fix store path report) {a b : Path}
    (apart : store.Apart a b) : (settle store path report).Apart a b := by
  intro location
  rw [locate?_settle lints, locate?_settle lints]
  exact apart location

theorem Sequence.store_eq (sequence : Sequence linter fix store paths reports final) :
    final = (paths.zip reports).foldl (fun store file => settle store file.1 file.2) store := by
  induction sequence with
  | done store => rfl
  | file lints rest ih => exact ih

theorem Sequence.read?_of_apart (sequence : Sequence linter fix store paths reports final)
    (apart : ∀ path ∈ paths, store.Apart path other) : final.read? other = store.read? other := by
  induction sequence with
  | done store => rfl
  | file lints rest ih =>
      rw [ih fun later hl => apart_settle lints (apart later (List.mem_cons_of_mem _ hl)),
        read?_settle_of_apart lints (apart _ List.mem_cons_self)]

/-- Different files do not get in each other's way: each has the report it would have alone, and at
the end it holds what that report says. -/
theorem Sequence.forall₂ (sequence : Sequence linter fix store paths reports final)
    (distinct : paths.Pairwise store.Apart) :
    List.Forall₂ (fun path report => Lints linter fix store path report ∧ final.read? path =
      if report.modified then some (Text.encode report.source) else store.read? path)
      paths reports := by
  induction sequence with
  | done store => exact .nil
  | @file store final path report paths reports lints rest ih =>
      obtain ⟨first, distinct⟩ := List.pairwise_cons.1 distinct
      refine .cons ⟨lints, ?_⟩ ?_
      · rw [rest.read?_of_apart fun later hl => apart_settle lints (first later hl).symm,
          read?_settle_self lints]
      · have same : ∀ later ∈ paths,
            (settle store path report).read? later = store.read? later :=
          fun later hl => read?_settle_of_apart lints (first later hl)
        have tail := ih (distinct.imp fun apart => apart_settle lints apart)
        refine ((List.forall₂_and_left _ _).2 ⟨same, tail⟩).imp ?_
        rintro later found ⟨unchanged, linted, held⟩
        exact ⟨linted.congr unchanged.symm, unchanged ▸ held⟩

/-- A run that fixes files, different ones, goes through them up to one that cannot be linted, or to
the end. Each file up to there holds the text of its own fixing if something was fixed and is
unchanged otherwise; these are all writes, so the file at which the run ends, all files behind it
and any other file are unchanged. Where the run ends early nothing is printed but a notice for each
file that was fixed, and its exit code is two if the file is missing or a fix could not be made. -/
theorem interrupted_fixing_writes_whole_files {parse : Bytes → Tree} {registry : Registry}
    {arguments : List String} {options : Options}
    (reads : read? arguments = some (.lint options)) (wanted : options.fix = true)
    (ready : Ready parse registry store options linter)
    (distinct : (options.paths.flatMap store.expand).Pairwise store.Apart) :
    ∃ done reports left, options.paths.flatMap store.expand = done ++ left ∧
      List.Forall₂ (fun path report => Lints linter true store path report ∧
        (run parse registry store arguments).store.read? path =
          if report.modified then some (Text.encode report.source) else store.read? path)
        done reports ∧
      (run parse registry store arguments).store =
        (done.zip reports).foldl (fun store file => settle store file.1 file.2) store ∧
      (∀ path ∈ left, (run parse registry store arguments).store.read? path = store.read? path) ∧
      (∀ other, (∀ path ∈ done, store.Apart path other) →
        (run parse registry store arguments).store.read? other = store.read? other) ∧
      ((left = [] ∧
          (run parse registry store arguments).stdout = notices done reports ++
            Report.render (Severity.leastRank options.severity) (reports.flatMap (·.issues))) ∨
        ∃ path rest cause, left = path :: rest ∧ Halts linter true store path cause ∧
          (run parse registry store arguments).stdout = notices done reports ∧
          ((run parse registry store arguments).exitCode,
            (run parse registry store arguments).failure) =
              if cause.all (·.ofFix) then (2, none) else (1, cause)) := by
  obtain ⟨done, reports, final, left, split, sequence, ending⟩ :=
    exists_sequence linter options.fix store (options.paths.flatMap store.expand)
  rw [split] at distinct
  obtain ⟨distinct_done, -, across⟩ := List.pairwise_append.1 distinct
  have untouched : ∀ path ∈ left, final.read? path = store.read? path := fun path hp =>
    sequence.read?_of_apart fun earlier he => across earlier he path hp
  have linted := sequence.forall₂ distinct_done
  rw [wanted] at linted
  obtain rfl | ⟨path, rest, cause, rfl, halts⟩ := ending
  · have collected := split.trans (List.append_nil done)
    obtain ⟨at_end, printed, -⟩ := ready.run_of_sequence reads (collected ▸ sequence)
    rw [collected] at printed
    rw [at_end]
    exact ⟨done, reports, [], split, linted, sequence.store_eq, untouched,
      fun other => sequence.read?_of_apart, .inl ⟨rfl, printed⟩⟩
  · obtain ⟨at_end, printed, codes⟩ := ready.run_of_halts reads split sequence halts
    have halts_first := halts.congr (untouched path List.mem_cons_self).symm
    rw [wanted] at halts_first
    rw [at_end]
    exact ⟨done, reports, path :: rest, split, linted, sequence.store_eq, untouched,
      fun other => sequence.read?_of_apart,
      .inr ⟨path, rest, cause, rfl, halts_first, printed, codes⟩⟩

/-- A rule that has the letter `a` in place of a leading `b`, and cannot fix what is left when
another `b` follows. -/
def leadingRule : Rule where
  id := "C1"
  name := "leading"
  severity := .error
  autoFixable := true
  description := ""
  inspect := fun context _ =>
    if context.source = Text.encode "ab\n" then
      Logged.ofExcept (.error (.missingImport "Box" .noDeclaration))
    else if context.source ∈ [Text.encode "b\n", Text.encode "bb\n"] then
      pure (some ⟨"", [], some letterFix⟩)
    else
      pure none

def leadingLinter : Linter :=
  ⟨lineLinter.parse, [leadingRule]⟩

/-- Three files, of which the second one fails in its second pass. -/
def leadingStore : Store where
  root := .folder
    [("a.tsx", .file (Text.encode "b\n")), ("b.tsx", .file (Text.encode "bb\n")),
      ("c.tsx", .file (Text.encode "b\n"))]
  current := []

def leadingPath (name : String) : Path :=
  ⟨"", [name]⟩

def leadingOptions : Options where
  paths := [leadingPath "a.tsx", leadingPath "b.tsx", leadingPath "c.tsx"]
  fix := true

theorem ready_leading :
    Ready lineLinter.parse ⟨[leadingRule]⟩ leadingStore leadingOptions leadingLinter where
  given := by decide
  plain := by decide
  known := by decide
  settings := ⟨.standard, rfl, rfl⟩

theorem lints_leading : Lints leadingLinter true leadingStore (leadingPath "a.tsx")
    ⟨"a\n", [], 2, 1⟩ :=
  ⟨_, _, rfl, Text.decode?_encode "b\n", eq_ok_of_toOption (by decide +kernel)⟩

theorem halts_leading : Halts leadingLinter true leadingStore (leadingPath "b.tsx")
    (some (.missingImport "Box" .noDeclaration)) :=
  .failing rfl (Text.decode?_encode "bb\n") (by decide +kernel)

/-- The first file is fixed; the second one is not, although its first pass had a fix. -/
theorem interrupted_fixing_writes_whole_files_second_pass :
    let ended := run lineLinter.parse ⟨[leadingRule]⟩ leadingStore
      ["lint", "--fix", "a.tsx", "b.tsx", "c.tsx"]
    ended.store.read? (leadingPath "a.tsx") = some (Text.encode "a\n") ∧
      ended.store.read? (leadingPath "b.tsx") = some (Text.encode "bb\n") ∧
      ended.store.read? (leadingPath "c.tsx") = some (Text.encode "b\n") ∧
      ended.exitCode = 2 ∧
      ended.stdout = Report.printed "  🔧 Fixed 1 issue(s) in a.tsx" := by
  intro ended
  have distinct : leadingOptions.paths.Pairwise leadingStore.Apart := by
    refine List.Pairwise.imp Store.Apart.of_ne ?_
    decide
  have reads : read? ["lint", "--fix", "a.tsx", "b.tsx", "c.tsx"] =
      some (.lint leadingOptions) := by
    decide +kernel
  obtain ⟨done, reports, left, split, each, -, kept, -, ending⟩ :=
    interrupted_fixing_writes_whole_files reads rfl ready_leading distinct
  change leadingOptions.paths = done ++ left at split
  rw [leadingOptions] at split
  -- The first file can be linted and the second cannot, so the run ends at the second.
  cases each with
  | nil =>
      obtain ⟨rfl, -⟩ | ⟨path, rest, cause, rfl, halts, -⟩ := ending
      · cases split
      · cases split
        exact absurd halts lints_leading.not_halts
  | cons first others =>
      rw [List.cons_append, List.cons.injEq] at split
      obtain ⟨rfl, split⟩ := split
      cases others with
      | cons second _ =>
          rw [List.cons_append, List.cons.injEq] at split
          obtain ⟨rfl, -⟩ := split
          exact absurd halts_leading second.1.not_halts
      | nil =>
          cases split
          cases first.1.unique lints_leading
          obtain ⟨none, -⟩ | ⟨path, rest, cause, same, halts, printed, codes⟩ := ending
          · cases none
          · cases same
            cases halts.unique halts_leading
            obtain ⟨exitCode, -⟩ := Prod.mk.inj codes
            have noticed : notices [leadingPath "a.tsx"] [⟨"a\n", [], 2, 1⟩] =
                Report.printed "  🔧 Fixed 1 issue(s) in a.tsx" := by
              decide +kernel
            exact ⟨first.2, kept _ (by simp), kept _ (by simp), exitCode, printed.trans noticed⟩

end Command
end JsxLint
