import JsxLint.Command.Run
import JsxLint.Proofs.Success

/-!
Files that are linted one after the other. Each is linted in the store that the ones before it left,
and the first that cannot be linted ends the sequence. A run of the command is such a sequence with
a report or a message at its end; what is recorded on the way goes to the standard error stream and
is not considered.
-/

namespace JsxLint
namespace Command

/-- The file at a path is read as a text, which is linted to a report. -/
def Lints (linter : Linter) (fix : Bool) (store : Store) (path : Path) (report : Report) : Prop :=
  ∃ content text, store.read? path = some content ∧ Text.decode? content = some text ∧
    (linter.process fix path (Text.unifyNewlines text)).result = .ok report

/-- Why the file at a path cannot be linted; a missing file is not a failure. -/
inductive Halts (linter : Linter) (fix : Bool) (store : Store) (path : Path) :
    Option Failure → Prop where
  | missing (absent : store.read? path = none) : Halts linter fix store path none
  | garbled {content : Bytes} (stored : store.read? path = some content)
      (invalid : Text.decode? content = none) : Halts linter fix store path (some .notUtf8)
  | failing {content : Bytes} {text : String} {cause : Failure}
      (stored : store.read? path = some content) (decoded : Text.decode? content = some text)
      (failed : (linter.process fix path (Text.unifyNewlines text)).result = .error cause) :
      Halts linter fix store path (some cause)

/-- The store after a file is linted: the file is written if something was fixed. -/
def settle (store : Store) (path : Path) (report : Report) : Store :=
  if report.modified then store.write path (Text.encode report.source) else store

/-- What is printed about a file in which something was fixed. -/
def notice (path : Path) (report : Report) : String :=
  if report.modified then
    Report.printed ("  🔧 Fixed " ++ toString report.fixed ++ " issue(s) in " ++ path.name)
  else
    ""

def notices (paths : List Path) (reports : List Report) : String :=
  String.join (List.zipWith notice paths reports)

/-- Files are linted one after the other, each with its report, from one store to another. -/
inductive Sequence (linter : Linter) (fix : Bool) :
    Store → List Path → List Report → Store → Prop where
  | done (store : Store) : Sequence linter fix store [] [] store
  | file {store final : Store} {path : Path} {report : Report} {paths : List Path}
      {reports : List Report} (lints : Lints linter fix store path report)
      (rest : Sequence linter fix (settle store path report) paths reports final) :
      Sequence linter fix store (path :: paths) (report :: reports) final

variable {linter : Linter} {fix : Bool} {options : Options} {store final : Store} {path : Path}
  {paths : List Path} {report : Report} {reports : List Report} {cause : Option Failure}

theorem lints_or_halts (linter : Linter) (fix : Bool) (store : Store) (path : Path) :
    (∃ report, Lints linter fix store path report) ∨
      ∃ cause, Halts linter fix store path cause := by
  cases stored : store.read? path with
  | none => exact .inr ⟨none, .missing stored⟩
  | some content =>
      cases decoded : Text.decode? content with
      | none => exact .inr ⟨_, .garbled stored decoded⟩
      | some text =>
          cases linted : (linter.process fix path (Text.unifyNewlines text)).result with
          | error cause => exact .inr ⟨_, .failing stored decoded linted⟩
          | ok report => exact .inl ⟨report, content, text, stored, decoded, linted⟩

theorem Lints.unique {other : Report} (lints : Lints linter fix store path report)
    (lints_other : Lints linter fix store path other) : report = other := by
  obtain ⟨content, text, stored, decoded, linted⟩ := lints
  obtain ⟨content', text', stored', decoded', linted'⟩ := lints_other
  cases stored.symm.trans stored'
  cases decoded.symm.trans decoded'
  exact Except.ok.inj (linted.symm.trans linted')

theorem Halts.unique {other : Option Failure} (halts : Halts linter fix store path cause)
    (halts_other : Halts linter fix store path other) : cause = other := by
  cases halts <;> cases halts_other <;> simp_all

theorem Lints.not_halts (lints : Lints linter fix store path report) :
    ¬ Halts linter fix store path cause := by
  obtain ⟨content, text, stored, decoded, linted⟩ := lints
  rintro (absent | ⟨stored', invalid⟩ | ⟨stored', decoded', failed⟩)
  · cases stored.symm.trans absent
  · cases stored.symm.trans stored'
    cases decoded.symm.trans invalid
  · cases stored.symm.trans stored'
    cases decoded.symm.trans decoded'
    cases linted.symm.trans failed

theorem exists_sequence (linter : Linter) (fix : Bool) (store : Store) (paths : List Path) :
    ∃ done reports final left, paths = done ++ left ∧
      Sequence linter fix store done reports final ∧
      (left = [] ∨ ∃ path rest cause, left = path :: rest ∧
        Halts linter fix final path cause) := by
  induction paths generalizing store with
  | nil => exact ⟨[], [], store, [], rfl, .done store, .inl rfl⟩
  | cons path paths ih =>
      obtain ⟨report, lints⟩ | ⟨cause, halts⟩ := lints_or_halts linter fix store path
      · obtain ⟨done, reports, final, left, split, sequence, ending⟩ :=
          ih (settle store path report)
        exact ⟨path :: done, report :: reports, final, left, by rw [split, List.cons_append],
          .file lints sequence, ending⟩
      · exact ⟨[], [], store, path :: paths, rfl, .done store,
          .inr ⟨path, paths, cause, rfl, halts⟩⟩

theorem lintFile_of_lints {progress : Progress}
    (lints : Lints linter options.fix progress.store path report) :
    ∃ next, lintFile linter options progress path = .ok next ∧
      next.store = settle progress.store path report ∧
      next.stdout = progress.stdout ++ notice path report ∧
      next.issues = progress.issues ++ report.issues := by
  obtain ⟨content, text, stored, decoded, linted⟩ := lints
  simp only [lintFile, stored, decoded, linted]
  refine ⟨_, rfl, ?_⟩
  unfold finish settle notice
  split <;> simp [Progress.log]

/-- A file that cannot be linted ends the run where it stands. Its exit code is two if there is a
message for the cause. -/
theorem lintFile_of_halts {progress : Progress}
    (halts : Halts linter options.fix progress.store path cause) :
    ∃ run, lintFile linter options progress path = .error run ∧ run.store = progress.store ∧
      run.stdout = progress.stdout ∧
      (run.exitCode, run.failure) = if cause.all (·.ofFix) then (2, none) else (1, cause) := by
  cases halts with
  | missing absent =>
      simp only [lintFile, absent]
      exact ⟨_, rfl, rfl, rfl, rfl⟩
  | garbled stored invalid =>
      simp only [lintFile, stored, invalid]
      exact ⟨_, rfl, rfl, rfl, rfl⟩
  | @failing _ _ cause stored decoded failed =>
      simp only [lintFile, stored, decoded, failed, Option.all_some]
      refine ⟨_, rfl, ?_⟩
      unfold fail
      split <;> exact ⟨rfl, rfl, rfl⟩

theorem Sequence.foldlM (sequence : Sequence linter options.fix store paths reports final)
    (progress : Progress) (start : progress.store = store) :
    ∃ next, paths.foldlM (lintFile linter options) progress = .ok next ∧ next.store = final ∧
      next.stdout = progress.stdout ++ notices paths reports ∧
      next.issues = progress.issues ++ reports.flatMap (·.issues) := by
  induction sequence generalizing progress with
  | done store => exact ⟨progress, rfl, start, by simp [notices], by simp⟩
  | @file store final path report paths reports lints rest ih =>
      obtain ⟨between, linted, at_store, printed, issues⟩ :=
        lintFile_of_lints (start ▸ lints)
      obtain ⟨next, folded, at_end, printed_rest, issues_rest⟩ := ih between (start ▸ at_store)
      refine ⟨next, ?_, at_end, ?_, ?_⟩
      · rw [List.foldlM_cons, linted]
        exact folded
      · rw [printed_rest, printed, String.append_assoc]
        simp [notices, String.join_cons]
      · simp [issues_rest, issues]

/-- A run gets as far as its files: there is a path, no name is one that cannot be looked up, and
the linter checks the rules that the settings ask for. -/
structure Ready (parse : Bytes → Tree) (registry : Registry) (store : Store) (options : Options)
    (linter : Linter) : Prop where
  given : options.paths ≠ []
  plain : ∀ path ∈ options.config :: options.paths, path.hasNull = false
  known : ∀ path ∈ options.config :: options.paths, store.refuses path = false
  settings : ∃ settings,
    (Settings.load options.config (configuration store options.config)).result = .ok settings ∧
      linter = ⟨parse, settings.rules registry⟩

section

variable {parse : Bytes → Tree} {registry : Registry} {arguments : List String}
  (reads : read? arguments = some (.lint options))
  (ready : Ready parse registry store options linter)

include reads ready

theorem Ready.run_eq : ∃ progress, run parse registry store arguments =
    lintAll linter options progress ∧ progress.store = store ∧ progress.stdout = "" ∧
      progress.issues = [] := by
  obtain ⟨settings, loaded, rfl⟩ := ready.settings
  have plain : (options.config :: options.paths).any (·.hasNull) = false := by
    simpa only [List.any_eq_false, Bool.not_eq_true] using ready.plain
  have given : options.paths.isEmpty = false := by simpa using ready.given
  have known := ready.known
  rw [List.forall_mem_cons] at known
  have paths_known : options.paths.any store.refuses = false := by
    simpa only [List.any_eq_false, Bool.not_eq_true] using known.2
  simp only [run, reads, runLint, plain, given, known.1, loaded, Bool.false_eq_true, if_false,
    lintPaths, Progress.log, Progress.start, paths_known]
  exact ⟨_, rfl, rfl, rfl, rfl⟩

/-- A run that lints all its files ends with the report on them. -/
theorem Ready.run_of_sequence
    (sequence : Sequence linter options.fix store (options.paths.flatMap store.expand) reports
      final) :
    (run parse registry store arguments).store = final ∧
    (run parse registry store arguments).stdout =
      notices (options.paths.flatMap store.expand) reports ++
        Report.render (Severity.leastRank options.severity) (reports.flatMap (·.issues)) ∧
    (run parse registry store arguments).exitCode =
      Report.exitCode (reports.flatMap (·.issues)) ∧
    (run parse registry store arguments).failure = none := by
  obtain ⟨progress, run_eq, rfl, silent, none⟩ := ready.run_eq reads
  obtain ⟨next, folded, at_end, printed, issues⟩ := sequence.foldlM progress rfl
  rw [silent, String.empty_append] at printed
  rw [none, List.nil_append] at issues
  rw [run_eq]
  simp only [lintAll, folded, at_end, printed, issues, and_self]

/-- A run that comes to a path ends there if linting the path ends it. -/
theorem Ready.run_of_error {done rest : List Path}
    (collected : options.paths.flatMap store.expand = done ++ path :: rest)
    (sequence : Sequence linter options.fix store done reports final) :
    ∃ progress, progress.store = final ∧ progress.stdout = notices done reports ∧
      ∀ ended, lintFile linter options progress path = .error ended →
        run parse registry store arguments = ended := by
  obtain ⟨progress, run_eq, rfl, silent, -⟩ := ready.run_eq reads
  obtain ⟨next, folded, rfl, printed, -⟩ := sequence.foldlM progress rfl
  rw [silent, String.empty_append] at printed
  refine ⟨next, rfl, printed, fun ended halted => ?_⟩
  have stopped : (done ++ path :: rest).foldlM (lintFile linter options) progress =
      .error ended := by
    rw [List.foldlM_append, folded]
    change (path :: rest).foldlM (lintFile linter options) next = _
    rw [List.foldlM_cons, halted]
    rfl
  rw [run_eq, lintAll]
  simp only [collected, stopped]

/-- A run that meets a file that cannot be linted ends there. -/
theorem Ready.run_of_halts {done rest : List Path}
    (collected : options.paths.flatMap store.expand = done ++ path :: rest)
    (sequence : Sequence linter options.fix store done reports final)
    (halts : Halts linter options.fix final path cause) :
    (run parse registry store arguments).store = final ∧
    (run parse registry store arguments).stdout = notices done reports ∧
    ((run parse registry store arguments).exitCode, (run parse registry store arguments).failure) =
      if cause.all (·.ofFix) then (2, none) else (1, cause) := by
  obtain ⟨progress, rfl, printed, ends⟩ := ready.run_of_error reads collected sequence
  obtain ⟨ended, halted, at_store, printed_last, codes⟩ := lintFile_of_halts halts
  rw [ends ended halted]
  exact ⟨at_store, printed_last.trans printed, codes⟩

end

/-- A run that does not get as far as its files ends with the code of a failure. -/
theorem ready_or_exitCode_eq_one {parse : Bytes → Tree} {registry : Registry}
    {arguments : List String} (reads : read? arguments = some (.lint options)) :
    (∃ linter, Ready parse registry store options linter) ∨
      (run parse registry store arguments).exitCode = 1 := by
  simp only [run, reads, runLint]
  split
  case isTrue => exact .inr rfl
  case isFalse plain =>
    split
    case isTrue => exact .inr rfl
    case isFalse given =>
      split
      case isTrue => exact .inr rfl
      case isFalse config =>
        split
        case h_1 settings loaded =>
          unfold lintPaths
          split
          case isTrue => exact .inr rfl
          case isFalse paths =>
            simp only [Bool.not_eq_true, List.any_eq_false] at plain paths
            refine .inl ⟨_, by simpa using given, plain, ?_, settings, loaded, rfl⟩
            exact List.forall_mem_cons.2 ⟨by simpa using config, paths⟩
        case h_2 => exact .inr rfl

end Command
end JsxLint
