import JsxLint.Proofs.Command.Sequence
import JsxLint.Proofs.Files.Path
import JsxLint.Proofs.Linter.Selection
import Mathlib.Data.String.Basic
import Mathlib.Tactic.Choose

/-!
What the report of a run depends on. The issues of all files are sorted by the text of their path,
and paths in normal form have different texts, so issues that tie come from one path, which gives
the same issues in the same order whenever it is given. Hence the order of the paths does not
matter, unless files are fixed on the way. The severity that is asked for decides on nothing but
which issues are printed.
-/

namespace JsxLint
namespace Issue

theorem reportLe_trans (a b c : Issue) (hab : a.reportLe b = true) (hbc : b.reportLe c = true) :
    a.reportLe c = true := by
  simp only [reportLe, decide_eq_true_eq] at *
  rcases hab with hab | ⟨same_ab, hab⟩
  · rcases hbc with hbc | ⟨same_bc, -⟩
    · exact .inl (hab.trans hbc)
    · exact .inl (same_bc ▸ hab)
  · rcases hbc with hbc | ⟨same_bc, hbc⟩
    · exact .inl (same_ab ▸ hbc)
    · exact .inr ⟨same_ab.trans same_bc, le_trans a b c hab hbc⟩

theorem reportLe_total (a b : Issue) : (a.reportLe b || b.reportLe a) = true := by
  simp only [reportLe, Bool.or_eq_true, decide_eq_true_eq]
  rcases lt_trichotomy a.path.render b.path.render with lt | same | gt
  · exact .inl (.inl lt)
  · have := le_total a b
    rw [Bool.or_eq_true] at this
    exact this.imp (fun le => .inr ⟨same, le⟩) fun le => .inr ⟨same.symm, le⟩
  · exact .inr (.inl gt)

theorem render_eq_of_tied {a b : Issue} (tie : StableSort.tied reportLe a b = true) :
    a.path.render = b.path.render := by
  simp only [StableSort.tied, reportLe, Bool.and_eq_true, decide_eq_true_eq] at tie
  obtain ⟨lt | ⟨same, -⟩, gt | ⟨same', -⟩⟩ := tie
  · exact absurd gt lt.asymm
  · exact same'.symm
  · exact same
  · exact same

end Issue

namespace Report

/-- The lines of a report on issues, without its summary. -/
def entries (least : Nat) (issues : List Issue) : List String :=
  (shown least issues).map fun issue => printed issue.render

theorem render_eq (least : Nat) (issues : List Issue) :
    render least issues = String.join (entries least issues) ++
      printed (summary issues.length (entries least issues).length) := by
  simp [render, entries]

theorem entries_sublist {least more : Nat} (le : least ≤ more) (issues : List Issue) :
    (entries more issues).Sublist (entries least issues) := by
  refine List.Sublist.map _ (List.monotone_filter_right _ fun issue shown => ?_)
  simp only [decide_eq_true_eq] at shown ⊢
  exact le.trans shown

theorem exitCode_eq (issues : List Issue) :
    exitCode issues = if ∃ issue ∈ issues, issue.severity = .error then 1 else 0 := by
  simp [exitCode]

variable {paths others : List Path} {found : Path → List Issue}

/-- Only the files whose path has the text of the issue's path have issues that tie with it. -/
theorem filter_tied_flatMap (origin : ∀ path ∈ paths, ∀ issue ∈ found path, issue.path = path)
    (issue : Issue) :
    (paths.flatMap found).filter (StableSort.tied Issue.reportLe issue) =
      (paths.filter fun path => path.render = issue.path.render).flatMap fun path =>
        (found path).filter (StableSort.tied Issue.reportLe issue) := by
  induction paths with
  | nil => rfl
  | cons path paths ih =>
      rw [List.forall_mem_cons] at origin
      rw [List.flatMap_cons, List.filter_append, ih origin.2]
      by_cases same : path.render = issue.path.render
      · rw [List.filter_cons_of_pos (by simpa using same), List.flatMap_cons]
      · rw [List.filter_cons_of_neg (by simpa using same), List.filter_eq_nil_iff.2,
          List.nil_append]
        intro other mem tie
        rw [Issue.render_eq_of_tied tie, origin.1 other mem] at same
        exact same rfl

/-- The order in which the files come does not show in a report, although a file that comes twice
has its issues in it twice. -/
theorem sorted_flatMap_of_perm (perm : paths.Perm others)
    (origin : ∀ path ∈ paths, ∀ issue ∈ found path, issue.path = path)
    (normal : ∀ path ∈ paths, path.Normal) :
    sorted (paths.flatMap found) = sorted (others.flatMap found) := by
  refine StableSort.mergeSort_eq_of_filter_tied Issue.reportLe_trans Issue.reportLe_total
    fun issue => ?_
  rw [filter_tied_flatMap origin,
    filter_tied_flatMap fun path mem => origin path (perm.mem_iff.2 mem)]
  -- All paths that are left are equal, so there is only one order to have them in.
  congr 1
  have unordered (list : List Path) : list.Pairwise fun _ _ => True :=
    List.pairwise_of_forall fun _ _ => trivial
  refine List.Perm.eq_of_pairwise ?_ (unordered _) (unordered _) (perm.filter _)
  intro a b ha hb _ _
  simp only [List.mem_filter, decide_eq_true_eq] at ha hb
  exact Path.eq_of_render_eq (normal a ha.1) (normal b (perm.mem_iff.2 hb.1))
    (ha.2.trans hb.2.symm)

theorem render_flatMap_of_perm (perm : paths.Perm others)
    (origin : ∀ path ∈ paths, ∀ issue ∈ found path, issue.path = path)
    (normal : ∀ path ∈ paths, path.Normal) (least : Nat) :
    render least (paths.flatMap found) = render least (others.flatMap found) := by
  simp only [render, shown, sorted_flatMap_of_perm perm origin normal,
    (perm.flatMap_right found).length_eq]

theorem exitCode_of_perm {issues others : List Issue} (perm : issues.Perm others) :
    exitCode issues = exitCode others := by
  rw [exitCode, exitCode, perm.any_eq]

end Report

theorem Options.normal_of_read? {options result : Options} {arguments : List String}
    (reads : options.read? arguments = some result) (normal : ∀ path ∈ options.paths, path.Normal) :
    ∀ path ∈ result.paths, path.Normal := by
  fun_induction Options.read? options arguments
  case case2 =>
    obtain rfl := Option.some.inj reads
    intro path mem
    rcases List.mem_append.1 mem with given | added
    · exact normal path given
    · obtain ⟨text, -, rfl⟩ := List.mem_map.1 added
      exact Path.normal_ofString text
  case case14 ih =>
    refine ih reads fun path mem => ?_
    rcases List.mem_append.1 mem with given | added
    · exact normal path given
    · obtain rfl := List.mem_singleton.1 added
      exact Path.normal_ofString _
  -- No other argument adds a path.
  all_goals simp_all

namespace Command

theorem normal_of_read? {options : Options} {arguments : List String}
    (reads : read? arguments = some (.lint options)) : ∀ path ∈ options.paths, path.Normal := by
  have named : ∀ arguments, readNamed? arguments = some (.lint options) →
      ∀ path ∈ options.paths, path.Normal := by
    intro arguments reads
    unfold readNamed? at reads
    split at reads
    case h_1 =>
      obtain ⟨read, options_read, same⟩ := Option.map_eq_some_iff.1 reads
      cases same
      exact Options.normal_of_read? options_read (by simp)
    all_goals cases reads
  unfold read? at reads
  split at reads <;> exact named _ reads

variable {linter : Linter} {options : Options} {store final : Store} {path : Path}
  {paths : List Path} {report : Report} {reports : List Report} {found : Path → Report}

/-- Without fixing, the report on a file holds its issues and the text as it is. -/
theorem Lints.exists_analyze (lints : Lints linter false store path report) :
    ∃ source issues, (linter.analyze path source).result = .ok issues ∧
      report = ⟨source, issues, 1, 0⟩ := by
  obtain ⟨content, text, -, -, linted⟩ := lints
  rw [Linter.process, if_neg Bool.false_ne_true, Logged.result_bind] at linted
  obtain ⟨issues, analyzed, made⟩ := bind_eq_ok.1 linted
  exact ⟨_, issues, analyzed, (Except.ok.inj made).symm⟩

theorem Lints.modified_eq_false (lints : Lints linter false store path report) :
    report.modified = false := by
  obtain ⟨source, issues, -, rfl⟩ := lints.exists_analyze
  rfl

theorem Lints.path_eq (lints : Lints linter false store path report) {issue : Issue}
    (mem : issue ∈ report.issues) : issue.path = path := by
  obtain ⟨source, issues, analyzed, rfl⟩ := lints.exists_analyze
  obtain ⟨rule, -, -, here⟩ := Linter.exists_rule_of_analyze analyzed mem
  exact here

theorem Sequence.of_lints (lints : ∀ path ∈ paths, Lints linter false store path (found path)) :
    Sequence linter false store paths (paths.map found) store := by
  induction paths with
  | nil => exact .done store
  | cons path paths ih =>
      rw [List.forall_mem_cons] at lints
      refine .file lints.1 ?_
      rw [settle, lints.1.modified_eq_false]
      exact ih lints.2

theorem Sequence.exists_lints (sequence : Sequence linter false store paths reports final) :
    ∀ path ∈ paths, ∃ report, Lints linter false store path report := by
  induction sequence with
  | done store => simp
  | @file store final path report paths reports lints rest ih =>
      rw [settle, lints.modified_eq_false] at ih
      exact List.forall_mem_cons.2 ⟨⟨report, lints⟩, ih⟩

theorem notices_eq_empty (lints : ∀ path ∈ paths, Lints linter false store path (found path)) :
    notices paths (paths.map found) = "" := by
  induction paths with
  | nil => rfl
  | cons path paths ih =>
      rw [List.forall_mem_cons] at lints
      rw [notices, List.map_cons, List.zipWith_cons_cons, String.join_cons, notice,
        lints.1.modified_eq_false, if_neg Bool.false_ne_true, String.empty_append]
      exact ih lints.2

variable {parse : Bytes → Tree} {registry : Registry} {arguments : List String}

theorem Ready.of_perm (ready : Ready parse registry store options linter)
    (perm : paths.Perm options.paths) :
    Ready parse registry store { options with paths } linter where
  given := fun none => ready.given (List.nil_perm.1 ((show paths = [] from none) ▸ perm))
  plain := fun path mem => ready.plain path ((perm.cons _).mem_iff.1 mem)
  known := fun path mem => ready.known path ((perm.cons _).mem_iff.1 mem)
  settings := ready.settings

theorem Ready.of_severity (ready : Ready parse registry store options linter) (severity : String) :
    Ready parse registry store { options with severity } linter :=
  ⟨ready.given, ready.plain, ready.known, ready.settings⟩

theorem Ready.run_of_lints (reads : read? arguments = some (.lint options))
    (ready : Ready parse registry store options linter) (unfixed : options.fix = false)
    (lints : ∀ path ∈ options.paths.flatMap store.expand,
      Lints linter false store path (found path)) :
    (run parse registry store arguments).stdout =
      Report.render (Severity.leastRank options.severity)
        ((options.paths.flatMap store.expand).flatMap fun path => (found path).issues) ∧
    (run parse registry store arguments).exitCode = Report.exitCode
      ((options.paths.flatMap store.expand).flatMap fun path => (found path).issues) := by
  have sequence := Sequence.of_lints lints
  rw [← unfixed] at sequence
  obtain ⟨-, printed, code, -⟩ := ready.run_of_sequence reads sequence
  rw [notices_eq_empty lints, String.empty_append, List.flatMap_map] at printed
  rw [List.flatMap_map] at code
  exact ⟨printed, code⟩

/-- A run has printed the entries for the issues from a rank on, and a summary that counts all
issues and the entries. Its exit code tells whether there is an error among the issues. -/
structure AccountsFor (run : Run) (opening : String) (least : Nat) (issues : List Issue) :
    Prop where
  stdout : run.stdout = opening ++ String.join (Report.entries least issues) ++
    Report.printed (Report.summary issues.length (Report.entries least issues).length)
  exitCode : run.exitCode = if ∃ issue ∈ issues, issue.severity = .error then 1 else 0

theorem Ready.accountsFor (reads : read? arguments = some (.lint options))
    (ready : Ready parse registry store options linter)
    (linted : Sequence linter options.fix store (options.paths.flatMap store.expand) reports
      final) :
    AccountsFor (run parse registry store arguments)
      (notices (options.paths.flatMap store.expand) reports)
      (Severity.leastRank options.severity) (reports.flatMap (·.issues)) := by
  obtain ⟨-, printed, code, -⟩ := ready.run_of_sequence reads linted
  refine ⟨?_, ?_⟩
  · rw [printed, Report.render_eq, String.append_assoc]
  · rw [code, Report.exitCode_eq]

/-- Two files, one of them in a folder. -/
def folderStore : Store where
  root := .folder
    [("b.tsx", .file (Text.encode "b")), ("d", .folder [("a.tsx", .file (Text.encode "b"))])]
  current := []

def folderLinter : Linter :=
  ⟨Linter.tagParse, [Linter.remark "C1" "one"]⟩

/-- The folder and, once more, the file in it. -/
def folderOptions : Options where
  paths := [⟨"", ["d"]⟩, ⟨"", ["b.tsx"]⟩, ⟨"", ["d", "a.tsx"]⟩]

def folderReport (path : Path) : Report :=
  ⟨"b", [{ Linter.remarkIssue "C1" "one" with path }], 1, 0⟩

theorem ready_folder : Ready Linter.tagParse ⟨[Linter.remark "C1" "one"]⟩ folderStore folderOptions
    folderLinter where
  given := by decide
  plain := by decide
  known := by decide
  settings := ⟨.standard, rfl, rfl⟩

theorem lints_folder : ∀ path ∈ folderOptions.paths.flatMap folderStore.expand,
    Lints folderLinter false folderStore path (folderReport path) := by
  have first : Lints folderLinter false folderStore ⟨"", ["d", "a.tsx"]⟩
      (folderReport ⟨"", ["d", "a.tsx"]⟩) :=
    ⟨_, _, rfl, Text.decode?_encode "b", eq_ok_of_toOption (by decide +kernel)⟩
  have second : Lints folderLinter false folderStore ⟨"", ["b.tsx"]⟩
      (folderReport ⟨"", ["b.tsx"]⟩) :=
    ⟨_, _, rfl, Text.decode?_encode "b", eq_ok_of_toOption (by decide +kernel)⟩
  have collected : folderOptions.paths.flatMap folderStore.expand =
      [⟨"", ["d", "a.tsx"]⟩, ⟨"", ["b.tsx"]⟩, ⟨"", ["d", "a.tsx"]⟩] := by
    decide +kernel
  simp [collected, first, second]

end Command
end JsxLint
