import JsxLint.Command.Options
import JsxLint.Command.Report
import JsxLint.Files.Store
import JsxLint.Linter.Repair
import JsxLint.Settings
import JsxLint.Text.Newline

/-!
Running a command on a store of files. Paths that cannot be looked up end the run before any file
is linted. Files are linted one after the other; the first that is missing or cannot be linted ends
the run. A fixed file is written once, after its last pass.
-/

namespace JsxLint

/-- What a command leaves behind. -/
structure Run where
  exitCode : Nat
  stdout : String
  stderr : String
  store : Store
  /-- A failure that the command does not know how to report. -/
  failure : Option Failure

/-- A run between two files. -/
structure Progress where
  store : Store
  stdout : String
  stderr : String
  issues : List Issue

namespace Progress

def start (store : Store) : Progress :=
  ⟨store, "", "", []⟩

/-- Ends the run with a message. -/
def stop (progress : Progress) (exitCode : Nat) (message : String) : Run :=
  ⟨exitCode, progress.stdout, progress.stderr ++ Report.printed message, progress.store, none⟩

/-- Ends the run with a failure that nothing reports. -/
def crash (progress : Progress) (cause : Failure) : Run :=
  ⟨1, progress.stdout, progress.stderr, progress.store, some cause⟩

/-- Writes down events, word for word; without the verbose option only warnings count. -/
def log (progress : Progress) (verbose : Bool) (events : List Event) : Progress :=
  let shown := events.filter fun event => verbose || event.level = .warning
  let lines := shown.map fun event => event.line ++ "\n"
  { progress with stderr := progress.stderr ++ String.join lines }

end Progress

namespace Linter

/-- Lints a source, and repairs it if wanted. -/
def process (linter : Linter) (fix : Bool) (path : Path) (source : String) : Logged Report :=
  if fix then linter.repair path source
  else return ⟨source, ← linter.analyze path source, 1, 0⟩

end Linter

namespace Command

/-- Takes over the report on one file, and writes the file if something was fixed. -/
def finish (progress : Progress) (path : Path) (report : Report) : Progress :=
  let issues := progress.issues ++ report.issues
  if report.modified then
    { progress with
      issues
      store := progress.store.write path (Text.encode report.source)
      stdout := progress.stdout ++ Report.printed
        ("  🔧 Fixed " ++ toString report.fixed ++ " issue(s) in " ++ path.name) }
  else
    { progress with issues }

/-- Ends the run at a file that could not be linted. -/
def fail (progress : Progress) (verbose : Bool) (path : Path) (cause : Failure) : Run :=
  if cause.ofFix then
    (progress.log verbose [.lintingFailed path]).stop 2
      ("Error: " ++ path.render ++ ": " ++ cause.message)
  else
    progress.crash cause

/-- Lints one file, or ends the run there. -/
def lintFile (linter : Linter) (options : Options) (progress : Progress) (path : Path) :
    Except Run Progress :=
  match progress.store.read? path with
  | none => .error (progress.stop 2 ("Error: " ++ path.render ++ " does not exist"))
  | some content =>
    match Text.decode? content with
    | none => .error (progress.crash .notUtf8)
    | some text =>
      let logged := linter.process options.fix path (Text.unifyNewlines text)
      let progress := progress.log options.verbose logged.events
      match logged.result with
      | .ok report => .ok (finish progress path report)
      | .error cause => .error (fail progress options.verbose path cause)

/-- What is found at the path of the configuration file. -/
def configuration (store : Store) (path : Path) : Settings.Location :=
  match store.get? path with
  | some (.file content) => .file content
  | some (.folder _) => .unreadable
  | none => .absent

/-- Lints the files of all paths and reports on them. -/
def lintAll (linter : Linter) (options : Options) (progress : Progress) : Run :=
  let paths := options.paths.flatMap progress.store.expand
  match paths.foldlM (lintFile linter options) progress with
  | .ok progress =>
    ⟨Report.exitCode progress.issues,
      progress.stdout ++ Report.render (Severity.leastRank options.severity) progress.issues,
      progress.stderr, progress.store, none⟩
  | .error run => run

/-- Lints the files of all paths if every path can be looked up. -/
def lintPaths (linter : Linter) (options : Options) (progress : Progress) : Run :=
  if options.paths.any progress.store.refuses then progress.crash .nameTooLong
  else lintAll linter options progress

def runLint (parse : Bytes → Tree) (registry : Registry) (store : Store) (options : Options) :
    Run :=
  if (options.config :: options.paths).any (·.hasNull) then
    (Progress.start store).crash .nullInName
  else if options.paths.isEmpty then
    ⟨1, Report.printed "Error: Provide files or directories to lint", "", store, none⟩
  else if store.refuses options.config then
    (Progress.start store).crash .nameTooLong
  else
    let logged := Settings.load options.config (configuration store options.config)
    let progress := (Progress.start store).log options.verbose logged.events
    match logged.result with
    | .ok settings => lintPaths ⟨parse, settings.rules registry⟩ options progress
    | .error cause => progress.crash cause

/-- Runs the command that the arguments ask for. -/
def run (parse : Bytes → Tree) (registry : Registry) (store : Store) (arguments : List String) :
    Run :=
  match read? arguments with
  | some (.lint options) => runLint parse registry store options
  | some .rules => ⟨0, Report.renderRules registry, "", store, none⟩
  | none => ⟨2, "", "Usage: lint [options] [paths], or: rules\n", store, none⟩

end Command
end JsxLint
