import JsxLint.Command.Run
import JsxLint.Proofs.Files.Store
import JsxLint.Proofs.Linter.Rewrite
import JsxLint.Proofs.Text.Newline

/-!
What is left of a file that was fixed. The fixes speak of the text with unified line ends, and that
text is what they are applied to and what is written back. So all bytes outside the edits are kept,
except for carriage returns: each of them becomes a newline, or goes before one. Files that cannot
be decoded or linted are not considered.
-/

namespace JsxLint
namespace Command

open JsxLint.Fix (Survives applyAll)
open JsxLint.Text (unifyBytes)

/-- Each byte outside the edits is found again. The edits are those of the text with unified line
ends, in which the second byte of a line end of two bytes has no place of its own. -/
def KeepsUnedited (content : Bytes) (fixes : List Fix) (written : Bytes) : Prop :=
  ∀ front byte back place, content = front ++ byte :: back →
    ¬ (front.getLast? = some 13 ∧ byte = 10) →
    Survives fixes (unifyBytes front).length place → written[place]? = some byte

/-- A carriage return of the content lies outside the edits. -/
def LeavesReturn (content : Bytes) (fixes : List Fix) : Prop :=
  ∃ front back place, content = front ++ 13 :: back ∧
    Survives fixes (unifyBytes front).length place

theorem getElem?_rewritten {front back : Bytes} {byte : UInt8} {fixes : List Fix} {place : Nat}
    (apart : ¬ (front.getLast? = some 13 ∧ byte = 10))
    (survives : Survives fixes (unifyBytes front).length place) :
    (applyAll fixes (unifyBytes (front ++ byte :: back)))[place]? =
      some (if byte = 13 then 10 else byte) :=
  Fix.getElem?_applyAll survives (Text.getElem?_unifyBytes back apart)

theorem keepsUnedited_iff (content : Bytes) (fixes : List Fix) :
    KeepsUnedited content fixes (applyAll fixes (unifyBytes content)) ↔
      ¬ LeavesReturn content fixes := by
  constructor
  · rintro keeps ⟨front, back, place, rfl, survives⟩
    have apart : ¬ (front.getLast? = some 13 ∧ (13 : UInt8) = 10) := by simp
    have kept := keeps front 13 back place rfl apart survives
    rw [getElem?_rewritten apart survives] at kept
    simp at kept
  · rintro none front byte back place rfl apart survives
    rw [getElem?_rewritten apart survives, if_neg]
    rintro rfl
    exact none ⟨front, back, place, rfl, survives⟩

variable {linter : Linter} {options : Options} {progress : Progress} {path : Path}
  {content : Bytes} {text : String} {report : Report}

theorem exists_lintFile (wanted : options.fix = true)
    (stored : progress.store.read? path = some content)
    (decoded : Text.decode? content = some text)
    (repaired : (linter.repair path (Text.unifyNewlines text)).result = .ok report)
    (modified : report.modified = true) :
    ∃ next, lintFile linter options progress path = .ok next ∧
      next.store = progress.store.write path (Text.encode report.source) := by
  simp only [lintFile, stored, decoded, Linter.process, wanted, if_true, repaired, finish, modified]
  exact ⟨_, rfl, rfl⟩

/-- A file that is fixed is written as its text with unified line ends after the edits of all
passes. Each carriage return outside the edits is written as a newline; every other byte outside
the edits is kept. So all bytes outside the edits are kept exactly if none of them is a carriage
return, and no other file changes. -/
theorem fixing_keeps_unedited_iff (wanted : options.fix = true)
    (stored : progress.store.read? path = some content)
    (decoded : Text.decode? content = some text)
    (repaired : (linter.repair path (Text.unifyNewlines text)).result = .ok report)
    (modified : report.modified = true) :
    ∃ next fixes written, lintFile linter options progress path = .ok next ∧
      next.store.read? path = some written ∧
      (∀ other, progress.store.locate? other ≠ progress.store.locate? path →
        next.store.read? other = progress.store.read? other) ∧
      fixes ≠ [] ∧ linter.Rewrites path (Text.unifyNewlines text) fixes report.source ∧
      written = applyAll fixes (unifyBytes content) ∧
      (13 ∉ content → written = applyAll fixes content) ∧
      (∀ front byte back place, content = front ++ byte :: back →
        ¬ (front.getLast? = some 13 ∧ byte = 10) →
        Survives fixes (unifyBytes front).length place →
        written[place]? = some (if byte = 13 then 10 else byte)) ∧
      (KeepsUnedited content fixes written ↔ ¬ LeavesReturn content fixes) := by
  obtain ⟨next, linted, store_eq⟩ := exists_lintFile wanted stored decoded repaired modified
  obtain ⟨fixes, some_fix, rewrites⟩ := Linter.exists_rewrites_of_repair repaired modified
  have written : Text.encode report.source = applyAll fixes (unifyBytes content) := by
    rw [rewrites.encode_eq, Text.encode_unifyNewlines, Text.encode_of_decode? decoded]
  rw [written] at store_eq
  refine ⟨next, fixes, _, linted, ?_, fun other away => ?_, some_fix, rewrites, rfl,
    fun plain => ?_, ?_, keepsUnedited_iff content fixes⟩
  · rw [store_eq, Store.read?_write_self stored]
  · rw [store_eq, Store.read?_write_of_ne stored _ away]
  · rw [Text.unifyBytes_of_not_mem plain]
  · rintro front byte back place rfl apart survives
    exact getElem?_rewritten apart survives

def letterFix : Fix :=
  ⟨[⟨⟨0, 1⟩, "a", Nat.zero_le 1⟩], List.pairwise_singleton _ _⟩

/-- A linter that wants the letter `a` in place of `b` in a line that holds nothing else. -/
def lineLinter : Linter where
  parse := Linter.letterLinter.parse
  rules :=
    [{ id := "R"
       name := "line"
       severity := .error
       autoFixable := true
       description := ""
       inspect := fun context _ => pure
        (if context.source = Text.encode "b\n" then some ⟨"", [], some letterFix⟩ else none) }]

def fixOptions : Options :=
  { fix := true }

def linePath : Path :=
  ⟨"", ["a.tsx"]⟩

/-- The store with one file, before it is linted. -/
def lineProgress (content : String) : Progress :=
  .start ⟨.folder [("a.tsx", .file (Text.encode content))], []⟩

def lineIssue : Issue where
  path := linePath
  line := 1
  column := 1
  ruleId := "R"
  message := ""
  severity := .error
  autoFixable := true
  context := some "line"
  data := []
  fix := some letterFix

theorem repair_line : (lineLinter.repair linePath "b\n").result = .ok ⟨"a\n", [], 2, 1⟩ :=
  eq_ok_of_toOption (by decide +kernel)

theorem read?_lineProgress (content : String) :
    (lineProgress content).store.read? linePath = some (Text.encode content) :=
  rfl

/-- A file with single newlines is kept as it is around the edit. -/
theorem fixing_keeps_unedited_iff_newline : ∃ next fixes written,
    lintFile lineLinter fixOptions (lineProgress "b\n") linePath = .ok next ∧
    next.store.read? linePath = some written ∧ fixes ≠ [] ∧
    lineLinter.Rewrites linePath "b\n" fixes "a\n" ∧
    written = applyAll fixes (Text.encode "b\n") ∧
    KeepsUnedited (Text.encode "b\n") fixes written := by
  have none : 13 ∉ Text.encode "b\n" := by decide
  obtain ⟨next, fixes, written, linted, read, -, some_fix, rewrites, -, plain, -, kept⟩ :=
    fixing_keeps_unedited_iff (show fixOptions.fix = true from rfl) (read?_lineProgress "b\n")
      (Text.decode?_encode "b\n") repair_line rfl
  refine ⟨next, fixes, written, linted, read, some_fix, rewrites, plain none, kept.2 ?_⟩
  rintro ⟨front, back, place, split, -⟩
  exact none (by rw [split]; simp)

/-- The carriage return of a line end outside the edit is lost. -/
theorem carriage_return_lost : ∃ next,
    lintFile lineLinter fixOptions (lineProgress "b\r\n") linePath = .ok next ∧
    lineLinter.Rewrites linePath "b\n" [letterFix] "a\n" ∧
    next.store.read? linePath = some (Text.encode "a\n") ∧
    LeavesReturn (Text.encode "b\r\n") [letterFix] ∧
    ¬ KeepsUnedited (Text.encode "b\r\n") [letterFix] (Text.encode "a\n") := by
  have decoded := Text.decode?_encode "b\r\n"
  obtain ⟨next, linted, store_eq⟩ := exists_lintFile (show fixOptions.fix = true from rfl)
    (read?_lineProgress "b\r\n") decoded repair_line rfl
  have leaves : LeavesReturn (Text.encode "b\r\n") [letterFix] :=
    ⟨[98], [10], 1, by decide, by simp [letterFix, Edit.Touches, unifyBytes], rfl⟩
  have written : applyAll [letterFix] (unifyBytes (Text.encode "b\r\n")) = Text.encode "a\n" := by
    decide
  have analyzed : (lineLinter.analyze linePath "b\n").result = .ok [lineIssue] :=
    eq_ok_of_toOption (by decide +kernel)
  refine ⟨next, linted, .pass analyzed ?_ (by decide) (.done _), ?_, leaves, ?_⟩
  · exact eq_ok_of_toOption (by decide +kernel)
  · rw [store_eq, Store.read?_write_self (read?_lineProgress "b\r\n")]
  · rw [← written, keepsUnedited_iff]
    exact fun none => none leaves

end Command
end JsxLint
