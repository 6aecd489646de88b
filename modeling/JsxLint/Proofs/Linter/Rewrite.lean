import JsxLint.Proofs.Edit.Shift
import JsxLint.Proofs.Linter.Repair

/-!
A run of repairs as a chain of fixes. Each pass replaces the text by what the merged edits of its
batch make of it, so the bytes at the end are those of the beginning with one fix after the other
applied. A byte that no fix of the chain changes is found again, at a place that the fixes before it
have moved.
-/

namespace JsxLint
namespace Fix

def applyAll : List Fix → Bytes → Bytes
  | [], source => source
  | fix :: rest, source => applyAll rest (fix.apply source)

/-- No edit changes the byte at the offset, which comes to stand at the place. -/
def Survives : List Fix → Nat → Nat → Prop
  | [], offset, place => place = offset
  | fix :: rest, offset, place =>
    (∀ edit ∈ fix.edits, ¬ edit.Touches ⟨offset, offset + 1⟩) ∧
      Survives rest (fix.startAfter offset) place

theorem getElem?_applyAll {fixes : List Fix} {source : Bytes} {offset place : Nat} {byte : UInt8}
    (survives : Survives fixes offset place) (here : source[offset]? = some byte) :
    (applyAll fixes source)[place]? = some byte := by
  induction fixes generalizing source offset with
  | nil => rwa [survives]
  | cons fix rest ih =>
      obtain ⟨untouched, later⟩ := survives
      exact ih later (fix.getElem?_apply_of_untouched here untouched)

end Fix

namespace Linter

/-- The fixes that lead from one text to another, each merged from all fixes of its pass. -/
inductive Rewrites (linter : Linter) (path : Path) : String → List Fix → String → Prop where
  | done (source : String) : Rewrites linter path source [] source
  | pass {before middle after : String} {issues : List Issue} {fix : Fix} {fixes : List Fix}
      (analyzed : (linter.analyze path before).result = .ok issues)
      (merged : Fix.ofEdits ((Batch.ofIssues issues).applied.flatMap (·.edits)) = .ok fix)
      (applied : Text.encode middle = fix.apply (Text.encode before))
      (rest : Rewrites linter path middle fixes after) :
      Rewrites linter path before (fix :: fixes) after

variable {linter : Linter} {path : Path} {before after : String}

theorem Rewrites.encode_eq {fixes : List Fix} (h : linter.Rewrites path before fixes after) :
    Text.encode after = Fix.applyAll fixes (Text.encode before) := by
  induction h with
  | done source => rfl
  | pass analyzed merged applied rest ih => rw [ih, applied, Fix.applyAll]

theorem exists_merged {issues : List Issue} {outcome : Outcome}
    (h : (applyFixes before issues).result = .ok outcome) :
    ∃ fix, Fix.ofEdits ((Batch.ofIssues issues).applied.flatMap (·.edits)) = .ok fix ∧
      Text.encode outcome.source = fix.apply (Text.encode before) := by
  obtain ⟨fix, merged, perm⟩ := Fix.exists_ofEdits (Batch.compatible_ofIssues issues).disjoint_edits
  rw [result_applyFixes, Batch.applyTo_eq _ before merged perm] at h
  obtain ⟨text, decoded, rfl⟩ := map_eq_ok.1 h
  exact ⟨fix, merged, Text.encode_of_decode decoded⟩

theorem Passes.exists_rewrites {counts : List Nat} (h : linter.Passes path before counts after) :
    ∃ fixes, linter.Rewrites path before fixes after ∧ fixes.length = counts.length := by
  induction h with
  | done source => exact ⟨[], .done source, rfl⟩
  | pass analyzed fixed modified rest ih =>
      obtain ⟨fix, merged, applied⟩ := exists_merged fixed
      obtain ⟨fixes, rewrites, length⟩ := ih
      exact ⟨fix :: fixes, .pass analyzed merged applied rewrites, by simp [length]⟩

/-- A run that fixed something went through at least one fix. -/
theorem exists_rewrites_of_repair {source : String} {report : Report}
    (h : (linter.repair path source).result = .ok report) (modified : report.modified = true) :
    ∃ fixes, fixes ≠ [] ∧ linter.Rewrites path source fixes report.source := by
  obtain ⟨-, counts, passes, fixed, -⟩ := repairFrom_passes h
  obtain ⟨fixes, rewrites, length⟩ := passes.exists_rewrites
  refine ⟨fixes, ?_, rewrites⟩
  rintro rfl
  obtain rfl := List.length_eq_zero_iff.1 length.symm
  simp [Report.modified, fixed] at modified

end Linter
end JsxLint
