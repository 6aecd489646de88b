import JsxLint.Proofs.Success
import JsxLint.Proofs.Text.Boundary
import JsxLint.Proofs.Tree.Place

/-!
Reading a text at the nodes of its tree. Where the ranges of the tree fit the text and cut no
character in two, the text of each node can be read, and so can the part of a line before it.
-/

namespace JsxLint

structure Tree.Covers (tree : Tree) (source : String) : Prop where
  fits : tree.WellFormed (Text.encode source).length
  cuts : ∀ c ∈ tree.nodes, Text.Boundary source c.start ∧ Text.Boundary source c.stop

theorem Tree.covers_of_ascii {tree : Tree} {source : String}
    (fits : tree.WellFormed (Text.encode source).length)
    (ascii : ∀ byte ∈ Text.encode source, byte.toNat ≤ 127) : tree.Covers source := by
  refine ⟨fits, fun c here => ?_⟩
  have forward := Cursor.start_le_stop fits (mem_nodes.1 here)
  have last := Cursor.stop_le_length fits (mem_nodes.1 here)
  exact ⟨Text.boundary_of_ascii ascii (by omega), Text.boundary_of_ascii ascii last⟩

namespace Cursor

variable {tree : Tree} {source : String} {c : Cursor}

section

variable (cuts : ∀ c ∈ tree.nodes, Text.Boundary source c.start ∧ Text.Boundary source c.stop)

include cuts

theorem exists_text (here : c ∈ tree.nodes) : ∃ text, c.text (Text.encode source) = .ok text := by
  obtain ⟨start, stop⟩ := cuts c here
  obtain ⟨text, slice⟩ := start.exists_slice stop
  exact ⟨text, by rw [Cursor.text, slice, Text.decode_encode]⟩

theorem exists_lineLead (here : c ∈ tree.nodes) :
    ∃ lead, c.lineLead (Text.encode source) = .ok lead := by
  obtain ⟨lead, bytes⟩ := (cuts c here).1.exists_lineLeadBytes
  exact ⟨lead, by rw [lineLead, bytes, Text.decode_encode]⟩

end

theorem exists_column (covers : tree.Covers source) (here : c ∈ tree.nodes) :
    ∃ column, c.column (Text.encode source) = .ok column := by
  obtain ⟨lead, read⟩ := exists_lineLead covers.cuts here
  exact ⟨lead.length, bind_eq_ok.2 ⟨lead, read, rfl⟩⟩

theorem start_lt_stop_of_text {source : Bytes} {text : String} (h : c.text source = .ok text)
    (filled : text ≠ "") : c.start < c.stop := by
  refine Nat.lt_of_not_le fun backward => filled ?_
  have nothing : Text.slice source c.start c.stop = [] := by
    rw [Text.slice, List.drop_eq_nil_iff, List.length_take]
    omega
  rw [Cursor.text, nothing, ← Text.encode_empty, Text.decode_encode] at h
  exact (Except.ok.inj h).symm

end Cursor
end JsxLint
