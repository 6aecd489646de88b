import JsxLint.Proofs.Text.Boundary
import JsxLint.Text.Newline

/-!
Line ends in the bytes of a text. Reading a file turns each carriage return into a newline and drops
a newline right after one; no other byte changes. Which line ends a platform writes is left out.
-/

namespace JsxLint
namespace Text

/-- What becomes of the bytes of a text when its line ends are unified. -/
def unifyBytes : Bytes → Bytes
  | 13 :: 10 :: rest => 10 :: unifyBytes rest
  | 13 :: rest => 10 :: unifyBytes rest
  | byte :: rest => byte :: unifyBytes rest
  | [] => []

theorem unifyBytes_return {rest : Bytes} (h : rest.head? ≠ some 10) :
    unifyBytes (13 :: rest) = 10 :: unifyBytes rest := by
  cases rest with
  | nil => rfl
  | cons byte rest =>
      have other : byte ≠ 10 := by simpa using h
      rw [unifyBytes]
      simpa using other

theorem unifyBytes_cons {byte : UInt8} (h : byte ≠ 13) (rest : Bytes) :
    unifyBytes (byte :: rest) = byte :: unifyBytes rest := by
  rw [unifyBytes] <;> simp [h]

theorem head?_unifyBytes (byte : UInt8) (rest : Bytes) :
    (unifyBytes (byte :: rest)).head? = some (if byte = 13 then 10 else byte) := by
  by_cases cr : byte = 13
  · subst cr
    by_cases lf : rest.head? = some 10
    · obtain ⟨rest, rfl⟩ := List.head?_eq_some_iff.1 lf
      rfl
    · rw [unifyBytes_return lf]
      rfl
  · rw [unifyBytes_cons cr, if_neg cr]
    rfl

/-- Only between the two bytes of one line end may a text not be cut. -/
theorem unifyBytes_append {front rest : Bytes}
    (apart : front.getLast? = some 13 → rest.head? ≠ some 10) :
    unifyBytes (front ++ rest) = unifyBytes front ++ unifyBytes rest := by
  fun_induction unifyBytes front with
  | case1 front ih =>
      have tail := ih fun last => apart (by simp [List.getLast?_cons, last])
      simp [unifyBytes, tail]
  | case2 front single ih =>
      have tail := ih fun last => apart (by simp [List.getLast?_cons, last])
      have alone : (front ++ rest).head? ≠ some 10 := by
        cases front with
        | nil => exact apart rfl
        | cons byte front => simpa using single front
      rw [List.cons_append, unifyBytes_return alone, tail, List.cons_append]
  | case3 byte front pair other ih =>
      have tail := ih fun last => apart (by simp [List.getLast?_cons, last])
      rw [List.cons_append, unifyBytes_cons other, tail, List.cons_append]
  | case4 => rfl

/-- Where a byte stands once the line ends before it are unified, and what has become of it. -/
theorem getElem?_unifyBytes {front : Bytes} {byte : UInt8} (back : Bytes)
    (apart : ¬ (front.getLast? = some 13 ∧ byte = 10)) :
    (unifyBytes (front ++ byte :: back))[(unifyBytes front).length]? =
      some (if byte = 13 then 10 else byte) := by
  rw [unifyBytes_append fun last first => apart ⟨last, by simpa using first⟩,
    List.getElem?_append_right (Nat.le_refl _), Nat.sub_self, ← List.head?_eq_getElem?,
    head?_unifyBytes]

theorem unifyBytes_of_not_mem {bytes : Bytes} (plain : 13 ∉ bytes) : unifyBytes bytes = bytes := by
  induction bytes with
  | nil => rfl
  | cons byte rest ih =>
      simp only [List.mem_cons, not_or] at plain
      rw [unifyBytes_cons (Ne.symm plain.1), ih plain.2]

theorem encode_cons (c : Char) (rest : List Char) :
    encode (String.ofList (c :: rest)) =
      encode (String.ofList [c]) ++ encode (String.ofList rest) := by
  rw [← encode_append, ← String.ofList_append, List.singleton_append]

theorem encode_singleton_ne_nil (c : Char) : encode (String.ofList [c]) ≠ [] := by
  rcases encode_singleton_cases c with ⟨-, bytes⟩ | ⟨filled, -⟩
  · rw [bytes]
    exact List.cons_ne_nil _ _
  · exact filled

theorem encode_unifyChars (chars : List Char) :
    encode (String.ofList (unifyChars chars)) = unifyBytes (encode (String.ofList chars)) := by
  fun_induction unifyChars chars with
  | case1 rest ih =>
      rw [encode_cons, ih, encode_cons '\r', encode_cons '\n' rest]
      rfl
  | case2 rest single ih =>
      have alone : (encode (String.ofList rest)).head? ≠ some 10 := by
        cases rest with
        | nil => decide
        | cons c rest =>
            intro first
            obtain ⟨byte, tail, bytes⟩ := List.exists_cons_of_ne_nil (encode_singleton_ne_nil c)
            rw [encode_cons, bytes, List.cons_append, List.head?_cons] at first
            obtain rfl := Option.some.inj first
            have newline : c = '\n' := eq_of_mem_encode (by decide) (bytes ▸ List.mem_cons_self)
            exact single rest (by rw [newline])
      rw [encode_cons, ih, encode_cons '\r']
      exact (unifyBytes_return alone).symm
  | case3 c rest pair other ih =>
      have plain : 13 ∉ encode (String.ofList [c]) := fun mem =>
        other (eq_of_mem_encode (by decide) mem)
      rw [encode_cons, ih, encode_cons c rest, unifyBytes_append, unifyBytes_of_not_mem plain]
      intro last
      exact absurd (List.mem_of_getLast? last) plain
  | case4 => rfl

/-- Reading a text with unified line ends and unifying its bytes come to the same. -/
theorem encode_unifyNewlines (text : String) :
    encode (unifyNewlines text) = unifyBytes (encode text) := by
  rw [unifyNewlines, encode_unifyChars, String.ofList_toList]

end Text
end JsxLint
