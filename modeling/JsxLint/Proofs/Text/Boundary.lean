import JsxLint.Tree.Text

/-!
Offsets at which a text can be cut without cutting a character in two. What lies between two such
offsets is text again, whatever their order, and so is what stands before one on its line. Nothing
is said here of offsets inside a character.
-/

namespace JsxLint
namespace Text

@[simp] theorem encode_empty : encode "" = [] := rfl

@[simp] theorem encode_append (a b : String) : encode (a ++ b) = encode a ++ encode b := by
  simp [encode, String.toByteArray_append]

@[simp] theorem decode_encode (text : String) : decode (encode text) = .ok text := by
  simp [decode]

theorem encode_of_decode {bytes : Bytes} {text : String} (h : decode bytes = .ok text) :
    encode text = bytes := by
  cases hd : decode? bytes with
  | none => simp [decode, hd] at h
  | some found =>
      simp only [decode, hd, Except.ok.injEq] at h
      subst h
      exact encode_of_decode? hd

theorem eq_notUtf8_of_decode {bytes : Bytes} {failure : Failure}
    (h : decode bytes = .error failure) : failure = .notUtf8 := by
  cases hd : decode? bytes with
  | none => simpa [decode, hd, eq_comm] using h
  | some found => simp [decode, hd] at h

/-- The offset stands between two characters of the text, or at one of its ends. -/
def Boundary (text : String) (offset : Nat) : Prop :=
  ∃ before after : String, text = before ++ after ∧ (encode before).length = offset

/-- An offset can be cut at exactly if both sides of the cut are text. -/
theorem boundary_iff_decodes {text : String} {offset : Nat} :
    Boundary text offset ↔ offset ≤ (encode text).length ∧
      (decode? ((encode text).take offset)).isSome = true ∧
      (decode? ((encode text).drop offset)).isSome = true := by
  constructor
  · rintro ⟨before, after, rfl, rfl⟩
    rw [encode_append, List.take_left, List.drop_left, decode?_encode, decode?_encode]
    exact ⟨by simp, rfl, rfl⟩
  · rintro ⟨inside, left, right⟩
    obtain ⟨before, left⟩ := Option.isSome_iff_exists.1 left
    obtain ⟨after, right⟩ := Option.isSome_iff_exists.1 right
    refine ⟨before, after, ?_, ?_⟩
    · have whole : encode text = encode (before ++ after) := by
        rw [encode_append, encode_of_decode? left, encode_of_decode? right,
          List.take_append_drop]
      have := congrArg decode? whole
      rw [decode?_encode, decode?_encode] at this
      exact Option.some.inj this
    · rw [encode_of_decode? left, List.length_take_of_le inside]

instance (text : String) (offset : Nat) : Decidable (Boundary text offset) :=
  decidable_of_iff _ boundary_iff_decodes.symm

theorem boundary_zero (text : String) : Boundary text 0 :=
  ⟨"", text, by simp, rfl⟩

theorem boundary_end (text : String) : Boundary text (encode text).length :=
  ⟨text, "", by simp, rfl⟩

theorem Boundary.le_length {text : String} {offset : Nat} (h : Boundary text offset) :
    offset ≤ (encode text).length := by
  obtain ⟨before, after, rfl, rfl⟩ := h
  simp

/-- Of two beginnings of one text, one goes on where the other stops. -/
theorem append_comparable {a b c d : String} (h : a ++ b = c ++ d) :
    (∃ part, c = a ++ part) ∨ ∃ part, a = c ++ part := by
  have lists : a.toList ++ b.toList = c.toList ++ d.toList := by
    rw [← String.toList_append, ← String.toList_append, h]
  rcases List.append_eq_append_iff.1 lists with ⟨part, hc, -⟩ | ⟨part, ha, -⟩
  · refine .inl ⟨String.ofList part, ?_⟩
    apply String.toList_injective
    rw [hc, String.toList_append, String.toList_ofList]
  · refine .inr ⟨String.ofList part, ?_⟩
    apply String.toList_injective
    rw [ha, String.toList_append, String.toList_ofList]

theorem Boundary.exists_slice {text : String} {start stop : Nat}
    (hs : Boundary text start) (he : Boundary text stop) :
    ∃ part, slice (encode text) start stop = encode part := by
  obtain ⟨a, b, rfl, rfl⟩ := hs
  obtain ⟨c, d, h, rfl⟩ := he
  rcases append_comparable h with ⟨part, rfl⟩ | ⟨part, rfl⟩
  · refine ⟨part, ?_⟩
    rw [h, slice, encode_append (a ++ part) d, List.take_left, encode_append, List.drop_left]
  · refine ⟨"", ?_⟩
    simp only [slice, encode_empty, List.drop_eq_nil_iff, List.length_take, encode_append,
      List.length_append]
    omega

theorem Boundary.exists_drop {text : String} {start : Nat} (h : Boundary text start) :
    ∃ part, (encode text).drop start = encode part := by
  obtain ⟨part, hp⟩ := h.exists_slice (boundary_end text)
  exact ⟨part, by simpa [slice] using hp⟩

theorem encode_singleton (c : Char) : encode (String.ofList [c]) = String.utf8EncodeChar c := by
  simp [encode, List.utf8Encode_singleton]

/-- A character is one byte below 128, or several that are not. -/
theorem encode_singleton_cases (c : Char) :
    c.toNat ≤ 127 ∧ encode (String.ofList [c]) = [UInt8.ofNat c.toNat] ∨
      encode (String.ofList [c]) ≠ [] ∧
        ∀ byte ∈ encode (String.ofList [c]), 128 ≤ byte.toNat := by
  rw [encode_singleton, String.utf8EncodeChar]
  by_cases single : c.val.toNat ≤ 127
  · exact .inl ⟨single, if_pos single⟩
  · refine .inr ?_
    simp only [single, if_false]
    repeat' split
    all_goals
      simp only [ne_eq, reduceCtorEq, not_false_eq_true, List.forall_mem_cons, List.not_mem_nil,
        UInt8.toNat_ofNat', false_implies, implies_true, and_true, true_and]
      omega

/-- A byte below 128 in a character is all there is to it. -/
theorem eq_of_mem_encode {c d : Char} (ascii : d.toNat ≤ 127)
    (h : UInt8.ofNat d.toNat ∈ encode (String.ofList [c])) : c = d := by
  rcases encode_singleton_cases c with ⟨single, bytes⟩ | ⟨-, high⟩
  · rw [bytes, List.mem_singleton] at h
    have number : d.toNat % 256 = c.toNat % 256 := by simpa using congrArg UInt8.toNat h
    exact Char.toNat_inj.1 (by omega)
  · have := high _ h
    rw [UInt8.toNat_ofNat'] at this
    omega

theorem length_encode_of_ascii {chars : List Char}
    (ascii : ∀ byte ∈ encode (String.ofList chars), byte.toNat ≤ 127) :
    (encode (String.ofList chars)).length = chars.length := by
  induction chars with
  | nil => rfl
  | cons c rest ih =>
      rw [← List.singleton_append, String.ofList_append, encode_append] at ascii ⊢
      have tail := ih fun byte hb => ascii byte (List.mem_append_right _ hb)
      rcases encode_singleton_cases c with ⟨-, bytes⟩ | ⟨some, high⟩
      · rw [List.length_append, tail, bytes, List.length_append]
        rfl
      · obtain ⟨byte, mem⟩ := List.exists_mem_of_ne_nil _ some
        have low := ascii byte (List.mem_append_left _ mem)
        have := high byte mem
        omega

/-- A text of single bytes can be cut anywhere. -/
theorem boundary_of_ascii {text : String} {offset : Nat}
    (ascii : ∀ byte ∈ encode text, byte.toNat ≤ 127) (le : offset ≤ (encode text).length) :
    Boundary text offset := by
  let before := String.ofList (text.toList.take offset)
  let after := String.ofList (text.toList.drop offset)
  have split : text = before ++ after := by
    rw [← String.ofList_append, List.take_append_drop, String.ofList_toList]
  have whole : (encode text).length = text.toList.length := by
    rw [← length_encode_of_ascii (by rwa [String.ofList_toList]), String.ofList_toList]
  have front : ∀ byte ∈ encode before, byte.toNat ≤ 127 := by
    intro byte mem
    refine ascii byte ?_
    rw [split, encode_append]
    exact List.mem_append_left _ mem
  refine ⟨before, after, split, ?_⟩
  rw [length_encode_of_ascii front, List.length_take_of_le (whole ▸ le)]

theorem takeWhile_encode (chars : List Char) :
    ((encode (String.ofList chars.reverse)).reverse.takeWhile (· ≠ 10)).reverse =
      encode (String.ofList (chars.takeWhile (· ≠ '\n')).reverse) := by
  induction chars with
  | nil => rfl
  | cons c rest ih =>
      rw [List.reverse_cons, String.ofList_append, encode_append, List.reverse_append]
      by_cases newline : c = '\n'
      · subst newline
        rfl
      · have plain : ∀ byte ∈ (encode (String.ofList [c])).reverse, (byte ≠ 10 : Bool) = true := by
          intro byte mem
          refine decide_eq_true fun same => newline ?_
          have here : 10 ∈ encode (String.ofList [c]) := same ▸ List.mem_reverse.1 mem
          exact eq_of_mem_encode (by decide) here
        rw [List.takeWhile_append_of_pos plain, List.reverse_append, List.reverse_reverse, ih,
          List.takeWhile_cons_of_pos (by simpa using newline), List.reverse_cons,
          String.ofList_append, encode_append]

theorem Boundary.exists_lineLeadBytes {text : String} {offset : Nat} (h : Boundary text offset) :
    ∃ lead, lineLeadBytes (encode text) offset = encode lead := by
  obtain ⟨before, after, rfl, rfl⟩ := h
  have lead := takeWhile_encode before.toList.reverse
  rw [List.reverse_reverse, String.ofList_toList] at lead
  rw [lineLeadBytes, encode_append, List.take_left]
  exact ⟨_, lead⟩

end Text
end JsxLint
