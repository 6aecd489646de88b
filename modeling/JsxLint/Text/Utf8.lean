/-!
Text and its bytes. Offsets into a source count the bytes of its UTF-8 form, so ranges and
edits speak of `Bytes`, while names, messages and columns speak of `String`. Reading bytes
back is partial, and the two directions are inverse to each other.
-/

namespace JsxLint

abbrev Bytes := List UInt8

namespace Text

def encode (text : String) : Bytes :=
  text.toByteArray.data.toList

def decode? (bytes : Bytes) : Option String :=
  String.fromUTF8? ⟨bytes.toArray⟩

@[simp] theorem decode?_encode (text : String) : decode? (encode text) = some text := by
  have valid : (⟨(encode text).toArray⟩ : ByteArray).IsValidUTF8 := by
    simpa [encode] using text.isValidUTF8
  simp only [decode?, String.fromUTF8?, dif_pos valid, Option.some.injEq]
  rfl

theorem encode_of_decode? {bytes : Bytes} {text : String} (h : decode? bytes = some text) :
    encode text = bytes := by
  simp only [decode?, String.fromUTF8?] at h
  split at h
  · cases h
    rfl
  · cases h

/-- Bytes from `start` up to but without `stop`; what lies past the end is empty. -/
def slice (bytes : Bytes) (start stop : Nat) : Bytes :=
  (bytes.take stop).drop start

end Text
end JsxLint
