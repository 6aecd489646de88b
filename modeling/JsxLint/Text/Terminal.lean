/-!
Control sequences of a terminal: the escape character, an opening bracket, parameters, and a
letter. They have no place in a text that may end up in a file.
-/

namespace JsxLint
namespace Text

def escapeCharacter : Char :=
  '\x1b'

/-- Characters between the bracket and the letter of a sequence. -/
def isParameter (c : Char) : Bool :=
  c.isDigit || c = ';' || c = '?'

/-- The character takes a sequence further that has begun with the held characters. -/
def continues (held : List Char) (c : Char) : Bool :=
  match held.length with
  | 0 => c = escapeCharacter
  | 1 => c = '['
  | _ => isParameter c

/-- The character completes a sequence that has begun with the held characters. -/
def completes (held : List Char) (c : Char) : Bool :=
  2 ≤ held.length && c.isAlpha

/-- Drops all complete sequences. What may be the beginning of one is held back, last character
first, until it is complete or turns out to be none. -/
def dropSequences (held : List Char) : List Char → List Char
  | [] => held.reverse
  | c :: rest =>
    if continues held c then dropSequences (c :: held) rest
    else if completes held c then dropSequences [] rest
    else if c = escapeCharacter then held.reverse ++ dropSequences [c] rest
    else held.reverse ++ c :: dropSequences [] rest

def withoutSequences (text : String) : String :=
  String.ofList (dropSequences [] text.toList)

theorem dropSequences_of_not_mem {chars : List Char} (h : escapeCharacter ∉ chars) :
    dropSequences [] chars = chars := by
  induction chars with
  | nil => rfl
  | cons c rest ih =>
    obtain ⟨hc, hrest⟩ := List.ne_and_not_mem_of_not_mem_cons h
    simp [dropSequences, continues, completes, hc.symm, ih hrest]

end Text
end JsxLint
