/-!
Line ends. A file may end its lines in three ways; a source is read with all of them turned into
single newlines.
-/

namespace JsxLint
namespace Text

def unifyChars : List Char → List Char
  | '\r' :: '\n' :: rest => '\n' :: unifyChars rest
  | '\r' :: rest => '\n' :: unifyChars rest
  | c :: rest => c :: unifyChars rest
  | [] => []

/-- Turns carriage returns, with or without a newline after them, into newlines. -/
def unifyNewlines (text : String) : String :=
  String.ofList (unifyChars text.toList)

end Text
end JsxLint
