import JsxLint.Failure
import JsxLint.Text.Utf8
import JsxLint.Tree.Basic

/-!
The source text at a node. Ranges count bytes and columns count characters, so each of these can
fail when a range cuts a character in two.
-/

namespace JsxLint
namespace Text

def decode (bytes : Bytes) : Except Failure String :=
  match decode? bytes with
  | some text => .ok text
  | none => .error .notUtf8

/-- The bytes between the start of an offset's line and the offset. -/
def lineLeadBytes (source : Bytes) (offset : Nat) : Bytes :=
  ((source.take offset).reverse.takeWhile (· ≠ 10)).reverse

end Text

namespace Cursor

def text (source : Bytes) (c : Cursor) : Except Failure String :=
  Text.decode (Text.slice source c.start c.stop)

/-- The text between the start of the node's line and the node. -/
def lineLead (source : Bytes) (c : Cursor) : Except Failure String :=
  Text.decode (Text.lineLeadBytes source c.start)

/-- How many characters stand before the node on its line. -/
def column (source : Bytes) (c : Cursor) : Except Failure Nat :=
  return (← c.lineLead source).length

end Cursor
end JsxLint
