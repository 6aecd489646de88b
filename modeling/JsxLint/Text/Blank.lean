/-!
White space in the sense of the Unicode standard: the separators, the tabulation and line
controls, and the four information separators U+001C to U+001F. The zero width space and the
byte order mark are not blank.
-/

namespace JsxLint
namespace Text

def isBlank (c : Char) : Bool :=
  let n := c.toNat
  (0x09 ≤ n && n ≤ 0x0D) || (0x1C ≤ n && n ≤ 0x20) || n == 0x85 || n == 0xA0 || n == 0x1680 ||
    (0x2000 ≤ n && n ≤ 0x200A) || n == 0x2028 || n == 0x2029 || n == 0x202F || n == 0x205F ||
    n == 0x3000

/-- A text with at least one character, all of them blank. -/
def allBlank (text : String) : Bool :=
  !text.toList.isEmpty && text.toList.all isBlank

/-- Drops the blanks at both ends. -/
def trimBlank (chars : List Char) : List Char :=
  ((chars.dropWhile isBlank).reverse.dropWhile isBlank).reverse

end Text
end JsxLint
