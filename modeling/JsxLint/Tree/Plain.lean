import JsxLint.Text.Blank
import JsxLint.Text.Utf8
import JsxLint.Tree.Basic

/-!
Trees of sources so plain that they need no parser: a text that is one name is a statement with
that name in it. Any other text is taken for a program about which nothing is known.
-/

namespace JsxLint
namespace Tree

/-- Words that begin or end a statement or an expression and so are no names. -/
def reservedWords : List String :=
  ["await", "break", "case", "catch", "class", "const", "continue", "debugger", "default",
   "delete", "do", "else", "enum", "extends", "false", "finally", "for", "function", "if",
   "import", "in", "instanceof", "interface", "null", "return", "super", "switch", "this",
   "throw", "true", "try", "typeof", "undefined", "var", "void", "while", "with", "yield"]

/-- Characters that a name may hold after its first. -/
def isNameChar (c : Char) : Bool :=
  !Text.isBlank c && 0x1F < c.toNat && c ≠ '\uFEFF' && c ≠ '\u2060' && c ≠ '\u200B' &&
    !(":;\x60\"'@#.,|^&<=>+-*/\\%?!~()[]\x7b\x7d".toList.contains c)

def isName (text : String) : Bool :=
  match text.toList with
  | first :: rest =>
    isNameChar first && !first.isDigit && rest.all isNameChar && !reservedWords.contains text
  | [] => false

/-- A node over a whole text of one line. -/
def covering (bytes : Bytes) (symbol : String) (children : List Tree) : Tree :=
  .node { start := 0, stop := bytes.length, kind := Kind.ofSymbol symbol, row := 0, column := 0,
          named := true, missing := false, hasError := false, field := none } children

def ofPlain (bytes : Bytes) : Tree :=
  let statements :=
    match Text.decode? bytes with
    | some text =>
      if isName text then [covering bytes "expression_statement" [covering bytes "identifier" []]] else []
    | none => []
  covering bytes "program" statements

end Tree
end JsxLint
