import JsxLint.Component.Literal
import Mathlib.Data.List.TakeWhile

/-!
Which texts are literal values, said as a grammar. A value stands between two quotes that do not
occur in it, alone or in an expression container with white space around it, and one newline may
follow. Reading takes off what is outermost first and looks for the quote inside afterwards; it
accepts exactly the texts of the grammar, each of which has one value.
-/

namespace JsxLint
namespace Text

theorem exists_trimBlank (chars : List Char) :
    ∃ before after, chars = before ++ trimBlank chars ++ after ∧
      (∀ c ∈ before, isBlank c = true) ∧ ∀ c ∈ after, isBlank c = true := by
  let rest := chars.dropWhile isBlank
  refine ⟨chars.takeWhile isBlank, (rest.reverse.takeWhile isBlank).reverse, ?_,
    fun c mem => List.mem_takeWhile_imp mem, fun c mem => ?_⟩
  · have tail : trimBlank chars ++ (rest.reverse.takeWhile isBlank).reverse = rest := by
      rw [trimBlank, ← List.reverse_append, List.takeWhile_append_dropWhile, List.reverse_reverse]
    rw [List.append_assoc, tail, List.takeWhile_append_dropWhile]
  · exact List.mem_takeWhile_imp (List.mem_reverse.1 mem)

/-- Blanks around a text that begins and ends with something else are all that is dropped. -/
theorem trimBlank_append {before middle after : List Char} {mark : Char}
    (left : ∀ c ∈ before, isBlank c = true) (right : ∀ c ∈ after, isBlank c = true)
    (solid : isBlank mark = false) :
    trimBlank (before ++ mark :: (middle ++ mark :: after)) = mark :: (middle ++ [mark]) := by
  have front : (before ++ mark :: (middle ++ mark :: after)).dropWhile isBlank =
      mark :: (middle ++ mark :: after) := by
    rw [List.dropWhile_append_of_pos left, List.dropWhile_cons_of_neg (by simp [solid])]
  have backwards : (mark :: (middle ++ mark :: after)).reverse =
      after.reverse ++ mark :: (mark :: middle).reverse := by
    simp
  rw [trimBlank, front, backwards,
    List.dropWhile_append_of_pos (by simpa using right),
    List.dropWhile_cons_of_neg (by simp [solid])]
  simp

end Text

namespace Component

theorem hasSubstitution_iff (chars : List Char) :
    hasSubstitution chars = true ↔ ['$', '\x7b'] <:+: chars := by
  fun_induction hasSubstitution chars with
  | case1 rest => exact iff_of_true rfl ⟨[], rest, rfl⟩
  | case2 c rest other ih =>
      rw [ih, List.infix_cons_iff]
      refine (or_iff_right ?_).symm
      rintro ⟨tail, same⟩
      exact other tail (List.cons.inj same).1.symm (List.cons.inj same).2.symm
  | case3 => simp

/-- The value may stand between two of these quotes. -/
structure FitsIn (value : List Char) (quote : Char) : Prop where
  free : quote ∉ value
  plain : quote = '\x60' → ¬ ['$', '\x7b'] <:+: value

theorem unquote?_eq_some_iff {quotes chars value : List Char} :
    unquote? quotes chars = some value ↔
      ∃ quote ∈ quotes, chars = quote :: (value ++ [quote]) ∧ FitsIn value quote := by
  cases chars with
  | nil => simp [unquote?]
  | cons quote rest =>
      simp only [unquote?, Option.ite_none_right_eq_some, Option.some.injEq]
      constructor
      · rintro ⟨⟨known, last, free, plain⟩, rfl⟩
        obtain ⟨value, rfl⟩ := List.getLast?_eq_some_iff.1 last
        rw [List.dropLast_concat] at free plain ⊢
        refine ⟨quote, known, rfl, free, fun back found => plain ⟨back, ?_⟩⟩
        exact (hasSubstitution_iff _).2 found
      · rintro ⟨mark, known, same, free, plain⟩
        obtain ⟨rfl, rfl⟩ := List.cons.inj same
        rw [List.dropLast_concat]
        refine ⟨⟨known, List.getLast?_concat .., free, fun ⟨back, found⟩ => ?_⟩, rfl⟩
        exact plain back ((hasSubstitution_iff _).1 found)

theorem braced?_eq_some_iff {chars inner : List Char} :
    braced? chars = some inner ↔
      ∃ body, chars = '\x7b' :: (body ++ ['\x7d']) ∧ Text.trimBlank body = inner := by
  unfold braced?
  split
  · rename_i rest
    simp only [Option.ite_none_right_eq_some, Option.some.injEq]
    constructor
    · rintro ⟨last, rfl⟩
      obtain ⟨body, rfl⟩ := List.getLast?_eq_some_iff.1 last
      rw [List.dropLast_concat]
      exact ⟨body, rfl, rfl⟩
    · rintro ⟨body, same, rfl⟩
      obtain ⟨-, rfl⟩ := List.cons.inj same
      rw [List.dropLast_concat]
      exact ⟨List.getLast?_concat .., rfl⟩
  · rename_i other
    simp only [reduceCtorEq, false_iff]
    rintro ⟨body, same, -⟩
    exact other _ same

/-- How a literal value is written: as a string, or as a string or template in a container. -/
inductive Spells (value : List Char) : List Char → Prop where
  | string {quote : Char} (known : quote ∈ ['"', '\'']) (fits : FitsIn value quote) :
      Spells value (quote :: (value ++ [quote]))
  | container {quote : Char} {before after : List Char} (known : quote ∈ ['"', '\'', '\x60'])
      (fits : FitsIn value quote) (left : ∀ c ∈ before, Text.isBlank c = true)
      (right : ∀ c ∈ after, Text.isBlank c = true) :
      Spells value
        ('\x7b' :: (before ++ quote :: (value ++ quote :: after) ++ ['\x7d']))

/-- A text is literal if it spells a value, with or without a newline after it. -/
def IsLiteral (text value : String) : Prop :=
  ∃ body ending, text.toList = body ++ ending ∧ (ending = [] ∨ ending = ['\n']) ∧
    Spells value.toList body

/-- What is left of the newline at the end is spelled by the grammar, or not read at all. -/
theorem literal?_eq_some_iff_spells {text value : String} :
    literal? text = some value ↔ Spells value.toList (dropFinalNewline text.toList) := by
  have solid : ∀ quote ∈ ['"', '\'', '\x60'], Text.isBlank quote = false := by simp [Text.isBlank]
  simp only [literal?, Option.map_eq_some_iff]
  generalize dropFinalNewline text.toList = chars
  constructor
  · rintro ⟨found, read, rfl⟩
    rw [String.toList_ofList]
    split at read
    · rename_i inner braces
      obtain ⟨body, rfl, trimmed⟩ := braced?_eq_some_iff.1 braces
      obtain ⟨quote, known, rfl, fits⟩ := unquote?_eq_some_iff.1 read
      obtain ⟨before, after, whole, left, right⟩ := Text.exists_trimBlank body
      rw [trimmed] at whole
      rw [whole]
      simpa using Spells.container known fits left right
    · obtain ⟨quote, known, rfl, fits⟩ := unquote?_eq_some_iff.1 read
      exact .string known fits
  · intro spelled
    refine ⟨value.toList, ?_, String.ofList_toList⟩
    cases spelled with
    | @string quote known fits =>
        have opens : ∀ quote ∈ ['"', '\''], quote ≠ '\x7b' := by simp
        have bare : braced? (quote :: (value.toList ++ [quote])) = none := by
          refine Option.eq_none_iff_forall_ne_some.2 fun inner braces => ?_
          obtain ⟨body, same, -⟩ := braced?_eq_some_iff.1 braces
          exact opens quote known (List.cons.inj same).1
        rw [bare]
        exact unquote?_eq_some_iff.2 ⟨quote, known, rfl, fits⟩
    | @container quote before after known fits left right =>
        have braces : braced? ('\x7b' ::
            (before ++ quote :: (value.toList ++ quote :: after) ++ ['\x7d'])) =
              some (quote :: (value.toList ++ [quote])) :=
          braced?_eq_some_iff.2
            ⟨_, rfl, Text.trimBlank_append left right (solid quote known)⟩
        rw [braces]
        exact unquote?_eq_some_iff.2 ⟨quote, known, rfl, fits⟩

theorem Spells.getLast?_ne {value body : List Char} (h : Spells value body) :
    body.getLast? ≠ some '\n' := by
  cases h with
  | @string quote known fits =>
      have closes : ∀ quote ∈ ['"', '\''], some quote ≠ some '\n' := by simp
      rw [← List.cons_append, List.getLast?_concat]
      exact closes quote known
  | container known fits left right =>
      rw [← List.cons_append, List.getLast?_concat]
      decide

theorem spells_dropFinalNewline_iff {value chars : List Char} :
    Spells value (dropFinalNewline chars) ↔
      ∃ body ending, chars = body ++ ending ∧ (ending = [] ∨ ending = ['\n']) ∧
        Spells value body := by
  constructor
  · intro spelled
    by_cases newline : chars.getLast? = some '\n'
    · obtain ⟨body, rfl⟩ := List.getLast?_eq_some_iff.1 newline
      rw [dropFinalNewline, if_pos newline, List.dropLast_concat] at spelled
      exact ⟨body, _, rfl, .inr rfl, spelled⟩
    · rw [dropFinalNewline, if_neg newline] at spelled
      exact ⟨chars, [], (List.append_nil _).symm, .inl rfl, spelled⟩
  · rintro ⟨body, ending, rfl, rfl | rfl, spelled⟩
    · rwa [List.append_nil, dropFinalNewline, if_neg spelled.getLast?_ne]
    · rwa [dropFinalNewline, if_pos (List.getLast?_concat ..), List.dropLast_concat]

/-- Reading accepts the texts of the grammar and gives their value. A text of no value is refused,
and no text has two values. -/
theorem literal?_reads_grammar (text : String) :
    (∀ value, literal? text = some value ↔ IsLiteral text value) ∧
    (literal? text = none ↔ ∀ value, ¬ IsLiteral text value) ∧
    ∀ first second, IsLiteral text first → IsLiteral text second → first = second := by
  have accepts : ∀ value, literal? text = some value ↔ IsLiteral text value := fun value =>
    literal?_eq_some_iff_spells.trans spells_dropFinalNewline_iff
  refine ⟨accepts, ?_, ?_⟩
  · simp only [Option.eq_none_iff_forall_ne_some, ne_eq, accepts]
  · intro first second one other
    have := ((accepts first).2 one).symm.trans ((accepts second).2 other)
    exact Option.some.inj this

/-- A template with another quote and a newline in it, in a container with a newline behind it. -/
theorem literal?_reads_grammar_template :
    IsLiteral "\x7b \x60a'\n\x60\x7d\n" "a'\n" ∧
    literal? "\x7b \x60a'\n\x60\x7d\n" = some "a'\n" := by
  have spelled : IsLiteral "\x7b \x60a'\n\x60\x7d\n" "a'\n" :=
    ⟨"\x7b \x60a'\n\x60\x7d".toList, ['\n'], by decide +kernel, .inr rfl,
      @Spells.container _ '\x60' [' '] [] (by decide) ⟨by decide, by decide⟩
        (List.forall_mem_singleton.2 (by decide)) (List.forall_mem_nil _)⟩
  exact ⟨spelled, ((literal?_reads_grammar _).1 _).2 spelled⟩

end Component
end JsxLint
