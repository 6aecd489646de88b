import JsxLint.Component.Match
import JsxLint.Proofs.Success
import JsxLint.Proofs.Tree.Place

/-!
What the attributes of a tag prescribe, said by the children of an attribute and the entries of the
catalogue. Spreads, attributes without a value and values that are no literals prescribe nothing.
What counts as a literal is left to the reading of literals.
-/

namespace JsxLint
namespace Cursor

/-- The first child with a property. -/
def FirstChild (holds : Cursor → Prop) (c child : Cursor) : Prop :=
  holds child ∧ ∃ front rest, c.children = front ++ child :: rest ∧ ∀ other ∈ front, ¬ holds other

/-- The first named child after the first equals sign. -/
def FollowsSign (c child : Cursor) : Prop :=
  child.named = true ∧ ∃ front sign gap rest, c.children = front ++ sign :: (gap ++ child :: rest) ∧
    sign.kind = .equalsSign ∧ (∀ other ∈ front, other.kind ≠ .equalsSign) ∧
    ∀ other ∈ gap, other.named = false

/-- The attribute is written as a name, an equals sign and a value that is the literal. -/
def Sets (source : Bytes) (attr : Cursor) (name literal : String) : Prop :=
  attr.kind = .jsxAttribute ∧
  (∃ first, FirstChild (·.named = true) attr first ∧ first.text source = .ok name) ∧
  ∃ value text, FollowsSign attr value ∧ value.text source = .ok text ∧
    Component.literal? text = some literal

theorem attributeName?_eq_some_iff {source : Bytes} {attr : Cursor} {name : String} :
    attr.attributeName? source = .ok (some name) ↔
      attr.kind = .jsxAttribute ∧
        ∃ first, FirstChild (·.named = true) attr first ∧ first.text source = .ok name := by
  have head (first : Cursor) : attr.namedChildren.head? = some first ↔
      FirstChild (·.named = true) attr first := by
    rw [namedChildren, List.head?_filter, List.find?_eq_some_iff_append]
    simp [FirstChild]
  simp only [← head]
  unfold attributeName?
  split
  · rename_i first rest kind parts
    simp [kind, parts, map_eq_ok]
  · rename_i other
    constructor
    · intro h
      cases h
    · rintro ⟨kind, first, at_first, -⟩
      obtain ⟨rest, parts⟩ := List.head?_eq_some_iff.1 at_first
      exact absurd parts (other first rest kind)

theorem attributeValue?_eq_some_iff {attr value : Cursor} :
    attr.attributeValue? = some value ↔ attr.kind = .jsxAttribute ∧ FollowsSign attr value := by
  unfold attributeValue?
  by_cases kind : attr.kind = .jsxAttribute
  · simp only [kind, if_true, true_and]
    rw [List.find?_eq_some_iff_append]
    constructor
    · rintro ⟨named, gap, rest, split, skipped⟩
      cases behind : attr.children.dropWhile (·.kind ≠ .equalsSign) with
      | nil =>
          rw [behind] at split
          simp at split
      | cons sign after =>
          have whole := List.takeWhile_append_dropWhile
            (p := fun c : Cursor => c.kind ≠ .equalsSign) (l := attr.children)
          rw [behind] at whole split
          have at_sign := List.head?_dropWhile_not (fun c : Cursor => decide (c.kind ≠ .equalsSign))
            attr.children
          rw [behind] at at_sign
          refine ⟨named, attr.children.takeWhile (·.kind ≠ .equalsSign), sign, gap, rest, ?_,
            by simpa using at_sign, ?_, by simpa using skipped⟩
          · rw [← split]
            exact whole.symm
          · intro other mem
            simpa using List.all_eq_true.1 List.all_takeWhile other mem
    · rintro ⟨named, front, sign, gap, rest, split, at_sign, before, skipped⟩
      refine ⟨named, gap, rest, ?_, by simpa using skipped⟩
      rw [split, List.dropWhile_append_of_pos (by simpa using before),
        List.dropWhile_cons_of_neg (by simpa using at_sign)]
      rfl
  · simp [kind]

end Cursor

namespace Component

theorem prescribed?_eq_some_iff {generic attr value specific : String} :
    prescribed? generic attr value = some specific ↔
      ⟨generic, attr, value, specific⟩ ∈ catalogue := by
  have unique : ∀ a ∈ catalogue, ∀ b ∈ catalogue,
      a.generic = b.generic ∧ a.attr = b.attr ∧ a.value = b.value → a = b := by
    decide
  unfold prescribed?
  constructor
  · intro h
    obtain ⟨entry, found, rfl⟩ := Option.map_eq_some_iff.1 h
    have keys := List.find?_some found
    obtain ⟨rfl, rfl, rfl⟩ := of_decide_eq_true keys
    exact List.mem_of_find?_eq_some found
  · intro listed
    cases found : catalogue.find? fun entry =>
        entry.generic = generic ∧ entry.attr = attr ∧ entry.value = value with
    | none =>
        have := List.find?_eq_none.1 found _ listed
        simp at this
    | some entry =>
        have keys := List.find?_some found
        rw [unique entry (List.mem_of_find?_eq_some found) _ listed (of_decide_eq_true keys)]
        rfl

/-- The attribute has a literal for which the catalogue knows a component. -/
def Prescribes (source : Bytes) (generic : String) (attr : Cursor) (specific : String) : Prop :=
  ∃ name literal, attr.Sets source name literal ∧ ⟨generic, name, literal, specific⟩ ∈ catalogue

/-- Of the attributes of a tag, this is the first that prescribes a component. -/
def PrescribesFirst (source : Bytes) (generic : String) (tag attr : Cursor) (specific : String) :
    Prop :=
  Prescribes source generic attr specific ∧
  ∃ before after, tag.attributes = before ++ attr :: after ∧
    ∀ other ∈ before, ∀ component, ¬ Prescribes source generic other component

variable {source : Bytes} {generic : String} {attr tag : Cursor} {specific : String}

theorem exists_prescribesFirst (mem : attr ∈ tag.attributes)
    (prescribes : Prescribes source generic attr specific) :
    ∃ first component, PrescribesFirst source generic tag first component := by
  classical
  cases found : tag.attributes.find? fun other =>
      ∃ component, Prescribes source generic other component with
  | none =>
      have := List.find?_eq_none.1 found attr mem
      simp only [decide_eq_true_eq] at this
      exact absurd ⟨specific, prescribes⟩ this
  | some first =>
      obtain ⟨here, before, after, split, passed⟩ := List.find?_eq_some_iff_append.1 found
      obtain ⟨component, prescribes⟩ := of_decide_eq_true here
      exact ⟨first, component, prescribes, before, after, split, by simpa using passed⟩

theorem matchAttribute?_eq_some_iff {found : Match} :
    matchAttribute? source generic attr = .ok (some found) ↔
      found.attr = attr ∧ Prescribes source generic attr found.specific := by
  unfold matchAttribute?
  rw [bind_eq_ok]
  constructor
  · rintro ⟨name?, at_name, h⟩
    split at h
    · rename_i name value at_value
      obtain ⟨text, read, h⟩ := bind_eq_ok.1 h
      obtain ⟨component, chosen, rfl⟩ := Option.map_eq_some_iff.1 (pure_eq_ok.1 h)
      obtain ⟨literal, carried, listed⟩ := Option.bind_eq_some_iff.1 chosen
      obtain ⟨kind, first⟩ := Cursor.attributeName?_eq_some_iff.1 at_name
      obtain ⟨-, follows⟩ := Cursor.attributeValue?_eq_some_iff.1 at_value
      exact ⟨rfl, name, literal, ⟨kind, first, value, text, follows, read, carried⟩,
        prescribed?_eq_some_iff.1 listed⟩
    · cases pure_eq_ok.1 h
  · obtain ⟨mine, component⟩ := found
    rintro ⟨rfl, name, literal, ⟨kind, first, value, text, follows, read, carried⟩, listed⟩
    refine ⟨some name, Cursor.attributeName?_eq_some_iff.2 ⟨kind, first⟩, ?_⟩
    simp only [Cursor.attributeValue?_eq_some_iff.2 ⟨kind, follows⟩, read, ok_bind, specific?,
      carried, Option.bind_some, prescribed?_eq_some_iff.2 listed]
    rfl

theorem match?_eq_some {found : Match} (h : match? source generic tag = .ok (some found)) :
    found.attr ∈ tag.attributes ∧
      matchAttribute? source generic found.attr = .ok (some found) := by
  obtain ⟨attr, mem, matched⟩ := findSomeM?_eq_some h
  obtain ⟨rfl, -⟩ := matchAttribute?_eq_some_iff.1 matched
  exact ⟨mem, matched⟩

/-- The attribute that is found is the first one that prescribes a component, provided that all of
them can be read. -/
theorem match?_eq_some_iff
    (readable : ∀ other ∈ tag.attributes, ∃ found?,
      matchAttribute? source generic other = .ok found?)
    {found : Match} :
    match? source generic tag = .ok (some found) ↔
      PrescribesFirst source generic tag found.attr found.specific := by
  have silent {other : Cursor} (mem : other ∈ tag.attributes) :
      matchAttribute? source generic other = .ok none ↔
        ∀ component, ¬ Prescribes source generic other component := by
    obtain ⟨found?, read⟩ := readable other mem
    constructor
    · intro none component prescribes
      have hit : matchAttribute? source generic other = .ok (some ⟨other, component⟩) :=
        matchAttribute?_eq_some_iff.2 ⟨rfl, prescribes⟩
      rw [none] at hit
      cases hit
    · intro nothing
      cases found? with
      | none => exact read
      | some found =>
          obtain ⟨-, prescribes⟩ := matchAttribute?_eq_some_iff.1 read
          exact absurd prescribes (nothing found.specific)
  rw [match?, findSomeM?_eq_some_iff]
  constructor
  · rintro ⟨before, attr, after, split, passed, at_attr⟩
    obtain ⟨rfl, prescribes⟩ := matchAttribute?_eq_some_iff.1 at_attr
    exact ⟨prescribes, before, after, split, fun other mem =>
      (silent (by simp [split, mem])).1 (passed other mem)⟩
  · rintro ⟨prescribes, before, after, split, nothing⟩
    exact ⟨before, found.attr, after, split, fun other mem =>
      (silent (by simp [split, mem])).2 (nothing other mem),
      matchAttribute?_eq_some_iff.2 ⟨rfl, prescribes⟩⟩

end Component
end JsxLint
