import JsxLint.Files.Store

/-!
Paths as texts. A path in normal form is read back from its text, so different paths have different
texts. Paths that are given by name are in normal form, and so are those of the sources below a
folder, unless a file has a name that no file can have. What a path leads to is not considered: two
paths may still lead to one file.
-/

namespace JsxLint
namespace Path

/-- A text that can stand between two slashes and is not dropped there. -/
def IsName (name : String) : Prop :=
  name ≠ "" ∧ name ≠ "." ∧ '/' ∉ name.toList

instance (name : String) : Decidable (IsName name) :=
  inferInstanceAs (Decidable (_ ∧ _))

/-- The path is in normal form. -/
structure Normal (path : Path) : Prop where
  anchor : path.anchor ∈ ["", "/", "//"]
  names : ∀ part ∈ path.parts, IsName part

theorem pieces_eq_splitOn (text : List Char) : pieces text = text.splitOn '/' := by
  fun_induction pieces text with
  | case1 => rfl
  | case2 rest ih => rw [List.splitOn_cons_eq_if_modifyHead, if_pos (by simp), ih]
  | case3 c rest plain piece others cut ih =>
      rw [List.splitOn_cons_eq_if_modifyHead, if_neg (by simpa using plain), ← ih, cut,
        List.modifyHead_cons]
  | case4 c rest plain cut ih => exact absurd (ih.symm.trans cut) (List.splitOn_ne_nil _ _)

theorem not_mem_of_mem_pieces {text piece : List Char} (mem : piece ∈ pieces text) :
    '/' ∉ piece := by
  fun_induction pieces text generalizing piece with
  | case1 => simp_all
  | case2 rest ih =>
      rcases List.mem_cons.1 mem with rfl | mem
      · exact List.not_mem_nil
      · exact ih mem
  | case3 c rest plain first others cut ih =>
      rcases List.mem_cons.1 mem with rfl | mem
      · have := ih (cut ▸ List.mem_cons_self)
        rw [List.mem_cons, not_or]
        exact ⟨fun h => plain h.symm, this⟩
      · exact ih (cut ▸ List.mem_cons_of_mem _ mem)
  | case4 c rest plain cut ih =>
      rw [pieces_eq_splitOn] at cut
      exact absurd cut (List.splitOn_ne_nil _ _)

theorem anchorOf_mem (text : List Char) : anchorOf text ∈ ["", "/", "//"] := by
  fun_cases anchorOf text <;> simp

theorem normal_ofString (text : String) : (ofString text).Normal := by
  refine ⟨anchorOf_mem _, fun part mem => ?_⟩
  obtain ⟨mem, kept⟩ := List.mem_filter.1 mem
  obtain ⟨piece, hp, rfl⟩ := List.mem_map.1 mem
  obtain ⟨some_char, no_dot⟩ := of_decide_eq_true kept
  exact ⟨some_char, no_dot, by simpa using not_mem_of_mem_pieces hp⟩

/-- The anchor is read back from in front of a text that does not begin with a slash. -/
theorem anchorOf_append {anchor : String} (known : anchor ∈ ["", "/", "//"]) {rest : List Char}
    (plain : rest.head? ≠ some '/') : anchorOf (anchor.toList ++ rest) = anchor := by
  simp only [List.mem_cons, List.not_mem_nil, or_false] at known
  rcases known with rfl | rfl | rfl <;> cases rest <;> simp_all [anchorOf]

/-- Slashes in front of a text add no names. -/
theorem pieces_append_filter {anchor : String} (known : anchor ∈ ["", "/", "//"])
    (rest : List Char) {p : String → Bool} (drops : p "" = false) :
    ((pieces (anchor.toList ++ rest)).map String.ofList).filter p =
      ((pieces rest).map String.ofList).filter p := by
  simp only [List.mem_cons, List.not_mem_nil, or_false] at known
  rcases known with rfl | rfl | rfl <;> simp [pieces, drops]

theorem head?_intercalate {names : List String} (proper : ∀ name ∈ names, IsName name) :
    (['/'].intercalate (names.map String.toList)).head? ≠ some '/' := by
  cases names with
  | nil => simp
  | cons name others =>
      obtain ⟨some_char, -, plain⟩ := proper name List.mem_cons_self
      obtain ⟨c, rest, split⟩ :=
        List.exists_cons_of_ne_nil (mt String.toList_eq_nil_iff.1 some_char)
      rw [split, List.mem_cons, not_or] at plain
      cases others with
      | nil => simp [split, Ne.symm plain.1]
      | cons next others => simp [List.intercalate_cons_cons, split, Ne.symm plain.1]

theorem pieces_intercalate_filter {names : List String} (proper : ∀ name ∈ names, IsName name) :
    ((pieces (['/'].intercalate (names.map String.toList))).map String.ofList).filter
      (fun name => name ≠ "" ∧ name ≠ ".") = names := by
  cases names with
  | nil => rfl
  | cons name others =>
      have plain : ∀ piece ∈ (name :: others).map String.toList, '/' ∉ piece := by
        intro piece mem
        obtain ⟨name, given, rfl⟩ := List.mem_map.1 mem
        exact (proper name given).2.2
      rw [pieces_eq_splitOn, List.splitOn_intercalate _ plain (by simp), List.map_map,
        show String.ofList ∘ String.toList = id from funext fun _ => String.ofList_toList,
        List.map_id, List.filter_eq_self.2]
      intro name mem
      exact decide_eq_true ⟨(proper name mem).1, (proper name mem).2.1⟩

/-- A path in normal form is read back from its text. -/
theorem ofString_render {path : Path} (normal : path.Normal) : ofString path.render = path := by
  obtain ⟨anchor, parts⟩ := path
  obtain ⟨known, proper⟩ := normal
  unfold render
  split
  case isTrue empty =>
    obtain ⟨rfl, rfl⟩ := empty
    rfl
  case isFalse =>
    have text : (anchor ++ "/".intercalate parts).toList =
        anchor.toList ++ ['/'].intercalate (parts.map String.toList) := by
      simp [String.toList_intercalate]
    simp only [ofString, text]
    rw [anchorOf_append known (head?_intercalate proper),
      pieces_append_filter known _ (by simp), pieces_intercalate_filter proper]

theorem eq_of_render_eq {a b : Path} (normal_a : a.Normal) (normal_b : b.Normal)
    (same : a.render = b.render) : a = b := by
  rw [← ofString_render normal_a, ← ofString_render normal_b, same]

end Path

namespace Entry

theorem mem_of_lookup {entries : List (String × Entry)} {name : String} {entry : Entry}
    (found : entries.lookup name = some entry) : (name, entry) ∈ entries := by
  obtain ⟨front, back, rfl, -⟩ := List.lookup_eq_some_iff.1 found
  simp

theorem mem_descendantsAll {entries : List (String × Entry)} {location : List String} :
    location ∈ descendantsAll entries ↔ ∃ name entry rest, (name, entry) ∈ entries ∧
      location = name :: rest ∧ (rest = [] ∨ rest ∈ entry.descendants) := by
  induction entries with
  | nil => simp [descendantsAll]
  | cons first others ih =>
      obtain ⟨key, value⟩ := first
      simp only [descendantsAll, List.cons_append, List.mem_cons, List.mem_append, List.mem_map, ih]
      constructor
      · rintro (rfl | ⟨rest, mem, rfl⟩ | ⟨name, entry, rest, mem, rfl, below⟩)
        · exact ⟨key, value, [], .inl rfl, rfl, .inl rfl⟩
        · exact ⟨key, value, rest, .inl rfl, rfl, .inr mem⟩
        · exact ⟨name, entry, rest, .inr mem, rfl, below⟩
      · rintro ⟨name, entry, rest, same | mem, rfl, below⟩
        · cases same
          exact below.imp (congrArg _) fun mem => .inl ⟨rest, mem, rfl⟩
        · exact .inr (.inr ⟨name, entry, rest, mem, rfl, below⟩)

/-- What is below a part of a tree is below the tree. -/
theorem append_mem_descendants {tree entry : Entry} {location below : List String}
    (here : tree.get? location = some entry) (mem : below ∈ entry.descendants) :
    location ++ below ∈ tree.descendants := by
  induction location generalizing tree with
  | nil =>
      obtain rfl := Option.some.inj here
      exact mem
  | cons name rest ih =>
      cases tree with
      | file content => cases here
      | folder entries =>
          obtain ⟨next, found, further⟩ := Option.bind_eq_some_iff.1 here
          exact mem_descendantsAll.2
            ⟨name, next, _, mem_of_lookup found, rfl, .inr (ih further)⟩

end Entry

namespace Store

/-- Files and folders have names that can stand in a path. -/
def Named (store : Store) : Prop :=
  ∀ location ∈ store.root.descendants, ∀ name ∈ location, Path.IsName name

instance (store : Store) : Decidable store.Named :=
  inferInstanceAs (Decidable (∀ location ∈ store.root.descendants, _))

theorem normal_of_mem_expand {store : Store} {path source : Path} (named : store.Named)
    (normal : path.Normal) (mem : source ∈ store.expand path) : source.Normal := by
  unfold expand at mem
  split at mem
  case h_1 entries found =>
    obtain ⟨location, -, here⟩ := Option.bind_eq_some_iff.1 found
    have mem := (List.mem_filter.1 (List.mem_mergeSort.1 mem)).1
    obtain ⟨below, below_mem, rfl⟩ := List.mem_map.1 mem
    have names := named _ (Entry.append_mem_descendants here below_mem)
    refine ⟨normal.anchor, fun name mem => ?_⟩
    rcases List.mem_append.1 mem with given | added
    · exact normal.names name given
    · exact names name (List.mem_append_right _ added)
  case h_2 =>
    obtain rfl := List.mem_singleton.1 mem
    exact normal

end Store
end JsxLint
