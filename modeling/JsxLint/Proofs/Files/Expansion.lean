import JsxLint.Proofs.Files.Path
import Mathlib.Data.List.Nodup
import Mathlib.Data.String.Basic

/-!
What a folder stands for when it is given by name. The paths it is expanded to are those of
everything below it that is named like a source, in order and each once, and each of them leads to
what it names. Files and folders are not told apart here: a folder that is named like a source is
among them. The limits on the length of names are not considered.
-/

namespace JsxLint
namespace Entry

mutual

/-- In every folder at and below an entry the names differ, and none is the two dots that lead out
of a folder. -/
def Proper : Entry → Prop
  | .file _ => True
  | .folder entries =>
    (entries.map (·.1)).Nodup ∧ ".." ∉ entries.map (·.1) ∧ ProperAll entries

def ProperAll : List (String × Entry) → Prop
  | [] => True
  | (_, entry) :: rest => entry.Proper ∧ ProperAll rest

end

theorem lookup_of_mem {entries : List (String × Entry)} {name : String} {entry : Entry}
    (nodup : (entries.map (·.1)).Nodup) (mem : (name, entry) ∈ entries) :
    entries.lookup name = some entry := by
  obtain ⟨front, back, rfl⟩ := List.append_of_mem mem
  refine List.lookup_eq_some_iff.2 ⟨front, back, rfl, fun other before => ?_⟩
  rw [List.map_append, List.nodup_append] at nodup
  have apart := nodup.2.2 other.1 (List.mem_map_of_mem before) name (by simp)
  simpa using apart.symm

theorem ProperAll.of_mem {entries : List (String × Entry)} (proper : ProperAll entries)
    {name : String} {entry : Entry} (mem : (name, entry) ∈ entries) : entry.Proper := by
  induction entries with
  | nil => cases mem
  | cons first rest ih =>
      rcases List.mem_cons.1 mem with rfl | mem
      · exact proper.1
      · exact ih proper.2 mem

theorem get?_append (tree : Entry) (location below : List String) :
    tree.get? (location ++ below) = (tree.get? location).bind (·.get? below) := by
  induction location generalizing tree with
  | nil => rfl
  | cons name rest ih =>
      cases tree with
      | file content => rfl
      | folder entries =>
          simp only [List.cons_append, get?]
          cases entries.lookup name with
          | none => rfl
          | some entry => exact ih entry

/-- What is found in a proper tree is proper, and two dots are not on the way. -/
theorem Proper.get? {tree entry : Entry} {location : List String} (proper : tree.Proper)
    (found : tree.get? location = some entry) : entry.Proper ∧ ".." ∉ location := by
  induction location generalizing tree with
  | nil =>
      obtain rfl := Option.some.inj found
      exact ⟨proper, List.not_mem_nil⟩
  | cons name rest ih =>
      cases tree with
      | file content => cases found
      | folder entries =>
          obtain ⟨next, at_name, further⟩ := Option.bind_eq_some_iff.1 found
          obtain ⟨-, inside, all⟩ := proper
          have mem := mem_of_lookup at_name
          obtain ⟨proper_entry, rest_inside⟩ := ih (all.of_mem mem) further
          refine ⟨proper_entry, fun out => ?_⟩
          rcases List.mem_cons.1 out with rfl | out
          · exact inside (List.mem_map_of_mem mem)
          · exact rest_inside out

/-- The locations below an entry are those at which something is found. -/
theorem Proper.mem_descendants {tree : Entry} {location : List String} (proper : tree.Proper) :
    location ∈ tree.descendants ↔ location ≠ [] ∧ ∃ entry, tree.get? location = some entry := by
  induction location generalizing tree with
  | nil =>
      cases tree with
      | file content => simp [descendants]
      | folder entries => simp [descendants, mem_descendantsAll]
  | cons name rest ih =>
      cases tree with
      | file content => simp [descendants, Entry.get?]
      | folder entries =>
          obtain ⟨nodup, -, all⟩ := proper
          rw [descendants, mem_descendantsAll]
          constructor
          · rintro ⟨name, entry, rest, mem, ⟨⟩, below⟩
            refine ⟨List.cons_ne_nil _ _, ?_⟩
            rw [Entry.get?, lookup_of_mem nodup mem, Option.bind_some]
            rcases below with rfl | below
            · exact ⟨entry, rfl⟩
            · exact ((ih (all.of_mem mem)).1 below).2
          · rintro ⟨-, target, found⟩
            obtain ⟨entry, at_name, further⟩ := Option.bind_eq_some_iff.1 found
            have mem := mem_of_lookup at_name
            refine ⟨name, entry, rest, mem, rfl, ?_⟩
            by_cases last : rest = []
            · exact .inl last
            · exact .inr ((ih (all.of_mem mem)).2 ⟨last, target, further⟩)

mutual

theorem Proper.nodup_descendants : ∀ {tree : Entry}, tree.Proper → tree.descendants.Nodup
  | .file _, _ => List.nodup_nil
  | .folder _, proper => ProperAll.nodup_descendantsAll proper.1 proper.2.2

theorem ProperAll.nodup_descendantsAll : ∀ {entries : List (String × Entry)},
    (entries.map (·.1)).Nodup → ProperAll entries → (descendantsAll entries).Nodup
  | [], _, _ => List.nodup_nil
  | (name, entry) :: rest, nodup, all => by
      rw [List.map_cons, List.nodup_cons] at nodup
      have first : ([name] :: entry.descendants.map (name :: ·)).Nodup := by
        refine List.nodup_cons.2 ⟨?_, ?_⟩
        · intro mem
          obtain ⟨location, below, same⟩ := List.mem_map.1 mem
          exact (all.1.mem_descendants.1 below).1 (List.tail_eq_of_cons_eq same)
        · exact all.1.nodup_descendants.map fun _ _ => List.tail_eq_of_cons_eq
      have head {location : List String}
          (mem : location ∈ [name] :: entry.descendants.map (name :: ·)) :
          location.head? = some name := by
        rcases List.mem_cons.1 mem with rfl | mem
        · rfl
        · obtain ⟨below, -, rfl⟩ := List.mem_map.1 mem
          rfl
      refine first.append (ProperAll.nodup_descendantsAll nodup.2 all.2) ?_
      intro location mem later
      obtain ⟨other, value, further, listed, rfl, -⟩ := mem_descendantsAll.1 later
      obtain rfl := Option.some.inj (head mem)
      exact nodup.1 (List.mem_map.2 ⟨_, listed, rfl⟩)

end

end Entry

namespace Path

/-- The path of a location below the place at this path. -/
def join (path : Path) (location : List String) : Path :=
  { path with parts := path.parts ++ location }

theorem join_injective (path : Path) : Function.Injective path.join := by
  intro a b same
  exact List.append_cancel_left (congrArg Path.parts same)

theorem partsLe_trans {a b c : List String} (hab : partsLe a b = true) (hbc : partsLe b c = true) :
    partsLe a c = true := by
  induction a generalizing b c with
  | nil => rfl
  | cons x xs ih =>
      cases b with
      | nil => cases hab
      | cons y ys =>
          cases c with
          | nil => cases hbc
          | cons z zs =>
              simp only [partsLe, Bool.or_eq_true, Bool.and_eq_true, decide_eq_true_eq] at *
              rcases hab with xy | ⟨rfl, hab⟩
              · rcases hbc with yz | ⟨rfl, -⟩
                · exact .inl (xy.trans yz)
                · exact .inl xy
              · exact hbc.imp_right fun ⟨same, hbc⟩ => ⟨same, ih hab hbc⟩

theorem partsLe_total (a b : List String) : (partsLe a b || partsLe b a) = true := by
  induction a generalizing b with
  | nil => rfl
  | cons x xs ih =>
      cases b with
      | nil => rfl
      | cons y ys =>
          simp only [partsLe, Bool.or_eq_true, Bool.and_eq_true, decide_eq_true_eq] at *
          rcases lt_trichotomy x y with lt | rfl | gt
          · exact .inl (.inl lt)
          · exact (ih ys).imp (fun le => .inr ⟨rfl, le⟩) fun le => .inr ⟨rfl, le⟩
          · exact .inr (.inl gt)

theorem le_trans (a b c : Path) (hab : a.le b = true) (hbc : b.le c = true) : a.le c = true :=
  partsLe_trans hab hbc

theorem le_total (a b : Path) : (a.le b || b.le a) = true :=
  partsLe_total a.parts b.parts

end Path

namespace Store

/-- An entry below a folder that is named like a source, with its path. -/
def SourceAt (path : Path) (folder : Entry) (source : Path) (entry : Entry) : Prop :=
  source.suffix ∈ sourceSuffixes ∧
    ∃ location, location ≠ [] ∧ folder.get? location = some entry ∧ source = path.join location

variable {store : Store} {path source : Path} {entry : Entry} {entries : List (String × Entry)}

theorem follow_append (store : Store) (location parts more : List String) :
    store.follow location (parts ++ more) =
      (store.follow location parts).bind (store.follow · more) := by
  induction parts generalizing location with
  | nil => rfl
  | cons name rest ih =>
      simp only [List.cons_append, follow, ih]
      split <;> rfl

/-- Names that are found one in the other are followed to where they are. -/
theorem follow_of_get? {location below : List String} {folder : Entry}
    (here : store.root.get? location = some folder) (there : folder.get? below = some entry)
    (inside : ".." ∉ below) : store.follow location below = some (location ++ below) := by
  induction below generalizing location folder with
  | nil => rw [follow, List.append_nil]
  | cons name rest ih =>
      cases folder with
      | file content => cases there
      | folder entries =>
          obtain ⟨next, at_name, further⟩ := Option.bind_eq_some_iff.1 there
          rw [List.mem_cons, not_or] at inside
          have at_next : store.root.get? (location ++ [name]) = some next := by
            rw [Entry.get?_append, here, Option.bind_some, Entry.get?, at_name]
            rfl
          have open_folder : store.isFolderAt location = true := by rw [isFolderAt, here]
          rw [follow, if_pos open_folder, step, if_neg (Ne.symm inside.1),
            ih at_next further inside.2, List.append_assoc, List.singleton_append]

/-- The path of a source below a folder leads to it. -/
theorem SourceAt.get? (proper : store.root.Proper) (here : store.get? path = some (.folder entries))
    (listed : SourceAt path (.folder entries) source entry) : store.get? source = some entry := by
  obtain ⟨-, below, -, there, rfl⟩ := listed
  obtain ⟨location, at_path, found⟩ := Option.bind_eq_some_iff.1 here
  have inside := ((proper.get? found).1.get? there).2
  have at_source : store.locate? (path.join below) = some (location ++ below) := by
    change store.follow (store.origin path) (path.parts ++ below) = _
    rw [follow_append, show store.follow _ _ = _ from at_path, Option.bind_some,
      follow_of_get? found there inside]
  rw [Store.get?, at_source, Option.bind_some, Entry.get?_append, found, Option.bind_some, there]

theorem expand_eq (here : store.get? path = some (.folder entries)) :
    store.expand path = (((Entry.folder entries).descendants.map path.join).filter
      fun candidate => sourceSuffixes.contains candidate.suffix).mergeSort Path.le := by
  rw [expand, here]
  rfl

theorem pairwise_expand (here : store.get? path = some (.folder entries)) :
    (store.expand path).Pairwise fun a b => a.le b = true := by
  rw [expand_eq here]
  exact List.pairwise_mergeSort Path.le_trans Path.le_total _

section

variable (proper : store.root.Proper) (here : store.get? path = some (.folder entries))

include proper here

theorem proper_folder : (Entry.folder entries).Proper := by
  obtain ⟨location, -, found⟩ := Option.bind_eq_some_iff.1 here
  exact (proper.get? found).1

theorem nodup_expand : (store.expand path).Nodup := by
  rw [expand_eq here, (List.mergeSort_perm _ _).nodup_iff]
  exact ((proper_folder proper here).nodup_descendants.map path.join_injective).filter _

theorem mem_expand : source ∈ store.expand path ↔
    ∃ entry, SourceAt path (.folder entries) source entry := by
  rw [expand_eq here, List.mem_mergeSort, List.mem_filter, List.mem_map]
  constructor
  · rintro ⟨⟨location, mem, rfl⟩, suffix⟩
    obtain ⟨some_name, entry, found⟩ := (proper_folder proper here).mem_descendants.1 mem
    exact ⟨entry, List.contains_iff_mem.1 suffix, location, some_name, found, rfl⟩
  · rintro ⟨entry, suffix, location, some_name, found, rfl⟩
    have mem := (proper_folder proper here).mem_descendants.2 ⟨some_name, entry, found⟩
    exact ⟨⟨location, mem, rfl⟩, List.contains_iff_mem.2 suffix⟩

/-- Of the paths that a folder is expanded to, those of folders have no content. -/
theorem read?_eq_none_iff_of_mem_expand (mem : source ∈ store.expand path) :
    store.read? source = none ↔
      ∃ inner, SourceAt path (.folder entries) source (.folder inner) := by
  obtain ⟨entry, listed⟩ := (mem_expand proper here).1 mem
  have at_source := listed.get? proper here
  cases entry with
  | file content =>
      refine iff_of_false (by simp [read?, at_source]) ?_
      rintro ⟨inner, other⟩
      cases at_source.symm.trans (other.get? proper here)
  | folder inner => exact iff_of_true (by simp [read?, at_source]) ⟨inner, listed⟩

/-- A folder is expanded to source files alone if and only if no folder below it is named like
one. -/
theorem mem_expand_iff_file_iff :
    (∀ source, source ∈ store.expand path ↔
      ∃ content, SourceAt path (.folder entries) source (.file content)) ↔
      ∀ source inner, ¬ SourceAt path (.folder entries) source (.folder inner) := by
  constructor
  · intro files source inner listed
    obtain ⟨content, file⟩ := (files source).1 ((mem_expand proper here).2 ⟨_, listed⟩)
    cases (file.get? proper here).symm.trans (listed.get? proper here)
  · intro no_folder source
    rw [mem_expand proper here]
    constructor
    · rintro ⟨content | inner, listed⟩
      · exact ⟨content, listed⟩
      · exact absurd listed (no_folder source inner)
    · rintro ⟨content, listed⟩
      exact ⟨_, listed⟩

end

end Store
end JsxLint
