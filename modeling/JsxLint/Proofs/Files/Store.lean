import JsxLint.Files.Store

/-!
What writing a file changes in a store. Where a file was there before, only its content changes: all
folders stay folders, so every path leads where it led, and all other files keep their content.
Writing to a place without a file is not considered.
-/

namespace JsxLint
namespace Entry

theorem lookup_filter_ne (entries : List (String × Entry)) (name other : String) :
    (entries.filter fun entry => entry.1 ≠ name).lookup other =
      if other = name then none else entries.lookup other := by
  induction entries with
  | nil => simp
  | cons entry rest ih =>
      obtain ⟨key, value⟩ := entry
      by_cases removed : key = name
      · rw [List.filter_cons_of_neg (by simp [removed]), ih, List.lookup_cons]
        by_cases same : other = name
        · simp [same]
        · simp [same, removed, beq_false_of_ne same]
      · rw [List.filter_cons_of_pos (by simp [removed]), List.lookup_cons, List.lookup_cons, ih]
        by_cases same : other = name
        · simp [same, beq_false_of_ne (Ne.symm removed)]
        · simp [same]

/-- A place in a tree of folders in which the content of one file was changed. -/
inductive Rewritten (location : List String) (new : Bytes) (place : List String)
    (before after : Option Entry) : Prop where
  | written (here : place = location) (content : after = some (.file new))
  | folder {old entries : List (String × Entry)} (away : place ≠ location)
      (was : before = some (.folder old)) (is : after = some (.folder entries))
  | kept (away : place ≠ location) (same : after = before)

theorem get?_put {entry : Entry} {location : List String} {old : Bytes} (new : Bytes)
    (here : entry.get? location = some (.file old)) (place : List String) :
    Rewritten location new place (entry.get? place)
      ((entry.put location (.file new)).get? place) := by
  induction location generalizing entry place with
  | nil =>
      cases place with
      | nil => exact .written rfl rfl
      | cons name rest =>
          obtain rfl := Option.some.inj here
          exact .kept (by simp) rfl
  | cons name rest ih =>
      cases entry with
      | file content => cases here
      | folder entries =>
          obtain ⟨below, at_name, there⟩ := Option.bind_eq_some_iff.1 here
          cases place with
          | nil => exact .folder (by simp) rfl rfl
          | cons other further =>
              simp only [put, get?, List.lookup_append, lookup_filter_ne, at_name, Option.getD_some]
              by_cases same : other = name
              · subst same
                simp only [if_true, Option.none_or, List.lookup_cons_self, at_name,
                  Option.bind_some]
                cases ih there further with
                | written here content => exact .written (by rw [here]) content
                | folder away was is => exact .folder (by simpa using away) was is
                | kept away unchanged => exact .kept (by simpa using away) unchanged
              · refine .kept (by simp [same]) ?_
                simp [same, List.lookup_cons, beq_false_of_ne same]

end Entry

namespace Store

variable {store : Store} {path : Path} {old : Bytes}

theorem read?_eq_some {content : Bytes} :
    store.read? path = some content ↔
      ∃ location, store.locate? path = some location ∧
        store.root.get? location = some (.file content) := by
  unfold read? get?
  cases store.locate? path with
  | none => simp
  | some location =>
      simp only [Option.bind_some, Option.some.injEq, exists_eq_left']
      split <;> simp_all

theorem isFolderAt_write (h : store.read? path = some old) (new : Bytes) (place : List String) :
    (store.write path new).isFolderAt place = store.isFolderAt place := by
  obtain ⟨location, at_path, here⟩ := read?_eq_some.1 h
  simp only [isFolderAt, write, at_path]
  cases Entry.get?_put new here place with
  | written same content => rw [content, same, here]
  | folder _ was is => rw [was, is]
  | kept _ unchanged => rw [unchanged]

theorem follow_write (h : store.read? path = some old) (new : Bytes) (parts place : List String) :
    (store.write path new).follow place parts = store.follow place parts := by
  induction parts generalizing place with
  | nil => rfl
  | cons name rest ih => simp only [follow, isFolderAt_write h, ih]

/-- Every path leads to the place to which it led before. -/
theorem locate?_write (h : store.read? path = some old) (new : Bytes) (other : Path) :
    (store.write path new).locate? other = store.locate? other := by
  obtain ⟨location, at_path, -⟩ := read?_eq_some.1 h
  have origin : (store.write path new).origin other = store.origin other := by
    simp only [Store.origin, write, at_path]
  rw [locate?, locate?, origin, follow_write h]

theorem read?_write_self (h : store.read? path = some old) (new : Bytes) :
    (store.write path new).read? path = some new := by
  obtain ⟨location, at_path, here⟩ := read?_eq_some.1 h
  refine read?_eq_some.2 ⟨location, (locate?_write h new path).trans at_path, ?_⟩
  simp only [write, at_path]
  cases Entry.get?_put new here location with
  | written _ content => exact content
  | folder away | kept away => exact absurd rfl away

theorem read?_write_of_ne (h : store.read? path = some old) (new : Bytes) {other : Path}
    (away : store.locate? other ≠ store.locate? path) :
    (store.write path new).read? other = store.read? other := by
  obtain ⟨location, at_path, here⟩ := read?_eq_some.1 h
  unfold read? get?
  rw [locate?_write h]
  cases at_other : store.locate? other with
  | none => rfl
  | some place =>
      simp only [write, at_path, Option.bind_some]
      cases Entry.get?_put new here place with
      | written same => exact absurd (by rw [at_other, at_path, same]) away
      | folder _ was is => rw [was, is]
      | kept _ unchanged => rw [unchanged]

end Store
end JsxLint
