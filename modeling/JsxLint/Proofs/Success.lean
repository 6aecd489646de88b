import JsxLint.Log

/-!
How a computation that can fail comes to succeed: each of its steps did. Later proofs take
successful computations apart with these laws and do not unfold the two monads.
-/

namespace JsxLint

variable {α β : Type}

@[simp] theorem ok_bind (a : α) (f : α → Except Failure β) : Except.ok a >>= f = f a := rfl

@[simp] theorem error_bind (failure : Failure) (f : α → Except Failure β) :
    Except.error failure >>= f = .error failure := rfl

theorem bind_eq_ok {x : Except Failure α} {f : α → Except Failure β} {b : β} :
    x >>= f = .ok b ↔ ∃ a, x = .ok a ∧ f a = .ok b := by
  cases x with
  | error failure => simp
  | ok a => simp

theorem map_eq_ok {x : Except Failure α} {f : α → β} {b : β} :
    f <$> x = .ok b ↔ ∃ a, x = .ok a ∧ f a = b := by
  cases x with
  | error failure => simp [Functor.map, Except.map]
  | ok a => simp [Functor.map, Except.map]

@[simp] theorem pure_eq_ok {a b : α} : (pure a : Except Failure α) = .ok b ↔ a = b :=
  Except.ok.injEq a b ▸ Iff.rfl

theorem eq_ok_of_toOption {x : Except Failure α} {a : α} (h : x.toOption = some a) :
    x = .ok a := by
  cases x with
  | error failure => cases h
  | ok b => exact congrArg Except.ok (Option.some.inj h)

theorem mapM_eq_ok {f : α → Except Failure β} {xs : List α} {ys : List β} :
    xs.mapM f = .ok ys ↔ xs.map f = ys.map .ok := by
  induction xs generalizing ys with
  | nil =>
      rw [List.mapM_nil, pure_eq_ok, List.map_nil, eq_comm (a := []), eq_comm (a := [])]
      exact List.map_eq_nil_iff.symm
  | cons x rest ih =>
      rw [List.mapM_cons, bind_eq_ok]
      constructor
      · rintro ⟨y, hy, h⟩
        obtain ⟨tail, ht, h⟩ := bind_eq_ok.1 h
        obtain rfl := pure_eq_ok.1 h
        rw [List.map_cons, List.map_cons, hy, ih.1 ht]
      · intro h
        cases ys with
        | nil => cases h
        | cons y tail =>
            rw [List.map_cons, List.map_cons, List.cons.injEq] at h
            exact ⟨y, h.1, bind_eq_ok.2 ⟨tail, ih.2 h.2, rfl⟩⟩

theorem exists_of_mapM {f : α → Except Failure β} {xs : List α} {ys : List β}
    (h : xs.mapM f = .ok ys) {y : β} (hy : y ∈ ys) : ∃ x ∈ xs, f x = .ok y := by
  have : Except.ok y ∈ xs.map f := by
    rw [mapM_eq_ok.1 h]
    exact List.mem_map_of_mem hy
  exact List.mem_map.1 this

theorem exists_of_mem_mapM {f : α → Except Failure β} {xs : List α} {ys : List β}
    (h : xs.mapM f = .ok ys) {x : α} (hx : x ∈ xs) : ∃ y ∈ ys, f x = .ok y := by
  have : f x ∈ ys.map Except.ok := by
    rw [← mapM_eq_ok.1 h]
    exact List.mem_map_of_mem hx
  obtain ⟨y, hy, eq⟩ := List.mem_map.1 this
  exact ⟨y, hy, eq.symm⟩

theorem exists_mapM {f : α → Except Failure β} {xs : List α} (h : ∀ x ∈ xs, ∃ y, f x = .ok y) :
    ∃ ys, xs.mapM f = .ok ys := by
  induction xs with
  | nil => exact ⟨[], rfl⟩
  | cons x rest ih =>
      obtain ⟨y, hy⟩ := h x List.mem_cons_self
      obtain ⟨ys, hys⟩ := ih fun other ho => h other (List.mem_cons_of_mem _ ho)
      exact ⟨y :: ys, by rw [List.mapM_cons, hy, ok_bind, hys]; rfl⟩

theorem map_of_mapM {γ : Type} {f : α → Except Failure β} {g : α → γ} {g' : β → γ} {xs : List α}
    {ys : List β} (h : xs.mapM f = .ok ys) (same : ∀ x y, f x = .ok y → g' y = g x) :
    ys.map g' = xs.map g := by
  induction xs generalizing ys with
  | nil =>
      obtain rfl := pure_eq_ok.1 h
      rfl
  | cons x rest ih =>
      rw [List.mapM_cons] at h
      obtain ⟨y, hy, h⟩ := bind_eq_ok.1 h
      obtain ⟨tail, ht, h⟩ := bind_eq_ok.1 h
      obtain rfl := pure_eq_ok.1 h
      rw [List.map_cons, List.map_cons, same x y hy, ih ht]

theorem anyM_eq_false {p : α → Except Failure Bool} {xs : List α} (h : xs.anyM p = .ok false) :
    ∀ x ∈ xs, p x = .ok false := by
  induction xs with
  | nil =>
      intro x hx
      cases hx
  | cons x rest ih =>
      rw [List.anyM_cons] at h
      obtain ⟨found, hp, h⟩ := bind_eq_ok.1 h
      cases found with
      | true => cases h
      | false =>
          intro y hy
          rcases List.mem_cons.1 hy with rfl | hy
          · exact hp
          · exact ih h y hy

theorem anyM_eq_true {p : α → Except Failure Bool} {xs : List α} (h : xs.anyM p = .ok true) :
    ∃ x ∈ xs, p x = .ok true := by
  induction xs with
  | nil => cases h
  | cons x rest ih =>
      rw [List.anyM_cons] at h
      obtain ⟨found, hp, h⟩ := bind_eq_ok.1 h
      cases found with
      | true => exact ⟨x, List.mem_cons_self, hp⟩
      | false =>
          obtain ⟨y, hy, found⟩ := ih h
          exact ⟨y, List.mem_cons_of_mem _ hy, found⟩

theorem exists_anyM {p : α → Except Failure Bool} {xs : List α} (h : ∀ x ∈ xs, ∃ b, p x = .ok b) :
    ∃ b, xs.anyM p = .ok b := by
  induction xs with
  | nil => exact ⟨false, rfl⟩
  | cons x rest ih =>
      obtain ⟨b, hb⟩ := h x List.mem_cons_self
      rw [List.anyM_cons, hb, ok_bind]
      cases b with
      | true => exact ⟨true, rfl⟩
      | false => exact ih fun other ho => h other (List.mem_cons_of_mem _ ho)

/-- A search stops at the first hit, and everything before it was looked at. -/
theorem findSomeM?_eq_some_iff {f : α → Except Failure (Option β)} {xs : List α} {b : β} :
    xs.findSomeM? f = .ok (some b) ↔
      ∃ before x after, xs = before ++ x :: after ∧ (∀ y ∈ before, f y = .ok none) ∧
        f x = .ok (some b) := by
  induction xs with
  | nil => simp [List.findSomeM?]
  | cons x rest ih =>
      rw [List.findSomeM?, bind_eq_ok]
      constructor
      · rintro ⟨found, hf, h⟩
        cases found with
        | some c => exact ⟨[], x, rest, rfl, by simp, by rw [hf]; exact h⟩
        | none =>
            obtain ⟨before, y, after, split, passed, hit⟩ := ih.1 h
            exact ⟨x :: before, y, after, by simp [split], by simpa [hf] using passed, hit⟩
      · rintro ⟨before, y, after, split, passed, hit⟩
        cases before with
        | nil =>
            obtain ⟨rfl, rfl⟩ := List.cons.inj split
            exact ⟨some b, hit, rfl⟩
        | cons first before =>
            obtain ⟨rfl, tail⟩ := List.cons.inj split
            refine ⟨none, passed x List.mem_cons_self, ih.2 ⟨before, y, after, tail, ?_, hit⟩⟩
            exact fun other ho => passed other (List.mem_cons_of_mem _ ho)

theorem findSomeM?_eq_some {f : α → Except Failure (Option β)} {xs : List α} {b : β}
    (h : xs.findSomeM? f = .ok (some b)) : ∃ x ∈ xs, f x = .ok (some b) := by
  obtain ⟨before, x, after, rfl, -, hit⟩ := findSomeM?_eq_some_iff.1 h
  exact ⟨x, by simp, hit⟩

theorem exists_findSomeM? {f : α → Except Failure (Option β)} {xs : List α}
    (h : ∀ x ∈ xs, ∃ b?, f x = .ok b?) : ∃ b?, xs.findSomeM? f = .ok b? := by
  induction xs with
  | nil => exact ⟨none, rfl⟩
  | cons x rest ih =>
      obtain ⟨b?, hb⟩ := h x List.mem_cons_self
      rw [List.findSomeM?, hb, ok_bind]
      cases b? with
      | some b => exact ⟨some b, rfl⟩
      | none => exact ih fun other ho => h other (List.mem_cons_of_mem _ ho)

namespace Logged

@[simp] theorem result_liftM (x : Except Failure α) : (liftM x : Logged α).result = x := rfl

@[simp] theorem result_map (f : α → β) (x : Logged α) : (f <$> x).result = f <$> x.result := by
  rw [map_eq_pure_bind, result_bind]
  cases x.result with
  | error failure => rfl
  | ok a => rfl

theorem liftM_ok_bind (a : α) (f : α → Logged β) :
    (liftM (Except.ok a : Except Failure α) : Logged α) >>= f = f a := rfl

theorem liftM_error_bind (cause : Failure) (f : α → Logged β) :
    (liftM (Except.error cause : Except Failure α) : Logged α) >>= f = ⟨[], .error cause⟩ := rfl

/-- What is recorded by a computation that goes on is recorded first. -/
theorem mk_ok_bind (events : List Event) (a : α) (f : α → Logged β) :
    (⟨events, .ok a⟩ : Logged α) >>= f = ⟨events ++ (f a).events, (f a).result⟩ := rfl

theorem result_mapM (f : α → Logged β) (xs : List α) :
    (xs.mapM f).result = xs.mapM fun x => (f x).result := by
  induction xs with
  | nil => rfl
  | cons x rest ih => simp only [List.mapM_cons, result_bind, result_pure, ih]; rfl

end Logged
end JsxLint
