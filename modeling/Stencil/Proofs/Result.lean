import Mathlib.Data.List.Forall2
/-!
# Result — computations that may fail, taken apart

What a computation of several steps gives is what its steps give, up to the first that fails; the same holds of one
computation for each element of a list.
-/
namespace Stencil

variable {ε α β : Type}

theorem bind_eq_ok {x : Except ε α} {g : α → Except ε β} {b : β} (h : x >>= g = .ok b) :
    ∃ a, x = .ok a ∧ g a = .ok b := by
  cases x with
  | error cause => cases h
  | ok a => exact ⟨a, rfl, h⟩

theorem bind_eq_error {x : Except ε α} {g : α → Except ε β} {cause : ε} (h : x >>= g = .error cause) :
    x = .error cause ∨ ∃ a, x = .ok a ∧ g a = .error cause := by
  cases x with
  | error cause' =>
    cases h
    exact .inl rfl
  | ok a => exact .inr ⟨a, rfl, h⟩

theorem map_eq_ok {x : Except ε α} {g : α → β} {b : β} (h : x.map g = .ok b) : ∃ a, x = .ok a ∧ g a = b := by
  cases x with
  | error cause => cases h
  | ok a =>
    cases h
    exact ⟨a, rfl, rfl⟩

theorem map_eq_error {x : Except ε α} {g : α → β} {cause : ε} (h : x.map g = .error cause) : x = .error cause := by
  cases x with
  | error cause' =>
    cases h
    rfl
  | ok a => cases h

theorem mapError_eq_ok {δ : Type} {x : Except ε α} {raise : ε → δ} {a : α} (h : x.mapError raise = .ok a) : x = .ok a := by
  cases x with
  | error cause => cases h
  | ok b =>
    cases h
    rfl

theorem mapError_eq_error {δ : Type} {x : Except ε α} {raise : ε → δ} {raised : δ} (h : x.mapError raise = .error raised) :
    ∃ cause, x = .error cause ∧ raise cause = raised := by
  cases x with
  | error cause =>
    cases h
    exact ⟨cause, rfl, rfl⟩
  | ok a => cases h

theorem pure_eq_ok {a b : α} (h : (pure a : Except ε α) = .ok b) : a = b := by
  cases h
  rfl

/-! ## Traversals -/

variable {g : α → Except ε β}

theorem mapM_cons_of_error {x : α} {cause : ε} (h : g x = .error cause) (xs : List α) :
    (x :: xs).mapM g = .error cause := by
  rw [List.mapM_cons, h]
  rfl

theorem mapM_cons_of_ok {x : α} {y : β} (h : g x = .ok y) (xs : List α) :
    (x :: xs).mapM g = (xs.mapM g).map (y :: ·) := by
  rw [List.mapM_cons, h]
  cases xs.mapM g <;> rfl

theorem mapM_of_forall₂ {xs : List α} {ys : List β} (h : List.Forall₂ (fun x y => g x = .ok y) xs ys) :
    xs.mapM g = .ok ys := by
  induction h with
  | nil => rfl
  | cons hx _ ih =>
    rw [mapM_cons_of_ok hx, ih]
    rfl

/-- A traversal stops at the first element that fails. -/
theorem mapM_of_first {before after : List α} {x : α} {cause : ε} (hb : ∀ z ∈ before, ∃ y, g z = .ok y)
    (hx : g x = .error cause) : (before ++ x :: after).mapM g = .error cause := by
  induction before with
  | nil => exact mapM_cons_of_error hx after
  | cons z before ih =>
    obtain ⟨y, hy⟩ := hb z List.mem_cons_self
    rw [List.cons_append, mapM_cons_of_ok hy, ih fun w hw => hb w (List.mem_cons_of_mem _ hw)]
    rfl

theorem mapM_cases (g : α → Except ε β) : ∀ xs : List α,
    (∃ ys, List.Forall₂ (fun x y => g x = .ok y) xs ys) ∨
      ∃ before x after cause, xs = before ++ x :: after ∧ (∀ z ∈ before, ∃ y, g z = .ok y) ∧ g x = .error cause
  | [] => .inl ⟨[], .nil⟩
  | x :: xs => by
    cases hx : g x with
    | error cause => exact .inr ⟨[], x, xs, cause, rfl, fun _ h => (nomatch h), hx⟩
    | ok y =>
      rcases mapM_cases g xs with ⟨ys, h⟩ | ⟨before, z, after, cause, rfl, hb, hz⟩
      · exact .inl ⟨y :: ys, .cons hx h⟩
      · refine .inr ⟨x :: before, z, after, cause, rfl, fun w hw => ?_, hz⟩
        rcases List.mem_cons.1 hw with rfl | hw
        · exact ⟨y, hx⟩
        · exact hb w hw

theorem exists_of_forall₂ {R : α → β → Prop} {xs : List α} {ys : List β} (h : List.Forall₂ R xs ys) {x : α}
    (hx : x ∈ xs) : ∃ y ∈ ys, R x y := by
  induction h with
  | nil => cases hx
  | cons hfirst _ ih =>
    rcases List.mem_cons.1 hx with rfl | hx
    · exact ⟨_, List.mem_cons_self, hfirst⟩
    · obtain ⟨y, hy, hxy⟩ := ih hx
      exact ⟨y, List.mem_cons_of_mem _ hy, hxy⟩

theorem map_eq_map_iff_forall₂ {γ : Type} {k : α → γ} {k' : β → γ} {xs : List α} {ys : List β} :
    xs.map k = ys.map k' ↔ List.Forall₂ (fun x y => k x = k' y) xs ys := by
  rw [← List.forall₂_eq_eq_eq, List.forall₂_map_left_iff, List.forall₂_map_right_iff]

end Stencil
