import Mathlib.Data.List.Forall2

/-!
# Computations that may fail

Two facts about `Except`: a computation goes on with what its first part returned, and it succeeds
exactly when all its parts do.  The second takes a successful run apart, step by step, and with it a
list that is read element by element.
-/

namespace Result

variable {ε α β : Type}

@[simp] theorem ok_bind (a : α) (f : α → Except ε β) : (Except.ok a >>= f) = f a := rfl

@[simp] theorem error_bind (e : ε) (f : α → Except ε β) :
    ((Except.error e : Except ε α) >>= f) = .error e := rfl

/-- A computation in two parts succeeds when both do. -/
theorem bind_eq_ok {x : Except ε α} {f : α → Except ε β} {b : β} :
    (x >>= f) = .ok b ↔ ∃ a, x = .ok a ∧ f a = .ok b := by
  cases x with
  | error e =>
    constructor
    · intro h
      exact absurd h (by simp)
    · rintro ⟨a, ha, -⟩
      exact absurd ha (by simp)
  | ok a =>
    constructor
    · intro h
      exact ⟨a, rfl, h⟩
    · rintro ⟨a', ha, h⟩
      cases ha
      exact h

/-- A check before a computation. -/
theorem check_eq_ok {x : Except ε Unit} {f : Unit → Except ε β} {b : β} :
    (x >>= f) = .ok b ↔ x = .ok () ∧ f () = .ok b := by
  rw [bind_eq_ok]
  exact Unique.exists_iff

/-! ## Lists -/

section Lists

variable {f : α → Except ε β} {l : List α} {m : List β}

/-- A list that is read element by element is read in full. -/
theorem mapM_eq_ok (h : l.mapM f = .ok m) : List.Forall₂ (fun a b => f a = .ok b) l m := by
  induction l generalizing m with
  | nil =>
    cases h
    exact .nil
  | cons a l ih =>
    rw [List.mapM_cons] at h
    obtain ⟨b, hb, h⟩ := bind_eq_ok.1 h
    obtain ⟨rest, hrest, h⟩ := bind_eq_ok.1 h
    cases h
    exact .cons hb (ih hrest)

/-- Everything that was read was read from some element. -/
theorem exists_of_mem_mapM (h : l.mapM f = .ok m) : ∀ b ∈ m, ∃ a ∈ l, f a = .ok b := by
  have hall := mapM_eq_ok h
  clear h
  induction hall with
  | nil => simp
  | cons hab _ ih =>
    simp only [List.exists_mem_cons_iff, List.forall_mem_cons]
    exact ⟨.inl hab, fun b hb => .inr (ih b hb)⟩

theorem opens_of_mapM (h : l.mapM f = .ok m) : ∀ a ∈ l, ∃ b, f a = .ok b := by
  have hall := mapM_eq_ok h
  clear h
  induction hall with
  | nil => simp
  | cons hab _ ih => exact List.forall_mem_cons.2 ⟨⟨_, hab⟩, ih⟩

/-- A list is not read because one of its elements is not. -/
theorem mapM_eq_error {e : ε} (h : l.mapM f = .error e) : ∃ a ∈ l, f a = .error e := by
  induction l with
  | nil => cases h
  | cons a l ih =>
    rw [List.exists_mem_cons_iff]
    rw [List.mapM_cons] at h
    cases ha : f a with
    | error e' =>
      rw [ha] at h
      cases h
      exact .inl rfl
    | ok b =>
      rw [ha, ok_bind] at h
      cases hrest : l.mapM f with
      | error e' =>
        rw [hrest] at h
        cases h
        exact .inr (ih hrest)
      | ok rest =>
        rw [hrest] at h
        cases h

/-- What was read has the keys of the elements. -/
theorem map_key {κ : Type} (key : α → κ) {keyOf : β → κ} (hf : ∀ a b, f a = .ok b → keyOf b = key a)
    (h : l.mapM f = .ok m) : m.map keyOf = l.map key := by
  have hall := mapM_eq_ok h
  clear h
  induction hall with
  | nil => rfl
  | cons hab _ ih => rw [List.map_cons, List.map_cons, hf _ _ hab, ih]

end Lists

/-- `Option::ok_or`. -/
def okOr {ε α : Type} : Option α → ε → Except ε α
  | some a, _ => .ok a
  | none, e => .error e

theorem okOr_eq_ok {ε α : Type} {x : Option α} {e : ε} {a : α} : okOr x e = .ok a ↔ x = some a := by
  cases x with
  | none => simp [okOr]
  | some b => simp [okOr]

end Result
