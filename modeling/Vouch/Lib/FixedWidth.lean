import Mathlib.Tactic.Common

/-!
# Numbers of fixed width in text order

Texts are compared character by character, a text that goes on after another one's end being the
greater.  Numbers written with leading zeros to one width come in the order of their values, and so
do rows of such numbers with the same separators behind them.

* `textLt` — the order.
* `textLt_append` — **fronts of one length decide first**, and only equal fronts leave it to the
  rest.
* `padded` — a number in so many decimal digits; `Fits` says that it has no more.
* `textLt_padded` — padded numbers are compared as numbers.
* `columns` and `before` — a row of padded numbers, each with a separator behind it, and the
  lexicographic order of rows; `textLt_columns` says that the texts are in that order.
-/

namespace FixedWidth

/-! ## The order of texts -/

/-- One text comes before another. -/
def textLt : List Char → List Char → Bool
  | _, [] => false
  | [], _ :: _ => true
  | a :: s, b :: t => decide (a.toNat < b.toNat) || (a == b && textLt s t)

@[simp] theorem textLt_nil (s : List Char) : textLt s [] = false := by
  cases s <;> rfl

theorem textLt_cons {a b : Char} {s t : List Char} :
    textLt (a :: s) (b :: t) = true ↔ a.toNat < b.toNat ∨ (a = b ∧ textLt s t = true) := by
  simp [textLt]

theorem textLt_irrefl (s : List Char) : textLt s s = false := by
  induction s with
  | nil => rfl
  | cons a s ih => simp [textLt, ih]

/-- Of two texts one comes before the other, or they are the same. -/
theorem textLt_total (s t : List Char) : textLt s t = true ∨ s = t ∨ textLt t s = true := by
  induction s generalizing t with
  | nil =>
    cases t with
    | nil => exact .inr (.inl rfl)
    | cons b t => exact .inl rfl
  | cons a s ih =>
    cases t with
    | nil => exact .inr (.inr rfl)
    | cons b t =>
      rcases Nat.lt_trichotomy a.toNat b.toNat with hab | hab | hab
      · exact .inl (textLt_cons.2 (.inl hab))
      · obtain rfl := Char.toNat_inj.1 hab
        rcases ih t with h | h | h
        · exact .inl (textLt_cons.2 (.inr ⟨rfl, h⟩))
        · exact .inr (.inl (by rw [h]))
        · exact .inr (.inr (textLt_cons.2 (.inr ⟨rfl, h⟩)))
      · exact .inr (.inr (textLt_cons.2 (.inl hab)))

/-- Of two texts not both come before the other. -/
theorem textLt_asymm {s t : List Char} (h : textLt s t = true) : textLt t s = false := by
  induction s generalizing t with
  | nil => simp
  | cons a s ih =>
    cases t with
    | nil => simp at h
    | cons b t =>
      rw [Bool.eq_false_iff]
      intro hback
      rcases textLt_cons.1 h with hab | ⟨rfl, hst⟩
      · rcases textLt_cons.1 hback with hba | ⟨rfl, -⟩
        · omega
        · omega
      · rcases textLt_cons.1 hback with haa | ⟨-, hts⟩
        · omega
        · rw [ih hst] at hts
          cases hts

/-- **Fronts of one length decide first.** -/
theorem textLt_append {a b : List Char} (h : a.length = b.length) (s t : List Char) :
    textLt (a ++ s) (b ++ t) = true ↔ textLt a b = true ∨ (a = b ∧ textLt s t = true) := by
  induction a generalizing b with
  | nil =>
    obtain rfl := List.length_eq_zero_iff.1 h.symm
    simp
  | cons x a ih =>
    cases b with
    | nil => simp at h
    | cons y b =>
      have hab := ih (b := b) (by simpa using h)
      simp only [List.cons_append, textLt_cons, hab, List.cons.injEq]
      tauto

/-! ## Padded numbers -/

/-- A number in so many decimal digits, the last ones of it. -/
def padded : Nat → Nat → List Char
  | 0, _ => []
  | width + 1, n => padded width (n / 10) ++ [Nat.digitChar (n % 10)]

/-- A number has no more digits than this. -/
def Fits : Nat → Nat → Prop
  | 0, n => n = 0
  | width + 1, n => Fits width (n / 10)

@[simp] theorem length_padded (width n : Nat) : (padded width n).length = width := by
  induction width generalizing n with
  | zero => rfl
  | succ width ih => simp [padded, ih]

/-- A padded number has digits only. -/
theorem mem_padded {width n : Nat} {c : Char} (h : c ∈ padded width n) :
    48 ≤ c.toNat ∧ c.toNat ≤ 57 := by
  induction width generalizing n with
  | zero => cases h
  | succ width ih =>
    rcases List.mem_append.1 h with h | h
    · exact ih h
    · obtain rfl := List.mem_singleton.1 h
      rw [Nat.toNat_digitChar_of_lt_ten (Nat.mod_lt n (by omega))]
      omega

theorem padded_inj {width m n : Nat} (hm : Fits width m) (hn : Fits width n) :
    padded width m = padded width n ↔ m = n := by
  constructor
  · intro h
    induction width generalizing m n with
    | zero => exact hm.trans hn.symm
    | succ width ih =>
      have hparts := List.append_inj h (by simp)
      have hfront := ih hm hn hparts.1
      have hdigit : (Nat.digitChar (m % 10)).toNat = (Nat.digitChar (n % 10)).toNat := by
        rw [List.singleton_inj.1 hparts.2]
      rw [Nat.toNat_digitChar_of_lt_ten (Nat.mod_lt m (by omega)),
        Nat.toNat_digitChar_of_lt_ten (Nat.mod_lt n (by omega))]
        at hdigit
      omega
  · rintro rfl
    rfl

/-- **Padded numbers are compared as numbers.** -/
theorem textLt_padded {width m n : Nat} (hm : Fits width m) (hn : Fits width n) :
    textLt (padded width m) (padded width n) = true ↔ m < n := by
  induction width generalizing m n with
  | zero =>
    have hm : m = 0 := hm
    have hn : n = 0 := hn
    simp [padded, hm, hn]
  | succ width ih =>
    have hfront : Fits width (m / 10) := hm
    have hfront' : Fits width (n / 10) := hn
    rw [padded, padded, textLt_append (by simp), ih hfront hfront',
      padded_inj hfront hfront', textLt_cons,
      Nat.toNat_digitChar_of_lt_ten (Nat.mod_lt m (by omega)),
        Nat.toNat_digitChar_of_lt_ten (Nat.mod_lt n (by omega))]
    simp only [textLt_nil, Bool.false_eq_true, and_false, or_false]
    omega

/-! ## Rows of numbers -/

/-- Numbers of given widths, each with a separator behind it. -/
def columns : List (Nat × List Char) → List Nat → List Char
  | (width, sep) :: layout, n :: row => padded width n ++ sep ++ columns layout row
  | _, _ => []

/-- Every number of the row fits its column, and there is one for each. -/
def FitAll : List (Nat × List Char) → List Nat → Prop
  | (width, _) :: layout, n :: row => Fits width n ∧ FitAll layout row
  | [], [] => True
  | _, _ => False

/-- The lexicographic order of rows. -/
def before : List Nat → List Nat → Prop
  | m :: row, n :: row' => m < n ∨ (m = n ∧ before row row')
  | _, _ => False

theorem before_irrefl (row : List Nat) : ¬ before row row := by
  induction row with
  | nil => exact id
  | cons n row ih => simp [before, ih]

/-- Rows one part after the other. -/
theorem before_append {a b : List Nat} (h : a.length = b.length) (c d : List Nat) :
    before (a ++ c) (b ++ d) ↔ before a b ∨ (a = b ∧ before c d) := by
  induction a generalizing b with
  | nil =>
    obtain rfl := List.length_eq_zero_iff.1 h.symm
    simp [before]
  | cons x a ih =>
    cases b with
    | nil => simp at h
    | cons y b =>
      have hab := ih (b := b) (by simpa using h)
      simp only [List.cons_append, before, hab, List.cons.injEq]
      tauto

/-- **Rows in columns come in the lexicographic order of their numbers.** -/
theorem textLt_columns {layout : List (Nat × List Char)} {row row' : List Nat}
    (h : FitAll layout row) (h' : FitAll layout row') (s t : List Char) :
    textLt (columns layout row ++ s) (columns layout row' ++ t) = true ↔
      before row row' ∨ (row = row' ∧ textLt s t = true) := by
  induction layout generalizing row row' with
  | nil =>
    cases row with
    | nil =>
      cases row' with
      | nil => simp [columns, before]
      | cons n row' => cases h'
    | cons m row => cases h
  | cons column layout ih =>
    cases row with
    | nil => cases h
    | cons m row =>
      cases row' with
      | nil => cases h'
      | cons n row' =>
        obtain ⟨hm, hrow⟩ := h
        obtain ⟨hn, hrow'⟩ := h'
        simp only [columns, List.append_assoc, before, List.cons.injEq]
        rw [textLt_append (by simp), textLt_padded hm hn, padded_inj hm hn, textLt_append rfl,
          textLt_irrefl, ih hrow hrow']
        simp only [Bool.false_eq_true, false_or, true_and]
        tauto

end FixedWidth
