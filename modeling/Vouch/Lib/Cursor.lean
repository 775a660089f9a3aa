import Mathlib.Data.List.TakeWhile

/-!
# Reading a text from the front

A reader takes a value off the front of a text and hands back what is left.  A hand-written parser
with a cursor is such a reader: peeking is the head of what is left, advancing is its tail, and a
`while` loop that moves the cursor is `run`.

* `Stops p s` — the text does not begin with a character of the class `p`, so a maximal run of that
  class ends here (`takeWhile_append_stops`, `dropWhile_append_stops`).
* `separated` — texts written one behind the other with a separator between them.
* `loop` and `run` — a loop whose body either leaves or goes round again.  The number of rounds is
  bounded, and `run` bounds it by the length of the text.
* `Leaves` — how the rounds end, with no bound on their number; `leaves_run` says that a loop whose
  rounds shorten the text ends so, and not at its bound.
* `loop_keeps` — what every round keeps holds at the end.
* `run_write` — **a loop undoes repeated writing**: where one round takes off what one `write` puts
  down, the loop takes off a whole list.
* `stricter`, `everyRound`, `loop_stricter` — a loop that goes in step with another and fails where
  the other passes over something.
-/

namespace Cursor

/-- A reader takes a value off the front of a text. -/
abbrev Reader (ε α : Type) := List Char → Except ε (α × List Char)

/-! ## Runs of characters -/

/-- A character of a class is none outside it. -/
theorem ne_of_class {p : Char → Bool} {c d : Char} (hc : p c = true) (hd : p d = false) :
    c ≠ d := by
  rintro rfl
  rw [hc] at hd
  cases hd

/-- The text does not begin with a character of the class. -/
def Stops (p : Char → Bool) (s : List Char) : Prop := ∀ c, s.head? = some c → p c = false

variable {s : List Char}

theorem stops_cons {p : Char → Bool} {c : Char} : Stops p (c :: s) ↔ p c = false := by
  simp [Stops]

/-- A text that begins as another does stops where the other does. -/
theorem Stops.mono {p q : Char → Bool} (h : Stops p s) (hpq : ∀ c, q c = true → p c = true) :
    Stops q s := by
  intro c hc
  cases hq : q c with
  | false => rfl
  | true =>
    have hp := h c hc
    rw [hpq c hq] at hp
    exact absurd hp (by simp)

theorem Stops.takeWhile_eq {p : Char → Bool} (h : Stops p s) : s.takeWhile p = [] := by
  cases s with
  | nil => rfl
  | cons c s => simp [stops_cons.1 h]

theorem Stops.dropWhile_eq {p : Char → Bool} (h : Stops p s) : s.dropWhile p = s := by
  cases s with
  | nil => rfl
  | cons c s => simp [stops_cons.1 h]

theorem takeWhile_append_stops {p : Char → Bool} {l : List Char} (hl : ∀ c ∈ l, p c = true)
    (hs : Stops p s) : (l ++ s).takeWhile p = l := by
  rw [List.takeWhile_append_of_pos hl, hs.takeWhile_eq, List.append_nil]

theorem dropWhile_append_stops {p : Char → Bool} {l : List Char} (hl : ∀ c ∈ l, p c = true)
    (hs : Stops p s) : (l ++ s).dropWhile p = s := by
  rw [List.dropWhile_append_of_pos hl, hs.dropWhile_eq]

/-- A separator that neither text holds ends both at the same place. -/
theorem append_cons_inj {sep : Char} {v w t : List Char} (hv : sep ∉ v) (hw : sep ∉ w)
    (h : v ++ sep :: s = w ++ sep :: t) : v = w ∧ s = t := by
  have hfront : ∀ v s : List Char, sep ∉ v → (v ++ sep :: s).takeWhile (· != sep) = v :=
    fun v s hv => takeWhile_append_stops (fun c hc => bne_iff_ne.2 fun h => hv (h ▸ hc))
      (stops_cons.2 (bne_self_eq_false sep))
  obtain rfl : v = w := by rw [← hfront v s hv, h, hfront w t hw]
  exact ⟨rfl, (List.cons.inj (List.append_cancel_left h)).2⟩

/-- What is left of a run begins with something else. -/
theorem stops_dropWhile (p : Char → Bool) (s : List Char) : Stops p (s.dropWhile p) := by
  intro c hc
  have h := List.head?_dropWhile_not p s
  rw [hc] at h
  simpa using h

theorem foldl_push {α : Type} : ∀ l m : List α, m.foldl (fun l a => l ++ [a]) l = l ++ m
  | l, [] => by simp
  | l, a :: m => by rw [List.foldl_cons, foldl_push (l ++ [a]) m, List.append_assoc]; rfl

/-- Texts one behind the other, with a separator before each but the first. -/
def separated (sep : List Char) : List (List Char) → List Char
  | [] => []
  | first :: rest => first ++ rest.flatMap (sep ++ ·)

/-! ## Loops -/

/-- What one round of a loop says: leave with this state, or go round again. -/
inductive Next (σ : Type) where
  | done (state : σ)
  | more (state : σ)

/-- The state a round hands on. -/
def Next.state {σ : Type} : Next σ → σ
  | done state => state
  | more state => state

section Loop

variable {ε σ : Type}

/-- At most so many rounds; `stuck` is reported when they do not suffice. -/
def loop (stuck : ε) (body : σ → Reader ε (Next σ)) : Nat → σ → Reader ε σ
  | 0, _, _ => .error stuck
  | n + 1, state, s =>
    match body state s with
    | .error e => .error e
    | .ok (.done state, rest) => .ok (state, rest)
    | .ok (.more state, rest) => loop stuck body n state rest

/-- A loop each of whose rounds takes something off the text. -/
def run (stuck : ε) (body : σ → Reader ε (Next σ)) (state : σ) : Reader ε σ :=
  fun s => loop stuck body (s.length + 1) state s

variable {stuck : ε} {body : σ → Reader ε (Next σ)}

/-- What every round keeps holds at the end. -/
theorem loop_keeps {I : σ → List Char → Prop}
    (hstep : ∀ state s next rest, I state s → body state s = .ok (next, rest) → I next.state rest)
    {n : Nat} {state state' : σ} {s rest : List Char} (hI : I state s)
    (h : loop stuck body n state s = .ok (state', rest)) : I state' rest := by
  induction n generalizing state s with
  | zero => simp [loop] at h
  | succ n ih =>
    rw [loop] at h
    split at h
    · cases h
    · rename_i hb
      cases h
      exact hstep _ _ _ _ hI hb
    · rename_i hb
      exact ih (hstep _ _ _ _ hI hb) h

/-- Round after round, until the body leaves or fails by itself. -/
inductive Leaves (body : σ → Reader ε (Next σ)) : σ → List Char → Except ε (σ × List Char) → Prop
  | done {state state' : σ} {s rest : List Char} (h : body state s = .ok (.done state', rest)) :
      Leaves body state s (.ok (state', rest))
  | error {state : σ} {s : List Char} {e : ε} (h : body state s = .error e) :
      Leaves body state s (.error e)
  | more {state state' : σ} {s rest : List Char} {result : Except ε (σ × List Char)}
      (h : body state s = .ok (.more state', rest)) (hrest : Leaves body state' rest result) :
      Leaves body state s result

/-- **A loop whose rounds shorten the text ends by itself**, and not at its bound. -/
theorem leaves_run
    (hshort : ∀ state s state' rest, body state s = .ok (.more state', rest) →
      rest.length < s.length)
    (state : σ) (s : List Char) : Leaves body state s (run stuck body state s) := by
  have hloop : ∀ n state s, s.length < n → Leaves body state s (loop stuck body n state s) := by
    intro n
    induction n with
    | zero =>
      intro state s h
      cases h
    | succ n ih =>
      intro state s hn
      rw [loop]
      split
      · rename_i hb
        exact .error hb
      · rename_i hb
        exact .done hb
      · rename_i hb
        have hlt := hshort _ _ _ _ hb
        exact .more hb (ih _ _ (by omega))
  exact hloop _ state s (Nat.lt_succ_self _)

section Write

-- A round takes off what `w` writes for one `a` and adds it to the state with `p`; `P` says what
-- can be written, `G a` what may stand behind `a`, and the loop leaves at `e` with `r` left to
-- read.
variable {α : Type} {w : α → List Char} {p : σ → α → σ} {P : α → Prop}
  {G : α → List Char → Prop} {e r : List Char}

/-- The induction behind `run_write`. -/
theorem loop_write
    (hmore : ∀ (state : σ) (a : α) (s : List Char), P a → G a s →
      body state (w a ++ s) = .ok (.more (p state a), s))
    (hgood : ∀ (a b : α) (s : List Char), G a (w b ++ s))
    (hfinish : ∀ a, P a → G a e)
    (hdone : ∀ state, body state e = .ok (.done state, r)) :
    ∀ (l : List α) (n : Nat) (state : σ), (∀ a ∈ l, P a) → l.length < n →
      loop stuck body n state (l.flatMap w ++ e) = .ok (l.foldl p state, r)
  | _, 0, _, _, hn => absurd hn (Nat.not_lt_zero _)
  | [], n + 1, state, _, _ => by
    rw [List.flatMap_nil, List.nil_append, loop, hdone state]
    rfl
  | a :: l, n + 1, state, hl, hn => by
    have ha := hl a List.mem_cons_self
    have hrest : G a (l.flatMap w ++ e) := by
      cases l with
      | nil => exact hfinish a ha
      | cons b l =>
        rw [List.flatMap_cons, List.append_assoc]
        exact hgood a b _
    rw [List.flatMap_cons, List.append_assoc, loop, hmore state a _ ha hrest]
    exact loop_write hmore hgood hfinish hdone l n _ (fun b hb => hl b (List.mem_cons_of_mem _ hb))
      (by simpa using hn)

theorem length_le_length_flatMap (hwrite : ∀ a, w a ≠ []) :
    ∀ l : List α, l.length ≤ (l.flatMap w).length
  | [] => Nat.zero_le _
  | a :: l => by
    have ha := List.length_pos_iff.2 (hwrite a)
    have hl := length_le_length_flatMap hwrite l
    rw [List.flatMap_cons, List.length_append, List.length_cons]
    omega

/-- **A loop undoes repeated writing.** -/
theorem run_write
    (hwrite : ∀ a, w a ≠ [])
    (hmore : ∀ (state : σ) (a : α) (s : List Char), P a → G a s →
      body state (w a ++ s) = .ok (.more (p state a), s))
    (hgood : ∀ (a b : α) (s : List Char), G a (w b ++ s))
    (hfinish : ∀ a, P a → G a e)
    (hdone : ∀ state, body state e = .ok (.done state, r)) (l : List α)
    (hl : ∀ a ∈ l, P a) (state : σ) :
    run stuck body state (l.flatMap w ++ e) = .ok (l.foldl p state, r) := by
  refine loop_write hmore hgood hfinish hdone l _ state hl ?_
  have hlen := length_le_length_flatMap hwrite l
  rw [List.length_append]
  omega

end Write

end Loop

/-! ## Stricter readers

A reader that refuses what another one passes over: it goes the same way, and fails where the other
goes on although something is not `good`. -/

section Stricter

variable {ε α β σ τ : Type}

/-- What is left of an outcome once it has to be good, too. -/
def stricter (good : Bool) (f : α → β) : Except ε (α × List Char) → Except Unit (β × List Char)
  | .ok (a, rest) => if good then .ok (f a, rest) else .error ()
  | .error _ => .error ()

/-- The same for one round of a loop: leaving is always good, going round again depends on the text
before and behind the round. -/
def stricterRound (good : List Char → List Char → Bool) (f : σ → τ) (s : List Char) :
    Except ε (Next σ × List Char) → Except Unit (Next τ × List Char)
  | .ok (.done state, rest) => .ok (.done (f state), rest)
  | .ok (.more state, rest) => if good s rest then .ok (.more (f state), rest) else .error ()
  | .error _ => .error ()

/-- Every round of the loop that goes on is good. -/
def everyRound (good : List Char → List Char → Bool) (body : σ → Reader ε (Next σ)) :
    Nat → σ → List Char → Bool
  | 0, _, _ => true
  | n + 1, state, s =>
    match body state s with
    | .ok (.more state, rest) => good s rest && everyRound good body n state rest
    | .ok (.done _, _) => true
    | .error _ => true

/-- **Loops in step**: a loop whose rounds are stricter is the stricter loop. -/
theorem loop_stricter {stuck : ε} {good : List Char → List Char → Bool} {f : σ → τ}
    {body : σ → Reader ε (Next σ)} {strict : τ → Reader Unit (Next τ)}
    (h : ∀ state s, strict (f state) s = stricterRound good f s (body state s)) :
    ∀ (n : Nat) (state : σ) (s : List Char),
      loop () strict n (f state) s =
        stricter (everyRound good body n state s) f (loop stuck body n state s)
  | 0, _, _ => rfl
  | n + 1, state, s => by
    rw [loop, loop, everyRound, h state s]
    cases hb : body state s with
    | error e => rfl
    | ok out =>
      obtain ⟨next, rest⟩ := out
      cases next with
      | done last => rfl
      | more next =>
        simp only [stricterRound]
        cases hgood : good s rest with
        | true =>
          simp only [if_true, Bool.true_and]
          exact loop_stricter h n next rest
        | false =>
          simp only [Bool.false_eq_true, if_false, Bool.false_and]
          cases loop stuck body n next rest <;> rfl

end Stricter

end Cursor
