import Mathlib.Data.Set.Finite.Basic

/-!
# Reading a growing log by a cursor

A log is read page by page.  Two orders meet: the cursor moves by the *key* of a row, and what a
read may see is cut off by its *rank*, so that rows which are still being written stay hidden.  A
read takes the rows behind the cursor whose rank is below the cut, in the order of their keys, and
returns some first part of them.  If rows are left, it names the last key it returned, and the
reader goes on from there; otherwise the reader keeps the cursor it has.

* `Pending` — the rows a read may return.
* `Page` — what it returns of them, and the cursor it names.
* `Run` — one reader's reads, each from the cursor the reads before it left.
* `Overtakes` — a row is hidden at a cut at which two rows with later keys are seen: a page can end
  in the first of the two, and its cursor passes the hidden row.
* `Run.eventually_read` — **nothing is lost without that**: a row that no rows overtake is read, if
  it becomes visible and has finitely many rows before it.
* `Run.not_read` — a row that is hidden until the cursor has passed it is never read, and
  `exists_iterate_eq` leads a reader that takes one row at a time there.
-/

namespace CursorLog

variable {α ι ρ : Type} {key : α → ι} {rank : α → ρ} {rows : Set α} {after : ι} {cut : ρ}
  {pending page : List α} {next : Option ι}

/-! ## One read -/

/-- A page returns everything and names no cursor, or it returns a first part and names the key of
its last row. -/
inductive Page (key : α → ι) (pending : List α) : List α → Option ι → Prop
  | all : Page key pending pending none
  | more {init rest : List α} {last : α} (split : pending = init ++ last :: rest)
      (left : rest ≠ []) : Page key pending (init ++ [last]) (some (key last))

namespace Page

/-- A page is a first part of what is pending. -/
theorem isPrefix (h : Page key pending page next) : page <+: pending := by
  cases h with
  | all => exact List.prefix_refl pending
  | @more init rest last split _ =>
    refine ⟨rest, ?_⟩
    rw [split, List.append_assoc, List.singleton_append]

theorem mem_pending (h : Page key pending page next) {a : α} (ha : a ∈ page) : a ∈ pending :=
  h.isPrefix.subset ha

/-- A page without a cursor leaves nothing. -/
theorem eq_pending (h : Page key pending page none) : page = pending := by
  cases h with
  | all => rfl

end Page

variable [LinearOrder ι] [LinearOrder ρ]

/-- The rows behind the cursor and below the cut, in the order of their keys. -/
structure Pending (key : α → ι) (rank : α → ρ) (rows : Set α) (after : ι) (cut : ρ)
    (pending : List α) : Prop where
  sorted : pending.Pairwise fun a b => key a < key b
  mem_iff : ∀ a, a ∈ pending ↔ a ∈ rows ∧ after < key a ∧ rank a < cut

namespace Page

theorem sorted (h : Page key pending page next) (hp : Pending key rank rows after cut pending) :
    page.Pairwise fun a b => key a < key b :=
  hp.sorted.sublist h.isPrefix.sublist

/-- What a cursor says: it is the key of a row of the page that has a pending row behind it, no row
of the page comes after it, and every pending row up to it is in the page. -/
theorem cursor_spec {k : ι} (h : Page key pending page (some k))
    (hp : Pending key rank rows after cut pending) :
    (∃ b ∈ page, key b = k ∧ ∃ c ∈ pending, key b < key c) ∧
      (∀ a ∈ page, key a ≤ k) ∧ ∀ a ∈ pending, key a ≤ k → a ∈ page := by
  cases h with
  | @more init rest last split left =>
    have hsorted := hp.sorted
    rw [split] at hsorted
    obtain ⟨-, htail, hfront⟩ := List.pairwise_append.1 hsorted
    have hrest := (List.pairwise_cons.1 htail).1
    refine ⟨⟨last, by simp, rfl, ?_⟩, ?_, ?_⟩
    · obtain ⟨c, rest', rfl⟩ := List.exists_cons_of_ne_nil left
      exact ⟨c, by simp [split], hrest c List.mem_cons_self⟩
    · intro a ha
      rcases List.mem_append.1 ha with ha | ha
      · exact (hfront a ha last List.mem_cons_self).le
      · rw [List.mem_singleton.1 ha]
    · intro a ha hle
      rw [split, List.mem_append, List.mem_cons] at ha
      rcases ha with ha | rfl | ha
      · exact List.mem_append_left _ ha
      · simp
      · exact absurd hle (not_le.2 (hrest a ha))

end Page

/-! ## A reader's run -/

/-- The reads of one reader, each from the cursor the ones before it left. -/
structure Run (key : α → ι) (rank : α → ρ) (rows : Set α) where
  cursor : ℕ → ι
  cut : ℕ → ρ
  page : ℕ → List α
  next : ℕ → Option ι
  cut_mono : Monotone cut
  read : ∀ n, ∃ pending, Pending key rank rows (cursor n) (cut n) pending ∧
    Page key pending (page n) (next n)
  cursor_succ : ∀ n, cursor (n + 1) = (next n).getD (cursor n)

namespace Run

variable (r : Run key rank rows)

/-- What a page returns is a row behind the cursor and below the cut. -/
theorem mem_page {n : ℕ} {a : α} (ha : a ∈ r.page n) :
    a ∈ rows ∧ r.cursor n < key a ∧ rank a < r.cut n := by
  obtain ⟨pending, hp, hpage⟩ := r.read n
  exact (hp.mem_iff a).1 (hpage.mem_pending ha)

theorem page_sorted (n : ℕ) : (r.page n).Pairwise fun a b => key a < key b := by
  obtain ⟨pending, hp, hpage⟩ := r.read n
  exact hpage.sorted hp

theorem cursor_of_next {n : ℕ} {k : ι} (h : r.next n = some k) : r.cursor (n + 1) = k := by
  rw [r.cursor_succ, h, Option.getD_some]

/-- A cursor that is named is behind the one before it, and at the end of its page. -/
theorem next_spec {n : ℕ} {k : ι} (h : r.next n = some k) :
    r.cursor n < k ∧ (∃ b ∈ r.page n, key b = k ∧ ∃ c ∈ rows, key b < key c ∧ rank c < r.cut n) ∧
      (∀ a ∈ r.page n, key a ≤ k) ∧
        ∀ a ∈ rows, r.cursor n < key a → rank a < r.cut n → key a ≤ k → a ∈ r.page n := by
  obtain ⟨pending, hp, hpage⟩ := r.read n
  rw [h] at hpage
  obtain ⟨⟨b, hb, rfl, c, hc, hbc⟩, hlast, hall⟩ := hpage.cursor_spec hp
  obtain ⟨hcrow, -, hccut⟩ := (hp.mem_iff c).1 hc
  refine ⟨(r.mem_page hb).2.1, ⟨b, hb, rfl, c, hcrow, hbc, hccut⟩, hlast, ?_⟩
  intro a ha hafter hcut hle
  exact hall a ((hp.mem_iff a).2 ⟨ha, hafter, hcut⟩) hle

/-- A page that names no cursor returns all that is visible behind the cursor. -/
theorem mem_of_next_none {n : ℕ} (h : r.next n = none) {a : α} (ha : a ∈ rows)
    (hafter : r.cursor n < key a) (hcut : rank a < r.cut n) : a ∈ r.page n := by
  obtain ⟨pending, hp, hpage⟩ := r.read n
  rw [h] at hpage
  rw [hpage.eq_pending]
  exact (hp.mem_iff a).2 ⟨ha, hafter, hcut⟩

theorem cursor_le_succ (n : ℕ) : r.cursor n ≤ r.cursor (n + 1) := by
  cases h : r.next n with
  | none => rw [r.cursor_succ, h, Option.getD_none]
  | some k =>
    rw [r.cursor_of_next h]
    exact (r.next_spec h).1.le

/-- The cursor never goes back. -/
theorem cursor_mono : Monotone r.cursor :=
  monotone_nat_of_le_succ r.cursor_le_succ

/-- **A drain returns no row twice.**  A page that is read from a cursor that an earlier page has
left, or a later one, has only rows behind those of the earlier page. -/
theorem key_lt_of_drain {m n : ℕ} (hmn : m < n) {k : ι} (hnext : r.next m = some k) {a b : α}
    (ha : a ∈ r.page m) (hb : b ∈ r.page n) : key a < key b := by
  calc key a ≤ k := (r.next_spec hnext).2.2.1 a ha
    _ = r.cursor (m + 1) := (r.cursor_of_next hnext).symm
    _ ≤ r.cursor n := r.cursor_mono hmn
    _ < key b := (r.mem_page hb).2.1

end Run

/-! ## Rows that are overtaken -/

/-- At the cut `cut` the row `a` is hidden, while two rows with later keys are seen. -/
structure Overtakes (key : α → ι) (rank : α → ρ) (cut : ρ) (a b c : α) : Prop where
  key_lt : key a < key b
  key_lt' : key b < key c
  hidden : cut ≤ rank a
  seen : rank b < cut
  seen' : rank c < cut

namespace Run

variable (r : Run key rank rows)

/-- A row that no rows overtake is returned before the cursor passes it. -/
theorem read_of_passed (hinj : Set.InjOn key rows) {a : α} (ha : a ∈ rows)
    (h : ∀ n, ∀ b ∈ rows, ∀ c ∈ rows, ¬ Overtakes key rank (r.cut n) a b c)
    (hstart : r.cursor 0 < key a) {n : ℕ} (hpassed : key a ≤ r.cursor n) : ∃ m, a ∈ r.page m := by
  induction n with
  | zero => exact absurd hstart (not_lt.2 hpassed)
  | succ n ih =>
    rcases le_or_gt (key a) (r.cursor n) with hbefore | hafter
    · exact ih hbefore
    cases hnext : r.next n with
    | none =>
      rw [r.cursor_succ, hnext, Option.getD_none] at hpassed
      exact absurd hafter (not_lt.2 hpassed)
    | some k =>
      rw [r.cursor_of_next hnext] at hpassed
      obtain ⟨-, ⟨b, hb, rfl, c, hc, hbc, hccut⟩, -, hall⟩ := r.next_spec hnext
      obtain ⟨hbrow, -, hbcut⟩ := r.mem_page hb
      rcases lt_or_ge (rank a) (r.cut n) with hcut | hcut
      · exact ⟨n, hall a ha hafter hcut hpassed⟩
      -- Hidden: the page ends in another row, and that one and the row behind it overtake it.
      have hne : key a ≠ key b := by
        intro hkey
        rw [hinj ha hbrow hkey] at hcut
        exact absurd hbcut (not_lt.2 hcut)
      exact absurd ⟨lt_of_le_of_ne hpassed hne, hbc, hcut, hbcut, hccut⟩ (h n b hbrow c hc)

end Run

/-- What moves on for ever does not stay in a finite set. -/
theorem not_advance_in_finite {s : Set ι} (hs : s.Finite) {f : ℕ → ι}
    (hlt : ∀ n, f n < f (n + 1)) (hmem : ∀ n, f (n + 1) ∈ s) : False := by
  have hmono : StrictMono fun n => f (n + 1) := strictMono_nat_of_lt_succ fun n => hlt (n + 1)
  exact Set.infinite_of_injective_forall_mem hmono.injective hmem hs

namespace Run

variable (r : Run key rank rows)

/-- **A row that no rows overtake is read**, once it is visible, if finitely many rows come before
it. -/
theorem eventually_read (hinj : Set.InjOn key rows) {a : α} (ha : a ∈ rows)
    (h : ∀ n, ∀ b ∈ rows, ∀ c ∈ rows, ¬ Overtakes key rank (r.cut n) a b c)
    (hstart : r.cursor 0 < key a) (hfinite : {b | b ∈ rows ∧ key b < key a}.Finite) {n : ℕ}
    (hvisible : rank a < r.cut n) : ∃ m, a ∈ r.page m := by
  by_contra hnever
  have hunread : ∀ m, a ∉ r.page m := fun m hm => hnever ⟨m, hm⟩
  have hbefore : ∀ m, r.cursor m < key a := fun m =>
    lt_of_not_ge fun hle => hnever (r.read_of_passed hinj ha h hstart hle)
  -- From then on every page leaves it, so that every page moves the cursor, but not past the row.
  have hmoves : ∀ i, ∃ k, r.next (n + i) = some k := by
    intro i
    cases hnext : r.next (n + i) with
    | none =>
      have hcut := lt_of_lt_of_le hvisible (r.cut_mono (Nat.le_add_right n i))
      exact absurd (r.mem_of_next_none hnext ha (hbefore _) hcut) (hunread _)
    | some k => exact ⟨k, rfl⟩
  refine not_advance_in_finite (hfinite.image key) (f := fun i => r.cursor (n + i)) ?_ ?_
  · intro i
    obtain ⟨k, hnext⟩ := hmoves i
    have hk : r.cursor (n + (i + 1)) = k := r.cursor_of_next hnext
    rw [hk]
    exact (r.next_spec hnext).1
  · intro i
    obtain ⟨k, hnext⟩ := hmoves i
    have hk : r.cursor (n + (i + 1)) = k := r.cursor_of_next hnext
    obtain ⟨-, ⟨b, hb, hbk, -⟩, -⟩ := r.next_spec hnext
    refine ⟨b, ⟨(r.mem_page hb).1, ?_⟩, ?_⟩
    · rw [hbk, ← hk]
      exact hbefore _
    · rw [hbk]
      exact hk.symm

/-- A row that is hidden until the cursor has passed it is never read. -/
theorem not_read {a : α} {n : ℕ} (hhidden : ∀ m < n, r.cut m ≤ rank a)
    (hpassed : key a ≤ r.cursor n) (m : ℕ) : a ∉ r.page m := by
  intro ha
  obtain ⟨-, hafter, hcut⟩ := r.mem_page ha
  rcases lt_or_ge m n with hmn | hnm
  · exact absurd hcut (not_lt.2 (hhidden m hmn))
  · exact absurd hafter (not_lt.2 (hpassed.trans (r.cursor_mono hnm)))

end Run

/-- A cursor that moves on through a finite set, and never past `k` as long as it is before it,
comes to `k`. -/
theorem exists_iterate_eq {s : Set ι} (hs : s.Finite) {step : ι → ι} {start k : ι}
    (hstart : start < k) (hstep : ∀ i < k, i < step i ∧ step i ≤ k ∧ step i ∈ s) :
    ∃ n, step^[n] start = k := by
  by_contra hnever
  have hlt : ∀ n, step^[n] start < k := by
    intro n
    induction n with
    | zero => exact hstart
    | succ n ih =>
      refine lt_of_le_of_ne ?_ fun heq => hnever ⟨n + 1, heq⟩
      rw [Function.iterate_succ_apply']
      exact (hstep _ ih).2.1
  refine not_advance_in_finite hs (f := fun n => step^[n] start) ?_ ?_
  · intro n
    rw [Function.iterate_succ_apply']
    exact (hstep _ (hlt n)).1
  · intro n
    rw [Function.iterate_succ_apply']
    exact (hstep _ (hlt n)).2.2

end CursorLog
