import Vouch.Lib.Result

/-!
# Reading a sorted list page by page

Rows are listed in the order of a key.  A page is asked for with the key of the last row of the page
before it, and takes the rows whose keys come after that one.  It looks one row further than it
returns, and says by that whether there are more.

* `Order` — a total order of keys.
* `after`, `page` — the rows behind a cursor, and the first of them; rows are opened with `read`,
  which may fail.
* `walk` — pages one after the other, for as long as there are more.
* `walk_eq` — **where no two rows have the same key, the pages together are the list**, opened row
  by row.
* `walk_ends` — in any case the walk comes to an end, and one that does not fail has opened every
  row.
-/

namespace Keyset

open Result

/-- A total order of keys. -/
structure Order (κ : Type) where
  le : κ → κ → Bool
  total : ∀ a b, (le a b || le b a) = true
  trans : ∀ a b c, le a b = true → le b c = true → le a c = true
  antisymm : ∀ a b, le a b = true → le b a = true → a = b

variable {α β κ ε : Type} (order : Order κ) (key : α → κ)

/-- The rows in the order of their keys. -/
def sort (rows : List α) : List α := rows.mergeSort fun a b => order.le (key a) (key b)

/-- The rows whose keys come after a cursor. -/
def after (cursor : Option κ) (rows : List α) : List α :=
  match cursor with
  | none => rows
  | some c => rows.filter fun a => !order.le (key a) c

/-- The first `limit` rows, opened, and whether there are more.  One row more is fetched, but never
more than `cap`. -/
def page (read : α → Except ε β) (cap limit : Nat) (rows : List α) : Except ε (List β × Bool) := do
  let rows := rows.take (if limit + 1 ≤ cap then limit + 1 else cap)
  let hasMore := decide (limit < rows.length)
  let docs ← (rows.take (if hasMore then limit else rows.length)).mapM read
  .ok (docs, hasMore)

/-- Pages one after the other, each from the key of the last row before it; at most `n` of them. -/
def walk (fetch : Option κ → Except ε (List β × Bool)) (keyOf : β → κ) :
    Nat → Option κ → Option (Except ε (List β))
  | 0, _ => none
  | n + 1, cursor =>
    match fetch cursor with
    | .error e => some (.error e)
    | .ok (docs, false) => some (.ok docs)
    | .ok (docs, true) =>
      (walk fetch keyOf n (docs.getLast?.map keyOf)).map fun rest => rest.map (docs ++ ·)

/-! ## One page -/

theorem page_eq {read : α → Except ε β} {cap limit : Nat} {rows : List α}
    (hcap : rows.length ≤ cap) :
    page read cap limit rows =
      if rows.length ≤ limit then (rows.mapM read).map fun docs => (docs, false)
      else ((rows.take limit).mapM read).map fun docs => (docs, true) := by
  rw [page]
  by_cases hle : rows.length ≤ limit
  · have htake : rows.take (if limit + 1 ≤ cap then limit + 1 else cap) = rows := by
      rw [List.take_of_length_le]
      split <;> omega
    have hmore : decide (limit < rows.length) = false := by simpa using hle
    simp only [htake, hmore, Bool.false_eq_true, if_false, List.take_length, if_pos hle]
    cases rows.mapM read <;> rfl
  · have hfetch : limit + 1 ≤ cap := by omega
    have hmore : decide (limit < (rows.take (limit + 1)).length) = true := by
      simp only [List.length_take, decide_eq_true_eq]
      omega
    simp only [if_pos hfetch, hmore, if_true, List.take_take, if_neg hle]
    rw [Nat.min_eq_left (Nat.le_succ limit)]
    cases (rows.take limit).mapM read <;> rfl

/-- The last row of what was opened has the key of the last row. -/
theorem getLast?_map_key {read : α → Except ε β} {keyOf : β → κ}
    (hread : ∀ a b, read a = .ok b → keyOf b = key a) {rows : List α} {docs : List β}
    (h : rows.mapM read = .ok docs) : docs.getLast?.map keyOf = rows.getLast?.map key := by
  rw [← List.getLast?_map, ← List.getLast?_map, map_key key hread h]

/-! ## Behind a row of the list -/

theorem pairwise_sort (rows : List α) :
    (sort order key rows).Pairwise fun a b => order.le (key a) (key b) :=
  List.pairwise_mergeSort (fun a b c => order.trans (key a) (key b) (key c))
    (fun a b => order.total (key a) (key b)) rows

theorem after_sublist (cursor : Option κ) (rows : List α) :
    (after order key cursor rows).Sublist rows := by
  cases cursor with
  | none => exact List.Sublist.refl _
  | some c => exact List.filter_sublist

section Sorted

variable {order key} {rows : List α} (hsorted : rows.Pairwise fun a b => order.le (key a) (key b))

include hsorted in
/-- What comes after the last row of a first part of the rows behind a cursor is among the rest of
them. -/
theorem after_last {cursor : Option κ} {front rest : List α} {a : α}
    (hsplit : after order key cursor rows = (front ++ [a]) ++ rest) :
    after order key (some (key a)) rows = after order key (some (key a)) rest := by
  have hbehind : after order key (some (key a)) rows =
      after order key (some (key a)) (after order key cursor rows) := by
    cases cursor with
    | none => rfl
    | some c =>
      have ha : a ∈ after order key (some c) rows := by
        rw [hsplit]
        simp
      have hca : order.le (key a) c = false := by simpa using (List.mem_filter.1 ha).2
      simp only [after, List.filter_filter]
      refine List.filter_congr fun b _ => ?_
      by_cases hb : order.le (key b) (key a) = true
      · simp [hb]
      · have hbc : order.le (key b) c = false := by
          rw [Bool.eq_false_iff]
          intro hbc
          have hc : order.le c (key a) = true := by
            have htotal := order.total (key a) c
            rwa [hca, Bool.false_or] at htotal
          exact hb (order.trans _ _ _ hbc hc)
        simp [hbc]
  have hpair := hsorted.sublist (after_sublist order key cursor rows)
  rw [hsplit, List.append_assoc, List.pairwise_append] at hpair
  rw [hbehind, hsplit]
  have hle : ∀ b ∈ front ++ [a], order.le (key b) (key a) = true := by
    intro b hb
    rcases List.mem_append.1 hb with hb | hb
    · exact hpair.2.2 b hb a (by simp)
    · obtain rfl := List.mem_singleton.1 hb
      have htotal := order.total (key b) (key b)
      rwa [Bool.or_self] at htotal
  simp only [after]
  rw [List.filter_append, List.filter_eq_nil_iff.2 (fun b hb => by simp [hle b hb]),
    List.nil_append]

end Sorted

/-! ## The walk -/

section Walk

variable {order key} {rows : List α} {read : α → Except ε β} {keyOf : β → κ} {cap limit : Nat}
  (hsorted : rows.Pairwise fun a b => order.le (key a) (key b))
  (hread : ∀ a b, read a = .ok b → keyOf b = key a) (hcap : rows.length ≤ cap) (hlimit : 1 ≤ limit)

/-- Where a page does not take all the rows behind the cursor, it ends in one of them. -/
theorem exists_last {s : List α} (hlimit : 1 ≤ limit) (hlong : limit < s.length) :
    ∃ front a, s.take limit = front ++ [a] ∧ s = (front ++ [a]) ++ s.drop limit := by
  have hne : s.take limit ≠ [] := by
    intro h
    have hlen := congrArg List.length h
    rw [List.length_take, List.length_nil] at hlen
    omega
  refine ⟨(s.take limit).dropLast, (s.take limit).getLast hne, ?_, ?_⟩
  · rw [List.dropLast_concat_getLast]
  · rw [List.dropLast_concat_getLast, List.take_append_drop]

include hsorted hread hcap hlimit

/-- One page of the walk: it is the last one, or fails, or the walk goes on behind its last row. -/
theorem walk_succ (n : Nat) (cursor : Option κ) :
    let s := after order key cursor rows
    let fetch := fun c => page read cap limit (after order key c rows)
    (s.length ≤ limit ∧ walk fetch keyOf (n + 1) cursor = some (s.mapM read)) ∨
      ∃ front a rest, s = (front ++ [a]) ++ rest ∧
        after order key (some (key a)) rows = after order key (some (key a)) rest ∧
        (∀ e, (front ++ [a]).mapM read = .error e →
          walk fetch keyOf (n + 1) cursor = some (.error e)) ∧
        ∀ docs, (front ++ [a]).mapM read = .ok docs → walk fetch keyOf (n + 1) cursor =
          (walk fetch keyOf n (some (key a))).map fun rest => rest.map (docs ++ ·) := by
  intro s fetch
  have hlen : s.length ≤ cap := Nat.le_trans (after_sublist order key cursor rows).length_le hcap
  by_cases hle : s.length ≤ limit
  · refine .inl ⟨hle, ?_⟩
    have hfetch : fetch cursor = _ := page_eq hlen
    rw [walk, hfetch, if_pos hle]
    cases s.mapM read <;> rfl
  · obtain ⟨front, a, htake, hsplit⟩ := exists_last hlimit (Nat.not_le.1 hle)
    have hfetch : fetch cursor = _ := page_eq hlen
    rw [if_neg hle, htake] at hfetch
    refine .inr ⟨front, a, s.drop limit, hsplit, after_last hsorted hsplit, ?_, ?_⟩
    · intro e he
      rw [walk, hfetch, he]
      rfl
    · intro docs hdocs
      have hlast := getLast?_map_key key hread hdocs
      simp only [List.getLast?_concat, Option.map_some] at hlast
      rw [walk, hfetch, hdocs]
      simp [Except.map, hlast]

variable {n : Nat}

/-- **The pages together are the list**, if its rows have different keys. -/
theorem walk_eq (hnodup : (rows.map key).Nodup) :
    ∀ cursor, (after order key cursor rows).length < n →
      walk (fun c => page read cap limit (after order key c rows)) keyOf n cursor =
        some ((after order key cursor rows).mapM read) := by
  induction n with
  | zero => exact fun _ h => absurd h (Nat.not_lt_zero _)
  | succ n ih =>
    intro cursor hn
    rcases walk_succ hsorted hread hcap hlimit n cursor with ⟨-, hwalk⟩ |
      ⟨front, a, rest, hsplit, hbehind, hfail, hmore⟩
    · exact hwalk
    · -- no later row has the key of the last one, so nothing is passed over
      have hrest : after order key (some (key a)) rest = rest := by
        have hsub := after_sublist order key cursor rows
        have hpair := hsorted.sublist hsub
        have hdiff := hnodup.sublist (hsub.map key)
        rw [hsplit] at hpair hdiff
        rw [List.pairwise_append] at hpair
        rw [List.map_append, List.nodup_append] at hdiff
        refine List.filter_eq_self.2 fun b hb => ?_
        have hab := hpair.2.2 a (by simp) b hb
        rw [Bool.not_eq_true', Bool.eq_false_iff]
        intro hba
        exact hdiff.2.2 (key a) (by simp) (key b) (List.mem_map_of_mem hb)
          (order.antisymm _ _ hab hba)
      rw [hsplit] at hn ⊢
      have hlater := ih (some (key a)) (by
        rw [hbehind, hrest]
        simp only [List.length_append, List.length_cons, List.length_nil] at hn
        omega)
      rw [List.mapM_append]
      cases hfront : (front ++ [a]).mapM read with
      | error e => exact hfail e hfront
      | ok docs =>
        rw [hmore docs hfront, hlater, hbehind, hrest]
        cases rest.mapM read <;> rfl

/-- The walk comes to an end.  It fails because a row cannot be opened; if it does not fail, it has
opened every row, where a key determines its row. -/
theorem walk_ends (hsame : ∀ a ∈ rows, ∀ b ∈ rows, key a = key b → a = b) :
    ∀ cursor, (after order key cursor rows).length < n →
      ∃ out, walk (fun c => page read cap limit (after order key c rows)) keyOf n
        cursor = some out ∧
        (∀ e, out = .error e → ∃ a ∈ rows, read a = .error e) ∧
        ∀ docs, out = .ok docs → ∀ a ∈ after order key cursor rows, ∃ b, read a = .ok b := by
  induction n with
  | zero => exact fun _ h => absurd h (Nat.not_lt_zero _)
  | succ n ih =>
    intro cursor hn
    have hsub := after_sublist order key cursor rows
    rcases walk_succ hsorted hread hcap hlimit n cursor with ⟨-, hwalk⟩ |
      ⟨front, a, rest, hsplit, hbehind, hfail, hmore⟩
    · refine ⟨_, hwalk, fun e he => ?_, fun docs => opens_of_mapM⟩
      obtain ⟨a, ha, he⟩ := mapM_eq_error he
      exact ⟨a, hsub.subset ha, he⟩
    · have hpair := hsorted.sublist hsub
      rw [hsplit] at hsub hn hpair ⊢
      cases hfront : (front ++ [a]).mapM read with
      | error e =>
        refine ⟨_, hfail e hfront, ?_, nofun⟩
        rintro _ ⟨⟩
        obtain ⟨b, hb, he⟩ := mapM_eq_error hfront
        exact ⟨b, hsub.subset (List.mem_append_left _ hb), he⟩
      | ok first =>
        obtain ⟨later, hlater, hbad, hgood⟩ := ih (some (key a)) (by
          rw [hbehind]
          have hle := (after_sublist order key (some (key a)) rest).length_le
          simp only [List.length_append, List.length_cons, List.length_nil] at hn
          omega)
        refine ⟨later.map (first ++ ·), by rw [hmore first hfront, hlater]; rfl, ?_, ?_⟩
        · cases later with
          | ok _ => exact nofun
          | error e => exact hbad
        · cases later with
          | error _ => exact nofun
          | ok docs =>
            intro _ _ b hb
            rcases List.mem_append.1 hb with hfr | hre
            · exact opens_of_mapM hfront b hfr
            · -- a row with the key of the last one is that row
              by_cases hba : order.le (key b) (key a) = true
              · have hab := (List.pairwise_append.1 hpair).2.2 a (by simp) b hre
                have heq := hsame b (hsub.subset hb) a (hsub.subset (by simp))
                  (order.antisymm _ _ hba hab)
                exact heq ▸ opens_of_mapM hfront a (by simp)
              · refine hgood docs rfl b ?_
                rw [hbehind]
                exact List.mem_filter.2 ⟨hre, by simpa using hba⟩

end Walk

end Keyset
