import Mathlib.Data.List.DropRight
import Vouch.Lib.Calendar
import Vouch.Store.Store

/-!
# Expiry in text

The column `expires_at` holds an instant as text, and the two statements that look at it — the sweep
of `delete_expired_before` and the consuming delete of `delete_if_not_expired` — compare it as text
with the whole second of the clock.

* `Instant` — a `jiff::Timestamp`, within the range of that type; `Instant.text` — its `to_string`.
  A year before 0000 is written with a minus sign and six digits.
* `timestampSeconds` — `TimestampSeconds::from`: the text without the `Z` and without the fraction.
* `timestampSeconds_lt_iff` — **the order of the texts is the order of the seconds, but for two
  different years before 0000**, which come in the opposite order.
* `sweepable`, `consumable` — the predicates of the two statements.
* `expiry_text_order` — the orders, and **exactly one of the two predicates for every row that
  expires**; a row without an expiry is never swept and never consumed.
* `statements_refine_store` — from the year 0000 on the predicates are the ones of the store's
  model, which compares whole seconds.
-/

namespace Vouch

open FixedWidth Calendar

/-- `jiff::Timestamp`: from `-009999-01-02T01:59:59Z` to `9999-12-30T22:00:00.999999999Z`. -/
structure Instant where
  time : Timestamp
  min_le : -377705023201000000000 ≤ (time : Int)
  le_max : (time : Int) ≤ 253402207200999999999

namespace Instant

variable (t : Instant)

/-! ## The text of an instant -/

/-- The whole second. -/
def whole : Int := t.time.wholeSecond

/-- The nanoseconds in that second. -/
def nanosecond : Nat := (Int.fmod t.time Timestamp.second).toNat

/-- The date, in UTC. -/
def date : Date := dateOf (t.whole / 86400 + yearStart 1970)

/-- The second of the day. -/
def secondOfDay : Nat := (t.whole % 86400).toNat

/-- A year as `jiff` writes it. -/
def yearText (year : Int) : List Char :=
  if 0 ≤ year then padded 4 year.toNat else '-' :: padded 6 (-year).toNat

/-- What stands behind the month, the day, the hour, the minute and the second. -/
def layout : List (Nat × List Char) :=
  [(2, ['-']), (2, ['T']), (2, [':']), (2, [':']), (2, [])]

/-- The month, the day, the hour, the minute and the second. -/
def row : List Nat := t.date.inYear ++ clockOf t.secondOfDay

/-- The date and the time of day, to the second. -/
def wholeText : List Char := yearText t.date.year ++ '-' :: columns layout t.row

/-- The fraction of the second, without trailing zeros. -/
def fraction : List Char :=
  if t.nanosecond = 0 then [] else '.' :: (padded 9 t.nanosecond).rdropWhile (· == '0')

/-- `Timestamp::to_string`. -/
def text : List Char := t.wholeText ++ t.fraction ++ ['Z']

/-- `TimestampSeconds::from`. -/
def timestampSeconds : List Char :=
  let text := t.text
  let text := if text.getLast? = some 'Z' then text.dropLast else text
  text.takeWhile (· != '.')

theorem fitAll_row : FitAll layout t.row := by
  have hdate := month_day_le (t.whole / 86400 + yearStart 1970)
  have hsecond : t.secondOfDay < 86400 := by
    unfold secondOfDay
    omega
  simp only [layout, row, date, Date.inYear, clockOf, List.cons_append,
    List.nil_append, FitAll, Fits, and_true]
  omega

theorem day_bounds {n : Int} (hmin : -377705023201000000000 ≤ n)
    (hmax : n ≤ 253402207200999999999) :
    -4371587 ≤ n / 1000000000 / 86400 ∧ n / 1000000000 / 86400 ≤ 2932895 := by
  omega

/-- A year of the range has at most four digits. -/
theorem year_bounds : -9999 ≤ t.date.year ∧ t.date.year ≤ 9999 := by
  have hyear := yearStart_yearOf (t.whole / 86400 + yearStart 1970)
  have hwhole : t.whole = t.time / 1000000000 := Int.fdiv_eq_ediv_of_nonneg _ (by decide)
  have hdays : -4371587 ≤ t.whole / 86400 ∧ t.whole / 86400 ≤ 2932895 := by
    rw [hwhole]
    exact day_bounds t.min_le t.le_max
  have hepoch : yearStart 1970 = 719528 := rfl
  show -9999 ≤ yearOf _ ∧ yearOf _ ≤ 9999
  rw [hepoch] at hyear ⊢
  generalize yearOf (t.whole / 86400 + 719528) = year at hyear ⊢
  unfold yearStart at hyear
  omega

/-! ## What `TimestampSeconds` keeps -/

theorem dot_not_mem_padded (width n : Nat) : '.' ∉ padded width n := by
  intro h
  have hdigit := mem_padded h
  exact absurd hdigit.1 (by decide)

theorem dot_not_mem_wholeText : '.' ∉ t.wholeText := by
  have hyear : '.' ∉ yearText t.date.year := by
    unfold yearText
    split
    · exact dot_not_mem_padded _ _
    · simp [dot_not_mem_padded]
  simp [wholeText, hyear, layout, row, Date.inYear, clockOf, columns, dot_not_mem_padded]

/-- **`TimestampSeconds` is the text up to the second.** -/
theorem timestampSeconds_eq : t.timestampSeconds = t.wholeText := by
  have hlast : t.text.getLast? = some 'Z' := by simp [text]
  have hkeep : ∀ c ∈ t.wholeText, (c != '.') = true := by
    intro c hc
    rw [bne_iff_ne]
    rintro rfl
    exact t.dot_not_mem_wholeText hc
  rw [timestampSeconds, if_pos hlast, text, List.dropLast_concat,
    List.takeWhile_append_of_pos hkeep, fraction]
  split
  · simp
  · simp

theorem wholeText_ne_text (e now : Instant) : now.wholeText ≠ e.text := by
  intro h
  have hZ : 'Z' ∈ now.wholeText := by
    rw [h]
    simp [text]
  have hpad : ∀ width n, 'Z' ∉ padded width n := by
    intro width n hmem
    exact absurd (mem_padded hmem).2 (by decide)
  have hyear : 'Z' ∉ yearText now.date.year := by
    unfold yearText
    split
    · exact hpad _ _
    · simp [hpad]
  revert hZ
  simp [wholeText, hyear, layout, row, Date.inYear, clockOf, columns, hpad]

/-! ## The order of the texts -/

/-- Seconds come in the order of their years, and within a year in the order of the rest. -/
theorem whole_lt_iff (s t : Instant) :
    s.whole < t.whole ↔ s.date.year < t.date.year ∨
      (s.date.year = t.date.year ∧ before s.row t.row) := by
  have hdays : s.whole < t.whole ↔ s.whole / 86400 < t.whole / 86400 ∨
      (s.whole / 86400 = t.whole / 86400 ∧ s.secondOfDay < t.secondOfDay) := by
    unfold secondOfDay
    omega
  have hbefore : s.whole / 86400 < t.whole / 86400 ↔ s.date.year < t.date.year ∨
      (s.date.year = t.date.year ∧ before s.date.inYear t.date.inYear) := by
    rw [← Int.add_lt_add_iff_right (yearStart 1970)]
    exact lt_iff_date
  have hsame : s.whole / 86400 = t.whole / 86400 ↔
      s.date.year = t.date.year ∧ s.date.inYear = t.date.inYear := by
    rw [date, date, ← eq_iff_date]
    omega
  rw [hdays, hbefore, hsame, lt_iff_clock, row, row,
    before_append (a := s.date.inYear) (b := t.date.inYear) rfl]
  simp [and_or_left, or_assoc, and_assoc]

theorem whole_eq_iff (s t : Instant) :
    s.whole = t.whole ↔ s.date.year = t.date.year ∧ s.row = t.row := by
  constructor
  · intro h
    rw [row, row, date, date, secondOfDay, secondOfDay, h]
    exact ⟨rfl, rfl⟩
  · rintro ⟨hyear, hrow⟩
    have hst := whole_lt_iff s t
    have hts := whole_lt_iff t s
    rw [hyear, hrow] at hst hts
    simp only [Int.lt_irrefl, before_irrefl, and_false, or_false, iff_false] at hst hts
    omega

/-- What two years of the same length have in front decides first. -/
theorem textLt_wholeText_append {s t : Instant}
    (h : (yearText s.date.year).length = (yearText t.date.year).length) (u v : List Char) :
    textLt (s.wholeText ++ u) (t.wholeText ++ v) = true ↔
      textLt (yearText s.date.year) (yearText t.date.year) = true ∨
        (yearText s.date.year = yearText t.date.year ∧
          (before s.row t.row ∨ (s.row = t.row ∧ textLt u v = true))) := by
  rw [wholeText, wholeText, List.append_assoc, List.append_assoc, textLt_append h, List.cons_append,
    List.cons_append, textLt_cons, textLt_columns s.fitAll_row t.fitAll_row]
  simp

theorem textLt_yearText {a b : Int} (ha : 0 ≤ a ∧ a ≤ 9999) (hb : 0 ≤ b ∧ b ≤ 9999) :
    (yearText a).length = (yearText b).length ∧
      (textLt (yearText a) (yearText b) = true ↔ a < b) ∧ (yearText a = yearText b ↔ a = b) := by
  have hfits : ∀ {n : Int}, n ≤ 9999 → Fits 4 n.toNat := by
    intro n hn
    simp only [Fits]
    omega
  rw [yearText, yearText, if_pos ha.1, if_pos hb.1, textLt_padded (hfits ha.2) (hfits hb.2),
    padded_inj (hfits ha.2) (hfits hb.2)]
  exact ⟨by simp, by omega, by omega⟩

/-- Years before 0000 come in the opposite order. -/
theorem textLt_yearText_neg {a b : Int} (ha : -9999 ≤ a ∧ a < 0) (hb : -9999 ≤ b ∧ b < 0) :
    (yearText a).length = (yearText b).length ∧
      (textLt (yearText a) (yearText b) = true ↔ b < a) ∧ (yearText a = yearText b ↔ a = b) := by
  have hfits : ∀ {n : Int}, -9999 ≤ n → Fits 6 (-n).toNat := by
    intro n hn
    simp only [Fits]
    omega
  rw [yearText, yearText, if_neg (by omega), if_neg (by omega), textLt_cons, List.cons.injEq,
    textLt_padded (hfits ha.1) (hfits hb.1), padded_inj (hfits ha.1) (hfits hb.1)]
  exact ⟨by simp, by simp; omega, by simp; omega⟩

/-- The minus sign comes before every digit. -/
theorem textLt_of_neg {s t : Instant} (hs : s.date.year < 0) (ht : 0 ≤ t.date.year)
    (u v : List Char) : textLt (s.wholeText ++ u) (t.wholeText ++ v) = true := by
  obtain ⟨c, rest, hcons⟩ : ∃ c rest, padded 4 t.date.year.toNat = c :: rest := ⟨_, _, rfl⟩
  have hmem : c ∈ padded 4 t.date.year.toNat := by simp [hcons]
  have hdigit := mem_padded hmem
  rw [wholeText, wholeText, yearText, yearText, if_neg (by omega), if_pos ht, hcons]
  exact textLt_cons.2 (.inl (by have : '-'.toNat = 45 := rfl; omega))

/-- Two instants not both before the year 0000, whatever stands behind them, are compared by their
seconds first. -/
theorem textLt_wholeText_iff {s t : Instant} (h : 0 ≤ s.date.year ∨ 0 ≤ t.date.year)
    (u v : List Char) :
    textLt (s.wholeText ++ u) (t.wholeText ++ v) = true ↔
      s.whole < t.whole ∨ (s.whole = t.whole ∧ textLt u v = true) := by
  have hs := s.year_bounds
  have ht := t.year_bounds
  rw [whole_lt_iff, whole_eq_iff]
  by_cases hneg : s.date.year < 0
  · have hpos : 0 ≤ t.date.year := by omega
    have hlt : s.date.year < t.date.year := by omega
    simp [textLt_of_neg hneg hpos u v, hlt]
  · by_cases hneg' : t.date.year < 0
    · have hback := textLt_asymm (textLt_of_neg hneg' (Int.not_lt.1 hneg) v u)
      have hne : ¬ s.date.year < t.date.year ∧ ¬ s.date.year = t.date.year := by omega
      simp [hback, hne]
    · obtain ⟨hlen, hlt, heq⟩ := textLt_yearText (a := s.date.year) (b := t.date.year)
        ⟨Int.not_lt.1 hneg, hs.2⟩ ⟨Int.not_lt.1 hneg', ht.2⟩
      rw [textLt_wholeText_append hlen, hlt, heq]
      simp [and_or_left, or_assoc, and_assoc]

/-- **The order of the texts is the order of the seconds, unless both years lie before 0000 and
differ.** -/
theorem timestampSeconds_lt_iff (s t : Instant) :
    (textLt s.timestampSeconds t.timestampSeconds = true ↔ s.whole < t.whole) ↔
      (0 ≤ s.date.year ∨ 0 ≤ t.date.year ∨ s.date.year = t.date.year) := by
  have hs := s.year_bounds
  have ht := t.year_bounds
  rw [timestampSeconds_eq, timestampSeconds_eq, ← List.append_nil s.wholeText,
    ← List.append_nil t.wholeText]
  by_cases h : 0 ≤ s.date.year ∨ 0 ≤ t.date.year
  · rw [textLt_wholeText_iff h]
    simp only [textLt_nil, Bool.false_eq_true, and_false, or_false, true_iff]
    exact h.imp_right .inl
  · obtain ⟨hlen, hlt, heq⟩ := textLt_yearText_neg (a := s.date.year) (b := t.date.year)
      ⟨hs.1, by omega⟩ ⟨ht.1, by omega⟩
    rw [textLt_wholeText_append hlen, hlt, heq, whole_lt_iff]
    simp only [textLt_nil, Bool.false_eq_true, and_false, or_false]
    constructor
    · intro hiff
      have hyear : s.date.year = t.date.year := by
        by_contra hne
        rcases Int.lt_or_gt_of_ne hne with hl | hg
        · have := hiff.2 (.inl hl)
          omega
        · have := hiff.1 (.inl hg)
          omega
      exact .inr (.inr hyear)
    · intro hyear
      have heq : s.date.year = t.date.year := by omega
      simp [heq]

/-! ## The two statements -/

/-- The predicate of `delete_expired_before`. -/
def sweepable (expiresAt : Option Instant) (now : Instant) : Bool :=
  match expiresAt with
  | some e => textLt e.text now.timestampSeconds
  | none => false

/-- The predicate of `delete_if_not_expired`. -/
def consumable (expiresAt : Option Instant) (now : Instant) : Bool :=
  match expiresAt with
  | some e => textLt now.timestampSeconds e.text
  | none => false

/-- **Expiry in text.**  The texts of two instants are in the order of their seconds, unless both
years lie before 0000 and differ; and at every instant exactly one of the two statements takes a row
that expires, and none takes a row that does not. -/
theorem expiry_text_order :
    (∀ s t : Instant, (textLt s.timestampSeconds t.timestampSeconds = true ↔ s.whole < t.whole) ↔
      (0 ≤ s.date.year ∨ 0 ≤ t.date.year ∨ s.date.year = t.date.year)) ∧
    (∀ e now : Instant, sweepable (some e) now = !consumable (some e) now) ∧
    (∀ now : Instant, sweepable none now = false ∧ consumable none now = false) := by
  refine ⟨timestampSeconds_lt_iff, ?_, fun _ => ⟨rfl, rfl⟩⟩
  intro e now
  simp only [sweepable, consumable]
  rw [timestampSeconds_eq]
  rcases textLt_total now.wholeText e.text with h | h | h
  · rw [h, textLt_asymm h]
    rfl
  · exact absurd h (wholeText_ne_text e now)
  · rw [h, textLt_asymm h]
    rfl

/-- The year before 0000 comes after its predecessor, and its text before the other's; and nothing
ever takes a row that does not expire. -/
theorem year_before_zero :
    (∃ s t : Instant, s.whole < t.whole ∧
      textLt t.timestampSeconds s.timestampSeconds = true) ∧
    ∃ now : Instant, sweepable none now = false ∧ consumable none now = false :=
  ⟨⟨⟨-62230000000000000000, by decide, by decide⟩, ⟨-62170000000000000000, by decide, by decide⟩,
    by decide +kernel⟩, ⟨0, by decide, by decide⟩, rfl, rfl⟩

/-! ## The store's model -/

/-- **The statements refine the model of the store.**  From the year 0000 on, the comparisons of
texts take the rows that the model's comparisons of instants take. -/
theorem statements_refine_store {D : Type} {row : Row D} {e now : Instant}
    (hrow : row.expiresAt = some e.time) (h : 0 ≤ e.date.year ∨ 0 ≤ now.date.year) :
    sweepable (some e) now = DocumentStore.expiredBefore now.time row ∧
      consumable (some e) now = StoreTransaction.notExpiredAt now.time row := by
  constructor
  · rw [Bool.eq_iff_iff, sweepable, timestampSeconds_eq, text, List.append_assoc,
      ← List.append_nil now.wholeText, textLt_wholeText_iff h, DocumentStore.expiredBefore, hrow]
    simp [whole]
  · rw [Bool.eq_iff_iff, consumable, timestampSeconds_eq, text, List.append_assoc,
      ← List.append_nil now.wholeText, textLt_wholeText_iff h.symm,
        StoreTransaction.notExpiredAt, hrow]
    have htail : textLt [] (e.fraction ++ ['Z']) = true := by
      cases e.fraction <;> rfl
    simp only [htail, and_true, decide_eq_true_eq, whole]
    exact le_iff_lt_or_eq.symm

theorem statements_refine_store_epoch :
    sweepable (some ⟨0, by decide, by decide⟩) ⟨0, by decide, by decide⟩ = false ∧
      consumable (some ⟨0, by decide, by decide⟩) ⟨0, by decide, by decide⟩ = true :=
  @statements_refine_store Unit ⟨"", (), some 0, 0, 0, 1, none, []⟩ _ _ rfl
    (.inl (by decide +kernel))

end Instant

end Vouch
