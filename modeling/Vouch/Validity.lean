import Vouch.Store.Document

/-!
# Validity windows

`crypto/validity.rs`: every time window the server enforces goes through `ValidityWindow`, which is
judged at an instant the caller supplies.  A window opens at `notBefore` and closes at `expires`;
either end may be missing.  Arithmetic that leaves the range of timestamps never refuses anything:
a window whose end cannot be represented has none.
-/

namespace Vouch

namespace Timestamp

/-- The first and the last instant that a timestamp can hold. -/
def min : Timestamp := -377705023201 * second

/-- The last one. -/
def max : Timestamp := 253402207200 * second + 999999999

/-- `Timestamp::checked_add`, with a number of seconds. -/
def checkedAddSeconds (t : Timestamp) (n : Int) : Option Timestamp :=
  let sum := t.addSeconds n
  if min ≤ sum ∧ sum ≤ max then some sum else none

theorem checkedAddSeconds_eq_some {t u : Timestamp} {n : Int} :
    t.checkedAddSeconds n = some u ↔ u = t.addSeconds n ∧ min ≤ u ∧ u ≤ max := by
  unfold checkedAddSeconds
  simp only
  constructor
  · intro h
    split at h
    · rename_i hr
      cases h
      exact ⟨rfl, hr⟩
    · cases h
  · rintro ⟨rfl, hr⟩
    rw [if_pos hr]

theorem checkedAddSeconds_eq_none {t : Timestamp} {n : Int} :
    t.checkedAddSeconds n = none ↔ t.addSeconds n < min ∨ max < t.addSeconds n := by
  unfold checkedAddSeconds
  simp only [ite_eq_right_iff, reduceCtorEq, imp_false, not_and_or, not_le]

/-- `Timestamp::from_second`. -/
def fromSecond (n : Int) : Option Timestamp :=
  checkedAddSeconds 0 n

/-- `Timestamp::as_second`: the fraction is cut off, towards zero. -/
def asSecond (t : Timestamp) : Int := Int.tdiv t second

/-- `Timestamp::subsec_nanosecond`. -/
def subsecNanosecond (t : Timestamp) : Int := Int.tmod t second

/-- The first whole second that is not before an instant. -/
def ceilSecond (t : Timestamp) : Int := -Int.fdiv (-t) second

/-- A whole second is not before an instant when it is not before the instant rounded up. -/
theorem ceilSecond_le_iff {t : Timestamp} {n : Int} : t.ceilSecond ≤ n ↔ t ≤ n * second := by
  have h : ∀ t n : Int, -Int.fdiv (-t) 1000000000 ≤ n ↔ t ≤ n * 1000000000 := by
    intro t n
    rw [Int.fdiv_eq_ediv_of_nonneg _ (by decide)]
    omega
  exact h t n

/-- The second of a whole second. -/
theorem wholeSecond_addSeconds_zero (n : Int) : wholeSecond (addSeconds 0 n) = n := by
  unfold wholeSecond addSeconds second
  rw [Int.fdiv_eq_ediv_of_nonneg _ (by decide)]
  omega

theorem addSeconds_addSeconds (t : Timestamp) (m n : Int) :
    (t.addSeconds m).addSeconds n = t.addSeconds (m + n) := by
  unfold addSeconds
  rw [Int.add_mul, Int.add_assoc]

/-- Whole seconds that a timestamp can hold. -/
theorem bounds_of_fromSecond {n : Int} {t : Timestamp} (h : fromSecond n = some t) :
    t = addSeconds 0 n ∧ -377705023201 ≤ n ∧ n ≤ 253402207200 := by
  obtain ⟨rfl, hlow, hhigh⟩ := checkedAddSeconds_eq_some.mp h
  have hlow : (-377705023201 * 1000000000 : Int) ≤ 0 + n * 1000000000 := hlow
  have hhigh : (0 + n * 1000000000 : Int) ≤ 253402207200 * 1000000000 + 999999999 := hhigh
  exact ⟨rfl, by omega, by omega⟩

end Timestamp

/-- `i64::saturating_add`. -/
def saturatingAdd (a b : Int) : Int :=
  Max.max (-9223372036854775808) (Min.min 9223372036854775807 (a + b))

/-- A validity window: accepted from `notBefore` until just before `expires`. -/
structure ValidityWindow where
  notBefore : Option Timestamp
  expires : Option Timestamp
  deriving DecidableEq, Repr

namespace ValidityWindow

/-- `nbf` leeway for tokens this server issued. -/
def ownTokenNbfLeewaySecs : Int := 60

/-- The window a token's `exp` and `nbf` claims describe. -/
def fromClaims (exp nbf : Option Timestamp) : ValidityWindow where
  notBefore := nbf
  expires := exp

/-- A window that opens at `issuedAt` and lasts `maxAgeSecs` seconds. -/
def issuedAt (issuedAt : Timestamp) (maxAgeSecs : Int) : ValidityWindow where
  notBefore := some issuedAt
  expires := issuedAt.checkedAddSeconds maxAgeSecs

/-- The window has closed once `now - leeway` reaches its end. -/
def expiredAt (w : ValidityWindow) (now : Timestamp) (leewaySecs : Int) : Bool :=
  w.expires.any fun expires =>
    (now.checkedAddSeconds (-leewaySecs)).any fun skewed => expires ≤ skewed

/-- The window has not opened while `now + leeway` is before its start. -/
def notYetValidAt (w : ValidityWindow) (now : Timestamp) (leewaySecs : Int) : Bool :=
  w.notBefore.any fun notBefore =>
    (now.checkedAddSeconds leewaySecs).any fun skewed => skewed < notBefore

/-- Whether `now` falls inside the window, with a leeway at either end. -/
def acceptsAt (w : ValidityWindow) (now : Timestamp) (expLeewaySecs nbfLeewaySecs : Int) : Bool :=
  !w.expiredAt now expLeewaySecs && !w.notYetValidAt now nbfLeewaySecs

/-- Whether a token this server issued may be accepted at `now`. -/
def acceptsOwnTokenAt (w : ValidityWindow) (now : Timestamp) : Bool :=
  w.expires.isSome && w.acceptsAt now 0 ownTokenNbfLeewaySecs

/-- A window that accepts an instant has opened by then, but for the leeway. -/
theorem notBefore_le_of_acceptsAt {w : ValidityWindow} {now nbf : Timestamp} {exp skew : Int}
    (h : w.acceptsAt now exp skew = true) (hnbf : w.notBefore = some nbf)
    (hrange : nbf ≤ Timestamp.max) (hlow : Timestamp.min ≤ now.addSeconds skew) :
    nbf ≤ now.addSeconds skew := by
  rw [acceptsAt, Bool.and_eq_true, Bool.not_eq_true', Bool.not_eq_true'] at h
  have hopen := h.2
  rw [notYetValidAt, hnbf, Option.any_some] at hopen
  cases hsum : now.checkedAddSeconds skew with
  | none =>
    -- Past the last instant there is, `now + leeway` is after every start.
    rcases Timestamp.checkedAddSeconds_eq_none.mp hsum with hlt | hlt
    · exact absurd hlow (not_le.mpr hlt)
    · exact le_of_lt (lt_of_le_of_lt hrange hlt)
  | some skewed =>
    obtain ⟨rfl, -⟩ := Timestamp.checkedAddSeconds_eq_some.mp hsum
    rw [hsum, Option.any_some, decide_eq_false_iff_not, not_lt] at hopen
    exact hopen

end ValidityWindow

end Vouch
