import Mathlib.Data.List.DropRight
import Mathlib.Data.List.TakeDrop

/-!
# Canonical email addresses

The server treats addresses as case-insensitive identifiers (`email.rs`): storage, lookup and domain
matching all go through `Email`, which holds an address in canonical form — trimmed of surrounding
whitespace, with its ASCII letters in lower case.  Folding is ASCII only, on purpose.

Text is handled as lists of characters: `trim` and `asciiLowercase` follow `str::trim` and
`str::to_ascii_lowercase`, and `Email` carries the proof that it is canonical, so a mixed-case
address cannot be stored.
-/

namespace Vouch

/-- Unicode `White_Space`, as `char::is_whitespace` has it. -/
def isWhitespace (c : Char) : Bool :=
  let n := c.toNat
  (9 ≤ n && n ≤ 13) || n == 32 || n == 0x85 || n == 0xA0 || n == 0x1680 ||
    (0x2000 ≤ n && n ≤ 0x200A) || n == 0x2028 || n == 0x2029 || n == 0x202F || n == 0x205F ||
    n == 0x3000

/-- `str::trim`. -/
def trim (s : List Char) : List Char :=
  (s.dropWhile isWhitespace).rdropWhile isWhitespace

/-- `str::to_ascii_lowercase`. -/
def asciiLowercase (s : List Char) : List Char := s.map Char.toLower

/-- The full case mapping of the standard library. -/
class UnicodeCase where
  toLowercase : String → String

/-- `str::eq_ignore_ascii_case`. -/
def eqIgnoreAsciiCase (a b : String) : Bool := asciiLowercase a.toList == asciiLowercase b.toList

/-- The parts before and after the last occurrence of a character. -/
def rsplitOnce (c : Char) (s : List Char) : Option (List Char × List Char) :=
  match s.reverse.span (· ≠ c) with
  | (_, []) => none
  | (back, _ :: front) => some (front.reverse, back.reverse)

theorem rsplitOnce_eq_some {c : Char} {s front back : List Char}
    (h : rsplitOnce c s = some (front, back)) : s = front ++ c :: back ∧ c ∉ back := by
  unfold rsplitOnce at h
  rw [List.span_eq_takeWhile_dropWhile] at h
  split at h
  · exact absurd h (by simp)
  · rename_i tail d head heq
    obtain ⟨htail, hhead⟩ := Prod.mk.inj heq
    obtain ⟨rfl, rfl⟩ : head.reverse = front ∧ tail.reverse = back := by simpa using h
    have hne : s.reverse.dropWhile (fun x => decide (x ≠ c)) ≠ [] := by
      rw [hhead]
      exact List.cons_ne_nil d head
    have hd : d = c := by
      have hstop := List.head_dropWhile_not (fun x => decide (x ≠ c)) hne
      simp only [hhead, List.head_cons] at hstop
      simpa using hstop
    have hs : s.reverse = tail ++ d :: head := by
      rw [← htail, ← hhead, List.takeWhile_append_dropWhile]
    constructor
    · rw [← hd, ← List.reverse_inj, hs]
      simp
    · intro hc
      rw [List.mem_reverse, ← htail] at hc
      simpa using List.mem_takeWhile_imp hc

/-- The code point of a lower-cased character. -/
theorem toNat_toLower (c : Char) :
    c.toLower.toNat = if 65 ≤ c.toNat ∧ c.toNat ≤ 90 then c.toNat + 32 else c.toNat := by
  have hiff : (c.val ≥ 'A'.val ∧ c.val ≤ 'Z'.val) ↔ 65 ≤ c.toNat ∧ c.toNat ≤ 90 := by
    rw [ge_iff_le, UInt32.le_iff_toNat_le, UInt32.le_iff_toNat_le]
    rfl
  unfold Char.toLower
  split
  · rename_i h
    rw [if_pos (hiff.mp h)]
    have hZ := (hiff.mp h).2
    show (c.val + ('a'.val - 'A'.val)).toNat = c.toNat + 32
    rw [UInt32.toNat_add, show c.val.toNat = c.toNat from rfl,
      show ('a'.val - 'A'.val).toNat = 32 from by decide]
    omega
  · rename_i h
    rw [if_neg fun hc => h (hiff.mpr hc)]

/-- Lower-casing does not make whitespace, or remove it. -/
theorem isWhitespace_toLower (c : Char) : isWhitespace c.toLower = isWhitespace c := by
  simp only [isWhitespace, toNat_toLower]
  split
  · rw [Bool.eq_iff_iff]
    simp only [Bool.or_eq_true, Bool.and_eq_true, decide_eq_true_eq, beq_iff_eq]
    omega
  · rfl

theorem toLower_toLower (c : Char) : c.toLower.toLower = c.toLower := by
  rw [← Char.toNat_inj, toNat_toLower, toNat_toLower]
  split
  · rw [if_neg (by omega)]
  · rfl

theorem asciiLowercase_idem (s : List Char) :
    asciiLowercase (asciiLowercase s) = asciiLowercase s := by
  rw [asciiLowercase, asciiLowercase, List.map_map]
  refine List.map_congr_left fun c _ => ?_
  exact toLower_toLower c

theorem dropWhile_asciiLowercase (s : List Char) :
    (asciiLowercase s).dropWhile isWhitespace = asciiLowercase (s.dropWhile isWhitespace) := by
  unfold asciiLowercase
  rw [List.dropWhile_map]
  congr 2
  funext c
  exact isWhitespace_toLower c

theorem trim_asciiLowercase (s : List Char) :
    trim (asciiLowercase s) = asciiLowercase (trim s) := by
  have hrev : ∀ s, (asciiLowercase s).reverse = asciiLowercase s.reverse := by
    intro s
    rw [asciiLowercase, asciiLowercase, List.map_reverse]
  rw [trim, trim, List.rdropWhile, List.rdropWhile, dropWhile_asciiLowercase, hrev,
    dropWhile_asciiLowercase, hrev]

/-- Trimming is done after one pass. -/
theorem trimmed_trimmed {α : Type} (p : α → Bool) (s : List α) :
    (((s.dropWhile p).rdropWhile p).dropWhile p).rdropWhile p = (s.dropWhile p).rdropWhile p := by
  have hdrop : ((s.dropWhile p).rdropWhile p).dropWhile p = (s.dropWhile p).rdropWhile p := by
    -- What is left starts where the text without the leading part starts.
    rw [List.dropWhile_eq_self_iff]
    intro hpos
    have hne : s.dropWhile p ≠ [] := by
      intro hnil
      rw [hnil] at hpos
      exact absurd hpos (by simp)
    have hhead : ((s.dropWhile p).rdropWhile p)[0] = (s.dropWhile p).head hne := by
      rw [List.head_eq_getElem]
      exact (List.rdropWhile_prefix p (s.dropWhile p)).getElem hpos
    rw [hhead, List.head_dropWhile_not p]
    decide
  rw [hdrop]
  exact List.rdropWhile_idempotent p _

theorem trim_trim (s : List Char) : trim (trim s) = trim s := trimmed_trimmed isWhitespace s

/-! ## The canonical form -/

/-- The canonical form of an address. -/
def canonicalAddress (raw : String) : String := String.ofList (asciiLowercase (trim raw.toList))

theorem canonicalAddress_idem (raw : String) :
    canonicalAddress (canonicalAddress raw) = canonicalAddress raw := by
  rw [canonicalAddress, canonicalAddress, String.toList_ofList, trim_asciiLowercase, trim_trim,
    asciiLowercase_idem]

/-- An email address in canonical form. -/
structure Email where
  text : String
  canonical : canonicalAddress text = text
  deriving DecidableEq

namespace Email

/-- Canonicalise a raw address. -/
def new (raw : String) : Email := ⟨canonicalAddress raw, canonicalAddress_idem raw⟩

/-- `Email::is_valid_address`: the shape of the addresses the server stores. -/
def isValidAddress (raw : List Char) : Bool :=
  match rsplitOnce '@' (trim raw) with
  | none => false
  | some (front, domain) => !front.isEmpty && !domain.contains '\x00' &&
      !front.any fun c => isWhitespace c || c == '<' || c == '>'

end Email

example : (Email.new " Alice@Example.COM\n").text = "alice@example.com" := by decide

end Vouch
