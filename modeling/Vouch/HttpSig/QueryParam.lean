import Vouch.HttpSig.Message

/-!
# Query parameters

What `resolve_query_param` and `form_urlencoded_component` (`component.rs`) make of a query.  A raw
name or value is decoded — a plus sign stands for a space, an escape for the byte it names, and
whatever is no UTF-8 for replacement characters — and the text it stands for is encoded again in one
fixed way.

Decoding tolerates escapes that are none, so many raw texts stand for one text and encoding does not
undo decoding.  The other direction is exact, and everything follows from it: `lossyText_encoded`
says that the fixed encoding of a text stands for that text.

* `Writes`, `Decodes` — the ways of writing a byte, and the bytes a raw name or value is written
  for, as the URL Standard has them; `decodes_iff` — the code reads these bytes.
* `lossyText` — the text a raw name or value stands for.
* `Canonical` — the texts the encoding writes.
* `fromUtf8Lossy_utf8Bytes`, `formUrlencodedDecode_percentEncodeForm` — reading undoes writing, for
  the bytes of a text and for the escapes of a byte.
* `queryPairs` — the pairs of a query; `resolveQueryParam_eq` — the answer, from the values under a
  name.
* `query_params_canonical` — **the encoding is canonical, and a query parameter depends on what the
  pairs stand for, not on how they are written.**
-/

namespace Vouch.HttpSig

open Result

/-! ## Bytes of a text -/

theorem toNat_ofNat_byte {n : Nat} (h : n < 256) : (UInt8.ofNat n).toNat = n := by
  rw [UInt8.toNat_ofNat']
  exact Nat.mod_eq_of_lt h

variable {a b : Nat}

/-- A byte that goes on with a character. -/
theorem isContinuation_ofNat (hb : b < 64) : isContinuation (UInt8.ofNat (b + 128)) = true := by
  simp (disch := omega) only [isContinuation, Bool.and_eq_true, decide_eq_true_eq,
    UInt8.le_iff_toNat_le, toNat_ofNat_byte]
  exact ⟨by simp, by simp; omega⟩

/-- A byte that may stand behind the first one. -/
theorem isSecond_ofNat (ha : a < 256) (hb : b < 64) (h224 : a = 224 → 32 ≤ b)
    (h237 : a = 237 → b < 32) (h240 : a = 240 → 16 ≤ b) (h244 : a = 244 → b < 16) :
    isSecond (UInt8.ofNat a) (UInt8.ofNat (b + 128)) = true := by
  simp (disch := omega) only [isSecond, isContinuation, ← UInt8.toNat_inj, UInt8.le_iff_toNat_le,
    toNat_ofNat_byte]
  simp only [UInt8.reduceToNat]
  split_ifs <;> simp <;> omega

theorem lossyChar_one (ha : a < 128) (rest : List UInt8) :
    lossyChar (UInt8.ofNat a) rest = (Char.ofNat a, 0) := by
  simp (disch := omega) only [lossyChar, UInt8.lt_iff_toNat_lt, UInt8.le_iff_toNat_le,
    toNat_ofNat_byte, UInt8.reduceToNat]
  rw [if_pos ha]

theorem lossyChar_two (ha : a < 32) (hlow : 2 ≤ a) (hb : b < 64) (rest : List UInt8) :
    lossyChar (UInt8.ofNat (a + 192)) (UInt8.ofNat (b + 128) :: rest) =
      (Char.ofNat (a * 64 + b), 1) := by
  simp (disch := omega) only [lossyChar, UInt8.lt_iff_toNat_lt, UInt8.le_iff_toNat_le,
    toNat_ofNat_byte, isContinuation_ofNat hb, UInt8.reduceToNat, if_true]
  rw [if_neg (by omega), if_pos (by omega), show (a + 192) % 32 = a by omega,
    show (b + 128) % 64 = b by omega]

theorem lossyChar_three {c : Nat} (ha : a < 16) (hb : b < 64) (hc : c < 64) (hlow : a = 0 → 32 ≤ b)
    (hhigh : a = 13 → b < 32) (rest : List UInt8) :
    lossyChar (UInt8.ofNat (a + 224)) (UInt8.ofNat (b + 128) :: UInt8.ofNat (c + 128) :: rest) =
      (Char.ofNat (a * 4096 + b * 64 + c), 2) := by
  have hsecond : isSecond (UInt8.ofNat (a + 224)) (UInt8.ofNat (b + 128)) = true :=
    isSecond_ofNat (by omega) hb (by omega) (by omega) (by omega) (by omega)
  simp (disch := omega) only [lossyChar, UInt8.lt_iff_toNat_lt, UInt8.le_iff_toNat_le,
    toNat_ofNat_byte, isContinuation_ofNat hc, hsecond, UInt8.reduceToNat, if_true]
  rw [if_neg (by omega), if_neg (by omega), if_pos (by omega),
    show (a + 224) % 16 = a by omega, show (b + 128) % 64 = b by omega,
    show (c + 128) % 64 = c by omega]

theorem lossyChar_four {c d : Nat} (ha : a ≤ 4) (hb : b < 64) (hc : c < 64) (hd : d < 64)
    (hlow : a = 0 → 16 ≤ b) (hhigh : a = 4 → b < 16) (rest : List UInt8) :
    lossyChar (UInt8.ofNat (a + 240))
        (UInt8.ofNat (b + 128) :: UInt8.ofNat (c + 128) :: UInt8.ofNat (d + 128) :: rest) =
      (Char.ofNat (a * 262144 + b * 4096 + c * 64 + d), 3) := by
  have hsecond : isSecond (UInt8.ofNat (a + 240)) (UInt8.ofNat (b + 128)) = true :=
    isSecond_ofNat (by omega) hb (by omega) (by omega) (by omega) (by omega)
  simp (disch := omega) only [lossyChar, UInt8.lt_iff_toNat_lt, UInt8.le_iff_toNat_le,
    toNat_ofNat_byte, isContinuation_ofNat hc, isContinuation_ofNat hd, hsecond,
    UInt8.reduceToNat, if_true]
  rw [if_neg (by omega), if_neg (by omega), if_neg (by omega), if_pos (by omega),
    show (a + 240) % 8 = a by omega, show (b + 128) % 64 = b by omega,
    show (c + 128) % 64 = c by omega, show (d + 128) % 64 = d by omega]

/-- The bytes of a character are read as that character. -/
theorem lossyChar_utf8EncodeChar (c : Char) :
    ∃ first tail, String.utf8EncodeChar c = first :: tail ∧
      ∀ rest, lossyChar first (tail ++ rest) = (c, tail.length) := by
  have hvalid : c.val.toNat < 55296 ∨ 57343 < c.val.toNat ∧ c.val.toNat < 1114112 := c.valid
  have hchar : Char.ofNat c.val.toNat = c := Char.ofNat_toNat c
  generalize hv : c.val.toNat = v at hvalid hchar
  rw [String.utf8EncodeChar, hv]
  -- as many bytes as the code point needs
  by_cases h1 : v ≤ 127
  · rw [if_pos h1]
    refine ⟨_, _, rfl, fun rest => ?_⟩
    rw [List.nil_append, lossyChar_one (by omega), hchar]
    rfl
  rw [if_neg h1]
  by_cases h2 : v ≤ 2047
  · rw [if_pos h2]
    refine ⟨_, _, rfl, fun rest => ?_⟩
    rw [List.cons_append, List.nil_append, lossyChar_two (by omega) (by omega) (by omega),
      show v / 64 % 32 * 64 + v % 64 = v by omega, hchar]
    rfl
  rw [if_neg h2]
  by_cases h3 : v ≤ 65535
  · rw [if_pos h3]
    refine ⟨_, _, rfl, fun rest => ?_⟩
    rw [List.cons_append, List.cons_append, List.nil_append, lossyChar_three (by omega) (by omega)
        (by omega) (by omega) (by omega),
      show v / 4096 % 16 * 4096 + v / 64 % 64 * 64 + v % 64 = v by omega, hchar]
    rfl
  · rw [if_neg h3]
    refine ⟨_, _, rfl, fun rest => ?_⟩
    rw [List.cons_append, List.cons_append, List.cons_append, List.nil_append,
      lossyChar_four (by omega) (by omega) (by omega) (by omega) (by omega) (by omega),
      show v / 262144 % 8 * 262144 + v / 4096 % 64 * 4096 + v / 64 % 64 * 64 + v % 64 = v by omega,
      hchar]
    rfl

/-- **The bytes of a text are read as that text.** -/
theorem fromUtf8Lossy_utf8Bytes (text : List Char) : fromUtf8Lossy (utf8Bytes text) = text := by
  induction text with
  | nil => rw [utf8Bytes, List.flatMap_nil, fromUtf8Lossy]
  | cons c text ih =>
    obtain ⟨first, tail, hbytes, hread⟩ := lossyChar_utf8EncodeChar c
    have hcons : utf8Bytes (c :: text) = first :: (tail ++ utf8Bytes text) := by
      rw [utf8Bytes, List.flatMap_cons, hbytes, List.cons_append, utf8Bytes]
    rw [hcons, fromUtf8Lossy, hread, List.drop_left, ih]

/-! ## Escapes -/

/-- The characters the encoding writes as they are. -/
def isFormChar (c : Char) : Bool := c.isAlphanum || c == '*' || c == '-' || c == '.' || c == '_'

/-- The digits of an escape. -/
def isUpperHexDigit (c : Char) : Bool := c.isDigit || (65 ≤ c.toNat && c.toNat ≤ 70)

/-- The texts the encoding writes. -/
inductive Canonical : List Char → Prop
  | nil : Canonical []
  | plain {c : Char} {rest : List Char} (hc : isFormChar c = true) (h : Canonical rest) :
      Canonical (c :: rest)
  | escape {hi lo : Char} {rest : List Char} (hhi : isUpperHexDigit hi = true)
      (hlo : isUpperHexDigit lo = true) (h : Canonical rest) : Canonical ('%' :: hi :: lo :: rest)

/-- What the encoding writes for a byte. -/
def encodeByte (byte : UInt8) : List Char :=
  if isFormChar (Char.ofNat byte.toNat) then [Char.ofNat byte.toNat] else '%' :: upperHexByte byte

theorem percentEncodeForm_cons (byte : UInt8) (bytes : List UInt8) :
    percentEncodeForm (byte :: bytes) = encodeByte byte ++ percentEncodeForm bytes := rfl

/-- The upper-case hexadecimal digit of a number. -/
def upperHexDigit (n : Nat) : Char := (Nat.digitChar n).toUpper

theorem upperHexByte_eq (byte : UInt8) :
    upperHexByte byte = [upperHexDigit (byte.toNat / 16), upperHexDigit (byte.toNat % 16)] := rfl

/-- A digit is one byte, and is read as its number. -/
theorem upperHexDigit_spec {n : Nat} (h : n < 16) :
    String.utf8EncodeChar (upperHexDigit n) = [UInt8.ofNat (upperHexDigit n).toNat] ∧
      hexVal (UInt8.ofNat (upperHexDigit n).toNat) = some (UInt8.ofNat n) ∧
      isUpperHexDigit (upperHexDigit n) = true := by
  have hall : ∀ n : Fin 16,
      String.utf8EncodeChar (upperHexDigit n) = [UInt8.ofNat (upperHexDigit n).toNat] ∧
        hexVal (UInt8.ofNat (upperHexDigit n).toNat) = some (UInt8.ofNat n) ∧
        isUpperHexDigit (upperHexDigit n) = true := by decide +kernel
  exact hall ⟨n, h⟩

theorem nibbles (byte : UInt8) :
    UInt8.ofNat (byte.toNat / 16) <<< 4 ||| UInt8.ofNat (byte.toNat % 16) = byte := by
  revert byte
  exact forall_byte (by decide +kernel)

/-- A byte that is written as it is stands for itself. -/
theorem isFormChar_spec : ∀ {byte : UInt8}, isFormChar (Char.ofNat byte.toNat) = true →
    String.utf8EncodeChar (Char.ofNat byte.toNat) = [byte] ∧ byte ≠ 37 ∧ byte ≠ 43 :=
  @(forall_byte (by decide +kernel))

theorem formUrlencodedDecode_plain {byte : UInt8} (hpercent : byte ≠ 37) (hplus : byte ≠ 43)
    (rest : List UInt8) :
    formUrlencodedDecode (byte :: rest) = byte :: formUrlencodedDecode rest := by
  rw [formUrlencodedDecode.eq_2 _ _ (by rintro _ _ _ rfl; exact (hpercent rfl).elim), if_neg hplus]

/-- What is written for a byte is read as that byte. -/
theorem formUrlencodedDecode_encodeByte (byte : UInt8) (rest : List UInt8) :
    formUrlencodedDecode (utf8Bytes (encodeByte byte) ++ rest) =
      byte :: formUrlencodedDecode rest := by
  rw [encodeByte]
  split
  case isTrue hplain =>
    obtain ⟨hbytes, hpercent, hplus⟩ := isFormChar_spec hplain
    rw [utf8Bytes, List.flatMap_cons, List.flatMap_nil, hbytes]
    exact formUrlencodedDecode_plain hpercent hplus rest
  case isFalse =>
    have hlt := byte.toNat_lt
    obtain ⟨hhi, hhiVal, -⟩ := upperHexDigit_spec (n := byte.toNat / 16) (by omega)
    obtain ⟨hlo, hloVal, -⟩ := upperHexDigit_spec (n := byte.toNat % 16) (by omega)
    have hbytes : utf8Bytes ('%' :: upperHexByte byte) =
        [37, UInt8.ofNat (upperHexDigit (byte.toNat / 16)).toNat,
          UInt8.ofNat (upperHexDigit (byte.toNat % 16)).toNat] := by
      rw [upperHexByte_eq, utf8Bytes, List.flatMap_cons, List.flatMap_cons, List.flatMap_cons,
        List.flatMap_nil, hhi, hlo]
      rfl
    rw [hbytes, List.cons_append, List.cons_append, List.cons_append, List.nil_append,
      formUrlencodedDecode, hhiVal, hloVal]
    exact congrArg (· :: formUrlencodedDecode rest) (nibbles byte)

theorem utf8Bytes_append (s t : List Char) : utf8Bytes (s ++ t) = utf8Bytes s ++ utf8Bytes t :=
  List.flatMap_append

/-- **Decoding undoes encoding.** -/
theorem formUrlencodedDecode_percentEncodeForm (bytes : List UInt8) :
    formUrlencodedDecode (utf8Bytes (percentEncodeForm bytes)) = bytes := by
  induction bytes with
  | nil => rfl
  | cons byte bytes ih =>
    rw [percentEncodeForm_cons, utf8Bytes_append, formUrlencodedDecode_encodeByte, ih]

theorem canonical_percentEncodeForm (bytes : List UInt8) : Canonical (percentEncodeForm bytes) := by
  induction bytes with
  | nil => exact .nil
  | cons byte bytes ih =>
    have hlt := byte.toNat_lt
    rw [percentEncodeForm_cons, encodeByte]
    split
    case isTrue hplain => exact .plain hplain ih
    case isFalse =>
      exact .escape (upperHexDigit_spec (n := byte.toNat / 16) (by omega)).2.2
        (upperHexDigit_spec (n := byte.toNat % 16) (by omega)).2.2 ih

/-! ## What a raw text is written for -/

/-- A hexadecimal digit, of either case, and its value. -/
def HexDigit (c : UInt8) (d : Nat) : Prop :=
  d < 10 ∧ c.toNat = 48 + d ∨ 10 ≤ d ∧ d < 16 ∧ (c.toNat = 55 + d ∨ c.toNat = 87 + d)

instance (c : UInt8) (d : Nat) : Decidable (HexDigit c d) := inferInstanceAs (Decidable (_ ∨ _))

/-- The ways of writing a byte: a plus sign for a space, an escape with digits of either case for
any byte, needed or not, and the byte itself. -/
inductive Writes : UInt8 → List UInt8 → Prop
  | plus : Writes 32 [43]
  | escape {hi lo : UInt8} {h l : Nat} (hhi : HexDigit hi h) (hlo : HexDigit lo l) :
      Writes (UInt8.ofNat (16 * h + l)) [37, hi, lo]
  | itself {byte : UInt8} (hplus : byte ≠ 43) (hpercent : byte ≠ 37) : Writes byte [byte]

/-- The bytes a raw text is written for (URL Standard §5.1).  A percent sign that two digits do not
follow stands for itself. -/
inductive Decodes : List UInt8 → List UInt8 → Prop
  | nil : Decodes [] []
  | byte {byte : UInt8} {written rest bytes : List UInt8} (hbyte : Writes byte written)
      (h : Decodes rest bytes) : Decodes (written ++ rest) (byte :: bytes)
  | percent {rest bytes : List UInt8}
      (hrest : ∀ hi lo tail h l, rest = hi :: lo :: tail → HexDigit hi h → ¬ HexDigit lo l)
      (h : Decodes rest bytes) : Decodes (37 :: rest) (37 :: bytes)

theorem hexDigit_of_hexVal {c v : UInt8} (h : hexVal c = some v) : HexDigit c v.toNat := by
  have hall : ∀ c : UInt8, ((hexVal c).all fun v => decide (HexDigit c v.toNat)) = true :=
    forall_byte (by decide +kernel)
  have hc := hall c
  rw [h] at hc
  exact of_decide_eq_true hc

theorem HexDigit.lt {c : UInt8} {d : Nat} (h : HexDigit c d) : d < 16 := by
  rw [HexDigit] at h
  omega

theorem hexVal_of_hexDigit {c : UInt8} {d : Nat} (h : HexDigit c d) :
    hexVal c = some (UInt8.ofNat d) := by
  have hall : ∀ c : UInt8, ∀ d : Fin 16, HexDigit c d → hexVal c = some (UInt8.ofNat d) :=
    forall_byte (by decide +kernel)
  exact hall c ⟨d, h.lt⟩ h

/-- An escape is read as the byte its digits make. -/
theorem escape_value {h l : Nat} (hh : h < 16) (hl : l < 16) :
    UInt8.ofNat h <<< 4 ||| UInt8.ofNat l = UInt8.ofNat (16 * h + l) := by
  have hall : ∀ h l : Fin 16,
      UInt8.ofNat h <<< 4 ||| UInt8.ofNat l = UInt8.ofNat (16 * h.val + l.val) := by decide +kernel
  exact hall ⟨h, hh⟩ ⟨l, hl⟩

theorem formUrlencodedDecode_percent {rest : List UInt8}
    (hrest : ∀ hi lo tail h l, rest = hi :: lo :: tail → HexDigit hi h → ¬ HexDigit lo l) :
    formUrlencodedDecode (37 :: rest) = 37 :: formUrlencodedDecode rest := by
  rcases rest with _ | ⟨hi, _ | ⟨lo, tail⟩⟩
  · rfl
  · rfl
  · rw [formUrlencodedDecode]
    cases hhi : hexVal hi with
    | none => rfl
    | some h =>
      cases hlo : hexVal lo with
      | none => rfl
      | some l =>
        exact absurd (hexDigit_of_hexVal hlo) (hrest hi lo tail _ _ rfl (hexDigit_of_hexVal hhi))

theorem decodes_formUrlencodedDecode (raw : List UInt8) :
    Decodes raw (formUrlencodedDecode raw) := by
  fun_induction formUrlencodedDecode raw with
  | case1 hi lo rest h l hlo hhi ih =>
    have hdigit := hexDigit_of_hexVal hhi
    have hdigit' := hexDigit_of_hexVal hlo
    have hbyte := Writes.escape hdigit hdigit'
    rw [← escape_value hdigit.lt hdigit'.lt, UInt8.ofNat_toNat, UInt8.ofNat_toNat] at hbyte
    exact .byte hbyte ih
  | case2 hi lo rest hnot ih =>
    refine .percent ?_ ih
    rintro _ _ _ h l heq hhi hlo
    cases heq
    exact hnot _ _ (hexVal_of_hexDigit hhi) (hexVal_of_hexDigit hlo)
  | case3 byte rest hnot ih =>
    by_cases hplus : byte = 43
    · rw [if_pos hplus, hplus]
      exact .byte .plus ih
    · rw [if_neg hplus]
      by_cases hpercent : byte = 37
      · rw [hpercent]
        exact .percent (fun hi lo tail _ _ heq => (hnot hi lo tail hpercent heq).elim) ih
      · exact .byte (.itself hplus hpercent) ih
  | case4 => exact .nil

/-- **The code reads the bytes a raw text is written for.** -/
theorem decodes_iff {raw bytes : List UInt8} :
    Decodes raw bytes ↔ formUrlencodedDecode raw = bytes := by
  refine ⟨fun h => ?_, fun h => h ▸ decodes_formUrlencodedDecode raw⟩
  induction h with
  | nil => rfl
  | percent hrest _ ih => rw [formUrlencodedDecode_percent hrest, ih]
  | byte hbyte _ ih =>
    cases hbyte with
    | plus =>
      rw [List.singleton_append, formUrlencodedDecode.eq_2 _ _ (by rintro _ _ _ ⟨⟩), if_pos rfl, ih]
    | escape hhi hlo =>
      rw [List.cons_append, List.cons_append, List.cons_append, List.nil_append,
        formUrlencodedDecode, hexVal_of_hexDigit hhi, hexVal_of_hexDigit hlo]
      simp only [escape_value hhi.lt hlo.lt, ih]
    | itself hplus hpercent =>
      rw [List.singleton_append, formUrlencodedDecode_plain hpercent hplus, ih]

/-- Two raw texts are written for bytes that are the same text, with replacement characters for what
is no UTF-8. -/
def SameText (s t : List Char) : Prop :=
  ∃ a b, Decodes (utf8Bytes s) a ∧ Decodes (utf8Bytes t) b ∧ fromUtf8Lossy a = fromUtf8Lossy b

/-! ## The canonical form of a component -/

/-- The text a raw name or value stands for. -/
def lossyText (raw : List Char) : List Char :=
  fromUtf8Lossy (formUrlencodedDecode (utf8Bytes raw))

theorem sameText_iff {s t : List Char} : SameText s t ↔ lossyText s = lossyText t := by
  simp only [SameText, decodes_iff]
  constructor
  · rintro ⟨a, b, rfl, rfl, h⟩
    exact h
  · intro h
    exact ⟨_, _, rfl, rfl, h⟩

theorem formUrlencodedComponent_eq (raw : List Char) :
    formUrlencodedComponent raw = percentEncodeForm (utf8Bytes (lossyText raw)) := rfl

/-- The encoding of a text stands for that text. -/
theorem lossyText_encoded (text : List Char) :
    lossyText (percentEncodeForm (utf8Bytes text)) = text := by
  rw [lossyText, formUrlencodedDecode_percentEncodeForm, fromUtf8Lossy_utf8Bytes]

theorem lossyText_formUrlencodedComponent (raw : List Char) :
    lossyText (formUrlencodedComponent raw) = lossyText raw := by
  rw [formUrlencodedComponent_eq, lossyText_encoded]

/-- Two raw texts have one canonical form exactly if they stand for one text. -/
theorem formUrlencodedComponent_eq_iff (s t : List Char) :
    formUrlencodedComponent s = formUrlencodedComponent t ↔ SameText s t := by
  rw [sameText_iff]
  constructor
  · intro h
    rw [← lossyText_formUrlencodedComponent s, h, lossyText_formUrlencodedComponent]
  · intro h
    rw [formUrlencodedComponent_eq, h, formUrlencodedComponent_eq]

/-! ## Pairs of a query -/

/-- The pairs of a query: what stands between its ampersands, where something does. -/
def queryPairs (query : List Char) : List (List Char) :=
  (query.splitOn '&').filter fun pair => !pair.isEmpty

/-- The name of a pair, as it is written. -/
def rawName (pair : List Char) : List Char := pair.takeWhile (· != '=')

/-- The value of a pair, as it is written. -/
def rawValue (pair : List Char) : List Char := (pair.dropWhile (· != '=')).tail

/-- Whether a pair has a name. -/
def hasName (name pair : List Char) : Bool := formUrlencodedComponent (rawName pair) == name

/-- The values under a name. -/
def valuesOf (name : List Char) (pairs : List (List Char)) : List (List Char) :=
  (pairs.filter (hasName name)).map fun pair => formUrlencodedComponent (rawValue pair)

/-- What the loop ends with, from the values under the name. -/
def collected (name : List Char) : List (List Char) → Except HttpSigError (Option (List Char))
  | [] => .ok none
  | [value] => .ok (some value)
  | _ :: _ :: _ =>
    let name := String.ofList name
    .error (.invalidComponent
      s!"query parameter '{name}' occurs more than once and cannot be covered")

variable {name : List Char}

/-- A round of the loop on a pair of another name, or on none. -/
theorem queryParamStep_other {pair : List Char} (found : Option (List Char))
    (h : pair = [] ∨ hasName name pair = false) : queryParamStep name found pair = .ok found := by
  unfold queryParamStep
  by_cases hempty : pair.isEmpty = true
  · rw [if_pos hempty]
  · rw [if_neg hempty, if_pos]
    have hname := h.resolve_left (by simpa using hempty)
    simpa [hasName, rawName] using hname

/-- A round of the loop on a pair of the name. -/
theorem queryParamStep_named {pair : List Char} (found : Option (List Char)) (hpair : pair ≠ [])
    (h : hasName name pair = true) :
    queryParamStep name found pair =
      collected name (found.toList ++ [formUrlencodedComponent (rawValue pair)]) := by
  have hname : formUrlencodedComponent (pair.takeWhile (· != '=')) = name := beq_iff_eq.1 h
  unfold queryParamStep
  rw [if_neg (by simpa using hpair), if_neg (not_not.2 hname)]
  cases found <;> rfl

/-- The loop collects the values under the name. -/
theorem foldlM_queryParamStep (name : List Char) (pairs : List (List Char))
    (found : Option (List Char)) :
    pairs.foldlM (queryParamStep name) found =
      collected name (found.toList ++ valuesOf name (pairs.filter fun pair => !pair.isEmpty)) := by
  induction pairs generalizing found with
  | nil => cases found <;> rfl
  | cons pair pairs ih =>
    rw [List.foldlM_cons]
    by_cases hpair : pair = []
    · rw [queryParamStep_other found (.inl hpair), ok_bind, ih, hpair]
      rfl
    rw [List.filter_cons_of_pos (by simpa using hpair), valuesOf]
    cases hname : hasName name pair with
    | false =>
      rw [queryParamStep_other found (.inr hname), ok_bind, ih,
        List.filter_cons_of_neg (by simp [hname]), valuesOf]
    | true =>
      rw [queryParamStep_named found hpair hname, List.filter_cons_of_pos hname, List.map_cons]
      cases found with
      | none => exact ih _
      | some value => rfl

/-- The answer, from the values under the name. -/
def resolution (name : List Char) : List (List Char) → Except HttpSigError (List Char)
  | [] =>
    let name := String.ofList name
    .error (.missingComponent s!"query parameter '{name}' not found")
  | [value] => .ok value
  | _ :: _ :: _ =>
    let name := String.ofList name
    .error (.invalidComponent
      s!"query parameter '{name}' occurs more than once and cannot be covered")

/-- **The answer depends on the values under the name**, and on nothing else of the query. -/
theorem resolveQueryParam_eq (query name : List Char) :
    resolveQueryParam query name = resolution name (valuesOf name (queryPairs query)) := by
  rw [resolveQueryParam, foldlM_queryParamStep, Option.toList_none, List.nil_append, queryPairs]
  generalize valuesOf name ((query.splitOn '&').filter fun pair => !pair.isEmpty) = values
  match values with
  | [] => rfl
  | [value] => rfl
  | _ :: _ :: _ => rfl

theorem resolution_eq_ok {values : List (List Char)} :
    (∃ value, resolution name values = .ok value) ↔ values.length = 1 := by
  match values with
  | [] => simp [resolution]
  | [value] => simp [resolution]
  | _ :: _ :: _ => simp [resolution]

/-- A parameter is found exactly if one pair has its name. -/
theorem resolveQueryParam_ok_iff (query name : List Char) :
    (∃ value, resolveQueryParam query name = .ok value) ↔
      (queryPairs query).countP (hasName name) = 1 := by
  rw [resolveQueryParam_eq, resolution_eq_ok, valuesOf, List.length_map,
    List.countP_eq_length_filter]

/-! ## Pairs written in another way -/

/-- Two pairs stand for one name and one value. -/
def EquallyEncoded (pair pair' : List Char) : Prop :=
  SameText (rawName pair) (rawName pair') ∧ SameText (rawValue pair) (rawValue pair')

theorem EquallyEncoded.refl (pair : List Char) : EquallyEncoded pair pair :=
  ⟨sameText_iff.2 rfl, sameText_iff.2 rfl⟩

theorem valuesOf_congr {pairs pairs' : List (List Char)}
    (h : List.Forall₂ EquallyEncoded pairs pairs') :
    valuesOf name pairs = valuesOf name pairs' := by
  induction h with
  | nil => rfl
  | @cons pair pair' pairs pairs' hpair _ ih =>
    have hname : hasName name pair = hasName name pair' := by
      rw [hasName, (formUrlencodedComponent_eq_iff _ _).2 hpair.1, hasName]
    have hvalue := (formUrlencodedComponent_eq_iff _ _).2 hpair.2
    rw [valuesOf, valuesOf, List.filter_cons, List.filter_cons, hname]
    cases hasName name pair' with
    | false => exact ih
    | true =>
      rw [if_pos rfl, if_pos rfl, List.map_cons, List.map_cons, hvalue]
      exact congrArg _ ih

/-- What stands between two ampersands. -/
structure QuerySegment where
  text : List Char
  no_ampersand : '&' ∉ text

/-- The query with some segments. -/
def queryOf (segments : List QuerySegment) : List Char :=
  ['&'].intercalate (segments.map QuerySegment.text)

theorem queryPairs_queryOf {segments : List QuerySegment} (h : segments ≠ []) :
    queryPairs (queryOf segments) =
      (segments.map QuerySegment.text).filter fun pair => !pair.isEmpty := by
  rw [queryPairs, queryOf, List.splitOn_intercalate '&' ?_ (by simpa using h)]
  intro text htext
  obtain ⟨segment, -, rfl⟩ := List.mem_map.1 htext
  exact segment.no_ampersand

/-- A pair that is written in another way changes no parameter. -/
theorem resolveQueryParam_replace (front back : List QuerySegment) {pair pair' : QuerySegment}
    (name : List Char) (hpair : pair.text ≠ []) (hpair' : pair'.text ≠ [])
    (h : EquallyEncoded pair.text pair'.text) :
    resolveQueryParam (queryOf (front ++ pair :: back)) name =
      resolveQueryParam (queryOf (front ++ pair' :: back)) name := by
  have hsame : ∀ pairs, List.Forall₂ EquallyEncoded pairs pairs :=
    fun pairs => List.forall₂_same.2 fun pair _ => .refl pair
  rw [resolveQueryParam_eq, resolveQueryParam_eq, queryPairs_queryOf (by simp),
    queryPairs_queryOf (by simp)]
  congr 1
  refine valuesOf_congr ?_
  rw [List.map_append, List.map_append, List.map_cons, List.map_cons, List.filter_append,
    List.filter_append, List.filter_cons_of_pos (by simpa using hpair),
    List.filter_cons_of_pos (by simpa using hpair')]
  exact List.rel_append (hsame _) (.cons h (hsame _))

/-- **Query parameters are canonical.**  The canonical form of a raw name or value is its own
canonical form, is written in a fixed alphabet, and is the same for two raw texts exactly if they
stand for one text.  A parameter is found exactly if one pair of the query has its canonical name,
and a pair written in another way changes nothing. -/
theorem query_params_canonical :
    (∀ s, formUrlencodedComponent (formUrlencodedComponent s) = formUrlencodedComponent s) ∧
      (∀ s, Canonical (formUrlencodedComponent s)) ∧
      (∀ s t, formUrlencodedComponent s = formUrlencodedComponent t ↔ SameText s t) ∧
      (∀ query name, (∃ value, resolveQueryParam query name = .ok value) ↔
        (queryPairs query).countP (hasName name) = 1) ∧
      ∀ (front back : List QuerySegment) (pair pair' : QuerySegment) (name : List Char),
        pair.text ≠ [] → pair'.text ≠ [] → EquallyEncoded pair.text pair'.text →
        resolveQueryParam (queryOf (front ++ pair :: back)) name =
          resolveQueryParam (queryOf (front ++ pair' :: back)) name := by
  refine ⟨fun s => ?_, fun s => canonical_percentEncodeForm _, formUrlencodedComponent_eq_iff,
    resolveQueryParam_ok_iff, fun front back pair pair' name =>
      resolveQueryParam_replace front back name⟩
  exact (formUrlencodedComponent_eq_iff _ _).2
    (sameText_iff.2 (lossyText_formUrlencodedComponent s))

-- A plus sign and an escaped space, and an escape with digits of the other case that is not needed.
example : Writes 32 [43] ∧ Writes 32 [37, 50, 48] ∧ Writes 107 [37, 54, 98] ∧ Writes 107 [107] :=
  ⟨.plus, .escape (show HexDigit 50 2 by decide) (show HexDigit 48 0 by decide),
    .escape (show HexDigit 54 6 by decide) (show HexDigit 98 11 by decide), .itself nofun nofun⟩

end Vouch.HttpSig
