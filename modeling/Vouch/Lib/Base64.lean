import Mathlib.Data.String.Basic

/-!
# Base64

The standard alphabet with padding: three bytes are written as four characters, and a shorter rest
is filled up with `=`.  The reader is strict — it refuses a missing or superfluous `=`, and bits
that the padding does not leave room for.

* `encode`, `decode` — bytes to characters, and back.
* `decode_encode` — **decoding undoes encoding.**
* `mem_encode`, `mem_of_decode` — what is written, and what is read, consists of letters, digits,
  `+`, `/` and `=`.
-/

namespace Base64

/-! ## Sextets -/

/-- The character of a sextet. -/
def character (n : Nat) : Char :=
  if n < 26 then Char.ofNat (65 + n)
  else if n < 52 then Char.ofNat (71 + n)
  else if n < 62 then Char.ofNat (n - 4)
  else if n = 62 then '+'
  else '/'

/-- The sextet of a character. -/
def sextet (c : Char) : Option Nat :=
  if 'A' ≤ c ∧ c ≤ 'Z' then some (c.toNat - 65)
  else if 'a' ≤ c ∧ c ≤ 'z' then some (c.toNat - 71)
  else if '0' ≤ c ∧ c ≤ '9' then some (c.toNat + 4)
  else if c = '+' then some 62
  else if c = '/' then some 63
  else none

theorem sextet_character {n : Nat} (hn : n < 64) : sextet (character n) = some n := by
  have h : ∀ n : Fin 64, sextet (character n) = some n.val := by decide
  exact h ⟨n, hn⟩

theorem character_ne_pad {n : Nat} (hn : n < 64) : character n ≠ '=' := by
  intro h
  have hsome := sextet_character hn
  rw [h] at hsome
  have hnone : sextet '=' = none := by decide
  exact absurd (hnone.symm.trans hsome) (by simp)

/-! ## Bytes -/

/-- Bytes as characters. -/
def encode : List UInt8 → List Char
  | [] => []
  | [a] => [character (a.toNat / 4), character (a.toNat % 4 * 16), '=', '=']
  | [a, b] =>
    [character (a.toNat / 4), character (a.toNat % 4 * 16 + b.toNat / 16),
      character (b.toNat % 16 * 4), '=']
  | a :: b :: c :: rest =>
    character (a.toNat / 4) :: character (a.toNat % 4 * 16 + b.toNat / 16) ::
      character (b.toNat % 16 * 4 + c.toNat / 64) :: character (c.toNat % 64) :: encode rest

/-- The bytes that characters stand for. -/
def decode : List Char → Option (List UInt8)
  | [] => some []
  | w :: x :: y :: z :: rest => do
    let w ← sextet w
    let x ← sextet x
    if y = '=' ∧ z = '=' ∧ rest = [] then
      if x % 16 = 0 then some [UInt8.ofNat (w * 4 + x / 16)] else none
    else
      let y ← sextet y
      if z = '=' ∧ rest = [] then
        if y % 4 = 0 then some [UInt8.ofNat (w * 4 + x / 16), UInt8.ofNat (x % 16 * 16 + y / 4)]
        else none
      else
        let z ← sextet z
        let bytes ← decode rest
        some (UInt8.ofNat (w * 4 + x / 16) :: UInt8.ofNat (x % 16 * 16 + y / 4) ::
          UInt8.ofNat (y % 4 * 64 + z) :: bytes)
  | _ => none

theorem ofNat_eq {n : Nat} {a : UInt8} (h : n = a.toNat) : UInt8.ofNat n = a := by
  rw [h, UInt8.ofNat_toNat]

/-- **Decoding undoes encoding.** -/
theorem decode_encode : ∀ bytes : List UInt8, decode (encode bytes) = some bytes
  | [] => rfl
  | [a] => by
    have ha := a.toNat_lt
    simp (disch := omega) only [encode, decode, sextet_character, Option.bind_eq_bind,
      Option.bind_some, and_self, if_true, Nat.mul_mod_left]
    rw [ofNat_eq (a := a)]
    omega
  | [a, b] => by
    have ha := a.toNat_lt
    have hb := b.toNat_lt
    simp (disch := omega) only [encode, decode, sextet_character, character_ne_pad,
      Option.bind_eq_bind,
      Option.bind_some, false_and, if_false, and_self, if_true, Nat.mul_mod_left]
    rw [ofNat_eq (a := a), ofNat_eq (a := b)] <;> omega
  | a :: b :: c :: rest => by
    have ha := a.toNat_lt
    have hb := b.toNat_lt
    have hc := c.toNat_lt
    simp (disch := omega) only [encode, decode, sextet_character, character_ne_pad,
      Option.bind_eq_bind, Option.bind_some, false_and, if_false, decode_encode rest]
    rw [ofNat_eq (a := a), ofNat_eq (a := b), ofNat_eq (a := c)] <;> omega

/-- What is written consists of the characters of sextets and of padding. -/
theorem mem_encode {d : Char} : ∀ bytes : List UInt8, d ∈ encode bytes →
    d = '=' ∨ ∃ n < 64, d = character n
  | [], hd => absurd hd (by simp [encode])
  | [a], hd => by
    have ha := a.toNat_lt
    simp only [encode, List.mem_cons, List.not_mem_nil, or_false, or_self] at hd
    rcases hd with rfl | rfl | rfl
    · exact .inr ⟨_, by omega, rfl⟩
    · exact .inr ⟨_, by omega, rfl⟩
    · exact .inl rfl
  | [a, b], hd => by
    have ha := a.toNat_lt
    have hb := b.toNat_lt
    simp only [encode, List.mem_cons, List.not_mem_nil, or_false] at hd
    rcases hd with rfl | rfl | rfl | rfl
    all_goals first | exact .inl rfl | exact .inr ⟨_, by omega, rfl⟩
  | a :: b :: c :: rest, hd => by
    have ha := a.toNat_lt
    have hb := b.toNat_lt
    have hc := c.toNat_lt
    simp only [encode, List.mem_cons] at hd
    rcases hd with rfl | rfl | rfl | rfl | hd
    all_goals first | exact mem_encode rest hd | exact .inr ⟨_, by omega, rfl⟩

/-- Only ASCII characters stand for sextets. -/
theorem sextet_ascii {c : Char} {n : Nat} (h : sextet c = some n) : c.toNat < 128 := by
  have hle : ∀ {last : Char}, last.toNat < 128 → c ≤ last → c.toNat < 128 :=
    fun hlast hc => lt_of_le_of_lt (UInt32.le_iff_toNat_le.1 hc) hlast
  rw [sextet] at h
  split_ifs at h with hupper hlower hdigit hplus hslash
  · exact hle (by decide) hupper.2
  · exact hle (by decide) hlower.2
  · exact hle (by decide) hdigit.2
  · exact hle (by decide) hplus.le
  · exact hle (by decide) hslash.le

/-- What is read consists of characters of sextets and of padding. -/
theorem mem_of_decode : ∀ {text : List Char} {bytes : List UInt8}, decode text = some bytes →
    ∀ c ∈ text, c = '=' ∨ ∃ n, sextet c = some n
  | [], _, _ => by simp
  | [_], _, h => by simp [decode] at h
  | [_, _], _, h => by simp [decode] at h
  | [_, _, _], _, h => by simp [decode] at h
  | w :: x :: y :: z :: rest, bytes, h => by
    rw [decode] at h
    obtain ⟨nw, hw, h⟩ := Option.bind_eq_some_iff.1 h
    obtain ⟨nx, hx, h⟩ := Option.bind_eq_some_iff.1 h
    have hrest : (y = '=' ∨ ∃ n, sextet y = some n) ∧ (z = '=' ∨ ∃ n, sextet z = some n) ∧
        ∀ c ∈ rest, c = '=' ∨ ∃ n, sextet c = some n := by
      split at h
      · rename_i hpad
        exact ⟨.inl hpad.1, .inl hpad.2.1, by simp [hpad.2.2]⟩
      · obtain ⟨ny, hy, h⟩ := Option.bind_eq_some_iff.1 h
        split at h
        · rename_i hpad
          exact ⟨.inr ⟨ny, hy⟩, .inl hpad.1, by simp [hpad.2]⟩
        · obtain ⟨nz, hz, h⟩ := Option.bind_eq_some_iff.1 h
          obtain ⟨more, hmore, -⟩ := Option.bind_eq_some_iff.1 h
          exact ⟨.inr ⟨ny, hy⟩, .inr ⟨nz, hz⟩, mem_of_decode hmore⟩
    intro c hc
    simp only [List.mem_cons] at hc
    rcases hc with rfl | rfl | rfl | rfl | hc
    · exact .inr ⟨nw, hw⟩
    · exact .inr ⟨nx, hx⟩
    · exact hrest.1
    · exact hrest.2.1
    · exact hrest.2.2 c hc

end Base64
