import Vouch.Email
import Vouch.Lib.Cursor

/-!
# Distinguished names as text

A client that authenticates by mutual TLS registers the subject name of its certificate as text, and
an operator may have pasted that text with blanks around the separators (`services/oidc/mtls.rs`).
`normalizeDnSpacing` takes them out again, without touching blanks that belong to a value.

* `DnState`, `dnStep` — the character automaton of `normalize_dn_spacing`.
* `Name.render` — a subject name in the form `x509-cert` prints, and `PaddedName.render` — the same
  with any white space around the separators.  How a character of a value is written is a `Token`.
* `Reduces` — what the automaton makes of a text that begins at an attribute type and ends in a
  value; such texts can be joined with a separator (`Reduces.separated`).
* `normalizeDnSpacing_padded` — from every padded form the automaton makes the bare one with each
  value trimmed of white space that is written as it is.
* `normalizeDnSpacing_eq_render_iff` — so it gives the name back exactly when no value begins or
  ends with such white space.  A blank at the end of a value is escaped; white space outside ASCII
  is not.
-/

namespace Vouch.Dn

open Cursor

/-! ## The code -/

/-- The variables of `normalize_dn_spacing`. -/
structure DnState where
  normalized : List Char
  escaped : Bool
  inValue : Bool
  afterEq : Bool
  valueEnd : Nat

/-- One round of the loop. -/
def dnStep (s : DnState) (c : Char) : DnState :=
  if (!s.inValue || s.afterEq) && isWhitespace c then s
  else
    let wasEscaped := s.escaped
    let s := { s with afterEq := false }
    let s :=
      if s.escaped then { s with escaped := false }
      else if c = '\\' then { s with escaped := true }
      else if c = '=' && !s.inValue then { s with inValue := true, afterEq := true }
      else if c = ',' || c = '+' then
        { s with normalized := s.normalized.take s.valueEnd, inValue := false }
      else s
    let normalized := s.normalized ++ [c]
    { s with
      normalized := normalized
      valueEnd := if wasEscaped || !isWhitespace c then normalized.length else s.valueEnd }

/-- `normalize_dn_spacing`. -/
def normalizeDnSpacing (dn : List Char) : List Char :=
  let s := dn.foldl dnStep ⟨[], false, false, false, 0⟩
  s.normalized.take s.valueEnd

/-! ## Names -/

/-- How one character of a value is written. -/
inductive Token
  | plain (c : Char)
  | escaped (c : Char)
  | hex (c : Char)

namespace Token

/-- A hexadecimal digit. -/
def hexDigit (n : Nat) : Char := if n < 10 then Char.ofNat (48 + n) else Char.ofNat (87 + n)

/-- The token as text. -/
def text : Token → List Char
  | plain c => [c]
  | escaped c => ['\\', c]
  | hex c => ['\\', hexDigit (c.toNat / 16), hexDigit (c.toNat % 16)]

/-- White space that is written as it is. -/
def isBlank : Token → Bool
  | plain c => isWhitespace c
  | _ => false

/-- What stands for a character of a value: it is no separator and begins no escape, and a
hexadecimal pair has two digits. -/
def Valid : Token → Prop
  | plain c => c ≠ '\\' ∧ c ≠ ',' ∧ c ≠ '+'
  | escaped _ => True
  | hex c => c.toNat < 256

end Token

/-- The text of a list of tokens. -/
def tokensText (tokens : List Token) : List Char := tokens.flatMap Token.text

/-- How `x509-cert` writes a character of a value: with a backslash if it is special, or a `#` at
the beginning, or a blank at either end; in hexadecimal if it is an ASCII control character; and
otherwise as it is. -/
def escapeChar (isFirst isLast : Bool) (c : Char) : Token :=
  if c = '#' && isFirst then .escaped c
  else if c = ' ' && (isFirst || isLast) then .escaped c
  else if ['"', '+', ',', ';', '<', '>', '\\'].contains c then .escaped c
  else if c.toNat < 32 || c.toNat = 127 then .hex c
  else .plain c

/-- The tokens of a value, or of the rest of one. -/
def escapeFrom (isFirst : Bool) : List Char → List Token
  | [] => []
  | c :: rest => escapeChar isFirst rest.isEmpty c :: escapeFrom false rest

/-- The tokens of a value. -/
def escapeValue (value : List Char) : List Token := escapeFrom true value

/-- The characters of an attribute type: a short name or an object identifier. -/
def isTypeChar (c : Char) : Bool :=
  let n := c.toNat
  (48 ≤ n && n ≤ 57) || (65 ≤ n && n ≤ 90) || (97 ≤ n && n ≤ 122) || n == 45 || n == 46

/-- An attribute type and value of a name. -/
structure Attribute where
  type : List Char
  value : List Char
  type_valid : type.all isTypeChar = true
  value_ne_nil : value ≠ []
  deriving DecidableEq

/-- The text of an attribute. -/
def Attribute.render (a : Attribute) : List Char :=
  a.type ++ '=' :: tokensText (escapeValue a.value)

/-- A relative distinguished name: one attribute or more. -/
structure Rdn (α : Type) where
  attributes : List α
  ne_nil : attributes ≠ []
  deriving DecidableEq

/-- A list of relative names as text.  The last one stands first (RFC 4514 §2.1). -/
def renderRdns {α : Type} (render : α → List Char) (rdns : List (Rdn α)) : List Char :=
  separated [','] (rdns.reverse.map fun rdn => separated ['+'] (rdn.attributes.map render))

/-- A distinguished name. -/
abbrev Name := List (Rdn Attribute)

/-- A name as `x509-cert` prints it. -/
def Name.render (name : Name) : List Char := renderRdns Attribute.render name

/-- White space. -/
def Padding := { s : List Char // ∀ c ∈ s, isWhitespace c = true }

/-- An attribute with white space before its type, around its `=` and after its value. -/
structure PaddedAttribute where
  bare : Attribute
  beforeType : Padding
  beforeEq : Padding
  afterEq : Padding
  afterValue : Padding

/-- The text of a padded attribute. -/
def PaddedAttribute.render (p : PaddedAttribute) : List Char :=
  p.beforeType.1 ++ p.bare.type ++ p.beforeEq.1 ++ '=' ::
    (p.afterEq.1 ++ tokensText (escapeValue p.bare.value) ++ p.afterValue.1)

/-- A name with white space around its separators. -/
abbrev PaddedName := List (Rdn PaddedAttribute)

/-- A padded name as text. -/
def PaddedName.render (name : PaddedName) : List Char := renderRdns PaddedAttribute.render name

/-- A relative name with something done to each attribute. -/
def Rdn.map {α β : Type} (f : α → β) (rdn : Rdn α) : Rdn β :=
  ⟨rdn.attributes.map f, by simpa using rdn.ne_nil⟩

/-- The name without the white space. -/
def PaddedName.bare (name : PaddedName) : Name := name.map (Rdn.map PaddedAttribute.bare)

/-! ## The automaton on a value -/

/-- At an attribute type, with so much written. -/
def atType (out : List Char) : DnState := ⟨out, false, false, false, out.length⟩

/-- Right after the `=` of an attribute. -/
def atValue (out : List Char) : DnState := ⟨out, false, true, true, out.length⟩

section Automaton

variable {out : List Char}

variable {s : DnState}

theorem foldl_dnStep_blank (hs : (!s.inValue || s.afterEq) = true) {pad : List Char}
    (hpad : ∀ c ∈ pad, isWhitespace c = true) : pad.foldl dnStep s = s := by
  induction pad with
  | nil => rfl
  | cons c pad ih =>
    have hstep : dnStep s c = s := by
      rw [dnStep, hs, hpad c List.mem_cons_self]
      rfl
    rw [List.foldl_cons, hstep, ih fun d hd => hpad d (List.mem_cons_of_mem c hd)]

/-- A character that means nothing to the automaton is written, and the value goes on to it. -/
theorem dnStep_plain {c : Char} (hs : s.escaped = false) (hc : isWhitespace c = false)
    (hescape : c ≠ '\\') (heq : c ≠ '=' ∨ s.inValue = true) (hcomma : c ≠ ',') (hplus : c ≠ '+') :
    dnStep s c = ⟨s.normalized ++ [c], false, s.inValue, false, (s.normalized ++ [c]).length⟩ := by
  have hsep : (decide (c = '=') && !s.inValue) = false := by
    rcases heq with heq | heq
    · simp [heq]
    · simp [heq]
  simp [dnStep, hc, hs, hescape, hsep, hcomma, hplus]

/-- The characters of an attribute type mean nothing to it. -/
theorem isTypeChar_spec {c : Char} (h : isTypeChar c = true) :
    isWhitespace c = false ∧ c ≠ '\\' ∧ c ≠ '=' ∧ c ≠ ',' ∧ c ≠ '+' := by
  simp only [isTypeChar, Bool.or_eq_true, Bool.and_eq_true, decide_eq_true_eq, beq_iff_eq] at h
  refine ⟨?_, ?_, ?_, ?_, ?_⟩
  · rw [Bool.eq_false_iff]
    simp only [isWhitespace, ne_eq, Bool.or_eq_true, Bool.and_eq_true,
      decide_eq_true_eq, beq_iff_eq]
    omega
  all_goals
    rintro rfl
    exact absurd h (by decide)

theorem foldl_dnStep_type (out : List Char) {type : List Char} (h : type.all isTypeChar = true) :
    type.foldl dnStep (atType out) = atType (out ++ type) := by
  induction type generalizing out with
  | nil => rw [List.append_nil]; rfl
  | cons c type ih =>
    rw [List.all_cons, Bool.and_eq_true] at h
    obtain ⟨hspace, hescape, heq, hcomma, hplus⟩ := isTypeChar_spec h.1
    rw [List.foldl_cons, dnStep_plain rfl hspace hescape (.inl heq) hcomma hplus]
    have hrest := ih (out ++ [c]) h.2
    rw [List.append_assoc] at hrest
    exact hrest

theorem dnStep_eq_sign (out : List Char) : dnStep (atType out) '=' = atValue (out ++ ['=']) := rfl

/-- At a separator the value is cut where it ends, and another attribute begins. -/
theorem dnStep_separator {sep : Char} (hsep : sep = ',' ∨ sep = '+') (hescaped : s.escaped = false)
    (hvalue : s.inValue = true) :
    dnStep s sep = atType (s.normalized.take s.valueEnd ++ [sep]) := by
  rcases hsep with rfl | rfl
  · simp [dnStep, hescaped, hvalue, atType, show isWhitespace ',' = false from rfl]
  · simp [dnStep, hescaped, hvalue, atType, show isWhitespace '+' = false from rfl]

/-- In a value: all tokens are written, up to leading ones that are blank, and the value ends with
the last that is not. -/
def InValue (out : List Char) (tokens : List Token) (s : DnState) : Prop :=
  s.normalized = out ++ tokensText tokens ∧ s.escaped = false ∧ s.inValue = true ∧
    (s.afterEq = true ↔ tokens = []) ∧
    s.valueEnd = (out ++ tokensText (tokens.rdropWhile Token.isBlank)).length

@[simp] theorem tokensText_append (a b : List Token) :
    tokensText (a ++ b) = tokensText a ++ tokensText b := List.flatMap_append

@[simp] theorem tokensText_singleton (t : Token) : tokensText [t] = t.text := by simp [tokensText]

theorem hexDigit_spec {n : Nat} (h : n < 16) :
    isWhitespace (Token.hexDigit n) = false ∧ Token.hexDigit n ≠ '\\' ∧ Token.hexDigit n ≠ ',' ∧
      Token.hexDigit n ≠ '+' := by
  have hall : ∀ n : Fin 16, isWhitespace (Token.hexDigit n) = false ∧ Token.hexDigit n ≠ '\\' ∧
      Token.hexDigit n ≠ ',' ∧ Token.hexDigit n ≠ '+' := by decide
  exact hall ⟨n, h⟩

/-- An escape: a backslash and the character after it are written, whatever it is. -/
theorem foldl_dnStep_escape (hescaped : s.escaped = false) (hvalue : s.inValue = true) (c : Char) :
    dnStep (dnStep s '\\') c =
      ⟨s.normalized ++ ['\\', c], false, true, false, (s.normalized ++ ['\\', c]).length⟩ := by
  have hfirst : dnStep s '\\' =
      ⟨s.normalized ++ ['\\'], true, true, false, (s.normalized ++ ['\\']).length⟩ := by
    simp [dnStep, hescaped, hvalue, show isWhitespace '\\' = false from rfl]
  rw [hfirst]
  simp [dnStep]

variable {tokens : List Token}

/-- **One token of a value.** -/
theorem inValue_step {t : Token} (h : InValue out tokens s) (ht : t.Valid)
    (hfirst : tokens = [] → t.isBlank = false) :
    InValue out (tokens ++ [t]) (t.text.foldl dnStep s) := by
  obtain ⟨hnormalized, hescaped, hvalue, hafter, hend⟩ := h
  have hne : ∀ P : Prop, (P ↔ False) → (P ↔ tokens ++ [t] = []) := by
    intro P hP
    rw [hP]
    simp
  -- Whatever is no blank moves the end of the value behind itself.
  have hwritten : t.isBlank = false →
      InValue out (tokens ++ [t]) ⟨s.normalized ++ t.text, false, true, false,
        (s.normalized ++ t.text).length⟩ := by
    intro hblank
    refine ⟨?_, rfl, rfl, hne _ (by simp), ?_⟩
    · rw [hnormalized, tokensText_append, tokensText_singleton, List.append_assoc]
    · rw [List.rdropWhile_concat_neg _ _ _ (by simp [hblank]), hnormalized, tokensText_append,
        tokensText_singleton, List.append_assoc]
  cases t with
  | plain c =>
    obtain ⟨hescape, hcomma, hplus⟩ := ht
    cases hc : isWhitespace c with
    | false =>
      have hstep := dnStep_plain hescaped hc hescape (.inr hvalue) hcomma hplus
      rw [hvalue] at hstep
      rw [Token.text, List.foldl_cons, List.foldl_nil, hstep]
      exact hwritten hc
    | true =>
      have hbegun : s.afterEq = false := by
        rw [Bool.eq_false_iff, ne_eq, hafter]
        intro hnil
        exact absurd (hfirst hnil) (by simp [Token.isBlank, hc])
      have heq : c ≠ '=' := by
        rintro rfl
        exact absurd hc (by decide)
      have hstep : dnStep s c = ⟨s.normalized ++ [c], false, true, false, s.valueEnd⟩ := by
        simp [dnStep, hc, hescaped, hvalue, hbegun, hescape, hcomma, hplus]
      rw [Token.text, List.foldl_cons, List.foldl_nil, hstep]
      refine ⟨?_, rfl, rfl, hne _ (by simp), ?_⟩
      · rw [hnormalized, tokensText_append, tokensText_singleton, List.append_assoc, Token.text]
      · rw [List.rdropWhile_concat_pos _ _ _ (by simpa [Token.isBlank] using hc)]
        exact hend
  | escaped c =>
    rw [Token.text, List.foldl_cons, List.foldl_cons, List.foldl_nil,
      foldl_dnStep_escape hescaped hvalue]
    exact hwritten rfl
  | hex c =>
    have hlow : c.toNat % 16 < 16 := Nat.mod_lt _ (by decide)
    obtain ⟨hspace, hescape, hcomma, hplus⟩ := hexDigit_spec hlow
    rw [Token.text, List.foldl_cons, List.foldl_cons, List.foldl_cons, List.foldl_nil,
      foldl_dnStep_escape hescaped hvalue, dnStep_plain rfl hspace hescape (.inr rfl) hcomma hplus,
      List.append_assoc]
    exact hwritten rfl

/-- All tokens of a value that does not begin with a blank. -/
theorem inValue_foldl (out : List Char) (hvalid : ∀ t ∈ tokens, t.Valid)
    (hfirst : ∀ t ∈ tokens.head?, t.isBlank = false) :
    InValue out tokens ((tokensText tokens).foldl dnStep (atValue out)) := by
  induction tokens using List.reverseRecOn with
  | nil =>
    refine ⟨(List.append_nil out).symm, rfl, rfl, ⟨fun _ => rfl, fun _ => rfl⟩, ?_⟩
    rw [List.rdropWhile_nil]
    exact congrArg List.length (List.append_nil out).symm
  | append_singleton tokens t ih =>
    have hbefore := ih (fun u hu => hvalid u (List.mem_append_left _ hu)) fun u hu => by
      refine hfirst u ?_
      rw [Option.mem_def] at hu ⊢
      rw [List.head?_append, hu, Option.some_or]
    rw [tokensText_append, List.foldl_append, tokensText_singleton]
    refine inValue_step hbefore (hvalid t (by simp)) fun hnil => hfirst t ?_
    rw [hnil]
    rfl

/-- The tokens of a value without blanks at its ends. -/
def trimTokens (tokens : List Token) : List Token :=
  (tokens.dropWhile Token.isBlank).rdropWhile Token.isBlank

theorem isWhitespace_of_blank (h : ∀ t ∈ tokens, t.isBlank = true) :
    ∀ c ∈ tokensText tokens, isWhitespace c = true := by
  intro c hc
  obtain ⟨t, ht, hmem⟩ := List.mem_flatMap.1 hc
  have hblank := h t ht
  cases t with
  | plain d =>
    obtain rfl := List.mem_singleton.1 hmem
    exact hblank
  | escaped d => cases hblank
  | hex d => cases hblank

/-- **A value.**  Blanks at its ends are dropped. -/
theorem foldl_dnStep_value (out : List Char) (hvalid : ∀ t ∈ tokens, t.Valid) :
    let s := (tokensText tokens).foldl dnStep (atValue out)
    s.escaped = false ∧ s.inValue = true ∧
      s.normalized.take s.valueEnd = out ++ tokensText (trimTokens tokens) := by
  have hsplit : tokensText tokens =
      tokensText (tokens.takeWhile Token.isBlank) ++
        tokensText (tokens.dropWhile Token.isBlank) := by
    rw [← tokensText_append, List.takeWhile_append_dropWhile]
  have hlead : (tokensText tokens).foldl dnStep (atValue out) =
      (tokensText (tokens.dropWhile Token.isBlank)).foldl dnStep (atValue out) := by
    rw [hsplit, List.foldl_append, foldl_dnStep_blank rfl
      (isWhitespace_of_blank fun t ht => List.mem_takeWhile_imp ht)]
  have hfirst : ∀ t ∈ (tokens.dropWhile Token.isBlank).head?, t.isBlank = false := by
    intro t ht
    have h := List.head?_dropWhile_not Token.isBlank tokens
    rw [Option.mem_def.1 ht] at h
    simpa using h
  obtain ⟨hnormalized, hescaped, hvalue, -, hend⟩ := inValue_foldl out
    (fun t ht => hvalid t ((List.dropWhile_sublist _).subset ht)) hfirst
  rw [hlead]
  refine ⟨hescaped, hvalue, ?_⟩
  obtain ⟨cut, hcut⟩ := List.rdropWhile_prefix Token.isBlank (tokens.dropWhile Token.isBlank)
  rw [hnormalized, hend, trimTokens]
  nth_rewrite 2 [← hcut]
  rw [tokensText_append, ← List.append_assoc, List.take_left]

end Automaton

/-! ## The automaton on a name -/

/-- What the automaton makes of a text from an attribute type to the end of a value. -/
def Reduces (x y : List Char) : Prop :=
  ∀ out, let s := x.foldl dnStep (atType out)
    s.escaped = false ∧ s.inValue = true ∧ s.normalized.take s.valueEnd = out ++ y

theorem Reduces.normalizeDnSpacing_eq {x y : List Char} (h : Reduces x y) :
    normalizeDnSpacing x = y := (h []).2.2

/-- Two texts with a separator between them. -/
theorem Reduces.append {x₁ x₂ y₁ y₂ : List Char} {sep : Char} (hsep : sep = ',' ∨ sep = '+')
    (h₁ : Reduces x₁ y₁) (h₂ : Reduces x₂ y₂) : Reduces (x₁ ++ sep :: x₂) (y₁ ++ sep :: y₂) := by
  intro out
  obtain ⟨hescaped, hvalue, htake⟩ := h₁ out
  have hrest := h₂ (out ++ y₁ ++ [sep])
  rw [List.foldl_append, List.foldl_cons, dnStep_separator hsep hescaped hvalue, htake]
  simpa using hrest

variable {α : Type} {x y : α → List Char}

/-- A list of texts with separators between them. -/
theorem Reduces.separated {sep : Char} (hsep : sep = ',' ∨ sep = '+') :
    ∀ {l : List α}, l ≠ [] → (∀ a ∈ l, Reduces (x a) (y a)) →
      Reduces (separated [sep] (l.map x)) (separated [sep] (l.map y))
  | [], hne, _ => absurd rfl hne
  | [a], _, h => by simpa [Cursor.separated] using h a List.mem_cons_self
  | a :: b :: l, _, h => by
    have hrest := Reduces.separated hsep (List.cons_ne_nil b l)
      fun c hc => h c (List.mem_cons_of_mem a hc)
    simpa [Cursor.separated] using (h a List.mem_cons_self).append hsep hrest

/-- A character that is not written with an escape is none of those that need one. -/
theorem valid_escapeChar (isFirst isLast : Bool) (c : Char) :
    (escapeChar isFirst isLast c).Valid := by
  unfold escapeChar
  split
  · trivial
  · split
    · trivial
    · split
      · trivial
      · rename_i hspecial
        split
        · rename_i hcontrol
          simp only [Bool.or_eq_true, decide_eq_true_eq] at hcontrol
          show c.toNat < 256
          omega
        · simp only [List.contains_cons, List.contains_nil, Bool.or_false,
            Bool.or_eq_true, beq_iff_eq, not_or] at hspecial
          exact ⟨hspecial.2.2.2.2.2.2, hspecial.2.2.1, hspecial.2.1⟩

theorem valid_escapeFrom {isFirst : Bool} {value : List Char} :
    ∀ t ∈ escapeFrom isFirst value, t.Valid := by
  induction value generalizing isFirst with
  | nil => exact fun t ht => absurd ht List.not_mem_nil
  | cons c value ih =>
    intro t ht
    rcases List.mem_cons.1 ht with rfl | ht
    · exact valid_escapeChar _ _ _
    · exact ih t ht

/-- White space as tokens. -/
def padTokens (pad : Padding) : List Token := pad.1.map Token.plain

theorem tokensText_padTokens (pad : Padding) : tokensText (padTokens pad) = pad.1 := by
  rw [tokensText, padTokens, List.flatMap_map]
  exact List.flatMap_singleton' pad.1

theorem isBlank_padTokens {pad : Padding} : ∀ t ∈ padTokens pad, t.isBlank = true := by
  intro t ht
  obtain ⟨c, hc, rfl⟩ := List.mem_map.1 ht
  exact pad.2 c hc

theorem Token.Valid.of_isBlank {t : Token} (h : t.isBlank = true) : t.Valid := by
  cases t with
  | plain c =>
    refine ⟨?_, ?_, ?_⟩
    all_goals
      rintro rfl
      exact absurd h (by decide)
  | escaped c => cases h
  | hex c => cases h

/-- Padding at its ends does not survive the trimming of a list. -/
theorem trimTokens_padded {before after : List Token} (hbefore : ∀ t ∈ before, t.isBlank = true)
    (hafter : ∀ t ∈ after, t.isBlank = true) (tokens : List Token) :
    trimTokens (before ++ tokens ++ after) = trimTokens tokens := by
  rw [trimTokens, List.append_assoc, List.dropWhile_append_of_pos hbefore, trimTokens]
  induction after using List.reverseRecOn with
  | nil => rw [List.append_nil]
  | append_singleton after t ih =>
    have ht : t.isBlank = true := hafter t (by simp)
    rw [← ih fun u hu => hafter u (List.mem_append_left _ hu), ← List.append_assoc,
      List.dropWhile_append]
    split
    · rename_i hempty
      rw [List.isEmpty_iff.1 hempty, List.dropWhile_cons_of_pos ht]
      rfl
    · rw [List.rdropWhile_concat_pos _ _ _ ht]

/-- The text of an attribute with its value trimmed of blanks. -/
def Attribute.trimmed (a : Attribute) : List Char :=
  a.type ++ '=' :: tokensText (trimTokens (escapeValue a.value))

/-- **One attribute**, with its padding. -/
theorem reduces_padded (p : PaddedAttribute) : Reduces p.render p.bare.trimmed := by
  intro out
  have htext : p.afterEq.1 ++ tokensText (escapeValue p.bare.value) ++ p.afterValue.1 =
      tokensText (padTokens p.afterEq ++ escapeValue p.bare.value ++ padTokens p.afterValue) := by
    rw [tokensText_append, tokensText_append, tokensText_padTokens, tokensText_padTokens]
  have hvalid : ∀ t ∈ padTokens p.afterEq ++ escapeValue p.bare.value ++ padTokens p.afterValue,
      t.Valid := by
    intro t ht
    rcases List.mem_append.1 ht with ht | ht
    · rcases List.mem_append.1 ht with ht | ht
      · exact .of_isBlank (isBlank_padTokens t ht)
      · exact valid_escapeFrom t ht
    · exact .of_isBlank (isBlank_padTokens t ht)
  have hvalue := foldl_dnStep_value (out ++ p.bare.type ++ ['=']) hvalid
  rw [trimTokens_padded isBlank_padTokens isBlank_padTokens] at hvalue
  rw [PaddedAttribute.render, htext, List.foldl_append, List.foldl_append, List.foldl_append,
    List.foldl_cons, foldl_dnStep_blank rfl p.beforeType.2, foldl_dnStep_type _ p.bare.type_valid,
    foldl_dnStep_blank rfl p.beforeEq.2, dnStep_eq_sign]
  simpa [Attribute.trimmed] using hvalue

/-- **Any padding.**  From every padded form of a name the automaton makes the bare form with each
value trimmed. -/
theorem normalizeDnSpacing_padded (name : PaddedName) :
    normalizeDnSpacing name.render = renderRdns Attribute.trimmed name.bare := by
  have hbare : renderRdns Attribute.trimmed name.bare =
      renderRdns (fun p : PaddedAttribute => p.bare.trimmed) name := by
    simp [renderRdns, PaddedName.bare, Rdn.map, Function.comp_def, List.map_reverse]
  rw [hbare]
  by_cases hnil : name = []
  · rw [hnil]
    rfl
  · refine Reduces.normalizeDnSpacing_eq (Reduces.separated (.inl rfl) (by simpa using hnil) ?_)
    intro rdn _
    exact Reduces.separated (.inr rfl) rdn.ne_nil fun p _ => reduces_padded p

/-! ## Names that come back -/

/-- White space that is written as it is even at the end of a value. -/
def isForeignSpace (c : Char) : Bool := isWhitespace c && 128 ≤ c.toNat

/-- The value neither begins nor ends with white space outside ASCII. -/
def Attribute.Firm (a : Attribute) : Prop :=
  ∀ c, c ∈ a.value.head? ∨ c ∈ a.value.getLast? → isForeignSpace c = false

/-- All values of a name are firm. -/
def Name.Firm (name : Name) : Prop := ∀ rdn ∈ name, ∀ a ∈ rdn.attributes, a.Firm

/-- At either end of a value, only white space outside ASCII is left as it is. -/
theorem isBlank_escapeChar {isFirst isLast : Bool} (h : (isFirst || isLast) = true) (c : Char) :
    (escapeChar isFirst isLast c).isBlank = isForeignSpace c := by
  unfold escapeChar
  rw [h, Bool.and_true]
  split
  · rename_i hhash
    simp only [Bool.and_eq_true, decide_eq_true_eq] at hhash
    rw [hhash.1]
    rfl
  · split
    · rename_i hspace
      rw [decide_eq_true_eq] at hspace
      rw [hspace]
      rfl
    · rename_i hspace
      have hspace : c.toNat ≠ 32 := fun hc => hspace (decide_eq_true (Char.toNat_inj.1 hc))
      split
      · rename_i hspecial
        have hall : (['"', '+', ',', ';', '<', '>', '\\'].all fun c => !isForeignSpace c) =
          true := by
          decide
        have hc := List.all_eq_true.1 hall c (List.contains_iff_mem.1 hspecial)
        rw [Bool.not_eq_true'] at hc
        rw [hc]
        rfl
      · split
        · rename_i hcontrol
          simp only [Bool.or_eq_true, decide_eq_true_eq] at hcontrol
          have hsmall : ¬ 128 ≤ c.toNat := by omega
          simp [Token.isBlank, isForeignSpace, hsmall]
        · rename_i hcontrol
          simp only [Bool.or_eq_true, decide_eq_true_eq, not_or] at hcontrol
          rw [Token.isBlank, isForeignSpace, Bool.eq_iff_iff, Bool.and_eq_true, decide_eq_true_eq]
          refine ⟨fun hwhite => ⟨hwhite, ?_⟩, fun hwhite => hwhite.1⟩
          simp only [isWhitespace, Bool.or_eq_true, Bool.and_eq_true, decide_eq_true_eq, beq_iff_eq]
            at hwhite
          omega

theorem head?_escapeValue (value : List Char) :
    (escapeValue value).head?.map Token.isBlank = value.head?.map isForeignSpace := by
  cases value with
  | nil => rfl
  | cons c rest =>
    rw [escapeValue, escapeFrom, List.head?_cons, List.head?_cons, Option.map_some, Option.map_some,
      isBlank_escapeChar rfl]

theorem getLast?_escapeFrom (isFirst : Bool) (value : List Char) :
    (escapeFrom isFirst value).getLast?.map Token.isBlank = value.getLast?.map isForeignSpace := by
  induction value generalizing isFirst with
  | nil => rfl
  | cons c rest ih =>
    cases rest with
    | nil =>
      have h : (escapeChar isFirst true c).isBlank = isForeignSpace c :=
        isBlank_escapeChar (Bool.or_true isFirst) c
      simpa [escapeFrom] using h
    | cons d rest =>
      have hih : (escapeFrom false (d :: rest)).getLast?.map Token.isBlank =
          (d :: rest).getLast?.map isForeignSpace := ih false
      rw [escapeFrom, escapeFrom, List.getLast?_cons_cons, List.getLast?_cons_cons]
      rwa [escapeFrom] at hih

/-- A list that trimming leaves alone has no blank at its ends. -/
theorem trimTokens_eq_self_iff (tokens : List Token) :
    trimTokens tokens = tokens ↔
      (∀ t ∈ tokens.head?, t.isBlank = false) ∧ ∀ t ∈ tokens.getLast?, t.isBlank = false := by
  constructor
  · intro h
    have hsub : (trimTokens tokens).Sublist (tokens.dropWhile Token.isBlank) :=
      (List.rdropWhile_prefix _ _).sublist
    rw [h] at hsub
    have hdrop := (List.dropWhile_sublist _).antisymm hsub
    rw [trimTokens, hdrop, List.rdropWhile_eq_self_iff] at h
    refine ⟨fun t ht => ?_, fun t ht => ?_⟩
    · have hfirst := List.head?_dropWhile_not Token.isBlank tokens
      rw [hdrop, Option.mem_def.1 ht] at hfirst
      simpa using hfirst
    · obtain ⟨hne, rfl⟩ := List.mem_getLast?_eq_getLast ht
      simpa using h hne
  · rintro ⟨hfirst, hlast⟩
    have hdrop : tokens.dropWhile Token.isBlank = tokens := by
      cases tokens with
      | nil => rfl
      | cons t rest => exact List.dropWhile_cons_of_neg (by simp [hfirst t rfl])
    rw [trimTokens, hdrop, List.rdropWhile_eq_self_iff]
    intro hne
    simp [hlast _ (List.getLast?_eq_some_getLast hne)]

/-- Trimming leaves a firm value alone, and no other. -/
theorem trimTokens_escapeValue_iff (a : Attribute) :
    trimTokens (escapeValue a.value) = escapeValue a.value ↔ a.Firm := by
  rw [trimTokens_eq_self_iff, Attribute.Firm]
  have hhead : (∀ t ∈ (escapeValue a.value).head?, t.isBlank = false) ↔
      ∀ c ∈ a.value.head?, isForeignSpace c = false := by
    have h := head?_escapeValue a.value
    cases hx : (escapeValue a.value).head? <;> cases hy : a.value.head? <;> simp_all
  have hlast : (∀ t ∈ (escapeValue a.value).getLast?, t.isBlank = false) ↔
      ∀ c ∈ a.value.getLast?, isForeignSpace c = false := by
    have h := getLast?_escapeFrom true a.value
    rw [← escapeValue] at h
    cases hx : (escapeValue a.value).getLast? <;> cases hy : a.value.getLast? <;> simp_all
  rw [hhead, hlast]
  exact ⟨fun h c hc => hc.elim (h.1 c) (h.2 c), fun h => ⟨fun c hc => h c (.inl hc),
    fun c hc => h c (.inr hc)⟩⟩

/-- Nowhere longer texts make a longer list, unless all are of the same length. -/
theorem length_flatMap_le (sep : List Char) {l : List α}
    (hle : ∀ a ∈ l, (x a).length ≤ (y a).length) :
    (l.flatMap fun a => sep ++ x a).length ≤ (l.flatMap fun a => sep ++ y a).length ∧
      ((l.flatMap fun a => sep ++ x a).length = (l.flatMap fun a => sep ++ y a).length →
        ∀ a ∈ l, (x a).length = (y a).length) := by
  induction l with
  | nil => exact ⟨Nat.le_refl _, fun _ a ha => absurd ha List.not_mem_nil⟩
  | cons a l ih =>
    obtain ⟨hrest, heq⟩ := ih fun b hb => hle b (List.mem_cons_of_mem a hb)
    have ha := hle a List.mem_cons_self
    simp only [List.flatMap_cons, List.length_append] at hrest heq ⊢
    refine ⟨by omega, fun hsum b hb => ?_⟩
    rcases List.mem_cons.1 hb with rfl | hb
    · omega
    · exact heq (by omega) b hb

theorem length_separated_le {sep : List Char} {l : List α}
    (hle : ∀ a ∈ l, (x a).length ≤ (y a).length) :
    (separated sep (l.map x)).length ≤ (separated sep (l.map y)).length ∧
      ((separated sep (l.map x)).length = (separated sep (l.map y)).length →
        ∀ a ∈ l, (x a).length = (y a).length) := by
  cases l with
  | nil => exact ⟨Nat.le_refl _, fun _ a ha => absurd ha List.not_mem_nil⟩
  | cons a l =>
    obtain ⟨hrest, heq⟩ := length_flatMap_le sep fun b hb => hle b (List.mem_cons_of_mem a hb)
    have ha := hle a List.mem_cons_self
    simp only [List.map_cons, separated, List.length_append, List.flatMap_map] at hrest heq ⊢
    refine ⟨by omega, fun hsum b hb => ?_⟩
    rcases List.mem_cons.1 hb with rfl | hb
    · omega
    · exact heq (by omega) b hb

theorem Token.text_length_pos (t : Token) : 0 < t.text.length := by
  cases t <;> exact Nat.succ_pos _

/-- Leaving out tokens makes a text shorter. -/
theorem length_tokensText_of_sublist {a b : List Token} (h : a.Sublist b) :
    (tokensText a).length ≤ (tokensText b).length ∧
      ((tokensText a).length = (tokensText b).length → a = b) := by
  induction h with
  | slnil => exact ⟨Nat.le_refl _, fun _ => rfl⟩
  | @cons a b t _ ih =>
    have ht := t.text_length_pos
    simp only [tokensText, List.flatMap_cons, List.length_append] at ih ⊢
    exact ⟨by omega, fun heq => by omega⟩
  | @cons_cons a b t _ ih =>
    simp only [tokensText, List.flatMap_cons, List.length_append] at ih ⊢
    exact ⟨by omega, fun heq => congrArg (t :: ·) (ih.2 (by omega))⟩

/-- Trimming makes the text of an attribute shorter, unless its value is firm. -/
theorem length_trimmed (a : Attribute) :
    a.trimmed.length ≤ a.render.length ∧ (a.trimmed.length = a.render.length → a.Firm) := by
  have hsub : (trimTokens (escapeValue a.value)).Sublist (escapeValue a.value) :=
    (List.rdropWhile_prefix _ _).sublist.trans (List.dropWhile_sublist _)
  obtain ⟨hle, heq⟩ := length_tokensText_of_sublist hsub
  simp only [Attribute.trimmed, Attribute.render, List.length_append, List.length_cons]
  exact ⟨by omega, fun h => (trimTokens_escapeValue_iff a).1 (heq (by omega))⟩

theorem trimmed_eq_render {a : Attribute} (h : a.Firm) : a.trimmed = a.render := by
  rw [Attribute.trimmed, Attribute.render, (trimTokens_escapeValue_iff a).2 h]

/-- **Which names come back.**  The automaton gives a name back from every padded form of it exactly
when all its values are firm. -/
theorem normalizeDnSpacing_eq_render_iff (name : PaddedName) :
    normalizeDnSpacing name.render = name.bare.render ↔ name.bare.Firm := by
  rw [normalizeDnSpacing_padded, Name.render]
  generalize name.bare = name
  have hrdn : ∀ rdn : Rdn Attribute,
      (separated ['+'] (rdn.attributes.map Attribute.trimmed)).length ≤
        (separated ['+'] (rdn.attributes.map Attribute.render)).length :=
    fun rdn => (length_separated_le fun a _ => (length_trimmed a).1).1
  constructor
  · intro h rdn hmem a ha
    have hlength := congrArg List.length h
    rw [renderRdns, renderRdns] at hlength
    have hrdns :=
      (length_separated_le fun rdn _ => hrdn rdn).2 hlength rdn (List.mem_reverse.2 hmem)
    exact (length_trimmed a).2 ((length_separated_le fun a _ => (length_trimmed a).1).2 hrdns a ha)
  · intro h
    rw [renderRdns, renderRdns]
    congr 1
    refine List.map_congr_left fun rdn hmem => congrArg _ ?_
    exact List.map_congr_left fun a ha => trimmed_eq_render (h rdn (List.mem_reverse.1 hmem) a ha)

/-- Without padding. -/
def Attribute.unpadded (a : Attribute) : PaddedAttribute :=
  let none : Padding := ⟨[], fun _ hc => absurd hc List.not_mem_nil⟩
  ⟨a, none, none, none, none⟩

/-- A name with no padding at all. -/
def Name.unpadded (name : Name) : PaddedName := name.map (Rdn.map Attribute.unpadded)

@[simp] theorem bare_unpadded (name : Name) : name.unpadded.bare = name := by
  simp [Name.unpadded, PaddedName.bare, Rdn.map, Function.comp_def, Attribute.unpadded]

theorem render_unpadded (name : Name) : name.unpadded.render = name.render := by
  have hattribute : ∀ a : Attribute, a.unpadded.render = a.render := by
    intro a
    simp [Attribute.unpadded, PaddedAttribute.render, Attribute.render]
  simp [PaddedName.render, Name.unpadded, Name.render, renderRdns, Rdn.map, Function.comp_def,
    hattribute, List.map_reverse]

end Vouch.Dn
