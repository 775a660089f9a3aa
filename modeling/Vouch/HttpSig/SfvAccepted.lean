import Vouch.HttpSig.SfvRoundTrip

/-!
# What the parser accepts

Every value the parser of structured field values returns is well formed, and every round of its
loops takes something off the text, none of it outside ASCII.

* `Skips`, `Takes` — what is left is the text without some ASCII characters at its front; without at
  least one.
* `parseBareItem_ok`, `parseParameters_ok`, `parseItem_ok`, `parseInnerList_ok`, … — one lemma per
  reader: the value is well formed, and what was read is ASCII.
* `parser_loops_end` — so the bound on the rounds of `Cursor.run` is never reached, and the model's
  loops end where the source's do.
* `sfv_round_trip` — **parsing undoes serializing** for well-formed values, and serializing what was
  parsed gives a text that parses to the same value.
-/

namespace Vouch.HttpSig

open Cursor Result

/-! ## What a reader takes off -/

/-- Some ASCII characters were taken off the front of the text. -/
def Skips (s rest : List Char) : Prop :=
  ∃ front, s = front ++ rest ∧ ∀ c ∈ front, c.toNat < 128

/-- At least one character was taken off the front of the text, and only ASCII. -/
def Takes (s rest : List Char) : Prop :=
  ∃ front, s = front ++ rest ∧ front ≠ [] ∧ ∀ c ∈ front, c.toNat < 128

variable {s rest : List Char}

theorem Takes.length_lt (h : Takes s rest) : rest.length < s.length := by
  obtain ⟨front, rfl, hne, -⟩ := h
  simpa using List.length_pos_iff.2 hne

theorem Takes.skips : Takes s rest → Skips s rest
  | ⟨front, hs, _, hascii⟩ => ⟨front, hs, hascii⟩

theorem skips_refl (s : List Char) : Skips s s := ⟨[], rfl, by simp⟩

variable {t u : List Char}

theorem Skips.trans (h : Skips s t) (h' : Skips t u) : Skips s u := by
  obtain ⟨front, rfl, hfront⟩ := h
  obtain ⟨next, rfl, hnext⟩ := h'
  exact ⟨front ++ next, by simp, List.forall_mem_append.2 ⟨hfront, hnext⟩⟩

theorem Takes.trans (h : Takes s t) (h' : Skips t u) : Takes s u := by
  obtain ⟨front, rfl, hne, hfront⟩ := h
  obtain ⟨next, rfl, hnext⟩ := h'
  exact ⟨front ++ next, by simp, by simp [hne], List.forall_mem_append.2 ⟨hfront, hnext⟩⟩

theorem Skips.trans_takes (h : Skips s t) (h' : Takes t u) : Takes s u := by
  obtain ⟨front, rfl, hfront⟩ := h
  obtain ⟨next, rfl, hne, hnext⟩ := h'
  exact ⟨front ++ next, by simp, by simp [hne], List.forall_mem_append.2 ⟨hfront, hnext⟩⟩

variable {c : Char}

/-- One ASCII character was taken off. -/
theorem takes_cons (hc : c.toNat < 128) (s : List Char) : Takes (c :: s) s :=
  ⟨[c], rfl, by simp, by simpa using hc⟩

theorem takes_tail (h : s.head? = some c) (hc : c.toNat < 128) : Takes s s.tail := by
  obtain ⟨s, rfl⟩ := List.head?_eq_some_iff.mp h
  exact takes_cons hc s

/-- A run of ASCII characters was taken off. -/
theorem skips_dropWhile {p : Char → Bool} (hp : ∀ c, p c = true → c.toNat < 128) (s : List Char) :
    Skips s (s.dropWhile p) :=
  ⟨s.takeWhile p, (List.takeWhile_append_dropWhile).symm,
    fun c hc => hp c (List.mem_takeWhile_imp hc)⟩

theorem isDigit_ascii (c : Char) (hc : c.isDigit = true) : c.toNat < 128 := by
  have hrange := isDigit_iff.1 hc
  omega

/-- Letters, digits and the marks of keys and tokens are ASCII. -/
theorem isTokenChar_ascii (c : Char) (hc : isTokenChar c = true) : c.toNat < 128 := by
  simp only [isTokenChar, Bool.or_eq_true, beq_iff_eq, Char.isAlphanum, isAlpha_eq, isUpper_eq,
    isLower_eq, Char.isDigit, Bool.and_eq_true, decide_eq_true_eq, ge_iff_le,
    UInt32.le_iff_toNat_le, or_assoc] at hc
  rcases hc with ⟨-, h⟩ | ⟨-, h⟩ | ⟨-, h⟩ | h
  · exact lt_of_le_of_lt h (by decide)
  · exact lt_of_le_of_lt h (by decide)
  · exact lt_of_le_of_lt h (by decide)
  · rcases h with rfl | rfl | rfl | rfl | rfl | rfl | rfl | rfl | rfl | rfl | rfl | rfl | rfl | rfl
      | rfl | rfl | rfl <;> decide

theorem isKeyChar_isTokenChar (hc : isKeyChar c = true) : isTokenChar c = true := by
  simp only [isKeyChar, Bool.or_eq_true, beq_iff_eq, or_assoc] at hc
  simp only [isTokenChar, Char.isAlphanum, isAlpha_eq, Bool.or_eq_true, beq_iff_eq]
  tauto

/-- What a word begins with may also stand inside it. -/
theorem isKeyChar_of_isKeyStart (hc : isKeyStart c = true) : isKeyChar c = true := by
  simp only [isKeyStart, Bool.or_eq_true, beq_iff_eq] at hc
  simp only [isKeyChar, Bool.or_eq_true, beq_iff_eq]
  tauto

theorem isTokenChar_of_isTokenStart (hc : isTokenStart c = true) : isTokenChar c = true := by
  simp only [isTokenStart, Bool.or_eq_true, beq_iff_eq] at hc
  simp only [isTokenChar, Char.isAlphanum, Bool.or_eq_true, beq_iff_eq]
  tauto

/-- A word was taken off. -/
theorem takes_word {start cont : Char → Bool} {word : List Char}
    (hstart : ∀ c, start c = true → c.toNat < 128) (hcont : ∀ c, cont c = true → c.toNat < 128)
    (hword : isWord start cont word = true) (hs : s = word ++ rest) : Takes s rest := by
  obtain ⟨c, word, rfl, hc, hall⟩ := isWord_eq_cons hword
  exact ⟨c :: word, hs, by simp,
    List.forall_mem_cons.2 ⟨hstart c hc, fun d hd => hcont d (hall d hd)⟩⟩

/-- Spaces and tabs are ASCII. -/
theorem skips_skipSp (s : List Char) : Skips s (Parser.skipSp s) := by
  refine skips_dropWhile (fun c hc => ?_) s
  rw [beq_iff_eq.1 hc]
  decide

theorem skips_skipOws (s : List Char) : Skips s (Parser.skipOws s) := by
  refine skips_dropWhile (fun c hc => ?_) s
  simp only [Bool.or_eq_true, beq_iff_eq] at hc
  rcases hc with rfl | rfl <;> decide

/-! ## Bare items -/

theorem number_lt {digits : List Char} (h : ∀ c ∈ digits, c.isDigit = true) :
    Parser.number digits < 10 ^ digits.length := by
  -- reading on from `n` multiplies it by ten for every digit
  have hfrom : ∀ (l : List Char) (n : Nat), (∀ c ∈ l, c.isDigit = true) →
      Nat.ofDigitChars 10 l n < (n + 1) * 10 ^ l.length := by
    intro l
    induction l with
    | nil =>
      intro n _
      simp
    | cons c l ih =>
      intro n hl
      have hc := isDigit_iff.1 (hl c List.mem_cons_self)
      have hdigit : c.toNat - '0'.toNat ≤ 9 := by
        change c.toNat - 48 ≤ 9
        omega
      rw [Nat.ofDigitChars_cons, List.length_cons, Nat.pow_succ]
      calc Nat.ofDigitChars 10 l (10 * n + (c.toNat - '0'.toNat))
          < (10 * n + (c.toNat - '0'.toNat) + 1) * 10 ^ l.length :=
            ih _ fun d hd => hl d (List.mem_cons_of_mem _ hd)
        _ ≤ ((n + 1) * 10) * 10 ^ l.length := Nat.mul_le_mul_right _ (by omega)
        _ = (n + 1) * (10 ^ l.length * 10) := by rw [Nat.mul_assoc, Nat.mul_comm 10]
  have hzero := hfrom digits 0 h
  rwa [Nat.zero_add, Nat.one_mul] at hzero

/-- One more character of a string: the body goes on behind `f`, which stands for `c`. -/
theorem string_cons {f : List Char} (hc : isStringChar c = true) (hne : f ≠ [])
    (hfront : ∀ d ∈ f, d.toNat < 128)
    (ih : ∀ {text rest : List Char}, Parser.parseStringBody s = .ok (text, rest) →
      (∀ d ∈ text, isStringChar d = true) ∧ Takes s rest) {text : List Char}
    (h : (do
      let (text, s) ← Parser.parseStringBody s
      .ok (c :: text, s)) = Except.ok (ε := HttpSigError) (text, rest)) :
    (∀ d ∈ text, isStringChar d = true) ∧ Takes (f ++ s) rest := by
  obtain ⟨out, hout, h⟩ := bind_eq_ok.1 h
  cases h
  obtain ⟨hall, htakes⟩ := ih hout
  exact ⟨List.forall_mem_cons.2 ⟨hc, hall⟩, Takes.trans ⟨f, rfl, hne, hfront⟩ htakes.skips⟩

theorem isStringChar_ascii (hc : isStringChar c = true) : c.toNat < 128 := by
  simp only [isStringChar, Bool.and_eq_true, decide_eq_true_eq] at hc
  omega

theorem parseStringBody_ok : ∀ {s text rest : List Char},
    Parser.parseStringBody s = .ok (text, rest) →
      (∀ c ∈ text, isStringChar c = true) ∧ Takes s rest := by
  intro s
  induction s using Parser.parseStringBody.induct with
  | case1 =>
    intro text rest h
    simp [Parser.parseStringBody] at h
  | case2 s =>
    intro text rest h
    obtain ⟨rfl, rfl⟩ : [] = text ∧ s = rest := by simpa [Parser.parseStringBody] using h
    exact ⟨by simp, takes_cons (by decide) s⟩
  | case3 s ih =>
    intro text rest h
    rw [Parser.parseStringBody] at h
    exact string_cons (f := ['\\', '"']) rfl (by simp) (by simp) ih h
  | case4 s ih =>
    intro text rest h
    rw [Parser.parseStringBody] at h
    exact string_cons (f := ['\\', '\\']) rfl (by simp) (by simp) ih h
  | case5 s h1 h2 =>
    intro text rest h
    rw [Parser.parseStringBody] at h
    · simp at h
    · exact h1
    · exact h2
  | case6 c s h1 h2 h3 h4 hc ih =>
    intro text rest h
    rw [Parser.parseStringBody, if_pos hc] at h
    · exact string_cons (f := [c]) hc (by simp) (by simpa using isStringChar_ascii hc) ih h
    all_goals assumption
  | case7 c s h1 h2 h3 h4 hc =>
    intro text rest h
    rw [Parser.parseStringBody, if_neg hc] at h
    · simp at h
    all_goals assumption

/-- What base64 decodes is ASCII. -/
theorem ascii_of_decode {text : List Char} {bytes : List UInt8}
    (h : Base64.decode text = some bytes) : ∀ c ∈ text, c.toNat < 128 := by
  intro c hc
  rcases Base64.mem_of_decode h c hc with rfl | ⟨n, hn⟩
  · decide
  · exact Base64.sextet_ascii hn

variable {v : SfvBareItem}

theorem parseDecimalRemainder_ok {negative : Bool} {digits : List Char}
    (hdigits : ∀ c ∈ digits, c.isDigit = true) (hs : s.head? = some '.')
    (h : Parser.parseDecimalRemainder negative digits s = .ok (v, rest)) :
    v.wellFormed = true ∧ Takes s rest := by
  simp only [Parser.parseDecimalRemainder] at h
  split at h
  · simp at h
  · rename_i hfrac
    split at h
    · simp at h
    · rename_i hint
      cases h
      refine ⟨?_, (takes_tail hs (by decide)).trans (skips_dropWhile isDigit_ascii s.tail)⟩
      -- at most twelve digits before the point, and less than a thousand thousandths behind it
      have hhigh : Parser.number digits < 10 ^ 12 :=
        (number_lt hdigits).trans_le (Nat.pow_le_pow_right (by decide) (by omega))
      have hlow : Parser.number (s.tail.takeWhile Char.isDigit) *
          10 ^ (3 - (s.tail.takeWhile Char.isDigit).length) < 10 ^ 3 := by
        have hnumber := number_lt fun c (hc : c ∈ s.tail.takeWhile Char.isDigit) =>
          List.mem_takeWhile_imp hc
        calc Parser.number (s.tail.takeWhile Char.isDigit) *
              10 ^ (3 - (s.tail.takeWhile Char.isDigit).length)
            < 10 ^ (s.tail.takeWhile Char.isDigit).length *
              10 ^ (3 - (s.tail.takeWhile Char.isDigit).length) :=
              Nat.mul_lt_mul_of_pos_right hnumber (Nat.pow_pos (by decide))
          _ = 10 ^ 3 := by
            rw [← Nat.pow_add]
            congr 1
            omega
      simp only [SfvBareItem.wellFormed, decide_eq_true_eq]
      omega

theorem parseUnsigned_ok {negative : Bool} (h : Parser.parseUnsigned negative s = .ok (v, rest)) :
    v.wellFormed = true ∧ Takes s rest := by
  simp only [Parser.parseUnsigned] at h
  generalize (if negative = true then -(Parser.number (s.takeWhile Char.isDigit) : Int)
    else Parser.number (s.takeWhile Char.isDigit)) = val at h
  split at h
  · simp at h
  · rename_i hne
    have htakes : Takes s (s.dropWhile Char.isDigit) :=
      ⟨s.takeWhile Char.isDigit, (List.takeWhile_append_dropWhile).symm, hne,
        fun c hc => isDigit_ascii c (List.mem_takeWhile_imp hc)⟩
    split at h
    · rename_i hpoint
      obtain ⟨hv, hrest⟩ := parseDecimalRemainder_ok
        (fun c hc => List.mem_takeWhile_imp hc) hpoint h
      exact ⟨hv, htakes.trans hrest.skips⟩
    · split at h
      · simp at h
      · split at h
        · simp at h
        · rename_i hrange
          cases h
          refine ⟨?_, htakes⟩
          simp only [SfvBareItem.wellFormed, decide_eq_true_eq]
          omega

theorem parseBareItem_ok (h : Parser.parseBareItem s = .ok (v, rest)) :
    v.wellFormed = true ∧ Takes s rest := by
  cases s with
  | nil => simp [Parser.parseBareItem] at h
  | cons c s =>
    simp only [Parser.parseBareItem, List.head?_cons] at h
    split at h
    · rename_i hc
      subst hc
      rw [Parser.parseString] at h
      obtain ⟨out, hout, h⟩ := bind_eq_ok.1 h
      obtain ⟨rfl, rfl⟩ := Prod.mk.inj (Except.ok.inj h)
      obtain ⟨hall, htakes⟩ := parseStringBody_ok hout
      exact ⟨List.all_eq_true.2 hall, (takes_cons (by decide) s).trans htakes.skips⟩
    split at h
    · rename_i hc
      subst hc
      rw [Parser.parseByteSequence] at h
      split at h
      · simp at h
      · rename_i d tail hdrop
        split at h
        · rename_i bytes hdecode
          obtain ⟨rfl, rfl⟩ := Prod.mk.inj (Except.ok.inj h)
          have hcolon : d = ':' := by
            have hstop := stops_dropWhile (· != ':') s d (by rw [hdrop, List.head?_cons])
            simpa using hstop
          have hsplit : Skips s (d :: tail) :=
            ⟨s.takeWhile (· != ':'), by rw [← hdrop, List.takeWhile_append_dropWhile],
              ascii_of_decode hdecode⟩
          have hclose : Takes (d :: tail) tail := takes_cons (by rw [hcolon]; decide) tail
          exact ⟨rfl, (takes_cons (by decide) s).trans (hsplit.trans hclose.skips)⟩
        · simp at h
    split at h
    · rename_i hc
      subst hc
      rw [Parser.parseBoolean.eq_def] at h
      split at h
      · obtain ⟨rfl, rfl⟩ := Prod.mk.inj (Except.ok.inj h)
        rename_i heq
        rw [heq]
        exact ⟨rfl, (takes_cons (by decide) _).trans (takes_cons (by decide) _).skips⟩
      · obtain ⟨rfl, rfl⟩ := Prod.mk.inj (Except.ok.inj h)
        rename_i heq
        rw [heq]
        exact ⟨rfl, (takes_cons (by decide) _).trans (takes_cons (by decide) _).skips⟩
      · simp at h
      · simp at h
    split at h
    · rw [Parser.parseIntegerOrDecimal.eq_def] at h
      split at h
      · rename_i heq
        obtain ⟨hv, htakes⟩ := parseUnsigned_ok h
        rw [heq]
        exact ⟨hv, (takes_cons (by decide) _).trans htakes.skips⟩
      · exact parseUnsigned_ok h
    split at h
    · rw [Parser.parseToken] at h
      obtain ⟨out, hout, h⟩ := bind_eq_ok.1 h
      obtain ⟨rfl, rfl⟩ := Prod.mk.inj (Except.ok.inj h)
      obtain ⟨hword, hsplit, -⟩ := parseWord_ok hout
      exact ⟨hword, takes_word (fun c hc => isTokenChar_ascii c (isTokenChar_of_isTokenStart hc))
        isTokenChar_ascii hword hsplit⟩
    · simp at h

/-! ## Parameters -/

theorem parseKey_ok {key : List Char} (h : Parser.parseKey s = .ok (key, rest)) :
    isKey key = true ∧ Takes s rest := by
  obtain ⟨hword, hsplit, -⟩ := parseWord_ok h
  have hascii : ∀ c, isKeyChar c = true → c.toNat < 128 :=
    fun c hc => isTokenChar_ascii c (isKeyChar_isTokenChar hc)
  exact ⟨hword, takes_word (fun c hc => hascii c (isKeyChar_of_isKeyStart hc)) hascii hword hsplit⟩

theorem parseParameterValue_ok {value : Option SfvBareItem}
    (h : Parser.parseParameterValue s = .ok (value, rest)) :
    value.all SfvBareItem.wellFormed = true ∧ Skips s rest := by
  rw [Parser.parseParameterValue] at h
  split at h
  · rename_i heq
    obtain ⟨out, hout, h⟩ := bind_eq_ok.1 h
    cases h
    obtain ⟨hv, htakes⟩ := parseBareItem_ok hout
    exact ⟨hv, ((takes_tail heq (by decide)).trans htakes.skips).skips⟩
  · cases h
    exact ⟨rfl, skips_refl _⟩

variable {params : SfvParams}

theorem insert_wellFormed (hparams : params.wellFormed = true)
    {entry : List Char × Option SfvBareItem} (hentry : wellFormedEntry entry = true) :
    (params.insert entry.1 entry.2).wellFormed = true := by
  simp only [SfvParams.wellFormed, List.all_eq_true] at hparams ⊢
  intro e he
  rcases SfvParams.mem_insert he with he | rfl
  · exact hparams e he
  · exact hentry

/-- One round reads one well-formed parameter, or leaves everything as it is. -/
theorem parametersStep_ok {next : Next SfvParams}
    (h : Parser.parametersStep params s = .ok (next, rest)) :
    (next = .done params ∧ rest = s) ∨
      ∃ entry, wellFormedEntry entry = true ∧ next = .more (params.insert entry.1 entry.2) ∧
        Takes s rest := by
  rw [Parser.parametersStep] at h
  split at h
  · rename_i hsemi
    obtain ⟨key, hkey, h⟩ := bind_eq_ok.1 h
    obtain ⟨value, hvalue, h⟩ := bind_eq_ok.1 h
    cases h
    obtain ⟨hkeyForm, hkeyTakes⟩ := parseKey_ok hkey
    obtain ⟨hvalueForm, hvalueSkips⟩ := parseParameterValue_ok hvalue
    have hfront : Takes s (Parser.skipSp s.tail) :=
      (takes_tail hsemi (by decide)).trans (skips_skipSp s.tail)
    exact .inr ⟨(key.1, value.1), by simp [wellFormedEntry, hkeyForm, hvalueForm], rfl,
      hfront.trans (hkeyTakes.skips.trans hvalueSkips)⟩
  · cases h
    exact .inl ⟨rfl, rfl⟩

theorem parametersStep_shortens {params' : SfvParams}
    (h : Parser.parametersStep params s = .ok (.more params', rest)) : rest.length < s.length := by
  obtain ⟨hdone, -⟩ | ⟨-, -, -, htakes⟩ := parametersStep_ok h
  · cases hdone
  · exact htakes.length_lt

theorem parseParameters_ok (h : Parser.parseParameters s = .ok (params, rest)) :
    params.wellFormed = true ∧ Skips s rest := by
  refine loop_keeps (I := fun params t => params.wellFormed = true ∧ Skips s t) ?_
    ⟨rfl, skips_refl s⟩ h
  rintro params t next rest ⟨hparams, hskips⟩ hstep
  obtain ⟨rfl, rfl⟩ | ⟨entry, hentry, rfl, htakes⟩ := parametersStep_ok hstep
  · exact ⟨hparams, hskips⟩
  · exact ⟨insert_wellFormed hparams hentry, hskips.trans htakes.skips⟩

/-! ## Items and inner lists -/

theorem parseItem_ok {item : SfvItem} (h : Parser.parseItem s = .ok (item, rest)) :
    item.wellFormed = true ∧ Takes s rest := by
  rw [Parser.parseItem] at h
  obtain ⟨value, hvalue, h⟩ := bind_eq_ok.1 h
  obtain ⟨params, hparams, h⟩ := bind_eq_ok.1 h
  cases h
  obtain ⟨hvalueForm, hvalueTakes⟩ := parseBareItem_ok hvalue
  obtain ⟨hparamsForm, hparamsSkips⟩ := parseParameters_ok hparams
  exact ⟨by simp [SfvItem.wellFormed, hvalueForm, hparamsForm], hvalueTakes.trans hparamsSkips⟩

/-- One round reads one well-formed item, or the closing parenthesis. -/
theorem innerListStep_ok {items : List SfvItem} {next : Next (List SfvItem)}
    (h : Parser.innerListStep items s = .ok (next, rest)) :
    Takes s rest ∧
      (next = .done items ∨ ∃ item, item.wellFormed = true ∧ next = .more (items ++ [item])) := by
  simp only [Parser.innerListStep] at h
  split at h
  · rename_i hclose
    cases h
    exact ⟨(skips_skipSp s).trans_takes (takes_tail hclose (by decide)), .inl rfl⟩
  · split at h
    · simp at h
    · obtain ⟨item, hitem, h⟩ := bind_eq_ok.1 h
      cases h
      obtain ⟨hform, htakes⟩ := parseItem_ok hitem
      exact ⟨(skips_skipSp s).trans_takes htakes, .inr ⟨item.1, hform, rfl⟩⟩

theorem innerListStep_shortens {items : List SfvItem} {next : Next (List SfvItem)}
    (h : Parser.innerListStep items s = .ok (next, rest)) : rest.length < s.length :=
  (innerListStep_ok h).1.length_lt

theorem parseInnerList_ok {list : SfvInnerList} (h : Parser.parseInnerList s = .ok (list, rest)) :
    list.wellFormed = true ∧ Takes s rest := by
  rw [Parser.parseInnerList] at h
  split at h
  · rename_i hopen
    obtain ⟨items, hitems, h⟩ := bind_eq_ok.1 h
    obtain ⟨params, hparams, h⟩ := bind_eq_ok.1 h
    cases h
    obtain ⟨hparamsForm, hparamsSkips⟩ := parseParameters_ok hparams
    have hloop : (∀ item ∈ items.1, item.wellFormed = true) ∧ Skips s.tail items.2 := by
      refine loop_keeps
        (I := fun items t => (∀ item ∈ items, item.wellFormed = true) ∧ Skips s.tail t) ?_
        ⟨by simp, skips_refl _⟩ hitems
      rintro items t next rest ⟨hall, hskips⟩ hstep
      obtain ⟨htakes, rfl | ⟨item, hitem, rfl⟩⟩ := innerListStep_ok hstep
      · exact ⟨hall, hskips.trans htakes.skips⟩
      · exact ⟨List.forall_mem_append.2 ⟨hall, List.forall_mem_singleton.2 hitem⟩,
          hskips.trans htakes.skips⟩
    refine ⟨?_, (takes_tail hopen (by decide)).trans (hloop.2.trans hparamsSkips)⟩
    simp only [SfvInnerList.wellFormed, hparamsForm, Bool.and_true, List.all_eq_true]
    exact hloop.1
  · simp at h

/-! ## Members -/

theorem parseMemberValue_ok {member : SfvDictMember}
    (h : Parser.parseMemberValue s = .ok (member, rest)) :
    member.wellFormed = true ∧ Takes s rest := by
  rw [Parser.parseMemberValue] at h
  split at h
  · obtain ⟨list, hlist, h⟩ := bind_eq_ok.1 h
    cases h
    exact parseInnerList_ok hlist
  · obtain ⟨item, hitem, h⟩ := bind_eq_ok.1 h
    cases h
    exact parseItem_ok hitem

theorem parseDictMember_ok {entry : List Char × SfvDictMember}
    (h : Parser.parseDictMember s = .ok (entry, rest)) :
    (isKey entry.1 = true ∧ entry.2.wellFormed = true) ∧ Takes s rest := by
  rw [Parser.parseDictMember] at h
  obtain ⟨key, hkey, h⟩ := bind_eq_ok.1 h
  obtain ⟨hkeyForm, hkeyTakes⟩ := parseKey_ok hkey
  dsimp only at h
  split at h
  · rename_i heq
    obtain ⟨member, hmember, h⟩ := bind_eq_ok.1 h
    cases h
    obtain ⟨hform, htakes⟩ := parseMemberValue_ok hmember
    exact ⟨⟨hkeyForm, hform⟩,
      hkeyTakes.trans ((takes_tail heq (by decide)).trans htakes.skips).skips⟩
  · obtain ⟨params, hparams, h⟩ := bind_eq_ok.1 h
    cases h
    obtain ⟨hform, hskips⟩ := parseParameters_ok hparams
    exact ⟨⟨hkeyForm, hform⟩, hkeyTakes.trans hskips⟩

section Members

variable {α : Type} {what : String} {member : Parser.Read α} {P : α → Prop} {members : List α}

/-- One round reads a comma and a member, or leaves the members as they are. -/
theorem membersStep_ok
    (hmember : ∀ s a rest, member s = .ok (a, rest) → P a ∧ Takes s rest)
    {next : Next (List α)} (h : Parser.membersStep what member members s = .ok (next, rest)) :
    next = .done members ∨
      ∃ a, P a ∧ next = .more (members ++ [a]) ∧ Takes s rest := by
  simp only [Parser.membersStep] at h
  split at h
  · rename_i hcomma
    split at h
    · simp at h
    · obtain ⟨a, ha, h⟩ := bind_eq_ok.1 h
      cases h
      obtain ⟨hP, htakes⟩ := hmember _ _ _ ha
      exact .inr ⟨a.1, hP, rfl, (skips_skipOws s).trans_takes ((takes_tail hcomma (by decide)).trans
        ((skips_skipOws _).trans htakes.skips))⟩
  · cases h
    exact .inl rfl

theorem membersStep_shortens (hmember : ∀ s a rest, member s = .ok (a, rest) → Takes s rest)
    {members' : List α}
    (h : Parser.membersStep what member members s = .ok (.more members', rest)) :
    rest.length < s.length := by
  obtain hdone | ⟨-, -, -, htakes⟩ :=
    membersStep_ok (P := fun _ => True) (fun s a rest ha => ⟨trivial, hmember s a rest ha⟩) h
  · cases hdone
  · exact htakes.length_lt

theorem parseMembers_ok
    (hmember : ∀ s a rest, member s = .ok (a, rest) → P a ∧ Takes s rest)
    (h : Parser.parseMembers what member s = .ok (members, rest)) : ∀ a ∈ members, P a := by
  simp only [Parser.parseMembers] at h
  split at h
  · cases h
    simp
  · obtain ⟨first, hfirst, h⟩ := bind_eq_ok.1 h
    refine loop_keeps (I := fun members _ => ∀ a ∈ members, P a) ?_
      (List.forall_mem_singleton.2 (hmember _ _ _ hfirst).1) h
    intro members t next rest hall hstep
    obtain rfl | ⟨a, ha, rfl, -⟩ := membersStep_ok hmember hstep
    · exact hall
    · exact List.forall_mem_append.2 ⟨hall, List.forall_mem_singleton.2 ha⟩

end Members

/-! ## Whole texts -/

variable {input : List Char}

theorem parseWhole_ok {α : Type} {what : String} {read : Parser.Read α} {value : α}
    (h : parseWhole what read input = .ok value) : ∃ rest, read input = .ok (value, rest) := by
  simp only [parseWhole] at h
  split at h
  · simp at h
  · obtain ⟨out, hout, h⟩ := bind_eq_ok.1 h
    split at h
    · cases h
      exact ⟨out.2, hout⟩
    · simp at h

theorem wellFormed_of_parseItem {item : SfvItem} (h : parseItem input = .ok item) :
    item.wellFormed = true := by
  obtain ⟨rest, hread⟩ := parseWhole_ok h
  exact (parseItem_ok hread).1

theorem wellFormed_of_parseInnerList {list : SfvInnerList} (h : parseInnerList input = .ok list) :
    list.wellFormed = true := by
  obtain ⟨rest, hread⟩ := parseWhole_ok h
  exact (parseInnerList_ok hread).1

theorem wellFormed_of_parseList {list : SfvList} (h : parseList input = .ok list) :
    list.wellFormed = true := by
  obtain ⟨rest, hread⟩ := parseWhole_ok h
  rw [Parser.parseList] at hread
  obtain ⟨members, hmembers, hread⟩ := bind_eq_ok.1 hread
  cases hread
  exact List.all_eq_true.2 (parseMembers_ok (fun s a rest => parseMemberValue_ok) hmembers)

theorem wellFormed_of_parseDictionary {dict : SfvDictionary}
    (h : parseDictionary input = .ok dict) :
    dict.wellFormed = true := by
  obtain ⟨rest, hread⟩ := parseWhole_ok h
  rw [Parser.parseDictionary] at hread
  obtain ⟨entries, hentries, hread⟩ := bind_eq_ok.1 hread
  cases hread
  refine List.all_eq_true.2 fun entry hentry => ?_
  have hform := parseMembers_ok (fun s a rest => parseDictMember_ok) hentries entry hentry
  rw [hform.1, hform.2]
  rfl

/-! ## The loops -/

/-- Whatever the state and the text, the rounds end because the body leaves or fails, and the
model's loop gives what they end with. -/
def Parser.Ends {σ : Type} (body : σ → Parser.Read (Next σ)) : Prop :=
  ∀ state s, Leaves body state s (run Parser.stuck body state s)

/-- **The loops end by themselves**, on every text: the bound on their rounds is never reached. -/
theorem parser_loops_end (what : String) :
    Parser.Ends Parser.parametersStep ∧ Parser.Ends Parser.innerListStep ∧
      Parser.Ends (Parser.membersStep what Parser.parseListMember) ∧
      Parser.Ends (Parser.membersStep what Parser.parseDictMember) := by
  refine ⟨leaves_run fun _ _ _ _ => parametersStep_shortens,
    leaves_run fun _ _ _ _ => innerListStep_shortens,
    leaves_run fun _ _ _ _ => membersStep_shortens fun _ _ _ h => (parseMemberValue_ok h).2,
    leaves_run fun _ _ _ _ => membersStep_shortens fun _ _ _ h => (parseDictMember_ok h).2⟩

/-! ## The round trip -/

/-- Parsing gives back what was serialized; and what was parsed may be serialized and parsed again.
Both are about texts within the limit of the parser. -/
def RoundTrips {α : Type} (parse : List Char → Except HttpSigError α) (serialize : α → List Char)
    (wellFormed : α → Bool) : Prop :=
  (∀ a, wellFormed a = true → byteLen (serialize a) ≤ maxSfvInputLen →
    parse (serialize a) = .ok a) ∧
  ∀ input a, parse input = .ok a → byteLen (serialize a) ≤ maxSfvInputLen →
    parse (serialize a) = parse input

/-- What the parser accepts is well formed, so the second half follows from the first. -/
theorem roundTrips_of_wellFormed {α : Type} {parse : List Char → Except HttpSigError α}
    {serialize : α → List Char} {wellFormed : α → Bool}
    (hread : ∀ a, wellFormed a = true → byteLen (serialize a) ≤ maxSfvInputLen →
      parse (serialize a) = .ok a)
    (hform : ∀ input a, parse input = .ok a → wellFormed a = true) :
    RoundTrips parse serialize wellFormed := by
  refine ⟨hread, fun input a hinput hlen => ?_⟩
  rw [hread a (hform input a hinput) hlen, hinput]

/-- **Parsing undoes serializing**, for dictionaries, lists, inner lists and items. -/
theorem sfv_round_trip :
    RoundTrips parseDictionary serializeDictionary SfvDictionary.wellFormed ∧
    RoundTrips parseList serializeList SfvList.wellFormed ∧
    RoundTrips parseInnerList serializeInnerListToString SfvInnerList.wellFormed ∧
    RoundTrips parseItem serializeItem SfvItem.wellFormed :=
  ⟨roundTrips_of_wellFormed (fun _ => parseDictionary_serializeDictionary)
      fun _ _ => wellFormed_of_parseDictionary,
    roundTrips_of_wellFormed (fun _ => parseList_serializeList)
      fun _ _ => wellFormed_of_parseList,
    roundTrips_of_wellFormed (fun _ => parseInnerList_serializeInnerList)
      fun _ _ => wellFormed_of_parseInnerList,
    roundTrips_of_wellFormed (fun _ => parseItem_serializeItem)
      fun _ _ => wellFormed_of_parseItem⟩

/-- A member with a label: what is written for it is read as it was. -/
theorem sfv_round_trip_label :
    let dict : SfvDictionary := ⟨[("sig".toList, .item ⟨.byteSequence [0, 1],
      ⟨[("n".toList, some (.decimal true 12500)), ("flag".toList, none)], by decide⟩⟩)]⟩
    serializeDictionary dict = "sig=:AAE=:;n=-12.5;flag".toList ∧
      parseDictionary (serializeDictionary dict) = .ok dict :=
  ⟨by decide +kernel, sfv_round_trip.1.1 _ (by decide +kernel) (by decide +kernel)⟩

end Vouch.HttpSig
