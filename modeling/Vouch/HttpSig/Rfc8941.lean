import Vouch.HttpSig.SfvAccepted

/-!
# The reference algorithm

RFC 8941 §4.2 gives an algorithm for reading structured fields.  Here it is written down step by
step, with its own values, and the parser of `vouch-httpsig` is measured against it.

* `Rfc8941.…` — the algorithm, one definition per subsection, failing without a message.
* `denote` — the value of the RFC that a value of the parser stands for: a parameter without a value
  is Boolean true.
* `plainItem`, `plainInnerList` — the parser passes over nothing on its way: no integer of more than
  fifteen digits, and, in an inner list, a space or the closing parenthesis behind every item.
* `item_eq`, `innerList_eq` — **the algorithm is the parser made stricter**: it returns the same
  values and fails where the parser fails or passes over something.
* `ReadsAlike` — for one text, the condition under which the two agree.
-/

namespace Vouch.HttpSig

open Cursor Result

/-! ## The algorithm -/

namespace Rfc8941

/-- A bare item; a decimal in thousandths. -/
inductive BareItem where
  | integer (value : Int)
  | decimal (thousandths : Int)
  | string (value : List Char)
  | token (value : List Char)
  | byteSequence (bytes : List UInt8)
  | boolean (value : Bool)
deriving DecidableEq, Repr

/-- An ordered map from keys to bare items. -/
abbrev Parameters := List (List Char × BareItem)

/-- A bare item with its parameters. -/
structure Item where
  value : BareItem
  parameters : Parameters
deriving DecidableEq

/-- Items with the parameters of the list itself. -/
structure InnerList where
  items : List Item
  parameters : Parameters
deriving DecidableEq

/-- A step of the algorithm takes its value off the input, or fails parsing. -/
abbrev Parsing (α : Type) := Reader Unit α

/-- The algorithm fails parsing. -/
def fail {α : Type} : Except Unit α := .error ()

/-- Discard any leading SP characters. -/
def discardSp (s : List Char) : List Char := s.dropWhile (· == ' ')

/-- §4.2.3.3, Parsing a Key. -/
def key (s : List Char) : Except Unit (List Char × List Char) :=
  if s.head?.any fun c => c.isLower || c == '*' then
    let inKey := fun c : Char => c.isLower || c.isDigit || c == '_' || c == '-' ||
      c == '.' || c == '*'
    .ok (s.takeWhile inKey, s.dropWhile inKey)
  else fail

/-- The loop of §4.2.4 (step 7): whether the type is "decimal", and `input_number`. -/
def numberLoop : Bool → List Char → List Char → Except Unit ((Bool × List Char) × List Char)
  | decimal, inputNumber, [] => .ok ((decimal, inputNumber), [])
  | decimal, inputNumber, c :: s =>
    if c.isDigit then
      let inputNumber := inputNumber ++ [c]
      if (¬ decimal ∧ 15 < inputNumber.length) ∨ (decimal ∧ 16 < inputNumber.length) then fail
      else numberLoop decimal inputNumber s
    else if ¬ decimal ∧ c = '.' then
      if 12 < inputNumber.length then fail else numberLoop true (inputNumber ++ [c]) s
    else .ok ((decimal, inputNumber), c :: s)

/-- A string of digits as a number. -/
def digits (s : List Char) : Nat := Nat.ofDigitChars 10 s 0

/-- Steps 8 to 10 of §4.2.4. -/
def outputNumber (sign : Int) (decimal : Bool) (inputNumber : List Char) : Except Unit BareItem :=
  if decimal then
    let whole := inputNumber.takeWhile (· != '.')
    let fraction := (inputNumber.dropWhile (· != '.')).tail
    if inputNumber.getLast? = some '.' then fail
    else if 3 < fraction.length then fail
    else
      .ok (.decimal (sign *
        (digits whole * 1000 + digits fraction * 10 ^ (3 - fraction.length) : Nat)))
  else .ok (.integer (sign * digits inputNumber))

/-- §4.2.4, Parsing an Integer or Decimal, from step 5 on. -/
def numberAfterSign (sign : Int) (s : List Char) : Except Unit (BareItem × List Char) :=
  if s.head?.any Char.isDigit then do
    let ((decimal, inputNumber), s) ← numberLoop false [] s
    let output ← outputNumber sign decimal inputNumber
    .ok (output, s)
  else fail

/-- §4.2.4, Parsing an Integer or Decimal. -/
def integerOrDecimal (s : List Char) : Except Unit (BareItem × List Char) :=
  if s.head? = some '-' then numberAfterSign (-1) s.tail else numberAfterSign 1 s

/-- The loop of §4.2.5. -/
def stringLoop : Parsing (List Char)
  | [] => fail
  | c :: s =>
    if c = '\\' then
      match s with
      | [] => fail
      | next :: s =>
        if next = '"' ∨ next = '\\' then do
          let (output, s) ← stringLoop s
          .ok (next :: output, s)
        else fail
    else if c = '"' then .ok ([], s)
    else if c.toNat < 0x20 ∨ 0x7f ≤ c.toNat then fail
    else do
      let (output, s) ← stringLoop s
      .ok (c :: output, s)

/-- §4.2.5, Parsing a String. -/
def string (s : List Char) : Except Unit (BareItem × List Char) :=
  if s.head? = some '"' then do
    let (output, s) ← stringLoop s.tail
    .ok (.string output, s)
  else fail

/-- `tchar` of RFC 7230. -/
def isTchar (c : Char) : Bool :=
  c == '!' || c == '#' || c == '$' || c == '%' || c == '&' || c == '\'' || c == '*' || c == '+' ||
    c == '-' || c == '.' || c == '^' || c == '_' || c == Char.ofNat 96 || c == '|' || c == '~' ||
    c.isDigit || c.isAlpha

/-- §4.2.6, Parsing a Token. -/
def token (s : List Char) : Except Unit (BareItem × List Char) :=
  if s.head?.any fun c => c.isAlpha || c == '*' then
    let inToken := fun c => isTchar c || c == ':' || c == '/'
    .ok (.token (s.takeWhile inToken), s.dropWhile inToken)
  else fail

/-- The alphabet of §4.2.7. -/
def isBase64Char (c : Char) : Bool := c.isAlpha || c.isDigit || c == '+' || c == '/' || c == '='

/-- §4.2.7, Parsing a Byte Sequence, with a decoder that insists on padding. -/
def byteSequence : Parsing BareItem
  | ':' :: s =>
    if ':' ∉ s then fail
    else
      let content := s.takeWhile (· != ':')
      if ¬ content.all isBase64Char then fail
      else
        match Base64.decode content with
        | some bytes => .ok (.byteSequence bytes, (s.dropWhile (· != ':')).tail)
        | none => fail
  | _ => fail

/-- §4.2.8, Parsing a Boolean. -/
def boolean (s : List Char) : Except Unit (BareItem × List Char) :=
  if s.head? = some '?' then
    let s := s.tail
    if s.head? = some '1' then .ok (.boolean true, s.tail)
    else if s.head? = some '0' then .ok (.boolean false, s.tail)
    else fail
  else fail

/-- §4.2.3.1, Parsing a Bare Item. -/
def bareItem (s : List Char) : Except Unit (BareItem × List Char) :=
  match s with
  | [] => fail
  | c :: _ =>
    if c = '-' ∨ c.isDigit then integerOrDecimal s
    else if c = '"' then string s
    else if c.isAlpha ∨ c = '*' then token s
    else if c = ':' then byteSequence s
    else if c = '?' then boolean s
    else fail

/-- Steps 2.7 and 2.8 of §4.2.3.2: overwrite the value under the key, or append. -/
def overwrite (parameters : Parameters) (key : List Char) (value : BareItem) : Parameters :=
  if (parameters.map Prod.fst).contains key then
    parameters.map fun entry => if entry.1 = key then (key, value) else entry
  else parameters ++ [(key, value)]

/-- Step 2 of §4.2.3.2, once. -/
def parametersRound (parameters : Parameters) (s : List Char) :
    Except Unit (Next Parameters × List Char) :=
  if s.head? = some ';' then do
    let (key, s) ← key (discardSp s.tail)
    if s.head? = some '=' then
      let (value, s) ← bareItem s.tail
      .ok (.more (overwrite parameters key value), s)
    else .ok (.more (overwrite parameters key (.boolean true)), s)
  else .ok (.done parameters, s)

/-- §4.2.3.2, Parsing Parameters. -/
def parameters : Parsing Parameters := run () parametersRound []

/-- §4.2.3, Parsing an Item. -/
def item (s : List Char) : Except Unit (Item × List Char) := do
  let (value, s) ← bareItem s
  let (parameters, s) ← parameters s
  .ok (⟨value, parameters⟩, s)

/-- Step 3 of §4.2.1.2, once. -/
def innerListRound (items : List Item) (s : List Char) :
    Except Unit (Next (List Item) × List Char) :=
  if s = [] then fail
  else
    let s := discardSp s
    if s.head? = some ')' then .ok (.done items, s.tail)
    else do
      let (next, s) ← item s
      if s.head? = some ' ' ∨ s.head? = some ')' then .ok (.more (items ++ [next]), s) else fail

/-- §4.2.1.2, Parsing an Inner List. -/
def innerList (s : List Char) : Except Unit (InnerList × List Char) :=
  if s.head? = some '(' then do
    let (items, s) ← run () innerListRound [] s.tail
    let (parameters, s) ← parameters s
    .ok (⟨items, parameters⟩, s)
  else fail

/-- §4.2, Parsing Structured Fields: the input is ASCII, and nothing but SP stands around the
value. -/
def parse {α : Type} (value : Parsing α) (input : List Char) : Except Unit α :=
  if input.all fun c => c.toNat < 128 then do
    let (output, s) ← value (discardSp input)
    if discardSp s = [] then .ok output else fail
  else fail

end Rfc8941

/-! ## What the parser's values stand for -/

/-- The value of a bare item. -/
def SfvBareItem.denote : SfvBareItem → Rfc8941.BareItem
  | .integer v => .integer v
  | .decimal negative t => .decimal (if negative then -(t : Int) else t)
  | .string s => .string s
  | .token t => .token t
  | .byteSequence bytes => .byteSequence bytes
  | .boolean b => .boolean b

/-- A parameter without a value is Boolean true. -/
def denoteEntry (entry : List Char × Option SfvBareItem) : List Char × Rfc8941.BareItem :=
  (entry.1, entry.2.elim (.boolean true) SfvBareItem.denote)

/-- The value of parameters. -/
def SfvParams.denote (params : SfvParams) : Rfc8941.Parameters := params.entries.map denoteEntry

/-- The value of an item. -/
def SfvItem.denote (item : SfvItem) : Rfc8941.Item := ⟨item.value.denote, item.params.denote⟩

/-- The value of an inner list. -/
def SfvInnerList.denote (list : SfvInnerList) : Rfc8941.InnerList :=
  ⟨list.items.map SfvItem.denote, list.params.denote⟩

/-! ## What the parser passes over -/

/-- The item that begins here is no integer of more than fifteen digits. -/
def plainBareItem (s : List Char) : Bool :=
  let s := if s.head? = some '-' then s.tail else s
  (s.takeWhile Char.isDigit).length ≤ 15

/-- The parameter that begins here has no such integer for its value. -/
def plainParameter (s : List Char) : Bool :=
  let behindKey := (Parser.skipSp s.tail).dropWhile isKeyChar
  behindKey.head? != some '=' || plainBareItem behindKey.tail

/-- Nor has any of the parameters that follow. -/
def plainParameters (s : List Char) : Bool :=
  everyRound (fun s _ => plainParameter s) Parser.parametersStep (s.length + 1) SfvParams.new s

/-- The text behind what a reader takes off. -/
def behind {α : Type} (out : Except HttpSigError (α × List Char)) : List Char :=
  match out with
  | .ok (_, rest) => rest
  | .error _ => []

/-- The item that begins here and its parameters hold no integer of more than fifteen digits. -/
def plainItem (s : List Char) : Bool :=
  plainBareItem s && plainParameters (behind (Parser.parseBareItem s))

/-- A plain item, followed by a space or by the closing parenthesis. -/
def plainMember (s rest : List Char) : Bool :=
  plainItem (Parser.skipSp s) && (rest.head? == some ' ' || rest.head? == some ')')

/-- The inner list that begins here has plain items and plain parameters. -/
def plainInnerList (s : List Char) : Bool :=
  everyRound plainMember Parser.innerListStep (s.tail.length + 1) [] s.tail &&
    plainParameters (behind (run Parser.stuck Parser.innerListStep [] s.tail))

/-! ## Numbers -/

/-- The loop takes a run of digits in one go, unless the run makes the number too long. -/
theorem numberLoop_digits (decimal : Bool) {s : List Char} (hs : Stops Char.isDigit s) :
    ∀ (ds inputNumber : List Char), (∀ c ∈ ds, c.isDigit = true) →
      inputNumber.length ≤ (if decimal then 16 else 15) →
      Rfc8941.numberLoop decimal inputNumber (ds ++ s) =
        if (if decimal then 16 else 15) < inputNumber.length + ds.length then Rfc8941.fail
        else Rfc8941.numberLoop decimal (inputNumber ++ ds) s
  | [], inputNumber, _, hlen => by
    rw [List.nil_append, List.append_nil, List.length_nil, if_neg (by omega)]
  | c :: ds, inputNumber, hds, hlen => by
    have hc := hds c List.mem_cons_self
    have hrest : ∀ d ∈ ds, d.isDigit = true := fun d hd => hds d (List.mem_cons_of_mem _ hd)
    rw [List.cons_append, Rfc8941.numberLoop, if_pos hc]
    simp only [List.length_append, List.length_cons, List.length_nil]
    by_cases hlong : (if decimal then 16 else 15) < inputNumber.length + 1
    · rw [if_pos (by cases decimal <;> simp_all), if_pos (by omega)]
    · rw [if_neg (by cases decimal <;> simp_all),
        numberLoop_digits decimal hs ds (inputNumber ++ [c]) hrest (by simpa using hlong)]
      simp only [List.length_append, List.length_cons, List.length_nil, List.append_assoc,
        List.singleton_append]
      congr 1
      simp only [eq_iff_iff]
      omega

/-- Behind the digits of an integer, and behind those of a fraction, the loop ends. -/
theorem numberLoop_stop (decimal : Bool) {s : List Char} (hs : Stops Char.isDigit s)
    (hpoint : decimal = true ∨ s.head? ≠ some '.') (inputNumber : List Char) :
    Rfc8941.numberLoop decimal inputNumber s = .ok ((decimal, inputNumber), s) := by
  cases s with
  | nil => rfl
  | cons c s =>
    have hc : c.isDigit = false := stops_cons.1 hs
    have hne : ¬ (¬ decimal = true ∧ c = '.') := by
      rintro ⟨hdecimal, rfl⟩
      rcases hpoint with h | h
      · exact hdecimal h
      · exact h rfl
    rw [Rfc8941.numberLoop, if_neg (by simp [hc]), if_neg hne]

variable {ds : List Char}

theorem takeWhile_point (hds : ∀ c ∈ ds, c.isDigit = true) (s : List Char) :
    (ds ++ '.' :: s).takeWhile (· != '.') = ds ∧
      (ds ++ '.' :: s).dropWhile (· != '.') = '.' :: s := by
  have hall : ∀ c ∈ ds, (c != '.') = true := by
    intro c hc
    have hne : c ≠ '.' := ne_of_class (hds c hc) rfl
    simpa using hne
  have hstop : Stops (· != '.') ('.' :: s) := stops_cons.2 rfl
  exact ⟨takeWhile_append_stops hall hstop, dropWhile_append_stops hall hstop⟩

/-- The sign of the RFC. -/
def rfcSign (negative : Bool) : Int := if negative then -1 else 1

theorem rfcSign_mul (negative : Bool) (n : Nat) :
    rfcSign negative * n = if negative then -(n : Int) else n := by
  cases negative <;> simp [rfcSign]

variable {rest : List Char}

/-- From the point on, the loop takes at most three more digits for granted. -/
theorem numberLoop_point {fs : List Char} (hfs : ∀ c ∈ fs, c.isDigit = true)
    (hrest : Stops Char.isDigit rest) :
    Rfc8941.numberLoop false ds ('.' :: (fs ++ rest)) =
      if 12 < ds.length ∨ 16 < ds.length + 1 + fs.length then Rfc8941.fail
      else .ok ((true, ds ++ '.' :: fs), rest) := by
  rw [Rfc8941.numberLoop, if_neg (by decide), if_pos (by simp)]
  by_cases hlong : 12 < ds.length
  · rw [if_pos hlong, if_pos (.inl hlong)]
  · rw [if_neg hlong, numberLoop_digits true hrest fs (ds ++ ['.']) hfs
      (by simp only [List.length_append, List.length_singleton, if_true]; omega),
      numberLoop_stop true hrest (.inl rfl)]
    simp [hlong]

/-- A decimal behind its integer part is read alike. -/
theorem decimal_eq (negative : Bool) {fs : List Char} (hds : ∀ c ∈ ds, c.isDigit = true)
    (hfs : ∀ c ∈ fs, c.isDigit = true) (hrest : Stops Char.isDigit rest) :
    (do
      let ((decimal, inputNumber), s) ← Rfc8941.numberLoop false ds ('.' :: (fs ++ rest))
      let output ← Rfc8941.outputNumber (rfcSign negative) decimal inputNumber
      .ok (output, s)) =
      stricter true SfvBareItem.denote
        (Parser.parseDecimalRemainder negative ds ('.' :: (fs ++ rest))) := by
  obtain ⟨hwhole, hdrop⟩ := takeWhile_point hds fs
  rw [numberLoop_point hfs hrest]
  simp only [Parser.parseDecimalRemainder, List.tail_cons, takeWhile_append_stops hfs hrest,
    dropWhile_append_stops hfs hrest]
  by_cases hbad : fs.length = 0 ∨ 3 < fs.length
  · rw [if_pos hbad]
    split
    · rfl
    · rcases hbad with hnil | hlong
      · obtain rfl := List.length_eq_zero_iff.1 hnil
        simp [Rfc8941.outputNumber, Rfc8941.fail, stricter]
      · simp only [ok_bind, Rfc8941.outputNumber, if_true, hdrop, List.tail_cons, hlong, ite_self]
        rfl
  · rw [if_neg hbad]
    by_cases hlong : 12 < ds.length
    · rw [if_pos (.inl hlong), if_pos hlong]
      rfl
    · have hlast : (ds ++ '.' :: fs).getLast? ≠ some '.' := by
        rcases List.eq_nil_or_concat fs with rfl | ⟨front, f, rfl⟩
        · exact absurd (.inl rfl) hbad
        · have hf : f ≠ '.' := ne_of_class (hfs f (by simp)) rfl
          have hconcat : ds ++ '.' :: front.concat f = (ds ++ '.' :: front) ++ [f] := by simp
          rw [hconcat, List.getLast?_concat]
          simpa using hf
      have hthree : ¬ 3 < fs.length := fun h => hbad (.inr h)
      rw [if_neg (by omega), if_neg hlong]
      simp only [ok_bind, Rfc8941.outputNumber, if_true, hlast, if_false, hwhole, hdrop,
        List.tail_cons, hthree, rfcSign_mul, stricter, SfvBareItem.denote]
      rfl

/-- **A number is read alike**, unless it is an integer of more than fifteen digits. -/
theorem numberAfterSign_eq (negative : Bool) (s : List Char) :
    Rfc8941.numberAfterSign (rfcSign negative) s =
      stricter (decide ((s.takeWhile Char.isDigit).length ≤ 15)) SfvBareItem.denote
        (Parser.parseUnsigned negative s) := by
  have hds : ∀ c ∈ s.takeWhile Char.isDigit, c.isDigit = true := fun c hc =>
    List.mem_takeWhile_imp hc
  have hrest := stops_dropWhile Char.isDigit s
  have hsplit : s.takeWhile Char.isDigit ++ s.dropWhile Char.isDigit = s :=
    List.takeWhile_append_dropWhile
  generalize hds' : s.takeWhile Char.isDigit = ds at hds hsplit
  generalize s.dropWhile Char.isDigit = rest at hrest hsplit
  subst hsplit
  by_cases hnil : ds = []
  · subst hnil
    have hhead : rest.head?.any Char.isDigit = false := by
      cases rest with
      | nil => rfl
      | cons c rest => simpa using stops_cons.1 hrest
    rw [List.nil_append, Rfc8941.numberAfterSign, hhead]
    simp [Parser.parseUnsigned, hrest.takeWhile_eq, stricter, Rfc8941.fail]
  · have hhead : (ds ++ rest).head?.any Char.isDigit = true := by
      cases ds with
      | nil => exact absurd rfl hnil
      | cons d ds => simpa using hds d List.mem_cons_self
    rw [Rfc8941.numberAfterSign, if_pos hhead,
      numberLoop_digits false hrest ds [] hds (by simp), List.nil_append]
    simp only [List.length_nil, Nat.zero_add, Bool.false_eq_true, if_false]
    by_cases hlong : 15 < ds.length
    · rw [if_pos hlong, decide_eq_false (by omega)]
      cases Parser.parseUnsigned negative (ds ++ rest) <;> rfl
    · rw [if_neg hlong, decide_eq_true (by omega)]
      by_cases hpoint : rest.head? = some '.'
      · obtain ⟨t, rfl⟩ := List.head?_eq_some_iff.mp hpoint
        have hunsigned : Parser.parseUnsigned negative (ds ++ '.' :: t) =
            Parser.parseDecimalRemainder negative ds ('.' :: t) := by
          simp [Parser.parseUnsigned, takeWhile_append_stops hds hrest,
            dropWhile_append_stops hds hrest, hnil]
        rw [hunsigned, ← List.takeWhile_append_dropWhile (p := Char.isDigit) (l := t)]
        exact decimal_eq negative hds (fun c hc => List.mem_takeWhile_imp hc)
          (stops_dropWhile Char.isDigit t)
      · have hnumber : Parser.number ds < 10 ^ 15 :=
          (number_lt hds).trans_le (Nat.pow_le_pow_right (by decide) (by omega))
        rw [numberLoop_stop false hrest (.inr hpoint),
          parseUnsigned_digits negative hds hnil (Nat.le_of_lt_succ hnumber) hrest hpoint]
        simp only [ok_bind, Rfc8941.outputNumber, Bool.false_eq_true, if_false, rfcSign_mul,
          stricter, SfvBareItem.denote, if_true]
        rfl

theorem integerOrDecimal_eq (s : List Char) :
    Rfc8941.integerOrDecimal s =
      stricter (plainBareItem s) SfvBareItem.denote (Parser.parseIntegerOrDecimal s) := by
  rw [Rfc8941.integerOrDecimal, Parser.parseIntegerOrDecimal.eq_def]
  split
  · rename_i hminus
    obtain ⟨t, rfl⟩ := List.head?_eq_some_iff.mp hminus
    exact numberAfterSign_eq true t
  · rename_i hminus
    have hplain : plainBareItem s = decide ((s.takeWhile Char.isDigit).length ≤ 15) := by
      simp [plainBareItem, hminus]
    split
    · exact absurd rfl hminus
    · rw [hplain]
      exact numberAfterSign_eq false s

/-! ## Strings, tokens, byte sequences and Booleans -/

theorem stringLoop_eq (s : List Char) :
    Rfc8941.stringLoop s = stricter true id (Parser.parseStringBody s) := by
  induction s using Parser.parseStringBody.induct with
  | case1 => rfl
  | case2 s =>
    rw [Parser.parseStringBody, Rfc8941.stringLoop.eq_def]
    rfl
  | case3 s ih =>
    rw [Parser.parseStringBody, Rfc8941.stringLoop.eq_def]
    simp only [if_true, true_or, ih]
    cases Parser.parseStringBody s <;> rfl
  | case4 s ih =>
    rw [Parser.parseStringBody, Rfc8941.stringLoop.eq_def]
    simp only [if_true, or_true, ih]
    cases Parser.parseStringBody s <;> rfl
  | case5 s h1 h2 =>
    rw [Parser.parseStringBody, Rfc8941.stringLoop.eq_def]
    · cases s with
      | nil => rfl
      | cons next s =>
        have hquote : next ≠ '"' := fun h => h1 s (by rw [h])
        have hslash : next ≠ '\\' := fun h => h2 s (by rw [h])
        simp only [if_true, hquote, hslash, or_self, if_false]
        rfl
    · exact h1
    · exact h2
  | case6 c s h1 h2 h3 h4 hc ih =>
    have hrange : ¬ (c.toNat < 0x20 ∨ 0x7f ≤ c.toNat) := by
      simp only [isStringChar, Bool.and_eq_true, decide_eq_true_eq] at hc
      omega
    rw [Parser.parseStringBody, if_pos hc, Rfc8941.stringLoop.eq_def]
    · simp only [show c ≠ '\\' from h4, show c ≠ '"' from h1, if_false, hrange, ih]
      cases Parser.parseStringBody s <;> rfl
    all_goals assumption
  | case7 c s h1 h2 h3 h4 hc =>
    have hrange : c.toNat < 0x20 ∨ 0x7f ≤ c.toNat := by
      simp only [isStringChar, Bool.and_eq_true, decide_eq_true_eq] at hc
      omega
    rw [Parser.parseStringBody, if_neg hc, Rfc8941.stringLoop.eq_def]
    · simp only [show c ≠ '\\' from h4, show c ≠ '"' from h1, if_false, hrange, if_true]
      rfl
    all_goals assumption

theorem string_eq (s : List Char) :
    Rfc8941.string ('"' :: s) = stricter true SfvBareItem.denote
      (Parser.parseString ('"' :: s)) := by
  rw [Rfc8941.string, List.head?_cons, if_pos rfl, List.tail_cons, stringLoop_eq,
    Parser.parseString]
  cases Parser.parseStringBody s <;> rfl

theorem isTokenChar_eq (c : Char) :
    isTokenChar c = (Rfc8941.isTchar c || c == ':' || c == '/') := by
  simp only [isTokenChar, Rfc8941.isTchar, Char.isAlphanum]
  ac_rfl

theorem token_eq {c : Char} (hc : isTokenStart c = true) (s : List Char) :
    Rfc8941.token (c :: s) = stricter true SfvBareItem.denote (Parser.parseToken (c :: s)) := by
  have hclass : (fun c => Rfc8941.isTchar c || c == ':' || c == '/') = isTokenChar :=
    funext fun c => (isTokenChar_eq c).symm
  have hin : isTokenChar c = true := isTokenChar_of_isTokenStart hc
  have hstart : (c.isAlpha || c == '*') = true := hc
  simp only [Rfc8941.token, List.head?_cons, Option.any_some, hstart, if_true, hclass,
    List.takeWhile_cons, List.dropWhile_cons, hin, Parser.parseToken, Parser.parseWord, hc, ok_bind]
  rfl

theorem isBase64Char_of_sextet {c : Char} {n : Nat} (h : Base64.sextet c = some n) :
    Rfc8941.isBase64Char c = true := by
  by_contra hc
  simp only [Rfc8941.isBase64Char, isAlpha_eq, isUpper_eq, isLower_eq, Char.isDigit,
    Bool.or_eq_true, Bool.and_eq_true, decide_eq_true_eq, beq_iff_eq, not_or] at hc
  obtain ⟨⟨⟨⟨⟨hupper, hlower⟩, hdigit⟩, hplus⟩, hslash⟩, -⟩ := hc
  rw [Base64.sextet, if_neg (by exact hupper), if_neg (by exact hlower), if_neg (by exact hdigit),
    if_neg hplus, if_neg hslash] at h
  cases h

/-- A decoder that accepts a text accepts no character outside the alphabet. -/
theorem all_isBase64Char_of_decode {text : List Char} {bytes : List UInt8}
    (h : Base64.decode text = some bytes) : text.all Rfc8941.isBase64Char = true := by
  refine List.all_eq_true.2 fun c hc => ?_
  rcases Base64.mem_of_decode h c hc with rfl | ⟨n, hn⟩
  · rfl
  · exact isBase64Char_of_sextet hn

theorem byteSequence_eq (s : List Char) :
    Rfc8941.byteSequence (':' :: s) =
      stricter true SfvBareItem.denote (Parser.parseByteSequence (':' :: s)) := by
  have hcolon : ':' ∉ s ↔ s.dropWhile (· != ':') = [] := by
    rw [List.dropWhile_eq_nil_iff]
    constructor
    · intro h c hc
      rw [bne_iff_ne]
      rintro rfl
      exact h hc
    · intro h hmem
      exact absurd (h ':' hmem) (by decide)
  simp only [Rfc8941.byteSequence, hcolon, Parser.parseByteSequence]
  cases hdrop : s.dropWhile (· != ':') with
  | nil => rfl
  | cons d rest =>
    simp only [List.cons_ne_nil, if_false, List.tail_cons]
    cases hdecode : Base64.decode (s.takeWhile (· != ':')) with
    | none =>
      simp only [ite_self]
      rfl
    | some bytes =>
      simp only [all_isBase64Char_of_decode hdecode, not_true_eq_false, if_false]
      rfl

theorem boolean_eq (s : List Char) :
    Rfc8941.boolean ('?' :: s) = stricter true SfvBareItem.denote
      (Parser.parseBoolean ('?' :: s)) := by
  cases s with
  | nil => rfl
  | cons c t =>
    by_cases h0 : c = '0'
    · subst h0
      rfl
    by_cases h1 : c = '1'
    · subst h1
      rfl
    simp [Rfc8941.boolean, Parser.parseBoolean, h0, h1, stricter, Rfc8941.fail]

/-- **A bare item is read alike**, unless it is an integer of more than fifteen digits. -/
theorem bareItem_eq (s : List Char) :
    Rfc8941.bareItem s = stricter (plainBareItem s) SfvBareItem.denote
      (Parser.parseBareItem s) := by
  cases s with
  | nil => rfl
  | cons c s =>
    -- what does not begin like a number has no digits to count
    have hplain : c ≠ '-' → c.isDigit = false → plainBareItem (c :: s) = true := by
      intro hminus hdigit
      simp [plainBareItem, hminus, hdigit]
    simp only [Rfc8941.bareItem, Parser.parseBareItem, List.head?_cons]
    by_cases hquote : c = '"'
    · subst hquote
      exact string_eq s
    by_cases hcolon : c = ':'
    · subst hcolon
      exact byteSequence_eq s
    by_cases hquestion : c = '?'
    · subst hquestion
      exact boolean_eq s
    by_cases hnumber : c = '-' ∨ c.isDigit = true
    · have hb : (c == '-' || c.isDigit) = true := by simpa using hnumber
      rw [if_pos hnumber, if_neg hquote, if_neg hcolon, if_neg hquestion, if_pos hb]
      exact integerOrDecimal_eq (c :: s)
    · have hb : (c == '-' || c.isDigit) = false := by simpa using hnumber
      have hgood : plainBareItem (c :: s) = true :=
        hplain (fun h => hnumber (.inl h)) (by simpa using fun h => hnumber (.inr h))
      simp only [hnumber, hquote, hcolon, hquestion, hb, hgood, if_false, Bool.false_eq_true]
      by_cases hstart : isTokenStart c = true
      · have htoken : c.isAlpha = true ∨ c = '*' := by simpa [isTokenStart] using hstart
        rw [if_pos htoken, if_pos hstart]
        exact token_eq hstart s
      · have htoken : ¬ (c.isAlpha = true ∨ c = '*') := by simpa [isTokenStart] using hstart
        rw [if_neg htoken, if_neg hstart]
        rfl

/-! ## Parameters -/

/-- A key is read alike, and what is left is what no longer belongs to it. -/
theorem key_eq (s : List Char) :
    Rfc8941.key s = stricter true id (Parser.parseKey s) ∧
      ∀ key rest, Parser.parseKey s = .ok (key, rest) → rest = s.dropWhile isKeyChar := by
  cases s with
  | nil =>
    refine ⟨rfl, fun key rest h => ?_⟩
    cases h
  | cons c s =>
    by_cases hc : isKeyStart c = true
    · have hin : isKeyChar c = true := isKeyChar_of_isKeyStart hc
      have hstart : (c.isLower || c == '*') = true := hc
      have hclass : (c.isLower || c.isDigit || c == '_' || c == '-' || c == '.' || c == '*') =
        true :=
        hin
      constructor
      · simp only [Rfc8941.key, List.head?_cons, Option.any_some, hstart, if_true,
          List.takeWhile_cons, List.dropWhile_cons, hclass, Parser.parseKey, Parser.parseWord, hc]
        rfl
      · intro key rest h
        simp only [Parser.parseKey, Parser.parseWord, hc, if_true] at h
        obtain ⟨-, rfl⟩ := Prod.mk.inj (Except.ok.inj h)
        rw [List.dropWhile_cons, if_pos hin]
    · have hstart : ¬ (c.isLower || c == '*') = true := hc
      constructor
      · simp only [Rfc8941.key, List.head?_cons, Option.any_some, hstart, if_false,
          Parser.parseKey, Parser.parseWord, hc, Bool.false_eq_true]
        rfl
      · intro key rest h
        simp only [Parser.parseKey, Parser.parseWord, hc, Bool.false_eq_true, if_false] at h
        cases h

theorem denote_insert (params : SfvParams) (key : List Char) (value : Option SfvBareItem) :
    (params.insert key value).denote =
      Rfc8941.overwrite params.denote key (value.elim (.boolean true) SfvBareItem.denote) := by
  have hkeys : params.denote.map Prod.fst = params.entries.map Prod.fst := by
    rw [SfvParams.denote, List.map_map]
    rfl
  rw [Rfc8941.overwrite, hkeys]
  show (SfvParams.insertEntry params.entries key value).map denoteEntry = _
  simp only [SfvParams.insertEntry, List.contains_iff_mem]
  split
  · rw [SfvParams.denote, List.map_map, List.map_map]
    refine List.map_congr_left fun entry _ => ?_
    by_cases h : entry.1 = key <;> simp [h, denoteEntry]
  · rw [SfvParams.denote, List.map_append]
    rfl

/-- One parameter is read alike, unless its value is too long an integer. -/
theorem parametersRound_eq (params : SfvParams) (s : List Char) :
    Rfc8941.parametersRound params.denote s =
      stricterRound (fun s _ => plainParameter s) SfvParams.denote s
        (Parser.parametersStep params s) := by
  rw [Rfc8941.parametersRound, Parser.parametersStep]
  by_cases hsemi : s.head? = some ';'
  · rw [if_pos hsemi, if_pos hsemi, show Rfc8941.discardSp s.tail = Parser.skipSp s.tail from rfl]
    obtain ⟨hkey, hbehind⟩ := key_eq (Parser.skipSp s.tail)
    rw [hkey]
    cases hparse : Parser.parseKey (Parser.skipSp s.tail) with
    | error e => rfl
    | ok out =>
      obtain ⟨key, rest⟩ := out
      have hrest := hbehind key rest hparse
      simp only [stricter, if_true, id, ok_bind, Parser.parseParameterValue]
      by_cases heq : rest.head? = some '='
      · have hplain : plainParameter s = plainBareItem rest.tail := by
          simp only [plainParameter, ← hrest, heq]
          rfl
        simp only [heq, if_true, bareItem_eq]
        cases Parser.parseBareItem rest.tail with
        | error e => rfl
        | ok out =>
          simp only [stricter, ok_bind, stricterRound, hplain]
          cases plainBareItem rest.tail with
          | true => simp [denote_insert]
          | false => rfl
      · have hplain : plainParameter s = true := by
          simp only [plainParameter, ← hrest, Bool.or_eq_true, bne_iff_ne]
          exact .inl heq
        simp only [heq, if_false, ok_bind, stricterRound, hplain, if_true, denote_insert]
        rfl
  · rw [if_neg hsemi, if_neg hsemi]
    rfl

/-- **Parameters are read alike**, as long as none is too long an integer. -/
theorem parameters_eq (s : List Char) :
    Rfc8941.parameters s =
      stricter (plainParameters s) SfvParams.denote (Parser.parseParameters s) :=
  loop_stricter parametersRound_eq (s.length + 1) SfvParams.new s

/-! ## Items and inner lists -/

/-- What is read alike is still so with its parameters. -/
theorem stricter_withParameters {α β γ δ : Type} {f : α → β} {g : γ → δ} (mk : α → SfvParams → γ)
    (mk' : β → Rfc8941.Parameters → δ) (hmk : ∀ a params, mk' (f a) params.denote = g (mk a params))
    (plain : Bool) (out : Except HttpSigError (α × List Char)) :
    (do
      let (b, s) ← stricter plain f out
      let (parameters, s) ← Rfc8941.parameters s
      .ok (mk' b parameters, s)) =
      stricter (plain && plainParameters (behind out)) g (do
        let (a, s) ← out
        let (params, s) ← Parser.parseParameters s
        .ok (mk a params, s)) := by
  cases out with
  | error e => rfl
  | ok out =>
    obtain ⟨a, rest⟩ := out
    simp only [ok_bind, behind]
    cases plain with
    | false =>
      simp only [stricter, Bool.false_eq_true, if_false, Bool.false_and]
      cases Parser.parseParameters rest <;> rfl
    | true =>
      simp only [stricter, if_true, ok_bind, Bool.true_and, parameters_eq]
      cases Parser.parseParameters rest with
      | error e => rfl
      | ok out =>
        cases plainParameters rest with
        | false => rfl
        | true => simp [hmk]

/-- **An item is read alike**, as long as it holds no integer of more than fifteen digits. -/
theorem item_eq (s : List Char) :
    Rfc8941.item s = stricter (plainItem s) SfvItem.denote (Parser.parseItem s) := by
  rw [Rfc8941.item, Parser.parseItem, plainItem, bareItem_eq]
  exact stricter_withParameters SfvItem.mk Rfc8941.Item.mk (fun _ _ => rfl) _ _

/-- One item of an inner list is read alike, if it is plain and something separates it from the
next. -/
theorem innerListRound_eq (items : List SfvItem) (s : List Char) :
    Rfc8941.innerListRound (items.map SfvItem.denote) s =
      stricterRound plainMember (List.map SfvItem.denote) s (Parser.innerListStep items s) := by
  simp only [Rfc8941.innerListRound, Parser.innerListStep,
    show Rfc8941.discardSp s = Parser.skipSp s from rfl]
  by_cases hnil : s = []
  · subst hnil
    rfl
  rw [if_neg hnil]
  by_cases hclose : (Parser.skipSp s).head? = some ')'
  · rw [if_pos hclose, if_pos hclose]
    rfl
  rw [if_neg hclose, if_neg hclose]
  by_cases hempty : Parser.skipSp s = []
  · rw [if_pos hempty, hempty]
    rfl
  rw [if_neg hempty, item_eq]
  cases Parser.parseItem (Parser.skipSp s) with
  | error e => rfl
  | ok out =>
    obtain ⟨item, rest⟩ := out
    by_cases hplain : plainItem (Parser.skipSp s) = true
    · simp only [ok_bind, stricterRound, plainMember, stricter, hplain, if_true, Bool.true_and,
        List.map_append, List.map_cons, List.map_nil]
      by_cases hsep : rest.head? = some ' ' ∨ rest.head? = some ')'
      · rw [if_pos hsep, if_pos (by simpa using hsep)]
      · rw [if_neg hsep, if_neg (by simpa using hsep)]
        rfl
    · simp only [ok_bind, stricterRound, plainMember, stricter, hplain, if_false, Bool.false_and,
        Bool.false_eq_true]
      rfl

/-- **An inner list is read alike**, as long as its items are plain and separated. -/
theorem innerList_eq (s : List Char) :
    Rfc8941.innerList s =
      stricter (plainInnerList s) SfvInnerList.denote (Parser.parseInnerList s) := by
  rw [Rfc8941.innerList, Parser.parseInnerList]
  by_cases hopen : s.head? = some '('
  · have hloop : run () Rfc8941.innerListRound [] s.tail =
        stricter (everyRound plainMember Parser.innerListStep (s.tail.length + 1) [] s.tail)
          (List.map SfvItem.denote) (run Parser.stuck Parser.innerListStep [] s.tail) :=
      loop_stricter innerListRound_eq (s.tail.length + 1) [] s.tail
    rw [if_pos hopen, if_pos hopen, hloop, plainInnerList]
    exact stricter_withParameters SfvInnerList.mk Rfc8941.InnerList.mk (fun _ _ => rfl) _ _
  · rw [if_neg hopen, if_neg hopen]
    rfl

/-! ## Whole texts -/

section Whole

variable {α β : Type} {what : String} {read : Parser.Read α} {plain : List Char → Bool}
  {reference : Rfc8941.Parsing β} {denote : α → β}

/-- On this text the parser accepts exactly what the reference algorithm accepts, and returns the
same value. -/
def Conforms (parse : List Char → Except HttpSigError α) (reference : Rfc8941.Parsing β)
    (denote : α → β) (s : List Char) : Prop :=
  (parse s).toOption.map denote = (Rfc8941.parse reference s).toOption

/-- The condition for it: the text does not begin with a space in front of something readable, and
the parser, if it accepts the text, passes over nothing. -/
def ReadsAlike (parse : List Char → Except HttpSigError α) (plain : List Char → Bool)
    (s : List Char) : Prop :=
  if s.head? = some ' ' then
    ¬ ((parse (Parser.skipSp s)).isOk = true ∧ plain (Parser.skipSp s) = true)
  else (parse s).isOk = true → plain s = true

theorem byteLen_skipSp_le (s : List Char) : byteLen (Parser.skipSp s) ≤ byteLen s := by
  obtain ⟨front, hs, -⟩ := skips_skipSp s
  have hlen := congrArg byteLen hs
  rw [byteLen_append] at hlen
  omega

variable {s : List Char}

/-- What the parser accepts is ASCII throughout. -/
theorem ascii_of_skips {rest : List Char} (h : Skips (Parser.skipSp s) rest)
    (hrest : Parser.skipSp rest = []) : (s.all fun c => decide (c.toNat < 128)) = true := by
  obtain ⟨front, hs, hascii⟩ := ((skips_skipSp s).trans h).trans (hrest ▸ skips_skipSp rest)
  rw [hs, List.append_nil]
  exact List.all_eq_true.2 fun c hc => decide_eq_true (hascii c hc)

variable (what) in
/-- The reference algorithm accepts what the parser accepts behind the leading spaces, unless the
parser passes over something. -/
theorem rfcParse_eq (heq : ∀ s, reference s = stricter (plain s) denote (read s))
    (hread : ∀ s a rest, read s = .ok (a, rest) → Skips s rest)
    (hlen : byteLen s ≤ maxSfvInputLen) :
    (Rfc8941.parse reference s).toOption =
      if plain (Parser.skipSp s) = true then
        (parseWhole what read (Parser.skipSp s)).toOption.map denote
      else none := by
  have hlen' : ¬ maxSfvInputLen < byteLen (Parser.skipSp s) :=
    Nat.not_lt.2 ((byteLen_skipSp_le s).trans hlen)
  have hdiscard : Rfc8941.discardSp = Parser.skipSp := rfl
  rw [Rfc8941.parse, hdiscard, heq]
  simp only [parseWhole, hlen', if_false]
  cases hout : read (Parser.skipSp s) with
  | error e => split <;> split <;> rfl
  | ok out =>
    obtain ⟨a, rest⟩ := out
    by_cases hgood : plain (Parser.skipSp s) = true
    · simp only [stricter, hgood, if_true, ok_bind]
      by_cases hrest : Parser.skipSp rest = []
      · have hascii := ascii_of_skips (hread _ _ _ hout) hrest
        rw [if_pos hascii, if_pos hrest, if_pos hrest]
        rfl
      · rw [if_neg hrest, if_neg hrest, ite_self]
        rfl
    · rw [if_neg hgood]
      simp only [stricter, hgood, if_false, Bool.false_eq_true]
      split <;> rfl

/-- **The parser agrees with the reference algorithm on exactly these texts.** -/
theorem conforms_iff (heq : ∀ s, reference s = stricter (plain s) denote (read s))
    (hread : ∀ s a rest, read s = .ok (a, rest) → Skips s rest)
    (hspace : ∀ s, s.head? = some ' ' → (read s).isOk = false) (hlen : byteLen s ≤ maxSfvInputLen) :
    Conforms (parseWhole what read) reference denote s ↔
      ReadsAlike (parseWhole what read) plain s := by
  rw [Conforms, ReadsAlike, rfcParse_eq what heq hread hlen]
  by_cases hsp : s.head? = some ' '
  · -- the parser reads nothing at a space
    have hnone : (parseWhole what read s).toOption = none := by
      simp only [parseWhole, Nat.not_lt.2 hlen, if_false]
      cases hout : read s with
      | error e => rfl
      | ok out =>
        have hfalse := hspace s hsp
        rw [hout] at hfalse
        exact absurd hfalse (by simp [Except.isOk, Except.toBool])
    rw [if_pos hsp, hnone]
    cases parseWhole what read (Parser.skipSp s) <;>
      simp [Except.toOption, Except.isOk, Except.toBool]
  · have hskip : Parser.skipSp s = s := by
      refine Stops.dropWhile_eq fun c hc => ?_
      rw [beq_eq_false_iff_ne]
      rintro rfl
      exact hsp hc
    rw [if_neg hsp, hskip]
    cases parseWhole what read s <;> simp [Except.toOption, Except.isOk, Except.toBool]

end Whole

/-- **How far the parser conforms to RFC 8941.**  An item, and an inner list, is accepted as the
reference algorithm accepts it and with the same value, exactly on the texts that are
`ReadsAlike`. -/
theorem conforms_iff_readsAlike {s : List Char} (hlen : byteLen s ≤ maxSfvInputLen) :
    (Conforms parseItem Rfc8941.item SfvItem.denote s ↔ ReadsAlike parseItem plainItem s) ∧
    (Conforms parseInnerList Rfc8941.innerList SfvInnerList.denote s ↔
      ReadsAlike parseInnerList plainInnerList s) := by
  refine ⟨conforms_iff item_eq (fun s a rest h => (parseItem_ok h).2.skips) ?_ hlen,
    conforms_iff innerList_eq (fun s a rest h => (parseInnerList_ok h).2.skips) ?_ hlen⟩
  · intro s hs
    obtain ⟨t, rfl⟩ := List.head?_eq_some_iff.mp hs
    rfl
  · intro s hs
    rw [Parser.parseInnerList, if_neg (by rw [hs]; decide)]
    rfl

theorem conforms_two_items : byteLen "(\"a\" 12)".toList ≤ maxSfvInputLen ∧
    Conforms parseInnerList Rfc8941.innerList SfvInnerList.denote "(\"a\" 12)".toList :=
  ⟨by decide, (conforms_iff_readsAlike (by decide)).2.2 (by unfold ReadsAlike; decide)⟩

/-- Two items without a space between them, an integer of sixteen digits, and a leading space. -/
theorem parser_deviates :
    ¬ Conforms parseInnerList Rfc8941.innerList SfvInnerList.denote "(\"a\"\"b\")".toList ∧
    ¬ Conforms parseItem Rfc8941.item SfvItem.denote "0000000000000001".toList ∧
    ¬ Conforms parseItem Rfc8941.item SfvItem.denote " 1".toList := by
  unfold Conforms
  decide +kernel

end Vouch.HttpSig
