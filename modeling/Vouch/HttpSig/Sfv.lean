import Vouch.Lib.Result
import Vouch.Lib.Base64
import Vouch.Lib.Cursor

/-!
# Structured field values

The values, the parser and the serializer of `vouch-httpsig`'s `sfv` module (RFC 8941).

* `SfvBareItem`, `SfvParams`, `SfvItem`, `SfvInnerList`, `SfvDictMember`, `SfvList`,
  `SfvDictionary` — the values.  Parameters have pairwise different keys, and `SfvParams` carries
  the proof: `insert` overwrites in place.
* `Parser.parse…` — the cursor parser.  What is left to read is the state; peeking is its head and
  advancing is its tail.  The three loops are `Cursor.run`.
* `parseDictionary`, `parseList`, `parseInnerList`, `parseItem` — the entry points, with the limit
  of 8192 bytes and the check that nothing but spaces is left.
* `serialize…` — the writers.

A text is the list of its characters.  The source walks over bytes; a byte above `0x7f` belongs to a
character that no branch accepts, so nothing is lost by reading whole characters, and where such a
byte is quoted in a message it is the first byte of the character.  A decimal is an exact number of
thousandths with a sign, as a 64-bit float holds every decimal of the grammar exactly enough to
print it back.
-/

namespace Vouch.HttpSig

open Cursor Result

/-! ## Errors -/

/-- `HttpSigError`. -/
inductive HttpSigError where
  | missingComponent (text : String)
  | invalidComponent (text : String)
  | baseConstruction (text : String)
  | signingFailed (text : String)
  | verificationFailed (text : String)
  | invalidSignature (text : String)
  | missingHeader (text : String)
  | sfvParse (text : String)
  | unsupportedAlgorithm (text : String)
  | expired (text : String)
  | digestMismatch (text : String)
  | missingDigest
deriving DecidableEq, Repr

/-- How an error is displayed. -/
def HttpSigError.display : HttpSigError → String
  | .missingComponent text => s!"missing component: {text}"
  | .invalidComponent text => s!"invalid component: {text}"
  | .baseConstruction text => s!"signature base construction failed: {text}"
  | .signingFailed text => s!"signing failed: {text}"
  | .verificationFailed text => s!"verification failed: {text}"
  | .invalidSignature text => s!"invalid signature: {text}"
  | .missingHeader text => s!"missing header: {text}"
  | .sfvParse text => s!"SFV parse error: {text}"
  | .unsupportedAlgorithm text => s!"unsupported algorithm: {text}"
  | .expired text => s!"signature expired: {text}"
  | .digestMismatch text => s!"digest mismatch: {text}"
  | .missingDigest => "missing Content-Digest header"

/-! ## Values -/

/-- `SfvBareItem`. -/
inductive SfvBareItem where
  | integer (value : Int)
  | decimal (negative : Bool) (thousandths : Nat)
  | string (value : List Char)
  | token (value : List Char)
  | byteSequence (bytes : List UInt8)
  | boolean (value : Bool)
deriving DecidableEq, Repr

/-- `SfvParams`: parameters in the order in which they were inserted, no two under one key. -/
structure SfvParams where
  entries : List (List Char × Option SfvBareItem)
  nodup : (entries.map Prod.fst).Nodup
deriving DecidableEq

namespace SfvParams

@[ext] theorem ext {p q : SfvParams} (h : p.entries = q.entries) : p = q := by
  cases p
  cases q
  simpa using h

/-- No parameters. -/
def new : SfvParams := ⟨[], List.nodup_nil⟩

/-- The entries after an insertion: the value under an existing key is replaced where it stands. -/
def insertEntry (entries : List (List Char × Option SfvBareItem)) (key : List Char)
    (value : Option SfvBareItem) : List (List Char × Option SfvBareItem) :=
  if key ∈ entries.map Prod.fst then
    entries.map fun entry => if entry.1 = key then (key, value) else entry
  else entries ++ [(key, value)]

theorem insertEntry_keys (entries : List (List Char × Option SfvBareItem)) (key : List Char)
    (value : Option SfvBareItem) :
    (insertEntry entries key value).map Prod.fst =
      if key ∈ entries.map Prod.fst then entries.map Prod.fst
      else entries.map Prod.fst ++ [key] := by
  rw [insertEntry]
  split
  · rw [List.map_map]
    refine List.map_congr_left fun entry _ => ?_
    by_cases h : entry.1 = key
    · simp [h]
    · simp [h]
  · simp

theorem insertEntry_nodup {entries : List (List Char × Option SfvBareItem)} (key : List Char)
    (value : Option SfvBareItem) (h : (entries.map Prod.fst).Nodup) :
    ((insertEntry entries key value).map Prod.fst).Nodup := by
  rw [insertEntry_keys]
  split
  · exact h
  · rename_i hkey
    refine List.nodup_append.2 ⟨h, by simp, ?_⟩
    intro a ha b hb hab
    rw [List.mem_singleton] at hb
    rw [hab, hb] at ha
    exact hkey ha

/-- `SfvParams::insert`. -/
def insert (params : SfvParams) (key : List Char) (value : Option SfvBareItem) : SfvParams :=
  ⟨insertEntry params.entries key value, insertEntry_nodup key value params.nodup⟩

/-- `SfvParams::get`. -/
def get (params : SfvParams) (key : List Char) : Option (Option SfvBareItem) :=
  (params.entries.find? fun entry => entry.1 = key).map Prod.snd

theorem mem_insert {params : SfvParams} {key : List Char} {value : Option SfvBareItem}
    {entry : List Char × Option SfvBareItem} (h : entry ∈ (params.insert key value).entries) :
    entry ∈ params.entries ∨ entry = (key, value) := by
  simp only [insert, insertEntry] at h
  split at h
  · obtain ⟨old, hold, rfl⟩ := List.mem_map.1 h
    split
    · exact .inr rfl
    · exact .inl hold
  · exact (List.mem_append.1 h).imp_right List.mem_singleton.1

end SfvParams

/-- Looking up where a key was overwritten in place, or appended. -/
theorem find?_overwrite {α : Type} (entries : List (List Char × α)) (key other : List Char)
    (value : α) :
    ((if key ∈ entries.map Prod.fst then
        entries.map fun entry => if entry.1 = key then (key, value) else entry
      else entries ++ [(key, value)]).find? fun entry => entry.1 = other).map Prod.snd =
      if key = other then some value
      else (entries.find? fun entry => entry.1 = other).map Prod.snd := by
  have hkeys : ∀ entry : List Char × α,
      (if entry.1 = key then (key, value) else entry).1 = entry.1 := by
    intro entry
    split
    · exact Eq.symm ‹_›
    · rfl
  have hmissing : entries.find? (fun entry => entry.1 = other) = none ↔
      other ∉ entries.map Prod.fst := by
    grind
  split
  · rename_i hmem
    simp only [List.find?_map, Function.comp_def, hkeys]
    cases hfind : entries.find? (fun entry => entry.1 = other) with
    | none =>
      have hne : key ≠ other := fun h => hmissing.1 hfind (h ▸ hmem)
      rw [if_neg hne]
      rfl
    | some entry =>
      have hentry : entry.1 = other := by simpa using List.find?_some hfind
      by_cases hkey : key = other
      · simp [hentry, hkey]
      · simp [hentry, hkey, Ne.symm hkey]
  · rename_i hmem
    rw [List.find?_append]
    by_cases hkey : key = other
    · simp [hmissing.2 (hkey ▸ hmem), hkey]
    · simp [hkey]

theorem SfvParams.get_insert (params : SfvParams) (key other : List Char)
    (value : Option SfvBareItem) :
    (params.insert key value).get other = if key = other then some value else params.get other :=
  find?_overwrite params.entries key other value

/-- `SfvItem`. -/
structure SfvItem where
  value : SfvBareItem
  params : SfvParams
deriving DecidableEq

/-- `SfvInnerList`. -/
structure SfvInnerList where
  items : List SfvItem
  params : SfvParams
deriving DecidableEq

/-- `SfvDictMember`: an item or an inner list. -/
inductive SfvDictMember where
  | item (item : SfvItem)
  | innerList (list : SfvInnerList)
deriving DecidableEq

/-- `SfvList`. -/
structure SfvList where
  members : List SfvDictMember
deriving DecidableEq

/-- `SfvDictionary`: the entries in the order in which they were read, repeated keys included. -/
structure SfvDictionary where
  entries : List (List Char × SfvDictMember)
deriving DecidableEq

/-- `SfvDictionary::get`. -/
def SfvDictionary.get (dict : SfvDictionary) (key : List Char) : Option SfvDictMember :=
  (dict.entries.find? fun entry => entry.1 = key).map Prod.snd

/-! ## Parser -/

/-- `SFV_INTEGER_MAX`; `SFV_INTEGER_MIN` is its negative. -/
def sfvIntegerMax : Nat := 999999999999999

/-- The length of a text in bytes. -/
def byteLen : List Char → Nat
  | [] => 0
  | c :: s => c.utf8Size + byteLen s

theorem byteLen_append : ∀ s t : List Char, byteLen (s ++ t) = byteLen s + byteLen t
  | [], t => (Nat.zero_add _).symm
  | c :: s, t => by rw [List.cons_append, byteLen, byteLen, byteLen_append s t, Nat.add_assoc]

/-- The first byte of a character. -/
def firstByte (c : Char) : UInt8 := (String.utf8EncodeChar c).headD 0

/-- Two hexadecimal digits, as `{:02x}` writes a byte. -/
def hexByte (b : UInt8) : String :=
  String.ofList [Nat.digitChar (b.toNat / 16), Nat.digitChar (b.toNat % 16)]

/-- What a token begins with. -/
def isTokenStart (c : Char) : Bool := c.isAlpha || c == '*'

/-- `is_token_char`. -/
def isTokenChar (c : Char) : Bool :=
  c.isAlphanum || c == '!' || c == '#' || c == '$' || c == '%' || c == '&' || c == '\'' ||
    c == '*' || c == '+' || c == '-' || c == '.' || c == '^' || c == '_' || c == Char.ofNat 96 ||
    c == '|' || c == '~' || c == ':' || c == '/'

/-- What a key begins with. -/
def isKeyStart (c : Char) : Bool := c.isLower || c == '*'

/-- What a key goes on with. -/
def isKeyChar (c : Char) : Bool :=
  c.isLower || c.isDigit || c == '_' || c == '-' || c == '.' || c == '*'

/-- What a string holds as it is. -/
def isStringChar (c : Char) : Bool := 0x20 ≤ c.toNat && c.toNat ≤ 0x7e

namespace Parser

/-- What the parser reads: a value off the front of the text. -/
abbrev Read (α : Type) := Reader HttpSigError α

/-- `Parser::skip_sp`. -/
def skipSp (s : List Char) : List Char := s.dropWhile (· == ' ')

/-- `Parser::skip_ows`. -/
def skipOws (s : List Char) : List Char := s.dropWhile fun c => c == ' ' || c == '\t'

/-- One character of one class and all that follow it of another: the shape of keys and tokens. -/
def parseWord (start cont : Char → Bool) (message : String) : Read (List Char)
  | [] => .error (.sfvParse message)
  | c :: s =>
    if start c then .ok (c :: s.takeWhile cont, s.dropWhile cont) else .error (.sfvParse message)

/-- `Parser::parse_key`. -/
def parseKey : Read (List Char) := parseWord isKeyStart isKeyChar "expected key start"

/-- `Parser::parse_token`. -/
def parseToken (s : List Char) : Except HttpSigError (SfvBareItem × List Char) := do
  let (text, s) ← parseWord isTokenStart isTokenChar "expected token start" s
  .ok (.token text, s)

/-- The loop of `Parser::parse_string`, behind the opening quote. -/
def parseStringBody : Read (List Char)
  | [] => .error (.sfvParse "unterminated string")
  | '"' :: s => .ok ([], s)
  | '\\' :: '"' :: s => do
    let (text, s) ← parseStringBody s
    .ok ('"' :: text, s)
  | '\\' :: '\\' :: s => do
    let (text, s) ← parseStringBody s
    .ok ('\\' :: text, s)
  | '\\' :: _ => .error (.sfvParse "invalid escape in string")
  | c :: s =>
    if isStringChar c then do
      let (text, s) ← parseStringBody s
      .ok (c :: text, s)
    else
      let byte := hexByte (firstByte c)
      .error (.sfvParse s!"invalid character in string: 0x{byte}")

/-- `Parser::parse_string`. -/
def parseString : Read SfvBareItem
  | '"' :: s => do
    let (text, s) ← parseStringBody s
    .ok (.string text, s)
  | _ => .error (.sfvParse "expected '\"' for string")

/-- `Parser::parse_byte_sequence`.  The source adds the text of the `base64` crate to a decode
error. -/
def parseByteSequence : Read SfvBareItem
  | ':' :: s =>
    match s.dropWhile (· != ':') with
    | [] => .error (.sfvParse "unterminated byte sequence")
    | _ :: rest =>
      match Base64.decode (s.takeWhile (· != ':')) with
      | some bytes => .ok (.byteSequence bytes, rest)
      | none => .error (.sfvParse "base64 decode error")
  | _ => .error (.sfvParse "expected ':' for byte sequence")

/-- `Parser::parse_boolean`. -/
def parseBoolean : Read SfvBareItem
  | '?' :: '0' :: s => .ok (.boolean false, s)
  | '?' :: '1' :: s => .ok (.boolean true, s)
  | '?' :: _ => .error (.sfvParse "expected '0' or '1' after '?'")
  | _ => .error (.sfvParse "expected '?' for boolean")

/-- The number that digits stand for. -/
def number (digits : List Char) : Nat := Nat.ofDigitChars 10 digits 0

/-- `Parser::parse_decimal_remainder`: `digits` is the integer part, and `s` begins at the point. -/
def parseDecimalRemainder (negative : Bool) (digits s : List Char) :
    Except HttpSigError (SfvBareItem × List Char) :=
  let fraction := s.tail.takeWhile Char.isDigit
  let rest := s.tail.dropWhile Char.isDigit
  let fracLen := fraction.length
  if fracLen = 0 ∨ 3 < fracLen then
    .error (.sfvParse s!"decimal fractional part must be 1-3 digits, got {fracLen}")
  else
    let digitLen := digits.length
    if 12 < digitLen then
      .error (.sfvParse s!"decimal integer part must be at most 12 digits, got {digitLen}")
    else
      .ok (.decimal negative (number digits * 1000 + number fraction * 10 ^ (3 - fracLen)), rest)

/-- `i64::MIN`. -/
def i64Min : Int := -9223372036854775808

/-- `i64::MAX`. -/
def i64Max : Int := 9223372036854775807

/-- `Parser::parse_integer_or_decimal`, behind the sign. -/
def parseUnsigned (negative : Bool) (s : List Char) :
    Except HttpSigError (SfvBareItem × List Char) :=
  let digits := s.takeWhile Char.isDigit
  let rest := s.dropWhile Char.isDigit
  if digits = [] then .error (.sfvParse "expected digit in number")
  else if rest.head? = some '.' then parseDecimalRemainder negative digits rest
  else
    let val : Int := if negative then -(number digits : Int) else number digits
    if val < i64Min ∨ i64Max < val then
      let size := if val < i64Min then "small" else "large"
      .error (.sfvParse s!"integer parse error: number too {size} to fit in target type")
    else if val < -(sfvIntegerMax : Int) ∨ sfvIntegerMax < val then
      .error (.sfvParse s!"integer {val} out of range (±{sfvIntegerMax})")
    else .ok (.integer val, rest)

/-- `Parser::parse_integer_or_decimal`. -/
def parseIntegerOrDecimal : Read SfvBareItem
  | '-' :: s => parseUnsigned true s
  | s => parseUnsigned false s

/-- `Parser::parse_bare_item`. -/
def parseBareItem (s : List Char) : Except HttpSigError (SfvBareItem × List Char) :=
  match s.head? with
  | none => .error (.sfvParse "unexpected end of input")
  | some c =>
    if c = '"' then parseString s
    else if c = ':' then parseByteSequence s
    else if c = '?' then parseBoolean s
    else if c == '-' || c.isDigit then parseIntegerOrDecimal s
    else if isTokenStart c then parseToken s
    else
      let shown := Char.ofNat (firstByte c).toNat
      .error (.sfvParse s!"unexpected character: '{shown}'")

/-- What the loops report when their bound does not suffice, which `parser_loops_end` shows never to
be the case. -/
def stuck : HttpSigError := .sfvParse "out of rounds"

/-- What stands behind the key of a parameter. -/
def parseParameterValue (s : List Char) :
    Except HttpSigError (Option SfvBareItem × List Char) :=
  if s.head? = some '=' then do
    let (value, s) ← parseBareItem s.tail
    .ok (some value, s)
  else .ok (none, s)

/-- One round of the loop of `Parser::parse_parameters`. -/
def parametersStep (params : SfvParams) (s : List Char) :
    Except HttpSigError (Next SfvParams × List Char) :=
  if s.head? = some ';' then do
    let (key, s) ← parseKey (skipSp s.tail)
    let (value, s) ← parseParameterValue s
    .ok (.more (params.insert key value), s)
  else .ok (.done params, s)

/-- `Parser::parse_parameters`. -/
def parseParameters : Read SfvParams := run stuck parametersStep SfvParams.new

/-- `Parser::parse_item`. -/
def parseItem (s : List Char) : Except HttpSigError (SfvItem × List Char) := do
  let (value, s) ← parseBareItem s
  let (params, s) ← parseParameters s
  .ok (⟨value, params⟩, s)

/-- One round of the loop of `Parser::parse_inner_list`. -/
def innerListStep (items : List SfvItem) (s : List Char) :
    Except HttpSigError (Next (List SfvItem) × List Char) :=
  let s := skipSp s
  if s.head? = some ')' then .ok (.done items, s.tail)
  else if s = [] then .error (.sfvParse "unterminated inner list")
  else do
    let (item, s) ← parseItem s
    .ok (.more (items ++ [item]), s)

/-- `Parser::parse_inner_list`. -/
def parseInnerList (s : List Char) : Except HttpSigError (SfvInnerList × List Char) :=
  if s.head? = some '(' then do
    let (items, s) ← run stuck innerListStep [] s.tail
    let (params, s) ← parseParameters s
    .ok (⟨items, params⟩, s)
  else .error (.sfvParse "expected '(' for inner list")

/-- `Parser::parse_member_value`. -/
def parseMemberValue (s : List Char) : Except HttpSigError (SfvDictMember × List Char) :=
  if s.head? = some '(' then do
    let (list, s) ← parseInnerList s
    .ok (.innerList list, s)
  else do
    let (item, s) ← parseItem s
    .ok (.item item, s)

/-- `Parser::parse_list_member`, which is `parse_member_value` once more. -/
def parseListMember : Read SfvDictMember := parseMemberValue

/-- `Parser::parse_dict_member`. -/
def parseDictMember (s : List Char) :
    Except HttpSigError ((List Char × SfvDictMember) × List Char) := do
  let (key, s) ← parseKey s
  if s.head? = some '=' then
    let (member, s) ← parseMemberValue s.tail
    .ok ((key, member), s)
  else
    let (params, s) ← parseParameters s
    .ok ((key, .item ⟨.boolean true, params⟩), s)

/-- One round of the loops of `Parser::parse_dictionary` and `Parser::parse_list`: a comma and a
member, or the end. -/
def membersStep {α : Type} (what : String) (member : Read α) (members : List α) (s : List Char) :
    Except HttpSigError (Next (List α) × List Char) :=
  let s := skipOws s
  if s.head? = some ',' then
    let s := skipOws s.tail
    if s = [] then .error (.sfvParse s!"trailing comma in {what}")
    else do
      let (next, s) ← member s
      .ok (.more (members ++ [next]), s)
  else .ok (.done members, s)

/-- The shape of `Parser::parse_dictionary` and `Parser::parse_list`. -/
def parseMembers {α : Type} (what : String) (member : Read α) : Read (List α) := fun s =>
  let s := skipSp s
  if s = [] then .ok ([], s)
  else do
    let (first, s) ← member s
    run stuck (membersStep what member) [first] s

/-- `Parser::parse_dictionary`. -/
def parseDictionary (s : List Char) : Except HttpSigError (SfvDictionary × List Char) := do
  let (entries, s) ← parseMembers "dictionary" parseDictMember s
  .ok (⟨entries⟩, s)

/-- `Parser::parse_list`. -/
def parseList (s : List Char) : Except HttpSigError (SfvList × List Char) := do
  let (members, s) ← parseMembers "list" parseListMember s
  .ok (⟨members⟩, s)

end Parser

/-- `MAX_SFV_INPUT_LEN`. -/
def maxSfvInputLen : Nat := 8192

/-- The shape of the entry points: the limit, the value, and nothing but spaces behind it. -/
def parseWhole {α : Type} (what : String) (read : Parser.Read α) (input : List Char) :
    Except HttpSigError α :=
  let len := byteLen input
  if maxSfvInputLen < len then
    .error (.sfvParse s!"input too large: {len} bytes (max {maxSfvInputLen})")
  else do
    let (value, rest) ← read input
    let rest := Parser.skipSp rest
    if rest = [] then .ok value
    else
      let pos := len - byteLen rest
      .error (.sfvParse s!"trailing data after {what} at position {pos}")

/-- `parse_dictionary`. -/
def parseDictionary : List Char → Except HttpSigError SfvDictionary :=
  parseWhole "dictionary" Parser.parseDictionary

/-- `parse_list`. -/
def parseList : List Char → Except HttpSigError SfvList := parseWhole "list" Parser.parseList

/-- `parse_inner_list`. -/
def parseInnerList : List Char → Except HttpSigError SfvInnerList :=
  parseWhole "inner list" Parser.parseInnerList

/-- `parse_item`. -/
def parseItem : List Char → Except HttpSigError SfvItem := parseWhole "item" Parser.parseItem

/-! ## Serializer -/

/-- A number with its sign. -/
def signed (negative : Bool) (text : List Char) : List Char :=
  if negative then '-' :: text else text

/-- `str::trim_end_matches` with a single character. -/
def trimEndMatches (c : Char) (s : List Char) : List Char := (s.reverse.dropWhile (· == c)).reverse

/-- `{:.3}` of a decimal. -/
def threeDigits (thousandths : Nat) : List Char :=
  Nat.toDigits 10 (thousandths / 1000) ++ '.' ::
    [Nat.digitChar (thousandths / 100 % 10), Nat.digitChar (thousandths / 10 % 10),
      Nat.digitChar (thousandths % 10)]

/-- A decimal with at least one and at most three digits behind the point. -/
def serializeDecimal (negative : Bool) (thousandths : Nat) : List Char :=
  let s := trimEndMatches '0' (signed negative (threeDigits thousandths))
  if s.getLast? = some '.' then s ++ ['0'] else s

/-- A character inside a string. -/
def escapeChar (c : Char) : List Char := if c = '"' ∨ c = '\\' then ['\\', c] else [c]

/-- `serialize_bare_item`. -/
def serializeBareItem : SfvBareItem → List Char
  | .integer v => signed (decide (v < 0)) (Nat.toDigits 10 v.natAbs)
  | .decimal negative thousandths => serializeDecimal negative thousandths
  | .string s => '"' :: (s.flatMap escapeChar ++ ['"'])
  | .token t => t
  | .byteSequence bytes => ':' :: (Base64.encode bytes ++ [':'])
  | .boolean b => ['?', if b then '1' else '0']

/-- One parameter. -/
def serializeParam (entry : List Char × Option SfvBareItem) : List Char :=
  ';' :: (entry.1 ++ entry.2.elim [] fun value => '=' :: serializeBareItem value)

/-- `serialize_params`. -/
def serializeParams (params : SfvParams) : List Char := params.entries.flatMap serializeParam

/-- `serialize_item`. -/
def serializeItem (item : SfvItem) : List Char :=
  serializeBareItem item.value ++ serializeParams item.params

/-- `serialize_inner_list`, which is `serialize_inner_list_to_string` onto an empty text. -/
def serializeInnerListToString (list : SfvInnerList) : List Char :=
  '(' :: (separated [' '] (list.items.map serializeItem) ++ ')' :: serializeParams list.params)

/-- A member of a list. -/
def serializeMember : SfvDictMember → List Char
  | .item item => serializeItem item
  | .innerList list => serializeInnerListToString list

/-- A member of a dictionary; `=?1` is left out. -/
def serializeEntry (entry : List Char × SfvDictMember) : List Char :=
  entry.1 ++
    match entry.2 with
    | .item item =>
      (if item.value = .boolean true then [] else '=' :: serializeBareItem item.value) ++
        serializeParams item.params
    | .innerList list => '=' :: serializeInnerListToString list

/-- `serialize_dictionary`. -/
def serializeDictionary (dict : SfvDictionary) : List Char :=
  separated [',', ' '] (dict.entries.map serializeEntry)

/-- `serialize_list`. -/
def serializeList (list : SfvList) : List Char :=
  separated [',', ' '] (list.members.map serializeMember)

end Vouch.HttpSig
