import Vouch.Email

/-!
# Organisation domains

A domain that organisations own (`db/organizations/validation.rs`): trimmed, in lower case, made of
DNS labels, not an address literal and not below a reserved top-level label.

* `parseIpAddr` — whether a text is an IPv4 or IPv6 address, following the reader of the standard
  library: four decimal numbers; or up to eight groups of hexadecimal digits with one gap `::`, the
  last two groups possibly written as an IPv4 address.
* `Domain.parse` — the shape rules, in the order in which they are checked.  `Domain` carries the
  proof that its text passed them.
-/

namespace Vouch

/-- `str::trim`, on strings. -/
def trimmed (s : String) : String := String.ofList (trim s.toList)

/-! ## Address literals

The readers take what they can off the front of a text and return what is left. -/

namespace IpAddr

/-- The value of a digit. -/
def digit (radix : Nat) (c : Char) : Option Nat :=
  let value :=
    if '0' ≤ c ∧ c ≤ '9' then some (c.toNat - '0'.toNat)
    else if 'a' ≤ c ∧ c ≤ 'f' then some (c.toNat - 'a'.toNat + 10)
    else if 'A' ≤ c ∧ c ≤ 'F' then some (c.toNat - 'A'.toNat + 10)
    else none
  value.filter (· < radix)

/-- A number of at most `maxDigits` digits and at most `bound`. -/
def readNumber (radix maxDigits bound : Nat) (allowZeroPrefix : Bool) (s : List Char) :
    Option (Nat × List Char) :=
  let digits := s.takeWhile fun c => (digit radix c).isSome
  let value := digits.foldl (fun n c => n * radix + (digit radix c).getD 0) 0
  if digits.length = 0 ∨ maxDigits < digits.length ∨ bound < value then none
  else if ¬ allowZeroPrefix ∧ s.head? = some '0' ∧ 1 < digits.length then none
  else some (value, s.drop digits.length)

/-- What follows the separator before a component; the first component has none. -/
def readSeparator (sep : Char) (index : Nat) (s : List Char) : Option (List Char) :=
  if index = 0 then some s
  else
    match s with
    | c :: rest => if c = sep then some rest else none
    | [] => none

/-- An IPv4 address: `n` more numbers, the next of them the `index`-th. -/
def readIpv4From (index : Nat) : Nat → List Char → Option (List Char)
  | 0, s => some s
  | n + 1, s => do
    let s ← readSeparator '.' index s
    let (_, s) ← readNumber 10 3 255 false s
    readIpv4From (index + 1) n s

/-- Four numbers with dots between them. -/
def readIpv4Addr (s : List Char) : Option (List Char) := readIpv4From 0 4 s

/-- Groups of an IPv6 address, at most `limit`: how many were read, and whether an IPv4 address
ended them. -/
def readGroups (limit index : Nat) : Nat → List Char → Nat × Bool × List Char
  | 0, s => (index, false, s)
  | n + 1, s =>
    let ipv4 := if index + 1 < limit then (readSeparator ':' index s).bind readIpv4Addr else none
    match ipv4 with
    | some rest => (index + 2, true, rest)
    | none =>
      match (readSeparator ':' index s).bind (readNumber 16 4 65535 true) with
      | some (_, rest) => readGroups limit (index + 1) n rest
      | none => (index, false, s)

/-- Eight groups, or fewer around one `::`. -/
def readIpv6Addr (s : List Char) : Option (List Char) :=
  match readGroups 8 0 8 s with
  | (size, endsInIpv4, rest) =>
    if size = 8 then some rest
    else if endsInIpv4 then none
    else
      match rest with
      | ':' :: ':' :: rest => some (readGroups (8 - (size + 1)) 0 (8 - (size + 1)) rest).2.2
      | _ => none

end IpAddr

/-- Whether a text is an IP address. -/
def parseIpAddr (s : List Char) : Bool :=
  match (IpAddr.readIpv4Addr s).orElse fun _ => IpAddr.readIpv6Addr s with
  | some rest => rest.isEmpty
  | none => false

example : parseIpAddr "192.0.2.1".toList = true ∧ parseIpAddr "::ffff:192.0.2.1".toList = true ∧
    parseIpAddr "192.0.2.01".toList = false ∧ parseIpAddr "example.com".toList = false := by
  decide +kernel

/-! ## Domains -/

/-- Top-level labels that are never accepted. -/
def reservedTlds : List String :=
  ["localhost", "local", "example", "invalid", "test", "internal", "arpa", "onion", "alt"]

/-- Why a text is not a domain. -/
inductive DomainValidationError where
  | empty
  | notAscii
  | ipAddress
  | tooLong
  | noDot
  | leadingOrTrailingDot
  | emptyLabel
  | labelTooLong
  | labelHyphenEdge
  | labelInvalidChar
  | reservedTld (tld : String)
  deriving DecidableEq, Repr

/-- The rules for one label. -/
def checkLabel (label : List Char) : Except DomainValidationError Unit :=
  if label.isEmpty then throw .emptyLabel
  else if 63 < label.length then throw .labelTooLong
  else if label.head? = some '-' ∨ label.getLast? = some '-' then throw .labelHyphenEdge
  else if label.all fun c => c.isAlphanum || c = '-' then pure ()
  else throw .labelInvalidChar

/-- The rules, and the canonical text of a domain that passes them. -/
def canonicalDomain (input : String) : Except DomainValidationError String := do
  let text := trim input.toList
  if text.isEmpty then throw .empty
  unless text.all (·.toNat < 128) do throw .notAscii
  -- the brackets of an IPv6 literal are not part of the address
  let ipCandidate := (text.dropWhile (· = '[')).rdropWhile (· = ']')
  if parseIpAddr ipCandidate then throw .ipAddress
  let lower := asciiLowercase text
  if 253 < lower.length then throw .tooLong
  unless lower.contains '.' do throw .noDot
  if lower.head? = some '.' ∨ lower.getLast? = some '.' then throw .leadingOrTrailingDot
  (lower.splitOn '.').forM checkLabel
  let tld := String.ofList ((lower.splitOn '.').getLast?.getD [])
  if tld ∈ reservedTlds then throw (.reservedTld tld)
  pure (String.ofList lower)

/-- A domain in canonical form: the text of one that passed the rules. -/
structure Domain where
  text : String
  parsed : ∃ input, canonicalDomain input = .ok text

namespace Domain

instance : DecidableEq Domain := fun a b =>
  decidable_of_iff (a.text = b.text) ⟨fun h => by cases a; cases b; cases h; rfl, congrArg text⟩

/-- `Domain::parse`. -/
def parse (input : String) : Except DomainValidationError Domain :=
  match h : canonicalDomain input with
  | .ok text => .ok ⟨text, input, h⟩
  | .error e => .error e

end Domain

namespace Email

/-- The domain of a raw address, in lower case. -/
def domainOf (raw : String) : Option String :=
  match rsplitOnce '@' (trim raw.toList) with
  | none => none
  | some (_, d) =>
    let domain := asciiLowercase d
    if domain.contains '\x00' then none else some (String.ofList domain)

end Email

end Vouch
