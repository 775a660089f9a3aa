
/-!
# Addresses and networks

IP addresses, their textual form, and the networks they fall into.

* `IpAddr` — an IPv4 or an IPv6 address; `IpAddr.toCanonical` takes an IPv4-mapped IPv6 address for
  the IPv4 address it stands for.
* `IpAddr.parse` — the reader of the standard library: dotted decimal without leading zeros, or
  groups of hexadecimal digits with at most one `::` and possibly an IPv4 address at the end.  A
  reader hands back what it did not read, and a reader that fails has read nothing.
* `IpAddr.display` — the way it is printed.
* `IpNet.contains` — an address of the same family between the first and the last address of a
  network.
-/

namespace Net

/-- `std::net::IpAddr`. -/
inductive IpAddr
  | v4 (bits : BitVec 32)
  | v6 (bits : BitVec 128)
  deriving DecidableEq, Repr

/-- `IpAddr::to_canonical`: `::ffff:a.b.c.d` is `a.b.c.d`. -/
def IpAddr.toCanonical : IpAddr → IpAddr
  | .v4 bits => .v4 bits
  | .v6 bits => if bits >>> 32 = 0xffff#128 then .v4 (bits.setWidth 32) else .v6 bits

/-! ## Textual form -/

namespace IpAddr

/-- `char::to_digit`. -/
def toDigit (radix : Nat) (c : Char) : Option Nat :=
  let digit :=
    if c.isDigit then c.toNat - 48
    else if c.isLower then c.toNat - 87
    else if c.isUpper then c.toNat - 55
    else radix
  if digit < radix then some digit else none

/-- `Parser::read_number`: all digits that follow, of which there may not be more than `maxDigits`,
for a value below `bound`. -/
def readNumber (radix maxDigits bound : Nat) (allowZeroPrefix : Bool) (s : List Char) :
    Option (Nat × List Char) :=
  let digits := s.takeWhile fun c => (toDigit radix c).isSome
  let value := digits.foldl (fun n c => n * radix + (toDigit radix c).getD 0) 0
  if digits.isEmpty || maxDigits < digits.length then none
  else if !allowZeroPrefix && digits.head? == some '0' && 1 < digits.length then none
  else if value < bound then some (value, s.drop digits.length)
  else none

/-- `Parser::read_separator`: nothing stands before the first item. -/
def readSeparator {α : Type} (sep : Char) (index : Nat) (inner : List Char → Option (α × List Char))
    (s : List Char) : Option (α × List Char) :=
  if index = 0 then inner s
  else
    match s with
    | c :: rest => if c = sep then inner rest else none
    | [] => none

/-- One octet of an IPv4 address, the `index`-th. -/
def readOctet (index : Nat) : List Char → Option (Nat × List Char) :=
  readSeparator '.' index (readNumber 10 3 256 false)

/-- `Parser::read_ipv4_addr`, with the two 16-bit halves of the address. -/
def readIpv4 (s : List Char) : Option ((Nat × Nat) × List Char) := do
  let (one, s) ← readOctet 0 s
  let (two, s) ← readOctet 1 s
  let (three, s) ← readOctet 2 s
  let (four, s) ← readOctet 3 s
  pure ((one * 256 + two, three * 256 + four), s)

/-- `read_groups`: up to so many more groups, with those already read.  An IPv4 address takes the
place of the last two; the flag says that there was one. -/
def readGroups : Nat → List Nat → List Char → List Nat × Bool × List Char
  | 0, groups, s => (groups, false, s)
  | left + 1, groups, s =>
    match if left = 0 then none else readSeparator ':' groups.length readIpv4 s with
    | some ((high, low), s) => (groups ++ [high, low], true, s)
    | none =>
      match readSeparator ':' groups.length (readNumber 16 4 65536 true) s with
      | some (group, s) => readGroups left (groups ++ [group]) s
      | none => (groups, false, s)

/-- `Parser::read_ipv6_addr`. -/
def readIpv6 (s : List Char) : Option (List Nat × List Char) :=
  match readGroups 8 [] s with
  | (head, headIpv4, s) =>
    if head.length = 8 then some (head, s)
    else if headIpv4 then none
    else
      match s with
      | ':' :: ':' :: s =>
        -- `::` stands for at least one group.
        match readGroups (7 - head.length) [] s with
        | (tail, _, s) => some (head ++ List.replicate (8 - head.length - tail.length) 0 ++ tail, s)
      | _ => none

/-- `IpAddr::from_str`. -/
def parse (s : List Char) : Option IpAddr :=
  match readIpv4 s with
  | some ((high, low), rest) =>
    if rest.isEmpty then some (.v4 (BitVec.ofNat 32 (high * 65536 + low))) else none
  | none =>
    match readIpv6 s with
    | some (groups, rest) =>
      if rest.isEmpty then some (.v6 (BitVec.ofNat 128 (groups.foldl (fun n g => n * 65536 + g) 0)))
      else none
    | none => none

/-- The `index`-th group of an address, counted from the left, in groups of `width` bits. -/
def group {w : Nat} (bits : BitVec w) (width index : Nat) : Nat :=
  (bits.extractLsb' (w - width * (index + 1)) width).toNat

/-- Dotted decimal. -/
def displayV4 (bits : BitVec 32) : String :=
  ".".intercalate ((List.range 4).map fun i => toString (group bits 8 i))

/-- The longest run of zeros in a list, the first of several: where it begins and how long it is. -/
def longestZeros (groups : List Nat) : Nat × Nat :=
  let step := fun (found : (Nat × Nat) × (Nat × Nat)) (g : Nat × Nat) =>
    if g.1 = 0 then
      let current := if found.2.2 = 0 then (g.2, 1) else (found.2.1, found.2.2 + 1)
      (if found.1.2 < current.2 then current else found.1, current)
    else (found.1, (0, 0))
  (groups.zipIdx.foldl step ((0, 0), (0, 0))).1

/-- Groups in hexadecimal with colons between them. -/
def displayGroups (groups : List Nat) : String :=
  ":".intercalate (groups.map fun g => String.ofList (Nat.toDigits 16 g))

/-- `IpAddr::to_string`: an IPv4-mapped address ends in dotted decimal, and of any other IPv6
address the longest run of two zeros or more is left out. -/
def display : IpAddr → String
  | .v4 bits => displayV4 bits
  | .v6 bits =>
    if bits >>> 32 = 0xffff#128 then "::ffff:" ++ displayV4 (bits.setWidth 32)
    else
      let groups := (List.range 8).map (group bits 16)
      match longestZeros groups with
      | (start, len) =>
        if 1 < len then
          displayGroups (groups.take start) ++ "::" ++ displayGroups (groups.drop (start + len))
        else displayGroups groups

example : display (.v6 0x20010db8000000000000000000000001#128) = "2001:db8::1" := by decide +kernel

example : parse "203.0.113.1".toList = some (.v4 0xcb007101#32) := by decide +kernel

example : (parse "::ffff:10.0.0.5".toList).map toCanonical = some (.v4 0x0a000005#32) := by
  decide +kernel

example : parse "010.0.0.1".toList = none := by decide +kernel

end IpAddr

/-! ## Networks -/

/-- `ipnet::IpNet`: an address and the length of its network part. -/
inductive IpNet
  | v4 (addr : BitVec 32) (prefixLen : Nat) (valid : prefixLen ≤ 32)
  | v6 (addr : BitVec 128) (prefixLen : Nat) (valid : prefixLen ≤ 128)

/-- Between the first and the last address that begin as `addr` does. -/
def inNetwork {w : Nat} (addr : BitVec w) (prefixLen : Nat) (a : BitVec w) : Bool :=
  let netmask := BitVec.allOnes w <<< (w - prefixLen)
  (addr &&& netmask).ule a && a.ule (addr ||| ~~~netmask)

/-- `IpNet::contains`. -/
def IpNet.contains : IpNet → IpAddr → Bool
  | .v4 addr prefixLen _, .v4 a => inNetwork addr prefixLen a
  | .v6 addr prefixLen _, .v6 a => inNetwork addr prefixLen a
  | _, _ => false

end Net
