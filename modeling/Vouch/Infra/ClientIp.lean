import Vouch.HttpSig.Message
import Vouch.Lib.IpAddr

/-!
# The address of a client

Behind a reverse proxy the peer of a connection is the proxy, and the address of the client is what
the proxies report in `X-Forwarded-For` (`infra/rate_limit.rs`, `infra/mtls_listener.rs`).  Each
proxy appends the address it was called from, so the entries are to be believed from the right, as
long as they name proxies; what stands further to the left came with the request and may be
anything.

* `clientIpFromRequest` — the peer of the connection, or, for a peer that is a trusted proxy, the
  first entry from the right that is none.
* `combined` — the list all `X-Forwarded-For` lines make together, as RFC 9110 §5.3 reads them.
* `boundary` — the rightmost entry of that list that is not a trusted proxy, with all to its right:
  the part of the list the client did not write.
* `resolveClientIp_line` — on one line that can be read as text the code finds the address that
  `boundary` gives.
* `client_ip_unspoofable_iff` — but of several lines it reads the first, which is the client's own,
  and a line that cannot be read as text it ignores; so the address depends on the boundary alone
  exactly when there is at most one line and no byte outside ASCII, or the networks leave nothing to
  choose.
-/

namespace Vouch

open Net HttpSig

/-! ## The code -/

/-- The addresses the listeners leave with a request: that of the connection on the HTTPS and plain
ports, and that of the TLS session on the mTLS port. -/
structure Extensions where
  connectInfo : Option IpAddr
  peerClientCert : Option IpAddr

/-- The peer of a request, tagged by the listener that accepted it. -/
inductive ConnectionPeer
  | tcp (ip : IpAddr)
  | mtls (ip : IpAddr)
  deriving DecidableEq

/-- `connection_peer`. -/
def connectionPeer (extensions : Extensions) : Option ConnectionPeer :=
  match extensions.connectInfo with
  | some ip => some (.tcp ip.toCanonical)
  | none => extensions.peerClientCert.map fun ip => .mtls ip.toCanonical

/-- `is_trusted`. -/
def isTrusted (addr : IpAddr) (trustedCidrs : List IpNet) : Bool :=
  trustedCidrs.any fun cidr => cidr.contains addr

/-- The loop of `resolve_client_ip`, with the entries before `idx` still to be looked at. -/
def walkBack (trustedCidrs : List IpNet) (peer : IpAddr) (addrs : List (List Char)) : Nat → IpAddr
  | 0 => peer
  | idx + 1 =>
    match IpAddr.parse (addrs[idx]?.getD []) with
    | some addr =>
      let addr := addr.toCanonical
      if !isTrusted addr trustedCidrs then addr else walkBack trustedCidrs peer addrs idx
    | none => peer

/-- The header that proxies append to. -/
def xForwardedFor : List Char := "x-forwarded-for".toList

/-- `resolve_client_ip`. -/
def resolveClientIp (peerIp : Option IpAddr) (headers : HeaderMap) (trustedCidrs : List IpNet) :
    Option IpAddr :=
  if trustedCidrs.isEmpty then peerIp
  else
    match peerIp with
    | none => none
    | some peer =>
      if !isTrusted peer trustedCidrs then some peer
      else
        match (headers.get xForwardedFor).bind fun h => h.toStr.toOption with
        | some xff =>
          if (trim xff).isEmpty then some peer
          else
            let addrs := (xff.splitOn ',').map trim
            some (walkBack trustedCidrs peer addrs addrs.length)
        | none => some peer

/-- `client_ip_from_request`. -/
def clientIpFromRequest (extensions : Extensions) (headers : HeaderMap)
    (trustedCidrs : List IpNet) :
    Option IpAddr :=
  match connectionPeer extensions with
  | none => none
  | some (.tcp peer) => resolveClientIp (some peer) headers trustedCidrs
  | some (.mtls peer) => some peer

/-! ## The rightmost entry of a kind -/

section FromLast

variable {α : Type} {p : α → Bool}

/-- The last element that satisfies `p`, with what stands to its right. -/
def fromLast (p : α → Bool) : List α → Option (α × List α)
  | [] => none
  | a :: l =>
    match fromLast p l with
    | some found => some found
    | none => if p a then some (a, l) else none

variable {l : List α}

/-- What stands to the left of such an element does not matter. -/
theorem fromLast_append_of_some {found : α × List α} (h : fromLast p l = some found) :
    ∀ left, fromLast p (left ++ l) = some found
  | [] => h
  | a :: left => by
    rw [List.cons_append, fromLast, fromLast_append_of_some h left]

/-- An element that is added on the right is the last one, or goes with the last one. -/
theorem fromLast_append_singleton (l : List α) (a : α) :
    fromLast p (l ++ [a]) =
      if p a then some (a, []) else (fromLast p l).map fun found => (found.1, found.2 ++ [a]) := by
  induction l with
  | nil => simp [fromLast]
  | cons b l ih =>
    rw [List.cons_append, fromLast, ih]
    by_cases ha : p a = true
    · simp [ha]
    · rw [if_neg ha, if_neg ha, fromLast]
      cases fromLast p l with
      | some found => rfl
      | none =>
        by_cases hb : p b = true
        · simp [hb]
        · simp [hb]

theorem fromLast_map {β : Type} (f : β → α) (l : List β) :
    fromLast p (l.map f) =
      (fromLast (fun b => p (f b)) l).map fun found => (f found.1, found.2.map f) := by
  induction l with
  | nil => rfl
  | cons b l ih =>
    rw [List.map_cons, fromLast, fromLast, ih]
    cases fromLast (fun b => p (f b)) l with
    | some found => rfl
    | none =>
      by_cases hb : p (f b) = true
      · simp [hb]
      · simp [hb]

theorem fromLast_congr {q : α → Bool} (h : ∀ a ∈ l, p a = q a) : fromLast p l = fromLast q l := by
  induction l with
  | nil => rfl
  | cons a l ih =>
    rw [fromLast, fromLast, ih fun b hb => h b (List.mem_cons_of_mem a hb), h a List.mem_cons_self]

theorem mem_of_fromLast {found : α × List α} (h : fromLast p l = some found) :
    found.1 ∈ l ∧ p found.1 = true := by
  induction l with
  | nil => cases h
  | cons b l ih =>
    rw [fromLast] at h
    split at h
    · rename_i other hother
      cases h
      exact (ih hother).imp_left (List.mem_cons_of_mem b)
    · split at h
      · rename_i hb
        cases h
        exact ⟨List.mem_cons_self, hb⟩
      · cases h

end FromLast

/-! ## The combined list -/

/-- The lines of the header joined in order (RFC 9110 §5.3). -/
def combined (lines : List HeaderValue) : List UInt8 :=
  [44].intercalate (lines.map HeaderValue.bytes)

/-- The entries of a list that is separated by commas. -/
def entriesOf (value : List UInt8) : List (List UInt8) := (value.splitOn 44).map trimAsciiOws

/-- The entries of the combined list; without the header there are none. -/
def forwardedEntries (headers : HeaderMap) : List (List UInt8) :=
  let lines := headers.getAll xForwardedFor
  if lines.isEmpty then [] else entriesOf (combined lines)

/-- The text of some bytes, if they are all visible. -/
def textOf (bytes : List UInt8) : List Char := bytes.map fun b => Char.ofNat b.toNat

/-- The address an entry names. -/
def addressOf (entry : List UInt8) : Option IpAddr :=
  if entry.all isVisibleAscii then (IpAddr.parse (textOf entry)).map IpAddr.toCanonical else none

/-- An address that is none of a trusted proxy, or no address at all. -/
def isOutside (trustedCidrs : List IpNet) (addr : Option IpAddr) : Bool :=
  !(addr.any fun a => isTrusted a trustedCidrs)

/-- The rightmost entry of the combined list outside the trusted networks, with all to its right. -/
def boundary (trustedCidrs : List IpNet) (headers : HeaderMap) :
    Option (List UInt8 × List (List UInt8)) :=
  fromLast (fun entry => isOutside trustedCidrs (addressOf entry)) (forwardedEntries headers)

/-- The address a boundary gives: the one its entry names, and otherwise the peer. -/
def addressAt {α : Type} (address : α → Option IpAddr) (peer : IpAddr)
    (found : Option (α × List α)) :
    IpAddr :=
  (found.bind fun found => address found.1).getD peer

/-! ## What the code makes of one line -/

/-- The address a text names. -/
def addressOfText (text : List Char) : Option IpAddr := (IpAddr.parse text).map IpAddr.toCanonical

section Walk

variable {trustedCidrs : List IpNet} {peer : IpAddr}

/-- The loop finds the rightmost entry outside the trusted networks. -/
theorem walkBack_eq (addrs : List (List Char)) : ∀ idx ≤ addrs.length,
    walkBack trustedCidrs peer addrs idx =
      addressAt addressOfText peer
        (fromLast (fun text => isOutside trustedCidrs (addressOfText text)) (addrs.take idx))
  | 0, _ => by
    rw [walkBack, List.take_zero]
    rfl
  | idx + 1, h => by
    have htake : addrs.take (idx + 1) = addrs.take idx ++ [addrs[idx]] :=
      List.take_succ_eq_append_getElem h
    rw [walkBack, List.getElem?_eq_getElem h, Option.getD_some, htake, fromLast_append_singleton]
    cases hparse : IpAddr.parse addrs[idx] with
    | none => simp [isOutside, addressAt, addressOfText, hparse]
    | some addr =>
      have haddress : addressOfText addrs[idx] = some addr.toCanonical := by
        rw [addressOfText, hparse, Option.map_some]
      rw [haddress]
      cases htrusted : isTrusted addr.toCanonical trustedCidrs with
      | false => simp [isOutside, addressAt, haddress, htrusted]
      | true =>
        have houtside : isOutside trustedCidrs (some addr.toCanonical) = false := by
          simp [isOutside, htrusted]
        rw [houtside, if_neg Bool.false_ne_true, addressAt, Option.bind_map]
        simpa [htrusted, addressAt] using walkBack_eq addrs idx (Nat.le_of_succ_le h)

/-- A text that is split at a character is split at the byte that is that character. -/
theorem splitOn_textOf (bytes : List UInt8) :
    (textOf bytes).splitOn ',' = (bytes.splitOn 44).map textOf := by
  have hcomma : ∀ b : UInt8, (Char.ofNat b.toNat == ',') = (b == 44) :=
    forall_byte (by decide +kernel)
  rw [List.splitOn, List.splitOn]
  induction bytes with
  | nil => rfl
  | cons b bytes ih =>
    rw [textOf, List.map_cons, List.splitOnP_cons_eq_if_modifyHead,
      List.splitOnP_cons_eq_if_modifyHead, hcomma, ← textOf, ih]
    cases hb : b == 44 with
    | true => rfl
    | false =>
      cases List.splitOnP (fun x => x == 44) bytes with
      | nil => rfl
      | cons piece pieces => rfl

variable {bytes : List UInt8}

/-- The pieces of a list are parts of it without the separator. -/
theorem sublist_of_mem_splitOn {piece : List UInt8} (hpiece : piece ∈ bytes.splitOn 44) :
    piece.Sublist bytes ∧ 44 ∉ piece := by
  rw [List.splitOn] at hpiece
  induction bytes generalizing piece with
  | nil =>
    obtain rfl := List.mem_singleton.1 hpiece
    exact ⟨.refl [], List.not_mem_nil⟩
  | cons b bytes ih =>
    rw [List.splitOnP_cons_eq_if_modifyHead] at hpiece
    split at hpiece
    · rcases List.mem_cons.1 hpiece with rfl | hpiece
      · exact ⟨List.nil_sublist _, List.not_mem_nil⟩
      · exact (ih hpiece).imp_left (·.cons b)
    · rename_i hb
      cases hrest : List.splitOnP (fun x => x == 44) bytes with
      | nil => exact absurd hrest (List.splitOnP_ne_nil _ _)
      | cons first rest =>
        rw [hrest] at hpiece ih
        rcases List.mem_cons.1 hpiece with rfl | hpiece
        · obtain ⟨hsub, hfree⟩ := ih List.mem_cons_self
          refine ⟨hsub.cons_cons b, fun hmem => ?_⟩
          rcases List.mem_cons.1 hmem with rfl | hmem
          · exact hb rfl
          · exact hfree hmem
        · exact (ih (List.mem_cons_of_mem first hpiece)).imp_left (·.cons b)

/-- An entry of a list, taken alone, is a list of one entry. -/
theorem entriesOf_entry {entry : List UInt8} (hentry : entry ∈ entriesOf bytes) :
    entry.Sublist bytes ∧ entriesOf entry = [entry] := by
  obtain ⟨piece, hpiece, rfl⟩ := List.mem_map.1 hentry
  obtain ⟨hsub, hfree⟩ := sublist_of_mem_splitOn hpiece
  have htrim : (trimAsciiOws piece).Sublist piece :=
    (List.rdropWhile_prefix _ _).sublist.trans (List.dropWhile_sublist _)
  have hone : (trimAsciiOws piece).splitOn 44 = [trimAsciiOws piece] :=
    List.splitOnP_eq_singleton fun b hb =>
      beq_eq_false_iff_ne.2 fun h => hfree (h ▸ htrim.subset hb)
  refine ⟨htrim.trans hsub, ?_⟩
  rw [entriesOf, hone, List.map_singleton]
  exact congrArg (fun entry => [entry]) (trimmed_trimmed _ piece)

theorem isWhitespace_of_isVisibleAscii : ∀ {b : UInt8}, isVisibleAscii b = true →
    isWhitespace (Char.ofNat b.toNat) = (b == 32 || b == 9) :=
  @(forall_byte (by decide +kernel))

theorem dropWhile_textOf (h : ∀ b ∈ bytes, isVisibleAscii b = true) :
    (textOf bytes).dropWhile isWhitespace =
      textOf (bytes.dropWhile fun b => b == 32 || b == 9) := by
  induction bytes with
  | nil => rfl
  | cons b bytes ih =>
    rw [textOf, List.map_cons, List.dropWhile_cons, List.dropWhile_cons,
      isWhitespace_of_isVisibleAscii (h b List.mem_cons_self), ← textOf,
      ih fun c hc => h c (List.mem_cons_of_mem b hc)]
    split
    · rfl
    · rfl

/-- Among visible bytes, white space is a blank or a tab. -/
theorem trim_textOf (h : ∀ b ∈ bytes, isVisibleAscii b = true) :
    trim (textOf bytes) = textOf (trimAsciiOws bytes) := by
  have hdrop : ∀ b ∈ bytes.dropWhile (fun b => b == 32 || b == 9), isVisibleAscii b = true :=
    fun b hb => h b ((List.dropWhile_sublist _).subset hb)
  rw [trim, trimAsciiOws, trimMatches, dropWhile_textOf h, List.rdropWhile, List.rdropWhile, textOf,
    ← List.map_reverse, ← textOf, dropWhile_textOf fun b hb => hdrop b (List.mem_reverse.1 hb),
      textOf,
    ← List.map_reverse, ← textOf]

/-- The loop over a whole line that can be read as text. -/
theorem walkBack_line (h : bytes.all isVisibleAscii = true) :
    walkBack trustedCidrs peer (((textOf bytes).splitOn ',').map trim)
        (((textOf bytes).splitOn ',').map trim).length =
      addressAt addressOf peer
        (fromLast (fun entry => isOutside trustedCidrs (addressOf entry)) (entriesOf bytes)) := by
  have hvisible : ∀ piece ∈ bytes.splitOn 44, ∀ b ∈ piece, isVisibleAscii b = true :=
    fun piece hpiece b hb => List.all_eq_true.1 h b ((sublist_of_mem_splitOn hpiece).1.subset hb)
  have htexts : ((textOf bytes).splitOn ',').map trim = (entriesOf bytes).map textOf := by
    rw [splitOn_textOf, entriesOf, List.map_map, List.map_map]
    exact List.map_congr_left fun piece hpiece => trim_textOf (hvisible piece hpiece)
  -- An entry and its text name the same address.
  have haddress : ∀ entry ∈ entriesOf bytes, addressOfText (textOf entry) = addressOf entry := by
    intro entry hentry
    obtain ⟨piece, hpiece, rfl⟩ := List.mem_map.1 hentry
    have htrimmed : (trimAsciiOws piece).all isVisibleAscii = true := by
      refine List.all_eq_true.2 fun b hb => hvisible piece hpiece b ?_
      exact (List.dropWhile_sublist _).subset ((List.rdropWhile_prefix _ _).subset hb)
    rw [addressOf, if_pos htrimmed, addressOfText]
  rw [walkBack_eq _ _ (Nat.le_refl _), List.take_length, htexts, fromLast_map,
    fromLast_congr (q := fun entry => isOutside trustedCidrs (addressOf entry))
      fun entry hentry => by
      rw [haddress entry hentry], addressAt, addressAt, Option.bind_map]
  cases hfound : fromLast (fun entry => isOutside trustedCidrs (addressOf entry))
    (entriesOf bytes) with
  | none => rfl
  | some found => simpa using congrArg (·.getD peer) (haddress found.1 (mem_of_fromLast hfound).1)

theorem isEmpty_eq_false_of_isTrusted (h : isTrusted peer trustedCidrs = true) :
    trustedCidrs.isEmpty = false := by
  cases trustedCidrs with
  | nil => cases h
  | cons cidr cidrs => rfl

/-- A line of white space has no address. -/
theorem walkBack_blank {text : List Char} (h : (trim text).isEmpty = true) :
    walkBack trustedCidrs peer ((text.splitOn ',').map trim) ((text.splitOn ',').map trim).length =
      peer := by
  have hnil : trim text = [] := List.isEmpty_iff.1 h
  have hspace : ∀ c ∈ text, isWhitespace c = true := by
    rw [trim, List.rdropWhile_eq_nil_iff] at hnil
    rw [← List.dropWhile_eq_nil_iff, List.dropWhile_idempotent] at hnil
    exact List.dropWhile_eq_nil_iff.1 hnil
  have hone : text.splitOn ',' = [text] := by
    refine List.splitOnP_eq_singleton fun c hc => ?_
    have hwhite := hspace c hc
    refine beq_eq_false_iff_ne.2 fun hcomma => ?_
    rw [hcomma] at hwhite
    exact absurd hwhite (by decide)
  rw [hone, List.map_singleton, hnil]
  rfl

end Walk

section Lines

variable {trustedCidrs : List IpNet} {peer : IpAddr} {headers : HeaderMap} {line : HeaderValue}
  {rest : List HeaderValue}

/-- **One line.**  Of the lines of the header the code reads the first, and finds in it what the
entries of that line give. -/
theorem resolveClientIp_line (htrusted : isTrusted peer trustedCidrs = true)
    (hlines : headers.getAll xForwardedFor = line :: rest)
    (hvisible : line.bytes.all isVisibleAscii = true) :
    resolveClientIp (some peer) headers trustedCidrs =
      some (addressAt addressOf peer
        (fromLast (fun entry => isOutside trustedCidrs (addressOf entry))
          (entriesOf line.bytes))) := by
  have hget : headers.get xForwardedFor = some line := by
    rw [HeaderMap.get, hlines, List.head?_cons]
  have htext : line.toStr.toOption = some (textOf line.bytes) := by
    rw [HeaderValue.toStr, if_pos hvisible]
    rfl
  rw [resolveClientIp, isEmpty_eq_false_of_isTrusted htrusted, hget, ← walkBack_line hvisible]
  simp only [htrusted, Bool.false_eq_true, if_false, Bool.not_true, Option.bind_some, htext]
  split
  · rename_i hblank
    rw [walkBack_blank hblank]
  · rfl

/-- Where the header holds no text the peer is the client. -/
theorem resolveClientIp_no_text
    (h : ((headers.get xForwardedFor).bind fun h => h.toStr.toOption) = none) :
    resolveClientIp (some peer) headers trustedCidrs = some peer := by
  rw [resolveClientIp, h]
  split
  · rfl
  · dsimp only
    split
    · rfl
    · rfl

/-- A first line that cannot be read as text is ignored. -/
theorem resolveClientIp_obsText (hlines : headers.getAll xForwardedFor = line :: rest)
    (hvisible : line.bytes.all isVisibleAscii = false) :
    resolveClientIp (some peer) headers trustedCidrs = some peer := by
  refine resolveClientIp_no_text ?_
  rw [HeaderMap.get, hlines, List.head?_cons, Option.bind_some, HeaderValue.toStr, hvisible]
  rfl

theorem resolveClientIp_no_line (hlines : headers.getAll xForwardedFor = []) :
    resolveClientIp (some peer) headers trustedCidrs = some peer := by
  refine resolveClientIp_no_text ?_
  rw [HeaderMap.get, hlines, List.head?_nil, Option.bind_none]

/-- The header of a peer that is no trusted proxy is ignored. -/
theorem resolveClientIp_untrusted (h : isTrusted peer trustedCidrs = false) :
    resolveClientIp (some peer) headers trustedCidrs = some peer := by
  rw [resolveClientIp]
  split
  · rfl
  · simp [h]

theorem forwardedEntries_singleton (hlines : headers.getAll xForwardedFor = [line]) :
    forwardedEntries headers = entriesOf line.bytes := by
  rw [forwardedEntries, hlines]
  simp [combined]

/-- The entries of a line stand before those of the next. -/
theorem entriesOf_append (left right : List UInt8) :
    entriesOf (left ++ 44 :: right) = entriesOf left ++ entriesOf right := by
  rw [entriesOf, List.splitOn, List.splitOnP_append_cons left right (by decide), List.map_append]
  rfl

end Lines

/-! ## Spoofing -/

/-- The header has at most so many lines, and bytes outside ASCII only if they are admitted. -/
def Carries (maxLines : Nat) (obsText : Bool) (headers : HeaderMap) : Prop :=
  (headers.getAll xForwardedFor).length ≤ maxLines ∧
    (obsText = false →
      ∀ line ∈ headers.getAll xForwardedFor, line.bytes.all isVisibleAscii = true)

theorem xForwardedFor_valid : xForwardedFor ≠ [] ∧ xForwardedFor.all isHeaderNameChar = true := by
  decide

/-- A request with the given lines. -/
def forwarded (lines : List HeaderValue) : HeaderMap where
  entries := lines.map fun line => (xForwardedFor, line)
  valid := by
    intro entry hentry
    obtain ⟨line, -, rfl⟩ := List.mem_map.1 hentry
    exact xForwardedFor_valid

@[simp] theorem getAll_forwarded (lines : List HeaderValue) :
    (forwarded lines).getAll xForwardedFor = lines := by
  have hname : asciiLowercase xForwardedFor = xForwardedFor := by decide
  rw [HeaderMap.getAll, forwarded, hname, List.filter_map, List.map_map]
  simp [Function.comp_def]

theorem clientIpFromRequest_tcp {extensions : Extensions} {peer : IpAddr}
    (h : extensions.connectInfo.map IpAddr.toCanonical = some peer) (headers : HeaderMap)
    (trustedCidrs : List IpNet) :
    clientIpFromRequest extensions headers trustedCidrs =
      resolveClientIp (some peer) headers trustedCidrs := by
  obtain ⟨addr, haddr, rfl⟩ := Option.map_eq_some_iff.1 h
  rw [clientIpFromRequest, connectionPeer, haddr]

section Spoofing

variable {trustedCidrs : List IpNet} {peer : IpAddr} {headers : HeaderMap} {line : HeaderValue}

/-- With one readable line at most, the address is the one at the boundary. -/
theorem resolveClientIp_boundary (htrusted : isTrusted peer trustedCidrs = true)
    (h : Carries 1 false headers) :
    resolveClientIp (some peer) headers trustedCidrs =
      some (addressAt addressOf peer (boundary trustedCidrs headers)) := by
  obtain ⟨hone, hvisible⟩ := h
  cases hlines : headers.getAll xForwardedFor with
  | nil =>
    rw [resolveClientIp_no_line hlines, boundary, forwardedEntries, hlines]
    rfl
  | cons line rest =>
    rw [hlines, List.length_cons] at hone
    obtain rfl : rest = [] := List.length_eq_zero_iff.1 (by omega)
    rw [resolveClientIp_line htrusted hlines
      (hvisible rfl line (by rw [hlines]; exact List.mem_cons_self)),
      boundary, forwardedEntries_singleton hlines]

/-- Where every address a line can name is a trusted proxy's, the peer is the client. -/
theorem resolveClientIp_all_trusted (htrusted : isTrusted peer trustedCidrs = true)
    (h : ∀ line : HeaderValue, ∀ entry ∈ entriesOf line.bytes, ∀ a, addressOf entry = some a →
      isTrusted a trustedCidrs = true) :
    resolveClientIp (some peer) headers trustedCidrs = some peer := by
  cases hlines : headers.getAll xForwardedFor with
  | nil => exact resolveClientIp_no_line hlines
  | cons line rest =>
    cases hvisible : line.bytes.all isVisibleAscii with
    | false => exact resolveClientIp_obsText hlines hvisible
    | true =>
      rw [resolveClientIp_line htrusted hlines hvisible]
      cases hfound : fromLast (fun entry => isOutside trustedCidrs (addressOf entry))
          (entriesOf line.bytes) with
      | none => rfl
      | some found =>
        obtain ⟨hmem, hout⟩ := mem_of_fromLast hfound
        cases ha : addressOf found.1 with
        | none => simp [addressAt, ha]
        | some a =>
          rw [ha] at hout
          simp [isOutside, h line found.1 hmem a ha] at hout

theorem visible_of_addressOf {entry : List UInt8} {a : IpAddr} (ha : addressOf entry = some a) :
    entry.all isVisibleAscii = true := by
  by_contra hnot
  rw [addressOf, if_neg hnot] at ha
  cases ha

/-- An address outside the trusted networks, alone in a line, is the one the server uses. -/
theorem resolveClientIp_entry (htrusted : isTrusted peer trustedCidrs = true) {a : IpAddr}
    (hone : entriesOf line.bytes = [line.bytes]) (ha : addressOf line.bytes = some a)
    (hout : isTrusted a trustedCidrs = false) :
    resolveClientIp (some peer) (forwarded [line]) trustedCidrs = some a := by
  rw [resolveClientIp_line htrusted (getAll_forwarded [line]) (visible_of_addressOf ha), hone]
  simp [fromLast, addressAt, ha, isOutside, hout]

/-- What is written to the left of such a line leaves the boundary where it is. -/
theorem boundary_eq_of_ne (htrusted : isTrusted peer trustedCidrs = true)
    (hvisible : line.bytes.all isVisibleAscii = true)
    (h : resolveClientIp (some peer) (forwarded [line]) trustedCidrs ≠ some peer)
    {left : List UInt8}
    (hentries : forwardedEntries headers = entriesOf (left ++ 44 :: line.bytes)) :
    boundary trustedCidrs headers = boundary trustedCidrs (forwarded [line]) := by
  rw [resolveClientIp_line htrusted (getAll_forwarded [line]) hvisible] at h
  rw [boundary, boundary, forwardedEntries_singleton (getAll_forwarded [line]), hentries,
    entriesOf_append]
  cases hfound : fromLast (fun entry => isOutside trustedCidrs (addressOf entry))
      (entriesOf line.bytes) with
  | none =>
    rw [hfound] at h
    exact absurd rfl h
  | some found => exact fromLast_append_of_some hfound _

end Spoofing

/-- A line that names no address. -/
def junkLine : HeaderValue := ⟨[120], by decide⟩

theorem resolveClientIp_junkLine (trustedCidrs : List IpNet) (peer : IpAddr)
    (rest : List HeaderValue) :
    resolveClientIp (some peer) (forwarded (junkLine :: rest)) trustedCidrs = some peer := by
  cases htrusted : isTrusted peer trustedCidrs with
  | false => exact resolveClientIp_untrusted htrusted
  | true =>
    have hentries : entriesOf junkLine.bytes = [[120]] := by decide
    have hjunk : addressOf [120] = none := by decide
    rw [resolveClientIp_line htrusted (getAll_forwarded _) (by decide), hentries]
    simp [fromLast, addressAt, hjunk, isOutside]

/-- A byte outside ASCII, put in front of a line. -/
def obsTextLine (line : HeaderValue) : HeaderValue where
  bytes := 255 :: 44 :: line.bytes
  valid := by
    rw [List.all_cons, List.all_cons, line.valid]
    decide

/-- **The client address.**  For a peer that is a trusted proxy the address depends on the combined
list from its boundary on, and for any other peer on no header at all, for requests with at most
`maxLines` lines and bytes outside ASCII if they are admitted — exactly when the peer is outside the
trusted networks, or every address a line can name is inside, or there is no line, or just one of
visible characters. -/
theorem client_ip_unspoofable_iff (trustedCidrs : List IpNet) (addr : IpAddr) (maxLines : Nat)
    (obsText : Bool) :
    (∀ (extensions₁ extensions₂ : Extensions) (headers₁ headers₂ : HeaderMap),
        extensions₁.connectInfo.map IpAddr.toCanonical = some addr.toCanonical →
        extensions₂.connectInfo.map IpAddr.toCanonical = some addr.toCanonical →
        Carries maxLines obsText headers₁ → Carries maxLines obsText headers₂ →
        (isTrusted addr.toCanonical trustedCidrs = true →
          boundary trustedCidrs headers₁ = boundary trustedCidrs headers₂) →
        clientIpFromRequest extensions₁ headers₁ trustedCidrs =
          clientIpFromRequest extensions₂ headers₂ trustedCidrs) ↔
      isTrusted addr.toCanonical trustedCidrs = false ∨
        (∀ line : HeaderValue, ∀ entry ∈ entriesOf line.bytes, ∀ a, addressOf entry = some a →
          isTrusted a trustedCidrs = true) ∨
        maxLines = 0 ∨ (maxLines = 1 ∧ obsText = false) := by
  constructor
  · intro hsame
    by_contra hnot
    push Not at hnot
    obtain ⟨htrusted, ⟨list, entry, hentry, a, ha, hout⟩, hlines, htext⟩ := hnot
    have htrusted := Bool.eq_true_of_not_eq_false htrusted
    have hout := Bool.eq_false_of_not_eq_true hout
    -- The entry alone is a line that makes the server use another address than the peer's.
    obtain ⟨hsub, hone⟩ := entriesOf_entry hentry
    let line : HeaderValue :=
      ⟨entry, List.all_eq_true.2 fun b hb => List.all_eq_true.1 list.valid b (hsub.subset hb)⟩
    have hvisible : line.bytes.all isVisibleAscii = true := visible_of_addressOf ha
    have hline : resolveClientIp (some addr.toCanonical) (forwarded [line]) trustedCidrs ≠
        some addr.toCanonical := by
      rw [resolveClientIp_entry htrusted hone ha hout]
      rintro heq
      cases heq
      rw [htrusted] at hout
      cases hout
    have hpeer : (Extensions.mk (some addr) none).connectInfo.map IpAddr.toCanonical =
        some addr.toCanonical := rfl
    have hclean : Carries maxLines obsText (forwarded [line]) := by
      refine ⟨by simp; omega, fun _ => ?_⟩
      simpa using List.all_eq_true.1 hvisible
    -- It is enough to write something to the left that keeps the server from reading the line.
    have hspoof : ∀ headers' left, Carries maxLines obsText headers' →
        forwardedEntries headers' = entriesOf (left ++ 44 :: line.bytes) →
        resolveClientIp (some addr.toCanonical) headers' trustedCidrs = some addr.toCanonical →
        False := by
      intro headers' left hcarries hentries hresult
      have hagree := hsame _ _ _ _ hpeer hpeer hcarries hclean
        fun _ => boundary_eq_of_ne htrusted hvisible hline hentries
      rw [clientIpFromRequest_tcp hpeer, clientIpFromRequest_tcp hpeer, hresult] at hagree
      exact hline hagree.symm
    by_cases htwo : 2 ≤ maxLines
    · refine hspoof (forwarded [junkLine, line]) junkLine.bytes
        ⟨by simpa using htwo, fun _ => ?_⟩ ?_ (resolveClientIp_junkLine _ _ _)
      · simpa [junkLine, isVisibleAscii] using List.all_eq_true.1 hvisible
      · simp [forwardedEntries, combined]
    · have hone : maxLines = 1 := by omega
      have hobs : obsText = true := by simpa using htext hone
      refine hspoof (forwarded [obsTextLine line]) [255] ⟨by simp [hone], fun hfalse => ?_⟩ ?_ ?_
      · rw [hobs] at hfalse
        cases hfalse
      · rw [forwardedEntries_singleton (getAll_forwarded _)]
        rfl
      · exact resolveClientIp_obsText (getAll_forwarded _) rfl
  · rintro hclass extensions₁ extensions₂ headers₁ headers₂ hpeer₁ hpeer₂ hc₁ hc₂ hboundary
    rw [clientIpFromRequest_tcp hpeer₁, clientIpFromRequest_tcp hpeer₂]
    cases htrusted : isTrusted addr.toCanonical trustedCidrs with
    | false => rw [resolveClientIp_untrusted htrusted, resolveClientIp_untrusted htrusted]
    | true =>
      rcases hclass with huntrusted | hall | hclass
      · rw [htrusted] at huntrusted
        cases huntrusted
      · rw [resolveClientIp_all_trusted htrusted hall, resolveClientIp_all_trusted htrusted hall]
      · have hsingle : ∀ headers, Carries maxLines obsText headers → Carries 1 false headers := by
          intro headers hcarries
          obtain ⟨hlength, hvisible⟩ := hcarries
          rcases hclass with hzero | ⟨hone, hobs⟩
          · have hnil : headers.getAll xForwardedFor = [] := List.length_eq_zero_iff.1 (by omega)
            rw [Carries, hnil]
            exact ⟨by decide, fun _ line hline => absurd hline List.not_mem_nil⟩
          · exact ⟨by omega, fun _ => hvisible hobs⟩
        rw [resolveClientIp_boundary htrusted (hsingle _ hc₁),
          resolveClientIp_boundary htrusted (hsingle _ hc₂), hboundary htrusted]

/-- A line of ASCII text. -/
def textLine (text : String)
    (h : (text.toList.map fun c => UInt8.ofNat c.toNat).all isFieldByte = true) :
    HeaderValue :=
  ⟨text.toList.map fun c => UInt8.ofNat c.toNat, h⟩

/-- `10.0.0.0/8`. -/
def proxyNetwork : List IpNet := [.v4 0x0a000000#32 8 (by decide)]

/-- A connection from `10.0.0.1`, a proxy. -/
def fromProxy : Extensions := ⟨some (.v4 0x0a000001#32), none⟩

/-- Two requests through a proxy that appends a line of its own, with the address `203.0.113.1` it
was called from.  The client sends `1.1.1.1` with one and `2.2.2.2` with the other, and that is the
address the server uses. -/
theorem client_ip_spoofed :
    let headers₁ := forwarded [textLine "1.1.1.1" (by decide), textLine "203.0.113.1" (by decide)]
    let headers₂ := forwarded [textLine "2.2.2.2" (by decide), textLine "203.0.113.1" (by decide)]
    isTrusted (.v4 0x0a000001#32) proxyNetwork = true ∧
      boundary proxyNetwork headers₁ = boundary proxyNetwork headers₂ ∧
      clientIpFromRequest fromProxy headers₁ proxyNetwork = some (.v4 0x01010101#32) ∧
      clientIpFromRequest fromProxy headers₂ proxyNetwork = some (.v4 0x02020202#32) := by
  decide +kernel

end Vouch
