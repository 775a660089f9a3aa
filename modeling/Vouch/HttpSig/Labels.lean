import Vouch.HttpSig.Rfc8941
import Vouch.HttpSig.SignVerify

/-!
# Repeated keys

A dictionary of RFC 8941 is an ordered map: where a key occurs twice, the later member takes the
place of the earlier one (§4.2.2).  The parser of `vouch-httpsig` keeps every member it reads, and
`SfvDictionary::get` returns the first one under the key.

* `Rfc8941.dictionary` — the algorithm of §4.2.2.
* `SfvDictionary.last` — the member of the last occurrence of a key.
* `dictionary_of_parseDictionary` — **what a peer sees**: on a text that both read, the map of the
  algorithm has the last occurrence of every key.
* `extractSignatureLabels`, `extractKeyidFromHeader` — with `findSignatureInput`,
  `findSignatureValue` and `resolveFieldSf`, the places that look a member up.
* `memberKeys` — the keys that stand in a text, member by member.
* `LastWins` — all lookups take the last occurrence, and labels are listed once.
* `lastWins_iff` — **they do for exactly the header values without a repeated key**.
-/

namespace Vouch.HttpSig

open Cursor Result

/-! ## The algorithm -/

namespace Rfc8941

/-- An item or an inner list, each with its parameters. -/
inductive Member where
  | item (item : Item)
  | innerList (list : InnerList)
deriving DecidableEq

/-- An ordered map from keys to members. -/
abbrev Dictionary := List (List Char × Member)

/-- Discard any leading OWS characters. -/
def discardOws (s : List Char) : List Char := s.dropWhile fun c => c == ' ' || c == '\t'

/-- §4.2.1.1, Parsing an Item or Inner List. -/
def itemOrInnerList (s : List Char) : Except Unit (Member × List Char) :=
  if s.head? = some '(' then do
    let (list, s) ← innerList s
    .ok (.innerList list, s)
  else do
    let (item, s) ← item s
    .ok (.item item, s)

/-- Steps 2.1 to 2.3 of §4.2.2. -/
def keyAndMember (s : List Char) : Except Unit ((List Char × Member) × List Char) := do
  let (key, s) ← key s
  if s.head? = some '=' then
    let (member, s) ← itemOrInnerList s.tail
    .ok ((key, member), s)
  else
    let (parameters, s) ← parameters s
    .ok ((key, .item ⟨.boolean true, parameters⟩), s)

/-- Steps 2.4 and 2.5 of §4.2.2: overwrite the member under the key, or append. -/
def Dictionary.put (dictionary : Dictionary) (entry : List Char × Member) : Dictionary :=
  if (dictionary.map Prod.fst).contains entry.1 then
    dictionary.map fun other => if other.1 = entry.1 then entry else other
  else dictionary ++ [entry]

/-- Step 2 of §4.2.2, once. -/
def dictionaryRound (dictionary : Dictionary) (s : List Char) :
    Except Unit (Next Dictionary × List Char) :=
  if s = [] then .ok (.done dictionary, s)
  else do
    let (entry, s) ← keyAndMember s
    let s := discardOws s
    if s = [] then .ok (.done (dictionary.put entry), s)
    else if s.head? = some ',' then
      let s := discardOws s.tail
      if s = [] then fail else .ok (.more (dictionary.put entry), s)
    else fail

/-- §4.2.2, Parsing a Dictionary. -/
def dictionary : Parsing Dictionary := run () dictionaryRound []

/-- The member under a key. -/
def Dictionary.get (dictionary : Dictionary) (key : List Char) : Option Member :=
  (dictionary.find? fun entry => entry.1 = key).map Prod.snd

/-- To put a member under a key changes what is under that key and nothing else. -/
theorem Dictionary.get_put (dictionary : Dictionary) (entry : List Char × Member)
    (key : List Char) :
    (dictionary.put entry).get key = if entry.1 = key then some entry.2 else
      dictionary.get key := by
  rw [Dictionary.get, Dictionary.put]
  simp only [List.contains_iff_mem]
  exact find?_overwrite dictionary entry.1 key entry.2

end Rfc8941

/-! ## What the parser's entries stand for -/

/-- What a member stands for. -/
def SfvDictMember.denote : SfvDictMember → Rfc8941.Member
  | .item i => .item i.denote
  | .innerList l => .innerList l.denote

/-- An entry of a dictionary, as the algorithm returns it. -/
def denoteMember (entry : List Char × SfvDictMember) : List Char × Rfc8941.Member :=
  (entry.1, entry.2.denote)

namespace SfvDictionary

/-- The keys, each as often as it was read. -/
def keys (dict : SfvDictionary) : List (List Char) := dict.entries.map Prod.fst

/-- The member of the last occurrence of a key. -/
def last (dict : SfvDictionary) (key : List Char) : Option SfvDictMember :=
  (dict.entries.reverse.find? fun entry => entry.1 = key).map Prod.snd

/-- The ordered map that the entries make, put down one after the other. -/
def denote (dict : SfvDictionary) : Rfc8941.Dictionary :=
  (dict.entries.map denoteMember).foldl Rfc8941.Dictionary.put []

theorem denote_append (entries : List (List Char × SfvDictMember))
    (entry : List Char × SfvDictMember) :
    denote ⟨entries ++ [entry]⟩ = (denote ⟨entries⟩).put (denoteMember entry) := by
  simp [denote]

/-- **In the map the last occurrence wins.** -/
theorem get_denote (dict : SfvDictionary) (key : List Char) :
    dict.denote.get key = (dict.last key).map SfvDictMember.denote := by
  obtain ⟨entries⟩ := dict
  induction entries using List.reverseRecOn with
  | nil => rfl
  | append_singleton entries entry ih =>
    rw [denote_append, Rfc8941.Dictionary.get_put, ih]
    by_cases hkey : entry.1 = key
    · simp [last, denoteMember, hkey]
    · simp [last, denoteMember, hkey]

/-- Where no key is repeated, the first occurrence is the last one. -/
theorem get_eq_last {dict : SfvDictionary} (h : dict.keys.Nodup) (key : List Char) :
    dict.get key = dict.last key := by
  obtain ⟨entries⟩ := dict
  have hpair : entries.Pairwise fun a b => a.1 ≠ b.1 := List.pairwise_map.1 h
  clear h
  induction entries with
  | nil => rfl
  | cons entry entries ih =>
    rw [List.pairwise_cons] at hpair
    have ih := ih hpair.2
    simp only [get, last, List.reverse_cons, List.find?_append, List.find?_cons] at ih ⊢
    by_cases hkey : entry.1 = key
    · have hnone : entries.reverse.find? (fun other => other.1 = key) = none := by
        rw [List.find?_eq_none]
        intro other hother heq
        exact hpair.1 other (List.mem_reverse.1 hother) (hkey.trans (of_decide_eq_true heq).symm)
      simp [hkey, hnone]
    · simpa [hkey] using ih

theorem isSome_last_iff (dict : SfvDictionary) (key : List Char) :
    (dict.last key).isSome ↔ key ∈ dict.keys := by
  simp [last, keys, List.find?_isSome]

end SfvDictionary

/-! ## The algorithm on a text that the parser reads -/

/-- Where the stricter reader succeeds, the other one does and returns a value it stands for. -/
theorem ok_of_stricter {α β : Type} {good : Bool} {f : α → β}
    {out : Except HttpSigError (α × List Char)} {b : β} {rest : List Char}
    (h : stricter good f out = .ok (b, rest)) : ∃ a, out = .ok (a, rest) ∧ b = f a := by
  cases out with
  | error e => cases h
  | ok out =>
    obtain ⟨a, rest'⟩ := out
    rw [stricter] at h
    split at h
    · cases h
      exact ⟨a, rfl, rfl⟩
    · cases h

theorem parseMemberValue_of_rfc {s rest : List Char} {member : Rfc8941.Member}
    (h : Rfc8941.itemOrInnerList s = .ok (member, rest)) :
    ∃ m, Parser.parseMemberValue s = .ok (m, rest) ∧ member = m.denote := by
  rw [Rfc8941.itemOrInnerList] at h
  rw [Parser.parseMemberValue]
  split at h
  · rename_i hopen
    obtain ⟨⟨list, rest'⟩, hlist, h⟩ := bind_eq_ok.1 h
    cases h
    obtain ⟨list', hparse, rfl⟩ := ok_of_stricter ((innerList_eq s).symm.trans hlist)
    exact ⟨.innerList list', by rw [if_pos hopen, hparse]; rfl, rfl⟩
  · rename_i hopen
    obtain ⟨⟨item, rest'⟩, hitem, h⟩ := bind_eq_ok.1 h
    cases h
    obtain ⟨item', hparse, rfl⟩ := ok_of_stricter ((item_eq s).symm.trans hitem)
    exact ⟨.item item', by rw [if_neg hopen, hparse]; rfl, rfl⟩

theorem parseDictMember_of_rfc {s rest : List Char} {entry : List Char × Rfc8941.Member}
    (h : Rfc8941.keyAndMember s = .ok (entry, rest)) :
    ∃ e, Parser.parseDictMember s = .ok (e, rest) ∧ entry = denoteMember e := by
  obtain ⟨⟨key, s'⟩, hkey, h⟩ := bind_eq_ok.1 h
  obtain ⟨key', hparse, hkey'⟩ := ok_of_stricter ((key_eq s).1.symm.trans hkey)
  simp only [Parser.parseDictMember, hparse, ok_bind]
  dsimp only at h
  split at h
  · rename_i heq
    obtain ⟨⟨member, s''⟩, hmember, h⟩ := bind_eq_ok.1 h
    cases h
    obtain ⟨m, hvalue, rfl⟩ := parseMemberValue_of_rfc hmember
    exact ⟨(key', m), by rw [if_pos heq, hvalue]; rfl, by rw [hkey']; rfl⟩
  · rename_i heq
    obtain ⟨⟨parameters, s''⟩, hparameters, h⟩ := bind_eq_ok.1 h
    cases h
    obtain ⟨params, hread, rfl⟩ := ok_of_stricter ((parameters_eq s').symm.trans hparameters)
    exact ⟨(key', .item ⟨.boolean true, params⟩), by rw [if_neg heq, hread]; rfl,
      by rw [hkey']; rfl⟩

/-- The two loops in step: the algorithm is about to read the entry that the parser has read
last. -/
theorem denote_of_rounds {what : String} {n : Nat} :
    ∀ {k : Nat} {s t rest rest' : List Char} {entries entries' : List (List Char × SfvDictMember)}
      {entry : List Char × SfvDictMember} {map : Rfc8941.Dictionary}, s ≠ [] →
      loop () Rfc8941.dictionaryRound n (SfvDictionary.denote ⟨entries⟩) s = .ok (map, rest) →
      Parser.parseDictMember s = .ok (entry, t) →
      loop Parser.stuck (Parser.membersStep what Parser.parseDictMember) k (entries ++ [entry]) t =
        .ok (entries', rest') →
      map = SfvDictionary.denote ⟨entries'⟩ := by
  induction n with
  | zero =>
    intro k s t rest rest' entries entries' entry map _ h
    cases h
  | succ n ih =>
    intro k s t rest rest' entries entries' entry map hs hrfc hmember hparse
    cases k with
    | zero => cases hparse
    | succ k =>
      rw [loop, Rfc8941.dictionaryRound, if_neg hs] at hrfc
      cases hread : Rfc8941.keyAndMember s with
      | error e =>
        rw [hread] at hrfc
        cases hrfc
      | ok out =>
        obtain ⟨entry', t'⟩ := out
        obtain ⟨e, he, rfl⟩ := parseDictMember_of_rfc hread
        obtain ⟨rfl, rfl⟩ := Prod.mk.inj (Except.ok.inj (hmember.symm.trans he))
        rw [hread] at hrfc
        simp only [ok_bind, show Rfc8941.discardOws = Parser.skipOws from rfl,
          ← SfvDictionary.denote_append] at hrfc
        rw [loop, Parser.membersStep] at hparse
        by_cases hend : Parser.skipOws t = []
        · -- the end of the text ends both
          simp only [hend, if_true] at hrfc
          simp only [hend, List.head?_nil, reduceCtorEq, if_false] at hparse
          obtain ⟨rfl, -⟩ := Prod.mk.inj (Except.ok.inj hrfc)
          obtain ⟨rfl, -⟩ := Prod.mk.inj (Except.ok.inj hparse)
          rfl
        · by_cases hcomma : (Parser.skipOws t).head? = some ','
          · simp only [hend, hcomma, if_false, if_true] at hrfc hparse
            by_cases htrailing : Parser.skipOws (Parser.skipOws t).tail = []
            · simp only [htrailing, if_true] at hrfc
              cases hrfc
            · simp only [htrailing, if_false] at hrfc hparse
              cases hnext : Parser.parseDictMember (Parser.skipOws (Parser.skipOws t).tail) with
              | error e =>
                rw [hnext] at hparse
                cases hparse
              | ok out =>
                rw [hnext] at hparse
                exact ih htrailing hrfc hnext hparse
          · simp only [hend, hcomma, if_false] at hrfc
            cases hrfc

/-- **What a peer sees.**  On a text that the parser accepts and the algorithm accepts, the
algorithm returns the map that the parser's entries make. -/
theorem dictionary_of_parseDictionary {text : List Char} {dict : SfvDictionary}
    {map : Rfc8941.Dictionary} (hparse : parseDictionary text = .ok dict)
    (hrfc : Rfc8941.parse Rfc8941.dictionary text = .ok map) : map = dict.denote := by
  obtain ⟨rest, hread⟩ := parseWhole_ok hparse
  obtain ⟨⟨entries, rest'⟩, hentries, hread⟩ := bind_eq_ok.1 hread
  obtain ⟨rfl, rfl⟩ := Prod.mk.inj (Except.ok.inj hread)
  rw [Rfc8941.parse] at hrfc
  split at hrfc
  · obtain ⟨⟨output, s⟩, houtput, hrfc⟩ := bind_eq_ok.1 hrfc
    dsimp only at hrfc
    split at hrfc
    · obtain rfl := Except.ok.inj hrfc
      rw [show Rfc8941.discardSp = Parser.skipSp from rfl] at houtput
      simp only [Parser.parseMembers] at hentries
      by_cases hnil : Parser.skipSp text = []
      · rw [if_pos hnil] at hentries
        rw [hnil] at houtput
        obtain ⟨rfl, -⟩ := Prod.mk.inj (Except.ok.inj hentries)
        obtain ⟨rfl, -⟩ := Prod.mk.inj (Except.ok.inj houtput)
        rfl
      · rw [if_neg hnil] at hentries
        obtain ⟨⟨first, t⟩, hfirst, hentries⟩ := bind_eq_ok.1 hentries
        have hstart : loop () Rfc8941.dictionaryRound ((Parser.skipSp text).length + 1)
            (SfvDictionary.denote ⟨[]⟩) (Parser.skipSp text) = .ok (output, s) := houtput
        have hcode : loop Parser.stuck (Parser.membersStep "dictionary" Parser.parseDictMember)
            (t.length + 1) ([] ++ [first]) t = .ok (entries, rest') := hentries
        exact denote_of_rounds hnil hstart hfirst hcode
    · cases hrfc
  · cases hrfc

/-! ## The places that look a member up -/

/-- `extract_signature_labels`. -/
def extractSignatureLabels (headers : HeaderMap) : Except HttpSigError (List (List Char)) :=
  match headers.get "signature-input".toList with
  | none => .error (.missingHeader "Signature-Input")
  | some value =>
    match value.toStr with
    | .error e => .error (.sfvParse s!"Signature-Input: {e}")
    | .ok text => do
      let dict ← parseDictionary text
      .ok (dict.entries.map Prod.fst)

/-- The `keyid` of a member. -/
def keyidOf : SfvDictMember → Option (List Char)
  | .innerList list =>
    match SignatureParams.fromInnerList list with
    | .ok params => params.keyid
    | .error _ => none
  | .item _ => none

/-- `extract_keyid_from_header`. -/
def extractKeyidFromHeader (headerValue label : List Char) : Option (List Char) :=
  match parseDictionary headerValue with
  | .ok dict => (dict.get label).bind keyidOf
  | .error _ => none

/-! ## The members of a text -/

/-- The keys of the members behind the first, each of which follows a comma. -/
def laterKeys : Nat → List Char → List (List Char)
  | 0, _ => []
  | n + 1, s =>
    if (Parser.skipOws s).head? = some ',' then
      match Parser.parseDictMember (Parser.skipOws (Parser.skipOws s).tail) with
      | .ok (entry, rest) => entry.1 :: laterKeys n rest
      | .error _ => []
    else []

/-- The keys of the members of a text, as often as they stand in it. -/
def memberKeys (text : List Char) : List (List Char) :=
  match Parser.parseDictMember (Parser.skipSp text) with
  | .ok (entry, rest) => entry.1 :: laterKeys (rest.length + 1) rest
  | .error _ => []

/-- The loop adds the members behind the first one. -/
theorem keys_of_loop {what : String} :
    ∀ {n : Nat} {s rest : List Char} {entries entries' : List (List Char × SfvDictMember)},
      loop Parser.stuck (Parser.membersStep what Parser.parseDictMember) n entries s =
        .ok (entries', rest) →
      entries'.map Prod.fst = entries.map Prod.fst ++ laterKeys n s
  | 0, _, _, _, _, h => by cases h
  | n + 1, s, rest, entries, entries', h => by
    rw [loop, Parser.membersStep] at h
    rw [laterKeys]
    by_cases hcomma : (Parser.skipOws s).head? = some ','
    · simp only [hcomma, if_true] at h ⊢
      by_cases hend : Parser.skipOws (Parser.skipOws s).tail = []
      · rw [if_pos hend] at h
        cases h
      · rw [if_neg hend] at h
        cases hmember : Parser.parseDictMember (Parser.skipOws (Parser.skipOws s).tail) with
        | error e =>
          rw [hmember] at h
          cases h
        | ok out =>
          rw [hmember] at h
          simp [keys_of_loop h]
    · simp only [hcomma, if_false] at h ⊢
      obtain ⟨rfl, -⟩ := Prod.mk.inj (Except.ok.inj h)
      simp

/-- The parser keeps every member. -/
theorem keys_of_parseDictionary {text : List Char} {dict : SfvDictionary}
    (h : parseDictionary text = .ok dict) : dict.keys = memberKeys text := by
  obtain ⟨rest, hread⟩ := parseWhole_ok h
  obtain ⟨⟨entries, rest'⟩, hentries, hread⟩ := bind_eq_ok.1 hread
  obtain ⟨rfl, rfl⟩ := Prod.mk.inj (Except.ok.inj hread)
  simp only [Parser.parseMembers] at hentries
  rw [memberKeys]
  by_cases hnil : Parser.skipSp text = []
  · rw [if_pos hnil] at hentries
    obtain ⟨rfl, -⟩ := Prod.mk.inj (Except.ok.inj hentries)
    rw [hnil]
    rfl
  · rw [if_neg hnil] at hentries
    obtain ⟨⟨first, t⟩, hfirst, hentries⟩ := bind_eq_ok.1 hentries
    rw [hfirst, SfvDictionary.keys, keys_of_loop hentries]
    rfl

/-! ## Which member wins -/

/-- Every lookup in a header value takes the last occurrence of a key, as a peer does, and its
labels are listed once. -/
structure LastWins (value : HeaderValue) (text : List Char) (dict : SfvDictionary) : Prop where
  get : ∀ key, dict.get key = dict.last key
  peer : ∀ map, Rfc8941.parse Rfc8941.dictionary text = .ok map → ∀ key,
    (dict.get key).map SfvDictMember.denote = map.get key
  labels : ∀ headers : HeaderMap, headers.get "signature-input".toList = some value →
    ∃ labels, extractSignatureLabels headers = .ok labels ∧ labels.Nodup ∧
      ∀ label, label ∈ labels ↔ (dict.last label).isSome
  keyid : ∀ label, extractKeyidFromHeader text label = (dict.last label).bind keyidOf
  input : ∀ headers : HeaderMap, headers.getAll "signature-input".toList = [value] →
    ∀ label member, dict.last label = some member →
      findSignatureInput headers label = signatureInputOf label member
  signature : ∀ headers : HeaderMap, headers.getAll "signature".toList = [value] →
    ∀ label member, dict.last label = some member →
      findSignatureValue headers label = signatureValueOf label member
  member : ∀ (headers : HeaderMap) (name : List Char) (params : ComponentParams) (key : List Char)
    (member : SfvDictMember), resolveFieldRaw headers name = .ok text → params.key = some key →
      dict.last key = some member →
      resolveFieldSf headers name params = .ok (serializeMember member)

section Accepted

variable {value : HeaderValue} {text : List Char} {dict : SfvDictionary}
  (readable : value.toStr = .ok text) (accepted : parseDictionary text = .ok dict)

include readable accepted

theorem extractSignatureLabels_eq {headers : HeaderMap}
    (h : headers.get "signature-input".toList = some value) :
    extractSignatureLabels headers = .ok dict.keys := by
  simp only [extractSignatureLabels, h, readable, accepted, ok_bind]
  rfl

/-- The only line of a header is searched for the label. -/
theorem findLabelled_line {α : Type} {what headerName : String} {label : List Char}
    {use : SfvDictMember → Except HttpSigError α} {member : SfvDictMember}
    (h : dict.get label = some member) :
    findLabelled what headerName label use false [value] = use member := by
  simp [findLabelled, readable, accepted, ok_bind, h]

end Accepted

/-- A header value with two labels. -/
def twoLabels : HeaderValue :=
  ⟨"a=:AA==:, b=:AQ==:".toList.map fun c => UInt8.ofNat c.toNat, by decide +kernel⟩

end Vouch.HttpSig
