import Vouch.Email
import Vouch.Lib.Result

/-!
# Whom an SSH certificate names

The certificate authority of the server (`ssh_ca.rs`) writes a user into a certificate in two ways:
as the key id `{email}@{rp_id}`, which the agent and the command line read back before they use a
certificate again (`ssh_cert.rs`), and as the principals a host admits.  Both are texts made from an
address that may itself have the sign `@` before its last one, and letters outside ASCII.

## What is here

* `sshCertIssuedTo_iff` — the owner check as an equation about the key id.
* `issued_to_only_the_owner_iff` — a relying party compared with a domain makes the check exact.
  Where nothing is compared (no server URL, or the host is an IP address) it is not: the key id of
  `a@b@c` reads as one of `a@b`.
* `extractPrincipals_eq_ok` — the two principals: the lower-cased address, and what is before its
  **first** sign.
* `principals_name_one_user_iff` — an address as a principal admits every user whose address has the
  same full lower case, and the short principal is the local part unless that holds a sign.

Texts are lists of characters.
-/

namespace Vouch.Ssh

/-! ## The key id -/

/-- `url::Host`, of which the check reads the name of a domain. -/
inductive Host where
  | domain (name : List Char)
  | ipv4
  | ipv6

/-- `Url::parse`, then `Url::host`.  The sign ends the user information of a URL, so that no domain
has it. -/
structure UrlHosts where
  host : List Char → Option (Option Host)
  sign_not_mem : ∀ {url name : List Char}, host url = some (some (.domain name)) → '@' ∉ name

/-- `ssh_cert_key_id`. -/
def sshCertKeyId (email rpId : List Char) : List Char := email ++ '@' :: rpId

variable (lib : UrlHosts)

/-- Whether the server at a URL may issue for a relying party. -/
def issuesFor (rpId : List Char) : Option (List Char) → Bool
  | none => true
  | some serverUrl =>
    match lib.host serverUrl with
    | some (some (.domain name)) =>
      let host := asciiLowercase name
      let rpId := asciiLowercase rpId
      host == rpId || (rpId.isSuffixOf? host).any fun front => front.getLast? == some '.'
    | some (some .ipv4) => true
    | some (some .ipv6) => true
    | some none => false
    | none => false

/-- `ssh_cert_issued_to`. -/
def sshCertIssuedTo (keyId email : List Char) (serverUrl : Option (List Char)) : Bool :=
  if email = [] then false
  else
    match (email.isPrefixOf? keyId).bind (['@'].isPrefixOf? ·) with
    | none => false
    | some rpId => if rpId = [] then false else issuesFor lib rpId serverUrl

variable {lib} {keyId email e₁ e₂ rpId rpId' : List Char} {serverUrl : Option (List Char)}

theorem sshCertIssuedTo_iff : sshCertIssuedTo lib keyId email serverUrl = true ↔
    email ≠ [] ∧ ∃ rpId, keyId = sshCertKeyId email rpId ∧ rpId ≠ [] ∧
      issuesFor lib rpId serverUrl = true := by
  have hread : ∀ rpId, (email.isPrefixOf? keyId).bind (['@'].isPrefixOf? ·) = some rpId ↔
      keyId = sshCertKeyId email rpId := by
    intro rpId
    simp only [Option.bind_eq_some_iff, List.isPrefixOf?_eq_some_iff_append_eq, sshCertKeyId]
    constructor
    · rintro ⟨rest, rfl, rfl⟩
      rfl
    · rintro rfl
      exact ⟨_, rfl, rfl⟩
  unfold sshCertIssuedTo
  by_cases hemail : email = []
  · simp [hemail]
  rw [if_neg hemail]
  cases h : (email.isPrefixOf? keyId).bind (['@'].isPrefixOf? ·) with
  | none =>
    have hnone : ∀ rpId, keyId ≠ sshCertKeyId email rpId := by
      intro rpId heq
      rw [(hread rpId).mpr heq] at h
      cases h
    simp [hnone]
  | some rpId =>
    obtain rfl := (hread rpId).mp h
    by_cases hrp : rpId = []
    · simp [hrp, sshCertKeyId]
    · simp [hrp, hemail, sshCertKeyId]

theorem sign_mem_asciiLowercase {s : List Char} : '@' ∈ asciiLowercase s ↔ '@' ∈ s := by
  have hsign : ∀ c : Char, c.toLower = '@' ↔ c = '@' := by
    intro c
    rw [← Char.toNat_inj, ← Char.toNat_inj, toNat_toLower, show '@'.toNat = 64 from rfl]
    split
    · omega
    · rfl
  simp [asciiLowercase, hsign]

/-- A relying party with the sign in it is no domain. -/
theorem issuesFor_of_sign {url name : List Char} (hhost : lib.host url = some (some (.domain name)))
    (hsign : '@' ∈ rpId) : issuesFor lib rpId (some url) = false := by
  have hname : '@' ∉ asciiLowercase name :=
    fun h => lib.sign_not_mem hhost (sign_mem_asciiLowercase.mp h)
  have hrp : '@' ∈ asciiLowercase rpId := sign_mem_asciiLowercase.mpr hsign
  rw [Bool.eq_false_iff]
  intro h
  simp only [issuesFor, hhost, Bool.or_eq_true, beq_iff_eq, Option.any_eq_true,
    List.isSuffixOf?_eq_some_iff_append_eq] at h
  obtain heq | ⟨front, heq, -⟩ := h
  · exact hname (heq ▸ hrp)
  · exact hname (heq ▸ List.mem_append_right front hrp)

/-- Two readings of a key id: the same, or the first address goes on after the second, and the
relying party read second has the sign. -/
theorem keyId_read_twice (hrp : '@' ∉ rpId) (h : sshCertKeyId e₁ rpId = sshCertKeyId e₂ rpId') :
    e₁ = e₂ ∨ ∃ rest, e₁ = e₂ ++ '@' :: rest ∧ '@' ∈ rpId' := by
  rw [sshCertKeyId, sshCertKeyId, List.append_eq_append_iff] at h
  obtain ⟨rest, rfl, heq⟩ | ⟨rest, rfl, heq⟩ := h
  · cases rest with
    | nil => exact .inl (by simp)
    | cons c rest =>
      obtain ⟨-, rfl⟩ := List.cons.inj heq
      exact absurd (by simp) hrp
  · cases rest with
    | nil => exact .inl (by simp)
    | cons c rest =>
      obtain ⟨rfl, rfl⟩ := List.cons.inj heq
      exact .inr ⟨rest, rfl, by simp⟩

variable (lib) in
/-- No domain is compared: there is no server URL, or its host is an IP address. -/
def comparesNoDomain : Option (List Char) → Bool
  | none => true
  | some serverUrl =>
    match lib.host serverUrl with
    | some (some .ipv4) => true
    | some (some .ipv6) => true
    | _ => false

theorem issuesFor_of_comparesNoDomain (h : comparesNoDomain lib serverUrl = true) :
    issuesFor lib rpId serverUrl = true := by
  cases serverUrl with
  | none => rfl
  | some url =>
    simp only [comparesNoDomain] at h
    simp only [issuesFor]
    split at h <;> simp_all

/-- **When a certificate is taken for its owner's only.**  For a relying party without the sign, the
key id of one address is not accepted for another exactly when a domain is compared, or the first
does not go on after the second with the sign.  An owner is accepted where the host is the relying
party or there is none, unless the relying party is empty or the server URL is one without a
host. -/
theorem issued_to_only_the_owner_iff (hrp : '@' ∉ rpId) (hvalid₁ : Email.isValidAddress e₁ = true)
    (hvalid₂ : Email.isValidAddress e₂ = true) :
    ((sshCertIssuedTo lib (sshCertKeyId e₁ rpId) e₂ serverUrl = true → e₁ = e₂) ↔
      comparesNoDomain lib serverUrl = false ∨ ¬ ∃ rest, e₁ = e₂ ++ '@' :: rest) ∧
    ((comparesNoDomain lib serverUrl = true ∨ ∃ url, serverUrl = some url ∧
        (lib.host url = some none ∨ lib.host url = some (some (.domain rpId)))) →
      (sshCertIssuedTo lib (sshCertKeyId e₁ rpId) e₁ serverUrl = true ↔
        rpId ≠ [] ∧ serverUrl.bind lib.host ≠ some none)) := by
  have hne : ∀ {e : List Char}, Email.isValidAddress e = true → e ≠ [] := by
    rintro e hvalid rfl
    exact absurd hvalid (by decide)
  refine ⟨⟨fun h => ?_, fun hcond haccepts => ?_⟩, fun hown => ?_⟩
  · rw [or_iff_not_imp_left, Bool.not_eq_false]
    rintro hnone ⟨rest, rfl⟩
    have haccepts : sshCertIssuedTo lib (sshCertKeyId (e₂ ++ '@' :: rest) rpId) e₂
      serverUrl = true :=
      sshCertIssuedTo_iff.mpr ⟨hne hvalid₂, rest ++ '@' :: rpId, by simp [sshCertKeyId], by simp,
        issuesFor_of_comparesNoDomain hnone⟩
    exact absurd (h haccepts) (by simp)
  · obtain ⟨-, rpId', hkey, -, hissues⟩ := sshCertIssuedTo_iff.mp haccepts
    refine (keyId_read_twice hrp hkey).resolve_right fun ⟨rest, hrest, hsign⟩ => ?_
    rcases hcond with hcompares | hrest'
    · cases serverUrl with
      | none => exact absurd hcompares (by simp [comparesNoDomain])
      | some url =>
        cases hhost : lib.host url with
        | none => simp [issuesFor, hhost] at hissues
        | some host =>
          cases host with
          | none => simp [issuesFor, hhost] at hissues
          | some host =>
            cases host with
            | domain name => simp [issuesFor_of_sign hhost hsign] at hissues
            | ipv4 => simp [comparesNoDomain, hhost] at hcompares
            | ipv6 => simp [comparesNoDomain, hhost] at hcompares
    · exact hrest' ⟨rest, hrest⟩
  · have hissues : issuesFor lib rpId serverUrl = true ↔ serverUrl.bind lib.host ≠ some none := by
      obtain hnone | ⟨url, rfl, hhost | hhost⟩ := hown
      · have hhost : serverUrl.bind lib.host ≠ some none := by
          intro hbind
          obtain ⟨url, rfl, hhost⟩ := Option.bind_eq_some_iff.mp hbind
          simp [comparesNoDomain, hhost] at hnone
        simp [issuesFor_of_comparesNoDomain hnone, hhost]
      · simp [issuesFor, hhost]
      · simp [issuesFor, hhost]
    rw [sshCertIssuedTo_iff]
    simp [hne hvalid₁, hissues, sshCertKeyId]

/-- A reader that takes no text for a URL. -/
def readsNoUrl : UrlHosts := ⟨fun _ => none, nofun⟩

/-- A certificate for `a@b@c` is accepted as one of `a@b` while the server is not known. -/
theorem issued_to_another_address :
    Email.isValidAddress "a@b@c".toList = true ∧ Email.isValidAddress "a@b".toList = true ∧
      sshCertIssuedTo readsNoUrl (sshCertKeyId "a@b@c".toList "vouch.org".toList) "a@b".toList
        none = true := by
  decide

/-- With no server known, Alice's certificate is refused to Bob and accepted for Alice. -/
theorem issued_to_only_the_owner_unknown_server :
    let issued := sshCertKeyId "alice@example.com".toList "vouch.org".toList
    sshCertIssuedTo readsNoUrl issued "bob@example.com".toList none ≠ true ∧
      sshCertIssuedTo readsNoUrl issued "alice@example.com".toList none = true := by
  obtain ⟨honly, howner⟩ := @issued_to_only_the_owner_iff readsNoUrl "alice@example.com".toList
    "bob@example.com".toList "vouch.org".toList none (by decide) (by decide) (by decide)
  have hnot : ¬ ∃ rest, "alice@example.com".toList = "bob@example.com".toList ++ '@' :: rest := by
    rintro ⟨rest, hrest⟩
    exact absurd (List.cons.inj hrest).1 (by decide)
  exact ⟨fun h => absurd (honly.mpr (.inr hnot) h) (by decide),
    (howner (.inl rfl)).mpr ⟨by decide, nofun⟩⟩

/-! ## Principals -/

/-- `str::to_lowercase` on characters. -/
def toLowercase [UnicodeCase] (s : List Char) : List Char :=
  (UnicodeCase.toLowercase (String.ofList s)).toList

/-- What the full case mapping does around the sign, which has no case and is not passed over when
the form of a final sigma is chosen. -/
class LawfulCase [UnicodeCase] : Prop where
  toLowercase_append (a b : List Char) :
    toLowercase (a ++ '@' :: b) = toLowercase a ++ '@' :: toLowercase b
  sign_mem {a : List Char} : '@' ∈ toLowercase a → '@' ∈ a

/-- `extract_principals`. -/
def extractPrincipals [UnicodeCase] (email : List Char) : Except String (List (List Char)) :=
  let email := toLowercase (trim email)
  let invalid := "Invalid email format: " ++ String.ofList email
  match email.findIdx? (· == '@') with
  | none => .error invalid
  | some atPos =>
    if email = [] ∨ atPos = 0 then .error invalid else .ok [email, email.take atPos]

/-- What the builder of a certificate is given. -/
structure CertificateFields (Key : Type) where
  userKey : Key
  validAfter : Nat
  validBefore : Nat
  serial : Nat
  keyId : List Char
  validPrincipals : List (List Char)
  extensions : List String

/-- `SignedCertificate`. -/
structure SignedCertificate where
  certificate : String
  serial : Nat
  principals : List (List Char)
  validForSeconds : Nat

/-- The certificate authority, with the third-party code that reads keys and signs. -/
structure SshCa (Key : Type) where
  rpId : List Char
  fromOpenssh : String → Except String Key
  sign : CertificateFields Key → Except String String

/-- `sign_certificate`, at a clock reading and with a random serial number. -/
def SshCa.signCertificate {Key : Type} [UnicodeCase] (ca : SshCa Key) (userPublicKey : String)
    (userEmail : List Char) (validSeconds now serial : Nat) : Except String SignedCertificate := do
  let userKey ← (ca.fromOpenssh userPublicKey).mapError ("Invalid SSH public key: " ++ ·)
  let principals ← extractPrincipals userEmail
  if principals = [] then .error "Could not extract valid principals from email"
  else
    let certificate ← ca.sign
      { userKey := userKey
        validAfter := now
        validBefore := min (now + validSeconds) 0xFFFFFFFFFFFFFFFF
        serial := serial
        keyId := sshCertKeyId userEmail ca.rpId
        validPrincipals := principals
        extensions := ["permit-X11-forwarding", "permit-agent-forwarding",
          "permit-port-forwarding", "permit-pty", "permit-user-rc"] }
    return ⟨certificate, serial, principals, validSeconds⟩

/-- A certificate issued to a user. -/
def SshCa.Issued {Key : Type} [UnicodeCase] (ca : SshCa Key) (e : Email) (s : SignedCertificate) :
    Prop :=
  ∃ userPublicKey validSeconds now serial,
    ca.signCertificate userPublicKey e.text.toList validSeconds now serial = .ok s

theorem trim_text (e : Email) : trim e.text.toList = e.text.toList := by
  rw [← e.canonical, canonicalAddress, String.toList_ofList, trim_asciiLowercase, trim_trim]

/-- The address of a user, split as the server splits it. -/
theorem exists_rsplitOnce {e : Email} (h : Email.isValidAddress e.text.toList = true) :
    ∃ front domain, rsplitOnce '@' e.text.toList = some (front, domain) := by
  unfold Email.isValidAddress at h
  rw [trim_text] at h
  cases hsplit : rsplitOnce '@' e.text.toList with
  | none => simp [hsplit] at h
  | some parts => exact ⟨parts.1, parts.2, rfl⟩

section Principals

variable {Key : Type} [UnicodeCase] {ca : SshCa Key} {e e₁ e₂ : Email} {s s₁ s₂ : SignedCertificate}
  {front rest : List Char}

/-- A certificate has the principals extracted from the address it was asked for. -/
theorem SshCa.Issued.principals (h : ca.Issued e s) :
    extractPrincipals e.text.toList = .ok s.principals := by
  obtain ⟨_, _, _, _, h⟩ := h
  unfold SshCa.signCertificate at h
  obtain ⟨userKey, -, h⟩ := Result.bind_eq_ok.mp h
  obtain ⟨principals, hprincipals, h⟩ := Result.bind_eq_ok.mp h
  split at h
  · cases h
  · obtain ⟨certificate, -, h⟩ := Result.bind_eq_ok.mp h
    cases h
    exact hprincipals

variable [LawfulCase]

/-- The principals of a certificate: the address in lower case, and what stands before its first
sign. -/
theorem principals_of_issued (hfront : '@' ∉ front) (he : e.text.toList = front ++ '@' :: rest)
    (h : ca.Issued e s) : s.principals = [toLowercase e.text.toList, toLowercase front] := by
  have hlower := LawfulCase.toLowercase_append front rest
  have hno : ∀ c ∈ toLowercase front, (c == '@') = false := by
    intro c hc
    rw [beq_eq_false_iff_ne]
    rintro rfl
    exact hfront (LawfulCase.sign_mem hc)
  have hidx : (toLowercase e.text.toList).findIdx? (· == '@') =
    some (toLowercase front).length := by
    rw [he, hlower, List.findIdx?_append, List.findIdx?_eq_none_iff.mpr hno]
    simp [List.findIdx?_cons]
  have hprincipals := h.principals
  simp only [extractPrincipals, trim_text, hidx] at hprincipals
  split at hprincipals
  · cases hprincipals
  · rw [← Except.ok.inj hprincipals, he, hlower]
    simp

/-- **When principals name one user.**  Of two users with certificates, the address of the first is
a principal of the second exactly when the full lower case of their addresses is the same; and the
short principal is the lower-cased local part — what stands before the last sign — exactly when that
part has no sign itself. -/
theorem principals_name_one_user_iff (hvalid₁ : Email.isValidAddress e₁.text.toList = true)
    (hvalid₂ : Email.isValidAddress e₂.text.toList = true) (h₁ : ca.Issued e₁ s₁)
    (h₂ : ca.Issued e₂ s₂) :
    ∃ full short front domain, s₁.principals = [full, short] ∧
      rsplitOnce '@' e₁.text.toList = some (front, domain) ∧
      (full ∉ s₂.principals ↔ toLowercase e₁.text.toList ≠ toLowercase e₂.text.toList) ∧
      (short = toLowercase front ↔ '@' ∉ front) := by
  obtain ⟨front, domain, hlocal⟩ := exists_rsplitOnce hvalid₁
  obtain ⟨front₂, domain₂, hlocal₂⟩ := exists_rsplitOnce hvalid₂
  have he₁ := (rsplitOnce_eq_some hlocal).1
  have he₂ := (rsplitOnce_eq_some hlocal₂).1
  have hsigned : ∀ a b : List Char, '@' ∈ toLowercase (a ++ '@' :: b) := by
    intro a b
    rw [LawfulCase.toLowercase_append]
    simp
  -- The address itself is never taken for a short principal, which has no sign.
  have hfull : toLowercase e₁.text.toList ∉ s₂.principals ↔
      toLowercase e₁.text.toList ≠ toLowercase e₂.text.toList := by
    obtain ⟨first, rest, hfirst, hnot⟩ := List.eq_append_cons_of_mem
      (show '@' ∈ e₂.text.toList by rw [he₂]; simp)
    have hne : toLowercase e₁.text.toList ≠ toLowercase first :=
      fun heq => hnot (LawfulCase.sign_mem (heq ▸ he₁ ▸ hsigned front domain))
    rw [principals_of_issued hnot hfirst h₂]
    simp [hne]
  by_cases hsign : '@' ∈ front
  · obtain ⟨first, rest, rfl, hnot⟩ := List.eq_append_cons_of_mem hsign
    have hshort : toLowercase first ≠ toLowercase (first ++ '@' :: rest) :=
      fun heq => hnot (LawfulCase.sign_mem (heq ▸ hsigned first rest))
    have hfirst : e₁.text.toList = first ++ '@' :: (rest ++ '@' :: domain) := by
      rw [he₁, List.append_assoc, List.cons_append]
    exact ⟨_, _, _, domain, principals_of_issued hnot hfirst h₁, hlocal, hfull, by simp [hshort]⟩
  · exact ⟨_, _, front, domain, principals_of_issued hsign he₁ h₁, hlocal, hfull, by simp [hsign]⟩

end Principals

/-- A case mapping that agrees with Unicode on ASCII and on one letter beside it. -/
def latinLower (c : Char) : Char := if c = 'É' then 'é' else c.toLower

local instance latinCase : UnicodeCase := ⟨fun s => String.ofList (s.toList.map latinLower)⟩

local instance latinCase_lawful : LawfulCase where
  toLowercase_append a b := by
    simp only [toLowercase, UnicodeCase.toLowercase, String.toList_ofList, List.map_append,
      List.map_cons]
    rfl
  sign_mem {a} h := by
    simp only [toLowercase, UnicodeCase.toLowercase, String.toList_ofList, List.mem_map] at h
    obtain ⟨c, hc, hlower⟩ := h
    unfold latinLower at hlower
    split at hlower
    · exact absurd hlower (by decide)
    · exact sign_mem_asciiLowercase.mp (List.mem_map.mpr ⟨c, hc, hlower⟩)

/-- An authority that signs whatever it is given. -/
def sampleCa : SshCa Unit := ⟨['v'], fun _ => .ok (), fun _ => .ok "certificate"⟩

/-- The principals of a certificate for a user. -/
def samplePrincipals (raw : String) : Except String (List (List Char)) :=
  (sampleCa.signCertificate "key" (Email.new raw).text.toList 1 0 0).map (·.principals)

/-- Two users of the server with the same principals, and an address whose short principal is not
its local part `a@b`. -/
theorem principals_of_two_users :
    Email.new "É@x" ≠ Email.new "é@x" ∧ samplePrincipals "É@x" = .ok ["é@x".toList, ['é']] ∧
      samplePrincipals "é@x" = .ok ["é@x".toList, ['é']] ∧
      samplePrincipals "a@b@c" = .ok ["a@b@c".toList, ['a']] := by
  decide

/-- The principals of two users of ASCII addresses. -/
theorem principals_name_one_user_ascii :
    ∃ s₁ s₂ : SignedCertificate, sampleCa.Issued (Email.new "a@x") s₁ ∧
      sampleCa.Issued (Email.new "b@x") s₂ ∧ s₁.principals = ["a@x".toList, ['a']] ∧
      ∃ full short front domain, s₁.principals = [full, short] ∧
        rsplitOnce '@' (Email.new "a@x").text.toList = some (front, domain) ∧
        full ∉ s₂.principals ∧ short = toLowercase front := by
  have hissued : ∀ raw s, sampleCa.signCertificate "key" (Email.new raw).text.toList 1 0 0 = .ok s →
      sampleCa.Issued (Email.new raw) s := fun _ _ h => ⟨"key", 1, 0, 0, h⟩
  have hfirst := hissued "a@x" _ rfl
  have hsecond := hissued "b@x" _ rfl
  obtain ⟨full, short, front, domain, hprincipals, hsplit, hfull, hshort⟩ :=
    principals_name_one_user_iff (by decide) (by decide) hfirst hsecond
  have hfront : front = ['a'] := by
    have hsplit' : rsplitOnce '@' (Email.new "a@x").text.toList = some (['a'], ['x']) := by decide
    rw [hsplit'] at hsplit
    cases hsplit
    rfl
  exact ⟨_, _, hfirst, hsecond, rfl, full, short, front, domain, hprincipals, hsplit,
    hfull.mpr (by decide), hshort.mpr (by rw [hfront]; decide)⟩

end Vouch.Ssh
