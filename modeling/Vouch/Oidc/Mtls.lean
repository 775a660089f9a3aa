import Vouch.Lib.IpAddr
import Vouch.Oidc.DistinguishedName

/-!
# Authentication by client certificate

A client of the method `tls_client_auth` (RFC 8705 §2.1) registers one subject name or one
alternative name, and presents a certificate that has it (`services/oidc/mtls.rs`).

* `ClientCertificate`, `ValidatedChain` — what is read off a certificate, and a certificate whose
  chain was accepted, which is the only kind that is matched.
* `NameLibrary` — the reader and printer of names, as far as the code uses them.
* `verifyTlsClientAuth` — the match: names are compared by the form they are printed in after they
  were read, and as text if either cannot be read.
* `dn_matching_exact_iff` — both names survive the treatment of blanks, and the certificate of one
  client does not pass for that of another, exactly when no value of either begins or ends with
  white space outside ASCII.
-/

namespace Vouch

open Dn Net

/-! ## The code -/

/-- What is read off a client certificate. -/
structure ClientCertificate where
  subjectDn : Option String
  sanDns : List String
  sanEmail : List String
  sanUri : List String
  sanIp : List IpAddr

/-- A certificate whose chain the trust store accepts. -/
structure ValidatedChain (accepts : ClientCertificate → Bool) where
  cert : ClientCertificate
  valid : accepts cert = true

/-- `MtlsError`, as far as the match goes. -/
inductive MtlsError
  | subjectMismatch (expected found : String)
  | certificateNotRegistered
  deriving DecidableEq, Repr

/-- What `x509-cert` does with names: `RdnSequence::from_str`, `to_der` followed by `from_der`, and
`to_string`.  Names whose values are text are among the sequences it knows. -/
structure NameLibrary (R : Type) where
  fromStr : String → Option R
  reencode : R → Option R
  toString : R → String
  ofName : Name → R
  ofName_injective : Function.Injective ofName

/-- `canonicalize_dn`. -/
def canonicalizeDn {R : Type} (lib : NameLibrary R) (dn : String) : Option String := do
  let rdns ← lib.fromStr (String.ofList (normalizeDnSpacing dn.toList))
  let rdns ← lib.reencode rdns
  pure (lib.toString rdns)

/-- Whether two names match. -/
def dnMatches {R : Type} (lib : NameLibrary R) (expected found : String) : Bool :=
  match canonicalizeDn lib expected, canonicalizeDn lib found with
  | some e, some f => e == f
  | _, _ => expected == found

/-- One kind of alternative name: it is there, or the mismatch is reported under the kind's
label. -/
def matchSan (label expected : String) (found : List String) (isMatch : Bool) :
    Except MtlsError Unit :=
  if isMatch then .ok ()
  else .error (.subjectMismatch (label ++ expected) (label ++ ",".intercalate found))

/-- `verify_tls_client_auth`: the first field that is registered decides. -/
def verifyTlsClientAuth {R : Type} (lib : NameLibrary R) {accepts : ClientCertificate → Bool}
    (chain : ValidatedChain accepts)
    (expectedSubjectDn expectedSanDns expectedSanEmail expectedSanUri
      expectedSanIp : Option String) :
    Except MtlsError Unit :=
  let cert := chain.cert
  match expectedSubjectDn, expectedSanDns, expectedSanEmail, expectedSanUri, expectedSanIp with
  | some expected, _, _, _, _ =>
    let found := cert.subjectDn.getD ""
    if dnMatches lib expected found then .ok () else .error (.subjectMismatch expected found)
  | none, some expected, _, _, _ =>
    matchSan "DNS:" expected cert.sanDns (cert.sanDns.any fun d => eqIgnoreAsciiCase d expected)
  | none, none, some expected, _, _ =>
    matchSan "email:" expected cert.sanEmail (cert.sanEmail.contains expected)
  | none, none, none, some expected, _ =>
    matchSan "URI:" expected cert.sanUri (cert.sanUri.contains expected)
  | none, none, none, none, some expected =>
    matchSan "IP:" expected (cert.sanIp.map IpAddr.display)
      ((IpAddr.parse expected.toList).any fun addr => cert.sanIp.contains addr)
  | none, none, none, none, none => .error .certificateNotRegistered

/-- The subject name `parse_client_certificate` reads off a certificate: an empty text is none. -/
def subjectDnOf (name : Name) : Option String :=
  let s := String.ofList name.render
  if s.isEmpty then none else some s

/-! ## Matching -/

section Matching

variable {R : Type} {lib : NameLibrary R} {accepts : ClientCertificate → Bool}

/-- The library reads a printed name back, keeps it through its encoding, and prints it again. -/
structure NameLibrary.Reads (lib : NameLibrary R) (name : Name) : Prop where
  fromStr_render : lib.fromStr (String.ofList name.render) = some (lib.ofName name)
  reencode_ofName : lib.reencode (lib.ofName name) = some (lib.ofName name)
  toString_ofName : lib.toString (lib.ofName name) = String.ofList name.render

/-- A firm name is its own canonical form. -/
theorem canonicalizeDn_render {name : Name} (hlib : lib.Reads name) (hfirm : name.Firm) :
    canonicalizeDn lib (String.ofList name.render) = some (String.ofList name.render) := by
  have hspacing : normalizeDnSpacing name.render = name.render := by
    have h := (normalizeDnSpacing_eq_render_iff name.unpadded).2 (by rwa [bare_unpadded])
    rwa [render_unpadded, bare_unpadded] at h
  rw [canonicalizeDn, String.toList_ofList, hspacing, hlib.fromStr_render]
  simp [hlib.reencode_ofName, hlib.toString_ofName]

theorem getD_subjectDnOf (name : Name) :
    (subjectDnOf name).getD "" = String.ofList name.render := by
  rw [subjectDnOf]
  split
  · rename_i hempty
    exact (String.isEmpty_iff.1 hempty).symm
  · rfl

/-- What is printed is read back, so names that are printed alike are the same. -/
theorem eq_of_render_eq {m n : Name} (hm : lib.Reads m) (hn : lib.Reads n)
    (h : String.ofList m.render = String.ofList n.render) : n = m := by
  have hread := hm.fromStr_render
  rw [h, hn.fromStr_render] at hread
  exact lib.ofName_injective (Option.some.inj hread)

/-- **Subject names.**  All padded forms of two names come back bare, and a certificate for one of
them is accepted for the other only if they are the same, exactly when both are firm. -/
theorem dn_matching_exact_iff (lib : NameLibrary R) (chain : ValidatedChain accepts) (m n : Name)
    (hm : lib.Reads m) (hn : lib.Reads n) (hcert : chain.cert.subjectDn = subjectDnOf n)
    (sanDns sanEmail sanUri sanIp : Option String) :
    ((∀ padded : PaddedName, padded.bare = m → normalizeDnSpacing padded.render = m.render) ∧
      (∀ padded : PaddedName, padded.bare = n → normalizeDnSpacing padded.render = n.render) ∧
      (verifyTlsClientAuth lib chain (some (String.ofList m.render)) sanDns sanEmail sanUri sanIp =
        .ok () → n = m)) ↔
      m.Firm ∧ n.Firm := by
  have hspacing : ∀ name : Name,
      (∀ padded : PaddedName, padded.bare = name → normalizeDnSpacing padded.render = name.render) ↔
        name.Firm := by
    intro name
    constructor
    · intro h
      have hbare := (normalizeDnSpacing_eq_render_iff name.unpadded).1 (by
        rw [h name.unpadded (bare_unpadded name), bare_unpadded])
      rwa [bare_unpadded] at hbare
    · rintro hfirm padded rfl
      exact (normalizeDnSpacing_eq_render_iff padded).2 hfirm
  rw [hspacing m, hspacing n]
  refine ⟨fun h => ⟨h.1, h.2.1⟩, fun ⟨hmfirm, hnfirm⟩ => ⟨hmfirm, hnfirm, fun haccept => ?_⟩⟩
  -- Both sides are compared in the form in which they are printed.
  rw [verifyTlsClientAuth, hcert, getD_subjectDnOf, dnMatches, canonicalizeDn_render hm hmfirm,
    canonicalizeDn_render hn hnfirm] at haccept
  dsimp only at haccept
  split at haccept
  · rename_i hsame
    exact eq_of_render_eq hm hn (beq_iff_eq.1 hsame)
  · cases haccept

end Matching

/-- The name `CN=…` with one value. -/
def commonName (value : List Char) (h : value ≠ []) : Name :=
  [⟨[⟨['C', 'N'], value, by decide, h⟩], List.cons_ne_nil _ _⟩]

/-- `CN=a`. -/
def plainName : Name := commonName ['a'] (List.cons_ne_nil _ _)

/-- `CN=b`. -/
def otherName : Name := commonName ['b'] (List.cons_ne_nil _ _)

/-- `CN=a` with a no-break space behind it. -/
def spacedName : Name := commonName ['a', Char.ofNat 0xa0] (List.cons_ne_nil _ _)

/-- A library that knows these names. -/
def threeNames : NameLibrary Name where
  fromStr s :=
    if s = String.ofList plainName.render then some plainName
    else if s = String.ofList otherName.render then some otherName
    else if s = String.ofList spacedName.render then some spacedName
    else none
  reencode := some
  toString name := String.ofList name.render
  ofName := id
  ofName_injective := Function.injective_id

theorem threeNames_reads_plainName : threeNames.Reads plainName :=
  ⟨by decide +kernel, rfl, rfl⟩

theorem threeNames_reads_spacedName : threeNames.Reads spacedName :=
  ⟨by decide +kernel, rfl, rfl⟩

/-- A certificate with the given subject. -/
def certificateOf (name : Name) : ValidatedChain fun _ => true where
  cert := { subjectDn := subjectDnOf name, sanDns := [], sanEmail := [], sanUri := [], sanIp := [] }
  valid := rfl

/-- A client that registered `CN=a` followed by a no-break space: the space is taken for padding,
the registered name for `CN=a`, and a certificate for that is accepted. -/
theorem spaced_name_impersonated :
    normalizeDnSpacing spacedName.render ≠ spacedName.render ∧
      threeNames.Reads spacedName ∧ threeNames.Reads plainName ∧
      verifyTlsClientAuth threeNames (certificateOf plainName)
        (some (String.ofList spacedName.render))
        none none none none = .ok () ∧ plainName ≠ spacedName :=
  ⟨by decide +kernel, threeNames_reads_spacedName, threeNames_reads_plainName, by decide +kernel,
    by decide +kernel⟩

/-- A name of one letter is firm. -/
theorem firm_commonName {c : Char} (hc : isForeignSpace c = false) :
    (commonName [c] (List.cons_ne_nil _ _)).Firm := by
  intro rdn hrdn a ha d hd
  obtain rfl := List.mem_singleton.1 hrdn
  obtain rfl := List.mem_singleton.1 ha
  rcases hd with hd | hd
  · cases hd
    exact hc
  · cases hd
    exact hc

/-- A client that registered `CN=a` is not taken for the owner of a certificate for `CN=b`. -/
theorem dn_matching_exact_plain :
    (∀ padded : PaddedName, padded.bare = otherName →
        normalizeDnSpacing padded.render = otherName.render) ∧
      verifyTlsClientAuth threeNames (certificateOf otherName)
        (some (String.ofList plainName.render)) none none none none ≠ .ok () := by
  obtain ⟨-, hspacing, haccept⟩ :=
    (dn_matching_exact_iff threeNames (certificateOf otherName) plainName
    otherName threeNames_reads_plainName ⟨by decide +kernel, rfl, rfl⟩ rfl none none none none).2
    ⟨firm_commonName (by decide), firm_commonName (by decide)⟩
  exact ⟨hspacing, fun h => absurd (haccept h) (by decide +kernel)⟩

end Vouch
