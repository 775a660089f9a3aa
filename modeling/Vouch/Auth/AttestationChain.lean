import Mathlib.Data.List.Chain
import Vouch.Email
import Vouch.Lib.Result

/-!
# Attestation certificates

A security key proves its make by a chain of certificates, from that of its own attestation key to
one signed by a pinned root of the vendor (`crypto/attestation_chain.rs`).

* `Certificate`, `AttestationLibrary` — what the code reads off a certificate, and the decoders and
  signature algorithms it calls.
* `validateAttestationChain` — every certificate is signed by the next and the last by a pinned
  root, the first one meets the requirements on attestation certificates, and its AAGUID is that of
  the key.
* `validateAttestationChain_ok` — all that acceptance says.
* `attestation_chain_sound_iff` — an accepted list is a chain in which only certification
  authorities sign, with a leaf that is none and the right AAGUID, exactly when all listed
  certificates but the first are those of certification authorities.  The code does not look:
  `device_key_vouches` is a list in which the key of one device signs the attestation certificate of
  another.
-/

namespace Vouch.Attestation

open Result

/-! ## Certificates -/

/-- An X.509 extension, named by its object identifier. -/
structure Extension where
  extnId : String
  critical : Bool
  extnValue : List UInt8
  deriving DecidableEq

/-- The version of a certificate. -/
inductive Version
  | V1
  | V2
  | V3
  deriving DecidableEq, Repr

/-- `x509_cert::Certificate`, as far as it is read: the encodings of its signed part and of its
public key, which may fail, its signature, its version and its extensions. -/
structure Certificate where
  tbsDer : Except String (List UInt8)
  spkiDer : Except String (List UInt8)
  signatureAlgorithm : String
  signature : List UInt8
  version : Version
  extensions : Option (List Extension)
  deriving DecidableEq

/-- The verification algorithms of `aws_lc_rs` in use. -/
inductive VerificationAlgorithm
  | ecdsaP256Sha256Asn1
  | rsaPkcs1Sha256
  | rsaPkcs1Sha384
  | rsaPkcs1Sha512
  deriving DecidableEq

/-- Decoding and verification by other crates. -/
structure AttestationLibrary where
  /-- `Certificate::from_der`. -/
  fromDer : List UInt8 → Except String Certificate
  /-- `SubjectPublicKeyInfoRef::from_der`, with the raw bytes of the key. -/
  publicKey : List UInt8 → Except String (List UInt8)
  /-- `BasicConstraints::from_der`, with its `cA` component. -/
  basicConstraints : List UInt8 → Except String Bool
  /-- `UnparsedPublicKey::verify` of a message and a signature. -/
  verify : VerificationAlgorithm → List UInt8 → List UInt8 → List UInt8 → Except String Unit

/-- `AttestationChainError`. -/
inductive AttestationChainError
  | emptyChain
  | certParse (text : String)
  | untrustedRoot
  | signatureInvalid (text : String)
  | aaguidMismatch (cert authData : String)
  | unsupportedAlgorithm (text : String)
  | certRequirements (text : String)
  deriving DecidableEq, Repr

/-- `AttestationProof`: the AAGUID in the leaf. -/
structure AttestationProof where
  certAaguid : Option String
  deriving DecidableEq

/-- `BASIC_CONSTRAINTS`. -/
def oidBasicConstraints : String := "2.5.29.19"

/-- `FIDO_GEN_CE_AAGUID`. -/
def oidFidoAaguid : String := "1.3.6.1.4.1.45724.1.1.4"

/-- A certificate with Basic Constraints in which `cA` is true. -/
def IsCa (lib : AttestationLibrary) (cert : Certificate) : Prop :=
  ∃ ext ∈ cert.extensions.getD [], ext.extnId = oidBasicConstraints ∧
    lib.basicConstraints ext.extnValue = .ok true

/-- The pinned roots, which are certification authorities. -/
structure PinnedRoots (lib : AttestationLibrary) where
  certs : List Certificate
  ca : ∀ root ∈ certs, IsCa lib root

/-! ## Validation -/

section Validation

variable (lib : AttestationLibrary)

/-- An error of another crate, with what was attempted. -/
def wrap {α : Type} (wrapper : String → AttestationChainError) (text : String) :
    Except String α → Except AttestationChainError α
  | .ok a => .ok a
  | .error e => .error (wrapper (text ++ e))

/-- `extract_spki_bytes`. -/
def extractSpkiBytes (cert : Certificate) : Except AttestationChainError (List UInt8) :=
  wrap .certParse "Failed to encode SPKI: " cert.spkiDer

/-- The algorithm of a signature, with the label its failures are reported under. -/
def algorithmOf (oid : String) : Option (VerificationAlgorithm × String) :=
  if oid = "1.2.840.10045.4.3.2" then some (.ecdsaP256Sha256Asn1, "ECDSA-SHA256: ")
  else if oid = "1.2.840.113549.1.1.11" then some (.rsaPkcs1Sha256, "RSA: ")
  else if oid = "1.2.840.113549.1.1.12" then some (.rsaPkcs1Sha384, "RSA: ")
  else if oid = "1.2.840.113549.1.1.13" then some (.rsaPkcs1Sha512, "RSA: ")
  else none

/-- `verify_cert_signature`. -/
def verifyCertSignature (subject : Certificate) (issuerSpkiDer : List UInt8) :
    Except AttestationChainError Unit := do
  let tbsBytes ← wrap .certParse "Failed to encode TBS: " subject.tbsDer
  let pkBytes ← wrap .certParse "Failed to parse SPKI: " (lib.publicKey issuerSpkiDer)
  match algorithmOf subject.signatureAlgorithm with
  | some (algorithm, label) =>
    wrap .signatureInvalid label (lib.verify algorithm pkBytes tbsBytes subject.signature)
  | none => .error (.unsupportedAlgorithm subject.signatureAlgorithm)

/-- The certificates of the list from the `i`-th on. -/
def parseCertificates (i : Nat) :
    List (List UInt8) → Except AttestationChainError (List Certificate)
  | [] => .ok []
  | der :: rest => do
    let cert ← wrap .certParse s!"cert[{i}]: " (lib.fromDer der)
    let certs ← parseCertificates (i + 1) rest
    .ok (cert :: certs)

/-- Each certificate is signed by the next. -/
def verifyLinks : List Certificate → Except AttestationChainError Unit
  | subject :: issuer :: rest => do
    let issuerPkBytes ← extractSpkiBytes issuer
    verifyCertSignature lib subject issuerPkBytes
    verifyLinks (issuer :: rest)
  | _ => .ok ()

/-- Whether some root signed the certificate. -/
def signedByRoot (cert : Certificate) : List Certificate → Except AttestationChainError Bool
  | [] => .ok false
  | root :: roots => do
    let rootPkBytes ← extractSpkiBytes root
    match verifyCertSignature lib cert rootPkBytes with
    | .ok () => .ok true
    | .error _ => signedByRoot cert roots

/-- The loop of `check_attestation_cert_requirements` over the extensions. -/
def checkBasicConstraints : List Extension → Except AttestationChainError Unit
  | [] => .ok ()
  | ext :: rest =>
    if ext.extnId ≠ oidBasicConstraints then checkBasicConstraints rest
    else do
      let ca ← wrap .certRequirements "Basic Constraints extension is not parseable: "
        (lib.basicConstraints ext.extnValue)
      if ca then .error (.certRequirements "Basic Constraints has the CA component set to true")
      else checkBasicConstraints rest

/-- `check_attestation_cert_requirements`. -/
def checkAttestationCertRequirements (leaf : Certificate) : Except AttestationChainError Unit :=
  match leaf.version with
  | .V3 => checkBasicConstraints lib (leaf.extensions.getD [])
  | .V1 => .error (.certRequirements "attestation certificate version is V1, must be V3")
  | .V2 => .error (.certRequirements "attestation certificate version is V2, must be V3")

/-- Bytes in hexadecimal. -/
def hexBytes (bytes : List UInt8) : List Char :=
  bytes.flatMap fun b => [Nat.digitChar (b.toNat / 16), Nat.digitChar (b.toNat % 16)]

/-- `format_aaguid`: the hyphenated form of a UUID. -/
def formatAaguid (bytes : List UInt8) : String :=
  if bytes.length = 16 then
    let hex := hexBytes bytes
    let group := fun start len => (hex.drop start).take len
    String.ofList (group 0 8 ++ '-' :: group 8 4 ++ '-' :: group 12 4 ++ '-' :: group 16 4 ++
      '-' :: group 20 12)
  else ""

/-- The loop of `extract_aaguid_from_cert`: the first extension that has an AAGUID counts. -/
def findAaguid : List Extension → Except AttestationChainError (Option String)
  | [] => .ok none
  | ext :: rest =>
    if ext.extnId ≠ oidFidoAaguid then findAaguid rest
    else if ext.critical then
      .error (.certRequirements "id-fido-gen-ce-aaguid extension is marked critical")
    else
      let length := ext.extnValue.length
      match ext.extnValue with
      | 0x04 :: 0x10 :: inner =>
        if inner.length = 16 then .ok (some (formatAaguid inner))
        else .error (.certRequirements
          ("id-fido-gen-ce-aaguid value is not an OCTET STRING wrapping " ++
            s!"16 bytes ({length} bytes)"))
      | _ => .error (.certRequirements
          ("id-fido-gen-ce-aaguid value is not an OCTET STRING wrapping " ++
            s!"16 bytes ({length} bytes)"))

/-- `extract_aaguid_from_cert`. -/
def extractAaguidFromCert (cert : Certificate) : Except AttestationChainError (Option String) :=
  findAaguid (cert.extensions.getD [])

/-- The AAGUIDs of the leaf and of the authenticator data, if there are both. -/
def crossCheckAaguid : Option String → Option String → Except AttestationChainError Unit
  | some cert, some authData =>
    if !eqIgnoreAsciiCase cert authData then .error (.aaguidMismatch cert authData) else .ok ()
  | _, _ => .ok ()

/-- `validate_attestation_chain`. -/
def validateAttestationChain (roots : PinnedRoots lib) (x5cCerts : List (List UInt8))
    (authDataAaguid : Option String) : Except AttestationChainError AttestationProof := do
  if x5cCerts.isEmpty then .error .emptyChain
  else
    let certs ← parseCertificates lib 0 x5cCerts
    verifyLinks lib certs
    let lastCert ← okOr certs.getLast? .emptyChain
    let trusted ← signedByRoot lib lastCert roots.certs
    if !trusted then .error .untrustedRoot
    else
      let leaf ← okOr certs.head? .emptyChain
      checkAttestationCertRequirements lib leaf
      let certAaguid ← extractAaguidFromCert leaf
      crossCheckAaguid certAaguid authDataAaguid
      .ok ⟨certAaguid⟩

end Validation

/-! ## What acceptance says -/

section Acceptance

variable {lib : AttestationLibrary}

/-- The signature of a certificate verifies under the key of another. -/
def SignedBy (lib : AttestationLibrary) (subject issuer : Certificate) : Prop :=
  ∃ spki, extractSpkiBytes issuer = .ok spki ∧ verifyCertSignature lib subject spki = .ok ()

theorem isChain_of_verifyLinks : ∀ {certs : List Certificate}, verifyLinks lib certs = .ok () →
    certs.IsChain (SignedBy lib)
  | [], _ => .nil
  | [cert], _ => .singleton cert
  | subject :: issuer :: rest, h => by
    rw [verifyLinks] at h
    obtain ⟨spki, hspki, h⟩ := bind_eq_ok.1 h
    obtain ⟨⟨⟩, hverify, h⟩ := bind_eq_ok.1 h
    exact List.isChain_cons_cons.2 ⟨⟨spki, hspki, hverify⟩, isChain_of_verifyLinks h⟩

theorem exists_root_of_signedByRoot {cert : Certificate} : ∀ {roots : List Certificate},
    signedByRoot lib cert roots = .ok true → ∃ root ∈ roots, SignedBy lib cert root
  | [], h => by cases h
  | root :: roots, h => by
    rw [signedByRoot] at h
    obtain ⟨spki, hspki, h⟩ := bind_eq_ok.1 h
    split at h
    · rename_i hverify
      exact ⟨root, List.mem_cons_self, spki, hspki, hverify⟩
    · obtain ⟨other, hmem, hsigned⟩ := exists_root_of_signedByRoot h
      exact ⟨other, List.mem_cons_of_mem root hmem, hsigned⟩

theorem wrap_eq_ok {α : Type} {wrapper : String → AttestationChainError} {text : String}
    {x : Except String α} {a : α} : wrap wrapper text x = .ok a ↔ x = .ok a := by
  cases x with
  | ok b => simp [wrap]
  | error e => simp [wrap]

theorem not_ca_of_checkBasicConstraints : ∀ {extensions : List Extension},
    checkBasicConstraints lib extensions = .ok () → ∀ ext ∈ extensions,
      ext.extnId = oidBasicConstraints → lib.basicConstraints ext.extnValue ≠ .ok true
  | [], _ => fun ext hext => absurd hext List.not_mem_nil
  | first :: rest, h => by
    rw [checkBasicConstraints] at h
    intro ext hext hid hca
    split at h
    · rename_i hother
      rcases List.mem_cons.1 hext with rfl | hext
      · exact hother hid
      · exact not_ca_of_checkBasicConstraints h ext hext hid hca
    · obtain ⟨ca, hparse, h⟩ := bind_eq_ok.1 h
      split at h
      · cases h
      · rename_i hfalse
        rcases List.mem_cons.1 hext with rfl | hext
        · rw [wrap_eq_ok.1 hparse] at hca
          exact hfalse (Except.ok.inj hca)
        · exact not_ca_of_checkBasicConstraints h ext hext hid hca

theorem not_isCa_of_checkRequirements {leaf : Certificate}
    (h : checkAttestationCertRequirements lib leaf = .ok ()) : ¬ IsCa lib leaf := by
  rintro ⟨ext, hext, hid, hca⟩
  rw [checkAttestationCertRequirements] at h
  split at h
  · exact not_ca_of_checkBasicConstraints h ext hext hid hca
  · cases h
  · cases h

theorem eq_of_crossCheckAaguid {cert authData : String}
    (h : crossCheckAaguid (some cert) (some authData) = .ok ()) :
    asciiLowercase cert.toList = asciiLowercase authData.toList := by
  rw [crossCheckAaguid] at h
  split at h
  · cases h
  · rename_i hsame
    simpa [eqIgnoreAsciiCase] using hsame

/-- **What acceptance says** of the certificates of a list: there is a leaf, a chain of signatures
leads from it to a pinned root, it is not a certification authority, and its AAGUID was checked. -/
theorem validateAttestationChain_ok {roots : PinnedRoots lib} {x5cCerts : List (List UInt8)}
    {authDataAaguid : Option String} {proof : AttestationProof} {certs : List Certificate}
    (h : validateAttestationChain lib roots x5cCerts authDataAaguid = .ok proof)
    (hcerts : parseCertificates lib 0 x5cCerts = .ok certs) :
    (∃ root ∈ roots.certs, (certs ++ [root]).IsChain (SignedBy lib)) ∧
      ∃ leaf, certs.head? = some leaf ∧ ¬ IsCa lib leaf ∧
        extractAaguidFromCert leaf = .ok proof.certAaguid ∧
        crossCheckAaguid proof.certAaguid authDataAaguid = .ok () := by
  rw [validateAttestationChain] at h
  split at h
  · cases h
  · rw [hcerts, ok_bind] at h
    obtain ⟨⟨⟩, hlinks, h⟩ := bind_eq_ok.1 h
    obtain ⟨lastCert, hlast, h⟩ := bind_eq_ok.1 h
    obtain ⟨trusted, htrusted, h⟩ := bind_eq_ok.1 h
    split at h
    · cases h
    · rename_i htrue
      obtain ⟨leaf, hleaf, h⟩ := bind_eq_ok.1 h
      obtain ⟨⟨⟩, hrequirements, h⟩ := bind_eq_ok.1 h
      obtain ⟨certAaguid, haaguid, h⟩ := bind_eq_ok.1 h
      obtain ⟨⟨⟩, hcheck, h⟩ := bind_eq_ok.1 h
      cases h
      obtain rfl : trusted = true := by simpa using htrue
      obtain ⟨root, hroot, hsigned⟩ := exists_root_of_signedByRoot htrusted
      refine ⟨⟨root, hroot, ?_⟩, leaf, okOr_eq_ok.1 hleaf,
        not_isCa_of_checkRequirements hrequirements, haaguid, hcheck⟩
      refine (isChain_of_verifyLinks hlinks).append (.singleton root) fun last hmem
        other hother => ?_
      rw [okOr_eq_ok.1 hlast] at hmem
      cases hmem
      cases hother
      exact hsigned

/-- The list is a chain down from a pinned root in which whoever signs is a certification authority;
the leaf is none; and where the leaf and the authenticator data both have an AAGUID, it is the
same. -/
structure ChainSound (lib : AttestationLibrary) (roots : PinnedRoots lib) (certs : List Certificate)
    (authDataAaguid : Option String) : Prop where
  path : ∃ root ∈ roots.certs, (certs ++ [root]).IsChain (SignedBy lib) ∧
    ∀ issuer ∈ certs.tail ++ [root], IsCa lib issuer
  leaf : ∃ leaf, certs.head? = some leaf ∧ ¬ IsCa lib leaf ∧
    ∀ cert authData, extractAaguidFromCert leaf = .ok (some cert) → authDataAaguid = some authData →
      asciiLowercase cert.toList = asciiLowercase authData.toList

/-- **Attestation chains.**  An accepted list is sound exactly when all its certificates but the
first are those of certification authorities. -/
theorem attestation_chain_sound_iff (roots : PinnedRoots lib) (x5cCerts : List (List UInt8))
    (authDataAaguid : Option String) (proof : AttestationProof) (certs : List Certificate)
    (h : validateAttestationChain lib roots x5cCerts authDataAaguid = .ok proof)
    (hcerts : parseCertificates lib 0 x5cCerts = .ok certs) :
    ChainSound lib roots certs authDataAaguid ↔ ∀ issuer ∈ certs.tail, IsCa lib issuer := by
  obtain ⟨⟨root, hroot, hchain⟩, leaf, hleaf, hca, haaguid, hcheck⟩ :=
    validateAttestationChain_ok h hcerts
  constructor
  · rintro ⟨⟨other, -, -, hissuers⟩, -⟩ issuer hissuer
    exact hissuers issuer (List.mem_append_left _ hissuer)
  · intro hissuers
    refine ⟨⟨root, hroot, hchain, fun issuer hissuer => ?_⟩, leaf, hleaf, hca, ?_⟩
    · rcases List.mem_append.1 hissuer with hissuer | hissuer
      · exact hissuers issuer hissuer
      · obtain rfl := List.mem_singleton.1 hissuer
        exact roots.ca issuer hroot
    · rintro cert authData hcert rfl
      rw [haaguid] at hcert
      rw [Except.ok.inj hcert] at hcheck
      exact eq_of_crossCheckAaguid hcheck

end Acceptance

section Device

/-- A certificate with the given key, signed by the owner of another, with or without Basic
Constraints.  The key and the signature are one byte each. -/
def sampleCertificate (key signer : UInt8) (extensions : List Extension) : Certificate where
  tbsDer := .ok [key]
  spkiDer := .ok [key]
  signatureAlgorithm := "1.2.840.10045.4.3.2"
  signature := [key, signer]
  version := .V3
  extensions := some extensions

/-- Basic Constraints with `cA` as given. -/
def sampleConstraints (ca : Bool) : Extension := ⟨oidBasicConstraints, false, [if ca then 1 else 0]⟩

/-- The root, an authority under it, a device the root certified, and the claim of another AAGUID
signed with the key of that device, or by the authority. -/
def sampleDer : List UInt8 → Except String Certificate
  | [0] => .ok (sampleCertificate 0 0 [sampleConstraints true])
  | [1] => .ok (sampleCertificate 1 0 [sampleConstraints false])
  | [2] => .ok (sampleCertificate 2 1
      [sampleConstraints false, ⟨oidFidoAaguid, false, 0x04 :: 0x10 :: List.replicate 16 7⟩])
  | [3] => .ok (sampleCertificate 3 0 [sampleConstraints true])
  | [4] => .ok (sampleCertificate 4 3 [sampleConstraints false])
  | _ => .error "not a certificate"

/-- A signature is the signed text followed by the key. -/
def sampleLibrary : AttestationLibrary where
  fromDer := sampleDer
  publicKey := .ok
  basicConstraints value := .ok (value == [1])
  verify _ key message signature :=
    if signature = message ++ key then .ok () else .error "bad signature"

theorem isCa_sampleRoot : IsCa sampleLibrary (sampleCertificate 0 0 [sampleConstraints true]) :=
  ⟨sampleConstraints true, List.mem_cons_self, rfl, rfl⟩

/-- The root is pinned. -/
def sampleRoots : PinnedRoots sampleLibrary where
  certs := [sampleCertificate 0 0 [sampleConstraints true]]
  ca := by
    intro root hroot
    obtain rfl := List.mem_singleton.1 hroot
    exact isCa_sampleRoot

/-- The key of a device certifies another attestation certificate, with an AAGUID of its own choice,
and the list is accepted. -/
theorem device_key_vouches :
    validateAttestationChain sampleLibrary sampleRoots [[2], [1]] none =
        .ok ⟨some "07070707-0707-0707-0707-070707070707"⟩ ∧
      parseCertificates sampleLibrary 0 [[2], [1]] =
        .ok [sampleCertificate 2 1
          [sampleConstraints false, ⟨oidFidoAaguid, false, 0x04 :: 0x10 :: List.replicate 16 7⟩],
          sampleCertificate 1 0 [sampleConstraints false]] ∧
      ¬ IsCa sampleLibrary (sampleCertificate 1 0 [sampleConstraints false]) := by
  refine ⟨by decide +kernel, by decide +kernel, ?_⟩
  rintro ⟨ext, hext, -, hca⟩
  obtain rfl := List.mem_singleton.1 hext
  exact absurd hca (by decide)

/-- A device that an authority under the root certified. -/
theorem attestation_chain_sound_authority :
    ChainSound sampleLibrary sampleRoots
      [sampleCertificate 4 3 [sampleConstraints false],
        sampleCertificate 3 0 [sampleConstraints true]]
      none := by
  refine (attestation_chain_sound_iff sampleRoots [[4], [3]] none ⟨none⟩ _ (by decide +kernel)
    (by decide +kernel)).2 fun issuer hissuer => ?_
  obtain rfl := List.mem_singleton.1 hissuer
  exact ⟨sampleConstraints true, List.mem_cons_self, rfl, rfl⟩

end Device

end Vouch.Attestation
