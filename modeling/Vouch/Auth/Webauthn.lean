
/-!
# Verifying a WebAuthn assertion

The checks a login assertion has to pass (`crypto/webauthn_verify.rs`, the assertion half): the
authenticator data is for this relying party and has its flags set, the client data is what the
browser was asked to sign, the signature covers both, and the signature counter may follow the one
that is stored.

* `SignCounter.admits` is the rule for counters.  Both the verifier and the commit of the counter
  apply it, the one to the counter read at lookup, the other to the row it writes.
* `verifyAssertionInner` is the verifier, up to the clock reading its result is stamped with.

The digest, the JSON reader, the signature schemes and the URL parser are third-party code and stand
as the fields of `WebauthnLibrary`.
-/

namespace Vouch

/-- Why an assertion was refused. -/
inductive VerifyError
  | invalidAuthDataLength
  | rpIdMismatch
  | userNotPresent
  | userNotVerified
  | invalidClientData (text : String)
  | challengeMismatch
  | invalidOrigin
  | invalidCoseKey (text : String)
  | unsupportedAlgorithm (alg : Int)
  | signatureInvalid
  | counterNotIncreasing
  deriving DecidableEq, Repr

/-- Whether loopback origins may differ from the expected one. -/
inductive OriginPolicy
  | strict
  | allowLoopbackVariations
  deriving DecidableEq, Repr

/-- Whether another port of the loopback host is the same origin. -/
def OriginPolicy.allowsLoopbackVariation : OriginPolicy → Bool
  | strict => false
  | allowLoopbackVariations => true

/-- The client data a browser signs. -/
structure ClientData where
  type : String
  challenge : String
  origin : String

/-- The third-party code behind the verifier. -/
structure WebauthnLibrary where
  sha256 : List UInt8 → List UInt8
  /-- The client data, or why it is not JSON of that shape. -/
  clientDataFromSlice : List UInt8 → Except String ClientData
  /-- The signature check of a COSE key. -/
  verifyCose (publicKey signedData signature : List UInt8) : Except VerifyError Unit
  /-- Whether a text is a URL whose host is a loopback one. -/
  isLoopbackOrigin : String → Bool
  /-- base64url without padding. -/
  encodeBase64Url : List UInt8 → String
  decodeBase64Url : String → Option (List UInt8)

/-- What an assertion is verified against. -/
structure AssertionParams where
  authenticatorData : List UInt8
  clientDataJson : List UInt8
  signature : List UInt8
  publicKeyCose : List UInt8
  expectedRpId : String
  expectedChallenge : String
  expectedOrigin : String
  storedCounter : UInt32
  requireUserVerification : Bool
  originPolicy : OriginPolicy

/-- A stored signature counter. -/
structure SignCounter where
  value : UInt32
  deriving DecidableEq, Repr

/-- Whether an assertion that reports `presented` may follow: the stored counter is zero, or the
presented one exceeds it. -/
def SignCounter.admits (stored : SignCounter) (presented : UInt32) : Bool :=
  stored.value == 0 || stored.value < presented

theorem SignCounter.admits_iff {stored : SignCounter} {presented : UInt32} :
    stored.admits presented = true ↔ stored.value = 0 ∨ stored.value < presented := by
  simp [admits]

/-- Four bytes, the most significant first. -/
def u32FromBeBytes : List UInt8 → Option UInt32
  | [a, b, c, d] =>
    some (UInt32.ofNat (((a.toNat * 256 + b.toNat) * 256 + c.toNat) * 256 + d.toNat))
  | _ => none

/-- The origin of the client data has to be the expected one, or both are loopback ones and the
policy tolerates that. -/
def verifyOrigin (lib : WebauthnLibrary) (presentedOrigin expectedOrigin : String)
    (policy : OriginPolicy) : Except VerifyError Unit :=
  if presentedOrigin = expectedOrigin then .ok ()
  else if policy.allowsLoopbackVariation && lib.isLoopbackOrigin expectedOrigin &&
      lib.isLoopbackOrigin presentedOrigin then .ok ()
  else .error .invalidOrigin

/-- The type of the client data of an assertion. -/
def clientDataTypeGet : String := "webauthn.get"

/-- The flags of the authenticator data: the user is present, and verified if that is required. -/
def verifyFlags (params : AssertionParams) (flags : UInt8) : Except VerifyError Bool :=
  let userVerified := flags &&& 0x04 != 0
  if flags &&& 0x01 == 0 then .error .userNotPresent
  else if params.requireUserVerification && !userVerified then .error .userNotVerified
  else .ok userVerified

/-- The client data has to be of an assertion, for this challenge and from this origin. -/
def verifyClientData (lib : WebauthnLibrary) (params : AssertionParams) : Except VerifyError Unit :=
  match lib.clientDataFromSlice params.clientDataJson with
  | .error e => .error (.invalidClientData e)
  | .ok clientData =>
    if clientData.type ≠ clientDataTypeGet then
      let got := clientData.type
      .error (.invalidClientData s!"Expected type '{clientDataTypeGet}', got '{got}'")
    else if clientData.challenge ≠ params.expectedChallenge then .error .challengeMismatch
    else verifyOrigin lib clientData.origin params.expectedOrigin params.originPolicy

/-- Verify an assertion: the counter it reports, and whether the user was verified. -/
def verifyAssertionInner (lib : WebauthnLibrary) (params : AssertionParams) :
    Except VerifyError (UInt32 × Bool) := do
  if params.authenticatorData.length < 37 then
    .error .invalidAuthDataLength
  else if params.authenticatorData.take 32 ≠ lib.sha256 params.expectedRpId.toUTF8.data.toList then
    .error .rpIdMismatch
  else
    match params.authenticatorData.drop 32 with
    | [] => .error .invalidAuthDataLength
    | flags :: rest =>
      let userVerified ← verifyFlags params flags
      match u32FromBeBytes (rest.take 4) with
      | none => .error .invalidAuthDataLength
      | some counter =>
        verifyClientData lib params
        lib.verifyCose params.publicKeyCose
          (params.authenticatorData ++ lib.sha256 params.clientDataJson) params.signature
        if SignCounter.admits ⟨params.storedCounter⟩ counter then
          .ok (counter, userVerified)
        else
          .error .counterNotIncreasing

end Vouch
