import Vouch.Db.UsedMarkers
import Vouch.Oidc.Jwt

/-!
# DPoP proofs

The validation of a DPoP proof (`services/oidc/dpop.rs`): the header is parsed and the signature
checked under the key it embeds, the `jti` is marked as used, and then the method, the URI, the time
and the access-token hash of the proof are checked, and its nonce if there is one.

The `jti` is retained for the maximum age and the tolerated skew, counted from the arrival instant
rounded up to a second, and the proof is judged at the same instant.  So the marker of a proof that
is accepted does not expire before the proof does (`ceilSecond_le_dpopJtiExpiry`).
-/

namespace Vouch

open ReadCommitted Interleaving
open Result (bind_eq_ok)

/-! ## Data -/

/-- Validity of a nonce in seconds, before the cap below. -/
def dpopNonceValiditySeconds : Int := 300

/-- Forward clock skew that is tolerated of a proof's `iat`, in seconds. -/
def proofSkewSeconds : Int := 60

/-- How long a nonce stays valid: it never outlives the `jti` of a proof. -/
def nonceValiditySeconds (configMaxAge : Int) : Int :=
  min dpopNonceValiditySeconds (saturatingAdd configMaxAge proofSkewSeconds)

/-- The algorithms a proof may be signed with. -/
def dpopSupportedAlgorithms : List JwsAlgorithm := JwsAlgorithm.fapiAllowed

/-- The header of a proof. -/
structure DpopHeader where
  alg : JwsAlgorithm
  jwk : Jwk
  deriving DecidableEq, Repr

/-- The claims of a proof. -/
structure DpopClaims where
  jti : String
  htm : String
  htu : String
  iat : Timestamp
  nonce : Option String
  ath : Option String
  source : Option String
  /-- `iat` is an instant a timestamp can hold. -/
  iat_le_max : iat ≤ Timestamp.max

/-- Why a proof is refused.  What the store reported is kept beside the text. -/
inductive DpopError
  | missingProof
  | multipleProofs
  | invalidFormat (text : String)
  | invalidSignature
  | unsupportedAlgorithm (alg : String)
  | expired
  | replayDetected
  | methodMismatch
  | uriMismatch
  | invalidNonce
  | tokenHashMismatch
  | useNonce (nonce : String)
  | database (text : String) (cause : StoreError)
  deriving DecidableEq, Repr

/-- A proof that has been validated. -/
structure ValidatedDpopProof where
  jkt : String
  jti : String
  source : Option String
  jtiClaim : RecordClaim
  deriving DecidableEq, Repr

/-- The rest of the third-party code: Unicode case mapping, URLs and the token hash. -/
structure HttpLibrary where
  toUppercase : String → String
  /-- A URL without its query and fragment, in the form the URL parser prints. -/
  normalizeUri : String → Option String
  /-- SHA-256 of an access token, in base64url. -/
  computeAccessTokenHash : String → String

/-! ## Parsing -/

section Parsing

variable {Key : Type} (lib : JwtLibrary Key DpopClaims)

/-- Parse a proof's header. -/
def parseDpopHeader (proof : String) : Except DpopError DpopHeader :=
  match lib.parse proof with
  | .error .critical =>
    .error (.invalidFormat "DPoP proof header carries an unsupported 'crit' extension")
  | .error .privateKey =>
    .error (.invalidFormat "JWK in DPoP proof header must not contain private key material")
  | .error (.malformed reason) => .error (.invalidFormat reason)
  | .ok header =>
    match header.jwk with
    | none => .error (.invalidFormat "DPoP proof header must carry 'jwk'")
    | some jwk =>
      let typ := header.typ.getD ""
      if typ ≠ "dpop+jwt" then
        .error (.invalidFormat s!"typ must be 'dpop+jwt', got '{typ}'")
      else
        match header.alg with
        | .other text => .error (.unsupportedAlgorithm text)
        | .known alg =>
          if dpopSupportedAlgorithms.contains alg then .ok ⟨alg, jwk⟩
          else .error (.unsupportedAlgorithm alg.asStr)

/-- The verification key a header embeds. -/
def buildDecodingKey (jwk : Jwk) (alg : JwsAlgorithm) : Except DpopError Key :=
  match alg, jwk with
  | .es256, .ec x y =>
    (lib.fromEcComponents x y).mapError fun e => .invalidFormat s!"Invalid EC key: {e}"
  | .ps256, .rsa n e =>
    (lib.fromRsaComponents n e).mapError fun e => .invalidFormat s!"Invalid RSA key: {e}"
  | .edDsa, .okp x =>
    (lib.fromEdComponents x).mapError fun e => .invalidFormat s!"Invalid Ed25519 key: {e}"
  | _, _ => .error (.unsupportedAlgorithm alg.asStr)

/-- Parse a proof, verify its signature and read its claims. -/
def parseAndVerifyDpopProof (proof : String) : Except DpopError (DpopHeader × DpopClaims) := do
  let header ← parseDpopHeader lib proof
  let key ← buildDecodingKey lib header.jwk header.alg
  if header.alg = .rs256 then
    .error (.unsupportedAlgorithm header.alg.asStr)
  else
    match lib.decode proof key header.alg with
    | none => .error .invalidSignature
    | some claims => .ok (header, claims)

/-- What a proof that parses claims is its payload. -/
theorem claims_of_parseAndVerify {lib : JwtLibrary Key DpopClaims} {proof : String}
    {header : DpopHeader} {claims : DpopClaims}
    (h : parseAndVerifyDpopProof lib proof = .ok (header, claims)) :
    lib.claims proof = some claims := by
  obtain ⟨header', -, h⟩ := bind_eq_ok.mp h
  obtain ⟨key, -, h⟩ := bind_eq_ok.mp h
  split at h
  · cases h
  · split at h
    · cases h
    · rename_i hd
      cases h
      exact JwtLibrary.claims_of_decode hd

end Parsing

/-! ## Claims -/

/-- What the claims of a proof are checked against. -/
structure DpopClaimsValidation where
  now : Timestamp
  expectedMethod : String
  acceptedUris : List String
  maxAgeSeconds : Int
  expectedNonce : Option String
  expectedAth : Option String

/-- Check the claims of a proof. -/
def validateDpopClaims (http : HttpLibrary) (claims : DpopClaims) (params : DpopClaimsValidation) :
    Except DpopError Unit :=
  if http.toUppercase claims.htm ≠ http.toUppercase params.expectedMethod then
    .error .methodMismatch
  else
    match http.normalizeUri claims.htu with
    | none => .error .uriMismatch
    | some claimsUri =>
      if (params.acceptedUris.filterMap http.normalizeUri).contains claimsUri = false then
        .error .uriMismatch
      else if (ValidityWindow.issuedAt claims.iat params.maxAgeSeconds).acceptsAt params.now 0
          proofSkewSeconds = false then
        .error .expired
      else if params.expectedNonce.any fun expected => claims.nonce ≠ some expected then
        .error .invalidNonce
      else if params.expectedAth.any fun expected => claims.ath ≠ some expected then
        .error .tokenHashMismatch
      else
        .ok ()

/-- A proof whose claims are fine is fresh. -/
theorem acceptsAt_of_validateDpopClaims {http : HttpLibrary} {claims : DpopClaims}
    {params : DpopClaimsValidation} (h : validateDpopClaims http claims params = .ok ()) :
    (ValidityWindow.issuedAt claims.iat params.maxAgeSeconds).acceptsAt params.now 0
      proofSkewSeconds = true := by
  rw [validateDpopClaims] at h
  by_contra hc
  rw [Bool.not_eq_true] at hc
  rw [hc, if_pos rfl] at h
  split at h
  · cases h
  · split at h
    · cases h
    · split at h <;> cases h

/-! ## Validation -/

/-- Whether a proof has to carry a nonce. -/
inductive NoncePolicy
  | required
  | optional
  deriving DecidableEq, Repr

/-- The arrival instant, rounded up to a second. -/
def nowSecond (now : Timestamp) : Int :=
  saturatingAdd now.asSecond (if now.subsecNanosecond ≠ 0 then 1 else 0)

/-- How long the `jti` of a proof is retained. -/
def jtiRetention (configMaxAge : Int) : Int := saturatingAdd configMaxAge proofSkewSeconds

variable {Key : Type} (lib : JwtLibrary Key DpopClaims) (http : HttpLibrary)
    (crypto : DocumentCrypto)

/-- Ask the client to come back with a nonce. -/
def demandNonce [Digest] {α : Type} (configMaxAge : Int) : ExceptT DpopError (DbM Payload) α := do
  let newNonce ← mapError (.database "nonce generation failed")
    (generateDpopNonce crypto (nonceValiditySeconds configMaxAge))
  throw (.useNonce newNonce)

/-- Validate a proof that has been parsed: mark its `jti`, then check its claims and its nonce. -/
def validateParsedProof [Digest] (header : DpopHeader) (claims : DpopClaims)
    (expectedMethod : String) (acceptedUris : List String) (configMaxAge : Int)
    (expectedAth : Option String) (noncePolicy : NoncePolicy) (arrival : Timestamp) :
    ExceptT DpopError (DbM Payload) ValidatedDpopProof := do
  let jtiClaim ← mapError (fun
      | .alreadyConsumed => .replayDetected
      | .invalidInput text => .invalidFormat text
      | .database e => .database "JTI check failed" e)
    (checkAndStoreDpopJtiAtSecond crypto claims.jti (nowSecond arrival) (jtiRetention configMaxAge))
  if noncePolicy = .required ∧ claims.nonce = none then
    demandNonce crypto configMaxAge
  else
    orThrow (validateDpopClaims http claims
      { now := arrival, expectedMethod, acceptedUris, maxAgeSeconds := configMaxAge,
        expectedNonce := none, expectedAth })
    match claims.nonce with
    | none => pure ⟨lib.thumbprint header.jwk, claims.jti, claims.source, jtiClaim⟩
    | some nonce =>
      match ← attempt (validateDpopNonce nonce arrival) with
      | .ok () => pure ⟨lib.thumbprint header.jwk, claims.jti, claims.source, jtiClaim⟩
      | .error .alreadyConsumed => demandNonce crypto configMaxAge
      | .error (.invalidInput text) => throw (.invalidFormat text)
      | .error (.database e) => throw (.database "nonce validation failed" e)

/-- The checks that every DPoP proof passes, whatever it is for. -/
def validateDpopCommon [Digest] (proof expectedMethod : String) (acceptedUris : List String)
    (configMaxAge : Int) (expectedAth : Option String) (noncePolicy : NoncePolicy)
    (arrival : Timestamp) : ExceptT DpopError (DbM Payload) ValidatedDpopProof := do
  let (header, claims) ← orThrow (parseAndVerifyDpopProof lib proof)
  validateParsedProof lib http crypto header claims expectedMethod acceptedUris configMaxAge
    expectedAth noncePolicy arrival

/-- Validate a proof at the token endpoint, where a nonce is required. -/
def validateDpopProof [Digest] (proof expectedMethod : String) (acceptedUris : List String)
    (configMaxAge : Int) (arrival : Timestamp) :
    ExceptT DpopError (DbM Payload) ValidatedDpopProof :=
  validateDpopCommon lib http crypto proof expectedMethod acceptedUris configMaxAge none .required
    arrival

/-- A header field's value, or nothing where it is not visible ASCII. -/
structure HeaderValue where
  toStr : Option String

/-- The one `DPoP` header field of a request. -/
def DpopProofHeader.fromHeaders : List HeaderValue → Except DpopError (Option String)
  | [] => .ok none
  | [value] =>
    match value.toStr with
    | some proof => .ok (some proof)
    | none => .error (.invalidFormat "DPoP header is not visible ASCII")
  | _ => .error .multipleProofs

/-- Validate a proof at a protected resource, where a nonce is optional. -/
def validateDpopAtResource [Digest] (accessToken : String) (headers : List HeaderValue)
    (method : String) (acceptedUris : List String) (configMaxAge : Int) (arrival : Timestamp) :
    ExceptT DpopError (DbM Payload) ValidatedDpopProof := do
  match ← orThrow (DpopProofHeader.fromHeaders headers) with
  | none => throw .missingProof
  | some proof =>
    validateDpopCommon lib http crypto proof method acceptedUris configMaxAge
      (some (http.computeAccessTokenHash accessToken)) .optional arrival

/-! ## How long the marker lasts -/

/-- A sum that did not saturate. -/
theorem saturatingAdd_eq {a b : Int} (hl : -9223372036854775808 < saturatingAdd a b)
    (hu : saturatingAdd a b < 9223372036854775807) : saturatingAdd a b = a + b := by
  unfold saturatingAdd at *
  omega

/-- The second an instant is rounded up to is not before it, and close to it. -/
theorem nowSecond_bounds {now : Timestamp} (hl : -9223372036854775808 < nowSecond now)
    (hu : nowSecond now < 9223372036854775807) :
    now ≤ nowSecond now * Timestamp.second ∧ (nowSecond now - 2) * Timestamp.second ≤ now := by
  have hround : ∀ q r : Int, -1000000000 < r → r < 1000000000 →
      1000000000 * q + r ≤ (q + if r ≠ 0 then 1 else 0) * 1000000000 ∧
        (q + (if r ≠ 0 then 1 else 0) - 2) * 1000000000 ≤ 1000000000 * q + r := by
    intro q r hlow hhigh
    split <;> constructor <;> omega
  have hsplit := hround (Int.tdiv now 1000000000) (Int.tmod now 1000000000)
    (Int.lt_tmod_of_pos now (by decide)) (Int.tmod_lt_of_pos now (by decide))
  rw [Int.mul_tdiv_add_tmod] at hsplit
  rw [nowSecond, saturatingAdd_eq hl hu]
  exact hsplit

/-- The marker of a proof that is fresh when it arrives lasts as long as the proof: to the second
after `iat` and the maximum age. -/
theorem ceilSecond_le_dpopJtiExpiry {claims : DpopClaims} {configMaxAge : Int}
    {arrival e : Timestamp}
    (he : dpopJtiExpiry (nowSecond arrival) (jtiRetention configMaxAge) = some e)
    (hfresh : (ValidityWindow.issuedAt claims.iat configMaxAge).acceptsAt arrival 0
      proofSkewSeconds = true) :
    claims.iat.ceilSecond + configMaxAge ≤ e.wholeSecond := by
  obtain ⟨start, hstart, he⟩ := Option.bind_eq_some_iff.mp he
  obtain ⟨rfl, hlow, hhigh⟩ := Timestamp.bounds_of_fromSecond hstart
  obtain ⟨rfl, hrange⟩ := Timestamp.checkedAddSeconds_eq_some.mp he
  rw [Timestamp.addSeconds_addSeconds] at hrange ⊢
  obtain ⟨-, helow, hehigh⟩ := Timestamp.bounds_of_fromSecond
    (Timestamp.checkedAddSeconds_eq_some.mpr ⟨rfl, hrange⟩)
  have hret : jtiRetention configMaxAge = configMaxAge + proofSkewSeconds := by
    refine saturatingAdd_eq ?_ ?_ <;> unfold jtiRetention at * <;> omega
  obtain ⟨hnow, hclose⟩ := @nowSecond_bounds arrival (by omega) (by omega)
  have hopen : claims.iat ≤ arrival.addSeconds proofSkewSeconds := by
    refine ValidityWindow.notBefore_le_of_acceptsAt hfresh rfl claims.iat_le_max ?_
    have hclose : ((nowSecond arrival - 2) * 1000000000 : Int) ≤ arrival := hclose
    show (-377705023201 * 1000000000 : Int) ≤ arrival + 60 * 1000000000
    omega
  rw [Timestamp.wholeSecond_addSeconds_zero, hret]
  suffices h : claims.iat.ceilSecond ≤ nowSecond arrival + proofSkewSeconds by omega
  rw [Timestamp.ceilSecond_le_iff, Int.add_mul]
  exact le_trans hopen (Int.add_le_add_right hnow _)

end Vouch
