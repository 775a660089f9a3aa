import Vouch.Db.UsedMarkers
import Vouch.Oidc.Jwt

/-!
# JWT client assertions

Authentication of a client by a signed assertion (`services/oidc/jwt_bearer/client_auth.rs` and
`validate.rs`).  The client is looked up by the assertion's issuer, the signature is checked under
one of its keys and the claims are judged at the arrival instant; the assertion's `jti`, if it has
one, is marked as used until its `exp` and the tolerated skew have passed.

Which key the client's key set answers for the header may change from one call to the next — the set
can live behind a URL — so it is an input of the call.
-/

namespace Vouch

open ReadCommitted Interleaving
open Result (bind_eq_ok)

/-! ## Data -/

/-- Clock skew that is tolerated, in seconds. -/
def clockSkewSeconds : Int := 10

/-- An `aud` claim: one text or several. -/
inductive JwtAudience
  | single (text : String)
  | multiple (texts : List String)
  deriving DecidableEq, Repr

namespace JwtAudience

/-- Whether the claim names an audience. -/
def contains (aud : JwtAudience) (expected : String) : Bool :=
  match aud with
  | single s => s == expected
  | multiple v => v.any fun s => s == expected

/-- Whether the claim is one text. -/
def isSingle : JwtAudience → Bool
  | single _ => true
  | multiple _ => false

end JwtAudience

/-- The claims of an assertion. -/
structure JwtAssertionClaims where
  iss : String
  sub : String
  aud : JwtAudience
  exp : Timestamp
  iat : Option Timestamp
  nbf : Option Timestamp
  jti : Option String
  deriving DecidableEq, Repr

/-- The header of an assertion. -/
structure JwtAssertionHeader where
  alg : JwsAlgorithm
  kid : Option String
  deriving DecidableEq, Repr

/-- Why a client was not authenticated. -/
inductive ClientAuthError
  | invalidClient
  | invalidCredentials
  | databaseError (e : StoreError)
  deriving DecidableEq, Repr

/-- The part of the server's configuration that is read. -/
structure AssertionConfig where
  baseUrl : String
  jwtAssertionMaxLifetimeSeconds : Int

/-! ## Validation -/

section Validation

variable {Key : Type} (lib : JwtLibrary Key JwtAssertionClaims)

/-- The error a refused header is reported as. -/
def assertionJwsError : JwsError → ServiceError
  | .critical =>
    .oauth .invalidClient "JWT assertion header carries an unsupported 'crit' extension"
  | .malformed reason => .oauth .invalidClient s!"Invalid JWT assertion: {reason}"
  | .privateKey => .oauth .invalidClient "JWT assertion header JWK contains private key material"

/-- Some algorithms, as a text. -/
def algorithmList (algs : List JwsAlgorithm) : String :=
  ", ".intercalate (algs.map JwsAlgorithm.asStr)

/-- Parse an assertion's header. -/
def parseAssertionHeader (assertion : String) : Except ServiceError JwtAssertionHeader :=
  match lib.parse assertion with
  | .error e => .error (assertionJwsError e)
  | .ok header =>
    match header.alg with
    | .known alg => .ok ⟨alg, header.kid⟩
    | .other text =>
      let supported := algorithmList JwsAlgorithm.clientAssertionAllowed
      .error (.oauth .invalidClient
        s!"Unsupported JWT assertion algorithm: {text}. Supported: {supported}")

/-- The claims of an assertion whose signature has not been checked yet. -/
def decodeClaimsUnverified (assertion : String) : Except ServiceError JwtAssertionClaims :=
  match lib.parse assertion with
  | .error e => .error (assertionJwsError e)
  | .ok _ =>
    match lib.claims assertion with
    | some claims => .ok claims
    | none => .error (assertionJwsError (.malformed "payload is not the expected JSON"))

/-- The algorithm has to be one that the profile of the client allows. -/
def validateClientAssertionAlgorithm (alg : JwsAlgorithm) (allowed : List JwsAlgorithm) :
    Except ServiceError Unit :=
  if allowed.contains alg then .ok ()
  else
    let name := alg.asStr
    let allowedList := algorithmList allowed
    .error (.oauth .invalidClient
      (s!"Client assertion algorithm '{name}' is not permitted for this client. " ++
        s!"Allowed: {allowedList}"))

/-- How long an assertion lasts: from its `iat`, or else from now. -/
def assertionLifetime (claims : JwtAssertionClaims) (now : Timestamp) : Int :=
  claims.exp - claims.iat.getD now

/-- Validate an assertion's signature and claims. -/
def validateJwtAssertion (assertion : String) (key : Key) (alg : JwsAlgorithm)
    (expectedAudiences : List String) (maxLifetimeSeconds : Int) (now : Timestamp) :
    Except ServiceError JwtAssertionClaims :=
  match lib.decode assertion key alg with
  | none => .error (.oauth .invalidClient "JWT assertion signature verification failed")
  | some claims =>
    let validity := ValidityWindow.fromClaims (some claims.exp) claims.nbf
    if validity.expiredAt now clockSkewSeconds then
      .error (.oauth .invalidClient "JWT assertion has expired")
    else if validity.notYetValidAt now clockSkewSeconds then
      .error (.oauth .invalidClient "JWT assertion is not yet valid (nbf claim)")
    else if (ValidityWindow.fromClaims none claims.iat).notYetValidAt now clockSkewSeconds then
      .error (.oauth .invalidClient "JWT assertion iat claim is in the future")
    else if maxLifetimeSeconds * Timestamp.second < assertionLifetime claims now then
      let seconds := Int.tdiv (assertionLifetime claims now) Timestamp.second
      .error (.oauth .invalidClient
        s!"JWT assertion lifetime ({seconds}s) exceeds maximum ({maxLifetimeSeconds}s)")
    else if expectedAudiences.any fun expected => claims.aud.contains expected then
      .ok claims
    else
      .error (.oauth .invalidClient "JWT assertion audience does not match authorization server")

/-- What an assertion that validates claims is its payload. -/
theorem claims_of_validateJwtAssertion {lib : JwtLibrary Key JwtAssertionClaims}
    {assertion : String} {key : Key} {alg : JwsAlgorithm} {auds : List String} {maxLifetime : Int}
    {now : Timestamp} {claims : JwtAssertionClaims}
    (h : validateJwtAssertion lib assertion key alg auds maxLifetime now = .ok claims) :
    lib.claims assertion = some claims := by
  rw [validateJwtAssertion] at h
  split at h
  · cases h
  · rename_i c hd
    refine (JwtLibrary.claims_of_decode hd).trans (congrArg some ?_)
    simp only at h
    split at h
    · cases h
    · split at h
      · cases h
      · split at h
        · cases h
        · split at h
          · cases h
          · split at h
            · exact Except.ok.inj h
            · cases h

end Validation

/-! ## Authentication -/

/-- Whether the client has a FAPI profile. -/
def OAuthClientDoc.isFapi (client : OAuthClientDoc) : Bool := client.fapiProfile ≠ .none

/-- The audiences an assertion of a client may name. -/
def allowedAudiences (baseUrl : String) (client : OAuthClientDoc) : List String :=
  if client.isFapi then
    [baseUrl]
  else
    [baseUrl ++ "/oauth/token", baseUrl ++ "/oauth/revoke", baseUrl ++ "/oauth/par",
      baseUrl ++ "/oauth/introspect", baseUrl ++ "/oauth/device",
      baseUrl ++ "/oauth/fido2/challenge", baseUrl]

/-- The assertion has to be issued by its subject, and by the client the request names. -/
def verifyAssertionSubject (claims : JwtAssertionClaims) (clientIdHint : Option String) :
    Except ClientAuthError Unit :=
  if clientIdHint.any fun hint => hint ≠ claims.iss then .error .invalidCredentials
  else if claims.iss ≠ claims.sub then .error .invalidCredentials
  else .ok ()

variable (crypto : DocumentCrypto)

/-- Spend the `jti` of an assertion, if it has one. -/
def PendingJti.commit [Digest] (jti : Option String) (clientId : String)
    (assertionExp : Timestamp) : ExceptT ClientAuthError (DbM Payload) (Option RecordClaim) := do
  match jti with
  | none => pure none
  | some jti =>
    match assertionExp.checkedAddSeconds clockSkewSeconds with
    | none => throw (.databaseError (.message "timestamp overflow"))
    | some expiresAt =>
      some <$> mapError (fun
          | .alreadyConsumed => .invalidCredentials
          | .invalidInput _ => .invalidCredentials
          | .database e => .databaseError e)
        (storeJwtAssertionJti crypto jti clientId expiresAt)

section Authentication

variable {Key : Type} (lib : JwtLibrary Key JwtAssertionClaims) (config : AssertionConfig)

/-- The checks between the lookup of the client and the spending of the `jti`. -/
def checkAssertion (client : OAuthClientDoc) (header : JwtAssertionHeader) (assertion : String)
    (resolveKey : OAuthClientDoc → JwtAssertionHeader → Except ClientAuthError Key)
    (arrival : Timestamp) : Except ClientAuthError JwtAssertionClaims := do
  if client.active = false then .error .invalidClient
  else if client.tokenEndpointAuthMethod ≠ .privateKeyJwt then .error .invalidCredentials
  else
    match validateClientAssertionAlgorithm header.alg
      client.fapiProfile.clientAssertionAlgorithms with
    | .error _ => .error .invalidCredentials
    | .ok () =>
      let key ← resolveKey client header
      match validateJwtAssertion lib assertion key header.alg
          (allowedAudiences config.baseUrl client)
          config.jwtAssertionMaxLifetimeSeconds arrival with
      | .error _ => .error .invalidCredentials
      | .ok claims =>
        if client.isFapi && !claims.aud.isSingle then .error .invalidCredentials
        else if client.isFapi && claims.jti.isNone then .error .invalidCredentials
        else .ok claims

/-- Authenticate a client by its assertion. -/
def authenticateClientJwt [Digest] (assertion : String) (clientIdHint : Option String)
    (resolveKey : OAuthClientDoc → JwtAssertionHeader → Except ClientAuthError Key)
    (arrival : Timestamp) :
    ExceptT ClientAuthError (DbM Payload) (OAuthClientDoc × Option RecordClaim) := do
  let header ← orThrow ((parseAssertionHeader lib assertion).mapError fun _ => .invalidCredentials)
  let unverified ← orThrow ((decodeClaimsUnverified lib assertion).mapError
    fun _ => .invalidCredentials)
  orThrow (verifyAssertionSubject unverified clientIdHint)
  match ← mapError .databaseError
      (DocumentStore.findOne crypto OAuthClientDoc "client_id" unverified.iss) with
  | none => throw .invalidClient
  | some client =>
    let claims ← orThrow (checkAssertion lib config client.data header assertion resolveKey arrival)
    let claim ← PendingJti.commit crypto claims.jti client.data.clientId claims.exp
    -- A stamp that fails is only logged.
    let _ ← attempt (DocumentStore.updateLastUsedAt client.id)
    pure (client.data, claim)

/-- What an assertion that passes the checks claims is its payload. -/
theorem claims_of_checkAssertion {lib : JwtLibrary Key JwtAssertionClaims}
    {config : AssertionConfig} {client : OAuthClientDoc} {header : JwtAssertionHeader}
    {assertion : String}
    {resolveKey : OAuthClientDoc → JwtAssertionHeader → Except ClientAuthError Key}
    {arrival : Timestamp} {claims : JwtAssertionClaims}
    (h : checkAssertion lib config client header assertion resolveKey arrival = .ok claims) :
    lib.claims assertion = some claims := by
  rw [checkAssertion] at h
  split at h
  · cases h
  · split at h
    · cases h
    · split at h
      · cases h
      · obtain ⟨key, -, h⟩ := bind_eq_ok.mp h
        split at h
        · cases h
        · rename_i c hv
          split at h
          · cases h
          · split at h
            · cases h
            · cases h
              exact claims_of_validateJwtAssertion hv

end Authentication

end Vouch
