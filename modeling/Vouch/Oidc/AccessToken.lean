import Vouch.Oidc.Dpop
import Vouch.Oidc.Resource
import Vouch.Oidc.Scope

/-!
# Access tokens

The claims of an access token and the session behind it (`services/auth.rs`, `assurance.rs`,
`services/oidc/claims.rs`).

* `ActorClaim` — who acts for the subject, and for whom before that; `depth` counts them.
* `CnfClaim`, `TokenBinding` — the key a token is bound to, and the binding a request proved.
* `HardwareVerification` — the assurance a token carries.
* `AccessTokenClaims` — with what an audience admits and what an exchange may ask for.
* `decodeToken` — a token this server issued, judged at the arrival of the request.
* `createOauthAccessToken` — the claims, the signature and the session row.

The database and the signing key are read through the functions a call is given, so that what they
answer may be anything.
-/

namespace Vouch

open Result

/-! ## Actors -/

/-- `ActorClaim`. -/
inductive ActorClaim
  | single (sub : String)
  | nested (sub : String) (actor : ActorClaim)
  deriving DecidableEq, Repr

namespace ActorClaim

/-- An actor in front of a chain that may be absent. -/
def new (sub : String) : Option ActorClaim → ActorClaim
  | none => single sub
  | some actor => nested sub actor

/-- `ActorClaim::depth`. -/
def depth : ActorClaim → Nat
  | single _ => 1
  | nested _ actor => actor.depth + 1

/-- The actors, the latest first. -/
def actors : ActorClaim → List String
  | single sub => [sub]
  | nested sub actor => sub :: actor.actors

end ActorClaim

/-- The actors of a claim that may be absent. -/
def actorsOf (act : Option ActorClaim) : List String := (act.map ActorClaim.actors).getD []

theorem actors_new (sub : String) (act : Option ActorClaim) :
    (ActorClaim.new sub act).actors = sub :: actorsOf act := by
  cases act with
  | none => rfl
  | some actor => rfl

/-- `MAX_DELEGATION_DEPTH`. -/
def maxDelegationDepth : Nat := 5

/-! ## Bindings -/

/-- `CnfClaim`. -/
structure CnfClaim where
  jkt : Option String
  x5tS256 : Option String
  deriving DecidableEq, Repr

/-- `SenderConstraints`: the keys a request proved. -/
structure SenderConstraints where
  dpop : Option ValidatedDpopProof
  mtlsCert : Option String

/-- `TokenBinding`. -/
inductive TokenBinding
  | dpop (proof : ValidatedDpopProof)
  | mutualTls (thumbprint : String)
  | bearer
  deriving DecidableEq

namespace TokenBinding

/-- `TokenBinding::new`. -/
def new : Option ValidatedDpopProof → Option String → TokenBinding
  | some proof, _ => dpop proof
  | none, some thumbprint => mutualTls thumbprint
  | none, none => bearer

/-- `TokenBinding::cnf`. -/
def cnf : TokenBinding → Option CnfClaim
  | dpop proof => some ⟨some proof.jkt, none⟩
  | mutualTls thumbprint => some ⟨none, some thumbprint⟩
  | bearer => none

end TokenBinding

/-- `PossessionError`. -/
inductive PossessionError
  | missingDpopProof
  | dpopKeyMismatch
  | missingClientCertificate
  | clientCertificateMismatch
  | dpopRequired
  | notDpopBound
  deriving DecidableEq, Repr

namespace PossessionError

/-- `PossessionError::as_str`. -/
def asStr : PossessionError → String
  | missingDpopProof => "Missing DPoP proof header for sender-constrained token"
  | dpopKeyMismatch => "DPoP proof key does not match token binding"
  | missingClientCertificate => "mTLS certificate required for certificate-bound token"
  | clientCertificateMismatch => "Client certificate does not match token binding"
  | dpopRequired => "client requires DPoP-bound access tokens, but the token is certificate-bound"
  | notDpopBound => "DPoP scheme used but token is not DPoP-bound"

/-- `PossessionError::for_exchange`. -/
def forExchange (e : PossessionError) (parameter : String) : ServiceError :=
  let text := e.asStr
  .oauth .invalidRequest s!"{parameter}: {text}"

end PossessionError

/-- `CnfClaim::confirmed_binding`. -/
def CnfClaim.confirmedBinding (cnf : CnfClaim) (presented : SenderConstraints) :
    Except PossessionError (Option TokenBinding) :=
  match cnf.jkt with
  | some jkt =>
    match presented.dpop with
    | none => .error .missingDpopProof
    | some proof =>
      if proof.jkt = jkt then .ok (some (.dpop proof)) else .error .dpopKeyMismatch
  | none =>
    match cnf.x5tS256 with
    | some x5t =>
      match presented.mtlsCert with
      | none => .error .missingClientCertificate
      | some cert =>
        if cert = x5t then .ok (some (.mutualTls cert)) else .error .clientCertificateMismatch
    | none => .ok none

/-- The key a claim names: the first of the two that is there. -/
def CnfClaim.key (cnf : CnfClaim) : Option CnfClaim :=
  match cnf.jkt with
  | some jkt => some ⟨some jkt, none⟩
  | none => cnf.x5tS256.map fun x5t => ⟨none, some x5t⟩

/-- A confirmed binding is to the key the claim names. -/
theorem CnfClaim.confirmedBinding_ok {cnf : CnfClaim} {presented : SenderConstraints}
    {binding : Option TokenBinding} (h : cnf.confirmedBinding presented = .ok binding) :
    binding.bind TokenBinding.cnf = cnf.key ∧ (cnf.key.isSome → binding.isSome) := by
  obtain ⟨jkt, x5t⟩ := cnf
  cases jkt with
  | some jkt =>
    cases hdpop : presented.dpop with
    | none => simp [confirmedBinding, hdpop] at h
    | some proof =>
      simp only [confirmedBinding, hdpop] at h
      split at h
      · rename_i hjkt
        cases h
        simp [TokenBinding.cnf, key, hjkt]
      · cases h
  | none =>
    cases x5t with
    | some x5t =>
      cases hcert : presented.mtlsCert with
      | none => simp [confirmedBinding, hcert] at h
      | some cert =>
        simp only [confirmedBinding, hcert] at h
        split at h
        · rename_i hx5t
          cases h
          simp [TokenBinding.cnf, key, hx5t]
        · cases h
    | none =>
      cases h
      exact ⟨rfl, fun hkey => absurd hkey (by simp [key])⟩

/-! ## Assurance -/

/-- `AuthMethod`. -/
inductive AuthMethod
  | hardwareKey
  | pin
  | userPresence
  deriving DecidableEq, Repr

/-- `AuthMethod::all_fido2`. -/
def AuthMethod.allFido2 : List AuthMethod := [hardwareKey, pin, userPresence]

/-- `ACR_AAL3`. -/
def acrAal3 : String := "urn:nist:authentication:assurance-level:aal3"

/-- `numeric_date::whole_second`. -/
def Timestamp.wholeSecondOf (t : Timestamp) : Timestamp :=
  (Timestamp.fromSecond t.asSecond).getD t

namespace HardwareVerification

/-- `HardwareVerification::auth_time`. -/
def authTime (v : HardwareVerification) : Option Timestamp :=
  v.authenticatedAt.map Timestamp.wholeSecondOf

/-- `HardwareVerification::amr`. -/
def amr : HardwareVerification → Option (List AuthMethod)
  | verified _ => some AuthMethod.allFido2
  | notVerified => none

/-- `HardwareVerification::acr`. -/
def acr : HardwareVerification → Option String
  | verified _ => some acrAal3
  | notVerified => none

end HardwareVerification

/-! ## Claims -/

/-- `AccessTokenClaims`. -/
structure AccessTokenClaims where
  iss : String
  sub : String
  aud : String
  exp : Timestamp
  iat : Timestamp
  nbf : Option Timestamp
  jti : String
  clientId : String
  scope : Option ScopeSet
  email : Option String
  emailVerified : Option Bool
  hardwareVerified : Bool
  cnf : Option CnfClaim
  authTime : Option Timestamp
  act : Option ActorClaim
  amr : Option (List AuthMethod)
  acr : Option String
  deriving DecidableEq

namespace AccessTokenClaims

/-- `AccessTokenClaims::is_narrowed`. -/
def isNarrowed (claims : AccessTokenClaims) : Bool := claims.aud ≠ claims.clientId

/-- `AccessTokenClaims::audience_covers`. -/
def audienceCovers (lib : UrlLibrary) (claims : AccessTokenClaims) (baseUrl : String)
    (path : List Char) : Bool :=
  !claims.isNarrowed || audienceCoversResource lib claims.aud baseUrl path

/-- `AccessTokenClaims::exchanged_audience`. -/
def exchangedAudience (lib : UrlLibrary) (claims : AccessTokenClaims) (requested : Option String)
    (clientId baseUrl : String) : Except ServiceError (Option String) :=
  if !claims.isNarrowed then .ok requested
  else
    match requested with
    | none => .ok (some claims.aud)
    | some requested =>
      if requested ≠ claims.aud ∧
          (requested = clientId ∨ audienceNamesDeployment lib requested baseUrl = true) then
        .error (.oauth .invalidRequest
          ("The subject token is narrowed to another resource; " ++
            "the exchanged token cannot name this server or its client"))
      else .ok (some requested)

/-- `DecodedToken::hardware_verification`: the ceremony's instant is dropped. -/
def hardwareVerification (claims : AccessTokenClaims) : HardwareVerification :=
  if claims.hardwareVerified then .verified none else .notVerified

end AccessTokenClaims

/-! ## Decoding -/

/-- The third-party code and the key behind access tokens. -/
structure TokenLibrary (Key : Type) where
  jwt : JwtLibrary Key AccessTokenClaims
  oidcKey : Key
  /-- SHA-256 of a token, in base64url (`hash_token`). -/
  hashToken : String → String

/-- `decode_token`. -/
def decodeToken {Key : Type} (lib : TokenLibrary Key) (token expectedIssuer : String)
    (arrival : Timestamp) : Option AccessTokenClaims :=
  match lib.jwt.parse token with
  | .error _ => none
  | .ok header =>
    if header.alg ≠ .known .es256 then none
    else
      match lib.jwt.decode token lib.oidcKey .es256 with
      | none => none
      | some claims =>
        if claims.iss ≠ expectedIssuer then none
        else if header.typ ≠ some "at+jwt" then none
        else if (ValidityWindow.fromClaims (some claims.exp)
          claims.nbf).acceptsOwnTokenAt arrival then
          some claims
        else none

theorem decodeToken_eq_some {Key : Type} {lib : TokenLibrary Key} {token issuer : String}
    {arrival : Timestamp} {claims : AccessTokenClaims}
    (h : decodeToken lib token issuer arrival = some claims) :
    lib.jwt.claims token = some claims ∧ claims.iss = issuer ∧
      (ValidityWindow.fromClaims (some claims.exp) claims.nbf).acceptsOwnTokenAt
        arrival = true := by
  rw [decodeToken] at h
  split at h
  · cases h
  · split at h
    · cases h
    · split at h
      · cases h
      · rename_i hdecode
        split at h
        · cases h
        · rename_i hiss
          split at h
          · cases h
          · split at h
            · rename_i hwindow
              cases h
              exact ⟨JwtLibrary.claims_of_decode hdecode, not_not.1 hiss, hwindow⟩
            · cases h

/-! ## Issuing -/

/-- `CreateOAuthTokenParams`. -/
structure CreateOAuthTokenParams where
  userId : String
  email : String
  authenticatorId : Option String
  clientId : String
  scope : Option ScopeSet
  binding : TokenBinding
  act : Option ActorClaim
  audience : Option String
  maxLifetimeSecs : Option Nat
  hardwareVerification : HardwareVerification
  authorizationDetails : Option JsonValue
  hardwareAaguid : Option String
  orgDomain : Option String
  sourceCodeHash : Option String

/-- What issuing a token asks of the rest of the server. -/
structure IssueEnv where
  baseUrl : String
  sessionHours : Nat
  /-- `Uuid::now_v7`. -/
  jti : String
  /-- `sign_access_token_jwt`. -/
  sign : AccessTokenClaims → Except String String
  /-- `db::create_session`. -/
  createSession : SessionDoc → Except String Unit

/-- `session_hours * 3600`, in `u64`. -/
def IssueEnv.sessionSecs (env : IssueEnv) : Nat :=
  min (env.sessionHours * 3600) 18446744073709551615

/-- A token with its claims and the session stored for it. -/
structure AccessToken where
  token : String
  claims : AccessTokenClaims
  session : SessionDoc
  expiresIn : Nat
  deriving DecidableEq

/-- The claims of a new token. -/
def newClaims (env : IssueEnv) (params : CreateOAuthTokenParams) (now expires : Timestamp) :
    AccessTokenClaims :=
  let hasEmailScope := params.scope.any fun scope => decide (OAuthScope.email ∈ scope)
  { iss := env.baseUrl
    sub := params.userId
    aud := params.audience.getD params.clientId
    exp := expires.wholeSecondOf
    iat := now.wholeSecondOf
    nbf := some now.wholeSecondOf
    jti := env.jti
    clientId := params.clientId
    scope := params.scope
    email := if hasEmailScope then some params.email else none
    emailVerified := if hasEmailScope then some true else none
    hardwareVerified := params.hardwareVerification.hardwareVerified
    cnf := params.binding.cnf
    authTime := params.hardwareVerification.authTime
    act := params.act
    amr := params.hardwareVerification.amr
    acr := params.hardwareVerification.acr }

/-- The session of a new token. -/
def newSession (params : CreateOAuthTokenParams) (purpose : SessionPurpose) (tokenHash : String)
    (expires : Timestamp) : SessionDoc where
  userId := params.userId
  userEmail := params.email
  tokenHash := tokenHash
  authenticatorId := params.authenticatorId
  sessionType := purpose
  expiresAt := expires
  authorizationDetails := params.authorizationDetails
  hardwareAaguid := params.hardwareAaguid
  orgDomain := params.orgDomain
  clientId := some params.clientId
  sourceCodeHash := params.sourceCodeHash
  authenticatedAt := params.hardwareVerification.authenticatedAt

/-- `create_oauth_access_token`, for a grant that gives the session its purpose. -/
def createOauthAccessToken {Key : Type} (lib : TokenLibrary Key) (env : IssueEnv)
    (params : CreateOAuthTokenParams) (purpose : SessionPurpose) (arrival : Timestamp) :
    Except ServiceError AccessToken :=
  let sessionSecs := params.maxLifetimeSecs.getD env.sessionSecs
  if sessionSecs > 9223372036854775807 then .error (.internal "Invalid session lifetime")
  else
    match arrival.checkedAddSeconds sessionSecs with
    | none => .error (.internal "Time overflow")
    | some expires =>
      let claims := newClaims env params arrival expires
      match env.sign claims with
      | .error e => .error (.internal s!"Access token signing failed: {e}")
      | .ok token =>
        let session := newSession params purpose (lib.hashToken token) expires
        match env.createSession session with
        | .error e => .error (.internal s!"Failed to store session: {e}")
        | .ok () => .ok ⟨token, claims, session, sessionSecs⟩

theorem createOauthAccessToken_ok {Key : Type} {lib : TokenLibrary Key} {env : IssueEnv}
    {params : CreateOAuthTokenParams} {purpose : SessionPurpose} {arrival : Timestamp}
    {issued : AccessToken}
    (h : createOauthAccessToken lib env params purpose arrival = .ok issued) :
    ∃ expires, arrival.checkedAddSeconds (params.maxLifetimeSecs.getD env.sessionSecs) =
        some expires ∧
      issued.claims = newClaims env params arrival expires ∧
      issued.session = newSession params purpose (lib.hashToken issued.token) expires := by
  rw [createOauthAccessToken] at h
  dsimp only at h
  split at h
  · cases h
  · split at h
    · cases h
    · rename_i expires hexpires
      split at h
      · cases h
      · split at h
        · cases h
        · cases h
          exact ⟨expires, hexpires, rfl, rfl⟩

end Vouch
