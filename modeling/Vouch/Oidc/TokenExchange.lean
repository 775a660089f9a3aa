import Vouch.Oidc.AccessToken
import Vouch.Oidc.AuthorizationDetails

/-!
# Token exchange

RFC 8693 token exchange (`services/oidc/exchange.rs`, with the checks of the endpoint in
`handlers/oidc/token.rs`): a client hands in a subject token, perhaps an actor token, and gets a
token for the subject with at most the authority of the one it handed in.

* `handleTokenExchangeGrant` — the client's registration, the audience, the tokens and their types.
* `exchangeToken` — one stage after the other: the subject's token, session and user, the audience
  and the policies, the actor, the binding, the scope and the lifetime, and then an ID token or an
  access token.
* `exchangeToken_ok` — what a successful exchange has found and issued.

A call is given what the rest of the server answers it (`ExchangeEnv`): sessions, users, policies,
the signature.  Nothing ties the answers of one call to those of another.
-/

namespace Vouch

open Result

/-! ## Requests -/

/-- `TokenType`. -/
inductive TokenType
  | accessToken
  | idToken
  | jwt
  deriving DecidableEq, Repr

namespace TokenType

/-- `TokenType::as_urn`. -/
def asUrn : TokenType → String
  | accessToken => "urn:ietf:params:oauth:token-type:access_token"
  | idToken => "urn:ietf:params:oauth:token-type:id_token"
  | jwt => "urn:ietf:params:oauth:token-type:jwt"

/-- `TokenType::parse`. -/
def parse (urn : String) : Option TokenType :=
  if urn = accessToken.asUrn then some accessToken
  else if urn = idToken.asUrn then some idToken
  else if urn = jwt.asUrn then some jwt
  else none

end TokenType

/-- `SubjectToken::new`: every type is accepted, and the type is not looked at again. -/
def subjectToken (token urn : String) : Except ServiceError String :=
  match TokenType.parse urn with
  | some _ => .ok token
  | none => .error (.oauth .invalidRequest "Unsupported subject_token_type")

/-- `ActorToken::from_params`. -/
def actorToken : Option String → Option String → Except ServiceError (Option String)
  | none, none => .ok none
  | some token, some urn =>
    match TokenType.parse urn with
    | some .accessToken | some .jwt => .ok (some token)
    | some .idToken | none => .error (.oauth .invalidRequest "Invalid actor_token_type")
  | some _, none =>
    .error (.oauth .invalidRequest "actor_token_type is required when actor_token is present")
  | none, some _ =>
    .error (.oauth .invalidRequest "actor_token_type must not be present without actor_token")

theorem subjectToken_ok {token urn subject : String} (h : subjectToken token urn = .ok subject) :
    subject = token := by
  rw [subjectToken] at h
  split at h
  · exact (Except.ok.inj h).symm
  · cases h

theorem actorToken_ok {token urn actor : Option String} (h : actorToken token urn = .ok actor) :
    actor = token := by
  unfold actorToken at h
  split at h
  · exact (Except.ok.inj h).symm
  · split at h
    · exact (Except.ok.inj h).symm
    · exact (Except.ok.inj h).symm
    · cases h
    · cases h
  · cases h
  · cases h

/-- `RequestedTokenType`. -/
inductive RequestedTokenType
  | accessToken
  | idToken
  deriving DecidableEq, Repr

/-- `RequestedTokenType::from_param`. -/
def RequestedTokenType.fromParam : Option String → Except ServiceError (Option RequestedTokenType)
  | none => .ok none
  | some urn =>
    match TokenType.parse urn with
    | some .accessToken => .ok (some accessToken)
    | some .idToken => .ok (some idToken)
    | some .jwt | none => .error (.oauth .invalidRequest "Unsupported requested_token_type")

/-- What an exchange reads of an `OAuthClient`. -/
structure ExchangeClient where
  clientId : String
  resourceUris : List String
  fapiProfile : FapiProfile
  dpopBoundAccessTokens : Bool
  tlsClientCertificateBoundAccessTokens : Bool
  /-- Whether it is registered for the grant. -/
  isAuthorizedForGrant : Bool

/-- `OAuthClient::is_valid_resource_uri`. -/
def ExchangeClient.isValidResourceUri (client : ExchangeClient) (uri : String) : Bool :=
  client.resourceUris.isEmpty || client.resourceUris.contains uri

/-- `TokenExchangeParams`. -/
structure TokenExchangeParams where
  subject : String
  actor : Option String
  audience : Option String
  scope : Option String
  requestedTokenType : Option RequestedTokenType
  client : ExchangeClient
  presented : SenderConstraints
  authorizationDetails : Option String

/-! ## Helpers -/

/-- `calculate_granted_scope`. -/
def calculateGrantedScope (requested : Option String) (available : Option ScopeSet) :
    Except ServiceError (Option ScopeSet) :=
  match requested with
  | none =>
    match available with
    | none => .ok (some (ScopeSet.parse "openid"))
    | some scopes => .ok (if scopes = ∅ then none else some scopes)
  | some requested => do
    let granted ← (ScopeSet.parse requested ∩ available.getD ScopeSet.all).intoRequestedGrant
    .ok (some granted)

/-- `cap_lifetime_by_subject_ttl`, for a subject token with an `exp`. -/
def capLifetimeBySubjectTtl (sessionSecs : Nat) (subjectExp now : Timestamp) : Nat :=
  min sessionSecs (Int.tdiv (subjectExp - now) Timestamp.second).toNat

/-- A policy's refusal is reported as an invalid request. -/
def policyError : ServiceError → ServiceError
  | .oauth .accessDenied description => .oauth .invalidRequest description
  | other => other

/-! ## The exchange -/

/-- `IdTokenContext`. -/
structure IdTokenContext where
  session : SessionDoc
  email : String
  subjectTokenHash : String
  audience : Option String
  expiresIn : Nat
  client : ExchangeClient

/-- The third-party code an exchange uses. -/
structure ExchangeLibrary (Key : Type) extends TokenLibrary Key where
  url : UrlLibrary
  json : JsonLibrary

/-- What the rest of the server answers a call. -/
structure ExchangeEnv extends IssueEnv where
  /-- `ValidatedSession::lookup`, by the hash of a token. -/
  session : String → Except ServiceError (Option SessionDoc)
  /-- `db::get_user_by_id`. -/
  user : String → Except String (Option UserDoc)
  /-- `policy::evaluate_exchange_policies`. -/
  exchangePolicies : (orgId userId email clientId : String) → Option String →
    Except ServiceError Unit
  /-- `policy::evaluate_actor_logout_policy`. -/
  actorLogoutPolicy : (orgId userId email : String) → Except ServiceError Unit
  /-- `issue_id_token`. -/
  issueIdToken : IdTokenContext → Except ServiceError String

/-- What is issued. -/
inductive Issued
  | accessToken (issued : AccessToken)
  | idToken (token : String)
  deriving DecidableEq

/-- An ID token carries none of the claims of the other parameters. -/
def refuseWithIdToken (params : TokenExchangeParams) : Except ServiceError Unit :=
  if params.requestedTokenType ≠ some .idToken then .ok ()
  else if params.actor.isSome then
    .error (.oauth .invalidRequest
      "actor_token is not supported with requested_token_type=id_token")
  else if params.scope.isSome then
    .error (.oauth .invalidScope "scope is not supported with requested_token_type=id_token")
  else if params.authorizationDetails.isSome then
    .error (.oauth .invalidAuthorizationDetails
      "authorization_details is not supported with requested_token_type=id_token")
  else .ok ()

/-- The binding of the subject token, proven by the request; one that is delegated may have none. -/
def subjectBinding (params : TokenExchangeParams) (subject : AccessTokenClaims) :
    Except ServiceError (Option TokenBinding) :=
  match subject.cnf with
  | none => .ok none
  | some cnf =>
    if params.actor.isSome then
      .error (.oauth .invalidRequest
        "subject_token: a sender-constrained subject token cannot be delegated")
    else (cnf.confirmedBinding params.presented).mapError (·.forExchange "subject_token")

/-- A live session for a token. -/
def findSession {Key : Type} (lib : TokenLibrary Key) (env : ExchangeEnv) (token missing : String) :
    Except ServiceError SessionDoc := do
  let session ← env.session (lib.hashToken token)
  okOr session (.oauth .invalidRequest missing)

/-- An active user. -/
def findUser (env : ExchangeEnv) (id missing : String) : Except ServiceError UserDoc := do
  let user ← (env.user id).mapError fun e => .internal s!"Database error: {e}"
  let user ← okOr user (.oauth .invalidRequest missing)
  if !user.active then .error (.oauth .invalidRequest "User account is deactivated") else .ok user

/-- The audience of the issued token, which the client must be registered for. -/
def grantedAudience (url : UrlLibrary) (env : ExchangeEnv) (params : TokenExchangeParams)
    (subject : AccessTokenClaims) : Except ServiceError (Option String) := do
  let audience ←
    if params.requestedTokenType = some .idToken then .ok params.audience
    else subject.exchangedAudience url params.audience params.client.clientId env.baseUrl
  if audience.any fun aud => !params.client.isValidResourceUri aud then
    .error (.oauth .invalidRequest
      ("No audience was requested, and the inherited audience is not " ++
        "registered for this client"))
  else .ok audience

/-- The policies of the subject's organization. -/
def checkPolicies (env : ExchangeEnv) (params : TokenExchangeParams) (userId : String)
    (user : UserDoc) (audience : Option String) : Except ServiceError Unit :=
  match user.orgId with
  | none => .ok ()
  | some orgId =>
    (env.exchangePolicies orgId userId user.email.text params.client.clientId audience).mapError
      policyError

/-- What an actor token contributes. -/
structure Delegation where
  act : Option ActorClaim
  actorUserId : Option String
  binding : Option TokenBinding

/-- The binding of the actor token, proven by the request. -/
def actorBinding (params : TokenExchangeParams) (actor : AccessTokenClaims) :
    Except ServiceError (Option TokenBinding) :=
  match actor.cnf with
  | none => .ok none
  | some cnf => (cnf.confirmedBinding params.presented).mapError (·.forExchange "actor_token")

/-- The one policy of the actor's organization that is about an actor. -/
def checkActorPolicy (env : ExchangeEnv) (userId : String) (user : UserDoc) :
    Except ServiceError Unit :=
  match user.orgId with
  | none => .ok ()
  | some orgId => (env.actorLogoutPolicy orgId userId user.email.text).mapError policyError

/-- The actor, with its own token, session, user and policy. -/
def delegate {Key : Type} (lib : TokenLibrary Key) (env : ExchangeEnv)
    (params : TokenExchangeParams) (subject : AccessTokenClaims) (subjectUser : UserDoc)
    (arrival : Timestamp) : Except ServiceError Delegation :=
  match params.actor with
  | none => .ok ⟨none, none, none⟩
  | some token => do
    let actor ← okOr (decodeToken lib token env.baseUrl arrival)
      (.oauth .invalidRequest "Invalid actor token")
    let binding ← actorBinding params actor
    if actor.sub = subject.sub then
      .error (.oauth .invalidRequest "Self-delegation is not permitted")
    else
      let _ ← findSession lib env token "Actor token session not found or revoked"
      let user ← findUser env actor.sub "Actor token user not found"
      if user.orgId ≠ subjectUser.orgId then
        .error (.oauth .invalidRequest "Actor and subject must belong to the same organization")
      else
        checkActorPolicy env actor.sub user
        let act := ActorClaim.new (actor.email.getD user.email.text) subject.act
        if act.depth > maxDelegationDepth then
          .error (.oauth .invalidRequest "Delegation chain exceeds maximum depth")
        else .ok ⟨some act, some actor.sub, binding⟩

/-- The binding of the issued token: the subject's, or the actor's, or what the client proved. -/
def issuedBinding (params : TokenExchangeParams) (subject actor : Option TokenBinding) :
    Except ServiceError TokenBinding :=
  let inherited := (subject.map fun binding => ("subject_token", binding)).or
    (actor.map fun binding => ("actor_token", binding))
  match inherited with
  | some (parameter, .mutualTls thumbprint) =>
    if params.client.dpopBoundAccessTokens then
      .error (PossessionError.dpopRequired.forExchange parameter)
    else .ok (.mutualTls thumbprint)
  | some (_, binding) => .ok binding
  | none => .ok (TokenBinding.new params.presented.dpop
      (params.presented.mtlsCert.filter fun _ =>
        params.client.tlsClientCertificateBoundAccessTokens))

/-- The authorization details of the issued token: the subject's, or a part of them. -/
def grantedDetails (json : JsonLibrary) (params : TokenExchangeParams) (session : SessionDoc) :
    Except ServiceError (Option JsonValue) :=
  let inherited := session.authorizationDetails.bind AuthorizationDetails.tryFrom
  match params.authorizationDetails with
  | none => .ok session.authorizationDetails
  | some raw => do
    let requested ← AuthorizationDetails.parse json raw
    match inherited with
    | some inherited =>
      if !requested.isSubsetOf inherited then
        .error (.oauth .invalidAuthorizationDetails
          ("Requested authorization_details is not a " ++
            "subset of the inherited authorization_details"))
      else .ok (some requested.toValue)
    | none =>
      .error (.oauth .invalidAuthorizationDetails
        "No authorization_details to narrow — subject token has none")

/-- What is asked of `create_oauth_access_token`. -/
def exchangedParams (params : TokenExchangeParams) (subject : AccessTokenClaims)
    (session : SessionDoc) (user : UserDoc) (scope : Option ScopeSet) (binding : TokenBinding)
    (act : Option ActorClaim) (audience : Option String) (expiresIn : Nat)
    (details : Option JsonValue) : CreateOAuthTokenParams where
  userId := session.userId
  email := user.email.text
  authenticatorId := session.authenticatorId
  clientId := params.client.clientId
  scope := scope
  binding := binding
  act := act
  audience := audience
  maxLifetimeSecs := some expiresIn
  hardwareVerification := subject.hardwareVerification
  authorizationDetails := details
  hardwareAaguid := session.hardwareAaguid
  orgDomain := session.orgDomain
  sourceCodeHash := session.sourceCodeHash

/-- `exchange_token`. -/
def exchangeToken {Key : Type} (lib : ExchangeLibrary Key) (env : ExchangeEnv)
    (params : TokenExchangeParams) (arrival : Timestamp) : Except ServiceError Issued := do
  refuseWithIdToken params
  let subject ← okOr (decodeToken lib.toTokenLibrary params.subject env.baseUrl arrival)
    (.oauth .invalidRequest "Invalid or expired subject token")
  let ownBinding ← subjectBinding params subject
  let session ← findSession lib.toTokenLibrary env params.subject "Subject token session not found"
  let user ← findUser env session.userId "Subject token user not found"
  let audience ← grantedAudience lib.url env params subject
  checkPolicies env params session.userId user audience
  let delegation ← delegate lib.toTokenLibrary env params subject user arrival
  let binding ← issuedBinding params ownBinding delegation.binding
  let scope ← calculateGrantedScope params.scope subject.scope
  let expiresIn := capLifetimeBySubjectTtl env.sessionSecs subject.exp arrival
  if params.requestedTokenType = some .idToken then
    if !subject.hardwareVerification.hardwareVerified then
      .error (.oauth .invalidRequest "ID token exchange requires a hardware-verified subject token")
    else if session.sessionType ≠ .credentialIssuance then
      .error (.oauth .invalidRequest
        "ID token exchange requires a subject token from 'vouch login'")
    else
      let token ← env.issueIdToken
        ⟨session, user.email.text, lib.hashToken params.subject, audience, expiresIn, params.client⟩
      .ok (.idToken token)
  else
    let details ← grantedDetails lib.json params session
    let issued ← createOauthAccessToken lib.toTokenLibrary env.toIssueEnv
      (exchangedParams params subject session user scope binding delegation.act audience expiresIn
        details)
      session.sessionType arrival
    .ok (.accessToken issued)

/-! ## The endpoint -/

/-- `resolve_token_audience`. -/
def resolveTokenAudience (url : UrlLibrary) (audience resource : Option String)
    (client : ExchangeClient) : Except ServiceError (Option String) := do
  if resource.any fun res => !(ResourceUri.parse url res).isOk then
    .error (.oauth .invalidTarget
      "Invalid resource parameter: must be an absolute URI without a fragment")
  else if audience.isSome && resource.isSome && audience != resource then
    .error (.oauth .invalidTarget
      "resource and audience parameters must match when both are provided")
  else
    let effective := audience.or resource
    if effective.any fun aud => !client.isValidResourceUri aud then
      .error (.oauth .invalidTarget "The requested audience is not registered for this client")
    else .ok effective

/-- `validate_fapi_token_request`. -/
def validateFapiTokenRequest (client : ExchangeClient) (constraints : SenderConstraints) :
    Except ServiceError Unit :=
  if client.fapiProfile ≠ .none ∧ constraints.dpop.isNone ∧ constraints.mtlsCert.isNone then
    .error (.oauth .invalidRequest
      "FAPI 2.0 requires sender-constrained access tokens (DPoP or mTLS required)")
  else .ok ()

/-- `SenderConstraintProof::validate`. -/
def validateSenderConstraints (client : ExchangeClient) (constraints : SenderConstraints) :
    Except ServiceError Unit := do
  validateFapiTokenRequest client constraints
  if client.dpopBoundAccessTokens ∧ constraints.dpop.isNone then
    .error (.oauth .invalidRequest
      "Client requires DPoP-bound access tokens but no DPoP proof was provided")
  else if client.tlsClientCertificateBoundAccessTokens ∧ constraints.mtlsCert.isNone ∧
      constraints.dpop.isNone then
    .error (.oauth .invalidRequest
      ("Client requires certificate-bound access tokens but no client " ++
      "certificate was presented"))
  else .ok ()

/-- A request to the endpoint, from an authenticated client. -/
structure ExchangeRequest where
  client : ExchangeClient
  presented : SenderConstraints
  subjectToken : String
  subjectTokenType : String
  actorToken : Option String
  actorTokenType : Option String
  requestedTokenType : Option String
  audience : Option String
  resource : Option String
  scope : Option String
  authorizationDetails : Option String

/-- `handle_token_exchange_grant`, behind the authentication of the client. -/
def handleTokenExchangeGrant {Key : Type} (lib : ExchangeLibrary Key) (env : ExchangeEnv)
    (req : ExchangeRequest) (arrival : Timestamp) : Except ServiceError Issued := do
  if !req.client.isAuthorizedForGrant then
    .error (.oauth .unauthorizedClient
      "Client is not authorized for urn:ietf:params:oauth:grant-type:token-exchange grant")
  else
    validateSenderConstraints req.client req.presented
    let audience ← resolveTokenAudience lib.url req.audience req.resource req.client
    let subject ← subjectToken req.subjectToken req.subjectTokenType
    let actor ← actorToken req.actorToken req.actorTokenType
    let requestedTokenType ← RequestedTokenType.fromParam req.requestedTokenType
    exchangeToken lib env
      { subject, actor, audience, scope := req.scope, requestedTokenType, client := req.client
        presented := req.presented, authorizationDetails := req.authorizationDetails }
      arrival

/-! ## What a successful exchange has found -/

/-- What the stages of an exchange for an access token return. -/
structure Stages where
  subject : AccessTokenClaims
  session : SessionDoc
  user : UserDoc
  audience : Option String
  ownBinding : Option TokenBinding
  delegation : Delegation
  binding : TokenBinding
  scope : Option ScopeSet
  details : Option JsonValue

/-- Every stage passed, and the last one issued the token. -/
structure Stages.Passed {Key : Type} (stages : Stages) (lib : ExchangeLibrary Key)
    (env : ExchangeEnv) (params : TokenExchangeParams) (arrival : Timestamp)
    (issued : AccessToken) : Prop where
  decoded : decodeToken lib.toTokenLibrary params.subject env.baseUrl arrival = some stages.subject
  bound : subjectBinding params stages.subject = .ok stages.ownBinding
  live : env.session (lib.hashToken params.subject) = .ok (some stages.session)
  audience : grantedAudience lib.url env params stages.subject = .ok stages.audience
  delegated : delegate lib.toTokenLibrary env params stages.subject stages.user arrival =
    .ok stages.delegation
  binding : issuedBinding params stages.ownBinding stages.delegation.binding = .ok stages.binding
  scope : calculateGrantedScope params.scope stages.subject.scope = .ok stages.scope
  details : grantedDetails lib.json params stages.session = .ok stages.details
  issued : createOauthAccessToken lib.toTokenLibrary env.toIssueEnv
      (exchangedParams params stages.subject stages.session stages.user stages.scope stages.binding
        stages.delegation.act stages.audience
        (capLifetimeBySubjectTtl env.sessionSecs stages.subject.exp arrival) stages.details)
      stages.session.sessionType arrival = .ok issued
  requested : params.requestedTokenType ≠ some .idToken

variable {Key : Type} {env : ExchangeEnv}

theorem findSession_ok {lib : TokenLibrary Key} {token missing : String} {session : SessionDoc}
    (h : findSession lib env token missing = .ok session) :
    env.session (lib.hashToken token) = .ok (some session) := by
  obtain ⟨found, hfound, h⟩ := bind_eq_ok.1 h
  rw [hfound, okOr_eq_ok.1 h]

variable {params : TokenExchangeParams} {arrival : Timestamp}

/-- **A successful exchange passed every stage.**  For an ID token the first ones suffice: no actor
was named. -/
theorem exchangeToken_ok {lib : ExchangeLibrary Key} {issued : Issued}
    (h : exchangeToken lib env params arrival = .ok issued) :
    (∃ stages : Stages, ∃ token, issued = .accessToken token ∧
        stages.Passed lib env params arrival token) ∨
      ∃ token, issued = .idToken token ∧ params.actor = none := by
  obtain ⟨_, hrefuse, h⟩ := bind_eq_ok.1 h
  obtain ⟨subject, hdecoded, h⟩ := bind_eq_ok.1 h
  obtain ⟨ownBinding, hbound, h⟩ := bind_eq_ok.1 h
  obtain ⟨session, hlive, h⟩ := bind_eq_ok.1 h
  obtain ⟨user, -, h⟩ := bind_eq_ok.1 h
  obtain ⟨audience, haudience, h⟩ := bind_eq_ok.1 h
  obtain ⟨_, -, h⟩ := bind_eq_ok.1 h
  obtain ⟨delegation, hdelegated, h⟩ := bind_eq_ok.1 h
  obtain ⟨binding, hbinding, h⟩ := bind_eq_ok.1 h
  obtain ⟨scope, hscope, h⟩ := bind_eq_ok.1 h
  dsimp only at h
  by_cases hid : params.requestedTokenType = some .idToken
  · right
    rw [if_pos hid] at h
    have hactor : params.actor = none := by
      by_contra hsome
      rw [refuseWithIdToken, if_neg (by simpa using hid),
        if_pos (Option.isSome_iff_ne_none.2 hsome)] at hrefuse
      cases hrefuse
    split at h
    · cases h
    · split at h
      · cases h
      · obtain ⟨token, -, h⟩ := bind_eq_ok.1 h
        cases h
        exact ⟨token, rfl, hactor⟩
  · left
    rw [if_neg hid] at h
    obtain ⟨details, hdetails, h⟩ := bind_eq_ok.1 h
    obtain ⟨token, htoken, h⟩ := bind_eq_ok.1 h
    cases h
    exact ⟨⟨subject, session, user, audience, ownBinding, delegation, binding, scope, details⟩,
      token, rfl,
      { decoded := okOr_eq_ok.1 hdecoded
        bound := hbound
        live := findSession_ok hlive
        audience := haudience
        delegated := hdelegated
        binding := hbinding
        scope := hscope
        details := hdetails
        issued := htoken
        requested := hid }⟩

/-- The actor claim of an exchange: none without an actor token, and else the subject's with one
actor in front. -/
theorem delegate_ok {lib : TokenLibrary Key} {subject : AccessTokenClaims} {user : UserDoc}
    {delegation : Delegation} (h : delegate lib env params subject user arrival = .ok delegation) :
    (params.actor = none ∧ delegation = ⟨none, none, none⟩) ∨
      ∃ token sub, params.actor = some token ∧
        delegation.act = some (ActorClaim.new sub subject.act) ∧
        (ActorClaim.new sub subject.act).depth ≤ maxDelegationDepth := by
  cases hactor : params.actor with
  | none =>
    left
    simp only [delegate, hactor] at h
    exact ⟨rfl, (Except.ok.inj h).symm⟩
  | some token =>
    right
    simp only [delegate, hactor] at h
    obtain ⟨actor, -, h⟩ := bind_eq_ok.1 h
    obtain ⟨binding, -, h⟩ := bind_eq_ok.1 h
    split at h
    · cases h
    obtain ⟨_, -, h⟩ := bind_eq_ok.1 h
    obtain ⟨actorUser, -, h⟩ := bind_eq_ok.1 h
    split at h
    · cases h
    obtain ⟨_, -, h⟩ := bind_eq_ok.1 h
    split at h
    · cases h
    rename_i hdepth
    cases h
    exact ⟨token, _, rfl, rfl, Nat.le_of_not_lt hdepth⟩

theorem resolveTokenAudience_ok {url : UrlLibrary} {audience resource effective : Option String}
    {client : ExchangeClient}
    (h : resolveTokenAudience url audience resource client = .ok effective) :
    effective = audience.or resource := by
  rw [resolveTokenAudience] at h
  split at h
  · cases h
  · split at h
    · cases h
    · dsimp only at h
      split at h
      · cases h
      · exact (Except.ok.inj h).symm

/-- The parameters of an exchange are those of the request. -/
structure TokenExchangeParams.Of (params : TokenExchangeParams) (req : ExchangeRequest) : Prop where
  subject : params.subject = req.subjectToken
  actor : params.actor = req.actorToken
  client : params.client = req.client
  audience : params.audience = req.audience.or req.resource

/-- For an access token, the audience is the one that the subject token allows. -/
theorem grantedAudience_ok {url : UrlLibrary} {subject : AccessTokenClaims}
    {audience : Option String} (hrequested : params.requestedTokenType ≠ some .idToken)
    (h : grantedAudience url env params subject = .ok audience) :
    subject.exchangedAudience url params.audience params.client.clientId env.baseUrl =
      .ok audience := by
  unfold grantedAudience at h
  rw [if_neg hrequested] at h
  obtain ⟨exchanged, hexchanged, h⟩ := bind_eq_ok.1 h
  dsimp only at h
  split at h
  · cases h
  · cases h
    exact hexchanged

/-- The endpoint hands the request on as it came. -/
theorem handleTokenExchangeGrant_ok {lib : ExchangeLibrary Key} {req : ExchangeRequest}
    {issued : Issued} (h : handleTokenExchangeGrant lib env req arrival = .ok issued) :
    ∃ params : TokenExchangeParams, params.Of req ∧
      exchangeToken lib env params arrival = .ok issued := by
  rw [handleTokenExchangeGrant] at h
  split at h
  · cases h
  obtain ⟨_, -, h⟩ := bind_eq_ok.1 h
  obtain ⟨audience, haudience, h⟩ := bind_eq_ok.1 h
  obtain ⟨subject, hsubject, h⟩ := bind_eq_ok.1 h
  obtain ⟨actor, hactor, h⟩ := bind_eq_ok.1 h
  obtain ⟨requestedTokenType, -, h⟩ := bind_eq_ok.1 h
  exact ⟨_, ⟨subjectToken_ok hsubject, actorToken_ok hactor, rfl,
    resolveTokenAudience_ok haudience⟩, h⟩

end Vouch
