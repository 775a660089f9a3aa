import Vouch.Oidc.AccessToken
import Vouch.Oidc.AuthorizeRequest

/-!
# The authorization endpoint

`handlers/oidc/authorize.rs`: from a query and a session cookie to an answer.  A visit goes through
three phases: the client and the redirect URI (refusals are pages), the request (refusals go to the
client), and the session.  What the session phase may do is to issue a code, or to keep the request
as a pending record and send the user to log in; the user comes back with the record's id.

* `AuthorizeEnv` — the clock, the database and the rest of the server, as one visit meets them.
* `Prepared`, `prepare` — the first two phases, for a direct request, a signed Request Object, a
  fetched one and a pushed one.
* `checkSessionAndAuthorize` — the session phase.  It decides by `needsReauth`, under the policy of
  the flow.
* `handlePendingAuth` — a return from the login page.  It decides by `pendingReauthViolation`,
  whatever flow the record came from.

Each step comes with what follows from a code it issued (`_issued`) and from a record it stored
(`_stored`).
-/

namespace Vouch.Authorize

open Result

/-! ## Answers -/

/-- A text of the catalogue with its arguments. -/
structure Tr where
  key : String
  args : List (String × String)
  deriving DecidableEq, Repr

/-- An answer to the browser. -/
inductive Response
  /-- `AuthorizeDeniedTemplate`. -/
  | denied (clientName : String) (message : Tr)
  /-- `oauth_error_response`. -/
  | oauthError (redirectUri : String) (error : OAuthErrorCode) (description : String)
      (state : Option String) (mode : ResponseMode)
  | login (pendingId : String)
  | code (redirectUri code : String) (state : Option String) (mode : ResponseMode)
  deriving DecidableEq, Repr

/-- `AuthorizationCodeParams`. -/
structure AuthorizationCodeParams where
  clientId : String
  redirectUri : String
  userId : String
  email : String
  authenticatorId : String
  aaguid : Option String
  scope : ScopeSet
  nonce : Option String
  codeChallenge : Option String
  codeChallengeMethod : Option CodeChallengeMethod
  resource : Option String
  acrValues : Option String
  dpopJkt : Option String
  authCodeLifetimeSeconds : Int
  authorizationDetails : Option JsonValue
  authenticatedAt : Option Timestamp

/-- `PendingOAuthAuthorization`. -/
structure PendingOAuthAuthorization where
  id : String
  createdAt : Timestamp
  data : PendingOAuthAuthDoc

/-- An answer, with the record a visit stored and the code it issued. -/
structure Answer where
  response : Response
  stored : Option PendingOAuthAuthorization
  issued : Option AuthorizationCodeParams

/-- An answer and nothing more. -/
def Answer.of (response : Response) : Answer := ⟨response, none, none⟩

/-! ## The rest of the server -/

/-- What one visit meets. -/
structure AuthorizeEnv where
  arrival : Timestamp
  /-- `get_oauth_client_by_client_id`. -/
  client : String → Except String (Option OAuthClient)
  /-- `find_one` of a pushed request, by its URI. -/
  pushedRequest : String → Except String (Option PushedAuthorizationRequestDoc)
  /-- `validate_request_object`, with the `client_id` and the `response_type` of the query. -/
  validateRequestObject : String → OAuthClient → String → Option String →
    Except ServiceError AuthorizeRequestParams
  fetchRequestObject : String → Except ServiceError String
  validateSessionToken : String → Except ServiceError (Option OidcValidatedSession)
  /-- `get` of a pending record. -/
  pending : String → Except String (Option PendingOAuthAuthorization)
  /-- The clock when a pending record is made. -/
  now : Timestamp
  /-- `insert` of a pending record, with its id and the instant of its creation. -/
  insertPending : PendingOAuthAuthDoc → Except String (String × Timestamp)
  /-- `ParConsumptionProof::consume`. -/
  consumePar : ParRef → Except ClaimError Unit
  /-- `consume_pending_oauth_authorization`. -/
  consumePending : String → Except ClaimError Unit
  issueAuthorizationCode : AuthorizationCodeParams → Except ServiceError String
  /-- `build_jarm_success_jwt`. -/
  jarm : OAuthClient → String → Option String → Except String String

/-- `get_pushed_authorization_request`. -/
def getPushedAuthorizationRequest (env : AuthorizeEnv) (requestUri clientId : String) :
    Except String (Option PushedAuthorizationRequestDoc) := do
  match ← env.pushedRequest requestUri with
  | none => .ok none
  | some par =>
    if par.clientId ≠ clientId ∨ par.consumedAt.isSome ∨ par.expiresAt ≤ env.arrival then .ok none
    else .ok (some par)

/-- `get_pending_oauth_authorization`. -/
def getPendingOauthAuthorization (env : AuthorizeEnv) (id : String) :
    Except String (Option PendingOAuthAuthorization) := do
  match ← env.pending id with
  | none => .ok none
  | some pending =>
    if pending.data.consumedAt.isNone ∧ env.arrival < pending.data.expiresAt then .ok (some pending)
    else .ok none

/-- `create_pending_oauth_authorization`. -/
def createPendingOauthAuthorization (env : AuthorizeEnv) (params : CreatePendingOAuthParams) :
    Except String PendingOAuthAuthorization :=
  match env.now.checkedAddSeconds 600 with
  | none => .error "Time calculation overflow computing expiration"
  | some expiresAt => do
    let data := params.document expiresAt
    let (id, createdAt) ← env.insertPending data
    .ok ⟨id, createdAt, data⟩

/-! ## Clients and redirect URIs -/

/-- A refusal on a page of the server's own. -/
def refusePage {α : Type} (clientName key : String) : Except Response α :=
  .error (.denied clientName ⟨key, []⟩)

/-- The name a page shows where there is no client. -/
def unknownApplication : String := "Unknown Application"

/-- `ServiceError::oauth_description`. -/
def oauthDescription : ServiceError → String
  | .oauth _ description => description
  | .notFound what => s!"not found: {what}"
  | .validation text => s!"validation: {text}"
  | .forbidden text => s!"forbidden: {text}"
  | .conflict text => s!"conflict: {text}"
  | .api _ _ message => message
  | .occConflict => "OCC version conflict; retry the transaction"
  | .internal text => s!"internal error: {text}"

/-- The code and the description an error goes to the client with. -/
def errorParts (e : ServiceError) : OAuthErrorCode × String :=
  match e with
  | .oauth code description => (code, description)
  | e => (.serverError, oauthDescription e)

/-- `OAuthErrorCode::as_str`. -/
def errorCodeText : OAuthErrorCode → String
  | .invalidRequest => "invalid_request"
  | .invalidClient => "invalid_client"
  | .invalidGrant => "invalid_grant"
  | .unauthorizedClient => "unauthorized_client"
  | .invalidScope => "invalid_scope"
  | .invalidTarget => "invalid_target"
  | .invalidAuthorizationDetails => "invalid_authorization_details"
  | .invalidToken => "invalid_token"
  | .accessDenied => "access_denied"
  | .serverError => "server_error"
  | .unsupportedResponseType => "unsupported_response_type"
  | .unmetAuthenticationRequirements => "unmet_authentication_requirements"
  | .invalidRequestUri => "invalid_request_uri"
  | .loginRequired => "login_required"
  | .accountSelectionRequired => "account_selection_required"
  | .invalidDpopProof => "invalid_dpop_proof"

/-- The code a page shows for a Request Object that was refused. -/
def requestObjectErrorCode : ServiceError → String
  | .oauth code _ => errorCodeText code
  | _ => "invalid_request_object"

/-- `AuthorizeResponseTarget`. -/
structure AuthorizeResponseTarget where
  client : OAuthClient
  redirectUri : String
  responseMode : ResponseMode

/-- `AuthorizeResponseTarget::error_redirect`. -/
def AuthorizeResponseTarget.errorRedirect (target : AuthorizeResponseTarget)
    (error : OAuthErrorCode) (description : String) (state : Option String) : Response :=
  .oauthError target.redirectUri error description state target.responseMode

/-- `lookup_and_check_active`. -/
def lookupAndCheckActive (env : AuthorizeEnv) (clientId : String) : Except Response OAuthClient :=
  match env.client clientId with
  | .error _ => refusePage unknownApplication "authorize-denied-generic"
  | .ok none => refusePage unknownApplication "authorize-denied-unknown-client"
  | .ok (some client) =>
    if !client.active then refusePage client.name "authorize-denied-client-deactivated" else .ok
      client

/-- `resolve_redirect_uri`. -/
def resolveRedirectUri (lib : AuthorizeLibrary) (param : Option String) (client : OAuthClient) :
    Except Response String :=
  match param.filter fun uri => !uri.isEmpty with
  | some uri =>
    if !client.isValidRedirectUri lib uri then
      refusePage client.name "authorize-denied-redirect-uri-unregistered"
    else .ok uri
  | none =>
    match client.redirectUris with
    | [uri] => .ok uri
    | _ => refusePage client.name "authorize-denied-redirect-uri-required"

/-- `ResponseMode::ACCEPTED`. -/
def acceptedResponseModes : List (String × ResponseMode) :=
  [("query", .query), ("form_post", .formPost), ("jwt", .jwt), ("query.jwt", .jwt)]

/-- `ResponseMode::parse`. -/
def responseModeOf (s : String) : Option ResponseMode :=
  (acceptedResponseModes.find? fun entry => entry.1 = s).map Prod.snd

/-- `ResponseMode::supported_values`. -/
def supportedResponseModes : String := ", ".intercalate (acceptedResponseModes.map Prod.fst)

/-- `parse_response_mode`. -/
def parseResponseMode : Option String → Except ServiceError ResponseMode
  | none => .ok .query
  | some value =>
    match responseModeOf value with
    | none =>
      .error (.oauth .invalidRequest
        s!"Unsupported response_mode. Supported values: {supportedResponseModes}")
    | some mode => .ok mode

/-- `ResponseModeSource`. -/
inductive ResponseModeSource
  | requested (param : Option String)
  | stored (mode : ResponseMode)

/-- The response mode of a request whose redirect URI is known. -/
def resolveResponseMode (redirectUri : String) (state : Option String) :
    ResponseModeSource → Except Response ResponseMode
  | .stored mode => .ok mode
  | .requested param =>
    match parseResponseMode param with
    | .ok mode => .ok mode
    | .error e => .error (.oauthError redirectUri .invalidRequest (oauthDescription e) state .query)

/-- `AuthorizeResponseTarget::finish`, with `ValidatedOAuthClient::for_authorize`. -/
def finish (client : OAuthClient) (redirectUri : String) (source : ResponseModeSource)
    (state : Option String) : Except Response AuthorizeResponseTarget := do
  let mode ← resolveResponseMode redirectUri state source
  if client.responseTypes.all (·.contains "code") then .ok ⟨client, redirectUri, mode⟩
  else .error (.oauthError redirectUri .unauthorizedClient
    "Client is not registered for the 'code' response type" state mode)

/-- `AuthorizeResponseTarget::resolve`. -/
def resolve (lib : AuthorizeLibrary) (env : AuthorizeEnv) (clientId : String)
    (redirectUri : Option String) (source : ResponseModeSource) (state : Option String) :
    Except Response AuthorizeResponseTarget := do
  let client ← lookupAndCheckActive env clientId
  let redirectUri ← resolveRedirectUri lib redirectUri client
  finish client redirectUri source state

/-- `AuthorizeResponseTarget::from_validated_client`. -/
def fromValidatedClient (lib : AuthorizeLibrary) (client : OAuthClient) (redirectUri : String)
    (source : ResponseModeSource) (state : Option String) :
    Except Response AuthorizeResponseTarget :=
  if !client.isValidRedirectUri lib redirectUri then
    refusePage client.name "authorize-denied-redirect-uri-unregistered"
  else finish client redirectUri source state

/-! ## Requests -/

/-- `AuthorizeQuery`. -/
structure AuthorizeQuery where
  responseType : Option String
  clientId : Option String
  redirectUri : Option String
  scope : Option String
  state : Option String
  nonce : Option String
  codeChallenge : Option String
  codeChallengeMethod : Option String
  pendingAuth : Option String
  resource : Option String
  acrValues : Option String
  maxAge : Option Nat
  prompt : Option String
  requestUri : Option String
  request : Option String
  dpopJkt : Option String
  authorizationDetails : Option String
  responseMode : Option String

/-- `AuthFlowKind`. -/
inductive AuthFlowKind
  | direct
  | jar
  | par
  | requestUriFetch
  deriving DecidableEq, Repr

/-- `ReauthPolicy`. -/
inductive ReauthPolicy
  /-- Log in again where the request asks for it. -/
  | onDemand
  /-- Log in again unless the request is silent. -/
  | always
  deriving DecidableEq, Repr

/-- A request that has passed the first two phases. -/
structure Prepared where
  flow : AuthFlowKind
  target : AuthorizeResponseTarget
  validated : ValidatedAuthRequest
  par : Option ParRef

/-- The policy of a flow. -/
def AuthFlowKind.reauthPolicy : AuthFlowKind → ReauthPolicy
  | par => .always
  | direct | jar | requestUriFetch => .onDemand

/-- A service's check, whose refusal goes to the client. -/
def orRedirect {α : Type} (target : AuthorizeResponseTarget) (state : Option String)
    (check : Except ServiceError α) : Except Response α :=
  match check with
  | .ok a => .ok a
  | .error e =>
    let (code, description) := errorParts e
    .error (target.errorRedirect code description state)

/-- `run_security_pipeline`. -/
def runSecurityPipeline (validated : ValidatedAuthRequest) (target : AuthorizeResponseTarget)
    (flow : AuthFlowKind) : Except Response Unit := do
  orRedirect target validated.state (requirePkceForClient validated target.client)
  if flow ≠ .par then
    orRedirect target validated.state (validateFapiAuthorizationRequest target.client false)
  if flow = .direct ∧ target.client.requireSignedRequestObject = some true then
    .error (target.errorRedirect .invalidRequest
      "This client requires a signed Request Object (RFC 9101)" validated.state)

/-- The second phase, which is the same for every flow. -/
def validateAndCheck (lib : AuthorizeLibrary) (flow : AuthFlowKind)
    (target : AuthorizeResponseTarget) (params : AuthorizeRequestParams) (par : Option ParRef) :
    Except Response Prepared := do
  let validated ← orRedirect target params.state (validateAuthorizeRequest lib params)
  runSecurityPipeline validated target flow
  .ok ⟨flow, target, validated, par⟩

theorem validateAndCheck_ok {lib : AuthorizeLibrary} {flow : AuthFlowKind}
    {target : AuthorizeResponseTarget} {params : AuthorizeRequestParams} {par : Option ParRef}
    {p : Prepared} (h : validateAndCheck lib flow target params par = .ok p) :
    validateAuthorizeRequest lib params = .ok p.validated ∧ p.target = target := by
  obtain ⟨validated, hvalidated, h⟩ := bind_eq_ok.mp h
  obtain ⟨-, -, h⟩ := bind_eq_ok.mp h
  cases h
  unfold orRedirect at hvalidated
  split at hvalidated
  · rename_i hok
    cases hvalidated
    exact ⟨hok, rfl⟩
  · cases hvalidated

/-- The parameters of a direct request. -/
def AuthorizeQuery.params (query : AuthorizeQuery) (redirectUri : String) :
    AuthorizeRequestParams where
  responseType := query.responseType.getD ""
  clientId := query.clientId.getD ""
  redirectUri := redirectUri
  scope := query.scope
  state := query.state
  nonce := query.nonce
  codeChallenge := query.codeChallenge
  codeChallengeMethod := query.codeChallengeMethod
  resource := query.resource
  acrValues := query.acrValues
  maxAge := query.maxAge
  prompt := query.prompt
  dpopJkt := query.dpopJkt
  authorizationDetails := query.authorizationDetails
  responseMode := none

/-- `handle_direct_request`, up to the session. -/
def prepareDirect (lib : AuthorizeLibrary) (env : AuthorizeEnv) (query : AuthorizeQuery) :
    Except Response Prepared := do
  let clientId := query.clientId.getD ""
  if clientId.isEmpty then refusePage unknownApplication "authorize-denied-client-id-required"
  let target ← resolve lib env clientId query.redirectUri
    (.requested query.responseMode) query.state
  validateAndCheck lib .direct target (query.params target.redirectUri) none

/-- `handle_jar_request`, up to the session. -/
def prepareJar (lib : AuthorizeLibrary) (env : AuthorizeEnv) (request clientId : String)
    (query : AuthorizeQuery) : Except Response Prepared := do
  let client ← lookupAndCheckActive env clientId
  match env.validateRequestObject request client clientId query.responseType with
  | .error e =>
    .error (.denied client.name
      ⟨"authorize-denied-invalid-request-object", [("detail", oauthDescription e)]⟩)
  | .ok params =>
    let target ← fromValidatedClient lib client params.redirectUri (.requested params.responseMode)
      params.state
    validateAndCheck lib .jar target params none

/-- `lookup_par`. -/
def lookupPar (lib : AuthorizeLibrary) (env : AuthorizeEnv) (requestUri clientId : String)
    (fallbackRedirectUri : Option String) (mode : ResponseMode) :
    Except Response PushedAuthorizationRequestDoc :=
  match getPushedAuthorizationRequest env requestUri clientId with
  | .ok (some par) => .ok par
  | .ok none =>
    let registered := fallbackRedirectUri.filter fun uri =>
      match env.client clientId with
      | .ok (some client) => client.isValidRedirectUri lib uri
      | _ => false
    match registered with
    | some uri =>
      .error (.oauthError uri .invalidRequestUri "Invalid or expired request_uri" none mode)
    | none => refusePage unknownApplication "authorize-denied-request-uri-expired"
  | .error _ => refusePage unknownApplication "authorize-denied-generic"

/-- `handle_par_request`, up to the session. -/
def preparePar (lib : AuthorizeLibrary) (env : AuthorizeEnv) (requestUri clientId : String)
    (query : AuthorizeQuery) : Except Response Prepared := do
  let par ← lookupPar lib env requestUri clientId query.redirectUri
    ((query.responseMode.bind responseModeOf).getD .query)
  let target ← resolve lib env par.clientId (some par.redirectUri)
    (.stored par.responseMode) par.state
  validateAndCheck lib .par target (requestOfPar lib.json par)
    (some ⟨requestUri, clientId, .enforceExpiry⟩)

/-- `handle_request_uri_fetch`, up to the session, with `fetch_and_resolve_request_uri`. -/
def prepareRequestUriFetch (lib : AuthorizeLibrary) (env : AuthorizeEnv)
    (requestUri clientId : String) (query : AuthorizeQuery) : Except Response Prepared := do
  let client ← lookupAndCheckActive env clientId
  let refuse (key : String) (args : List (String × String)) : Response :=
    .denied client.name ⟨key, args⟩
  match validateFapiAuthorizationRequest client false with
  | .error e => .error (refuse "authorize-denied-invalid-request" [("detail", oauthDescription e)])
  | .ok () =>
    if !client.isValidRequestUri lib requestUri then
      .error (refuse "authorize-denied-request-uri-unregistered" [])
    else
      match env.fetchRequestObject requestUri with
      | .error e =>
        .error (refuse "authorize-denied-request-object-fetch-failed"
          [("detail", oauthDescription e)])
      | .ok fetched =>
        match env.validateRequestObject fetched client clientId query.responseType with
        | .error e =>
          .error (refuse "authorize-denied-invalid-request-object-coded"
            [("code", requestObjectErrorCode e), ("detail", oauthDescription e)])
        | .ok params =>
          let target ← fromValidatedClient lib client params.redirectUri
            (.requested params.responseMode) params.state
          validateAndCheck lib .requestUriFetch target params none

/-- `authorize_inner` up to the session, for a query that does not return from a login. -/
def prepare (lib : AuthorizeLibrary) (env : AuthorizeEnv) (query : AuthorizeQuery) :
    Except Response Prepared :=
  let clientId := query.clientId.getD ""
  match query.request, query.requestUri with
  | some _, some _ => refusePage unknownApplication "authorize-denied-request-and-request-uri"
  | some request, none =>
    if clientId.isEmpty then
      refusePage unknownApplication "authorize-denied-client-id-required-with-request"
    else prepareJar lib env request clientId query
  | none, some requestUri =>
    if clientId.isEmpty then
      refusePage unknownApplication "authorize-denied-client-id-required-with-request-uri"
    else if requestUriUrn.toList.isPrefixOf requestUri.toList then
      if requestUri.utf8ByteSize > 256 then
        refusePage unknownApplication "authorize-denied-request-uri-format"
      else preparePar lib env requestUri clientId query
    else if (lib.uri requestUri).any (·.scheme = "https") then
      prepareRequestUriFetch lib env requestUri clientId query
    else refusePage unknownApplication "authorize-denied-request-uri-scheme"
  | none, none => prepareDirect lib env query

/-! ## Codes -/

/-- `issue_code_and_redirect`. -/
def issueCodeAndRedirect (env : AuthorizeEnv) (params : AuthorizationCodeParams)
    (target : AuthorizeResponseTarget) (state : Option String) : Answer :=
  match env.issueAuthorizationCode params with
  | .error _ =>
    .of (target.errorRedirect .serverError "Failed to generate authorization code" state)
  | .ok code =>
    match target.responseMode with
    | .jwt =>
      match env.jarm target.client code state with
      | .ok jwt => ⟨.code target.redirectUri jwt state .jwt, none, some params⟩
      -- the code is stored by now, although the client does not get it
      | .error _ =>
        ⟨target.errorRedirect .serverError "Failed to generate authorization response" state, none,
          some params⟩
    | mode => ⟨.code target.redirectUri code state mode, none, some params⟩

/-- `validate_code_request_constraints`. -/
def validateCodeRequestConstraints (target : AuthorizeResponseTarget)
    (resource acrValues : Option String) (state : Option String) : Except Response Unit :=
  if acrValues.any fun acr => !(splitWhitespace acr).contains acrAal3 then
    .error (target.errorRedirect .unmetAuthenticationRequirements
      "The requested authentication context class is not supported" state)
  else if resource.any fun resource => !target.client.isValidResourceUri resource then
    .error (target.errorRedirect .invalidTarget
      "The requested resource is not registered for this client" state)
  else .ok ()

/-- The pushed request of an authorization is spent.  `used` is what the client is told if it was
spent before. -/
def spendPar (env : AuthorizeEnv) (target : AuthorizeResponseTarget) (par : Option ParRef)
    (used : String) (state : Option String) : Except Response Unit :=
  match par with
  | none => .ok ()
  | some par =>
    match env.consumePar par with
    | .ok () => .ok ()
    | .error .alreadyConsumed => .error (target.errorRedirect .invalidRequest used state)
    | .error _ => .error (target.errorRedirect .serverError
        "Failed to process pushed authorization request" state)

/-- The rest of a visit, after checks that may refuse it. -/
def Answer.after (checks : Except Response Unit) (rest : Answer) : Answer :=
  match checks with
  | .error response => .of response
  | .ok () => rest

variable {code : AuthorizationCodeParams}

theorem Answer.after_issued {checks : Except Response Unit} {rest : Answer}
    (h : (Answer.after checks rest).issued = some code) :
    checks = .ok () ∧ rest.issued = some code := by
  cases checks with
  | error response => cases h
  | ok => exact ⟨rfl, h⟩

variable {pending : PendingOAuthAuthorization}

theorem Answer.after_stored {checks : Except Response Unit} {rest : Answer}
    (h : (Answer.after checks rest).stored = some pending) : rest.stored = some pending := by
  cases checks with
  | error response => cases h
  | ok => exact h

variable {env : AuthorizeEnv}

theorem issueCodeAndRedirect_issued {params : AuthorizationCodeParams}
    {target : AuthorizeResponseTarget} {state : Option String}
    (h : (issueCodeAndRedirect env params target state).issued = some code) : code = params := by
  unfold issueCodeAndRedirect at h
  split at h
  · cases h
  · split at h
    · split at h
      · exact (Option.some.inj h).symm
      · exact (Option.some.inj h).symm
    · exact (Option.some.inj h).symm

theorem issueCodeAndRedirect_stored (env : AuthorizeEnv) (params : AuthorizationCodeParams)
    (target : AuthorizeResponseTarget) (state : Option String) :
    (issueCodeAndRedirect env params target state).stored = none := by
  unfold issueCodeAndRedirect
  split
  · rfl
  · split
    · split
      · rfl
      · rfl
    · rfl

/-- `access_denied_message`. -/
def accessDeniedMessage : ServiceError → Tr
  | .oauth _ description => ⟨"authorize-denied-access-denied-detail", [("detail", description)]⟩
  | _ => ⟨"authorize-denied-no-access", []⟩

/-- The check of who may use a client, refused on a page. -/
def checkAccess (client : OAuthClient) (user : User) : Except Response Unit :=
  match checkClientAccess client user with
  | .ok () => .ok ()
  | .error e => .error (.denied client.name (accessDeniedMessage e))

/-! ## The session phase -/

/-- What is stored of a request that waits for a login. -/
def pendingParams (p : Prepared) (promptOverride : Option Prompt) :
    CreatePendingOAuthParams :=
  let validated := p.validated
  { clientId := validated.clientId
    redirectUri := validated.redirectUri
    responseType := "code"
    state := validated.state
    scope := some (scopeText validated.scope)
    nonce := validated.nonce
    codeChallenge := validated.codeChallenge
    codeChallengeMethod := validated.codeChallengeMethod.map CodeChallengeMethod.asStr
    resource := validated.resource
    acrValues := validated.acrValues
    maxAge := validated.maxAge.bind i64OfU64
    prompt := ((promptOverride.map PromptSet.of).or validated.prompt).map PromptSet.toSpaceSeparated
    dpopJkt := validated.dpopJkt
    authorizationDetails := validated.authorizationDetails.map AuthorizationDetails.toValue
    responseMode := p.target.responseMode
    parRequestUri := p.par.map ParRef.requestUri }

/-- `store_pending_and_redirect`.  The lifetime of a pushed request is extended besides. -/
def storePendingAndRedirect (env : AuthorizeEnv) (p : Prepared)
    (promptOverride : Option Prompt) : Answer :=
  match createPendingOauthAuthorization env (pendingParams p promptOverride) with
  | .ok pending => ⟨.login pending.id, some pending, none⟩
  | .error _ =>
    .of (.oauthError p.validated.redirectUri .serverError "Failed to initiate login"
      p.validated.state p.target.responseMode)

/-- Whether more than `maxAge` seconds have passed since an instant. -/
def exceedsMaxAge (arrival authenticatedAt : Timestamp) (maxAge : Int) : Bool :=
  arrival - authenticatedAt > maxAge * Timestamp.second

/-- Step 2 of `authorize_authenticated_user`: whether the user has to log in again. -/
def needsReauth (policy : ReauthPolicy) (validated : ValidatedAuthRequest)
    (authenticatedAt : Option Timestamp) (arrival : Timestamp) : Bool :=
  match policy with
  | .always => !validated.hasPrompt .silent
  | .onDemand =>
    validated.hasPrompt .login || validated.maxAge.any fun maxAge =>
      match authenticatedAt with
      | none => true
      | some authenticatedAt => exceedsMaxAge arrival authenticatedAt
          ((i64OfU64 maxAge).getD i64Max)

/-- `issue_code_after_reauth_check`. -/
def issueCodeAfterReauthCheck (env : AuthorizeEnv) (p : Prepared) (user : User)
    (authenticatedAt : Option Timestamp) (authenticator : Authenticator) : Answer :=
  let validated := p.validated
  let target := { p.target with redirectUri := validated.redirectUri }
  .after (validateCodeRequestConstraints target
    validated.resource validated.acrValues validated.state)
    (.after (spendPar env target p.par "The request_uri has already been used or is invalid"
        validated.state)
      (issueCodeAndRedirect env
        { clientId := validated.clientId
          redirectUri := validated.redirectUri
          userId := user.id
          email := user.email
          authenticatorId := authenticator.id
          aaguid := authenticator.aaguid
          scope := validated.scope
          nonce := validated.nonce
          codeChallenge := validated.codeChallenge
          codeChallengeMethod := validated.codeChallengeMethod
          resource := validated.resource
          acrValues := validated.acrValues
          dpopJkt := validated.dpopJkt
          authCodeLifetimeSeconds := target.client.authCodeLifetimeSeconds
          authorizationDetails :=
            validated.authorizationDetails.map AuthorizationDetails.toValue
          authenticatedAt := authenticatedAt }
        target validated.state))

/-- `authorize_authenticated_user`. -/
def authorizeAuthenticatedUser (env : AuthorizeEnv) (p : Prepared) (user : User)
    (authenticatedAt : Option Timestamp) (authenticator : Authenticator) : Answer :=
  .after (checkAccess p.target.client user)
    (if needsReauth p.flow.reauthPolicy p.validated authenticatedAt env.arrival then
      if p.validated.hasPrompt .silent then
        .of (.oauthError p.validated.redirectUri .loginRequired
          "Re-authentication required but prompt=none was requested" p.validated.state
          p.target.responseMode)
      else storePendingAndRedirect env p (some .login)
    else issueCodeAfterReauthCheck env p user authenticatedAt authenticator)

/-- `check_session_and_authorize`. -/
def checkSessionAndAuthorize (env : AuthorizeEnv) (p : Prepared)
    (cookie : Option String) : Answer :=
  match checkSessionForAuthorization env.validateSessionToken cookie with
  | .ok (.authenticated user authenticator authenticatedAt) =>
    authorizeAuthenticatedUser env p user authenticatedAt authenticator
  | .ok .needsAuth =>
    if p.validated.hasPrompt .silent then
      .of (p.target.errorRedirect .loginRequired
        "User is not authenticated and prompt=none was requested" p.validated.state)
    else storePendingAndRedirect env p none
  | .error _ => .of (p.target.errorRedirect .serverError "Session lookup failed" p.validated.state)

theorem createPendingOauthAuthorization_ok {params : CreatePendingOAuthParams}
    (h : createPendingOauthAuthorization env params = .ok pending) :
    ∃ expiresAt, pending.data = params.document expiresAt := by
  unfold createPendingOauthAuthorization at h
  split at h
  · cases h
  · obtain ⟨⟨id, createdAt⟩, -, hpending⟩ := bind_eq_ok.mp h
    cases hpending
    exact ⟨_, rfl⟩

variable {lib : AuthorizeLibrary} {p : Prepared}

/-- A record of a request, and of the prompt it was stored with. -/
def Waits (p : Prepared) (promptOverride : Option Prompt)
    (pending : PendingOAuthAuthorization) : Prop :=
  ∃ expiresAt, pending.data = (pendingParams p promptOverride).document expiresAt

theorem storePendingAndRedirect_stored {promptOverride : Option Prompt}
    (h : (storePendingAndRedirect env p promptOverride).stored = some pending) :
    Waits p promptOverride pending := by
  unfold storePendingAndRedirect at h
  split at h
  · rename_i created hcreated
    cases h
    exact createPendingOauthAuthorization_ok hcreated
  · cases h

theorem storePendingAndRedirect_issued (env : AuthorizeEnv) (p : Prepared)
    (promptOverride : Option Prompt) :
    (storePendingAndRedirect env p promptOverride).issued = none := by
  unfold storePendingAndRedirect
  split
  · rfl
  · rfl

variable {user : User} {authenticatedAt : Option Timestamp} {authenticator : Authenticator}

theorem authorizeAuthenticatedUser_issued
    (h : (authorizeAuthenticatedUser env p user authenticatedAt authenticator).issued = some code) :
    needsReauth p.flow.reauthPolicy p.validated authenticatedAt env.arrival = false ∧
      code.authenticatedAt = authenticatedAt := by
  obtain ⟨-, h⟩ := Answer.after_issued h
  split at h
  · split at h
    · cases h
    · rw [storePendingAndRedirect_issued] at h
      cases h
  · rename_i hreauth
    obtain ⟨-, h⟩ := Answer.after_issued h
    obtain ⟨-, h⟩ := Answer.after_issued h
    refine ⟨by simpa using hreauth, ?_⟩
    rw [issueCodeAndRedirect_issued h]

theorem authorizeAuthenticatedUser_stored
    (h : (authorizeAuthenticatedUser env p user authenticatedAt authenticator).stored =
      some pending) : p.validated.hasPrompt .silent = false ∧ Waits p (some .login) pending := by
  have h := Answer.after_stored h
  split at h
  · split at h
    · cases h
    · rename_i hsilent
      exact ⟨by simpa using hsilent, storePendingAndRedirect_stored h⟩
  · have h := Answer.after_stored (Answer.after_stored h)
    rw [issueCodeAndRedirect_stored] at h
    cases h

variable {cookie : Option String}

/-- A code is issued at once where the session is good and no new login is called for. -/
theorem checkSessionAndAuthorize_issued
    (h : (checkSessionAndAuthorize env p cookie).issued = some code) :
    (∃ user authenticator, checkSessionForAuthorization env.validateSessionToken cookie =
        .ok (.authenticated user authenticator code.authenticatedAt)) ∧
      needsReauth p.flow.reauthPolicy p.validated code.authenticatedAt env.arrival = false := by
  unfold checkSessionAndAuthorize at h
  split at h
  · rename_i user authenticator authenticatedAt hsession
    obtain ⟨hreauth, heq⟩ := authorizeAuthenticatedUser_issued h
    rw [heq]
    exact ⟨⟨user, authenticator, hsession⟩, hreauth⟩
  · split at h
    · cases h
    · rw [storePendingAndRedirect_issued] at h
      cases h
  · cases h

/-- A record is stored of a request that is not silent.  It asks for a login, or it asks for what
the request asked for and came without a session. -/
theorem checkSessionAndAuthorize_stored
    (h : (checkSessionAndAuthorize env p cookie).stored = some pending) :
    p.validated.hasPrompt .silent = false ∧
      (Waits p (some .login) pending ∨ Waits p none pending) := by
  unfold checkSessionAndAuthorize at h
  split at h
  · obtain ⟨hsilent, hwaits⟩ := authorizeAuthenticatedUser_stored h
    exact ⟨hsilent, .inl hwaits⟩
  · split at h
    · cases h
    · rename_i hsilent
      exact ⟨by simpa using hsilent, .inr (storePendingAndRedirect_stored h)⟩
  · cases h

/-! ## Returning from the login page -/

/-- A session whose ceremony came after a pending record. -/
def fresh (pending : PendingOAuthAuthorization) (authenticatedAt : Option Timestamp) : Bool :=
  authenticatedAt.any (pending.createdAt < ·)

/-- Whether a pending record asks for a login. -/
def promptRequestsLogin (pending : PendingOAuthAuthorization) : Bool :=
  (pending.data.prompt.bind fun raw => (PromptSet.parse raw).toOption).any (·.contains .login)

/-- `pending_reauth_violation`. -/
def pendingReauthViolation (pending : PendingOAuthAuthorization)
    (authenticatedAt : Option Timestamp) (arrival : Timestamp) : Option String :=
  if promptRequestsLogin pending && !fresh pending authenticatedAt then
    some "Re-authentication was requested but the session predates the request"
  else
    match pending.data.maxAge with
    | none => none
    | some maxAge =>
      if fresh pending authenticatedAt then none
      else
        match authenticatedAt with
        | none => some "Session records no authentication time for max_age"
        | some authenticatedAt =>
          if exceedsMaxAge arrival authenticatedAt maxAge then
            some "Session exceeds requested max_age"
          else none

/-- The pending record is spent. -/
def spendPending (env : AuthorizeEnv) (target : AuthorizeResponseTarget)
    (pending : PendingOAuthAuthorization) : Except Response Unit :=
  match env.consumePending pending.id with
  | .ok () => .ok ()
  | .error .alreadyConsumed => refusePage target.client.name "authorize-denied-session-expired"
  | .error _ => refusePage target.client.name "authorize-denied-generic"

/-- The check of a session against a pending record, refused at the client. -/
def checkReauth (env : AuthorizeEnv) (target : AuthorizeResponseTarget)
    (pending : PendingOAuthAuthorization) (authenticatedAt : Option Timestamp) :
    Except Response Unit :=
  match pendingReauthViolation pending authenticatedAt env.arrival with
  | some description => .error (target.errorRedirect .loginRequired description pending.data.state)
  | none => .ok ()

/-- `complete_pending_auth`. -/
def completePendingAuth (env : AuthorizeEnv) (target : AuthorizeResponseTarget)
    (pending : PendingOAuthAuthorization) (user : User) (authenticatedAt : Option Timestamp)
    (authenticator : Authenticator) : Answer :=
  let data := pending.data
  .after (checkAccess target.client user)
    (.after (checkReauth env target pending authenticatedAt)
      (.after (validateCodeRequestConstraints target data.resource data.acrValues data.state)
        (.after (spendPar env target
            (data.parRequestUri.map fun uri => ⟨uri, data.clientId, .skipExpiry⟩)
            "The request_uri has already been used" data.state)
          (.after (spendPending env target pending)
            (issueCodeAndRedirect env
              { clientId := data.clientId
                redirectUri := target.redirectUri
                userId := user.id
                email := user.email
                authenticatorId := authenticator.id
                aaguid := authenticator.aaguid
                scope := ScopeSet.parse (data.scope.getD "openid")
                nonce := data.nonce
                codeChallenge := data.codeChallenge
                codeChallengeMethod := data.codeChallengeMethod.bind CodeChallengeMethod.parse
                resource := data.resource
                acrValues := data.acrValues
                dpopJkt := data.dpopJkt
                authCodeLifetimeSeconds := target.client.authCodeLifetimeSeconds
                authorizationDetails := data.authorizationDetails
                authenticatedAt := authenticatedAt }
              target data.state)))))

/-- The end of `handle_pending_auth`, with the record and the client. -/
def resumePendingAuth (env : AuthorizeEnv) (target : AuthorizeResponseTarget)
    (pending : PendingOAuthAuthorization) (cookie : Option String) : Answer :=
  match checkSessionForAuthorization env.validateSessionToken cookie with
  | .ok (.authenticated user authenticator authenticatedAt) =>
    completePendingAuth env target pending user authenticatedAt authenticator
  | .ok .needsAuth => .of (.login pending.id)
  | .error _ => .of (.denied target.client.name ⟨"authorize-denied-server-error", []⟩)

/-- `handle_pending_auth`, with the record that was read. -/
def handlePendingAuth (lib : AuthorizeLibrary) (env : AuthorizeEnv) (pendingId : String)
    (cookie : Option String) : Answer :=
  match getPendingOauthAuthorization env pendingId with
  | .error _ => .of (.denied unknownApplication ⟨"authorize-denied-generic", []⟩)
  | .ok none => .of (.denied unknownApplication ⟨"authorize-denied-session-expired", []⟩)
  | .ok (some pending) =>
    match resolve lib env pending.data.clientId (some pending.data.redirectUri)
        (.stored pending.data.responseMode) pending.data.state with
    | .error response => .of response
    | .ok target => resumePendingAuth env target pending cookie

theorem completePendingAuth_issued {target : AuthorizeResponseTarget}
    (h : (completePendingAuth env target pending user authenticatedAt authenticator).issued =
      some code) :
    pendingReauthViolation pending authenticatedAt env.arrival = none ∧
      code.authenticatedAt = authenticatedAt := by
  obtain ⟨-, h⟩ := Answer.after_issued h
  obtain ⟨hreauth, h⟩ := Answer.after_issued h
  obtain ⟨-, h⟩ := Answer.after_issued h
  obtain ⟨-, h⟩ := Answer.after_issued h
  obtain ⟨-, h⟩ := Answer.after_issued h
  constructor
  · unfold checkReauth at hreauth
    split at hreauth
    · cases hreauth
    · assumption
  · rw [issueCodeAndRedirect_issued h]

theorem completePendingAuth_stored (env : AuthorizeEnv) (target : AuthorizeResponseTarget)
    (pending : PendingOAuthAuthorization) (user : User) (authenticatedAt : Option Timestamp)
    (authenticator : Authenticator) :
    (completePendingAuth env target pending user authenticatedAt authenticator).stored = none := by
  refine Option.eq_none_iff_forall_ne_some.mpr fun stored h => ?_
  have h := Answer.after_stored (Answer.after_stored (Answer.after_stored
    (Answer.after_stored (Answer.after_stored h))))
  rw [issueCodeAndRedirect_stored] at h
  cases h

/-- A code is issued for a record that was read, where the session does not violate it. -/
theorem handlePendingAuth_issued {pendingId : String}
    (h : (handlePendingAuth lib env pendingId cookie).issued = some code) :
    ∃ pending user authenticator, getPendingOauthAuthorization env pendingId = .ok (some pending) ∧
      checkSessionForAuthorization env.validateSessionToken cookie =
        .ok (.authenticated user authenticator code.authenticatedAt) ∧
      pendingReauthViolation pending code.authenticatedAt env.arrival = none := by
  unfold handlePendingAuth at h
  split at h
  · cases h
  · cases h
  · rename_i pending hpending
    split at h
    · cases h
    · unfold resumePendingAuth at h
      split at h
      · rename_i user authenticator authenticatedAt hsession
        obtain ⟨hreauth, heq⟩ := completePendingAuth_issued h
        rw [heq]
        exact ⟨pending, user, authenticator, hpending, hsession, hreauth⟩
      · cases h
      · cases h

theorem handlePendingAuth_stored (lib : AuthorizeLibrary) (env : AuthorizeEnv) (pendingId : String)
    (cookie : Option String) : (handlePendingAuth lib env pendingId cookie).stored = none := by
  unfold handlePendingAuth
  split
  · rfl
  · rfl
  · split
    · rfl
    · unfold resumePendingAuth
      split
      · exact completePendingAuth_stored ..
      · rfl
      · rfl

/-- `authorize_inner`. -/
def authorizeInner (lib : AuthorizeLibrary) (env : AuthorizeEnv) (query : AuthorizeQuery)
    (cookie : Option String) : Answer :=
  match query.pendingAuth with
  | some pendingId => handlePendingAuth lib env pendingId cookie
  | none =>
    match prepare lib env query with
    | .error response => .of response
    | .ok p => checkSessionAndAuthorize env p cookie

end Vouch.Authorize
