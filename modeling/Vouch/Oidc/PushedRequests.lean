import Vouch.Oidc.Reauthentication

/-!
# Pushing and deferring a request

The parameters of an authorization come to the endpoint in the query, or out of the record of a
pushed request, and from there a code is issued at once or after a login, out of a record of its
own.  On the way scopes, prompts, the challenge method, the age and the authorization details are
written as texts and read back, by different code in each place.  This file compares what is granted
in the end.

* `par` — `handlers/oidc/par.rs`, from the parameters to what is stored of them.
* `Answer.Grants` — an answer whose code is what a request asks for, sent with its state and in its
  mode. What a visit grants is read off its steps, at once (`grants_checkSessionAndAuthorize`) and
  on the return to a record (`grants_handlePendingAuth`).
* `Journey` — the ways of a request: direct or pushed, and then deferred.
* `journeys_grant_the_same` — **a code grants what its parameters ask for, whichever way they
  took**, and what is stored of a pushed request is never refused when it is used.
-/

namespace Vouch.Authorize

open Result

section Pushing

variable {lib : AuthorizeLibrary} {params : AuthorizeRequestParams}

/-- How a refusal is reported where no user is there. -/
def serviceErrorCodes : ServiceError → OAuthErrorCode × String
  | .oauth .accountSelectionRequired description => (.invalidRequest, description)
  | e => errorParts e

/-- `par`, with the client that was authenticated, the parameters of the form or of its Request
Object and the thumbprint of a DPoP proof, up to the store. -/
def par (lib : AuthorizeLibrary) (client : OAuthClient) (params : AuthorizeRequestParams)
    (proof : Option String) : Except (OAuthErrorCode × String) CreateParParams :=
  Except.mapError serviceErrorCodes do
    let validated ← validateAuthorizeRequest lib params
    requirePkceForClient validated client
    require (client.isValidRedirectUri lib validated.redirectUri) .invalidRequest
      "redirect_uri is not registered for this client"
    require (validated.resource.all client.isValidResourceUri) .invalidTarget
      "The requested resource is not registered for this client"
    require (proof.all fun jkt => validated.dpopJkt.all (· = jkt)) .invalidDpopProof
      "dpop_jkt does not match DPoP proof JWK thumbprint"
    let mode ← parseResponseMode params.responseMode
    .ok (parParams validated proof mode)

theorem par_ok {client : OAuthClient} {proof : Option String} {create : CreateParParams}
    (h : par lib client params proof = .ok create) :
    ∃ validated mode, validateAuthorizeRequest lib params = .ok validated ∧
      parseResponseMode params.responseMode = .ok mode ∧
      create = parParams validated proof mode := by
  have hok : ∀ {x : Except ServiceError CreateParParams},
      x.mapError serviceErrorCodes = .ok create → x = .ok create := by
    intro x hx
    cases x with
    | error e => cases hx
    | ok a => exact congrArg Except.ok (Except.ok.inj hx)
  have h := hok h
  simp only [bind_eq_ok] at h
  obtain ⟨validated, hvalidated, -, -, -, -, -, -, -, -, mode, hmode, h⟩ := h
  exact ⟨validated, mode, hvalidated, hmode, (Except.ok.inj h).symm⟩

end Pushing

/-! ## What is granted -/

/-- A code, with all that a request asks for. -/
def ValidatedAuthRequest.inCode (validated : ValidatedAuthRequest)
    (code : AuthorizationCodeParams) : AuthorizationCodeParams :=
  { code with
    clientId := validated.clientId
    redirectUri := validated.redirectUri
    scope := validated.scope
    nonce := validated.nonce
    codeChallenge := validated.codeChallenge
    codeChallengeMethod := validated.codeChallengeMethod
    resource := validated.resource
    acrValues := validated.acrValues
    dpopJkt := validated.dpopJkt
    authorizationDetails := validated.authorizationDetails.map AuthorizationDetails.toValue }

/-- The state and the mode of an answer to the client. -/
def Response.returned : Response → Option (Option String × ResponseMode)
  | .code _ _ state mode | .oauthError _ _ _ state mode => some (state, mode)
  | .denied .. | .login _ => none

/-- An answer whose code, if it issued one, is what a request asks for, with the state of the
request and in a mode. -/
def Answer.Grants (answer : Answer) (validated : ValidatedAuthRequest)
    (mode : ResponseMode) : Prop :=
  ∀ code, answer.issued = some code →
    code = validated.inCode code ∧ answer.response.returned = some (validated.state, mode)

section Grants

variable {lib : AuthorizeLibrary} {env : AuthorizeEnv} {cookie : Option String} {p : Prepared}
  {validated : ValidatedAuthRequest} {mode : ResponseMode}

theorem Answer.grants_of (response : Response) : (Answer.of response).Grants validated mode :=
  fun code h => by cases h

theorem Answer.Grants.after {rest : Answer} (h : rest.Grants validated mode)
    (checks : Except Response Unit) : (Answer.after checks rest).Grants validated mode := by
  cases checks with
  | error response => exact grants_of response
  | ok => exact h

theorem grants_issueCodeAndRedirect {code : AuthorizationCodeParams}
    {target : AuthorizeResponseTarget} (hcode : code = validated.inCode code)
    (hmode : target.responseMode = mode) :
    (issueCodeAndRedirect env code target validated.state).Grants validated mode := by
  intro issued h
  have hissued := issueCodeAndRedirect_issued h
  refine ⟨hissued ▸ hcode, ?_⟩
  revert h
  unfold issueCodeAndRedirect
  rw [hmode]
  split
  · exact nofun
  · split
    · split
      · exact fun _ => rfl
      · exact fun _ => hmode ▸ rfl
    · exact fun _ => rfl

theorem grants_storePendingAndRedirect (promptOverride : Option Prompt) :
    (storePendingAndRedirect env p promptOverride).Grants validated mode := by
  intro code h
  rw [storePendingAndRedirect_issued] at h
  cases h

/-- A code that is issued at once is what the request asks for. -/
theorem grants_checkSessionAndAuthorize :
    (checkSessionAndAuthorize env p cookie).Grants p.validated p.target.responseMode := by
  unfold checkSessionAndAuthorize
  split
  · refine .after ?_ _
    split
    · split
      · exact Answer.grants_of _
      · exact grants_storePendingAndRedirect _
    · exact .after (.after (grants_issueCodeAndRedirect rfl rfl) _) _
  · split
    · exact Answer.grants_of _
    · exact grants_storePendingAndRedirect _
  · exact Answer.grants_of _

/-- A URI that is named is the one that is answered. -/
theorem resolve_ok {clientId uri : String} {source : ResponseModeSource} {state : Option String}
    {target : AuthorizeResponseTarget} (huri : uri.isEmpty = false)
    (h : resolve lib env clientId (some uri) source state = .ok target) :
    target.redirectUri = uri ∧ resolveResponseMode uri state source = .ok target.responseMode := by
  obtain ⟨client, -, h⟩ := bind_eq_ok.mp h
  obtain ⟨redirectUri, hredirect, h⟩ := bind_eq_ok.mp h
  obtain rfl : uri = redirectUri := by
    unfold resolveRedirectUri at hredirect
    simp only [Option.filter_some, huri, Bool.not_false, if_true] at hredirect
    split at hredirect
    · cases hredirect
    · exact Except.ok.inj hredirect
  obtain ⟨mode, hmode, h⟩ := bind_eq_ok.mp h
  split at h
  · cases h
    exact ⟨rfl, hmode⟩
  · cases h

/-- A code that is issued on the return to a record is what the request of the record asks for. -/
theorem grants_handlePendingAuth {id : String} {pending : PendingOAuthAuthorization}
    {promptOverride : Option Prompt} (hwaits : Waits p promptOverride pending)
    (huri : p.validated.redirectUri.isEmpty = false)
    (hread : getPendingOauthAuthorization env id = .ok (some pending)) :
    (handlePendingAuth lib env id cookie).Grants p.validated p.target.responseMode := by
  obtain ⟨expiresAt, hdata⟩ := hwaits
  have hmethod : ∀ method : Option CodeChallengeMethod,
      (method.map CodeChallengeMethod.asStr).bind CodeChallengeMethod.parse = method
    | none => rfl
    | some .s256 => rfl
  unfold handlePendingAuth
  rw [hread]
  dsimp only
  rw [hdata]
  split
  · exact Answer.grants_of _
  · rename_i target htarget
    obtain ⟨hredirect, hmode⟩ := resolve_ok huri htarget
    unfold resumePendingAuth
    split
    · unfold completePendingAuth
      rw [hdata]
      refine .after (.after (.after (.after (.after (grants_issueCodeAndRedirect ?_ ?_) _) _) _) _)
        _
      · simp [ValidatedAuthRequest.inCode, pendingParams,
          CreatePendingOAuthParams.document, hredirect, parse_scopeText, hmethod]
      · exact (Except.ok.inj hmode).symm
    · exact Answer.grants_of _
    · exact Answer.grants_of _

end Grants

/-! ## The ways of a request -/

/-- The query that carries parameters directly. -/
def AuthorizeRequestParams.query (params : AuthorizeRequestParams) : AuthorizeQuery :=
  { responseType := some params.responseType, clientId := some params.clientId,
    redirectUri := some params.redirectUri, scope := params.scope, state := params.state,
    nonce := params.nonce, codeChallenge := params.codeChallenge,
    codeChallengeMethod := params.codeChallengeMethod, pendingAuth := none,
    resource := params.resource,
    acrValues := params.acrValues, maxAge := params.maxAge, prompt := params.prompt,
    requestUri := none,
    request := none, dpopJkt := params.dpopJkt, authorizationDetails := params.authorizationDetails,
    responseMode := params.responseMode }

/-- The ways of a request with these parameters to a session phase: the query carries them, or it
refers to what was stored of them.  Every visit is to a server in any state; the lifetime of a
pushed request may have been extended. -/
inductive Arrives (lib : AuthorizeLibrary) (params : AuthorizeRequestParams) (env : AuthorizeEnv) :
    AuthorizeQuery → Prop
  | direct : Arrives lib params env params.query
  | pushed {client : OAuthClient} {create : CreateParParams} {random : String}
      {expiresAt : Timestamp}
      {query : AuthorizeQuery} (hpar : par lib client params none = .ok create)
      (hquery : query.pendingAuth = none) (hrequest : query.request = none)
      (huri : query.requestUri = some (requestUriUrn ++ random))
      (hread : getPushedAuthorizationRequest env (requestUriUrn ++ random)
        (query.clientId.getD "") =
        .ok (some (create.document (requestUriUrn ++ random) expiresAt))) :
          Arrives lib params env query

/-- The ways of a request, with the answer at the end: at once, or on a return to the record of the
first visit. -/
inductive Journey (lib : AuthorizeLibrary) (params : AuthorizeRequestParams) : Answer → Prop
  | atOnce {env : AuthorizeEnv} {query : AuthorizeQuery} (h : Arrives lib params env query)
      (cookie : Option String) : Journey lib params (authorizeInner lib env query cookie)
  | deferred {env env' : AuthorizeEnv} {query query' : AuthorizeQuery} {cookie : Option String}
      {pending : PendingOAuthAuthorization} {id : String} (h : Arrives lib params env query)
      (hstored : (authorizeInner lib env query cookie).stored = some pending)
      (hquery : query'.pendingAuth = some id)
      (hread : getPendingOauthAuthorization env' id = .ok (some pending))
        (cookie' : Option String) :
      Journey lib params (authorizeInner lib env' query' cookie')

section Journeys

variable {lib : AuthorizeLibrary} {params : AuthorizeRequestParams}
    {validated : ValidatedAuthRequest}
  {env : AuthorizeEnv} {query : AuthorizeQuery} {p : Prepared}

theorem Arrives.pendingAuth (h : Arrives lib params env query) : query.pendingAuth = none := by
  cases h with
  | direct => rfl
  | pushed _ hquery => exact hquery

theorem prepared_direct (h : validateAuthorizeRequest lib params = .ok validated)
    (hp : prepareDirect lib env params.query = .ok p) :
    p.validated = validated ∧ parseResponseMode params.responseMode =
      .ok p.target.responseMode := by
  obtain ⟨hredirect, -⟩ := validateAuthorizeRequest_ok h
  unfold prepareDirect at hp
  dsimp only at hp
  split at hp
  · cases hp
  · obtain ⟨target, htarget, hp⟩ := bind_eq_ok.mp hp
    obtain ⟨huri, hmode⟩ := resolve_ok hredirect htarget
    obtain ⟨hvalidated, rfl⟩ := validateAndCheck_ok hp
    rw [huri] at hvalidated
    refine ⟨Except.ok.inj (hvalidated.symm.trans h), ?_⟩
    unfold resolveResponseMode at hmode
    dsimp only [AuthorizeRequestParams.query] at hmode
    split at hmode
    · rename_i hparsed
      exact Except.ok.inj hmode ▸ hparsed
    · cases hmode

theorem prepared_pushed (hjson : lib.json.WritesBack)
    (h : validateAuthorizeRequest lib params = .ok validated) {mode : ResponseMode}
    {uri clientId : String} {expiresAt : Timestamp}
    (hread : getPushedAuthorizationRequest env uri clientId =
      .ok (some ((parParams validated none mode).document uri expiresAt)))
    (hp : preparePar lib env uri clientId query = .ok p) :
    p.validated = validated ∧ p.target.responseMode = mode := by
  unfold preparePar lookupPar at hp
  rw [hread, ok_bind] at hp
  obtain ⟨target, htarget, hp⟩ := bind_eq_ok.mp hp
  obtain ⟨-, hmode⟩ := resolve_ok (validateAuthorizeRequest_ok h).2.1 htarget
  obtain ⟨hvalidated, rfl⟩ := validateAndCheck_ok hp
  have hagain :=
    hvalidated.symm.trans (validated_requestOfPar hjson h fun jkt hjkt => by cases hjkt)
  rw [Option.or_none] at hagain
  exact ⟨Except.ok.inj hagain, (Except.ok.inj hmode).symm⟩

/-- However it arrives, a request is prepared as its parameters are. -/
theorem prepared_of_arrives (hjson : lib.json.WritesBack)
    (h : validateAuthorizeRequest lib params = .ok validated)
    (harrives : Arrives lib params env query) (hp : prepare lib env query = .ok p) :
    p.validated = validated ∧ parseResponseMode params.responseMode =
      .ok p.target.responseMode := by
  cases harrives with
  | direct => exact prepared_direct h hp
  | @pushed client create random expiresAt _ hpar _ hrequest huri hread =>
    obtain ⟨validated', mode, hvalidated', hmode, rfl⟩ := par_ok hpar
    obtain rfl := Except.ok.inj (hvalidated'.symm.trans h)
    have hurn : requestUriUrn.toList.isPrefixOf (requestUriUrn ++ random).toList = true := by
      rw [String.toList_append]
      exact List.isPrefixOf_iff_prefix.mpr (List.prefix_append ..)
    unfold prepare at hp
    rw [hrequest, huri] at hp
    dsimp only at hp
    rw [hurn] at hp
    split at hp
    · cases hp
    · rw [if_pos rfl] at hp
      split at hp
      · cases hp
      · obtain ⟨hvalidated, htarget⟩ := prepared_pushed hjson h hread hp
        exact ⟨hvalidated, htarget ▸ hmode⟩

/-- **A code grants what its parameters ask for, whichever way they took**: its client, redirect
URI, scope, nonce, challenge and method, resource, context classes, key and authorization details
are those of the parameters, and so are the state and the mode of the answer.  What is stored of a
pushed request is accepted again, also with a thumbprint out of a proof (43 characters, which
fits). -/
theorem journeys_grant_the_same (hjson : lib.json.WritesBack)
    (h : validateAuthorizeRequest lib params = .ok validated) :
    (∀ client proof create, par lib client params proof = .ok create →
      (∀ jkt, proof = some jkt → jkt.utf8ByteSize ≤ maxDpopJktLen) → ∀ uri expiresAt,
      validateAuthorizeRequest lib (requestOfPar lib.json (create.document uri expiresAt)) =
        .ok { validated with dpopJkt := validated.dpopJkt.or proof }) ∧
    ∀ answer, Journey lib params answer → ∀ code, answer.issued = some code →
      ∃ mode, parseResponseMode params.responseMode = .ok mode ∧ code = validated.inCode code ∧
        answer.response.returned = some (validated.state, mode) := by
  constructor
  · intro client proof create hpar hproof uri expiresAt
    obtain ⟨validated', mode, hvalidated', -, rfl⟩ := par_ok hpar
    obtain rfl := Except.ok.inj (hvalidated'.symm.trans h)
    exact validated_requestOfPar hjson h hproof
  · intro answer hjourney code hcode
    cases hjourney with
    | @atOnce env query harrives cookie =>
      rw [authorizeInner, harrives.pendingAuth] at hcode ⊢
      dsimp only at hcode ⊢
      split at hcode
      · cases hcode
      · rename_i p hp
        obtain ⟨rfl, hmode⟩ := prepared_of_arrives hjson h harrives hp
        exact ⟨_, hmode, grants_checkSessionAndAuthorize code hcode⟩
    | @deferred env env' query query' cookie pending id harrives hstored hquery hread cookie' =>
      rw [authorizeInner, harrives.pendingAuth] at hstored
      dsimp only at hstored
      split at hstored
      · cases hstored
      · rename_i p hp
        obtain ⟨rfl, hmode⟩ := prepared_of_arrives hjson h harrives hp
        have huri := (validateAuthorizeRequest_ok h).2.1
        rw [authorizeInner, hquery] at hcode ⊢
        obtain ⟨-, hwaits | hwaits⟩ := checkSessionAndAuthorize_stored hstored
        · exact ⟨_, hmode, grants_handlePendingAuth hwaits huri hread code hcode⟩
        · exact ⟨_, hmode, grants_handlePendingAuth hwaits huri hread code hcode⟩

end Journeys

/-! ### A request with every parameter

It is pushed, its first visit comes without a session, and it returns after a login. -/

/-- The parameters. -/
def fullParams : AuthorizeRequestParams where
  responseType := "code"
  clientId := "app"
  redirectUri := "https://app.example.com/cb"
  scope := some "openid email"
  state := some "af0ifjsldkj"
  nonce := some "n-0S6_WzA2Mj"
  codeChallenge := some "E9Melhoa2OwvFrEMTJguCHaoeK1t8URWbuGJSstw-cM"
  codeChallengeMethod := some "S256"
  resource := some "https://api.example.com/v1"
  acrValues := some acrAal3
  maxAge := some 3600
  prompt := some "login"
  dpopJkt := some "0ZcOCORZNYy-DWpqq30jZyJGHTN0d2HglBV3uiguA4I"
  authorizationDetails := some AuthorizationDetails.rawPosture
  responseMode := some "form_post"

/-- What they ask for. -/
def fullValidated : ValidatedAuthRequest where
  clientId := "app"
  redirectUri := "https://app.example.com/cb"
  scope := ScopeSet.parse "openid email"
  state := fullParams.state
  nonce := fullParams.nonce
  codeChallenge := fullParams.codeChallenge
  codeChallengeMethod := some .s256
  resource := fullParams.resource
  acrValues := fullParams.acrValues
  maxAge := some 3600
  prompt := some (PromptSet.of .login)
  dpopJkt := fullParams.dpopJkt
  authorizationDetails := some AuthorizationDetails.posture

/-- The libraries, as far as they are asked. -/
def fullLibrary : AuthorizeLibrary where
  url := ⟨fun text => if text = "https://api.example.com/v1" then
    some ⟨some "https://api.example.com", "/v1".toList, none, none, text⟩ else none⟩
  json := AuthorizationDetails.postureJson
  uri := appLibrary.uri

/-- A client that has registered the resource. -/
def fullClient : OAuthClient := { appClient with resourceUris := ["https://api.example.com/v1"] }

/-- What is stored of the request when it is pushed. -/
def fullCreate : CreateParParams := parParams fullValidated none .formPost

/-- The server at a visit, with the request that was pushed and the record that waits. -/
def fullEnv (arrival : Timestamp) (ceremony : Option Timestamp)
    (pending : Option PendingOAuthAuthorization) : AuthorizeEnv :=
  { appEnv ⟨.par, none, none⟩ arrival ceremony pending with
    client := fun _ => .ok (some fullClient)
    pushedRequest := fun _ =>
      .ok (some (fullCreate.document pushedUri (firstVisit + 60 * Timestamp.second))) }

/-- The record of the first visit. -/
def fullPending : PendingOAuthAuthorization where
  id := "pending"
  createdAt := firstVisit
  data := (pendingParams ⟨.par, ⟨fullClient, "https://app.example.com/cb", .formPost⟩,
    fullValidated, some ⟨pushedUri, "app", .enforceExpiry⟩⟩ none).document
      (firstVisit + 600 * Timestamp.second)

/-- The answer to the return, half a minute later. -/
def fullReturn : Answer :=
  authorizeInner fullLibrary (fullEnv (firstVisit + 30 * Timestamp.second)
    (some (firstVisit + 20 * Timestamp.second)) (some fullPending)) resumeQuery (some "session")

/-- The request is accepted when it is pushed, also with a proof, and again out of the record; the
code of its return has all that it asked for. -/
theorem journeys_grant_the_same_posture :
    validateAuthorizeRequest fullLibrary fullParams = .ok fullValidated ∧
    validateAuthorizeRequest fullLibrary (requestOfPar fullLibrary.json
      ((parParams fullValidated fullParams.dpopJkt .formPost).document pushedUri firstVisit)) =
        .ok fullValidated ∧
    ∃ code, fullReturn.issued = some code ∧ code = fullValidated.inCode code ∧
      code.authorizationDetails = some AuthorizationDetails.posture.toValue ∧
      fullReturn.response.returned = some (some "af0ifjsldkj", .formPost) := by
  have hvalidated : validateAuthorizeRequest fullLibrary fullParams = .ok fullValidated := rfl
  have hpar : par fullLibrary fullClient fullParams none = .ok fullCreate := rfl
  have hproof : par fullLibrary fullClient fullParams fullParams.dpopJkt =
      .ok (parParams fullValidated fullParams.dpopJkt .formPost) := rfl
  have hpushed : getPushedAuthorizationRequest (fullEnv firstVisit none none) (requestUriUrn ++ "r")
      (pushedQuery.clientId.getD "") =
        .ok (some (fullCreate.document (requestUriUrn ++ "r")
          (firstVisit + 60 * Timestamp.second))) := rfl
  have hstored :
    (authorizeInner fullLibrary (fullEnv firstVisit none none) pushedQuery none).stored =
      some fullPending := rfl
  have hread : getPendingOauthAuthorization (fullEnv (firstVisit + 30 * Timestamp.second)
      (some (firstVisit + 20 * Timestamp.second)) (some fullPending)) "pending" =
        .ok (some fullPending) := rfl
  have hissued : fullReturn.issued.isSome = true := rfl
  obtain ⟨code, hcode⟩ := Option.isSome_iff_exists.mp hissued
  obtain ⟨hagain, hgrants⟩ :=
    journeys_grant_the_same AuthorizationDetails.writesBack_postureJson hvalidated
  obtain ⟨mode, hmode, hgrants, hreturned⟩ := hgrants fullReturn
    (.deferred (.pushed hpar rfl rfl rfl hpushed) hstored rfl hread _) code hcode
  cases hmode
  refine ⟨hvalidated, hagain _ _ _ hproof ?_ _ _, code, hcode, hgrants, ?_, hreturned⟩
  · rintro jkt hjkt
    cases hjkt
    decide +kernel
  · rw [hgrants]
    rfl

end Vouch.Authorize
