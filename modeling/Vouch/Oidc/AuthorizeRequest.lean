import Vouch.Db.SingleUse
import Vouch.Oidc.AuthorizationDetails
import Vouch.Oidc.Resource
import Vouch.Oidc.Scope

/-!
# Authorization requests

`services/oidc/authorization.rs`: what an authorization request may ask for, and who may ask.

* `Prompt`, `PromptSet` — the list of the `prompt` parameter, parsed and written back.
* `validateAuthorizeRequest` — **one check for every form of a request**: a direct one, a signed
  Request Object, a fetched one and a pushed one all go through it.
* `OAuthClient`, with the checks an authorization makes of it.
* `checkSessionForAuthorization` — what a session cookie amounts to at this endpoint.
* `parParams` — what is stored of a pushed request.  Checked again when the request is used, it is
  accepted and asks for the same: `validated_requestOfPar`.
-/

namespace Vouch.Authorize

open Result

/-! ## Prompts -/

/-- `CodeChallengeMethod`. -/
inductive CodeChallengeMethod
  | s256
  deriving DecidableEq, Repr

namespace CodeChallengeMethod

/-- The name of a method. -/
def asStr : CodeChallengeMethod → String
  | s256 => "S256"

/-- The methods the server offers. -/
def supported : List CodeChallengeMethod := [s256]

/-- The method of a name. -/
def parse (s : String) : Option CodeChallengeMethod := supported.find? fun m => m.asStr = s

end CodeChallengeMethod

/-- `Prompt`.  The value `none` is `silent`. -/
inductive Prompt
  | login
  | silent
  | consent
  deriving DecidableEq, Repr

namespace Prompt

/-- Every value that is defined, with what the server offers for it. -/
def defined : List (String × Option Prompt) :=
  [("login", some login), ("none", some silent), ("consent", some consent),
    ("select_account", none)]

/-- The prompts the server offers, as its errors list them. -/
def supportedValues : String :=
  ", ".intercalate ((defined.filter fun entry => entry.2.isSome).map Prod.fst)

end Prompt

/-- `PromptSet`. -/
structure PromptSet where
  login : Bool
  silent : Bool
  consent : Bool
  deriving DecidableEq, Repr

namespace PromptSet

/-- `PromptSet::default`. -/
def empty : PromptSet := ⟨false, false, false⟩

/-- The loop of `PromptSet::parse`, with the set so far and whether it has more than `none` in
it. -/
def parseTokens : List String → PromptSet → Bool → Except ServiceError (PromptSet × Bool)
  | [], set, others => .ok (set, others)
  | token :: rest, set, others =>
    match Prompt.defined.find? fun entry => entry.1 = token with
    | some (_, some .login) => parseTokens rest { set with login := true } true
    | some (_, some .silent) => parseTokens rest { set with silent := true } others
    | some (_, some .consent) => parseTokens rest { set with consent := true } true
    | some (_, none) =>
      .error (.oauth .accountSelectionRequired
        ("prompt=select_account is not supported: this authorization server " ++
          "authenticates a single account per session"))
    | none =>
      .error (.oauth .invalidRequest
        s!"Unsupported prompt value. Supported values: {Prompt.supportedValues}")

/-- `PromptSet::parse`. -/
def parse (raw : String) : Except ServiceError PromptSet := do
  let (set, others) ← parseTokens (splitWhitespace raw) empty false
  if set.silent && others then
    .error (.oauth .invalidRequest "prompt=none must not be combined with other prompt values")
  else .ok set

/-- `PromptSet::of`. -/
def of : Prompt → PromptSet
  | .login => { empty with login := true }
  | .silent => { empty with silent := true }
  | .consent => { empty with consent := true }

/-- `PromptSet::contains`. -/
def contains (set : PromptSet) : Prompt → Bool
  | .login => set.login
  | .silent => set.silent
  | .consent => set.consent

/-- `PromptSet::is_empty`. -/
def isEmpty (set : PromptSet) : Bool := !set.login && !set.silent && !set.consent

/-- `PromptSet::to_space_separated`. -/
def toSpaceSeparated (set : PromptSet) : String :=
  " ".intercalate ((Prompt.defined.filter fun entry => entry.2.any set.contains).map Prod.fst)

/-- The value `none` stands alone. -/
def Alone (set : PromptSet) : Prop := set.silent = true → set.login = false ∧ set.consent = false

variable {set : PromptSet}

theorem parseTokens_ok {tokens : List String} {set' : PromptSet} {others others' : Bool}
    (hothers : set.login = true ∨ set.consent = true → others = true)
    (h : parseTokens tokens set others = .ok (set', others')) :
    set'.login = true ∨ set'.consent = true → others' = true := by
  induction tokens generalizing set others with
  | nil =>
    cases h
    exact hothers
  | cons token rest ih =>
    rw [parseTokens] at h
    split at h
    · exact ih (fun _ => rfl) h
    · refine ih ?_ h
      exact hothers
    · exact ih (fun _ => rfl) h
    · cases h
    · cases h

/-- A list that was accepted has `none` alone, if at all. -/
theorem alone_of_parse {raw : String} (h : parse raw = .ok set) : set.Alone := by
  obtain ⟨⟨set', others⟩, htokens, hset⟩ := bind_eq_ok.mp h
  have hothers := parseTokens_ok (by simp [empty]) htokens
  dsimp only at hset
  split at hset
  · cases hset
  · rename_i halone
    cases hset
    intro hsilent
    have hfalse : others = false := by simpa [hsilent] using halone
    rw [hfalse] at hothers
    exact ⟨Bool.eq_false_iff.mpr fun hlogin => by simpa using hothers (.inl hlogin),
      Bool.eq_false_iff.mpr fun hconsent => by simpa using hothers (.inr hconsent)⟩

/-- What is written of a set is read back. -/
theorem parse_toSpaceSeparated (h : set.Alone) : parse set.toSpaceSeparated = .ok set := by
  obtain ⟨login, silent, consent⟩ := set
  cases silent with
  | true =>
    obtain ⟨hlogin, hconsent⟩ : login = false ∧ consent = false := h rfl
    subst hlogin hconsent
    rfl
  | false =>
    cases login with
    | true => cases consent with
      | true => rfl
      | false => rfl
    | false => cases consent with
      | true => rfl
      | false => rfl

end PromptSet

/-! ## Requests -/

/-- `AuthorizeRequestParams`. -/
structure AuthorizeRequestParams where
  responseType : String
  clientId : String
  redirectUri : String
  scope : Option String
  state : Option String
  nonce : Option String
  codeChallenge : Option String
  codeChallengeMethod : Option String
  resource : Option String
  acrValues : Option String
  maxAge : Option Nat
  prompt : Option String
  dpopJkt : Option String
  authorizationDetails : Option String
  responseMode : Option String

/-- `ValidatedAuthRequest`. -/
structure ValidatedAuthRequest where
  clientId : String
  redirectUri : String
  scope : ScopeSet
  state : Option String
  nonce : Option String
  codeChallenge : Option String
  codeChallengeMethod : Option CodeChallengeMethod
  resource : Option String
  acrValues : Option String
  maxAge : Option Nat
  prompt : Option PromptSet
  dpopJkt : Option String
  authorizationDetails : Option AuthorizationDetails

/-- `ValidatedAuthRequest::has_prompt`. -/
def ValidatedAuthRequest.hasPrompt (validated : ValidatedAuthRequest) (prompt : Prompt) : Bool :=
  validated.prompt.any (·.contains prompt)

/-- What redirect and request URIs are compared by. -/
structure UriParts where
  scheme : String
  host : Option String
  path : String
  query : Option String
  fragment : Option String
  /-- The URL as it is written in full, by which URLs are equal. -/
  text : String

/-- The third-party code an authorization uses. -/
structure AuthorizeLibrary where
  url : UrlLibrary
  json : JsonLibrary
  /-- `Url::parse`, for the parts above. -/
  uri : String → Option UriParts

/-- `SUPPORTED_RESPONSE_TYPES`. -/
def supportedResponseTypes : List String := ["code"]

/-- `MAX_CLIENT_ID_LEN`, and the other limits on the lengths of parameters. -/
def maxClientIdLen : Nat := 256
def maxRedirectUriLen : Nat := 2048
def maxResourceLen : Nat := 2048
def maxStateLen : Nat := 512
def maxScopeLen : Nat := 512
def maxNonceLen : Nat := 256
def maxCodeChallengeLen : Nat := 128
def maxAcrValuesLen : Nat := 512
def maxDpopJktLen : Nat := 256

/-- `MAX_MAX_AGE`: a year. -/
def maxMaxAge : Nat := 31536000

/-- A check of a request. -/
def require (ok : Bool) (code : OAuthErrorCode) (description : String) : Except ServiceError Unit :=
  if ok then .ok () else .error (.oauth code description)

/-- A check of a parameter that may be absent. -/
def whenSome {α : Type} (value : Option α) (check : α → Except ServiceError Unit) :
    Except ServiceError Unit :=
  match value with
  | none => .ok ()
  | some value => check value

/-- `validate_param_length`. -/
def validateParamLength (name value : String) (maxLen : Nat) : Except ServiceError Unit :=
  require (value.utf8ByteSize ≤ maxLen) .invalidRequest
    s!"{name} exceeds maximum length of {maxLen}"

/-- The characters that would end a quoted header value. -/
def breaksQuotedString (acrValues : String) : Bool :=
  acrValues.toList.any fun c => c = '"' || c = '\\' || c.toNat < 0x20

/-- The lengths of the parameters, `max_age` among them. -/
def validateLengths (params : AuthorizeRequestParams) : Except ServiceError Unit := do
  validateParamLength "client_id" params.clientId maxClientIdLen
  validateParamLength "redirect_uri" params.redirectUri maxRedirectUriLen
  whenSome params.state (validateParamLength "state" · maxStateLen)
  whenSome params.scope (validateParamLength "scope" · maxScopeLen)
  whenSome params.nonce (validateParamLength "nonce" · maxNonceLen)
  whenSome params.codeChallenge (validateParamLength "code_challenge" · maxCodeChallengeLen)
  whenSome params.resource (validateParamLength "resource" · maxResourceLen)
  whenSome params.acrValues fun acrValues => do
    validateParamLength "acr_values" acrValues maxAcrValuesLen
    require (!breaksQuotedString acrValues) .invalidRequest "acr_values contains invalid characters"
  whenSome params.dpopJkt (validateParamLength "dpop_jkt" · maxDpopJktLen)
  whenSome params.maxAge fun maxAge =>
    require (maxAge ≤ maxMaxAge) .invalidRequest
      s!"max_age exceeds maximum allowed value of {maxMaxAge}"

/-- The prompt of a request.  An empty list is the same as none. -/
def validatePrompt : Option String → Except ServiceError (Option PromptSet)
  | none => .ok none
  | some raw => do
    let set ← PromptSet.parse raw
    .ok (if set.isEmpty then none else some set)

/-- The challenge method of a request: `S256` where a challenge comes without one. -/
def validateChallengeMethod (params : AuthorizeRequestParams) :
    Except ServiceError (Option CodeChallengeMethod) :=
  match params.codeChallengeMethod with
  | some raw =>
    match CodeChallengeMethod.parse raw with
    | none =>
      .error (.oauth .invalidRequest "Unsupported code_challenge_method. Only S256 is supported")
    | some method =>
      if params.codeChallenge.isNone then
        .error (.oauth .invalidRequest
          "code_challenge is required when code_challenge_method is provided")
      else .ok (some method)
  | none => .ok (params.codeChallenge.map fun _ => .s256)

/-- The authorization details of a request. -/
def validateDetails (json : JsonLibrary) :
    Option String → Except ServiceError (Option AuthorizationDetails)
  | none => .ok none
  | some raw => do
    let details ← AuthorizationDetails.parse json raw
    .ok (some details)

/-- The scope of a request, `openid` if it names none. -/
def validateScope : Option String → Except ServiceError ScopeSet
  | some requested => (ScopeSet.parse requested).intoRequestedGrant
  | none => .ok (ScopeSet.parse "openid")

/-- `validate_authorize_request`. -/
def validateAuthorizeRequest (lib : AuthorizeLibrary) (params : AuthorizeRequestParams) :
    Except ServiceError ValidatedAuthRequest := do
  require (supportedResponseTypes.contains params.responseType) .unsupportedResponseType
    "Only 'code' response type is supported"
  require (!params.redirectUri.isEmpty) .invalidRequest "redirect_uri is required"
  require (!params.clientId.isEmpty) .invalidRequest "client_id is required"
  validateLengths params
  let prompt ← validatePrompt params.prompt
  let method ← validateChallengeMethod params
  let details ← validateDetails lib.json params.authorizationDetails
  let scope ← validateScope params.scope
  whenSome params.resource fun resource =>
    require (ResourceUri.parse lib.url resource).toOption.isSome .invalidTarget
      "Invalid resource parameter: must be an absolute URI without a fragment"
  .ok
    { clientId := params.clientId
      redirectUri := params.redirectUri
      scope := scope
      state := params.state
      nonce := params.nonce
      codeChallenge := params.codeChallenge
      codeChallengeMethod := method
      resource := params.resource
      acrValues := params.acrValues
      maxAge := params.maxAge
      prompt := prompt
      dpopJkt := params.dpopJkt
      authorizationDetails := details }

/-- A prompt that a request may carry. -/
def PromptSet.Admissible (prompt : Option PromptSet) : Prop :=
  ∀ set, prompt = some set → set.Alone ∧ set.isEmpty = false

theorem admissible_of_validatePrompt {raw : Option String} {prompt : Option PromptSet}
    (h : validatePrompt raw = .ok prompt) : PromptSet.Admissible prompt := by
  intro set hset
  cases raw with
  | none =>
    cases h
    cases hset
  | some raw =>
    obtain ⟨parsed, hparsed, hprompt⟩ := bind_eq_ok.mp h
    cases hprompt
    split at hset
    · cases hset
    · rename_i hempty
      cases hset
      exact ⟨PromptSet.alone_of_parse hparsed, by simpa using hempty⟩

/-- A prompt written and read back. -/
theorem validatePrompt_toSpaceSeparated {prompt : Option PromptSet}
    (h : PromptSet.Admissible prompt) :
    validatePrompt (prompt.map PromptSet.toSpaceSeparated) = .ok prompt := by
  cases prompt with
  | none => rfl
  | some set =>
    obtain ⟨halone, hempty⟩ := h set rfl
    show (PromptSet.parse set.toSpaceSeparated >>= _) = _
    rw [PromptSet.parse_toSpaceSeparated halone, ok_bind, hempty]
    rfl

theorem require_ok {ok : Bool} {code : OAuthErrorCode} {description : String}
    (h : require ok code description = .ok ()) : ok = true := by
  unfold require at h
  split at h
  · assumption
  · cases h

variable {params : AuthorizeRequestParams}

theorem maxAge_of_validateLengths {maxAge : Nat} (h : validateLengths params = .ok ())
    (hmax : params.maxAge = some maxAge) : maxAge ≤ maxMaxAge := by
  simp only [validateLengths, check_eq_ok] at h
  obtain ⟨-, -, -, -, -, -, -, -, -, h⟩ := h
  rw [hmax] at h
  exact of_decide_eq_true (require_ok h)

variable {lib : AuthorizeLibrary} {validated : ValidatedAuthRequest}

/-- What a request that was accepted asks for. -/
theorem validateAuthorizeRequest_ok (h : validateAuthorizeRequest lib params = .ok validated) :
    params.redirectUri.isEmpty = false ∧ validated.redirectUri.isEmpty = false ∧
      validateLengths params = .ok () ∧ validatePrompt params.prompt = .ok validated.prompt ∧
      validated.maxAge = params.maxAge := by
  simp only [validateAuthorizeRequest, bind_eq_ok] at h
  obtain ⟨-, -, ⟨⟩, hredirect, -, -, ⟨⟩, hlengths, prompt, hprompt, method, -, details, -, scope,
    -, -, -, h⟩ := h
  cases h
  have hredirect : params.redirectUri.isEmpty = false := by simpa using require_ok hredirect
  exact ⟨hredirect, hredirect, hlengths, hprompt, rfl⟩

theorem admissible_of_validated (h : validateAuthorizeRequest lib params = .ok validated) :
    PromptSet.Admissible validated.prompt ∧ ∀ maxAge, validated.maxAge = some maxAge →
    maxAge ≤ maxMaxAge := by
  obtain ⟨-, -, hlengths, hprompt, hmax⟩ := validateAuthorizeRequest_ok h
  exact ⟨admissible_of_validatePrompt hprompt,
    fun maxAge heq => maxAge_of_validateLengths hlengths (hmax ▸ heq)⟩

/-! ## Clients -/

/-- `OAuthClientType`. -/
inductive OAuthClientType
  | web
  | native
  | spa
  | service
  deriving DecidableEq, Repr

/-- `OAuthClientType::requires_pkce`. -/
def OAuthClientType.requiresPkce : OAuthClientType → Bool
  | native | spa => true
  | web | service => false

/-- `ClientType`. -/
inductive ClientType
  | confidential
  | publicClient
  deriving DecidableEq, Repr

/-- `OAuthClient`, with what an authorization reads. -/
structure OAuthClient where
  clientId : String
  name : String
  userId : Option String
  orgId : Option String
  applicationType : OAuthClientType
  redirectUris : List String
  active : Bool
  accessScope : AccessScope
  resourceUris : List String
  tokenEndpointAuthMethod : TokenEndpointAuthMethod
  requireSignedRequestObject : Option Bool
  fapiProfile : FapiProfile
  responseTypes : Option (List String)
  requestUris : Option (List String)

namespace OAuthClient

/-- `OAuthClient::is_fapi`. -/
def isFapi (client : OAuthClient) : Bool := client.fapiProfile ≠ .none

/-- `OAuthClient::client_type`. -/
def clientType (client : OAuthClient) : ClientType :=
  if client.tokenEndpointAuthMethod = .none then .publicClient else .confidential

/-- `is_loopback_ip_literal`. -/
def isLoopbackIpLiteral (host : String) : Bool := host = "127.0.0.1" || host = "[::1]"

/-- `loopback_matches_ignoring_port`. -/
def loopbackMatchesIgnoringPort (lib : AuthorizeLibrary) (registered : String)
    (requested : UriParts) :
    Bool :=
  (lib.uri registered).any fun registered =>
    registered.scheme = "http" && requested.scheme = "http" &&
      registered.host.any isLoopbackIpLiteral && registered.host = requested.host &&
      registered.path = requested.path && registered.query = requested.query

/-- `OAuthClient::is_valid_redirect_uri`. -/
def isValidRedirectUri (lib : AuthorizeLibrary) (client : OAuthClient) (uri : String) : Bool :=
  (lib.uri uri).any fun requested =>
    !requested.fragment.isSome && client.redirectUris.any fun registered =>
      registered = uri || loopbackMatchesIgnoringPort lib registered requested

/-- `OAuthClient::is_valid_request_uri`. -/
def isValidRequestUri (lib : AuthorizeLibrary) (client : OAuthClient) (uri : String) : Bool :=
  client.requestUris.all fun registered => registered.any fun candidate =>
    candidate = uri || (lib.uri uri).any fun requested =>
      (lib.uri candidate).any fun candidate => candidate.text = requested.text

/-- `OAuthClient::is_valid_resource_uri`. -/
def isValidResourceUri (client : OAuthClient) (uri : String) : Bool :=
  client.resourceUris.isEmpty || client.resourceUris.contains uri

/-- `auth_code_lifetime_seconds`. -/
def authCodeLifetimeSeconds (client : OAuthClient) : Int := if client.isFapi then 60 else 300

end OAuthClient

/-- `require_pkce_for_client`. -/
def requirePkceForClient (validated : ValidatedAuthRequest) (client : OAuthClient) :
    Except ServiceError Unit :=
  let pkceRequired := client.clientType = .publicClient || client.applicationType.requiresPkce ||
    client.isFapi
  require (!(pkceRequired && validated.codeChallenge.isNone)) .invalidRequest
    "PKCE is required: code_challenge and code_challenge_method=S256 must be provided"

/-- `validate_fapi_authorization_request`. -/
def validateFapiAuthorizationRequest (client : OAuthClient) (hasPar : Bool) :
    Except ServiceError Unit :=
  require (!client.isFapi || hasPar) .invalidRequest
    "FAPI 2.0 requires Pushed Authorization Requests (PAR)"

/-- What an authorization reads of a user. -/
structure User where
  id : String
  email : String
  orgId : Option String

/-- `check_client_access`. -/
def checkClientAccess (client : OAuthClient) (user : User) : Except ServiceError Unit :=
  let creatorOnly := require (client.userId = some user.id) .accessDenied
    "You don't have access to this application"
  match client.accessScope with
  | .anyone => .ok ()
  | .personal => creatorOnly
  | .organization =>
    match client.orgId, user.orgId with
    | some appOrg, some userOrg =>
      require (appOrg = userOrg) .accessDenied
        "This application is only available to members of a different organization"
    | some _, none =>
      .error (.oauth .accessDenied "This application requires organization membership")
    | none, _ => creatorOnly

/-! ## Sessions -/

/-- What an authorization reads of an authenticator. -/
structure Authenticator where
  id : String
  aaguid : Option String

/-- `OidcValidatedSession`. -/
structure OidcValidatedSession where
  user : User
  authenticator : Option Authenticator
  hardwareVerified : Bool
  /-- The instant of the ceremony behind the session. -/
  authenticatedAt : Option Timestamp
  browserSession : Bool

/-- `AuthorizationSessionState`. -/
inductive AuthorizationSessionState
  | authenticated (user : User) (authenticator : Authenticator) (authenticatedAt : Option Timestamp)
  | needsAuth

/-- `check_session_for_authorization`, with the session behind a token. -/
def checkSessionForAuthorization
    (validateSessionToken : String → Except ServiceError (Option OidcValidatedSession)) :
    Option String → Except ServiceError AuthorizationSessionState
  | none => .ok .needsAuth
  | some token => do
    match ← validateSessionToken token with
    | none => .ok .needsAuth
    | some session =>
      if !session.browserSession then .ok .needsAuth
      else if !session.hardwareVerified then .ok .needsAuth
      else
        match session.authenticator with
        | none => .ok .needsAuth
        | some authenticator =>
          .ok (.authenticated session.user authenticator session.authenticatedAt)

/-! ## Pushed requests -/

/-- The largest `i64`. -/
def i64Max : Nat := 9223372036854775807

/-- `i64::try_from` of a `u64`. -/
def i64OfU64 (n : Nat) : Option Int := if n ≤ i64Max then some n else none

theorem i64OfU64_of_le {n : Nat} (h : n ≤ maxMaxAge) : i64OfU64 n = some (n : Int) :=
  if_pos (Nat.le_trans h (by decide))

/-- `ScopeSet::to_space_separated`. -/
def scopeText (scope : ScopeSet) : String :=
  " ".intercalate (([OAuthScope.openId, .email].filter fun s => decide (s ∈ scope)).map
    OAuthScope.asStr)

/-- What is stored of a request that is pushed. -/
def parParams (validated : ValidatedAuthRequest) (dpopJkt : Option String)
    (responseMode : ResponseMode) : CreateParParams where
  clientId := validated.clientId
  responseType := "code"
  redirectUri := validated.redirectUri
  scope := some (scopeText validated.scope)
  state := validated.state
  nonce := validated.nonce
  codeChallenge := validated.codeChallenge
  codeChallengeMethod := validated.codeChallengeMethod.map CodeChallengeMethod.asStr
  resource := validated.resource
  acrValues := validated.acrValues
  maxAge := validated.maxAge.bind i64OfU64
  prompt := validated.prompt.map PromptSet.toSpaceSeparated
  dpopJkt := validated.dpopJkt.or dpopJkt
  authorizationDetails := validated.authorizationDetails.map AuthorizationDetails.toValue
  responseMode := responseMode

/-- The parameters of a pushed request, as `handle_par_request` reads them. -/
def requestOfPar (json : JsonLibrary) (par : PushedAuthorizationRequestDoc) :
    AuthorizeRequestParams where
  responseType := par.responseType
  clientId := par.clientId
  redirectUri := par.redirectUri
  scope := par.scope
  state := par.state
  nonce := par.nonce
  codeChallenge := par.codeChallenge
  codeChallengeMethod := par.codeChallengeMethod
  resource := par.resource
  acrValues := par.acrValues
  maxAge := par.maxAge.bind fun maxAge => if 0 ≤ maxAge then some maxAge.toNat else none
  prompt := par.prompt
  dpopJkt := par.dpopJkt
  authorizationDetails := par.authorizationDetails.map json.toText
  responseMode := none

/-! ### What is stored is accepted again -/

theorem parse_scopeText : ∀ scope : ScopeSet, ScopeSet.parse (scopeText scope) = scope := by decide

theorem utf8ByteSize_scopeText :
    ∀ scope : ScopeSet, (scopeText scope).utf8ByteSize ≤ maxScopeLen := by
  decide

theorem validateScope_scopeText {requested : Option String} {scope : ScopeSet}
    (h : validateScope requested = .ok scope) :
    validateScope (some (scopeText scope)) = .ok scope := by
  have hne : scope ≠ ∅ := by
    cases requested with
    | none =>
      cases h
      decide
    | some requested =>
      unfold validateScope ScopeSet.intoRequestedGrant at h
      dsimp only at h
      split at h
      · cases h
      · rename_i hne
        cases h
        exact hne
  rw [validateScope, parse_scopeText]
  exact if_neg hne

/-- There is one challenge method, and it is the one of every challenge. -/
theorem validateChallengeMethod_ok {method : Option CodeChallengeMethod}
    (h : validateChallengeMethod params = .ok method) :
    method = params.codeChallenge.map fun _ => .s256 := by
  unfold validateChallengeMethod at h
  split at h
  · split at h
    · cases h
    · rename_i m _
      split at h
      · cases h
      · rename_i hsome
        cases h
        cases hchallenge : params.codeChallenge with
        | none => simp [hchallenge] at hsome
        | some challenge =>
          cases m
          rfl
  · exact (Except.ok.inj h).symm

theorem validateDetails_toValue {json : JsonLibrary} (hjson : json.WritesBack) {raw : Option String}
    {details : Option AuthorizationDetails} (h : validateDetails json raw = .ok details) :
    validateDetails json ((details.map AuthorizationDetails.toValue).map json.toText) =
      .ok details := by
  cases raw with
  | none =>
    cases h
    rfl
  | some raw =>
    obtain ⟨parsed, hparsed, h⟩ := bind_eq_ok.mp h
    cases h
    rw [Option.map_some, Option.map_some, validateDetails,
      AuthorizationDetails.parse_toValue json hjson hparsed, ok_bind]

/-- **What is stored of a pushed request is accepted again when the request is used**, and asks for
the same but for the thumbprint of a proof, which fits. -/
theorem validated_requestOfPar (hjson : lib.json.WritesBack) {proof : Option String}
    {mode : ResponseMode} {requestUri : String} {expiresAt : Timestamp}
    (h : validateAuthorizeRequest lib params = .ok validated)
    (hproof : ∀ jkt, proof = some jkt → jkt.utf8ByteSize ≤ maxDpopJktLen) :
    validateAuthorizeRequest lib
        (requestOfPar lib.json ((parParams validated proof mode).document requestUri expiresAt)) =
      .ok { validated with dpopJkt := validated.dpopJkt.or proof } := by
  obtain ⟨hprompt, hmax⟩ := admissible_of_validated h
  have hage : (validated.maxAge.bind i64OfU64).bind
      (fun maxAge => if 0 ≤ maxAge then some maxAge.toNat else none) = validated.maxAge := by
    cases hsome : validated.maxAge with
    | none => rfl
    | some maxAge => simp [i64OfU64_of_le (hmax maxAge hsome)]
  simp only [validateAuthorizeRequest, bind_eq_ok] at h ⊢
  obtain ⟨-, -, ⟨⟩, hredirect, ⟨⟩, hclient, ⟨⟩, hlengths, prompt, -, method, hmethod, details,
    hdetails, scope, hscope, ⟨⟩, hresource, h⟩ := h
  cases h
  refine ⟨(), rfl, (), hredirect, (), hclient, (), ?_, prompt,
    validatePrompt_toSpaceSeparated hprompt,
    method, ?_, details, validateDetails_toValue hjson hdetails, scope,
      validateScope_scopeText hscope, (),
    hresource, ?_⟩
  · simp only [validateLengths, check_eq_ok] at hlengths ⊢
    obtain ⟨hid, huri, hstate, -, hnonce, hchallenge, hres, hacr, hjkt, hage'⟩ := hlengths
    refine ⟨hid, huri, hstate, if_pos (decide_eq_true (utf8ByteSize_scopeText scope)),
      hnonce, hchallenge, hres, hacr, ?_, ?_⟩
    · show whenSome (params.dpopJkt.or proof) _ = _
      cases hparam : params.dpopJkt with
      | some jkt =>
        rw [hparam] at hjkt
        exact hjkt
      | none => cases hp : proof with
        | none => rfl
        | some jkt => exact if_pos (decide_eq_true (hproof jkt hp))
    · show whenSome ((params.maxAge.bind i64OfU64).bind _) _ = _
      exact hage ▸ hage'
  · obtain rfl := validateChallengeMethod_ok hmethod
    show validateChallengeMethod _ = _
    cases params.codeChallenge with
    | none => rfl
    | some challenge => rfl
  · simp [requestOfPar, parParams, CreateParParams.document, hage]

end Vouch.Authorize
