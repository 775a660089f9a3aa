import Vouch.Oidc.Authorize

/-!
# Logging in again

A request to the authorization endpoint may ask how old a login may be (`max_age`) or for a new one
(`prompt=login`), and a pushed request always calls for a new one unless it is silent.  A code may
be issued at once or on any later return from the login page, with whatever session the browser then
has, and the two ways decide by different rules.  This file follows requests over whole runs of
visits.

* `Origin` — the form of a request, and the age and the prompt it carries.
* `Step`, `Reachable` — any visits, of any requests, in any order; a return reads a record that a
  visit stored.
* `Guarantee` — what a code that was issued promises, by the origin of its request.
* `Checked`, `checked_of_reachable` — what the endpoint does make sure of, in every run.
* `reauthentication_iff` — **the guarantee holds of the requests of an origin, in every run, unless
  they are pushed and either silent with an age or neither silent nor asking for a login**.  A
  silent pushed request is answered at once whatever its age, and a pushed request that first comes
  without a session is stored without asking for a login: `pushed_without_fresh_login`.
-/

namespace Vouch.Authorize

open Result

/-! ## Runs -/

/-- What a request carries that bears on logging in again. -/
structure Origin where
  flow : AuthFlowKind
  maxAge : Option Nat
  prompt : Option PromptSet
  deriving DecidableEq, Repr

/-- Whether a request asks for a prompt. -/
def Origin.hasPrompt (o : Origin) (prompt : Prompt) : Bool := o.prompt.any (·.contains prompt)

/-- An age and a prompt that are accepted. -/
def Origin.Admissible (o : Origin) : Prop :=
  PromptSet.Admissible o.prompt ∧ ∀ maxAge, o.maxAge = some maxAge → maxAge ≤ maxMaxAge

/-- What a prepared request asks for. -/
def Prepared.origin (p : Prepared) : Origin := ⟨p.flow, p.validated.maxAge, p.validated.prompt⟩

/-- A code that was issued: for what request, on return to which record (by its creation), for a
session with which ceremony, and when. -/
structure IssuedCode where
  origin : Origin
  resumed : Option Timestamp
  ceremony : Option Timestamp
  arrival : Timestamp
  deriving DecidableEq

/-- The records and the codes so far. -/
structure AuthorizeState where
  pendings : List (Origin × PendingOAuthAuthorization)
  codes : List IssuedCode

/-- The ceremony of the session behind a cookie. -/
def sessionCeremony (env : AuthorizeEnv) (cookie : Option String) : Option Timestamp :=
  match checkSessionForAuthorization env.validateSessionToken cookie with
  | .ok (.authenticated _ _ authenticatedAt) => authenticatedAt
  | _ => none

/-- The state after a visit. -/
def AuthorizeState.visited (s : AuthorizeState) (o : Origin) (resumed : Option Timestamp)
    (env : AuthorizeEnv) (cookie : Option String) (answer : Answer) : AuthorizeState where
  pendings := (answer.stored.map fun pending => (o, pending)).toList ++ s.pendings
  codes := (answer.issued.map fun _ =>
    ⟨o, resumed, sessionCeremony env cookie, env.arrival⟩).toList ++ s.codes

/-- A visit.  One that is refused before its session is looked at leaves nothing. -/
inductive Step (lib : AuthorizeLibrary) : AuthorizeState → AuthorizeState → Prop
  | request {s : AuthorizeState} {env : AuthorizeEnv} {query : AuthorizeQuery}
      {cookie : Option String}
      {p : Prepared} (hquery : query.pendingAuth = none) (hp : prepare lib env query = .ok p) :
      Step lib s (s.visited p.origin none env cookie (authorizeInner lib env query cookie))
  | resume {s : AuthorizeState} {env : AuthorizeEnv} {query : AuthorizeQuery}
      {cookie : Option String} {id : String} {o : Origin} {pending : PendingOAuthAuthorization}
      (hquery : query.pendingAuth = some id)
      (hread : getPendingOauthAuthorization env id = .ok (some pending))
      (hstored : (o, pending) ∈ s.pendings) :
      Step lib s (s.visited o (some pending.createdAt) env cookie
        (authorizeInner lib env query cookie))

/-- The states that visits lead to. -/
def Reachable (lib : AuthorizeLibrary) : AuthorizeState → Prop :=
  Relation.ReflTransGen (Step lib) ⟨[], []⟩

/-! ## What a code promises -/

namespace IssuedCode

/-- The ceremony came after the record that was returned to. -/
def Fresh (code : IssuedCode) : Prop :=
  ∃ created c, code.resumed = some created ∧ code.ceremony = some c ∧ created < c

/-- The ceremony is known, and recent enough or fresh. -/
def Recent (code : IssuedCode) (maxAge : Nat) : Prop :=
  ∃ c, code.ceremony = some c ∧
    (code.arrival - c ≤ maxAge * Timestamp.second ∨
      ∃ created, code.resumed = some created ∧ created < c)

/-- What a code promises. -/
structure Guarantee (code : IssuedCode) : Prop where
  maxAge : ∀ maxAge, code.origin.maxAge = some maxAge → code.Recent maxAge
  login : code.origin.hasPrompt .login = true → code.Fresh
  pushed : code.origin.flow = .par → code.origin.hasPrompt .silent = false → code.Fresh

/-- What the endpoint makes sure of. -/
structure Checked (code : IssuedCode) : Prop where
  admissible : code.origin.Admissible
  atOnce : code.resumed = none → code.origin.flow ≠ .par →
    code.origin.hasPrompt .login = false ∧ ∀ maxAge, code.origin.maxAge = some maxAge →
    code.Recent maxAge
  /-- A pushed request is answered at once only if it is silent, and then whatever its age. -/
  silent : code.resumed = none → code.origin.flow = .par → code.origin.hasPrompt .silent = true
  later : code.resumed ≠ none → (code.origin.hasPrompt .login = true → code.Fresh) ∧
    ∀ maxAge, code.origin.maxAge = some maxAge → code.Recent maxAge

end IssuedCode

/-- A record asks for the age its request carries, and for a login if its request does. -/
structure Keeps (o : Origin) (pending : PendingOAuthAuthorization) : Prop where
  admissible : o.Admissible
  login : o.hasPrompt .login = true → promptRequestsLogin pending = true
  maxAge : pending.data.maxAge = o.maxAge.map Int.ofNat

section Steps

variable {lib : AuthorizeLibrary} {env : AuthorizeEnv} {cookie : Option String}

theorem sessionCeremony_of_authenticated {user : User} {authenticator : Authenticator}
    {authenticatedAt : Option Timestamp}
    (h : checkSessionForAuthorization env.validateSessionToken cookie =
      .ok (.authenticated user authenticator authenticatedAt)) :
    sessionCeremony env cookie = authenticatedAt := by
  rw [sessionCeremony, h]

variable {p : Prepared}

/-- A request that is validated carries what is accepted. -/
theorem admissible_of_validateAndCheck {flow : AuthFlowKind} {target : AuthorizeResponseTarget}
    {params : AuthorizeRequestParams} {par : Option ParRef}
    (h : validateAndCheck lib flow target params par = .ok p) : p.origin.Admissible :=
  admissible_of_validated (validateAndCheck_ok h).1

theorem admissible_of_prepare {query : AuthorizeQuery} (h : prepare lib env query = .ok p) :
    p.origin.Admissible := by
  unfold prepare at h
  dsimp only at h
  split at h
  · cases h
  · split at h
    · cases h
    · obtain ⟨client, -, h⟩ := bind_eq_ok.mp h
      split at h
      · cases h
      · obtain ⟨target, -, h⟩ := bind_eq_ok.mp h
        exact admissible_of_validateAndCheck h
  · split at h
    · cases h
    · split at h
      · split at h
        · cases h
        · obtain ⟨par, -, h⟩ := bind_eq_ok.mp h
          obtain ⟨target, -, h⟩ := bind_eq_ok.mp h
          exact admissible_of_validateAndCheck h
      · split at h
        · obtain ⟨client, -, h⟩ := bind_eq_ok.mp h
          dsimp only at h
          split at h
          · cases h
          · split at h
            · cases h
            · split at h
              · cases h
              · split at h
                · cases h
                · obtain ⟨target, -, h⟩ := bind_eq_ok.mp h
                  exact admissible_of_validateAndCheck h
        · cases h
  · unfold prepareDirect at h
    dsimp only at h
    split at h
    · cases h
    · obtain ⟨target, -, h⟩ := bind_eq_ok.mp h
      exact admissible_of_validateAndCheck h

/-- A stored record keeps what its request asks for. -/
theorem keeps_of_stored {pending : PendingOAuthAuthorization} (hadmissible : p.origin.Admissible)
    (h : (checkSessionAndAuthorize env p cookie).stored = some pending) :
    Keeps p.origin pending := by
  have hage : p.validated.maxAge.bind i64OfU64 = p.validated.maxAge.map Int.ofNat := by
    cases hmax : p.validated.maxAge with
    | none => rfl
    | some maxAge => exact i64OfU64_of_le (hadmissible.2 maxAge hmax)
  obtain ⟨-, ⟨expiresAt, hdata⟩ | ⟨expiresAt, hdata⟩⟩ := checkSessionAndAuthorize_stored h
  · refine ⟨hadmissible, fun _ => ?_, hdata ▸ hage⟩
    rw [promptRequestsLogin, hdata]
    rfl
  · refine ⟨hadmissible, fun hlogin => ?_, hdata ▸ hage⟩
    obtain ⟨set, hset, hcontains⟩ := (Option.any_eq_true _ _).mp hlogin
    have hset : p.validated.prompt = some set := hset
    rw [promptRequestsLogin, hdata]
    show ((p.validated.prompt.map PromptSet.toSpaceSeparated).bind _).any _ = true
    rw [hset]
    show ((PromptSet.parse set.toSpaceSeparated).toOption).any _ = true
    rw [PromptSet.parse_toSpaceSeparated (hadmissible.1 set hset).1]
    exact hcontains

/-- An age that a session does not exceed. -/
theorem recent_of_not_exceeds {o : Origin} {resumed : Option Timestamp} {c : Timestamp}
    {maxAge : Nat} (h : exceedsMaxAge env.arrival c maxAge = false) :
    (⟨o, resumed, some c, env.arrival⟩ : IssuedCode).Recent maxAge :=
  ⟨c, rfl, .inl (Int.not_lt.mp (of_decide_eq_false h))⟩

/-- What is checked of a code that is issued at once. -/
theorem checked_at_once {code : AuthorizationCodeParams} (hadmissible : p.origin.Admissible)
    (h : (checkSessionAndAuthorize env p cookie).issued = some code) :
    (⟨p.origin, none, sessionCeremony env cookie, env.arrival⟩ : IssuedCode).Checked := by
  obtain ⟨⟨user, authenticator, hsession⟩, hreauth⟩ := checkSessionAndAuthorize_issued h
  rw [sessionCeremony_of_authenticated hsession]
  refine ⟨hadmissible, fun _ hflow => ?_, fun _ hflow => ?_, fun hresumed => absurd rfl hresumed⟩
  · have hpolicy : p.flow.reauthPolicy = .onDemand := by
      cases hkind : p.flow with
      | par => exact absurd hkind hflow
      | direct => rfl
      | jar => rfl
      | requestUriFetch => rfl
    rw [hpolicy] at hreauth
    obtain ⟨hlogin, hage⟩ := Bool.or_eq_false_iff.mp hreauth
    refine ⟨hlogin, fun maxAge hmax => ?_⟩
    have hmax : p.validated.maxAge = some maxAge := hmax
    rw [hmax] at hage
    cases hc : code.authenticatedAt with
    | none =>
      rw [hc] at hage
      cases hage
    | some c =>
      rw [hc] at hage
      have hage : exceedsMaxAge env.arrival c ((i64OfU64 maxAge).getD i64Max) = false := hage
      rw [i64OfU64_of_le (hadmissible.2 maxAge hmax)] at hage
      exact recent_of_not_exceeds hage
  · have hflow : p.flow = .par := hflow
    rw [hflow] at hreauth
    show p.validated.hasPrompt .silent = true
    simpa [needsReauth, AuthFlowKind.reauthPolicy] using hreauth

/-- What is checked of a code that is issued on return to a record. -/
theorem checked_later {o : Origin} {pending : PendingOAuthAuthorization} {id : String}
    {code : AuthorizationCodeParams} (hkeeps : Keeps o pending)
    (hread : getPendingOauthAuthorization env id = .ok (some pending))
    (h : (handlePendingAuth lib env id cookie).issued = some code) :
    (⟨o, some pending.createdAt, sessionCeremony env cookie,
      env.arrival⟩ : IssuedCode).Checked := by
  obtain ⟨pending', user, authenticator, hread', hsession, hviolation⟩ := handlePendingAuth_issued h
  obtain rfl := Option.some.inj (Except.ok.inj (hread'.symm.trans hread))
  rw [sessionCeremony_of_authenticated hsession]
  have hfresh : fresh pending' code.authenticatedAt = true →
      ∃ c, code.authenticatedAt = some c ∧ pending'.createdAt < c := by
    intro hfresh
    obtain ⟨c, hc, hlt⟩ := (Option.any_eq_true _ _).mp hfresh
    exact ⟨c, hc, of_decide_eq_true hlt⟩
  refine ⟨hkeeps.admissible, fun hresumed => absurd hresumed (Option.some_ne_none _),
    fun hresumed => absurd hresumed (Option.some_ne_none _),
      fun _ => ⟨fun hlogin => ?_, fun maxAge hmax => ?_⟩⟩
  · have hasks := hkeeps.login hlogin
    unfold pendingReauthViolation at hviolation
    rw [hasks, Bool.true_and] at hviolation
    split at hviolation
    · cases hviolation
    · rename_i hnot
      obtain ⟨c, hc, hlt⟩ := hfresh (by simpa using hnot)
      exact ⟨pending'.createdAt, c, rfl, hc, hlt⟩
  · unfold pendingReauthViolation at hviolation
    have hmax : o.maxAge = some maxAge := hmax
    rw [hkeeps.maxAge, hmax] at hviolation
    split at hviolation
    · cases hviolation
    · dsimp only [Option.map_some] at hviolation
      split at hviolation
      · rename_i hisfresh
        obtain ⟨c, hc, hlt⟩ := hfresh hisfresh
        exact ⟨c, hc, .inr ⟨pending'.createdAt, rfl, hlt⟩⟩
      · split at hviolation
        · cases hviolation
        · split at hviolation
          · cases hviolation
          · rename_i c hc hexceeds
            rw [hc]
            exact recent_of_not_exceeds (by simpa using hexceeds)

/-- Records keep what was asked for, and codes have been checked. -/
structure Sound (s : AuthorizeState) : Prop where
  pendings : ∀ o pending, (o, pending) ∈ s.pendings → Keeps o pending
  codes : ∀ code ∈ s.codes, code.Checked

variable {s : AuthorizeState}

/-- A visit keeps a state sound if what it stored and what it issued are. -/
theorem Sound.visited (hs : Sound s) {o : Origin} {resumed : Option Timestamp} {answer : Answer}
    (hstored : ∀ pending, answer.stored = some pending → Keeps o pending)
    (hissued : ∀ code, answer.issued = some code →
      (⟨o, resumed, sessionCeremony env cookie, env.arrival⟩ : IssuedCode).Checked) :
    Sound (s.visited o resumed env cookie answer) where
  pendings o' pending hmem := by
    rcases List.mem_append.mp hmem with hnew | hold
    · obtain ⟨pending', hpending', heq⟩ := Option.map_eq_some_iff.mp (Option.mem_toList.mp hnew)
      obtain ⟨rfl, rfl⟩ := Prod.mk.inj heq
      exact hstored pending' hpending'
    · exact hs.pendings o' pending hold
  codes code hmem := by
    rcases List.mem_append.mp hmem with hnew | hold
    · obtain ⟨params, hparams, rfl⟩ := Option.map_eq_some_iff.mp (Option.mem_toList.mp hnew)
      exact hissued params hparams
    · exact hs.codes code hold

/-- One visit keeps the state sound. -/
theorem Sound.step {s' : AuthorizeState} (hs : Sound s) (h : Step lib s s') : Sound s' := by
  cases h with
  | request hquery hp =>
    have hadmissible := admissible_of_prepare hp
    refine hs.visited (fun pending hstored => ?_) fun code hissued => ?_
    · rw [authorizeInner, hquery, hp] at hstored
      exact keeps_of_stored hadmissible hstored
    · rw [authorizeInner, hquery, hp] at hissued
      exact checked_at_once hadmissible hissued
  | resume hquery hread hstored =>
    refine hs.visited (fun pending hnew => ?_) fun code hissued => ?_
    · rw [authorizeInner, hquery] at hnew
      dsimp only at hnew
      rw [handlePendingAuth_stored] at hnew
      cases hnew
    · rw [authorizeInner, hquery] at hissued
      exact checked_later (hs.pendings _ _ hstored) hread hissued

/-- Every code of every run has been checked. -/
theorem checked_of_reachable (h : Reachable lib s) : Sound s := by
  induction h with
  | refl => exact ⟨fun _ _ hmem => absurd hmem List.not_mem_nil,
      fun _ hmem => absurd hmem List.not_mem_nil⟩
  | tail _ hstep ih => exact ih.step hstep

end Steps

/-! ## The requests the guarantee holds of -/

/-- A pushed request that is answered without a fresh login: a silent one with an age, or one that
is neither silent nor asks for a login. -/
def Origin.Overlooked (o : Origin) : Prop :=
  o.flow = .par ∧ (o.hasPrompt .silent = true ∧ o.maxAge.isSome = true ∨
    o.hasPrompt .silent = false ∧ o.hasPrompt .login = false)

/-- A request that is silent does not ask for a login. -/
theorem Origin.Admissible.not_login {o : Origin} (h : o.Admissible)
    (hsilent : o.hasPrompt .silent = true) : o.hasPrompt .login = false := by
  obtain ⟨set, hset, hcontains⟩ := (Option.any_eq_true _ _).mp hsilent
  have hlogin := ((h.1 set hset).1 hcontains).1
  rw [Origin.hasPrompt, hset]
  exact hlogin

/-- What was checked is enough for the other requests. -/
theorem IssuedCode.Checked.guarantee {code : IssuedCode} (h : code.Checked)
    (hnot : ¬ code.origin.Overlooked) : code.Guarantee := by
  by_cases hresumed : code.resumed = none
  · by_cases hflow : code.origin.flow = .par
    · have hsilent := h.silent hresumed hflow
      refine ⟨fun maxAge hmax => ?_, fun hlogin => ?_, fun _ hloud => ?_⟩
      · exact absurd ⟨hflow, .inl ⟨hsilent, by rw [hmax]; rfl⟩⟩ hnot
      · rw [h.admissible.not_login hsilent] at hlogin
        cases hlogin
      · rw [hsilent] at hloud
        cases hloud
    · obtain ⟨hlogin, hage⟩ := h.atOnce hresumed hflow
      refine ⟨hage, fun hasks => ?_, fun hpar => absurd hpar hflow⟩
      rw [hlogin] at hasks
      cases hasks
  · obtain ⟨hlogin, hage⟩ := h.later hresumed
    refine ⟨hage, hlogin, fun hpar hloud => hlogin ?_⟩
    by_contra hnone
    exact hnot ⟨hpar, .inr ⟨hloud, by simpa using hnone⟩⟩

/-! ### Runs of the other requests

A client, a user and a key; a request is pushed with the age and the prompt of its origin. -/

section Pushed

/-- A web client with one redirect URI. -/
def appClient : OAuthClient where
  clientId := "app"
  name := "App"
  userId := none
  orgId := none
  applicationType := .web
  redirectUris := ["https://app.example.com/cb"]
  active := true
  accessScope := .anyone
  resourceUris := []
  tokenEndpointAuthMethod := .clientSecretBasic
  requireSignedRequestObject := none
  fapiProfile := .none
  responseTypes := none
  requestUris := none

/-- Third-party code on the texts of the runs: JSON knows one device posture, and every URI is the
redirect URI. -/
def appLibrary : AuthorizeLibrary where
  url := ⟨fun _ => none⟩
  json := AuthorizationDetails.postureJson
  uri text := some ⟨"https", some "app.example.com", "/cb", none, none, text⟩

/-- When the browser comes first. -/
def firstVisit : Timestamp := 1700000000 * Timestamp.second

/-- The `request_uri` of the pushed request. -/
def pushedUri : String := "urn:ietf:params:oauth:request_uri:r"

/-- The pushed request of an origin. -/
def pushedDoc (o : Origin) : PushedAuthorizationRequestDoc where
  requestUri := pushedUri
  clientId := "app"
  responseType := "code"
  redirectUri := "https://app.example.com/cb"
  scope := none
  state := none
  nonce := none
  codeChallenge := none
  codeChallengeMethod := none
  resource := none
  acrValues := none
  maxAge := o.maxAge.map Int.ofNat
  prompt := o.prompt.map PromptSet.toSpaceSeparated
  dpopJkt := none
  expiresAt := firstVisit + 60 * Timestamp.second
  consumedAt := none
  authorizationDetails := none
  responseMode := .query

/-- A server with the client, the pushed request and a session with a ceremony, where every write
succeeds. -/
def appEnv (o : Origin) (arrival : Timestamp) (ceremony : Option Timestamp)
    (pending : Option PendingOAuthAuthorization) : AuthorizeEnv where
  arrival := arrival
  client _ := .ok (some appClient)
  pushedRequest _ := .ok (some (pushedDoc o))
  validateRequestObject _ _ _ _ := .error (.internal "")
  fetchRequestObject _ := .error (.internal "")
  validateSessionToken _ :=
    .ok (some ⟨⟨"0190aaaa", "user@example.com", none⟩, some ⟨"key", none⟩, true, ceremony, true⟩)
  pending _ := .ok pending
  now := arrival
  insertPending _ := .ok ("pending", arrival)
  consumePar _ := .ok ()
  consumePending _ := .ok ()
  issueAuthorizationCode _ := .ok "code"
  jarm _ _ _ := .error ""

/-- A query without parameters. -/
def emptyQuery : AuthorizeQuery :=
  ⟨none, none, none, none, none, none, none, none, none, none, none, none, none, none, none,
    none, none, none⟩

/-- The query of the first visit, which names the pushed request. -/
def pushedQuery : AuthorizeQuery :=
  { emptyQuery with clientId := some "app", requestUri := some pushedUri }

/-- The query of the return, which names the pending record. -/
def resumeQuery : AuthorizeQuery := { emptyQuery with pendingAuth := some "pending" }

/-- Where the answer goes. -/
def appTarget : AuthorizeResponseTarget := ⟨appClient, "https://app.example.com/cb", .query⟩

/-- The pushed request after validation. -/
def pushedValidated (o : Origin) : ValidatedAuthRequest :=
  ⟨"app", "https://app.example.com/cb", ScopeSet.parse "openid", none, none, none, none, none,
    none, o.maxAge, o.prompt, none, none⟩

/-- The pushed request as it is stored before the login. -/
def pushedPrepared (o : Origin) : Prepared :=
  ⟨.par, appTarget, pushedValidated o, some ⟨pushedUri, "app", .enforceExpiry⟩⟩

variable {o : Origin}

theorem maxAge_requestOfPar (o : Origin) :
    (requestOfPar appLibrary.json (pushedDoc o)).maxAge = o.maxAge := by
  show (o.maxAge.map Int.ofNat).bind _ = o.maxAge
  cases o.maxAge with
  | none => rfl
  | some maxAge => simp

theorem validateAuthorizeRequest_pushed (ho : o.Admissible) :
    validateAuthorizeRequest appLibrary (requestOfPar appLibrary.json (pushedDoc o)) =
      .ok (pushedValidated o) := by
  have hprompt : validatePrompt (requestOfPar appLibrary.json (pushedDoc o)).prompt =
    .ok o.prompt :=
    validatePrompt_toSpaceSeparated ho.1
  have hlengths : validateLengths (requestOfPar appLibrary.json (pushedDoc o)) = .ok () := by
    show whenSome (requestOfPar appLibrary.json (pushedDoc o)).maxAge _ = .ok ()
    rw [maxAge_requestOfPar]
    cases hmax : o.maxAge with
    | none => rfl
    | some maxAge => exact if_pos (decide_eq_true (ho.2 maxAge hmax))
  simp only [validateAuthorizeRequest, hlengths, hprompt, maxAge_requestOfPar]
  rfl

/-- The first visit of a pushed request. -/
theorem prepare_pushed (ho : o.Admissible) (ceremony : Option Timestamp) :
    prepare appLibrary (appEnv o firstVisit ceremony none) pushedQuery =
      .ok (pushedPrepared o) := by
  have hprepare : prepare appLibrary (appEnv o firstVisit ceremony none) pushedQuery =
      validateAndCheck appLibrary .par appTarget (requestOfPar appLibrary.json (pushedDoc o))
        (some ⟨pushedUri, "app", .enforceExpiry⟩) := rfl
  rw [hprepare, validateAndCheck, validateAuthorizeRequest_pushed ho]
  rfl

theorem origin_pushedPrepared (hflow : o.flow = .par) : (pushedPrepared o).origin = o := by
  obtain ⟨flow, maxAge, prompt⟩ := o
  obtain rfl : flow = .par := hflow
  rfl

/-- A visit that issues a code leaves it. -/
theorem mem_codes_visited {s : AuthorizeState} {resumed : Option Timestamp} {env : AuthorizeEnv}
    {cookie : Option String} {answer : Answer} (h : answer.issued.isSome = true) :
    (⟨o, resumed, sessionCeremony env cookie, env.arrival⟩ : IssuedCode) ∈
      (s.visited o resumed env cookie answer).codes := by
  obtain ⟨code, hcode⟩ := Option.isSome_iff_exists.mp h
  refine List.mem_append_left _ ?_
  rw [hcode]
  exact List.mem_singleton.mpr rfl

/-- The state after the first visit, with a session whose ceremony is given or with none. -/
def afterRequest (o : Origin) (ceremony : Option Timestamp) (cookie : Option String) :
    AuthorizeState :=
  (⟨[], []⟩ : AuthorizeState).visited o none (appEnv o firstVisit ceremony none) cookie
    (authorizeInner appLibrary (appEnv o firstVisit ceremony none) pushedQuery cookie)

theorem reachable_afterRequest (hflow : o.flow = .par) (ho : o.Admissible)
    (ceremony : Option Timestamp) (cookie : Option String) :
    Reachable appLibrary (afterRequest o ceremony cookie) := by
  have hstep : Step appLibrary ⟨[], []⟩ (afterRequest o ceremony cookie) := by
    have h : Step appLibrary ⟨[], []⟩
        ((⟨[], []⟩ : AuthorizeState).visited (pushedPrepared o).origin none
          (appEnv o firstVisit ceremony none) cookie
          (authorizeInner appLibrary (appEnv o firstVisit ceremony none) pushedQuery cookie)) :=
      Step.request rfl (prepare_pushed ho ceremony)
    rwa [origin_pushedPrepared hflow] at h
  exact Relation.ReflTransGen.single hstep

/-- A silent pushed request is answered at once. -/
theorem issued_silent (ho : o.Admissible) (hsilent : o.hasPrompt .silent = true)
    (ceremony : Option Timestamp) :
    (authorizeInner appLibrary (appEnv o firstVisit ceremony none) pushedQuery
      (some "session")).issued.isSome = true := by
  have hreauth : needsReauth .always (pushedValidated o) ceremony firstVisit = false := by
    show (!o.hasPrompt .silent) = false
    rw [hsilent]
    rfl
  have hinner : authorizeInner appLibrary (appEnv o firstVisit ceremony none) pushedQuery
      (some "session") = checkSessionAndAuthorize (appEnv o firstVisit ceremony none)
        (pushedPrepared o) (some "session") := by
    rw [authorizeInner, prepare_pushed ho ceremony]
    rfl
  rw [hinner]
  show (ite (needsReauth .always (pushedValidated o) ceremony firstVisit = true) _
    _ : Answer).issued.isSome = true
  rw [if_neg (by rw [hreauth]; exact Bool.false_ne_true)]
  rfl

/-- The record of a pushed request that came without a session. -/
def pushedPending (o : Origin) : PendingOAuthAuthorization where
  id := "pending"
  createdAt := firstVisit
  data :=
    { clientId := "app"
      redirectUri := "https://app.example.com/cb"
      responseType := "code"
      state := none
      scope := some "openid"
      nonce := none
      codeChallenge := none
      codeChallengeMethod := none
      expiresAt := firstVisit + 600 * Timestamp.second
      consumedAt := none
      resource := none
      acrValues := none
      maxAge := o.maxAge.bind i64OfU64
      prompt := o.prompt.map PromptSet.toSpaceSeparated
      dpopJkt := none
      authorizationDetails := none
      responseMode := .query
      parRequestUri := some pushedUri }

theorem checkedAddSeconds_firstVisit :
    firstVisit.checkedAddSeconds 600 = some (firstVisit + 600 * Timestamp.second) := by
      decide +kernel

/-- A pushed request that comes without a session is stored with the prompt it has. -/
theorem stored_pushed (ho : o.Admissible) (hloud : o.hasPrompt .silent = false) :
    (o, pushedPending o) ∈ (afterRequest o none none).pendings := by
  have hinner : authorizeInner appLibrary (appEnv o firstVisit none none) pushedQuery none =
      ite (o.hasPrompt .silent = true) (.of (appTarget.errorRedirect .loginRequired
        "User is not authenticated and prompt=none was requested" none))
        (storePendingAndRedirect (appEnv o firstVisit none none) (pushedPrepared o) none) := by
    rw [authorizeInner, prepare_pushed ho none]
    rfl
  have hexpires : (appEnv o firstVisit none none).now.checkedAddSeconds 600 =
      some (firstVisit + 600 * Timestamp.second) := checkedAddSeconds_firstVisit
  have hstored : (storePendingAndRedirect (appEnv o firstVisit none none) (pushedPrepared o)
      none).stored = some (pushedPending o) := by
    unfold storePendingAndRedirect createPendingOauthAuthorization
    rw [hexpires]
    rfl
  unfold afterRequest
  rw [hinner, if_neg (by rw [hloud]; exact Bool.false_ne_true)]
  refine List.mem_append_left _ ?_
  rw [hstored]
  exact List.mem_singleton.mpr rfl

/-- The state after a return to that record. -/
def afterReturn (o : Origin) (arrival : Timestamp) (ceremony : Option Timestamp) : AuthorizeState :=
  (afterRequest o none none).visited o (some firstVisit)
    (appEnv o arrival ceremony (some (pushedPending o))) (some "session")
    (authorizeInner appLibrary (appEnv o arrival ceremony (some (pushedPending o))) resumeQuery
      (some "session"))

variable {arrival : Timestamp}

theorem getPending_pushed (harrival : arrival < firstVisit + 600 * Timestamp.second)
    (ceremony : Option Timestamp) :
    getPendingOauthAuthorization (appEnv o arrival ceremony (some (pushedPending o))) "pending" =
      .ok (some (pushedPending o)) := by
  have hread : (appEnv o arrival ceremony (some (pushedPending o))).pending "pending" =
      .ok (some (pushedPending o)) := rfl
  rw [getPendingOauthAuthorization, hread, ok_bind]
  exact if_pos ⟨rfl, harrival⟩

theorem reachable_afterReturn (hflow : o.flow = .par) (ho : o.Admissible)
    (hloud : o.hasPrompt .silent = false) (harrival : arrival < firstVisit + 600 * Timestamp.second)
    (ceremony : Option Timestamp) : Reachable appLibrary (afterReturn o arrival ceremony) := by
  refine Relation.ReflTransGen.tail (reachable_afterRequest hflow ho none none) ?_
  exact Step.resume rfl (getPending_pushed harrival ceremony) (stored_pushed ho hloud)

/-- A return to that record is answered with a code if nothing violates what the record asks for. -/
theorem issued_return {ceremony : Option Timestamp}
    (harrival : arrival < firstVisit + 600 * Timestamp.second)
    (h : pendingReauthViolation (pushedPending o) ceremony arrival = none) :
    (⟨o, some firstVisit, ceremony, arrival⟩ : IssuedCode) ∈
      (afterReturn o arrival ceremony).codes := by
  have hreauth : checkReauth (appEnv o arrival ceremony (some (pushedPending o))) appTarget
      (pushedPending o) ceremony = .ok () := by
    unfold checkReauth
    have hviolation : pendingReauthViolation (pushedPending o) ceremony
      (appEnv o arrival ceremony (some (pushedPending o))).arrival = none := h
    rw [hviolation]
  have hresolve : resolve appLibrary (appEnv o arrival ceremony (some (pushedPending o)))
      (pushedPending o).data.clientId (some (pushedPending o).data.redirectUri)
      (.stored (pushedPending o).data.responseMode) (pushedPending o).data.state = .ok appTarget :=
        rfl
  refine mem_codes_visited ?_
  show (handlePendingAuth _ _ "pending" _).issued.isSome = true
  rw [handlePendingAuth, getPending_pushed harrival ceremony]
  dsimp only
  rw [hresolve]
  show (completePendingAuth _ _ _ _ _ _).issued.isSome = true
  rw [completePendingAuth, hreauth]
  rfl

/-- A record stored without a prompt for a login asks for none. -/
theorem promptRequestsLogin_pushed (ho : o.Admissible) (hlogin : o.hasPrompt .login = false) :
    promptRequestsLogin (pushedPending o) = false := by
  show ((o.prompt.map PromptSet.toSpaceSeparated).bind _).any _ = false
  cases hprompt : o.prompt with
  | none => rfl
  | some set =>
    show ((PromptSet.parse set.toSpaceSeparated).toOption).any _ = false
    rw [PromptSet.parse_toSpaceSeparated (ho.1 set hprompt).1]
    have hcontains : o.prompt.any (·.contains .login) = false := hlogin
    rw [hprompt] at hcontains
    exact hcontains

/-- The ceremony of a session that is as old as the record passes. -/
theorem pendingReauthViolation_pushed (ho : o.Admissible) (hlogin : o.hasPrompt .login = false) :
    pendingReauthViolation (pushedPending o) (some firstVisit) firstVisit = none := by
  unfold pendingReauthViolation
  rw [promptRequestsLogin_pushed ho hlogin, Bool.false_and, if_neg Bool.false_ne_true]
  have hmax : (pushedPending o).data.maxAge = o.maxAge.bind i64OfU64 := rfl
  rw [hmax]
  cases hage : o.maxAge with
  | none => rfl
  | some maxAge =>
    have hnot : exceedsMaxAge firstVisit firstVisit maxAge = false := by
      refine decide_eq_false (Int.not_lt.mpr ?_)
      rw [Int.sub_self]
      exact Int.mul_nonneg (Int.natCast_nonneg _) (by decide)
    have hfresh : fresh (pushedPending o) (some firstVisit) = false :=
      decide_eq_false (Int.lt_irrefl firstVisit)
    rw [Option.bind_some, i64OfU64_of_le (ho.2 maxAge hage)]
    dsimp only
    rw [hfresh, if_neg Bool.false_ne_true, hnot, if_neg Bool.false_ne_true]

end Pushed

/-- **Logging in again, exactly.**  The guarantee holds of every code that is issued for requests of
an origin, in every run, if and only if they are not among the pushed requests that are
overlooked. -/
theorem reauthentication_iff (o : Origin) :
    (∀ lib s, Reachable lib s → ∀ code ∈ s.codes, code.origin = o → code.Guarantee) ↔
      ¬ (o.Admissible ∧ o.Overlooked) := by
  constructor
  · rintro hall ⟨ho, hflow, ⟨hsilent, hmax⟩ | ⟨hloud, hlogin⟩⟩
    · -- a silent request is answered at once, with a ceremony older than it asks for
      obtain ⟨maxAge, hmax⟩ := Option.isSome_iff_exists.mp hmax
      have hmem : (⟨o, none, some (firstVisit - (maxAge + 1) * Timestamp.second),
        firstVisit⟩ : IssuedCode) ∈
          (afterRequest o (some (firstVisit - (maxAge + 1) * Timestamp.second))
            (some "session")).codes :=
        mem_codes_visited (issued_silent ho hsilent _)
      obtain ⟨c, hc, hle | ⟨created, hcreated, -⟩⟩ :=
        (hall _ _ (reachable_afterRequest hflow ho _ _) _ hmem rfl).maxAge maxAge hmax
      · obtain rfl := Option.some.inj hc
        dsimp only at hle
        rw [Int.sub_sub_self, Int.add_mul, Int.one_mul] at hle
        exact absurd (Int.lt_add_of_pos_right _ (by decide)) (Int.not_lt.mpr hle)
      · cases hcreated
    · -- a return with a session as old as the record
      have hmem := issued_return (by decide) (pendingReauthViolation_pushed ho hlogin)
      obtain ⟨created, c, hcreated, hc, hlt⟩ :=
        (hall _ _ (reachable_afterReturn hflow ho hloud (by decide) _) _ hmem rfl).pushed hflow
          hloud
      obtain rfl := Option.some.inj hcreated
      obtain rfl := Option.some.inj hc
      exact absurd hlt (Int.lt_irrefl _)
  · intro hnot lib s hs code hcode horigin
    have hchecked := (checked_of_reachable hs).codes code hcode
    refine hchecked.guarantee fun hover => hnot ?_
    rw [← horigin]
    exact ⟨hchecked.admissible, hover⟩

/-- A pushed request that is silent and carries an age of a minute. -/
def silentMinute : Origin := ⟨.par, some 60, some (PromptSet.of .silent)⟩

/-- A pushed request that carries nothing. -/
def plainPushed : Origin := ⟨.par, none, none⟩

theorem admissible_silentMinute : silentMinute.Admissible := by
  refine ⟨fun set hset => ?_, fun maxAge hmax => ?_⟩
  · cases hset
    exact ⟨fun _ => ⟨rfl, rfl⟩, rfl⟩
  · cases hmax
    decide

theorem admissible_plainPushed : plainPushed.Admissible :=
  ⟨fun _ hset => (nomatch hset), fun _ hmax => (nomatch hmax)⟩

/-- An hour before the first visit. -/
def hourBefore : Timestamp := firstVisit - 3600 * Timestamp.second

/-- Two codes for a session that logged in an hour before: one for a silent pushed request whose age
is a minute, and one for a pushed request that first came without a session and was returned to a
minute later. -/
theorem pushed_without_fresh_login :
    (Reachable appLibrary (afterRequest silentMinute (some hourBefore) (some "session")) ∧
      ⟨silentMinute, none, some hourBefore, firstVisit⟩ ∈
        (afterRequest silentMinute (some hourBefore) (some "session")).codes ∧
      ¬ (⟨silentMinute, none, some hourBefore, firstVisit⟩ : IssuedCode).Guarantee) ∧
    (Reachable appLibrary
        (afterReturn plainPushed (firstVisit + 60 * Timestamp.second) (some hourBefore)) ∧
      ⟨plainPushed, some firstVisit, some hourBefore, firstVisit + 60 * Timestamp.second⟩ ∈
        (afterReturn plainPushed (firstVisit + 60 * Timestamp.second) (some hourBefore)).codes ∧
      ¬ (⟨plainPushed, some firstVisit, some hourBefore,
        firstVisit + 60 * Timestamp.second⟩ : IssuedCode).Guarantee) := by
  refine ⟨⟨reachable_afterRequest rfl admissible_silentMinute _ _,
    mem_codes_visited (issued_silent admissible_silentMinute rfl _), fun h => ?_⟩,
    ⟨reachable_afterReturn rfl admissible_plainPushed rfl (by decide) _,
      issued_return (by decide) rfl, fun h => ?_⟩⟩
  · obtain ⟨c, hc, hle | ⟨created, hcreated, -⟩⟩ := h.maxAge 60 rfl
    · cases hc
      exact absurd hle (by decide)
    · cases hcreated
  · obtain ⟨created, c, hcreated, hc, hlt⟩ := h.pushed rfl rfl
    cases hcreated
    cases hc
    exact absurd hlt (by decide)

end Vouch.Authorize
