import Vouch.Lib.Chain
import Vouch.Oidc.TokenExchange

/-!
# Chains of exchanges

A token that came out of one exchange may go into the next.  A `Hop` is one successful request to
the endpoint; in a chain, each hop presents the token that the one before it was issued.

Two things tie a token to what the server reads of it: its text decodes to the claims that were
signed, and the session found under its hash is the one that was stored with it (sessions are
inserted and deleted, never changed).  Everything else a call is answered — users, policies, the
clock, the client — is free at every hop.

* `Hop.act_issued` — the actor claim of what a hop issues.
* `delegation_kept_iff` — along a chain no claim is nested deeper than five; and every actor of a
  token is still there in all that come from it exactly when each hop either names an actor or
  presents a token without one.  An exchange without an actor token starts over with no actors at
  all.
-/

namespace Vouch

variable {Key : Type} {lib : ExchangeLibrary Key}

/-- One successful exchange. -/
structure Hop (lib : ExchangeLibrary Key) where
  env : ExchangeEnv
  req : ExchangeRequest
  arrival : Timestamp
  subject : AccessToken
  issued : Issued
  presented : req.subjectToken = subject.token
  decodes : lib.jwt.claims subject.token = some subject.claims
  stored : ∀ session, env.session (lib.hashToken subject.token) = .ok (some session) →
    session = subject.session
  succeeds : handleTokenExchangeGrant lib env req arrival = .ok issued

namespace Hop

/-- What a hop hands on: an access token, for an ID token cannot be presented again. -/
def Yields (hop : Hop lib) (token : AccessToken) : Prop := hop.issued = .accessToken token

/-- Each hop presents what the one before it was issued. -/
def IsChain (hops : List (Hop lib)) : Prop := Chain.Linked subject Yields hops

/-- The stages of a hop found the token it presented, and its session. -/
theorem passed (hop : Hop lib) :
    (∃ stages : Stages, ∃ params token, hop.issued = .accessToken token ∧
        stages.Passed lib hop.env params hop.arrival token ∧
        stages.subject = hop.subject.claims ∧ stages.session = hop.subject.session ∧
        params.Of hop.req) ∨
      ∃ token, hop.issued = .idToken token ∧ hop.req.actorToken = none := by
  obtain ⟨params, hparams, hexchange⟩ := handleTokenExchangeGrant_ok hop.succeeds
  have hsubject : params.subject = hop.subject.token := hparams.subject.trans hop.presented
  rcases exchangeToken_ok hexchange with ⟨stages, token, hissued, hpassed⟩ | ⟨token, hissued, hnone⟩
  · left
    have hclaims : lib.jwt.claims hop.subject.token = some stages.subject :=
      hsubject ▸ (decodeToken_eq_some hpassed.decoded).1
    have hlive : hop.env.session (lib.hashToken hop.subject.token) = .ok (some stages.session) :=
      hsubject ▸ hpassed.live
    exact ⟨stages, params, token, hissued, hpassed,
      Option.some.inj (hclaims.symm.trans hop.decodes), hop.stored _ hlive, hparams⟩
  · right
    exact ⟨token, hissued, hparams.actor ▸ hnone⟩

end Hop

/-! ## A small deployment

Every token of it is known to the library by its text, and is its own hash. -/

/-- A user, under any id. -/
def sampleUser : UserDoc where
  email := Email.new "user@example.com"
  name := none
  orgId := none
  orgDomain := none
  isOrgAdmin := false
  active := true
  externalId := none
  githubId := none
  githubLogin := none
  githubRefreshToken := none
  idpIdentities := []

/-- A token that lasts from the thousandth to the two thousandth second. -/
def sampleToken (token sub aud clientId : String) (act : Option ActorClaim) : AccessToken where
  token := token
  claims :=
    { iss := "https://vouch.example"
      sub := sub
      aud := aud
      exp := 2000 * Timestamp.second
      iat := 1000 * Timestamp.second
      nbf := some (1000 * Timestamp.second)
      jti := token
      clientId := clientId
      scope := some (ScopeSet.parse "openid")
      email := none
      emailVerified := none
      hardwareVerified := false
      cnf := none
      authTime := none
      act := act
      amr := none
      acr := none }
  session :=
    { userId := sub
      userEmail := sampleUser.email.text
      tokenHash := token
      authenticatorId := none
      sessionType := .oauthAccessToken
      expiresAt := 2000 * Timestamp.second
      authorizationDetails := none
      hardwareAaguid := none
      orgDomain := none
      clientId := some clientId
      sourceCodeHash := none
      authenticatedAt := none }
  expiresIn := 1000

/-- The library, for a list of tokens. -/
def sampleLibrary (tokens : List AccessToken) : ExchangeLibrary Unit where
  jwt :=
    { parse := fun _ => .ok ⟨.known .es256, some "at+jwt", none, none⟩
      claims := fun token => (tokens.find? fun t => t.token = token).map AccessToken.claims
      verifies := fun _ _ _ => true
      fromEcComponents := fun _ _ => .ok ()
      fromRsaComponents := fun _ _ => .ok ()
      fromEdComponents := fun _ => .ok ()
      thumbprint := fun _ => "" }
  oidcKey := ()
  hashToken := id
  url := ⟨fun text => if text = "https://vouch.example" then
    some ⟨some text, ['/'], none, none, "https://vouch.example/"⟩ else none⟩
  json := AuthorizationDetails.postureJson

/-- The rest of the server, where the next token is `token`. -/
def sampleEnv (tokens : List AccessToken) (token : String) : ExchangeEnv where
  baseUrl := "https://vouch.example"
  sessionHours := 8
  jti := token
  sign _ := .ok token
  createSession _ := .ok ()
  session hash := .ok ((tokens.find? fun t => t.token = hash).map AccessToken.session)
  user _ := .ok (some sampleUser)
  exchangePolicies _ _ _ _ _ := .ok ()
  actorLogoutPolicy _ _ _ := .ok ()
  issueIdToken _ := .ok token

/-- A request of a client without restrictions. -/
def sampleRequest (clientId subject : String) (actor audience : Option String) :
    ExchangeRequest where
  client := ⟨clientId, [], .none, false, false, true⟩
  presented := ⟨none, none⟩
  subjectToken := subject
  subjectTokenType := TokenType.accessToken.asUrn
  actorToken := actor
  actorTokenType := actor.map fun _ => TokenType.accessToken.asUrn
  requestedTokenType := none
  audience := audience
  resource := none
  scope := none
  authorizationDetails := none

/-- A session that the library's list of tokens has is the one of the token. -/
theorem sampleEnv_session {tokens : List AccessToken} {next : String} {subject : AccessToken}
    (h : tokens.find? (fun t => t.token = subject.token) = some subject) :
    ∀ session, (sampleEnv tokens next).session subject.token = .ok (some session) →
      session = subject.session := by
  intro session hsession
  have hfound : some subject.session = some session := by
    have := Except.ok.inj hsession
    rwa [h] at this
  exact (Option.some.inj hfound).symm

/-! ## Delegation -/

/-- The actor claim of an issued token; an ID token has none. -/
def Issued.act : Issued → Option ActorClaim
  | .accessToken token => token.claims.act
  | .idToken _ => none

/-- How deep an actor claim is nested. -/
def depthOf (act : Option ActorClaim) : Nat := (act.map ActorClaim.depth).getD 0

/-- The actor claim a hop issues: none without an actor token, and else one more actor in front. -/
theorem Hop.act_issued (hop : Hop lib) :
    (hop.req.actorToken = none ∧ hop.issued.act = none) ∨
      ∃ sub, hop.req.actorToken.isSome ∧
        hop.issued.act = some (ActorClaim.new sub hop.subject.claims.act) ∧
        (ActorClaim.new sub hop.subject.claims.act).depth ≤ maxDelegationDepth := by
  rcases hop.passed with
    ⟨stages, params, token, hissued, hpassed, hsubject, -, hparams⟩ | ⟨token, hissued, hnone⟩
  · obtain ⟨expires, -, hclaims, -⟩ := createOauthAccessToken_ok hpassed.issued
    have hact : hop.issued.act = stages.delegation.act := by
      rw [hissued, Issued.act, hclaims]
      rfl
    rcases delegate_ok hpassed.delegated with ⟨hnone, hdelegation⟩ | ⟨token, sub, hsome, h, hdepth⟩
    · left
      exact ⟨hparams.actor ▸ hnone, hact.trans (by rw [hdelegation])⟩
    · right
      rw [hsubject] at h hdepth
      refine ⟨sub, ?_, hact.trans h, hdepth⟩
      rw [← hparams.actor, hsome]
      rfl
  · left
    exact ⟨hnone, by rw [hissued, Issued.act]⟩

/-- No issued claim is nested deeper than the limit. -/
theorem Hop.depth_le (hop : Hop lib) : depthOf hop.issued.act ≤ maxDelegationDepth := by
  rcases hop.act_issued with ⟨-, hact⟩ | ⟨sub, -, hact, hdepth⟩
  · rw [hact]
    exact Nat.zero_le _
  · rw [hact]
    exact hdepth

/-- The actors of the presented token are behind those of the issued one. -/
def Hop.KeepsActors (hop : Hop lib) : Prop :=
  actorsOf hop.subject.claims.act <:+ actorsOf hop.issued.act

/-- A hop keeps the actors when it adds one, or when there are none. -/
theorem Hop.keepsActors_iff (hop : Hop lib) :
    hop.KeepsActors ↔ hop.req.actorToken.isSome ∨ hop.subject.claims.act = none := by
  unfold KeepsActors
  rcases hop.act_issued with ⟨hnone, hact⟩ | ⟨sub, hsome, hact, -⟩
  · rw [hact, hnone]
    cases hop.subject.claims.act with
    | none => simp
    | some claim => cases claim <;> simp [actorsOf, ActorClaim.actors]
  · have htail : actorsOf hop.subject.claims.act <:+ actorsOf hop.issued.act := by
      rw [hact]
      show _ <:+ (ActorClaim.new sub hop.subject.claims.act).actors
      rw [actors_new]
      exact List.suffix_cons sub _
    exact ⟨fun _ => .inl hsome, fun _ => htail⟩

/-- **Delegation along a chain.**  No issued claim is nested deeper than `maxDelegationDepth`.  And
the actors of every token in the chain are the tail of those of every token issued from it, at the
same hop or at a later one, exactly when each hop names an actor or presents a token that has
none. -/
theorem delegation_kept_iff (hops : List (Hop lib)) (chain : Hop.IsChain hops) :
    (∀ hop ∈ hops, depthOf hop.issued.act ≤ maxDelegationDepth) ∧
      (((∀ hop ∈ hops, hop.KeepsActors) ∧
          hops.Pairwise fun a b => actorsOf a.subject.claims.act <:+ actorsOf b.issued.act) ↔
        ∀ hop ∈ hops, hop.req.actorToken.isSome ∨ hop.subject.claims.act = none) := by
  refine ⟨fun hop _ => hop.depth_le, fun h hop hmem => hop.keepsActors_iff.1 (h.1 hop hmem),
    fun h => ?_⟩
  have hkeeps : ∀ hop ∈ hops, hop.KeepsActors := fun hop hmem => hop.keepsActors_iff.2 (h hop hmem)
  -- The lists of actors are linked as the tokens are.
  have hlinked : Chain.Linked (fun hop : Hop lib => actorsOf hop.subject.claims.act)
      (fun hop actors => actors = actorsOf hop.issued.act) hops := by
    refine List.IsChain.imp (fun a b hab => ?_) chain
    have hissued : a.issued = .accessToken b.subject := hab
    show actorsOf b.subject.claims.act = actorsOf a.issued.act
    rw [hissued, Issued.act]
  have hstep : ∀ hop ∈ hops, ∀ actors, actors = actorsOf hop.issued.act →
      actorsOf hop.subject.claims.act <:+ actors := by
    rintro hop hmem _ rfl
    exact hkeeps hop hmem
  have hlater := Chain.pairwise (R := (· <:+ ·)) List.IsSuffix.trans hlinked hstep
  exact ⟨hkeeps, hlater.imp fun h => h _ rfl⟩

/-- The actor chain that the samples' one email address gives. -/
def sampleActors : Option ActorClaim := some (.single "user@example.com")

/-- Two logins, a delegated token, and one exchanged from it without an actor. -/
def delegationTokens : List AccessToken :=
  [sampleToken "login" "alice" "cli" "cli" none, sampleToken "agent" "bot" "cli" "cli" none,
    sampleToken "delegated" "alice" "cli" "cli" sampleActors]

/-- The agent acts for the user. -/
def delegatingHop : Hop (sampleLibrary delegationTokens) where
  env := sampleEnv delegationTokens "delegated"
  req := sampleRequest "cli" "login" (some "agent") none
  arrival := 1000 * Timestamp.second
  subject := sampleToken "login" "alice" "cli" "cli" none
  issued := .accessToken (sampleToken "delegated" "alice" "cli" "cli" sampleActors)
  presented := rfl
  decodes := rfl
  stored := sampleEnv_session rfl
  succeeds := by decide +kernel

/-- The delegated token is exchanged once more, with no actor token. -/
def plainHop : Hop (sampleLibrary delegationTokens) where
  env := sampleEnv delegationTokens "plain"
  req := sampleRequest "cli" "delegated" none none
  arrival := 1000 * Timestamp.second
  subject := sampleToken "delegated" "alice" "cli" "cli" sampleActors
  issued := .accessToken (sampleToken "plain" "alice" "cli" "cli" none)
  presented := rfl
  decodes := rfl
  stored := sampleEnv_session rfl
  succeeds := by decide +kernel

/-- The second hop presents what the first one was issued. -/
theorem delegation_isChain : Hop.IsChain [delegatingHop, plainHop] :=
  List.isChain_pair.2 rfl

/-- **The actors are dropped.**  In the chain of the two exchanges the agent is recorded by the
first, and gone after the second. -/
theorem delegation_dropped :
    Hop.IsChain [delegatingHop, plainHop] ∧
      actorsOf delegatingHop.issued.act = ["user@example.com"] ∧
      actorsOf plainHop.issued.act = [] ∧ ¬ plainHop.KeepsActors := by
  refine ⟨delegation_isChain, rfl, rfl, ?_⟩
  rw [Hop.keepsActors_iff]
  decide

/-- The delegated token is exchanged once more, by the agent again. -/
def redelegatingHop : Hop (sampleLibrary delegationTokens) where
  env := sampleEnv delegationTokens "redelegated"
  req := sampleRequest "cli" "delegated" (some "agent") none
  arrival := 1000 * Timestamp.second
  subject := sampleToken "delegated" "alice" "cli" "cli" sampleActors
  issued := .accessToken (sampleToken "redelegated" "alice" "cli" "cli"
    (sampleActors.map (.nested "user@example.com")))
  presented := rfl
  decodes := rfl
  stored := sampleEnv_session rfl
  succeeds := by decide +kernel

/-- Two exchanges with an actor keep the actors. -/
theorem delegation_kept_twice :
    Hop.IsChain [delegatingHop, redelegatingHop] ∧
      actorsOf redelegatingHop.subject.claims.act = ["user@example.com"] ∧
      ∀ hop ∈ [delegatingHop, redelegatingHop], hop.KeepsActors := by
  have chain : Hop.IsChain [delegatingHop, redelegatingHop] := List.isChain_pair.2 rfl
  refine ⟨chain, rfl, ((delegation_kept_iff _ chain).2.2 fun hop hmem => .inl ?_).1⟩
  rcases List.mem_pair.1 hmem with rfl | rfl
  · rfl
  · rfl

end Vouch
