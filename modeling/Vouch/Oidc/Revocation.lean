import Vouch.Oidc.AccessToken

/-!
# Revocation of access tokens

A client hands back a token (RFC 7009).  For a user that is a logout: all sessions of the user end.
What is deleted is chosen by what the token says, not by the session behind it, and this file is
about the difference that makes.

* `exchangeClientCredentials` — the tokens of clients that act for themselves.
* `revokeToken` — the revocation, from the token to the sessions that are left.
* `SessionState`, `SessionStep` — the sessions, the keys and the tokens issued so far, and what may
  happen to them: issuing, revoking, deleting sessions or a key.
* `Linked` — in every run, the sessions are those of issued tokens, and a token's claims name the
  user and the client of its session.
* `Bounded` — what a revocation may remove, by whose token it is and whether its session is live.
* `revocation_bounded_iff` — **a revocation keeps to that exactly when the token decodes just when
  its session is live, or the user has no other session**.  A token still decodes after its session
  has ended, so that handing it back a second time ends the sessions that came after:
  `stale_token_ends_new_session`.
-/

namespace Vouch

open Result

/-! ## Grants -/

/-- `GrantProof`, without the claims it carries. -/
inductive GrantProof
  | authorizationCode
  | clientCredentials
  /-- The session that is issued has the purpose of the subject's. -/
  | tokenExchange (purpose : SessionPurpose)
  | fido2Assertion
  | deviceCode
  | enrollmentBootstrap
  | enrollmentComplete
  | browserLogin
  | certificationBypass
  deriving DecidableEq, Repr

/-- `GrantProof::session_purpose`. -/
def GrantProof.sessionPurpose : GrantProof → SessionPurpose
  | fido2Assertion | deviceCode => .credentialIssuance
  | authorizationCode | enrollmentBootstrap | enrollmentComplete | browserLogin
  | certificationBypass => .oauthAccessToken
  | clientCredentials => .m2mAccessToken
  | tokenExchange purpose => purpose

/-- The parameters of a token for a client that acts for itself. -/
def clientCredentialsParams (clientId : String) (scope : Option ScopeSet) (audience : Option String)
    (binding : TokenBinding) : CreateOAuthTokenParams where
  userId := clientId
  email := ""
  authenticatorId := none
  clientId := clientId
  scope := scope
  binding := binding
  act := none
  audience := audience
  maxLifetimeSecs := none
  hardwareVerification := .notVerified
  authorizationDetails := none
  hardwareAaguid := none
  orgDomain := none
  sourceCodeHash := none

/-- The scope a client is granted for itself. -/
def clientCredentialsScope : Option String → Except ServiceError (Option ScopeSet)
  | none => .ok none
  | some requested => do
    let granted ← (ScopeSet.parse requested).withoutUserScopes.intoRequestedGrant
    .ok (some granted)

/-- `exchange_client_credentials`. -/
def exchangeClientCredentials {Key : Type} (lib : TokenLibrary Key) (env : IssueEnv)
    (clientId : String) (requestedScope audience : Option String) (binding : TokenBinding)
    (arrival : Timestamp) :
    Except ServiceError AccessToken := do
  let scope ← clientCredentialsScope requestedScope
  createOauthAccessToken lib env (clientCredentialsParams clientId scope audience binding)
    GrantProof.clientCredentials.sessionPurpose arrival

/-! ## Sessions -/

/-- `find_session_by_token_hash`. -/
def findSessionByTokenHash (sessions : List SessionDoc) (tokenHash : String) : Option SessionDoc :=
  sessions.find? (·.tokenHash = tokenHash)

/-- `delete_session_by_token_hash`: a row that was deleted, and the rows that are left. -/
def deleteSessionByTokenHash (sessions : List SessionDoc) (tokenHash : String) :
    Option SessionDoc × List SessionDoc :=
  ((sessions.filter (·.tokenHash = tokenHash)).getLast?, sessions.filter (·.tokenHash ≠ tokenHash))

/-- `delete_sessions_for_user`: how many rows were deleted, and the rows that are left. -/
def deleteSessionsForUser (sessions : List SessionDoc) (userId : String) : Nat × List SessionDoc :=
  ((sessions.filter (·.userId = userId)).length, sessions.filter (·.userId ≠ userId))

/-- `ValidatedSession::lookup`, on the tables: the row is there, it has not expired, and neither has
the key behind it been deleted. -/
def lookupSession (sessions : List SessionDoc) (keys : List String) (tokenHash : String)
    (arrival : Timestamp) : Option SessionDoc :=
  ((findSessionByTokenHash sessions tokenHash).filter (arrival < ·.expiresAt)).filter fun session =>
    session.authenticatorId.all (keys.contains ·)

/-! ## Revoking -/

/-- What a revocation reports to the audit log. -/
structure RevocationResult where
  revoked : Bool
  userEmail : Option String
  deriving DecidableEq, Repr

/-- Errors of the store, where it fails. -/
structure StoreFaults where
  lookup : Option String
  delete : Option String

/-- The sessions of a user end. -/
def revokeUser (users : String → Option String) (faults : StoreFaults) (sessions : List SessionDoc)
    (userId : String) (email : Option String) :
    Except ServiceError (RevocationResult × List SessionDoc) :=
  match faults.delete with
  | some e => .error (.internal s!"failed to delete sessions during revocation: {e}")
  | none =>
    let (count, left) := deleteSessionsForUser sessions userId
    if count > 0 then .ok (⟨true, email.orElse fun _ => users userId⟩, left)
    else .ok (⟨false, email⟩, left)

/-- One session ends.  `decoded` says whether the token was decoded, and so is one of a client's
own. -/
def revokeOne (faults : StoreFaults) (sessions : List SessionDoc) (tokenHash : String)
    (decoded : Bool) : Except ServiceError (RevocationResult × List SessionDoc) :=
  match faults.delete with
  | some e => .error (.internal s!"failed to delete session during revocation: {e}")
  | none =>
    let (deleted, left) := deleteSessionByTokenHash sessions tokenHash
    match deleted with
    | none => .ok (⟨false, none⟩, left)
    | some row =>
      if decoded || row.sessionType = .m2mAccessToken then .ok (⟨true, none⟩, left)
      else .ok (⟨true, some row.userEmail⟩, left)

/-- A token that does not decode says nothing of its client; its row does. -/
def revokeUndecoded (faults : StoreFaults) (sessions : List SessionDoc)
    (tokenHash callerClientId : String) :
    Except ServiceError (RevocationResult × List SessionDoc) :=
  match faults.lookup with
  | some e => .error (.internal s!"failed to look up session during revocation: {e}")
  | none =>
    if (findSessionByTokenHash sessions tokenHash).any (·.clientId.any (· ≠ callerClientId)) then
      .ok (⟨false, none⟩, sessions)
    else revokeOne faults sessions tokenHash false

/-- `revoke_token`. -/
def revokeToken {Key : Type} (lib : TokenLibrary Key) (baseUrl : String)
    (users : String → Option String) (faults : StoreFaults) (sessions : List SessionDoc)
    (token callerClientId : String) (arrival : Timestamp) :
    Except ServiceError (RevocationResult × List SessionDoc) :=
  match decodeToken lib token baseUrl arrival with
  | none => revokeUndecoded faults sessions (lib.hashToken token) callerClientId
  | some claims =>
    if callerClientId ≠ claims.clientId then .ok (⟨false, none⟩, sessions)
    else if claims.sub = claims.clientId ∧ claims.email = none then
      revokeOne faults sessions (lib.hashToken token) true
    else revokeUser users faults sessions claims.sub claims.email

variable {faults : StoreFaults} {sessions left : List SessionDoc} {result : RevocationResult}

theorem revokeUser_ok {users : String → Option String} {userId : String} {email : Option String}
    (h : revokeUser users faults sessions userId email = .ok (result, left)) :
    left = sessions.filter (·.userId ≠ userId) := by
  unfold revokeUser at h
  split at h
  · cases h
  · dsimp only [deleteSessionsForUser] at h
    split at h
    · exact (Prod.mk.inj (Except.ok.inj h)).2.symm
    · exact (Prod.mk.inj (Except.ok.inj h)).2.symm

theorem revokeOne_ok {tokenHash : String} {decoded : Bool}
    (h : revokeOne faults sessions tokenHash decoded = .ok (result, left)) :
    left = sessions.filter (·.tokenHash ≠ tokenHash) := by
  unfold revokeOne at h
  split at h
  · cases h
  · dsimp only [deleteSessionByTokenHash] at h
    split at h
    · exact (Prod.mk.inj (Except.ok.inj h)).2.symm
    · split at h
      · exact (Prod.mk.inj (Except.ok.inj h)).2.symm
      · exact (Prod.mk.inj (Except.ok.inj h)).2.symm

/-- What a revocation leaves, by what the token says. -/
theorem revokeToken_ok {Key : Type} {lib : TokenLibrary Key} {baseUrl : String}
    {users : String → Option String} {token callerClientId : String} {arrival : Timestamp}
    (h : revokeToken lib baseUrl users faults sessions token callerClientId arrival =
      .ok (result, left)) :
    (∃ claims, decodeToken lib token baseUrl arrival = some claims ∧
      (callerClientId ≠ claims.clientId ∧ left = sessions ∨
        callerClientId = claims.clientId ∧ (claims.sub = claims.clientId ∧ claims.email = none) ∧
          left = sessions.filter (·.tokenHash ≠ lib.hashToken token) ∨
        callerClientId = claims.clientId ∧ ¬ (claims.sub = claims.clientId ∧ claims.email = none) ∧
          left = sessions.filter (·.userId ≠ claims.sub))) ∨
    (decodeToken lib token baseUrl arrival = none ∧
      ((∃ row clientId, findSessionByTokenHash sessions (lib.hashToken token) = some row ∧
          row.clientId = some clientId ∧ clientId ≠ callerClientId ∧ left = sessions) ∨
        (∀ row clientId, findSessionByTokenHash sessions (lib.hashToken token) = some row →
            row.clientId = some clientId → clientId = callerClientId) ∧
          left = sessions.filter (·.tokenHash ≠ lib.hashToken token))) := by
  unfold revokeToken at h
  cases hdecoded : decodeToken lib token baseUrl arrival with
  | some claims =>
    rw [hdecoded] at h
    dsimp only at h
    refine .inl ⟨claims, rfl, ?_⟩
    by_cases hcaller : callerClientId = claims.clientId
    · rw [if_neg (not_not.mpr hcaller)] at h
      by_cases hshape : claims.sub = claims.clientId ∧ claims.email = none
      · rw [if_pos hshape] at h
        exact .inr (.inl ⟨hcaller, hshape, revokeOne_ok h⟩)
      · rw [if_neg hshape] at h
        exact .inr (.inr ⟨hcaller, hshape, revokeUser_ok h⟩)
    · rw [if_pos hcaller] at h
      exact .inl ⟨hcaller, (Prod.mk.inj (Except.ok.inj h)).2.symm⟩
  | none =>
    rw [hdecoded] at h
    dsimp only [revokeUndecoded] at h
    refine .inr ⟨rfl, ?_⟩
    split at h
    · cases h
    · split at h
      · rename_i hother
        obtain ⟨row, hrow, hclient⟩ := (Option.any_eq_true _ _).mp hother
        obtain ⟨clientId, hid, hne⟩ := (Option.any_eq_true _ _).mp hclient
        exact .inl ⟨row, clientId, hrow, hid, by simpa using hne,
          (Prod.mk.inj (Except.ok.inj h)).2.symm⟩
      · rename_i hother
        refine .inr ⟨fun row clientId hrow hid => ?_, revokeOne_ok h⟩
        by_contra hne
        exact hother (by simp [hrow, hid, hne])

/-! ## Runs -/

/-- What a signed token is to its reader: a token of this server with these claims. -/
def TokenLibrary.Signs {Key : Type} (lib : TokenLibrary Key) (token : String)
    (claims : AccessTokenClaims) :
    Prop :=
  ∃ kid jwk, lib.jwt.parse token = .ok ⟨.known .es256, some "at+jwt", kid, jwk⟩ ∧
    lib.jwt.decode token lib.oidcKey .es256 = some claims

/-- The sessions, the registered keys, and the tokens issued so far. -/
structure SessionState where
  sessions : List SessionDoc
  keys : List String
  tokens : List AccessToken

/-- A token is issued, with its session. -/
def SessionState.issue (s : SessionState) (issued : AccessToken) : SessionState :=
  { s with sessions := issued.session :: s.sessions, tokens := issued :: s.tokens }

section Runs

variable {Key : Type} (lib : TokenLibrary Key) (baseUrl : String)

/-- What may happen to the sessions.  Every token is signed by the server, and no two tokens of a
run have one hash. -/
inductive SessionStep : SessionState → SessionState → Prop
  /-- A user is issued a token, by any of the grants.  No user has the name of a client. -/
  | issue {s : SessionState} {env : IssueEnv} {params : CreateOAuthTokenParams} {grant : GrantProof}
      {arrival : Timestamp} {issued : AccessToken} (hbase : env.baseUrl = baseUrl)
      (huser : params.userId ≠ params.clientId) (hgrant : grant.sessionPurpose ≠ .m2mAccessToken)
      (hsigned : lib.Signs issued.token issued.claims)
      (hfresh : ∀ t ∈ s.tokens, lib.hashToken t.token = lib.hashToken issued.token →
        t.token = issued.token)
      (h : createOauthAccessToken lib env params grant.sessionPurpose arrival = .ok issued) :
      SessionStep s (s.issue issued)
  | clientCredentials {s : SessionState} {env : IssueEnv} {clientId : String}
      {requestedScope audience : Option String} {binding : TokenBinding} {arrival : Timestamp}
      {issued : AccessToken} (hbase : env.baseUrl = baseUrl)
      (hsigned : lib.Signs issued.token issued.claims)
      (hfresh : ∀ t ∈ s.tokens, lib.hashToken t.token = lib.hashToken issued.token →
        t.token = issued.token)
      (h : exchangeClientCredentials lib env clientId requestedScope audience binding
        arrival = .ok issued) :
      SessionStep s (s.issue issued)
  | revoke {s : SessionState} {users : String → Option String} {faults : StoreFaults}
      {token callerClientId : String} {arrival : Timestamp} {result : RevocationResult}
      {left : List SessionDoc}
      (h : revokeToken lib baseUrl users faults s.sessions token callerClientId arrival =
        .ok (result, left)) :
      SessionStep s { s with sessions := left }
  | logout {s : SessionState} (tokenHash : String) :
      SessionStep s { s with sessions := (deleteSessionByTokenHash s.sessions tokenHash).2 }
  /-- Any other deletion of sessions: those that have expired, those of a replayed code, of an
  application or of an account. -/
  | delete {s : SessionState} (gone : SessionDoc → Bool) :
      SessionStep s { s with sessions := s.sessions.filter fun row => !gone row }
  | registerKey {s : SessionState} (key : String) : SessionStep s { s with keys := key :: s.keys }
  /-- A key goes with the sessions it established. -/
  | deleteKey {s : SessionState} (key : String) :
      SessionStep s { s with
        keys := s.keys.filter (· ≠ key)
        sessions := s.sessions.filter (·.authenticatorId ≠ some key) }

/-- The states that are reached from the empty one. -/
def SessionReachable : SessionState → Prop :=
  Relation.ReflTransGen (SessionStep lib baseUrl) ⟨[], [], []⟩

/-! ## Tokens and their sessions -/

/-- An issued token: its claims are signed, and say what its session says. -/
structure AccessToken.Linked (t : AccessToken) : Prop where
  signed : lib.Signs t.token t.claims
  issuer : t.claims.iss = baseUrl
  tokenHash : t.session.tokenHash = lib.hashToken t.token
  user : t.session.userId = t.claims.sub
  client : t.session.clientId = some t.claims.clientId
  /-- The tokens of clients that act for themselves are told by their claims. -/
  machine : t.session.sessionType = .m2mAccessToken ↔
    t.claims.sub = t.claims.clientId ∧ t.claims.email = none

/-- The sessions are those of issued tokens. -/
structure Linked (s : SessionState) : Prop where
  tokens : ∀ t ∈ s.tokens, t.Linked lib baseUrl
  sessions : ∀ row ∈ s.sessions, ∃ t ∈ s.tokens, row = t.session
  hashes : ∀ t ∈ s.tokens, ∀ u ∈ s.tokens,
    lib.hashToken t.token = lib.hashToken u.token → t.token = u.token

variable {lib baseUrl}

variable {s : SessionState} {left : List SessionDoc}

/-- With fewer sessions, each is still that of a token. -/
theorem Linked.of_sessions (hs : Linked lib baseUrl s) {keys : List String}
    (hsub : ∀ row ∈ left, row ∈ s.sessions) :
    Linked lib baseUrl ⟨left, keys, s.tokens⟩ where
  tokens := hs.tokens
  sessions row hrow := hs.sessions row (hsub row hrow)
  hashes := hs.hashes

theorem Linked.issue (hs : Linked lib baseUrl s) {issued : AccessToken}
    (hlinked : issued.Linked lib baseUrl)
    (hfresh : ∀ t ∈ s.tokens,
      lib.hashToken t.token = lib.hashToken issued.token → t.token = issued.token) :
    Linked lib baseUrl (s.issue issued) where
  tokens t ht := by
    rcases List.mem_cons.mp ht with rfl | ht
    · exact hlinked
    · exact hs.tokens t ht
  sessions row hrow := by
    rcases List.mem_cons.mp hrow with rfl | hrow
    · exact ⟨issued, List.mem_cons_self, rfl⟩
    · obtain ⟨t, ht, heq⟩ := hs.sessions row hrow
      exact ⟨t, List.mem_cons_of_mem _ ht, heq⟩
  hashes t ht u hu heq := by
    rcases List.mem_cons.mp ht with rfl | hold
    · rcases List.mem_cons.mp hu with rfl | hold'
      · rfl
      · exact (hfresh u hold' heq.symm).symm
    · rcases List.mem_cons.mp hu with rfl | hold'
      · exact hfresh t hold heq
      · exact hs.hashes t hold u hold' heq

variable {arrival : Timestamp}

/-- What a new token says of itself. -/
theorem linked_of_created {env : IssueEnv} {params : CreateOAuthTokenParams}
    {purpose : SessionPurpose} {issued : AccessToken} (hbase : env.baseUrl = baseUrl)
    (hsigned : lib.Signs issued.token issued.claims)
    (hmachine : purpose = .m2mAccessToken ↔ params.userId = params.clientId ∧
      (params.scope.any fun scope => decide (OAuthScope.email ∈ scope)) = false)
    (h : createOauthAccessToken lib env params purpose arrival = .ok issued) :
    issued.Linked lib baseUrl := by
  obtain ⟨expires, -, hclaims, hsession⟩ := createOauthAccessToken_ok h
  have hemail : issued.claims.email = none ↔
      (params.scope.any fun scope => decide (OAuthScope.email ∈ scope)) = false := by
    rw [hclaims]
    show (if _ then _ else none) = none ↔ _
    split
    · rename_i hscope
      simp [hscope]
    · rename_i hscope
      simpa using hscope
  refine ⟨hsigned, ?_, ?_, ?_, ?_, ?_⟩
  · rw [hclaims]
    exact hbase
  · rw [hsession]
    rfl
  · rw [hsession, hclaims]
    rfl
  · rw [hsession, hclaims]
    rfl
  · rw [hemail, hsession, hclaims]
    exact hmachine

theorem email_notMem_withoutUserScopes (scopes : ScopeSet) :
    OAuthScope.email ∉ scopes.withoutUserScopes := by
  simp [ScopeSet.withoutUserScopes]

/-- A client that acts for itself is granted no address. -/
theorem clientCredentialsScope_ok {requested : Option String} {scope : Option ScopeSet}
    (h : clientCredentialsScope requested = .ok scope) :
    (scope.any fun scope => decide (OAuthScope.email ∈ scope)) = false := by
  cases requested with
  | none =>
    cases h
    rfl
  | some text =>
    obtain ⟨granted, hgranted, hscope⟩ := bind_eq_ok.mp h
    cases hscope
    rw [ScopeSet.intoRequestedGrant] at hgranted
    split at hgranted
    · cases hgranted
    · cases hgranted
      simpa using email_notMem_withoutUserScopes (ScopeSet.parse text)

/-- A revocation leaves some of the sessions. -/
theorem revokeToken_subset {users : String → Option String} {faults : StoreFaults}
    {sessions : List SessionDoc} {token callerClientId : String} {result : RevocationResult}
    (h : revokeToken lib baseUrl users faults sessions token callerClientId arrival =
      .ok (result, left)) :
    ∀ row ∈ left, row ∈ sessions := by
  intro row hrow
  rcases revokeToken_ok h with
    ⟨claims, -, ⟨-, rfl⟩ | ⟨-, -, rfl⟩ | ⟨-, -, rfl⟩⟩ | ⟨-, ⟨-, -, -, -, -, rfl⟩ | ⟨-, rfl⟩⟩
  · exact hrow
  · exact (List.mem_filter.mp hrow).1
  · exact (List.mem_filter.mp hrow).1
  · exact hrow
  · exact (List.mem_filter.mp hrow).1

/-- One step keeps sessions and tokens together. -/
theorem Linked.step {s' : SessionState} (hs : Linked lib baseUrl s)
    (h : SessionStep lib baseUrl s s') : Linked lib baseUrl s' := by
  cases h with
  | issue hbase huser hgrant hsigned hfresh h =>
    refine hs.issue (linked_of_created hbase hsigned ?_ h) hfresh
    exact ⟨fun hpurpose => absurd hpurpose hgrant, fun hshape => absurd hshape.1 huser⟩
  | clientCredentials hbase hsigned hfresh h =>
    obtain ⟨scope, hscope, hcreated⟩ := bind_eq_ok.mp h
    refine hs.issue (linked_of_created hbase hsigned ?_ hcreated) hfresh
    exact ⟨fun _ => ⟨rfl, clientCredentialsScope_ok hscope⟩, fun _ => rfl⟩
  | revoke h => exact hs.of_sessions (revokeToken_subset h)
  | logout tokenHash => exact hs.of_sessions fun row hrow => (List.mem_filter.mp hrow).1
  | delete gone => exact hs.of_sessions fun row hrow => (List.mem_filter.mp hrow).1
  | registerKey key => exact hs.of_sessions fun row hrow => hrow
  | deleteKey key => exact hs.of_sessions fun row hrow => (List.mem_filter.mp hrow).1

/-- In every run, sessions and tokens belong together. -/
theorem linked_of_reachable (h : SessionReachable lib baseUrl s) : Linked lib baseUrl s := by
  induction h with
  | refl =>
    exact ⟨fun t ht => absurd ht List.not_mem_nil, fun row hrow => absurd hrow List.not_mem_nil,
      fun t ht => absurd ht List.not_mem_nil⟩
  | tail _ hstep ih => exact ih.step hstep

/-! ## What a revocation may remove -/

/-- The session of a token is live. -/
def SessionState.Live (s : SessionState) (t : AccessToken) (arrival : Timestamp) : Prop :=
  (lookupSession s.sessions s.keys t.session.tokenHash arrival).isSome = true

/-- The token is one of a client that acts for itself. -/
def AccessToken.Machine (t : AccessToken) : Prop := t.session.sessionType = .m2mAccessToken

/-- A revocation of a token by a client leaves what it should: everything, if the token was issued
to another client; everything but the token's own row, if it is a client's own token or if its
session is no longer live; and everything but the sessions of its user, if it is. -/
structure Bounded (s : SessionState) (t : AccessToken) (callerClientId : String)
    (arrival : Timestamp) (left : List SessionDoc) : Prop where
  otherClient : t.claims.clientId ≠ callerClientId → left = s.sessions
  machine : t.claims.clientId = callerClientId → t.Machine →
    left = s.sessions ∨ left = s.sessions.filter (·.tokenHash ≠ t.session.tokenHash)
  live : t.claims.clientId = callerClientId → ¬ t.Machine → s.Live t arrival →
    left = s.sessions.filter (·.userId ≠ t.session.userId)
  stale : t.claims.clientId = callerClientId → ¬ t.Machine → ¬ s.Live t arrival →
    left = s.sessions ∨ left = s.sessions.filter (·.tokenHash ≠ t.session.tokenHash)

variable {t : AccessToken}

/-- An issued token decodes to its claims, or not at all. -/
theorem decodeToken_of_linked (ht : t.Linked lib baseUrl) (arrival : Timestamp) :
    decodeToken lib t.token baseUrl arrival = some t.claims ∨
      decodeToken lib t.token baseUrl arrival = none := by
  obtain ⟨kid, jwk, hparse, hdecode⟩ := ht.signed
  rw [decodeToken, hparse]
  simp only [hdecode, ne_eq, not_true_eq_false, if_false, ht.issuer]
  split
  · exact .inl rfl
  · exact .inr rfl

/-- A row with the hash of a token has its user and its client. -/
theorem Linked.row (hs : Linked lib baseUrl s) (ht : t ∈ s.tokens) {row : SessionDoc}
    (hrow : row ∈ s.sessions) (hhash : row.tokenHash = t.session.tokenHash) :
    row.userId = t.session.userId ∧ row.clientId = some t.claims.clientId := by
  obtain ⟨u, hu, rfl⟩ := hs.sessions row hrow
  have htoken : u.token = t.token := by
    refine hs.hashes u hu t ht ?_
    rw [← (hs.tokens u hu).tokenHash, hhash, (hs.tokens t ht).tokenHash]
  obtain ⟨-, -, -, hdecode⟩ := (hs.tokens u hu).signed
  obtain ⟨-, -, -, hdecode'⟩ := (hs.tokens t ht).signed
  rw [htoken, hdecode', Option.some.injEq] at hdecode
  rw [(hs.tokens u hu).user, (hs.tokens u hu).client, (hs.tokens t ht).user, hdecode]
  exact ⟨rfl, rfl⟩

/-- **A token never stands for somebody else.**  In every run, what resolves to a session is an
issued token, and the session is that of the user and the client in its claims. -/
theorem session_of_token (hs : SessionReachable lib baseUrl s) {tokenHash : String}
    {row : SessionDoc} (h : lookupSession s.sessions s.keys tokenHash arrival = some row) :
    (∃ t ∈ s.tokens, lib.hashToken t.token = tokenHash) ∧
      ∀ t ∈ s.tokens, lib.hashToken t.token = tokenHash →
        row.userId = t.claims.sub ∧ row.clientId = some t.claims.clientId := by
  have hlinked := linked_of_reachable hs
  obtain ⟨hfound, -⟩ := Option.filter_eq_some_iff.mp h
  obtain ⟨hfound, -⟩ := Option.filter_eq_some_iff.mp hfound
  have hmem : row ∈ s.sessions := List.mem_of_find?_eq_some hfound
  have hhash : row.tokenHash = tokenHash := by simpa using List.find?_some hfound
  constructor
  · obtain ⟨t, ht, rfl⟩ := hlinked.sessions row hmem
    exact ⟨t, ht, by rw [← hhash, (hlinked.tokens t ht).tokenHash]⟩
  · intro t ht htoken
    rw [← (hlinked.tokens t ht).user]
    exact hlinked.row ht hmem (by rw [hhash, ← htoken, (hlinked.tokens t ht).tokenHash])

/-- What a revocation of an issued token leaves. -/
theorem left_of_revoked (hs : Linked lib baseUrl s) (ht : t ∈ s.tokens)
    {users : String → Option String} {faults : StoreFaults} {callerClientId : String}
    {result : RevocationResult}
    (h : revokeToken lib baseUrl users faults s.sessions t.token callerClientId arrival =
      .ok (result, left)) :
    (t.claims.clientId ≠ callerClientId ∧ left = s.sessions) ∨
    (t.claims.clientId = callerClientId ∧ ¬ t.Machine ∧
      (decodeToken lib t.token baseUrl arrival).isSome = true ∧
      left = s.sessions.filter (·.userId ≠ t.session.userId)) ∨
    (t.claims.clientId = callerClientId ∧
      (t.Machine ∨ (decodeToken lib t.token baseUrl arrival).isSome = false) ∧
      left = s.sessions.filter (·.tokenHash ≠ t.session.tokenHash)) := by
  have hlinked := hs.tokens t ht
  have hclient : ∀ row, findSessionByTokenHash s.sessions (lib.hashToken t.token) = some row →
      row.clientId = some t.claims.clientId := by
    intro row hrow
    have hhash : row.tokenHash = lib.hashToken t.token := by simpa using List.find?_some hrow
    exact (hs.row ht (List.mem_of_find?_eq_some hrow) (hhash.trans hlinked.tokenHash.symm)).2
  rw [hlinked.tokenHash, hlinked.user]
  rcases revokeToken_ok h with ⟨claims, hdecoded, hcases⟩ | ⟨hdecoded, hcases⟩
  · obtain rfl : claims = t.claims := by
      rcases decodeToken_of_linked hlinked arrival with hsome | hnone
      · exact Option.some.inj (hdecoded.symm.trans hsome)
      · rw [hdecoded] at hnone
        cases hnone
    rcases hcases with ⟨hne, hleft⟩ | ⟨heq, hshape, hleft⟩ | ⟨heq, hshape, hleft⟩
    · exact .inl ⟨fun hsame => hne hsame.symm, hleft⟩
    · exact .inr (.inr ⟨heq.symm, .inl (hlinked.machine.mpr hshape), hleft⟩)
    · exact .inr (.inl ⟨heq.symm, fun hmachine => hshape (hlinked.machine.mp hmachine),
        by rw [hdecoded]; rfl, hleft⟩)
  · have hnone : (decodeToken lib t.token baseUrl arrival).isSome = false := by rw [hdecoded]; rfl
    rcases hcases with ⟨row, clientId, hrow, hid, hne, hleft⟩ | ⟨hown, hleft⟩
    · rw [hclient row hrow, Option.some.injEq] at hid
      exact .inl ⟨by rw [hid]; exact hne, hleft⟩
    · by_cases hcaller : t.claims.clientId = callerClientId
      · exact .inr (.inr ⟨hcaller, .inr hnone, hleft⟩)
      · -- there is no row to delete
        refine .inl ⟨hcaller, hleft.trans (List.filter_eq_self.mpr fun row hrow => ?_)⟩
        simp only [ne_eq, decide_not, Bool.not_eq_true', decide_eq_false_iff_not]
        intro hhash
        cases hfind : findSessionByTokenHash s.sessions (lib.hashToken t.token) with
        | none => exact absurd hhash (by simpa using List.find?_eq_none.mp hfind row hrow)
        | some row' => exact hcaller (hown row' _ hfind (hclient row' hfind))

/-- Taking out a user's sessions takes out a token's row and no more, if there is no more. -/
theorem filter_user_iff (hs : Linked lib baseUrl s) (ht : t ∈ s.tokens) :
    (s.sessions.filter (·.userId ≠ t.session.userId) = s.sessions ∨
      s.sessions.filter (·.userId ≠ t.session.userId) =
        s.sessions.filter (·.tokenHash ≠ t.session.tokenHash)) ↔
    ∀ row ∈ s.sessions, row.userId = t.session.userId → row.tokenHash = t.session.tokenHash := by
  constructor
  · intro h row hrow huser
    rcases h with hall | hsame
    · have hne := List.filter_eq_self.mp hall row hrow
      exact absurd huser (by simpa using hne)
    · by_contra hhash
      have hmem : row ∈ s.sessions.filter (·.tokenHash ≠ t.session.tokenHash) :=
        List.mem_filter.mpr ⟨hrow, by simpa using hhash⟩
      rw [← hsame] at hmem
      exact absurd huser (by simpa using (List.mem_filter.mp hmem).2)
  · intro h
    refine .inr (List.filter_congr fun row hrow => ?_)
    have hiff : row.userId = t.session.userId ↔ row.tokenHash = t.session.tokenHash :=
      ⟨h row hrow, fun hhash => (hs.row ht hrow hhash).1⟩
    simp [hiff]

/-- **Revocation is bounded, exactly.**  In every run, the revocation of an issued token keeps to
what it may remove if and only if, where it is a user's token and its own client hands it back, the
token decodes just when its session is live, or the user has no session but the token's. -/
theorem revocation_bounded_iff {s : SessionState} (hs : SessionReachable lib baseUrl s)
    {t : AccessToken} (ht : t ∈ s.tokens) {users : String → Option String} {faults : StoreFaults}
    {callerClientId : String} {arrival : Timestamp} {result : RevocationResult}
    {left : List SessionDoc}
    (h : revokeToken lib baseUrl users faults s.sessions t.token callerClientId arrival =
      .ok (result, left)) :
    Bounded s t callerClientId arrival left ↔
      (t.claims.clientId = callerClientId → ¬ t.Machine →
        (s.Live t arrival ↔ (decodeToken lib t.token baseUrl arrival).isSome = true) ∨
          ∀ row ∈ s.sessions, row.userId = t.session.userId →
            row.tokenHash = t.session.tokenHash) := by
  have hlinked := linked_of_reachable hs
  have hfilter := filter_user_iff hlinked ht
  rcases left_of_revoked hlinked ht h with
    ⟨hother, rfl⟩ | ⟨hown, huser, hdecodes, rfl⟩ | ⟨hown, hone, rfl⟩
  · -- another client's token
    exact ⟨fun _ hsame => absurd hsame hother,
      fun _ => ⟨fun _ => rfl, fun hsame => absurd hsame hother,
      fun hsame => absurd hsame hother, fun hsame => absurd hsame hother⟩⟩
  · -- the sessions of the user are gone
    constructor
    · intro hbounded _ _
      by_cases hlive : s.Live t arrival
      · exact .inl ⟨fun _ => hdecodes, fun _ => hlive⟩
      · exact .inr (hfilter.mp (hbounded.stale hown huser hlive))
    · intro hcond
      refine ⟨fun hne => absurd hown hne, fun _ hmachine => absurd hmachine huser, fun _ _ _ => rfl,
        fun _ _ hstale => ?_⟩
      rcases hcond hown huser with hiff | honly
      · exact absurd (hiff.mpr hdecodes) hstale
      · exact hfilter.mpr honly
  · -- the row of the token is gone
    constructor
    · intro hbounded _ huser
      have hundecoded : (decodeToken lib t.token baseUrl arrival).isSome = false :=
        hone.resolve_left huser
      by_cases hlive : s.Live t arrival
      · exact .inr (hfilter.mp (.inr (hbounded.live hown huser hlive).symm))
      · refine .inl ⟨fun h => absurd h hlive, fun h => ?_⟩
        rw [hundecoded] at h
        cases h
    · intro hcond
      refine ⟨fun hne => absurd hown hne, fun _ _ => .inr rfl, fun _ huser hlive => ?_,
        fun _ _ _ => .inr rfl⟩
      have hundecoded := hone.resolve_left huser
      rcases hcond hown huser with hiff | honly
      · rw [hiff.mp hlive] at hundecoded
        cases hundecoded
      · refine (List.filter_congr fun row hrow => ?_).symm
        have hiff : row.userId = t.session.userId ↔ row.tokenHash = t.session.tokenHash :=
          ⟨honly row hrow, fun hhash => (hlinked.row ht hrow hhash).1⟩
        simp [hiff]

end Runs

/-! ### Two logins of one user -/

section Logins

/-- The instant of a login. -/
def loginInstant : Timestamp := 1700000000 * Timestamp.second

/-- A login: the token is the one that is given. -/
def loginEnv (token : String) : IssueEnv where
  baseUrl := "https://vouch.example.com"
  sessionHours := 8
  jti := token
  sign _ := .ok token
  createSession _ := .ok ()

/-- The access token of a login. -/
def loginParams : CreateOAuthTokenParams where
  userId := "0190aaaa"
  email := "user@example.com"
  authenticatorId := some "key"
  clientId := "app"
  scope := none
  binding := .bearer
  act := none
  audience := none
  maxLifetimeSecs := none
  hardwareVerification := .verified (some loginInstant)
  authorizationDetails := none
  hardwareAaguid := none
  orgDomain := none
  sourceCodeHash := none

/-- The end of a session. -/
def loginExpiry : Timestamp := loginInstant + 28800 * Timestamp.second

/-- The token a login gives. -/
def loginToken (token : String) : AccessToken where
  token := token
  claims := newClaims (loginEnv token) loginParams loginInstant loginExpiry
  session := newSession loginParams .credentialIssuance token loginExpiry
  expiresIn := 28800

/-- Two tokens verify, those of the logins. -/
def loginLibrary : TokenLibrary Unit where
  jwt :=
    { parse := fun _ => .ok ⟨.known .es256, some "at+jwt", none, none⟩
      claims := fun token => some (loginToken token).claims
      verifies := fun token _ _ => token = "first" || token = "second"
      fromEcComponents := fun _ _ => .ok ()
      fromRsaComponents := fun _ _ => .ok ()
      fromEdComponents := fun _ => .ok ()
      thumbprint := fun _ => "" }
  oidcKey := ()
  hashToken token := token

theorem sessionSecs_loginEnv (token : String) : (loginEnv token).sessionSecs = 28800 := by
  have hhours : (loginEnv token).sessionHours = 8 := rfl
  rw [IssueEnv.sessionSecs, hhours]
  exact Nat.min_eq_left (by decide)

theorem createOauthAccessToken_login (token : String) :
    createOauthAccessToken loginLibrary (loginEnv token) loginParams
      GrantProof.fido2Assertion.sessionPurpose loginInstant = .ok (loginToken token) := by
  have hsecs : loginParams.maxLifetimeSecs.getD (loginEnv token).sessionSecs = 28800 := by
    rw [sessionSecs_loginEnv]
    rfl
  have hexpires : loginInstant.checkedAddSeconds (28800 : Nat) = some loginExpiry := by
    decide +kernel
  simp only [createOauthAccessToken, hsecs, hexpires]
  rfl

/-- A login with a token that verifies. -/
theorem login_step {s : SessionState} {token : String}
    (htoken : token = "first" ∨ token = "second") :
    SessionStep loginLibrary "https://vouch.example.com" s (s.issue (loginToken token)) := by
  refine .issue rfl (by decide) (by decide) ?_ (fun _ _ h => h) (createOauthAccessToken_login token)
  refine ⟨none, none, rfl, ?_⟩
  rcases htoken with rfl | rfl
  · rfl
  · rfl

/-- The state after one login. -/
def loggedIn : SessionState := SessionState.issue ⟨[], ["key"], []⟩ (loginToken "first")

theorem reachable_loggedIn : SessionReachable loginLibrary "https://vouch.example.com" loggedIn :=
  (Relation.ReflTransGen.single (.registerKey "key")).tail (login_step (.inl rfl))

/-- The state after a login, a logout and another login. -/
def loggedInAnew : SessionState :=
  SessionState.issue { loggedIn with sessions := [] } (loginToken "second")

theorem reachable_loggedInAnew :
    SessionReachable loginLibrary "https://vouch.example.com" loggedInAnew :=
  (reachable_loggedIn.tail (.logout "first")).tail (login_step (.inr rfl))

/-- The condition holds of a token that is revoked while its session is live. -/
theorem revocation_bounded_loggedIn :
    revokeToken loginLibrary "https://vouch.example.com" (fun _ => none) ⟨none, none⟩
      loggedIn.sessions
        "first" "app" (loginInstant + 60 * Timestamp.second) = .ok (⟨true, none⟩, []) ∧
      loggedIn.Live (loginToken "first") (loginInstant + 60 * Timestamp.second) ∧
      Bounded loggedIn (loginToken "first") "app" (loginInstant + 60 * Timestamp.second) [] := by
  have hrevoked : revokeToken loginLibrary "https://vouch.example.com" (fun _ => none) ⟨none, none⟩
      loggedIn.sessions (loginToken "first").token "app" (loginInstant + 60 * Timestamp.second) =
        .ok (⟨true, none⟩, []) := rfl
  have hlive : loggedIn.Live (loginToken "first") (loginInstant + 60 * Timestamp.second) := rfl
  refine ⟨hrevoked, hlive, ?_⟩
  refine (revocation_bounded_iff reachable_loggedIn List.mem_cons_self hrevoked).mpr ?_
  exact fun _ _ => .inl ⟨fun _ => rfl, fun _ => hlive⟩

theorem session_of_token_loggedIn : ∃ row,
    lookupSession loggedIn.sessions loggedIn.keys "first" loginInstant = some row ∧
      row.userId = "0190aaaa" ∧ row.clientId = some "app" := by
  have hrow : lookupSession loggedIn.sessions loggedIn.keys "first" loginInstant =
      some (loginToken "first").session := rfl
  exact ⟨_, hrow, (session_of_token reachable_loggedIn hrow).2 _ List.mem_cons_self rfl⟩

/-- After a logout and a new login, the token of the old login still decodes, and handing it back
ends the new session. -/
theorem stale_token_ends_new_session :
    SessionReachable loginLibrary "https://vouch.example.com" loggedInAnew ∧
      loginToken "first" ∈ loggedInAnew.tokens ∧
      loggedInAnew.sessions = [(loginToken "second").session] ∧
      ¬ loggedInAnew.Live (loginToken "first") (loginInstant + 60 * Timestamp.second) ∧
      revokeToken loginLibrary "https://vouch.example.com" (fun _ => none) ⟨none, none⟩
        loggedInAnew.sessions (loginToken "first").token "app"
          (loginInstant + 60 * Timestamp.second) = .ok (⟨true, none⟩, []) ∧
      ¬ Bounded loggedInAnew (loginToken "first") "app" (loginInstant + 60 * Timestamp.second)
        [] := by
  have hstale : ¬ loggedInAnew.Live (loginToken "first") (loginInstant + 60 * Timestamp.second) :=
    fun h => Bool.false_ne_true h
  have huser : ¬ (loginToken "first").Machine := fun h => SessionPurpose.noConfusion h
  refine ⟨reachable_loggedInAnew, List.mem_cons_of_mem _ List.mem_cons_self, rfl, hstale, rfl,
    fun hbounded => ?_⟩
  rcases hbounded.stale rfl huser hstale with h | h
  · cases h
  · cases h

end Logins

end Vouch
