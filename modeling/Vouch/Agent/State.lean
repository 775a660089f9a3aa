import Vouch.Store.Document

/-!
# The agent

The agent holds one login on behalf of the command line: the session, the server that issued it, and
the credentials that were obtained under it.  They live in one *slot* behind one lock
(`AgentState`), so each request to the agent is one atomic step.

* `SessionSlot`, `AgentState` — the slot, and the state of the agent: a slot or none.
* `storeSession`, `storeSessionIfNoLiveSession`, `clearSession` — a login, a session handed back
  after a restart, and a logout.
* `cacheCredential`, `getCachedCredential` — a credential is stored in the slot there is, and served
  while it and the session are valid.
* `handleStoreSession` and the other handlers — the requests, with the answers of the agent.

The credentials are opaque to the agent (`Data`).
-/

namespace Vouch.Agent

/-- `MAX_CACHE_ENTRIES`. -/
def maxCacheEntries : Nat := 128

/-- `MAX_CREDENTIAL_TYPE_LEN`. -/
def maxCredentialTypeLen : Nat := 256

/-! ## Sessions and credentials -/

/-- `Session`: a login. -/
structure Session where
  token : String
  userEmail : String
  expiresAt : Timestamp
  authenticatedAt : Timestamp
  deriving DecidableEq, Repr

/-- `Session::is_expired`. -/
def Session.isExpired (s : Session) (now : Timestamp) : Bool := s.expiresAt ≤ now

/-- A credential for a service, as the agent keeps it. -/
structure CachedCredential (Data : Type) where
  data : Data
  expiresAt : Timestamp
  cachedAt : Timestamp
  deriving DecidableEq, Repr

/-- `CachedCredential::is_valid`. -/
def CachedCredential.isValid {Data : Type} (c : CachedCredential Data) (now : Timestamp) : Bool :=
  now < c.expiresAt

/-- Everything the agent holds on behalf of one login.  The SSH credentials are left out. -/
structure SessionSlot (Data : Type) where
  session : Session
  serverUrl : Option String
  /-- The credentials by type, no type twice. -/
  credentialCache : List (String × CachedCredential Data)
  deriving DecidableEq, Repr

variable {Data : Type}

/-- `SessionSlot::new`: no credentials yet. -/
def SessionSlot.new (session : Session) (serverUrl : Option String) : SessionSlot Data :=
  ⟨session, serverUrl, []⟩

/-- The slot, if its session has not expired. -/
def SessionSlot.live (now : Timestamp) (slot : SessionSlot Data) : Option (SessionSlot Data) :=
  if slot.session.isExpired now then none else some slot

/-- The agent holds a slot, or none. -/
abbrev AgentState (Data : Type) := Option (SessionSlot Data)

/-- The slot there is, if its session has not expired. -/
def AgentState.live (now : Timestamp) (state : AgentState Data) : Option (SessionSlot Data) :=
  state.bind (SessionSlot.live now)

/-! ## The operations on the state -/

/-- The previous slot is replaced whole. -/
def storeSession (session : Session) (serverUrl : Option String) : AgentState Data :=
  some (.new session serverUrl)

/-- Stores a session unless there is a live one; whether it did. -/
def storeSessionIfNoLiveSession (now : Timestamp) (session : Session) (serverUrl : Option String)
    (state : AgentState Data) : Bool × AgentState Data :=
  if (state.live now).isSome then (false, state)
  else (true, some (.new session serverUrl))

/-- Ends the session, with all that was kept for it. -/
def clearSession : AgentState Data := none

/-- The token of the live session. -/
def getToken (now : Timestamp) (state : AgentState Data) : Option String :=
  (state.live now).map (·.session.token)

/-- Why a credential is not kept. -/
inductive CacheRefusal
  | keyTooLong
  | noSession
  deriving DecidableEq, Repr

/-- The first of the entries that expire soonest. -/
def soonest : List (String × CachedCredential Data) → Option (String × CachedCredential Data)
  | [] => none
  | e :: entries =>
    match soonest entries with
    | none => some e
    | some e' => if e'.2.expiresAt < e.2.expiresAt then some e' else some e

/-- The entry that makes room: one that has expired, or else the one that expires soonest. -/
def evictKey (now : Timestamp) (entries : List (String × CachedCredential Data)) : Option String :=
  ((entries.find? fun e => !e.2.isValid now).map (·.1)).orElse fun _ =>
    (soonest entries).map (·.1)

/-- An order in which the entries of a hash map may be visited. -/
structure HashOrder (Data : Type) where
  visit : List (String × CachedCredential Data) → List (String × CachedCredential Data)
  perm : ∀ entries, (visit entries).Perm entries

/-- The map without one key. -/
def removeKey (key : String) (entries : List (String × CachedCredential Data)) :
    List (String × CachedCredential Data) :=
  entries.filter fun e => e.1 ≠ key

/-- Room for a new key, if there is none left. -/
def makeRoom (order : HashOrder Data) (now : Timestamp) (credentialType : String)
    (entries : List (String × CachedCredential Data)) : List (String × CachedCredential Data) :=
  if (entries.lookup credentialType).isNone ∧ maxCacheEntries ≤ entries.length then
    match evictKey now (order.visit entries) with
    | some key => removeKey key entries
    | none => entries
  else entries

/-- Stores a credential in the current slot. -/
def cacheCredential (order : HashOrder Data) (now : Timestamp) (credentialType : String)
    (credential : CachedCredential Data) (state : AgentState Data) :
    Except CacheRefusal Unit × AgentState Data :=
  if maxCredentialTypeLen < credentialType.utf8ByteSize then (.error .keyTooLong, state)
  else
    match state.live now with
    | none => (.error .noSession, state)
    | some slot =>
      let cache := makeRoom order now credentialType slot.credentialCache
      (.ok (), some { slot with
        credentialCache := (credentialType, credential) :: removeKey credentialType cache })

/-- A credential, if it and the session are both still valid. -/
def getCachedCredential (now : Timestamp) (credentialType : String) (state : AgentState Data) :
    Option (CachedCredential Data) :=
  (state.live now).bind fun slot =>
    (slot.credentialCache.lookup credentialType).filter (·.isValid now)

/-- Drops the credentials and keeps the session. -/
def clearCredentialCache (state : AgentState Data) : AgentState Data :=
  state.map fun slot => { slot with credentialCache := [] }

/-! ## Requests -/

/-- An error of the JSON-RPC protocol. -/
structure RpcError where
  code : Int
  message : String
  deriving DecidableEq, Repr

/-- An answer of the agent. -/
abbrev Response (α : Type) := Except RpcError α

/-- There is no live session. -/
def Response.notAuthenticated {α : Type} : Response α := .error ⟨-32000, "not authenticated"⟩

/-- There is no valid credential of that type. -/
def Response.cacheMiss {α : Type} : Response α := .error ⟨-32002, "cache miss"⟩

/-- The parameters of the request are refused. -/
def Response.invalidParams {α : Type} (detail : String) : Response α :=
  .error ⟨-32602, "invalid params: " ++ detail⟩

/-- Whether a session may replace the one there is. -/
inductive StoreMode
  | replace
  | ifNoLiveSession
  deriving DecidableEq, Repr

/-- The parameters of `store_session`. -/
structure StoreSessionParams where
  token : String
  userEmail : String
  expiresAt : String
  serverUrl : Option String
  mode : StoreMode
  deriving DecidableEq, Repr

/-- Whether a URL may be used without `VOUCH_ALLOW_INSECURE`. -/
inductive UrlSecurity
  | secure
  | insecureHttp (url : String)
  deriving DecidableEq, Repr

/-- What the agent calls for: the text form of timestamps, URLs and its own configuration. -/
structure Environment where
  parseTimestamp : String → Except String Timestamp
  /-- The scheme of a URL; `none` if it is not one. -/
  parseScheme : String → Option String
  checkUrlSecurity : String → UrlSecurity
  allowInsecure : Bool

/-- The server URL to keep with a session; an error if it is refused. -/
def judgeServerUrl (env : Environment) : Option String → Except String (Option String)
  | none => .ok none
  | some url =>
    match env.parseScheme url with
    | none => .ok none
    | some scheme =>
      if scheme = "https" ∨ scheme = "http" then
        match env.checkUrlSecurity url with
        | .secure => .ok (some url)
        | .insecureHttp insecureUrl =>
          if env.allowInsecure then .ok (some url)
          else
            .error ("insecure HTTP server URL " ++ insecureUrl ++
              " refused; set VOUCH_ALLOW_INSECURE=1 for the agent to allow it")
      else .ok none

/-- Stores a session with its own server.  A login to a server that is refused ends the session
there is. -/
def handleStoreSession (env : Environment) (now : Timestamp) (params : StoreSessionParams)
    (state : AgentState Data) : Response Bool × AgentState Data :=
  match env.parseTimestamp params.expiresAt with
  | .error e => (.invalidParams ("invalid expires_at: " ++ e), state)
  | .ok expiresAt =>
    match judgeServerUrl env params.serverUrl with
    | .error detail =>
        (.invalidParams detail, if params.mode = .replace then clearSession else state)
    | .ok serverUrl =>
      let session : Session := ⟨params.token, params.userEmail, expiresAt, now⟩
      match params.mode with
      | .replace => (.ok true, storeSession session serverUrl)
      | .ifNoLiveSession =>
        let stored := storeSessionIfNoLiveSession now session serverUrl state
        (.ok stored.1, stored.2)

/-- Answers `clear_session`. -/
def handleClearSession : Response Bool × AgentState Data := (.ok true, clearSession)

/-- Answers `get_token`. -/
def handleGetToken (now : Timestamp) (state : AgentState Data) : Response String :=
  match getToken now state with
  | some token => .ok token
  | none => .notAuthenticated

/-- Answers `cache_credential`. -/
def handleCacheCredential (env : Environment) (order : HashOrder Data) (now : Timestamp)
    (credentialType : String) (data : Data) (expiresAt : String) (state : AgentState Data) :
    Response Bool × AgentState Data :=
  match env.parseTimestamp expiresAt with
  | .error e => (.invalidParams ("invalid expires_at: " ++ e), state)
  | .ok expiresAt =>
    match cacheCredential order now credentialType ⟨data, expiresAt, now⟩ state with
    | (.ok (), state) => (.ok true, state)
    | (.error .keyTooLong, state) =>
        (.invalidParams "credential_type exceeds maximum length", state)
    | (.error .noSession, state) => (.notAuthenticated, state)

/-- Answers `get_cached_credential`. -/
def handleGetCachedCredential (now : Timestamp) (credentialType : String)
    (state : AgentState Data) :
    Response (CachedCredential Data) :=
  match getCachedCredential now credentialType state with
  | some credential => .ok credential
  | none => .cacheMiss

/-- Answers `clear_credential_cache`. -/
def handleClearCredentialCache (state : AgentState Data) : Response Bool × AgentState Data :=
  (.ok true, clearCredentialCache state)

/-! ## What a request can do

A slot is new and empty, or it is the one there was, with some of its entries and perhaps one
more. -/

section Requests

variable {now : Timestamp} {state : AgentState Data} {slot : SessionSlot Data}

theorem live_eq_some :
    state.live now = some slot ↔ state = some slot ∧ now < slot.session.expiresAt := by
  cases state with
  | none => simp [AgentState.live]
  | some s =>
    by_cases hexpired : s.session.isExpired now = true
    · have hle : s.session.expiresAt ≤ now := by simpa [Session.isExpired] using hexpired
      simp only [AgentState.live, Option.bind_some, SessionSlot.live, hexpired,
        if_true, reduceCtorEq, Option.some.injEq, false_iff, not_and, not_lt]
      rintro rfl
      exact hle
    · have hlt : now < s.session.expiresAt := by simpa [Session.isExpired] using hexpired
      simp only [AgentState.live, Option.bind_some, SessionSlot.live, hexpired, if_false,
        Option.some.injEq, Bool.false_eq_true]
      constructor
      · rintro rfl
        exact ⟨rfl, hlt⟩
      · exact fun h => h.1

theorem makeRoom_subset {order : HashOrder Data} {credentialType : String}
    {entries : List (String × CachedCredential Data)} {e : String × CachedCredential Data}
    (he : e ∈ makeRoom order now credentialType entries) : e ∈ entries := by
  unfold makeRoom at he
  split at he
  · split at he
    · exact (List.mem_filter.mp he).1
    · exact he
  · exact he

/-- A session that is stored begins with no credentials. -/
theorem handleStoreSession_cases (env : Environment) (now : Timestamp) (params : StoreSessionParams)
    (state : AgentState Data) :
    (handleStoreSession env now params state).2 = state ∨
      (handleStoreSession env now params state).2 = none ∨
      ∃ session serverUrl, (handleStoreSession env now params state).2 =
        some (.new session serverUrl) := by
  unfold handleStoreSession
  split
  · exact .inl rfl
  · split
    · split
      · exact .inr (.inl rfl)
      · exact .inl rfl
    · split
      · exact .inr (.inr ⟨_, _, rfl⟩)
      · simp only [storeSessionIfNoLiveSession]
        split
        · exact .inl rfl
        · exact .inr (.inr ⟨_, _, rfl⟩)

/-- Whether a request to store a credential is accepted: with which expiry, in which slot. -/
def acceptedIn (env : Environment) (now : Timestamp) (credentialType expiresAt : String)
    (state : AgentState Data) : Option (Timestamp × SessionSlot Data) :=
  match env.parseTimestamp expiresAt, state.live now with
  | .ok expiry, some slot =>
    if maxCredentialTypeLen < credentialType.utf8ByteSize then none else some (expiry, slot)
  | _, _ => none

/-- A credential that is accepted is put in front of some entries of the slot there is; one that is
not leaves the agent as it is. -/
theorem handleCacheCredential_cases (env : Environment) (order : HashOrder Data) (now : Timestamp)
    (credentialType : String) (data : Data) (expiresAt : String) (state : AgentState Data) :
    (acceptedIn env now credentialType expiresAt state = none ∧
      (handleCacheCredential env order now credentialType data expiresAt state).2 = state) ∨
    ∃ expiry slot entries, acceptedIn env now credentialType expiresAt state = some (expiry, slot) ∧
      state = some slot ∧ now < slot.session.expiresAt ∧ (∀ e ∈ entries, e ∈ slot.credentialCache) ∧
      (handleCacheCredential env order now credentialType data expiresAt state).2 =
        some { slot with credentialCache := (credentialType, ⟨data, expiry, now⟩) :: entries } := by
  unfold acceptedIn handleCacheCredential cacheCredential
  cases hparse : env.parseTimestamp expiresAt with
  | error e => exact .inl ⟨rfl, rfl⟩
  | ok expiry =>
    by_cases hlen : maxCredentialTypeLen < credentialType.utf8ByteSize
    · refine .inl ?_
      simp only [hlen, if_true]
      cases state.live now with
      | none => exact ⟨rfl, trivial⟩
      | some slot => exact ⟨rfl, trivial⟩
    · simp only [hlen, if_false]
      cases hlive : state.live now with
      | none => exact .inl ⟨rfl, rfl⟩
      | some slot =>
        obtain ⟨hstate, hlt⟩ := live_eq_some.mp hlive
        refine .inr ⟨expiry, slot, _, rfl, hstate, hlt, fun e he => ?_, rfl⟩
        exact makeRoom_subset (List.mem_filter.mp he).1

end Requests

end Vouch.Agent
