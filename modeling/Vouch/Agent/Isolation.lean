import Vouch.Agent.State

/-!
# Whose credentials the agent serves

The command line asks the agent for a credential first and fetches one if there is none; what it
fetched it hands to the agent (`get_or_fetch`).  Those are separate requests, and between them the
user may log out, or log in as somebody else.  This file says what that does to the credentials the
agent serves.

* `Minted` — a credential with the access token it was minted under.  The agent never looks inside.
* `getOrFetch` — the client; `Command` — what runs beside it: logins and logouts, and the clock.
* `Isolated` — whatever the agent would serve, now or later, was minted under its current session.
* `ownStore` — the test that a step stores no valid credential of another session.
* `session_isolation_iff` — **a run keeps the agent isolated exactly when each of its steps passes
  the test**.  The agent makes no such test: `credential_outlives_session` is a run that fails it.
-/

namespace Vouch.Agent

open Interleaving

variable {Value : Type}

/-- A credential, with the access token it was minted under. -/
structure Minted (Value : Type) where
  token : String
  value : Value
  deriving DecidableEq, Repr

/-- Why no credential was obtained. -/
inductive FetchError
  /-- The servers cannot be reached (`is_network_error`). -/
  | network (message : String)
  | other (message : String)
  deriving DecidableEq, Repr

/-! ## Requests as steps -/

/-- The steps of a run.  A connection to the agent carries one request. -/
inductive Op (Value : Type)
  | connect
  | storeSession (params : StoreSessionParams)
  | clearSession
  | clearCredentialCache
  | getCachedCredential (credentialType : String)
  | cacheCredential (credentialType : String) (data : Minted Value) (expiresAt : String)
  /-- A credential is minted with the access token of the current session. -/
  | fetch
  /-- The clock goes on. -/
  | tick (time : Timestamp)

/-- What each step answers. -/
def Op.Res : Op Value → Type
  | .connect => Bool
  | .storeSession _ => Response Bool
  | .clearSession => Response Bool
  | .clearCredentialCache => Response Bool
  | .getCachedCredential _ => Response (CachedCredential (Minted Value))
  | .cacheCredential _ _ _ => Response Bool
  | .fetch => Except FetchError (Minted Value × String)
  | .tick _ => Unit

/-- What a step leaves open: whether the agent can be reached, how its hash map is laid out, and
what the servers answer. -/
structure Choice (Value : Type) where
  reachable : Bool
  order : HashOrder (Minted Value)
  answer : Except FetchError (Value × String)

/-- The agent, and the time. -/
structure System (Value : Type) where
  agent : AgentState (Minted Value)
  clock : Timestamp
  deriving DecidableEq

/-- One step. -/
def exec (env : Environment) : (o : Op Value) → Choice Value → System Value →
    Option (o.Res × System Value)
  | .connect, c, s => some (c.reachable, s)
  | .storeSession params, _, s =>
    let answer := handleStoreSession env s.clock params s.agent
    some (answer.1, { s with agent := answer.2 })
  | .clearSession, _, s =>
    let answer : Response Bool × AgentState (Minted Value) := handleClearSession
    some (answer.1, { s with agent := answer.2 })
  | .clearCredentialCache, _, s =>
    let answer := handleClearCredentialCache s.agent
    some (answer.1, { s with agent := answer.2 })
  | .getCachedCredential credentialType, _, s =>
    some (handleGetCachedCredential s.clock credentialType s.agent, s)
  | .cacheCredential credentialType data expiresAt, c, s =>
    let answer := handleCacheCredential env c.order s.clock credentialType data expiresAt s.agent
    some (answer.1, { s with agent := answer.2 })
  | .fetch, c, s =>
    match c.answer, handleGetToken s.clock s.agent with
    | .error e, _ => some (.error e, s)
    | .ok (value, expiresAt), .ok token => some (.ok (⟨token, value⟩, expiresAt), s)
    -- no session, no token
    | .ok _, .error _ => none
  | .tick time, _, s => if s.clock ≤ time then some ((), { s with clock := time }) else none

/-- A program of a client of the agent. -/
abbrev Program (Value α : Type) := Prog (Op Value) Op.Res α

/-! ## The client -/

/-- Asks the agent for a credential.  Without an agent, or with an error, there is none. -/
def get (cacheKey : String) : Program Value (Option (Minted Value)) :=
  .call .connect fun (connected : Bool) =>
    if connected then
      .call (.getCachedCredential cacheKey)
        fun (response : Response (CachedCredential (Minted Value))) =>
        match response with
        | .ok cached => pure (some cached.data)
        | .error _ => pure none
    else pure none

/-- Hands a credential to the agent, whatever comes of it. -/
def store (cacheKey : String) (data : Minted Value) (expiresAt : String) : Program Value Unit :=
  .call .connect fun (connected : Bool) =>
    if connected then
      .call (.cacheCredential cacheKey data expiresAt) fun (_ : Response Bool) => pure ()
    else pure ()

/-- Mints a credential with the servers. -/
def fetch : Program Value (Except FetchError (Minted Value × String)) :=
  .call .fetch fun (answer : Except FetchError (Minted Value × String)) => pure answer

/-- The cache first; then the servers; and the cache again if those cannot be reached. -/
def getOrFetch (cacheKey : String) : Program Value (Except FetchError (Minted Value)) := do
  match ← get cacheKey with
  | some cached => pure (.ok cached)
  | none =>
    match ← fetch with
    | .ok (data, expiresAt) =>
      store cacheKey data expiresAt
      pure (.ok data)
    | .error (.network message) =>
      match ← get cacheKey with
      | some cached => pure (.ok cached)
      | none => pure (.error (.network message))
    | .error (.other message) => pure (.error (.other message))

/-- What one thread of a run does. -/
inductive Command
  | getOrFetch (cacheKey : String)
  | storeSession (params : StoreSessionParams)
  | clearSession
  | clearCredentialCache
  | tick (time : Timestamp)

/-- What a command comes to. -/
inductive Outcome (Value : Type)
  | credential (result : Except FetchError (Minted Value))
  | answered (response : Response Bool)
  | ticked

/-- The program that a command runs. -/
def Command.program : Command → Program Value (Outcome Value)
  | .getOrFetch cacheKey => do return .credential (← Vouch.Agent.getOrFetch cacheKey)
  | .storeSession params => .call (.storeSession params) fun (r : Response Bool) =>
      pure (.answered r)
  | .clearSession => .call .clearSession fun (r : Response Bool) => pure (.answered r)
  | .clearCredentialCache => .call .clearCredentialCache fun (r : Response Bool) =>
      pure (.answered r)
  | .tick time => .call (.tick time) fun (_ : Unit) => pure .ticked

/-- Some commands, and an agent that holds no session. -/
def start {ι : Type} (commands : ι → Command) (time : Timestamp) :
    Config ι (Op Value) Op.Res (fun _ => Outcome Value) (System Value) where
  threads i := (commands i).program
  shared := ⟨none, time⟩

/-! ## Isolation -/

/-- Whatever the agent would serve, now or later, was minted under its session. -/
def Isolated (s : System Value) : Prop :=
  ∀ (time : Timestamp) (credentialType : String) (c : CachedCredential (Minted Value)),
    s.clock ≤ time →
    getCachedCredential time credentialType s.agent = some c →
      ∃ slot, s.agent = some slot ∧ c.data.token = slot.session.token

/-- A step that stores no valid credential of another session than the current one. -/
def ownStore (env : Environment) : Op Value → System Value → Bool
  | .cacheCredential credentialType data expiresAt, s =>
    match acceptedIn env s.clock credentialType expiresAt s.agent with
    | some (expiry, slot) => expiry ≤ s.clock || data.token = slot.session.token
    | none => true
  | _, _ => true

/-- Every entry was minted under the session of its slot, or has expired. -/
def Own (s : System Value) : Prop :=
  ∀ slot, s.agent = some slot → ∀ e ∈ slot.credentialCache,
    e.2.data.token = slot.session.token ∨ e.2.expiresAt ≤ s.clock

section Isolation

variable {env : Environment} {s t : System Value}

theorem Own.isolated (h : Own s) : Isolated s := by
  intro time credentialType c htime hget
  obtain ⟨slot, hlive, hfilter⟩ := Option.bind_eq_some_iff.mp hget
  obtain ⟨hagent, -⟩ := live_eq_some.mp hlive
  obtain ⟨hlookup, hvalid⟩ := Option.filter_eq_some_iff.mp hfilter
  refine ⟨slot, hagent, ?_⟩
  have hmem : (credentialType, c) ∈ slot.credentialCache := by
    obtain ⟨l₁, l₂, hsplit, -⟩ := List.lookup_eq_some_iff.mp hlookup
    rw [hsplit]
    simp
  rcases h slot hagent _ hmem with htoken | hexpired
  · exact htoken
  · have hlt : time < c.expiresAt := by simpa [CachedCredential.isValid] using hvalid
    have hle : c.expiresAt ≤ time := Int.le_trans hexpired htime
    exact absurd hlt (Int.not_lt.mpr hle)

/-- Nothing in an empty slot, or in no slot, is anybody else's. -/
theorem own_of_empty {clock : Timestamp} {agent : AgentState (Minted Value)}
    (h : ∀ slot, agent = some slot → slot.credentialCache = []) : Own ⟨agent, clock⟩ := by
  intro slot hslot e he
  rw [h slot hslot] at he
  exact absurd he List.not_mem_nil

/-- **A step that passes the test keeps every entry in its own session.** -/
theorem Own.step {o : Op Value} {c : Choice Value} {r : o.Res} (h : Own s)
    (hexec : exec env o c s = some (r, t)) (htest : ownStore env o s = true) : Own t := by
  cases o with
  | connect =>
    obtain ⟨-, rfl⟩ := Prod.mk.inj (Option.some.inj hexec)
    exact h
  | storeSession params =>
    obtain ⟨-, rfl⟩ := Prod.mk.inj (Option.some.inj hexec)
    rcases handleStoreSession_cases env s.clock params s.agent with hsame | hnone |
      ⟨session, url, hnew⟩
    · rw [hsame]
      exact h
    · rw [hnone]
      exact own_of_empty fun slot hslot => by cases hslot
    · rw [hnew]
      exact own_of_empty fun slot hslot => by cases hslot; rfl
  | clearSession =>
    obtain ⟨-, rfl⟩ := Prod.mk.inj (Option.some.inj hexec)
    exact own_of_empty fun slot hslot => by cases hslot
  | clearCredentialCache =>
    obtain ⟨-, rfl⟩ := Prod.mk.inj (Option.some.inj hexec)
    refine own_of_empty fun slot hslot => ?_
    obtain ⟨slot', -, rfl⟩ := Option.map_eq_some_iff.mp hslot
    rfl
  | getCachedCredential credentialType =>
    obtain ⟨-, rfl⟩ := Prod.mk.inj (Option.some.inj hexec)
    exact h
  | cacheCredential credentialType data expiresAt =>
    obtain ⟨-, rfl⟩ := Prod.mk.inj (Option.some.inj hexec)
    rcases handleCacheCredential_cases env c.order s.clock credentialType data
      expiresAt s.agent with
      ⟨-, hsame⟩ | ⟨expiry, slot, entries, haccepted, hagent, -, hentries, hstored⟩
    · rw [hsame]
      exact h
    · rw [hstored]
      simp only [ownStore, haccepted, Bool.or_eq_true, decide_eq_true_eq] at htest
      intro slot' hslot' e he
      obtain rfl := Option.some.inj hslot'
      rcases List.mem_cons.mp he with rfl | he
      · exact htest.symm
      · exact h slot hagent e (hentries e he)
  | fetch =>
    have hsame : t = s := by
      simp only [exec] at hexec
      split at hexec
      · exact (Prod.mk.inj (Option.some.inj hexec)).2.symm
      · exact (Prod.mk.inj (Option.some.inj hexec)).2.symm
      · cases hexec
    rw [hsame]
    exact h
  | tick time =>
    simp only [exec] at hexec
    split at hexec
    · rename_i hle
      obtain ⟨-, rfl⟩ := Prod.mk.inj (Option.some.inj hexec)
      intro slot hslot e he
      exact (h slot hslot e he).imp_right fun hexpired => Int.le_trans hexpired hle
    · cases hexec

/-- **After a step that fails the test, the agent serves a credential of another session.** -/
theorem not_isolated_of_foreign {o : Op Value} {c : Choice Value} {r : o.Res}
    (hexec : exec env o c s = some (r, t)) (htest : ownStore env o s = false) : ¬ Isolated t := by
  cases o with
  | cacheCredential credentialType data expiresAt =>
    obtain ⟨-, rfl⟩ := Prod.mk.inj (Option.some.inj hexec)
    rcases handleCacheCredential_cases env c.order s.clock credentialType data
      expiresAt s.agent with
      ⟨hnone, -⟩ | ⟨expiry, slot, entries, haccepted, -, hlive, -, hstored⟩
    · simp [ownStore, hnone] at htest
    · simp only [ownStore, haccepted, Bool.or_eq_false_iff, decide_eq_false_iff_not,
        not_le] at htest
      intro hisolated
      rw [hstored] at hisolated
      obtain ⟨slot', hslot', htoken⟩ := hisolated s.clock credentialType ⟨data, expiry, s.clock⟩
        (Int.le_refl _) (by
          refine Option.bind_eq_some_iff.mpr ⟨_, live_eq_some.mpr ⟨rfl, hlive⟩, ?_⟩
          simp [CachedCredential.isValid, htest.1])
      obtain rfl := Option.some.inj hslot'
      exact htest.2 htoken
  | connect => cases htest
  | storeSession params => cases htest
  | clearSession => cases htest
  | clearCredentialCache => cases htest
  | getCachedCredential credentialType => cases htest
  | fetch => cases htest
  | tick time => cases htest

end Isolation

/-- **Session isolation, exactly.**  In any run of any number of clients, logins, logouts and ticks
of the clock, the agent serves after every step only credentials of its current session if and only
if no step of the run stores a credential, still valid, that was minted under another session than
the one that is current then. -/
theorem session_isolation_iff (env : Environment) {ι : Type} [DecidableEq ι]
    (commands : ι → Command) (time : Timestamp) (sched : List (ι × Choice Value))
    (q : Config ι (Op Value) Op.Res (fun _ => Outcome Value) (System Value))
    (hrun : (start commands time).run (fun _ => exec env) (fun _ _ _ => true) sched = some q) :
    (∀ before, before <+: sched → ∀ m,
        (start commands time).run (fun _ => exec env) (fun _ _ _ => true) before = some m →
          Isolated m.shared) ↔
      (start commands time).run (fun _ => exec env) (fun _ => ownStore env) sched = some q := by
  have hstart : Own (start commands time : Config ι (Op Value) Op.Res (fun _ => Outcome Value)
      (System Value)).shared := own_of_empty fun _ hslot => by cases hslot
  refine Config.forall_along_iff (fun s (h : Own s) => h.isolated) ?_ ?_ hstart hrun
  · intro i o c s r t hown hexec htest
    exact hown.step hexec htest
  · intro i o c s r t hown hexec htest
    exact not_isolated_of_foreign hexec htest

/-! ### Two logins -/

/-- Two timestamps, and servers that are all secure. -/
def sampleEnvironment : Environment where
  parseTimestamp text := if text = "1000" then .ok 1000 else .ok 2000
  parseScheme _ := some "https"
  checkUrlSecurity _ := .secure
  allowInsecure := false

/-- The entries are visited in the order they are in. -/
def sampleChoice : Choice String where
  reachable := true
  order := ⟨id, fun entries => List.Perm.refl entries⟩
  answer := .ok ("a role of the first server", "1000")

/-- A login, valid until second 2000. -/
def loginOf (token email server : String) : Command :=
  .storeSession ⟨token, email, "2000", some server, .replace⟩

/-- Alice logs in, asks for a credential, and logs in elsewhere meanwhile. -/
def twoLogins : Fin 3 → Command := fun i =>
  if i.val = 0 then .getOrFetch "aws"
  else if i.val = 1 then loginOf "first" "alice@a.example" "https://a.example"
  else loginOf "second" "alice@b.example" "https://b.example"

/-- The first login; the client finds nothing and fetches; the second login; the client stores. -/
def storeAfterLogin : List (Fin 3 × Choice String) :=
  [(⟨1, by decide⟩, sampleChoice), (⟨0, by decide⟩, sampleChoice), (⟨0, by decide⟩, sampleChoice),
    (⟨0, by decide⟩, sampleChoice), (⟨2, by decide⟩, sampleChoice), (⟨0, by decide⟩, sampleChoice),
    (⟨0, by decide⟩, sampleChoice)]

/-- The client stores before the second login. -/
def storeBeforeLogin : List (Fin 3 × Choice String) :=
  [(⟨1, by decide⟩, sampleChoice), (⟨0, by decide⟩, sampleChoice), (⟨0, by decide⟩, sampleChoice),
    (⟨0, by decide⟩, sampleChoice), (⟨0, by decide⟩, sampleChoice), (⟨0, by decide⟩, sampleChoice),
    (⟨2, by decide⟩, sampleChoice)]

/-- What is stored before the second login goes with the first. -/
theorem session_isolation_of_prompt_store :
    ∃ q, (start twoLogins 0).run (fun _ => exec sampleEnvironment) (fun _ _ _ => true)
      storeBeforeLogin =
        some q ∧
      ∀ before, before <+: storeBeforeLogin → ∀ m,
        (start twoLogins 0).run (fun _ => exec sampleEnvironment) (fun _ _ _ => true)
          before = some m →
          Isolated m.shared :=
  ⟨_, rfl, (session_isolation_iff sampleEnvironment twoLogins 0 storeBeforeLogin _ rfl).mpr rfl⟩

/-- **A credential outlives the session it was minted under.**  It is fetched under the first login
and stored under the second, and from then on the agent serves it beside the second session's
identity and server. -/
theorem credential_outlives_session :
    ∃ q slot c, (start twoLogins 0).run (fun _ => exec sampleEnvironment) (fun _ _ _ => true)
        storeAfterLogin = some q ∧
      q.shared.agent = some slot ∧ slot.session.token = "second" ∧
      slot.serverUrl = some "https://b.example" ∧
      getCachedCredential q.shared.clock "aws" q.shared.agent = some c ∧ c.data.token = "first" :=
  ⟨_, _, _, rfl, rfl, rfl, rfl, rfl, rfl⟩

end Vouch.Agent
