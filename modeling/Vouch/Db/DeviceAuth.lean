import Vouch.Db.ConsumeOnce

/-!
# The life of a device authorization request

A device code is created pending, approved or denied in the browser, and redeemed by the device that
polls for it; deleting the authenticator behind an approval voids it, and a sweep removes what has
expired (`db/device_auth.rs`).  All of these write the same document, from any number of servers.

* `DeviceAuthState.Moves` are the only ways the state of a request changes, and none of them starts
  from a denied or a consumed request.
* `DeviceCall.Moves` says which call makes which move.  Each call is looked at once, to show that
  its writes are such moves (`triple_deviceCall`).
* `device_state_machine` puts the run together: every committed change of a request is a move, one
  change at most approves it, what a consumer is handed is what that change wrote, and nobody
  approves or redeems a request after it has expired.

The instant a request arrives is read from the clock before its call does anything.  As with every
guarded write, versions have to be able to move: at the largest one a poll can write a pending
request over an approved one (`approval_lost_at_max_version`).
-/

namespace Vouch

open ReadCommitted Interleaving ReadCommitted.Protocol

/-! ## Calls -/

/-- A call that works on device authorization requests. -/
inductive DeviceCall
  | createDeviceAuthRequest (deviceCodeHash userCode clientId : String) (expiresAt : Timestamp)
      (intervalSeconds : Int)
  | authorizeDeviceAuth (params : AuthorizeDeviceAuthParams)
  | denyDeviceAuth (id : String)
  | tryConsumeDeviceAuth (deviceCodeHash : String)
  | updateDeviceAuthPollTime (id : String) (intervalSeconds : Int)
  /-- Deleting an authenticator, in a transaction of its own. -/
  | deleteAuthenticator (authenticatorId : String)
  | deleteExpiredDeviceAuthRequests

namespace DeviceCall

/-- What a call returns. -/
@[reducible] def Result : DeviceCall → Type
  | createDeviceAuthRequest .. => String
  | authorizeDeviceAuth .. | denyDeviceAuth .. | deleteAuthenticator .. => Unit
  | tryConsumeDeviceAuth .. => StoredApproval × RecordClaim
  | updateDeviceAuthPollTime .. => Bool
  | deleteExpiredDeviceAuthRequests => Nat

/-- What a call does for a request that arrived at the given instant. -/
def handle (crypto : DocumentCrypto) (arrival : Timestamp) :
    (call : DeviceCall) → ExceptT ClaimError (DbM Payload) call.Result
  | createDeviceAuthRequest deviceCodeHash userCode clientId expiresAt intervalSeconds =>
    mapError .database
      (Vouch.createDeviceAuthRequest crypto deviceCodeHash userCode
        clientId expiresAt intervalSeconds)
  | authorizeDeviceAuth params => mapError .database (Vouch.authorizeDeviceAuth crypto params)
  | denyDeviceAuth id => mapError .database (Vouch.denyDeviceAuth crypto id)
  | tryConsumeDeviceAuth deviceCodeHash => Vouch.tryConsumeDeviceAuth crypto deviceCodeHash
  | updateDeviceAuthPollTime id intervalSeconds =>
    mapError .database (Vouch.updateDeviceAuthPollTime crypto id intervalSeconds arrival)
  | deleteAuthenticator authenticatorId =>
    mapError .database (withDsqlRetry StoreError.isRetryableDbError do
      Sql.begin
      Vouch.deleteAuthenticator crypto authenticatorId
      Sql.commit)
  | deleteExpiredDeviceAuthRequests => mapError .database Vouch.deleteExpiredDeviceAuthRequests

/-- The program of a call, which also reports when its request arrived. -/
def run (crypto : DocumentCrypto) (call : DeviceCall) :
    ExceptT ClaimError (DbM Payload) (Timestamp × call.Result) := do
  let arrival ← Sql.now
  let r ← call.handle crypto arrival
  pure (arrival, r)

end DeviceCall

/-! ## Moves -/

/-- The ways the state of a request changes. -/
inductive DeviceAuthState.Moves : DeviceAuthState → DeviceAuthState → Prop
  | approve (approval : StoredApproval) : Moves .pending (.authorized approval)
  | refuse : Moves .pending .denied
  | redeem (approval : StoredApproval) :
      Moves (.authorized approval) (.consumed (some approval.userId))
  | void (approval : StoredApproval) : Moves (.authorized approval) .denied

variable {s s' : DeviceAuthState}

/-- Nothing leads out of a terminal state. -/
theorem DeviceAuthState.Moves.not_terminal (h : s.Moves s') :
    s ≠ .denied ∧ ∀ userId, s ≠ .consumed userId := by
  cases h <;> exact ⟨fun h => (nomatch h), fun _ h => nomatch h⟩

/-- Nothing leads back to the pending state. -/
theorem DeviceAuthState.Moves.ne_pending (h : s.Moves s') : s' ≠ .pending := by
  cases h <;> exact fun h => nomatch h

/-- The approval an authorization writes. -/
def AuthorizeDeviceAuthParams.approval (params : AuthorizeDeviceAuthParams) : StoredApproval where
  userId := params.userId
  userEmail := params.userEmail
  authenticatorId := params.authenticatorId
  verification := params.verification.toHardwareVerification

/-- The moves each call makes, on the request with the given id. -/
def DeviceCall.Moves (id : String) : DeviceCall → DeviceAuthState → DeviceAuthState → Prop
  | authorizeDeviceAuth params, s, s' =>
    id = params.id ∧ s = .pending ∧ s' = .authorized params.approval
  | denyDeviceAuth _, s, s' => s = .pending ∧ s' = .denied
  | tryConsumeDeviceAuth _, s, s' =>
    ∃ approval, s = .authorized approval ∧ s' = .consumed (some approval.userId)
  | deleteAuthenticator _, s, s' => ∃ approval, s = .authorized approval ∧ s' = .denied
  | _, _, _ => False

theorem DeviceCall.Moves.moves {id : String} {call : DeviceCall} (h : call.Moves id s s') :
    s.Moves s' := by
  cases call with
  | authorizeDeviceAuth params =>
    obtain ⟨-, rfl, rfl⟩ := h
    exact .approve _
  | denyDeviceAuth =>
    obtain ⟨rfl, rfl⟩ := h
    exact .refuse
  | tryConsumeDeviceAuth =>
    obtain ⟨approval, rfl, rfl⟩ := h
    exact .redeem approval
  | deleteAuthenticator =>
    obtain ⟨approval, rfl, rfl⟩ := h
    exact .void approval
  | _ => exact h.elim

variable {approval : StoredApproval}

/-- Only an authorize call approves, with the fields it was called with. -/
theorem DeviceCall.Moves.authorized {id : String} {call : DeviceCall}
    (h : call.Moves id s (.authorized approval)) :
    s = .pending ∧ ∃ params, call = .authorizeDeviceAuth params ∧ params.id = id ∧
      params.approval = approval := by
  cases call with
  | authorizeDeviceAuth params =>
    obtain ⟨rfl, rfl, ha⟩ := h
    cases ha
    exact ⟨rfl, params, rfl, rfl, rfl⟩
  | _ => simp [DeviceCall.Moves] at h

/-- The device authorization request a row stores. -/
def deviceDoc : Option (Row Payload) → Option DeviceAuthRequestDoc
  | some row => DocumentType.fromData row.data
  | none => none

/-- The state of the device authorization request a row stores. -/
def deviceState (r : Option (Row Payload)) : Option DeviceAuthState :=
  (deviceDoc r).map stateFromStored

/-- What a call may turn a row into: a request is created pending, moves as the call moves it while
its lifetime stays what it was, and is otherwise removed. -/
structure DeviceCall.Allows (call : DeviceCall) (id : String) (old new : Option (Row Payload)) :
    Prop where
  moves : ∀ data', deviceDoc new = some data' → old = none ∧ stateFromStored data' = .pending ∨
    ∃ data, deviceDoc old = some data ∧ data'.expiresAt = data.expiresAt ∧
      (stateFromStored data' = stateFromStored data ∨
        call.Moves id (stateFromStored data) (stateFromStored data'))
  removes : (deviceDoc old).isSome → new = none ∨ (deviceDoc new).isSome

section Allows

variable {call : DeviceCall} {id : String}

theorem DeviceCall.allows_none (old : Option (Row Payload)) : call.Allows id old none :=
  ⟨fun _ h => (nomatch h), fun _ => .inl rfl⟩

/-- Creating a request, or a document of any other type. -/
theorem DeviceCall.allows_new {new : Row Payload}
    (h : ∀ data, deviceDoc (some new) = some data → stateFromStored data = .pending) :
    call.Allows id none (some new) :=
  ⟨fun data' h' => .inl ⟨rfl, h data' h'⟩, fun h => nomatch h⟩

/-- Rewriting a request. -/
theorem DeviceCall.allows_rewrite {crypto : DocumentCrypto} {row : Row Payload} {now : Timestamp}
    {version : Int} {data data' : DeviceAuthRequestDoc}
    (hrow : DocumentType.fromData row.data = some data) (hexp : data'.expiresAt = data.expiresAt)
    (hmove : stateFromStored data' = stateFromStored data ∨
      call.Moves id (stateFromStored data) (stateFromStored data')) :
    call.Allows id (some row) (some (rewriteRow crypto data' now version row)) := by
  refine ⟨fun e he => ?_, fun _ => .inr rfl⟩
  cases he
  exact .inr ⟨data, hrow, hexp, hmove⟩

theorem DeviceCall.Allows.moves_or_same {old new : Option (Row Payload)}
    (h : call.Allows id old new) {s : DeviceAuthState} (hs : deviceState old = some s) :
    new = none ∨ ∃ s', deviceState new = some s' ∧ (s' = s ∨ call.Moves id s s') := by
  obtain ⟨data, hdata, rfl⟩ := Option.map_eq_some_iff.mp hs
  rcases h.removes (by rw [hdata]; rfl) with hnone | hsome
  · exact .inl hnone
  · obtain ⟨data', hdata'⟩ := Option.isSome_iff_exists.mp hsome
    refine .inr ⟨_, Option.map_eq_some_iff.mpr ⟨data', hdata', rfl⟩, ?_⟩
    rcases h.moves data' hdata' with ⟨rfl, -⟩ | ⟨e, he, -, hmove⟩
    · cases hdata
    · cases hdata.symm.trans he
      exact hmove

end Allows

/-! ## What the decisions do -/

variable {now : Timestamp} {data data' : DeviceAuthRequestDoc}

theorem approveDevice_ok {params : AuthorizeDeviceAuthParams} {a : Unit}
    (h : approveDevice params now data = .ok (a, data')) :
    stateFromStored data = .pending ∧ stateFromStored data' = .authorized params.approval ∧
      data'.expiresAt = data.expiresAt ∧ now < data.expiresAt := by
  have hpending := approveDevice_pending h
  rw [approveDevice, if_neg (not_not.mpr hpending)] at h
  split at h
  · cases h
  · rename_i hexp
    cases h
    refine ⟨by rw [stateFromStored, hpending], ?_, rfl, lt_of_not_ge hexp⟩
    rw [stateFromStored, AuthorizeDeviceAuthParams.approval]
    cases params.verification <;> rfl

theorem refuseDevice_ok {a : Unit} (h : refuseDevice now data = .ok (a, data')) :
    stateFromStored data = .pending ∧ stateFromStored data' = .denied ∧
      data'.expiresAt = data.expiresAt := by
  have hpending := refuseDevice_pending h
  rw [refuseDevice, if_neg (not_not.mpr hpending)] at h
  cases h
  exact ⟨by rw [stateFromStored, hpending], rfl, rfl⟩

/-- The user of an approval is the one the request stores. -/
theorem userId_of_authorized (h : stateFromStored data = .authorized approval) :
    data.userId = some approval.userId := by
  rw [stateFromStored] at h
  split at h <;> try cases h
  split at h <;> cases h
  assumption

theorem redeemDevice_ok (h : redeemDevice now data = .ok (approval, data')) :
    stateFromStored data = .authorized approval ∧
      stateFromStored data' = .consumed (some approval.userId) ∧
      data'.expiresAt = data.expiresAt ∧ now < data.expiresAt := by
  rw [redeemDevice] at h
  split at h
  · rename_i hstate
    split at h
    · cases h
    · rename_i hexp
      cases h
      refine ⟨hstate, ?_, rfl, lt_of_not_ge hexp⟩
      rw [stateFromStored, userId_of_authorized hstate]
  · cases h

/-- Detaching an authenticator voids an approval and touches no other state. -/
theorem stateFromStored_detach (data : DeviceAuthRequestDoc) :
    stateFromStored (detachAuthenticatorFromDeviceAuth data) = stateFromStored data ∨
      ∃ approval, stateFromStored data = .authorized approval ∧
        stateFromStored (detachAuthenticatorFromDeviceAuth data) = .denied := by
  cases hs : data.status with
  | authorized =>
    have hdenied : stateFromStored (detachAuthenticatorFromDeviceAuth data) = .denied := by
      rw [stateFromStored, detachAuthenticatorFromDeviceAuth, if_pos hs]
    cases hstate : stateFromStored data with
    | authorized approval => exact .inr ⟨approval, rfl, hdenied⟩
    | denied => exact .inl hdenied
    | _ =>
      rw [stateFromStored, hs] at hstate
      simp only at hstate
      split at hstate <;> cases hstate
  | _ =>
    left
    simp only [stateFromStored, detachAuthenticatorFromDeviceAuth, hs]
    rfl

/-! ## Each call -/

section Calls

variable {ι : Type} [DecidableEq ι] {init : Table String (Row Payload)} {i : ι}
  {calls : ι → DeviceCall} {crypto : DocumentCrypto} {arrival : Timestamp}

/-- What the threads may turn rows into. -/
def DeviceAllowed (calls : ι → DeviceCall) (i : ι) (id : String) (old new : Option (Row Payload)) :
    Prop :=
  (calls i).Allows id old new

/-- The protocol of the device authorization requests. -/
abbrev deviceProtocol (calls : ι → DeviceCall) (init : Table String (Row Payload)) :
    Protocol ι String (Row Payload) Timestamp :=
  ledgerProtocol init (DeviceAllowed calls)

/-- Thread `i` has moved a request that had not expired at the given instant. -/
def Moved (i : ι) (id : String) (arrival : Timestamp) (s s' : DeviceAuthState)
    (d : Durable ι String (Row Payload) Timestamp) : Prop :=
  ∃ old new data, Made i id old new d ∧ deviceDoc old = some data ∧ stateFromStored data = s ∧
    deviceState new = some s' ∧ arrival < data.expiresAt

theorem stable_moved {P : DbProtocol ι Payload} {id : String} {s s' : DeviceAuthState} :
    P.Stable i (Moved i id arrival s s') :=
  stable_exists fun _ => stable_exists fun _ => stable_exists fun _ =>
    (stable_made _ _ _).and (stable_const _ i _)

/-- What a call leaves behind when it returns: an approval or a redemption was made on a request
that had not expired when the call arrived. -/
def DeviceCall.Left (i : ι) : (call : DeviceCall) → Timestamp → call.Result →
    Durable ι String (Row Payload) Timestamp → Prop
  | .authorizeDeviceAuth params, arrival, (), d =>
    Moved i params.id arrival .pending (.authorized params.approval) d
  | .tryConsumeDeviceAuth _, arrival, (approval, claim), d =>
    Moved i claim.id arrival (.authorized approval) (.consumed (some approval.userId)) d
  | _, _, _, _ => True

theorem DeviceCall.stable_left {P : DbProtocol ι Payload} (call : DeviceCall) (r : call.Result) :
    P.Stable i (call.Left i arrival r) := by
  cases call with
  | authorizeDeviceAuth => exact stable_moved
  | tryConsumeDeviceAuth => exact stable_moved
  | _ => exact stable_const _ i True

/-- The clock has passed the arrival of the request. -/
theorem arrived_mono (s t : Timestamp) (h : s ≤ t) (hs : arrival ≤ s) : arrival ≤ t :=
  le_trans hs h

theorem stable_arrived : (deviceProtocol calls init).Stable i fun d => arrival ≤ d.clock :=
  stable_clockProp _ i arrived_mono

omit [DecidableEq ι] in
/-- A decision that moves requests as its call does. -/
theorem allowsDecision_of_moves {A R : Type} {id : String}
    {decide : Timestamp → DeviceAuthRequestDoc → Except R (A × DeviceAuthRequestDoc)}
    (hmove : ∀ now data a data', decide now data = .ok (a, data') →
      data'.expiresAt = data.expiresAt ∧
        (calls i).Moves id (stateFromStored data) (stateFromStored data')) :
    AllowsDecision crypto (DeviceAllowed calls) i id decide :=
  fun now _ _ data a data' hdata hd =>
    DeviceCall.allows_rewrite hdata (hmove now data a data' hd).1
      (.inr (hmove now data a data' hd).2)

/-- A decision on a request that has not expired, after its call arrived. -/
theorem moved_of_decided {A R : Type} {id : String}
    {decide : Timestamp → DeviceAuthRequestDoc → Except R (A × DeviceAuthRequestDoc)} {a : A}
    {s s' : DeviceAuthState} {d : DbDurable ι Payload}
    (hdecide : ∀ now data data', decide now data = .ok (a, data') → stateFromStored data = s ∧
      stateFromStored data' = s' ∧ data'.expiresAt = data.expiresAt ∧ now < data.expiresAt)
    (h : Decided crypto (fun t => arrival ≤ t) i id decide a d) : Moved i id arrival s s' d := by
  obtain ⟨now, now', row, data, data', hnow, hdata, hd, hmade⟩ := h
  obtain ⟨hs, hs', -, hlt⟩ := hdecide now data data' hd
  exact ⟨_, _, data, hmade, hdata, hs, congrArg some hs', lt_of_le_of_lt hnow hlt⟩

theorem triple_deviceConsume {deviceCodeHash : String}
    (hcall : calls i = .tryConsumeDeviceAuth deviceCodeHash) :
    (deviceProtocol calls init).Triple i (fun d => arrival ≤ d.clock)
      (tryConsumeDeviceAuth crypto deviceCodeHash)
      (fun r => Moved i r.2.id arrival (.authorized r.1) (.consumed (some r.1.userId)))
      fun _ _ => True := by
  refine (triple_ledgerRedeem arrived_mono fun id => allowsDecision_of_moves
    fun now data a data' h => ?_).weaken fun r d => moved_of_decided fun _ _ _ => redeemDevice_ok
  obtain ⟨hs, hs', hexp, -⟩ := redeemDevice_ok h
  rw [hcall]
  exact ⟨hexp, a, hs, hs'⟩

theorem triple_deviceDetach {authenticatorId : String}
    (hcall : calls i = .deleteAuthenticator authenticatorId) :
    (deviceProtocol calls init).Triple i (fun d => arrival ≤ d.clock)
      (withDsqlRetry StoreError.isRetryableDbError do
        Sql.begin
        deleteAuthenticator crypto authenticatorId
        Sql.commit)
      (fun _ d => arrival ≤ d.clock) fun _ d => arrival ≤ d.clock := by
  have hmove : ∀ (id : String) (data : DeviceAuthRequestDoc),
      stateFromStored (detachAuthenticatorFromDeviceAuth data) = stateFromStored data ∨
        (calls i).Moves id (stateFromStored data)
          (stateFromStored (detachAuthenticatorFromDeviceAuth data)) := by
    intro id data
    rw [hcall]
    exact stateFromStored_detach data
  refine triple_ledgerDeleteAuthenticator arrived_mono
    (fun k cur data now hdata => DeviceCall.allows_rewrite hdata rfl (hmove k data)) ?_
    fun k old => DeviceCall.allows_none old
  -- A row this transaction has written already is detached once more.
  intro k old cur data now hdata hold
  refine ⟨fun e he => ?_, fun _ => .inr rfl⟩
  cases he
  rcases hold.moves data hdata with ⟨hnone, hpending⟩ | ⟨data₀, hdata₀, hexp, hfirst⟩
  · refine .inl ⟨hnone, ?_⟩
    rcases stateFromStored_detach data with h | ⟨approval, h, -⟩
    · rw [h, hpending]
    · cases hpending.symm.trans h
  · refine .inr ⟨data₀, hdata₀, hexp, ?_⟩
    rcases stateFromStored_detach data with h | ⟨approval, h, h'⟩
    · rw [h]
      exact hfirst
    · rcases hfirst with hsame | hmoved
      · rw [← hsame]
        exact hmove k data
      · rw [hcall] at hmoved
        obtain ⟨-, -, hdenied⟩ := hmoved
        cases h.symm.trans hdenied

theorem triple_deviceCreate {deviceCodeHash userCode clientId : String} {expiresAt : Timestamp}
    {intervalSeconds : Int} :
    (deviceProtocol calls init).Triple i (fun d => arrival ≤ d.clock)
      (createDeviceAuthRequest crypto deviceCodeHash userCode clientId expiresAt intervalSeconds)
      (fun _ d => arrival ≤ d.clock) fun _ d => arrival ≤ d.clock := by
  refine .bind (triple_ledgerInsert arrived_mono fun id now => ?_) fun _ =>
    .pure stable_arrived fun _ h => h
  refine DeviceCall.allows_new fun data hdata => ?_
  cases hdata
  rfl

theorem triple_deviceSweep :
    (deviceProtocol calls init).Triple i (fun d => arrival ≤ d.clock)
      deleteExpiredDeviceAuthRequests (fun _ d => arrival ≤ d.clock) fun _ d => arrival ≤ d.clock :=
  .bind (triple_ledgerSweep arrived_mono fun _ old => DeviceCall.allows_none old) fun _ =>
    triple_ledgerSweep arrived_mono fun _ old => DeviceCall.allows_none old

/-- A call makes the moves it may make, and leaves behind what it reports. -/
theorem triple_deviceCall :
    (deviceProtocol calls init).Triple i (fun _ => True) ((calls i).run crypto)
      (fun r => (calls i).Left i r.1 r.2) fun _ _ => True := by
  have hhandle : ∀ (call : DeviceCall) (arrival : Timestamp), calls i = call →
      (deviceProtocol calls init).Triple i (fun d => arrival ≤ d.clock) (call.handle crypto arrival)
        (fun r => call.Left i arrival r) fun _ _ => True := by
    intro call arrival hcall
    cases call with
    | createDeviceAuthRequest =>
      exact .mapError (triple_deviceCreate.mono (fun _ h => h) (fun _ _ _ => trivial)
        fun _ _ _ => trivial)
    | authorizeDeviceAuth params =>
      refine .mapError ((triple_ledgerDecide arrived_mono (allowsDecision_of_moves
        fun now data a data' h => ?_)).weaken fun _ d => moved_of_decided fun _ _ _ =>
          approveDevice_ok)
      obtain ⟨hs, hs', hexp, -⟩ := approveDevice_ok h
      rw [hcall]
      exact ⟨hexp, rfl, hs, hs'⟩
    | denyDeviceAuth id =>
      refine .mapError ((triple_ledgerDecide arrived_mono (allowsDecision_of_moves
        fun now data a data' h => ?_)).weaken fun _ _ _ => trivial)
      obtain ⟨hs, hs', hexp⟩ := refuseDevice_ok h
      rw [hcall]
      exact ⟨hexp, hs, hs'⟩
    | tryConsumeDeviceAuth => exact triple_deviceConsume hcall
    | updateDeviceAuthPollTime =>
      exact .mapError (Triple.mono (triple_ledgerPoll fun _ _ _ hdata =>
        DeviceCall.allows_rewrite hdata rfl (.inl rfl)) (fun _ _ => trivial) (fun _ _ h => h)
        fun _ _ h => h)
    | deleteAuthenticator =>
      exact .mapError ((triple_deviceDetach hcall).mono (fun _ h => h) (fun _ _ _ => trivial)
        fun _ _ _ => trivial)
    | deleteExpiredDeviceAuthRequests =>
      exact .mapError (triple_deviceSweep.mono (fun _ h => h) (fun _ _ _ => trivial)
        fun _ _ _ => trivial)
  refine .bind (.now (stable_const _ i True) (fun _ => stable_arrived) fun d c _ _ => le_refl c)
    fun arrival => ?_
  exact .bind (hhandle (calls i) arrival rfl) fun r => .pure ((calls i).stable_left r) fun _ h => h

end Calls

/-! ## The system -/

section System

variable {ι : Type} [DecidableEq ι]

/-- The callers, before any of them has done anything. -/
def deviceSystem (crypto : DocumentCrypto) (calls : ι → DeviceCall)
    (init : Table String (Row Payload)) (clock : Timestamp) :
    Config ι (Stmt String (Row Payload)) (Stmt.Res Timestamp)
      (fun i => Except ClaimError (Timestamp × (calls i).Result))
      (Db ι String (Row Payload) Timestamp) where
  threads i := (calls i).run crypto
  shared := { committed := init, log := [], clock := clock, pending := ∅, reads := fun _ => [] }

/-- A change that approves a request. -/
def Approves (c : Change ι String (Row Payload)) (approval : StoredApproval) : Prop :=
  deviceState c.old = some .pending ∧ deviceState c.new = some (.authorized approval)

/-- What a run has done to the device authorization requests. -/
structure DeviceHistory (calls : ι → DeviceCall) (init : Table String (Row Payload))
    (d : Durable ι String (Row Payload) Timestamp) : Prop where
  /-- The committed rows are what the changes have made of the initial ones. -/
  linked : ∀ id, Linked (init.lookup id) (history id d.log) (d.committed.lookup id)
  /-- A request comes into being pending. -/
  created : ∀ c ∈ d.log, deviceState c.old = none → ∀ s, deviceState c.new = some s → s = .pending
  /-- A change of a request moves it, leaves its state alone, or removes it. -/
  moves : ∀ c ∈ d.log, ∀ s, deviceState c.old = some s →
    c.new = none ∨ ∃ s', deviceState c.new = some s' ∧ (s' = s ∨ s.Moves s')
  /-- A denied request stays denied, and a consumed one stays consumed, by the same user. -/
  terminal : ∀ c ∈ d.log, ∀ s, s = .denied ∨ (∃ userId, s = .consumed userId) →
    deviceState c.old = some s → c.new = none ∨ deviceState c.new = some s
  /-- One change at most approves a request. -/
  approvedOnce : ∀ c ∈ d.log, ∀ c' ∈ d.log, c.id = c'.id → ∀ approval approval',
    Approves c approval → Approves c' approval' → c = c'
  /-- It is an authorize call for that request that approves it, with the fields it was called
  with. -/
  approvedBy : ∀ c ∈ d.log, ∀ approval, Approves c approval →
    ∃ params, calls c.owner = .authorizeDeviceAuth params ∧ params.id = c.id ∧
      params.approval = approval

variable {calls : ι → DeviceCall} {init : Table String (Row Payload)}
  {d : DbDurable ι Payload}

omit [DecidableEq ι] in
theorem DeviceCall.Allows.pending {call : DeviceCall} {id : String} {old new : Option (Row Payload)}
    (h : call.Allows id old new) (hold : old.isSome) (hnew : deviceState new = some .pending) :
    deviceState old = some .pending := by
  obtain ⟨data', hdata', hs'⟩ := Option.map_eq_some_iff.mp hnew
  rcases h.moves data' hdata' with ⟨rfl, -⟩ | ⟨data, hdata, -, hmove⟩
  · cases hold
  · refine Option.map_eq_some_iff.mpr ⟨data, hdata, ?_⟩
    rw [hs'] at hmove
    rcases hmove with h | h
    · exact h.symm
    · exact absurd rfl h.moves.ne_pending

omit [DecidableEq ι] in
/-- Only an authorize call approves, and it approves a pending request with its own fields. -/
theorem DeviceCall.Allows.authorized {call : DeviceCall} {id : String}
    {old new : Option (Row Payload)} (h : call.Allows id old new) {approval : StoredApproval}
    (hold : deviceState old ≠ some (.authorized approval))
    (hnew : deviceState new = some (.authorized approval)) :
    deviceState old = some .pending ∧
      ∃ params, call = .authorizeDeviceAuth params ∧ params.id = id ∧
        params.approval = approval := by
  obtain ⟨data', hdata', hs'⟩ := Option.map_eq_some_iff.mp hnew
  rcases h.moves data' hdata' with ⟨-, hp⟩ | ⟨data, hdata, -, hmove⟩
  · cases hp.symm.trans hs'
  · have hs : deviceState old = some (stateFromStored data) :=
      Option.map_eq_some_iff.mpr ⟨data, hdata, rfl⟩
    rw [hs'] at hmove
    rcases hmove with hsame | hmove
    · exact absurd (hs.trans (congrArg some hsame.symm)) hold
    · obtain ⟨hp, hparams⟩ := hmove.authorized
      exact ⟨hs.trans (congrArg some hp), hparams⟩

omit [DecidableEq ι] in
theorem Ledger.deviceHistory (h : Ledger init (DeviceAllowed calls) d) :
    DeviceHistory calls init d where
  linked := h.linked
  created c hc hold s hs := by
    obtain ⟨data', hdata', rfl⟩ := Option.map_eq_some_iff.mp hs
    rcases (h.allowed c hc).moves data' hdata' with ⟨-, hp⟩ | ⟨data, hdata, -⟩
    · exact hp
    · rw [deviceState, hdata] at hold
      cases hold
  moves c hc s hs := by
    rcases (h.allowed c hc).moves_or_same hs with hnone | ⟨s', hs', hmove⟩
    · exact .inl hnone
    · exact .inr ⟨s', hs', hmove.imp_right DeviceCall.Moves.moves⟩
  terminal c hc s hs hold := by
    rcases (h.allowed c hc).moves_or_same hold with hnone | ⟨s', hs', hmove⟩
    · exact .inl hnone
    · rcases hmove with rfl | hmove
      · exact .inr hs'
      · obtain ⟨hd, hco⟩ := hmove.moves.not_terminal
        rcases hs with rfl | ⟨userId, rfl⟩
        · exact absurd rfl hd
        · exact absurd rfl (hco userId)
  approvedOnce c hc c' hc' hid approval approval' ha ha' := by
    -- Approving takes a request out of the pending state, and nothing brings it back.
    have hleaves : ∀ {e : DbChange ι Payload} {a : StoredApproval}, Approves e a →
        deviceState e.old = some .pending ∧ ¬ deviceState e.new = some .pending := by
      intro e a he
      refine ⟨he.1, fun hp => ?_⟩
      cases hp.symm.trans he.2
    exact h.toVersionedLog.flip_unique (A := fun r => deviceState r = some .pending)
      (fun h => nomatch h) (h.linked c.id)
      (fun e he _ hsome hna hnew => hna ((h.allowed e he).pending hsome hnew)) hc rfl hc' hid.symm
      (hleaves ha) (hleaves ha')
  approvedBy c hc approval ha := by
    refine ((h.allowed c hc).authorized (fun hold => ?_) ha.2).2
    cases hold.symm.trans ha.1

omit [DecidableEq ι] in
/-- An approval that a request carries was there from the start, or one change wrote it. -/
theorem Ledger.approval_written (h : Ledger init (DeviceAllowed calls) d) {c : DbChange ι Payload}
    (hc : c ∈ d.log) {approval : StoredApproval}
    (hold : deviceState c.old = some (.authorized approval)) :
    deviceState (init.lookup c.id) = some (.authorized approval) ∨
      ∃ e ∈ d.log, e.id = c.id ∧ Approves e approval := by
  rcases (h.linked c.id).established (P := fun r => deviceState r = some (.authorized approval))
    (mem_history.mpr ⟨hc, rfl⟩) hold with hinit | ⟨e, he, hne, hnew⟩
  · exact .inl hinit
  · obtain ⟨helog, heid⟩ := mem_history.mp he
    exact .inr ⟨e, helog, heid, ((h.allowed e helog).authorized hne hnew).1, hnew⟩

/-- What the outcome of a call says about the history of its request: whoever approved it or
redeemed it did so before it expired, and a redeemed approval is the one that was there from the
start or the one an authorize call wrote. -/
def DeviceCall.Explained (init : Table String (Row Payload)) (i : ι) : (call : DeviceCall) →
    Timestamp → call.Result → Durable ι String (Row Payload) Timestamp → Prop
  | .authorizeDeviceAuth params, arrival, (), d =>
    Moved i params.id arrival .pending (.authorized params.approval) d
  | .tryConsumeDeviceAuth _, arrival, (approval, claim), d =>
    Moved i claim.id arrival (.authorized approval) (.consumed (some approval.userId)) d ∧
      (deviceState (init.lookup claim.id) = some (.authorized approval) ∨
        ∃ c ∈ d.log, c.id = claim.id ∧ Approves c approval)
  | _, _, _, _ => True

theorem DeviceCall.Left.explained {call : DeviceCall} {i : ι} {arrival : Timestamp}
    {r : call.Result} (h : Ledger init (DeviceAllowed calls) d) (hleft : call.Left i arrival r d) :
    call.Explained init i arrival r d := by
  cases call with
  | authorizeDeviceAuth params => exact hleft
  | tryConsumeDeviceAuth deviceCodeHash =>
    refine ⟨hleft, ?_⟩
    obtain ⟨old, new, data, hmade, hdata, hs, -⟩ := hleft
    exact h.approval_written hmade.mem (Option.map_eq_some_iff.mpr ⟨data, hdata, hs⟩)
  | _ => exact trivial

variable {crypto : DocumentCrypto} {clock : Timestamp}
  {q : Config ι (Stmt String (Row Payload)) (Stmt.Res Timestamp)
    (fun i => Except ClaimError (Timestamp × (calls i).Result))
    (DbState ι Payload)}

/-- **The state machine of device authorization requests.**  However the calls interleave, the
stored requests move only as they may, one authorize call at most approves a request, a consumer is
handed exactly what that call wrote, and nobody approves or redeems a request that had expired when
they asked. -/
theorem device_state_machine
    (hrun : Reaches (fun i => exec i) (fun _ o s => VersionsInRange s ∧ NotReinserted o s)
      (deviceSystem crypto calls init clock) q) :
    DeviceHistory calls init q.shared.toDurable ∧
      ∀ i arrival r, q.threads i = .ret (.ok (arrival, r)) →
        (calls i).Explained init i arrival r q.shared.toDurable := by
  obtain ⟨hledger, hleft, -⟩ := (deviceProtocol calls init).reaches_spec hrun (Ledger.start clock)
    (fun _ => triple_deviceCall) (fun _ => rfl) fun _ => trivial
  refine ⟨hledger.deviceHistory, fun i arrival r hret => ?_⟩
  exact (hleft i (arrival, r) hret).explained hledger

end System

/-! ### Runs -/

/-- A request that waits for its approval. -/
def someDeviceRequest : DeviceAuthRequestDoc where
  deviceCodeHash := "hash"
  userCode := "WDJB-MJHT"
  status := .pending
  clientId := some "cli"
  userId := none
  userEmail := none
  authenticatorId := none
  hardwareVerified := false
  authenticatedAt := none
  expiresAt := 600 * Timestamp.second
  intervalSeconds := 5
  lastPollAt := none
  consumedAt := none

/-- Somebody approves it with a key they have just touched. -/
def someApprovalParams : AuthorizeDeviceAuthParams where
  id := "device"
  userId := "user"
  userEmail := "user@example.com"
  authenticatorId := "key"
  verification := .observed 0

/-- A store that holds the request, at some version. -/
def deviceStore (version : Int) : Table String (Row Payload) :=
  AList.insert "device" { newRow plainCrypto someDeviceRequest 0 with version } ∅

/-- The device polls while the browser approves, and then consumes the code. -/
def deviceCalls : Fin 3 → DeviceCall
  | 0 => .updateDeviceAuthPollTime "device" 5
  | 1 => .authorizeDeviceAuth someApprovalParams
  | 2 => .tryConsumeDeviceAuth "hash"

/-- The poll reads before the approval is written and writes after it. -/
def deviceRun (version : Int) (check : Stmt String (Row Payload) →
    Db (Fin 3) String (Row Payload) Timestamp → Bool) (schedule : List (Fin 3)) :=
  (deviceSystem plainCrypto deviceCalls (deviceStore version) 0).run (fun i => exec i)
    (fun _ o s => check o s) (schedule.map fun i => (i, ⟨none, 0, ""⟩))

/-- At the largest version a guarded write no longer moves it: a poll that read the request before
it was approved writes it back as pending. -/
theorem approval_lost_at_max_version :
    ∃ q, Reaches (fun i => exec i) (fun _ o s => NotReinserted o s)
        (deviceSystem plainCrypto deviceCalls (deviceStore maxVersion) 0) q ∧
      ∃ c ∈ q.shared.log, deviceState c.old = some (.authorized someApprovalParams.approval) ∧
        deviceState c.new = some .pending := by
  have hrun : ((deviceRun maxVersion notReinserted
      ([0, 0] ++ List.replicate 8 1 ++ List.replicate 5 0)).map fun q =>
      q.shared.log.map fun c => (deviceState c.old, deviceState c.new)) =
      some [(some .pending, some (.authorized someApprovalParams.approval)),
        (some (.authorized someApprovalParams.approval), some .pending)] := rfl
  obtain ⟨q, hreach, hlog⟩ := exists_of_run (fun _ _ _ => NotReinserted.of_check) hrun
  refine ⟨q, hreach, ?_⟩
  have hmem : (some (.authorized someApprovalParams.approval), some .pending) ∈
      q.shared.log.map fun c => (deviceState c.old, deviceState c.new) := by
    rw [hlog]
    simp
  obtain ⟨c, hc, heq⟩ := List.mem_map.mp hmem
  exact ⟨c, hc, congrArg Prod.fst heq, congrArg Prod.snd heq⟩

/-- The same race at the first version: the poll loses, and the device redeems what the browser
approved. -/
theorem device_state_machine_run :
    ∃ q, Reaches (fun i => exec i) (fun _ o s => VersionsInRange s ∧ NotReinserted o s)
        (deviceSystem plainCrypto deviceCalls (deviceStore 1) 0) q ∧
      q.threads 2 = .ret (.ok (0, someApprovalParams.approval, ⟨"device"⟩)) ∧
      ∃ c ∈ q.shared.log, c.id = "device" ∧ Approves c someApprovalParams.approval := by
  have hrun : ((deviceRun 1 (fun o s => versionsInRange s && notReinserted o s)
      ([0, 0] ++ List.replicate 8 1 ++ List.replicate 4 0 ++ List.replicate 10 2)).map fun q =>
      (q.threads 2).result?) =
      some (some (.ok (0, someApprovalParams.approval, ⟨"device"⟩))) := rfl
  obtain ⟨q, hreach, hres⟩ := exists_of_run (fun _ _ _ => regular_of_check) hrun
  rw [Prog.result?_eq_some] at hres
  refine ⟨q, hreach, hres, ?_⟩
  obtain ⟨-, hinit | hwritten⟩ := (device_state_machine hreach).2 2 0 _ hres
  · cases hinit
  · exact hwritten

end Vouch
