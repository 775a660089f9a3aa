import Vouch.Db.SingleUse
import Vouch.Store.Ledger

/-!
# Consume once

Consumers, creators, benign writers and expiry sweeps work on the single-use records at once.  No
record is handed out twice, because using one up leaves a mark in its history that no later change
removes:

* `Available` says whether a row is a record that somebody may still consume.  It is the one thing
  about a record that matters here, and every writer of the system respects it: an existing row that
  is not available never becomes available (`Lasting`).
* A successful consume commits a change that takes an available row to one that is not (`Consumed`),
  whichever of the three mechanisms it uses.
* A record therefore changes from available to not available once, and `consume_once` follows: two
  calls that return a witness for the same record are the same call.

All of this rests on versions that move.  At the largest 32-bit version a guarded write no longer
moves it, and two consumers can win (`consumed_twice_at_max_version`).
-/

namespace Vouch

open ReadCommitted Interleaving ReadCommitted.Protocol

/-! ## Calls -/

/-- The kinds of single-use records. -/
inductive RecordKind
  | authorizationCode
  | oidcState
  | pushedAuthorizationRequest
  | pendingOAuthAuth
  | deviceCode
  | signatureNonce
  deriving DecidableEq, Repr

/-- A call that works on single-use records. -/
inductive RecordCall
  | storeAuthorizationCode (codeHash clientId userId : String) (expiresAt : Timestamp)
      (authorizationDetails : Option JsonValue)
  | tryConsumeAuthorizationCode (codeHash : String) (now : Timestamp)
  | createOidcState (state : String) (deviceAuthId : Option String) (nonce codeVerifier : String)
      (expiresAt : Timestamp) (providerId : String)
  | tryConsumeOidcState (state : String) (now : Timestamp)
  | createPushedAuthorizationRequest (params : CreateParParams)
  | consumePushedAuthorizationRequest (par : ParRef) (now : Timestamp)
  | extendParExpiration (requestUri clientId : String) (newTtl : Int)
  | createPendingOAuthAuthorization (params : CreatePendingOAuthParams)
  | consumePendingOAuthAuthorization (id : String) (now : Timestamp)
  | createDeviceAuthRequest (deviceCodeHash userCode clientId : String) (expiresAt : Timestamp)
      (intervalSeconds : Int)
  | authorizeDeviceAuth (params : AuthorizeDeviceAuthParams)
  | denyDeviceAuth (id : String)
  | tryConsumeDeviceAuth (deviceCodeHash : String)
  | updateDeviceAuthPollTime (id : String) (intervalSeconds : Int) (now : Timestamp)
  | generateSignatureNonce (validitySeconds : Int)
  | validateAndConsumeSignatureNonce (nonce : String) (now : Timestamp)
  /-- Deleting an authenticator, in a transaction of its own. -/
  | deleteAuthenticator (authenticatorId : String)
  /-- Deleting any document by its id. -/
  | delete (id : String)
  /-- The sweep of the expired documents of one type. -/
  | deleteExpired (docType : String)

namespace RecordCall

/-- What a call returns. -/
@[reducible] def Result : RecordCall → Type
  | storeAuthorizationCode .. | extendParExpiration .. | authorizeDeviceAuth ..
  | denyDeviceAuth .. | deleteAuthenticator .. => Unit
  | tryConsumeAuthorizationCode .. | consumePushedAuthorizationRequest ..
  | validateAndConsumeSignatureNonce .. => RecordClaim
  | tryConsumeOidcState .. => OidcState × RecordClaim
  | consumePendingOAuthAuthorization .. => PendingOAuthAuthDoc × RecordClaim
  | tryConsumeDeviceAuth .. => StoredApproval × RecordClaim
  | createOidcState .. | createPendingOAuthAuthorization .. | createDeviceAuthRequest ..
  | generateSignatureNonce .. => String
  | createPushedAuthorizationRequest .. => String × String
  | updateDeviceAuthPollTime .. | delete .. => Bool
  | deleteExpired .. => Nat

/-- The program of a call. -/
def run [Digest] (crypto : DocumentCrypto) :
    (call : RecordCall) → ExceptT ClaimError (DbM Payload) call.Result
  | storeAuthorizationCode codeHash clientId userId expiresAt authorizationDetails =>
    mapError .database
      (Vouch.storeAuthorizationCode crypto codeHash clientId userId expiresAt authorizationDetails)
  | tryConsumeAuthorizationCode codeHash now =>
    Vouch.tryConsumeAuthorizationCode crypto codeHash now
  | createOidcState state deviceAuthId nonce codeVerifier expiresAt providerId =>
    mapError .database
      (Vouch.createOidcState crypto state deviceAuthId nonce codeVerifier expiresAt providerId)
  | tryConsumeOidcState state now => Vouch.tryConsumeOidcState crypto state now
  | createPushedAuthorizationRequest params =>
    mapError .database (Vouch.createPushedAuthorizationRequest crypto params)
  | consumePushedAuthorizationRequest par now => ParConsumptionProof.consume crypto par now
  | extendParExpiration requestUri clientId newTtl =>
    mapError .database (Vouch.extendParExpiration crypto requestUri clientId newTtl)
  | createPendingOAuthAuthorization params =>
    mapError .database (Vouch.createPendingOAuthAuthorization crypto params)
  | consumePendingOAuthAuthorization id now =>
    Vouch.consumePendingOAuthAuthorization crypto id now
  | createDeviceAuthRequest deviceCodeHash userCode clientId expiresAt intervalSeconds =>
    mapError .database
      (Vouch.createDeviceAuthRequest crypto deviceCodeHash userCode
        clientId expiresAt intervalSeconds)
  | authorizeDeviceAuth params => mapError .database (Vouch.authorizeDeviceAuth crypto params)
  | denyDeviceAuth id => mapError .database (Vouch.denyDeviceAuth crypto id)
  | tryConsumeDeviceAuth deviceCodeHash => Vouch.tryConsumeDeviceAuth crypto deviceCodeHash
  | updateDeviceAuthPollTime id intervalSeconds now =>
    mapError .database (Vouch.updateDeviceAuthPollTime crypto id intervalSeconds now)
  | generateSignatureNonce validitySeconds =>
    mapError .database (Vouch.generateSignatureNonce crypto validitySeconds)
  | validateAndConsumeSignatureNonce nonce now =>
    Vouch.validateAndConsumeSignatureNonce nonce now
  | deleteAuthenticator authenticatorId =>
    mapError .database (withDsqlRetry StoreError.isRetryableDbError do
      Sql.begin
      Vouch.deleteAuthenticator crypto authenticatorId
      Sql.commit)
  | delete id => mapError .database (DocumentStore.delete id)
  | deleteExpired docType => mapError .database (DocumentStore.deleteExpired docType)

/-- The witness a call returns, if it is a consume, and what kind of record it is for. -/
def witness : (call : RecordCall) → call.Result → Option (RecordKind × RecordClaim)
  | tryConsumeAuthorizationCode .., claim => some (.authorizationCode, claim)
  | tryConsumeOidcState .., r => some (.oidcState, r.2)
  | consumePushedAuthorizationRequest .., claim => some (.pushedAuthorizationRequest, claim)
  | consumePendingOAuthAuthorization .., r => some (.pendingOAuthAuth, r.2)
  | tryConsumeDeviceAuth .., r => some (.deviceCode, r.2)
  | validateAndConsumeSignatureNonce .., claim => some (.signatureNonce, claim)
  | _, _ => none

end RecordCall

/-! ## Available records -/

/-- Whether a document is a record that has not been used up. -/
def Payload.available : Payload → Bool
  | .authorizationCode d => d.consumedAt.isNone
  | .oidcState d => d.consumedAt.isNone
  | .pushedAuthorizationRequest d => d.consumedAt.isNone
  | .pendingOAuthAuth d => d.consumedAt.isNone
  | .deviceAuthRequest d => d.status = .pending || d.status = .authorized
  | _ => false

/-- Whether a row is a record that has not been used up. -/
def Available (r : Option (Row Payload)) : Prop := ∃ row, r = some row ∧ row.data.available = true

theorem not_available_none : ¬ Available none := fun ⟨_, h, _⟩ => nomatch h

theorem available_some {row : Row Payload} : Available (some row) ↔ row.data.available = true :=
  ⟨fun ⟨_, h, ha⟩ => Option.some.inj h ▸ ha, fun h => ⟨row, rfl, h⟩⟩

/-- Whether a row is a record of the given kind that may still be consumed: a nonce lasts as long as
its row does. -/
def Usable : RecordKind → Option (Row Payload) → Prop
  | .signatureNonce, r => r.isSome
  | _, r => Available r

theorem not_usable_none (kind : RecordKind) : ¬ Usable kind none := by
  cases kind <;> first | exact not_available_none | exact Bool.false_ne_true

/-- What every change respects: a record that has been used up stays so. -/
def Lasting {ι : Type} (_i : ι) (_id : String) (old new : Option (Row Payload)) : Prop :=
  old.isSome → ¬ Available old → ¬ Available new

/-- The protocol of the single-use records. -/
def recordProtocol {ι : Type} [DecidableEq ι] (init : Table String (Row Payload)) :
    Protocol ι String (Row Payload) Timestamp where
  cond _ o s := VersionsInRange s ∧ NotReinserted o s
  inv := Ledger init Lasting
  evolves _ _ := True
  evolves_refl _ := trivial
  evolves_trans _ _ _ _ _ := trivial
  inv_tick _ c _ h := h.tick c
  evolves_tick _ _ _ := trivial

section Records

variable {ι : Type} [DecidableEq ι] {init : Table String (Row Payload)} {i : ι}

/-- Thread `i` has made the change after which a record no longer satisfies `A`. -/
def GaveUp (A : Option (Row Payload) → Prop) (i : ι) (id : String)
    (d : Durable ι String (Row Payload) Timestamp) : Prop :=
  ∃ c ∈ changesBy i d.log, c.id = id ∧ A c.old ∧ ¬ A c.new

/-- Thread `i` has used up a record. -/
abbrev Consumed (i : ι) : String → Durable ι String (Row Payload) Timestamp → Prop :=
  GaveUp Available i

theorem stable_gaveUp (A : Option (Row Payload) → Prop) (id : String) :
    (recordProtocol (ι := ι) init).Stable i (GaveUp A i id) :=
  stable_changesBy _ i fun cs => ∃ c ∈ cs, c.id = id ∧ A c.old ∧ ¬ A c.new

theorem stable_consumed (id : String) : (recordProtocol (ι := ι) init).Stable i (Consumed i id) :=
  stable_gaveUp Available id

theorem stable_true : (recordProtocol (ι := ι) init).Stable i fun _ => True := stable_const _ i True

theorem recordProtocol_versioned (d : DbDurable ι Payload) (h : (recordProtocol init).inv d) :
    VersionedLog d.log :=
  h.toVersionedLog

/-- It is the protocol of a ledger whose changes last. -/
theorem recordProtocol_eq : recordProtocol (ι := ι) init = ledgerProtocol init Lasting := rfl

theorem gaveUp_of_made {A : Option (Row Payload) → Prop} {id : String}
    {old new : Option (Row Payload)} {d : DbDurable ι Payload} (h : Made i id old new d)
    (hold : A old) (hnew : ¬ A new) : GaveUp A i id d :=
  ⟨_, h, rfl, hold, hnew⟩

/-! ## Reading and writing a record -/

section Operations

variable {T : Type} [DocumentType Payload T] {crypto : DocumentCrypto}

theorem triple_recordFindOne {field value : String} :
    (recordProtocol init).Triple i (fun _ => True)
      (DocumentStore.findOne crypto T field value) Found
      fun _ _ => True :=
  (triple_findOneHeld recordProtocol_versioned stable_true).weaken fun _ _ h => h.2

variable {id : String}

theorem triple_recordGet :
    (recordProtocol init).Triple i (fun _ => True) (DocumentStore.get T id)
      (fun r d => Found r d ∧ ∀ doc, r = some doc → doc.id = id) fun _ _ => True :=
  (triple_getHeld recordProtocol_versioned stable_true).weaken fun _ _ h => h.2

omit [DecidableEq ι] in
/-- A write that never makes a record available again. -/
theorem lasting_rewrite [LawfulSeal T] {row : Row Payload} {data data' : T}
    (hdata : DocumentType.fromData row.data = some data)
    (hkeep : (DocumentType.toData data' : Payload).available = true →
      (DocumentType.toData data : Payload).available = true) (now : Timestamp) (version : Int) :
    Lasting i id (some row) (some (rewriteRow crypto data' now version row)) := by
  intro _ hna ha
  refine hna (available_some.mpr ?_)
  rw [LawfulSeal.eq_toData hdata]
  exact hkeep (available_some.mp ha)

/-- A write that uses a record up. -/
theorem consumed_of_made [LawfulSeal T] {row : Row Payload} {data data' : T} {now : Timestamp}
    {version : Int} {d : DbDurable ι Payload}
    (h : Made i id (some row) (some (rewriteRow crypto data' now version row)) d)
    (hdata : DocumentType.fromData row.data = some data)
    (hold : (DocumentType.toData data : Payload).available = true)
    (hnew : (DocumentType.toData data' : Payload).available = false) : Consumed i id d := by
  refine gaveUp_of_made h ?_ ?_
  · rw [available_some, LawfulSeal.eq_toData hdata]
    exact hold
  · rw [available_some]
    exact Bool.eq_false_iff.mp hnew

/-- The guarded write of a document that is held.  It never makes a record available again, and if
it wins while using the record up, the record is consumed. -/
theorem triple_recordWrite [LawfulSeal T] {doc : Document T} {data : T}
    (hkeep : (DocumentType.toData data : Payload).available = true →
      (DocumentType.toData doc.data : Payload).available = true) :
    (recordProtocol init).Triple i (Held doc)
      (DocumentStore.compareAndUpdate crypto doc.id doc.version data)
      (fun won d => won = true → (DocumentType.toData doc.data : Payload).available = true →
        (DocumentType.toData data : Payload).available = false → Consumed i doc.id d)
      fun _ _ => True := by
  rw [recordProtocol_eq]
  refine (triple_ledgerWrite stable_true (fun _ h => h) fun row now hraw =>
    lasting_rewrite (rawToDocument_eq_ok hraw).2.2 hkeep now _).mono (fun d h => ⟨trivial, h⟩)
    (fun won d h hwon hdoc hdata => ?_) fun _ _ h => h
  obtain ⟨row, now, hraw, hmade⟩ := h.2 hwon
  exact consumed_of_made hmade (rawToDocument_eq_ok hraw).2.2 hdoc hdata

theorem triple_recordInsert {doc : T} :
    (recordProtocol init).Follows i (DocumentStore.insert crypto doc) := by
  rw [recordProtocol_eq]
  exact triple_ledgerInsert (C := fun _ => True) (fun _ _ _ h => h)
    fun _ _ h => nomatch h

theorem triple_recordInsertWithId {doc : T} :
    (recordProtocol init).Follows i (DocumentStore.insertWithId crypto id doc) := by
  rw [recordProtocol_eq]
  exact triple_ledgerInsertWithId (C := fun _ => True) (fun _ _ _ h => h)
    fun _ h => nomatch h

/-- A claim by a guarded write, if it refuses whatever has been used up and marks what it uses. -/
theorem triple_claimRecord [LawfulSeal T] {α : Type} {refuse : T → Bool} {use : T → T}
    {result : Document T → α} {c : α → RecordClaim}
    {lookup : ExceptT StoreError (DbM Payload) (Option (Document T))}
    (hlookup : (recordProtocol init).Triple i (fun _ => True) lookup Found fun _ _ => True)
    (hresult : ∀ doc, (c (result doc)).id = doc.id)
    (hrefuse : ∀ data, refuse data = false →
      (DocumentType.toData data : Payload).available = true ∧
      (DocumentType.toData (use data) : Payload).available = false) :
    (recordProtocol init).Triple i (fun _ => True) (claimRecord crypto lookup refuse use result)
      (fun r => Consumed i (c r).id) fun _ _ => True := by
  refine .bind (.mapError hlookup) fun r => ?_
  cases r with
  | none => exact .fail
  | some doc =>
    simp only
    split
    · exact .fail
    · rename_i hok
      obtain ⟨hdoc, hdata⟩ := hrefuse doc.data (Bool.eq_false_iff.mpr hok)
      refine .bind (.mapError ((triple_recordWrite fun _ => hdoc).mono (fun d h => h doc rfl)
        (fun _ _ h => h) fun _ _ h => h)) fun won => ?_
      cases won with
      | false => exact .fail
      | true => exact .pure (stable_consumed _) fun d h => hresult doc ▸ h rfl hdoc hdata

end Operations

/-! ## The calls on device codes in any system that allows what they do -/

section AnyLedger

variable {crypto : DocumentCrypto} {id : String}
  {allowed : ι → String → Option (Row Payload) → Option (Row Payload) → Prop}

/-- Noting a poll. -/
theorem triple_ledgerPoll {intervalSeconds : Int} {now : Timestamp}
    (hallowed : ∀ row now' (data : DeviceAuthRequestDoc),
      DocumentType.fromData row.data = some data →
      allowed i id (some row) (some (rewriteRow crypto { data with lastPollAt := some now } now'
        (nextVersion row.version) row))) :
    (ledgerProtocol init allowed).Follows i
      (updateDeviceAuthPollTime crypto id intervalSeconds now) := by
  refine .bind ((triple_getHeld ledgerProtocol_versioned (stable_const _ i True)).weaken
    fun _ _ h => h.2) fun r => ?_
  cases r with
  | none => exact .done
  | some doc =>
    by_cases hid : doc.id = id
    · subst hid
      simp only
      split
      · exact .done
      · exact .bind ((triple_ledgerWrite (stable_const _ i True) (fun _ h => h) fun row now' hraw =>
          hallowed row now' doc.data (rawToDocument_eq_ok hraw).2.2).mono
          (fun d h => ⟨trivial, h.1 doc rfl⟩) (fun _ _ _ => trivial) fun _ _ h => h) fun _ => .done
    · exact fun s _ h => absurd (h.2 doc rfl) hid

variable {C : Timestamp → Prop} (hC : ∀ s t, s ≤ t → C s → C t)

include hC

/-- Deciding on a request from the browser. -/
theorem triple_ledgerDecide {operation : String}
    {decision : Timestamp → DeviceAuthRequestDoc →
      Except DeviceAuthStatus (Unit × DeviceAuthRequestDoc)}
    (hallowed : AllowsDecision crypto allowed i id decision) :
    (ledgerProtocol init allowed).Triple i (fun d => C d.clock)
      (decideDeviceAuth crypto operation id decision)
      (fun _ => Decided crypto C i id decision ()) fun _ _ => True := by
  rw [decideDeviceAuth]
  split
  · exact .fail
  · refine .bind (.mapError ((triple_ledgerTransition hC hallowed).forget fun _ _ _ => trivial))
      fun r => ?_
    cases r with
    | applied => exact .pure stable_decided fun d h => h.2 () rfl
    | rejected => exact .fail
    | notFound => exact .fail

/-- Redeeming a device code. -/
theorem triple_ledgerRedeem {deviceCodeHash : String}
    (hallowed : ∀ id, AllowsDecision crypto allowed i id redeemDevice) :
    (ledgerProtocol init allowed).Triple i (fun d => C d.clock)
      (tryConsumeDeviceAuth crypto deviceCodeHash)
      (fun r => Decided crypto C i r.2.id redeemDevice r.1) fun _ _ => True := by
  have hPre := stable_clockProp (ledgerProtocol init allowed) i hC
  refine .bind (.mapError ((triple_findOneHeld ledgerProtocol_versioned hPre).mono (fun _ h => h)
    (fun _ _ h => h.1) fun _ _ _ => trivial)) fun r => ?_
  cases r with
  | none => exact .fail
  | some doc =>
    refine .bind (.now hPre (fun _ => hPre) fun d c hc h => hC d.clock c hc h) fun now => ?_
    split
    · split
      · exact .fail
      · refine .bind (.mapError ((triple_ledgerTransition hC (hallowed doc.id)).forget
          fun _ _ _ => trivial)) fun r => ?_
        cases r with
        | applied approval => exact .pure stable_decided fun d h => h.2 approval rfl
        | rejected => exact .fail
        | notFound => exact .fail
    · exact .fail

/-- Deleting an authenticator, with what refers to it. -/
theorem triple_ledgerDeleteAuthenticator {authenticatorId : String}
    (hdetach : ∀ k cur data now, DocumentType.fromData cur.data = some data →
      allowed i k (some cur) (some (rewriteRow crypto (detachAuthenticatorFromDeviceAuth data) now
        (nextVersion cur.version) cur)))
    (htrans : ∀ k old cur data now, DocumentType.fromData cur.data = some data →
      allowed i k old (some cur) →
      allowed i k old (some (rewriteRow crypto (detachAuthenticatorFromDeviceAuth data) now
        (nextVersion cur.version) cur)))
    (hnone : ∀ k old, allowed i k old none) :
    (ledgerProtocol init allowed).Triple i (fun d => C d.clock)
      (withDsqlRetry StoreError.isRetryableDbError do
        Sql.begin
        deleteAuthenticator crypto authenticatorId
        Sql.commit)
      (fun _ d => C d.clock) fun _ d => C d.clock := by
  have hPre := stable_clockProp (ledgerProtocol init allowed) i hC
  have hdel : ∀ (t : DbState ι Payload) k cur,
      InTx (Entry allowed i) (fun d => C d.clock) i t → (t.visible i).lookup k = some cur →
      Entry allowed i k (history k t.log) (t.committed.lookup k) none :=
    fun t k cur ht hcur => Entry.delete ht.pending hcur (hnone k)
  refine .retrying hPre (fun _ => hPre) _ fun s _ hs => ?_
  refine (InTx.begin (R := Entry allowed i) hs hPre).andThen fun _ t ht => ?_
  refine .bind (.bind ((inTx_updateByIndex ledgerProtocol_versioned ht hPre ?_).mono
    (fun _ t _ ht => ?_) fun _ _ _ he => he))
  · intro t o k cur data now _ ht hc hcur _ hdata
    have hlt : cur.version < nextVersion cur.version := by
      rw [nextVersion_of_lt (hc.1 i k cur hcur)]
      omega
    exact Entry.rewrite ht.pending hcur hlt (hdetach k cur data now hdata)
      fun old => htrans k old cur data now hdata
  · refine (inTx_deleteByIndex (F := fun _ _ => True) ht hPre (fun _ => stable_const _ i True)
      (fun _ _ _ _ _ _ _ => trivial) fun t k cur _ ht _ => hdel t k cur ht).andThen fun _ t ht => ?_
    refine (inTx_delete ht hPre fun t cur _ ht => hdel t _ cur ht).andThen fun _ t ht => ?_
    refine Discipline.safeE_pure (Discipline.always_safeE ?_)
    exact ht.commit hPre hPre fun t hinv ht _ => ⟨hinv.install ht.pending, trivial, ht.known⟩

end AnyLedger

/-! ## Each call -/

section Calls

variable {crypto : DocumentCrypto}

variable {now : Timestamp}

theorem triple_tryConsumeAuthorizationCode {codeHash : String} :
    (recordProtocol init).Triple i (fun _ => True) (tryConsumeAuthorizationCode crypto codeHash now)
      (fun claim => Consumed i claim.id) fun _ _ => True := by
  refine triple_claimRecord (c := id) triple_recordFindOne (fun _ => rfl) fun data h => ?_
  rw [Bool.or_eq_false_iff] at h
  exact ⟨by simpa [DocumentType.toData, Payload.available] using h.1, rfl⟩

theorem triple_tryConsumeOidcState {state : String} :
    (recordProtocol init).Triple i (fun _ => True) (tryConsumeOidcState crypto state now)
      (fun r => Consumed i r.2.id) fun _ _ => True := by
  refine triple_claimRecord triple_recordFindOne (fun _ => rfl) fun data h => ?_
  rw [Bool.or_eq_false_iff] at h
  exact ⟨by simpa [DocumentType.toData, Payload.available] using h.1, rfl⟩

theorem triple_consumePushedAuthorizationRequest {par : ParRef} :
    (recordProtocol init).Triple i (fun _ => True) (ParConsumptionProof.consume crypto par now)
      (fun claim => Consumed i claim.id) fun _ _ => True := by
  refine triple_claimRecord (c := id) triple_recordFindOne (fun _ => rfl) fun data h => ?_
  rw [Bool.or_eq_false_iff, Bool.or_eq_false_iff] at h
  exact ⟨by simpa [DocumentType.toData, Payload.available] using h.1.2, rfl⟩

variable {id : String}

theorem triple_consumePendingOAuthAuthorization :
    (recordProtocol init).Triple i (fun _ => True) (consumePendingOAuthAuthorization crypto id now)
      (fun r => Consumed i r.2.id) fun _ _ => True := by
  refine triple_claimRecord (triple_recordGet.weaken fun _ _ h => h.1)
    (fun _ => rfl) fun data h => ?_
  rw [Bool.or_eq_false_iff] at h
  exact ⟨by simpa [DocumentType.toData, Payload.available] using h.1, rfl⟩

variable {data data' : DeviceAuthRequestDoc}

/-- Only an approved request is redeemed, and it is consumed then. -/
theorem redeemDevice_spends {approval : StoredApproval}
    (h : redeemDevice now data = .ok (approval, data')) :
    data.status = .authorized ∧ data'.status = .consumed := by
  rw [redeemDevice] at h
  split at h
  · rename_i hstate
    split at h
    · cases h
    · cases h
      refine ⟨?_, rfl⟩
      rw [stateFromStored] at hstate
      split at hstate <;> first | assumption | cases hstate
  · cases h

theorem triple_tryConsumeDeviceAuth {deviceCodeHash : String} :
    (recordProtocol init).Triple i (fun _ => True) (tryConsumeDeviceAuth crypto deviceCodeHash)
      (fun r => Consumed i r.2.id) fun _ _ => True := by
  have hspend : ∀ {now data a data'}, redeemDevice now data = .ok (a, data') →
      (DocumentType.toData data : Payload).available = true ∧
      (DocumentType.toData data' : Payload).available = false := by
    intro now data a data' h
    obtain ⟨hold, hnew⟩ := redeemDevice_spends h
    simp [DocumentType.toData, Payload.available, hold, hnew]
  rw [recordProtocol_eq]
  refine (triple_ledgerRedeem (C := fun _ => True) (fun _ _ _ h => h)
    fun id now now' row data a data' hdata hd =>
      lasting_rewrite hdata (fun _ => (hspend hd).1) _ _).weaken fun r d h => ?_
  obtain ⟨now, now', row, data, data', -, hdata, hd, hmade⟩ := h
  exact consumed_of_made hmade hdata (hspend hd).1 (hspend hd).2

/-- Whoever deletes the nonce has it. -/
theorem triple_validateAndConsumeSignatureNonce [Digest] {nonce : String} :
    (recordProtocol init).Triple i (fun _ => True) (validateAndConsumeSignatureNonce nonce now)
      (fun claim => GaveUp (Usable .signatureNonce) i claim.id) fun _ _ => True := by
  refine .bind (R := fun won d => won = true →
      GaveUp (Usable .signatureNonce) i (deterministicSignatureNonceId nonce) d)
    (.mapError (triple_deleteIfNotExpired stable_true (fun _ => .imp (stable_gaveUp _ _) _)
      (fun _ _ h => nomatch h) ?_)) fun won => ?_
  · intro t old hinv _ _ hw hold _
    obtain ⟨hi, he, hmade⟩ := ledger_commit hinv hw hold (fun _ h => nomatch h)
      fun _ _ => not_available_none
    exact ⟨hi, he, fun _ => gaveUp_of_made (A := Usable .signatureNonce) hmade rfl
      Bool.false_ne_true⟩
  · cases won with
    | false => exact .fail
    | true => exact .pure (stable_gaveUp _ _) fun d h => h rfl

/-- A decision on a device authorization request that only touches pending ones. -/
theorem triple_decideDeviceAuth {operation : String}
    {decision : Timestamp → DeviceAuthRequestDoc →
      Except DeviceAuthStatus (Unit × DeviceAuthRequestDoc)}
    (hpending : ∀ now data a data', decision now data = .ok (a, data') → data.status = .pending) :
    (recordProtocol init).Follows i (decideDeviceAuth crypto operation id decision) := by
  rw [recordProtocol_eq]
  refine ((triple_ledgerDecide (C := fun _ => True) (fun _ _ _ h => h)
    fun now now' row data a data' hdata hd => lasting_rewrite hdata (fun _ => ?_) _ _).follows)
  simp [DocumentType.toData, Payload.available, hpending now data a data' hd]

variable {clientId : String}

theorem triple_extendParExpiration {requestUri : String} {newTtl : Int} :
    (recordProtocol init).Follows i (extendParExpiration crypto requestUri clientId newTtl) := by
  refine .bind triple_recordFindOne fun r => ?_
  cases r with
  | none => exact .done
  | some doc =>
    simp only
    split
    · exact .done
    · have hfound := stable_found (i := i) (P := recordProtocol init) recordProtocol_versioned
        (some doc)
      refine .bind (.now hfound (fun _ => hfound) fun _ _ _ h => h) fun now => ?_
      split
      · exact .fail
      · refine .bind (R := fun _ _ => True) (Triple.mono (triple_recordWrite ?_)
          (fun d h => h doc rfl) (fun _ _ _ => trivial) fun _ _ h => h) fun _ => ?_
        · exact fun h => h
        · exact .done

theorem triple_updateDeviceAuthPollTime {intervalSeconds : Int} :
    (recordProtocol init).Follows i (updateDeviceAuthPollTime crypto id intervalSeconds now) := by
  rw [recordProtocol_eq]
  refine triple_ledgerPoll fun row now' data hdata => lasting_rewrite hdata ?_ _ _
  exact fun h => h

/-- Detaching an authenticator leaves no request available that was not. -/
theorem detachAuthenticator_available {d : DeviceAuthRequestDoc}
    (h : (DocumentType.toData (detachAuthenticatorFromDeviceAuth d) : Payload).available = true) :
    (DocumentType.toData d : Payload).available = true := by
  by_cases hs : d.status = .authorized
  · simp [DocumentType.toData, Payload.available, hs]
  · simpa [DocumentType.toData, Payload.available, detachAuthenticatorFromDeviceAuth, hs] using h

omit [DecidableEq ι] in
theorem Lasting.trans {old : Option (Row Payload)} {cur new : Row Payload}
    (h : Lasting i id (some cur) (some new)) (hold : Lasting i id old (some cur)) :
    Lasting i id old (some new) :=
  fun hs ha => h rfl (hold hs ha)

omit [DecidableEq ι] in
theorem lasting_none (id : String) (old : Option (Row Payload)) : Lasting i id old none :=
  fun _ _ => not_available_none

theorem triple_deleteAuthenticator {authenticatorId : String} :
    (recordProtocol init).Follows i (withDsqlRetry StoreError.isRetryableDbError do
        Sql.begin
        deleteAuthenticator crypto authenticatorId
        Sql.commit) := by
  have hlast : ∀ k (cur : Row Payload) data now, DocumentType.fromData cur.data = some data →
      Lasting i k (some cur) (some (rewriteRow crypto (detachAuthenticatorFromDeviceAuth data) now
        (nextVersion cur.version) cur)) :=
    fun k cur data now hdata => lasting_rewrite hdata detachAuthenticator_available now _
  rw [recordProtocol_eq]
  exact triple_ledgerDeleteAuthenticator (C := fun _ => True)
    (fun _ _ _ h => h) hlast
    (fun k _ cur data now hdata => (hlast k cur data now hdata).trans) lasting_none

theorem triple_recordDelete : (recordProtocol init).Follows i (DocumentStore.delete id) := by
  rw [recordProtocol_eq]
  exact triple_ledgerDelete (C := fun _ => True) (fun _ _ _ h => h) (lasting_none id)

theorem triple_recordSweep {docType : String} :
    (recordProtocol init).Follows i (DocumentStore.deleteExpired docType) := by
  rw [recordProtocol_eq]
  exact triple_ledgerSweep (C := fun _ => True) (fun _ _ _ h => h) lasting_none

theorem triple_createPushedAuthorizationRequest {params : CreateParParams} :
    (recordProtocol init).Follows i (createPushedAuthorizationRequest crypto params) := by
  refine .bind (.newId stable_true) fun random => ?_
  refine .bind (.now stable_true (fun _ => stable_true) fun _ _ _ h => h) fun now => ?_
  split
  · exact .fail
  · exact .bind triple_recordInsert fun _ => .done

theorem triple_createPendingOAuthAuthorization {params : CreatePendingOAuthParams} :
    (recordProtocol init).Follows i (createPendingOAuthAuthorization crypto params) := by
  refine .bind (.now stable_true (fun _ => stable_true) fun _ _ _ h => h) fun now => ?_
  split
  · exact .fail
  · exact .bind triple_recordInsert fun _ => .done

theorem triple_generateSignatureNonce [Digest] {validitySeconds : Int} :
    (recordProtocol init).Follows i (generateSignatureNonce crypto validitySeconds) := by
  refine .bind (.newId stable_true) fun nonce => ?_
  refine .bind (.now stable_true (fun _ => stable_true) fun _ _ _ h => h) fun now => ?_
  split
  · exact .fail
  · exact .bind triple_recordInsertWithId fun _ => .done

theorem approveDevice_pending {params : AuthorizeDeviceAuthParams} {a : Unit}
    (h : approveDevice params now data = .ok (a, data')) : data.status = .pending := by
  by_contra hs
  rw [approveDevice, if_pos hs] at h
  cases h

theorem refuseDevice_pending {a : Unit} (h : refuseDevice now data = .ok (a, data')) :
    data.status = .pending := by
  by_contra hs
  rw [refuseDevice, if_pos hs] at h
  cases h

/-- What a call leaves behind when it returns: a witness stands for a record the call itself has
used up. -/
def Settled (i : ι) (call : RecordCall) :
    Except ClaimError call.Result → Durable ι String (Row Payload) Timestamp → Prop
  | .ok r, d => ∀ kind claim, call.witness r = some (kind, claim) →
      GaveUp (Usable kind) i claim.id d
  | .error _, _ => True

theorem triple_recordCall [Digest] (call : RecordCall) :
    (recordProtocol init).Triple i (fun _ => True) (call.run crypto)
      (fun r => Settled i call (.ok r)) fun e => Settled i call (.error e) := by
  -- A call that is not a consume returns no witness.
  have hbenign : ∀ {x : ExceptT StoreError (DbM Payload) call.Result},
      (∀ r, call.witness r = none) →
      (recordProtocol init).Follows i x →
      (recordProtocol init).Triple i (fun _ => True) (mapError ClaimError.database x)
        (fun r => Settled i call (.ok r)) fun e => Settled i call (.error e) := by
    intro x hw hx
    refine .mapError (hx.weaken fun r d _ kind claim h => ?_)
    rw [hw r] at h
    cases h
  -- A consume returns a witness for what it has used up.
  have hconsume : ∀ {x : ExceptT ClaimError (DbM Payload) call.Result} {kind : RecordKind}
      {c : call.Result → RecordClaim}, (∀ r, call.witness r = some (kind, c r)) →
      (recordProtocol init).Triple i (fun _ => True) x (fun r => GaveUp (Usable kind) i (c r).id)
        (fun _ _ => True) →
      (recordProtocol init).Triple i (fun _ => True) x
        (fun r => Settled i call (.ok r)) fun e => Settled i call (.error e) := by
    intro x kind c hw hx
    refine hx.weaken fun r d h kind' claim hclaim => ?_
    cases (hw r).symm.trans hclaim
    exact h
  cases call with
  | tryConsumeAuthorizationCode codeHash now =>
    exact hconsume (fun _ => rfl) triple_tryConsumeAuthorizationCode
  | tryConsumeOidcState state now => exact hconsume (fun _ => rfl) triple_tryConsumeOidcState
  | consumePushedAuthorizationRequest par now =>
    exact hconsume (fun _ => rfl) triple_consumePushedAuthorizationRequest
  | consumePendingOAuthAuthorization id now =>
    exact hconsume (fun _ => rfl) triple_consumePendingOAuthAuthorization
  | tryConsumeDeviceAuth deviceCodeHash =>
    exact hconsume (fun _ => rfl) triple_tryConsumeDeviceAuth
  | validateAndConsumeSignatureNonce nonce now =>
    exact hconsume (fun _ => rfl) triple_validateAndConsumeSignatureNonce
  | storeAuthorizationCode a b c e f =>
    exact hbenign (fun _ => rfl) (.bind triple_recordInsert fun _ => .done)
  | createOidcState a b c e f g =>
    exact hbenign (fun _ => rfl) (.bind triple_recordInsert fun _ => .done)
  | createPushedAuthorizationRequest params =>
    exact hbenign (fun _ => rfl) triple_createPushedAuthorizationRequest
  | createPendingOAuthAuthorization params =>
    exact hbenign (fun _ => rfl) triple_createPendingOAuthAuthorization
  | createDeviceAuthRequest a b c e f =>
    exact hbenign (fun _ => rfl) (.bind triple_recordInsert fun _ => .done)
  | generateSignatureNonce validitySeconds =>
    exact hbenign (fun _ => rfl) triple_generateSignatureNonce
  | extendParExpiration requestUri clientId newTtl =>
    exact hbenign (fun _ => rfl) triple_extendParExpiration
  | authorizeDeviceAuth params =>
    exact hbenign (fun _ => rfl) (triple_decideDeviceAuth fun _ _ _ _ => approveDevice_pending)
  | denyDeviceAuth id =>
    exact hbenign (fun _ => rfl) (triple_decideDeviceAuth fun _ _ _ _ => refuseDevice_pending)
  | updateDeviceAuthPollTime id intervalSeconds now =>
    exact hbenign (fun _ => rfl) triple_updateDeviceAuthPollTime
  | deleteAuthenticator authenticatorId =>
    exact hbenign (fun _ => rfl) triple_deleteAuthenticator
  | delete id => exact hbenign (fun _ => rfl) triple_recordDelete
  | deleteExpired docType => exact hbenign (fun _ => rfl) triple_recordSweep

end Calls

end Records

/-! ## The system -/

section System

variable {ι : Type} [DecidableEq ι] [Digest]

/-- The callers, before any of them has done anything. -/
def recordSystem (crypto : DocumentCrypto) (calls : ι → RecordCall)
    (init : Table String (Row Payload)) (clock : Timestamp) :
    Config ι (Stmt String (Row Payload)) (Stmt.Res Timestamp)
      (fun i => Except ClaimError (calls i).Result) (Db ι String (Row Payload) Timestamp) where
  threads i := (calls i).run crypto
  shared := { committed := init, log := [], clock := clock, pending := ∅, reads := fun _ => [] }

variable {crypto : DocumentCrypto} {calls : ι → RecordCall} {init : Table String (Row Payload)}
  {clock : Timestamp}
  {q : Config ι (Stmt String (Row Payload)) (Stmt.Res Timestamp)
    (fun i => Except ClaimError (calls i).Result) (DbState ι Payload)}

omit [Digest] in
/-- A record of any kind is used up once. -/
theorem Ledger.gaveUp_unique {d : DbDurable ι Payload} (h : Ledger init Lasting d)
    {kind : RecordKind} {id : String} {i j : ι} (hi : GaveUp (Usable kind) i id d)
    (hj : GaveUp (Usable kind) j id d) : i = j := by
  obtain ⟨c, hc, hid, hflip⟩ := hi
  obtain ⟨c', hc', hid', hflip'⟩ := hj
  obtain ⟨hlog, rfl⟩ := mem_changesBy.mp hc
  obtain ⟨hlog', rfl⟩ := mem_changesBy.mp hc'
  refine congrArg Change.owner (h.toVersionedLog.flip_unique (not_usable_none kind) (h.linked id)
    (fun e he _ hsome hna => ?_) hlog hid hlog' hid' hflip hflip')
  cases kind with
  | signatureNonce => exact absurd hsome hna
  | _ => exact h.allowed e he hsome hna

/-- **Consume once.**  However consumers, creators, benign writers and sweeps interleave, two calls
that return a witness for the same record are the same call. -/
theorem consume_once
    (hrun : Reaches (fun i => exec i) (fun _ o s => VersionsInRange s ∧ NotReinserted o s)
      (recordSystem crypto calls init clock) q)
    {i j : ι} {ri : (calls i).Result} {rj : (calls j).Result}
    (hi : q.threads i = .ret (.ok ri)) (hj : q.threads j = .ret (.ok rj))
    {record : RecordKind × RecordClaim} (hri : (calls i).witness ri = some record)
    (hrj : (calls j).witness rj = some record) : i = j := by
  obtain ⟨hledger, hgave, -⟩ := (recordProtocol init).reaches_spec hrun (Ledger.start clock)
    (fun i => triple_recordCall (calls i)) (fun _ => rfl) fun _ => trivial
  exact Ledger.gaveUp_unique hledger (hgave i ri hi _ _ hri) (hgave j rj hj _ _ hrj)

end System

/-! ### Runs -/

/-- A pushed request that has not been consumed. -/
def somePushedRequest : PushedAuthorizationRequestDoc where
  requestUri := "urn:ietf:params:oauth:request_uri:r"
  clientId := "client"
  responseType := "code"
  redirectUri := "https://client.example/cb"
  scope := none
  state := none
  nonce := none
  codeChallenge := none
  codeChallengeMethod := none
  resource := none
  acrValues := none
  maxAge := none
  prompt := none
  dpopJkt := none
  expiresAt := 60 * Timestamp.second
  consumedAt := none
  authorizationDetails := none
  responseMode := .query

/-- A store that holds the pushed request, at some version. -/
def pushedRequestStore (version : Int) : Table String (Row Payload) :=
  AList.insert "par" { newRow plainCrypto somePushedRequest 0 with version } ∅

/-- Two threads consume the request and a third extends its lifetime. -/
def pushedRequestCalls : Fin 3 → RecordCall
  | 0 => .consumePushedAuthorizationRequest
      ⟨"urn:ietf:params:oauth:request_uri:r", "client", .enforceExpiry⟩ 0
  | 1 => .extendParExpiration "urn:ietf:params:oauth:request_uri:r" "client" 600
  | 2 => .consumePushedAuthorizationRequest
      ⟨"urn:ietf:params:oauth:request_uri:r", "client", .enforceExpiry⟩ 0

section Run

/-- A digest for runs in which none is taken. -/
local instance plainDigest : Digest := ⟨id⟩

/-- Thread 2 reads first and writes last. -/
def pushedRequestRun (version : Int) (check : Stmt String (Row Payload) →
    Db (Fin 3) String (Row Payload) Timestamp → Bool) (between : List (Fin 3)) (last : Nat) :=
  (recordSystem plainCrypto pushedRequestCalls (pushedRequestStore version) 0).run (fun i => exec i)
    (fun _ o s => check o s)
    ((2 :: (between ++ List.replicate last 2)).map fun i => (i, ⟨none, 0, ""⟩))

/-- At the largest version a guarded write no longer moves it: two consumers that both read the
pushed request before either writes both get a witness for it. -/
theorem consumed_twice_at_max_version :
    ∃ q, Reaches (fun i => exec i) (fun _ o s => NotReinserted o s)
        (recordSystem plainCrypto pushedRequestCalls (pushedRequestStore maxVersion) 0) q ∧
      q.threads 0 = .ret (.ok ⟨"par"⟩) ∧ q.threads 2 = .ret (.ok ⟨"par"⟩) := by
  have hrun : ((pushedRequestRun maxVersion notReinserted (List.replicate 6 0) 5).map fun q =>
      ((q.threads 0).result?, (q.threads 2).result?)) =
      some (some (.ok ⟨"par"⟩), some (.ok ⟨"par"⟩)) := rfl
  obtain ⟨q, hreach, hres⟩ := exists_of_run (fun _ _ _ => NotReinserted.of_check) hrun
  simp only [Prod.mk.injEq, Prog.result?_eq_some] at hres
  exact ⟨q, hreach, hres.1, hres.2⟩

/-- The same race at the first version, with an extension in between: one consumer gets the witness,
and the other gets none. -/
theorem consume_once_pushed_request :
    ∃ q, Reaches (fun i => exec i) (fun _ o s => VersionsInRange s ∧ NotReinserted o s)
        (recordSystem plainCrypto pushedRequestCalls (pushedRequestStore 1) 0) q ∧
      q.threads 0 = .ret (.ok ⟨"par"⟩) ∧ (∃ r, q.threads 2 = .ret r) ∧
      q.threads 2 ≠ .ret (.ok ⟨"par"⟩) := by
  have hrun : ((pushedRequestRun 1 (fun o s => versionsInRange s && notReinserted o s)
      (List.replicate 7 1 ++ List.replicate 6 0) 4).map fun q =>
      ((q.threads 0).result?, (q.threads 2).result?)) =
      some (some (.ok ⟨"par"⟩), some (.error .alreadyConsumed)) := rfl
  obtain ⟨q, hreach, hres⟩ := exists_of_run (fun _ _ _ => regular_of_check) hrun
  simp only [Prod.mk.injEq, Prog.result?_eq_some] at hres
  refine ⟨q, hreach, hres.1, ⟨_, hres.2⟩, fun hclaim => ?_⟩
  have hsame : (0 : Fin 3) = 2 := consume_once hreach hres.1 hclaim rfl rfl
  exact absurd hsame (by decide)

end Run

end Vouch
