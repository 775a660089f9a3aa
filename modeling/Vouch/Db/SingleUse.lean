import Vouch.Db.Documents
import Vouch.Store.Store

/-!
# Single-use records

The operations on records that may be used once: authorization codes
(`db/authorization_codes.rs`), device codes and upstream login states (`db/device_auth.rs`), pushed
authorization requests (`db/par.rs`), pending OAuth authorizations (`db/pending_oauth.rs`) and
nonces of signed requests (`db/dpop.rs`).  Beside the consume operations there are the ones that
create the records and the benign writers: extending a pushed request, approving, denying and
polling a device code, and detaching a deleted authenticator from the approvals that rest on it.

Three mechanisms make the records single-use: a single compare-and-update of the version read, a
transition that decides again on every conflict, and a deletion whose row count says who won.

In the source a successful consume returns an opaque witness.  Here the witness is the id of the
record it stands for, so that results can say which record was consumed.
-/

namespace Vouch

open ReadCommitted Interleaving

/-- The instants a timestamp can hold end here (the last hours of the year 9999). -/
def maxTimestamp : Timestamp := 253402207200 * Timestamp.second + 999999999

/-- `checked_add` of a number of seconds. -/
def checkedAddSeconds (t : Timestamp) (n : Int) : Option Timestamp :=
  if t.addSeconds n ≤ maxTimestamp then some (t.addSeconds n) else none

/-- Why a claim on a single-use record failed. -/
inductive ClaimError
  | alreadyConsumed
  | invalidInput (text : String)
  | database (e : StoreError)
  deriving DecidableEq, Repr

/-- The witness of a successful claim, for the record with the given id. -/
structure RecordClaim where
  id : String
  deriving DecidableEq, Repr

variable (crypto : DocumentCrypto)

/-- Claim a record by a guarded write: look it up, refuse it if it may not be used, mark it as used
under the version read, and hand out the witness if the write wins.  A conflict means that somebody
else was faster. -/
def claimRecord {T α : Type} [DocumentType Payload T]
    (lookup : ExceptT StoreError (DbM Payload) (Option (Document T))) (refuse : T → Bool)
    (use : T → T) (result : Document T → α) : ExceptT ClaimError (DbM Payload) α := do
  match ← mapError .database lookup with
  | none => throw .alreadyConsumed
  | some doc =>
    if refuse doc.data then
      throw .alreadyConsumed
    else if ← mapError .database
        (DocumentStore.compareAndUpdate crypto doc.id doc.version (use doc.data)) then
      pure (result doc)
    else
      throw .alreadyConsumed

/-! ## Authorization codes -/

/-- Record an issued authorization code. -/
def storeAuthorizationCode (codeHash clientId userId : String) (expiresAt : Timestamp)
    (authorizationDetails : Option JsonValue) : ExceptT StoreError (DbM Payload) Unit := do
  let doc : AuthorizationCodeDoc :=
    { codeHash, clientId, userId, expiresAt, consumedAt := none, authorizationDetails }
  let _ ← DocumentStore.insert crypto doc
  pure ()

/-- Consume an authorization code. -/
def tryConsumeAuthorizationCode (codeHash : String) (now : Timestamp) :
    ExceptT ClaimError (DbM Payload) RecordClaim :=
  claimRecord crypto (DocumentStore.findOne crypto AuthorizationCodeDoc "code_hash" codeHash)
    (fun data => data.consumedAt.isSome || data.expiresAt ≤ now)
    (fun data => { data with consumedAt := some now })
    fun doc => ⟨doc.id⟩

/-! ## Upstream login states -/

/-- Record the state of a login at an upstream provider. -/
def createOidcState (state : String) (deviceAuthId : Option String) (nonce codeVerifier : String)
    (expiresAt : Timestamp) (providerId : String) : ExceptT StoreError (DbM Payload) String := do
  let doc : OidcStateDoc :=
    { state, deviceAuthId := deviceAuthId.getD "", nonce, codeVerifier, expiresAt, providerId,
      consumedAt := none }
  let result ← DocumentStore.insert crypto doc
  pure result.id

/-- What a consumed login state tells the caller. -/
structure OidcState where
  id : String
  state : String
  deviceAuthId : Option String
  nonce : String
  codeVerifier : String
  expiresAt : Timestamp
  providerId : String
  deriving DecidableEq

/-- An empty stored id means that there is none. -/
def storedDeviceAuthId (stored : String) : Option String :=
  if stored.isEmpty then none else some stored

/-- Consume a login state. -/
def tryConsumeOidcState (state : String) (now : Timestamp) :
    ExceptT ClaimError (DbM Payload) (OidcState × RecordClaim) :=
  claimRecord crypto (DocumentStore.findOne crypto OidcStateDoc "state" state)
    (fun data => data.consumedAt.isSome || data.expiresAt ≤ now)
    (fun data => { data with consumedAt := some now })
    fun doc =>
      ({ id := doc.id, state := doc.data.state,
         deviceAuthId := storedDeviceAuthId doc.data.deviceAuthId, nonce := doc.data.nonce,
         codeVerifier := doc.data.codeVerifier, expiresAt := doc.data.expiresAt,
         providerId := doc.data.providerId }, ⟨doc.id⟩)

/-! ## Pushed authorization requests -/

/-- The lifetime of a pushed authorization request, in seconds. -/
def parExpiresIn : Int := 60

/-- The parameters of a pushed authorization request. -/
structure CreateParParams where
  clientId : String
  responseType : String
  redirectUri : String
  scope : Option String
  state : Option String
  nonce : Option String
  codeChallenge : Option String
  codeChallengeMethod : Option String
  resource : Option String
  acrValues : Option String
  maxAge : Option Int
  prompt : Option String
  dpopJkt : Option String
  authorizationDetails : Option JsonValue
  responseMode : ResponseMode

/-- What is stored of a request that is pushed. -/
def CreateParParams.document (params : CreateParParams) (requestUri : String)
    (expiresAt : Timestamp) : PushedAuthorizationRequestDoc :=
  { requestUri, clientId := params.clientId, responseType := params.responseType,
    redirectUri := params.redirectUri, scope := params.scope, state := params.state,
    nonce := params.nonce, codeChallenge := params.codeChallenge,
    codeChallengeMethod := params.codeChallengeMethod, resource := params.resource,
    acrValues := params.acrValues, maxAge := params.maxAge, prompt := params.prompt,
    dpopJkt := params.dpopJkt, expiresAt, consumedAt := none,
    authorizationDetails := params.authorizationDetails, responseMode := params.responseMode }

/-- What a request URI starts with. -/
def requestUriUrn : String := "urn:ietf:params:oauth:request_uri:"

/-- Store a pushed authorization request under a random URI. -/
def createPushedAuthorizationRequest (params : CreateParParams) :
    ExceptT StoreError (DbM Payload) (String × String) := do
  let random ← Sql.newId
  let requestUri := requestUriUrn ++ random
  let now ← Sql.now
  match checkedAddSeconds now parExpiresIn with
  | none => throw (.message "Time calculation overflow computing PAR expiration")
  | some expiresAt =>
    let result ← DocumentStore.insert crypto (params.document requestUri expiresAt)
    pure (result.id, requestUri)

/-- Whether a pushed request's lifetime still counts when it is consumed. -/
inductive ParConsumptionMode
  | enforceExpiry
  | skipExpiry
  deriving DecidableEq, Repr

/-- The pushed request an authorization completes. -/
structure ParRef where
  requestUri : String
  clientId : String
  mode : ParConsumptionMode

/-- Consume a pushed authorization request (`ParConsumptionProof::consume`). -/
def ParConsumptionProof.consume (par : ParRef) (now : Timestamp) :
    ExceptT ClaimError (DbM Payload) RecordClaim :=
  claimRecord crypto
    (DocumentStore.findOne crypto PushedAuthorizationRequestDoc "request_uri" par.requestUri)
    (fun data => data.clientId ≠ par.clientId || data.consumedAt.isSome ||
      (par.mode = .enforceExpiry && data.expiresAt ≤ now))
    (fun data => { data with consumedAt := some now })
    fun doc => ⟨doc.id⟩

/-- Extend the lifetime of a pushed authorization request; a conflict is ignored. -/
def extendParExpiration (requestUri clientId : String) (newTtl : Int) :
    ExceptT StoreError (DbM Payload) Unit := do
  match ← DocumentStore.findOne crypto PushedAuthorizationRequestDoc "request_uri" requestUri with
  | none => pure ()
  | some doc =>
    if doc.data.clientId ≠ clientId || doc.data.consumedAt.isSome then
      pure ()
    else
      let now ← Sql.now
      match checkedAddSeconds now newTtl with
      | none => throw (.message "Time calculation overflow extending PAR expiration")
      | some newExpiresAt =>
        let data := { doc.data with expiresAt := newExpiresAt }
        let _ ← DocumentStore.compareAndUpdate crypto doc.id doc.version data
        pure ()

/-! ## Pending OAuth authorizations -/

/-- The parameters of a pending OAuth authorization. -/
structure CreatePendingOAuthParams where
  clientId : String
  redirectUri : String
  responseType : String
  state : Option String
  scope : Option String
  nonce : Option String
  codeChallenge : Option String
  codeChallengeMethod : Option String
  resource : Option String
  acrValues : Option String
  maxAge : Option Int
  prompt : Option String
  dpopJkt : Option String
  authorizationDetails : Option JsonValue
  responseMode : ResponseMode
  parRequestUri : Option String

/-- What is stored of a request that waits for a login. -/
def CreatePendingOAuthParams.document (params : CreatePendingOAuthParams) (expiresAt : Timestamp) :
    PendingOAuthAuthDoc :=
  { clientId := params.clientId, redirectUri := params.redirectUri,
    responseType := params.responseType, state := params.state, scope := params.scope,
    nonce := params.nonce, codeChallenge := params.codeChallenge,
    codeChallengeMethod := params.codeChallengeMethod, expiresAt, consumedAt := none,
    resource := params.resource, acrValues := params.acrValues, maxAge := params.maxAge,
    prompt := params.prompt, dpopJkt := params.dpopJkt,
    authorizationDetails := params.authorizationDetails, responseMode := params.responseMode,
    parRequestUri := params.parRequestUri }

/-- Store a pending OAuth authorization, resumable for ten minutes. -/
def createPendingOAuthAuthorization (params : CreatePendingOAuthParams) :
    ExceptT StoreError (DbM Payload) String := do
  let now ← Sql.now
  match checkedAddSeconds now 600 with
  | none => throw (.message "Time calculation overflow computing expiration")
  | some expiresAt =>
    let result ← DocumentStore.insert crypto (params.document expiresAt)
    pure result.id

/-- Consume a pending OAuth authorization. -/
def consumePendingOAuthAuthorization (id : String) (now : Timestamp) :
    ExceptT ClaimError (DbM Payload) (PendingOAuthAuthDoc × RecordClaim) :=
  claimRecord crypto (DocumentStore.get PendingOAuthAuthDoc id)
    (fun data => data.consumedAt.isSome || data.expiresAt ≤ now)
    (fun data => { data with consumedAt := some now })
    fun doc => ({ doc.data with consumedAt := some now }, ⟨doc.id⟩)

/-! ## Device authorization requests -/

/-- Whether a WebAuthn ceremony stands behind an approval, and when it took place. -/
inductive HardwareVerification
  | verified (authTime : Option Timestamp)
  | notVerified
  deriving DecidableEq

/-- Whether there was a ceremony. -/
def HardwareVerification.hardwareVerified : HardwareVerification → Bool
  | verified _ => true
  | notVerified => false

/-- When it took place. -/
def HardwareVerification.authenticatedAt : HardwareVerification → Option Timestamp
  | verified authTime => authTime
  | notVerified => none

/-- What the approving browser observed. -/
inductive DeviceApproval
  | observed (authTime : Timestamp)
  | notVerified
  deriving DecidableEq

/-- What is recorded of an approval. -/
def DeviceApproval.toHardwareVerification : DeviceApproval → HardwareVerification
  | observed authTime => .verified (some authTime)
  | notVerified => .notVerified

/-- The approval a device code is redeemed on. -/
structure StoredApproval where
  userId : String
  userEmail : String
  authenticatorId : String
  verification : HardwareVerification
  deriving DecidableEq

/-- The state of a device authorization request as its consumers see it. -/
inductive DeviceAuthState
  | pending
  | authorized (approval : StoredApproval)
  | denied
  | consumed (userId : Option String)
  deriving DecidableEq

/-- The state a stored request stands for.  An approval that lost its authenticator reads as
denied. -/
def stateFromStored (data : DeviceAuthRequestDoc) : DeviceAuthState :=
  match data.status with
  | .pending => .pending
  | .denied => .denied
  | .authorized =>
    match data.userId, data.userEmail, data.authenticatorId with
    | some userId, some userEmail, some authenticatorId =>
      .authorized { userId, userEmail, authenticatorId,
                    verification := if data.hardwareVerified then .verified data.authenticatedAt
                      else .notVerified }
    | _, _, _ => .denied
  | .consumed => .consumed data.userId

/-- Store a device authorization request. -/
def createDeviceAuthRequest (deviceCodeHash userCode clientId : String) (expiresAt : Timestamp)
    (intervalSeconds : Int) : ExceptT StoreError (DbM Payload) String := do
  let doc : DeviceAuthRequestDoc :=
    { deviceCodeHash, userCode, status := .pending, clientId := some clientId, userId := none,
      userEmail := none, authenticatorId := none, hardwareVerified := false,
      authenticatedAt := none, expiresAt, intervalSeconds, lastPollAt := none, consumedAt := none }
  let result ← DocumentStore.insert crypto doc
  pure result.id

/-- Who approves a device authorization request, and on what evidence. -/
structure AuthorizeDeviceAuthParams where
  id : String
  userId : String
  userEmail : String
  authenticatorId : String
  verification : DeviceApproval

/-- The decision of `authorizeDeviceAuth`: only a pending request that has not expired. -/
def approveDevice (params : AuthorizeDeviceAuthParams) (now : Timestamp)
    (data : DeviceAuthRequestDoc) : Except DeviceAuthStatus (Unit × DeviceAuthRequestDoc) :=
  if data.status ≠ .pending then .error data.status
  else if data.expiresAt ≤ now then .error data.status
  else
    let hw := params.verification.toHardwareVerification
    .ok ((), { data with
      status := .authorized, userId := some params.userId, userEmail := some params.userEmail,
      authenticatorId := some params.authenticatorId, hardwareVerified := hw.hardwareVerified,
      authenticatedAt := hw.authenticatedAt })

/-- The name of a status in an error text. -/
def DeviceAuthStatus.debugName : DeviceAuthStatus → String
  | .pending => "Pending"
  | .authorized => "Authorized"
  | .denied => "Denied"
  | .consumed => "Consumed"

/-- Decide on a device authorization request in a transition, and report how it went in the name of
the operation. -/
def decideDeviceAuth (operation id : String)
    (decision : Timestamp → DeviceAuthRequestDoc →
      Except DeviceAuthStatus (Unit × DeviceAuthRequestDoc)) :
    ExceptT StoreError (DbM Payload) Unit := do
  if id.isEmpty then
    throw (.message s!"{operation} called with empty id")
  else
    let conflict : StoreError := .message
      s!"{operation}: device auth request '{id}' was concurrently modified after retries"
    match ← mapError (fun _ => conflict) (DocumentStore.transition crypto id decision) with
    | .applied () => pure ()
    | .rejected status =>
      let name := status.debugName
      throw (.message s!"{operation}: device auth request '{id}' already has status '{name}'")
    | .notFound => throw (.message s!"{operation}: no device auth request found with id '{id}'")

/-- Approve a device authorization request. -/
def authorizeDeviceAuth (params : AuthorizeDeviceAuthParams) :
    ExceptT StoreError (DbM Payload) Unit :=
  decideDeviceAuth crypto "authorize_device_auth" params.id (approveDevice params)

/-- The decision of `denyDeviceAuth`: only a pending request. -/
def refuseDevice (_now : Timestamp) (data : DeviceAuthRequestDoc) :
    Except DeviceAuthStatus (Unit × DeviceAuthRequestDoc) :=
  if data.status ≠ .pending then .error data.status else .ok ((), { data with status := .denied })

/-- Deny a device authorization request. -/
def denyDeviceAuth (id : String) : ExceptT StoreError (DbM Payload) Unit :=
  decideDeviceAuth crypto "deny_device_auth" id refuseDevice

/-- The decision of `tryConsumeDeviceAuth`: only a redeemable approval that has not expired. -/
def redeemDevice (now : Timestamp) (data : DeviceAuthRequestDoc) :
    Except Unit (StoredApproval × DeviceAuthRequestDoc) :=
  match stateFromStored data with
  | .authorized approval =>
    if data.expiresAt ≤ now then .error ()
    else .ok (approval, { data with status := .consumed, consumedAt := some now })
  | _ => .error ()

/-- Consume an approved device code. -/
def tryConsumeDeviceAuth (deviceCodeHash : String) :
    ExceptT ClaimError (DbM Payload) (StoredApproval × RecordClaim) := do
  match ← mapError .database
      (DocumentStore.findOne crypto DeviceAuthRequestDoc "device_code_hash" deviceCodeHash) with
  | none => throw .alreadyConsumed
  | some doc =>
    let now ← Sql.now
    match stateFromStored doc.data with
    | .authorized _ =>
      if doc.data.expiresAt ≤ now then
        throw .alreadyConsumed
      else
        match ← mapError .database (DocumentStore.transition crypto doc.id redeemDevice) with
        | .applied approval => pure (approval, ⟨doc.id⟩)
        | .rejected () => throw .alreadyConsumed
        | .notFound => throw .alreadyConsumed
    | _ => throw .alreadyConsumed

/-- Whether a poll comes before its interval is over. -/
def pollTooSoon (lastPollAt : Option Timestamp) (intervalSeconds : Int) (now : Timestamp) : Bool :=
  match lastPollAt with
  | some lastPoll => now - lastPoll < intervalSeconds * Timestamp.second
  | none => false

/-- Record a poll of a device code; `false` when it came too soon.  A conflict is ignored. -/
def updateDeviceAuthPollTime (id : String) (intervalSeconds : Int) (now : Timestamp) :
    ExceptT StoreError (DbM Payload) Bool := do
  match ← DocumentStore.get DeviceAuthRequestDoc id with
  | none => pure false
  | some doc =>
    if pollTooSoon doc.data.lastPollAt intervalSeconds now then
      pure false
    else
      let data := { doc.data with lastPollAt := some now }
      let _ ← DocumentStore.compareAndUpdate crypto id doc.version data
      pure true

/-- Delete the device authorization requests that have expired, after the login states. -/
def deleteExpiredDeviceAuthRequests : ExceptT StoreError (DbM Payload) Nat := do
  let _ ← DocumentStore.deleteExpired (DocumentType.docType OidcStateDoc)
  DocumentStore.deleteExpired (DocumentType.docType DeviceAuthRequestDoc)

/-! ## Nonces of signed requests -/

/-- The id of a nonce of one kind. -/
def deterministicNonceId [Digest] (domain nonce : String) : String :=
  Digest.sha256Hex (domain ++ "\x00" ++ nonce)

/-- The id of a nonce for signed requests. -/
def deterministicSignatureNonceId [Digest] (nonce : String) : String :=
  deterministicNonceId "signature_nonce" nonce

/-- Issue a nonce for signed requests. -/
def generateSignatureNonce [Digest] (validitySeconds : Int) :
    ExceptT StoreError (DbM Payload) String := do
  let nonce ← Sql.newId
  let now ← Sql.now
  match checkedAddSeconds now validitySeconds with
  | none => throw (.message "nonce expiry timestamp overflow")
  | some expiresAt =>
    let doc : SignatureNonceDoc := { nonce, expiresAt }
    let _ ← DocumentStore.insertWithId crypto (deterministicSignatureNonceId nonce) doc
    pure nonce

/-- Consume a nonce of a signed request: whoever deletes its row has it. -/
def validateAndConsumeSignatureNonce [Digest] (nonce : String) (now : Timestamp) :
    ExceptT ClaimError (DbM Payload) RecordClaim := do
  let id := deterministicSignatureNonceId nonce
  if ← mapError .database (DocumentStore.deleteIfNotExpired id now) then
    pure ⟨id⟩
  else
    throw .alreadyConsumed

/-! ## Deleting an authenticator -/

/-- Void an approval that rests on a deleted authenticator; consumed requests keep their
attribution. -/
def detachAuthenticatorFromDeviceAuth (d : DeviceAuthRequestDoc) : DeviceAuthRequestDoc :=
  { d with
    authenticatorId := none
    status := if d.status = .authorized then .denied else d.status }

/-- Delete an authenticator inside a transaction, with what refers to it. -/
def deleteAuthenticator (authenticatorId : String) : ExceptT StoreError (DbM Payload) Unit := do
  let _ ← StoreTransaction.updateByIndex crypto "authenticator_id" authenticatorId
    detachAuthenticatorFromDeviceAuth
  let _ ← StoreTransaction.deleteByIndex crypto SessionDoc "authenticator_id" authenticatorId
  let _ ← StoreTransaction.delete authenticatorId
  pure ()

end Vouch
