import Vouch.Auth.Webauthn
import Vouch.Db.SingleUse

/-!
# Authenticators, and logging in with one

What the server does with registered security keys: creating, renaming and deleting them
(`db/authenticators.rs`), and the two steps every login goes through — looking up the key and its
owner, then verifying the assertion and committing its signature counter (`services/auth.rs`).  The
browser login and the FIDO2 grant both run these two steps; `login` is what they have in common.

A counter is compared as an unsigned number although its bits are stored in a signed column.
-/

namespace Vouch

open ReadCommitted Interleaving

variable (lib : WebauthnLibrary) (crypto : DocumentCrypto)

/-! ## The stored keys -/

/-- The parameters of a new authenticator. -/
structure CreateAuthenticatorParams where
  userId : String
  name : String
  credentialId : List UInt8
  publicKey : List UInt8
  aaguid : Option String
  userHandle : Option (List UInt8)
  attestationVerified : Bool
  /-- The counter reported at registration. -/
  counter : UInt32

/-- Store a new authenticator. -/
def createAuthenticator (params : CreateAuthenticatorParams) :
    ExceptT StoreError (DbM Payload) String := do
  let doc : AuthenticatorDoc :=
    { userId := params.userId, name := params.name,
      credentialId := lib.encodeBase64Url params.credentialId,
      publicKey := lib.encodeBase64Url params.publicKey, counter := params.counter.toInt32,
      aaguid := params.aaguid, userHandle := params.userHandle.map lib.encodeBase64Url,
      attestationVerified := params.attestationVerified }
  let result ← DocumentStore.insert crypto doc
  pure result.id

/-- An authenticator as its readers see it. -/
structure Authenticator where
  id : String
  userId : String
  name : String
  credentialId : List UInt8
  publicKey : List UInt8
  counter : Int32
  createdAt : Timestamp
  aaguid : Option String
  userHandle : Option (List UInt8)
  attestationVerified : Bool

/-- Read base64, or say which field does not hold any. -/
def decodeField (text field : String) : Except StoreError (List UInt8) :=
  match lib.decodeBase64Url text with
  | some bytes => .ok bytes
  | none => .error (.message s!"invalid base64 in {field}")

/-- The authenticator a document stores. -/
def Authenticator.tryFrom (doc : Document AuthenticatorDoc) : Except StoreError Authenticator := do
  let credentialId ← decodeField lib doc.data.credentialId "credential_id"
  let publicKey ← decodeField lib doc.data.publicKey "public_key"
  let userHandle ← doc.data.userHandle.mapM fun h => decodeField lib h "user_handle"
  .ok { id := doc.id, userId := doc.data.userId, name := doc.data.name, credentialId, publicKey,
        counter := doc.data.counter, createdAt := doc.createdAt, aaguid := doc.data.aaguid,
        userHandle, attestationVerified := doc.data.attestationVerified }

/-- Look up an authenticator and the user it belongs to; `none` if either is missing. -/
def getAuthenticatorWithUserByCredentialId [Digest] (credentialId : List UInt8) :
    ExceptT StoreError (DbM Payload) (Option (Authenticator × Document UserDoc)) := do
  let encoded := lib.encodeBase64Url credentialId
  match ← DocumentStore.findOne crypto AuthenticatorDoc "credential_id" encoded with
  | none => pure none
  | some doc =>
    let authenticator ← orThrow (Authenticator.tryFrom lib doc)
    match ← DocumentStore.get UserDoc doc.data.userId with
    | none => pure none
    | some user => pure (some (authenticator, user))

/-- What committing a counter found. -/
inductive CounterCommit
  | committed
  /-- Another assertion with the same or a higher counter was first. -/
  | notIncreasing
  | keyDeleted
  deriving DecidableEq, Repr

/-- The decision of `commitAuthenticatorCounter`: the verifier's rule, against the row it writes. -/
def advanceCounter (presented : UInt32) (_now : Timestamp) (data : AuthenticatorDoc) :
    Except Unit (Unit × AuthenticatorDoc) :=
  if SignCounter.admits ⟨data.counter.toUInt32⟩ presented then
    .ok ((), { data with counter := presented.toInt32 })
  else
    .error ()

/-- Store the counter that a verified assertion reported. -/
def commitAuthenticatorCounter (authenticatorId : String) (presented : UInt32) :
    ExceptT StoreError (DbM Payload) CounterCommit := do
  match ← DocumentStore.transition crypto authenticatorId (advanceCounter presented) with
  | .applied () => pure .committed
  | .rejected () => pure .notIncreasing
  | .notFound => pure .keyDeleted

/-- Rename an authenticator. -/
def updateAuthenticatorName (authenticatorId name : String) :
    ExceptT StoreError (DbM Payload) Bool :=
  DocumentStore.modify crypto authenticatorId fun data : AuthenticatorDoc => { data with name }

/-! ## Logging in -/

/-- Why no authenticator was found for a login. -/
inductive LookupError
  | notFound (entity : String)
  | userMismatch (authenticatorId : String)
  | deactivated (authenticatorId email : String)
  | service (e : StoreError)
  deriving DecidableEq, Repr

/-- Look up an authenticator and check that it belongs to an active user, the one who claims it. -/
def lookupAndVerifyAuthenticator [Digest] (credentialId : List UInt8) (userId : String) :
    ExceptT LookupError (DbM Payload) (Authenticator × Document UserDoc) := do
  match ← mapError .service (getAuthenticatorWithUserByCredentialId lib crypto credentialId) with
  | none => throw (.notFound "credential")
  | some (authenticator, user) =>
    if authenticator.userId ≠ userId then throw (.userMismatch authenticator.id)
    else if !user.data.active then throw (.deactivated authenticator.id user.data.email.text)
    else pure (authenticator, user)

/-- The parameters of a login assertion. -/
structure LoginAssertionParams where
  authenticatorData : List UInt8
  clientDataJson : List UInt8
  signature : List UInt8
  publicKey : List UInt8
  rpId : String
  expectedOrigin : String
  challenge : List UInt8
  storedCounter : UInt32
  originPolicy : OriginPolicy

/-- What a verified assertion tells the caller. -/
structure LoginAssertionResult where
  newCounter : UInt32
  userVerified : Bool
  verifiedAt : Timestamp
  deriving DecidableEq

/-- Why a login assertion was not accepted. -/
inductive AssertionFailure
  | rejected (e : VerifyError)
  | keyDeleted
  | storage (e : StoreError)
  deriving DecidableEq, Repr

/-- Verify a login assertion against the counter read at lookup, and commit its own. -/
def verifyLoginAssertion (authenticatorId : String) (params : LoginAssertionParams) :
    ExceptT AssertionFailure (DbM Payload) LoginAssertionResult := do
  match verifyAssertionInner lib
      { authenticatorData := params.authenticatorData, clientDataJson := params.clientDataJson,
        signature := params.signature, publicKeyCose := params.publicKey,
        expectedRpId := params.rpId, expectedChallenge := lib.encodeBase64Url params.challenge,
        expectedOrigin := params.expectedOrigin, storedCounter := params.storedCounter,
        requireUserVerification := true, originPolicy := params.originPolicy } with
  | .error e => throw (.rejected e)
  | .ok (newCounter, userVerified) =>
    let verifiedAt ← Sql.now
    match ← mapError .storage (commitAuthenticatorCounter crypto authenticatorId newCounter) with
    | .committed => pure { newCounter, userVerified, verifiedAt }
    | .notIncreasing => throw (.rejected .counterNotIncreasing)
    | .keyDeleted => throw .keyDeleted

/-- What a client presents to log in, and what its assertion is verified against. -/
structure LoginRequest where
  credentialId : List UInt8
  userId : String
  authenticatorData : List UInt8
  clientDataJson : List UInt8
  signature : List UInt8
  rpId : String
  expectedOrigin : String
  challenge : List UInt8
  originPolicy : OriginPolicy

/-- Why a login failed. -/
inductive LoginError
  | lookup (e : LookupError)
  | assertion (e : AssertionFailure)
  deriving DecidableEq, Repr

/-- Log in with a key: look it up, then verify the assertion with the key and the counter found. -/
def login [Digest] (req : LoginRequest) :
    ExceptT LoginError (DbM Payload) (String × LoginAssertionResult) := do
  let (authenticator, _user) ← mapError .lookup
    (lookupAndVerifyAuthenticator lib crypto req.credentialId req.userId)
  let result ← mapError .assertion (verifyLoginAssertion lib crypto authenticator.id
    { authenticatorData := req.authenticatorData, clientDataJson := req.clientDataJson,
      signature := req.signature, publicKey := authenticator.publicKey, rpId := req.rpId,
      expectedOrigin := req.expectedOrigin, challenge := req.challenge,
      storedCounter := authenticator.counter.toUInt32, originPolicy := req.originPolicy })
  pure (authenticator.id, result)

end Vouch
