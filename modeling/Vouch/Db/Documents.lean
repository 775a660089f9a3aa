import Vouch.Email
import Vouch.Json
import Vouch.Store.Document

/-!
# The documents of the server

The document types of `db/documents/`, with the fields the modelled operations read or write, their
index entries and expiry, and `Payload`, the sealed form all of them share: a document is sealed
under its own type's name, so what was sealed as one type never opens as another.

Some ids and index values are SHA-256 digests of labelled text.  `Digest` stands for that hash; what
an argument needs of it (that two texts do not collide) is a hypothesis where it is used.
-/

namespace Vouch

/-- The digest the server derives ids and index values with. -/
class Digest where
  /-- SHA-256 of a text, in hexadecimal. -/
  sha256Hex : String → String

/-- An optional index entry. -/
def optionalEntry (field : String) : Option String → List IndexEntry
  | some value => [⟨field, value⟩]
  | none => []

/-! ## Single-use records -/

/-- An authorization code (`documents/authorization_code.rs`). -/
structure AuthorizationCodeDoc where
  codeHash : String
  clientId : String
  userId : String
  expiresAt : Timestamp
  consumedAt : Option Timestamp
  authorizationDetails : Option JsonValue
  deriving DecidableEq

/-- The status of a device authorization request. -/
inductive DeviceAuthStatus
  | pending
  | authorized
  | denied
  | consumed
  deriving DecidableEq, Repr

/-- A device authorization request (`documents/device_auth.rs`). -/
structure DeviceAuthRequestDoc where
  deviceCodeHash : String
  userCode : String
  status : DeviceAuthStatus
  clientId : Option String
  userId : Option String
  userEmail : Option String
  authenticatorId : Option String
  hardwareVerified : Bool
  authenticatedAt : Option Timestamp
  expiresAt : Timestamp
  intervalSeconds : Int
  lastPollAt : Option Timestamp
  consumedAt : Option Timestamp
  deriving DecidableEq

/-- The state of a login at an upstream provider (`documents/device_auth.rs`). -/
structure OidcStateDoc where
  state : String
  deviceAuthId : String
  nonce : String
  codeVerifier : String
  expiresAt : Timestamp
  providerId : String
  consumedAt : Option Timestamp
  deriving DecidableEq

/-- How an authorization response is delivered. -/
inductive ResponseMode
  | query
  | jwt
  | formPost
  deriving DecidableEq, Repr

/-- A pushed authorization request (`documents/par.rs`). -/
structure PushedAuthorizationRequestDoc where
  requestUri : String
  clientId : String
  responseType : String
  redirectUri : String
  scope : Option String
  state : Option String
  nonce : Option String
  codeChallenge : Option String
  codeChallengeMethod : Option String
  resource : Option String
  acrValues : Option String
  maxAge : Option Int
  prompt : Option String
  dpopJkt : Option String
  expiresAt : Timestamp
  consumedAt : Option Timestamp
  authorizationDetails : Option JsonValue
  responseMode : ResponseMode
  deriving DecidableEq

/-- A pending OAuth authorization (`documents/pending_oauth.rs`). -/
structure PendingOAuthAuthDoc where
  clientId : String
  redirectUri : String
  responseType : String
  state : Option String
  scope : Option String
  nonce : Option String
  codeChallenge : Option String
  codeChallengeMethod : Option String
  expiresAt : Timestamp
  consumedAt : Option Timestamp
  resource : Option String
  acrValues : Option String
  maxAge : Option Int
  prompt : Option String
  dpopJkt : Option String
  authorizationDetails : Option JsonValue
  responseMode : ResponseMode
  parRequestUri : Option String
  deriving DecidableEq

/-- A nonce for a signed request (`documents/dpop.rs`). -/
structure SignatureNonceDoc where
  nonce : String
  expiresAt : Timestamp
  deriving DecidableEq

/-- A nonce for a DPoP proof (`documents/dpop.rs`). -/
structure DpopNonceDoc where
  nonce : String
  expiresAt : Timestamp
  deriving DecidableEq

/-- The marker of a used DPoP proof (`documents/dpop.rs`). -/
structure DpopJtiDoc where
  jti : String
  expiresAt : Timestamp
  deriving DecidableEq

/-- The marker of a used JWT assertion (`documents/jwt_assertion_jti.rs`). -/
structure JwtAssertionJtiDoc where
  jti : String
  clientId : String
  expiresAt : Timestamp
  deriving DecidableEq

/-- The marker of a used challenge (`documents/challenge_state.rs`). -/
structure ChallengeStateDoc where
  expiresAt : Timestamp
  deriving DecidableEq

/-! ## Users and organizations -/

/-- An identity at an upstream provider. -/
structure IdpIdentity where
  issuer : String
  subject : String
  deriving DecidableEq, Repr

/-- The index value of an upstream identity. -/
def idpIdentityIndexValue [Digest] (issuer subject : String) : String :=
  Digest.sha256Hex ("idp_identity\x00" ++ issuer ++ "\x00" ++ subject)

/-- A user (`documents/user.rs`). -/
structure UserDoc where
  email : Email
  name : Option String
  orgId : Option String
  orgDomain : Option String
  isOrgAdmin : Bool
  active : Bool
  externalId : Option String
  githubId : Option Int
  githubLogin : Option String
  githubRefreshToken : Option String
  idpIdentities : List IdpIdentity
  deriving DecidableEq

/-- The verification state of an additional domain. -/
inductive AdditionalDomainState
  | pending
  | verified (verifiedAt : Timestamp) (lastCheckedAt : Option Timestamp)
  | unverified (verifiedAt lastCheckedAt : Timestamp)
  deriving DecidableEq

/-- A secondary domain of an organization. -/
structure AdditionalDomain where
  domain : String
  state : AdditionalDomainState
  deriving DecidableEq

/-- An organization (`documents/organization.rs`). -/
structure OrganizationDoc where
  domain : String
  name : Option String
  createdByUserId : Option String
  additionalDomains : List AdditionalDomain
  subdomain : Option String
  deriving DecidableEq

/-- The domains an organization has proven ownership of. -/
def OrganizationDoc.verifiedDomains (org : OrganizationDoc) : List String :=
  org.domain :: org.additionalDomains.filterMap fun ad =>
    match ad.state with
    | .verified _ _ => some ad.domain
    | _ => none

/-! ## What users own -/

/-- What a session may be used for. -/
inductive SessionPurpose
  | oauthAccessToken
  | m2mAccessToken
  | credentialIssuance
  deriving DecidableEq, Repr

/-- A session (`documents/session.rs`). -/
structure SessionDoc where
  userId : String
  userEmail : String
  tokenHash : String
  authenticatorId : Option String
  sessionType : SessionPurpose
  expiresAt : Timestamp
  authorizationDetails : Option JsonValue
  hardwareAaguid : Option String
  orgDomain : Option String
  clientId : Option String
  sourceCodeHash : Option String
  authenticatedAt : Option Timestamp
  deriving DecidableEq

/-- A registered authenticator (`documents/authenticator.rs`). -/
structure AuthenticatorDoc where
  userId : String
  name : String
  credentialId : String
  publicKey : String
  /-- The signature counter: a `u32` whose bits are stored as an `i32`. -/
  counter : Int32
  aaguid : Option String
  userHandle : Option String
  attestationVerified : Bool
  deriving DecidableEq

/-- Who may use an OAuth client. -/
inductive AccessScope
  | organization
  | personal
  | anyone
  deriving DecidableEq, Repr

/-- A signing algorithm (`crypto/alg.rs`). -/
inductive JwsAlgorithm
  | es256
  | rs256
  | ps256
  | edDsa
  deriving DecidableEq, Repr

/-- How a client authenticates at the token endpoint. -/
inductive TokenEndpointAuthMethod
  | clientSecretBasic
  | clientSecretPost
  | privateKeyJwt
  | none
  | tlsClientAuth
  | selfSignedTlsClientAuth
  deriving DecidableEq, Repr

/-- The FAPI 2.0 profile of a client. -/
inductive FapiProfile
  | none
  | fapi2Security
  deriving DecidableEq, Repr

/-- An OAuth client (`documents/oauth.rs`). -/
structure OAuthClientDoc where
  userId : Option String
  clientId : String
  active : Bool
  accessScope : AccessScope
  orgId : Option String
  tokenEndpointAuthMethod : TokenEndpointAuthMethod
  fapiProfile : FapiProfile
  softwareId : Option String
  registrationAccessTokenHash : Option String
  deriving DecidableEq

/-! ## Payloads -/

/-- The sealed form of a document, of whatever type. -/
inductive Payload
  | authorizationCode (doc : AuthorizationCodeDoc)
  | deviceAuthRequest (doc : DeviceAuthRequestDoc)
  | oidcState (doc : OidcStateDoc)
  | pushedAuthorizationRequest (doc : PushedAuthorizationRequestDoc)
  | pendingOAuthAuth (doc : PendingOAuthAuthDoc)
  | signatureNonce (doc : SignatureNonceDoc)
  | dpopNonce (doc : DpopNonceDoc)
  | dpopJti (doc : DpopJtiDoc)
  | jwtAssertionJti (doc : JwtAssertionJtiDoc)
  | challengeState (doc : ChallengeStateDoc)
  | user (doc : UserDoc)
  | session (doc : SessionDoc)
  | authenticator (doc : AuthenticatorDoc)
  | oauthClient (doc : OAuthClientDoc)
  /-- A document of a type that is not modelled. -/
  | other (value : JsonValue)
  deriving DecidableEq

/-- What opens as a `T` is a sealed `T`. -/
class LawfulSeal (T : Type) [DocumentType Payload T] : Prop where
  eq_toData : ∀ {p : Payload} {t : T}, DocumentType.fromData p = some t → p = DocumentType.toData t

instance : DocumentType Payload AuthorizationCodeDoc where
  docType := "authorization_code"
  indexEntries d := [⟨"code_hash", d.codeHash⟩]
  expiresAt d := some d.expiresAt
  toData := .authorizationCode
  fromData | .authorizationCode d => some d | _ => none
  fromData_toData _ := rfl

instance : LawfulSeal AuthorizationCodeDoc where
  eq_toData {p t} h := by cases p <;> cases h; rfl

instance : DocumentType Payload DeviceAuthRequestDoc where
  docType := "device_auth_request"
  indexEntries d := [⟨"device_code_hash", d.deviceCodeHash⟩, ⟨"user_code", d.userCode⟩] ++
    optionalEntry "user_id" d.userId ++ optionalEntry "authenticator_id" d.authenticatorId
  expiresAt d := some d.expiresAt
  toData := .deviceAuthRequest
  fromData | .deviceAuthRequest d => some d | _ => none
  fromData_toData _ := rfl

instance : LawfulSeal DeviceAuthRequestDoc where
  eq_toData {p t} h := by cases p <;> cases h; rfl

instance : DocumentType Payload OidcStateDoc where
  docType := "oidc_state"
  indexEntries d := [⟨"state", d.state⟩]
  expiresAt d := some d.expiresAt
  toData := .oidcState
  fromData | .oidcState d => some d | _ => none
  fromData_toData _ := rfl

instance : LawfulSeal OidcStateDoc where
  eq_toData {p t} h := by cases p <;> cases h; rfl

instance : DocumentType Payload PushedAuthorizationRequestDoc where
  docType := "pushed_authorization_request"
  indexEntries d := [⟨"request_uri", d.requestUri⟩]
  expiresAt d := some d.expiresAt
  toData := .pushedAuthorizationRequest
  fromData | .pushedAuthorizationRequest d => some d | _ => none
  fromData_toData _ := rfl

instance : LawfulSeal PushedAuthorizationRequestDoc where
  eq_toData {p t} h := by cases p <;> cases h; rfl

instance : DocumentType Payload PendingOAuthAuthDoc where
  docType := "pending_oauth_auth"
  indexEntries _ := []
  expiresAt d := some d.expiresAt
  toData := .pendingOAuthAuth
  fromData | .pendingOAuthAuth d => some d | _ => none
  fromData_toData _ := rfl

instance : LawfulSeal PendingOAuthAuthDoc where
  eq_toData {p t} h := by cases p <;> cases h; rfl

instance : DocumentType Payload SignatureNonceDoc where
  docType := "signature_nonce"
  indexEntries _ := []
  expiresAt d := some d.expiresAt
  toData := .signatureNonce
  fromData | .signatureNonce d => some d | _ => none
  fromData_toData _ := rfl

instance : DocumentType Payload DpopNonceDoc where
  docType := "dpop_nonce"
  indexEntries _ := []
  expiresAt d := some d.expiresAt
  toData := .dpopNonce
  fromData | .dpopNonce d => some d | _ => none
  fromData_toData _ := rfl

instance : DocumentType Payload DpopJtiDoc where
  docType := "dpop_jti"
  indexEntries _ := []
  expiresAt d := some d.expiresAt
  toData := .dpopJti
  fromData | .dpopJti d => some d | _ => none
  fromData_toData _ := rfl

instance : DocumentType Payload JwtAssertionJtiDoc where
  docType := "jwt_assertion_jti"
  indexEntries _ := []
  expiresAt d := some d.expiresAt
  toData := .jwtAssertionJti
  fromData | .jwtAssertionJti d => some d | _ => none
  fromData_toData _ := rfl

instance : DocumentType Payload ChallengeStateDoc where
  docType := "challenge_state"
  indexEntries _ := []
  expiresAt d := some d.expiresAt
  toData := .challengeState
  fromData | .challengeState d => some d | _ => none
  fromData_toData _ := rfl

instance [Digest] : DocumentType Payload UserDoc where
  docType := "user"
  indexEntries d := ⟨"email", d.email.text⟩ :: (optionalEntry "org_id" d.orgId ++
    optionalEntry "external_id" d.externalId ++ optionalEntry "github_login" d.githubLogin ++
    d.idpIdentities.map fun b => ⟨"idp_identity", idpIdentityIndexValue b.issuer b.subject⟩)
  toData := .user
  fromData | .user d => some d | _ => none
  fromData_toData _ := rfl

instance [Digest] : LawfulSeal UserDoc where
  eq_toData {p t} h := by cases p <;> cases h; rfl

instance : DocumentType Payload SessionDoc where
  docType := "session"
  indexEntries d := [⟨"user_id", d.userId⟩, ⟨"token_hash", d.tokenHash⟩] ++
    optionalEntry "authenticator_id" d.authenticatorId ++ optionalEntry "client_id" d.clientId ++
    optionalEntry "source_code_hash" d.sourceCodeHash
  expiresAt d := some d.expiresAt
  toData := .session
  fromData | .session d => some d | _ => none
  fromData_toData _ := rfl

instance : DocumentType Payload AuthenticatorDoc where
  docType := "authenticator"
  indexEntries d := [⟨"user_id", d.userId⟩, ⟨"credential_id", d.credentialId⟩]
  toData := .authenticator
  fromData | .authenticator d => some d | _ => none
  fromData_toData _ := rfl

instance : LawfulSeal AuthenticatorDoc where
  eq_toData {p t} h := by cases p <;> cases h; rfl

instance : DocumentType Payload OAuthClientDoc where
  docType := "oauth_client"
  indexEntries d := ⟨"client_id", d.clientId⟩ :: (optionalEntry "user_id" d.userId ++
    optionalEntry "org_id" d.orgId ++ optionalEntry "software_id" d.softwareId ++
    optionalEntry "registration_access_token_hash" d.registrationAccessTokenHash)
  toData := .oauthClient
  fromData | .oauthClient d => some d | _ => none
  fromData_toData _ := rfl

end Vouch
