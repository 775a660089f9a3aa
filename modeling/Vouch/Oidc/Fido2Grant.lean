import Vouch.Db.UsedMarkers
import Vouch.Oidc.Scope

/-!
# The FIDO2 assertion grant

The exchange of a FIDO2 assertion for a token (`services/oidc/fido2_grant.rs`), up to the point
where the challenge is spent.  What follows — the lookup of the authenticator, the verification of
its signature, the policies — only refuses the grant, so an exchange that succeeds has spent its
challenge.
-/

namespace Vouch

open ReadCommitted Interleaving
open Result (bind_eq_ok)

/-- What a challenge's state token carries. -/
structure Fido2ChallengeState where
  challenge : List UInt8
  rpId : String
  clientId : Option String
  iat : Timestamp
  exp : Timestamp
  deriving DecidableEq, Repr

/-- What the client presents. -/
structure Fido2AssertionPayload where
  state : String
  credentialId : List UInt8
  authenticatorData : List UInt8
  signature : List UInt8
  clientDataJson : List UInt8
  userHandle : List UInt8
  deriving DecidableEq, Repr

/-- An assertion that has been parsed and checked. -/
structure AssertionGrant where
  payload : Fido2AssertionPayload
  challengeState : Fido2ChallengeState
  expiresAt : Timestamp
  userId : String
  deriving DecidableEq, Repr

/-- The third-party code behind the grant. -/
structure Fido2Library where
  /-- base64url without padding. -/
  decodeBase64Url : String → Option (List UInt8)
  /-- The JSON of a payload, or why it is not one. -/
  payloadFromSlice : List UInt8 → Except String Fido2AssertionPayload
  /-- The state token's claims, if its signature and its type are right. -/
  stateClaims : String → Except String Fido2ChallengeState
  /-- The validity window of a state token. -/
  stateWindow : String → Option ValidityWindow
  uuidFromSlice : List UInt8 → Option String

namespace AssertionGrant

/-- `decode_state_token` for challenges: the signer's claims, if the token is valid at `now`. -/
def decodeStateToken (lib : Fido2Library) (token : String) (now : Timestamp) :
    Except String Fido2ChallengeState := do
  let claims ← lib.stateClaims token
  if (lib.stateWindow token).any fun w => w.acceptsOwnTokenAt now then
    .ok claims
  else
    .error "ExpiredSignature"

/-- Parse and check an assertion.  Nothing durable changes. -/
def validate (lib : Fido2Library) (assertion : String) (arrival : Timestamp) :
    Except ServiceError AssertionGrant :=
  match lib.decodeBase64Url assertion with
  | none =>
    .error (.oauth .invalidGrant "Invalid base64url encoding in assertion parameter")
  | some bytes =>
    match lib.payloadFromSlice bytes with
    | .error e => .error (.oauth .invalidGrant s!"Invalid assertion JSON: {e}")
    | .ok payload =>
      match decodeStateToken lib payload.state arrival with
      | .error e => .error (.oauth .invalidGrant s!"Invalid or expired challenge state: {e}")
      | .ok challengeState =>
        match lib.uuidFromSlice payload.userHandle with
        | none => .error (.oauth .invalidGrant "Invalid user_handle format")
        | some userId => .ok ⟨payload, challengeState, challengeState.exp, userId⟩

/-- A grant lasts as long as its state token says. -/
theorem stateClaims_of_validate {lib : Fido2Library} {assertion : String} {arrival : Timestamp}
    {grant : AssertionGrant} (h : validate lib assertion arrival = .ok grant) :
    lib.stateClaims grant.payload.state = .ok grant.challengeState ∧
      grant.expiresAt = grant.challengeState.exp := by
  rw [validate] at h
  split at h
  · cases h
  · split at h
    · cases h
    · rename_i payload _
      split at h
      · cases h
      · rename_i state hstate
        split at h
        · cases h
        · cases h
          refine ⟨?_, rfl⟩
          obtain ⟨claims, hclaims, hstate⟩ := bind_eq_ok.mp hstate
          split at hstate
          · cases hstate
            exact hclaims
          · cases hstate

end AssertionGrant

/-- The parameters of an exchange that are read before the challenge is spent. -/
structure Fido2AssertionParams where
  assertion : String
  clientId : String
  scope : Option String

variable (lib : Fido2Library) (crypto : DocumentCrypto)

/-- The scopes of an exchange; an omitted parameter takes all of them. -/
def requestedScopes : Option String → Except ServiceError ScopeSet
  | some requested => (ScopeSet.parse requested).intoRequestedGrant
  | none => .ok ScopeSet.all

/-- The checks before the challenge is spent. -/
def checkFido2Assertion (params : Fido2AssertionParams) (arrival : Timestamp) :
    Except ServiceError (ScopeSet × AssertionGrant) := do
  let scope ← requestedScopes params.scope
  let grant ← AssertionGrant.validate lib params.assertion arrival
  if grant.challengeState.clientId.any fun expected => expected ≠ params.clientId then
    .error (.oauth .invalidGrant "Client ID mismatch between challenge and token request")
  else
    .ok (scope, grant)

/-- The checks hand on the grant as it was validated. -/
theorem validate_of_checkFido2Assertion {lib : Fido2Library} {params : Fido2AssertionParams}
    {arrival : Timestamp} {scope : ScopeSet} {grant : AssertionGrant}
    (h : checkFido2Assertion lib params arrival = .ok (scope, grant)) :
    AssertionGrant.validate lib params.assertion arrival = .ok grant := by
  obtain ⟨_, -, h⟩ := bind_eq_ok.mp h
  obtain ⟨grant', hgrant, h⟩ := bind_eq_ok.mp h
  split at h
  · cases h
  · cases h
    exact hgrant

/-- Exchange an assertion, up to the point where its challenge is spent. -/
def exchangeFido2Assertion [Digest] (params : Fido2AssertionParams) (arrival : Timestamp) :
    ExceptT ServiceError (DbM Payload) (ScopeSet × AssertionGrant × RecordClaim) := do
  let (scope, grant) ← orThrow (checkFido2Assertion lib params arrival)
  let claim ← mapError (fun
      | .alreadyConsumed =>
        .oauth .invalidGrant "Challenge state has already been used or expired"
      | _ => .internal "Failed to mark challenge used")
    (tryConsumeChallengeState crypto grant.payload.state grant.expiresAt)
  pure (scope, grant, claim)

end Vouch
