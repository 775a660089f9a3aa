import Vouch.Db.SingleUse
import Vouch.Store.Markers
import Vouch.Validity

/-!
# The used-markers of the server

Three kinds of things are remembered by a marker row once they have been used: the `jti` of a JWT
client assertion (`db/oauth.rs`), the state token of a FIDO2 challenge (`db/challenge_states.rs`)
and the `jti` of a DPoP proof (`db/dpop.rs`).  Each derives the id of the row from what is used, and
reads a unique violation as "already used".  The nonces of DPoP proofs, which may be used again
until they expire, are here too.
-/

namespace Vouch

open ReadCommitted Interleaving

/-- The longest `jti` that is stored, in bytes. -/
def maxJtiLength : Nat := 256

variable (crypto : DocumentCrypto)

/-- Insert a marker; the id being taken means that somebody was faster. -/
def claimMarker {T : Type} [DocumentType Payload T] (id : String) (doc : T) :
    ExceptT ClaimError (DbM Payload) RecordClaim :=
  mapError (fun e => if e.isUniqueViolation then .alreadyConsumed else .database e) do
    let _ ← DocumentStore.insertWithId crypto id doc
    pure ⟨id⟩

/-! ## Client assertions -/

/-- The id of the marker of a client's `jti`. -/
def deterministicJtiId [Digest] (jti clientId : String) : String :=
  Digest.sha256Hex ("jwt_assertion_jti\x00" ++ clientId ++ "\x00" ++ jti)

/-- Mark the `jti` of a client assertion as used. -/
def storeJwtAssertionJti [Digest] (jti clientId : String) (expiresAt : Timestamp) :
    ExceptT ClaimError (DbM Payload) RecordClaim := do
  if jti.utf8ByteSize > maxJtiLength then
    throw (.invalidInput s!"JTI exceeds maximum length ({maxJtiLength})")
  else if containsNul jti then
    throw (.invalidInput "JTI must not contain a NUL (0x00) character")
  else
    claimMarker crypto (deterministicJtiId jti clientId)
      ({ jti, clientId, expiresAt } : JwtAssertionJtiDoc)

/-! ## Challenge states -/

/-- The id of the marker of a challenge's state token. -/
def deterministicChallengeStateId [Digest] (stateJwt : String) : String :=
  Digest.sha256Hex ("challenge_state\x00" ++ stateJwt)

/-- Mark a challenge as used. -/
def tryConsumeChallengeState [Digest] (stateJwt : String) (expiresAt : Timestamp) :
    ExceptT ClaimError (DbM Payload) RecordClaim :=
  claimMarker crypto (deterministicChallengeStateId stateJwt) ({ expiresAt } : ChallengeStateDoc)

/-! ## DPoP proofs -/

/-- The id of the marker of a proof's `jti`. -/
def deterministicDpopJtiId [Digest] (jti : String) : String :=
  Digest.sha256Hex ("dpop_jti\x00" ++ jti)

/-- Mark the `jti` of a proof as used. -/
def storeDpopJtiWithExpiry [Digest] (jti : String) (expiresAt : Timestamp) :
    ExceptT ClaimError (DbM Payload) RecordClaim := do
  if jti.isEmpty then
    throw (.invalidInput "DPoP JTI must not be empty")
  else if jti.utf8ByteSize > maxJtiLength then
    throw (.invalidInput s!"DPoP JTI exceeds maximum length ({maxJtiLength})")
  else
    claimMarker crypto (deterministicDpopJtiId jti) ({ jti, expiresAt } : DpopJtiDoc)

/-- When the marker of a proof that is checked at a second expires. -/
def dpopJtiExpiry (nowSecond validitySeconds : Int) : Option Timestamp :=
  (Timestamp.fromSecond nowSecond).bind fun t => t.checkedAddSeconds validitySeconds

/-- Mark the `jti` of a proof as used, for some seconds from `nowSecond` on. -/
def checkAndStoreDpopJtiAtSecond [Digest] (jti : String) (nowSecond validitySeconds : Int) :
    ExceptT ClaimError (DbM Payload) RecordClaim :=
  match dpopJtiExpiry nowSecond validitySeconds with
  | none => throw (.database (.message "DPoP JTI expiry overflow"))
  | some expiresAt => storeDpopJtiWithExpiry crypto jti expiresAt

/-- The id of a DPoP nonce. -/
def deterministicDpopNonceId [Digest] (nonce : String) : String :=
  deterministicNonceId "dpop_nonce" nonce

/-- Issue a nonce for DPoP proofs. -/
def generateDpopNonce [Digest] (validitySeconds : Int) :
    ExceptT StoreError (DbM Payload) String := do
  let nonce ← Sql.newId
  let now ← Sql.now
  match now.checkedAddSeconds validitySeconds with
  | none => throw (.message "nonce expiry timestamp overflow")
  | some expiresAt =>
    let doc : DpopNonceDoc := { nonce, expiresAt }
    let _ ← DocumentStore.insertWithId crypto (deterministicDpopNonceId nonce) doc
    pure nonce

/-- Whether a nonce was issued and has not expired at `now`. -/
def validateDpopNonce [Digest] (nonce : String) (now : Timestamp) :
    ExceptT ClaimError (DbM Payload) Unit := do
  match ← mapError .database (DocumentStore.get DpopNonceDoc (deterministicDpopNonceId nonce)) with
  | some doc => if now < doc.data.expiresAt then pure () else throw .alreadyConsumed
  | none => throw .alreadyConsumed

/-! ## Specifications

They hold whichever of these rows count as markers. -/

section Specifications

variable {ι : Type} [DecidableEq ι] {isMarker : Payload → Bool} {deadline : ι → Timestamp → Int}
  {i : ι} {crypto}

theorem stable_trivial : (markerProtocol isMarker deadline).Stable i fun _ => True :=
  Protocol.stable_const _ i True

/-- Whoever's claim succeeds has inserted the marker. -/
theorem triple_claimMarker {T : Type} [DocumentType Payload T] {id : String} {doc : T}
    {e : Timestamp} (he : DocumentType.expiresAt doc = some e) :
    (markerProtocol isMarker deadline).Triple i (fun _ => True) (claimMarker crypto id doc)
      (fun _ d => isMarker (DocumentType.toData doc) = true → Marked isMarker i id e d)
      fun _ _ => True :=
  .mapError (.bind triple_insertMarker fun _ => .pure (.imp (stable_marked id e) _)
    fun _ h hm => h hm e he)

theorem triple_storeJwtAssertionJti [Digest] {jti clientId : String} {expiresAt : Timestamp} :
    (markerProtocol isMarker deadline).Triple i (fun _ => True)
      (storeJwtAssertionJti crypto jti clientId expiresAt)
      (fun _ d => isMarker (.jwtAssertionJti ⟨jti, clientId, expiresAt⟩) = true →
        Marked isMarker i (deterministicJtiId jti clientId) expiresAt d) fun _ _ => True := by
  rw [storeJwtAssertionJti]
  split
  · exact .fail
  · split
    · exact .fail
    · exact triple_claimMarker rfl

theorem triple_tryConsumeChallengeState [Digest] {stateJwt : String} {expiresAt : Timestamp} :
    (markerProtocol isMarker deadline).Triple i (fun _ => True)
      (tryConsumeChallengeState crypto stateJwt expiresAt)
      (fun _ d => isMarker (.challengeState ⟨expiresAt⟩) = true →
        Marked isMarker i (deterministicChallengeStateId stateJwt) expiresAt d) fun _ _ => True :=
  triple_claimMarker rfl

theorem triple_checkAndStoreDpopJtiAtSecond [Digest] {jti : String}
    {nowSecond validitySeconds : Int} :
    (markerProtocol isMarker deadline).Triple i (fun _ => True)
      (checkAndStoreDpopJtiAtSecond crypto jti nowSecond validitySeconds)
      (fun _ d => ∃ e, dpopJtiExpiry nowSecond validitySeconds = some e ∧
        (isMarker (.dpopJti ⟨jti, e⟩) = true →
          Marked isMarker i (deterministicDpopJtiId jti) e d)) fun _ _ => True := by
  rw [checkAndStoreDpopJtiAtSecond]
  cases he : dpopJtiExpiry nowSecond validitySeconds with
  | none => exact .fail
  | some expiresAt =>
    simp only
    rw [storeDpopJtiWithExpiry]
    split
    · exact .fail
    · split
      · exact .fail
      · exact (triple_claimMarker rfl).weaken fun _ _ h => ⟨expiresAt, rfl, h⟩

theorem triple_generateDpopNonce [Digest] {validitySeconds : Int} :
    (markerProtocol isMarker deadline).Follows i (generateDpopNonce crypto validitySeconds) := by
  refine .bind (.newId stable_trivial) fun nonce => ?_
  refine .bind (.now stable_trivial (fun _ => stable_trivial) fun _ _ _ h => h) fun now => ?_
  split
  · exact .fail
  · exact .bind triple_insertMarker fun _ => .done

/-- Checking a nonce changes nothing. -/
theorem triple_validateDpopNonce [Digest] {nonce : String} {now : Timestamp}
    {Pre : DbDurable ι Payload → Prop} (hPre : (markerProtocol isMarker deadline).Stable i Pre) :
    (markerProtocol isMarker deadline).Triple i Pre (validateDpopNonce nonce now) (fun _ => Pre)
      fun _ => Pre := by
  refine .bind (R := fun _ => Pre) (.mapError (triple_get hPre (fun _ => hPre)
    (fun _ h _ _ => h) fun _ _ _ h _ _ _ _ => h)) fun r => ?_
  cases r with
  | none => exact .throw hPre fun _ h => h
  | some doc =>
    simp only
    split
    · exact .pure hPre fun _ h => h
    · exact .throw hPre fun _ h => h

end Specifications

end Vouch
