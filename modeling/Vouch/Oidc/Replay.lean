import Vouch.Oidc.ClientAssertion
import Vouch.Oidc.Dpop
import Vouch.Oidc.Fido2Grant

/-!
# Replay

Client assertions, FIDO2 challenges and DPoP proofs are presented, in any number of copies, while
the expiry sweeps remove old rows.  Whether a copy is fresh is judged at the instant its request
arrived; that it is the first is decided by the insertion of a marker, which happens later, by the
clock.

* `Kept` says what a call that accepted something leaves behind: its own marker, and how long that
  marker lasts.
* If no marker is inserted after the deadline of its kind, nothing is accepted twice
  (`assertion_accepted_once`, `proof_accepted_once`).  For assertions and challenges the deadline is
  the second in which the marker itself expires; for proofs it is the second in which the proof
  does.
* Without that a copy is accepted twice: its insertion waits until the sweep has removed the marker
  of the first (`assertion_accepted_twice`, `proof_accepted_twice`).
-/

namespace Vouch

open ReadCommitted Interleaving ReadCommitted.Protocol

/-! ## Calls -/

/-- What the server is configured with, and the third-party code it uses. -/
structure ReplayEnv (Key : Type) where
  crypto : DocumentCrypto
  assertions : JwtLibrary Key JwtAssertionClaims
  proofs : JwtLibrary Key DpopClaims
  http : HttpLibrary
  fido2 : Fido2Library
  config : AssertionConfig
  dpopMaxAge : Int

/-- A call that accepts something once, or a sweep. -/
inductive ReplayCall (Key : Type)
  | authenticateClientJwt (assertion : String) (clientIdHint : Option String)
      (resolveKey : OAuthClientDoc → JwtAssertionHeader → Except ClientAuthError Key)
      (arrival : Timestamp)
  | exchangeFido2Assertion (params : Fido2AssertionParams) (arrival : Timestamp)
  | validateDpopProof (proof expectedMethod : String) (acceptedUris : List String)
      (arrival : Timestamp)
  | validateDpopAtResource (accessToken : String) (headers : List HeaderValue) (method : String)
      (acceptedUris : List String) (arrival : Timestamp)
  /-- The sweep of the expired documents of one type. -/
  | deleteExpired (docType : String)

namespace ReplayCall

variable {Key : Type}

/-- How a call fails. -/
@[reducible] def Error : ReplayCall Key → Type
  | authenticateClientJwt .. => ClientAuthError
  | exchangeFido2Assertion .. => ServiceError
  | validateDpopProof .. | validateDpopAtResource .. => DpopError
  | deleteExpired .. => StoreError

/-- What a call returns. -/
@[reducible] def Result : ReplayCall Key → Type
  | authenticateClientJwt .. => OAuthClientDoc × Option RecordClaim
  | exchangeFido2Assertion .. => ScopeSet × AssertionGrant × RecordClaim
  | validateDpopProof .. | validateDpopAtResource .. => ValidatedDpopProof
  | deleteExpired .. => Nat

/-- The program of a call. -/
def run [Digest] (env : ReplayEnv Key) :
    (call : ReplayCall Key) → ExceptT call.Error (DbM Payload) call.Result
  | authenticateClientJwt assertion clientIdHint resolveKey arrival =>
    Vouch.authenticateClientJwt env.crypto env.assertions env.config assertion
      clientIdHint resolveKey arrival
  | exchangeFido2Assertion params arrival =>
    Vouch.exchangeFido2Assertion env.fido2 env.crypto params arrival
  | validateDpopProof proof expectedMethod acceptedUris arrival =>
    Vouch.validateDpopProof env.proofs env.http env.crypto proof expectedMethod acceptedUris
      env.dpopMaxAge arrival
  | validateDpopAtResource accessToken headers method acceptedUris arrival =>
    Vouch.validateDpopAtResource env.proofs env.http env.crypto accessToken headers method
      acceptedUris env.dpopMaxAge arrival
  | deleteExpired docType => DocumentStore.deleteExpired docType

/-- The proof a call presents. -/
def proofText : ReplayCall Key → Option String
  | validateDpopProof proof .. => some proof
  | validateDpopAtResource _ [value] .. => value.toStr
  | _ => none

end ReplayCall

/-- Something that may be accepted once, other than a proof. -/
inductive Presented
  | assertion (clientId jti : String) (exp : Timestamp)
  | challenge (stateJwt : String)
  deriving DecidableEq

/-- What a call that returned has accepted: the assertion of a client, if it has a `jti`, or a
challenge. -/
def ReplayCall.accepted {Key : Type} (env : ReplayEnv Key) :
    (call : ReplayCall Key) → call.Result → Option Presented
  | authenticateClientJwt assertion .., r => do
    let claims ← env.assertions.claims assertion
    let jti ← claims.jti
    some (.assertion r.1.clientId jti claims.exp)
  | exchangeFido2Assertion .., r => some (.challenge r.2.1.payload.state)
  | _, _ => none

/-- The `jti` and `iat` of the proof that a call which returned has accepted. -/
def ReplayCall.acceptedProof {Key : Type} (env : ReplayEnv Key) (call : ReplayCall Key) :
    Option (String × Timestamp) := do
  let proof ← call.proofText
  let claims ← env.proofs.claims proof
  some (claims.jti, claims.iat)

/-! ## What a call leaves behind -/

section Calls

variable {ι Key : Type} [DecidableEq ι] [Digest] {isMarker : Payload → Bool}
  {deadline : ι → Timestamp → Int} {i : ι} {env : ReplayEnv Key}

/-- The marker of an assertion. -/
def AssertionMarked (isMarker : Payload → Bool) (i : ι) (jti clientId : String) (exp : Timestamp)
    (d : Durable ι String (Row Payload) Timestamp) : Prop :=
  ∃ e, exp.checkedAddSeconds clockSkewSeconds = some e ∧
    (isMarker (.jwtAssertionJti ⟨jti, clientId, e⟩) = true →
      Marked isMarker i (deterministicJtiId jti clientId) e d)

/-- The marker of a proof's `jti`. -/
def JtiMarked (isMarker : Payload → Bool) (i : ι) (maxAge : Int) (arrival : Timestamp)
    (jti : String) (d : Durable ι String (Row Payload) Timestamp) : Prop :=
  ∃ e, dpopJtiExpiry (nowSecond arrival) (jtiRetention maxAge) = some e ∧
    (isMarker (.dpopJti ⟨jti, e⟩) = true → Marked isMarker i (deterministicDpopJtiId jti) e d)

/-- The marker of a proof that was fresh when it arrived. -/
def ProofMarked (isMarker : Payload → Bool) (i : ι) (maxAge : Int) (arrival : Timestamp)
    (claims : DpopClaims) (d : Durable ι String (Row Payload) Timestamp) : Prop :=
  (ValidityWindow.issuedAt claims.iat maxAge).acceptsAt arrival 0 proofSkewSeconds = true ∧
    JtiMarked isMarker i maxAge arrival claims.jti d

omit [Digest] in
theorem stable_markedIf (A : Prop) (id : String) (e : Timestamp) :
    (markerProtocol isMarker deadline).Stable i fun d => A → Marked isMarker i id e d :=
  .imp (stable_marked id e) A

theorem stable_assertionMarked (jti clientId : String) (exp : Timestamp) :
    (markerProtocol isMarker deadline).Stable i (AssertionMarked isMarker i jti clientId exp) :=
  stable_exists fun _ => (stable_const _ i _).and (stable_markedIf _ _ _)

theorem stable_jtiMarked (maxAge : Int) (arrival : Timestamp) (jti : String) :
    (markerProtocol isMarker deadline).Stable i (JtiMarked isMarker i maxAge arrival jti) :=
  stable_exists fun _ => (stable_const _ i _).and (stable_markedIf _ _ _)

theorem stable_proofMarked (maxAge : Int) (arrival : Timestamp) (claims : DpopClaims) :
    (markerProtocol isMarker deadline).Stable i (ProofMarked isMarker i maxAge arrival claims) :=
  (stable_const _ i _).and (stable_jtiMarked maxAge arrival claims.jti)

/-- Spending the `jti` of an assertion. -/
theorem triple_pendingJti {jti : Option String} {clientId : String} {exp : Timestamp} :
    (markerProtocol isMarker deadline).Triple i (fun _ => True)
      (PendingJti.commit env.crypto jti clientId exp)
      (fun _ d => ∀ j, jti = some j → AssertionMarked isMarker i j clientId exp d)
      fun _ _ => True := by
  have hstable : (markerProtocol isMarker deadline).Stable i fun d =>
      ∀ j, jti = some j → AssertionMarked isMarker i j clientId exp d :=
    stable_forall fun j => .imp (stable_assertionMarked j clientId exp) _
  cases jti with
  | none => exact .pure hstable fun _ _ _ h => nomatch h
  | some j =>
    rw [PendingJti.commit]
    cases he : exp.checkedAddSeconds clockSkewSeconds with
    | none => exact .fail
    | some e =>
      refine .bind (.mapError triple_storeJwtAssertionJti) fun claim => ?_
      refine .pure hstable fun d h k hk => ?_
      cases hk
      exact ⟨e, he, h⟩

variable {arrival : Timestamp}

theorem triple_authenticateClientJwt {assertion : String} {clientIdHint : Option String}
    {resolveKey : OAuthClientDoc → JwtAssertionHeader → Except ClientAuthError Key} :
    (markerProtocol isMarker deadline).Triple i (fun _ => True)
      (authenticateClientJwt env.crypto env.assertions env.config assertion clientIdHint resolveKey
        arrival)
      (fun r d => ∀ claims j, env.assertions.claims assertion = some claims → claims.jti = some j →
        AssertionMarked isMarker i j r.1.clientId claims.exp d)
      fun _ _ => True := by
  refine .orFail_bind fun header _ => ?_
  refine .orFail_bind fun unverified _ => ?_
  refine .orFail_bind fun _ _ => ?_
  refine .bind (R := fun _ _ => True) (.mapError (triple_findOne stable_trivial
    (fun _ => stable_trivial) (fun _ h _ _ => h)
    fun _ _ _ _ h _ _ _ _ => h)) fun r => ?_
  cases r with
  | none => exact .fail
  | some client =>
    refine .orFail_bind fun claims hcheck => ?_
    have hclaims := claims_of_checkAssertion hcheck
    refine .bind triple_pendingJti fun claim => ?_
    -- The stamp that follows may fail, and changes nothing about the marker either way.
    refine .bind (R := fun _ d => ∀ j, claims.jti = some j →
      AssertionMarked isMarker i j client.data.clientId claims.exp d) (.attempt
      (triple_touchMarker (R := fun l => ∀ j, claims.jti = some j →
        ∃ e, claims.exp.checkedAddSeconds clockSkewSeconds = some e ∧
          (isMarker (.jwtAssertionJti ⟨j, client.data.clientId, e⟩) = true →
            ∃ c ∈ l, c.id = deterministicJtiId j client.data.clientId ∧ Marks isMarker c e))
        fun l l' h j hj => ?_)) fun _ => ?_
    · obtain ⟨e, he, hmark⟩ := h j hj
      refine ⟨e, he, fun hm => ?_⟩
      obtain ⟨c, hc, hcid⟩ := hmark hm
      exact ⟨c, List.mem_append_left _ hc, hcid⟩
    · refine .pure (stable_forall fun c => stable_forall fun j =>
        .imp (.imp (stable_assertionMarked _ _ _) _) _) fun d h c j hc hj => ?_
      obtain rfl : claims = c := Option.some.inj (hclaims.symm.trans hc)
      exact h j hj

theorem triple_exchangeFido2Assertion {params : Fido2AssertionParams} :
    (markerProtocol isMarker deadline).Triple i (fun _ => True)
      (exchangeFido2Assertion env.fido2 env.crypto params arrival)
      (fun r d => (∃ state, env.fido2.stateClaims r.2.1.payload.state = .ok state ∧
          r.2.1.expiresAt = state.exp) ∧
        (isMarker (.challengeState ⟨r.2.1.expiresAt⟩) = true → Marked isMarker i
          (deterministicChallengeStateId r.2.1.payload.state) r.2.1.expiresAt d))
      fun _ _ => True := by
  refine .orFail_bind fun x hx => ?_
  obtain ⟨scope, grant⟩ := x
  refine .bind (.mapError triple_tryConsumeChallengeState) fun claim => ?_
  refine .pure ((stable_const _ i _).and (stable_markedIf _ _ _)) fun d h => ⟨?_, h⟩
  exact ⟨grant.challengeState,
    AssertionGrant.stateClaims_of_validate (validate_of_checkFido2Assertion hx)⟩

variable {maxAge : Int}

theorem triple_demandNonce {α : Type} {Q : α → DbDurable ι Payload → Prop} :
    (markerProtocol isMarker deadline).Triple i (fun _ => True)
      (demandNonce env.crypto maxAge : ExceptT DpopError (DbM Payload) α) Q fun _ _ => True :=
  .bind (.mapError triple_generateDpopNonce) fun _ => .fail

theorem triple_validateDpopCommon {proof expectedMethod : String} {acceptedUris : List String}
    {expectedAth : Option String} {noncePolicy : NoncePolicy} :
    (markerProtocol isMarker deadline).Triple i (fun _ => True)
      (validateDpopCommon env.proofs env.http env.crypto proof expectedMethod acceptedUris maxAge
        expectedAth noncePolicy arrival)
      (fun _ d => ∀ claims, env.proofs.claims proof = some claims →
        ProofMarked isMarker i maxAge arrival claims d)
      fun _ _ => True := by
  refine .orFail_bind fun x hx => ?_
  obtain ⟨header, claims⟩ := x
  have hclaims := claims_of_parseAndVerify hx
  refine .bind (R := fun _ => JtiMarked isMarker i maxAge arrival claims.jti)
    (.mapError triple_checkAndStoreDpopJtiAtSecond) fun claim => ?_
  split
  · exact triple_demandNonce.mono (fun _ _ => trivial) (fun _ _ h => h) fun _ _ h => h
  · refine .orFail_bind fun _ hvalid => ?_
    have hdone : ∀ r : ValidatedDpopProof, (markerProtocol isMarker deadline).Triple i
        (JtiMarked isMarker i maxAge arrival claims.jti)
        (pure r : ExceptT DpopError (DbM Payload) ValidatedDpopProof)
        (fun _ d => ∀ claims, env.proofs.claims proof = some claims →
          ProofMarked isMarker i maxAge arrival claims d) fun _ _ => True := by
      refine fun r => .pure (stable_forall fun c => .imp (stable_proofMarked maxAge arrival c) _)
        fun d h c hc => ?_
      obtain rfl : claims = c := Option.some.inj (hclaims.symm.trans hc)
      exact ⟨acceptsAt_of_validateDpopClaims hvalid, h⟩
    split
    · exact hdone _
    · refine .bind (R := fun _ => JtiMarked isMarker i maxAge arrival claims.jti)
        (.attempt (triple_validateDpopNonce (stable_jtiMarked _ _ _))) fun r => ?_
      split
      · exact hdone _
      · exact triple_demandNonce.mono (fun _ _ => trivial) (fun _ _ h => h) fun _ _ h => h
      · exact .fail
      · exact .fail

theorem triple_validateDpopAtResource {accessToken : String} {headers : List HeaderValue}
    {method : String} {acceptedUris : List String} :
    (markerProtocol isMarker deadline).Triple i (fun _ => True)
      (validateDpopAtResource env.proofs env.http env.crypto accessToken headers method acceptedUris
        maxAge arrival)
      (fun _ d => ∀ proof claims, headers.map (·.toStr) = [some proof] →
        env.proofs.claims proof = some claims → ProofMarked isMarker i maxAge arrival claims d)
      fun _ _ => True := by
  refine .orFail_bind fun found hfound => ?_
  cases found with
  | none => exact .fail
  | some proof =>
    refine triple_validateDpopCommon.weaken fun r d h p claims hp => ?_
    have hsame : proof = p := by
      rw [DpopProofHeader.fromHeaders.eq_def] at hfound
      split at hfound
      · cases hfound
      · rename_i value
        cases hv : value.toStr with
        | none =>
          rw [hv] at hfound
          cases hfound
        | some text =>
          rw [hv] at hfound
          cases hfound
          simpa [hv] using hp
      · cases hfound
    exact hsame ▸ h claims

/-- What a call leaves behind when it returns. -/
def Kept (isMarker : Payload → Bool) (i : ι) (env : ReplayEnv Key) :
    (call : ReplayCall Key) → Except call.Error call.Result →
      Durable ι String (Row Payload) Timestamp → Prop
  | .authenticateClientJwt assertion .., .ok r, d => ∀ claims j,
      env.assertions.claims assertion = some claims → claims.jti = some j →
      AssertionMarked isMarker i j r.1.clientId claims.exp d
  | .exchangeFido2Assertion .., .ok r, d =>
      (∃ state, env.fido2.stateClaims r.2.1.payload.state = .ok state ∧
        r.2.1.expiresAt = state.exp) ∧
      (isMarker (.challengeState ⟨r.2.1.expiresAt⟩) = true → Marked isMarker i
        (deterministicChallengeStateId r.2.1.payload.state) r.2.1.expiresAt d)
  | .validateDpopProof proof _ _ arrival, .ok _, d => ∀ claims,
      env.proofs.claims proof = some claims →
      ProofMarked isMarker i env.dpopMaxAge arrival claims d
  | .validateDpopAtResource _ headers _ _ arrival, .ok _, d => ∀ proof claims,
      headers.map (·.toStr) = [some proof] → env.proofs.claims proof = some claims →
      ProofMarked isMarker i env.dpopMaxAge arrival claims d
  | _, _, _ => True

theorem triple_replayCall (call : ReplayCall Key) :
    (markerProtocol isMarker deadline).Triple i (fun _ => True) (call.run env)
      (fun r => Kept isMarker i env call (.ok r)) fun e => Kept isMarker i env call (.error e) := by
  cases call with
  | authenticateClientJwt assertion clientIdHint resolveKey arrival =>
    exact triple_authenticateClientJwt
  | exchangeFido2Assertion params arrival => exact triple_exchangeFido2Assertion
  | validateDpopProof proof expectedMethod acceptedUris arrival => exact triple_validateDpopCommon
  | validateDpopAtResource accessToken headers method acceptedUris arrival =>
    exact triple_validateDpopAtResource
  | deleteExpired docType => exact triple_sweepMarkers

/-- A call that accepted a proof has its marker. -/
theorem Kept.proof {call : ReplayCall Key} {r : call.Result} {proof : String} {claims : DpopClaims}
    {d : DbDurable ι Payload} (h : Kept isMarker i env call (.ok r) d)
    (hproof : call.proofText = some proof) (hclaims : env.proofs.claims proof = some claims) :
    ∃ arrival, ProofMarked isMarker i env.dpopMaxAge arrival claims d := by
  cases call with
  | validateDpopProof text expectedMethod acceptedUris arrival =>
    cases hproof
    exact ⟨arrival, h claims hclaims⟩
  | validateDpopAtResource accessToken headers method acceptedUris arrival =>
    rw [ReplayCall.proofText.eq_def] at hproof
    split at hproof
    · rename_i he
      cases he
    · rename_i value _ _ _ he
      cases he
      exact ⟨arrival, h proof claims (by simp [hproof]) hclaims⟩
    · cases hproof
  | _ => cases hproof

end Calls

/-! ## The system -/

section System

variable {ι Key : Type} [DecidableEq ι] [Digest]

/-- The callers, before any of them has done anything. -/
def replaySystem (env : ReplayEnv Key) (calls : ι → ReplayCall Key)
    (init : Table String (Row Payload)) (clock : Timestamp) :
    Config ι (Stmt String (Row Payload)) (Stmt.Res Timestamp)
      (fun i => Except (calls i).Error (calls i).Result) (Db ι String (Row Payload) Timestamp) where
  threads i := (calls i).run env
  shared := { committed := init, log := [], clock := clock, pending := ∅, reads := fun _ => [] }

/-- Whether a document marks an assertion or a challenge. -/
def Payload.isAssertionMarker : Payload → Bool
  | .jwtAssertionJti _ | .challengeState _ => true
  | _ => false

/-- Whether a document marks a proof. -/
def Payload.isProofMarker : Payload → Bool
  | .dpopJti _ => true
  | _ => false

/-- The last second in which the marker of an assertion or a challenge may go in: the one in which
it expires itself. -/
def assertionDeadline (_i : ι) (expiresAt : Timestamp) : Int := expiresAt.wholeSecond

/-- The last second in which the marker of a proof may go in: the one in which the proof expires. -/
def proofDeadline (env : ReplayEnv Key) (calls : ι → ReplayCall Key) (i : ι) (_ : Timestamp) :
    Int :=
  match (calls i).acceptedProof env with
  | some (_, iat) => iat.ceilSecond + env.dpopMaxAge
  | none => 0

variable {env : ReplayEnv Key} {calls : ι → ReplayCall Key} {init : Table String (Row Payload)}
  {clock : Timestamp} {isMarker : Payload → Bool} {deadline : ι → Timestamp → Int}
  {q : Config ι (Stmt String (Row Payload)) (Stmt.Res Timestamp)
    (fun i => Except (calls i).Error (calls i).Result) (DbState ι Payload)}

/-- A call that accepted an assertion or a challenge has inserted a marker whose id and expiry are
determined by what it accepted. -/
theorem Kept.marked {i : ι} {call : ReplayCall Key} {r : call.Result} {x : Presented}
    {d : DbDurable ι Payload} (h : Kept Payload.isAssertionMarker i env call (.ok r) d)
    (hx : call.accepted env r = some x) :
    match x with
    | .assertion clientId jti exp => ∃ e, exp.checkedAddSeconds clockSkewSeconds = some e ∧
        Marked Payload.isAssertionMarker i (deterministicJtiId jti clientId) e d
    | .challenge stateJwt => ∃ state, env.fido2.stateClaims stateJwt = .ok state ∧
        Marked Payload.isAssertionMarker i (deterministicChallengeStateId stateJwt)
          state.exp d := by
  cases call with
  | authenticateClientJwt assertion clientIdHint resolveKey arrival =>
    obtain ⟨claims, hclaims, hx⟩ := Option.bind_eq_some_iff.mp hx
    obtain ⟨jti, hjti, hx⟩ := Option.bind_eq_some_iff.mp hx
    cases hx
    obtain ⟨e, he, hmark⟩ := h claims jti hclaims hjti
    exact ⟨e, he, hmark rfl⟩
  | exchangeFido2Assertion params arrival =>
    cases hx
    obtain ⟨⟨state, hstate, hexp⟩, hmark⟩ := h
    exact ⟨state, hstate, hexp ▸ hmark rfl⟩
  | _ => cases hx

/-- **Assertions and challenges are accepted once**, if no marker goes in after the second in which
it expires: two calls that accepted the same assertion of a client, or the same challenge, are the
same call. -/
theorem assertion_accepted_once
    (hrun : Reaches (fun i => exec i) (InTime Payload.isAssertionMarker assertionDeadline)
      (replaySystem env calls init clock) q) {i j : ι} {ri : (calls i).Result}
    {rj : (calls j).Result} (hi : q.threads i = .ret (.ok ri)) (hj : q.threads j = .ret (.ok rj))
    {x : Presented} (hxi : (calls i).accepted env ri = some x)
    (hxj : (calls j).accepted env rj = some x) : i = j := by
  obtain ⟨hlog, hkept, -⟩ := (markerProtocol _ _).reaches_spec hrun (MarkerLog.start init clock)
    (fun i => triple_replayCall (calls i)) (fun _ => rfl) fun _ => trivial
  have hki := Kept.marked (hkept i ri hi) hxi
  have hkj := Kept.marked (hkept j rj hj) hxj
  cases x with
  | assertion clientId jti exp =>
    obtain ⟨e, he, hmi⟩ := hki
    obtain ⟨e', he', hmj⟩ := hkj
    obtain rfl : e = e' := Option.some.inj (he.symm.trans he')
    exact hlog.marked_unique hmi hmj (le_refl _) (le_refl _)
  | challenge stateJwt =>
    obtain ⟨state, hstate, hmi⟩ := hki
    obtain ⟨state', hstate', hmj⟩ := hkj
    obtain rfl : state = state' := Except.ok.inj (hstate.symm.trans hstate')
    exact hlog.marked_unique hmi hmj (le_refl _) (le_refl _)

/-- **Proofs are accepted once**, if no marker goes in after the second in which the proof expires:
two calls that accepted a proof with the same `jti` and `iat` are the same call. -/
theorem proof_accepted_once
    (hrun : Reaches (fun i => exec i) (InTime Payload.isProofMarker (proofDeadline env calls))
      (replaySystem env calls init clock) q)
    {i j : ι} {ri : (calls i).Result} {rj : (calls j).Result}
    (hi : q.threads i = .ret (.ok ri)) (hj : q.threads j = .ret (.ok rj))
    {proof : String × Timestamp} (hpi : (calls i).acceptedProof env = some proof)
    (hpj : (calls j).acceptedProof env = some proof) : i = j := by
  obtain ⟨hlog, hkept, -⟩ := (markerProtocol _ _).reaches_spec hrun (MarkerLog.start init clock)
    (fun i => triple_replayCall (calls i)) (fun _ => rfl) fun _ => trivial
  have hmarked : ∀ k (rk : (calls k).Result), q.threads k = .ret (.ok rk) →
      (calls k).acceptedProof env = some proof →
      ∃ e, Marked Payload.isProofMarker k (deterministicDpopJtiId proof.1) e q.shared.toDurable ∧
        proof.2.ceilSecond + env.dpopMaxAge ≤ e.wholeSecond := by
    intro k rk hk hp
    obtain ⟨text, htext, hp⟩ := Option.bind_eq_some_iff.mp hp
    obtain ⟨claims, hclaims, hp⟩ := Option.bind_eq_some_iff.mp hp
    cases hp
    obtain ⟨arrival, hfresh, e, he, hmark⟩ := (hkept k rk hk).proof htext hclaims
    exact ⟨e, hmark rfl, ceilSecond_le_dpopJtiExpiry he hfresh⟩
  have hdeadline : ∀ k e, (calls k).acceptedProof env = some proof →
      proofDeadline env calls k e = proof.2.ceilSecond + env.dpopMaxAge := by
    intro k e hp
    rw [proofDeadline, hp]
  obtain ⟨e, hmi, hei⟩ := hmarked i ri hi hpi
  obtain ⟨e', hmj, hej⟩ := hmarked j rj hj hpj
  exact hlog.marked_unique hmi hmj (by rw [hdeadline i e hpi]; exact hej)
    (by rw [hdeadline j e' hpj]; exact hei)

end System

/-! ### Runs

A client authenticates with an assertion that has expired, within the tolerated skew, and uses a
proof at a resource.  Each is presented twice, by threads 0 and 2, and thread 1 is the sweep. -/

/-- The second in which the assertion expires and the proof was issued. -/
def sampleSecond : Int := 1700000000

/-- An instant some seconds after that. -/
def sampleInstant (seconds : Int) : Timestamp := (sampleSecond + seconds) * Timestamp.second

/-- A client that signs its assertions. -/
def signingClient : OAuthClientDoc where
  userId := none
  clientId := "cli"
  active := true
  accessScope := .anyone
  orgId := none
  tokenEndpointAuthMethod := .privateKeyJwt
  fapiProfile := .none
  softwareId := none
  registrationAccessTokenHash := none

/-- An assertion of the client, signed with Ed25519. -/
def someAssertion : String :=
  "eyJhbGciOiJFZERTQSJ9.eyJpc3MiOiJjbGkiLCJzdWIiOiJjbGkiLCJhdWQiOiJodHRwczovL3YuZXhhbXBsZSIsImV4" ++
  "cCI6MTcwMDAwMDAwMCwianRpIjoiaiJ9.XgFSLR7HyE3gDF4bWvi6FsO5kpL6gjT68grYvUjp8ua1Wfu2d-48M10PSV3G" ++
  "cf48W_DfnfM1zZd8dCerUKu0Dg"

/-- A proof for the access token `t`, signed with the same key. -/
def someProof : String :=
  "eyJ0eXAiOiJkcG9wK2p3dCIsImFsZyI6IkVkRFNBIiwiandrIjp7Imt0eSI6Ik9LUCIsImNydiI6IkVkMjU1MTkiLCJ4" ++
  "IjoiMTFxWUFZS3hDcmZWU183VHlXUUhPZzdoY3ZQYXBpTWxyd0lhYVBjSFVSbyJ9fQ.eyJqdGkiOiJqIiwiaHRtIjoiR0" ++
  "VUIiwiaHR1IjoiaHR0cHM6Ly92LmV4YW1wbGUvciIsImlhdCI6MTcwMDAwMDAwMCwiYXRoIjoiNDdtS1RhTWFFbjFMM20" ++
  "1REF6OW11aWRNcXc2MzZ4eHc3RUZBS19ZblBkZyJ9.yy2kBtCMvVg_sdnocIsDACdLeY3oSuzE3SvghY1QlKzic4_eQ_Y" ++
  "GTRGGXXtAxogzazDN8URH_q9ffcXZi8HYAA"

/-- The key both are signed with. -/
def someEdKey : String := "11qYAYKxCrfVS_7TyWQHOg7hcvPapiMlrwIaaPcHURo"

/-- What the third-party code answers for that assertion and that proof. -/
def replayEnv : ReplayEnv String where
  crypto := plainCrypto
  assertions :=
    { parse := fun _ => .ok ⟨.known .edDsa, none, none, none⟩
      claims := fun _ => some
        ⟨"cli", "cli", .single "https://v.example", sampleInstant 0, none, none, some "j"⟩
      verifies := fun _ _ _ => true
      fromEcComponents := fun _ _ => .error "not an EC key"
      fromRsaComponents := fun _ _ => .error "not an RSA key"
      fromEdComponents := .ok
      thumbprint := fun _ => "kPrK_qmxVWaYVA9wwBF6Iuo3vVzz7TxHCTwXBygrS4k" }
  proofs :=
    { parse := fun _ => .ok ⟨.known .edDsa, some "dpop+jwt", none, some (.okp someEdKey)⟩
      claims := fun _ => some
        ⟨"j", "GET", "https://v.example/r", sampleInstant 0, none,
          some "47mKTaMaEn1L3m5DAz9muidMqw636xxw7EFAK_YnPdg", none, by decide⟩
      verifies := fun _ _ _ => true
      fromEcComponents := fun _ _ => .error "not an EC key"
      fromRsaComponents := fun _ _ => .error "not an RSA key"
      fromEdComponents := .ok
      thumbprint := fun _ => "kPrK_qmxVWaYVA9wwBF6Iuo3vVzz7TxHCTwXBygrS4k" }
  http :=
    { toUppercase := fun _ => "GET"
      normalizeUri := fun _ => some "https://v.example/r"
      computeAccessTokenHash := fun _ => "47mKTaMaEn1L3m5DAz9muidMqw636xxw7EFAK_YnPdg" }
  fido2 := ⟨fun _ => none, fun _ => .error "no payload", fun _ => .error "no token", fun _ => none,
    fun _ => none⟩
  config := ⟨"https://v.example", 300⟩
  dpopMaxAge := 300

/-- A store that holds the client. -/
def clientStore : Table String (Row Payload) :=
  AList.insert "client" (newRow plainCrypto signingClient 0) ∅

/-- The steps of a thread, at an instant some seconds after the sample second. -/
def stepsAt (i : Fin 3) (steps : Nat) (seconds : Int) : List (Fin 3 × Choice String Timestamp) :=
  List.replicate steps (i, ⟨none, sampleInstant seconds, ""⟩)

section AssertionRun

/-- The digest of the one marker that is inserted. -/
local instance assertionDigest : Digest :=
  ⟨fun _ => "98b2eb80eedfabe55820d3c0cd5f66efaf021f3546a0ef8147bdd00b3570a0e2"⟩

/-- Both copies of the assertion arrive before the skew has run out. -/
def assertionCalls : Fin 3 → ReplayCall String
  | 0 => .authenticateClientJwt someAssertion none (fun _ _ => .ok someEdKey) (sampleInstant 5)
  | 1 => .deleteExpired "jwt_assertion_jti"
  | 2 => .authenticateClientJwt someAssertion none (fun _ _ => .ok someEdKey) (sampleInstant 9)

/-- A run of the two copies and the sweep. -/
def assertionRun (check : Fin 3 → Stmt String (Row Payload) →
    Db (Fin 3) String (Row Payload) Timestamp → Bool)
    (schedule : List (Fin 3 × Choice String Timestamp)) :=
  (replaySystem replayEnv assertionCalls clientStore (sampleInstant 0)).run (fun i => exec i) check
    schedule

/-- The marker of the first copy is swept a second after it expires, and the second copy, which
arrived two seconds earlier, inserts its own. -/
theorem assertion_accepted_twice :
    ∃ q ri rj, Reaches (fun i => exec i) (fun _ _ _ => True)
        (replaySystem replayEnv assertionCalls clientStore (sampleInstant 0)) q ∧
      q.threads 0 = .ret (.ok ri) ∧ q.threads 2 = .ret (.ok rj) ∧
      (assertionCalls 0).accepted replayEnv ri = some (.assertion "cli" "j" (sampleInstant 0)) ∧
      (assertionCalls 2).accepted replayEnv rj = some (.assertion "cli" "j" (sampleInstant 0)) ∧
      q.shared.clock = sampleInstant 11 := by
  -- The second copy looks up its client, and the rest of it waits for the other two threads.
  have hrun : ((assertionRun (fun _ _ _ => true)
      (stepsAt 0 11 5 ++ stepsAt 2 1 9 ++ stepsAt 1 6 11 ++
      stepsAt 2 10 11)).map fun q => ((q.threads 0).result?, (q.threads 2).result?,
        q.shared.clock)) =
      some (some (.ok (signingClient, some ⟨deterministicJtiId "j" "cli"⟩)),
        some (.ok (signingClient, some ⟨deterministicJtiId "j" "cli"⟩)), sampleInstant 11) := rfl
  obtain ⟨q, hreach, hres⟩ := exists_of_run (C := fun _ _ _ => True)
    (fun _ _ _ _ => trivial) hrun
  simp only [Prod.mk.injEq, Prog.result?_eq_some] at hres
  exact ⟨q, _, _, hreach, hres.1, hres.2.1, rfl, rfl, hres.2.2⟩

/-- While the marker of the first copy is there, the second copy is refused: thread 0 is the only
one that accepts the assertion. -/
theorem assertion_accepted_once_in_time :
    ∃ q, Reaches (fun i => exec i) (InTime Payload.isAssertionMarker assertionDeadline)
        (replaySystem replayEnv assertionCalls clientStore (sampleInstant 0)) q ∧
      (∃ r, q.threads 0 = .ret (.ok r) ∧
        (assertionCalls 0).accepted replayEnv r = some (.assertion "cli" "j" (sampleInstant 0))) ∧
      (∃ e, q.threads 2 = .ret (.error e)) ∧
      ∀ k rk, q.threads k = .ret (.ok rk) →
        (assertionCalls k).accepted replayEnv rk = some (.assertion "cli" "j" (sampleInstant 0)) →
        k = 0 := by
  have hrun : ((assertionRun (inTime Payload.isAssertionMarker assertionDeadline) (stepsAt 0 11 5 ++
      stepsAt 2 1 9 ++ stepsAt 1 2 9 ++ stepsAt 2 4 10)).map fun q =>
        ((q.threads 0).result?, (q.threads 2).result?)) =
      some (some (.ok (signingClient, some ⟨deterministicJtiId "j" "cli"⟩)),
        some (.error .invalidCredentials)) := rfl
  obtain ⟨q, hreach, hres⟩ := exists_of_run (fun _ _ _ => InTime.of_check) hrun
  simp only [Prod.mk.injEq, Prog.result?_eq_some] at hres
  exact ⟨q, hreach, ⟨_, hres.1, rfl⟩, ⟨_, hres.2⟩, fun k rk hk hx =>
    assertion_accepted_once hreach hk hres.1 hx rfl⟩

end AssertionRun

section ProofRun

/-- The digest of the one marker that is inserted. -/
local instance proofDigest : Digest :=
  ⟨fun _ => "ab80a8258f1ea81a2db68023b3170b00a752a93a467a69bf811d7aa73e300b1e"⟩

/-- The first copy of the proof arrives as early as the skew allows, the second in its last
second. -/
def proofCalls : Fin 3 → ReplayCall String
  | 0 => .validateDpopAtResource "t" [⟨some someProof⟩] "GET" ["https://v.example/r"]
      (sampleInstant (-60))
  | 1 => .deleteExpired "dpop_jti"
  | 2 => .validateDpopAtResource "t" [⟨some someProof⟩] "GET" ["https://v.example/r"]
      (sampleInstant 299)

/-- What a copy that is accepted returns. -/
def someValidatedProof : ValidatedDpopProof where
  jkt := "kPrK_qmxVWaYVA9wwBF6Iuo3vVzz7TxHCTwXBygrS4k"
  jti := "j"
  source := none
  jtiClaim := ⟨deterministicDpopJtiId "j"⟩

/-- A run of the two copies and the sweep. -/
def proofRun (check : Fin 3 → Stmt String (Row Payload) →
    Db (Fin 3) String (Row Payload) Timestamp → Bool)
    (schedule : List (Fin 3 × Choice String Timestamp)) :=
  (replaySystem replayEnv proofCalls ∅ (sampleInstant (-60))).run (fun i => exec i) check schedule

/-- The marker of the first copy is swept a second after it expires, and the second copy, which
arrived two seconds earlier, inserts its own. -/
theorem proof_accepted_twice :
    ∃ q ri rj, Reaches (fun i => exec i) (fun _ _ _ => True)
        (replaySystem replayEnv proofCalls ∅ (sampleInstant (-60))) q ∧
      q.threads 0 = .ret (.ok ri) ∧ q.threads 2 = .ret (.ok rj) ∧
      (proofCalls 0).acceptedProof replayEnv = some ("j", sampleInstant 0) ∧
      (proofCalls 2).acceptedProof replayEnv = some ("j", sampleInstant 0) ∧
      q.shared.clock = sampleInstant 301 := by
  -- The first copy is accepted, then the sweep runs, then the second copy is decided.
  have hrun : ((proofRun (fun _ _ _ => true) (stepsAt 0 5 (-60) ++ stepsAt 1 6 301 ++
      stepsAt 2 5 301)).map fun q => ((q.threads 0).result?, (q.threads 2).result?,
        q.shared.clock)) =
      some (some (.ok someValidatedProof), some (.ok someValidatedProof), sampleInstant 301) := rfl
  obtain ⟨q, hreach, hres⟩ := exists_of_run (C := fun _ _ _ => True)
    (fun _ _ _ _ => trivial) hrun
  simp only [Prod.mk.injEq, Prog.result?_eq_some] at hres
  exact ⟨q, _, _, hreach, hres.1, hres.2.1, rfl, rfl, hres.2.2⟩

/-- While the proof has not expired, its marker is there and the second copy is refused: thread 0 is
the only one that accepts the proof. -/
theorem proof_accepted_once_in_time :
    ∃ q, Reaches (fun i => exec i)
      (InTime Payload.isProofMarker (proofDeadline replayEnv proofCalls))
        (replaySystem replayEnv proofCalls ∅ (sampleInstant (-60))) q ∧
      (∃ r, q.threads 0 = .ret (.ok r)) ∧
      (proofCalls 0).acceptedProof replayEnv = some ("j", sampleInstant 0) ∧
      (∃ e, q.threads 2 = .ret (.error e)) ∧
      ∀ k rk, q.threads k = .ret (.ok rk) →
        (proofCalls k).acceptedProof replayEnv = some ("j", sampleInstant 0) → k = 0 := by
  have hrun : ((proofRun (inTime Payload.isProofMarker (proofDeadline replayEnv proofCalls))
      (stepsAt 0 5 (-60) ++ stepsAt 1 2 300 ++ stepsAt 2 4 300)).map fun q =>
      ((q.threads 0).result?, (q.threads 2).result?)) =
      some (some (.ok someValidatedProof), some (.error .replayDetected)) := rfl
  obtain ⟨q, hreach, hres⟩ := exists_of_run (fun _ _ _ => InTime.of_check) hrun
  simp only [Prod.mk.injEq, Prog.result?_eq_some] at hres
  exact ⟨q, hreach, ⟨_, hres.1⟩, rfl, ⟨_, hres.2⟩, fun k rk hk hp =>
    proof_accepted_once hreach hk hres.1 hp rfl⟩

end ProofRun

end Vouch
