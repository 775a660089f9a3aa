import Vouch.Auth.Authenticators
import Vouch.Db.ConsumeOnce

/-!
# Signature counters only go up

A cloned key shows in its counter: whichever copy logs in second presents a counter that the first
has already used up.  The server catches it only if the counters it commits for a key go up, however
many logins it verifies at once.

* `counterOf` reads the counter of a row, as an unsigned number.
* `KeyCall.Allows` is what each call may do to a counter: creating a key sets it, a login commits
  one that the stored counter admits, and nothing else touches it.
* `climbing_counters` turns that into a statement about the whole history of a key.
* `sign_counter_climbs` is the result: from the first non-zero counter on, the committed counters
  are strictly increasing, and two logins that succeed with the same non-zero counter are the same
  login.

At the largest row version a guarded write no longer moves it, and two logins can commit the same
counter (`same_counter_twice_at_max_version`).
-/

namespace Vouch

open ReadCommitted Interleaving ReadCommitted.Protocol

/-! ## Calls -/

/-- A call that works on authenticators. -/
inductive KeyCall
  | createAuthenticator (params : CreateAuthenticatorParams)
  | login (req : LoginRequest)
  | updateAuthenticatorName (authenticatorId name : String)
  /-- Deleting an authenticator with what refers to it, in a transaction of its own. -/
  | deleteAuthenticator (authenticatorId : String)
  /-- Deleting any document by its id. -/
  | delete (id : String)

namespace KeyCall

/-- What a call returns. -/
@[reducible] def Result : KeyCall → Type
  | createAuthenticator .. => String
  | login .. => String × LoginAssertionResult
  | updateAuthenticatorName .. | delete .. => Bool
  | deleteAuthenticator .. => Unit

/-- How a call fails. -/
@[reducible] def Error : KeyCall → Type
  | login .. => LoginError
  | _ => StoreError

/-- The program of a call. -/
def run [Digest] (lib : WebauthnLibrary) (crypto : DocumentCrypto) :
    (call : KeyCall) → ExceptT call.Error (DbM Payload) call.Result
  | createAuthenticator params => Vouch.createAuthenticator lib crypto params
  | login req => Vouch.login lib crypto req
  | updateAuthenticatorName authenticatorId name =>
    Vouch.updateAuthenticatorName crypto authenticatorId name
  | deleteAuthenticator authenticatorId => withDsqlRetry StoreError.isRetryableDbError do
      Sql.begin
      Vouch.deleteAuthenticator crypto authenticatorId
      Sql.commit
  | delete id => DocumentStore.delete id

/-- Whether a call commits a counter: the one of a registration, or that of a login. -/
def commitsCounter : KeyCall → Bool
  | createAuthenticator _ | login _ => true
  | _ => false

/-- The key a login used, and the counter it presented. -/
def presented : (call : KeyCall) → call.Result → Option (String × UInt32)
  | login _, (id, result) => some (id, result.newCounter)
  | _, _ => none

/-- A call that presents a counter is a login, which commits one. -/
theorem commitsCounter_of_presented {call : KeyCall} {r : call.Result} {p : String × UInt32}
    (h : call.presented r = some p) : call.commitsCounter = true := by
  cases call with
  | login => rfl
  | _ => cases h

end KeyCall

/-! ## What happens to a counter -/

/-- The counter a document stores, if it is an authenticator. -/
def Payload.signCounter : Payload → Option UInt32
  | .authenticator d => some d.counter.toUInt32
  | _ => none

/-- The counter of the authenticator a row stores. -/
def counterOf (r : Option (Row Payload)) : Option UInt32 := r.bind fun row => row.data.signCounter

/-- What a call may turn a row into: a key that stays keeps its counter, unless the call commits one
that the stored counter admits. -/
structure KeyCall.Allows (call : KeyCall) (old new : Option (Row Payload)) : Prop where
  counter : ∀ n, counterOf new = some n → old = none ∧ call.commitsCounter = true ∨
    ∃ m, counterOf old = some m ∧
      (call.commitsCounter = false ∧ n = m ∨ call.commitsCounter = true ∧ (m = 0 ∨ m < n))
  stays : (counterOf old).isSome → new = none ∨ (counterOf new).isSome

section Allows

variable {call : KeyCall}

theorem KeyCall.allows_none (old : Option (Row Payload)) : call.Allows old none :=
  ⟨fun _ h => (nomatch h), fun _ => .inl rfl⟩

/-- Writing a document that is not an authenticator over another such. -/
theorem KeyCall.allows_other {old new : Option (Row Payload)} (hold : counterOf old = none)
    (hnew : counterOf new = none) : call.Allows old new := by
  refine ⟨fun n hn => ?_, fun h => ?_⟩
  · rw [hnew] at hn
    cases hn
  · rw [hold] at h
    cases h

theorem KeyCall.allows_rewrite {crypto : DocumentCrypto} {row : Row Payload} {now : Timestamp}
    {version : Int} {data data' : AuthenticatorDoc}
    (hrow : DocumentType.fromData row.data = some data)
    (h : call.commitsCounter = false ∧ data'.counter = data.counter ∨
      call.commitsCounter = true ∧
        (data.counter.toUInt32 = 0 ∨ data.counter.toUInt32 < data'.counter.toUInt32)) :
    call.Allows (some row) (some (rewriteRow crypto data' now version row)) := by
  have hold : counterOf (some row) = some data.counter.toUInt32 := by
    rw [counterOf, Option.bind_some, LawfulSeal.eq_toData hrow]
    rfl
  refine ⟨fun n hn => .inr ⟨_, hold, ?_⟩, fun _ => .inr rfl⟩
  cases hn
  rcases h with ⟨hc, hsame⟩ | ⟨hc, hadmits⟩
  · exact .inl ⟨hc, congrArg Int32.toUInt32 hsame⟩
  · exact .inr ⟨hc, hadmits⟩

end Allows

theorem advanceCounter_ok {presented : UInt32} {now : Timestamp} {data data' : AuthenticatorDoc}
    {a : Unit} (h : advanceCounter presented now data = .ok (a, data')) :
    (data.counter.toUInt32 = 0 ∨ data.counter.toUInt32 < presented) ∧
      data'.counter.toUInt32 = presented := by
  rw [advanceCounter] at h
  split at h
  · rename_i hadmits
    cases h
    exact ⟨SignCounter.admits_iff.mp hadmits, UInt32.toUInt32_toInt32 presented⟩
  · cases h

/-! ## Whole histories -/

section Histories

variable {ι : Type} (calls : ι → KeyCall)

/-- The counter a change commits. -/
def committedCounter (c : Change ι String (Row Payload)) : Option UInt32 :=
  if (calls c.owner).commitsCounter then counterOf c.new else none

/-- Every counter that is not zero is exceeded by the ones after it. -/
def Climbing (counters : List UInt32) : Prop := counters.Pairwise fun m n => m ≠ 0 → m < n

variable {calls}

/-- Along the history of a row, the committed counters climb from the one it started with. -/
theorem climbing_counters {r r' : Option (Row Payload)} {l : List (DbChange ι Payload)}
    (hlinked : Linked r l r') (hallowed : ∀ c ∈ l, (calls c.owner).Allows c.old c.new)
    (hreuse : l.Pairwise fun _ c => c.old.isSome) :
    Climbing ((counterOf r).toList ++ l.filterMap (committedCounter calls)) := by
  induction l generalizing r with
  | nil =>
    rw [List.filterMap_nil, List.append_nil]
    cases counterOf r with
    | none => exact .nil
    | some m => exact List.pairwise_singleton _ m
  | cons c cs ih =>
    obtain ⟨rfl, hrest⟩ := hlinked
    obtain ⟨hlater, hreuse⟩ := List.pairwise_cons.mp hreuse
    have hrec := ih hrest (fun e he => hallowed e (List.mem_cons_of_mem _ he)) hreuse
    have hc := hallowed c List.mem_cons_self
    cases hnew : counterOf c.new with
    | none =>
      have hnone : committedCounter calls c = none := by
        rw [committedCounter, hnew, ite_self]
      rw [List.filterMap_cons_none hnone]
      rw [hnew] at hrec
      cases hold : counterOf c.old with
      | none => exact hrec
      | some m =>
        -- The key is gone, and its id is not used again.
        have hgone : c.new = none := by
          rcases hc.stays (by rw [hold]; rfl) with h | h
          · exact h
          · rw [hnew] at h
            cases h
        cases cs with
        | nil => exact List.pairwise_singleton _ m
        | cons e es =>
          have he := hlater e List.mem_cons_self
          rw [hgone] at hrest
          rw [hrest.1] at he
          cases he
    | some n =>
      rw [hnew] at hrec
      rcases hc.counter n hnew with ⟨hold, hcommits⟩ | ⟨m, hold, hstep⟩
      · have hsome : committedCounter calls c = some n := by
          rw [committedCounter, if_pos hcommits, hnew]
        rw [List.filterMap_cons_some hsome, hold]
        exact hrec
      · rcases hstep with ⟨hcommits, rfl⟩ | ⟨hcommits, hadmits⟩
        · have hnone : committedCounter calls c = none := by
            rw [committedCounter, hcommits, if_neg Bool.false_ne_true]
          rw [List.filterMap_cons_none hnone, hold]
          exact hrec
        · have hsome : committedCounter calls c = some n := by
            rw [committedCounter, if_pos hcommits, hnew]
          rw [List.filterMap_cons_some hsome, hold]
          -- What exceeds the new counter exceeds the old one.
          refine List.pairwise_cons.mpr ⟨fun k hk hm => ?_, hrec⟩
          have hmn : m < n := hadmits.resolve_left hm
          rcases List.mem_cons.mp hk with rfl | hk
          · exact hmn
          · have hn : n ≠ 0 := fun h => absurd (h ▸ hmn) UInt32.not_lt_zero
            exact UInt32.lt_trans hmn (List.rel_of_pairwise_cons hrec hk hn)

/-- A counter that is not zero is committed once. -/
theorem Climbing.unique {α : Type} {f : α → Option UInt32} {l : List α}
    (h : Climbing (l.filterMap f)) {c c' : α} (hc : c ∈ l) (hc' : c' ∈ l) {n : UInt32}
    (hn : n ≠ 0) (hfc : f c = some n) (hfc' : f c' = some n) : c = c' := by
  have hdistinct : l.Pairwise fun a a' => ¬ (f a = some n ∧ f a' = some n) := by
    refine (List.pairwise_filterMap.mp h).imp fun {a a'} hlt hboth => ?_
    exact UInt32.lt_irrefl n (hlt n hboth.1 n hboth.2 hn)
  have : Std.Symm fun a a' : α => ¬ (f a = some n ∧ f a' = some n) :=
    ⟨fun _ _ h h' => h h'.symm⟩
  by_contra hne
  exact hdistinct.forall hc hc' hne ⟨hfc, hfc'⟩

end Histories

/-! ## Each call -/

section Calls

variable {ι : Type} [DecidableEq ι] {init : Table String (Row Payload)} {i : ι}
  {calls : ι → KeyCall} {lib : WebauthnLibrary} {crypto : DocumentCrypto}

/-- What the threads may turn rows into. -/
def KeyAllowed (calls : ι → KeyCall) (i : ι) (_id : String) (old new : Option (Row Payload)) :
    Prop :=
  (calls i).Allows old new

/-- The protocol of the authenticators. -/
abbrev keyProtocol (calls : ι → KeyCall) (init : Table String (Row Payload)) :
    Protocol ι String (Row Payload) Timestamp :=
  ledgerProtocol init (KeyAllowed calls)

/-- Thread `i` has committed a counter for a key. -/
def CounterCommitted (i : ι) (id : String) (counter : UInt32)
    (d : Durable ι String (Row Payload) Timestamp) : Prop :=
  ∃ old new, Made i id old new d ∧ counterOf new = some counter

theorem stable_counterCommitted {P : DbProtocol ι Payload} {id : String} {counter : UInt32} :
    P.Stable i (CounterCommitted i id counter) :=
  stable_exists fun _ => stable_exists fun _ => (stable_made _ _ _).and (stable_const _ i _)

/-- What a call leaves behind when it returns: a login has committed the counter it presented. -/
def KeyCall.Left (i : ι) (call : KeyCall) (r : call.Result)
    (d : Durable ι String (Row Payload) Timestamp) : Prop :=
  ∀ id counter, call.presented r = some (id, counter) → CounterCommitted i id counter d

theorem stable_anything {P : DbProtocol ι Payload} : P.Stable i fun _ => True :=
  stable_const _ i True

theorem triple_createAuthenticator {params : CreateAuthenticatorParams}
    (hcall : calls i = .createAuthenticator params) :
    (keyProtocol calls init).Follows i (createAuthenticator lib crypto params) := by
  refine .bind (triple_ledgerInsert (C := fun _ => True) (fun _ _ _ h => h) fun id now => ?_)
    fun _ => .done
  refine ⟨fun n _ => .inl ⟨rfl, ?_⟩, fun h => nomatch h⟩
  rw [hcall]
  rfl

variable {authenticatorId : String}

theorem triple_commitAuthenticatorCounter {presented : UInt32}
    (hcall : (calls i).commitsCounter = true) :
    (keyProtocol calls init).Triple i (fun _ => True)
      (commitAuthenticatorCounter crypto authenticatorId presented)
      (fun r d => r = .committed → CounterCommitted i authenticatorId presented d)
      fun _ _ => True := by
  refine .bind (triple_ledgerTransition (C := fun _ => True) (fun _ _ _ h => h)
    fun now now' row data a data' hdata hd => ?_) fun r => ?_
  · obtain ⟨hadmits, hnew⟩ := advanceCounter_ok hd
    exact KeyCall.allows_rewrite hdata (.inr ⟨hcall, hnew ▸ hadmits⟩)
  · cases r with
    | applied a =>
      refine .pure (stable_counterCommitted.imp _) fun d h _ => ?_
      obtain ⟨now, now', row, data, data', -, hdata, hd, hmade⟩ := h.2 a rfl
      exact ⟨_, _, hmade, congrArg some (advanceCounter_ok hd).2⟩
    | rejected => exact .pure (stable_counterCommitted.imp _) fun d _ h => nomatch h
    | notFound => exact .pure (stable_counterCommitted.imp _) fun d _ h => nomatch h

/-- The lookup of a login only reads. -/
theorem triple_lookupAndVerifyAuthenticator [Digest] {credentialId : List UInt8} {userId : String} :
    (keyProtocol calls init).Follows i
      (lookupAndVerifyAuthenticator lib crypto credentialId userId) := by
  have hget : (keyProtocol calls init).Follows i
      (getAuthenticatorWithUserByCredentialId lib crypto credentialId) := by
    refine .bind ((triple_findOneHeld ledgerProtocol_versioned stable_anything).weaken fun _ _ _ =>
      trivial) fun r => ?_
    cases r with
    | none => exact .done
    | some doc =>
      refine .orThrow_bind (fun _ => stable_anything) (fun authenticator _ => ?_) fun _ _ _ h => h
      refine .bind ((triple_getHeld ledgerProtocol_versioned stable_anything).weaken fun _ _ _ =>
        trivial) fun r => ?_
      cases r with
      | none => exact .done
      | some user => exact .done
  refine .bind (.mapError hget) fun r => ?_
  cases r with
  | none => exact .fail
  | some found =>
    simp only
    split
    · exact .fail
    · split
      · exact .fail
      · exact .done

theorem triple_verifyLoginAssertion {params : LoginAssertionParams}
    (hcall : (calls i).commitsCounter = true) :
    (keyProtocol calls init).Triple i (fun _ => True)
      (verifyLoginAssertion lib crypto authenticatorId params)
      (fun result => CounterCommitted i authenticatorId result.newCounter) fun _ _ => True := by
  rw [verifyLoginAssertion]
  split
  · exact .fail
  · rename_i newCounter userVerified _
    refine .bind (.now stable_anything (fun _ => stable_anything) fun _ _ _ h => h)
      fun verifiedAt => ?_
    refine .bind (.mapError (triple_commitAuthenticatorCounter hcall)) fun r => ?_
    cases r with
    | committed => exact .pure stable_counterCommitted fun d h => h rfl
    | notIncreasing => exact .fail
    | keyDeleted => exact .fail

theorem triple_login [Digest] {req : LoginRequest} (hcall : calls i = .login req) :
    (keyProtocol calls init).Triple i (fun _ => True) (login lib crypto req)
      (fun r => CounterCommitted i r.1 r.2.newCounter) fun _ _ => True := by
  have hcommits : (calls i).commitsCounter = true := by
    rw [hcall]
    rfl
  refine .bind (.mapError triple_lookupAndVerifyAuthenticator) fun found => ?_
  refine .bind (.mapError (triple_verifyLoginAssertion hcommits)) fun result => ?_
  exact .pure stable_counterCommitted fun d h => h

theorem triple_updateAuthenticatorName {name : String}
    (hcall : calls i = .updateAuthenticatorName authenticatorId name) :
    (keyProtocol calls init).Follows i (updateAuthenticatorName crypto authenticatorId name) := by
  refine .bind ((triple_ledgerTransition (C := fun _ => True) (fun _ _ _ h => h)
    fun now now' row data a data' hdata hd => ?_).follows) fun r => ?_
  · cases hd
    refine KeyCall.allows_rewrite hdata (.inl ⟨?_, rfl⟩)
    rw [hcall]
    rfl
  · cases r with
    | applied => exact .done
    | rejected r => exact r.elim
    | notFound => exact .done

/-- Deleting a key writes to device authorization requests, which have no counter. -/
theorem triple_keyDelete :
    (keyProtocol calls init).Follows i (withDsqlRetry StoreError.isRetryableDbError do
        Sql.begin
        deleteAuthenticator crypto authenticatorId
        Sql.commit) := by
  have hdevice : ∀ {row : Row Payload} {data : DeviceAuthRequestDoc},
      DocumentType.fromData row.data = some data → counterOf (some row) = none := by
    intro row data h
    rw [counterOf, Option.bind_some, LawfulSeal.eq_toData h]
    rfl
  refine triple_ledgerDeleteAuthenticator (C := fun _ => True) (fun _ _ _ h => h)
    (fun k cur data now h => KeyCall.allows_other (hdevice h) rfl) ?_ fun k old =>
    KeyCall.allows_none old
  intro k old cur data now h hold
  refine KeyCall.allows_other ?_ rfl
  by_contra hsome
  rcases hold.stays (Option.isSome_iff_ne_none.mpr hsome) with hnone | hcur
  · cases hnone
  · rw [hdevice h] at hcur
    cases hcur

/-- A call does what it may to the counters, and a login leaves its own behind. -/
theorem triple_keyCall [Digest] :
    (keyProtocol calls init).Triple i (fun _ => True) ((calls i).run lib crypto)
      (fun r => (calls i).Left i r) fun _ _ => True := by
  have hrun : ∀ call : KeyCall, calls i = call →
      (keyProtocol calls init).Triple i (fun _ => True) (call.run lib crypto)
        (fun r => call.Left i r) fun _ _ => True := by
    intro call hcall
    cases call with
    | createAuthenticator params =>
      exact (triple_createAuthenticator hcall).weaken fun _ _ _ _ _ h => nomatch h
    | login req =>
      refine (triple_login hcall).weaken fun r d h id counter hp => ?_
      cases hp
      exact h
    | updateAuthenticatorName authenticatorId name =>
      exact (triple_updateAuthenticatorName hcall).weaken fun _ _ _ _ _ h => nomatch h
    | deleteAuthenticator authenticatorId =>
      exact triple_keyDelete.weaken fun _ _ _ _ _ h => nomatch h
    | delete id =>
      exact (triple_ledgerDelete (C := fun _ => True) (fun _ _ _ h => h)
        fun old => KeyCall.allows_none old).weaken fun _ _ _ _ _ h => nomatch h
  exact hrun (calls i) rfl

end Calls

/-! ## The system -/

section System

variable {ι : Type} [DecidableEq ι] [Digest]

/-- The callers, before any of them has done anything. -/
def keySystem (lib : WebauthnLibrary) (crypto : DocumentCrypto) (calls : ι → KeyCall)
    (init : Table String (Row Payload)) (clock : Timestamp) :
    Config ι (Stmt String (Row Payload)) (Stmt.Res Timestamp)
      (fun i => Except (calls i).Error (calls i).Result) (Db ι String (Row Payload) Timestamp) where
  threads i := (calls i).run lib crypto
  shared := { committed := init, log := [], clock := clock, pending := ∅, reads := fun _ => [] }

variable {lib : WebauthnLibrary} {crypto : DocumentCrypto} {calls : ι → KeyCall}
  {init : Table String (Row Payload)} {clock : Timestamp}
  {q : Config ι (Stmt String (Row Payload)) (Stmt.Res Timestamp)
    (fun i => Except (calls i).Error (calls i).Result) (DbState ι Payload)}

omit [DecidableEq ι] [Digest] in
theorem Ledger.climbing {d : DbDurable ι Payload} (h : Ledger init (KeyAllowed calls) d)
    (id : String) :
    Climbing ((counterOf (init.lookup id)).toList ++
      (history id d.log).filterMap (committedCounter calls)) :=
  climbing_counters (h.linked id) (fun c hc => h.allowed c (mem_history.mp hc).1)
    (h.toVersionedLog.pairwise_history id)

/-- **Signature counters only go up.**  However logins, registrations, renamings and deletions
interleave, the counters committed for a key are strictly increasing from the first that is not
zero on, and two logins that succeed with the same non-zero counter are the same login. -/
theorem sign_counter_climbs
    (hrun : Reaches (fun i => exec i) (fun _ o s => VersionsInRange s ∧ NotReinserted o s)
      (keySystem lib crypto calls init clock) q) :
    (∀ id, Linked (init.lookup id) (history id q.shared.log) (q.shared.committed.lookup id) ∧
      Climbing ((counterOf (init.lookup id)).toList ++
        (history id q.shared.log).filterMap (committedCounter calls))) ∧
    ∀ i j ri rj id counter, q.threads i = .ret (.ok ri) → q.threads j = .ret (.ok rj) →
      (calls i).presented ri = some (id, counter) → (calls j).presented rj = some (id, counter) →
      counter ≠ 0 → i = j := by
  obtain ⟨hledger, hleft, -⟩ := (keyProtocol calls init).reaches_spec hrun (Ledger.start clock)
    (fun _ => triple_keyCall) (fun _ => rfl) fun _ => trivial
  refine ⟨fun id => ⟨hledger.linked id, hledger.climbing id⟩, ?_⟩
  intro i j ri rj id counter hi hj hpi hpj hcounter
  -- Each of the two logins has made a change that commits the counter.
  have hcommit : ∀ k rk, q.threads k = .ret (.ok rk) → (calls k).presented rk = some (id, counter) →
      ∃ c ∈ history id q.shared.log, c.owner = k ∧ committedCounter calls c = some counter := by
    intro k rk hk hp
    obtain ⟨old, new, hmade, hnew⟩ := hleft k rk hk id counter hp
    refine ⟨_, mem_history.mpr ⟨hmade.mem, rfl⟩, rfl, ?_⟩
    rw [committedCounter, if_pos (KeyCall.commitsCounter_of_presented hp), hnew]
  obtain ⟨c, hc, rfl, hcounter_c⟩ := hcommit i ri hi hpi
  obtain ⟨c', hc', rfl, hcounter_c'⟩ := hcommit j rj hj hpj
  have hclimbs : Climbing ((history id q.shared.log).filterMap (committedCounter calls)) :=
    (List.pairwise_append.mp (hledger.climbing id)).2.1
  exact congrArg Change.owner (hclimbs.unique hc hc' hcounter hcounter_c hcounter_c')

end System

/-! ### Runs -/

section Run

/-- A digest for runs in which none is taken. -/
local instance keyDigest : Digest := ⟨id⟩

/-- SHA-256 of the relying party's name. -/
def someRpIdHash : List UInt8 :=
  [76, 148, 72, 94, 12, 33, 174, 108, 65, 206, 29, 254, 123, 107, 250, 206, 234, 90, 182, 142, 64,
    162, 71, 111, 80, 32, 142, 82, 111, 80, 96, 128]

/-- SHA-256 of the client data. -/
def someClientDataHash : List UInt8 :=
  [169, 129, 137, 63, 14, 16, 22, 152, 213, 181, 153, 170, 4, 152, 179, 167, 184, 189,
    227, 219, 103, 1, 168, 225, 241, 179, 183, 98, 244, 81, 142, 77]

/-- The client data a browser signs for the challenge. -/
def someClientDataJson : List UInt8 :=
  let json := "\x7b\"type\":\"webauthn.get\",\"challenge\":\"AQ\",\"origin\":\"https://v\"\x7d"
  json.toUTF8.data.toList

/-- The third-party code, on the one assertion of the runs. -/
def someWebauthnLibrary : WebauthnLibrary where
  sha256 bytes := if bytes = [118] then someRpIdHash else someClientDataHash
  clientDataFromSlice _ := .ok ⟨"webauthn.get", "AQ", "https://v"⟩
  verifyCose _ _ _ := .ok ()
  isLoopbackOrigin _ := false
  encodeBase64Url _ := "AQ"
  decodeBase64Url _ := some [1]

/-- A key whose counter is just below the largest signed number. -/
def someKey : AuthenticatorDoc where
  userId := "user"
  name := "key"
  credentialId := "AQ"
  publicKey := "AQ"
  counter := (2147483647 : UInt32).toInt32
  aaguid := none
  userHandle := none
  attestationVerified := false

/-- The owner of the key. -/
def someOwner : UserDoc where
  email := ⟨"u@v", by decide +kernel⟩
  name := none
  orgId := none
  orgDomain := none
  isOrgAdmin := false
  active := true
  externalId := none
  githubId := none
  githubLogin := none
  githubRefreshToken := none
  idpIdentities := []

/-- A store that holds the key, at some version, and its owner. -/
def keyStore (version : Int) : Table String (Row Payload) :=
  AList.insert "key" { newRow plainCrypto someKey 0 with version }
    (AList.insert "user" (newRow plainCrypto someOwner 0) ∅)

/-- A login with the counter after that, `2 ^ 31`. -/
def someLogin : LoginRequest where
  credentialId := [1]
  userId := "user"
  authenticatorData := someRpIdHash ++ [5, 128, 0, 0, 0]
  clientDataJson := someClientDataJson
  signature := []
  rpId := "v"
  expectedOrigin := "https://v"
  challenge := [1]
  originPolicy := .strict

/-- Two copies of a key log in with the same counter while the owner renames it. -/
def keyCalls : Fin 3 → KeyCall
  | 0 => .login someLogin
  | 1 => .updateAuthenticatorName "key" "renamed"
  | 2 => .login someLogin

/-- A run of the two logins and the renaming. -/
def keyRun (version : Int) (check : Stmt String (Row Payload) →
    Db (Fin 3) String (Row Payload) Timestamp → Bool) (schedule : List (Fin 3)) :=
  (keySystem someWebauthnLibrary plainCrypto keyCalls (keyStore version) 0).run (fun i => exec i)
    (fun _ o s => check o s) (schedule.map fun i => (i, ⟨none, 0, ""⟩))

/-- At the largest version a guarded write no longer moves it: two logins that both read the key
before either writes both succeed with the same counter. -/
theorem same_counter_twice_at_max_version :
    ∃ q, Reaches (fun i => exec i) (fun _ o s => NotReinserted o s)
        (keySystem someWebauthnLibrary plainCrypto keyCalls (keyStore maxVersion) 0) q ∧
      q.threads 0 = .ret (.ok ("key", ⟨2147483648, true, 0⟩)) ∧
      q.threads 2 = .ret (.ok ("key", ⟨2147483648, true, 0⟩)) := by
  -- Thread 2 has read the key for its guarded write when thread 0 commits.
  have hrun : ((keyRun maxVersion notReinserted
      (List.replicate 4 2 ++ List.replicate 10 0 ++ List.replicate 6 2)).map fun q =>
      ((q.threads 0).result?, (q.threads 2).result?)) =
      some (some (.ok ("key", ⟨2147483648, true, 0⟩)),
        some (.ok ("key", ⟨2147483648, true, 0⟩))) := rfl
  obtain ⟨q, hreach, hres⟩ := exists_of_run (fun _ _ _ => NotReinserted.of_check) hrun
  simp only [Prod.mk.injEq, Prog.result?_eq_some] at hres
  exact ⟨q, hreach, hres.1, hres.2⟩

/-- The same race at the first version, with a renaming in between: the first login goes from
`2 ^ 31 - 1` to `2 ^ 31`, which is a step up, and no other login succeeds with that counter. -/
theorem sign_counter_climbs_run :
    ∃ q, Reaches (fun i => exec i) (fun _ o s => VersionsInRange s ∧ NotReinserted o s)
        (keySystem someWebauthnLibrary plainCrypto keyCalls (keyStore 1) 0) q ∧
      q.threads 0 = .ret (.ok ("key", ⟨2147483648, true, 0⟩)) ∧
      (∃ e, q.threads 2 = .ret (.error e)) ∧
      ∀ k rk, q.threads k = .ret (.ok rk) → (keyCalls k).presented rk = some ("key", 2147483648) →
        k = 0 := by
  have hrun : ((keyRun 1 (fun o s => versionsInRange s && notReinserted o s)
      (List.replicate 4 2 ++ List.replicate 7 1 ++ List.replicate 10 0 ++
        List.replicate 7 2)).map fun q => ((q.threads 0).result?, (q.threads 2).result?)) =
      some (some (.ok ("key", ⟨2147483648, true, 0⟩)),
        some (.error (.assertion (.rejected .counterNotIncreasing)))) := rfl
  obtain ⟨q, hreach, hres⟩ := exists_of_run (fun _ _ _ => regular_of_check) hrun
  simp only [Prod.mk.injEq, Prog.result?_eq_some] at hres
  refine ⟨q, hreach, hres.1, ⟨_, hres.2⟩, fun k rk hk hp => ?_⟩
  exact (sign_counter_climbs hreach).2 k 0 rk _ "key" 2147483648 hk hres.1 hp rfl (by decide)

end Run

end Vouch
