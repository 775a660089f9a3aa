import Vouch.Store.Spec

/-!
# No lost update

Any number of callers work on the store at once: transitions, unconditional modifications, guarded
writes of a document read earlier, bare compare-and-swaps, and rewrites of everything an index
matches.  However their statements interleave, each row has one linear history of committed
versions, and each committed version was computed from the one before it by the closure of the call
that wrote it.

* `StoreCall` is a call, `StoreCall.run` the program it stands for and `StoreCall.Result` what it
  returns.
* `Makes call r c` says that `c` is a change the call may commit when it goes on to return `r`, and
  `StoreCall.writes r` how many changes it reports having made.
* `Linear` is the invariant of the system, and `noLostUpdate` the result: the history is linear,
  each change is one its owner makes, and what a finished call reports is what it has done.
* Whether two runs of one transition can both be applied is a matter of what the others write.  A
  closure that rejects its own output is applied at most once so long as nobody leads the document
  back to a state it accepts; if somebody does, it may be applied again
  (`transition_applied_twice`).
-/

namespace Vouch

open ReadCommitted Interleaving ReadCommitted.Protocol

/-! ## Calls -/

/-- A call that writes documents of type `T`. -/
inductive StoreCall (T : Type) : Type 1
  /-- `transition_versioned`. -/
  | transition {A R : Type} (id : String) (decide : Timestamp → T → Except R (A × T))
  | modify (id : String) (modifier : T → T)
  /-- `compare_and_update` of a document the caller has at hand. -/
  | compareAndUpdate (id : String) (expected : Int) (doc : T)
  /-- `get`, and a `compare_and_update` of what the caller made of it. -/
  | getAndUpdate (id : String) (f : T → T)
  | updateByIndex (field value : String) (modifier : T → T)

namespace StoreCall

variable {ι D T : Type} [DocumentType D T] (crypto : DocumentCrypto)

/-- What a call returns. -/
@[reducible] def Result : StoreCall T → Type
  | @transition _ A R _ _ => Transition (A × Int) R
  | modify _ _ | compareAndUpdate _ _ _ => Bool
  | getAndUpdate _ _ => Option Bool
  | updateByIndex _ _ _ => Nat

/-- The program of a call. -/
def run : (call : StoreCall T) → ExceptT StoreError (DbM D) call.Result
  | transition id decide => DocumentStore.transitionVersioned crypto id decide
  | modify id modifier => DocumentStore.modify crypto id modifier
  | compareAndUpdate id expected doc => DocumentStore.compareAndUpdate crypto id expected doc
  | getAndUpdate id f => do
    match ← DocumentStore.get T id with
    | none => pure none
    | some doc => some <$> DocumentStore.compareAndUpdate crypto id doc.version (f doc.data)
  | updateByIndex field value modifier => DocumentStore.updateByIndex crypto field value modifier

/-- How many changes a call reports having made. -/
def writes : (call : StoreCall T) → call.Result → Nat
  | transition _ _, .applied _ => 1
  | transition _ _, _ => 0
  | modify _ _, won | compareAndUpdate _ _ _, won => if won then 1 else 0
  | getAndUpdate _ _, won => if won = some true then 1 else 0
  | updateByIndex _ _ _, n => n

/-- The call reports a write. -/
def Applied (call : StoreCall T) : Except StoreError call.Result → Prop
  | .ok r => 0 < call.writes r
  | .error _ => False

end StoreCall

variable {ι D T : Type} [DocumentType D T]

/-- A change rewrites one version of a document as the next. -/
structure Rewrites (c : Change ι String (Row D)) (data data' : T) (version : Int) : Prop where
  old : ∃ row, c.old = some row ∧ DocumentType.fromData row.data = some data ∧
    row.version + 1 = version
  new : ∃ row, c.new = some row ∧ DocumentType.fromData row.data = some data' ∧
    row.version = version

/-- A change a call may make, on its way to returning a result. -/
def Makes : (call : StoreCall T) → call.Result → Change ι String (Row D) → Prop
  | .transition id decide, .applied (a, version), c => c.id = id ∧
      ∃ now data data', decide now data = .ok (a, data') ∧ Rewrites c data data' version
  | .transition _ _, _, _ => False
  | .modify id modifier, won, c => won = true ∧ c.id = id ∧
      ∃ data version, Rewrites c data (modifier data) version
  | .compareAndUpdate id expected doc, won, c => won = true ∧ c.id = id ∧
      (∃ row, c.old = some row ∧ row.version = expected) ∧
      ∃ row, c.new = some row ∧ DocumentType.fromData row.data = some doc ∧
        row.version = expected + 1
  | .getAndUpdate id f, won, c => won = some true ∧ c.id = id ∧
      ∃ data version, Rewrites c data (f data) version
  | .updateByIndex _ _ modifier, _, c => ∃ data version, Rewrites c data (modifier data) version

/-- What a call has done is what it reports: a call that returns has made the changes it says, each
of a different row, and one that fails has made none. -/
def Reported (call : StoreCall T) :
    Except StoreError call.Result → List (Change ι String (Row D)) → Prop
  | .ok r, cs => cs.length = call.writes r ∧ (cs.map (·.id)).Nodup ∧ ∀ c ∈ cs, Makes call r c
  | .error _, cs => cs = []

theorem Reported.exists_of_applied {call : StoreCall T} {r : Except StoreError call.Result}
    {cs : List (DbChange ι D)} (h : Reported call r cs) (ha : call.Applied r) : ∃ c, c ∈ cs := by
  cases r with
  | error e => exact ha.elim
  | ok r => exact List.exists_mem_of_length_pos (h.1 ▸ ha)

/-! ## The invariant -/

section Invariant

variable (calls : ι → StoreCall T) (init : Table String (Row D))

/-- The log leads from the initial rows to the committed ones, each change replaces a version by the
next, and each is one that its owner makes. -/
structure Linear (d : Durable ι String (Row D) Timestamp) : Prop where
  linked : ∀ id, Linked (init.lookup id) (history id d.log) (d.committed.lookup id)
  next : ∀ c ∈ d.log, ∃ old new, c.old = some old ∧ c.new = some new ∧
    new.version = old.version + 1
  made : ∀ c ∈ d.log, ∃ r, Makes (calls c.owner) r c

/-- No version has reached the largest 32-bit one. -/
def VersionsBelowMax (s : Db ι String (Row D) Timestamp) : Prop :=
  ∀ id row, s.committed.lookup id = some row → row.version < maxVersion

/-- The protocol of the store's writers. -/
def storeProtocol : Protocol ι String (Row D) Timestamp where
  cond _ _ s := VersionsBelowMax s
  inv := Linear calls init
  evolves _ _ := True
  evolves_refl _ := trivial
  evolves_trans _ _ _ _ _ := trivial
  inv_tick _ _ _ h := ⟨h.linked, h.next, h.made⟩
  evolves_tick _ _ _ := trivial

variable {calls init}

theorem Linear.versionedLog {d : DbDurable ι D} (h : Linear calls init d) : VersionedLog d.log := by
  constructor
  · intro c hc old new hold hnew
    obtain ⟨old', new', hold', hnew', hv⟩ := h.next c hc
    rw [hold] at hold'
    rw [hnew] at hnew'
    cases hold'
    cases hnew'
    omega
  · refine List.pairwise_of_forall_mem_list fun c _ c' hc' _ => ?_
    obtain ⟨old, _, hold, _⟩ := h.next c' hc'
    rw [hold]
    rfl

variable [DecidableEq ι] {i : ι}

/-- Committing the next versions of some rows, each as the thread's call makes it, keeps the history
linear and is what the call reports. -/
theorem Linear.install {t : DbState ι D} (h : Linear calls init t.toDurable)
    (hnone : changesBy i t.log = []) {call : StoreCall T} (hcall : calls i = call) {r : call.Result}
    (hown : ∀ id w, t.own i id = some w → ∃ old new, t.committed.lookup id = some old ∧
      w = some new ∧ new.version = old.version + 1 ∧ Makes call r ⟨i, id, some old, some new⟩)
    (hlen : (t.changes i).length = call.writes r) :
    Linear calls init (t.install i).toDurable ∧ True ∧
      Reported call (.ok r) (changesBy i (t.install i).log) := by
  subst hcall
  have hmakes : ∀ c ∈ t.changes i, ∃ old new, c.owner = i ∧ c.old = some old ∧ c.new = some new ∧
      new.version = old.version + 1 ∧ Makes (calls i) r c := by
    rintro ⟨owner, id, cold, cnew⟩ hc
    obtain ⟨rfl, hw, hold⟩ := Db.mem_changes.mp hc
    obtain ⟨old, new, hlook, rfl, hv, hm⟩ := hown _ _ hw
    simp only [hlook] at hold
    subst hold
    exact ⟨old, new, rfl, rfl, rfl, hv, hm⟩
  refine ⟨⟨fun id => ?_, fun c hc => ?_, fun c hc => ?_⟩, trivial, ?_⟩
  · have := (h.linked id).append (t.linked_install i id)
    rwa [← history_append] at this
  · rcases List.mem_append.mp hc with hc | hc
    · exact h.next c hc
    · obtain ⟨old, new, -, hold, hnew, hv, -⟩ := hmakes c hc
      exact ⟨old, new, hold, hnew, hv⟩
  · rcases List.mem_append.mp hc with hc | hc
    · exact h.made c hc
    · obtain ⟨old, new, rfl, -, -, -, hm⟩ := hmakes c hc
      exact ⟨r, hm⟩
  · have hlog : changesBy i (t.install i).log = t.changes i := by
      show changesBy i (t.log ++ t.changes i) = _
      rw [changesBy_append, hnone, List.nil_append, Db.changesBy_changes]
    rw [hlog]
    refine ⟨hlen, Db.changes_ids_nodup t i, fun c hc => ?_⟩
    obtain ⟨-, -, -, -, -, -, hm⟩ := hmakes c hc
    exact hm

/-- The case of one row. -/
theorem Linear.install_one {t : DbState ι D} (h : Linear calls init t.toDurable)
    (hnone : changesBy i t.log = []) {call : StoreCall T} (hcall : calls i = call) {r : call.Result}
    {id : String} {old new : Row D} (hw : Wrote i t id (some new))
    (hold : t.committed.lookup id = some old) (hv : new.version = old.version + 1)
    (hm : Makes call r ⟨i, id, some old, some new⟩) (hone : call.writes r = 1) :
    Linear calls init (t.install i).toDurable ∧ True ∧
      Reported call (.ok r) (changesBy i (t.install i).log) := by
  refine h.install hnone hcall (fun k w hk => ?_) ?_
  · obtain ⟨rfl, rfl⟩ := hw.eq hk
    exact ⟨old, new, hold, rfl, hv, hm⟩
  · rw [Db.changes_eq_singleton hw, hone]
    rfl

omit [DecidableEq ι] in
/-- The row of the next version of a document, below the largest version. -/
theorem rewrites_rewriteRow {crypto : DocumentCrypto} {id : String} {old : Row D} {data data' : T}
    {now : Timestamp} (hdata : DocumentType.fromData old.data = some data)
    (hmax : old.version < maxVersion) :
    Rewrites (D := D) ⟨i, id, some old,
      some (rewriteRow crypto data' now (nextVersion old.version) old)⟩
      data data' (nextVersion old.version) :=
  ⟨⟨old, rfl, hdata, (nextVersion_of_lt hmax).symm⟩,
    ⟨_, rfl, DocumentType.fromData_toData data', rfl⟩⟩

/-! ## Each call -/

variable {crypto : DocumentCrypto}

/-- A call keeps the history linear and reports what it has done. -/
theorem triple_storeCall {call : StoreCall T} (hcall : calls i = call) :
    (storeProtocol calls init).Triple i (fun d => changesBy i d.log = []) (call.run crypto)
      (fun r d => Reported call (.ok r) (changesBy i d.log))
      (fun e d => Reported call (.error e) (changesBy i d.log)) := by
  have hver : ∀ d, (storeProtocol calls init).inv d → VersionedLog d.log :=
    fun d h => h.versionedLog
  have hPre := stable_changesBy (storeProtocol calls init) i fun cs => cs = []
  have hQ := fun r => stable_changesBy (storeProtocol calls init) i (Reported call (.ok r))
  have hnothing : ∀ r, call.writes r = 0 → ∀ d : DbDurable ι D,
      changesBy i d.log = [] → Reported call (.ok r) (changesBy i d.log) := by
    intro r hr d hd
    rw [hd]
    exact ⟨hr.symm, List.nodup_nil, fun c hc => absurd hc List.not_mem_nil⟩
  cases call with
  | transition id decide =>
    refine triple_transitionVersioned hver hPre hQ (hnothing _ rfl)
      (fun _ _ _ d _ => hnothing _ rfl d) ?_
    intro t now now' old data a data' hinv hp hc _ hw hold _ hdata hd
    exact hinv.install_one hp hcall hw hold (nextVersion_of_lt (hc id old hold))
      ⟨rfl, now, data, data', hd, rewrites_rewriteRow hdata (hc id old hold)⟩ rfl
  | modify id modifier =>
    refine triple_modify hver hPre hQ (hnothing _ rfl) ?_
    intro t now old data hinv hp hc hw hold _ hdata
    exact hinv.install_one hp hcall hw hold (nextVersion_of_lt (hc id old hold))
      ⟨rfl, rfl, data, _, rewrites_rewriteRow hdata (hc id old hold)⟩ rfl
  | compareAndUpdate id expected doc =>
    refine triple_compareAndUpdate hPre hQ (hnothing _ rfl) ?_
    intro t now old hinv hp hc hw hold hv
    subst hv
    have hnext := nextVersion_of_lt (hc id old hold)
    exact hinv.install_one hp hcall hw hold hnext
      ⟨rfl, rfl, ⟨old, rfl, rfl⟩, _, rfl, DocumentType.fromData_toData doc, hnext⟩ rfl
  | getAndUpdate id f =>
    refine .bind (R := fun r d => changesBy i d.log = [] ∧ match r with
      | none => True
      | some doc => ∃ row, rawToDocument T id row = .ok doc ∧ Read id row d)
      (triple_get hPre ?_ (fun d hp _ _ => ⟨hp, trivial⟩)
        fun d row doc hp _ hrow _ hraw => ⟨hp, row, hraw, .inl hrow⟩) ?_
    · intro r
      cases r with
      | none => exact hPre.and (stable_const _ _ _)
      | some doc => exact hPre.and (stable_exists fun row =>
          (stable_const _ _ _).and (stable_read hver id row))
    · intro r
      cases r with
      | none => exact .pure (hQ none) fun d h => hnothing none rfl d h.1
      | some doc =>
        refine .bind (R :=
          fun won d => Reported (.getAndUpdate id f) (.ok (some won)) (changesBy i d.log))
          (.forget (triple_compareAndUpdate (hPre.and (stable_exists fun row =>
            (stable_const _ _ _).and (stable_read hver id row))) (fun won => hQ (some won))
            (fun d h => hnothing (some false) rfl d h.1) ?_) fun _ _ h => h.1)
          fun won => .pure (hQ (some won)) fun d h => h
        intro t now old hinv hp hc hw hold hv
        obtain ⟨hp, row, hraw, hread⟩ := hp
        obtain ⟨-, hdv, hdata⟩ := rawToDocument_eq_ok hraw
        obtain rfl := hread.eq hold (hv.trans hdv)
        rw [hdv] at hw
        exact hinv.install_one hp hcall hw hold (nextVersion_of_lt (hc id old hold))
          ⟨rfl, rfl, doc.data, _, rewrites_rewriteRow hdata (hc id old hold)⟩ rfl
  | updateByIndex field value modifier =>
    refine triple_updateByIndex hver hPre hQ ?_
    intro t now docs hinv hp hc hnd honly hrows
    refine hinv.install hp hcall (fun k w hk => ?_) ?_
    · obtain ⟨doc, hdoc, rfl⟩ := List.mem_map.mp (honly k (by rw [hk]; rfl))
      obtain ⟨old, hold, -, hraw, hown⟩ := hrows doc hdoc
      rw [hown] at hk
      cases hk
      exact ⟨old, _, hold, rfl, nextVersion_of_lt (hc _ old hold), doc.data, _,
        rewrites_rewriteRow (rawToDocument_eq_ok hraw).2.2 (hc _ old hold)⟩
    · refine (Db.length_changes hnd fun k => ⟨honly k, fun hk => ?_⟩).trans (List.length_map _)
      obtain ⟨doc, hdoc, rfl⟩ := List.mem_map.mp hk
      obtain ⟨old, -, -, -, hown⟩ := hrows doc hdoc
      rw [hown]
      rfl

end Invariant

/-! ## The system -/

section System

variable [DecidableEq ι]

/-- The callers, before any of them has done anything. -/
def storeSystem (crypto : DocumentCrypto) (calls : ι → StoreCall T) (init : Table String (Row D))
    (clock : Timestamp) :
    Config ι (Stmt String (Row D)) (Stmt.Res Timestamp)
      (fun i => Except StoreError (calls i).Result) (Db ι String (Row D) Timestamp) where
  threads i := (calls i).run crypto
  shared := { committed := init, log := [], clock := clock, pending := ∅, reads := fun _ => [] }

/-- Whether a closure rejects what a row holds, whatever the time. -/
def Spent {A R : Type} (decide : Timestamp → T → Except R (A × T)) (r : Option (Row D)) : Prop :=
  ∀ row data, r = some row → DocumentType.fromData row.data = some data →
    ∀ now, ∃ reason, decide now data = .error reason

variable {crypto : DocumentCrypto} {calls : ι → StoreCall T} {init : Table String (Row D)}
  {clock : Timestamp}
  {q : Config ι (Stmt String (Row D)) (Stmt.Res Timestamp)
    (fun i => Except StoreError (calls i).Result) (DbState ι D)}

omit [DecidableEq ι] in
/-- A change made by a transition whose closure rejects its own output spends the row. -/
theorem Linear.spends {d : DbDurable ι D} (h : Linear calls init d) {id : String} {A R : Type}
    {decide : Timestamp → T → Except R (A × T)}
    (hself : ∀ now data a data', decide now data = .ok (a, data') →
      ∀ now', ∃ reason, decide now' data' = .error reason) {c : DbChange ι D} (hc : c ∈ d.log)
    (hcall : calls c.owner = .transition id decide) :
    c.id = id ∧ ¬ Spent decide c.old ∧ Spent decide c.new := by
  have hmade : ∃ r, Makes (.transition id decide) r c := hcall ▸ h.made c hc
  obtain ⟨r, hm⟩ := hmade
  match r, hm with
  | .applied (a, v), ⟨hid, now, data, data', hd, hrw⟩ =>
    obtain ⟨old, hold, hdata, -⟩ := hrw.old
    obtain ⟨new, hnew, hdata', -⟩ := hrw.new
    refine ⟨hid, fun hspent => ?_, ?_⟩
    · obtain ⟨reason, he⟩ := hspent old data hold hdata now
      rw [hd] at he
      cases he
    · intro row data₁ hrow hdata₁ now'
      rw [hnew] at hrow
      cases hrow
      rw [hdata'] at hdata₁
      cases hdata₁
      exact hself now data a data' hd now'

/-- **No lost update.**  Wherever an interleaving leads, the committed changes of each row form one
linear history from its initial content, its versions increase by one, each change is computed by
its owner's closure from the version before it, and every finished call has done what it reports.
A transition whose closure rejects its own output at any time, on a row that no other caller leads
from a state the closure always rejects to one it may accept, is applied at most once. -/
theorem noLostUpdate (hrun : Reaches (fun i => exec i) (fun _ _ s => VersionsBelowMax s)
    (storeSystem crypto calls init clock) q) :
    (∀ id, Linked (init.lookup id) (history id q.shared.log) (q.shared.committed.lookup id)) ∧
    (∀ c ∈ q.shared.log, ∃ old new, c.old = some old ∧ c.new = some new ∧
      new.version = old.version + 1) ∧
    (∀ c ∈ q.shared.log, ∃ r, Makes (calls c.owner) r c) ∧
    (∀ i r, q.threads i = .ret r → Reported (calls i) r (changesBy i q.shared.log)) ∧
    ∀ (id : String) (A R : Type) (decide : Timestamp → T → Except R (A × T)),
      (∀ now data a data', decide now data = .ok (a, data') →
        ∀ now', ∃ reason, decide now' data' = .error reason) →
      (∀ c ∈ q.shared.log, c.id = id → calls c.owner ≠ .transition id decide →
        Spent decide c.old → Spent decide c.new) →
      ∀ i j ri rj, calls i = .transition id decide → calls j = .transition id decide →
        q.threads i = .ret ri → q.threads j = .ret rj → (calls i).Applied ri →
        (calls j).Applied rj → i = j := by
  obtain ⟨hinv, hok, herr⟩ := (storeProtocol calls init).reaches_spec hrun
    ⟨fun _ => rfl, fun _ hc => absurd hc List.not_mem_nil, fun _ hc => absurd hc List.not_mem_nil⟩
    (fun _ => triple_storeCall rfl) (fun _ => rfl) fun _ => rfl
  have hreported : ∀ i r, q.threads i = .ret r →
    Reported (calls i) r (changesBy i q.shared.log) := by
    intro i r hr
    cases r with
    | ok r => exact hok i r hr
    | error e => exact herr i e hr
  refine ⟨hinv.linked, hinv.next, hinv.made, hreported, ?_⟩
  · intro id A R decide hself hothers i j ri rj hi hj hri hrj hai haj
    have hchange : ∀ k rk, calls k = .transition id decide → q.threads k = .ret rk →
        (calls k).Applied rk → ∃ c ∈ history id q.shared.log, c.owner = k ∧
          ¬ Spent decide c.old ∧ Spent decide c.new := by
      intro k rk hk hrk hak
      obtain ⟨c, hc⟩ := (hreported k rk hrk).exists_of_applied hak
      obtain ⟨hlog, rfl⟩ := mem_changesBy.mp hc
      obtain ⟨hid, hflip⟩ := hinv.spends hself hlog hk
      exact ⟨c, mem_history.mpr ⟨hlog, hid⟩, rfl, hflip⟩
    obtain ⟨c, hc, rfl, hflip⟩ := hchange i ri hi hri hai
    obtain ⟨c', hc', rfl, hflip'⟩ := hchange j rj hj hrj haj
    -- The row is spent once, so both are the same change.
    refine congrArg Change.owner ((hinv.linked id).flip_unique (fun e he hspent => ?_) hc hc'
      (P := fun r => ¬ Spent decide r) ⟨hflip.1, not_not.mpr hflip.2⟩
      ⟨hflip'.1, not_not.mpr hflip'.2⟩)
    obtain ⟨helog, heid⟩ := mem_history.mp he
    rw [not_not] at hspent ⊢
    by_cases howner : calls e.owner = .transition id decide
    · exact (hinv.spends hself helog howner).2.2
    · exact hothers e helog heid howner hspent

/-! ### Runs -/

/-- Whether every version is below the largest. -/
def versionsBelowMax (s : Db ι String (Row D) Timestamp) : Bool :=
  s.committed.rows.all fun r => r.2.version < maxVersion

omit [DecidableEq ι] in
theorem versionsBelowMax_iff {s : DbState ι D} :
    versionsBelowMax s = true ↔ VersionsBelowMax s := by
  rw [versionsBelowMax, List.all_eq_true]
  constructor
  · exact fun h id row hrow => of_decide_eq_true (h (id, row) (Table.mem_rows.mpr hrow))
  · exact fun h r hr => decide_eq_true (h r.1 r.2 (Table.mem_rows.mp hr))

end System

/-- A document that is either used or not. -/
structure Ticket where
  used : Bool

instance : DocumentType Ticket Ticket where
  docType := "ticket"
  indexEntries _ := []
  toData := id
  fromData := some
  fromData_toData _ := rfl

/-- Use a ticket that has not been used. -/
def useTicket (_now : Timestamp) (t : Ticket) : Except Unit (Unit × Ticket) :=
  if t.used then .error () else .ok ((), { t with used := true })

theorem useTicket_rejects {now now' : Timestamp} {data data' : Ticket} {a : Unit}
    (h : useTicket now data = .ok (a, data')) : ∃ reason, useTicket now' data' = .error reason := by
  rw [useTicket] at h
  split at h
  · cases h
  · cases h
    exact ⟨(), rfl⟩

/-- One unused ticket. -/
def oneTicket : Table String (Row Ticket) :=
  AList.insert "t" (newRow plainCrypto (⟨false⟩ : Ticket) 0) ∅

/-- Two threads use the ticket and a third rewrites it in between. -/
def ticketCalls (modifier : Ticket → Ticket) : Fin 3 → StoreCall Ticket
  | 0 => .transition "t" useTicket
  | 1 => .modify "t" modifier
  | 2 => .transition "t" useTicket

/-- What the three threads of a run of the tickets return. -/
def ticketRun (modifier : Ticket → Ticket) (schedule : List (Fin 3)) :=
  (storeSystem plainCrypto (ticketCalls modifier) oneTicket 0).run (fun i => exec i)
    (fun _ _ s => versionsBelowMax s) (schedule.map fun i => (i, ⟨none, 0, ""⟩))

/-- A closure that rejects its own output is applied twice, by callers that overlap, when another
caller leads the document back in between. -/
theorem transition_applied_twice :
    (∀ now data a data', useTicket now data = .ok (a, data') →
      ∀ now', ∃ reason, useTicket now' data' = .error reason) ∧
    ∃ q, Reaches (fun i => exec i) (fun _ _ s => VersionsBelowMax s)
        (storeSystem plainCrypto (ticketCalls fun _ => ⟨false⟩) oneTicket 0) q ∧
      q.threads 0 = .ret (.ok (.applied ((), 2))) ∧
        q.threads 2 = .ret (.ok (.applied ((), 4))) := by
  refine ⟨fun _ _ _ _ h _ => useTicket_rejects h, ?_⟩
  -- Thread 2 reads first and writes last: its first guarded write fails and it reads again.
  have hrun : ((ticketRun (fun _ => ⟨false⟩) (2 :: (List.replicate 7 0 ++ List.replicate 7 1 ++
      List.replicate 12 2))).map fun q => ((q.threads 0).result?, (q.threads 2).result?)) =
      some (some (.ok (.applied ((), 2))), some (.ok (.applied ((), 4)))) := rfl
  obtain ⟨q, hreach, hres⟩ := exists_of_run (fun _ _ _ => versionsBelowMax_iff.mp) hrun
  simp only [Prod.mk.injEq, Prog.result?_eq_some] at hres
  exact ⟨q, hreach, hres.1, hres.2⟩

/-- Two callers race for a ticket that a third only touches: the history is linear, each has done
what it reports, and no more than one of the two is applied. -/
theorem noLostUpdate_tickets :
    ∃ q, Reaches (fun i => exec i) (fun _ _ s => VersionsBelowMax s)
        (storeSystem plainCrypto (ticketCalls id) oneTicket 0) q ∧
      q.threads 0 = .ret (.ok (.applied ((), 2))) ∧ q.threads 2 = .ret (.ok (.rejected ())) ∧
      Linked (oneTicket.lookup "t") (history "t" q.shared.log) (q.shared.committed.lookup "t") ∧
      (∀ i r, q.threads i = .ret r → Reported (ticketCalls id i) r (changesBy i q.shared.log)) ∧
      ∀ r, q.threads 2 = .ret r → ¬ (ticketCalls id 2).Applied r := by
  have hrun : ((ticketRun id (2 :: (List.replicate 7 0 ++ List.replicate 7 1 ++
      List.replicate 7 2))).map fun q => ((q.threads 0).result?, (q.threads 2).result?)) =
      some (some (.ok (.applied ((), 2))), some (.ok (.rejected ()))) := rfl
  obtain ⟨q, hreach, hres⟩ := exists_of_run (fun _ _ _ => versionsBelowMax_iff.mp) hrun
  simp only [Prod.mk.injEq, Prog.result?_eq_some] at hres
  obtain ⟨hlinked, -, hmade, hreported, honce⟩ := noLostUpdate hreach
  refine ⟨q, hreach, hres.1, hres.2, hlinked "t", hreported, fun r hr happlied => ?_⟩
  have hsame := honce "t" Unit Unit useTicket (fun _ _ _ _ h _ => useTicket_rejects h)
    (fun c hc _ hother hspent => ?_) 0 2 _ r rfl rfl hres.1 hr Nat.one_pos happlied
  · exact absurd hsame (by decide)
  · -- The third caller writes back what it read.
    have hmodify : ticketCalls id c.owner = .modify "t" id := by
      match c.owner, hother with
      | 0, h => exact absurd rfl h
      | 1, _ => rfl
      | 2, h => exact absurd rfl h
    have hm : ∃ r, Makes (.modify "t" id) r c := hmodify ▸ hmade c hc
    obtain ⟨_, _, _, data, _, hrw⟩ := hm
    obtain ⟨old, hold, hdata, -⟩ := hrw.old
    obtain ⟨new, hnew, hdata', -⟩ := hrw.new
    intro row data₁ hrow hdata₁ now
    rw [hnew] at hrow
    cases hrow
    rw [hdata'] at hdata₁
    cases hdata₁
    exact hspent old data hold hdata now

end Vouch
