import Vouch.Store.Spec

/-!
# Systems that keep a ledger

Many systems of callers on the store can be described by one relation: what a thread may turn a row
into.  `ledgerProtocol init allowed` is the protocol of such a system.  Its invariant is that the
committed rows are explained by a versioned log (`Ledger`) each of whose changes is allowed, and the
store's operations need be looked at only once, here:

* a lookup leaves the document it found *held* (`Held`): its row is there still, or its id has moved
  past that version for good;
* a guarded write of a held document, a transition, an insertion and a deletion each ask that the
  change they make is allowed, and leave behind that they made it (`Made`).

What a system may also carry along is a property of the clock that no later reading takes away, such
as "the request has arrived", or which changes each thread has made so far (`seriesProtocol`).
-/

namespace Vouch

open ReadCommitted Interleaving ReadCommitted.Protocol

variable {ι D T : Type} [DecidableEq ι] [DocumentType D T] {crypto : DocumentCrypto} {i : ι}

/-! ## Documents that were read -/

section Held

/-- What is known after reading a document. -/
def Held (doc : Document T) (d : Durable ι String (Row D) Timestamp) : Prop :=
  ∃ row, rawToDocument T doc.id row = .ok doc ∧ Read doc.id row d

/-- The outcome of a lookup: a document that was found is held. -/
def Found (r : Option (Document T)) (d : Durable ι String (Row D) Timestamp) : Prop :=
  ∀ doc, r = some doc → Held doc d

variable {P : DbProtocol ι D} {Pre : DbDurable ι D → Prop}

theorem stable_held (hver : ∀ d, P.inv d → VersionedLog d.log) (doc : Document T) :
    P.Stable i (Held doc) :=
  stable_exists fun row => (stable_const _ i _).and (stable_read hver doc.id row)

theorem stable_found (hver : ∀ d, P.inv d → VersionedLog d.log) (r : Option (Document T)) :
    P.Stable i (Found r) :=
  stable_forall fun doc => (stable_held hver doc).imp _

theorem triple_findOneHeld (hver : ∀ d, P.inv d → VersionedLog d.log) (hPre : P.Stable i Pre)
    {field value : String} :
    P.Triple i Pre (DocumentStore.findOne crypto T field value) (fun r d => Pre d ∧ Found r d)
      fun _ => Pre := by
  refine triple_findOne hPre (fun r => hPre.and (stable_found hver r))
    (fun d h _ _ => ⟨h, fun _ h => nomatch h⟩) ?_
  intro d id row doc hp _ hrow _ hraw
  refine ⟨hp, fun doc' h => ?_⟩
  cases h
  obtain rfl := (rawToDocument_eq_ok hraw).1
  exact ⟨row, hraw, .inl hrow⟩

theorem triple_getHeld (hver : ∀ d, P.inv d → VersionedLog d.log) (hPre : P.Stable i Pre)
    {id : String} :
    P.Triple i Pre (DocumentStore.get T id)
      (fun r d => Pre d ∧ Found r d ∧ ∀ doc, r = some doc → doc.id = id) fun _ => Pre := by
  refine triple_get hPre (fun r => hPre.and ((stable_found hver r).and (stable_const _ i _)))
    (fun d h _ _ => ⟨h, fun _ h => (nomatch h), fun _ h => nomatch h⟩) ?_
  intro d row doc hp _ hrow _ hraw
  obtain rfl := (rawToDocument_eq_ok hraw).1
  refine ⟨hp, fun doc' h => ?_, fun doc' h => ?_⟩
  · cases h
    exact ⟨row, hraw, .inl hrow⟩
  · cases h
    rfl

end Held

/-! ## The protocol -/

/-- The protocol of threads that make allowed changes. -/
def ledgerProtocol (init : Table String (Row D))
    (allowed : ι → String → Option (Row D) → Option (Row D) → Prop) :
    Protocol ι String (Row D) Timestamp where
  cond _ o s := VersionsInRange s ∧ NotReinserted o s
  inv := Ledger init allowed
  evolves _ _ := True
  evolves_refl _ := trivial
  evolves_trans _ _ _ _ _ := trivial
  inv_tick _ c _ h := h.tick c
  evolves_tick _ _ _ := trivial

variable {init : Table String (Row D)}
  {allowed : ι → String → Option (Row D) → Option (Row D) → Prop}

theorem ledgerProtocol_versioned (d : DbDurable ι D) (h : (ledgerProtocol init allowed).inv d) :
    VersionedLog d.log :=
  h.toVersionedLog

/-- Thread `i` has committed this change. -/
def Made (i : ι) (id : String) (old new : Option (Row D))
    (d : Durable ι String (Row D) Timestamp) : Prop :=
  ⟨i, id, old, new⟩ ∈ changesBy i d.log

omit [DocumentType D T] in
theorem Made.mem {id : String} {old new : Option (Row D)} {d : DbDurable ι D}
    (h : Made i id old new d) : (⟨i, id, old, new⟩ : DbChange ι D) ∈ d.log :=
  (mem_changesBy.mp h).1

theorem stable_made {P : DbProtocol ι D} (id : String) (old new : Option (Row D)) :
    P.Stable i (Made i id old new) :=
  stable_changesBy _ i fun cs => ⟨i, id, old, new⟩ ∈ cs

/-- Committing one row that takes the place of another. -/
theorem ledger_commit {t : DbState ι D} {id : String} {old : Row D} {w : Option (Row D)}
    (hinv : (ledgerProtocol init allowed).inv t.toDurable) (hw : Wrote i t id w)
    (hold : t.committed.lookup id = some old) (hv : ∀ new, w = some new → old.version < new.version)
    (hal : allowed i id (some old) w) :
    (ledgerProtocol init allowed).inv (t.install i).toDurable ∧ True ∧
      Made i id (some old) w (t.install i).toDurable := by
  refine ⟨hinv.install_wrote hw ?_, trivial, ?_⟩
  · rw [hold]
    refine ⟨⟨fun o n ho hn => ?_, fun h => nomatch h⟩, hal⟩
    cases ho
    exact hv n hn
  · refine mem_changesBy.mpr ⟨List.mem_append_right _ (Db.mem_changes.mpr ⟨rfl, ?_, hold.symm⟩),
      rfl⟩
    rw [hw]
    simp

/-! ## The operations -/

section Operations

variable {C : Timestamp → Prop}

/-- A property that no later reading of the clock takes away. -/
theorem stable_clockProp (P : DbProtocol ι D) (i : ι) (hC : ∀ s t, s ≤ t → C s → C t) :
    P.Stable i fun d => C d.clock :=
  ⟨fun _ _ h ht => hC _ _ ht.clock h, fun _ _ hc h => hC _ _ hc h⟩

/-- The guarded write of a document that is held. -/
theorem triple_ledgerWrite {Pre : DbDurable ι D → Prop}
    (hPre : (ledgerProtocol init allowed).Stable i Pre)
    (hkeep : ∀ t : DbState ι D, Pre t.toDurable → Pre (t.install i).toDurable) {doc : Document T}
    {data : T} (hallowed : ∀ row now, rawToDocument T doc.id row = .ok doc →
      allowed i doc.id (some row)
        (some (rewriteRow crypto data now (nextVersion row.version) row))) :
    (ledgerProtocol init allowed).Triple i (fun d => Pre d ∧ Held doc d)
      (DocumentStore.compareAndUpdate crypto doc.id doc.version data)
      (fun won d => Pre d ∧ (won = true → ∃ row now, rawToDocument T doc.id row = .ok doc ∧
        Made i doc.id (some row)
          (some (rewriteRow crypto data now (nextVersion row.version) row)) d))
      fun _ => Pre := by
  refine .forget (triple_compareAndUpdate (hPre.and (stable_held ledgerProtocol_versioned doc))
    (fun _ => hPre.and (.imp (stable_exists fun row => stable_exists fun now =>
      (stable_const _ i _).and (stable_made _ _ _)) _))
    (fun _ h => ⟨h.1, fun h => nomatch h⟩) ?_) fun _ _ h => h.1
  rintro t now old hinv ⟨hp, row, hraw, hread⟩ hc hw hold hv
  obtain ⟨-, hdv, -⟩ := rawToDocument_eq_ok hraw
  obtain rfl := hread.eq hold (hv.trans hdv)
  have hrange := hc.1 i doc.id _ (by rw [Db.lookup_visible, hw]; simp; rfl)
  have hlt := lt_nextVersion hrange
  rw [hdv] at hw hlt
  obtain ⟨hi, he, hmade⟩ := ledger_commit hinv hw hold (fun _ h => Option.some.inj h ▸ hlt)
    (hallowed old now hraw)
  exact ⟨hi, he, hkeep t hp, fun _ => ⟨old, now, hraw, hmade⟩⟩

variable {A R : Type} {id : String} {decide : Timestamp → T → Except R (A × T)}

/-- Whatever `decide` makes of a row is allowed. -/
def AllowsDecision (crypto : DocumentCrypto)
    (allowed : ι → String → Option (Row D) → Option (Row D) → Prop) (i : ι) (id : String)
    (decide : Timestamp → T → Except R (A × T)) : Prop :=
  ∀ now now' row data a data', DocumentType.fromData row.data = some data →
    decide now data = .ok (a, data') →
    allowed i id (some row) (some (rewriteRow crypto data' now' (nextVersion row.version) row))

/-- Thread `i` has committed what `decide` made of a row, at an instant with the property. -/
def Decided (crypto : DocumentCrypto) (C : Timestamp → Prop) (i : ι) (id : String)
    (decide : Timestamp → T → Except R (A × T)) (a : A) (d : Durable ι String (Row D) Timestamp) :
    Prop :=
  ∃ now now' row data data', C now ∧ DocumentType.fromData row.data = some data ∧
    decide now data = .ok (a, data') ∧
    Made i id (some row) (some (rewriteRow crypto data' now' (nextVersion row.version) row)) d

theorem stable_decided {P : DbProtocol ι D} {a : A} :
    P.Stable i (Decided crypto C i id decide a) :=
  stable_exists fun _ => stable_exists fun _ => stable_exists fun _ => stable_exists fun _ =>
    stable_exists fun _ => (stable_const _ i _).and ((stable_const _ i _).and
      ((stable_const _ i _).and (stable_made _ _ _)))

variable (hC : ∀ s t, s ≤ t → C s → C t)

include hC

/-- A transition: what it decided on is the row it replaced, at an instant at which the clock
already had the property. -/
theorem triple_ledgerTransition (hallowed : AllowsDecision crypto allowed i id decide) :
    (ledgerProtocol init allowed).Triple i (fun d => C d.clock)
      (DocumentStore.transition crypto id decide)
      (fun r d => C d.clock ∧ ∀ a, r = .applied a → Decided crypto C i id decide a d)
      fun _ d => C d.clock := by
  have hPre := stable_clockProp (ledgerProtocol init allowed) i hC
  refine triple_transition ledgerProtocol_versioned hPre
    (fun r => hPre.and (stable_forall fun a => stable_decided.imp _))
    (fun _ h => ⟨h, fun _ h => nomatch h⟩)
    (fun _ _ _ _ _ h => ⟨h, fun _ h => nomatch h⟩) ?_
  intro t now now' old data a data' hinv hp hc hnow hw hold _ hdata hd
  have hrange := hc.1 i id _ (by rw [Db.lookup_visible, hw]; simp; rfl)
  have hlt := lt_nextVersion hrange
  obtain ⟨hi, he, hmade⟩ := ledger_commit hinv hw hold (fun _ h => Option.some.inj h ▸ hlt)
    (hallowed now now' old data a data' hdata hd)
  obtain ⟨d₀, hd₀, hle⟩ := hnow
  refine ⟨hi, he, hp, fun a' ha => ?_⟩
  cases ha
  exact ⟨now, now', old, data, data', hC _ _ hle hd₀, hdata, hd, hmade⟩

/-- What the transaction of an insertion has pending: rows that come in, none that go. -/
def Inserting (allowed : ι → String → Option (Row D) → Option (Row D) → Prop) (i : ι) (id : String)
    (past : List (Change ι String (Row D))) (old new : Option (Row D)) : Prop :=
  Entry allowed i id past old new ∧ new ≠ none

omit hC in
omit [DocumentType D T] in
theorem inserting_insert {Pre : DbDurable ι D → Prop} {t : DbState ι D} {row : Row D}
    (ht : InTx (Inserting allowed i) Pre i t)
    (hc : (ledgerProtocol init allowed).cond i (.insert id row) t)
    (hnone : (t.visible i).lookup id = none) (hnew : allowed i id none (some row)) :
    Inserting allowed i id (history id t.log) (t.committed.lookup id) (some row) :=
  ⟨Entry.insert (fun h => (ht.pending id none h).2 rfl) hnone hc.2 hnew, Option.some_ne_none row⟩

theorem triple_ledgerInsert {doc : T}
    (hallowed : ∀ id now, allowed i id none (some (newRow crypto doc now))) :
    (ledgerProtocol init allowed).Triple i (fun d => C d.clock) (DocumentStore.insert crypto doc)
      (fun _ d => C d.clock) fun _ d => C d.clock := by
  have hPre := stable_clockProp (ledgerProtocol init allowed) i hC
  refine triple_insert hPre (fun _ => hPre)
    (fun id t now _ ht hc hnone => inserting_insert ht hc hnone (hallowed id now))
    fun _ t hinv ht _ => ?_
  exact ⟨hinv.install fun id w hw => (ht.pending id w hw).1, trivial, fun _ _ _ => ht.known⟩

theorem triple_ledgerInsertWithId {doc : T}
    (hallowed : ∀ now, allowed i id none (some (newRow crypto doc now))) :
    (ledgerProtocol init allowed).Triple i (fun d => C d.clock)
      (DocumentStore.insertWithId crypto id doc) (fun _ d => C d.clock) fun _ d => C d.clock := by
  have hPre := stable_clockProp (ledgerProtocol init allowed) i hC
  refine triple_insertWithId hPre (fun _ => hPre)
    (fun t now _ ht hc hnone => inserting_insert ht hc hnone (hallowed now))
    fun t hinv ht _ => ?_
  exact ⟨hinv.install fun id w hw => (ht.pending id w hw).1, trivial, fun _ _ _ => ht.known⟩

theorem triple_ledgerDelete (hallowed : ∀ old, allowed i id old none) :
    (ledgerProtocol init allowed).Triple i (fun d => C d.clock)
      (DocumentStore.delete id) (fun _ d => C d.clock)
      fun _ d => C d.clock :=
  triple_delete (stable_clockProp _ i hC)
    (fun _ _ _ ht hcur => Entry.delete (InTx.pending ht) hcur hallowed)
    fun _ hinv ht _ => ⟨hinv.install ht.pending, trivial, ht.known⟩

theorem triple_ledgerSweep {docType : String} (hallowed : ∀ id old, allowed i id old none) :
    (ledgerProtocol init allowed).Triple i (fun d => C d.clock)
      (DocumentStore.deleteExpired docType) (fun _ d => C d.clock)
      fun _ d => C d.clock :=
  triple_deleteExpired (stable_clockProp _ i hC)
    (fun _ k _ _ _ ht _ hcur _ => Entry.delete (InTx.pending ht) hcur (hallowed k))
    fun _ hinv ht _ => ⟨hinv.install ht.pending, trivial, ht.known⟩

end Operations

/-! ## What each thread has committed

An argument that counts — a token is used up once — needs more than what each change is: it needs
that a thread does not make its change a second time. -/

/-- The protocol of threads that make allowed changes, and each of them no series of changes but one
it may make. -/
def seriesProtocol (init : Table String (Row D))
    (allowed : ι → String → Option (Row D) → Option (Row D) → Prop)
    (series : ι → List (Change ι String (Row D)) → Prop) : Protocol ι String (Row D) Timestamp where
  cond _ o s := VersionsInRange s ∧ NotReinserted o s
  inv d := Ledger init allowed d ∧ ∀ i, series i (changesBy i d.log)
  evolves _ _ := True
  evolves_refl _ := trivial
  evolves_trans _ _ _ _ _ := trivial
  inv_tick _ c _ h := ⟨h.1.tick c, h.2⟩
  evolves_tick _ _ _ := trivial

section Series

variable {series : ι → List (DbChange ι D) → Prop} {l : List (DbChange ι D)}

theorem seriesProtocol_versioned (d : DbDurable ι D)
    (h : (seriesProtocol init allowed series).inv d) : VersionedLog d.log :=
  h.1.toVersionedLog

/-- Committing one row that takes the place of another, as the next change of the thread. -/
theorem series_commit {t : DbState ι D} {id : String} {old : Row D} {w : Option (Row D)}
    (hinv : (seriesProtocol init allowed series).inv t.toDurable) (hl : changesBy i t.log = l)
    (hw : Wrote i t id w) (hold : t.committed.lookup id = some old)
    (hv : ∀ new, w = some new → old.version < new.version) (hal : allowed i id (some old) w)
    (hseries : series i (l ++ [⟨i, id, some old, w⟩])) :
    (seriesProtocol init allowed series).inv (t.install i).toDurable ∧ True ∧
      changesBy i (t.install i).log = l ++ [⟨i, id, some old, w⟩] := by
  have hone : t.changes i = [⟨i, id, some old, w⟩] := by
    rw [Db.changes_eq_singleton hw, hold]
  have hmine : changesBy i (t.install i).log = l ++ [⟨i, id, some old, w⟩] := by
    show changesBy i (t.log ++ t.changes i) = _
    rw [changesBy_append, hl, Db.changesBy_changes, hone]
  refine ⟨⟨(ledger_commit hinv.1 hw hold hv hal).1, fun j => ?_⟩, trivial, hmine⟩
  by_cases hj : j = i
  · rw [hj, hmine]
    exact hseries
  · have hnone : changesBy j (t.changes i) = [] := by
      refine changesBy_eq_nil fun c hc => ?_
      rw [(Db.mem_changes.mp hc).1]
      exact Ne.symm hj
    show series j (changesBy j (t.log ++ t.changes i))
    rw [changesBy_append, hnone, List.append_nil]
    exact hinv.2 j

/-- A transition as the next change of the thread. -/
theorem triple_seriesTransition {A R : Type} {id : String}
    {decide : Timestamp → T → Except R (A × T)}
    (hallowed : ∀ now now' row data a data', DocumentType.fromData row.data = some data →
      decide now data = .ok (a, data') →
      allowed i id (some row) (some (rewriteRow crypto data' now' (nextVersion row.version) row)) ∧
      series i (l ++ [⟨i, id, some row,
        some (rewriteRow crypto data' now' (nextVersion row.version) row)⟩])) :
    (seriesProtocol init allowed series).Triple i (fun d => changesBy i d.log = l)
      (DocumentStore.transition crypto id decide)
      (fun r d => (∀ a, r = .applied a → ∃ now now' row data data',
        DocumentType.fromData row.data = some data ∧ decide now data = .ok (a, data') ∧
        changesBy i d.log = l ++ [⟨i, id, some row,
          some (rewriteRow crypto data' now' (nextVersion row.version) row)⟩]) ∧
        ∀ e, r = .rejected e → ∃ now data, decide now data = .error e)
      fun _ _ => True := by
  have hchanges := fun R => stable_changesBy (seriesProtocol init allowed series) i R
  refine .forget
    (triple_transition seriesProtocol_versioned (hchanges fun cs => cs = l) (fun r => ?_)
    (fun _ _ => ⟨fun _ h => (nomatch h), fun _ h => nomatch h⟩) ?_ ?_) fun _ _ _ => trivial
  · refine .and (stable_forall fun a => .imp (stable_exists fun now => stable_exists fun now' =>
      stable_exists fun row => stable_exists fun data => stable_exists fun data' =>
        (stable_const _ i _).and ((stable_const _ i _).and
          (hchanges fun cs => cs = l ++ [_]))) _) (stable_const _ i _)
  · intro now data r d hd _
    refine ⟨fun _ h => (nomatch h), fun e he => ?_⟩
    cases he
    exact ⟨now, data, hd⟩
  · intro t now now' old data a data' hinv hl hc _ hw hold _ hdata hd
    have hrange := hc.1 i id _ (by rw [Db.lookup_visible, hw]; simp; rfl)
    obtain ⟨hal, hseries⟩ := hallowed now now' old data a data' hdata hd
    obtain ⟨hi, he, hmade⟩ := series_commit hinv hl hw hold
      (fun _ h => Option.some.inj h ▸ lt_nextVersion hrange) hal hseries
    refine ⟨hi, he, fun a' ha => ?_, fun _ h => nomatch h⟩
    cases ha
    exact ⟨now, now', old, data, data', hdata, hd, hmade⟩

end Series

/-- A thread that makes one change at most does not stand on both sides of a place in a history. -/
theorem once_in_history {id : String} {log pre post : List (DbChange ι D)}
    (honce : (changesBy i log).length ≤ 1) (hsplit : history id log = pre ++ post)
    {e e' : DbChange ι D} (he : e ∈ pre) (he' : e' ∈ post) (hi : e.owner = i) (hi' : e'.owner = i) :
    False := by
  have hsub : (changesBy i pre ++ changesBy i post).Sublist (changesBy i log) := by
    rw [← changesBy_append, ← hsplit]
    exact List.filter_sublist.filter _
  have hlen := hsub.length_le
  rw [List.length_append] at hlen
  have hpre := List.length_pos_of_mem (mem_changesBy.mpr ⟨he, hi⟩)
  have hpost := List.length_pos_of_mem (mem_changesBy.mpr ⟨he', hi'⟩)
  omega

end Vouch
