import Vouch.Lib.ReadCommitted

/-!
# Proving programs over a READ COMMITTED table

Programs over the table are written with the `Sql` statements below, in an error monad: a statement
that fails ends the program unless somebody looks (`Interleaving.attempt`), and `retrying` runs a
whole transaction again while its error is worth retrying, rolling back in between.

A `Protocol` is what the threads of one system agree on: an invariant of the durable state, and how
the durable state may evolve at a commit.  Everything else a thread may rely on — its locks, its own
writes, its own reads, that the log only grows — holds whatever the others run, and is part of
`Protocol.discipline` once and for all.  So there is one rule per statement, and the invariant has
to be looked at in exactly one of them, `Protocol.safeE_commit`.
-/

namespace ReadCommitted

open Interleaving

/-! ## Programs -/

/-- Programs that issue statements. -/
abbrev Program (Id Row Time : Type) := Prog (Stmt Id Row) (Stmt.Res Time)

/-- Errors a failed statement can be reported as. -/
class OfDbError (ε : Type) where
  ofDbError : DbError → ε

export OfDbError (ofDbError)

instance : OfDbError DbError := ⟨id⟩

section Statements

variable {Id Row Time ε α : Type} [OfDbError ε]

/-- Pass a statement's answer on, failing if it failed. -/
def orFail (x : Program Id Row Time (Except DbError α)) : ExceptT ε (Program Id Row Time) α :=
  ExceptT.mk (x >>= fun
    | .ok a => .ret (.ok a)
    | .error e => .ret (.error (ofDbError e)))

namespace Sql

/-- Begin a transaction. -/
def begin : ExceptT ε (Program Id Row Time) Unit := orFail (.perform Stmt.begin)

/-- Commit the transaction. -/
def commit : ExceptT ε (Program Id Row Time) Unit := orFail (.perform Stmt.commit)

/-- The rows of a predicate, read in the transaction. -/
def select (p : Id → Row → Bool) : ExceptT ε (Program Id Row Time) (List (Id × Row)) :=
  orFail (.perform (Stmt.select p))

/-- The rows of a predicate, read on a connection of its own. -/
def poolSelect (p : Id → Row → Bool) : ExceptT ε (Program Id Row Time) (List (Id × Row)) :=
  orFail (.perform (Stmt.poolSelect p))

/-- Insert a row under a new id. -/
def insert (id : Id) (row : Row) : ExceptT ε (Program Id Row Time) Unit :=
  orFail (.perform (Stmt.insert id row))

/-- Update one row under a guard; whether it was there and met it. -/
def update (id : Id) (guard : Row → Bool) (set : Row → Row) :
    ExceptT ε (Program Id Row Time) Bool :=
  orFail (.perform (Stmt.update id guard set))

/-- Delete the rows of a predicate; how many there were. -/
def delete (p : Id → Row → Bool) : ExceptT ε (Program Id Row Time) Nat :=
  orFail (.perform (Stmt.delete p))

/-- Roll the transaction back. -/
def rollback : ExceptT ε (Program Id Row Time) Unit := ExceptT.lift (.perform Stmt.rollback)

/-- Read the clock. -/
def now : ExceptT ε (Program Id Row Time) Time := ExceptT.lift (.perform Stmt.now)

/-- Draw a new id. -/
def newId : ExceptT ε (Program Id Row Time) Id := ExceptT.lift (.perform Stmt.newId)

end Sql

/-- Leaving a transaction, however it ends, rolls back what it did not commit. -/
def closing (body : ExceptT ε (Program Id Row Time) α) :
    ExceptT ε (Program Id Row Time) (Except ε α) := do
  let r ← attempt body
  Sql.rollback
  pure r

/-- Run a transaction, and run it again up to `n` more times while its error is retryable. -/
def retrying (retryable : ε → Bool) (body : ExceptT ε (Program Id Row Time) α) :
    Nat → ExceptT ε (Program Id Row Time) α
  | 0 => do
    match ← closing body with
    | .ok a => pure a
    | .error e => throw e
  | n + 1 => do
    match ← closing body with
    | .ok a => pure a
    | .error e => if retryable e then retrying retryable body n else throw e

end Statements

/-! ## What a transaction has pending

Between its first statement and its commit a transaction is described by two things: how each of its
pending writes relates to the committed row it will replace (`Pending`), and what it knows of the
durable state.  The first cannot be disturbed by anybody, since the rows are locked. -/

variable {ι Id Row Time : Type}

namespace Protocol

variable [DecidableEq ι] [DecidableEq Id] {i : ι} {id : Id} {s : Db ι Id Row Time} {w : Option Row}
  {R : Id → List (Change ι Id Row) → Option Row → Option Row → Prop}
    {K : Durable ι Id Row Time → Prop}

/-- Nothing is pending for thread `i`. -/
def Idle (i : ι) (s : Db ι Id Row Time) : Prop := s.own i = fun _ => none

theorem idle_discard (i : ι) (s : Db ι Id Row Time) : Idle i (s.discard i) := s.own_discard_self i

theorem Idle.lookup_visible (hs : Idle i s) (id : Id) :
    (s.visible i).lookup id = s.committed.lookup id := by
  rw [Db.lookup_visible, hs]
  rfl

/-- Committing nothing changes nothing durable. -/
theorem Idle.install (hs : Idle i s) : (s.install i).toDurable = s.toDurable := by
  have hw : s.ownWrites i = [] := by
    have := Db.changes_eq_nil hs
    rwa [Db.changes, List.map_eq_nil_iff] at this
  simp [Db.install, Db.discard, Db.visible, Db.changes, hw, Table.putAll]

/-- Thread `i` has written one row and nothing else. -/
def Wrote (i : ι) (t : Db ι Id Row Time) (id : Id) (w : Option Row) : Prop :=
  t.own i = fun k => if k = id then some w else none

theorem Wrote.isSome (h : Wrote i s id w) : (s.own i id).isSome := by
  rw [h]
  simp

theorem Wrote.eq {k : Id} {v : Option Row} (h : Wrote i s id w) (hk : s.own i k = some v) :
    k = id ∧ v = w := by
  rw [h] at hk
  by_cases hkid : k = id
  · simp only [hkid, if_true, Option.some.injEq] at hk
    exact ⟨hkid, hk.symm⟩
  · simp [hkid] at hk

theorem wrote_write (hs : Idle i s) (id : Id) (w : Option Row) : Wrote i (s.write i id w) id w := by
  funext k
  rw [Db.own_write_self, hs]

/-- How the pending writes of thread `i` relate to the rows they will replace, and to the history of
those rows. -/
def Pending (i : ι) (R : Id → List (Change ι Id Row) → Option Row → Option Row → Prop)
    (s : Db ι Id Row Time) : Prop :=
  ∀ id w, s.own i id = some w → R id (history id s.log) (s.committed.lookup id) w

theorem Idle.pending (h : Idle i s) : Pending i R s := by
  intro id w hw
  rw [h] at hw
  cases hw

theorem Pending.write (h : Pending i R s)
    (hR : R id (history id s.log) (s.committed.lookup id) w) : Pending i R (s.write i id w) := by
  intro k v hv
  rw [Db.own_write_self] at hv
  split at hv
  · rename_i hk
    subst hk
    cases hv
    exact hR
  · exact h k v hv

theorem Pending.writeNone (h : Pending i R s) {rs : List (Id × Row)}
    (hR : ∀ r ∈ rs, R r.1 (history r.1 s.log) (s.committed.lookup r.1) none) :
    Pending i R (s.writeNone i rs) := by
  intro k v hv
  rw [Db.own_writeNone_self] at hv
  obtain ⟨hd, -⟩ := s.writeNone_frame i rs
  rw [hd]
  split at hv
  · rename_i hk
    obtain ⟨r, hr, rfl⟩ := List.mem_map.mp hk
    cases hv
    exact hR r hr
  · exact h k v hv

/-- A transaction of thread `i`: its writes satisfy `R`, and `K` is known. -/
structure InTx (R : Id → List (Change ι Id Row) → Option Row → Option Row → Prop)
    (K : Durable ι Id Row Time → Prop) (i : ι) (s : Db ι Id Row Time) : Prop where
  pending : Pending i R s
  known : K s.toDurable

theorem InTx.mono {K' : Durable ι Id Row Time → Prop} (h : InTx R K i s)
    (hK : K s.toDurable → K' s.toDurable) : InTx R K' i s :=
  ⟨h.pending, hK h.known⟩

end Protocol

/-! ## Protocols -/

/-- What the threads of one system agree on. -/
structure Protocol (ι Id Row Time : Type) [Preorder Time] where
  /-- The side condition every step of the run meets. -/
  cond : ι → Stmt Id Row → Db ι Id Row Time → Prop
  /-- The invariant of the durable state. -/
  inv : Durable ι Id Row Time → Prop
  /-- How the durable state may evolve. -/
  evolves : Durable ι Id Row Time → Durable ι Id Row Time → Prop
  evolves_refl : ∀ d, evolves d d
  evolves_trans : ∀ d e f, evolves d e → evolves e f → evolves d f
  inv_tick : ∀ d t, d.clock ≤ t → inv d → inv { d with clock := t }
  evolves_tick : ∀ d t, d.clock ≤ t → evolves d { d with clock := t }

namespace Protocol

variable [DecidableEq ι] [DecidableEq Id] [Preorder Time] (P : Protocol ι Id Row Time)

/-- What thread `i` may find when it moves next, having last seen `s`. -/
structure Finds (i : ι) (s t : Db ι Id Row Time) : Prop extends Rely i s t where
  evolves : P.evolves s.toDurable t.toDurable
  inv : P.inv t.toDurable

variable {P} {i : ι} {s t : Db ι Id Row Time} {K : Durable ι Id Row Time → Prop}
  {R : Id → List (Change ι Id Row) → Option Row → Option Row → Prop}

/-- A predicate of the durable state that thread `i` may go on assuming: neither the other threads
nor the clock take it away. -/
structure Stable (P : Protocol ι Id Row Time) (i : ι) (R : Durable ι Id Row Time → Prop) :
    Prop where
  finds : ∀ s t, R s.toDurable → P.Finds i s t → R t.toDurable
  tick : ∀ d c, d.clock ≤ c → R d → R { d with clock := c }

theorem Stable.and {R R' : Durable ι Id Row Time → Prop} (h : P.Stable i R) (h' : P.Stable i R') :
    P.Stable i fun d => R d ∧ R' d :=
  ⟨fun s t hR ht => ⟨h.finds s t hR.1 ht, h'.finds s t hR.2 ht⟩,
    fun d c hc hR => ⟨h.tick d c hc hR.1, h'.tick d c hc hR.2⟩⟩

theorem stable_const (P : Protocol ι Id Row Time) (i : ι) (A : Prop) : P.Stable i fun _ => A :=
  ⟨fun _ _ h _ => h, fun _ _ _ h => h⟩

theorem stable_forall {β : Type} {R : β → Durable ι Id Row Time → Prop}
    (h : ∀ b, P.Stable i (R b)) : P.Stable i fun d => ∀ b, R b d :=
  ⟨fun s t hR ht b => (h b).finds s t (hR b) ht, fun d c hc hR b => (h b).tick d c hc (hR b)⟩

theorem stable_exists {β : Type} {R : β → Durable ι Id Row Time → Prop}
    (h : ∀ b, P.Stable i (R b)) : P.Stable i fun d => ∃ b, R b d :=
  ⟨fun s t ⟨b, hR⟩ ht => ⟨b, (h b).finds s t hR ht⟩,
    fun d c hc ⟨b, hR⟩ => ⟨b, (h b).tick d c hc hR⟩⟩

theorem Stable.imp {R : Durable ι Id Row Time → Prop} (h : P.Stable i R) (A : Prop) :
    P.Stable i fun d => A → R d :=
  ⟨fun s t hR ht hA => h.finds s t (hR hA) ht, fun d c hc hR hA => h.tick d c hc (hR hA)⟩

/-- What the thread itself has committed so far is such a predicate. -/
theorem stable_changesBy (P : Protocol ι Id Row Time) (i : ι)
    (R : List (Change ι Id Row) → Prop) : P.Stable i fun d => R (changesBy i d.log) :=
  ⟨fun _ _ hR ht => by rw [ht.toRely.changesBy]; exact hR, fun _ _ _ hR => hR⟩

theorem Idle.finds (h : Idle i s) (ht : P.Finds i s t) : Idle i t :=
  ht.own.trans h

theorem Wrote.finds {id : Id} {w : Option Row} (h : Wrote i s id w) (ht : P.Finds i s t) :
    Wrote i t id w :=
  ht.own.trans h

theorem Pending.finds (h : Pending i R s) (ht : P.Finds i s t) : Pending i R t := by
  intro id w hw
  rw [ht.own] at hw
  have hsome : (s.own i id).isSome := by rw [hw]; rfl
  rw [ht.toRely.history hsome, ht.held hsome]
  exact h id w hw

theorem InTx.finds (h : InTx R K i s) (hK : P.Stable i K) (ht : P.Finds i s t) : InTx R K i t :=
  ⟨h.pending.finds ht, hK.finds s t h.known ht⟩

variable [DecidableLE Time]

/-- The rely–guarantee discipline of a protocol. -/
def discipline (P : Protocol ι Id Row Time) :
    Discipline ι (fun i (o : Stmt Id Row) c (s : Db ι Id Row Time) => exec i o c s) where
  cond := P.cond
  inv s := P.inv s.toDurable
  rely i s t := Rely i s t ∧ P.evolves s.toDurable t.toDurable
  guar i s t := (∀ j, j ≠ i → Rely j s t) ∧ P.evolves s.toDurable t.toDurable
  rely_refl i s := ⟨.refl i s, P.evolves_refl _⟩
  rely_trans _ _ _ _ h h' := ⟨h.1.trans h'.1, P.evolves_trans _ _ _ h.2 h'.2⟩
  rely_of_guar i _ _ _ hij h := ⟨h.1 i hij, h.2⟩

variable {α ε : Type}

theorem always_of_finds {R : Db ι Id Row Time → Prop} (h : ∀ t, P.Finds i s t → R t) :
    P.discipline.Always i R s :=
  fun t hst hI => h t ⟨hst.1, hst.2, hI⟩

variable {Q : α → Db ι Id Row Time → Prop} {E : ε → Db ι Id Row Time → Prop}

/-- The rule behind all the others: a statement that leaves the durable state alone, or lets only
the clock run on, asks nothing but the weakest precondition of what follows. -/
theorem safe_call {o : Stmt Id Row} {k : o.Res Time → Program Id Row Time α} (ho : o ≠ .commit)
    (h : ∀ t, P.Finds i s t → P.cond i o t → ∀ c r u, exec i o c t = some (r, u) →
      P.discipline.Safe i (k r) Q u) :
    P.discipline.Safe i (.call o k) Q s := by
  intro t hst hI hc c r u hx
  rcases effect_of_exec hx with heff | ⟨rfl, _⟩
  · obtain ⟨c', hc', hu⟩ := heff.durable
    refine ⟨?_, ⟨fun j hj => heff.rely hj, ?_⟩, h t ⟨hst.1, hst.2, hI⟩ hc c r u hx⟩
    · show P.inv u.toDurable
      rw [hu]
      exact P.inv_tick _ c' hc' hI
    · rw [hu]
      exact P.evolves_tick _ c' hc'
  · exact absurd rfl ho

/-- A commit that goes through has to keep the invariant and be allowed by the protocol. -/
theorem safe_commit {k : Except DbError Unit → Program Id Row Time α}
    (h : ∀ t, P.Finds i s t → P.cond i .commit t →
      (∀ b, P.discipline.Safe i (k (.error (.fault b))) Q t) ∧
      P.inv (t.install i).toDurable ∧ P.evolves t.toDurable (t.install i).toDurable ∧
      P.discipline.Safe i (k (.ok ())) Q (t.install i)) :
    P.discipline.Safe i (.call .commit k) Q s := by
  intro t hst hI hc c r u hx
  obtain ⟨herr, hinv, hev, hok⟩ := h t ⟨hst.1, hst.2, hI⟩ hc
  rcases unlessFault_eq_some hx with ⟨b, rfl, rfl⟩ | hx
  · exact ⟨hI, ⟨fun j _ => .refl j u, P.evolves_refl _⟩, herr b⟩
  · cases hx
    exact ⟨hinv, ⟨fun j hj => rely_install hj t, hev⟩, hok⟩

/-! ### One rule per statement -/

theorem safeE_rollback {Q : Unit → Db ι Id Row Time → Prop}
    (h : ∀ t, P.Finds i s t → P.discipline.Always i (Q ()) (t.discard i)) :
    P.discipline.SafeE i (Sql.rollback : ExceptT ε _ _) Q E s := by
  refine safe_call (by simp) fun t ht _ c r u hx => ?_
  cases hx
  exact h t ht

theorem safeE_now {Q : Time → Db ι Id Row Time → Prop}
    (h : ∀ t, P.Finds i s t → ∀ c, t.clock ≤ c →
      P.discipline.Always i (Q c) { t with clock := c }) :
    P.discipline.SafeE i (Sql.now : ExceptT ε _ _) Q E s := by
  refine safe_call (by simp) fun t ht _ c r u hx => ?_
  obtain ⟨hle, rfl⟩ := exec_now hx
  exact h t ht r hle

theorem safeE_newId {Q : Id → Db ι Id Row Time → Prop}
    (h : ∀ t, P.Finds i s t → ∀ id, P.discipline.Always i (Q id) t) :
    P.discipline.SafeE i (Sql.newId : ExceptT ε _ _) Q E s := by
  refine safe_call (by simp) fun t ht _ c r u hx => ?_
  cases hx
  exact h t ht _

section Faults

variable [OfDbError ε]

theorem safeE_orFail {β : Type} {x : Program Id Row Time (Except DbError β)}
    {Q : β → Db ι Id Row Time → Prop}
    (h : P.discipline.Safe i x (fun r t => match r with
      | .ok a => Q a t
      | .error e => E (ofDbError e) t) s) :
    P.discipline.SafeE i (orFail x) Q E s := by
  refine Discipline.Safe.bind (h.always.mono fun r t _ hr => ?_)
  cases r with
  | ok a => exact hr
  | error e => exact hr

/-- A failed statement leaves everything as it was. -/
def FaultSafe (P : Protocol ι Id Row Time) (i : ι) (E : ε → Db ι Id Row Time → Prop)
    (t : Db ι Id Row Time) : Prop :=
  ∀ b, P.discipline.Always i (E (ofDbError (.fault b))) t

theorem safeE_begin {Q : Unit → Db ι Id Row Time → Prop}
    (h : ∀ t, P.Finds i s t →
      P.FaultSafe i E t ∧ P.discipline.Always i (Q ()) (t.discard i)) :
    P.discipline.SafeE i Sql.begin Q E s := by
  refine safeE_orFail (safe_call (by simp) fun t ht _ c r u hx => ?_)
  obtain ⟨herr, hok⟩ := h t ht
  rcases unlessFault_eq_some hx with ⟨b, rfl, rfl⟩ | hx
  · exact herr b
  · cases hx
    exact hok

theorem safeE_select {p : Id → Row → Bool} {Q : List (Id × Row) → Db ι Id Row Time → Prop}
    (h : ∀ t, P.Finds i s t →
      P.FaultSafe i E t ∧ P.discipline.Always i (Q (t.scan i p)) (t.read i p (t.scan i p))) :
    P.discipline.SafeE i (Sql.select p) Q E s := by
  refine safeE_orFail (safe_call (by simp) fun t ht _ c r u hx => ?_)
  obtain ⟨herr, hok⟩ := h t ht
  rcases unlessFault_eq_some hx with ⟨b, rfl, rfl⟩ | hx
  · exact herr b
  · cases hx
    exact hok

theorem safeE_poolSelect {p : Id → Row → Bool} {Q : List (Id × Row) → Db ι Id Row Time → Prop}
    (h : ∀ t, P.Finds i s t → P.FaultSafe i E t ∧
      P.discipline.Always i (Q (t.committed.rows.filter fun r => p r.1 r.2)) t) :
    P.discipline.SafeE i (Sql.poolSelect p) Q E s := by
  refine safeE_orFail (safe_call (by simp) fun t ht _ c r u hx => ?_)
  obtain ⟨herr, hok⟩ := h t ht
  rcases unlessFault_eq_some hx with ⟨b, rfl, rfl⟩ | hx
  · exact herr b
  · cases hx
    exact hok

theorem safeE_insert {id : Id} {row : Row} {Q : Unit → Db ι Id Row Time → Prop}
    (h : ∀ t, P.Finds i s t → P.cond i (.insert id row) t →
      P.FaultSafe i E t ∧
      (((t.visible i).lookup id).isSome →
        P.discipline.Always i (E (ofDbError .uniqueViolation)) t) ∧
      (t.lockedFor i id = false → (t.visible i).lookup id = none →
        P.discipline.Always i (Q ()) (t.write i id (some row)))) :
    P.discipline.SafeE i (Sql.insert id row) Q E s := by
  refine safeE_orFail (safe_call (by simp) fun t ht hc c r u hx => ?_)
  obtain ⟨herr, hdup, hok⟩ := h t ht hc
  rcases exec_insert hx with ⟨b, rfl, rfl⟩ | ⟨rfl, rfl, hv⟩ | ⟨rfl, rfl, hl, hv⟩
  · exact herr b
  · exact hdup hv
  · exact hok hl hv

theorem safeE_update {id : Id} {g : Row → Bool} {f : Row → Row}
    {Q : Bool → Db ι Id Row Time → Prop}
    (h : ∀ t, P.Finds i s t → P.cond i (.update id g f) t →
      P.FaultSafe i E t ∧
      ((∀ row, (t.visible i).lookup id = some row → g row = false) →
        P.discipline.Always i (Q false) t) ∧
      (∀ row, (t.visible i).lookup id = some row → g row = true → t.lockedFor i id = false →
        P.discipline.Always i (Q true) (t.write i id (some (f row))))) :
    P.discipline.SafeE i (Sql.update id g f) Q E s := by
  refine safeE_orFail (safe_call (by simp) fun t ht hc c r u hx => ?_)
  obtain ⟨herr, hno, hok⟩ := h t ht hc
  rcases exec_update hx with ⟨b, rfl, rfl⟩ | ⟨rfl, rfl, hv⟩ | ⟨row, rfl, hv, hg, hl, rfl⟩
  · exact herr b
  · exact hno hv
  · exact hok row hv hg hl

theorem safeE_delete {p : Id → Row → Bool} {Q : Nat → Db ι Id Row Time → Prop}
    (h : ∀ t, P.Finds i s t → P.cond i (.delete p) t →
      P.FaultSafe i E t ∧
      ((∀ x ∈ t.scan i p, t.lockedFor i x.1 = false) →
        P.discipline.Always i (Q (t.scan i p).length) (t.writeNone i (t.scan i p)))) :
    P.discipline.SafeE i (Sql.delete p) Q E s := by
  refine safeE_orFail (safe_call (by simp) fun t ht hc c r u hx => ?_)
  obtain ⟨herr, hok⟩ := h t ht hc
  rcases exec_delete hx with ⟨b, rfl, rfl⟩ | ⟨rfl, rfl, hl⟩
  · exact herr b
  · exact hok hl

theorem safeE_commit {Q : Unit → Db ι Id Row Time → Prop}
    (h : ∀ t, P.Finds i s t → P.cond i .commit t →
      P.FaultSafe i E t ∧ P.inv (t.install i).toDurable ∧
      P.evolves t.toDurable (t.install i).toDurable ∧
      P.discipline.Always i (Q ()) (t.install i)) :
    P.discipline.SafeE i Sql.commit Q E s := by
  refine safeE_orFail (safe_commit fun t ht hc => ?_)
  obtain ⟨herr, hinv, hev, hok⟩ := h t ht hc
  exact ⟨herr, hinv, hev, hok⟩

end Faults

/-- A transaction that is left, however it ended, is rolled back. -/
theorem safeE_closing {body : ExceptT ε (Program Id Row Time) α}
    {R : Except ε α → Db ι Id Row Time → Prop}
    (hbody : P.discipline.SafeE i body
      (fun a t => ∀ u, P.Finds i t u → P.discipline.Always i (R (.ok a)) (u.discard i))
      (fun e t => ∀ u, P.Finds i t u → P.discipline.Always i (R (.error e)) (u.discard i)) s) :
    P.discipline.SafeE i (closing body) R E s := by
  refine .bind (Discipline.safeE_attempt (hbody.mono ?_ ?_))
  · intro a t _ ha
    exact .bind (safeE_rollback fun u hu =>
      Discipline.always_safeE (Discipline.safeE_pure (ha u hu)))
  · intro e t _ he
    exact .bind (safeE_rollback fun u hu =>
      Discipline.always_safeE (Discipline.safeE_pure (he u hu)))

/-- Retrying keeps whatever a failed attempt re-establishes once it is rolled back. -/
theorem safeE_retrying {retryable : ε → Bool} {body : ExceptT ε (Program Id Row Time) α}
    (Pre : Db ι Id Row Time → Prop) (n : Nat) (hs : Pre s)
    (hbody : ∀ s, Pre s → P.discipline.SafeE i body
      (fun a t => ∀ u, P.Finds i t u → P.discipline.Always i (Q a) (u.discard i))
      (fun e t => ∀ u, P.Finds i t u →
        P.discipline.Always i (E e) (u.discard i) ∧ P.discipline.Always i Pre (u.discard i)) s) :
    P.discipline.SafeE i (retrying retryable body n) Q E s := by
  have hclose : ∀ s, Pre s → P.discipline.SafeE i (closing body)
      (fun r t => (∀ a, r = .ok a → P.discipline.Always i (Q a) t) ∧ ∀ e, r = .error e →
        P.discipline.Always i (E e) t ∧ P.discipline.Always i Pre t) E s := by
    intro s hs
    refine safeE_closing ((hbody s hs).mono (fun a t _ ha u hu v hv _ => ?_)
      fun e t _ he u hu v hv _ => ?_)
    · refine ⟨fun b hb => ?_, fun e h => (nomatch h)⟩
      cases hb
      exact (ha u hu).rely hv
    · refine ⟨fun a h => (nomatch h), fun e' h' => ?_⟩
      cases h'
      exact ⟨(he u hu).1.rely hv, (he u hu).2.rely hv⟩
  induction n generalizing s with
  | zero =>
    refine .bind ((hclose s hs).mono (fun r t hI hr => ?_) fun e t _ he => he)
    cases r with
    | ok a => exact Discipline.safeE_pure (hr.1 a rfl)
    | error e => exact Discipline.safeE_throw (hr.2 e rfl).1
  | succ n ih =>
    refine .bind ((hclose s hs).mono (fun r t hI hr => ?_) fun e t _ he => he)
    cases r with
    | ok a => exact Discipline.safeE_pure (hr.1 a rfl)
    | error e =>
      show P.discipline.SafeE i (if retryable e then _ else _) Q E t
      obtain ⟨he, hpre⟩ := hr.2 e rfl
      split
      · exact ih (hpre t (P.discipline.rely_refl i t) hI)
      · exact Discipline.safeE_throw he

/-! ### Specifications between transactions

Most operations open a transaction, do their work and close it again.  Seen from outside they start
and end with nothing pending, and what can be said about them is a matter of the durable state
alone. -/

/-- The commit of thread `i` keeps to the protocol, and afterwards `Q` holds. -/
abbrev Keeps (P : Protocol ι Id Row Time) (i : ι) (t : Db ι Id Row Time)
    (Q : Durable ι Id Row Time → Prop) : Prop :=
  P.inv (t.install i).toDurable ∧ P.evolves t.toDurable (t.install i).toDurable ∧
    Q (t.install i).toDurable

/-- A specification of a program that starts and ends with nothing pending. -/
def Triple (P : Protocol ι Id Row Time) (i : ι) (Pre : Durable ι Id Row Time → Prop)
    (x : ExceptT ε (Program Id Row Time) α) (Q : α → Durable ι Id Row Time → Prop)
    (E : ε → Durable ι Id Row Time → Prop) : Prop :=
  ∀ s, Idle i s → Pre s.toDurable → P.discipline.SafeE i x
    (fun a t => Idle i t ∧ Q a t.toDurable) (fun e t => Idle i t ∧ E e t.toDurable) s

section Triples

variable {β : Type} {Pre Pre' : Durable ι Id Row Time → Prop}
    {Q Q' : α → Durable ι Id Row Time → Prop}
  {E E' : ε → Durable ι Id Row Time → Prop}

theorem always_idle {R : Durable ι Id Row Time → Prop} (hR : P.Stable i R) (hs : Idle i s)
    (h : R s.toDurable) : P.discipline.Always i (fun t => Idle i t ∧ R t.toDurable) s :=
  always_of_finds fun t ht => ⟨hs.finds ht, hR.finds s t h ht⟩

theorem always_durable {R : Durable ι Id Row Time → Prop} (hR : P.Stable i R)
    (h : R s.toDurable) : P.discipline.Always i (fun t => R t.toDurable) s :=
  always_of_finds fun t ht => hR.finds s t h ht

theorem Triple.pure {a : α} (hQ : P.Stable i (Q a)) (h : ∀ d, Pre d → Q a d) :
    P.Triple i Pre (pure a : ExceptT ε _ α) Q E :=
  fun _ hs hp => Discipline.safeE_pure (always_idle hQ hs (h _ hp))

theorem Triple.throw {e : ε} (hE : P.Stable i (E e)) (h : ∀ d, Pre d → E e d) :
    P.Triple i Pre (throw e : ExceptT ε _ α) Q E :=
  fun _ hs hp => Discipline.safeE_throw (always_idle hE hs (h _ hp))

theorem Triple.bind {x : ExceptT ε (Program Id Row Time) β}
    {f : β → ExceptT ε (Program Id Row Time) α} {R : β → Durable ι Id Row Time → Prop}
    (hx : P.Triple i Pre x R E) (hf : ∀ b, P.Triple i (R b) (f b) Q E) :
    P.Triple i Pre (x >>= f) Q E :=
  fun s hs hp => .bind ((hx s hs hp).mono (fun b t _ ht => hf b t ht.1 ht.2) fun _ _ _ he => he)

variable {x : ExceptT ε (Program Id Row Time) α}

theorem Triple.mono (h : P.Triple i Pre x Q E) (hPre : ∀ d, Pre' d → Pre d)
    (hQ : ∀ a d, Q a d → Q' a d) (hE : ∀ e d, E e d → E' e d) : P.Triple i Pre' x Q' E' :=
  fun s hs hp => (h s hs (hPre _ hp)).mono (fun a _ _ ht => ⟨ht.1, hQ a _ ht.2⟩)
    fun e _ _ he => ⟨he.1, hE e _ he.2⟩

/-- A program of thread `i` keeps to the protocol, whatever comes of it. -/
abbrev Follows (P : Protocol ι Id Row Time) (i : ι) (x : ExceptT ε (Program Id Row Time) α) :
    Prop :=
  P.Triple i (fun _ => True) x (fun _ _ => True) fun _ _ => True

theorem Triple.weaken (h : P.Triple i Pre x Q E) (hQ : ∀ a d, Q a d → Q' a d) :
    P.Triple i Pre x Q' E :=
  h.mono (fun _ h => h) hQ fun _ _ h => h

theorem Triple.forget (h : P.Triple i Pre x Q E) (hE : ∀ e d, E e d → E' e d) :
    P.Triple i Pre x Q E' :=
  h.mono (fun _ h => h) (fun _ _ h => h) hE

theorem Triple.follows (h : P.Triple i (fun _ => True) x Q E) : P.Follows i x :=
  h.mono (fun _ h => h) (fun _ _ _ => trivial) fun _ _ _ => trivial

theorem Triple.done {a : α} :
    P.Triple i Pre (Pure.pure a : ExceptT ε _ _) (fun _ _ => True) E :=
  .pure (stable_const P i True) fun _ _ => trivial

theorem Triple.fail {e : ε} :
    P.Triple i Pre (MonadExcept.throw e : ExceptT ε _ _) Q fun _ _ => True :=
  .throw (stable_const P i True) fun _ _ => trivial

theorem Triple.orThrow {x : Except ε α} (hQ : ∀ a, P.Stable i (Q a)) (hE : ∀ e, P.Stable i (E e))
    (hok : ∀ a, x = .ok a → ∀ d, Pre d → Q a d) (herr : ∀ e, x = .error e → ∀ d, Pre d → E e d) :
    P.Triple i Pre (orThrow x : ExceptT ε _ α) Q E :=
  fun _ hs hp => Discipline.safeE_orThrow (fun a ha => always_idle (hQ a) hs (hok a ha _ hp))
    fun e he => always_idle (hE e) hs (herr e he _ hp)

/-- A computation that performs no operation, with what follows it. -/
theorem Triple.orThrow_bind {x : Except ε β} {f : β → ExceptT ε (Program Id Row Time) α}
    (hE : ∀ e, P.Stable i (E e)) (hok : ∀ b, x = .ok b → P.Triple i Pre (f b) Q E)
    (herr : ∀ e, x = .error e → ∀ d, Pre d → E e d) :
    P.Triple i Pre ((Interleaving.orThrow x : ExceptT ε _ _) >>= f) Q E := by
  cases x with
  | ok b => exact hok b rfl
  | error e => exact fun _ hs hp => Discipline.safeE_throw (always_idle (hE e) hs (herr e rfl _ hp))

/-- The same, where nothing is said of a failure. -/
theorem Triple.orFail_bind {x : Except ε β} {f : β → ExceptT ε (Program Id Row Time) α}
    (hok : ∀ b, x = .ok b → P.Triple i Pre (f b) Q fun _ _ => True) :
    P.Triple i Pre ((Interleaving.orThrow x : ExceptT ε _ _) >>= f) Q
      fun _ _ => True :=
  .orThrow_bind (fun _ => stable_const P i True) hok fun _ _ _ _ => trivial

/-- A program whose outcome is looked at instead of failing with it. -/
theorem Triple.attempt {ε' : Type} {R : Except ε α → Durable ι Id Row Time → Prop}
    {E : ε' → Durable ι Id Row Time → Prop}
    (h : P.Triple i Pre x (fun a => R (.ok a)) fun e => R (.error e)) :
    P.Triple i Pre (Interleaving.attempt x : ExceptT ε' (Program Id Row Time) (Except ε α)) R E :=
  fun s hs hp => Discipline.safeE_attempt (h s hs hp)

theorem Triple.mapError {ε' : Type} {f : ε → ε'} {E : ε' → Durable ι Id Row Time → Prop}
    (h : P.Triple i Pre x Q fun e => E (f e)) : P.Triple i Pre (mapError f x) Q E :=
  fun s hs hp => Discipline.safeE_mapError (h s hs hp)

theorem Triple.now {Q : Time → Durable ι Id Row Time → Prop} (hPre : P.Stable i Pre)
    (hQ : ∀ c, P.Stable i (Q c)) (h : ∀ d c, d.clock ≤ c → Pre d → Q c { d with clock := c }) :
    P.Triple i Pre (Sql.now : ExceptT ε _ _) Q E :=
  fun s hs hp => safeE_now fun t ht c hc =>
    have hidle : Idle i t := hs.finds ht
    always_idle (hQ c) (s := { t with clock := c }) hidle (h _ c hc (hPre.finds s t hp ht))

/-- Drawing a key teaches nothing. -/
theorem Triple.newId (hPre : P.Stable i Pre) :
    P.Triple i Pre (Sql.newId : ExceptT ε _ _) (fun _ => Pre) E :=
  fun s hs hp => safeE_newId fun t ht _ => always_idle hPre (hs.finds ht) (hPre.finds s t hp ht)

theorem Triple.poolSelect [OfDbError ε] {p : Id → Row → Bool}
    {Q : List (Id × Row) → Durable ι Id Row Time → Prop} (hPre : P.Stable i Pre)
    (hQ : ∀ l, P.Stable i (Q l))
    (h : ∀ d, Pre d → P.inv d → Q (d.committed.rows.filter fun r => p r.1 r.2) d) :
    P.Triple i Pre (Sql.poolSelect p : ExceptT ε _ _) Q fun _ => Pre :=
  fun s hs hp => safeE_poolSelect fun t ht =>
    ⟨fun _ => always_idle hPre (hs.finds ht) (hPre.finds s t hp ht),
      always_idle (hQ _) (hs.finds ht) (h _ (hPre.finds s t hp ht) ht.inv)⟩

/-- A retried transaction: the body starts with nothing pending, and whatever it leaves pending is
dropped. -/
theorem Triple.retrying {retryable : ε → Bool} {body : ExceptT ε (Program Id Row Time) α}
    (hPre : P.Stable i Pre) (hQ : ∀ a, P.Stable i (Q a)) (n : Nat)
    (hbody : ∀ s, Idle i s → Pre s.toDurable → P.discipline.SafeE i body
      (fun a t => Q a t.toDurable) (fun _ t => Pre t.toDurable) s) :
    P.Triple i Pre (retrying retryable body n) Q fun _ => Pre := by
  intro s hs hp
  refine safeE_retrying (fun s => Idle i s ∧ Pre s.toDurable) n ⟨hs, hp⟩ fun s hs => ?_
  refine (hbody s hs.1 hs.2).mono ?_ ?_
  · intro a t _ hq u hu
    exact always_idle (hQ a) (idle_discard i u) ((hQ a).finds t u hq hu)
  · intro e t _ hq u hu
    have hpre := always_idle hPre (idle_discard i u) (hPre.finds t u hq hu)
    exact ⟨hpre, hpre⟩

/-- **Systems of specified programs.**  Wherever a run leads from a state in which nothing is
pending, the invariant holds, and of every program that has ended what its specification says. -/
theorem reaches_spec {ε α : ι → Type} {Pre : ι → Durable ι Id Row Time → Prop}
    {Q : ∀ i, α i → Durable ι Id Row Time → Prop} {E : ∀ i, ε i → Durable ι Id Row Time → Prop}
    {c q : Config ι (Stmt Id Row) (Stmt.Res Time) (fun i => Except (ε i) (α i)) (Db ι Id Row Time)}
    (hrun : Reaches (fun i => exec i) P.cond c q) (hinv : P.inv c.shared.toDurable)
    (htriple : ∀ i, P.Triple i (Pre i) (c.threads i : ExceptT (ε i) _ (α i)) (Q i) (E i))
    (hidle : ∀ i, Idle i c.shared) (hpre : ∀ i, Pre i c.shared.toDurable) :
    P.inv q.shared.toDurable ∧ (∀ i a, q.threads i = .ret (.ok a) → Q i a q.shared.toDurable) ∧
      ∀ i e, q.threads i = .ret (.error e) → E i e q.shared.toDurable := by
  have hstart : P.discipline.Ok (fun i r t => (∀ a, r = .ok a → Q i a t.toDurable) ∧
      ∀ e, r = .error e → E i e t.toDurable) c := by
    refine ⟨hinv, fun i => Discipline.Safe.mono (htriple i _ (hidle i) (hpre i)) fun r t _ hr => ?_⟩
    cases r with
    | ok a => exact ⟨fun _ h => Except.ok.inj h ▸ hr.2, fun _ h => nomatch h⟩
    | error e => exact ⟨fun _ h => (nomatch h), fun _ h => Except.error.inj h ▸ hr.2⟩
  have hok := Discipline.sound hstart hrun
  exact ⟨hok.1, fun i a h => (hok.of_ret h).1 a rfl, fun i e h => (hok.of_ret h).2 e rfl⟩

end Triples

/-! ### Inside a transaction -/

section Transactions

variable {id : Id} {p : Id → Row → Bool}

theorem always_inTx (h : InTx R K i s) (hK : P.Stable i K) : P.discipline.Always i (InTx R K i) s :=
  always_of_finds fun _ ht => h.finds hK ht

theorem InTx.now (h : InTx R K i s) (hK : P.Stable i K) :
    P.discipline.SafeE i (Sql.now : ExceptT ε _ _) (fun _ => InTx R K i)
      (fun _ t => K t.toDurable) s := by
  refine safeE_now fun t ht c hc => ?_
  have ht := h.finds hK ht
  exact always_inTx (s := { t with clock := c }) ⟨ht.pending, hK.tick _ c hc ht.known⟩ hK

variable [OfDbError ε]

theorem InTx.begin (hs : K s.toDurable) (hK : P.Stable i K) :
    P.discipline.SafeE i (Sql.begin : ExceptT ε _ _) (fun _ => InTx R K i)
      (fun _ t => K t.toDurable) s := by
  refine safeE_begin fun t ht => ?_
  have hk := hK.finds s t hs ht
  exact ⟨fun _ => always_durable hK hk,
    always_inTx (s := t.discard i) ⟨(idle_discard i t).pending, hk⟩ hK⟩

/-- A scan adds what it found to what is known. -/
theorem InTx.select {L : List (Id × Row) → Durable ι Id Row Time → Prop} (h : InTx R K i s)
    (hK : P.Stable i K) (hL : ∀ l, P.Stable i (L l))
    (hfound : ∀ t, P.inv t.toDurable → InTx R K i t → L (t.scan i p) t.toDurable) :
    P.discipline.SafeE i (Sql.select p : ExceptT ε _ _)
      (fun l => InTx R (L l) i) (fun _ t => K t.toDurable) s := by
  refine safeE_select fun t ht => ?_
  have hinv := ht.inv
  have ht := h.finds hK ht
  exact ⟨fun _ => always_durable hK ht.known,
    always_inTx (s := t.read i p (t.scan i p)) ⟨ht.pending, hfound t hinv ht⟩ (hL _)⟩

theorem InTx.insert {row : Row} (h : InTx R K i s) (hK : P.Stable i K)
    (hR : ∀ t, P.inv t.toDurable → InTx R K i t → P.cond i (.insert id row) t →
      (t.visible i).lookup id = none → R id (history id t.log) (t.committed.lookup id) (some row)) :
    P.discipline.SafeE i (Sql.insert id row : ExceptT ε _ _)
      (fun _ => InTx R K i) (fun _ t => K t.toDurable) s := by
  refine safeE_insert fun t ht hc => ?_
  have hinv := ht.inv
  have ht := h.finds hK ht
  refine ⟨fun _ => always_durable hK ht.known, fun _ => always_durable hK ht.known,
    fun _ hnone => ?_⟩
  exact always_inTx (s := t.write i id (some row))
    ⟨ht.pending.write (hR t hinv ht hc hnone), ht.known⟩ hK

theorem InTx.delete (h : InTx R K i s) (hK : P.Stable i K)
    (hR : ∀ t k cur, P.inv t.toDurable → InTx R K i t → (t.visible i).lookup k = some cur →
      p k cur = true → R k (history k t.log) (t.committed.lookup k) none) :
    P.discipline.SafeE i (Sql.delete p : ExceptT ε _ _)
      (fun _ => InTx R K i) (fun _ t => K t.toDurable) s := by
  refine safeE_delete fun t ht _ => ?_
  have hinv := ht.inv
  have ht := h.finds hK ht
  refine ⟨fun _ => always_durable hK ht.known, fun _ => ?_⟩
  refine always_inTx (s := t.writeNone i (t.scan i p)) ⟨?_, ?_⟩ hK
  · refine ht.pending.writeNone fun r hr => ?_
    obtain ⟨hvis, hp⟩ := Db.mem_scan.mp hr
    exact hR t r.1 r.2 hinv ht hvis hp
  · rw [(t.writeNone_frame i _).1]
    exact ht.known

/-- The commit: the one place where the pending writes meet the invariant. -/
theorem InTx.commit {Q : Durable ι Id Row Time → Prop} (h : InTx R K i s) (hK : P.Stable i K)
    (hQ : P.Stable i Q)
    (hcommit : ∀ t, P.inv t.toDurable → InTx R K i t → P.cond i .commit t →
      P.Keeps i t Q) :
    P.discipline.SafeE i (Sql.commit : ExceptT ε _ _)
      (fun _ t => Q t.toDurable) (fun _ t => K t.toDurable) s := by
  refine safeE_commit fun t ht hc => ?_
  have hinv := ht.inv
  have ht := h.finds hK ht
  obtain ⟨hi, he, hq⟩ := hcommit t hinv ht hc
  exact ⟨fun _ => always_durable hK ht.known, hi, he, always_durable hQ hq⟩

end Transactions

end Protocol

end ReadCommitted
