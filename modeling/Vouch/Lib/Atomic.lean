import Vouch.Lib.Protocol

/-!
# Transactions as atomic steps

A transaction that reads several rows and writes several others is meant to act as one step: its
writes become durable together, and what it decided on is still so when they do.  This file is the
abstract side of that reading, and a protocol that connects it to programs.

* `Writes` is what a transaction writes, `Commits i W d d'` that thread `i` made the writes `W`
  durable in `d`, giving `d'`.
* `Atomic may` is the abstract system.  Its steps are whole transactions: `may i d W` says when
  thread `i` may make the writes `W` durable in the state `d`, and the clock runs on in between.
* `atomicProtocol` is the protocol of threads that act as if they took such steps: the invariant is
  that the durable state is reachable in the abstract system.  `atomic_stable` says that a thread
  may go on assuming something no abstract step takes away.
-/

namespace ReadCommitted

open Interleaving

variable {ι Id Row Time : Type}

/-! ## Commits -/

/-- What a transaction writes: at some keys a row, or its absence. -/
abbrev Writes (Id Row : Type) := Id → Option (Option Row)

section Commits

variable [DecidableEq Id]

/-- Thread `i` makes the writes `W` durable. -/
structure Commits (i : ι) (W : Writes Id Row) (d d' : Durable ι Id Row Time) : Prop where
  lookup : ∀ id, d'.committed.lookup id = (W id).getD (d.committed.lookup id)
  history : ∀ id, history id d'.log = history id d.log ++
    ((W id).map fun w => ⟨i, id, d.committed.lookup id, w⟩).toList
  log : ∃ l, d'.log = d.log ++ l ∧ (l.map (·.id)).Nodup ∧ ∀ c, c ∈ l ↔
    c.owner = i ∧ W c.id = some c.new ∧ c.old = d.committed.lookup c.id
  clock : d'.clock = d.clock

variable {i : ι} {W : Writes Id Row} {d d' : Durable ι Id Row Time} {id : Id}

theorem Commits.mem_log (h : Commits i W d d') {c : Change ι Id Row} :
    c ∈ d'.log ↔ c ∈ d.log ∨
      (c.owner = i ∧ W c.id = some c.new ∧ c.old = d.committed.lookup c.id) := by
  obtain ⟨l, hl, -, hmem⟩ := h.log
  rw [hl, List.mem_append, hmem]

theorem Commits.lookup_of_none (h : Commits i W d d') (hW : W id = none) :
    d'.committed.lookup id = d.committed.lookup id := by
  rw [h.lookup, hW]
  rfl

theorem Commits.lookup_of_some (h : Commits i W d d') {w : Option Row} (hW : W id = some w) :
    d'.committed.lookup id = w := by
  rw [h.lookup, hW]
  rfl

theorem Commits.history_of_none (h : Commits i W d d') (hW : W id = none) :
    ReadCommitted.history id d'.log = ReadCommitted.history id d.log := by
  rw [h.history, hW]
  exact List.append_nil _

theorem Commits.history_of_some (h : Commits i W d d') {w : Option Row} (hW : W id = some w) :
    ReadCommitted.history id d'.log =
      ReadCommitted.history id d.log ++ [⟨i, id, d.committed.lookup id, w⟩] := by
  rw [h.history, hW]
  rfl

/-- A commit's changes lead from the rows it found to the rows it leaves. -/
theorem Commits.linked (h : Commits i W d d') {r : Option Row}
    (hd : Linked r (ReadCommitted.history id d.log) (d.committed.lookup id)) :
    Linked r (ReadCommitted.history id d'.log) (d'.committed.lookup id) := by
  cases hW : W id with
  | none =>
    rw [h.history_of_none hW, h.lookup_of_none hW]
    exact hd
  | some w =>
    rw [h.history_of_some hW, h.lookup_of_some hW]
    exact hd.append ⟨rfl, rfl⟩

variable [DecidableEq ι]

/-- What the table does at a commit is what `Commits` says. -/
theorem Db.commits_install (s : Db ι Id Row Time) (i : ι) :
    Commits i (s.own i) s.toDurable (s.install i).toDurable where
  lookup := s.lookup_install i
  history id := by
    show ReadCommitted.history id (s.log ++ s.changes i) = _
    rw [history_append, s.history_changes]
    cases s.own i id with
    | none => rfl
    | some w => rfl
  log := ⟨s.changes i, rfl, s.changes_ids_nodup i, fun _ => Db.mem_changes⟩
  clock := rfl

end Commits

/-! ## The abstract system -/

variable [DecidableEq Id] [Preorder Time]

/-- A step of the abstract system: a whole transaction, or the clock. -/
inductive Atomic (may : ι → Durable ι Id Row Time → Writes Id Row → Prop) :
    Durable ι Id Row Time → Durable ι Id Row Time → Prop
  | commit {i : ι} {W : Writes Id Row} {d d' : Durable ι Id Row Time} (h : may i d W)
      (hd : Commits i W d d') : Atomic may d d'
  | tick {d : Durable ι Id Row Time} {c : Time} (hc : d.clock ≤ c) :
      Atomic may d { d with clock := c }

/-- The states the abstract system reaches. -/
def Reachable (start : Durable ι Id Row Time → Prop)
    (may : ι → Durable ι Id Row Time → Writes Id Row → Prop) (d : Durable ι Id Row Time) : Prop :=
  ∃ d₀, start d₀ ∧ Relation.ReflTransGen (Atomic may) d₀ d

section Reachable

variable {start : Durable ι Id Row Time → Prop}
  {may : ι → Durable ι Id Row Time → Writes Id Row → Prop} {d d' : Durable ι Id Row Time}

theorem Reachable.step (h : Reachable start may d) (hd : Atomic may d d') :
    Reachable start may d' :=
  have ⟨d₀, h₀, hr⟩ := h
  ⟨d₀, h₀, hr.tail hd⟩

end Reachable

/-- The protocol of threads that act as the abstract system does. -/
def atomicProtocol (cond : ι → Stmt Id Row → Db ι Id Row Time → Prop)
    (start : Durable ι Id Row Time → Prop)
    (may : ι → Durable ι Id Row Time → Writes Id Row → Prop) : Protocol ι Id Row Time where
  cond := cond
  inv := Reachable start may
  evolves := Relation.ReflTransGen (Atomic may)
  evolves_refl _ := .refl
  evolves_trans _ _ _ h h' := h.trans h'
  inv_tick _ _ hc h := h.step (.tick hc)
  evolves_tick _ _ hc := .single (.tick hc)

namespace Protocol

variable [DecidableEq ι] {i : ι}

/-- **Stability in the abstract system.**  In a reachable state a thread may go on assuming what no
transaction and no tick of the clock takes away. -/
theorem atomic_stable {cond : ι → Stmt Id Row → Db ι Id Row Time → Prop}
    {start : Durable ι Id Row Time → Prop}
    {may : ι → Durable ι Id Row Time → Writes Id Row → Prop} {K : Durable ι Id Row Time → Prop}
    (htick : ∀ d c, d.clock ≤ c → K d → K { d with clock := c })
    (hcommit : ∀ j W d d', Reachable start may d → may j d W → Commits j W d d' → K d → K d') :
    (atomicProtocol cond start may).Stable i fun d => Reachable start may d ∧ K d where
  finds s t h ht := by
    refine ⟨ht.inv, ?_⟩
    have hstep : ∀ d, Relation.ReflTransGen (Atomic may) s.toDurable d →
        Reachable start may d ∧ K d := by
      intro d hd
      induction hd with
      | refl => exact h
      | tail _ hd ih =>
        refine ⟨ih.1.step hd, ?_⟩
        cases hd with
        | commit hmay hcom => exact hcommit _ _ _ _ ih.1 hmay hcom ih.2
        | tick hc => exact htick _ _ hc ih.2
    exact (hstep _ ht.evolves).2
  tick d c hc h := ⟨h.1.step (.tick hc), htick d c hc h.2⟩

end Protocol

end ReadCommitted
