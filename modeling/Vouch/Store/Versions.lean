import Vouch.Lib.Atomic
import Vouch.Store.Store

/-!
# Row versions

Optimistic concurrency rests on one fact: a row's version names its content.  Every write of a
document stores the version after the one it replaces, and an id is not used again once its document
is gone, so a writer who finds the version it read finds the row it read.

* `VersionedLog` is that discipline, as a property of the commit log.
* `Read id row` is what a thread knows after reading a row: the row is still there, or its id has
  moved past that version for good.  It is stable (`stable_read`), and it turns a version match into
  equality of rows (`Read.eq`).
* `VersionedLog.flip_unique` is what makes a record single-use: a property of a row that no change
  re-establishes is given up at most once.
* `Ledger` adds what the changes of a particular system are, and `Ledger.install` is the commit
  side: what a transaction has to have written for the ledger to be kept.
-/

namespace Vouch

open ReadCommitted

variable {ι D : Type}

/-! The store's instances of the database's types. -/

abbrev DbState (ι D : Type) := Db ι String (Row D) Timestamp

abbrev DbDurable (ι D : Type) := Durable ι String (Row D) Timestamp

abbrev DbChange (ι D : Type) := Change ι String (Row D)

abbrev DbProtocol (ι D : Type) := Protocol ι String (Row D) Timestamp

/-- A change of a row that stays raises its version. -/
def Bumps (c : Change ι String (Row D)) : Prop :=
  ∀ old new, c.old = some old → c.new = some new → old.version < new.version

/-- Every change of a row raises its version, and only the first change of an id may create it. -/
structure VersionedLog (log : List (Change ι String (Row D))) : Prop where
  bumps : ∀ c ∈ log, Bumps c
  noReuse : log.Pairwise fun c c' => c.id = c'.id → c'.old.isSome

variable {l : List (DbChange ι D)}

theorem VersionedLog.suffix {l' : List (DbChange ι D)} (h : VersionedLog (l ++ l')) :
    VersionedLog l' :=
  ⟨fun c hc => h.bumps c (List.mem_append_right _ hc), (List.pairwise_append.mp h.noReuse).2.1⟩

/-- Only the first change of an id may create it. -/
theorem VersionedLog.pairwise_history (h : VersionedLog l) (id : String) :
    (history id l).Pairwise fun _ c => c.old.isSome := by
  refine (h.noReuse.sublist List.filter_sublist).imp_of_mem fun {c c'} hc hc' h => ?_
  exact h ((mem_history.mp hc).2.trans (mem_history.mp hc').2.symm)

variable {row : Row D}

/-- From a row that exists, a versioned history leads to nothing, to the row itself, or to a later
version. -/
theorem VersionedLog.linked {id : String} (hl : VersionedLog l) {r : Option (Row D)}
    (h : Linked (some row) (history id l) r) :
    r = some row ∧ history id l = [] ∨
      (∃ c ∈ l, c.id = id) ∧ ∀ row', r = some row' → row.version < row'.version := by
  have hmem : ∀ c ∈ history id l, c ∈ l ∧ c.id = id := fun c hc => mem_history.mp hc
  have hb : ∀ c ∈ history id l, Bumps c := fun c hc => hl.bumps c (hmem c hc).1
  have hp := hl.pairwise_history id
  cases hh : history id l with
  | nil => exact .inl ⟨(hh ▸ h : Linked _ [] r).symm, rfl⟩
  | cons c cs =>
    refine .inr ⟨⟨c, hmem c (hh ▸ List.mem_cons_self)⟩, ?_⟩
    rw [hh] at h hb hp
    -- Past the first change every change starts from a row, so the versions climb one by one.
    have hclimb : ∀ (cs : List (DbChange ι D)) (row : Row D) (r : Option (Row D)),
        Linked (some row) cs r → (∀ c ∈ cs, Bumps c) → (∀ c ∈ cs.tail, c.old.isSome) →
        ∀ row', r = some row' → row.version ≤ row'.version ∧
          (cs ≠ [] → row.version < row'.version) := by
      intro cs
      induction cs with
      | nil =>
        rintro row r h - - row' rfl
        cases h
        exact ⟨le_refl _, fun h => absurd rfl h⟩
      | cons c cs ih =>
        intro row r h hb ht row' hr
        obtain ⟨hold, hrest⟩ := h
        cases hnew : c.new with
        | none =>
          rw [hnew] at hrest
          cases cs with
          | nil => exact absurd (hrest.trans hr) (by simp)
          | cons c' cs =>
            have := ht c' (by simp)
            rw [hrest.1] at this
            cases this
        | some new =>
          rw [hnew] at hrest
          have hv := hb c List.mem_cons_self row new hold hnew
          obtain ⟨hle, _⟩ := ih new r hrest (fun c hc => hb c (List.mem_cons_of_mem _ hc))
            (fun c hc => ht c (List.mem_of_mem_tail hc)) row' hr
          exact ⟨by omega, fun _ => by omega⟩
    intro row' hr
    exact (hclimb (c :: cs) row r h hb (fun c' hc' => List.rel_of_pairwise_cons hp hc') row' hr).2
      (by simp)

/-- A predicate that no change of an existing row re-establishes is given up at most once, even if
the row was created in the course of the history. -/
theorem VersionedLog.flip_unique {id : String} (hl : VersionedLog l) {A : Option (Row D) → Prop}
    (hnone : ¬ A none) {r r' : Option (Row D)} (h : Linked r (history id l) r')
    (hkeep : ∀ c ∈ l, c.id = id → c.old.isSome → ¬ A c.old → ¬ A c.new) {c c' : DbChange ι D}
    (hc : c ∈ l) (hcid : c.id = id) (hc' : c' ∈ l) (hcid' : c'.id = id) (hf : A c.old ∧ ¬ A c.new)
    (hf' : A c'.old ∧ ¬ A c'.new) : c = c' := by
  have hmem : ∀ e ∈ history id l, e ∈ l ∧ e.id = id := fun e he => mem_history.mp he
  have hsome : ∀ e : DbChange ι D, A e.old → e.old.isSome := by
    intro e he
    cases heq : e.old with
    | none => exact absurd (heq ▸ he) hnone
    | some row => rfl
  have hp := hl.pairwise_history id
  have hch : c ∈ history id l := mem_history.mpr ⟨hc, hcid⟩
  have hch' : c' ∈ history id l := mem_history.mpr ⟨hc', hcid'⟩
  have hkeep' : ∀ e ∈ history id l, e.old.isSome → ¬ A e.old → ¬ A e.new :=
    fun e he => hkeep e (hmem e he).1 (hmem e he).2
  cases hh : history id l with
  | nil =>
    rw [hh] at hch
    cases hch
  | cons d ds =>
    rw [hh] at h hp hch hch' hkeep'
    have htail : ∀ e ∈ ds, e.old.isSome := fun e he => List.rel_of_pairwise_cons hp he
    by_cases hd : d.old.isSome
    · refine h.flip_unique (fun e he hA => ?_) hch hch' hf hf'
      rcases List.mem_cons.mp he with rfl | he'
      · exact hkeep' e he hd hA
      · exact hkeep' e he (htail e he') hA
    · -- The first change creates the row, so it gives nothing up.
      have hds : ∀ e ∈ d :: ds, A e.old → e ∈ ds := by
        intro e he hA
        rcases List.mem_cons.mp he with rfl | he
        · exact absurd (hsome e hA) hd
        · exact he
      exact h.2.flip_unique (fun e he hA => hkeep' e (List.mem_cons_of_mem _ he) (htail e he) hA)
        (hds c hch hf.1) (hds c' hch' hf'.1) hf hf'

/-- What is known of an id after reading `row` there: the row is still there, or it has been
replaced by later versions or removed for good. -/
def Read (id : String) (row : Row D) (d : Durable ι String (Row D) Timestamp) : Prop :=
  d.committed.lookup id = some row ∨
    (∃ c ∈ d.log, c.id = id) ∧
      ∀ row', d.committed.lookup id = some row' → row.version < row'.version

/-- A version match after a read is a match of rows. -/
theorem Read.eq {id : String} {row' : Row D} {d : DbDurable ι D} (h : Read id row d)
    (hrow : d.committed.lookup id = some row') (hv : row'.version = row.version) : row' = row := by
  rcases h with h | ⟨_, h⟩
  · exact Option.some.inj (hrow.symm.trans h)
  · have := h row' hrow
    omega

section Stability

variable [DecidableEq ι] {P : DbProtocol ι D} {i : ι}

/-- Nothing the other threads do invalidates what a read has established. -/
theorem stable_read (hP : ∀ d, P.inv d → VersionedLog d.log) (id : String) (row : Row D) :
    P.Stable i (Read id row) := by
  refine ⟨fun s t h ht => ?_, fun d c _ h => h⟩
  obtain ⟨l, hl, -, hlk⟩ := ht.log
  have hver := hP _ ht.inv
  rw [hl] at hver
  have hlk := hlk id
  rcases h with h | ⟨⟨c, hc, hcid⟩, h⟩
  · rw [h] at hlk
    rcases hver.suffix.linked hlk with ⟨hr, -⟩ | ⟨⟨c, hc, hcid⟩, hr⟩
    · exact .inl hr
    · exact .inr ⟨⟨c, hl ▸ List.mem_append_right _ hc, hcid⟩, hr⟩
  · refine .inr ⟨⟨c, hl ▸ List.mem_append_left _ hc, hcid⟩, fun row' hrow' => ?_⟩
    cases hs : s.committed.lookup id with
    | none =>
      -- The id was used and is gone: nothing can create it again.
      exfalso
      rw [hs] at hlk
      cases hh : history id l with
      | nil =>
        rw [hh] at hlk
        exact absurd (hlk.trans hrow') (by simp)
      | cons c' cs =>
        rw [hh] at hlk
        have hc' : c' ∈ history id l := hh ▸ List.mem_cons_self
        obtain ⟨hc'l, hc'id⟩ := mem_history.mp hc'
        have := (List.pairwise_append.mp hver.noReuse).2.2 c hc c' hc'l (hcid.trans hc'id.symm)
        rw [hlk.1] at this
        cases this
    | some row₁ =>
      have h₁ := h row₁ hs
      rw [hs] at hlk
      rcases hver.suffix.linked hlk with ⟨hr, -⟩ | ⟨-, hr⟩
      · rw [hr] at hrow'
        cases hrow'
        exact h₁
      · have := hr row' hrow'
        omega

/-- What a transaction knows of an id after seeing `row` there, through its own writes or
committed. -/
def Seen (i : ι) (id : String) (row : Row D) (s : Db ι String (Row D) Timestamp) : Prop :=
  s.own i id = some (some row) ∨ s.own i id = none ∧ Read id row s.toDurable

variable {s : DbState ι D} {row : Row D}

theorem Seen.of_visible {id : String} (h : (s.visible i).lookup id = some row) :
    Seen i id row s := by
  rw [Db.lookup_visible] at h
  cases hown : s.own i id with
  | none =>
    rw [hown] at h
    exact .inr ⟨hown, .inl h⟩
  | some w =>
    rw [hown] at h
    exact .inl (hown.trans (congrArg some h))

theorem Seen.finds (hP : ∀ d, P.inv d → VersionedLog d.log) {t : DbState ι D} {id : String}
    (h : Seen i id row s) (ht : P.Finds i s t) : Seen i id row t := by
  rcases h with h | ⟨h, hread⟩
  · exact .inl (ht.own ▸ h)
  · exact .inr ⟨ht.own ▸ h, (stable_read hP id row).finds s t hread ht⟩

theorem Seen.write {id k : String} {w : Option (Row D)} (h : Seen i id row s) (hk : id ≠ k) :
    Seen i id row (s.write i k w) := by
  have hown : (s.write i k w).own i id = s.own i id := by rw [Db.own_write_self, if_neg hk]
  rcases h with h | ⟨h, hread⟩
  · exact .inl (hown.trans h)
  · exact .inr ⟨hown.trans h, hread⟩

/-- A version match is a match of rows, also inside a transaction. -/
theorem Seen.eq {id : String} {cur : Row D} (h : Seen i id row s)
    (hcur : (s.visible i).lookup id = some cur) (hv : cur.version = row.version) : cur = row := by
  rw [Db.lookup_visible] at hcur
  rcases h with h | ⟨h, hread⟩
  · rw [h] at hcur
    exact Option.some.inj hcur.symm
  · rw [h] at hcur
    exact hread.eq hcur hv

/-- How a transaction may replace a row, given the history of its id: with a later version, by
removing it, or by creating it under an id that was never used before. -/
def Succeeds (past : List (Change ι String (Row D))) (old new : Option (Row D)) : Prop :=
  (∀ o n, old = some o → new = some n → o.version < n.version) ∧ (old = none → past = [])

omit [DecidableEq ι] in
/-- A commit keeps the log versioned when each row it writes succeeds the committed one. -/
theorem VersionedLog.commits {i : ι} {W : Writes String (Row D)} {d d' : DbDurable ι D}
    (h : VersionedLog d.log) (hcom : Commits i W d d')
    (hW : ∀ id w, W id = some w → Succeeds (history id d.log) (d.committed.lookup id) w) :
    VersionedLog d'.log := by
  obtain ⟨l, hl, hnd, hmem⟩ := hcom.log
  rw [hl]
  constructor
  · intro c hc
    rcases List.mem_append.mp hc with hc | hc
    · exact h.bumps c hc
    · obtain ⟨-, hw, hold⟩ := (hmem c).mp hc
      intro old new ho hn
      exact (hW c.id _ hw).1 old new (hold ▸ ho) hn
  · refine List.pairwise_append.mpr ⟨h.noReuse, ?_, ?_⟩
    · -- One commit changes a row once.
      rw [List.nodup_iff_pairwise_ne, List.pairwise_map] at hnd
      exact hnd.imp fun hne he => absurd he hne
    · intro c hc c' hc' he
      obtain ⟨-, hw, hold⟩ := (hmem c').mp hc'
      cases hcom : d.committed.lookup c'.id with
      | none =>
        have hpast := (hW c'.id _ hw).2 hcom
        have hmem : c ∈ history c'.id d.log := mem_history.mpr ⟨hc, he⟩
        rw [hpast] at hmem
        cases hmem
      | some row =>
        rw [hold, hcom]
        rfl

end Stability

/-! ## Ledgers -/

section Ledger

/-- The committed rows are explained by a versioned log, each change of which the system allows: who
made it, of which id, and from what to what. -/
structure Ledger (init : Table String (Row D))
    (allowed : ι → String → Option (Row D) → Option (Row D) → Prop)
    (d : Durable ι String (Row D) Timestamp) : Prop extends VersionedLog d.log where
  linked : ∀ id, Linked (init.lookup id) (history id d.log) (d.committed.lookup id)
  allowed : ∀ c ∈ d.log, allowed c.owner c.id c.old c.new

variable {init : Table String (Row D)}
  {allowed : ι → String → Option (Row D) → Option (Row D) → Prop}

theorem Ledger.start (clock : Timestamp) : Ledger (ι := ι) init allowed ⟨init, [], clock⟩ :=
  ⟨⟨fun _ h => absurd h List.not_mem_nil, .nil⟩, fun _ => rfl, fun _ h => absurd h List.not_mem_nil⟩

theorem Ledger.tick {d : DbDurable ι D} (h : Ledger init allowed d) (clock : Timestamp) :
    Ledger init allowed { d with clock } :=
  ⟨h.toVersionedLog, h.linked, h.allowed⟩

/-- What a write of thread `i` has to satisfy for its commit to keep the ledger. -/
def Entry (allowed : ι → String → Option (Row D) → Option (Row D) → Prop) (i : ι) (id : String)
    (past : List (Change ι String (Row D))) (old new : Option (Row D)) : Prop :=
  Succeeds past old new ∧ allowed i id old new

theorem Ledger.commits {i : ι} {W : Writes String (Row D)} {d d' : DbDurable ι D}
    (h : Ledger init allowed d) (hcom : Commits i W d d')
    (hW : ∀ id w, W id = some w → Entry allowed i id (history id d.log) (d.committed.lookup id) w) :
    Ledger init allowed d' where
  toVersionedLog := h.toVersionedLog.commits hcom fun id w hw => (hW id w hw).1
  linked id := hcom.linked (h.linked id)
  allowed c hc := by
    rcases hcom.mem_log.mp hc with hc | ⟨rfl, hw, hold⟩
    · exact h.allowed c hc
    · rw [hold]
      exact (hW c.id _ hw).2

theorem Ledger.install [DecidableEq ι] {i : ι} {t : DbState ι D}
    (h : Ledger init allowed t.toDurable) (hp : Protocol.Pending i (Entry allowed i) t) :
    Ledger init allowed (t.install i).toDurable :=
  h.commits (t.commits_install i) hp

/-- The case of one row. -/
theorem Ledger.install_wrote [DecidableEq ι] {i : ι} {t : DbState ι D}
    (h : Ledger init allowed t.toDurable) {id : String} {w : Option (Row D)}
    (hw : Protocol.Wrote i t id w)
    (he : Entry allowed i id (history id t.log) (t.committed.lookup id) w) :
    Ledger init allowed (t.install i).toDurable := by
  refine h.install fun k v hk => ?_
  obtain ⟨rfl, rfl⟩ := hw.eq hk
  exact he

section Pending

variable [DecidableEq ι] {i : ι} {t : DbState ι D} {id : String} {cur new : Row D}

/-- Rewriting a row the transaction sees, perhaps one it has written itself. -/
theorem Entry.rewrite (hp : Protocol.Pending i (Entry allowed i) t)
    (hcur : (t.visible i).lookup id = some cur) (hv : cur.version < new.version)
    (hnew : allowed i id (some cur) (some new))
    (htrans : ∀ old, allowed i id old (some cur) → allowed i id old (some new)) :
    Entry allowed i id (history id t.log) (t.committed.lookup id) (some new) := by
  rw [Db.lookup_visible] at hcur
  cases hown : t.own i id with
  | none =>
    rw [hown] at hcur
    rw [show t.committed.lookup id = some cur from hcur]
    refine ⟨⟨fun o n ho hn => ?_, fun h => nomatch h⟩, hnew⟩
    cases ho
    cases hn
    exact hv
  | some w =>
    rw [hown] at hcur
    obtain rfl : w = some cur := hcur
    obtain ⟨⟨hlt, hpast⟩, hal⟩ := hp id _ hown
    refine ⟨⟨fun o n ho hn => ?_, hpast⟩, htrans _ hal⟩
    cases hn
    exact lt_trans (hlt o cur ho rfl) hv

/-- Deleting a row the transaction sees. -/
theorem Entry.delete (hp : Protocol.Pending i (Entry allowed i) t)
    (hcur : (t.visible i).lookup id = some cur) (hnone : ∀ old, allowed i id old none) :
    Entry allowed i id (history id t.log) (t.committed.lookup id) none := by
  refine ⟨⟨fun _ _ _ h => (nomatch h), fun h => ?_⟩, hnone _⟩
  rw [Db.lookup_visible] at hcur
  cases hown : t.own i id with
  | none =>
    rw [hown, h] at hcur
    cases hcur
  | some w => exact (hp id w hown).1.2 h

end Pending

end Ledger

/-! ## Runs

Two things a run may do put versions out of work: climb to the largest 32-bit version, from where
they no longer move, and bring an id back after its document is gone. -/

/-- No version, committed or about to be, has reached the largest 32-bit one. -/
def VersionsInRange [DecidableEq ι] (s : Db ι String (Row D) Timestamp) : Prop :=
  ∀ i id row, (s.visible i).lookup id = some row → row.version < maxVersion

/-- The statement does not bring back an id whose document is gone. -/
def NotReinserted (o : Stmt String (Row D)) (s : Db ι String (Row D) Timestamp) : Prop :=
  ∀ id row, o = .insert id row → s.committed.lookup id = none → ∀ c ∈ s.log, c.id ≠ id

/-- Inserting a row where the transaction sees none and has deleted none. -/
theorem Entry.insert [DecidableEq ι] {i : ι} {t : DbState ι D} {id : String}
    {allowed : ι → String → Option (Row D) → Option (Row D) → Prop} (hown : t.own i id ≠ some none)
    (hnone : (t.visible i).lookup id = none) (hfresh : NotReinserted (.insert id row) t)
    (hnew : allowed i id none (some row)) :
    Entry allowed i id (history id t.log) (t.committed.lookup id) (some row) := by
  rw [Db.lookup_visible] at hnone
  cases ho : t.own i id with
  | some w =>
    rw [ho] at hnone
    exact absurd (ho.trans (congrArg some hnone)) hown
  | none =>
    rw [ho] at hnone
    have hcom : t.committed.lookup id = none := hnone
    have hpast : history id t.log = [] := by
      rw [List.eq_nil_iff_forall_not_mem]
      intro c hc
      obtain ⟨hlog, hid⟩ := mem_history.mp hc
      exact hfresh id row rfl hcom c hlog hid
    rw [hcom, hpast]
    exact ⟨⟨fun _ _ h => (nomatch h), fun _ => rfl⟩, hnew⟩

/-- Whether no version has reached the largest. -/
def versionsInRange (s : Db ι String (Row D) Timestamp) : Bool :=
  (s.committed.rows.all fun r => r.2.version < maxVersion) &&
    s.pending.entries.all fun e => e.2.2.all fun row => row.version < maxVersion

variable {s : DbState ι D}

theorem VersionsInRange.of_check [DecidableEq ι] (h : versionsInRange s = true) :
    VersionsInRange s := by
  rw [versionsInRange, Bool.and_eq_true, List.all_eq_true, List.all_eq_true] at h
  intro i id row hrow
  rw [Db.lookup_visible] at hrow
  cases hown : s.own i id with
  | none =>
    rw [hown] at hrow
    exact of_decide_eq_true (h.1 (id, row) (Table.mem_rows.mpr hrow))
  | some w =>
    rw [hown] at hrow
    obtain rfl : w = some row := hrow
    rw [Db.own] at hown
    split at hown
    · rename_i j w hp
      split at hown
      · cases hown
        exact of_decide_eq_true (h.2 _ (AList.mem_lookup_iff.mp hp))
      · cases hown
    · cases hown

/-- Whether a statement does not bring back an id whose document is gone. -/
def notReinserted (o : Stmt String (Row D)) (s : Db ι String (Row D) Timestamp) : Bool :=
  match o with
  | .insert id _ => (s.committed.lookup id).isSome || s.log.all fun c => c.id ≠ id
  | _ => true

theorem NotReinserted.of_check {o : Stmt String (Row D)} (h : notReinserted o s = true) :
    NotReinserted o s := by
  rintro id row rfl hnone c hc
  rw [notReinserted, hnone, Option.isSome_none, Bool.false_or, List.all_eq_true] at h
  exact of_decide_eq_true (h c hc)

/-- The two checks together. -/
theorem regular_of_check [DecidableEq ι] {o : Stmt String (Row D)}
    (h : (versionsInRange s && notReinserted o s) = true) :
    VersionsInRange s ∧ NotReinserted o s := by
  rw [Bool.and_eq_true] at h
  exact ⟨.of_check h.1, .of_check h.2⟩

end Vouch
