import Mathlib.Data.List.AList
import Mathlib.Order.Basic
import Vouch.Lib.Interleaving

/-!
# A transactional table under READ COMMITTED

A table of rows keyed by `Id`, shared by threads that work on it in transactions.  The isolation
level is READ COMMITTED, as an SQL server without long-lived snapshots provides it:

* every statement sees the latest committed rows, overlaid with its own transaction's writes;
* a write locks its row until the transaction ends, and a statement that would write a row somebody
  else has locked waits — here, is not enabled — and re-evaluates its predicate afterwards;
* a transaction's writes become visible together, at commit, or not at all;
* inserting a key that is already visible is a unique violation.

Two things are kept beside the rows for the sake of stating results, and are never read by a
statement: the `log` of committed changes, in commit order, and each open transaction's `reads`,
that is the predicates it has evaluated and what it found.

Any statement may fail for reasons of the server's own (`Choice.fault`), leaving everything as it
was.  The clock is read by `Stmt.now` and never runs backwards.

What a thread may rely on whatever the other threads run is `Rely`: its own writes and reads are its
own, the committed rows it has locked do not move, and the log only grows by other owners' changes
(`Effect.rely`, `rely_install`).  `Linked` says that a stretch of the log explains how one row came
to be what it is, and `Linked.flip_unique` is what makes single-use records single-use: a predicate
no change ever re-establishes is given up at most once.
-/

namespace ReadCommitted

/-- A table of rows, at most one to a key. -/
abbrev Table (Id Row : Type) := AList fun _ : Id => Row

namespace Table

variable {Id Row : Type} [DecidableEq Id]

/-- The rows of a table with their keys. -/
def rows (t : Table Id Row) : List (Id × Row) := t.entries.map fun e => (e.1, e.2)

omit [DecidableEq Id] in
theorem mem_rows_iff_mem_entries {t : Table Id Row} {id : Id} {row : Row} :
    (id, row) ∈ t.rows ↔ ⟨id, row⟩ ∈ t.entries := by
  constructor
  · intro h
    obtain ⟨⟨k, r⟩, he, heq⟩ := List.mem_map.mp h
    cases heq
    exact he
  · exact fun h => List.mem_map.mpr ⟨_, h, rfl⟩

@[simp] theorem mem_rows {t : Table Id Row} {id : Id} {row : Row} :
    (id, row) ∈ t.rows ↔ t.lookup id = some row :=
  mem_rows_iff_mem_entries.trans AList.mem_lookup_iff.symm

/-- Write one row: `none` deletes it. -/
def put (id : Id) : Option Row → Table Id Row → Table Id Row
  | some row, t => t.insert id row
  | none, t => t.erase id

theorem lookup_put (id id' : Id) (w : Option Row) (t : Table Id Row) :
    (t.put id w).lookup id' = if id' = id then w else t.lookup id' := by
  cases w with
  | none =>
    by_cases h : id' = id
    · subst h; simp [put]
    · simp [put, h]
  | some row =>
    by_cases h : id' = id
    · subst h; simp [put]
    · simp [put, h]

/-- Write several rows, the earlier ones of the list last. -/
def putAll (ws : List (Id × Option Row)) (t : Table Id Row) : Table Id Row :=
  ws.foldr (fun w t => t.put w.1 w.2) t

theorem lookup_putAll (ws : List (Id × Option Row)) (t : Table Id Row) (id : Id) :
    (t.putAll ws).lookup id = (ws.lookup id).getD (t.lookup id) := by
  induction ws with
  | nil => rfl
  | cons w ws ih =>
    obtain ⟨k, v⟩ := w
    rw [putAll, List.foldr_cons, ← putAll, lookup_put, List.lookup_cons]
    by_cases h : id = k
    · simp [h]
    · simp [h, ih, beq_eq_false_iff_ne.mpr h]

end Table

/-! ## Statements -/

/-- Why a statement failed: the key was taken, or the server refused for reasons of its own, which
it may classify as transient. -/
inductive DbError
  | uniqueViolation
  | fault (transient : Bool)
  deriving DecidableEq, Repr

/-- The statements a thread may issue. -/
inductive Stmt (Id Row : Type)
  | begin
  | commit
  /-- End the transaction without effect. -/
  | rollback
  /-- The rows satisfying a predicate, as the transaction sees them. -/
  | select (p : Id → Row → Bool)
  /-- The committed rows satisfying a predicate, read outside any transaction. -/
  | poolSelect (p : Id → Row → Bool)
  | insert (id : Id) (row : Row)
  /-- Rewrite the row at a key if it satisfies the guard; answers whether there was one. -/
  | update (id : Id) (guard : Row → Bool) (set : Row → Row)
  /-- Delete every row satisfying a predicate; answers how many there were. -/
  | delete (p : Id → Row → Bool)
  /-- Read the clock. -/
  | now
  /-- Draw a key. -/
  | newId

/-- The answer of a statement. -/
@[reducible] def Stmt.Res {Id Row : Type} (Time : Type) : Stmt Id Row → Type
  | .begin | .commit | .insert _ _ => Except DbError Unit
  | .rollback => Unit
  | .select _ | .poolSelect _ => Except DbError (List (Id × Row))
  | .update _ _ _ => Except DbError Bool
  | .delete _ => Except DbError Nat
  | .now => Time
  | .newId => Id

/-- What a statement leaves open: whether the server fails it, what the clock shows, which key is
drawn. -/
structure Choice (Id Time : Type) where
  fault : Option Bool
  time : Time
  id : Id

/-- One committed change of one row. -/
structure Change (ι Id Row : Type) where
  /-- Whose transaction made it. -/
  owner : ι
  id : Id
  old : Option Row
  new : Option Row

/-- What survives a transaction: the committed rows, the log of the changes that led to them, and
the clock. -/
structure Durable (ι Id Row Time : Type) where
  committed : Table Id Row
  log : List (Change ι Id Row)
  clock : Time

/-- The whole state.  A row has at most one pending write, and whose it is says who holds the
lock. -/
structure Db (ι Id Row Time : Type) extends Durable ι Id Row Time where
  pending : AList fun _ : Id => ι × Option Row
  /-- The predicates each open transaction has evaluated, latest first, with what it found. -/
  reads : ι → List ((Id → Row → Bool) × List (Id × Row))

/-! ## The log -/

variable {ι Id Row Time : Type}

section Log

variable {log l : List (Change ι Id Row)} {c : Change ι Id Row} {r r' : Option Row}

/-- A list of changes leads from one content of a row to another, each picking up where the one
before it left off. -/
def Linked : Option Row → List (Change ι Id Row) → Option Row → Prop
  | r, [], r' => r = r'
  | r, c :: cs, r' => c.old = r ∧ Linked c.new cs r'

theorem Linked.append {m : Option Row} {l' : List (Change ι Id Row)} (h : Linked r l m)
    (h' : Linked m l' r') : Linked r (l ++ l') r' := by
  induction l generalizing r with
  | nil => exact h ▸ h'
  | cons c cs ih => exact ⟨h.1, ih h.2⟩

variable {P : Option Row → Prop}

/-- **A predicate that no change re-establishes is given up at most once.** -/
theorem Linked.flip_unique (h : Linked r l r') (hP : ∀ c ∈ l, ¬ P c.old → ¬ P c.new)
    {c' : Change ι Id Row} (hc : c ∈ l) (hc' : c' ∈ l) (hf : P c.old ∧ ¬ P c.new)
    (hf' : P c'.old ∧ ¬ P c'.new) : c = c' := by
  -- Once given up, the predicate fails at the start of every later change.
  have hlater : ∀ {r r' : Option Row} {l : List (Change ι Id Row)}, Linked r l r' →
      (∀ c ∈ l, ¬ P c.old → ¬ P c.new) → ¬ P r → ∀ c ∈ l, ¬ P c.old := by
    intro r r' l
    induction l generalizing r with
    | nil => intro _ _ _ c hc; cases hc
    | cons d ds ih =>
      intro h hP hr c hc
      have hd : ¬ P d.old := h.1 ▸ hr
      rcases List.mem_cons.mp hc with rfl | hc
      · exact hd
      · exact ih h.2 (fun c hc => hP c (List.mem_cons_of_mem _ hc))
          (hP d List.mem_cons_self hd) c hc
  induction l generalizing r with
  | nil => cases hc
  | cons d ds ih =>
    have hPds : ∀ c ∈ ds, ¬ P c.old → ¬ P c.new := fun c hc => hP c (List.mem_cons_of_mem _ hc)
    rcases List.mem_cons.mp hc with rfl | hmem
    · rcases List.mem_cons.mp hc' with rfl | hmem'
      · rfl
      · exact absurd hf'.1 (hlater h.2 hPds hf.2 c' hmem')
    · rcases List.mem_cons.mp hc' with rfl | hmem'
      · exact absurd hf.1 (hlater h.2 hPds hf'.2 c hmem)
      · exact ih h.2 hPds hmem hmem'

/-- A chain that goes through two lists has a row in between. -/
theorem Linked.of_append {l' : List (Change ι Id Row)} (h : Linked r (l ++ l') r') :
    ∃ m, Linked r l m ∧ Linked m l' r' := by
  induction l generalizing r with
  | nil => exact ⟨r, rfl, h⟩
  | cons c cs ih =>
    obtain ⟨m, hl, hl'⟩ := ih h.2
    exact ⟨m, ⟨h.1, hl⟩, hl'⟩

/-- A predicate that holds in the end held from the start, or a change established it. -/
theorem Linked.established_last (h : Linked r l r') (hP : P r') :
    P r ∨ ∃ e ∈ l, ¬ P e.old ∧ P e.new := by
  induction l generalizing r with
  | nil => exact .inl (h ▸ hP)
  | cons d ds ih =>
    rcases ih h.2 with hnew | ⟨e, he, hest⟩
    · by_cases hd : P d.old
      · exact .inl (h.1 ▸ hd)
      · exact .inr ⟨d, List.mem_cons_self, hd, hnew⟩
    · exact .inr ⟨e, List.mem_cons_of_mem _ he, hest⟩

/-- A predicate that holds of what a change replaces held from the start, or an earlier change
established it. -/
theorem Linked.established (h : Linked r l r') (hc : c ∈ l) (hP : P c.old) :
    P r ∨ ∃ e ∈ l, ¬ P e.old ∧ P e.new := by
  obtain ⟨pre, post, rfl⟩ := List.append_of_mem hc
  obtain ⟨m, hpre, hold, -⟩ := h.of_append
  refine (hpre.established_last (hold ▸ hP)).imp_right fun ⟨e, he, hest⟩ => ?_
  exact ⟨e, List.mem_append_left _ he, hest⟩

section Rows

variable [DecidableEq Id]

/-- The changes of one row, in commit order. -/
def history (id : Id) (log : List (Change ι Id Row)) : List (Change ι Id Row) :=
  log.filter fun c => c.id = id

@[simp] theorem history_append (id : Id) (l l' : List (Change ι Id Row)) :
    history id (l ++ l') = history id l ++ history id l' :=
  List.filter_append ..

theorem mem_history {id : Id} : c ∈ history id log ↔ c ∈ log ∧ c.id = id := by
  simp [history]

end Rows

variable [DecidableEq ι] {i : ι}

/-- The changes made by one thread, in commit order. -/
def changesBy (i : ι) (log : List (Change ι Id Row)) : List (Change ι Id Row) :=
  log.filter fun c => c.owner = i

@[simp] theorem changesBy_append (i : ι) (l l' : List (Change ι Id Row)) :
    changesBy i (l ++ l') = changesBy i l ++ changesBy i l' :=
  List.filter_append ..

theorem mem_changesBy : c ∈ changesBy i log ↔ c ∈ log ∧ c.owner = i := by
  simp [changesBy]

theorem changesBy_eq_nil (h : ∀ c ∈ log, c.owner ≠ i) : changesBy i log = [] := by
  simpa [changesBy] using h

end Log

variable [DecidableEq ι] [DecidableEq Id]

namespace Db

/-- The uncommitted writes of thread `i`. -/
def ownWrites (s : Db ι Id Row Time) (i : ι) : List (Id × Option Row) :=
  s.pending.entries.filterMap fun e => if e.2.1 = i then some (e.1, e.2.2) else none

/-- What thread `i` has written at a key, if anything. -/
def own (s : Db ι Id Row Time) (i : ι) (id : Id) : Option (Option Row) :=
  match s.pending.lookup id with
  | some (j, w) => if j = i then some w else none
  | none => none

/-- Another thread has an uncommitted write at the key. -/
def lockedFor (s : Db ι Id Row Time) (i : ι) (id : Id) : Bool :=
  match s.pending.lookup id with
  | some (j, _) => j ≠ i
  | none => false

/-- The table as thread `i` sees it. -/
def visible (s : Db ι Id Row Time) (i : ι) : Table Id Row := s.committed.putAll (s.ownWrites i)

/-- The rows thread `i` sees that satisfy a predicate. -/
def scan (s : Db ι Id Row Time) (i : ι) (p : Id → Row → Bool) : List (Id × Row) :=
  (s.visible i).rows.filter fun r => p r.1 r.2

/-- Record a pending write of thread `i`. -/
def write (s : Db ι Id Row Time) (i : ι) (id : Id) (w : Option Row) : Db ι Id Row Time :=
  { s with pending := s.pending.insert id (i, w) }

/-- Record pending deletions of thread `i`. -/
def writeNone (s : Db ι Id Row Time) (i : ι) : List (Id × Row) → Db ι Id Row Time
  | [] => s
  | r :: rs => (s.writeNone i rs).write i r.1 none

/-- Record what a predicate found. -/
def read (s : Db ι Id Row Time) (i : ι) (p : Id → Row → Bool) (found : List (Id × Row)) :
    Db ι Id Row Time :=
  { s with reads := Function.update s.reads i ((p, found) :: s.reads i) }

/-- Forget the pending writes and the reads of thread `i`. -/
def discard (s : Db ι Id Row Time) (i : ι) : Db ι Id Row Time :=
  { s with
    pending := ⟨s.pending.entries.filter fun e => e.2.1 ≠ i,
      s.pending.nodupKeys.sublist List.filter_sublist⟩
    reads := Function.update s.reads i [] }

/-- The changes thread `i` would commit. -/
def changes (s : Db ι Id Row Time) (i : ι) : List (Change ι Id Row) :=
  (s.ownWrites i).map fun w => ⟨i, w.1, s.committed.lookup w.1, w.2⟩

/-- Make the pending writes of thread `i` durable. -/
def install (s : Db ι Id Row Time) (i : ι) : Db ι Id Row Time :=
  { s.discard i with committed := s.visible i, log := s.log ++ s.changes i }

end Db

/-- A statement fails when the choice says so, and otherwise does what it does. -/
def unlessFault {α : Type} (c : Choice Id Time) (s : Db ι Id Row Time)
    (ok : Option (Except DbError α × Db ι Id Row Time)) :
    Option (Except DbError α × Db ι Id Row Time) :=
  match c.fault with
  | some b => some (.error (.fault b), s)
  | none => ok

/-- One statement of thread `i`; `none` while it has to wait. -/
def exec [LE Time] [DecidableLE Time] (i : ι) : (o : Stmt Id Row) → Choice Id Time →
    Db ι Id Row Time → Option (o.Res Time × Db ι Id Row Time)
  | .begin, c, s => unlessFault c s (some (.ok (), s.discard i))
  | .commit, c, s => unlessFault c s (some (.ok (), s.install i))
  | .rollback, _, s => some ((), s.discard i)
  | .select p, c, s => unlessFault c s (some (.ok (s.scan i p), s.read i p (s.scan i p)))
  | .poolSelect p, c, s =>
      unlessFault c s (some (.ok (s.committed.rows.filter fun r => p r.1 r.2), s))
  | .insert id row, c, s => unlessFault c s <|
      if s.lockedFor i id then none
      else if ((s.visible i).lookup id).isSome then some (.error .uniqueViolation, s)
      else some (.ok (), s.write i id (some row))
  | .update id guard set, c, s => unlessFault c s <|
      match (s.visible i).lookup id with
      | none => some (.ok false, s)
      | some row =>
        if guard row then
          if s.lockedFor i id then none else some (.ok true, s.write i id (some (set row)))
        else some (.ok false, s)
  | .delete p, c, s => unlessFault c s <|
      if (s.scan i p).any fun r => s.lockedFor i r.1 then none
      else some (.ok (s.scan i p).length, s.writeNone i (s.scan i p))
  | .now, c, s => if s.clock ≤ c.time then some (c.time, { s with clock := c.time }) else none
  | .newId, c, s => some (c.id, s)

/-! ## What the bookkeeping means -/

omit [DecidableEq ι] in
/-- Where keys do not repeat, the first entry of a key is the only one. -/
theorem lookup_eq_some_iff_mem {β : Type} {l : List (Id × β)} (hnd : (l.map Prod.fst).Nodup)
    {k : Id} {b : β} : l.lookup k = some b ↔ (k, b) ∈ l := by
  induction l with
  | nil => simp
  | cons e l ih =>
    obtain ⟨k', v⟩ := e
    rw [List.map_cons, List.nodup_cons] at hnd
    by_cases h : k = k'
    · subst h
      have hrest : (k, b) ∉ l := fun hmem => hnd.1 (List.mem_map.mpr ⟨_, hmem, rfl⟩)
      simp [hrest, eq_comm]
    · simp [List.lookup_cons, beq_eq_false_iff_ne.mpr h, ih hnd.2, h]

omit [DecidableEq ι] [DecidableEq Id] in
/-- A list without repetitions that has at most one member. -/
theorem eq_toList_of_nodup {α : Type} {l : List α} {o : Option α} (hnd : l.Nodup)
    (h : ∀ x, x ∈ l ↔ o = some x) : l = o.toList := by
  have hperm := (List.perm_ext_iff_of_nodup hnd o.toList_nodup).mpr fun x => by simp [h]
  cases o with
  | none => exact List.perm_nil.mp hperm
  | some a => exact List.perm_singleton.mp hperm

namespace Db

variable {s : Db ι Id Row Time} {i : ι} {id : Id}

theorem own_eq_some {w : Option Row} : s.own i id = some w ↔ s.pending.lookup id = some (i, w) := by
  rw [own]
  rcases s.pending.lookup id with _ | ⟨j, v⟩
  · simp
  · by_cases hj : j = i
    · simp [hj]
    · simp [hj]

theorem mem_ownWrites {w : Option Row} : (id, w) ∈ s.ownWrites i ↔ s.own i id = some w := by
  rw [own_eq_some, ← Option.mem_def, AList.mem_lookup_iff, ownWrites, List.mem_filterMap]
  constructor
  · rintro ⟨⟨k, j, v⟩, he, heq⟩
    obtain ⟨rfl, rfl, rfl⟩ : j = i ∧ k = id ∧ v = w := by simpa using heq
    exact he
  · exact fun he => ⟨_, he, by simp⟩

omit [DecidableEq Id] in
theorem ownWrites_nodup (s : Db ι Id Row Time) (i : ι) :
    ((s.ownWrites i).map Prod.fst).Nodup := by
  refine List.Nodup.sublist ?_ s.pending.nodupKeys
  rw [ownWrites]
  generalize s.pending.entries = l
  induction l with
  | nil => exact .slnil
  | cons e l ih =>
    obtain ⟨k, j, w⟩ := e
    by_cases hj : j = i
    · simpa [hj, List.keys] using ih.cons_cons k
    · simpa [hj, List.keys] using ih.cons k

theorem lookup_ownWrites (s : Db ι Id Row Time) (i : ι) (id : Id) :
    (s.ownWrites i).lookup id = s.own i id :=
  Option.ext fun _ => (lookup_eq_some_iff_mem (s.ownWrites_nodup i)).trans mem_ownWrites

/-- A thread sees its own write where it has one, and the committed row elsewhere. -/
theorem lookup_visible (s : Db ι Id Row Time) (i : ι) (id : Id) :
    (s.visible i).lookup id = (s.own i id).getD (s.committed.lookup id) := by
  rw [visible, Table.lookup_putAll, lookup_ownWrites]

theorem mem_scan {p : Id → Row → Bool} {row : Row} :
    (id, row) ∈ s.scan i p ↔ (s.visible i).lookup id = some row ∧ p id row = true := by
  simp [scan]

theorem scan_keys_nodup (s : Db ι Id Row Time) (i : ι) (p : Id → Row → Bool) :
    ((s.scan i p).map Prod.fst).Nodup := by
  refine List.Nodup.sublist (List.filter_sublist.map _) ?_
  rw [Table.rows, List.map_map]
  exact (s.visible i).nodupKeys

/-- The rows at one key that satisfy a predicate are at most one. -/
theorem scan_id [BEq Id] [LawfulBEq Id] (t : Db ι Id Row Time) (i : ι) (id : Id) (p : Row → Bool) :
    (t.scan i fun k row => k == id && p row) =
      match (t.visible i).lookup id with
      | some row => if p row then [(id, row)] else []
      | none => [] := by
  have hmem : ∀ x, (x ∈ t.scan i fun k row => k == id && p row) ↔
      (t.visible i).lookup id = some x.2 ∧ x.1 = id ∧ p x.2 = true := by
    rintro ⟨k, row⟩
    rw [mem_scan, Bool.and_eq_true, beq_iff_eq]
    constructor
    · rintro ⟨h, rfl, hp⟩
      exact ⟨h, rfl, hp⟩
    · rintro ⟨h, rfl, hp⟩
      exact ⟨h, rfl, hp⟩
  refine (eq_toList_of_nodup (o := ((t.visible i).lookup id).bind fun row =>
    if p row then some (id, row) else none) (t.scan_keys_nodup i _).of_map fun x => ?_).trans ?_
  · rw [hmem, Option.bind_eq_some_iff]
    constructor
    · rintro ⟨hrow, rfl, hp⟩
      exact ⟨x.2, hrow, if_pos hp⟩
    · rintro ⟨row, hrow, hx⟩
      obtain ⟨hp, rfl⟩ : p row = true ∧ (id, row) = x := by simpa using hx
      exact ⟨hrow, rfl, hp⟩
  · cases (t.visible i).lookup id with
    | none => rfl
    | some row =>
      simp only [Option.bind_some]
      split
      · rfl
      · rfl

variable {j : ι}

theorem lockedFor_of_own (hij : i ≠ j) (h : (s.own j id).isSome) : s.lockedFor i id = true := by
  obtain ⟨w, hw⟩ := Option.isSome_iff_exists.mp h
  simpa [lockedFor, own_eq_some.mp hw] using hij.symm

/-- A key has one writer. -/
theorem own_eq_none_of_own (hij : i ≠ j) (h : (s.own j id).isSome) : s.own i id = none := by
  obtain ⟨w, hw⟩ := Option.isSome_iff_exists.mp h
  simp [own, own_eq_some.mp hw, hij.symm]

/-! ### Writing -/

theorem own_write_self (s : Db ι Id Row Time) (i : ι) (id id' : Id) (w : Option Row) :
    (s.write i id w).own i id' = if id' = id then some w else s.own i id' := by
  by_cases h : id' = id
  · subst h; simp [own, write]
  · simp [own, write, h]

theorem own_write_of_ne {w : Option Row} (hij : i ≠ j) (h : s.lockedFor j id = false) :
    (s.write j id w).own i = s.own i := by
  funext id'
  by_cases hid : id' = id
  · subst hid
    have hnone : s.own i id' = none := by
      by_contra hc
      rw [lockedFor_of_own hij.symm (Option.isSome_iff_ne_none.mpr hc)] at h
      cases h
    simp [own, write, hij.symm] at hnone ⊢
    exact hnone.symm
  · simp [own, write, hid]

theorem own_writeNone_self (s : Db ι Id Row Time) (i : ι) (rs : List (Id × Row)) (id : Id) :
    (s.writeNone i rs).own i id = if id ∈ rs.map Prod.fst then some none else s.own i id := by
  induction rs with
  | nil => rfl
  | cons r rs ih =>
    rw [writeNone, own_write_self, ih, List.map_cons]
    by_cases h : id = r.1
    · simp [h]
    · simp only [h, if_false, List.mem_cons, false_or]

omit [DecidableEq ι] in
theorem writeNone_frame (s : Db ι Id Row Time) (i : ι) (rs : List (Id × Row)) :
    (s.writeNone i rs).toDurable = s.toDurable ∧ (s.writeNone i rs).reads = s.reads := by
  induction rs with
  | nil => exact ⟨rfl, rfl⟩
  | cons r rs ih => exact ih

theorem lockedFor_write (s : Db ι Id Row Time) (i : ι) (id id' : Id) (w : Option Row)
    (h : s.lockedFor i id' = false) : (s.write i id w).lockedFor i id' = false := by
  by_cases hid : id' = id
  · subst hid; simp [lockedFor, write]
  · simpa [lockedFor, write, hid] using h

theorem own_writeNone_of_ne {rs : List (Id × Row)} (hij : i ≠ j)
    (h : ∀ r ∈ rs, s.lockedFor j r.1 = false) : (s.writeNone j rs).own i = s.own i := by
  suffices hs : (s.writeNone j rs).own i = s.own i ∧
      ∀ id, s.lockedFor j id = false → (s.writeNone j rs).lockedFor j id = false from hs.1
  induction rs with
  | nil => exact ⟨rfl, fun _ h => h⟩
  | cons r rs ih =>
    obtain ⟨ho, hl⟩ := ih fun r hr => h r (List.mem_cons_of_mem _ hr)
    refine ⟨?_, fun id hid => lockedFor_write _ _ _ _ _ (hl id hid)⟩
    rw [writeNone, own_write_of_ne hij (hl _ (h r List.mem_cons_self)), ho]

/-! ### Ending a transaction -/

theorem own_discard_eq_some {w : Option Row} :
    (s.discard j).own i id = some w ↔ s.own i id = some w ∧ i ≠ j := by
  rw [own_eq_some, own_eq_some, ← Option.mem_def, ← Option.mem_def, AList.mem_lookup_iff,
    AList.mem_lookup_iff]
  exact List.mem_filter.trans (by simp)

theorem own_discard_self (s : Db ι Id Row Time) (i : ι) : (s.discard i).own i = fun _ => none :=
  funext fun _ => Option.eq_none_iff_forall_ne_some.mpr fun _ h => (own_discard_eq_some.mp h).2 rfl

theorem own_discard_of_ne (s : Db ι Id Row Time) (hij : i ≠ j) : (s.discard j).own i = s.own i :=
  funext fun _ => Option.ext fun _ => own_discard_eq_some.trans (and_iff_left hij)

theorem lookup_install (s : Db ι Id Row Time) (i : ι) (id : Id) :
    (s.install i).committed.lookup id = (s.own i id).getD (s.committed.lookup id) :=
  s.lookup_visible i id

theorem mem_changes {c : Change ι Id Row} :
    c ∈ s.changes i ↔
      c.owner = i ∧ s.own i c.id = some c.new ∧ c.old = s.committed.lookup c.id := by
  rw [changes, List.mem_map]
  constructor
  · rintro ⟨⟨id, w⟩, hw, rfl⟩
    exact ⟨rfl, mem_ownWrites.mp hw, rfl⟩
  · rintro ⟨rfl, hw, hold⟩
    exact ⟨(c.id, c.new), mem_ownWrites.mpr hw, by rw [← hold]⟩

end Db

/-! ## What a commit logs -/

section Log

variable {i : ι}

/-- One commit changes a row once. -/
theorem Db.changes_ids_nodup (s : Db ι Id Row Time) (i : ι) :
    ((s.changes i).map (·.id)).Nodup := by
  have hnd := s.ownWrites_nodup i
  rw [Db.changes, List.map_map]
  exact hnd

variable {s : Db ι Id Row Time}

/-- A commit makes as many changes as the transaction has written rows. -/
theorem Db.length_changes {ids : List Id} (hnd : ids.Nodup)
    (h : ∀ id, (s.own i id).isSome ↔ id ∈ ids) : (s.changes i).length = ids.length := by
  have hperm : ((s.changes i).map (·.id)).Perm ids := by
    refine (List.perm_ext_iff_of_nodup (s.changes_ids_nodup i) hnd).mpr fun id => ?_
    rw [← h id]
    constructor
    · intro hid
      obtain ⟨c, hc, rfl⟩ := List.mem_map.mp hid
      rw [(Db.mem_changes.mp hc).2.1]
      rfl
    · intro hid
      obtain ⟨w, hw⟩ := Option.isSome_iff_exists.mp hid
      exact List.mem_map.mpr ⟨⟨i, id, s.committed.lookup id, w⟩,
        Db.mem_changes.mpr ⟨rfl, hw, rfl⟩, rfl⟩
  rw [← hperm.length_eq, List.length_map]

/-- What a commit does to one row is one change, or none. -/
theorem Db.history_changes (s : Db ι Id Row Time) (i : ι) (id : Id) :
    history id (s.changes i) =
      match s.own i id with
      | some w => [⟨i, id, s.committed.lookup id, w⟩]
      | none => [] := by
  refine (eq_toList_of_nodup (o := (s.own i id).map fun w => ⟨i, id, s.committed.lookup id, w⟩)
    ((s.changes_ids_nodup i).of_map.filter _) fun c => ?_).trans ?_
  · rw [← history, mem_history, Db.mem_changes, Option.map_eq_some_iff]
    constructor
    · rintro ⟨⟨rfl, hw, hold⟩, rfl⟩
      exact ⟨c.new, hw, by rw [← hold]⟩
    · rintro ⟨w, hw, rfl⟩
      exact ⟨⟨rfl, hw, rfl⟩, rfl⟩
  · cases s.own i id with
    | none => rfl
    | some w => rfl

/-- A transaction that has written one row commits one change. -/
theorem Db.changes_eq_singleton {id : Id} {w : Option Row}
    (h : s.own i = fun k => if k = id then some w else none) :
    s.changes i = [⟨i, id, s.committed.lookup id, w⟩] := by
  have hall : ∀ c ∈ s.changes i, c.id = id := by
    intro c hc
    obtain ⟨_, hown, _⟩ := Db.mem_changes.mp hc
    by_contra hne
    rw [h] at hown
    simp [hne] at hown
  have hself : history id (s.changes i) = s.changes i := by
    rw [history, List.filter_eq_self]
    simpa using hall
  rw [← hself, Db.history_changes, h]
  simp

/-- A transaction that has written nothing commits no change. -/
theorem Db.changes_eq_nil (h : s.own i = fun _ => none) : s.changes i = [] := by
  rw [List.eq_nil_iff_forall_not_mem]
  intro c hc
  have hown := (Db.mem_changes.mp hc).2.1
  rw [h] at hown
  cases hown

theorem Db.changesBy_changes (s : Db ι Id Row Time) (i : ι) :
    changesBy i (s.changes i) = s.changes i := by
  rw [changesBy, List.filter_eq_self]
  intro c hc
  simpa using (Db.mem_changes.mp hc).1

/-- A commit's changes lead from the rows it found to the rows it leaves. -/
theorem Db.linked_install (s : Db ι Id Row Time) (i : ι) (id : Id) :
    Linked (s.committed.lookup id) (history id (s.changes i))
      ((s.install i).committed.lookup id) := by
  rw [Db.history_changes, Db.lookup_install]
  cases s.own i id with
  | none => rfl
  | some w => exact ⟨rfl, rfl⟩

end Log

/-! ## What one statement does

Short of committing, everything a statement of thread `i` may do to the state is an `Effect`; the
facts that hold whatever the program — what other threads may rely on, that the log explains the
table — need nothing more. -/

section Effects

variable [Preorder Time]

/-- What a statement of thread `i` other than a commit may do. -/
inductive Effect (i : ι) (s : Db ι Id Row Time) : Db ι Id Row Time → Prop
  | stay : Effect i s s
  | discard : Effect i s (s.discard i)
  | read (p : Id → Row → Bool) (found : List (Id × Row)) : Effect i s (s.read i p found)
  | write (id : Id) (w : Option Row) (h : s.lockedFor i id = false) : Effect i s (s.write i id w)
  | writeNone (rs : List (Id × Row)) (h : ∀ r ∈ rs, s.lockedFor i r.1 = false) :
      Effect i s (s.writeNone i rs)
  | tick (c : Time) (h : s.clock ≤ c) : Effect i s { s with clock := c }

variable {c : Choice Id Time} {s t : Db ι Id Row Time} {i : ι} {id : Id}

omit [DecidableEq ι] [DecidableEq Id] [Preorder Time] in
theorem unlessFault_eq_some {α : Type} {ok : Option (Except DbError α × Db ι Id Row Time)}
    {r : Except DbError α} (h : unlessFault c s ok = some (r, t)) :
    (∃ b, r = .error (.fault b) ∧ t = s) ∨ ok = some (r, t) := by
  rw [unlessFault] at h
  split at h
  · rename_i b _
    cases h
    exact .inl ⟨b, rfl, rfl⟩
  · exact .inr h

section Exec

variable [DecidableLE Time]

theorem exec_insert {row : Row} {r : Except DbError Unit}
    (h : exec i (.insert id row) c s = some (r, t)) :
    (∃ b, r = .error (.fault b) ∧ t = s) ∨
    (r = .error .uniqueViolation ∧ t = s ∧ ((s.visible i).lookup id).isSome) ∨
    (r = .ok () ∧ t = s.write i id (some row) ∧ s.lockedFor i id = false ∧
      (s.visible i).lookup id = none) := by
  rcases unlessFault_eq_some h with h | h
  · exact .inl h
  · refine .inr ?_
    split at h
    · cases h
    · rename_i hl
      split at h
      · rename_i hv
        cases h
        exact .inl ⟨rfl, rfl, hv⟩
      · rename_i hv
        cases h
        exact .inr ⟨rfl, rfl, by simpa using hl, by simpa using hv⟩

theorem exec_update {g : Row → Bool} {f : Row → Row} {r : Except DbError Bool}
    (h : exec i (.update id g f) c s = some (r, t)) :
    (∃ b, r = .error (.fault b) ∧ t = s) ∨
    (r = .ok false ∧ t = s ∧ ∀ row, (s.visible i).lookup id = some row → g row = false) ∨
    (∃ row, r = .ok true ∧ (s.visible i).lookup id = some row ∧ g row = true ∧
      s.lockedFor i id = false ∧ t = s.write i id (some (f row))) := by
  rcases unlessFault_eq_some h with h | h
  · exact .inl h
  · refine .inr ?_
    split at h
    · rename_i hv
      cases h
      exact .inl ⟨rfl, rfl, by simp [hv]⟩
    · rename_i row hv
      split at h
      · rename_i hg
        split at h
        · cases h
        · rename_i hl
          cases h
          exact .inr ⟨row, rfl, hv, hg, by simpa using hl, rfl⟩
      · rename_i hg
        cases h
        exact .inl ⟨rfl, rfl, by simpa [hv] using hg⟩

theorem exec_delete {p : Id → Row → Bool} {r : Except DbError Nat}
    (h : exec i (.delete p) c s = some (r, t)) :
    (∃ b, r = .error (.fault b) ∧ t = s) ∨
    (r = .ok (s.scan i p).length ∧ t = s.writeNone i (s.scan i p) ∧
      ∀ x ∈ s.scan i p, s.lockedFor i x.1 = false) := by
  rcases unlessFault_eq_some h with h | h
  · exact .inl h
  · refine .inr ?_
    split at h
    · cases h
    · rename_i hl
      cases h
      exact ⟨rfl, rfl, by simpa using hl⟩

theorem exec_now {r : Time} (h : exec i (.now : Stmt Id Row) c s = some (r, t)) :
    s.clock ≤ r ∧ t = { s with clock := r } := by
  rw [exec] at h
  split at h
  · rename_i hle
    cases h
    exact ⟨hle, rfl⟩
  · cases h

/-- A statement has one of the listed effects, or is a commit that went through. -/
theorem effect_of_exec {o : Stmt Id Row} {r : o.Res Time} (h : exec i o c s = some (r, t)) :
    Effect i s t ∨ (o = .commit ∧ t = s.install i) := by
  cases o with
  | begin =>
    rcases unlessFault_eq_some h with ⟨_, _, rfl⟩ | h
    · exact .inl .stay
    · cases h; exact .inl .discard
  | commit =>
    rcases unlessFault_eq_some h with ⟨_, _, rfl⟩ | h
    · exact .inl .stay
    · cases h; exact .inr ⟨rfl, rfl⟩
  | rollback => cases h; exact .inl .discard
  | select p =>
    rcases unlessFault_eq_some h with ⟨_, _, rfl⟩ | h
    · exact .inl .stay
    · cases h; exact .inl (.read p _)
  | poolSelect p =>
    rcases unlessFault_eq_some h with ⟨_, _, rfl⟩ | h
    · exact .inl .stay
    · cases h; exact .inl .stay
  | insert id row =>
    rcases exec_insert h with ⟨_, _, rfl⟩ | ⟨_, rfl, _⟩ | ⟨_, rfl, hl, _⟩
    · exact .inl .stay
    · exact .inl .stay
    · exact .inl (.write id _ hl)
  | update id g f =>
    rcases exec_update h with ⟨_, _, rfl⟩ | ⟨_, rfl, _⟩ | ⟨row, _, _, _, hl, rfl⟩
    · exact .inl .stay
    · exact .inl .stay
    · exact .inl (.write id _ hl)
  | delete p =>
    rcases exec_delete h with ⟨_, _, rfl⟩ | ⟨_, rfl, hl⟩
    · exact .inl .stay
    · exact .inl (.writeNone _ hl)
  | now =>
    obtain ⟨hle, rfl⟩ := exec_now h
    exact .inl (.tick r hle)
  | newId => cases h; exact .inl .stay

end Exec

/-- Short of committing, at most the clock of the durable state moves. -/
theorem Effect.durable (h : Effect i s t) :
    ∃ c, s.clock ≤ c ∧ t.toDurable = { s.toDurable with clock := c } := by
  cases h with
  | stay => exact ⟨_, le_refl _, rfl⟩
  | discard => exact ⟨_, le_refl _, rfl⟩
  | read p found => exact ⟨_, le_refl _, rfl⟩
  | write id w _ => exact ⟨_, le_refl _, rfl⟩
  | writeNone rs _ => exact ⟨_, le_refl _, (s.writeNone_frame i rs).1⟩
  | tick c hc => exact ⟨c, hc, rfl⟩

/-! ### What the others may rely on -/

/-- What thread `i` finds unchanged, or changed only in one direction, after any steps of other
threads. -/
structure Rely (i : ι) (s t : Db ι Id Row Time) : Prop where
  own : t.own i = s.own i
  reads : t.reads i = s.reads i
  clock : s.clock ≤ t.clock
  /-- The log grew by other threads' changes, none of a row the thread has locked, and they explain
  what became of every row. -/
  log : ∃ l, t.log = s.log ++ l ∧ (∀ c ∈ l, c.owner ≠ i ∧ s.own i c.id = none) ∧
    ∀ id, Linked (s.committed.lookup id) (history id l) (t.committed.lookup id)

theorem Rely.refl (i : ι) (s : Db ι Id Row Time) : Rely i s s :=
  ⟨rfl, rfl, le_refl _, [], by simp, by simp, fun _ => rfl⟩

theorem Rely.trans {u : Db ι Id Row Time} (h : Rely i s t) (h' : Rely i t u) :
    Rely i s u where
  own := h'.own.trans h.own
  reads := h'.reads.trans h.reads
  clock := le_trans h.clock h'.clock
  log := by
    obtain ⟨l, hl, hne, hlk⟩ := h.log
    obtain ⟨l', hl', hne', hlk'⟩ := h'.log
    refine ⟨l ++ l', by rw [hl', hl, List.append_assoc], fun c hc => ?_, fun id => ?_⟩
    · rcases List.mem_append.mp hc with hc | hc
      · exact hne c hc
      · exact h.own ▸ hne' c hc
    · rw [history_append]
      exact (hlk id).append (hlk' id)

theorem Rely.changesBy (h : Rely i s t) : changesBy i t.log = changesBy i s.log := by
  obtain ⟨l, hl, hne, _⟩ := h.log
  rw [hl, changesBy_append, changesBy_eq_nil fun c hc => (hne c hc).1, List.append_nil]

/-- Nobody else changes a row the thread has locked. -/
theorem Rely.history (h : Rely i s t) (hid : (s.own i id).isSome) :
    history id t.log = history id s.log := by
  obtain ⟨l, hl, hne, _⟩ := h.log
  have hnil : ReadCommitted.history id l = [] := by
    rw [ReadCommitted.history, List.filter_eq_nil_iff]
    intro c hc hcid
    have hnone := (hne c hc).2
    rw [of_decide_eq_true hcid] at hnone
    rw [hnone] at hid
    cases hid
  rw [hl, history_append, hnil, List.append_nil]

/-- Rows the thread has locked do not move. -/
theorem Rely.held (h : Rely i s t) (hid : (s.own i id).isSome) :
    t.committed.lookup id = s.committed.lookup id := by
  have hhist := h.history hid
  obtain ⟨l, hl, _, hlk⟩ := h.log
  rw [hl, history_append, List.append_right_eq_self] at hhist
  have := hlk id
  rw [hhist] at this
  exact this.symm

/-- Nothing a thread does in its own transaction disturbs what the others rely on. -/
theorem Effect.rely {j : ι} (hij : i ≠ j) (h : Effect j s t) : Rely i s t := by
  cases h with
  | stay => exact .refl i s
  | discard =>
    exact ⟨s.own_discard_of_ne hij, by simp [Db.discard, hij], le_refl _, [],
      by simp [Db.discard], by simp, fun _ => rfl⟩
  | read p found =>
    exact ⟨rfl, by simp [Db.read, hij], le_refl _, [], by simp [Db.read], by simp, fun _ => rfl⟩
  | write id w hl =>
    exact ⟨Db.own_write_of_ne hij hl, rfl, le_refl _, [], by simp [Db.write], by simp,
      fun _ => rfl⟩
  | writeNone rs hl =>
    obtain ⟨hd, hr⟩ := s.writeNone_frame j rs
    refine ⟨Db.own_writeNone_of_ne hij hl, by rw [hr], by rw [hd], [], ?_, by simp,
      fun _ => by rw [hd]; rfl⟩
    rw [hd, List.append_nil]
  | tick c hc => exact ⟨rfl, rfl, hc, [], by simp, by simp, fun _ => rfl⟩

/-- Neither does committing it. -/
theorem rely_install {j : ι} (hij : i ≠ j) (s : Db ι Id Row Time) : Rely i s (s.install j) where
  own := s.own_discard_of_ne hij
  reads := by simp [Db.install, Db.discard, hij]
  clock := le_refl _
  log := by
    refine ⟨s.changes j, rfl, fun c hc => ?_, s.linked_install j⟩
    obtain ⟨rfl, hown, _⟩ := Db.mem_changes.mp hc
    exact ⟨hij.symm, Db.own_eq_none_of_own hij (by rw [hown]; rfl)⟩

end Effects

end ReadCommitted
