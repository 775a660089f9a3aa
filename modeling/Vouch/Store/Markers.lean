import Vouch.Store.Spec

/-!
# Used-markers

Something that may be used once can be remembered by a *marker*: a row inserted under an id that is
derived from it.  The insertion of a second marker under the same id is a unique violation, so
whoever inserts the row is the one user — for as long as the row is there.  Markers expire, and the
expiry sweep removes them by the clock.

This file says when that is enough.  Which rows are markers is a parameter, and so is the last
second in which a thread may still insert one, its *deadline*, given when the marker expires:

* `MarkerLog` — a marker that went in is still there, or has expired by the clock; and of two
  markers of one id the first had expired before the deadline of the second.
* `InTime` — the side condition on a run: a marker goes in no later than its thread's deadline.
* `MarkerLog.marked_unique` — two markers of one id whose deadlines do not pass the other's expiry
  are one and the same.
-/

namespace Vouch

open ReadCommitted Interleaving ReadCommitted.Protocol

variable {ι D : Type} (isMarker : D → Bool) (deadline : ι → Timestamp → Int)

/-- The change inserts a marker that expires at `e`. -/
def Marks (c : Change ι String (Row D)) (e : Timestamp) : Prop :=
  c.old = none ∧ ∃ row, c.new = some row ∧ isMarker row.data = true ∧ row.expiresAt = some e

/-- The first marker had expired before the deadline of the second. -/
def ExpiredFor (c c' : Change ι String (Row D)) : Prop :=
  ∀ e e', Marks isMarker c e → Marks isMarker c' e' → e.wholeSecond < deadline c'.owner e'

/-- What the log says of markers. -/
structure MarkerLog (d : Durable ι String (Row D) Timestamp) : Prop where
  kept : ∀ c ∈ d.log, ∀ e, Marks isMarker c e →
    (∃ row, d.committed.lookup c.id = some row ∧ row.expiresAt = some e) ∨
      e.wholeSecond < d.clock.wholeSecond
  ordered : ∀ id, (history id d.log).Pairwise (ExpiredFor isMarker deadline)

/-- A marker is inserted no later than the deadline of its thread. -/
def InTime (i : ι) (o : Stmt String (Row D)) (s : Db ι String (Row D) Timestamp) : Prop :=
  ∀ id row e, o = .insert id row → isMarker row.data = true → row.expiresAt = some e →
    s.clock.wholeSecond ≤ deadline i e

/-- Whether a marker is inserted no later than the deadline of its thread. -/
def inTime (i : ι) (o : Stmt String (Row D)) (s : Db ι String (Row D) Timestamp) : Bool :=
  match o with
  | .insert _ row => !isMarker row.data ||
      row.expiresAt.all fun e => s.clock.wholeSecond ≤ deadline i e
  | _ => true

variable {isMarker deadline}

theorem InTime.of_check {i : ι} {o : Stmt String (Row D)} {s : DbState ι D}
    (h : inTime isMarker deadline i o s = true) : InTime isMarker deadline i o s := by
  rintro id row e rfl hm he
  rw [inTime, hm, he, Bool.not_true, Bool.false_or, Option.all_some] at h
  exact of_decide_eq_true h

theorem MarkerLog.start (init : Table String (Row D)) (clock : Timestamp) :
    MarkerLog isMarker deadline ⟨init, [], clock⟩ :=
  ⟨fun _ h => absurd h List.not_mem_nil, fun _ => .nil⟩

theorem MarkerLog.tick {d : DbDurable ι D} (h : MarkerLog isMarker deadline d) {clock : Timestamp}
    (hc : d.clock ≤ clock) : MarkerLog isMarker deadline { d with clock } where
  kept c hmem e he := (h.kept c hmem e he).imp_right fun hlt =>
    lt_of_lt_of_le hlt (Timestamp.wholeSecond_mono hc)
  ordered := h.ordered

/-- The protocol of threads that insert markers in time. -/
def markerProtocol [DecidableEq ι] (isMarker : D → Bool) (deadline : ι → Timestamp → Int) :
    Protocol ι String (Row D) Timestamp where
  cond := InTime isMarker deadline
  inv := MarkerLog isMarker deadline
  evolves _ _ := True
  evolves_refl _ := trivial
  evolves_trans _ _ _ _ _ := trivial
  inv_tick _ _ hc h := h.tick hc
  evolves_tick _ _ _ := trivial

/-! ## Commits -/

variable [DecidableEq ι] {i : ι}

variable (isMarker deadline) in
/-- How thread `i` may replace a row once a second has passed: create it, if it is no marker or
every marker before it had expired by the deadline; rewrite it with the same expiry; or remove it
when it had expired by then. -/
inductive Replaces (i : ι) (cutoff : Int) (_id : String) (past : List (Change ι String (Row D))) :
    Option (Row D) → Option (Row D) → Prop
  | create (row : Row D)
      (h : ∀ e', isMarker row.data = true → row.expiresAt = some e' →
        ∀ c ∈ past, ∀ e, Marks isMarker c e → e.wholeSecond < deadline i e') :
      Replaces i cutoff _id past none (some row)
  | rewrite (old new : Row D) (h : new.expiresAt = old.expiresAt) :
      Replaces i cutoff _id past (some old) (some new)
  | remove (old : Row D) (h : ∀ e, old.expiresAt = some e → e.wholeSecond < cutoff) :
      Replaces i cutoff _id past (some old) none

/-- A commit keeps the log. -/
theorem MarkerLog.install {t : DbState ι D} {cutoff : Int}
    (h : MarkerLog isMarker deadline t.toDurable)
    (hp : Pending i (Replaces isMarker deadline i cutoff) t) (hcut : cutoff ≤ t.clock.wholeSecond) :
    MarkerLog isMarker deadline (t.install i).toDurable := by
  constructor
  · intro c hc e he
    rw [Db.lookup_install]
    show _ ∨ e.wholeSecond < t.clock.wholeSecond
    rcases List.mem_append.mp hc with hc | hc
    · have hold := h.kept c hc e he
      cases hown : t.own i c.id with
      | none => exact hold
      | some w =>
        rw [Option.getD_some]
        have hrep := hp c.id w hown
        generalize hcom : t.committed.lookup c.id = old at hrep hold
        cases hrep with
        | create row _ =>
          rcases hold with ⟨_, hrow, _⟩ | hlt
          · cases hrow
          · exact .inr hlt
        | rewrite old new hsame =>
          rcases hold with ⟨_, hrow, hexp⟩ | hlt
          · cases hrow
            exact .inl ⟨new, rfl, hsame.trans hexp⟩
          · exact .inr hlt
        | remove old hexpired =>
          rcases hold with ⟨_, hrow, hexp⟩ | hlt
          · cases hrow
            exact .inr (lt_of_lt_of_le (hexpired e hexp) hcut)
          · exact .inr hlt
    · obtain ⟨-, hown, -⟩ := Db.mem_changes.mp hc
      obtain ⟨-, row, hnew, -, hexp⟩ := he
      rw [hown, Option.getD_some]
      exact .inl ⟨row, hnew, hexp⟩
  · intro id
    show (history id (t.log ++ t.changes i)).Pairwise _
    rw [history_append, Db.history_changes]
    cases hown : t.own i id with
    | none =>
      rw [List.append_nil]
      exact h.ordered id
    | some w =>
      refine List.pairwise_append.mpr ⟨h.ordered id, List.pairwise_singleton _ _, ?_⟩
      intro c hc c' hc' e e' he he'
      rw [List.mem_singleton.mp hc'] at he' ⊢
      obtain ⟨hnone, row, hw, hm, hexp⟩ := he'
      have hrep := hp id w hown
      cases hw
      simp only at hnone
      rw [hnone] at hrep
      cases hrep with
      | create _ hpast => exact hpast e' hm hexp c hc e he

/-- The case of one row. -/
theorem MarkerLog.install_wrote {t : DbState ι D} {id : String} {w : Option (Row D)} {cutoff : Int}
    (h : MarkerLog isMarker deadline t.toDurable) (hw : Wrote i t id w)
    (hrep : Replaces isMarker deadline i cutoff id (history id t.log) (t.committed.lookup id) w)
    (hcut : cutoff ≤ t.clock.wholeSecond) :
    MarkerLog isMarker deadline (t.install i).toDurable := by
  refine h.install (fun k v hk => ?_) hcut
  obtain ⟨rfl, rfl⟩ := hw.eq hk
  exact hrep

/-! ## Who has the marker -/

variable (isMarker) in
/-- Thread `i` has inserted a marker at an id. -/
def Marked (i : ι) (id : String) (e : Timestamp) (d : Durable ι String (Row D) Timestamp) : Prop :=
  ∃ c ∈ changesBy i d.log, c.id = id ∧ Marks isMarker c e

theorem stable_marked (id : String) (e : Timestamp) :
    (markerProtocol isMarker deadline).Stable i (Marked isMarker i id e) :=
  stable_changesBy _ i fun cs => ∃ c ∈ cs, c.id = id ∧ Marks isMarker c e

/-- Two threads with a marker of the same id, neither of which could still insert its own when the
other's had expired, are one and the same. -/
theorem MarkerLog.marked_unique {d : DbDurable ι D} {id : String} {j : ι} {e e' : Timestamp}
    (h : MarkerLog isMarker deadline d) (hi : Marked isMarker i id e d)
    (hj : Marked isMarker j id e' d) (hdi : deadline i e ≤ e'.wholeSecond)
    (hdj : deadline j e' ≤ e.wholeSecond) : i = j := by
  obtain ⟨c, hc, hid, hmark⟩ := hi
  obtain ⟨c', hc', hid', hmark'⟩ := hj
  obtain ⟨hlog, rfl⟩ := mem_changesBy.mp hc
  obtain ⟨hlog', rfl⟩ := mem_changesBy.mp hc'
  by_contra hne
  have hsymm : Std.Symm fun a b : DbChange ι D =>
      ExpiredFor isMarker deadline a b ∨ ExpiredFor isMarker deadline b a := ⟨fun _ _ => Or.symm⟩
  have hpair := (h.ordered id).imp fun {a b} (hab : ExpiredFor isMarker deadline a b) =>
    (Or.inl hab : _ ∨ ExpiredFor isMarker deadline b a)
  rcases hpair.forall (mem_history.mpr ⟨hlog, hid⟩) (mem_history.mpr ⟨hlog', hid'⟩)
    (fun heq => hne (congrArg Change.owner heq)) with hlt | hlt
  · exact absurd (hlt e e' hmark hmark') (not_lt.mpr hdj)
  · exact absurd (hlt e' e hmark' hmark) (not_lt.mpr hdi)

/-! ## The operations -/

section Operations

variable {T : Type} [DocumentType D T] {crypto : DocumentCrypto}

/-- Inserting a document, marker or not. -/
theorem triple_insertMarker {id : String} {doc : T} :
    (markerProtocol isMarker deadline).Triple i (fun _ => True)
      (DocumentStore.insertWithId crypto id doc)
      (fun _ d => isMarker (DocumentType.toData doc) = true →
        ∀ e, DocumentType.expiresAt doc = some e → Marked isMarker i id e d)
      fun _ _ => True := by
  refine triple_insertRow (F :=
    fun past row => Replaces isMarker deadline i 0 id past none (some row))
    (stable_const _ i True) (fun _ => .imp (stable_forall fun e => .imp (stable_marked id e) _) _)
    ?_ ?_
  · intro t now hinv _ hc hnone
    refine .create _ fun e' hm hexp c hpast e he => ?_
    obtain ⟨hlog, rfl⟩ := mem_history.mp hpast
    have hlate := hc c.id _ e' rfl hm hexp
    rcases hinv.kept c hlog e he with ⟨row, hrow, _⟩ | hlt
    · rw [hnone] at hrow
      cases hrow
    · exact lt_of_lt_of_le hlt hlate
  · intro t now hinv _ _ hw hnone hrep
    have hrep' : Replaces isMarker deadline i t.clock.wholeSecond id (history id t.log)
        (t.committed.lookup id) (some (newRow crypto doc now)) := by
      rw [hnone]
      cases hrep with
      | create _ h => exact .create _ h
    refine ⟨hinv.install_wrote hw hrep' (le_refl _), trivial, fun _ _ _ hm e he => ?_⟩
    refine ⟨⟨i, id, none, some (newRow crypto doc now)⟩, ?_, rfl, rfl, _, rfl, hm, he⟩
    refine mem_changesBy.mpr ⟨List.mem_append_right _ (Db.mem_changes.mpr ⟨rfl, ?_, hnone.symm⟩),
      rfl⟩
    rw [hw]
    simp

/-- Stamping a row as used keeps every marker. -/
theorem triple_touchMarker {id : String} {R : List (DbChange ι D) → Prop}
    (hR : ∀ l l', R l → R (l ++ l')) :
    (markerProtocol isMarker deadline).Triple i (fun d => R (changesBy i d.log))
      (DocumentStore.updateLastUsedAt id)
      (fun _ d => R (changesBy i d.log)) (fun _ d => R (changesBy i d.log)) := by
  refine triple_updateLastUsedAt (stable_changesBy _ i R) fun t now old hinv hp _ hw hold => ?_
  refine ⟨hinv.install_wrote hw ?_ (le_refl t.clock.wholeSecond), trivial, ?_⟩
  · rw [hold]
    exact .rewrite _ _ rfl
  · show R (changesBy i (t.log ++ t.changes i))
    rw [changesBy_append]
    exact hR _ _ hp

/-- A sweep removes no marker before its time. -/
theorem triple_sweepMarkers {docType : String} :
    (markerProtocol isMarker deadline).Follows i
      (DocumentStore.deleteExpired docType) := by
  refine triple_deleteExpiredAt (R := fun now id past old new =>
      new = none ∧ Replaces isMarker deadline i now.wholeSecond id past old new)
    (stable_const _ i True) ?_ ?_
  · intro t k cur now _ ht _ hcur hexp
    refine ⟨rfl, ?_⟩
    rw [Db.lookup_visible] at hcur
    cases hown : t.own i k with
    | none =>
      rw [hown, Option.getD_none] at hcur
      rw [hcur]
      refine .remove cur fun e he => ?_
      rw [DocumentStore.expiredBefore, he] at hexp
      exact of_decide_eq_true hexp
    | some w =>
      rw [hown, Option.getD_some, (ht.pending k w hown).1] at hcur
      cases hcur
  · intro t now hinv ht hnow _
    exact ⟨hinv.install (fun id w hw => (ht.pending id w hw).2) (Timestamp.wholeSecond_mono hnow),
      trivial, trivial⟩

end Operations

end Vouch
