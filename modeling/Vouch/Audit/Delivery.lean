import Vouch.Audit.Export

/-!
# What a poller of the audit log gets

The export endpoint promises a poller that follows its cursors every event.  Writes and polls
overlap: a write stamps its instant, mints its id and commits, each some time after the other, while
a poll sees what has been committed by the time its query runs.  The endpoint hides the newest
thirty seconds, so that what is visible has been committed.  But *what is hidden* goes by the
stamped second, and *where the cursor stands* by the id, which is minted later.

* `Write` is one call of `insert_event_raw`, with its three instants.
* `History` is all the writes there are, with what the table holds at every instant.
* `Schedule` is a client's polls, one after the other, each at any instant, of any size and in
  either format; `answerAt` are the answers, each from the cursor the answers before it left.
* `Delivers` is the promise: every event arrives, none before it is thirty seconds old, none twice
  while cursors are followed.
* `History.Overtaken` — an event has a smaller id than two others that were stamped in earlier
  seconds.

`delivers_iff` is the result: **the promise is kept by every schedule unless an event is
overtaken.** While such an event is still hidden, the two others are visible, a page may end in the
first of them, and the cursor is past the event before it is ever shown.  What is shown is the
organization's own.
-/

namespace Vouch

namespace Timestamp

/-- The millisecond an instant falls in. -/
def millisecond (t : Timestamp) : Int := Int.fdiv t 1000000

theorem wholeSecond_eq (t : Timestamp) : t.wholeSecond = (t : Int) / 1000000000 :=
  Int.fdiv_eq_ediv_of_nonneg _ (by decide)

theorem millisecond_eq (t : Timestamp) : t.millisecond = (t : Int) / 1000000 :=
  Int.fdiv_eq_ediv_of_nonneg _ (by decide)

theorem ediv_lt_of_add_le {t u k : Int} (h : t + (k + 1000000000) ≤ u) :
    t / 1000000000 < (u + -k) / 1000000000 := by
  omega

variable {t : Timestamp}

theorem wholeSecond_lt_of_add_le {u : Timestamp} {n : Int} (h : t.addSeconds (n + 1) ≤ u) :
    t.wholeSecond < (u.addSeconds (-n)).wholeSecond := by
  rw [wholeSecond_eq, wholeSecond_eq, addSeconds, Int.neg_mul]
  refine ediv_lt_of_add_le ?_
  rw [addSeconds, Int.add_mul, Int.one_mul] at h
  exact h

/-- What happens in the same millisecond or before is less than a second behind. -/
theorem le_add_second {u : Timestamp} (h : t.millisecond ≤ u.millisecond) : t ≤ u + second := by
  have hms : ∀ t u : Int, t / 1000000 ≤ u / 1000000 → t ≤ u + 1000000000 := by
    intro t u h
    omega
  rw [millisecond_eq, millisecond_eq] at h
  exact hms t u h

/-- The beginning of a second is in it. -/
theorem wholeSecond_mul_second (n : Int) : wholeSecond (n * second) = n :=
  Int.mul_fdiv_cancel n (by decide)

/-- An instant is less than a second after the beginning of its second. -/
theorem le_wholeSecond_mul (t : Timestamp) : t ≤ t.wholeSecond * second + second := by
  have hdiv : ∀ t : Int, t ≤ t / 1000000000 * 1000000000 + 1000000000 := by
    intro t
    omega
  rw [wholeSecond_eq]
  exact hdiv t

theorem addSeconds_zero (t : Timestamp) : t.addSeconds 0 = t := by
  rw [addSeconds, Int.zero_mul, Int.add_zero]

theorem addSeconds_mono {s : Timestamp} (n : Int) (h : s ≤ t) : s.addSeconds n ≤ t.addSeconds n :=
  Int.add_le_add_right h _

/-- An instant in an earlier second is earlier. -/
theorem lt_of_wholeSecond_lt {s : Timestamp} (h : s.wholeSecond < t.wholeSecond) : s < t :=
  lt_of_not_ge fun hle => absurd h (not_lt.2 (wholeSecond_mono hle))

end Timestamp

namespace Audit

open CursorLog Timestamp

/-! ## Writes -/

/-- A call of `insert_event_raw`: its caller stamps the event, the id is minted, and the row is
committed, within the lag window of the export. -/
structure Write where
  kind : AuditEventKind
  userId : Option String
  emailDomain : Option String
  emailHmac : Option String
  dataJson : String
  id : String
  stampedAt : Timestamp
  mintedAt : Timestamp
  committedAt : Timestamp
  min_le_stamped : Timestamp.min ≤ stampedAt
  stamped_le_minted : stampedAt ≤ mintedAt
  minted_le_committed : mintedAt ≤ committedAt
  committed_le : committedAt ≤ stampedAt.addSeconds lagWindowSeconds

/-- The row that is written. -/
def Write.event (w : Write) : AuditEvent :=
  insertEventRaw w.kind w.userId w.emailDomain w.emailHmac w.stampedAt w.dataJson w.id

/-- All writes there are, and the table at every instant.  Ids are distinct texts that follow the
milliseconds in which they are minted. -/
structure History where
  writes : Set Write
  table : Timestamp → List AuditEvent
  mem_table : ∀ t e, e ∈ table t ↔ ∃ w ∈ writes, w.event = e ∧ w.committedAt ≤ t
  nodup_table : ∀ t, ((table t).map AuditEvent.id).Nodup
  id_lt : ∀ w ∈ writes, ∀ w' ∈ writes, w.mintedAt.millisecond < w'.mintedAt.millisecond →
    w.id < w'.id
  id_inj : Set.InjOn Write.id writes
  id_ne : ∀ w ∈ writes, w.id ≠ ""

/-! ## Polls -/

/-- A request: when it arrives, when its query runs, and what it asks for beside the filters. -/
structure Poll where
  arrival : Timestamp
  queriedAt : Timestamp
  limit : Option Nat
  format : Option String
  wantsNdjson : Bool
  arrival_le : arrival ≤ queriedAt
  min_le : Timestamp.min ≤ arrival.addSeconds (-lagWindowSeconds)

/-- The instant from which on events are hidden. -/
def Poll.lagCutoff (poll : Poll) : Timestamp := poll.arrival.addSeconds (-lagWindowSeconds)

theorem Poll.checkedSub_arrival (poll : Poll) :
    checkedSubSeconds poll.arrival lagWindowSeconds = some poll.lagCutoff :=
  if_pos poll.min_le

/-- The polls of one client, one after the other. -/
structure Schedule where
  poll : ℕ → Poll
  sequential : ∀ n, (poll n).queriedAt ≤ (poll (n + 1)).arrival

theorem Schedule.arrival_mono (s : Schedule) : Monotone fun n => (s.poll n).arrival :=
  monotone_nat_of_le_succ fun n => (s.poll n).arrival_le.trans (s.sequential n)

/-- A client's filters, which the endpoint accepts. -/
structure Client (library : AuditLibrary) (org : OrganizationDoc) where
  query : AuditEventsQuery
  filter : AuditEventFilter
  accepted : requestedFilter library org query = .ok filter

variable {library : AuditLibrary} {org : OrganizationDoc}

/-- The request of a poll, from a cursor. -/
def Client.request (client : Client library org) (poll : Poll) (cursor : Option String) :
    AuditEventsQuery :=
  { client.query with
    after := cursor
    before := none
    limit := poll.limit
    format := poll.format }

/-- The events an answer holds. -/
def eventsOf : Except ServiceError AuditPage → List AuditEvent
  | .ok page => page.events
  | .error _ => []

/-- The cursor an answer names. -/
def cursorOf : Except ServiceError AuditPage → Option String
  | .ok page => page.cursor
  | .error _ => none

namespace History

variable (h : History) (client : Client library org)

/-- The answer to a poll. -/
def fetch (poll : Poll) (cursor : Option String) : Except ServiceError AuditPage :=
  auditEvents library (h.table poll.queriedAt) org poll.arrival (client.request poll cursor)
    poll.wantsNdjson

/-- The cursor a client holds: the last one it was given. -/
def cursorAt (s : Schedule) : ℕ → Option String
  | 0 => none
  | n + 1 => (cursorOf (h.fetch client (s.poll n) (cursorAt s n))).or (cursorAt s n)

/-- The answers a client gets. -/
def answerAt (s : Schedule) (n : ℕ) : Except ServiceError AuditPage :=
  h.fetch client (s.poll n) (h.cursorAt client s n)

/-- An event that was written and that the client asks for. -/
def Exported (w : Write) : Prop :=
  w ∈ h.writes ∧ client.filter.selects library.hmacIndex w.event = true

/-- **What is promised**: once a client goes on polling, it gets every event; it gets none that is
newer than thirty seconds; and while it follows cursors, it gets none twice. -/
structure Delivers (s : Schedule) : Prop where
  complete : ∀ w, h.Exported client w →
    (∃ n, w.stampedAt.addSeconds (lagWindowSeconds + 1) ≤ (s.poll n).arrival) →
      ∃ n, w.event ∈ eventsOf (h.answerAt client s n)
  lagged : ∀ n, ∀ e ∈ eventsOf (h.answerAt client s n),
    e.createdAt ≤ (s.poll n).arrival.addSeconds (-lagWindowSeconds)
  drained : ∀ m k, (∀ i, i + 1 < k → (cursorOf (h.answerAt client s (m + i))).isSome = true) →
    ((List.range k).flatMap fun i => eventsOf (h.answerAt client s (m + i))).Nodup

/-- An event has a smaller id than two events of earlier seconds. -/
def Overtaken : Prop :=
  ∃ a b c, h.Exported client a ∧ h.Exported client b ∧ h.Exported client c ∧
    a.id < b.id ∧ b.id < c.id ∧ b.stampedAt.wholeSecond < a.stampedAt.wholeSecond ∧
      c.stampedAt.wholeSecond < a.stampedAt.wholeSecond

end History

/-! ## Polls as reads of a log -/

/-- The rows the client asks for. -/
def History.rows (h : History) (client : Client library org) : Set AuditEvent :=
  {e | ∃ w, h.Exported client w ∧ w.event = e}

/-- The second an event was stamped in, by which it is hidden. -/
def AuditEvent.stampedSecond (e : AuditEvent) : Int := e.createdAt.wholeSecond

/-- The lag window only adds its own bound to those of the client. -/
theorem selects_forwardFilter {hmacIndex : String → String} {requested : AuditEventFilter}
    {lagCutoff : Timestamp} {cursor : Option String} {row : AuditEvent} :
    (forwardFilter requested lagCutoff cursor).selects hmacIndex row = true ↔
      requested.selects hmacIndex row = true ∧ row.stampedSecond < lagCutoff.wholeSecond := by
  have hbound : row.createdAt.wholeSecond < (effectiveUntil requested.until lagCutoff).wholeSecond ↔
      requested.until.all
        (fun bound => decide (row.createdAt.wholeSecond < bound.wholeSecond)) = true ∧
        row.createdAt.wholeSecond < lagCutoff.wholeSecond := by
    cases requested.until with
    | none => simp [effectiveUntil]
    | some u =>
      simp only [effectiveUntil, Option.all_some, decide_eq_true_eq]
      split
      · rename_i hlt
        have hle := wholeSecond_mono (le_of_lt hlt)
        exact ⟨fun hu => ⟨hu, lt_of_lt_of_le hu hle⟩, fun hu => hu.1⟩
      · rename_i hge
        have hle := wholeSecond_mono (not_lt.1 hge)
        exact ⟨fun hu => ⟨lt_of_lt_of_le hu hle, hu⟩, fun hu => hu.2⟩
  -- The other conditions are the same on both sides.
  refine Bool.and_eq_true_iff.trans (Iff.trans (and_congr Iff.rfl ?_)
    (and_assoc.symm.trans (and_congr Bool.and_eq_true_iff.symm Iff.rfl)))
  rw [forwardFilter, Option.all_some, decide_eq_true_eq]
  exact hbound

namespace History

variable (h : History) (client : Client library org)

variable {w : Write}

/-- The empty cursor is before every event. -/
theorem empty_lt_id (hw : w ∈ h.writes) : "" < w.id := by
  rw [String.lt_iff_toList_lt]
  cases hid : w.id.toList with
  | nil => exact absurd (String.toList_eq_nil_iff.1 hid) (h.id_ne w hw)
  | cons c cs => exact List.nil_lt_cons c cs

theorem rows_inj : Set.InjOn AuditEvent.id (h.rows client) := by
  rintro _ ⟨w, hw, rfl⟩ _ ⟨w', hw', rfl⟩ hid
  rw [h.id_inj hw.1 hw'.1 hid]

/-- What a poll may return: the rows behind its cursor that were stamped in a second before the lag
window.  All of them have been committed. -/
theorem pending_poll (poll : Poll) (cursor : Option String) :
    Pending AuditEvent.id AuditEvent.stampedSecond (h.rows client) (cursor.getD "")
      poll.lagCutoff.wholeSecond
      (forward library.hmacIndex (h.table poll.queriedAt)
        (forwardFilter client.filter poll.lagCutoff cursor) (cursor.getD "")) := by
  refine ⟨pairwise_forward (h.nodup_table _), fun e => ?_⟩
  rw [mem_forward, selects_forwardFilter, h.mem_table]
  constructor
  · rintro ⟨⟨w, hw, rfl, -⟩, ⟨hselects, hsecond⟩, hafter⟩
    exact ⟨⟨w, ⟨hw, hselects⟩, rfl⟩, hafter, hsecond⟩
  · rintro ⟨⟨w, ⟨hw, hselects⟩, rfl⟩, hafter, hsecond⟩
    refine ⟨⟨w, hw, rfl, ?_⟩, ⟨hselects, hsecond⟩, hafter⟩
    have hbefore : w.stampedAt < poll.lagCutoff := lt_of_wholeSecond_lt hsecond
    calc w.committedAt ≤ w.stampedAt.addSeconds lagWindowSeconds := w.committed_le
      _ ≤ poll.lagCutoff.addSeconds lagWindowSeconds := addSeconds_mono _ hbefore.le
      _ = poll.arrival := by
        rw [Poll.lagCutoff, addSeconds_addSeconds, Int.add_left_neg, addSeconds_zero]
      _ ≤ poll.queriedAt := poll.arrival_le

/-- The answer to a poll is a page of them. -/
theorem fetch_page (poll : Poll) (cursor : Option String) :
    Page AuditEvent.id
        (forward library.hmacIndex (h.table poll.queriedAt)
          (forwardFilter client.filter poll.lagCutoff cursor) (cursor.getD ""))
        (eventsOf (h.fetch client poll cursor)) (cursorOf (h.fetch client poll cursor)) ∧
      (eventsOf (h.fetch client poll cursor)).length ≤ (client.request poll cursor).pageSize := by
  obtain ⟨page, hpage, hspec⟩ : ∃ page, h.fetch client poll cursor = .ok page ∧ _ :=
    auditEvents_forward poll.wantsNdjson client.accepted poll.checkedSub_arrival rfl
  rw [hpage]
  exact hspec

/-- A client's polls are a run of reads. -/
def run (s : Schedule) : Run AuditEvent.id AuditEvent.stampedSecond (h.rows client) where
  cursor n := (h.cursorAt client s n).getD ""
  cut n := (s.poll n).lagCutoff.wholeSecond
  page n := eventsOf (h.answerAt client s n)
  next n := cursorOf (h.answerAt client s n)
  cut_mono m n hmn := wholeSecond_mono (addSeconds_mono _ (s.arrival_mono hmn))
  read n := ⟨_, h.pending_poll client (s.poll n) (h.cursorAt client s n),
    (h.fetch_page client (s.poll n) (h.cursorAt client s n)).1⟩
  cursor_succ n := by
    rw [cursorAt, ← answerAt]
    cases cursorOf (h.answerAt client s n) with
    | none => rfl
    | some k => rfl

/-! ## What every schedule gets -/

/-- Nothing newer than the lag window is returned. -/
theorem lagged (s : Schedule) (n : ℕ) {e : AuditEvent} (he : e ∈ eventsOf (h.answerAt client s n)) :
    e.createdAt ≤ (s.poll n).arrival.addSeconds (-lagWindowSeconds) :=
  (lt_of_wholeSecond_lt ((h.run client s).mem_page he).2.2).le

/-- Pages that are read one from the cursor of the other have no event twice. -/
theorem drained (s : Schedule) (m k : ℕ)
    (hcursors : ∀ i, i + 1 < k → (cursorOf (h.answerAt client s (m + i))).isSome = true) :
    ((List.range k).flatMap fun i => eventsOf (h.answerAt client s (m + i))).Nodup := by
  have hsorted : ((List.range k).flatMap fun i => eventsOf (h.answerAt client s (m + i))).Pairwise
      fun a b => a.id < b.id := by
    refine List.pairwise_flatMap.2 ⟨fun i _ => (h.run client s).page_sorted (m + i), ?_⟩
    refine List.pairwise_lt_range.imp_of_mem ?_
    intro i j _ hj hij a ha b hb
    have hik : i + 1 < k := by
      have := List.mem_range.1 hj
      omega
    obtain ⟨next, hnext⟩ := Option.isSome_iff_exists.1 (hcursors i hik)
    exact (h.run client s).key_lt_of_drain (Nat.add_lt_add_left hij m) hnext ha hb
  refine hsorted.imp ?_
  intro a b hlt heq
  rw [heq] at hlt
  exact lt_irrefl _ hlt

/-- Finitely many events have a smaller id than a given one: they were minted no later than in its
millisecond, and are committed within the lag window. -/
theorem finite_before (hw : h.Exported client w) :
    {e | e ∈ h.rows client ∧ e.id < w.event.id}.Finite := by
  refine ((h.table (w.mintedAt.addSeconds (lagWindowSeconds + 1))).finite_toSet).subset ?_
  rintro _ ⟨⟨v, hv, rfl⟩, hid⟩
  refine (h.mem_table _ _).2 ⟨v, hv.1, rfl, ?_⟩
  have hmint : v.mintedAt.millisecond ≤ w.mintedAt.millisecond :=
    not_lt.1 fun hlt => lt_asymm hid (h.id_lt w hw.1 v hv.1 hlt)
  calc v.committedAt ≤ v.stampedAt.addSeconds lagWindowSeconds := v.committed_le
    _ ≤ (w.mintedAt + second).addSeconds lagWindowSeconds :=
      addSeconds_mono _ (v.stamped_le_minted.trans (le_add_second hmint))
    _ = w.mintedAt.addSeconds (lagWindowSeconds + 1) := by
      rw [addSeconds, addSeconds, Int.add_mul, Int.one_mul, Int.add_assoc, Int.add_comm second]

/-- An event that is not overtaken arrives. -/
theorem complete_of_not_overtaken (hnot : ¬ h.Overtaken client) (s : Schedule)
    (hw : h.Exported client w) {n : ℕ}
    (hdue : w.stampedAt.addSeconds (lagWindowSeconds + 1) ≤ (s.poll n).arrival) :
    ∃ n, w.event ∈ eventsOf (h.answerAt client s n) := by
  have hvisible : w.event.stampedSecond < (h.run client s).cut n := wholeSecond_lt_of_add_le hdue
  have hstart : (h.run client s).cursor 0 < w.event.id := h.empty_lt_id hw.1
  refine (h.run client s).eventually_read (h.rows_inj client) ⟨w, hw, rfl⟩ ?_ hstart
    (h.finite_before client hw) hvisible
  rintro m _ ⟨b, hb, rfl⟩ _ ⟨c, hc, rfl⟩ hover
  exact hnot ⟨w, b, c, hw, hb, hc, hover.key_lt, hover.key_lt',
    lt_of_lt_of_le hover.seen hover.hidden, lt_of_lt_of_le hover.seen' hover.hidden⟩

/-! ## How an overtaken event is lost -/

end History

/-- A request for one event, as JSON, that arrives when the lag window begins at a given instant. -/
def Poll.single (cutoff : Timestamp) (h : Timestamp.min ≤ cutoff) : Poll where
  arrival := cutoff.addSeconds lagWindowSeconds
  queriedAt := cutoff.addSeconds lagWindowSeconds
  limit := some 1
  format := none
  wantsNdjson := false
  arrival_le := le_rfl
  min_le := by
    rw [addSeconds_addSeconds, Int.add_right_neg, addSeconds_zero]
    exact h

theorem Poll.lagCutoff_single (cutoff : Timestamp) (h : Timestamp.min ≤ cutoff) :
    (Poll.single cutoff h).lagCutoff = cutoff := by
  rw [lagCutoff, single, addSeconds_addSeconds, Int.add_right_neg, addSeconds_zero]

/-- A number of such requests for one instant, then for a later one. -/
def Schedule.twoInstants (k : ℕ) (first later : Timestamp) (h : Timestamp.min ≤ first)
    (hle : first ≤ later) : Schedule where
  poll n := if n < k then .single first h else .single later (h.trans hle)
  sequential n := by
    by_cases hn : n + 1 < k
    · rw [if_pos (Nat.lt_of_succ_lt hn), if_pos hn]
      exact le_rfl
    · rw [if_neg hn]
      split
      · exact addSeconds_mono _ hle
      · exact le_rfl

namespace History

variable (h : History) (client : Client library org)

variable {poll : Poll}

/-- Without a cursor a request goes from the empty one. -/
theorem cursorOf_fetch_none (hjson : poll.wantsNdjson = false) :
    cursorOf (h.fetch client poll none) = cursorOf (h.fetch client poll (some "")) := by
  rw [fetch, fetch, hjson]
  rfl

/-- One request for one event takes the cursor on, and no further than the first of two events it
can see. -/
theorem single_advances (hlimit : poll.limit = some 1) {b c : Write} (hb : h.Exported client b)
    (hc : h.Exported client c) (hbc : b.id < c.id)
    (hbseen : b.stampedAt.wholeSecond < poll.lagCutoff.wholeSecond)
    (hcseen : c.stampedAt.wholeSecond < poll.lagCutoff.wholeSecond) {after : String}
    (hafter : after < b.id) :
    ∃ k, cursorOf (h.fetch client poll (some after)) = some k ∧ after < k ∧ k ≤ b.id ∧
      k ∈ AuditEvent.id '' {e | e ∈ h.table poll.queriedAt} := by
  have hp := h.pending_poll client poll (some after)
  obtain ⟨hpage, hlength⟩ := h.fetch_page client poll (some after)
  have hone : (eventsOf (h.fetch client poll (some after))).length ≤ 1 := by
    rw [AuditEventsQuery.pageSize, Client.request, hlimit] at hlength
    exact hlength
  have hbpending := (hp.mem_iff b.event).2 ⟨⟨b, hb, rfl⟩, hafter, hbseen⟩
  have hcpending := (hp.mem_iff c.event).2 ⟨⟨c, hc, rfl⟩, hafter.trans hbc, hcseen⟩
  have hsingle : ∀ {e e' : AuditEvent}, e ∈ eventsOf (h.fetch client poll (some after)) →
      e' ∈ eventsOf (h.fetch client poll (some after)) → e = e' := by
    intro e e' he he'
    obtain ⟨i, hi, rfl⟩ := List.mem_iff_getElem.1 he
    obtain ⟨j, hj, rfl⟩ := List.mem_iff_getElem.1 he'
    have hij : i = j := by omega
    subst hij
    rfl
  cases hcursor : cursorOf (h.fetch client poll (some after)) with
  | none =>
    rw [hcursor] at hpage
    rw [← hpage.eq_pending] at hbpending hcpending
    have heq : b.id = c.id := congrArg AuditEvent.id (hsingle hbpending hcpending)
    exact absurd heq hbc.ne
  | some k =>
    rw [hcursor] at hpage
    obtain ⟨⟨e, he, rfl, -⟩, -, hall⟩ := hpage.cursor_spec hp
    obtain ⟨-, hlt, -⟩ := (hp.mem_iff e).1 (hpage.mem_pending he)
    refine ⟨e.id, rfl, hlt, ?_, e, (mem_forward.1 (hpage.mem_pending he)).1, rfl⟩
    rcases le_or_gt e.id b.id with hle | hgt
    · exact hle
    · rw [hsingle he (hall b.event hbpending hgt.le)]
      exact le_rfl

/-- Request by request, the cursor comes to the first of the two events. -/
theorem exists_iterate_first (hlimit : poll.limit = some 1) {b c : Write} (hb : h.Exported client b)
    (hc : h.Exported client c) (hbc : b.id < c.id)
    (hbseen : b.stampedAt.wholeSecond < poll.lagCutoff.wholeSecond)
    (hcseen : c.stampedAt.wholeSecond < poll.lagCutoff.wholeSecond) :
    ∃ k, (fun after => (cursorOf (h.fetch client poll (some after))).getD after)^[k] "" = b.id := by
  refine exists_iterate_eq ((h.table poll.queriedAt).finite_toSet.image AuditEvent.id)
    (h.empty_lt_id hb.1) fun after hafter => ?_
  obtain ⟨k, hcursor, hlt, hkle, hmem⟩ :=
    h.single_advances client hlimit hb hc hbc hbseen hcseen hafter
  rw [hcursor]
  exact ⟨hlt, hkle, hmem⟩

/-- Where a client stands that asks for one event at a time, always at the same instant. -/
theorem cursorAt_eq_iterate {s : Schedule} (hjson : poll.wantsNdjson = false) {k : ℕ}
    (hpoll : ∀ n < k, s.poll n = poll) :
    ∀ n ≤ k, (h.cursorAt client s n).getD "" =
      (fun after => (cursorOf (h.fetch client poll (some after))).getD after)^[n] "" := by
  intro n
  induction n with
  | zero => exact fun _ => rfl
  | succ n ih =>
    intro hn
    have hfetch : cursorOf (h.fetch client poll (h.cursorAt client s n)) =
        cursorOf (h.fetch client poll (some ((h.cursorAt client s n).getD ""))) := by
      cases h.cursorAt client s n with
      | none => exact h.cursorOf_fetch_none client hjson
      | some after => rfl
    rw [Function.iterate_succ_apply', ← ih (Nat.le_of_succ_le hn), ← hfetch, cursorAt, hpoll n hn]
    cases cursorOf (h.fetch client poll (h.cursorAt client s n)) with
    | none => rfl
    | some k => rfl

/-- **An overtaken event can be lost.**  A client that asks for one event at a time, while the event
is hidden and the two others are not, has the cursor of the first of them before it gets to the
second. -/
theorem exists_lost_of_overtaken (hover : h.Overtaken client) :
    ∃ s : Schedule, ∃ w, h.Exported client w ∧
      (∃ n, w.stampedAt.addSeconds (lagWindowSeconds + 1) ≤ (s.poll n).arrival) ∧
        ∀ n, w.event ∉ eventsOf (h.answerAt client s n) := by
  obtain ⟨a, b, c, ha, hb, hc, hab, hbc, hbsecond, hcsecond⟩ := hover
  -- The first requests arrive when the lag window begins with the second of the event.
  have hsecond : wholeSecond (a.stampedAt.wholeSecond * second) = a.stampedAt.wholeSecond :=
    wholeSecond_mul_second _
  have hmin : Timestamp.min ≤ a.stampedAt.wholeSecond * second :=
    b.min_le_stamped.trans (lt_of_wholeSecond_lt (by rw [hsecond]; exact hbsecond)).le
  have hle : a.stampedAt.wholeSecond * second ≤ addSeconds (a.stampedAt.wholeSecond * second) 2 :=
    Int.le_add_of_nonneg_right (by decide)
  have hcut : (Poll.single _ hmin).lagCutoff.wholeSecond = a.stampedAt.wholeSecond := by
    rw [Poll.lagCutoff_single, hsecond]
  have hbseen : b.stampedAt.wholeSecond < (Poll.single _ hmin).lagCutoff.wholeSecond := by
    rw [hcut]
    exact hbsecond
  have hcseen : c.stampedAt.wholeSecond < (Poll.single _ hmin).lagCutoff.wholeSecond := by
    rw [hcut]
    exact hcsecond
  obtain ⟨k, hk⟩ := h.exists_iterate_first client rfl hb hc hbc hbseen hcseen
  have hpoll : ∀ n < k, (Schedule.twoInstants k _ _ hmin hle).poll n = .single _ hmin :=
    fun n hn => if_pos hn
  refine ⟨.twoInstants k _ _ hmin hle, a, ha, ⟨k, ?_⟩, ?_⟩
  · have harrival : ((Schedule.twoInstants k _ _ hmin hle).poll k).arrival =
        (addSeconds (a.stampedAt.wholeSecond * second) 2).addSeconds lagWindowSeconds :=
      congrArg Poll.arrival (if_neg (lt_irrefl k))
    have hsplit : (addSeconds (a.stampedAt.wholeSecond * second) 2).addSeconds lagWindowSeconds =
        (addSeconds (a.stampedAt.wholeSecond * second) 1).addSeconds (lagWindowSeconds + 1) := by
      rw [addSeconds_addSeconds, addSeconds_addSeconds]
      rfl
    rw [harrival, hsplit]
    refine addSeconds_mono _ ?_
    rw [addSeconds, Int.one_mul]
    exact le_wholeSecond_mul a.stampedAt
  · refine (h.run client (.twoInstants k _ _ hmin hle)).not_read (n := k) ?_ ?_
    · intro m hm
      show ((Schedule.twoInstants k _ _ hmin hle).poll m).lagCutoff.wholeSecond ≤ _
      rw [hpoll m hm, hcut]
      exact le_rfl
    · show a.id ≤ (h.cursorAt client _ k).getD ""
      rw [h.cursorAt_eq_iterate client rfl hpoll k le_rfl, hk]
      exact hab.le

/-- **The promise is kept by every schedule exactly when no event is overtaken.** -/
theorem delivers_iff : (∀ s, h.Delivers client s) ↔ ¬ h.Overtaken client := by
  constructor
  · intro hall hover
    obtain ⟨s, w, hw, hdue, hlost⟩ := h.exists_lost_of_overtaken client hover
    obtain ⟨n, hn⟩ := (hall s).complete w hw hdue
    exact hlost n hn
  · intro hnot s
    refine ⟨fun w hw hdue => ?_, fun n e he => h.lagged client s n he, h.drained client s⟩
    obtain ⟨n, hn⟩ := hdue
    exact h.complete_of_not_overtaken client hnot s hw hn

/-- The history of a list of writes. -/
def ofList (ws : List Write) (hnodup : (ws.map Write.id).Nodup)
    (hlt : ∀ w ∈ ws, ∀ w' ∈ ws, w.mintedAt.millisecond < w'.mintedAt.millisecond → w.id < w'.id)
    (hne : ∀ w ∈ ws, w.id ≠ "") : History where
  writes := {w | w ∈ ws}
  table t := (ws.filter fun w => w.committedAt ≤ t).map Write.event
  mem_table t e := by
    simp only [List.mem_map, List.mem_filter, decide_eq_true_eq, Set.mem_ofPred_eq]
    exact ⟨fun ⟨w, ⟨hw, hle⟩, he⟩ => ⟨w, hw, he, hle⟩, fun ⟨w, hw, he, hle⟩ => ⟨w, ⟨hw, hle⟩, he⟩⟩
  nodup_table t := by
    rw [List.map_map]
    exact hnodup.sublist (List.Sublist.map _ List.filter_sublist)
  id_lt := hlt
  id_inj := List.inj_on_of_nodup_map hnodup
  id_ne := hne

end History

/-! ## A lost event -/

/-- Third-party code for the runs below, which write an event as its id. -/
def plainLibrary : AuditLibrary where
  hmacIndex := fun text => text
  parseTimestamp := fun _ => none
  quoted := fun text => text
  jsonLine := fun event => some event.id
  ocsfLine := fun event => some event.id
  jsonLine_isSome _ := rfl
  ocsfLine_isSome _ := rfl

/-- An organization with one domain. -/
def exampleOrg : OrganizationDoc :=
  { domain := "example.com", name := none, createdByUserId := none, additionalDomains := [],
    subdomain := none }

/-- A client that asks for all events of the organization. -/
def allEvents : Client plainLibrary exampleOrg where
  query := ⟨none, none, none, none, none, none, none, none, none⟩
  filter := ⟨none, none, none, some ["example.com"], none, none, none, none, none⟩
  accepted := rfl

/-- A login that is recorded. -/
def loginAt (id : String) (stampedAt mintedAt : Timestamp) (hmin : Timestamp.min ≤ stampedAt)
    (hle : stampedAt ≤ mintedAt) (hlag : mintedAt ≤ stampedAt.addSeconds lagWindowSeconds) :
    Write where
  kind := .loginSuccess
  userId := none
  emailDomain := some "example.com"
  emailHmac := none
  dataJson := "null"
  id := id
  stampedAt := stampedAt
  mintedAt := mintedAt
  committedAt := mintedAt
  min_le_stamped := hmin
  stamped_le_minted := hle
  minted_le_committed := le_rfl
  committed_le := hlag

/-- Stamped at the beginning of a second, and given its id at once. -/
def quickLogin : Write :=
  loginAt "00000000-2af8-7000-8000-000000000000" 11000000000 11000000000 (by decide) (by decide)
    (by decide)

/-- Two logins that were stamped just before, and got their ids just after. -/
def slowLogin : Write :=
  loginAt "00000000-2af9-7000-8000-000000000000" 10999999000 11001000000 (by decide) (by decide)
    (by decide)

/-- The second of the two. -/
def slowLogin' : Write :=
  loginAt "00000000-2afa-7000-8000-000000000000" 10999999500 11002000000 (by decide) (by decide)
    (by decide)

/-- The history of the three. -/
def threeLogins : History :=
  .ofList [quickLogin, slowLogin, slowLogin'] (by decide +kernel) (by decide +kernel)
    (by decide +kernel)

/-- One request when the lag window begins with the second of the quick login, then requests two
seconds later. -/
def quickPolls : Schedule := .twoInstants 1 11000000000 13000000000 (by decide) (by decide)

/-- **The quick login never arrives.**  The first page is the first slow login, with its cursor; the
quick login, which was hidden then, is behind that cursor. -/
theorem quickLogin_lost :
    threeLogins.Exported allEvents quickLogin ∧
      eventsOf (threeLogins.answerAt allEvents quickPolls 0) = [slowLogin.event] ∧
      threeLogins.cursorAt allEvents quickPolls 1 = some slowLogin.id ∧
      (∀ n, quickLogin.event ∉ eventsOf (threeLogins.answerAt allEvents quickPolls n)) ∧
      ¬ threeLogins.Delivers allEvents quickPolls := by
  have hexported : threeLogins.Exported allEvents quickLogin :=
    ⟨List.mem_cons_self, by decide +kernel⟩
  have hcursor : threeLogins.cursorAt allEvents quickPolls 1 = some slowLogin.id := by
    decide +kernel
  have hlost : ∀ n, quickLogin.event ∉ eventsOf (threeLogins.answerAt allEvents quickPolls n) := by
    refine (threeLogins.run allEvents quickPolls).not_read (n := 1) ?_ ?_
    · intro m hm
      obtain rfl := Nat.lt_one_iff.1 hm
      decide +kernel
    · show quickLogin.id ≤ (threeLogins.cursorAt allEvents quickPolls 1).getD ""
      rw [hcursor]
      decide +kernel
  refine ⟨hexported, by decide +kernel, hcursor, hlost, fun hdelivers => ?_⟩
  obtain ⟨n, hn⟩ := hdelivers.complete quickLogin hexported ⟨1, by decide +kernel⟩
  exact hlost n hn

/-! ## Other organizations -/

open Result

variable {library : AuditLibrary} {rows events : List AuditEvent} {filter : AuditEventFilter}
  {e : AuditEvent}

theorem mem_queryEventsPaginated {hmacIndex : String → String} {size : Nat} {more : Bool}
    (h : queryEventsPaginated hmacIndex rows filter size = (events, more)) (he : e ∈ events) :
    e ∈ rows ∧ filter.selects hmacIndex e = true := by
  have hquery : e ∈ queryEvents hmacIndex rows { filter with limit := some (u64Succ size) } := by
    cases h
    split at he
    · exact List.dropLast_subset _ he
    · exact he
  have hordered := List.mem_of_mem_take hquery
  apply List.mem_filter.1
  split at hordered
  · exact List.mem_of_mem_filter ((List.mem_insertionSort _).1 hordered)
  · rw [List.mem_insertionSort] at hordered
    split at hordered
    · exact List.mem_of_mem_filter hordered
    · exact hordered

theorem mem_buildNdjsonBody {formatOcsf more : Bool} {budget : Nat}
    {body : NdjsonBody × Option String}
    (h : buildNdjsonBody library events formatOcsf more budget = .ok body)
    (he : e ∈ body.1.emitted) :
    e ∈ events := by
  obtain ⟨lines, hlines, hbody⟩ := bind_eq_ok.1 h
  cases hbody
  have hstart : NdjsonBody.WellFormed ⟨"", [], false⟩ := ⟨fun h => by simp at h, rfl⟩
  obtain ⟨_, written, rest, hrun, rfl, hemitted, -⟩ :=
    emitLines_spec library formatOcsf budget events hstart
  cases hlines.symm.trans hrun
  exact List.mem_append_left _ (by simpa [hemitted] using he)

/-- **No other organization's events.**  Whatever a request asks for, in either direction and either
format, its events are of a verified domain of the organization and older than the lag window. -/
theorem auditEvents_subset (library : AuditLibrary) (rows : List AuditEvent) (org : OrganizationDoc)
    (arrival : Timestamp) (query : AuditEventsQuery) (wantsNdjson : Bool) :
    eventsOf (auditEvents library rows org arrival query wantsNdjson) ⊆ rows.filter fun e =>
      e.emailDomain.any org.verifiedDomains.contains &&
        decide (e.createdAt < arrival.addSeconds (-lagWindowSeconds)) := by
  intro e he
  cases hpage : auditEvents library rows org arrival query wantsNdjson with
  | error x => simp [hpage, eventsOf] at he
  | ok page =>
    rw [hpage, eventsOf] at he
    obtain ⟨requested, hrequested, hpage⟩ := bind_eq_ok.1 hpage
    obtain ⟨cutoff, hcutoff, hpage⟩ := bind_eq_ok.1 hpage
    dsimp only at hpage
    generalize hfound : queryEventsPaginated _ _ _ _ = found at hpage
    obtain ⟨events, more⟩ := found
    have hmem : e ∈ events := by
      cases wantsNdjson with
      | false => cases hpage; exact he
      | true =>
        obtain ⟨body, hbody, hpage⟩ := bind_eq_ok.1 hpage
        cases hpage
        exact mem_buildNdjsonBody hbody he
    obtain ⟨hrow, hselects⟩ := mem_queryEventsPaginated hfound hmem
    have hforward : (forwardFilter requested cutoff none).selects library.hmacIndex e = true :=
      hselects
    obtain ⟨hrequest, hlag⟩ := selects_forwardFilter.1 hforward
    obtain ⟨_, -, h⟩ := bind_eq_ok.1 hrequested
    obtain ⟨_, -, h⟩ := bind_eq_ok.1 h
    obtain ⟨_, -, h⟩ := bind_eq_ok.1 h
    cases h
    simp only [AuditEventFilter.selects, Bool.and_eq_true, Option.all_some] at hrequest
    simp only [okOr_eq_ok, checkedSubSeconds, Option.ite_none_right_eq_some,
      Option.some.injEq] at hcutoff
    rw [← hcutoff.2] at hlag
    simp only [List.mem_filter, Bool.and_eq_true, decide_eq_true_eq]
    exact ⟨hrow, hrequest.1.1.2, lt_of_wholeSecond_lt hlag⟩

end Audit

end Vouch
