import Vouch.Error
import Vouch.Lib.CursorLog
import Vouch.Audit.Events

/-!
# The audit export endpoint

`GET /api/v1/org/audit-events` (`handlers/api/org/audit.rs`) hands out an organization's audit
events page by page, as JSON or as lines of JSON.  A page goes forward from the cursor `after`, or
backward from `before`; without either it goes forward from the start.

* Nothing newer than `lagWindowSeconds` before the request is returned: the query's upper bound is
  the request's own `until`, or the instant that long before the request, whichever is earlier.
* A JSON page names a cursor when the query found more rows than the page holds.
* An NDJSON page (`buildNdjsonBody`) also stops at a number of bytes, but never before its first
  line; its cursor is then the last event it wrote.  The cursor travels in the `Link` header, which
  repeats the request with the cursor put in (`buildLinkUrl`).

Authentication and the lookup of the organization come before what is modelled here.
`auditEvents_forward` says what a forward request gets, in both formats: a `CursorLog.Page` of the
rows behind its cursor.
-/

namespace Vouch.Audit

open Result

/-! ## The request -/

/-- Query parameters. -/
structure AuditEventsQuery where
  eventType : Option String
  userId : Option String
  email : Option String
  since : Option String
  «until» : Option String
  after : Option String
  before : Option String
  limit : Option Nat
  format : Option String

/-- What the endpoint uses of other code: the blind index of addresses, how timestamps are read and
a text is quoted, and the JSON text of an event, plain and as OCSF.  Writing an event as JSON may
fail in principle, but does not for what is written here. -/
structure AuditLibrary where
  hmacIndex : String → String
  parseTimestamp : String → Option Timestamp
  quoted : String → String
  jsonLine : AuditEvent → Option String
  ocsfLine : AuditEvent → Option String
  jsonLine_isSome : ∀ event, (jsonLine event).isSome = true
  ocsfLine_isSome : ∀ event, (ocsfLine event).isSome = true

/-- `DEFAULT_PAGE_SIZE`. -/
def defaultPageSize : Nat := 500

/-- `MAX_PAGE_SIZE`. -/
def maxPageSize : Nat := 1000

/-- Events newer than this many seconds are never returned. -/
def lagWindowSeconds : Int := 30

/-- `NDJSON_BYTE_BUDGET`: where a page of lines is cut. -/
def ndjsonByteBudget : Nat := 5 * 1024 * 1024

/-- The parts of `event_type`, each of which has to be a registered kind. -/
def parseEventTypeParts (library : AuditLibrary) :
    List (List Char) → Except ServiceError (List String)
  | [] => .ok []
  | part :: parts => do
    let part := String.ofList (trim part)
    if part.isEmpty || (AuditEventKind.fromWire part).isNone then
      throw (.api 400 "invalid_event_type" ("Unknown event_type: " ++ library.quoted part))
    let kinds ← parseEventTypeParts library parts
    return part :: kinds

/-- Parse the `event_type` parameter. -/
def parseEventTypes (library : AuditLibrary) (raw : String) : Except ServiceError (List String) :=
  do
  let kinds ← parseEventTypeParts library (raw.toList.splitOn ',')
  if kinds.isEmpty then
    throw (.api 400 "invalid_event_type" "event_type must not be empty")
  return kinds

/-- Parse the parameter `since` or `until`. -/
def parseTimestampParam (library : AuditLibrary) (name raw : String) :
    Except ServiceError Timestamp :=
  okOr (library.parseTimestamp raw)
    (.api 400 "invalid_timestamp" (name ++ " is not a valid RFC 3339 timestamp"))

/-- The domains whose events an organization may read. -/
def matchingEmailDomains (org : OrganizationDoc) : List String := org.verifiedDomains

/-- What the request asks for: its filter, with its own `until` and no cursor yet. -/
def requestedFilter (library : AuditLibrary) (org : OrganizationDoc) (query : AuditEventsQuery) :
    Except ServiceError AuditEventFilter := do
  let eventTypes ← query.eventType.mapM (parseEventTypes library)
  let since ← query.since.mapM (parseTimestampParam library "since")
  let bound ← query.until.mapM (parseTimestampParam library "until")
  return {
    eventTypes := eventTypes
    userId := query.userId
    email := query.email
    emailDomains := some (matchingEmailDomains org)
    since := since
    «until» := bound
    beforeId := none
    afterId := none
    limit := none }

/-- `Timestamp::checked_sub`, with a number of seconds. -/
def checkedSubSeconds (t : Timestamp) (n : Int) : Option Timestamp :=
  let difference := t.addSeconds (-n)
  if Timestamp.min ≤ difference then some difference else none

/-- The request's own bound, where that is before the lag window. -/
def effectiveUntil (bound : Option Timestamp) (lagCutoff : Timestamp) : Timestamp :=
  match bound with
  | some u => if u < lagCutoff then u else lagCutoff
  | none => lagCutoff

/-- The backward cursor, unless there is a forward one. -/
def AuditEventsQuery.beforeId (query : AuditEventsQuery) : Option String :=
  if query.after.isNone then query.before else none

/-- The forward cursor.  Without any cursor the walk goes forward from the start: the empty text
sorts before every id. -/
def AuditEventsQuery.afterId (query : AuditEventsQuery) : Option String :=
  match query.after with
  | some cursor => some cursor
  | none => if query.beforeId.isNone then some "" else none

variable {query : AuditEventsQuery}

theorem AuditEventsQuery.beforeId_forward (h : query.before = none) : query.beforeId = none := by
  rw [beforeId, h, ite_self]

theorem AuditEventsQuery.afterId_forward (h : query.before = none) :
    query.afterId = some (query.after.getD "") := by
  unfold afterId
  rw [beforeId_forward h]
  cases query.after with
  | none => rfl
  | some cursor => rfl

/-- `Ord::clamp`. -/
def clamp (low high n : Nat) : Nat := if n < low then low else if high < n then high else n

/-- The number of events a page may hold. -/
def AuditEventsQuery.pageSize (query : AuditEventsQuery) : Nat :=
  clamp 1 maxPageSize (query.limit.getD defaultPageSize)

/-! ## The response -/

/-- Serialize one event as a single JSON line. -/
def serializeLine (library : AuditLibrary) (event : AuditEvent) (formatOcsf : Bool) :
    Except ServiceError String :=
  okOr (if formatOcsf then library.ocsfLine event else library.jsonLine event)
    (.api 500 "serialize_error" "Failed to serialize audit event")

/-- An NDJSON body as it is written: its text, the events whose lines are in it, and whether it was
cut short. -/
structure NdjsonBody where
  text : String
  emitted : List AuditEvent
  byteCapped : Bool

/-- Write events until the budget is used up, but never none. -/
def emitLines (library : AuditLibrary) (formatOcsf : Bool) (budget : Nat) :
    List AuditEvent → NdjsonBody → Except ServiceError NdjsonBody
  | [], body => .ok body
  | event :: events, body => do
    let line ← serializeLine library event formatOcsf
    if !body.text.isEmpty && decide (budget < body.text.utf8ByteSize + line.utf8ByteSize) then
      return { body with byteCapped := true }
    else
      emitLines library formatOcsf budget events
        { body with text := body.text ++ line ++ "\n", emitted := body.emitted ++ [event] }

/-- Build a buffered NDJSON body, stopping at `budget` bytes, and the cursor for the next page. -/
def buildNdjsonBody (library : AuditLibrary) (events : List AuditEvent) (formatOcsf hasMore : Bool)
    (budget : Nat) : Except ServiceError (NdjsonBody × Option String) := do
  let body ← emitLines library formatOcsf budget events ⟨"", [], false⟩
  let nextCursor :=
    if body.byteCapped then body.emitted.getLast?.map AuditEvent.id
    else if hasMore then events.getLast?.map AuditEvent.id
    else none
  return (body, nextCursor)

/-- The parameters of the `Link` target: those of the request, with the cursor in place of the ones
it came with. -/
def buildLinkUrl (query : AuditEventsQuery) (cursor : String) (isBackward : Bool) :
    AuditEventsQuery :=
  if isBackward then { query with after := none, before := some cursor }
  else { query with after := some cursor, before := none }

/-- A response: the JSON envelope, or the lines and the `Link` target. -/
inductive AuditPage
  | json (events : List AuditEvent) (formatOcsf : Bool) (nextCursor : Option String)
  | ndjson (body : NdjsonBody) (link : Option AuditEventsQuery)

namespace AuditPage

/-- The events a response holds. -/
def events : AuditPage → List AuditEvent
  | json events _ _ => events
  | ndjson body _ => body.emitted

/-- The cursor that a client which pages forward carries on. -/
def cursor : AuditPage → Option String
  | json _ _ nextCursor => nextCursor
  | ndjson _ link => link.bind AuditEventsQuery.after

end AuditPage

/-- `GET /api/v1/org/audit-events`, once the caller is known and the organization is loaded. -/
def auditEvents (library : AuditLibrary) (rows : List AuditEvent) (org : OrganizationDoc)
    (arrival : Timestamp) (query : AuditEventsQuery) (wantsNdjson : Bool) :
    Except ServiceError AuditPage := do
  let requested ← requestedFilter library org query
  let lagCutoff ← okOr (checkedSubSeconds arrival lagWindowSeconds)
    (.api 500 "server_error" "Internal error")
  let isBackward := query.beforeId.isSome
  let filter : AuditEventFilter := { requested with
    «until» := some (effectiveUntil requested.until lagCutoff)
    beforeId := query.beforeId
    afterId := query.afterId }
  let (events, hasMore) := queryEventsPaginated library.hmacIndex rows filter query.pageSize
  let formatOcsf := query.format == some "ocsf"
  if wantsNdjson then
    let (body, nextCursor) ← buildNdjsonBody library events formatOcsf hasMore ndjsonByteBudget
    return .ndjson body (nextCursor.map fun cursor => buildLinkUrl query cursor isBackward)
  else
    return .json events formatOcsf (if hasMore then events.getLast?.map AuditEvent.id else none)

/-! ## What a forward request gets -/

theorem serializeLine_ok (library : AuditLibrary) (event : AuditEvent) (formatOcsf : Bool) :
    ∃ line, serializeLine library event formatOcsf = .ok line := by
  cases formatOcsf with
  | false =>
    obtain ⟨line, hline⟩ := Option.isSome_iff_exists.1 (library.jsonLine_isSome event)
    exact ⟨line, okOr_eq_ok.2 hline⟩
  | true =>
    obtain ⟨line, hline⟩ := Option.isSome_iff_exists.1 (library.ocsfLine_isSome event)
    exact ⟨line, okOr_eq_ok.2 hline⟩

/-- A body is cut short only behind a line that is in it. -/
structure NdjsonBody.WellFormed (body : NdjsonBody) : Prop where
  nonempty : body.text.isEmpty = false → body.emitted ≠ []
  uncapped : body.byteCapped = false

/-- **Writing lines**: a first part of the events is written, all of them unless the budget was used
up, and if it was, at least one. -/
theorem emitLines_spec (library : AuditLibrary) (formatOcsf : Bool) (budget : Nat)
    (events : List AuditEvent) {body : NdjsonBody} (hbody : body.WellFormed) :
    ∃ body' written rest, emitLines library formatOcsf budget events body = .ok body' ∧
      events = written ++ rest ∧ body'.emitted = body.emitted ++ written ∧
      (body'.byteCapped = false ∧ rest = [] ∨
        body'.byteCapped = true ∧ rest ≠ [] ∧ body'.emitted ≠ []) := by
  induction events generalizing body with
  | nil => exact ⟨body, [], [], rfl, rfl, by simp, .inl ⟨hbody.uncapped, rfl⟩⟩
  | cons event events ih =>
    obtain ⟨line, hline⟩ := serializeLine_ok library event formatOcsf
    rw [emitLines, hline, ok_bind]
    split
    · rename_i hcap
      have hfull : body.text.isEmpty = false := by
        simpa using (Bool.and_eq_true_iff.1 hcap).1
      exact ⟨_, [], event :: events, rfl, rfl, by simp, .inr ⟨rfl, by simp, hbody.nonempty hfull⟩⟩
    · have hnext : NdjsonBody.WellFormed { body with
          text := body.text ++ line ++ "\n", emitted := body.emitted ++ [event] } :=
        ⟨fun _ => by simp, hbody.uncapped⟩
      obtain ⟨body', written, rest, hrun, hsplit, hemitted, hend⟩ := ih hnext
      refine ⟨body', event :: written, rest, hrun, by rw [hsplit, List.cons_append], ?_, hend⟩
      rw [hemitted, List.append_assoc, List.singleton_append]

open CursorLog

variable {pending : List AuditEvent}

/-- A first part that leaves rows, with the id of its last row. -/
theorem page_of_split {written rest : List AuditEvent} (hsplit : pending = written ++ rest)
    (hwritten : written ≠ []) (hrest : rest ≠ []) :
    Page AuditEvent.id pending written (written.getLast?.map AuditEvent.id) := by
  obtain ⟨init, last, rfl⟩ := written.eq_nil_or_concat.resolve_left hwritten
  rw [List.concat_eq_append] at *
  rw [List.getLast?_append, List.getLast?_singleton, Option.some_or, Option.map_some]
  have hpending : pending = init ++ last :: rest := by
    rw [hsplit, List.append_assoc, List.singleton_append]
  exact .more hpending hrest

/-- The page of a JSON response. -/
theorem page_of_take {pageSize : Nat} (hsize : 0 < pageSize) :
    Page AuditEvent.id pending (pending.take pageSize)
      (if decide (pageSize < pending.length) = true then
        (pending.take pageSize).getLast?.map AuditEvent.id else none) := by
  by_cases hmore : pageSize < pending.length
  · rw [if_pos (decide_eq_true hmore)]
    refine page_of_split (List.take_append_drop pageSize pending).symm ?_ ?_
    · intro hnil
      rcases List.take_eq_nil_iff.1 hnil with h | h
      · omega
      · rw [h] at hmore
        exact absurd hmore (Nat.not_lt_zero _)
    · intro hnil
      exact absurd (List.drop_eq_nil_iff.1 hnil) (not_le.2 hmore)
  · rw [if_neg (by simpa using hmore), List.take_of_length_le (not_lt.1 hmore)]
    exact .all

/-- The page of an NDJSON response. -/
theorem page_of_ndjson (library : AuditLibrary) {pageSize : Nat} (formatOcsf : Bool) (budget : Nat)
    (hsize : 0 < pageSize) :
    ∃ body next, buildNdjsonBody library (pending.take pageSize) formatOcsf
        (decide (pageSize < pending.length)) budget = .ok (body, next) ∧
      Page AuditEvent.id pending body.emitted next ∧ body.emitted.length ≤ pageSize := by
  have hstart : NdjsonBody.WellFormed ⟨"", [], false⟩ := ⟨fun h => by simp at h, rfl⟩
  obtain ⟨body, written, rest, hrun, hsplit, hemitted, hend⟩ :=
    emitLines_spec library formatOcsf budget (pending.take pageSize) hstart
  rw [List.nil_append] at hemitted
  have hlength : written.length ≤ pageSize := by
    have htake := List.length_take_le pageSize pending
    rw [hsplit, List.length_append] at htake
    omega
  rw [buildNdjsonBody, hrun, ok_bind]
  refine ⟨body, _, rfl, ?_, by rw [hemitted]; exact hlength⟩
  rcases hend with ⟨huncapped, rfl⟩ | ⟨hcapped, hrest, hne⟩
  · rw [List.append_nil] at hsplit
    simp only [huncapped, Bool.false_eq_true, if_false, hemitted, ← hsplit]
    exact page_of_take hsize
  · simp only [hcapped, if_true, hemitted] at hne ⊢
    have hpending : pending = written ++ (rest ++ pending.drop pageSize) := by
      rw [← List.append_assoc, ← hsplit, List.take_append_drop]
    exact page_of_split hpending hne (by simp [hrest])

theorem clamp_pos (high n : Nat) (hhigh : 0 < high) : 0 < clamp 1 high n := by
  unfold clamp
  split <;> [omega; split <;> omega]

theorem clamp_le {low high n : Nat} (h : low ≤ high) : clamp low high n ≤ high := by
  unfold clamp
  split <;> [omega; split <;> omega]

/-- The filter of a forward request. -/
def forwardFilter (requested : AuditEventFilter) (lagCutoff : Timestamp) (cursor : Option String) :
    AuditEventFilter :=
  { requested with
    «until» := some (effectiveUntil requested.until lagCutoff)
    beforeId := none
    afterId := some (cursor.getD "") }

/-- **A forward request gets a page of the rows behind its cursor**, in either format, and no more
rows than it asks for. -/
theorem auditEvents_forward {library : AuditLibrary} {rows : List AuditEvent}
    {org : OrganizationDoc} {arrival lagCutoff : Timestamp} {requested : AuditEventFilter}
    (wantsNdjson : Bool) (hrequested : requestedFilter library org query = .ok requested)
    (hcutoff : checkedSubSeconds arrival lagWindowSeconds = some lagCutoff)
    (hbefore : query.before = none) :
    ∃ page, auditEvents library rows org arrival query wantsNdjson = .ok page ∧
      Page AuditEvent.id
        (forward library.hmacIndex rows (forwardFilter requested lagCutoff query.after)
          (query.after.getD ""))
        page.events page.cursor ∧ page.events.length ≤ query.pageSize := by
  have hpos : 0 < query.pageSize := clamp_pos maxPageSize _ (by decide)
  have hle : query.pageSize ≤ maxPageSize := clamp_le (by decide)
  have hquery : queryEventsPaginated library.hmacIndex rows
      (forwardFilter requested lagCutoff query.after) query.pageSize = _ :=
    queryEventsPaginated_forward rfl (lt_of_le_of_lt hle (by decide))
  have hfilter : { requested with
      «until» := some (effectiveUntil requested.until lagCutoff)
      beforeId := query.beforeId
      afterId := query.afterId } = forwardFilter requested lagCutoff query.after := by
    rw [AuditEventsQuery.beforeId_forward hbefore, AuditEventsQuery.afterId_forward hbefore]
    rfl
  rw [auditEvents, hrequested, ok_bind, hcutoff, okOr, ok_bind]
  simp only [hfilter, hquery]
  cases wantsNdjson with
  | false =>
    rw [if_neg Bool.false_ne_true]
    exact ⟨_, rfl, page_of_take hpos, List.length_take_le _ _⟩
  | true =>
    rw [if_pos rfl]
    obtain ⟨body, next, hbody, hpage, hlength⟩ :=
      page_of_ndjson library (query.format == some "ocsf")
      ndjsonByteBudget hpos
    rw [hbody, ok_bind]
    refine ⟨_, rfl, ?_⟩
    have hcursor : AuditPage.cursor (.ndjson body (next.map fun cursor =>
        buildLinkUrl query cursor query.beforeId.isSome)) = next := by
      rw [AuditEventsQuery.beforeId_forward hbefore]
      cases next with
      | none => rfl
      | some cursor => rfl
    rw [hcursor]
    exact ⟨hpage, hlength⟩

end Vouch.Audit
