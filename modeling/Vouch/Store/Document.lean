import Mathlib.Data.Int.Order.Basic
import Vouch.Lib.Protocol
import Vouch.Lib.Result

/-!
# Documents and the rows that hold them

Every record of the server is a *document*: a typed value stored as one row of the `documents` table
together with its index entries.  This file is the data side of `db/document_type.rs` and
`db/store.rs` — what a document type declares, what a row carries, and how the one is read back as
the other.

* `DocumentType D T` is the trait a document type implements.  Documents are serialised and sealed
  before they reach the table; here a payload type `D` stands for the sealed JSON, with `toData` and
  `fromData` for sealing and opening, and the one law that opening what was sealed gives it back.
* `Row D` is a row.  Its index rows are kept in the row itself: every write of a document rewrites
  its index rows in the same transaction, under the document's row lock.
* `Timestamp` counts nanoseconds.  `Timestamp.wholeSecond` is what the store's text comparison of
  expiry instants sees: `TimestampSeconds` cuts the bound to its whole second, so a row expires in
  the order of whole seconds.
* `StoreError` is what the store reports, with the two questions callers ask of an error: is it
  worth retrying, is it a unique violation.
-/

namespace Vouch

open ReadCommitted Interleaving

/-- An instant, in nanoseconds since the epoch. -/
abbrev Timestamp := Int

namespace Timestamp

/-- Instants are ordered as their nanoseconds are. -/
instance : Preorder Timestamp := Int.instLinearOrder.toPartialOrder.toPreorder

/-- Nanoseconds in a second. -/
def second : Int := 1000000000

/-- The whole second an instant falls in. -/
def wholeSecond (t : Timestamp) : Int := Int.fdiv t second

/-- `n` seconds later. -/
def addSeconds (t : Timestamp) (n : Int) : Timestamp := t + n * second

theorem wholeSecond_mono {s t : Timestamp} (h : s ≤ t) : s.wholeSecond ≤ t.wholeSecond := by
  unfold wholeSecond second
  rw [Int.fdiv_eq_ediv_of_nonneg _ (by decide), Int.fdiv_eq_ediv_of_nonneg _ (by decide)]
  exact Int.ediv_le_ediv (by decide) h

end Timestamp

/-- A searchable field of a document. -/
structure IndexEntry where
  field : String
  value : String
  deriving DecidableEq, Repr

/-- A document type: its name in the `doc_type` column, its index entries, when it expires, and how
it is sealed into a payload. -/
class DocumentType (D : outParam Type) (T : Type) where
  docType : String
  indexEntries : T → List IndexEntry
  expiresAt : T → Option Timestamp := fun _ => none
  toData : T → D
  fromData : D → Option T
  fromData_toData : ∀ t, fromData (toData t) = some t

/-- A row of the `documents` table, with its rows of `document_indexes`. -/
structure Row (D : Type) where
  docType : String
  data : D
  expiresAt : Option Timestamp
  createdAt : Timestamp
  updatedAt : Timestamp
  version : Int
  lastUsedAt : Option Timestamp
  indexes : List IndexEntry

/-- A document read from the store. -/
structure Document (T : Type) where
  id : String
  data : T
  createdAt : Timestamp
  updatedAt : Timestamp
  version : Int
  lastUsedAt : Option Timestamp

/-- The largest 32-bit version. -/
def maxVersion : Int := 2147483647

/-- `version.saturating_add(1)`. -/
def nextVersion (v : Int) : Int := min (v + 1) maxVersion

theorem nextVersion_of_lt {v : Int} (h : v < maxVersion) : nextVersion v = v + 1 := by
  unfold nextVersion
  omega

/-- A version that has not saturated is a later one. -/
theorem lt_nextVersion {v : Int} (h : nextVersion v < maxVersion) : v < nextVersion v := by
  unfold nextVersion at h ⊢
  omega

/-! ## Errors -/

/-- What the store reports. -/
inductive StoreError
  /-- A failed statement. -/
  | db (e : DbError)
  /-- A guarded write found that the row had moved on. -/
  | versionConflict (id : String) (expected : Int)
  /-- An index value contained a NUL byte. -/
  | invalidIndexValue (field : String)
  /-- A row that cannot be opened or deserialised. -/
  | failedToDeserialize
  | message (text : String)
  deriving DecidableEq, Repr

instance : OfDbError StoreError := ⟨.db⟩

namespace StoreError

/-- Whether the error is transient: a version conflict, or one of the server's retryable codes. -/
def isRetryableDbError : StoreError → Bool
  | versionConflict _ _ => true
  | db (.fault transient) => transient
  | _ => false

/-- Whether an id or a unique index is taken. -/
def isUniqueViolation : StoreError → Bool
  | db .uniqueViolation => true
  | _ => false

end StoreError

/-! ## Index values -/

/-- The part of the document crypto the index uses: in production a keyed hash, in development the
value itself. -/
structure DocumentCrypto where
  hmacIndex : String → String

/-- The crypto of a development server, whose index does not hash. -/
def plainCrypto : DocumentCrypto := ⟨id⟩

/-- Whether a string has a NUL byte. -/
def containsNul (s : String) : Bool := s.toList.contains '\x00'

/-- A NUL byte is refused in an index value. -/
def validateIndexEntry (entry : IndexEntry) : Except StoreError Unit :=
  if containsNul entry.value then .error (.invalidIndexValue entry.field) else .ok ()

/-- The index rows written for a list of entries: the first invalid one is reported. -/
def validateIndexEntries : List IndexEntry → Except StoreError Unit
  | [] => .ok ()
  | e :: es => do
    validateIndexEntry e
    validateIndexEntries es

/-- Whether an index row's value answers a lookup of `value`: it is the hash, or the value as rows
written before encryption hold it.  A value with a NUL byte never matches. -/
def indexValueCondition (crypto : DocumentCrypto) (value stored : String) : Bool :=
  !containsNul value && (stored == crypto.hmacIndex value || stored == value)

variable {D T : Type}

/-- The index rows of a document as they are stored. -/
def storedIndexes (crypto : DocumentCrypto) [DocumentType D T] (doc : T) : List IndexEntry :=
  (DocumentType.indexEntries doc).map fun e => { e with value := crypto.hmacIndex e.value }

/-- Whether a row is a `T` that some index entry answers the lookup of `value` in `field`. -/
def matchesIndex (crypto : DocumentCrypto) (T : Type) [DocumentType D T] (field value : String)
    (_id : String) (row : Row D) : Bool :=
  row.docType == DocumentType.docType T &&
    row.indexes.any fun e => e.field == field && indexValueCondition crypto value e.value

/-- Whether a row is the `T` with the given id. -/
def hasId (T : Type) [DocumentType D T] (id : String) (k : String) (row : Row D) : Bool :=
  k == id && row.docType == DocumentType.docType T

/-- Open a row as a document. -/
def rawToDocument (T : Type) [DocumentType D T] (id : String) (row : Row D) :
    Except StoreError (Document T) :=
  match DocumentType.fromData (T := T) row.data with
  | some data => .ok ⟨id, data, row.createdAt, row.updatedAt, row.version, row.lastUsedAt⟩
  | none => .error .failedToDeserialize

/-- The row a new document is stored as. -/
def newRow (crypto : DocumentCrypto) [DocumentType D T] (doc : T) (now : Timestamp) : Row D where
  docType := DocumentType.docType T
  data := DocumentType.toData doc
  expiresAt := DocumentType.expiresAt doc
  createdAt := now
  updatedAt := now
  version := 1
  lastUsedAt := none
  indexes := storedIndexes crypto doc

/-- What an `UPDATE` of a document writes into its row. -/
def rewriteRow (crypto : DocumentCrypto) [DocumentType D T] (doc : T) (now : Timestamp)
    (version : Int) (row : Row D) : Row D :=
  { row with
    data := DocumentType.toData doc
    expiresAt := DocumentType.expiresAt doc
    updatedAt := now
    version := version
    indexes := storedIndexes crypto doc }

/-- The newest of some rows, by creation. -/
def newest : List (String × Row D) → Option (String × Row D)
  | [] => none
  | r :: rs =>
    match newest rs with
    | none => some r
    | some r' => if r.2.createdAt < r'.2.createdAt then some r' else some r

theorem newest_mem {rs : List (String × Row D)} {r : String × Row D} (h : newest rs = some r) :
    r ∈ rs := by
  induction rs generalizing r with
  | nil => cases h
  | cons x rs ih =>
    rw [newest] at h
    split at h
    · cases h
      exact List.mem_cons_self
    · rename_i r' hr'
      split at h <;> cases h
      · exact List.mem_cons_of_mem _ (ih hr')
      · exact List.mem_cons_self

theorem newest_eq_none {rs : List (String × Row D)} : newest rs = none ↔ rs = [] := by
  cases rs with
  | nil => simp [newest]
  | cons x rs =>
    rw [newest]
    split
    · simp
    · split <;> simp

theorem rawToDocument_eq_ok [DocumentType D T] {id : String} {row : Row D} {doc : Document T}
    (h : rawToDocument T id row = .ok doc) :
    doc.id = id ∧ doc.version = row.version ∧ DocumentType.fromData row.data = some doc.data := by
  rw [rawToDocument] at h
  split at h
  · rename_i data hd
    cases h
    exact ⟨rfl, rfl, hd⟩
  · cases h

/-- Opening a list of rows opens each of them, in order. -/
theorem mapM_rawToDocument_eq_ok [DocumentType D T] {rows : List (String × Row D)}
    {docs : List (Document T)} (h : (rows.mapM fun r => rawToDocument T r.1 r.2) = .ok docs) :
    docs.map (·.id) = rows.map Prod.fst ∧
      ∀ doc ∈ docs, ∃ row, (doc.id, row) ∈ rows ∧ rawToDocument T doc.id row = .ok doc := by
  refine ⟨Result.map_key Prod.fst (fun _ _ hr => (rawToDocument_eq_ok hr).1) h, fun doc hdoc => ?_⟩
  obtain ⟨⟨id, row⟩, hrow, hr⟩ := Result.exists_of_mem_mapM h doc hdoc
  obtain rfl : doc.id = id := (rawToDocument_eq_ok hr).1
  exact ⟨row, hrow, hr⟩

end Vouch
