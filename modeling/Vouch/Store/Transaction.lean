import Vouch.Store.Document

/-!
# Store transactions

The methods of `StoreTransaction` (`db/store.rs`), as programs over the READ COMMITTED table.  Each
SQL statement of the source is one statement here, with two exceptions that no interleaving can tell
apart: the index statements that follow a document's `INSERT` or `UPDATE` are part of it, since they
touch only index rows of a document the transaction has just locked, and a value the index refuses
(`validateIndexEntries`) is reported after the write, where the transaction is about to be dropped.

A transaction that is dropped without a commit rolls back; `retrying` — the source's
`with_dsql_retry!` — does so on leaving its body.
-/

namespace Vouch

open ReadCommitted Interleaving

/-- Programs of the server over its document table. -/
abbrev DbM (D : Type) := Program String (Row D) Timestamp

/-- Retries of a transaction that failed for a transient reason. -/
def maxDsqlRetries : Nat := 3

/-- `with_dsql_retry!`: run the transaction again while its error is retryable. -/
def withDsqlRetry {D ε α : Type} (retryable : ε → Bool) (body : ExceptT ε (DbM D) α) :
    ExceptT ε (DbM D) α :=
  retrying retryable body maxDsqlRetries

/-- Documents written by one batch of `updateByIndex`. -/
def updateByIndexBatch : Nat := 500

/-- Cut a list into chunks of `n`. -/
def chunks {α : Type} (n : Nat) : List α → List α → List (List α)
  | [], [] => []
  | [], cur => [cur.reverse]
  | x :: xs, cur =>
    if cur.length + 1 = n then (x :: cur).reverse :: chunks n xs [] else chunks n xs (x :: cur)

theorem chunks_flatten {α : Type} (n : Nat) (xs cur : List α) :
    (chunks n xs cur).flatten = cur.reverse ++ xs := by
  induction xs generalizing cur with
  | nil => cases cur <;> simp [chunks]
  | cons x xs ih =>
    rw [chunks]
    split
    · simp [ih]
    · simp [ih]

namespace StoreTransaction

variable {D T : Type} [DocumentType D T] (crypto : DocumentCrypto)

/-- Insert a document under a given id. -/
def insertWithId (id : String) (doc : T) : ExceptT StoreError (DbM D) (Document T) := do
  let now ← Sql.now
  Sql.insert id (newRow crypto doc now)
  orThrow (validateIndexEntries (DocumentType.indexEntries doc))
  pure ⟨id, doc, now, now, 1, none⟩

/-- Every document with an index entry. -/
def findAll (T : Type) [DocumentType D T] (field value : String) :
    ExceptT StoreError (DbM D) (List (Document T)) := do
  let rows ← Sql.select (matchesIndex crypto T field value)
  orThrow (rows.mapM fun r => rawToDocument T r.1 r.2)

/-- Delete a document; answers whether this statement removed it. -/
def delete (id : String) : ExceptT StoreError (DbM D) Bool := do
  let n ← Sql.delete fun k _ => k == id
  pure (n == 1)

/-- Whether a row expires, and not before the second `now` falls in. -/
def notExpiredAt (now : Timestamp) (row : Row D) : Bool :=
  match row.expiresAt with
  | some e => now.wholeSecond ≤ e.wholeSecond
  | none => false

/-- Delete a document if it exists and has not expired, in one statement. -/
def deleteIfNotExpired (id : String) (now : Timestamp) : ExceptT StoreError (DbM D) Bool := do
  let n ← Sql.delete fun k row => k == id && notExpiredAt now row
  pure (n == 1)

/-- Delete some ids, a thousand to a statement. -/
def deleteIds : List (List String) → ExceptT StoreError (DbM D) Unit
  | [] => pure ()
  | batch :: rest => do
    let _ ← Sql.delete fun k _ => batch.contains k
    deleteIds rest

/-- Delete every document with an index entry. -/
def deleteByIndex (T : Type) [DocumentType D T] (field value : String) :
    ExceptT StoreError (DbM D) Nat := do
  let docs ← findAll crypto T field value
  deleteIds (chunks 1000 (docs.map (·.id)) [])
  pure docs.length

/-- The guarded `UPDATE`s of one batch.  A row that moved on since it was read fails the whole
transaction. -/
def updateBatch (now : Timestamp) : List (Document T) → ExceptT StoreError (DbM D) Unit
  | [] => pure ()
  | doc :: rest => do
    let won ← Sql.update doc.id (fun r => r.version == doc.version)
      (rewriteRow crypto doc.data now (nextVersion doc.version))
    if won then updateBatch now rest else throw (.versionConflict doc.id doc.version)

/-- The batches of `updateByIndex`: the modifier is applied, and the index entries checked, before
the batch's first write. -/
def updateBatches (modifier : T → T) (now : Timestamp) :
    List (List (Document T)) → ExceptT StoreError (DbM D) Unit
  | [] => pure ()
  | batch :: rest => do
    let prepared := batch.map fun doc => { doc with data := modifier doc.data }
    orThrow (validateIndexEntries (prepared.flatMap fun doc =>
      DocumentType.indexEntries doc.data))
    updateBatch crypto now prepared
    updateBatches modifier now rest

/-- Rewrite every document with an index entry, each guarded by the version read. -/
def updateByIndex (field value : String) (modifier : T → T) :
    ExceptT StoreError (DbM D) Nat := do
  let docs ← findAll crypto T field value
  let now ← Sql.now
  updateBatches crypto modifier now (chunks updateByIndexBatch docs [])
  pure docs.length

end StoreTransaction

end Vouch
