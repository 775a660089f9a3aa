import Vouch.Store.Transaction

/-!
# The document store

The methods of `DocumentStore` (`db/store.rs`) that the rest of the server is built from: single
statements read outside a transaction, one-shot writes in a transaction of their own, the optimistic
`transition` family, and the expiry sweep.

`transitionVersioned` is the primitive: read the document, let `decide` look at it and rewrite it,
write it back guarded by the version read, and start over if the guard fails.  `decide` may read the
clock, and is handed a fresh reading on every attempt; `transition` and `modify` are thin wrappers.
-/

namespace Vouch

open ReadCommitted Interleaving

/-- The outcome of `transition`. -/
inductive Transition (A R : Type)
  /-- The precondition held on the row version that was written; the mutation committed. -/
  | applied (a : A)
  /-- The precondition rejected the current row; nothing was written. -/
  | rejected (r : R)
  /-- No document with that id exists. -/
  | notFound
  deriving DecidableEq, Repr

namespace DocumentStore

variable {D T : Type} [DocumentType D T] (crypto : DocumentCrypto)

/-- Insert a document under a given id. -/
def insertWithId (id : String) (doc : T) : ExceptT StoreError (DbM D) (Document T) :=
  withDsqlRetry StoreError.isRetryableDbError do
    Sql.begin
    let result ← StoreTransaction.insertWithId crypto id doc
    Sql.commit
    pure result

/-- Insert a document under a fresh id. -/
def insert (doc : T) : ExceptT StoreError (DbM D) (Document T) :=
  withDsqlRetry StoreError.isRetryableDbError do
    let id ← Sql.newId
    Sql.begin
    let result ← StoreTransaction.insertWithId crypto id doc
    Sql.commit
    pure result

/-- Get a document by id. -/
def get (T : Type) [DocumentType D T] (id : String) :
    ExceptT StoreError (DbM D) (Option (Document T)) := do
  match ← Sql.poolSelect (hasId T id) with
  | [] => pure none
  | (k, row) :: _ => some <$> orThrow (rawToDocument T k row)

/-- The newest document with an index entry. -/
def findOne (T : Type) [DocumentType D T] (field value : String) :
    ExceptT StoreError (DbM D) (Option (Document T)) := do
  match newest (← Sql.poolSelect (matchesIndex crypto T field value)) with
  | none => pure none
  | some (k, row) => some <$> orThrow (rawToDocument T k row)

/-- Overwrite a document if its version is the expected one; answers whether it was. -/
def compareAndUpdate (id : String) (expectedVersion : Int) (doc : T) :
    ExceptT StoreError (DbM D) Bool :=
  withDsqlRetry StoreError.isRetryableDbError do
    let now ← Sql.now
    Sql.begin
    let won ← Sql.update id (fun r => r.version == expectedVersion)
      (rewriteRow crypto doc now (nextVersion expectedVersion))
    if won then
      orThrow (validateIndexEntries (DocumentType.indexEntries doc))
      Sql.commit
      pure true
    else
      -- The version did not match: a concurrent modification.
      pure false

section Transitions

variable {A R : Type} (id : String) (decide : Timestamp → T → Except R (A × T))

/-- One attempt of `transitionVersioned`: `none` on a version conflict. -/
def transitionAttempt : ExceptT StoreError (DbM D) (Option (Transition (A × Int) R)) := do
  match ← get T id with
  | none => pure (some .notFound)
  | some doc =>
    let now ← Sql.now
    match decide now doc.data with
    | .error rejected => pure (some (.rejected rejected))
    | .ok (applied, data) =>
      if ← compareAndUpdate crypto id doc.version data then
        pure (some (.applied (applied, nextVersion doc.version)))
      else
        pure none

/-- The attempts of `transitionVersioned`, `n` of which remain after this one. -/
def transitionAttempts : Nat → ExceptT StoreError (DbM D) (Transition (A × Int) R)
  | 0 => do
    match ← transitionAttempt crypto id decide with
    | some outcome => pure outcome
    | none => throw (.message s!"version conflict after retries for document {id}")
  | n + 1 => do
    match ← transitionAttempt crypto id decide with
    | some outcome => pure outcome
    | none => transitionAttempts n

/-- Read a document, let `decide` check a precondition and rewrite it, and write it back under
optimistic concurrency, deciding again on every version conflict.  Also returns the version the
applied write committed. -/
def transitionVersioned : ExceptT StoreError (DbM D) (Transition (A × Int) R) :=
  transitionAttempts crypto id decide maxDsqlRetries

/-- `transitionVersioned` without the version. -/
def transition : ExceptT StoreError (DbM D) (Transition A R) := do
  match ← transitionVersioned crypto id decide with
  | .applied (applied, _version) => pure (.applied applied)
  | .rejected rejected => pure (.rejected rejected)
  | .notFound => pure .notFound

end Transitions

/-- Rewrite a document unconditionally; `false` if it does not exist. -/
def modify (id : String) (modifier : T → T) : ExceptT StoreError (DbM D) Bool := do
  match ← transition (R := Empty) crypto id (fun _ data => .ok ((), modifier data)) with
  | .applied () => pure true
  | .notFound => pure false

/-- Stamp a document as used now, whatever its version: a statement on its own. -/
def updateLastUsedAt (id : String) : ExceptT StoreError (DbM D) Unit :=
  withDsqlRetry StoreError.isRetryableDbError do
    let now ← Sql.now
    Sql.begin
    let _ ← Sql.update id (fun _ => true) fun row => { row with lastUsedAt := some now }
    Sql.commit

/-- Rewrite every document with an index entry, in one transaction. -/
def updateByIndex (field value : String) (modifier : T → T) : ExceptT StoreError (DbM D) Nat :=
  withDsqlRetry StoreError.isRetryableDbError do
    Sql.begin
    let count ← StoreTransaction.updateByIndex crypto field value modifier
    Sql.commit
    pure count

/-- Delete a document; answers whether this call removed it. -/
def delete (id : String) : ExceptT StoreError (DbM D) Bool :=
  withDsqlRetry StoreError.isRetryableDbError do
    Sql.begin
    let removed ← StoreTransaction.delete id
    Sql.commit
    pure removed

/-- Delete a document if it exists and has not expired. -/
def deleteIfNotExpired (id : String) (now : Timestamp) : ExceptT StoreError (DbM D) Bool :=
  withDsqlRetry StoreError.isRetryableDbError do
    Sql.begin
    let won ← StoreTransaction.deleteIfNotExpired id now
    Sql.commit
    pure won

/-! ## The expiry sweep -/

/-- Whether a row expired before the second `now` falls in. -/
def expiredBefore (now : Timestamp) (row : Row D) : Bool :=
  match row.expiresAt with
  | some e => e.wholeSecond < now.wholeSecond
  | none => false

/-- The batches of a sweep, each in a transaction of its own.  A row renewed since it was selected
no longer matches and survives. -/
def sweepBatches (now : Timestamp) : List (List String) → ExceptT StoreError (DbM D) Nat
  | [] => pure 0
  | batch :: rest => do
    Sql.begin
    let deleted ← Sql.delete fun k row => batch.contains k && expiredBefore now row
    Sql.commit
    let total ← sweepBatches now rest
    pure (deleted + total)

/-- One attempt of `deleteExpired` at a given cutoff. -/
def deleteExpiredBefore (docType : String) (now : Timestamp) :
    ExceptT StoreError (DbM D) Nat := do
  let rows ← Sql.poolSelect fun _ row => row.docType == docType && expiredBefore now row
  sweepBatches now (chunks 1000 (rows.map (·.1)) [])

/-- Delete all expired documents of a type. -/
def deleteExpired (docType : String) : ExceptT StoreError (DbM D) Nat :=
  withDsqlRetry StoreError.isRetryableDbError do
    let now ← Sql.now
    deleteExpiredBefore docType now

end DocumentStore

end Vouch
