import Vouch.Store.Versions

/-!
# Specifications of the store's operations

One specification per method of the store, for any protocol the threads of a system may follow.
What the protocol has to say is asked in the same place each time: `hcommit` is told exactly what
the transaction has pending when it commits, and what it knows of the rows it is about to replace.

Nothing here depends on which documents are stored or what the callers do with them.
-/

namespace Vouch

open ReadCommitted Interleaving ReadCommitted.Protocol Discipline

variable {ι D T : Type} [DecidableEq ι] [DocumentType D T]
  {P : DbProtocol ι D} {i : ι} {crypto : DocumentCrypto}

section Operations

variable {Pre : DbDurable ι D → Prop}

/-! ## Reading -/

theorem triple_get {id : String} {Q : Option (Document T) → DbDurable ι D → Prop}
    (hPre : P.Stable i Pre) (hQ : ∀ r, P.Stable i (Q r))
    (hnone : ∀ d, Pre d → P.inv d →
      (∀ row, d.committed.lookup id = some row → row.docType ≠ DocumentType.docType T) → Q none d)
    (hsome : ∀ d row doc, Pre d → P.inv d → d.committed.lookup id = some row →
      row.docType = DocumentType.docType T → rawToDocument T id row = .ok doc → Q (some doc) d) :
    P.Triple i Pre (DocumentStore.get T id) Q fun _ => Pre := by
  refine .bind (R := fun l d => l.head?.elim (Q none d) fun r =>
      Pre d ∧ ∀ doc, rawToDocument T r.1 r.2 = .ok doc → Q (some doc) d)
    (.poolSelect hPre ?_ ?_) ?_
  · intro l
    cases l with
    | nil => exact hQ none
    | cons r rs => exact hPre.and (stable_forall fun doc => (hQ _).imp _)
  · intro d hp hinv
    cases hl : d.committed.rows.filter fun r => hasId T id r.1 r.2 with
    | nil =>
      refine hnone d hp hinv fun row hrow hty => ?_
      have hmem : (id, row) ∈ d.committed.rows.filter fun r => hasId T id r.1 r.2 := by
        simp [hrow, hasId, hty]
      rw [hl] at hmem
      cases hmem
    | cons r rest =>
      obtain ⟨k, row⟩ := r
      have hmem : (k, row) ∈ d.committed.rows.filter fun r => hasId T id r.1 r.2 :=
        hl ▸ List.mem_cons_self
      simp only [List.mem_filter, Table.mem_rows, hasId, Bool.and_eq_true, beq_iff_eq] at hmem
      obtain ⟨hrow, rfl, hty⟩ := hmem
      exact ⟨hp, fun doc hd => hsome d row doc hp hinv hrow hty hd⟩
  · intro l
    cases l with
    | nil => exact .pure (hQ none) fun d h => h
    | cons r rs =>
      obtain ⟨k, row⟩ := r
      refine .bind (R := fun doc d => Q (some doc) d)
        (.orThrow (fun doc => hQ _) (fun _ => hPre) (fun doc hd d h => h.2 doc hd)
          fun _ _ _ h => h.1) ?_
      exact fun doc => .pure (hQ _) fun d h => h

theorem triple_findOne {field value : String} {Q : Option (Document T) → DbDurable ι D → Prop}
    (hPre : P.Stable i Pre) (hQ : ∀ r, P.Stable i (Q r))
    (hnone : ∀ d, Pre d → P.inv d → (∀ id row, d.committed.lookup id = some row →
      matchesIndex crypto T field value id row = false) → Q none d)
    (hsome : ∀ d id row doc, Pre d → P.inv d → d.committed.lookup id = some row →
      matchesIndex crypto T field value id row = true → rawToDocument T id row = .ok doc →
      Q (some doc) d) :
    P.Triple i Pre (DocumentStore.findOne crypto T field value) Q fun _ => Pre := by
  refine .bind (R := fun l d => (newest l).elim (Q none d) fun r =>
      Pre d ∧ ∀ doc, rawToDocument T r.1 r.2 = .ok doc → Q (some doc) d)
    (.poolSelect hPre ?_ ?_) ?_
  · intro l
    cases newest l with
    | none => exact hQ none
    | some r => exact hPre.and (stable_forall fun doc => (hQ _).imp _)
  · intro d hp hinv
    cases hl : newest (d.committed.rows.filter fun r =>
      matchesIndex crypto T field value r.1 r.2) with
    | none =>
      refine hnone d hp hinv fun id row hrow => ?_
      rw [newest_eq_none] at hl
      by_contra hm
      have hmem : (id, row) ∈ d.committed.rows.filter fun r =>
        matchesIndex crypto T field value r.1 r.2 := by
        simpa [hrow] using hm
      rw [hl] at hmem
      cases hmem
    | some r =>
      obtain ⟨k, row⟩ := r
      have hmem := newest_mem hl
      simp only [List.mem_filter, Table.mem_rows] at hmem
      exact ⟨hp, fun doc hd => hsome d k row doc hp hinv hmem.1 hmem.2 hd⟩
  · intro l
    cases hl : newest l with
    | none =>
      simp only
      exact .pure (hQ none) fun d h => h
    | some r =>
      obtain ⟨k, row⟩ := r
      refine .bind (R := fun doc d => Q (some doc) d)
        (.orThrow (fun doc => hQ _) (fun _ => hPre) (fun doc hd d h => h.2 doc hd)
          fun _ _ _ h => h.1) ?_
      exact fun doc => .pure (hQ _) fun d h => h

/-! ## Writing -/

section One

variable {s : DbState ι D}

/-- A transaction begins with nothing pending. -/
theorem safeE_beginIdle (hPre : P.Stable i Pre) (hp : Pre s.toDurable) :
    P.discipline.SafeE i (Sql.begin : ExceptT StoreError _ _)
      (fun _ t => Idle i t ∧ Pre t.toDurable) (fun _ t => Pre t.toDurable) s :=
  safeE_begin fun u hu => ⟨fun _ => always_durable hPre (hPre.finds _ u hp hu),
    always_idle hPre (idle_discard i u) (hPre.finds _ u hp hu)⟩

/-- The commit of a transaction that has written one row, and has had it locked since. -/
theorem safeE_commitOne {id : String} {w : Option (Row D)} {old : Option (Row D)}
    {Q : DbDurable ι D → Prop} (hPre : P.Stable i Pre) (hQ : P.Stable i Q) (hw : Wrote i s id w)
    (hold : s.committed.lookup id = old) (hp : Pre s.toDurable)
    (hcommit : ∀ t, P.inv t.toDurable → Pre t.toDurable → P.cond i .commit t → Wrote i t id w →
      t.committed.lookup id = old → history id t.log = history id s.log →
      P.Keeps i t Q) :
    P.discipline.SafeE i (Sql.commit : ExceptT StoreError _ _)
      (fun _ t => Q t.toDurable) (fun _ t => Pre t.toDurable) s := by
  refine safeE_commit fun t ht hc => ?_
  have hp := hPre.finds s t hp ht
  obtain ⟨hinv, hev, hq⟩ := hcommit t ht.inv hp hc (hw.finds ht) ((ht.held hw.isSome).trans hold)
    (ht.toRely.history hw.isSome)
  exact ⟨fun _ => always_durable hPre hp, hinv, hev, always_durable hQ hq⟩

/-- The commit of a transaction that has written nothing. -/
theorem safeE_commitNothing (hPre : P.Stable i Pre) (hidle : Idle i s) (hp : Pre s.toDurable) :
    P.discipline.SafeE i (Sql.commit : ExceptT StoreError _ _)
      (fun _ t => Pre t.toDurable) (fun _ t => Pre t.toDurable) s := by
  refine safeE_commit fun t ht _ => ?_
  have hp := hPre.finds s t hp ht
  have hd := (hidle.finds ht).install
  refine ⟨fun _ => always_durable hPre hp, hd.symm ▸ ht.inv, hd.symm ▸ P.evolves_refl _,
    always_durable hPre ?_⟩
  rw [hd]
  exact hp

end One

/-- A guarded write, in a transaction of its own. -/
theorem triple_compareAndUpdate {id : String} {v : Int} {doc : T} {Q : Bool → DbDurable ι D → Prop}
    (hPre : P.Stable i Pre) (hQ : ∀ b, P.Stable i (Q b))
    (hfalse : ∀ d, Pre d → Q false d)
    (hcommit : ∀ t now old, P.inv t.toDurable → Pre t.toDurable → P.cond i .commit t →
      Wrote i t id (some (rewriteRow crypto doc now (nextVersion v) old)) →
      t.committed.lookup id = some old → old.version = v →
      P.Keeps i t (Q true)) :
    P.Triple i Pre (DocumentStore.compareAndUpdate crypto id v doc) Q fun _ => Pre := by
  refine .retrying hPre hQ _ fun s hs hp => ?_
  refine .bind (safeE_now fun t ht now hnow => always_safeE ?_)
  have hp := hPre.tick _ now hnow (hPre.finds s t hp ht)
  refine (safeE_beginIdle hPre hp).andThen fun _ u hu => ?_
  refine .bind (safeE_update fun t ht _ => ?_)
  have hidle := hu.1.finds ht
  have hp := hPre.finds u t hu.2 ht
  refine ⟨fun _ => always_durable hPre hp, fun _ => always_safeE ?_,
    fun old hold hv _ => always_safeE ?_⟩
  · exact safeE_pure (always_durable (hQ false) (hfalse _ hp))
  · rw [hidle.lookup_visible] at hold
    have hw := wrote_write hidle id (some (rewriteRow crypto doc now (nextVersion v) old))
    refine .bind (safeE_orThrow (fun _ _ => always_safeE ?_)
      fun _ _ => always_durable (s := t.write i id _) hPre hp)
    refine (safeE_commitOne (s := t.write i id _) hPre (hQ true) hw hold hp
      fun u hinv hp hc hw hold _ => hcommit u now old hinv hp hc hw hold
        (by simpa using hv)).andThen fun _ t hq => ?_
    exact safeE_pure (always_durable (hQ true) hq)

/-! ## Guarded writes of a list of documents -/

section Writing

/-- What the guarded writes of the documents `all`, one after the other, can be seen to do: `S done`
holds after the writes of `done`, and whenever it holds, so does what a failure leaves. -/
structure Writing (P : DbProtocol ι D) (i : ι) (crypto : DocumentCrypto)
    (now : Timestamp) (all : List (Document T))
    (S : List (Document T) → DbState ι D → Prop)
    (Pre : DbDurable ι D → Prop) : Prop where
  stable : P.Stable i Pre
  finds : ∀ {done s t}, S done s → P.Finds i s t → S done t
  known : ∀ {done t}, S done t → Pre t.toDurable
  write : ∀ {done doc rest t cur o}, all = done ++ doc :: rest → S done t → P.inv t.toDurable →
    P.cond i o t → (t.visible i).lookup doc.id = some cur → cur.version = doc.version →
    S (done ++ [doc])
      (t.write i doc.id (some (rewriteRow crypto doc.data now (nextVersion doc.version) cur)))

variable {now : Timestamp} {all done : List (Document T)} {s : DbState ι D}
  {S : List (Document T) → DbState ι D → Prop} {modifier : T → T}

variable {docs : List (Document T)}

/-- The documents keep their ids. -/
theorem modified_ids {f : T → T} :
    (docs.map fun doc => { doc with data := f doc.data }).map (·.id) = docs.map (·.id) := by
  rw [List.map_map]
  rfl

/-- Where ids do not repeat, the document to write next is not one of those written. -/
theorem not_written {rest : List (Document T)} {doc : Document T} (hnd : (docs.map (·.id)).Nodup)
    (hsplit : (docs.map fun doc => { doc with data := modifier doc.data }) = done ++ doc :: rest) :
    doc.id ∉ done.map (·.id) := by
  rw [← modified_ids (f := modifier), hsplit, List.map_append, List.map_cons] at hnd
  exact fun hc => (List.nodup_append.mp hnd).2.2 _ hc _ List.mem_cons_self rfl

theorem Writing.updateBatch (hw : Writing P i crypto now all S Pre) (docs : List (Document T))
    {rest : List (Document T)} (hall : all = done ++ (docs ++ rest)) (h : S done s) :
    P.discipline.SafeE i (StoreTransaction.updateBatch crypto now docs)
      (fun _ => S (done ++ docs)) (fun _ t => Pre t.toDurable) s := by
  induction docs generalizing done s with
  | nil =>
    rw [List.append_nil]
    exact safeE_pure (always_of_finds fun t ht => hw.finds h ht)
  | cons doc docs ih =>
    refine .bind (safeE_update fun t ht hc => ?_)
    have hp := hw.known (hw.finds h ht)
    refine ⟨fun _ => always_durable hw.stable hp, fun _ => always_safeE ?_,
      fun cur hcur hv _ => always_safeE ?_⟩
    · exact safeE_throw (always_durable hw.stable hp)
    · have hwrite := hw.write hall (hw.finds h ht) ht.inv hc hcur (by simpa using hv)
      rw [List.cons_append, List.append_cons] at hall
      have := ih hall hwrite
      rwa [← List.append_cons] at this

theorem Writing.updateBatches (hw : Writing P i crypto now all S Pre)
    (batches : List (List (Document T)))
    (hall : all = done ++ batches.flatten.map fun doc => { doc with data := modifier doc.data })
    (h : S done s) :
    P.discipline.SafeE i (StoreTransaction.updateBatches crypto modifier now batches)
      (fun _ => S all) (fun _ t => Pre t.toDurable) s := by
  induction batches generalizing done s with
  | nil =>
    rw [List.flatten_nil, List.map_nil, List.append_nil] at hall
    subst hall
    exact safeE_pure (always_of_finds fun t ht => hw.finds h ht)
  | cons batch rest ih =>
    refine .bind (safeE_orThrow (fun _ _ => always_safeE ?_)
      fun _ _ => always_durable hw.stable (hw.known h))
    rw [List.flatten_cons, List.map_append] at hall
    refine .bind (.mono (hw.updateBatch _ hall h) (fun _ t _ ht => ?_) fun _ _ _ h => h)
    rw [← List.append_assoc] at hall
    exact ih hall ht

/-- All of them, in the batches of `updateByIndex`. -/
theorem Writing.updateAll
    (hw : Writing P i crypto now (docs.map fun doc => { doc with data := modifier doc.data }) S Pre)
    (h : S [] s) :
    P.discipline.SafeE i
      (StoreTransaction.updateBatches crypto modifier now (chunks updateByIndexBatch docs []))
      (fun _ => S (docs.map fun doc => { doc with data := modifier doc.data }))
      (fun _ t => Pre t.toDurable) s := by
  refine hw.updateBatches _ ?_ h
  rw [chunks_flatten, List.reverse_nil, List.nil_append, List.nil_append]

end Writing

/-! ## Inside a transaction -/

section Transaction

variable {R : String → List (DbChange ι D) → Option (Row D) → Option (Row D) → Prop}
  {K : DbDurable ι D → Prop} {s : DbState ι D}

/-- Refusing an index value changes nothing. -/
theorem inTx_orThrow {ε α : Type} {x : Except ε α} (h : InTx R K i s) (hK : P.Stable i K) :
    P.discipline.SafeE i (orThrow x) (fun _ => InTx R K i) (fun _ t => K t.toDurable) s :=
  safeE_orThrow (fun _ _ => always_inTx h hK) fun _ _ => always_durable hK h.known

theorem inTx_insertWithId {id : String} {doc : T} (h : InTx R K i s) (hK : P.Stable i K)
    (hR : ∀ t now, P.inv t.toDurable → InTx R K i t →
      P.cond i (.insert id (newRow crypto doc now)) t → (t.visible i).lookup id = none →
      R id (history id t.log) (t.committed.lookup id) (some (newRow crypto doc now))) :
    P.discipline.SafeE i (StoreTransaction.insertWithId crypto id doc)
      (fun r t => InTx R K i t ∧ r.id = id ∧ r.data = doc) (fun _ t => K t.toDurable) s := by
  refine (h.now hK).andThen fun now t ht => ?_
  refine (ht.insert hK fun u hinv hu hc hnone => hR u now hinv hu hc hnone).andThen fun _ t ht => ?_
  refine (inTx_orThrow ht hK).andThen fun _ t ht => ?_
  exact safeE_pure ((always_inTx ht hK).mono fun t ht => ⟨ht, rfl, rfl⟩)

theorem inTx_delete {id : String} (h : InTx R K i s) (hK : P.Stable i K)
    (hR : ∀ t cur, P.inv t.toDurable → InTx R K i t → (t.visible i).lookup id = some cur →
      R id (history id t.log) (t.committed.lookup id) none) :
    P.discipline.SafeE i (StoreTransaction.delete id)
      (fun _ => InTx R K i) (fun _ t => K t.toDurable) s := by
  refine (h.delete hK fun t k cur hinv ht hcur hk => ?_).andThen fun _ t ht => ?_
  · obtain rfl : k = id := by simpa using hk
    exact hR t cur hinv ht hcur
  · exact safeE_pure (always_inTx ht hK)

/-- The statements that delete some ids. -/
theorem inTx_deleteIds (batches : List (List String)) (h : InTx R K i s) (hK : P.Stable i K)
    (hR : ∀ t k cur, P.inv t.toDurable → InTx R K i t → k ∈ batches.flatten →
      (t.visible i).lookup k = some cur →
      R k (history k t.log) (t.committed.lookup k) none) :
    P.discipline.SafeE i (StoreTransaction.deleteIds batches)
      (fun _ => InTx R K i) (fun _ t => K t.toDurable) s := by
  induction batches generalizing s with
  | nil => exact safeE_pure (always_inTx h hK)
  | cons batch rest ih =>
    refine (h.delete hK fun t k cur hinv ht hcur hk => ?_).andThen fun _ t ht => ?_
    · refine hR t k cur hinv ht ?_ hcur
      rw [List.flatten_cons]
      exact List.mem_append_left _ (by simpa using hk)
    · refine ih ht fun t k cur hinv ht hk hcur => hR t k cur hinv ht ?_ hcur
      rw [List.flatten_cons]
      exact List.mem_append_right _ hk

/-- A scan for every document with an index entry: `F` is what is learnt of the id of each. -/
theorem inTx_findAll {field value : String} {F : Document T → DbDurable ι D → Prop}
    (h : InTx R K i s) (hK : P.Stable i K) (hF : ∀ doc, P.Stable i (F doc))
    (hfound : ∀ t row doc, P.inv t.toDurable → InTx R K i t →
      (t.visible i).lookup doc.id = some row →
      matchesIndex crypto T field value doc.id row = true → rawToDocument T doc.id row = .ok doc →
      F doc t.toDurable) :
    P.discipline.SafeE i (StoreTransaction.findAll crypto T field value)
      (fun docs => InTx R (fun d => K d ∧ ∀ doc ∈ docs, F doc d) i)
        (fun _ t => K t.toDurable) s := by
  let Facts (docs : List (Document T)) (d : DbDurable ι D) : Prop :=
    ∀ doc, doc ∈ docs → F doc d
  have hFacts : ∀ docs, P.Stable i (Facts docs) := fun docs =>
    stable_forall fun doc => (hF doc).imp _
  refine (h.select (L := fun l d => K d ∧ ∀ docs : List (Document T),
    l.mapM (fun r => rawToDocument T r.1 r.2) = .ok docs → Facts docs d) hK
    (fun l => hK.and (stable_forall fun docs => (hFacts docs).imp _))
    fun t hinv ht => ⟨ht.known, fun docs hdocs doc hdoc => ?_⟩).andThen fun l t ht => ?_
  · obtain ⟨row, hrow, hraw⟩ := (mapM_rawToDocument_eq_ok hdocs).2 doc hdoc
    obtain ⟨hvis, hm⟩ := Db.mem_scan.mp hrow
    exact hfound t row doc hinv ht hvis hm hraw
  · refine safeE_orThrow (fun docs hdocs => ?_) fun _ _ => always_durable hK ht.known.1
    exact always_inTx (ht.mono fun hk => ⟨hk.1, hk.2 docs hdocs⟩) (hK.and (hFacts docs))

/-- Deleting every document with an index entry. -/
theorem inTx_deleteByIndex {field value : String} {F : String → DbDurable ι D → Prop}
    (h : InTx R K i s) (hK : P.Stable i K) (hF : ∀ k, P.Stable i (F k))
    (hfound : ∀ t k row, P.inv t.toDurable → InTx R K i t → (t.visible i).lookup k = some row →
      matchesIndex crypto T field value k row = true → F k t.toDurable)
    (hR : ∀ t k cur, P.inv t.toDurable → InTx R K i t → F k t.toDurable →
      (t.visible i).lookup k = some cur → R k (history k t.log) (t.committed.lookup k) none) :
    P.discipline.SafeE i (StoreTransaction.deleteByIndex crypto T field value)
      (fun _ => InTx R K i) (fun _ t => K t.toDurable) s := by
  refine (inTx_findAll (F := fun doc : Document T => F doc.id) h hK (fun doc => hF doc.id)
    fun t row doc hinv ht hvis hm _ => hfound t doc.id row hinv ht hvis hm).andThen
      fun docs t ht => ?_
  have hK' : P.Stable i fun d => K d ∧ ∀ doc : Document T, doc ∈ docs → F doc.id d :=
    hK.and (stable_forall fun doc => (hF doc.id).imp _)
  refine .bind ((inTx_deleteIds _ ht hK' fun t k cur hinv ht hk hcur => ?_).mono
    (fun _ t _ ht => ?_) fun _ _ _ he => he.1)
  · rw [chunks_flatten, List.reverse_nil, List.nil_append] at hk
    obtain ⟨doc, hdoc, rfl⟩ := List.mem_map.mp hk
    exact hR t doc.id cur hinv (ht.mono And.left) (ht.known.2 doc hdoc) hcur
  · exact safeE_pure (always_inTx (ht.mono And.left) hK)

/-- What the scan of `updateByIndex` leaves known of a document it has still to write. -/
def StillSeen (crypto : DocumentCrypto) (field value : String) (i : ι) (doc : Document T)
    (t : DbState ι D) : Prop :=
  ∃ row, matchesIndex crypto T field value doc.id row = true ∧
    rawToDocument T doc.id row = .ok doc ∧ Seen i doc.id row t

section UpdateByIndex

variable {field value : String} {modifier : T → T}

theorem StillSeen.finds (hver : ∀ d, P.inv d → VersionedLog d.log) {doc : Document T}
    {t : DbState ι D} (h : StillSeen crypto field value i doc s) (ht : P.Finds i s t) :
    StillSeen crypto field value i doc t := by
  obtain ⟨row, hm, hraw, hrow⟩ := h
  exact ⟨row, hm, hraw, hrow.finds hver ht⟩

/-- Rewriting every document with an index entry: each is written as the modifier makes it of the
row it replaces. -/
theorem inTx_updateByIndex (hver : ∀ d, P.inv d → VersionedLog d.log) (h : InTx R K i s)
    (hK : P.Stable i K)
    (hR : ∀ t o k cur data now, P.inv t.toDurable → InTx R K i t → P.cond i o t →
      (t.visible i).lookup k = some cur → matchesIndex crypto T field value k cur = true →
      DocumentType.fromData cur.data = some data →
      R k (history k t.log) (t.committed.lookup k)
        (some (rewriteRow crypto (modifier data) now (nextVersion cur.version) cur))) :
    P.discipline.SafeE i (StoreTransaction.updateByIndex crypto field value modifier)
      (fun _ => InTx R K i) (fun _ t => K t.toDurable) s := by
  refine .bind (.bind (safeE_select fun t ht => ?_))
  have ht := h.finds hK ht
  refine ⟨fun _ => always_durable hK ht.known, always_safeE ?_⟩
  refine safeE_orThrow (fun docs hdocs => always_safeE ?_)
    fun _ _ => always_durable (s := t.read i _ _) hK ht.known
  obtain ⟨hids, hmem⟩ := mapM_rawToDocument_eq_ok hdocs
  have hnd : (docs.map (·.id)).Nodup := hids ▸ t.scan_keys_nodup i _
  have hseen : ∀ doc ∈ docs, StillSeen crypto field value i doc
      (t.read i (matchesIndex crypto T field value)
        (t.scan i (matchesIndex crypto T field value))) := by
    intro doc hdoc
    obtain ⟨row, hrow, hraw⟩ := hmem doc hdoc
    obtain ⟨hvis, hm⟩ := Db.mem_scan.mp hrow
    exact ⟨row, hm, hraw, Seen.of_visible hvis⟩
  refine .bind (safeE_now fun u hu now hnow => always_safeE ?_)
  have hseen : ∀ doc ∈ docs, StillSeen crypto field value i doc u :=
    fun doc hdoc => (hseen doc hdoc).finds hver hu
  have hu := InTx.finds (s := t.read i _ _) ⟨ht.pending, ht.known⟩ hK hu
  -- What is not written yet is still as the scan saw it.
  have hwriting :
    Writing P i crypto now (docs.map fun doc => { doc with data := modifier doc.data })
      (fun done t => InTx R K i t ∧ ∀ doc : Document T, doc ∈ docs → doc.id ∉ done.map (·.id) →
        StillSeen crypto field value i doc t) K := by
    refine ⟨hK, fun hs ht =>
      ⟨hs.1.finds hK ht, fun doc hdoc hnew => (hs.2 doc hdoc hnew).finds hver ht⟩,
      fun h => h.1.known, ?_⟩
    intro done doc rest t cur o hsplit hs hinv hc hcur hv
    have hnew := not_written hnd hsplit
    obtain ⟨doc, hdoc, rfl⟩ :=
      List.mem_map.mp (hsplit ▸ List.mem_append_right done List.mem_cons_self)
    obtain ⟨row, hm, hraw, hrow⟩ := hs.2 doc hdoc hnew
    obtain ⟨-, hdv, hdata⟩ := rawToDocument_eq_ok hraw
    obtain rfl := hrow.eq hcur (hv.trans hdv)
    have hw := hs.1.pending.write (hR t o doc.id cur doc.data now hinv hs.1 hc hcur hm hdata)
    rw [← hdv] at hw
    refine ⟨⟨hw, hs.1.known⟩, fun d hd hdnew => ?_⟩
    rw [List.map_append, List.mem_append, not_or, List.map_singleton, List.mem_singleton] at hdnew
    obtain ⟨row, hm, hraw, hrow⟩ := hs.2 d hd hdnew.1
    exact ⟨row, hm, hraw, hrow.write hdnew.2⟩
  refine (hwriting.updateAll (s := { u with clock := now }) ⟨⟨hu.pending,
    hK.tick _ now hnow hu.known⟩, fun doc hdoc _ => hseen doc hdoc⟩).andThen fun _ t ht => ?_
  exact safeE_pure (always_inTx ht.1 hK)

end UpdateByIndex

end Transaction

/-- An insertion in a transaction of its own. -/
theorem safeE_insertion {R : String → List (DbChange ι D) → Option (Row D) → Option (Row D) → Prop}
    {id : String} {doc : T} {Q : Document T → DbDurable ι D → Prop} {s : DbState ι D}
    (hPre : P.Stable i Pre) (hQ : ∀ r, P.Stable i (Q r)) (hs : Pre s.toDurable)
    (hR : ∀ t now, P.inv t.toDurable → InTx R Pre i t →
      P.cond i (.insert id (newRow crypto doc now)) t → (t.visible i).lookup id = none →
      R id (history id t.log) (t.committed.lookup id) (some (newRow crypto doc now)))
    (hcommit : ∀ t, P.inv t.toDurable → InTx R Pre i t → P.cond i .commit t →
      P.Keeps i t fun d => ∀ r : Document T, r.id = id → r.data = doc → Q r d) :
    P.discipline.SafeE i (do
        Sql.begin
        let result ← StoreTransaction.insertWithId crypto id doc
        Sql.commit
        pure result)
      (fun r t => Q r t.toDurable) (fun _ t => Pre t.toDurable) s := by
  refine (InTx.begin (R := R) hs hPre).andThen fun _ t ht => ?_
  refine (inTx_insertWithId ht hPre hR).andThen fun r t ht => ?_
  obtain ⟨ht, hid, hdoc⟩ := ht
  refine (ht.commit hPre (hQ r) fun t hinv ht hc => ?_).andThen fun _ t ht => ?_
  · obtain ⟨hinv, hev, hq⟩ := hcommit t hinv ht hc
    exact ⟨hinv, hev, hq r hid hdoc⟩
  · exact safeE_pure (always_durable (hQ r) ht)

section Insertion

variable {R : String → List (DbChange ι D) → Option (Row D) → Option (Row D) → Prop}
  {doc : T} {Q : Document T → DbDurable ι D → Prop}

theorem triple_insertWithId {id : String}
    (hPre : P.Stable i Pre) (hQ : ∀ r, P.Stable i (Q r))
    (hR : ∀ t now, P.inv t.toDurable → InTx R Pre i t →
      P.cond i (.insert id (newRow crypto doc now)) t → (t.visible i).lookup id = none →
      R id (history id t.log) (t.committed.lookup id) (some (newRow crypto doc now)))
    (hcommit : ∀ t, P.inv t.toDurable → InTx R Pre i t → P.cond i .commit t →
      P.Keeps i t fun d => ∀ r : Document T, r.id = id → r.data = doc → Q r d) :
    P.Triple i Pre (DocumentStore.insertWithId crypto id doc) Q fun _ => Pre :=
  .retrying hPre hQ _ fun _ _ hp => safeE_insertion hPre hQ hp hR hcommit

theorem triple_insert
    (hPre : P.Stable i Pre) (hQ : ∀ r, P.Stable i (Q r))
    (hR : ∀ id t now, P.inv t.toDurable → InTx R Pre i t →
      P.cond i (.insert id (newRow crypto doc now)) t → (t.visible i).lookup id = none →
      R id (history id t.log) (t.committed.lookup id) (some (newRow crypto doc now)))
    (hcommit : ∀ id t, P.inv t.toDurable → InTx R Pre i t → P.cond i .commit t →
      P.Keeps i t fun d => ∀ r : Document T, r.id = id → r.data = doc → Q r d) :
    P.Triple i Pre (DocumentStore.insert crypto doc) Q fun _ => Pre := by
  refine .retrying hPre hQ _ fun s _ hp => ?_
  refine .bind (safeE_newId fun t ht id => always_safeE ?_)
  exact safeE_insertion hPre hQ (hPre.finds s t hp ht) (hR id) (hcommit id)

/-- An insertion on its own, told what its commit writes: `F` is what held of the id's history when
the row went in, and holds still, since the id is locked from there on. -/
theorem triple_insertRow {id : String} {F : List (DbChange ι D) → Row D → Prop}
    (hPre : P.Stable i Pre) (hQ : ∀ r, P.Stable i (Q r))
    (hF : ∀ t now, P.inv t.toDurable → Pre t.toDurable →
      P.cond i (.insert id (newRow crypto doc now)) t → t.committed.lookup id = none →
      F (history id t.log) (newRow crypto doc now))
    (hcommit : ∀ t now, P.inv t.toDurable → Pre t.toDurable → P.cond i .commit t →
      Wrote i t id (some (newRow crypto doc now)) → t.committed.lookup id = none →
      F (history id t.log) (newRow crypto doc now) →
      P.Keeps i t fun d => ∀ r : Document T, r.id = id → r.data = doc → Q r d) :
    P.Triple i Pre (DocumentStore.insertWithId crypto id doc) Q fun _ => Pre := by
  refine .retrying hPre hQ _ fun s _ hp => ?_
  refine (safeE_beginIdle hPre hp).andThen fun _ u hu => ?_
  refine .bind (.bind (safeE_now fun t ht now hnow => always_safeE ?_))
  have hidle : Idle i t := hu.1.finds ht
  have hp := hPre.tick _ now hnow (hPre.finds u t hu.2 ht)
  refine .bind (safeE_insert fun v hv hc => ?_)
  have hidle : Idle i v := Idle.finds (s := { t with clock := now }) hidle hv
  have hp : Pre v.toDurable := hPre.finds { t with clock := now } v hp hv
  refine ⟨fun _ => always_durable hPre hp, fun _ => always_durable hPre hp,
    fun _ hnone => always_safeE ?_⟩
  rw [hidle.lookup_visible] at hnone
  have hf := hF v now hv.inv hp hc hnone
  have hw := wrote_write hidle id (some (newRow crypto doc now))
  refine .bind (safeE_orThrow (fun _ _ => always_safeE ?_)
    fun _ _ => always_durable (s := v.write i id _) hPre hp)
  refine safeE_pure (always_safeE ?_)
  refine (safeE_commitOne (s := v.write i id _) hPre
    (stable_forall fun r => .imp (.imp (hQ r) _) _) hw hnone hp
    fun x hinv hp hc hw hnone hhist => hcommit x now hinv hp hc hw hnone (hhist ▸ hf)).andThen
      fun _ t hq => ?_
  exact safeE_pure (always_durable (hQ _) (hq _ rfl rfl))

end Insertion

/-- Stamping a row as used: nothing else about it changes. -/
theorem triple_updateLastUsedAt {id : String} (hPre : P.Stable i Pre)
    (hcommit : ∀ t now old, P.inv t.toDurable → Pre t.toDurable → P.cond i .commit t →
      Wrote i t id (some { old with lastUsedAt := some now }) →
      t.committed.lookup id = some old →
      P.Keeps i t Pre) :
    P.Triple i Pre (DocumentStore.updateLastUsedAt id)
      (fun _ => Pre) (fun _ => Pre) := by
  refine .retrying hPre (fun _ => hPre) _ fun s _ hp => ?_
  refine .bind (safeE_now fun t ht now hnow => always_safeE ?_)
  have hp := hPre.tick _ now hnow (hPre.finds s t hp ht)
  refine (safeE_beginIdle hPre hp).andThen fun _ u hu => ?_
  refine .bind (safeE_update fun t ht _ => ?_)
  have hidle := hu.1.finds ht
  have hp := hPre.finds u t hu.2 ht
  refine ⟨fun _ => always_durable hPre hp, fun _ => always_safeE ?_,
    fun old hold _ _ => always_safeE ?_⟩
  · exact safeE_commitNothing hPre hidle hp
  · rw [hidle.lookup_visible] at hold
    exact safeE_commitOne (s := t.write i id _) hPre hPre (wrote_write hidle id _) hold hp
      fun v hinv hp hc hw hold _ => hcommit v now old hinv hp hc hw hold

/-! ## Transitions -/

section Transitions

variable {A R : Type} {id : String} {decide : Timestamp → T → Except R (A × T)}

section Versioned

variable {Q : Transition (A × Int) R → DbDurable ι D → Prop}
  (hver : ∀ d, P.inv d → VersionedLog d.log)
  (hPre : P.Stable i Pre) (hQ : ∀ r, P.Stable i (Q r))
  (hnotFound : ∀ d, Pre d → Q .notFound d)
  (hrejected : ∀ now data r d, decide now data = .error r → Pre d → Q (.rejected r) d)
  (hcommit : ∀ t now now' old data a data', P.inv t.toDurable → Pre t.toDurable →
    P.cond i .commit t → (∃ d, Pre d ∧ d.clock ≤ now) →
    Wrote i t id (some (rewriteRow crypto data' now' (nextVersion old.version) old)) →
    t.committed.lookup id = some old → old.docType = DocumentType.docType T →
    DocumentType.fromData old.data = some data → decide now data = .ok (a, data') →
    P.Keeps i t (Q (.applied (a, nextVersion old.version))))

include hver hPre hQ hnotFound hrejected hcommit

/-- One attempt of a transition: what it commits was decided on the row it replaces. -/
theorem triple_transitionAttempt :
    P.Triple i Pre (DocumentStore.transitionAttempt crypto id decide)
      (fun r d => match r with | some outcome => Q outcome d | none => Pre d) fun _ => Pre := by
  -- After the read: the row is still there, or has a later version.
  let Known (doc : Document T) (d : DbDurable ι D) : Prop :=
    Pre d ∧ ∃ row, (row.docType = DocumentType.docType T ∧ rawToDocument T id row = .ok doc) ∧
      Read id row d
  have hKnown : ∀ doc, P.Stable i (Known doc) := fun doc => hPre.and <| stable_exists fun row =>
    (stable_const P i _).and (stable_read hver id row)
  refine .bind (R := fun r d => r.elim (Pre d) fun doc => Known doc d)
    (triple_get hPre ?_ (fun d hp _ _ => hp)
      fun d row doc hp _ hrow hty hd => ⟨hp, row, ⟨hty, hd⟩, .inl hrow⟩) ?_
  · intro r
    cases r with
    | none => exact hPre
    | some doc => exact hKnown doc
  · intro r
    cases r with
    | none => exact .pure (hQ _) hnotFound
    | some doc =>
      -- The clock is read when `Pre` holds already.
      refine .bind (R := fun now d => Known doc d ∧ ∃ d₀, Pre d₀ ∧ d₀.clock ≤ now)
        (.now (hKnown doc) (fun _ => (hKnown doc).and (stable_const P i _))
          fun d c hc h => ⟨(hKnown doc).tick d c hc h, d, h.1, hc⟩) ?_
      intro now
      cases hd : decide now doc.data with
      | error r =>
        simp only
        exact .pure (hQ _) fun d h => hrejected now doc.data r d hd h.1.1
      | ok x =>
        obtain ⟨a, data'⟩ := x
        simp only
        refine .bind (R :=
          fun won d => if won then Q (.applied (a, nextVersion doc.version)) d else Pre d)
          (.forget (triple_compareAndUpdate ((hKnown doc).and (stable_const P i _)) ?_ ?_ ?_)
            fun _ _ h => h.1.1) ?_
        · intro won
          cases won with
          | false => exact hPre
          | true => exact hQ _
        · exact fun d h => h.1.1
        · intro t now' old hinv hk hc hw hold hv
          obtain ⟨⟨hp, row, ⟨hty, hraw⟩, hread⟩, hnow⟩ := hk
          obtain ⟨-, hdv, hdata⟩ := rawToDocument_eq_ok hraw
          obtain rfl := hread.eq hold (hv.trans hdv)
          rw [hdv] at hw ⊢
          exact hcommit t now now' old doc.data a data' hinv hp hc hnow hw hold hty hdata hd
        · intro won
          cases won with
          | false => exact .pure hPre fun d h => h
          | true => exact .pure (hQ _) fun d h => h

theorem triple_transitionVersioned :
    P.Triple i Pre (DocumentStore.transitionVersioned crypto id decide) Q fun _ => Pre := by
  have hattempt := triple_transitionAttempt hver hPre hQ hnotFound hrejected hcommit
  suffices h : ∀ n, P.Triple i Pre (DocumentStore.transitionAttempts crypto id decide n) Q
    (fun _ => Pre) from h _
  intro n
  induction n with
  | zero =>
    refine .bind hattempt fun r => ?_
    cases r with
    | none => exact .throw hPre fun _ h => h
    | some outcome => exact .pure (hQ outcome) fun d h => h
  | succ n ih =>
    refine .bind hattempt fun r => ?_
    cases r with
    | none => exact ih
    | some outcome => exact .pure (hQ outcome) fun d h => h

end Versioned

theorem triple_transition (hver : ∀ d, P.inv d → VersionedLog d.log)
    {Q : Transition A R → DbDurable ι D → Prop} (hPre : P.Stable i Pre) (hQ : ∀ r, P.Stable i (Q r))
    (hnotFound : ∀ d, Pre d → Q .notFound d)
    (hrejected : ∀ now data r d, decide now data = .error r → Pre d → Q (.rejected r) d)
    (hcommit : ∀ t now now' old data a data', P.inv t.toDurable → Pre t.toDurable →
      P.cond i .commit t → (∃ d, Pre d ∧ d.clock ≤ now) →
      Wrote i t id (some (rewriteRow crypto data' now' (nextVersion old.version) old)) →
      t.committed.lookup id = some old → old.docType = DocumentType.docType T →
      DocumentType.fromData old.data = some data → decide now data = .ok (a, data') →
      P.Keeps i t (Q (.applied a))) :
    P.Triple i Pre (DocumentStore.transition crypto id decide) Q fun _ => Pre := by
  let Q' : Transition (A × Int) R → DbDurable ι D → Prop
    | .applied (a, _), d => Q (.applied a) d
    | .rejected r, d => Q (.rejected r) d
    | .notFound, d => Q .notFound d
  have hQ' : ∀ r, P.Stable i (Q' r) := by
    intro r
    cases r with
    | applied a => exact hQ (.applied a.1)
    | rejected r => exact hQ (.rejected r)
    | notFound => exact hQ .notFound
  refine .bind (triple_transitionVersioned (Q := Q') hver hPre hQ' hnotFound hrejected
    hcommit) fun r => ?_
  cases r with
  | applied a => exact .pure (hQ _) fun d h => h
  | rejected r => exact .pure (hQ _) fun d h => h
  | notFound => exact .pure (hQ _) fun d h => h

theorem triple_modify (hver : ∀ d, P.inv d → VersionedLog d.log) {modifier : T → T}
    {Q : Bool → DbDurable ι D → Prop} (hPre : P.Stable i Pre) (hQ : ∀ b, P.Stable i (Q b))
    (hnotFound : ∀ d, Pre d → Q false d)
    (hcommit : ∀ t now old data, P.inv t.toDurable → Pre t.toDurable → P.cond i .commit t →
      Wrote i t id (some (rewriteRow crypto (modifier data) now (nextVersion old.version) old)) →
      t.committed.lookup id = some old → old.docType = DocumentType.docType T →
      DocumentType.fromData old.data = some data →
      P.Keeps i t (Q true)) :
    P.Triple i Pre (DocumentStore.modify crypto id modifier) Q fun _ => Pre := by
  let Q' : Transition Unit Empty → DbDurable ι D → Prop
    | .applied _, d => Q true d
    | .notFound, d => Q false d
  have hQ' : ∀ r, P.Stable i (Q' r) := by
    intro r
    cases r with
    | applied a => exact hQ true
    | rejected r => exact r.elim
    | notFound => exact hQ false
  refine .bind (triple_transition (Q := Q') hver hPre hQ' hnotFound
    (fun _ _ r => r.elim) ?_) fun r => ?_
  · intro t now now' old data a data' hinv hp hc _ hw hold hty hdata hd
    cases hd
    exact hcommit t now' old data hinv hp hc hw hold hty hdata
  · cases r with
    | applied a => exact .pure (hQ _) fun d h => h
    | rejected r => exact r.elim
    | notFound => exact .pure (hQ _) fun d h => h

end Transitions

/-! ## Rewriting by index -/

/-- What a transaction has pending after the guarded writes of some documents, and nothing else. -/
structure Rewrote (crypto : DocumentCrypto) (i : ι) (now : Timestamp) (done : List (Document T))
    (t : DbState ι D) : Prop where
  only : ∀ k, (t.own i k).isSome → k ∈ done.map (·.id)
  rows : ∀ doc ∈ done, ∃ old, t.committed.lookup doc.id = some old ∧ old.version = doc.version ∧
    t.own i doc.id = some (some (rewriteRow crypto doc.data now (nextVersion doc.version) old))

section Batches

variable {now : Timestamp} {done : List (Document T)} {s t : DbState ι D}

theorem Rewrote.of_idle (h : Idle i s) : Rewrote (T := T) crypto i now [] s := by
  refine ⟨fun k hk => ?_, fun _ hd => absurd hd List.not_mem_nil⟩
  rw [h] at hk
  cases hk

theorem Rewrote.finds (h : Rewrote crypto i now done s) (ht : P.Finds i s t) :
    Rewrote crypto i now done t := by
  refine ⟨fun k hk => h.only k (ht.own ▸ hk), fun doc hdoc => ?_⟩
  obtain ⟨old, hold, hv, hown⟩ := h.rows doc hdoc
  refine ⟨old, ?_, hv, by rw [ht.own, hown]⟩
  rw [ht.held (by rw [hown]; rfl), hold]

/-- A further document, not yet written. -/
theorem Rewrote.write (h : Rewrote crypto i now done s) {doc : Document T}
    (hdoc : doc.id ∉ done.map (·.id)) {old : Row D} (hold : (s.visible i).lookup doc.id = some old)
    (hv : old.version = doc.version) :
    Rewrote crypto i now (done ++ [doc])
      (s.write i doc.id (some (rewriteRow crypto doc.data now (nextVersion doc.version) old))) := by
  have hown : s.own i doc.id = none := by
    by_contra hc
    exact hdoc (h.only _ (Option.isSome_iff_ne_none.mpr hc))
  rw [Db.lookup_visible, hown, Option.getD_none] at hold
  refine ⟨fun k hk => ?_, fun d hd => ?_⟩
  · rw [Db.own_write_self] at hk
    rw [List.map_append, List.mem_append]
    split at hk
    · rename_i hkd
      exact .inr (by simp [hkd])
    · exact .inl (h.only k hk)
  · rcases List.mem_append.mp hd with hd | hd
    · obtain ⟨old', hold', hv', hown⟩ := h.rows d hd
      refine ⟨old', hold', hv', ?_⟩
      have hne : d.id ≠ doc.id := fun he => hdoc (he ▸ List.mem_map_of_mem hd)
      rw [Db.own_write_self, if_neg hne, hown]
    · rw [List.mem_singleton.mp hd]
      exact ⟨old, hold, hv, by rw [Db.own_write_self, if_pos rfl]⟩

end Batches

/-- A rewrite of every document with an index entry: at the commit each of them is still what the
modifier was applied to. -/
theorem triple_updateByIndex (hver : ∀ d, P.inv d → VersionedLog d.log) {field value : String}
    {modifier : T → T} {Q : Nat → DbDurable ι D → Prop} (hPre : P.Stable i Pre)
    (hQ : ∀ n, P.Stable i (Q n))
    (hcommit : ∀ (t : DbState ι D) now (docs : List (Document T)),
      P.inv t.toDurable → Pre t.toDurable → P.cond i .commit t → (docs.map (·.id)).Nodup →
      (∀ k, (t.own i k).isSome → k ∈ docs.map (·.id)) →
      (∀ doc ∈ docs, ∃ old, t.committed.lookup doc.id = some old ∧
        matchesIndex crypto T field value doc.id old = true ∧
        rawToDocument T doc.id old = .ok doc ∧
        t.own i doc.id = some (some (rewriteRow crypto (modifier doc.data) now
          (nextVersion old.version) old))) →
      P.Keeps i t (Q docs.length)) :
    P.Triple i Pre (DocumentStore.updateByIndex crypto field value modifier) Q fun _ => Pre := by
  refine .retrying hPre hQ _ fun s hs hp => ?_
  refine (safeE_beginIdle hPre hp).andThen fun _ u hu => ?_
  refine .bind (.bind (.bind (safeE_select fun t ht => ?_)))
  have hidle : Idle i t := hu.1.finds ht
  have hp := hPre.finds u t hu.2 ht
  refine ⟨fun _ => always_durable hPre hp, always_safeE ?_⟩
  refine safeE_orThrow (fun docs hdocs => always_safeE ?_)
    fun _ _ => always_durable (s := t.read i _ _) hPre hp
  obtain ⟨hids, hmem⟩ := mapM_rawToDocument_eq_ok hdocs
  have hnd : (docs.map (·.id)).Nodup := hids ▸ t.scan_keys_nodup i _
  -- What the scan found stays known: each row is there still, or has a later version.
  let Known (d : DbDurable ι D) : Prop := ∀ doc : Document T, doc ∈ docs →
    ∃ row, (matchesIndex crypto T field value doc.id row = true ∧
      rawToDocument T doc.id row = .ok doc) ∧
      Read doc.id row d
  have hKnown : P.Stable i fun d => Pre d ∧ Known d := hPre.and <| stable_forall fun doc =>
    .imp (stable_exists fun row => (stable_const P i _).and (stable_read hver doc.id row)) _
  have hk : Known t.toDurable := by
    intro doc hdoc
    obtain ⟨row, hrow, hd⟩ := hmem doc hdoc
    rw [Db.mem_scan, hidle.lookup_visible] at hrow
    exact ⟨row, ⟨hrow.2, hd⟩, .inl hrow.1⟩
  refine .bind (safeE_now fun v hv now hnow => always_safeE ?_)
  have hidle : Idle i v := Idle.finds (s := t.read i _ _) hidle hv
  have hpk := hKnown.tick _ now hnow (hKnown.finds (t.read i _ _) v ⟨hp, hk⟩ hv)
  have hnothing : Rewrote (T := T) crypto i now [] { v with clock := now } :=
    .of_idle (s := { v with clock := now }) hidle
  have hwriting :
    Writing P i crypto now (docs.map fun doc => { doc with data := modifier doc.data })
      (fun done t => Rewrote crypto i now done t ∧ Pre t.toDurable ∧ Known t.toDurable)
      fun d => Pre d ∧ Known d := by
    refine ⟨hKnown, fun hs ht => ⟨hs.1.finds ht, hKnown.finds _ _ hs.2 ht⟩, And.right, ?_⟩
    intro done doc rest t cur o hsplit hs _ _ hcur hv
    exact ⟨hs.1.write (not_written hnd hsplit) hcur hv, hs.2⟩
  refine .bind (.mono (hwriting.updateAll ⟨hnothing, hpk⟩) (fun _ w _ hw => ?_) fun _ _ _ h => h.1)
  obtain ⟨hw, hpk⟩ := hw
  refine safeE_pure (always_safeE ?_)
  refine .bind (safeE_commit fun x hx hc => ?_)
  have hw := hw.finds hx
  obtain ⟨hp, hk⟩ := hKnown.finds w x hpk hx
  obtain ⟨hinv, hev, hq⟩ := hcommit x now docs hx.inv hp hc hnd (modified_ids ▸ hw.only) (by
    intro doc hdoc
    obtain ⟨old, hold, hv, hown⟩ := hw.rows _ (List.mem_map_of_mem hdoc)
    obtain ⟨row, ⟨hm, hd⟩, hread⟩ := hk doc hdoc
    have hdv : doc.version = row.version := (rawToDocument_eq_ok hd).2.1
    obtain rfl := hread.eq hold (hv.trans hdv)
    exact ⟨old, hold, hm, hd, hdv ▸ hown⟩)
  exact ⟨fun _ => always_durable hPre hp, hinv, hev,
    always_safeE (safeE_pure (always_durable (hQ _) hq))⟩

/-! ## Deleting -/

/-- The claim of a record by deleting it: one statement, won by whoever removes the row. -/
theorem triple_deleteIfNotExpired {id : String} {now : Timestamp} {Q : Bool → DbDurable ι D → Prop}
    (hPre : P.Stable i Pre) (hQ : ∀ b, P.Stable i (Q b)) (hfalse : ∀ d, Pre d → Q false d)
    (hcommit : ∀ t old, P.inv t.toDurable → Pre t.toDurable → P.cond i .commit t →
      Wrote i t id none → t.committed.lookup id = some old →
      StoreTransaction.notExpiredAt now old = true →
      P.Keeps i t (Q true)) :
    P.Triple i Pre (DocumentStore.deleteIfNotExpired id now) Q fun _ => Pre := by
  refine .retrying hPre hQ _ fun s hs hp => ?_
  refine (safeE_beginIdle hPre hp).andThen fun _ u hu => ?_
  refine .bind (.bind (safeE_delete fun t ht _ => ?_))
  have hidle := hu.1.finds ht
  have hp := hPre.finds u t hu.2 ht
  refine ⟨fun _ => always_durable hPre hp, fun _ => always_safeE ?_⟩
  rw [Db.scan_id, hidle.lookup_visible]
  -- Either one row goes, or the commit below has nothing to do.
  have hnothing : P.discipline.SafeE i (do Sql.commit; pure false : ExceptT StoreError (DbM D) Bool)
      (fun b t => Q b t.toDurable) (fun _ t => Pre t.toDurable) t := by
    refine (safeE_commitNothing hPre hidle hp).andThen fun _ u hp => ?_
    exact safeE_pure (always_durable (hQ false) (hfalse _ hp))
  cases hold : t.committed.lookup id with
  | none => exact safeE_pure (always_safeE hnothing)
  | some old =>
    simp only
    split
    · rename_i hne
      refine safeE_pure (always_safeE ?_)
      refine (safeE_commitOne (s := t.write i id none) hPre (hQ true)
        (wrote_write hidle id none) hold hp fun u hinv hp hc hw hold _ =>
        hcommit u old hinv hp hc hw hold hne).andThen fun _ t hq => ?_
      exact safeE_pure (always_durable (hQ true) hq)
    · exact safeE_pure (always_safeE hnothing)

/-- Deleting a document by its id. -/
theorem triple_delete
    {R : String → List (DbChange ι D) → Option (Row D) →
      Option (Row D) → Prop} {id : String} (hPre : P.Stable i Pre)
    (hR : ∀ t cur, P.inv t.toDurable → InTx R Pre i t → (t.visible i).lookup id = some cur →
      R id (history id t.log) (t.committed.lookup id) none)
    (hcommit : ∀ t, P.inv t.toDurable → InTx R Pre i t → P.cond i .commit t →
      P.Keeps i t Pre) :
    P.Triple i Pre (DocumentStore.delete id) (fun _ => Pre)
      (fun _ => Pre) := by
  refine .retrying hPre (fun _ => hPre) _ fun s _ hs => ?_
  refine (InTx.begin (R := R) hs hPre).andThen fun _ t ht => ?_
  refine (inTx_delete ht hPre hR).andThen fun _ t ht => ?_
  refine (ht.commit hPre hPre hcommit).andThen fun _ t ht => ?_
  exact safeE_pure (always_durable hPre ht)

/-! ### The expiry sweep -/

/-- An instant that has passed stays passed. -/
theorem stable_clock (P : DbProtocol ι D) (i : ι) (now : Timestamp) :
    P.Stable i fun d => now ≤ d.clock :=
  ⟨fun _ _ h ht => le_trans h ht.clock, fun _ _ hc h => le_trans h hc⟩

section Sweep

section At

variable
  {R : Timestamp → String → List (DbChange ι D) → Option (Row D) → Option (Row D) → Prop}
  (hPre : P.Stable i Pre)
  (hR : ∀ t k cur now, P.inv t.toDurable → InTx (R now) Pre i t → now ≤ t.clock →
    (t.visible i).lookup k = some cur → DocumentStore.expiredBefore now cur = true →
    R now k (history k t.log) (t.committed.lookup k) none)
  (hcommit : ∀ t now, P.inv t.toDurable → InTx (R now) Pre i t → now ≤ t.clock →
    P.cond i .commit t → P.Keeps i t Pre)

include hPre hR hcommit

/-- The batches of a sweep at an instant that has passed. -/
theorem safeE_sweepBatches {now : Timestamp} {s : DbState ι D} (batches : List (List String))
    (hs : Pre s.toDurable ∧ now ≤ s.clock) :
    P.discipline.SafeE i (DocumentStore.sweepBatches now batches)
      (fun _ t => Pre t.toDurable) (fun _ t => Pre t.toDurable) s := by
  induction batches generalizing s with
  | nil => exact safeE_pure (always_durable hPre hs.1)
  | cons batch rest ih =>
    have hK := hPre.and (stable_clock P i now)
    refine .bind ((InTx.begin (R := R now) hs hK).mono (fun _ t _ ht => ?_) fun _ _ _ he => he.1)
    refine .bind ((ht.delete hK fun t k cur hinv ht hcur hk => ?_).mono (fun n t _ ht => ?_)
      fun _ _ _ he => he.1)
    · rw [Bool.and_eq_true] at hk
      exact hR t k cur now hinv (ht.mono And.left) ht.known.2 hcur hk.2
    · refine .bind ((ht.commit hK hK fun t hinv ht hc => ?_).mono (fun _ t _ ht => ?_)
        fun _ _ _ he => he.1)
      · obtain ⟨hi, he, hp⟩ := hcommit t now hinv (ht.mono And.left) ht.known.2 hc
        exact ⟨hi, he, hp, ht.known.2⟩
      · exact (ih ht).andThen fun _ t ht => safeE_pure (always_durable hPre ht)

/-- A sweep removes only rows that had expired at an instant that has passed.  What is asked of its
deletions may depend on that instant. -/
theorem triple_deleteExpiredAt {docType : String} :
    P.Triple i Pre (DocumentStore.deleteExpired docType)
      (fun _ => Pre) (fun _ => Pre) := by
  refine .retrying hPre (fun _ => hPre) _ fun s _ hs => ?_
  refine .bind (safeE_now fun t ht now hnow => always_safeE ?_)
  have hs : Pre { t with clock := now }.toDurable := hPre.tick _ now hnow (hPre.finds s t hs ht)
  refine .bind (safeE_poolSelect fun u hu => ?_)
  have hu := (hPre.and (stable_clock P i now)).finds { t with clock := now } u ⟨hs, le_refl now⟩ hu
  exact ⟨fun _ => always_durable hPre hu.1,
    always_safeE (safeE_sweepBatches hPre hR hcommit _ hu)⟩

end At

/-- A sweep removes only rows that had expired at an instant that has passed. -/
theorem triple_deleteExpired
    {R : String → List (DbChange ι D) → Option (Row D) → Option (Row D) → Prop} {docType : String}
    (hPre : P.Stable i Pre)
    (hR : ∀ t k cur now, P.inv t.toDurable → InTx R Pre i t → now ≤ t.clock →
      (t.visible i).lookup k = some cur → DocumentStore.expiredBefore now cur = true →
      R k (history k t.log) (t.committed.lookup k) none)
    (hcommit : ∀ t, P.inv t.toDurable → InTx R Pre i t → P.cond i .commit t →
      P.Keeps i t Pre) :
    P.Triple i Pre (DocumentStore.deleteExpired docType)
      (fun _ => Pre) (fun _ => Pre) :=
  triple_deleteExpiredAt (R := fun _ => R) hPre hR fun t _ hinv ht _ => hcommit t hinv ht

end Sweep

end Operations

end Vouch
