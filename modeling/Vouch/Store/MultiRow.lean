import Vouch.Store.Pagination
import Vouch.Store.VersionGuards

/-!
# Rewriting many documents in one transaction

`StoreTransaction::update_by_index` (`db/store.rs`) lists the documents that answer a lookup and
writes each of them back under the version it read.  Here it is followed by the commit, in a
transaction that may already have written something, while any other programs run on the same table.

* `updateListed`, `updateByIndexJoined` — the operation over the rows of the join, where a document
  stands once for each index row that answers; `updateAndCommit` commits and drops the transaction.
* `StoreWrite` — how the store's writers leave a document: with a later version, with a later stamp
  of its last use, or gone; and an id is taken once.  `storeMay` says so of whole transactions.
* `Progress` — the state of the transaction after some of the guarded writes.  Of the documents not
  written yet it knows that they have what was read, or have moved on (`Unmoved`).
* `AppliedOnce` — what the commit made durable: every document that answered when the lookup was
  run, rewritten once from what was read, and what the transaction had written before.
* `update_by_index_all_or_nothing` — **whatever the others do, either that is what was committed, or
  an error is reported and nothing was**, as long as no version has reached the largest and no id is
  taken twice.  `update_by_index_overwrites` shows what goes wrong otherwise.
-/

namespace Vouch

open ReadCommitted Protocol Interleaving

namespace MultiRow

variable {ι D T : Type} [DecidableEq ι] [DocumentType D T]

/-! ## The operation -/

/-- The rows of the join: a document once for each index row that answers the lookup. -/
def joinedRows (crypto : DocumentCrypto) (field value : String) (rows : List (String × Row D)) :
    List (String × Row D) :=
  rows.flatMap fun r => (r.2.answers crypto field value).map fun _ => r

/-- The writes of `update_by_index`, for the rows it has listed. -/
def updateListed (crypto : DocumentCrypto) (modifier : T → T) (rows : List (String × Row D)) :
    ExceptT StoreError (DbM D) Nat := do
  let docs ← orThrow (rows.mapM fun r => rawToDocument T r.1 r.2)
  let now ← Sql.now
  StoreTransaction.updateBatches crypto modifier now (chunks updateByIndexBatch docs [])
  pure docs.length

/-- `StoreTransaction::update_by_index`. -/
def updateByIndexJoined (crypto : DocumentCrypto) (field value : String) (modifier : T → T) :
    ExceptT StoreError (DbM D) Nat := do
  let rows ← Sql.select (matchesIndex crypto T field value)
  updateListed crypto modifier (joinedRows crypto field value rows)

/-- `update_by_index` and `commit`, and the transaction dropped if one of them fails. -/
def updateAndCommit (crypto : DocumentCrypto) (field value : String) (modifier : T → T) :
    ExceptT StoreError (DbM D) (Except StoreError Nat) :=
  closing do
    let n ← updateByIndexJoined crypto field value modifier
    Sql.commit
    pure n

omit [DocumentType D T] in
theorem mem_of_mem_joinedRows {crypto : DocumentCrypto} {field value : String}
    {rows : List (String × Row D)} {r : String × Row D}
    (h : r ∈ joinedRows crypto field value rows) : r ∈ rows := by
  obtain ⟨r', hr', hmap⟩ := List.mem_flatMap.mp h
  obtain ⟨_, _, rfl⟩ := List.mem_map.mp hmap
  exact hr'

/-! ## The writers of the store -/

/-- Two rows of a document that differ at most in the stamp of its last use. -/
def SameContent (a b : Row D) : Prop := { b with lastUsedAt := a.lastUsedAt } = a

omit [DocumentType D T] in
theorem SameContent.refl (a : Row D) : SameContent a a := rfl

omit [DocumentType D T] in
theorem SameContent.trans {a b c : Row D} (h : SameContent a b) (h' : SameContent b c) :
    SameContent a c := by
  rw [SameContent] at *
  rw [← h, ← h']

/-- How a transaction of the store may leave a document: an update raises its version, stamping its
last use keeps it and everything else, a deletion removes it, and a document is created under an id
no document has had. -/
structure StoreWrite (past : List (Change ι String (Row D))) (old new : Option (Row D)) : Prop where
  advances : Advances past old new
  content : ∀ o n, old = some o → new = some n → n.version = o.version → SameContent o n

/-- A transaction may make the writes `W` durable. -/
def storeMay (_ : ι) (d : Durable ι String (Row D) Timestamp) (W : Writes String (Row D)) : Prop :=
  ∀ id w, W id = some w → StoreWrite (history id d.log) (d.committed.lookup id) w

/-- What is asked of the run: no version has reached the largest, and every commit is one of the
store's. -/
def Regular (j : ι) (o : Stmt String (Row D)) (s : Db ι String (Row D) Timestamp) : Prop :=
  VersionsInRange s ∧ (o = .commit → storeMay j s.toDurable (s.own j))

variable {d₀ : DbDurable ι D} {i : ι} {s t : DbState ι D}

/-- The protocol of the threads: from `d₀` on, whole transactions of the store. -/
def storeProtocol (d₀ : Durable ι String (Row D) Timestamp) :
    Protocol ι String (Row D) Timestamp :=
  atomicProtocol Regular (fun d => d = d₀) storeMay

omit [DocumentType D T] in
/-- Any program keeps to the protocol. -/
theorem safe_any {α : Type} (x : DbM D α) :
    (storeProtocol d₀).discipline.Safe i x (fun _ _ => True) s := by
  induction x generalizing s with
  | ret a => exact fun _ _ _ => trivial
  | call o k ih =>
    by_cases ho : o = .commit
    · subst ho
      refine safe_commit fun t ht hc => ?_
      have hstep : Atomic storeMay t.toDurable (t.install i).toDurable :=
        .commit (hc.2 rfl) (t.commits_install i)
      exact ⟨fun _ => ih _, ht.inv.step hstep, .single hstep, ih _⟩
    · exact safe_call ho fun _ _ _ _ r _ _ => ih r

/-! ## What the transaction knows -/

/-- The document at `id` has what was read in `row`, up to the stamp of its last use, or has moved
on. -/
def Unmoved (id : String) (row : Row D) (d : Durable ι String (Row D) Timestamp) : Prop :=
  Since id row.version (fun d => ∃ cur, d.committed.lookup id = some cur ∧ SameContent row cur) d

omit [DocumentType D T] in
theorem stable_unmoved (id : String) (row : Row D) :
    (storeProtocol d₀).Stable i fun d =>
      Reachable (fun d => d = d₀) storeMay d ∧ Unmoved id row d := by
  refine stable_since (fun j W d hmay w hw => (hmay id w hw).advances) (fun _ _ _ h => h) ?_
  rintro j W d d' - hmay hcom old new hold hnew hv ⟨cur, hcur, hsame⟩
  obtain rfl := Option.some.inj (hold.symm.trans hcur)
  refine ⟨new, hnew, hsame.trans ?_⟩
  cases hw : W id with
  | none =>
    rw [hcom.lookup_of_none hw, hold] at hnew
    exact Option.some.inj hnew ▸ .refl old
  | some w =>
    rw [hcom.lookup_of_some hw] at hnew
    exact (hmay id w hw).content old new hold hnew hv

/-- The transaction has listed `row` at `id`: it is a row of its own, or one it may still find. -/
def Listable (i : ι) (id : String) (row : Row D) (s : Db ι String (Row D) Timestamp) : Prop :=
  s.own i id = some (some row) ∨ s.own i id = none ∧ Unmoved id row s.toDurable

/-- What a guarded write of a listed document finds. -/
theorem Listable.found {id : String} {row cur : Row D} (h : Listable i id row s)
    (hcur : (s.visible i).lookup id = some cur) (hv : cur.version = row.version) :
    SameContent row cur ∧ (s.own i id = none → s.committed.lookup id = some cur) ∧
      (s.own i id ≠ none → cur = row) := by
  rw [Db.lookup_visible] at hcur
  rcases h with hown | ⟨hown, hsince⟩
  · rw [hown, Option.getD_some] at hcur
    cases hcur
    exact ⟨.refl row, fun h => (nomatch hown.symm.trans h), fun _ => rfl⟩
  · rw [hown, Option.getD_none] at hcur
    obtain ⟨cur', hcur', hsame⟩ := Since.holds hsince hcur hv
    obtain rfl := Option.some.inj (hcur.symm.trans hcur')
    exact ⟨hsame, fun _ => hcur, fun hne => absurd hown hne⟩

/-- The document the transaction has rewritten: at `id` it leaves `data` in the row `cur`, which has
what was listed in `row`. -/
def Rewrites (crypto : DocumentCrypto) (i : ι) (W : Writes String (Row D)) (now : Timestamp)
    (doc : Document T) (row cur : Row D) (s : Db ι String (Row D) Timestamp) : Prop :=
  s.own i doc.id = some (some (rewriteRow crypto doc.data now (doc.version + 1) cur)) ∧
    SameContent row cur ∧ (W doc.id = none → s.committed.lookup doc.id = some cur) ∧
    (W doc.id ≠ none → cur = row)

/-- The transaction after the guarded writes of the documents `done`, of those it listed in
`found`.  Before, it had written `W`. -/
structure Progress (crypto : DocumentCrypto) (i : ι) (W : Writes String (Row D))
    (found : String → Option (Row D)) (now : Timestamp) (done : List (Document T))
    (s : Db ι String (Row D) Timestamp) : Prop where
  nodup : (done.map (·.id)).Nodup
  others : ∀ id, id ∉ done.map (·.id) → s.own i id = W id
  rewritten : ∀ doc ∈ done, ∃ row cur, found doc.id = some row ∧ doc.version = row.version ∧
    Rewrites crypto i W now doc row cur s
  listable : ∀ id row, found id = some row → id ∉ done.map (·.id) → Listable i id row s

section Progress

variable {crypto : DocumentCrypto} {W : Writes String (Row D)} {found : String → Option (Row D)}
  {now : Timestamp} {done : List (Document T)}

omit [DocumentType D T] in
theorem Listable.finds {id : String} {row : Row D} (h : Listable i id row s)
    (hs : (storeProtocol d₀).inv s.toDurable) (ht : (storeProtocol d₀).Finds i s t) :
    Listable i id row t := by
  refine h.imp (fun h => ht.own ▸ h) fun ⟨hown, hsince⟩ => ⟨ht.own ▸ hown, ?_⟩
  exact ((stable_unmoved id row).finds s t ⟨hs, hsince⟩ ht).2

theorem Progress.finds (h : Progress crypto i W found now done s)
    (hs : (storeProtocol d₀).inv s.toDurable) (ht : (storeProtocol d₀).Finds i s t) :
    Progress crypto i W found now done t where
  nodup := h.nodup
  others := ht.own.symm ▸ h.others
  rewritten doc hdoc := by
    obtain ⟨row, cur, hfound, hv, hown, hsame, hcom, heq⟩ := h.rewritten doc hdoc
    have hsome : (s.own i doc.id).isSome := by rw [hown]; rfl
    have hheld := ht.held hsome
    exact ⟨row, cur, hfound, hv, ht.own ▸ hown, hsame, fun hW => hheld.trans (hcom hW), heq⟩
  listable id row hfound hnew := (h.listable id row hfound hnew).finds hs ht

theorem Progress.tick (h : Progress crypto i W found now done s) (c : Timestamp) :
    Progress crypto i W found now done { s with clock := c } :=
  ⟨h.nodup, h.others, h.rewritten, h.listable⟩

/-- A guarded write that goes through is of a document not yet written: the version a write leaves
is not the one its document was listed with. -/
theorem Progress.write (h : Progress crypto i W found now done s) (hrange : VersionsInRange s)
    {doc : Document T} {row cur : Row D} (hfound : found doc.id = some row)
    (hdv : doc.version = row.version) (hcur : (s.visible i).lookup doc.id = some cur)
    (hv : cur.version = doc.version) :
    Progress crypto i W found now (done ++ [doc])
      (s.write i doc.id (some (rewriteRow crypto doc.data now (nextVersion doc.version) cur))) := by
  have hnew : doc.id ∉ done.map (·.id) := by
    intro hmem
    obtain ⟨doc', hdoc', hid⟩ := List.mem_map.mp hmem
    obtain ⟨row', cur', hfound', hdv', hown, -⟩ := h.rewritten doc' hdoc'
    rw [hid, hfound] at hfound'
    obtain rfl := Option.some.inj hfound'
    rw [Db.lookup_visible, ← hid, hown, Option.getD_some] at hcur
    cases hcur
    have heq : doc'.version + 1 = doc.version := hv
    omega
  have hlt : doc.version < maxVersion := hv ▸ hrange i doc.id cur hcur
  rw [nextVersion_of_lt hlt]
  obtain ⟨hsame, hcom, heq⟩ := (h.listable doc.id row hfound hnew).found hcur (hv.trans hdv)
  rw [h.others _ hnew] at hcom heq
  have hids : (done ++ [doc]).map (·.id) = done.map (·.id) ++ [doc.id] := by simp
  refine ⟨?_, fun id hid => ?_, fun doc' hdoc' => ?_, fun id row' hrow' hid => ?_⟩
  · rw [hids]
    exact List.concat_eq_append ▸ h.nodup.concat hnew
  · rw [hids, List.mem_append, List.mem_singleton, not_or] at hid
    rw [Db.own_write_self, if_neg hid.2]
    exact h.others id hid.1
  · rcases List.mem_append.mp hdoc' with hmem | hmem
    · obtain ⟨row', cur', hfound', hdv', hown, hrest⟩ := h.rewritten doc' hmem
      have hne : doc'.id ≠ doc.id := fun hid => hnew (hid ▸ List.mem_map_of_mem hmem)
      exact ⟨row', cur', hfound', hdv', by rw [Db.own_write_self, if_neg hne, hown], hrest⟩
    · obtain rfl := List.mem_singleton.mp hmem
      exact ⟨row, cur, hfound, hdv, by rw [Db.own_write_self, if_pos rfl], hsame, hcom, heq⟩
  · rw [hids, List.mem_append, List.mem_singleton, not_or] at hid
    refine (h.listable id row' hrow' hid.1).imp (fun hown => ?_) (And.imp_left fun hown => ?_)
    · rw [Db.own_write_self, if_neg hid.2, hown]
    · rw [Db.own_write_self, if_neg hid.2, hown]

/-- The guarded writes of the documents listed, one after the other. -/
theorem Progress.writing {Pre : DbDurable ι D → Prop} (hPre : (storeProtocol d₀).Stable i Pre)
    {all : List (Document T)}
    (hall : ∀ doc ∈ all, ∃ row, found doc.id = some row ∧ doc.version = row.version) :
    Writing (storeProtocol d₀) i crypto now all
      (fun done t => (storeProtocol d₀).inv t.toDurable ∧ Progress crypto i W found now done t ∧
        Pre t.toDurable) Pre := by
  refine ⟨hPre, fun hs ht => ⟨ht.inv, hs.2.1.finds hs.1 ht, hPre.finds _ _ hs.2.2 ht⟩,
    fun h => h.2.2, ?_⟩
  intro done doc rest t cur o hsplit hs _ hc hcur hv
  obtain ⟨row, hfound, hdv⟩ := hall doc (hsplit ▸ List.mem_append_right done List.mem_cons_self)
  exact ⟨hs.1, hs.2.1.write hc.1 hfound hdv hcur hv, hs.2.2⟩

end Progress

/-! ## The whole operation -/

/-- What a commit after the lookup `field = value` has made durable, if the transaction had written
`W` before and the lookup was run in `d`.  Every document that answered did so through one index row
and was rewritten: the modifier applied to what was read, the version one higher, the index rows
those of the new data, in the row it still had — where only the stamp of its last use may be newer.
Every other change the transaction had made before. -/
structure AppliedOnce (crypto : DocumentCrypto) (field value : String) (modifier : T → T) (i : ι)
    (W : Writes String (Row D)) (d : Durable ι String (Row D) Timestamp)
    (changes : List (Change ι String (Row D))) : Prop where
  once : (changes.map (·.id)).Nodup
  rewritten : ∀ id row, (W id).getD (d.committed.lookup id) = some row →
    matchesIndex crypto T field value id row = true →
    (row.answers crypto field value).length = 1 ∧ ∃ doc now cur old,
      rawToDocument T id row = .ok doc ∧ SameContent row cur ∧
      ⟨i, id, old, some (rewriteRow crypto (modifier doc.data) now (row.version + 1) cur)⟩ ∈
        changes ∧
      (W id = none → old = some cur) ∧ (W id ≠ none → cur = row)
  others : ∀ c ∈ changes, (∀ row, (W c.id).getD (d.committed.lookup c.id) = some row →
    matchesIndex crypto T field value c.id row = false) → W c.id = some c.new

/-- The operation has committed: at some time since `d₀` the lookup was run, and what thread `i` has
committed since is what follows from it. -/
def Applied (crypto : DocumentCrypto) (field value : String) (modifier : T → T) (i : ι)
    (W : Writes String (Row D)) (d₀ d : Durable ι String (Row D) Timestamp) : Prop :=
  ∃ d₁ changes, Relation.ReflTransGen (Atomic storeMay) d₀ d₁ ∧
    AppliedOnce crypto field value modifier i W d₁ changes ∧
    Relation.ReflTransGen (Atomic storeMay) d₁ d ∧ changesBy i d.log = changesBy i d₀.log ++ changes

section Whole

variable {crypto : DocumentCrypto} {field value : String} {modifier : T → T}

omit [DocumentType D T] in
/-- That a state comes later, and that the thread has committed nothing new in between. -/
theorem stable_quiet (d₁ : DbDurable ι D) (l : List (DbChange ι D)) :
    (storeProtocol d₀).Stable i fun d =>
      Relation.ReflTransGen (Atomic storeMay) d₁ d ∧ changesBy i d.log = l := by
  refine .and ⟨fun s t h ht => ?_, fun d c hc h => h.tail (.tick hc)⟩
    (stable_changesBy _ i fun l' => l' = l)
  exact h.trans ht.evolves

/-- After all the writes, the commit applies the modifier once. -/
theorem Progress.appliedOnce {W : Writes String (Row D)} {now : Timestamp}
    {docs : List (Document T)} {s₁ : DbState ι D} (hdocs : ((joinedRows crypto field value
      (s₁.scan i (matchesIndex crypto T field value))).mapM fun r => rawToDocument T r.1 r.2) =
        .ok docs)
    (hW : s₁.own i = W) (h : Progress crypto i W (fun id => ((s₁.visible i).lookup id).filter
      (matchesIndex crypto T field value id)) now
      (docs.map fun doc => { doc with data := modifier doc.data }) s) :
    AppliedOnce crypto field value modifier i W s₁.toDurable (s.changes i) := by
  obtain ⟨hids, hmem⟩ := mapM_rawToDocument_eq_ok hdocs
  have hids' : (docs.map fun doc => { doc with data := modifier doc.data }).map (·.id) =
      docs.map (·.id) := modified_ids
  refine ⟨s.changes_ids_nodup i, fun id row hrow hmatch => ?_, fun c hc hno => ?_⟩
  · have hvisible : (s₁.visible i).lookup id = some row := by
      rw [Db.lookup_visible, hW]
      exact hrow
    have hscan : (id, row) ∈ s₁.scan i (matchesIndex crypto T field value) :=
      Db.mem_scan.mpr ⟨hvisible, hmatch⟩
    have hone : (row.answers crypto field value).length ≤ 1 :=
      Content.length_answers_of_nodup (hids ▸ hids' ▸ h.nodup) hscan
    have hne := (Content.matchesIndex_iff.mp hmatch).2
    have hlen := List.length_pos_iff.mpr hne
    refine ⟨by omega, ?_⟩
    -- The document is one of those listed, so one of those written.
    obtain ⟨e, he⟩ := List.exists_mem_of_ne_nil _ hne
    have hjoined : (id, row) ∈ joinedRows crypto field value
        (s₁.scan i (matchesIndex crypto T field value)) :=
      List.mem_flatMap.mpr ⟨(id, row), hscan, List.mem_map.mpr ⟨e, he, rfl⟩⟩
    have hid : id ∈ docs.map (·.id) := hids ▸ List.mem_map_of_mem (f := Prod.fst) hjoined
    obtain ⟨doc, hdoc, rfl⟩ := List.mem_map.mp hid
    obtain ⟨row', hrow', hraw⟩ := hmem doc hdoc
    have hlook := (Db.mem_scan.mp (mem_of_mem_joinedRows hrow')).1
    obtain rfl := Option.some.inj (hvisible.symm.trans hlook)
    obtain ⟨row', cur, hfound, -, hown, hsame, hcom, heq⟩ :=
      h.rewritten _ (List.mem_map_of_mem hdoc)
    rw [hvisible, Option.filter_some_pos hmatch] at hfound
    cases hfound
    refine ⟨doc, now, cur, s.committed.lookup doc.id, hraw, hsame,
      Db.mem_changes.mpr ⟨rfl, ?_, rfl⟩, hcom, heq⟩
    show s.own i doc.id =
      some (some (rewriteRow crypto (modifier doc.data) now (row.version + 1) cur))
    rw [← (rawToDocument_eq_ok hraw).2.1]
    exact hown
  · obtain ⟨-, hown, -⟩ := Db.mem_changes.mp hc
    rw [← hown]
    refine (h.others c.id ?_).symm
    rw [hids', hids]
    intro hlisted
    obtain ⟨r, hr, hid⟩ := List.mem_map.mp hlisted
    obtain ⟨hlook, hmatch⟩ := Db.mem_scan.mp (mem_of_mem_joinedRows hr)
    rw [hid, Db.lookup_visible, hW] at hlook
    rw [hid, hno r.2 hlook] at hmatch
    cases hmatch

theorem stable_applied (W : Writes String (Row D)) :
    (storeProtocol d₀).Stable i (Applied crypto field value modifier i W d₀) :=
  stable_exists fun d₁ => stable_exists fun _ =>
    (stable_const _ i _).and ((stable_const _ i _).and (stable_quiet d₁ _))

/-- The transaction at the lookup. -/
theorem progress_nil {W : Writes String (Row D)} {now : Timestamp} (hW : s.own i = W)
    (p : String → Row D → Bool) :
    Progress (T := T) crypto i W (fun id => ((s.visible i).lookup id).filter (p id)) now [] s where
  nodup := List.nodup_nil
  others id _ := congrFun hW id
  rewritten _ h := nomatch h
  listable id row hfound _ := by
    have hvisible := (Option.filter_eq_some_iff.mp hfound).1
    rw [Db.lookup_visible] at hvisible
    cases hown : s.own i id with
    | some w =>
      rw [hown, Option.getD_some] at hvisible
      exact .inl (hown.trans (congrArg some hvisible))
    | none =>
      rw [hown, Option.getD_none] at hvisible
      exact .inr ⟨hown, .of_read hvisible ⟨row, hvisible, .refl row⟩⟩

/-- The lookup, the writes and the commit, before the transaction is dropped. -/
theorem safeE_updateByIndex {W : Writes String (Row D)} (hW : s.own i = W) :
    (storeProtocol s.toDurable).discipline.SafeE i
      (do let n ← updateByIndexJoined crypto field value modifier; Sql.commit; pure n)
      (fun _ t => Applied crypto field value modifier i W s.toDurable t.toDurable)
      (fun _ t => changesBy i t.log = changesBy i s.log) s := by
  have hlog := stable_changesBy (storeProtocol s.toDurable) i fun l => l = changesBy i s.log
  refine .bind (.bind (safeE_select fun u hu => ?_))
  have hul : changesBy i u.log = changesBy i s.log := hu.toRely.changesBy
  refine ⟨fun _ => always_durable hlog hul, Discipline.always_safeE ?_⟩
  refine .bind (Discipline.safeE_orThrow (fun docs hdocs => Discipline.always_safeE ?_)
    fun _ _ => always_durable (s := u.read i _ _) hlog hul)
  refine .bind (safeE_now fun v hv now hnow => Discipline.always_safeE ?_)
  let p := matchesIndex crypto T field value
  have hread : Progress (T := T) crypto i W
    (fun id => ((u.visible i).lookup id).filter (p id)) now []
      (u.read i p (u.scan i p)) :=
    progress_nil (s := u.read i p (u.scan i p)) (hu.own.trans hW) p
  have hprogress := (hread.finds hu.inv hv).tick now
  have hquiet : (storeProtocol s.toDurable).Stable i _ :=
    stable_quiet u.toDurable (changesBy i s.log)
  have hpre := hquiet.tick _ now hnow (hquiet.finds (u.read i _ _) v ⟨.refl, hul⟩ hv)
  have hlisted : ∀ doc ∈ docs.map (fun doc => { doc with data := modifier doc.data }), ∃ row,
      ((u.visible i).lookup doc.id).filter (matchesIndex crypto T field value doc.id) = some row ∧
        doc.version = row.version := by
    refine List.forall_mem_map.mpr fun doc hdoc => ?_
    obtain ⟨row, hrow, hraw⟩ := (mapM_rawToDocument_eq_ok hdocs).2 doc hdoc
    obtain ⟨hlook, hmatch⟩ := Db.mem_scan.mp (mem_of_mem_joinedRows hrow)
    exact ⟨row, Option.filter_eq_some_iff.mpr ⟨hlook, hmatch⟩, (rawToDocument_eq_ok hraw).2.1⟩
  refine .bind (.mono ((Progress.writing hquiet hlisted).updateAll ⟨hv.inv.step (.tick hnow),
    hprogress, hpre⟩) (fun _ w _ hw => ?_) fun _ _ _ h => h.2)
  obtain ⟨hI, hw⟩ := hw
  refine Discipline.safeE_pure (Discipline.always_safeE (.bind (safeE_commit fun x hx hc => ?_)))
  have hx' := hquiet.finds w x hw.2 hx
  have hstep : Atomic storeMay x.toDurable (x.install i).toDurable :=
    .commit (hc.2 rfl) (x.commits_install i)
  refine ⟨fun _ => always_durable hlog hx'.2, hx.inv.step hstep, .single hstep,
    Discipline.always_safeE (Discipline.safeE_pure (always_durable (stable_applied W) ?_))⟩
  refine ⟨u.toDurable, x.changes i, hu.evolves,
    (hw.1.finds hI hx).appliedOnce hdocs (hu.own.trans hW), hx'.1.tail hstep, ?_⟩
  show changesBy i (x.log ++ x.changes i) = _
  rw [changesBy_append, Db.changesBy_changes, hx'.2]

/-! ## Runs -/

variable {start stop : Config ι (Stmt String (Row D)) (Stmt.Res Timestamp)
  (fun _ => Except StoreError (Except StoreError Nat)) (Db ι String (Row D) Timestamp)}

/-- **Many documents, all or nothing.**  In a run of any programs, one of which is `update_by_index`
and `commit` in a transaction that may have written before: however the others interleave, once the
operation has reported a number of documents, what it committed is the modifier applied once to
every document that answered the lookup when it was run, beside what the transaction had written
before; once it has reported an error, it has committed nothing and holds nothing. -/
theorem update_by_index_all_or_nothing
    (hthread : start.threads i = (updateAndCommit crypto field value modifier).run)
    (hrun : Reaches (fun j => exec j) Regular start stop) :
    (∀ n, stop.threads i = .ret (.ok (.ok n)) →
      Applied crypto field value modifier i (start.shared.own i) start.shared.toDurable
        stop.shared.toDurable) ∧
    ∀ e, stop.threads i = .ret (.ok (.error e)) →
      changesBy i stop.shared.log = changesBy i start.shared.log ∧ Idle i stop.shared := by
  let P := storeProtocol start.shared.toDurable
  let Post (x : Except StoreError Nat) (t : DbState ι D) : Prop :=
    (∀ n, x = .ok n → Applied crypto field value modifier i (start.shared.own i)
        start.shared.toDurable t.toDurable) ∧
      ∀ e, x = .error e → changesBy i t.log = changesBy i start.shared.log ∧ Idle i t
  have hlog := stable_changesBy P i fun l => l = changesBy i start.shared.log
  have hclosing : P.discipline.SafeE i (updateAndCommit crypto field value modifier) Post
      (fun _ _ => True) start.shared := by
    refine safeE_closing ((safeE_updateByIndex rfl).mono (fun n t _ ht u hu => ?_)
      fun e t _ ht u hu => ?_)
    · have hu : Applied crypto field value modifier i _ _ (u.discard i).toDurable :=
        (stable_applied _).finds t u ht hu
      exact always_of_finds fun v hv =>
        ⟨fun _ _ => (stable_applied _).finds _ v hu hv, fun e h => (nomatch h)⟩
    · have hu : changesBy i (u.discard i).log = _ := hlog.finds t u ht hu
      exact always_of_finds fun v hv => ⟨fun n h => (nomatch h),
        fun _ _ => ⟨hlog.finds _ v hu hv, (idle_discard i u).finds hv⟩⟩
  have hstart : P.discipline.Ok (fun j x t => j = i → ∀ y, x = .ok y → Post y t) start := by
    refine ⟨⟨_, rfl, .refl⟩, fun j => ?_⟩
    by_cases hj : j = i
    · subst hj
      rw [hthread]
      refine Discipline.Safe.mono hclosing fun x t _ hx _ y hy => ?_
      subst hy
      exact hx
    · exact (safe_any _).mono fun _ _ _ _ h => absurd h hj
  have hstop := Discipline.sound hstart hrun
  exact ⟨fun n hn => (hstop.of_ret hn rfl _ rfl).1 n rfl,
    fun e he => (hstop.of_ret he rfl _ rfl).2 e rfl⟩

end Whole

/-! ## Versions that do not move -/

open Content (Card cardRow)

/-- Delete the card and create another under its id. -/
def recreate : ExceptT StoreError (DbM Card) (Except StoreError Nat) :=
  closing do
    let _ ← StoreTransaction.delete "a"
    Sql.commit
    let _ ← StoreTransaction.insertWithId plainCrypto "a" (⟨"guests"⟩ : Card)
    Sql.commit
    pure 1

/-- One thread marks the cards of the staff, the other recreates the one there is. -/
def cardSystem (version : Int) : Config Bool (Stmt String (Row Card)) (Stmt.Res Timestamp)
    (fun _ => Except StoreError (Except StoreError Nat)) (Db Bool String (Row Card) Timestamp) where
  threads i := bif i then recreate.run else
    (updateAndCommit plainCrypto "group" "staff" fun c : Card => ⟨c.group ++ "!"⟩).run
  shared :=
    ⟨⟨AList.insert "a" { cardRow 0 ["staff"] with version := version } ∅, [], 0⟩, ∅, fun _ => []⟩

/-- What the table holds under the card's id, with its version, and what was done to it. -/
def cardReport (q : Config Bool (Stmt String (Row Card)) (Stmt.Res Timestamp)
    (fun _ => Except StoreError (Except StoreError Nat)) (Db Bool String (Row Card) Timestamp)) :
    Option (String × Int) × List (Bool × Option String × Option String) :=
  ((q.shared.committed.lookup "a").map fun row => (row.data.group, row.version),
    q.shared.log.map fun c => (c.owner, c.old.map (·.data.group), c.new.map (·.data.group)))

/-- A card recreated between the lookup and the write is overwritten, though it is another card; and
at the largest version the write goes through and the version stays. -/
theorem update_by_index_overwrites :
    (∃ q, Reaches (fun j => exec j) (fun _ _ _ => True) (cardSystem 1) q ∧
      q.threads false = .ret (.ok (.ok 1)) ∧
      cardReport q = (some ("staff!", 2), [(true, some "staff", none), (true, none, some "guests"),
        (false, some "guests", some "staff!")])) ∧
    ∃ q, Reaches (fun j => exec j) (fun _ _ _ => True) (cardSystem maxVersion) q ∧
      q.threads false = .ret (.ok (.ok 1)) ∧
      cardReport q = (some ("staff!", maxVersion), [(false, some "staff", some "staff!")]) := by
  have hrecreated : ((cardSystem 1).run (fun j => exec j) (fun _ _ _ => true)
      (([false] ++ List.replicate 6 true ++ List.replicate 4 false).map
        fun j => (j, ⟨none, 0, ""⟩))).map (fun q => ((q.threads false).result?, cardReport q)) =
      some (some (.ok (.ok 1)), some ("staff!", 2), [(true, some "staff", none),
        (true, none, some "guests"), (false, some "guests", some "staff!")]) := rfl
  have hlargest : ((cardSystem maxVersion).run (fun j => exec j) (fun _ _ _ => true)
      ((List.replicate 5 false).map fun j => (j, ⟨none, 0, ""⟩))).map
        (fun q => ((q.threads false).result?, cardReport q)) =
      some (some (.ok (.ok 1)), some ("staff!", maxVersion),
        [(false, some "staff", some "staff!")]) := rfl
  obtain ⟨q, hq, hres⟩ := exists_of_run (C := fun _ _ _ => True) (fun _ _ _ _ => trivial) hrecreated
  obtain ⟨q', hq', hres'⟩ :=
    exists_of_run (C := fun _ _ _ => True) (fun _ _ _ _ => trivial) hlargest
  simp only [Prod.mk.injEq, Prog.result?_eq_some] at hres hres'
  exact ⟨⟨q, hq, hres⟩, q', hq', hres'⟩

/-- A test of steps: versions are below the largest, and a commit replaces documents, each by one
with a higher version. -/
def replacesOnly (j : ι) (o : Stmt String (Row D)) (s : Db ι String (Row D) Timestamp) : Bool :=
  versionsInRange s && match o with
    | .commit => (s.ownWrites j).all fun e =>
        e.2.any fun new => (s.committed.lookup e.1).any fun old => old.version < new.version
    | _ => true

omit [DocumentType D T] in
theorem regular_of_replacesOnly {j : ι} {o : Stmt String (Row D)} (h : replacesOnly j o s = true) :
    Regular j o s := by
  rw [replacesOnly.eq_def, Bool.and_eq_true] at h
  refine ⟨.of_check h.1, ?_⟩
  rintro rfl id w hw
  have hwrites := List.all_eq_true.mp h.2 (id, w) (Db.mem_ownWrites.mpr hw)
  obtain ⟨new, rfl, hnew⟩ := (Option.any_eq_true _ _).mp hwrites
  obtain ⟨old, hold, hlt⟩ := (Option.any_eq_true _ _).mp hnew
  have hlt : old.version < new.version := of_decide_eq_true hlt
  have hold : s.committed.lookup id = some old := hold
  rw [hold]
  refine ⟨⟨?_, nofun⟩, ?_⟩
  · rintro _ _ ⟨⟩ ⟨⟩
    omega
  · rintro _ _ ⟨⟩ ⟨⟩ heq
    omega

/-- The card of the staff is marked, and the other thread has not begun. -/
theorem update_by_index_one_card :
    ∃ q, Reaches (fun j => exec j) Regular (cardSystem 1) q ∧ q.threads false = .ret (.ok (.ok 1)) ∧
      cardReport q = (some ("staff!", 2), [(false, some "staff", some "staff!")]) ∧
      Applied plainCrypto "group" "staff" (fun c : Card => ⟨c.group ++ "!"⟩) false (fun _ => none)
        (cardSystem 1).shared.toDurable q.shared.toDurable := by
  have hrun : ((cardSystem 1).run (fun j => exec j) replacesOnly
      ((List.replicate 5 false).map fun j => (j, ⟨none, 0, ""⟩))).map
        (fun q => ((q.threads false).result?, cardReport q)) =
      some (some (.ok (.ok 1)), some ("staff!", 2), [(false, some "staff", some "staff!")]) := rfl
  obtain ⟨q, hq, hres⟩ := exists_of_run (fun _ _ _ => regular_of_replacesOnly) hrun
  simp only [Prod.mk.injEq, Prog.result?_eq_some] at hres
  exact ⟨q, hq, hres.1, hres.2,
    (update_by_index_all_or_nothing rfl hq).1 1 hres.1⟩

end MultiRow

end Vouch
