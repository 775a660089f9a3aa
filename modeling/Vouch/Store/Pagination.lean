import Mathlib.Data.String.Basic
import Vouch.Lib.Keyset
import Vouch.Store.Document

/-!
# Pages of documents

The listings of `DocumentStore` (`db/store.rs`) on a store that does not change: `find_all`,
`find_paginated`, `list_all` and `list_all_paginated`.

The indexed listings join the documents with their index rows, so a document is listed once for each
of its index rows that answers the lookup.  There may be two: the condition of a lookup takes the
hash of the value and, for rows from before encryption, the value itself.

* `Content` — what the tables hold: a document has no index row twice, and the rows can be counted
  in 64 bits.
* `Content.joined` — the rows of the join; `Content.listed` — the documents they are of, each once.
* `Content.findAll`, `Content.findPaginated`, `Content.listAll`, `Content.listAllPaginated`.
* `Content.walkFound`, `Content.walkAll` — page after page, each from the last id of the one before.
* `pages_exact_iff` — **the pages of an indexed listing, like the listing itself, hold every
  document exactly once in the order of the ids, exactly if no document answers through two index
  rows** (or some document cannot be opened, and everything fails); the pages of the other listing
  always do.
-/

namespace Vouch

open ReadCommitted Keyset Result

/-- The largest 64-bit number. -/
def u64Max : Nat := 18446744073709551615

variable {D : Type}

/-- The index rows of a document that answer a lookup. -/
def Row.answers (crypto : DocumentCrypto) (field value : String) (row : Row D) : List IndexEntry :=
  row.indexes.filter fun e => e.field == field && indexValueCondition crypto value e.value

/-- What the tables of a store hold. -/
structure Content (D : Type) where
  table : Table String (Row D)
  /-- `UNIQUE(document_id, index_field, index_value)`. -/
  unique : ∀ id row, table.lookup id = some row → row.indexes.Nodup
  documents_le : table.rows.length ≤ u64Max
  indexes_le : (table.rows.flatMap fun r => r.2.indexes).length ≤ u64Max

namespace Content

variable (content : Content D) (order : Order String) (crypto : DocumentCrypto) (T : Type)
  [DocumentType D T] (field value : String)

/-! ## The listings -/

/-- The documents of a type. -/
def ofType : List (String × Row D) :=
  content.table.rows.filter fun r => r.2.docType == DocumentType.docType T

/-- The rows of the join: a document once for each index row that answers the lookup. -/
def joined : List (String × Row D) :=
  (content.ofType T).flatMap fun r => (r.2.answers crypto field value).map fun _ => r

/-- Open a row. -/
def opened (r : String × Row D) : Except StoreError (Document T) := rawToDocument T r.1 r.2

/-- `DocumentStore::find_all`. -/
def findAll : Except StoreError (List (Document T)) :=
  (sort order Prod.fst (content.joined crypto T field value)).mapM (opened T)

/-- `DocumentStore::find_paginated`. -/
def findPaginated (afterId : Option String) (limit : Nat) :
    Except StoreError (List (Document T) × Bool) :=
  page (opened T) u64Max limit
    (after order Prod.fst afterId (sort order Prod.fst (content.joined crypto T field value)))

/-- `DocumentStore::list_all`. -/
def listAll : Except StoreError (List (Document T)) :=
  ((content.ofType T).mergeSort fun a b => decide (b.2.createdAt ≤ a.2.createdAt)).mapM (opened T)

/-- `DocumentStore::list_all_paginated`. -/
def listAllPaginated (afterId : Option String) (limit : Nat) :
    Except StoreError (List (Document T) × Bool) :=
  page (opened T) u64Max limit
    (after order Prod.fst afterId (sort order Prod.fst (content.ofType T)))

/-- Page after page of an indexed listing, at most `n` of them. -/
def walkFound (limit n : Nat) : Option (Except StoreError (List (Document T))) :=
  walk (fun cursor => content.findPaginated order crypto T field value cursor limit)
    Document.id n none

/-- Page after page of all documents, at most `n` of them. -/
def walkAll (limit n : Nat) : Option (Except StoreError (List (Document T))) :=
  walk (fun cursor => content.listAllPaginated order T cursor limit) Document.id n none

/-- The documents that answer a lookup, each once. -/
def listed : List (String × Row D) :=
  content.table.rows.filter fun r => matchesIndex crypto T field value r.1 r.2

/-- Every document that answers a lookup exactly once, in the order of the ids. -/
def enumeration : Except StoreError (List (Document T)) :=
  (sort order Prod.fst (content.listed crypto T field value)).mapM (opened T)

/-- No document answers through two index rows. -/
def SinglyIndexed : Prop :=
  ∀ r ∈ content.listed crypto T field value, (r.2.answers crypto field value).length ≤ 1

/-- A document that answers cannot be opened. -/
def Unreadable : Prop :=
  ∃ r ∈ content.listed crypto T field value, ∃ e, opened T r = .error e

/-! ## The join -/

variable {content order crypto T field value}

theorem matchesIndex_iff {id : String} {row : Row D} :
    matchesIndex crypto T field value id row = true ↔
      row.docType = DocumentType.docType T ∧ row.answers crypto field value ≠ [] := by
  rw [matchesIndex, Bool.and_eq_true, beq_iff_eq, Row.answers, Ne, List.filter_eq_nil_iff]
  simp [List.any_eq_true]

variable {r : String × Row D}

theorem mem_joined :
    r ∈ content.joined crypto T field value ↔ r ∈ content.listed crypto T field value := by
  simp only [joined, ofType, listed, List.mem_flatMap, List.mem_filter, List.mem_map,
    matchesIndex_iff, beq_iff_eq]
  constructor
  · rintro ⟨r', ⟨hmem, htype⟩, e, he, rfl⟩
    exact ⟨hmem, htype, List.ne_nil_of_mem he⟩
  · rintro ⟨hmem, htype, hne⟩
    obtain ⟨e, he⟩ := List.exists_mem_of_ne_nil _ hne
    exact ⟨r, ⟨hmem, htype⟩, e, he, rfl⟩

/-- Where each document answers through one index row at most, the join lists each once. -/
theorem joined_eq_listed (h : content.SinglyIndexed crypto T field value) :
    content.joined crypto T field value = content.listed crypto T field value := by
  have hfilter : content.listed crypto T field value =
      (content.ofType T).filter fun r => !(r.2.answers crypto field value).isEmpty := by
    rw [listed, ofType, List.filter_filter]
    refine List.filter_congr fun r _ => ?_
    rw [Bool.eq_iff_iff, matchesIndex_iff]
    simp [and_comm]
  have hone : ∀ r ∈ content.ofType T, (r.2.answers crypto field value).length ≤ 1 := by
    intro r hr
    by_cases hempty : (r.2.answers crypto field value) = []
    · simp [hempty]
    · refine h r ?_
      rw [hfilter]
      exact List.mem_filter.2 ⟨hr, by simpa using hempty⟩
  rw [hfilter, joined]
  generalize content.ofType T = rows at hone
  clear hfilter h
  induction rows with
  | nil => rfl
  | cons r rows ih =>
    have hrest := ih fun r' hr' => hone r' (List.mem_cons_of_mem _ hr')
    have hlen := hone r List.mem_cons_self
    rw [List.flatMap_cons, hrest, List.filter_cons]
    cases hanswers : r.2.answers crypto field value with
    | nil => rfl
    | cons e es =>
      rw [hanswers, List.length_cons] at hlen
      obtain rfl : es = [] := List.length_eq_zero_iff.1 (by omega)
      rfl

variable {rows : List (String × Row D)}

/-- Where the join lists each document once, each answers through one index row at most. -/
theorem length_answers_of_nodup
    (h : ((rows.flatMap fun r => (r.2.answers crypto field value).map fun _ => r).map
      Prod.fst).Nodup) (hr : r ∈ rows) : (r.2.answers crypto field value).length ≤ 1 := by
  rw [List.map_flatMap, List.nodup_flatMap] at h
  have hnodup := h.1 r hr
  rw [List.map_map] at hnodup
  cases hanswers : r.2.answers crypto field value with
  | nil => simp
  | cons e es =>
    cases es with
    | nil => simp
    | cons e' es =>
      rw [hanswers] at hnodup
      simp at hnodup

theorem singlyIndexed_of_nodup
    (h : ((content.joined crypto T field value).map Prod.fst).Nodup) :
    content.SinglyIndexed crypto T field value := by
  intro r hr
  obtain ⟨hmem, hmatch⟩ := List.mem_filter.1 hr
  exact length_answers_of_nodup h
    (List.mem_filter.2 ⟨hmem, beq_iff_eq.2 (matchesIndex_iff.1 hmatch).1⟩)

theorem keys_nodup (p : String × Row D → Bool) :
    ((content.table.rows.filter p).map Prod.fst).Nodup := by
  refine List.Nodup.sublist (List.filter_sublist.map _) ?_
  rw [Table.rows, List.map_map]
  exact content.table.nodupKeys

theorem length_joined_le : (content.joined crypto T field value).length ≤ u64Max := by
  refine Nat.le_trans ?_ content.indexes_le
  rw [joined, ofType]
  generalize content.table.rows = rows
  induction rows with
  | nil => simp
  | cons r rows ih =>
    have hle : (r.2.answers crypto field value).length ≤ r.2.indexes.length :=
      List.length_filter_le _ _
    rw [List.filter_cons]
    split
    · simp only [List.flatMap_cons, List.length_append, List.length_map]
      omega
    · simp only [List.flatMap_cons, List.length_append]
      omega

theorem opened_id (r : String × Row D) (doc : Document T) (h : opened T r = .ok doc) :
    doc.id = r.1 :=
  (rawToDocument_eq_ok h).1

theorem opened_error {e : StoreError} (h : opened T r = .error e) : e = .failedToDeserialize := by
  rw [opened, rawToDocument] at h
  split at h
  · cases h
  · cases h
    rfl

theorem eq_of_mem_rows {a b : String × Row D} (ha : a ∈ content.table.rows)
    (hb : b ∈ content.table.rows) (h : a.1 = b.1) : a = b := by
  have hla := Table.mem_rows.1 ha
  have hlb := Table.mem_rows.1 hb
  rw [h, hlb] at hla
  exact Prod.ext h (Option.some.inj hla).symm

theorem length_sort (rows : List (String × Row D)) :
    (sort order Prod.fst rows).length = rows.length :=
  (List.mergeSort_perm rows _).length_eq

theorem mem_sort : r ∈ sort order Prod.fst rows ↔ r ∈ rows :=
  (List.mergeSort_perm rows _).mem_iff

theorem nodup_sort : ((sort order Prod.fst rows).map Prod.fst).Nodup ↔ (rows.map Prod.fst).Nodup :=
  ((List.mergeSort_perm rows _).map Prod.fst).nodup_iff

/-! ## Exactness -/

/-- What the enumeration holds. -/
theorem enumeration_ok {docs : List (Document T)}
    (h : content.enumeration order crypto T field value = .ok docs) :
    (docs.map (·.id)).Nodup ∧ docs.Pairwise (fun a b => order.le a.id b.id = true) ∧
      ∀ id, id ∈ docs.map (·.id) ↔ ∃ row, content.table.lookup id = some row ∧
        matchesIndex crypto T field value id row = true := by
  have hids := map_key Prod.fst opened_id h
  refine ⟨?_, ?_, ?_⟩
  · rw [hids]
    exact nodup_sort.2 (keys_nodup _)
  · have hsorted : (docs.map (·.id)).Pairwise fun a b => order.le a b = true := by
      rw [hids, List.pairwise_map]
      exact pairwise_sort order Prod.fst _
    exact List.pairwise_map.1 hsorted
  · intro id
    rw [hids, List.mem_map]
    constructor
    · rintro ⟨⟨k, row⟩, hr, rfl⟩
      obtain ⟨hmem, hmatch⟩ := List.mem_filter.1 (mem_sort.1 hr)
      exact ⟨row, Table.mem_rows.1 hmem, hmatch⟩
    · rintro ⟨row, hlook, hmatch⟩
      exact ⟨(id, row), mem_sort.2 (List.mem_filter.2 ⟨Table.mem_rows.2 hlook, hmatch⟩), rfl⟩

theorem mapM_error (hr : r ∈ rows) {e : StoreError} (he : opened T r = .error e) :
    rows.mapM (opened T) = .error .failedToDeserialize := by
  cases hrows : rows.mapM (opened T) with
  | ok docs =>
    obtain ⟨doc, hdoc⟩ := opens_of_mapM hrows r hr
    rw [he] at hdoc
    cases hdoc
  | error e' =>
    obtain ⟨r', -, he'⟩ := mapM_eq_error hrows
    rw [opened_error he']

variable {limit n : Nat}

/-- Where each document answers through one index row at most, the pages enumerate them. -/
theorem walkFound_of_singlyIndexed (h : content.SinglyIndexed crypto T field value)
    (hlimit : 1 ≤ limit) (hn : (content.joined crypto T field value).length < n) :
    content.walkFound order crypto T field value limit n =
      some (content.enumeration order crypto T field value) := by
  have hcap : (content.joined crypto T field value).length ≤ u64Max := length_joined_le
  rw [joined_eq_listed h] at hn hcap
  unfold walkFound findPaginated
  rw [joined_eq_listed h]
  refine walk_eq (pairwise_sort order Prod.fst _) opened_id ?_ hlimit (nodup_sort.2 (keys_nodup _))
    none ?_
  · rwa [length_sort]
  · show (sort order Prod.fst _).length < n
    rwa [length_sort]

/-- Where a document cannot be opened, the pages fail. -/
theorem walkFound_of_unreadable (h : content.Unreadable crypto T field value) (hlimit : 1 ≤ limit)
    (hn : (content.joined crypto T field value).length < n) :
    content.walkFound order crypto T field value limit n = some (.error .failedToDeserialize) := by
  obtain ⟨r, hr, e, he⟩ := h
  have hsorted := pairwise_sort order Prod.fst (content.joined crypto T field value)
  have hcap : (sort order Prod.fst (content.joined crypto T field value)).length ≤ u64Max := by
    rw [length_sort]
    exact length_joined_le
  have hmem : r ∈ sort order Prod.fst (content.joined crypto T field value) :=
    mem_sort.2 (mem_joined.2 hr)
  have hsame : ∀ a ∈ sort order Prod.fst (content.joined crypto T field value),
      ∀ b ∈ sort order Prod.fst (content.joined crypto T field value), a.1 = b.1 → a = b := by
    intro a ha b hb
    exact eq_of_mem_rows (List.mem_filter.1 (mem_joined.1 (mem_sort.1 ha))).1
      (List.mem_filter.1 (mem_joined.1 (mem_sort.1 hb))).1
  obtain ⟨out, hwalk, hbad, hgood⟩ :=
    walk_ends hsorted (opened_id (T := T)) hcap hlimit hsame (n := n) none (by
      show (sort order Prod.fst _).length < n
      rwa [length_sort])
  cases out with
  | ok docs =>
    obtain ⟨doc, hdoc⟩ := hgood docs rfl r hmem
    rw [he] at hdoc
    cases hdoc
  | error e' =>
    obtain ⟨r', -, he'⟩ := hbad e' rfl
    rw [opened_error he'] at hwalk
    exact hwalk

/-- The pages of all documents enumerate them. -/
theorem walkAll_eq (hlimit : 1 ≤ limit) (hn : (content.ofType T).length < n) :
    content.walkAll order T limit n =
      some ((sort order Prod.fst (content.ofType T)).mapM (opened T)) := by
  refine walk_eq (pairwise_sort order Prod.fst _) opened_id ?_ hlimit (nodup_sort.2 (keys_nodup _))
    none ?_
  · rw [length_sort]
    exact Nat.le_trans (List.length_filter_le _ _) content.documents_le
  · show (sort order Prod.fst _).length < n
    rwa [length_sort]

variable (content order crypto T field value)

/-- **Pages are exact.**  The enumeration holds every document that answers, once and in the order
of the ids.  The pages of an indexed listing, under every limit, and the listing itself are the
enumeration exactly if no document answers through two index rows, or some document cannot be
opened; and the pages of all documents are those documents in the order of their ids. -/
theorem pages_exact_iff :
    (∀ docs, content.enumeration order crypto T field value = .ok docs →
      (docs.map (·.id)).Nodup ∧ docs.Pairwise (fun a b => order.le a.id b.id = true) ∧
        ∀ id, id ∈ docs.map (·.id) ↔ ∃ row, content.table.lookup id = some row ∧
          matchesIndex crypto T field value id row = true) ∧
    (((∀ limit, 1 ≤ limit → limit ≤ u64Max → ∀ n, (content.joined crypto T field value).length < n →
          content.walkFound order crypto T field value limit n =
            some (content.enumeration order crypto T field value)) ∧
        content.findAll order crypto T field value =
          content.enumeration order crypto T field value) ↔
      (content.SinglyIndexed crypto T field value ∨ content.Unreadable crypto T field value)) ∧
    ∀ limit, 1 ≤ limit → limit ≤ u64Max → ∀ n, (content.ofType T).length < n →
      content.walkAll order T limit n =
        some ((sort order Prod.fst (content.ofType T)).mapM (opened T)) := by
  refine ⟨fun docs h => enumeration_ok h, ⟨?_, ?_⟩, fun limit hlimit _ n hn => walkAll_eq hlimit hn⟩
  · rintro ⟨-, hall⟩
    cases hdocs : content.enumeration order crypto T field value with
    | error e =>
      obtain ⟨r, hr, he⟩ := mapM_eq_error hdocs
      exact .inr ⟨r, mem_sort.1 hr, e, he⟩
    | ok docs =>
      -- the listing has the ids of the enumeration, and those are different
      rw [hdocs] at hall
      have hids := map_key Prod.fst opened_id hall
      have hnodup := (enumeration_ok hdocs).1
      rw [hids] at hnodup
      exact .inl (singlyIndexed_of_nodup (nodup_sort.1 hnodup))
  · rintro (hsingle | hbad)
    · refine ⟨fun limit hlimit _ n hn => walkFound_of_singlyIndexed hsingle hlimit hn, ?_⟩
      rw [findAll, joined_eq_listed hsingle]
      rfl
    · obtain ⟨r, hr, e, he⟩ := hbad
      have henum : content.enumeration order crypto T field value =
          .error .failedToDeserialize := mapM_error (mem_sort.2 hr) he
      refine ⟨fun limit hlimit _ n hn => ?_, ?_⟩
      · rw [henum]
        exact walkFound_of_unreadable ⟨r, hr, e, he⟩ hlimit hn
      · rw [henum]
        exact mapM_error (mem_sort.2 (mem_joined.2 hr)) he

/-! ## A document with two index rows -/

/-- A document filed under a group. -/
structure Card where
  group : String
deriving DecidableEq

instance : DocumentType Card Card where
  docType := "card"
  indexEntries c := [⟨"group", c.group⟩]
  toData := id
  fromData := some
  fromData_toData _ := rfl

/-- The order of characters. -/
def byCharacters : Order String where
  le a b := decide (a ≤ b)
  total a b := by simpa using le_total a b
  trans a b c := by simpa using le_trans
  antisymm a b := by simpa using le_antisymm

/-- An index that marks the values it has hashed. -/
def markingCrypto : DocumentCrypto := ⟨fun value => "#" ++ value⟩

/-- A card of the group, with its index rows. -/
def cardRow (createdAt : Timestamp) (values : List String) : Row Card where
  docType := "card"
  data := ⟨"staff"⟩
  expiresAt := none
  createdAt := createdAt
  updatedAt := createdAt
  version := 1
  lastUsedAt := none
  indexes := values.map fun v => ⟨"group", v⟩

/-- The older of two cards still has its index row from before encryption. -/
def halfMigrated : Content Card where
  table := ⟨[⟨"b", cardRow 2 ["#staff"]⟩, ⟨"a", cardRow 1 ["staff", "#staff"]⟩], by
    simp [List.NodupKeys, List.keys]⟩
  unique id row h := by
    have hmem := AList.mem_lookup_iff.1 h
    simp only [List.mem_cons, List.not_mem_nil, or_false] at hmem
    obtain hrow | hrow := hmem <;> cases hrow <;> decide
  documents_le := by decide
  indexes_le := by decide

theorem sort_halfMigrated_joined :
    sort byCharacters Prod.fst (halfMigrated.joined markingCrypto Card "group" "staff") =
      [("a", cardRow 1 ["staff", "#staff"]), ("a", cardRow 1 ["staff", "#staff"]),
        ("b", cardRow 2 ["#staff"])] := by
  have hrows : halfMigrated.joined markingCrypto Card "group" "staff" =
      [("b", cardRow 2 ["#staff"]), ("a", cardRow 1 ["staff", "#staff"]),
        ("a", cardRow 1 ["staff", "#staff"])] := rfl
  rw [hrows]
  simp [sort, List.mergeSort, List.MergeSort.Internal.splitInTwo, byCharacters]

theorem sort_halfMigrated_ofType :
    sort byCharacters Prod.fst (halfMigrated.ofType Card) =
      [("a", cardRow 1 ["staff", "#staff"]), ("b", cardRow 2 ["#staff"])] := by
  have hrows : halfMigrated.ofType Card =
      [("b", cardRow 2 ["#staff"]), ("a", cardRow 1 ["staff", "#staff"])] := rfl
  rw [hrows]
  simp [sort, List.mergeSort, List.MergeSort.Internal.splitInTwo, byCharacters]

/-- The listing of the group and its pages of two hold the older card twice, its pages of one hold
it once; and the newest card, first in the listing of all cards, is on the last of its pages. -/
theorem listed_twice :
    (halfMigrated.findAll byCharacters markingCrypto Card "group" "staff").toOption.map
        (·.map (·.id)) = some ["a", "a", "b"] ∧
      ((halfMigrated.walkFound byCharacters markingCrypto Card "group" "staff" 2 4).bind
        Except.toOption).map (·.map (·.id)) = some ["a", "a", "b"] ∧
      ((halfMigrated.walkFound byCharacters markingCrypto Card "group" "staff" 1 4).bind
        Except.toOption).map (·.map (·.id)) = some ["a", "b"] ∧
      (halfMigrated.listAll Card).toOption.map (·.map (·.id)) = some ["b", "a"] ∧
      ((halfMigrated.walkAll byCharacters Card 1 3).bind Except.toOption).map (·.map (·.id)) =
        some ["a", "b"] := by
  simp only [findAll, walkFound, walkAll, findPaginated, listAllPaginated,
    sort_halfMigrated_joined, sort_halfMigrated_ofType]
  refine ⟨by decide +kernel, by decide +kernel, by decide +kernel, ?_, by decide +kernel⟩
  have hrows : halfMigrated.ofType Card =
      [("b", cardRow 2 ["#staff"]), ("a", cardRow 1 ["staff", "#staff"])] := rfl
  have hsorted : (halfMigrated.ofType Card).mergeSort
      (fun a b => decide (b.2.createdAt ≤ a.2.createdAt)) = halfMigrated.ofType Card :=
    List.mergeSort_of_pairwise (by rw [hrows]; decide)
  rw [listAll, hsorted, hrows]
  decide +kernel

end Content

end Vouch
