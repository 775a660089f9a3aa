import Vouch.Store.Spec

/-!
# Version guards

`Since p v F` is what a version guard is for.  A transaction that read version `v` of the document
`p` and then found `F` may go on assuming that `F` holds *or `p` has moved on*, as long as whatever
takes `F` away moves `p` on in the same commit; and a guarded write of `p` at version `v` rules the
second case out.

* `Passed`, `Advances` — to have moved on, and the writes that keep it so.
* `stable_since` — the assumption is one that the other threads leave alone.
-/

namespace Vouch

open ReadCommitted Interleaving ReadCommitted.Protocol

variable {ι D : Type} [DecidableEq ι] {i : ι}

/-- The document at `p` has had version `v` and has moved on: it has a later version, or is gone for
good. -/
def Passed (p : String) (v : Int) (d : Durable ι String (Row D) Timestamp) : Prop :=
  (∃ row, d.committed.lookup p = some row ∧ v < row.version) ∨
    d.committed.lookup p = none ∧ history p d.log ≠ []

/-- Version `v` of the document at `p` is the current one and `F` holds, or `p` has moved on. -/
def Since (p : String) (v : Int) (F : Durable ι String (Row D) Timestamp → Prop)
    (d : Durable ι String (Row D) Timestamp) : Prop :=
  (∃ row, d.committed.lookup p = some row ∧ row.version = v ∧ F d) ∨ Passed p v d

variable {p : String} {v : Int} {F : DbDurable ι D → Prop}
  {d d' : DbDurable ι D}

omit [DecidableEq ι] in
/-- A guarded write of `p` that goes through shows that `F` holds. -/
theorem Since.holds (h : Since p v F d) {row : Row D} (hrow : d.committed.lookup p = some row)
    (hv : row.version = v) : F d := by
  rcases h with ⟨_, _, _, hF⟩ | ⟨row', hrow', hlt⟩ | ⟨hnone, _⟩
  · exact hF
  · obtain rfl := Option.some.inj (hrow.symm.trans hrow')
    omega
  · rw [hrow] at hnone
    cases hnone

omit [DecidableEq ι] in
theorem Since.of_read {row : Row D} (hrow : d.committed.lookup p = some row) (hF : F d) :
    Since p row.version F d :=
  .inl ⟨row, hrow, rfl, hF⟩

/-- How a commit may leave the document at a key: with no earlier version, and not back from the
dead. -/
def Advances (past : List (Change ι String (Row D))) (old new : Option (Row D)) : Prop :=
  (∀ o n, old = some o → new = some n → o.version ≤ n.version) ∧
    (old = none → ∀ n, new = some n → past = [])

variable {j : ι} {W : Writes String (Row D)}

omit [DecidableEq ι] in
/-- Having moved on is for good. -/
theorem Passed.commits (h : Passed p v d) (hcom : Commits j W d d')
    (hW : ∀ w, W p = some w → Advances (history p d.log) (d.committed.lookup p) w) :
    Passed p v d' := by
  cases hw : W p with
  | none =>
    rw [Passed, hcom.lookup_of_none hw, hcom.history_of_none hw]
    exact h
  | some w =>
    have hadv := hW w hw
    rw [Passed, hcom.lookup_of_some hw, hcom.history_of_some hw]
    cases w with
    | none => exact .inr ⟨rfl, by simp⟩
    | some new =>
      rcases h with ⟨row, hrow, hlt⟩ | ⟨hnone, hpast⟩
      · have := hadv.1 row new hrow rfl
        exact .inl ⟨new, rfl, by omega⟩
      · exact absurd (hadv.2 hnone new rfl) hpast

omit [DecidableEq ι] in
theorem Since.commits (h : Since p v F d) (hcom : Commits j W d d')
    (hW : ∀ w, W p = some w → Advances (history p d.log) (d.committed.lookup p) w)
    (hF : ∀ row row', d.committed.lookup p = some row → d'.committed.lookup p = some row' →
      row'.version = row.version → F d → F d') : Since p v F d' := by
  rcases h with ⟨row, hrow, hv, hFd⟩ | h
  · cases hw : W p with
    | none =>
      have hrow' := (hcom.lookup_of_none hw).trans hrow
      exact .inl ⟨row, hrow', hv, hF row row hrow hrow' rfl hFd⟩
    | some w =>
      have hrow' := hcom.lookup_of_some hw
      cases w with
      | none => exact .inr (.inr ⟨hrow', by rw [hcom.history_of_some hw]; simp⟩)
      | some new =>
        have hle := (hW _ hw).1 row new hrow rfl
        rcases eq_or_lt_of_le hle with heq | hlt
        · exact .inl ⟨new, hrow', by omega, hF row new hrow hrow' heq.symm hFd⟩
        · exact .inr (.inl ⟨new, hrow', by omega⟩)
  · exact .inr (h.commits hcom hW)

variable {cond : ι → Stmt String (Row D) → DbState ι D → Prop}
  {start : DbDurable ι D → Prop}
  {may : ι → DbDurable ι D → Writes String (Row D) → Prop}

/-- **Version guards.**  If every commit that takes `F` away moves `p` on, then after reading a
version of `p` and finding `F` a transaction may go on assuming `Since p v F`. -/
theorem stable_since
    (hadv : ∀ j W d, may j d W → ∀ w, W p = some w →
      Advances (history p d.log) (d.committed.lookup p) w)
    (htick : ∀ d c, d.clock ≤ c → F d → F { d with clock := c })
    (hF : ∀ j W d d', Reachable start may d → may j d W → Commits j W d d' →
      ∀ row row', d.committed.lookup p = some row → d'.committed.lookup p = some row' →
      row'.version = row.version → F d → F d') :
    (atomicProtocol cond start may).Stable i fun d => Reachable start may d ∧ Since p v F d := by
  refine atomic_stable (fun d c hc h => ?_) fun j W d d' hr hmay hcom h => ?_
  · exact Or.imp (fun ⟨row, hrow, hv, hF⟩ => ⟨row, hrow, hv, htick d c hc hF⟩) id h
  · exact h.commits hcom (hadv j W d hmay) (hF j W d d' hr hmay hcom)

end Vouch
