import Vouch.Lib.Protocol

/-!
# One thread among any others

What one thread does may depend on what happens at *every* step of a run, and not on any discipline
of the other threads, which may be any programs at all.

* `ReachesIn W` — some interleaving leads from one configuration to another, all of whose steps meet
  the condition `W` on the configuration before, the thread, its operation and the state after;
  `reachesIn_of_runIn` reads one off a schedule that runs.
* `Prog.Within` — what a thread can return if its own steps meet `V`, and if the state in which it
  comes to perform an operation is related by `R` to the one its last operation left.
  `Within.of_reachesIn` is its soundness.
* `WithinE` — `Within` for programs that can fail, with a rule for each way to build one and, for a
  READ COMMITTED table, for the statements.
-/

namespace Interleaving

variable {ι Op Choice σ : Type} {Res : Op → Type} {α : ι → Type}

section Semantics

variable [DecidableEq ι] (exec : ι → (o : Op) → Choice → σ → Option (Res o × σ))
  (W : Config ι Op Res α σ → ι → Op → σ → Bool)

/-- One step of some thread that meets the condition. -/
def StepIn (p q : Config ι Op Res α σ) : Prop :=
  ∃ i o k c r s, p.threads i = .call o k ∧ exec i o c p.shared = some (r, s) ∧ W p i o s = true ∧
    q = { threads := Function.update p.threads i (k r), shared := s }

/-- Some interleaving whose steps all meet the condition. -/
def ReachesIn : Config ι Op Res α σ → Config ι Op Res α σ → Prop :=
  Relation.ReflTransGen (StepIn exec W)

/-- Run a schedule whose steps all meet the condition. -/
def Config.runIn : List (ι × Choice) → Config ι Op Res α σ → Option (Config ι Op Res α σ)
  | [], p => some p
  | (i, c) :: rest, p =>
    match p.threads i with
    | .ret _ => none
    | .call o k =>
      match exec i o c p.shared with
      | none => none
      | some (r, s) =>
        if W p i o s then
          Config.runIn rest { threads := Function.update p.threads i (k r), shared := s }
        else none

variable {exec W}

/-- A schedule that runs is such an interleaving. -/
theorem reachesIn_of_runIn {p q : Config ι Op Res α σ} {sched : List (ι × Choice)}
    (h : p.runIn exec W sched = some q) : ReachesIn exec W p q := by
  induction sched generalizing p with
  | nil =>
    cases h
    exact .refl
  | cons m rest ih =>
    obtain ⟨i, c⟩ := m
    rw [Config.runIn] at h
    split at h
    · cases h
    · rename_i o k hp
      split at h
      · cases h
      · rename_i r s hx
        split at h
        · rename_i hW
          exact .head ⟨i, o, k, c, r, s, hp, hx, hW, rfl⟩ (ih h)
        · cases h

end Semantics

namespace Prog

variable {β γ : Type} (exec : (o : Op) → Choice → σ → Option (Res o × σ)) (V : Op → σ → Prop)
  (R : Op → σ → σ → Prop)

/-- What a program that goes on from a state may return, and in which state, when the others keep to
`R` until it comes to an operation, and each operation leaves a state that meets `V`. -/
def Within : Prog Op Res β → σ → (β → σ → Prop) → Prop
  | .ret b, s, Q => Q b s
  | .call o k, s, Q =>
    ∀ t c r u, R o s t → exec o c t = some (r, u) → V o u → Within (k r) u Q

variable {exec V R}

theorem Within.mono {p : Prog Op Res β} {s : σ} {Q Q' : β → σ → Prop}
    (h : Within exec V R p s Q) (hQ : ∀ b u, Q b u → Q' b u) : Within exec V R p s Q' := by
  induction p generalizing s with
  | ret b => exact hQ b s h
  | call o k ih => exact fun t c r u hR hx hV => ih r (h t c r u hR hx hV)

theorem Within.bind {p : Prog Op Res β} {f : β → Prog Op Res γ} {s : σ} {Q : γ → σ → Prop}
    (h : Within exec V R p s fun b u => Within exec V R (f b) u Q) :
    Within exec V R (p >>= f) s Q := by
  induction p generalizing s with
  | ret b => exact h
  | call o k ih => exact fun t c r u hR hx hV => ih r (h t c r u hR hx hV)

/-- To rely on less is to say more. -/
theorem Within.weaken {R' : Op → σ → σ → Prop} {p : Prog Op Res β} {s : σ} {Q : β → σ → Prop}
    (h : Within exec V R p s Q) (hR : ∀ o s t, R' o s t → R o s t) : Within exec V R' p s Q := by
  induction p generalizing s with
  | ret b => exact h
  | call o k ih => exact fun t c r u hR' hx hV => ih r (h t c r u (hR o s t hR') hx hV)

theorem within_true (p : Prog Op Res β) (s : σ) : Within exec V R p s fun _ _ => True := by
  induction p generalizing s with
  | ret b => trivial
  | call o k ih => exact fun _ _ r u _ _ _ => ih r u

end Prog

section Soundness

variable [DecidableEq ι] {exec : ι → (o : Op) → Choice → σ → Option (Res o × σ)}
  {W : Config ι Op Res α σ → ι → Op → σ → Bool} {V : Op → σ → Prop} {R : Op → σ → σ → Prop}
  {p q : Config ι Op Res α σ} {i : ι} {Q : α i → Prop}

/-- **Soundness.**  Let the steps of a thread that meet `W` meet `V`, and let those of the others
keep what the thread relies on.  Then along a run whose steps meet `W` the thread keeps to what it
can return. -/
theorem Within.of_reachesIn (hown : ∀ p o u, W p i o u = true → V o u) (hrefl : ∀ o s, R o s s)
    (hothers : ∀ (p : Config ι Op Res α σ) (j : ι) (o o' : Op) (k : Res o → Prog Op Res (α i))
      (c : Choice) (r : Res o') (s u : σ), j ≠ i → p.threads i = .call o k →
      exec j o' c p.shared = some (r, u) → W p j o' u = true → R o s p.shared → R o s u)
    (h : Prog.Within (exec i) V R (p.threads i) p.shared fun b _ => Q b)
    (hrun : ReachesIn exec W p q) :
    ∃ s, (∀ o k, q.threads i = .call o k → R o s q.shared) ∧
      Prog.Within (exec i) V R (q.threads i) s fun b _ => Q b := by
  induction hrun with
  | refl => exact ⟨p.shared, fun o _ _ => hrefl o _, h⟩
  | @tail m q _ hstep ih =>
    obtain ⟨s, hR, hwithin⟩ := ih
    obtain ⟨j, o, k, c, r, u, hm, hx, hW, rfl⟩ := hstep
    by_cases hj : i = j
    · -- The thread's own step: it goes on from the state that it left.
      subst hj
      rw [hm] at hwithin
      refine ⟨u, fun o' _ _ => hrefl o' _, ?_⟩
      simpa using hwithin _ c r u (hR o k hm) hx (hown m o u hW)
    · refine ⟨s, fun o' k' hq => ?_, by simpa [Function.update_of_ne hj] using hwithin⟩
      have hm' : m.threads i = .call o' k' := by simpa [Function.update_of_ne hj] using hq
      exact hothers m j o' o k' c r s u (Ne.symm hj) hm' hx hW (hR o' k' hm')

end Soundness

/-! ## Programs that can fail -/

section Errors

variable {β γ ε ε' : Type} {exec : (o : Op) → Choice → σ → Option (Res o × σ)}
  {V : Op → σ → Prop} {R : Op → σ → σ → Prop} {s : σ}

/-- What is returned, or the failure, satisfies its predicate. -/
def Outcome {α ε : Type} (Q : α → σ → Prop) (E : ε → σ → Prop) : Except ε α → σ → Prop
  | .ok a => Q a
  | .error e => E e

/-- `Q` is asked of what a program returns, `E` of how it fails. -/
def WithinE (exec : (o : Op) → Choice → σ → Option (Res o × σ)) (V : Op → σ → Prop)
    (R : Op → σ → σ → Prop) (x : ExceptT ε (Prog Op Res) β) (s : σ) (Q : β → σ → Prop)
    (E : ε → σ → Prop) : Prop :=
  Prog.Within exec V R x.run s (Outcome Q E)

variable {Q : β → σ → Prop} {E : ε → σ → Prop} {x : ExceptT ε (Prog Op Res) β}

theorem WithinE.mono {Q' : β → σ → Prop} {E' : ε → σ → Prop} (h : WithinE exec V R x s Q E)
    (hQ : ∀ b u, Q b u → Q' b u) (hE : ∀ e u, E e u → E' e u) : WithinE exec V R x s Q' E' :=
  Prog.Within.mono h fun r u hr => by
    cases r with
    | ok b => exact hQ b u hr
    | error e => exact hE e u hr

theorem withinE_pure {b : β} (h : Q b s) :
    WithinE exec V R (pure b : ExceptT ε (Prog Op Res) β) s Q E := h

theorem withinE_throw {e : ε} (h : E e s) :
    WithinE exec V R (throw e : ExceptT ε (Prog Op Res) β) s Q E := h

theorem WithinE.bind {x : ExceptT ε (Prog Op Res) γ} {f : γ → ExceptT ε (Prog Op Res) β}
    (h : WithinE exec V R x s (fun c u => WithinE exec V R (f c) u Q E) E) :
    WithinE exec V R (x >>= f) s Q E := by
  refine Prog.Within.bind (Prog.Within.mono h fun r u hr => ?_)
  cases r with
  | ok c => exact hr
  | error e => exact hr

theorem withinE_orThrow {x : Except ε β} (hok : ∀ b, x = .ok b → Q b s)
    (herr : ∀ e, x = .error e → E e s) : WithinE exec V R (orThrow x) s Q E := by
  cases x with
  | ok b => exact hok b rfl
  | error e => exact herr e rfl

theorem withinE_attempt {Q : Except ε β → σ → Prop} {E : ε' → σ → Prop}
    (h : WithinE exec V R x s (fun b => Q (.ok b)) fun e => Q (.error e)) :
    WithinE exec V R (attempt x : ExceptT ε' (Prog Op Res) _) s Q E := by
  refine Prog.Within.bind (Prog.Within.mono h fun r u hr => ?_)
  cases r with
  | ok b => exact hr
  | error e => exact hr

theorem withinE_mapError {f : ε → ε'} {E : ε' → σ → Prop}
    (h : WithinE exec V R x s Q fun e => E (f e)) : WithinE exec V R (mapError f x) s Q E := by
  refine Prog.Within.bind (Prog.Within.mono h fun r u hr => ?_)
  cases r with
  | ok b => exact hr
  | error e => exact hr

end Errors

end Interleaving

/-! ## Statements -/

namespace ReadCommitted

open Interleaving

variable {ι Id Row Time ε α : Type} [DecidableEq ι] [DecidableEq Id] [Preorder Time]
  [DecidableLE Time] {i : ι} {V : Stmt Id Row → Db ι Id Row Time → Prop}
  {R : Stmt Id Row → Db ι Id Row Time → Db ι Id Row Time → Prop} {s : Db ι Id Row Time}

section Rules

variable [OfDbError ε] {E : ε → Db ι Id Row Time → Prop}

/-- A statement that only passes on what it was answered. -/
theorem withinE_orFail {p : Program Id Row Time (Except DbError α)}
    {Q : α → Db ι Id Row Time → Prop}
    (h : Prog.Within (exec i) V R p s (Outcome Q fun e => E (ofDbError e))) :
    WithinE (exec i) V R (orFail p : ExceptT ε (Program Id Row Time) α) s Q E := by
  refine Prog.Within.bind (Prog.Within.mono h fun r u hr => ?_)
  cases r with
  | ok a => exact hr
  | error e => exact hr

theorem withinE_begin {Q : Unit → Db ι Id Row Time → Prop}
    (herr : ∀ e t, R .begin s t → E (ofDbError e) t) (h : ∀ t, R .begin s t → Q () (t.discard i)) :
    WithinE (exec i) V R (Sql.begin : ExceptT ε _ _) s Q E := by
  refine withinE_orFail fun t c r u hR hx _ => ?_
  rcases unlessFault_eq_some hx with ⟨_, rfl, rfl⟩ | hx
  · exact herr _ _ hR
  · cases hx
    exact h t hR

/-- A commit that fails changes nothing. -/
theorem withinE_commit {Q : Unit → Db ι Id Row Time → Prop}
    (herr : ∀ e t, R .commit s t → E (ofDbError e) t)
    (h : ∀ t, R .commit s t → Q () (t.install i)) :
    WithinE (exec i) V R (Sql.commit : ExceptT ε _ _) s Q E := by
  refine withinE_orFail fun t c r u hR hx _ => ?_
  rcases unlessFault_eq_some hx with ⟨_, rfl, rfl⟩ | hx
  · exact herr _ _ hR
  · cases hx
    exact h t hR

/-- What a lookup outside a transaction finds is committed at the time. -/
theorem withinE_poolSelect {p : Id → Row → Bool} {Q : List (Id × Row) → Db ι Id Row Time → Prop}
    (herr : ∀ e u, E (ofDbError e) u)
    (h : ∀ u, V (.poolSelect p) u → Q (u.committed.rows.filter fun r => p r.1 r.2) u) :
    WithinE (exec i) V R (Sql.poolSelect p : ExceptT ε _ _) s Q E := by
  refine withinE_orFail fun t c r u _ hx hV => ?_
  rcases unlessFault_eq_some hx with ⟨_, rfl, rfl⟩ | hx
  · exact herr _ _
  · cases hx
    exact h _ hV

/-- A guarded write that finds the row as the guard wants it is told so. -/
theorem withinE_update {id : Id} {guard : Row → Bool} {set : Row → Row}
    {Q : Bool → Db ι Id Row Time → Prop}
    (herr : ∀ e t, R (.update id guard set) s t → E (ofDbError e) t)
    (h : ∀ t, R (.update id guard set) s t → ∃ row, (t.visible i).lookup id = some row ∧
      guard row = true ∧ Q true (t.write i id (some (set row)))) :
    WithinE (exec i) V R (Sql.update id guard set : ExceptT ε _ _) s Q E := by
  refine withinE_orFail fun t c r u hR hx _ => ?_
  obtain ⟨row, hrow, hguard, hQ⟩ := h t hR
  rcases exec_update hx with ⟨_, rfl, rfl⟩ | ⟨_, _, hfalse⟩ | ⟨row', rfl, hrow', _, _, rfl⟩
  · exact herr _ _ hR
  · exact absurd hguard (by simp [hfalse row hrow])
  · obtain rfl := Option.some.inj (hrow.symm.trans hrow')
    exact hQ

end Rules

theorem withinE_now {Q : Time → Db ι Id Row Time → Prop} {E : ε → Db ι Id Row Time → Prop}
    (h : ∀ t now, R .now s t → V .now { t with clock := now } → Q now { t with clock := now }) :
    WithinE (exec i) V R (Sql.now : ExceptT ε _ _) s Q E := by
  intro t c r u hR hx hV
  obtain ⟨-, rfl⟩ := exec_now hx
  exact h t r hR hV

theorem withinE_rollback {Q : Unit → Db ι Id Row Time → Prop} {E : ε → Db ι Id Row Time → Prop}
    (h : ∀ t, R .rollback s t → Q () (t.discard i)) :
    WithinE (exec i) V R (Sql.rollback : ExceptT ε _ _) s Q E := by
  intro t c r u hR hx _
  cases hx
  exact h t hR

/-- A transaction that is run again from wherever a failed run of it leads returns what one run of
it returns. -/
theorem withinE_retrying {retryable : ε → Bool} {body : ExceptT ε (Program Id Row Time) α}
    {K : Db ι Id Row Time → Prop} {Q : α → Prop} {E : ε → Prop}
    (hK : ∀ u t, K u → R .rollback u t → K (t.discard i))
    (h : ∀ s, K s → WithinE (exec i) V R body s (fun a _ => Q a) fun e u => E e ∧ K u) :
    ∀ n s, K s →
      WithinE (exec i) V R (retrying retryable body n) s (fun a _ => Q a) fun e _ => E e := by
  -- One run, and the end of its transaction.
  have hclosing : ∀ s, K s → WithinE (exec i) V R (closing body) s
      (fun r u => Outcome (fun a _ => Q a) (fun e u => E e ∧ K u) r u) fun e _ => E e :=
    fun s hs => .bind (withinE_attempt ((h s hs).mono
      (fun a u ha => .bind (withinE_rollback fun t _ => withinE_pure ha))
      fun e u he => .bind (withinE_rollback fun t hR => withinE_pure ⟨he.1, hK u t he.2 hR⟩)))
  intro n
  induction n with
  | zero =>
    refine fun s hs => .bind ((hclosing s hs).mono (fun r u hr => ?_) fun _ _ he => he)
    cases r with
    | ok a => exact withinE_pure hr
    | error e => exact withinE_throw hr.1
  | succ n ih =>
    refine fun s hs => .bind ((hclosing s hs).mono (fun r u hr => ?_) fun _ _ he => he)
    cases r with
    | ok a => exact withinE_pure hr
    | error e =>
      dsimp only
      split
      · exact ih u hr.2
      · exact withinE_throw hr.1

end ReadCommitted
