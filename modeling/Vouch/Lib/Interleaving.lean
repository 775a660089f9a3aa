import Mathlib.Logic.Function.Basic
import Mathlib.Logic.Relation

/-!
# Interleaved programs and rely–guarantee reasoning

A concurrent system here is a shared state and any number of *threads*, each running a program that
talks to the state through atomic operations.  Nothing is assumed about the scheduler: between any
two operations of one thread the others may take as many steps as they like.

* `Prog Op Res α` is a program: a finitely branching-in-time tree of operations `o : Op`, each
  followed by a continuation that reads the operation's answer in `Res o`.  It is a monad, so
  programs are written in `do` notation.
* `Config` is a pool of programs with the state they share, `Config.step` runs one operation of one
  thread, and `Config.run` runs a whole schedule.  Both are computable, so a schedule that exhibits
  some behaviour can be evaluated.
* `Reaches` is the relation behind `Config.run`: some schedule, every step of which meets a side
  condition `cond`, leads from one configuration to the other.
* `Config.forall_along_iff` says of one run when a property holds after each of its steps.
* `attempt` turns a program that can fail into one that reports whether it did, `mapError` renames
  its failures, and `orThrow` passes on the outcome of a computation that performs no operation.
* `Discipline` is a rely–guarantee discipline over the shared state — an invariant, what each thread
  may rely on the others to do, and what it guarantees in return — and `Discipline.Safe` is the
  weakest precondition of a program under it.  `Discipline.sound` is the one induction over runs:
  if every thread is safe at the start then the invariant, and the postcondition of every finished
  thread, hold wherever the run leads.  `Discipline.SafeE` is the same for programs that can fail,
  with a postcondition for each outcome.

The point of `Safe` being stable (`Discipline.Safe.rely`) is that a proof about a thread never
mentions the other threads: it may use what held at its last step as far as the rely relation
carries it, and no further.
-/

namespace Interleaving

/-- A program over the operations `Op`: it either returns, or performs one operation and goes on
with a program that depends on the answer. -/
inductive Prog (Op : Type) (Res : Op → Type) (α : Type) : Type
  | ret (a : α)
  | call (o : Op) (k : Res o → Prog Op Res α)

namespace Prog

variable {Op : Type} {Res : Op → Type} {α β : Type}

/-- Run `f` on what the program returns. -/
def bind : Prog Op Res α → (α → Prog Op Res β) → Prog Op Res β
  | ret a, f => f a
  | call o k, f => call o fun r => (k r).bind f

instance : Monad (Prog Op Res) where
  pure := ret
  bind := bind

/-- The program that performs one operation and returns its answer. -/
def perform (o : Op) : Prog Op Res (Res o) := call o ret

/-- What a finished program returned. -/
def result? : Prog Op Res α → Option α
  | ret a => some a
  | call _ _ => none

theorem result?_eq_some {p : Prog Op Res α} {a : α} : p.result? = some a ↔ p = ret a := by
  cases p <;> simp [result?]

end Prog

/-- Run a program that can fail, and report its outcome instead of failing with it. -/
def attempt {m : Type → Type} [Monad m] {ε ε' α : Type} (x : ExceptT ε m α) :
    ExceptT ε' m (Except ε α) :=
  ExceptT.lift x.run

/-- Pass on the outcome of a computation that performs no operation. -/
def orThrow {Op : Type} {Res : Op → Type} {ε α : Type} (x : Except ε α) :
    ExceptT ε (Prog Op Res) α :=
  ExceptT.mk (.ret x)

/-- Report a failure as another kind of error. -/
def mapError {m : Type → Type} [Monad m] {ε ε' α : Type} (f : ε → ε') (x : ExceptT ε m α) :
    ExceptT ε' m α :=
  ExceptT.mk (x.run >>= fun
    | .ok a => pure (.ok a)
    | .error e => pure (.error (f e)))

/-! ## Pools of threads -/

/-- A pool of threads, thread `i` returning an `α i`, with the state they share. -/
structure Config (ι Op : Type) (Res : Op → Type) (α : ι → Type) (σ : Type) where
  /-- What each thread has left to run. -/
  threads : (i : ι) → Prog Op Res (α i)
  /-- The shared state. -/
  shared : σ

section Semantics

variable {ι Op Choice σ : Type} {Res : Op → Type} {α : ι → Type} [DecidableEq ι]

variable (exec : ι → (o : Op) → Choice → σ → Option (Res o × σ))

/-- One step of thread `i`.  The `Choice` resolves whatever the operation leaves open; `none` means
that the thread has finished, or that its next operation is not enabled. -/
def Config.step (p : Config ι Op Res α σ) (i : ι) (c : Choice) : Option (Config ι Op Res α σ) :=
  match p.threads i with
  | .ret _ => none
  | .call o k => (exec i o c p.shared).map fun x =>
      { threads := Function.update p.threads i (k x.1), shared := x.2 }

/-- Whether the next operation of thread `i` passes a test. -/
def Config.passes (check : ι → Op → σ → Bool) (p : Config ι Op Res α σ) (i : ι) : Bool :=
  match p.threads i with
  | .ret _ => false
  | .call o _ => check i o p.shared

/-- Run a schedule: which thread moves, and how its operation's freedom is resolved.  Every step has
to pass the test. -/
def Config.run (check : ι → Op → σ → Bool) :
    List (ι × Choice) → Config ι Op Res α σ → Option (Config ι Op Res α σ)
  | [], p => some p
  | (i, c) :: rest, p =>
    if p.passes check i then (p.step exec i c).bind (Config.run check rest) else none

/-- One step of some thread whose operation meets `cond`. -/
def Step (cond : ι → Op → σ → Prop) (p q : Config ι Op Res α σ) : Prop :=
  ∃ i o k c r s, p.threads i = .call o k ∧ cond i o p.shared ∧ exec i o c p.shared = some (r, s) ∧
    q = { threads := Function.update p.threads i (k r), shared := s }

/-- Some interleaving whose steps all meet `cond` leads from the first configuration to the
second. -/
def Reaches (cond : ι → Op → σ → Prop) : Config ι Op Res α σ → Config ι Op Res α σ → Prop :=
  Relation.ReflTransGen (Step exec cond)

variable {exec}

variable {p q : Config ι Op Res α σ}

theorem Config.step_eq_some {i : ι} {c : Choice} (h : p.step exec i c = some q) :
    ∃ o k r s, p.threads i = .call o k ∧ exec i o c p.shared = some (r, s) ∧
      q = { threads := Function.update p.threads i (k r), shared := s } := by
  rw [Config.step] at h
  split at h
  · cases h
  · rename_i o k hp
    obtain ⟨⟨r, s⟩, hx, rfl⟩ := Option.map_eq_some_iff.mp h
    exact ⟨o, k, r, s, hp, hx, rfl⟩

variable {check : ι → Op → σ → Bool}

/-- A schedule that runs is an interleaving. -/
theorem reaches_of_run {cond : ι → Op → σ → Prop}
    (hcheck : ∀ i o s, check i o s = true → cond i o s) {sched : List (ι × Choice)}
    (h : p.run exec check sched = some q) : Reaches exec cond p q := by
  induction sched generalizing p with
  | nil => cases h; exact .refl
  | cons m rest ih =>
    obtain ⟨i, c⟩ := m
    rw [Config.run] at h
    split at h
    · rename_i hpass
      obtain ⟨m, hm, hrest⟩ := Option.bind_eq_some_iff.mp h
      obtain ⟨o, k, r, s, hp, hx, rfl⟩ := Config.step_eq_some hm
      rw [Config.passes, hp] at hpass
      exact .head ⟨i, o, k, c, r, s, hp, hcheck i o _ hpass, hx, rfl⟩ (ih hrest)
    · cases h

/-- A schedule that runs leads to what is reported of it. -/
theorem exists_of_run {C : ι → Op → σ → Prop} (hcheck : ∀ i o s, check i o s = true → C i o s)
    {β : Type} {report : Config ι Op Res α σ → β} {sched : List (ι × Choice)} {b : β}
    (h : (p.run exec check sched).map report = some b) :
    ∃ q, Reaches exec C p q ∧ report q = b :=
  have ⟨q, hq, hb⟩ := Option.map_eq_some_iff.mp h
  ⟨q, reaches_of_run hcheck hq, hb⟩

/-- A run whose first step is that of thread `i`, with no test or with one. -/
theorem Config.run_cons {i : ι} {o : Op} {k : Res o → Prog Op Res (α i)}
    (hp : p.threads i = .call o k) (c : Choice) (rest : List (ι × Choice)) :
    p.run exec check ((i, c) :: rest) =
      if check i o p.shared then (p.step exec i c).bind (Config.run exec check rest) else none := by
  rw [Config.run, Config.passes, hp]

/-- A run without tests whose first step is that of thread `i`. -/
theorem Config.run_cons_eq_some {i : ι} {c : Choice} {rest : List (ι × Choice)}
    (h : p.run exec (fun _ _ _ => true) ((i, c) :: rest) = some q) :
    ∃ o k r s, p.threads i = .call o k ∧ exec i o c p.shared = some (r, s) ∧
      p.step exec i c = some { threads := Function.update p.threads i (k r), shared := s } ∧
      Config.run exec (fun _ _ _ => true) rest
        { threads := Function.update p.threads i (k r), shared := s } = some q := by
  rw [Config.run] at h
  split at h
  · obtain ⟨m, hm, hrest⟩ := Option.bind_eq_some_iff.mp h
    obtain ⟨o, k, r, s, hp, hx, rfl⟩ := Config.step_eq_some hm
    exact ⟨o, k, r, s, hp, hx, hm, hrest⟩
  · cases h

/-- **A property holds all along a run exactly when every step passes a test**, if a step that
passes keeps an invariant that gives the property, and one that does not breaks the property at
once. -/
theorem Config.forall_along_iff {Inv P : σ → Prop} (hP : ∀ s, Inv s → P s)
    (hpass : ∀ i o c s r t, Inv s → exec i o c s = some (r, t) → check i o s = true → Inv t)
    (hfail : ∀ i o c s r t, Inv s → exec i o c s = some (r, t) → check i o s = false → ¬ P t)
    (hinv : Inv p.shared) {sched : List (ι × Choice)}
    (hrun : p.run exec (fun _ _ _ => true) sched = some q) :
    (∀ before, before <+: sched → ∀ m,
      p.run exec (fun _ _ _ => true) before = some m → P m.shared) ↔
      p.run exec check sched = some q := by
  induction sched generalizing p with
  | nil =>
    refine ⟨fun _ => hrun, fun _ before hbefore m hm => ?_⟩
    obtain rfl := List.prefix_nil.mp hbefore
    cases hm
    exact hP _ hinv
  | cons first rest ih =>
    obtain ⟨i, c⟩ := first
    obtain ⟨o, k, r, s, hp, hx, hstep, hrest⟩ := Config.run_cons_eq_some hrun
    have hrun' : ∀ before, p.run exec (fun _ _ _ => true) ((i, c) :: before) =
        Config.run exec (fun _ _ _ => true) before
          { threads := Function.update p.threads i (k r), shared := s } := by
      intro before
      rw [Config.run_cons hp, if_pos rfl, hstep, Option.bind_some]
    rw [Config.run_cons hp, hstep, Option.bind_some]
    cases hcheck : check i o p.shared with
    | false =>
      refine ⟨fun h => ?_, fun h => by cases h⟩
      have hone := h [(i, c)] (List.cons_prefix_cons.mpr ⟨rfl, List.nil_prefix⟩) _ (hrun' [])
      exact absurd hone (hfail i o c _ r s hinv hx hcheck)
    | true =>
      rw [if_pos rfl, ← ih (hpass i o c _ r s hinv hx hcheck) hrest]
      constructor
      · intro h before hbefore m hm
        exact h _ (List.cons_prefix_cons.mpr ⟨rfl, hbefore⟩) m ((hrun' before).trans hm)
      · intro h before hbefore m hm
        cases before with
        | nil =>
          cases hm
          exact hP _ hinv
        | cons first' before =>
          obtain ⟨rfl, hmore⟩ := List.cons_prefix_cons.mp hbefore
          rw [hrun'] at hm
          exact h before hmore m hm

end Semantics

/-! ## Rely–guarantee -/

/-- A rely–guarantee discipline for the operations of `exec`. -/
structure Discipline (ι : Type) {Op Choice σ : Type} {Res : Op → Type}
    (exec : ι → (o : Op) → Choice → σ → Option (Res o × σ)) where
  /-- The side condition every step of the run meets. -/
  cond : ι → Op → σ → Prop
  /-- The invariant every step keeps. -/
  inv : σ → Prop
  /-- What thread `i` may rely on the others to do between two of its own steps. -/
  rely : ι → σ → σ → Prop
  /-- What thread `i` guarantees of each of its own steps. -/
  guar : ι → σ → σ → Prop
  rely_refl : ∀ i s, rely i s s
  rely_trans : ∀ i s t u, rely i s t → rely i t u → rely i s u
  /-- What one thread guarantees, the others rely on. -/
  rely_of_guar : ∀ i j s t, i ≠ j → guar j s t → rely i s t

namespace Discipline

variable {ι Op Choice σ : Type} {Res : Op → Type}
  {exec : ι → (o : Op) → Choice → σ → Option (Res o × σ)} (D : Discipline ι exec)

section Safe

variable {α β : Type} (i : ι)

/-- The weakest precondition of a program of thread `i`: whatever the others do in between, each of
its steps keeps the invariant and the guarantee, and it returns only where `Q` holds and goes on
holding. -/
def Safe : Prog Op Res α → (α → σ → Prop) → σ → Prop
  | .ret a, Q, s => ∀ t, D.rely i s t → D.inv t → Q a t
  | .call o k, Q, s => ∀ t, D.rely i s t → D.inv t → D.cond i o t → ∀ c r u,
      exec i o c t = some (r, u) → D.inv u ∧ D.guar i t u ∧ Safe (k r) Q u

variable {D i}

variable {p : Prog Op Res α}

/-- Safety is stable under what the other threads do. -/
theorem Safe.rely {Q : α → σ → Prop} {s t : σ} (h : D.Safe i p Q s) (hst : D.rely i s t) :
    D.Safe i p Q t := by
  cases p with
  | ret a => exact fun u htu => h u (D.rely_trans i s t u hst htu)
  | call o k => exact fun u htu => h u (D.rely_trans i s t u hst htu)

theorem Safe.mono {Q Q' : α → σ → Prop} {s : σ} (h : D.Safe i p Q s)
    (hQ : ∀ a t, D.inv t → Q a t → Q' a t) : D.Safe i p Q' s := by
  induction p generalizing s with
  | ret a => exact fun t hst hI => hQ a t hI (h t hst hI)
  | call o k ih =>
    intro t hst hI hc c r u hx
    obtain ⟨hI', hG, hk⟩ := h t hst hI hc c r u hx
    exact ⟨hI', hG, ih r hk⟩

/-- It is enough to be safe wherever the others may have led by the time the thread moves. -/
theorem safe_of_rely {Q : α → σ → Prop} {s : σ} (h : ∀ t, D.rely i s t → D.inv t → D.Safe i p Q t) :
    D.Safe i p Q s := by
  cases p with
  | ret a => exact fun t hst hI => h t hst hI t (D.rely_refl i t) hI
  | call o k => exact fun t hst hI => h t hst hI t (D.rely_refl i t) hI

/-- A program returns where its postcondition goes on holding. -/
theorem Safe.always {Q : α → σ → Prop} {s : σ} (h : D.Safe i p Q s) :
    D.Safe i p (fun a t => ∀ u, D.rely i t u → D.inv u → Q a u) s := by
  induction p generalizing s with
  | ret a => exact fun t hst _ u htu hI => h u (D.rely_trans i s t u hst htu) hI
  | call o k ih =>
    intro t hst hI hc c r u hx
    obtain ⟨hI', hG, hk⟩ := h t hst hI hc c r u hx
    exact ⟨hI', hG, ih r hk⟩

/-- A program may be verified against the weakest precondition of what follows it. -/
theorem Safe.bind {f : α → Prog Op Res β} {Q : β → σ → Prop} {s : σ}
    (h : D.Safe i p (fun a t => D.Safe i (f a) Q t) s) : D.Safe i (p >>= f) Q s := by
  induction p generalizing s with
  | ret a => exact safe_of_rely h
  | call o k ih =>
    intro t hst hI hc c r u hx
    obtain ⟨hI', hG, hk⟩ := h t hst hI hc c r u hx
    exact ⟨hI', hG, ih r hk⟩

end Safe

/-! ### Programs that can fail -/

section SafeE

variable {α β ε : Type} (i : ι)

/-- `P` holds wherever the others may lead before thread `i` moves again. -/
def Always (P : σ → Prop) (s : σ) : Prop := ∀ t, D.rely i s t → D.inv t → P t

/-- The weakest precondition of a program that can fail: `Q` is asked of what it returns, `E` of how
it fails. -/
def SafeE (x : ExceptT ε (Prog Op Res) α) (Q : α → σ → Prop) (E : ε → σ → Prop) (s : σ) : Prop :=
  D.Safe i x.run (fun r t => match r with | .ok a => Q a t | .error e => E e t) s

variable {D i} {Q : α → σ → Prop} {E : ε → σ → Prop} {s : σ}

theorem Always.mono {P P' : σ → Prop} (h : D.Always i P s) (hP : ∀ t, P t → P' t) :
    D.Always i P' s :=
  fun t hst hI => hP t (h t hst hI)

theorem Always.rely {P : σ → Prop} {t : σ} (h : D.Always i P s) (hst : D.rely i s t) :
    D.Always i P t :=
  fun u htu hI => h u (D.rely_trans i s t u hst htu) hI

variable {x : ExceptT ε (Prog Op Res) α}

/-- Being safe is itself something the others cannot undo. -/
theorem always_safeE (h : D.SafeE i x Q E s) : D.Always i (D.SafeE i x Q E) s :=
  fun _ hst _ => Safe.rely h hst

theorem SafeE.mono {Q' : α → σ → Prop} {E' : ε → σ → Prop} (h : D.SafeE i x Q E s)
    (hQ : ∀ a t, D.inv t → Q a t → Q' a t) (hE : ∀ e t, D.inv t → E e t → E' e t) :
    D.SafeE i x Q' E' s :=
  Safe.mono h fun r t hI hr => by
    cases r with
    | ok a => exact hQ a t hI hr
    | error e => exact hE e t hI hr

theorem safeE_pure {a : α} (h : D.Always i (Q a) s) : D.SafeE i (pure a) Q E s := h

theorem safeE_throw {e : ε} (h : D.Always i (E e) s) :
    D.SafeE i (throw e : ExceptT ε (Prog Op Res) α) Q E s := h

theorem SafeE.bind {x : ExceptT ε (Prog Op Res) β} {f : β → ExceptT ε (Prog Op Res) α}
    (h : D.SafeE i x (fun b t => D.SafeE i (f b) Q E t) E s) : D.SafeE i (x >>= f) Q E s := by
  suffices hs : ∀ (p : Prog Op Res (Except ε β)) (s : σ),
      D.Safe i p (fun r t => match r with | .ok b => D.SafeE i (f b) Q E t | .error e => E e t) s →
      D.SafeE i (ExceptT.mk p >>= f) Q E s from hs x.run s h
  intro p
  induction p with
  | ret r =>
    intro s h
    cases r with
    | ok b => exact safe_of_rely h
    | error e => exact h
  | call o k ih =>
    intro s h t hst hI hc c r u hx
    obtain ⟨hI', hG, hk⟩ := h t hst hI hc c r u hx
    exact ⟨hI', hG, ih r u hk⟩

/-- A program, and what follows from wherever it leads. -/
theorem SafeE.andThen {x : ExceptT ε (Prog Op Res) β} {f : β → ExceptT ε (Prog Op Res) α}
    {R : β → σ → Prop} (h : D.SafeE i x R E s) (hf : ∀ b t, R b t → D.SafeE i (f b) Q E t) :
    D.SafeE i (x >>= f) Q E s :=
  .bind (h.mono (fun b t _ => hf b t) fun _ _ _ he => he)

theorem safeE_orThrow {x : Except ε α} (hok : ∀ a, x = .ok a → D.Always i (Q a) s)
    (herr : ∀ e, x = .error e → D.Always i (E e) s) : D.SafeE i (orThrow x) Q E s := by
  cases x with
  | ok a => exact hok a rfl
  | error e => exact herr e rfl

/-- Reporting an outcome asks the same of both. -/
theorem safeE_attempt {ε' : Type} {Q : Except ε α → σ → Prop} {E : ε' → σ → Prop}
    (h : D.SafeE i x (fun a => Q (.ok a)) (fun e => Q (.error e)) s) :
    D.SafeE i (attempt x : ExceptT ε' (Prog Op Res) _) Q E s := by
  refine Safe.bind (Safe.mono (Safe.always h) fun r t _ hr => ?_)
  cases r with
  | ok a => exact hr
  | error e => exact hr

theorem safeE_mapError {ε' : Type} {f : ε → ε'} {E : ε' → σ → Prop}
    (h : D.SafeE i x Q (fun e => E (f e)) s) : D.SafeE i (mapError f x) Q E s := by
  refine Safe.bind (Safe.mono (Safe.always h) fun r t _ hr => ?_)
  cases r with
  | ok a => exact hr
  | error e => exact hr

end SafeE

/-! ### Soundness -/

variable {α : ι → Type}

/-- The invariant holds and every thread is safe for its postcondition. -/
def Ok (Q : (i : ι) → α i → σ → Prop) (p : Config ι Op Res α σ) : Prop :=
  D.inv p.shared ∧ ∀ i, D.Safe i (p.threads i) (Q i) p.shared

variable {D} {Q : (i : ι) → α i → σ → Prop}

variable {p : Config ι Op Res α σ}

theorem Ok.step [DecidableEq ι] {q : Config ι Op Res α σ} (h : D.Ok Q p)
    (hs : Step exec D.cond p q) :
    D.Ok Q q := by
  obtain ⟨i, o, k, c, r, s, hp, hc, hx, rfl⟩ := hs
  have hi := h.2 i
  rw [hp] at hi
  obtain ⟨hI, hG, hk⟩ := hi _ (D.rely_refl i _) h.1 hc c r s hx
  refine ⟨hI, fun j => ?_⟩
  by_cases hj : j = i
  · subst hj
    simpa using hk
  · simp only [Function.update_of_ne hj]
    exact (h.2 j).rely (D.rely_of_guar j i _ _ hj hG)

/-- **Soundness.**  A pool whose threads are all safe stays so along every interleaving. -/
theorem sound [DecidableEq ι] {q : Config ι Op Res α σ} (h : D.Ok Q p)
    (hr : Reaches exec D.cond p q) : D.Ok Q q := by
  induction hr with
  | refl => exact h
  | tail _ hs ih => exact ih.step hs

/-- The postcondition of a finished thread holds. -/
theorem Ok.of_ret (h : D.Ok Q p) {i : ι} {a : α i} (ha : p.threads i = .ret a) :
    Q i a p.shared := by
  have := h.2 i
  rw [ha] at this
  exact this _ (D.rely_refl i _) h.1

end Discipline

end Interleaving
