import Mathlib.Data.List.Chain

/-!
# Chains of steps

A chain is a list of steps, each of which starts where the one before it ended.  A step starts at
`start s`, and `ends s` says what it may end in, so that a step with nothing to go on from can only
be the last one.

* `Chain.pairwise` — a transitive relation that holds across every step holds between the start of a
  step and the end of every later one.
* `Chain.invariant` — what holds at the first start and is kept by every step holds at every start.
-/

namespace Chain

variable {Step α : Type} {start : Step → α} {ends : Step → α → Prop} {R : α → α → Prop}
  {I : α → Prop}

/-- Each step starts where the one before it ended. -/
def Linked (start : Step → α) (ends : Step → α → Prop) (steps : List Step) : Prop :=
  steps.IsChain fun a b => ends a (start b)

/-- What one step does, every later one does to the same start. -/
theorem pairwise (trans : ∀ {x y z}, R x y → R y z → R x z) :
    ∀ {steps : List Step}, Linked start ends steps →
      (∀ s ∈ steps, ∀ y, ends s y → R (start s) y) →
      steps.Pairwise fun a b => ∀ y, ends b y → R (start a) y
  | [], _, _ => .nil
  | [a], _, _ => List.pairwise_singleton _ a
  | a :: b :: rest, linked, step => by
    obtain ⟨hab, linked⟩ := List.isChain_cons_cons.1 linked
    have hfirst : R (start a) (start b) := step a List.mem_cons_self _ hab
    have hrest := pairwise trans linked fun s hs => step s (List.mem_cons_of_mem a hs)
    refine List.pairwise_cons.2 ⟨fun c hc y hy => trans hfirst ?_, hrest⟩
    rcases List.mem_cons.1 hc with rfl | hc
    · exact step c (by simp) y hy
    · exact (List.pairwise_cons.1 hrest).1 c hc y hy

/-- What holds at the first start and is kept by every step holds at every start. -/
theorem invariant :
    ∀ {steps : List Step}, Linked start ends steps →
      (∀ s ∈ steps.head?, I (start s)) →
      (∀ s ∈ steps, I (start s) → ∀ y, ends s y → I y) →
      ∀ s ∈ steps, I (start s)
  | [], _, _, _ => fun s hs => absurd hs List.not_mem_nil
  | [a], _, first, _ => fun s hs => first s (by simpa using (List.mem_singleton.1 hs).symm)
  | a :: b :: rest, linked, first, step => by
    obtain ⟨hab, linked⟩ := List.isChain_cons_cons.1 linked
    have ha : I (start a) := first a rfl
    have hb : I (start b) := step a List.mem_cons_self ha _ hab
    have hrest := invariant linked (fun s hs => by obtain rfl := Option.some.inj hs; exact hb)
      fun s hs => step s (List.mem_cons_of_mem a hs)
    intro s hs
    rcases List.mem_cons.1 hs with rfl | hs
    · exact ha
    · exact hrest s hs

end Chain
