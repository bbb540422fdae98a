/-
  GidsStack.Lib.Interleave

  Threads that run to their end over one shared state, in any interleaving of their steps. A
  thread is where it stands; `advance` is its next step, after which it stands elsewhere or has
  ended. An invariant of the state and the threads left is one of the whole run, and where every
  step brings its thread nearer to its end there is a run.
-/

import Mathlib.Algebra.BigOperators.Group.List.Basic
import Mathlib.Algebra.GroupWithZero.Nat

namespace GidsStack.Lib

variable {σ τ : Type*}

/-- From state `s` the threads have all run to their end, in some interleaving, and left `t`. -/
inductive Interleave (advance : σ → τ → σ × Option τ) : σ → List τ → σ → Prop
  | ended {s : σ} : Interleave advance s [] s
  | step {s t : σ} {pre post : List τ} {x : τ}
      (h : Interleave advance (advance s x).1 (pre ++ (advance s x).2.toList ++ post) t) :
      Interleave advance s (pre ++ x :: post) t

namespace Interleave

variable {advance : σ → τ → σ × Option τ}

/-- What the steps of all threads keep holds at the end. -/
theorem invariant {I : σ → List τ → Prop}
    (hkeep : ∀ s pre x post, I s (pre ++ x :: post) →
      I (advance s x).1 (pre ++ (advance s x).2.toList ++ post))
    {s t : σ} {xs : List τ} (h : Interleave advance s xs t) (hi : I s xs) : I t [] := by
  induction h with
  | ended => exact hi
  | step _ ih => exact ih (hkeep _ _ _ _ hi)

/-- Threads that come nearer to their end with every step can run to it. -/
theorem exists_of_measure (m : τ → Nat)
    (hless : ∀ s x y, (advance s x).2 = some y → m y < m x) (s : σ) (xs : List τ) :
    ∃ t, Interleave advance s xs t := by
  -- the steps that are left, and one for every thread to end, bound the run
  induction hn : (xs.map fun x => m x + 1).sum using Nat.strongRecOn generalizing s xs with
  | ind n ih =>
    cases xs with
    | nil => exact ⟨s, .ended⟩
    | cons x xs =>
      have hlt : (((advance s x).2.toList ++ xs).map fun x => m x + 1).sum < n := by
        rw [← hn, List.map_append, List.sum_append, List.map_cons, List.sum_cons]
        cases hnext : (advance s x).2 with
        | none =>
          rw [Option.toList_none, List.map_nil, List.sum_nil]
          omega
        | some y =>
          have hy := hless s x y hnext
          rw [Option.toList_some, List.map_singleton, List.sum_singleton]
          omega
      obtain ⟨t, ht⟩ := ih _ hlt (advance s x).1 ((advance s x).2.toList ++ xs) rfl
      exact ⟨t, @step _ _ advance s t [] xs x ht⟩

end Interleave

end GidsStack.Lib
