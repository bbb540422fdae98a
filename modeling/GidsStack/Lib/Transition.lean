/-
  GidsStack.Lib.Transition

  Labelled transition systems given by a step relation, the states a set of
  initial states reaches, and the two rules every safety proof of this
  development goes through: an inductive invariant holds of every reachable
  state, and an invariant proved under one step relation carries over to any
  relation it contains.
-/

import Mathlib.Algebra.Order.BigOperators.Group.Finset
import Mathlib.Data.Fintype.BigOperators
import Mathlib.Logic.Function.Basic
import Mathlib.Tactic.Basic

namespace GidsStack.Lib

variable {σ α : Type*}

/-! ## Reachable states -/

/-- The states reached from an initial state by finitely many steps. -/
inductive Reachable (init : σ → Prop) (step : σ → α → σ → Prop) : σ → Prop
  | init {s : σ} (h : init s) : Reachable init step s
  | step {s s' : σ} {a : α} (hr : Reachable init step s) (h : step s a s') :
      Reachable init step s'

/-- A step function restricted by a condition on the state before the step. -/
def Guarded (step : σ → α → Option σ) (ok : σ → α → Prop) (s : σ) (a : α) (s' : σ) : Prop :=
  ok s a ∧ step s a = some s'

/-- The invariant rule: what holds initially and is kept by every step from a
    state that has it holds of every reachable state. -/
theorem Reachable.invariant {init : σ → Prop} {step : σ → α → σ → Prop} {I : σ → Prop}
    (h0 : ∀ s, init s → I s) (hs : ∀ s a s', I s → step s a s' → I s') {s : σ}
    (h : Reachable init step s) : I s := by
  induction h with
  | init h => exact h0 _ h
  | step _ h ih => exact hs _ _ _ ih h

/-- Reachability grows with the step relation. -/
theorem Reachable.mono {init : σ → Prop} {step step' : σ → α → σ → Prop}
    (hsub : ∀ s a s', step s a s' → step' s a s') {s : σ}
    (h : Reachable init step s) : Reachable init step' s := by
  induction h with
  | init h => exact .init h
  | step _ h ih => exact .step ih (hsub _ _ _ h)

/-- Run a list of actions; `none` as soon as one is not enabled. -/
def runActs (step : σ → α → Option σ) : σ → List α → Option σ
  | s, [] => some s
  | s, a :: as => (step s a).bind fun s' => runActs step s' as

/-- A condition checked at every action of a run. -/
def runOk (step : σ → α → Option σ) (ok : σ → α → Prop) : σ → List α → Prop
  | _, [] => True
  | s, a :: as => ok s a ∧ ∀ s' ∈ step s a, runOk step ok s' as

instance decidableRunOk (step : σ → α → Option σ) (ok : σ → α → Prop)
    [∀ s a, Decidable (ok s a)] : ∀ s as, Decidable (runOk step ok s as)
  | _, [] => inferInstanceAs (Decidable True)
  | s, a :: as =>
    have : ∀ s' : σ, Decidable (runOk step ok s' as) := fun s' => decidableRunOk step ok s' as
    inferInstanceAs (Decidable (ok s a ∧ ∀ s' ∈ step s a, runOk step ok s' as))

/-- A condition that always holds. -/
theorem runOk_true (step : σ → α → Option σ) (s : σ) (l : List α) :
    runOk step (fun _ _ => True) s l := by
  induction l generalizing s with
  | nil => trivial
  | cons a l ih => exact ⟨trivial, fun s' _ => ih s'⟩

/-- The end of an executed run is reachable. -/
theorem reachable_of_runActs {init : σ → Prop} {step : σ → α → Option σ}
    {ok : σ → α → Prop} {l : List α} {s s' : σ}
    (h : Reachable init (Guarded step ok) s) (hok : runOk step ok s l)
    (hrun : runActs step s l = some s') : Reachable init (Guarded step ok) s' := by
  induction l generalizing s with
  | nil =>
    obtain rfl : s = s' := by simpa [runActs] using hrun
    exact h
  | cons a l ih =>
    obtain ⟨t, ht, hrest⟩ := Option.bind_eq_some_iff.mp hrun
    exact ih (.step h ⟨hok.1, ht⟩) (hok.2 t ht) hrest

/-- The end of an executed run whose steps meet no condition is reachable. -/
theorem reachable_of_steps {init : σ → Prop} {step : σ → α → Option σ} {l : List α} {s s' : σ}
    (h : Reachable init (fun s a s' => step s a = some s') s) (hrun : runActs step s l = some s') :
    Reachable init (fun s a s' => step s a = some s') s' := by
  have hguarded : Reachable init (Guarded step fun _ _ => True) s :=
    h.mono fun _ _ _ hstep => ⟨trivial, hstep⟩
  exact (reachable_of_runActs hguarded (runOk_true step s l) hrun).mono fun _ _ _ hstep => hstep.2

/-- Where an invariant implies a property, and a step from it keeps the invariant if it is
    `ok` and loses the property if not: every state of a run has the property exactly if
    every step of the run is `ok`. -/
theorem runActs_good_iff {step : σ → α → Option σ} {ok : σ → α → Prop} {I Good : σ → Prop}
    (hgood : ∀ s, I s → Good s)
    (hnone : ∀ s a, I s → step s a = none → ok s a)
    (hkeep : ∀ s a t, I s → step s a = some t → ok s a → I t)
    (hlose : ∀ s a t, I s → step s a = some t → ¬ ok s a → ¬ Good t)
    (l : List α) {s : σ} (h : I s) :
    (∀ k t, runActs step s (l.take k) = some t → Good t) ↔ runOk step ok s l := by
  induction l generalizing s with
  | nil =>
    refine ⟨fun _ => trivial, fun _ k t ht => ?_⟩
    rw [List.take_nil] at ht
    cases ht
    exact hgood s h
  | cons a l ih =>
    constructor
    · intro hall
      have hok : ok s a := by
        cases hs : step s a with
        | none => exact hnone s a h hs
        | some t =>
          apply Classical.byContradiction
          intro hno
          apply hlose s a t h hs hno
          apply hall 1
          rw [List.take_succ_cons, List.take_zero, runActs, hs]
          rfl
      refine ⟨hok, fun t ht => ?_⟩
      apply (ih (hkeep s a t h ht hok)).mp
      intro k u hu
      apply hall (k + 1)
      rw [List.take_succ_cons, runActs, show step s a = some t from ht]
      exact hu
    · rintro ⟨hok, hrest⟩ k t ht
      cases k with
      | zero =>
        cases ht
        exact hgood s h
      | succ k =>
        rw [List.take_succ_cons] at ht
        obtain ⟨u, hu, ht'⟩ := Option.bind_eq_some_iff.mp ht
        exact (ih (hkeep s a u h hu hok)).mpr (hrest u hu) k t ht'

/-! ## Sums over an updated function -/

/-- Replacing one value of a finite family moves its sum by the difference. -/
theorem sum_update_swap {ι β : Type*} [Fintype ι] [DecidableEq ι] (g : ι → β) (i : ι) (v : β)
    (f : β → Nat) :
    (∑ j, f (Function.update g i v j)) + f (g i) = (∑ j, f (g j)) + f v := by
  have hnew := Finset.add_sum_erase Finset.univ (fun j => f (Function.update g i v j))
    (Finset.mem_univ i)
  have hold := Finset.add_sum_erase Finset.univ (fun j => f (g j)) (Finset.mem_univ i)
  have hrest : ∑ j ∈ Finset.univ.erase i, f (Function.update g i v j)
      = ∑ j ∈ Finset.univ.erase i, f (g j) := by
    refine Finset.sum_congr rfl fun j hj => ?_
    rw [Function.update_of_ne (Finset.ne_of_mem_erase hj)]
  simp only [Function.update_self] at hnew
  omega

/-- `Function.comp_update` with the compositions written out, as the abstractions of a state's
    fields are. -/
theorem map_update {ι β γ : Type*} [DecidableEq ι] (f : β → γ) (g : ι → β) (i : ι) (v : β) :
    (fun j => f (Function.update g i v j)) = Function.update (fun j => f (g j)) i (f v) :=
  Function.comp_update f g i v

/-! ## What an updated family holds -/

section Update

variable {ι β : Type*} [DecidableEq ι] {g : ι → Option β} {i j : ι} {y : β}

theorem of_update_some {x : Option β} (h : Function.update g i x j = some y) :
    j = i ∧ x = some y ∨ j ≠ i ∧ g j = some y := by
  by_cases hji : j = i
  · rw [hji, Function.update_self] at h
    exact .inl ⟨hji, h⟩
  · rw [Function.update_of_ne hji] at h
    exact .inr ⟨hji, h⟩

theorem of_update_none (h : Function.update g i none j = some y) : j ≠ i ∧ g j = some y := by
  rcases of_update_some h with ⟨-, h⟩ | h
  · cases h
  · exact h

end Update

section UpdateTwo

variable {ι κ β : Type*} [DecidableEq ι] [DecidableEq κ] {i j : ι} {k l : κ}

theorem update_update_apply (g : ι → κ → β) (i : ι) (k : κ) (x : β) (j : ι) (l : κ) :
    Function.update g i (Function.update (g i) k x) j l =
      if j = i ∧ l = k then x else g j l := by
  by_cases hj : j = i
  · subst hj
    rw [Function.update_self, Function.update_apply]
    simp only [true_and]
  · rw [Function.update_of_ne hj, if_neg fun heq => hj heq.1]

theorem update_update_self (g : ι → κ → β) (i : ι) (k : κ) (x : β) :
    Function.update g i (Function.update (g i) k x) i k = x :=
  (update_update_apply ..).trans (if_pos ⟨rfl, rfl⟩)

theorem update_update_of_ne (g : ι → κ → β) (x : β) (h : ¬(j = i ∧ l = k)) :
    Function.update g i (Function.update (g i) k x) j l = g j l :=
  (update_update_apply ..).trans (if_neg h)

theorem of_update_update_some {g : ι → κ → Option β} {x : Option β} {y : β}
    (h : Function.update g i (Function.update (g i) k x) j l = some y) :
    (j = i ∧ l = k) ∧ x = some y ∨ ¬(j = i ∧ l = k) ∧ g j l = some y := by
  by_cases hjl : j = i ∧ l = k
  · rw [update_update_apply, if_pos hjl] at h
    exact .inl ⟨hjl, h⟩
  · rw [update_update_of_ne g x hjl] at h
    exact .inr ⟨hjl, h⟩

theorem of_update_update_none {g : ι → κ → Option β} {y : β}
    (h : Function.update g i (Function.update (g i) k none) j l = some y) :
    ¬(j = i ∧ l = k) ∧ g j l = some y := by
  rcases of_update_update_some h with ⟨-, h⟩ | h
  · cases h
  · exact h

/-- Marks that are set where there is a value. -/
theorem update_update_isSome {f : ι → κ → Bool} {g : ι → κ → Option β}
    (h : ∀ j l, f j l = (g j l).isSome) (i : ι) (k : κ) (x : Option β) (j : ι) (l : κ) :
    Function.update f i (Function.update (f i) k x.isSome) j l =
      (Function.update g i (Function.update (g i) k x) j l).isSome := by
  rw [update_update_apply, update_update_apply]
  split
  · rfl
  · exact h j l

end UpdateTwo

end GidsStack.Lib
