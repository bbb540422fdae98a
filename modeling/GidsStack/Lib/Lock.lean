/-
  GidsStack.Lib.Lock

  A lock that is one flag, taken by an atomic read-and-set: whoever finds the flag down is
  inside. `Held inside lock` is what such a lock keeps, whoever the callers are: the flag is
  up exactly when one of them is inside, and then only one is.
-/

import Mathlib.Logic.Function.Basic
import Mathlib.Tactic.Basic

namespace GidsStack.Lock

variable {ι : Type*} {inside inside' : ι → Prop} {lock : Bool} {k : ι}

structure Held (inside : ι → Prop) (lock : Bool) : Prop where
  locked_iff : lock = true ↔ ∃ i, inside i
  unique : ∀ i j, inside i → inside j → i = j

theorem Held.none (h : ∀ i, ¬ inside i) : Held inside false where
  locked_iff := ⟨fun hl => (nomatch hl), fun ⟨i, hi⟩ => absurd hi (h i)⟩
  unique i _ hi := absurd hi (h i)

theorem Held.locked (h : Held inside lock) {i : ι} (hi : inside i) : lock = true :=
  h.locked_iff.mpr ⟨i, hi⟩

theorem Held.not_inside (h : Held inside false) (i : ι) : ¬ inside i :=
  fun hi => nomatch h.locked hi

/-- Taking a free lock. -/
theorem Held.take (h : Held inside false) (hin : inside' k)
    (hother : ∀ i, i ≠ k → inside' i → inside i) : Held inside' true := by
  have hk : ∀ i, inside' i → i = k := by
    intro i hi
    by_contra hne
    exact h.not_inside i (hother i hne hi)
  exact ⟨⟨fun _ => ⟨k, hin⟩, fun _ => rfl⟩, fun i j hi hj => (hk i hi).trans (hk j hj).symm⟩

/-- Giving it back. -/
theorem Held.release (h : Held inside lock) (hk : inside k)
    (hother : ∀ i, i ≠ k → inside' i → inside i) (hout : ¬ inside' k) : Held inside' false := by
  refine .none fun i hi => ?_
  have hne : i ≠ k := fun heq => hout (heq ▸ hi)
  exact hne (h.unique i k (hother i hne hi) hk)

/-- Steps under the lock, and steps of those outside. -/
theorem Held.keep (h : Held inside lock) (hiff : ∀ i, inside' i ↔ inside i) :
    Held inside' lock where
  locked_iff := h.locked_iff.trans (exists_congr hiff).symm
  unique i j hi hj := h.unique i j ((hiff i).mp hi) ((hiff j).mp hj)

/-- A step of one caller that stays on its side of the lock. -/
theorem Held.keep_at (h : Held inside lock) (hother : ∀ i, i ≠ k → (inside' i ↔ inside i))
    (hk : inside' k ↔ inside k) : Held inside' lock := by
  refine h.keep fun i => ?_
  by_cases hi : i = k
  · rw [hi]
    exact hk
  · exact hother i hi

end GidsStack.Lock
