/-
  GidsStack.Lib.PhaseRing

  A ring whose writer tags every entry with the phase of its lap, so that a reader can tell an
  entry of this lap from one of the last without looking at the writer's position.

  Entry `n` goes to place `n % q` with phase `phase q n`; the memory was cleared before the
  first lap.  A reader that looks for entry `m` at its place finds phase `phase q m` there
  exactly while entry `m` is the last one written at that place, as long as the writer is
  neither a lap behind `m` nor two laps ahead of it.
-/

import GidsStack.Lib.Laps
import Mathlib.Logic.Function.Basic

namespace GidsStack.PhaseRing

open Laps

variable {E : Type*} {q n m : Nat}

/-- The phase of the lap of entry `n`: it alternates, and that of the first lap is `true`. -/
def phase (q n : Nat) : Bool := decide (n / q % 2 = 0)

theorem phase_lap (hq : 0 < q) (n : Nat) : phase q (n + q) = !phase q n := by
  rw [phase, phase, Nat.add_div_right n hq]
  rcases Nat.mod_two_eq_zero_or_one (n / q) with h | h
  · rw [decide_eq_true h, decide_eq_false (by omega)]
    rfl
  · rw [decide_eq_true (show (n / q).succ % 2 = 0 by omega), decide_eq_false (by omega)]
    rfl

theorem phase_first (h : n < q) : phase q n = true := by
  rw [phase, Nat.div_eq_of_lt h]
  rfl

/-- The memory of a ring after the first `n` entries of `log` have been written. -/
structure Written (q : Nat) (mem : Nat → E × Bool) (log : Nat → E) (n : Nat) : Prop where
  entry : ∀ k < n, n ≤ k + q → mem (k % q) = (log k, phase q k)
  clear : ∀ k, n ≤ k → k < q → (mem k).2 = false

variable {mem : Nat → E × Bool} {log : Nat → E}

theorem written_zero (h : ∀ k, (mem k).2 = false) : Written q mem log 0 where
  entry k hk := absurd hk (Nat.not_lt_zero k)
  clear k _ _ := h k

/-- One more entry. -/
theorem Written.write (h : Written q mem log n) (e : E) :
    Written q (Function.update mem (n % q) (e, phase q n)) (Function.update log n e) (n + 1) where
  entry k hk hroom := by
    by_cases hkn : k = n
    · subst hkn
      rw [Function.update_self, Function.update_self]
    · -- an older entry that is still there is at another place
      have hne : k % q ≠ n % q := by
        intro hmod
        have := add_le_of_mod_eq hmod (show k < n by omega)
        omega
      rw [Function.update_of_ne hne, Function.update_of_ne hkn]
      exact h.entry k (by omega) (by omega)
  clear k hk hlt := by
    have hne : k ≠ n % q := by
      rw [Nat.mod_eq_of_lt (show n < q by omega)]
      omega
    rw [Function.update_of_ne hne]
    exact h.clear k (by omega) hlt

/-- What the phase at the place of entry `m` says. -/
theorem Written.phase_iff (h : Written q mem log n) (hq : 0 < q) (hbehind : m < n + q)
    (hahead : n ≤ m + 2 * q) :
    (mem (m % q)).2 = phase q m ↔ m < n ∧ n ≤ m + q := by
  rcases Nat.lt_or_ge m n with hlt | hge
  · rcases Nat.lt_or_ge (m + q) n with hover | hroom
    · -- the entry of the next lap is there
      have hnext := h.entry (m + q) hover (by omega)
      rw [Nat.add_mod_right] at hnext
      rw [hnext, phase_lap hq]
      refine ⟨fun heq => ?_, fun hin => by omega⟩
      cases hp : phase q m <;> rw [hp] at heq <;> cases heq
    · rw [h.entry m hlt hroom]
      exact ⟨fun _ => ⟨hlt, hroom⟩, fun _ => rfl⟩
  · refine ⟨fun heq => ?_, fun hin => by omega⟩
    rcases Nat.lt_or_ge m q with hfirst | hlap
    · rw [Nat.mod_eq_of_lt hfirst, h.clear m hge hfirst, phase_first hfirst] at heq
      cases heq
    · -- the entry of the last lap is there
      obtain ⟨k, rfl⟩ := Nat.exists_eq_add_of_le' hlap
      rw [Nat.add_mod_right, h.entry k (by omega) (by omega), phase_lap hq] at heq
      cases hp : phase q k <;> rw [hp] at heq <;> cases heq

/-- A reader that finds the phase it looks for has entry `m`. -/
theorem Written.read (h : Written q mem log n) (hq : 0 < q) (hbehind : m < n + q)
    (hahead : n ≤ m + 2 * q) (hphase : (mem (m % q)).2 = phase q m) :
    m < n ∧ (mem (m % q)).1 = log m := by
  obtain ⟨hlt, hroom⟩ := (h.phase_iff hq hbehind hahead).mp hphase
  rw [h.entry m hlt hroom]
  exact ⟨hlt, rfl⟩

end GidsStack.PhaseRing
