/-
  GidsStack.Lib.Laps

  Free-running positions on a ring of `q` places: position `k` stands at place `k % q` and is
  on lap `k / q`. `uses q n i` counts the positions below `n` at place `i`, and two positions
  at one place that are less than a lap apart are equal.

  Also here: half-open intervals laid end to end (`Tiles`), the shape of a log of advances of
  a free-running counter.
-/

import Mathlib.Data.Nat.Count
import Mathlib.Data.List.Basic

namespace GidsStack.Laps

/-! ## Positions -/

/-- The number of positions below `n` at place `i`. -/
def uses (q n i : Nat) : Nat :=
  n / q + if i < n % q then 1 else 0

@[simp] theorem uses_zero (q i : Nat) : uses q 0 i = 0 := by
  simp [uses]

theorem uses_self (q n : Nat) : uses q n (n % q) = n / q := by
  simp [uses]

theorem uses_succ {q i : Nat} (hi : i < q) (n : Nat) :
    uses q (n + 1) i = uses q n i + if n % q = i then 1 else 0 := by
  have hq : 0 < q := by omega
  have hmod := Nat.mod_lt n hq
  have hn := Nat.div_add_mod' n q
  rcases Nat.lt_or_ge (n % q + 1) q with hlt | hge
  · -- the lap goes on
    have hdiv : (n + 1) / q = n / q := by
      rw [Nat.div_eq_iff hq]
      omega
    have hrem : (n + 1) % q = n % q + 1 := by
      rw [Nat.add_mod, Nat.mod_eq_of_lt (show 1 < q by omega), Nat.mod_eq_of_lt hlt]
    rw [uses, uses, hdiv, hrem]
    split <;> split <;> split <;> omega
  · -- the lap ends
    have hlast : n + 1 = (n / q + 1) * q := by
      rw [Nat.add_mul, Nat.one_mul]
      omega
    rw [uses, uses, hlast, Nat.mul_div_cancel _ hq, Nat.mul_mod_left]
    split <;> split <;> split <;> omega

theorem uses_add_lap {q : Nat} (hq : 0 < q) (n i : Nat) : uses q (n + q) i = uses q n i + 1 := by
  rw [uses, uses, Nat.add_div_right n hq, Nat.add_mod_right]
  omega

theorem div_lt_uses_iff {q : Nat} (hq : 0 < q) (k n : Nat) :
    k / q < uses q n (k % q) ↔ k < n := by
  have hk := Nat.div_add_mod' k q
  have hn := Nat.div_add_mod' n q
  have hkq := Nat.mod_lt k hq
  have hmono : k / q ≤ n / q → k / q * q ≤ n / q * q := fun h => Nat.mul_le_mul_right q h
  have hstrict : k / q + 1 ≤ n / q → k / q * q + q ≤ n / q * q := fun h => by
    have := Nat.mul_le_mul_right q h
    rwa [Nat.add_mul, Nat.one_mul] at this
  have hdiv : k < n → k / q ≤ n / q := fun h => Nat.div_le_div_right (Nat.le_of_lt h)
  rw [uses]
  split
  case isTrue hlt =>
    refine ⟨fun h => ?_, fun h => ?_⟩
    · have := hmono (by omega)
      omega
    · have := hdiv h
      omega
  case isFalse hge =>
    refine ⟨fun h => ?_, fun h => ?_⟩
    · have := hstrict (by omega)
      omega
    · have hle := hdiv h
      rcases Nat.lt_or_ge (k / q) (n / q) with hlt | hge'
      · omega
      · have heq : k / q = n / q := by omega
        rw [heq] at hk
        omega

theorem div_le_uses_iff {q : Nat} (hq : 0 < q) (k n : Nat) :
    k / q ≤ uses q n (k % q) ↔ k < n + q := by
  rw [← div_lt_uses_iff hq, uses_add_lap hq]
  omega

theorem eq_of_mod_of_div {q j k : Nat} (hmod : j % q = k % q) (hdiv : j / q = k / q) : j = k := by
  rw [← Nat.div_add_mod' j q, ← Nat.div_add_mod' k q, hmod, hdiv]

/-- Different positions at one place are a lap apart. -/
theorem add_le_of_mod_eq {q j k : Nat} (hmod : j % q = k % q) (hlt : j < k) : j + q ≤ k := by
  have hj := Nat.div_add_mod' j q
  have hk := Nat.div_add_mod' k q
  have hdiv : j / q < k / q := by
    rcases Nat.lt_or_ge (j / q) (k / q) with h | h
    · exact h
    · have := Nat.mul_le_mul_right q h
      omega
  have := Nat.mul_le_mul_right q hdiv
  rw [Nat.succ_mul] at this
  omega

theorem eq_of_mod_eq {q j k : Nat} (hmod : j % q = k % q) (hjk : j < k + q) (hkj : k < j + q) :
    j = k := by
  rcases Nat.lt_trichotomy j k with h | h | h
  · have := add_le_of_mod_eq hmod h
    omega
  · exact h
  · have := add_le_of_mod_eq hmod.symm h
    omega

theorem succ_mod_ne {q : Nat} (hq : 2 ≤ q) (n : Nat) : (n + 1) % q ≠ n % q := by
  intro h
  have := add_le_of_mod_eq h.symm (Nat.lt_succ_self n)
  omega

/-! ## Counting -/

theorem count_mod {q i : Nat} (hi : i < q) (n : Nat) :
    Nat.count (fun k => k % q = i) n = uses q n i := by
  induction n with
  | zero => rw [Nat.count_zero, uses_zero]
  | succ n ih => rw [Nat.count_succ, ih, uses_succ hi]

theorem count_congr {p p' : Nat → Prop} [DecidablePred p] [DecidablePred p']
    (h : ∀ j, p' j ↔ p j) (n : Nat) : Nat.count p' n = Nat.count p n :=
  Nat.le_antisymm (Nat.count_mono_left fun j _ => (h j).mp)
    (Nat.count_mono_left fun j _ => (h j).mpr)

/-- One more number counts. -/
theorem count_insert {p p' : Nat → Prop} [DecidablePred p] [DecidablePred p'] {k n : Nat}
    (hk : k < n) (hold : ¬ p k) (hnew : p' k) (hother : ∀ j, j ≠ k → (p' j ↔ p j)) :
    Nat.count p' n = Nat.count p n + 1 := by
  induction n with
  | zero => exact absurd hk (Nat.not_lt_zero k)
  | succ n ih =>
    rw [Nat.count_succ, Nat.count_succ]
    rcases Nat.lt_succ_iff_lt_or_eq.mp hk with hlt | rfl
    · rw [ih hlt]
      simp only [hother n (Nat.ne_of_gt hlt)]
      omega
    · have hsame : Nat.count p' k = Nat.count p k :=
        Nat.le_antisymm (Nat.count_mono_left fun j hj => (hother j (Nat.ne_of_lt hj)).mp)
          (Nat.count_mono_left fun j hj => (hother j (Nat.ne_of_lt hj)).mpr)
      rw [hsame, if_pos hnew, if_neg hold]

/-! ## Advances -/

/-- Nonempty half-open intervals laid end to end from `lo` to `hi`. -/
inductive Tiles : Nat → List (Nat × Nat) → Nat → Prop
  | nil (lo : Nat) : Tiles lo [] lo
  | cons {lo m hi : Nat} {l : List (Nat × Nat)} (hlt : lo < m) (h : Tiles m l hi) :
      Tiles lo ((lo, m) :: l) hi

variable {lo m hi : Nat} {l : List (Nat × Nat)}

theorem Tiles.le (h : Tiles lo l hi) : lo ≤ hi := by
  induction h with
  | nil => exact Nat.le_refl _
  | cons hlt _ ih => exact Nat.le_of_lt (Nat.lt_of_lt_of_le hlt ih)

theorem Tiles.snoc (h : Tiles lo l m) (hlt : m < hi) : Tiles lo (l ++ [(m, hi)]) hi := by
  induction h with
  | nil lo => exact .cons hlt (.nil _)
  | cons hlt' _ ih => exact .cons hlt' (ih hlt)

theorem Tiles.ge_of_mem (h : Tiles lo l hi) : ∀ a ∈ l, lo ≤ a.1 := by
  induction h with
  | nil => exact fun a ha => absurd ha List.not_mem_nil
  | cons hlt _ ih =>
    intro a ha
    rcases List.mem_cons.mp ha with rfl | ha
    · exact Nat.le_refl _
    · exact Nat.le_trans (Nat.le_of_lt hlt) (ih a ha)

/-- The intervals come in order. -/
theorem Tiles.pairwise (h : Tiles lo l hi) : l.Pairwise fun a b => a.2 ≤ b.1 := by
  induction h with
  | nil => exact .nil
  | cons _ h ih => exact .cons (fun b hb => h.ge_of_mem b hb) ih

/-- Every number between the ends lies in exactly one interval, every other one in none. -/
theorem Tiles.countP (h : Tiles lo l hi) (k : Nat) :
    l.countP (fun a => a.1 ≤ k ∧ k < a.2) = if lo ≤ k ∧ k < hi then 1 else 0 := by
  induction h with
  | nil lo =>
    rw [List.countP_nil, if_neg]
    omega
  | @cons lo m hi l hlt h ih =>
    have hle := h.le
    rw [List.countP_cons, ih]
    simp only [decide_eq_true_eq]
    split <;> split <;> split <;> omega

end GidsStack.Laps
