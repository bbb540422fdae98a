/-
  GidsStack.Lib.Cuts

  Cutting a list into consecutive slices and putting it together again.

  A cut of `[a, b)` is a list of half-open ranges that meet end to end.  What is known of
  the ranges of one cut (`Cut.flatMap_slice`) holds however they were computed; the two ways
  here are steps of one size and a given number of nearly equal parts.
-/

import Mathlib

namespace GidsStack.Cuts

variable {α β : Type}

/-! ## Slices -/

/-- The elements of a list in the range `[r.1, r.2)`. -/
def slice (l : List α) (r : Nat × Nat) : List α := (l.drop r.1).take (r.2 - r.1)

theorem map_slice (f : α → β) (l : List α) (r : Nat × Nat) :
    (slice l r).map f = slice (l.map f) r := by
  simp only [slice, List.map_take, List.map_drop]

theorem length_slice {l : List α} {r : Nat × Nat} (h : r.2 ≤ l.length) :
    (slice l r).length = r.2 - r.1 := by
  rw [slice, List.length_take, List.length_drop]
  omega

/-! ## Cuts -/

/-- Ranges that meet end to end, from `a` to `b`, none of them empty. -/
inductive Cut : Nat → Nat → List (Nat × Nat) → Prop
  | nil (a : Nat) : Cut a a []
  | cons {a m b : Nat} {rs : List (Nat × Nat)} (h : a < m) (hrest : Cut m b rs) :
      Cut a b ((a, m) :: rs)

theorem Cut.le {a b : Nat} {rs : List (Nat × Nat)} (h : Cut a b rs) : a ≤ b := by
  induction h with
  | nil a => exact Nat.le_refl a
  | cons h _ ih => omega

/-- The slices of a cut, one after the other, are what was cut. -/
theorem Cut.flatMap_slice {a b : Nat} {rs : List (Nat × Nat)} (h : Cut a b rs) (l : List α) :
    rs.flatMap (slice l) = (l.drop a).take (b - a) := by
  induction h with
  | nil a => rw [Nat.sub_self, List.take_zero, List.flatMap_nil]
  | @cons a m b rs h hrest ih =>
    have hle := hrest.le
    rw [List.flatMap_cons, ih, slice]
    have hdrop : l.drop m = (l.drop a).drop (m - a) := by
      rw [List.drop_drop]
      congr 1
      omega
    have htake : b - a = (m - a) + (b - m) := by omega
    rw [hdrop, htake, List.take_add]

theorem Cut.flatMap_slice_all {l : List α} {rs : List (Nat × Nat)} (h : Cut 0 l.length rs) :
    rs.flatMap (slice l) = l := by
  rw [h.flatMap_slice, List.drop_zero, Nat.sub_zero, List.take_length]

theorem Cut.mem_bounds {a b : Nat} {rs : List (Nat × Nat)} (h : Cut a b rs) {r : Nat × Nat}
    (hr : r ∈ rs) : a ≤ r.1 ∧ r.1 < r.2 ∧ r.2 ≤ b := by
  induction h with
  | nil a => cases hr
  | cons h hrest ih =>
    have hle := hrest.le
    rcases List.mem_cons.mp hr with rfl | hr
    · exact ⟨Nat.le_refl _, h, hle⟩
    · obtain ⟨h1, h2, h3⟩ := ih hr
      exact ⟨by omega, h2, h3⟩

theorem Cut.ne_nil {a b : Nat} {rs : List (Nat × Nat)} (h : Cut a b rs) (hlt : a < b) :
    rs ≠ [] := by
  rintro rfl
  cases h
  exact Nat.lt_irrefl _ hlt

/-- A range shorter than what is cut is not the only one. -/
theorem Cut.two_le_length {a b : Nat} {rs : List (Nat × Nat)} (h : Cut a b rs) (hlt : a < b)
    (hshort : ∀ r ∈ rs, r.2 - r.1 < b - a) : 2 ≤ rs.length := by
  cases h with
  | nil a => exact absurd hlt (Nat.lt_irrefl _)
  | @cons a m b rs h hrest =>
    have hfirst := hshort (a, m) List.mem_cons_self
    have hne := hrest.ne_nil (show m < b by simp only at hfirst; omega)
    have := List.length_pos_iff.mpr hne
    rw [List.length_cons]
    omega

/-! ## Steps of one size -/

/-- `for start in range(a, n, size)` with the ends `min(n, start + size)`. -/
def stepRanges (a n size : Nat) : List (Nat × Nat) :=
  (List.range' a ((n - a + size - 1) / size) size).map fun start => (start, min n (start + size))

theorem stepRanges_cut {n size : Nat} (hsize : 0 < size) :
    ∀ count a, a ≤ n → count = (n - a + size - 1) / size → Cut a n (stepRanges a n size) := by
  intro count
  induction count with
  | zero =>
    intro a ha hcount
    have hlt := Nat.lt_of_div_eq_zero hsize hcount.symm
    obtain rfl : a = n := by omega
    rw [stepRanges, ← hcount]
    exact .nil a
  | succ count ih =>
    intro a ha hcount
    have hlt : a < n := by
      by_contra hge
      rw [show n - a + size - 1 = size - 1 by omega, Nat.div_eq_of_lt (by omega)] at hcount
      omega
    have hnext : count = (n - (a + size) + size - 1) / size ∨ n < a + size ∧ count = 0 := by
      rcases Nat.lt_or_ge n (a + size) with hlast | hmore
      · rw [show n - a + size - 1 = (n - a - 1) + size by omega, Nat.add_div_right _ hsize,
          Nat.div_eq_of_lt (by omega)] at hcount
        exact Or.inr ⟨hlast, by omega⟩
      · rw [show n - a + size - 1 = (n - (a + size) + size - 1) + size by omega,
          Nat.add_div_right _ hsize] at hcount
        exact Or.inl (by omega)
    rw [stepRanges, ← hcount, List.range'_succ, List.map_cons]
    rcases Nat.lt_or_ge n (a + size) with hlast | hmore
    · obtain rfl : count = 0 := by
        rcases hnext with hnext | ⟨-, hnext⟩
        · rw [hnext]
          exact Nat.div_eq_of_lt (by omega)
        · exact hnext
      rw [Nat.min_eq_left (by omega)]
      exact .cons hlt (.nil n)
    · have hcut := ih (a + size) hmore (by omega)
      rw [stepRanges] at hcut
      rw [Nat.min_eq_right hmore]
      rcases hnext with hnext | ⟨hnext, -⟩
      · rw [← hnext] at hcut
        exact .cons (by omega) hcut
      · omega

/-- The steps from 0 cut the whole. -/
theorem stepRanges_cut_zero {n size : Nat} (hsize : 0 < size) : Cut 0 n (stepRanges 0 n size) :=
  stepRanges_cut hsize _ 0 (Nat.zero_le n) rfl

theorem stepRanges_le {a n size : Nat} {r : Nat × Nat} (h : r ∈ stepRanges a n size) :
    r.2 - r.1 ≤ size := by
  obtain ⟨start, -, rfl⟩ := List.mem_map.mp h
  simp only
  omega

/-! ## Boundaries -/

/-- Where the `j`-th range starts; after the last one, `b`. -/
def boundary (rs : List (Nat × Nat)) (b j : Nat) : Nat := (rs[j]?.map Prod.fst).getD b

theorem boundary_length (rs : List (Nat × Nat)) (b : Nat) : boundary rs b rs.length = b := by
  rw [boundary, List.getElem?_eq_none (Nat.le_refl _)]
  rfl

theorem Cut.boundary_zero {a b : Nat} {rs : List (Nat × Nat)} (h : Cut a b rs) :
    boundary rs b 0 = a := by
  cases h <;> rfl

theorem Cut.getElem_eq {a b : Nat} {rs : List (Nat × Nat)} (h : Cut a b rs) {j : Nat}
    (hj : j < rs.length) : rs[j] = (boundary rs b j, boundary rs b (j + 1)) := by
  induction h generalizing j with
  | nil a => cases hj
  | cons hlt hrest ih =>
    cases j with
    | zero =>
      rw [List.getElem_cons_zero]
      exact Prod.ext rfl hrest.boundary_zero.symm
    | succ j =>
      rw [List.getElem_cons_succ, ih (Nat.lt_of_succ_lt_succ hj)]
      rfl

/-- The sizes of the ranges of a cut add up. -/
theorem Cut.sum_sizes {a b : Nat} {rs : List (Nat × Nat)} (h : Cut a b rs) :
    a + (rs.map fun r => r.2 - r.1).sum = b := by
  induction h with
  | nil a => rfl
  | cons hlt hrest ih =>
    rw [List.map_cons, List.sum_cons]
    omega

/-! ## Nearly equal parts -/

/-- `parts` consecutive ranges from `start`, the first `remainder` of them of size `base + 1`
    and the others of size `base`; empty ones are left out. -/
def partRanges (base remainder : Nat) : Nat → Nat → List (Nat × Nat)
  | _, 0 => []
  | start, parts + 1 =>
    let size := base + if 0 < remainder then 1 else 0
    if size = 0 then partRanges base (remainder - 1) start parts
    else (start, start + size) :: partRanges base (remainder - 1) (start + size) parts

theorem partRanges_cut (base : Nat) :
    ∀ parts remainder start, remainder ≤ parts →
      Cut start (start + parts * base + remainder) (partRanges base remainder start parts) := by
  intro parts
  induction parts with
  | zero =>
    intro remainder start h
    obtain rfl : remainder = 0 := by omega
    rw [Nat.zero_mul]
    exact .nil start
  | succ parts ih =>
    intro remainder start h
    have hrec := ih (remainder - 1)
    have hsize : (base + if 0 < remainder then 1 else 0) + (remainder - 1) = base + remainder := by
      split <;> omega
    have hend : (parts + 1) * base = parts * base + base := Nat.succ_mul parts base
    rw [partRanges]
    generalize (base + if 0 < remainder then 1 else 0) = size at hsize
    split
    · obtain rfl : base = 0 := by omega
      obtain rfl : remainder = 0 := by omega
      exact hrec start (by omega)
    · have hcut := hrec (start + size) (by omega)
      rw [show start + size + parts * base + (remainder - 1) =
        start + (parts + 1) * base + remainder by omega] at hcut
      exact .cons (by omega) hcut

end GidsStack.Cuts
