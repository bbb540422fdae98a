/-
  GidsStack.PageCache.Layout

  The fixed layout of a page cache (page_cache.h): pages of ranges, their global
  addresses in `page_translation`, and the controllers that back them.
-/

import GidsStack.PageCache.StateWord

namespace GidsStack.PageCache

/-- A page: the number of its range, below the cache's `max_range`, and its index
    in the range. -/
structure PageId (R : Nat) where
  range : Fin R
  index : Nat
  deriving DecidableEq

/-- How the pages of a range are spread over the controllers. -/
inductive DataDist
  | replicate
  | stripe
  deriving DecidableEq, Repr

/-- `ASYNC_PAGE_TRANS_PENDING`. -/
def asyncPageTransPending : Nat := 0xFFFFFFFF

/-- What the constructors of the cache and its ranges fix.  `max_range` is a power
    of two: otherwise `n_ranges_bits` and `n_ranges_mask` do not describe the same
    addresses, and global addresses need not be distinct. -/
structure Config (R : Nat) where
  nPages : Nat
  nCtrls : Nat
  dist : Fin R → DataDist
  nPages_pos : 0 < nPages
  nPages_lt : nPages < asyncPageTransPending
  nCtrls_pos : 0 < nCtrls
  maxRange_pow : ∃ b, R = 2 ^ b

/-- A cache with one range. -/
theorem oneRange_pow : ∃ b, 1 = 2 ^ b := ⟨0, rfl⟩

/-! ## Global addresses -/

section Address

variable (R : Nat)

/-- `n_ranges_bits`. -/
def nRangesBits : Nat := if R = 1 then 1 else R.log2

/-- `n_ranges_mask`. -/
def nRangesMask : Nat := R - 1

variable {R}

/-- `get_global_address`. -/
def getGlobalAddress (p : PageId R) : Nat := (p.index <<< nRangesBits R) ||| p.range.val

/-- The `previous_range` and `previous_address` of a translation. -/
def pageOfAddress [NeZero R] (g : Nat) : PageId R where
  range := ⟨g &&& nRangesMask R, by
    have h := Nat.and_le_right (n := g) (m := nRangesMask R)
    have hR := Nat.pos_of_neZero R
    simp only [nRangesMask] at h ⊢
    omega⟩
  index := g >>> nRangesBits R

/-- Reading a global address back gives the page it was made from. -/
theorem pageOfAddress_getGlobalAddress [NeZero R] (hR : ∃ b, R = 2 ^ b) (p : PageId R) :
    pageOfAddress (getGlobalAddress p) = p := by
  obtain ⟨b, rfl⟩ := hR
  obtain ⟨⟨r, hr⟩, i⟩ := p
  have hbits : ∃ k, nRangesBits (2 ^ b) = k ∧ r < 2 ^ k ∧ 2 ^ b ≤ 2 ^ k := by
    rw [nRangesBits]
    split
    · exact ⟨1, rfl, by omega, by omega⟩
    · exact ⟨b, Nat.log2_two_pow, hr, le_refl _⟩
  obtain ⟨k, hk, hrk, hbk⟩ := hbits
  have haddr : getGlobalAddress (⟨⟨r, hr⟩, i⟩ : PageId (2 ^ b)) = i * 2 ^ k + r := by
    rw [getGlobalAddress, hk, ← Nat.shiftLeft_add_eq_or_of_lt hrk, Nat.shiftLeft_eq]
  have hmask : (i * 2 ^ k + r) &&& nRangesMask (2 ^ b) = r := by
    rw [nRangesMask, Nat.and_two_pow_sub_one_eq_mod]
    obtain ⟨d, rfl⟩ : ∃ d, k = b + d :=
      ⟨k - b, by have := (Nat.pow_le_pow_iff_right (by decide : 1 < 2)).mp hbk; omega⟩
    rw [Nat.pow_add, ← Nat.mul_assoc, Nat.mul_right_comm, Nat.mul_comm _ (2 ^ b),
      Nat.mul_add_mod, Nat.mod_eq_of_lt hr]
  have hindex : (i * 2 ^ k + r) >>> k = i := by
    rw [Nat.shiftRight_eq_div_pow, Nat.mul_comm, Nat.mul_add_div (Nat.two_pow_pos k),
      Nat.div_eq_of_lt hrk, Nat.add_zero]
  simp only [pageOfAddress, haddr, hk, hmask, hindex]

theorem getGlobalAddress_injective [NeZero R] (hR : ∃ b, R = 2 ^ b) {p q : PageId R}
    (h : getGlobalAddress p = getGlobalAddress q) : p = q := by
  rw [← pageOfAddress_getGlobalAddress hR p, h, pageOfAddress_getGlobalAddress hR q]

end Address

/-! ## Backing controllers -/

/-- `get_backing_ctrl`; `none` is `ALL_CTRLS`. -/
def getBackingCtrl {R : Nat} (cfg : Config R) (p : PageId R) : Option Nat :=
  match cfg.dist p.range with
  | .stripe => some (p.index % cfg.nCtrls)
  | .replicate => none

end GidsStack.PageCache
