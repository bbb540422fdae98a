/-
  GidsStack.Addressing.GlobalAddress

  The ranges of a page cache and the global addresses of their pages (page_cache.h):
  `page_cache_t` fixes bits and mask from `max_range`, `add_range` numbers the ranges, and
  `find_slot` and `__flush` read the range and the page back out of a slot's translation.

  The number of bits is rounded down and the mask is `max_range - 1`, so the two belong to
  each other only when `max_range` is a power of two (`addresses_round_trip_iff`).
-/

import GidsStack.Addressing.Stripe

namespace GidsStack.Addressing

open GidsStack.PageCache

/-! ## The cache's ranges -/

/-- `range_cap`, `n_ranges_bits`, `n_ranges_mask` and `n_ranges` of `page_cache_d_t`. -/
structure RangeTable where
  rangeCap : Nat
  rangesBits : Nat
  rangesMask : Nat
  nRanges : Nat
  deriving DecidableEq, Repr

/-- A `max_range` for which the tables of the constructor, of 8 bytes a range, fit the address
    space; its `std::log2` is exact enough to be rounded down right. -/
structure MaxRange where
  value : Nat
  one_le : 1 ≤ value
  value_lt : value < 2 ^ 48

/-- The constructor of `page_cache_t`. -/
def pageCacheT (maxRange : MaxRange) : RangeTable where
  rangeCap := maxRange.value
  rangesBits := nRangesBits maxRange.value
  rangesMask := nRangesMask maxRange.value
  nRanges := 0

/-- `add_range`: the table and the `range_id` of the new range. -/
def RangeTable.addRange (t : RangeTable) : RangeTable × Nat :=
  ({ t with nRanges := t.nRanges + 1 }, t.nRanges)

/-- `n` ranges are added: the table and their numbers. -/
def RangeTable.addRanges (t : RangeTable) : Nat → RangeTable × List Nat
  | 0 => (t, [])
  | n + 1 =>
    let added := (t.addRanges n).1.addRange
    (added.1, (t.addRanges n).2 ++ [added.2])

/-! ## Addresses -/

/-- `get_global_address`, with the table that the range has copied. -/
def RangeTable.globalAddress (t : RangeTable) (rangeId page : Nat) : Nat :=
  wrap64 (page <<< t.rangesBits) ||| rangeId

/-- `previous_range` and `previous_address` of `find_slot` and `__flush`. -/
def RangeTable.decode (t : RangeTable) (address : Nat) : Nat × Nat :=
  (address &&& t.rangesMask, address >>> t.rangesBits)

/-- Addresses of the pages of all ranges are read back, and are different. -/
def AddressesRoundTrip (maxRange : MaxRange) (n : Nat) : Prop :=
  let t := ((pageCacheT maxRange).addRanges n).1
  let ids := ((pageCacheT maxRange).addRanges n).2
  (∀ id ∈ ids, ∀ page < 2 ^ (64 - t.rangesBits), t.decode (t.globalAddress id page) = (id, page)) ∧
  ∀ id ∈ ids, ∀ id' ∈ ids, ∀ page < 2 ^ (64 - t.rangesBits), ∀ page' < 2 ^ (64 - t.rangesBits),
    t.globalAddress id page = t.globalAddress id' page' → id = id' ∧ page = page'

/-! ## Adding ranges -/

/-- Ranges are numbered in the order in which they are added, and adding one changes nothing
    that addresses depend on. -/
theorem addRanges_eq (t : RangeTable) (n : Nat) :
    t.addRanges n =
      ({ t with nRanges := t.nRanges + n }, (List.range n).map (t.nRanges + ·)) := by
  induction n with
  | zero => rfl
  | succ n ih =>
    rw [RangeTable.addRanges, ih, RangeTable.addRange, List.range_succ, List.map_append]
    rfl

theorem mem_addRanges {maxRange : MaxRange} {n id : Nat} :
    id ∈ ((pageCacheT maxRange).addRanges n).2 ↔ id < n := by
  rw [addRanges_eq]
  simp [pageCacheT]

/-! ## Bits and mask -/

/-- With `b` bits, a mask that covers the range numbers and no more reads an address back. -/
theorem decode_globalAddress {t : RangeTable} {b m id page : Nat} (hbits : t.rangesBits = b)
    (hmask : t.rangesMask = 2 ^ m - 1) (hm : m ≤ b) (hb : b ≤ 64) (hid : id < 2 ^ m)
    (hpage : page < 2 ^ (64 - b)) : t.decode (t.globalAddress id page) = (id, page) := by
  have hidb : id < 2 ^ b := Nat.lt_of_lt_of_le hid (Nat.pow_le_pow_right (by decide) hm)
  have hfit : page <<< b < 18446744073709551616 := by
    rw [Nat.shiftLeft_eq]
    calc page * 2 ^ b < 2 ^ (64 - b) * 2 ^ b :=
          Nat.mul_lt_mul_of_pos_right hpage (Nat.two_pow_pos b)
      _ = 18446744073709551616 := by rw [← Nat.pow_add, Nat.sub_add_cancel hb]
  have haddr : t.globalAddress id page = page * 2 ^ b + id := by
    rw [RangeTable.globalAddress, hbits, wrap64_of_lt hfit, ← Nat.shiftLeft_add_eq_or_of_lt hidb,
      Nat.shiftLeft_eq]
  have hrange : (page * 2 ^ b + id) &&& (2 ^ m - 1) = id := by
    obtain ⟨d, rfl⟩ := Nat.exists_eq_add_of_le hm
    rw [Nat.and_two_pow_sub_one_eq_mod, Nat.pow_add, Nat.mul_comm page, Nat.mul_assoc,
      Nat.mul_add_mod, Nat.mod_eq_of_lt hid]
  have hindex : (page * 2 ^ b + id) >>> b = page := by
    rw [Nat.shiftRight_eq_div_pow, Nat.mul_comm, Nat.mul_add_div (Nat.two_pow_pos b),
      Nat.div_eq_of_lt hidb, Nat.add_zero]
  rw [RangeTable.decode, haddr, hbits, hmask, hrange, hindex]

/-- Beyond a power of two the mask has the lowest bit of the page number. -/
theorem two_pow_log2_and_ne_zero {r : Nat} (hpos : r ≠ 0) (hpow : ¬r.isPowerOfTwo) :
    2 ^ r.log2 &&& (r - 1) ≠ 0 := by
  have hlog := (Nat.log2_eq_iff hpos).mp rfl
  have hne : r ≠ 2 ^ r.log2 := fun h => hpow ⟨_, h⟩
  have hbit : (r - 1).testBit r.log2 = true :=
    Nat.testBit_of_two_pow_le_and_two_pow_add_one_gt (by omega) (by omega)
  intro hzero
  have hand := congrArg (fun x => x.testBit r.log2) hzero
  simp [Nat.testBit_and, hbit] at hand

/-- Global addresses can be read back if and only if no range was added or `max_range` is a
    power of two. -/
theorem addresses_round_trip_iff (maxRange : MaxRange) (n : Nat) (h : n ≤ maxRange.value) :
    AddressesRoundTrip maxRange n ↔ n = 0 ∨ maxRange.value.isPowerOfTwo := by
  obtain ⟨r, hr1, hr48⟩ := maxRange
  have hbits : ∀ n, ((pageCacheT ⟨r, hr1, hr48⟩).addRanges n).1.rangesBits = nRangesBits r := by
    intro n
    rw [addRanges_eq]
    rfl
  have hmask : ∀ n, ((pageCacheT ⟨r, hr1, hr48⟩).addRanges n).1.rangesMask = r - 1 := by
    intro n
    rw [addRanges_eq]
    rfl
  constructor
  · rintro ⟨hdecode, -⟩
    by_contra hcon
    obtain ⟨hn, hpow⟩ := not_or.mp hcon
    have hr : r ≠ 1 := fun h1 => hpow ⟨0, h1⟩
    have hlog : r.log2 < 48 := (Nat.log2_lt (by omega)).mpr hr48
    -- page 1 of range 0
    have hlt : 1 < 2 ^ (64 - nRangesBits r) := by
      rw [nRangesBits, if_neg hr]
      exact Nat.one_lt_two_pow (by omega)
    have hpage := hdecode 0 (mem_addRanges.mpr (Nat.pos_of_ne_zero hn)) 1 (by rwa [hbits])
    have hrange := congrArg Prod.fst hpage
    rw [RangeTable.decode, RangeTable.globalAddress, hbits, hmask, nRangesBits, if_neg hr,
      Nat.or_zero, Nat.one_shiftLeft, wrap64_of_lt
        (Nat.lt_of_lt_of_le (Nat.pow_lt_pow_right (by decide) hlog) (by decide))] at hrange
    exact two_pow_log2_and_ne_zero (by omega) hpow hrange
  · intro hcases
    have hdecode : ∀ id < n, ∀ page < 2 ^ (64 - nRangesBits r),
        ((pageCacheT ⟨r, hr1, hr48⟩).addRanges n).1.decode
          (((pageCacheT ⟨r, hr1, hr48⟩).addRanges n).1.globalAddress id page) = (id, page) := by
      intro id hid page hpage
      rcases hcases with rfl | ⟨m, rfl⟩
      · exact absurd hid (Nat.not_lt_zero id)
      · have hm : m < 48 := (Nat.pow_lt_pow_iff_right (by decide)).mp hr48
        by_cases h1 : 2 ^ m = 1
        · have hm0 : m = 0 := by
            by_contra hne
            exact absurd (Nat.one_lt_two_pow hne) (by omega)
          subst hm0
          refine decode_globalAddress (b := 1) (m := 0) ?_ (hmask n) (by decide) (by decide)
            (Nat.lt_of_lt_of_le hid h) (by simpa [nRangesBits] using hpage)
          rw [hbits]
          rfl
        · have hb : nRangesBits (2 ^ m) = m := by
            rw [nRangesBits, if_neg h1, Nat.log2_two_pow]
          refine decode_globalAddress (b := m) (m := m) ?_ (hmask n) (Nat.le_refl m) (by omega)
            (Nat.lt_of_lt_of_le hid h) (by rwa [hb] at hpage)
          rw [hbits, hb]
    refine ⟨?_, ?_⟩
    · intro id hid page hpage
      rw [hbits] at hpage
      exact hdecode id (mem_addRanges.mp hid) page hpage
    · intro id hid id' hid' page hpage page' hpage' heq
      rw [hbits] at hpage hpage'
      have hpair : (id, page) = (id', page') := by
        rw [← hdecode id (mem_addRanges.mp hid) page hpage, heq,
          hdecode id' (mem_addRanges.mp hid') page' hpage']
      exact Prod.mk.inj hpair

/-- The 64 ranges of the feature store's cache. -/
theorem sixtyFour_round_trip : AddressesRoundTrip ⟨64, by decide, by decide⟩ 64 :=
  (addresses_round_trip_iff ⟨64, by decide, by decide⟩ 64 (Nat.le_refl 64)).mpr
    (.inr ⟨6, by decide⟩)

/-- With room for three ranges, page 1 of range 0 is read back as a page of range 2. -/
theorem threeRanges_astray : ¬AddressesRoundTrip ⟨3, by decide, by decide⟩ 1 := by
  rintro ⟨hdecode, -⟩
  have hpage := hdecode 0 (by decide) 1 (by decide)
  exact absurd hpage (by decide)

end GidsStack.Addressing
