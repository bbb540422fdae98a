/-
  GidsStack.Addressing.Ranges

  From element indices to bytes of a cached page (page_cache.h): the byte index of
  `get_page` and `get_subindex`, which `seq_read` uses, and the window of `acquire_page`,
  which `bam_ptr` uses.

  The window knows neither `index_start` nor `page_start_offset`, `find_range` takes `count`
  for the end of the range, and `init_controllers` makes no page of a partial last one.
  The two ways meet, on every element, exactly for the arrays of `ArrayD.Addressable`
  (`elements_agree_iff`).
-/

import GidsStack.Addressing.Stripe

namespace GidsStack.Addressing

/-- The difference of two `size_t`. -/
def sub64 (x y : Nat) : Nat := wrap64 (x + 18446744073709551616 - y)

theorem sub64_of_le {x y : Nat} (h : y ≤ x) (hx : x < 18446744073709551616) :
    sub64 x y = x - y := by
  rw [sub64, wrap64, Nat.sub_add_comm h, Nat.add_mod_right, Nat.mod_eq_of_lt (by omega)]

theorem wrap64_lt (x : Nat) : wrap64 x < 18446744073709551616 := Nat.mod_lt _ (by decide)

theorem wrap64_le (x : Nat) : wrap64 x ≤ x := Nat.mod_le _ _

/-! ## Ranges -/

/-- What `range_d_t` knows of its elements; `page_size_log` is the one of its cache. -/
structure RangeD where
  indexStart : Nat
  count : Nat
  pageCount : Nat
  pageStartOffset : Nat
  pageSizeLog : Nat
  indexStart_lt : indexStart < 18446744073709551616
  count_lt : count < 18446744073709551616
  pageStartOffset_lt : pageStartOffset < 18446744073709551616
  pageSizeLog_lt : pageSizeLog < 64

namespace RangeD

variable (r : RangeD) (sizeofT : Nat)

def pageSize : Nat := 2 ^ r.pageSizeLog

def nElemsPerPage : Nat := r.pageSize / sizeofT

/-- The byte index that `get_page` and `get_subindex` cut. -/
def byteIndex (i : Nat) : Nat :=
  wrap64 (wrap64 (sub64 i r.indexStart * sizeofT) + r.pageStartOffset)

def getPage (i : Nat) : Nat := r.byteIndex sizeofT i >>> r.pageSizeLog

def getSubindex (i : Nat) : Nat := r.byteIndex sizeofT i &&& (r.pageSize - 1)

def getCachePageAddr (baseAddr pageTrans : Nat) : Nat :=
  wrap64 (baseAddr + wrap64 (pageTrans * r.pageSize))

/-- `start` and `end` as `acquire_page` sets them. -/
def acquireStart (i : Nat) : Nat := wrap64 (r.nElemsPerPage sizeofT * r.getPage sizeofT i)

def acquireEnd (i : Nat) : Nat :=
  wrap64 (r.acquireStart sizeofT i + r.nElemsPerPage sizeofT)

/-- The address of `addr[i - start]` in the window of a page at `addr`. -/
def windowAddr (addr i : Nat) : Nat :=
  wrap64 (addr + wrap64 (sub64 i (r.acquireStart sizeofT i) * sizeofT))

/-- The address that `seq_read` reads. -/
def seqReadAddr (addr i : Nat) : Nat := wrap64 (addr + r.getSubindex sizeofT i)

/-- The range has `count` elements from `index_start`. -/
def Holds (i : Nat) : Prop :=
  r.indexStart ≤ i ∧ i < r.indexStart + r.count ∧ i < 18446744073709551616

end RangeD

/-- The parts of `array_d_t` that addressing uses. -/
structure ArrayD where
  sizeofT : Nat
  ranges : List RangeD
  sizeofT_pos : 0 < sizeofT

namespace ArrayD

variable (a : ArrayD)

/-- `find_range`; `none` is `-1`. -/
def findRange (i : Nat) : Option Nat :=
  a.ranges.findIdx? fun r => decide (r.indexStart ≤ i) && decide (r.count > i)

/-- What an access to element `i` of range `k` relies on. -/
def ElementAgrees (k : Nat) (r : RangeD) (i : Nat) : Prop :=
  a.findRange i = some k ∧
  r.getPage a.sizeofT i < r.pageCount ∧
  r.acquireStart a.sizeofT i ≤ i ∧ i < r.acquireEnd a.sizeofT i ∧
  ∀ baseAddr pageTrans,
    r.windowAddr a.sizeofT (r.getCachePageAddr baseAddr pageTrans) i =
      r.seqReadAddr a.sizeofT (r.getCachePageAddr baseAddr pageTrans) i

/-- Every element of every range is addressed alike. -/
def ElementsAgree : Prop :=
  ∀ k r i, a.ranges[k]? = some r → r.Holds i → a.ElementAgrees k r i

end ArrayD

/-- The ranges on which the two ways meet. -/
structure RangeD.Plain (r : RangeD) (sizeofT : Nat) : Prop where
  indexStart_eq : r.indexStart = 0
  pageStartOffset_eq : r.pageStartOffset = 0
  lastByte_lt : (r.count - 1) * sizeofT < r.pageCount * r.pageSize
  lastByte_lt_word : (r.count - 1) * sizeofT < 18446744073709551616
  lastEnd_lt_word :
    r.nElemsPerPage sizeofT * ((r.count - 1) * sizeofT / r.pageSize + 1) < 18446744073709551616
  fits : sizeofT ∣ r.pageSize ∨ r.count ≤ r.nElemsPerPage sizeofT

/-- The arrays on which the two ways meet: one plain range, all others empty. -/
def ArrayD.Addressable (a : ArrayD) : Prop :=
  ∀ (k : Nat) (r : RangeD), a.ranges[k]? = some r → r.count ≠ 0 →
    (∀ (j : Nat) (q : RangeD), j < k → a.ranges[j]? = some q → q.count = 0) ∧ r.Plain a.sizeofT

/-! ## One range -/

namespace RangeD

variable (r : RangeD) {sizeofT : Nat}

theorem pageSize_pos : 0 < r.pageSize := Nat.two_pow_pos _

theorem pageSize_dvd : r.pageSize ∣ 18446744073709551616 :=
  Nat.pow_dvd_pow 2 (Nat.le_of_lt r.pageSizeLog_lt)

theorem nElemsPerPage_mul_le (sizeofT : Nat) : r.nElemsPerPage sizeofT * sizeofT ≤ r.pageSize :=
  Nat.div_mul_le_self _ _

theorem nElemsPerPage_le (sizeofT : Nat) : r.nElemsPerPage sizeofT ≤ r.pageSize :=
  Nat.div_le_self _ _

theorem getPage_eq (i : Nat) : r.getPage sizeofT i = r.byteIndex sizeofT i / r.pageSize :=
  Nat.shiftRight_eq_div_pow _ _

theorem getSubindex_eq (i : Nat) :
    r.getSubindex sizeofT i = r.byteIndex sizeofT i % r.pageSize :=
  Nat.and_two_pow_sub_one_eq_mod _ _

theorem byteIndex_lt (i : Nat) : r.byteIndex sizeofT i < 18446744073709551616 := wrap64_lt _

/-- The byte index of a range that starts with the elements. -/
theorem byteIndex_of_zero (hindex : r.indexStart = 0) (hoff : r.pageStartOffset = 0) {i : Nat}
    (hi : i < 18446744073709551616) : r.byteIndex sizeofT i = wrap64 (i * sizeofT) := by
  rw [byteIndex, hindex, hoff, sub64_of_le (Nat.zero_le _) hi, Nat.sub_zero, Nat.add_zero, wrap64,
    wrap64, Nat.mod_mod]

/-- A page number is small enough that the pages up to it have 64-bit addresses. -/
theorem getPage_succ_mul_le (sizeofT i : Nat) :
    (r.getPage sizeofT i + 1) * r.pageSize ≤ 18446744073709551616 := by
  obtain ⟨n, hn⟩ := r.pageSize_dvd
  have hlt : r.byteIndex sizeofT i / r.pageSize < n :=
    Nat.div_lt_of_lt_mul (by rw [← hn]; exact r.byteIndex_lt i)
  rw [getPage_eq, hn, Nat.mul_comm r.pageSize]
  exact Nat.mul_le_mul_right _ hlt

theorem mul_getPage_succ_le (sizeofT i : Nat) :
    r.nElemsPerPage sizeofT * (r.getPage sizeofT i + 1) ≤ 18446744073709551616 := by
  apply Nat.le_trans _ (r.getPage_succ_mul_le sizeofT i)
  rw [Nat.mul_comm]
  exact Nat.mul_le_mul_left _ (r.nElemsPerPage_le _)

theorem acquireStart_eq (i : Nat) :
    r.acquireStart sizeofT i = r.nElemsPerPage sizeofT * r.getPage sizeofT i := by
  have hsucc := r.mul_getPage_succ_le sizeofT i
  have hle : r.nElemsPerPage sizeofT * r.getPage sizeofT i ≤ r.byteIndex sizeofT i := by
    rw [getPage_eq]
    exact Nat.le_trans (Nat.mul_le_mul_right _ (r.nElemsPerPage_le _)) (Nat.mul_div_le _ _)
  exact wrap64_of_lt (Nat.lt_of_le_of_lt hle (r.byteIndex_lt i))

theorem acquireEnd_eq (i : Nat) :
    r.acquireEnd sizeofT i =
      wrap64 (r.nElemsPerPage sizeofT * (r.getPage sizeofT i + 1)) := by
  rw [acquireEnd, acquireStart_eq, Nat.mul_succ]

/-- A window that is not empty ends below `2 ^ 64`. -/
theorem mul_getPage_succ_lt {i : Nat} (h : i < r.acquireEnd sizeofT i) :
    r.nElemsPerPage sizeofT * (r.getPage sizeofT i + 1) < 18446744073709551616 := by
  rcases Nat.lt_or_eq_of_le (r.mul_getPage_succ_le sizeofT i) with hlt | heq
  · exact hlt
  · rw [acquireEnd_eq, heq] at h
    exact absurd h (Nat.not_lt_zero _)

/-- The last byte below a window has a 64-bit index. -/
theorem mul_lt_of_lt_acquireEnd (hpos : 0 < sizeofT) {i : Nat} (h : i < r.acquireEnd sizeofT i) :
    i * sizeofT < 18446744073709551616 := by
  have hend : r.acquireEnd sizeofT i * sizeofT ≤ 18446744073709551616 := by
    calc r.acquireEnd sizeofT i * sizeofT
        ≤ r.nElemsPerPage sizeofT * (r.getPage sizeofT i + 1) * sizeofT := by
          rw [acquireEnd_eq]
          exact Nat.mul_le_mul_right _ (wrap64_le _)
      _ = (r.getPage sizeofT i + 1) * (r.nElemsPerPage sizeofT * sizeofT) := by
          rw [Nat.mul_comm (r.nElemsPerPage sizeofT), Nat.mul_assoc]
      _ ≤ (r.getPage sizeofT i + 1) * r.pageSize :=
          Nat.mul_le_mul_left _ (r.nElemsPerPage_mul_le _)
      _ ≤ 18446744073709551616 := r.getPage_succ_mul_le _ i
  exact Nat.lt_of_lt_of_le (Nat.mul_lt_mul_of_pos_right h hpos) hend

/-- In a plain range an element lies in its window, and the window and the byte index
    lead to the same byte. -/
theorem Plain.element {r : RangeD} (h : r.Plain sizeofT) (hpos : 0 < sizeofT) {i : Nat}
    (hi : i < r.count) :
    r.getPage sizeofT i < r.pageCount ∧
    r.acquireStart sizeofT i ≤ i ∧ i < r.acquireEnd sizeofT i ∧
    ∀ addr, r.windowAddr sizeofT addr i = r.seqReadAddr sizeofT addr i := by
  have hi64 : i < 18446744073709551616 := Nat.lt_trans hi r.count_lt
  have hlast : i * sizeofT ≤ (r.count - 1) * sizeofT := Nat.mul_le_mul_right _ (by omega)
  have hfit := h.lastByte_lt_word
  have hbyte : r.byteIndex sizeofT i = i * sizeofT := by
    rw [r.byteIndex_of_zero h.indexStart_eq h.pageStartOffset_eq hi64, wrap64_of_lt (by omega)]
  have hpage : r.getPage sizeofT i = i * sizeofT / r.pageSize := by rw [getPage_eq, hbyte]
  have hend : r.acquireEnd sizeofT i =
      r.nElemsPerPage sizeofT * (r.getPage sizeofT i + 1) := by
    have hle : r.getPage sizeofT i ≤ (r.count - 1) * sizeofT / r.pageSize := by
      rw [hpage]
      exact Nat.div_le_div_right hlast
    rw [acquireEnd_eq, wrap64_of_lt]
    exact Nat.lt_of_le_of_lt (Nat.mul_le_mul_left _ (Nat.succ_le_succ hle)) h.lastEnd_lt_word
  -- the element is the `i - start`-th of its page
  have hwindow : r.acquireStart sizeofT i ≤ i ∧ i < r.acquireEnd sizeofT i ∧
      (i - r.acquireStart sizeofT i) * sizeofT = r.getSubindex sizeofT i := by
    rw [hend, acquireStart_eq, getSubindex_eq, hbyte, hpage]
    rcases h.fits with hdvd | hone
    · have hsize : r.pageSize = r.nElemsPerPage sizeofT * sizeofT := (Nat.div_mul_cancel hdvd).symm
      have hepp : 0 < r.nElemsPerPage sizeofT :=
        Nat.pos_of_mul_pos_right (hsize ▸ r.pageSize_pos)
      have hdiv := Nat.div_add_mod i (r.nElemsPerPage sizeofT)
      have hmod := Nat.mod_lt i hepp
      rw [hsize, Nat.mul_div_mul_right _ _ hpos, Nat.mul_mod_mul_right, Nat.mul_succ]
      refine ⟨Nat.mul_div_le _ _, by omega, ?_⟩
      rw [show i - r.nElemsPerPage sizeofT * (i / r.nElemsPerPage sizeofT) =
        i % r.nElemsPerPage sizeofT by omega]
    · have hlt : i * sizeofT < r.pageSize :=
        Nat.lt_of_lt_of_le (Nat.mul_lt_mul_of_pos_right (Nat.lt_of_lt_of_le hi hone) hpos)
          (r.nElemsPerPage_mul_le _)
      rw [Nat.div_eq_of_lt hlt, Nat.mod_eq_of_lt hlt, Nat.mul_zero, Nat.mul_one, Nat.sub_zero]
      exact ⟨Nat.zero_le _, Nat.lt_of_lt_of_le hi hone, rfl⟩
  refine ⟨?_, hwindow.1, hwindow.2.1, fun addr => ?_⟩
  · rw [hpage]
    exact Nat.div_lt_of_lt_mul (by have := h.lastByte_lt; rw [Nat.mul_comm r.pageSize]; omega)
  · have hsub := Nat.mod_lt (r.byteIndex sizeofT i) r.pageSize_pos
    have hsize : r.pageSize ≤ 18446744073709551616 := Nat.le_of_dvd (by decide) r.pageSize_dvd
    have hindex : r.getSubindex sizeofT i < 18446744073709551616 := by
      rw [getSubindex_eq]
      exact Nat.lt_of_lt_of_le hsub hsize
    rw [windowAddr, seqReadAddr, sub64_of_le hwindow.1 hi64, hwindow.2.2, wrap64_of_lt hindex]

end RangeD

/-! ## Arrays -/

namespace ArrayD

variable {a : ArrayD}

theorem findRange_eq_some {i k : Nat} (h : a.findRange i = some k) {r : RangeD}
    (hr : a.ranges[k]? = some r) : i < r.count := by
  obtain ⟨hk, htest, -⟩ := List.findIdx?_eq_some_iff_getElem.mp h
  rw [List.getElem?_eq_getElem hk, Option.some.injEq] at hr
  rw [hr, Bool.and_eq_true, decide_eq_true_eq, decide_eq_true_eq] at htest
  exact htest.2

section Necessary

variable (h : a.ElementsAgree) {k : Nat} {r : RangeD} (hr : a.ranges[k]? = some r)
  (hcount : r.count ≠ 0)
include h hr hcount

/-- `find_range` compares the index with `count`, so a range that starts later
    loses its last elements. -/
theorem ElementsAgree.indexStart_eq : r.indexStart = 0 := by
  have hstart := r.indexStart_lt
  have hlt := r.count_lt
  -- the last element of the range that a `size_t` can name
  have hlast : r.Holds (min (r.indexStart + r.count - 1) 18446744073709551615) :=
    ⟨by omega, by omega, by omega⟩
  have hfound := findRange_eq_some (h k r _ hr hlast).1 hr
  omega

theorem ElementsAgree.holds_iff {i : Nat} : r.Holds i ↔ i < r.count := by
  have hlt := r.count_lt
  rw [RangeD.Holds, h.indexStart_eq hr hcount]
  omega

theorem ElementsAgree.element {i : Nat} (hi : i < r.count) : a.ElementAgrees k r i :=
  h k r i hr ((h.holds_iff hr hcount).mpr hi)

/-- The first element is the first byte of its window. -/
theorem ElementsAgree.pageStartOffset_eq : r.pageStartOffset = 0 := by
  obtain ⟨-, -, hstart, hend, haddr⟩ := h.element hr hcount (Nat.pos_of_ne_zero hcount)
  have hbyte : r.byteIndex a.sizeofT 0 = r.pageStartOffset := by
    have hzero : sub64 0 0 = 0 := by decide
    have hwrap : wrap64 0 = 0 := by decide
    rw [RangeD.byteIndex, h.indexStart_eq hr hcount, hzero, Nat.zero_mul, hwrap, Nat.zero_add,
      wrap64_of_lt r.pageStartOffset_lt]
  have hepp : 0 < r.nElemsPerPage a.sizeofT := by
    rcases Nat.eq_zero_or_pos (r.nElemsPerPage a.sizeofT) with hzero | hpos
    · rw [RangeD.acquireEnd_eq, hzero, Nat.zero_mul] at hend
      exact absurd hend (Nat.not_lt_zero _)
    · exact hpos
  have hpage : r.getPage a.sizeofT 0 = 0 := by
    rw [RangeD.acquireStart_eq] at hstart
    rcases Nat.mul_eq_zero.mp (Nat.le_zero.mp hstart) with hzero | hzero
    · omega
    · exact hzero
  have hsame := haddr 0 0
  have hlt : r.pageStartOffset < r.pageSize := by
    rw [RangeD.getPage_eq, hbyte] at hpage
    exact (Nat.div_eq_zero_iff_lt r.pageSize_pos).mp hpage
  have hzero : r.getCachePageAddr 0 0 = 0 := by
    rw [RangeD.getCachePageAddr, Nat.zero_mul]
    decide
  have hwindow : wrap64 (sub64 0 0 * a.sizeofT) = 0 := by
    rw [show sub64 0 0 = 0 by decide, Nat.zero_mul]
    decide
  rw [RangeD.windowAddr, RangeD.seqReadAddr, RangeD.acquireStart_eq, hpage, Nat.mul_zero, hzero,
    hwindow, Nat.zero_add, Nat.zero_add, RangeD.getSubindex_eq, hbyte, Nat.mod_eq_of_lt hlt,
    wrap64_of_lt r.pageStartOffset_lt] at hsame
  rw [← hsame]
  decide

theorem ElementsAgree.byteIndex_eq {i : Nat} (hi : i < r.count) :
    r.byteIndex a.sizeofT i = i * a.sizeofT := by
  obtain ⟨-, -, -, hend, -⟩ := h.element hr hcount hi
  rw [r.byteIndex_of_zero (h.indexStart_eq hr hcount) (h.pageStartOffset_eq hr hcount)
    (Nat.lt_trans hi r.count_lt), wrap64_of_lt (r.mul_lt_of_lt_acquireEnd a.sizeofT_pos hend)]

/-- Elements that do not divide the page leave a gap at its end, and the window of the
    next element would start behind it. -/
theorem ElementsAgree.fits :
    a.sizeofT ∣ r.pageSize ∨ r.count ≤ r.nElemsPerPage a.sizeofT := by
  rcases Nat.lt_or_ge (r.nElemsPerPage a.sizeofT) r.count with hmore | hone
  · obtain ⟨-, -, -, hend, -⟩ := h.element hr hcount hmore
    left
    by_contra hdvd
    have hlt : r.nElemsPerPage a.sizeofT * a.sizeofT < r.pageSize := by
      apply Nat.lt_of_le_of_ne (r.nElemsPerPage_mul_le _)
      intro heq
      exact hdvd (heq ▸ Nat.dvd_mul_left _ _)
    rw [RangeD.acquireEnd_eq, RangeD.getPage_eq, h.byteIndex_eq hr hcount hmore,
      Nat.div_eq_of_lt hlt, Nat.mul_one] at hend
    exact absurd hend (Nat.not_lt.mpr (wrap64_le _))
  · exact Or.inr hone

theorem ElementsAgree.plain : r.Plain a.sizeofT := by
  have hlast : r.count - 1 < r.count := by omega
  obtain ⟨-, hpage, -, hend, -⟩ := h.element hr hcount hlast
  have hsucc := r.mul_getPage_succ_lt hend
  rw [RangeD.getPage_eq, h.byteIndex_eq hr hcount hlast] at hpage hsucc
  exact {
    indexStart_eq := h.indexStart_eq hr hcount
    pageStartOffset_eq := h.pageStartOffset_eq hr hcount
    lastByte_lt := (Nat.div_lt_iff_lt_mul r.pageSize_pos).mp hpage
    lastByte_lt_word := r.mul_lt_of_lt_acquireEnd a.sizeofT_pos hend
    lastEnd_lt_word := hsucc
    fits := h.fits hr hcount }

/-- All ranges with elements start at 0, so there is no second one. -/
theorem ElementsAgree.earlier_empty {j : Nat} {q : RangeD} (hj : j < k)
    (hq : a.ranges[j]? = some q) : q.count = 0 := by
  by_contra hne
  have hfirst := (h.element hr hcount (Nat.pos_of_ne_zero hcount)).1
  have hearlier := (h.element hq hne (Nat.pos_of_ne_zero hne)).1
  rw [hfirst, Option.some.injEq] at hearlier
  omega

end Necessary

/-- In an addressable array `find_range` finds the range of every element. -/
theorem Addressable.findRange_eq (h : a.Addressable) {k i : Nat} {r : RangeD}
    (hr : a.ranges[k]? = some r) (hi : i < r.count) : a.findRange i = some k := by
  obtain ⟨hempty, hplain⟩ := h k r hr (by omega)
  obtain ⟨hk, hget⟩ := List.getElem?_eq_some_iff.mp hr
  rw [findRange, List.findIdx?_eq_some_iff_getElem]
  refine ⟨hk, ?_, ?_⟩
  · rw [hget, Bool.and_eq_true, decide_eq_true_eq, decide_eq_true_eq, hplain.indexStart_eq]
    omega
  · intro j hj
    have hzero := hempty j _ hj (List.getElem?_eq_getElem (by omega))
    rw [Bool.and_eq_true, decide_eq_true_eq, decide_eq_true_eq, hzero]
    omega

/-- The windows of `acquire_page` and the byte indices of `seq_read` name the same bytes of
    the same pages exactly in the addressable arrays. -/
theorem elements_agree_iff (a : ArrayD) : a.ElementsAgree ↔ a.Addressable := by
  apply Iff.intro
  · intro h k r hr hcount
    exact ⟨fun j q hj hq => h.earlier_empty hr hcount hj hq, h.plain hr hcount⟩
  · intro h k r i hr hi
    have hcount : r.count ≠ 0 := by
      intro hzero
      have := hi.1
      have := hi.2.1
      omega
    have hplain := (h k r hr hcount).2
    have hlt : i < r.count := by
      have := hi.2.1
      rw [hplain.indexStart_eq] at this
      omega
    obtain ⟨hpage, hstart, hend, haddr⟩ := hplain.element a.sizeofT_pos hlt
    exact ⟨h.findRange_eq hr hlt, hpage, hstart, hend, fun _ _ => haddr _⟩

end ArrayD

/-! ## The array of a feature store -/

/-- The array that `init_controllers` builds for `num_ele` elements. -/
def initControllers (sizeofT numEle pageSizeLog : Nat) (hsize : 0 < sizeofT)
    (hele : numEle < 18446744073709551616) (hlog : pageSizeLog < 64) : ArrayD where
  sizeofT := sizeofT
  ranges := [{
    indexStart := 0
    count := numEle
    pageCount := wrap64 (numEle * sizeofT) / 2 ^ pageSizeLog
    pageStartOffset := 0
    pageSizeLog := pageSizeLog
    indexStart_lt := by decide
    count_lt := hele
    pageStartOffset_lt := by decide
    pageSizeLog_lt := hlog }]
  sizeofT_pos := hsize

/-- 1500 floats need two pages of 4096 bytes and get one. -/
theorem partial_page_unbacked :
    ¬ (initControllers 4 1500 12 (by decide) (by decide) (by decide)).ElementsAgree := by
  intro h
  have hlast := (h 0 _ 1499 rfl ⟨by decide, by decide, by decide⟩).2.1
  exact absurd hlast (by decide)

end GidsStack.Addressing
