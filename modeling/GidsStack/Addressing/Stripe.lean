/-
  GidsStack.Addressing.Stripe

  Where a file page lies on the SSDs: as `readwrite_stripe` writes it, and as a
  `STRIPE` range of the loader reads it.

  The writer stripes byte addresses, the offset of the file included.  The reader stripes
  the pages of the file and adds the offset afterwards, rounded up to a full stripe.  The two
  meet exactly when the offset is a whole number of stripes (`stripeLayout_iff`).
-/

import GidsStack.PageCache.Layout

namespace GidsStack.Addressing

open GidsStack.PageCache

/-- `uint64_t` arithmetic wraps here. -/
def wrap64 (x : Nat) : Nat := x % 18446744073709551616

theorem wrap64_of_lt {x : Nat} (h : x < 18446744073709551616) : wrap64 x = x := Nat.mod_eq_of_lt h

/-! ## The two layouts -/

/-- The devices and the page size that writer and reader share: `num_ctrls` and `req_size`
    are `uint32_t`, and NVMe has no blocks below 512 bytes. -/
structure Stripes where
  numCtrls : Nat
  reqSize : Nat
  blockSizeLog : Nat
  numCtrls_pos : 0 < numCtrls
  numCtrls_lt : numCtrls < 4294967296
  reqSize_pos : 0 < reqSize
  reqSize_lt : reqSize < 4294967296
  blockSizeLog_ge : 9 ≤ blockSizeLog
  block_dvd : 2 ^ blockSizeLog ∣ reqSize

/-- A place on the SSDs: the controller and the first block. -/
structure Location where
  ctrl : Nat
  startBlock : Nat
  deriving DecidableEq, Repr

namespace Stripes

variable (st : Stripes)

/-- `req_size >> block_size_log`, and `n_blocks_per_page` of the reader. -/
def numBlock : Nat := st.reqSize >>> st.blockSizeLog

/-- `sequential_access_kernel`: where thread `tid` of the chunk at `s_offset` goes. -/
def sequentialAccess (oOffset sOffset tid : Nat) : Location where
  ctrl := wrap64 (tid + wrap64 (sOffset + oOffset) / st.reqSize % st.numCtrls) % st.numCtrls
  startBlock :=
    let startBlockGlobal :=
      wrap64 (oOffset + wrap64 (sOffset + wrap64 (tid * st.reqSize))) >>> st.blockSizeLog
    wrap64 (startBlockGlobal / wrap64 (st.numCtrls * st.numBlock) * st.numBlock)

end Stripes

/-- `get_backing_page_`. -/
def getBackingPage (pageStart pageOffset nCtrls : Nat) : DataDist → Nat
  | .stripe => wrap64 (pageStart + pageOffset / nCtrls)
  | .replicate => wrap64 (pageStart + pageOffset)

/-- `get_backing_ctrl_`; `none` is `ALL_CTRLS`. -/
def getBackingCtrl (pageOffset nCtrls : Nat) : DataDist → Option Nat
  | .stripe => some (pageOffset % nCtrls)
  | .replicate => none

/-- `math.ceil(x / y)` of `GIDS.__init__`; the float quotients of page counts below `2 ^ 53`
    have the same ceiling. -/
def ceilDiv (x y : Nat) : Nat := (x + y - 1) / y

namespace Stripes

variable (st : Stripes)

/-- `self.off`, the `page_start` of the range. -/
def pageStart (off : Nat) : Nat := ceilDiv (ceilDiv off st.reqSize) st.numCtrls

/-- Where `acquire_page` reads page `page` of the `STRIPE` range. -/
def readLocation (off page : Nat) : Location where
  ctrl := (getBackingCtrl page st.numCtrls .stripe).getD 0
  startBlock :=
    wrap64 (getBackingPage (st.pageStart off) page st.numCtrls .stripe * st.numBlock)

/-- The pages of a file of `fileSize` bytes. -/
def filePages (fileSize : Nat) : Nat := ceilDiv fileSize st.reqSize

/-- Every page of the file is read where it was written, whatever the chunks of the writer,
    and no two pages share a place. -/
def LayoutAgrees (off fileSize : Nat) : Prop :=
  (∀ sOffset tid, st.reqSize ∣ sOffset → sOffset / st.reqSize + tid < st.filePages fileSize →
    st.sequentialAccess off sOffset tid = st.readLocation off (sOffset / st.reqSize + tid)) ∧
  ∀ p q, p < st.filePages fileSize → q < st.filePages fileSize → p ≠ q →
    st.readLocation off p ≠ st.readLocation off q

/-! ## Geometry -/

theorem reqSize_eq : st.reqSize = st.numBlock * 2 ^ st.blockSizeLog := by
  rw [numBlock, Nat.shiftRight_eq_div_pow, Nat.div_mul_cancel st.block_dvd]

theorem numBlock_pos : 0 < st.numBlock := by
  have hpos := st.reqSize_pos
  rw [st.reqSize_eq] at hpos
  exact Nat.pos_of_mul_pos_right hpos

theorem numBlock_le : st.numBlock ≤ st.reqSize := by
  rw [numBlock, Nat.shiftRight_eq_div_pow]
  exact Nat.div_le_self _ _

theorem block_ge : 512 ≤ 2 ^ st.blockSizeLog :=
  Nat.pow_le_pow_right (n := 2) (by decide) st.blockSizeLog_ge

/-- A stripe, one page on every controller, is below `2 ^ 64` bytes. -/
theorem stripe_lt : st.numCtrls * st.reqSize < 18446744073709551616 := by
  have h : st.numCtrls * st.reqSize ≤ 4294967295 * 4294967295 :=
    Nat.mul_le_mul (by have := st.numCtrls_lt; omega) (by have := st.reqSize_lt; omega)
  omega

theorem numCtrls_mul_numBlock_lt : st.numCtrls * st.numBlock < 18446744073709551616 :=
  Nat.lt_of_le_of_lt (Nat.mul_le_mul_left _ st.numBlock_le) st.stripe_lt

/-- Pages below `2 ^ 65` bytes have block numbers far below `2 ^ 64`. -/
theorem mul_numBlock_lt {x : Nat} (h : x * st.reqSize < 36893488147419103232) :
    x * st.numBlock < 18446744073709551616 := by
  rw [st.reqSize_eq, ← Nat.mul_assoc] at h
  have hblock : x * st.numBlock * 512 ≤ x * st.numBlock * 2 ^ st.blockSizeLog :=
    Nat.mul_le_mul_left _ st.block_ge
  omega

/-- The first block of the stripe that holds a byte. -/
theorem shiftRight_div (byte : Nat) :
    (byte >>> st.blockSizeLog) / (st.numCtrls * st.numBlock) =
      byte / (st.numCtrls * st.reqSize) := by
  rw [Nat.shiftRight_eq_div_pow, Nat.div_div_eq_div_mul, Nat.mul_comm (2 ^ st.blockSizeLog),
    Nat.mul_assoc, ← st.reqSize_eq]

/-! ## The writer -/

/-- The byte address of page `a + (k + t)`, as the kernel computes it. -/
theorem wrap64_address (a k t : Nat) :
    wrap64 (a * st.reqSize + wrap64 (k * st.reqSize + wrap64 (t * st.reqSize))) =
      wrap64 ((a + (k + t)) * st.reqSize) := by
  simp only [wrap64, Nat.add_mod_mod, Nat.add_mul]

theorem sequentialAccess_startBlock (a k t : Nat) :
    (st.sequentialAccess (a * st.reqSize) (k * st.reqSize) t).startBlock =
      wrap64 (wrap64 ((a + (k + t)) * st.reqSize) / (st.numCtrls * st.reqSize) * st.numBlock) := by
  simp only [sequentialAccess]
  rw [wrap64_address, wrap64_of_lt st.numCtrls_mul_numBlock_lt, shiftRight_div]

/-- Without a wrap of the byte address the writer stripes `a + (k + t)`. -/
theorem sequentialAccess_eq {a k t : Nat}
    (h : (a + (k + t)) * st.reqSize < 18446744073709551616) :
    st.sequentialAccess (a * st.reqSize) (k * st.reqSize) t =
      ⟨(a + (k + t)) % st.numCtrls, (a + (k + t)) / st.numCtrls * st.numBlock⟩ := by
  have hrow : (a + (k + t)) / st.numCtrls * st.numBlock < 18446744073709551616 := by
    apply st.mul_numBlock_lt
    have hle : (a + (k + t)) / st.numCtrls * st.reqSize ≤ (a + (k + t)) * st.reqSize :=
      Nat.mul_le_mul_right _ (Nat.div_le_self _ _)
    omega
  have hblock : (st.sequentialAccess (a * st.reqSize) (k * st.reqSize) t).startBlock =
      (a + (k + t)) / st.numCtrls * st.numBlock := by
    rw [sequentialAccess_startBlock, wrap64_of_lt h, Nat.mul_div_mul_right _ _ st.reqSize_pos,
      wrap64_of_lt hrow]
  have hctrl : (st.sequentialAccess (a * st.reqSize) (k * st.reqSize) t).ctrl =
      (a + (k + t)) % st.numCtrls := by
    have hstart : (k + a) * st.reqSize ≤ (a + (k + t)) * st.reqSize :=
      Nat.mul_le_mul_right _ (by omega)
    have hpage : a + (k + t) ≤ (a + (k + t)) * st.reqSize := Nat.le_mul_of_pos_right _ st.reqSize_pos
    have hmod := Nat.mod_le (k + a) st.numCtrls
    have hoff : wrap64 ((k + a) * st.reqSize) / st.reqSize = k + a := by
      rw [wrap64_of_lt (by omega), Nat.mul_div_cancel _ st.reqSize_pos]
    show wrap64 (t + wrap64 (k * st.reqSize + a * st.reqSize) / st.reqSize % st.numCtrls) %
      st.numCtrls = _
    rw [← Nat.add_mul, hoff, wrap64_of_lt (by omega), Nat.add_mod_mod]
    congr 1
    omega
  rw [← hblock, ← hctrl]

/-! ## The reader -/

theorem ceilDiv_mul {x y : Nat} (h : 0 < y) : ceilDiv (x * y) y = x := by
  rw [ceilDiv, Nat.add_sub_assoc h, Nat.add_comm, Nat.add_mul_div_right _ _ h,
    Nat.div_eq_of_lt (by omega), Nat.zero_add]

theorem le_ceilDiv_mul (x : Nat) {y : Nat} (h : 0 < y) : x ≤ ceilDiv x y * y := by
  have hdiv := Nat.div_add_mod (x + y - 1) y
  have hmod := Nat.mod_lt (x + y - 1) h
  rw [ceilDiv, Nat.mul_comm]
  omega

theorem ceilDiv_le (x : Nat) {y : Nat} (h : 0 < y) : ceilDiv x y ≤ x := by
  calc ceilDiv x y ≤ ceilDiv (x * y) y := by
        have hle : x ≤ x * y := Nat.le_mul_of_pos_right _ h
        exact Nat.div_le_div_right (by omega)
    _ = x := ceilDiv_mul h

theorem pageStart_mul (a : Nat) : st.pageStart (a * st.reqSize) = ceilDiv a st.numCtrls := by
  rw [pageStart, ceilDiv_mul st.reqSize_pos]

/-- The row of pages that holds page `p` of the range is at most page `a + p` itself. -/
theorem readRow_le (a p : Nat) : ceilDiv a st.numCtrls + p / st.numCtrls ≤ a + p :=
  Nat.add_le_add (ceilDiv_le a st.numCtrls_pos) (Nat.div_le_self _ _)

/-- No arithmetic of the reader wraps. -/
theorem readLocation_eq {a p : Nat} (ha : a * st.reqSize < 18446744073709551616)
    (hp : p * st.reqSize < 18446744073709551616) :
    st.readLocation (a * st.reqSize) p =
      ⟨p % st.numCtrls, (ceilDiv a st.numCtrls + p / st.numCtrls) * st.numBlock⟩ := by
  have hbytes : (ceilDiv a st.numCtrls + p / st.numCtrls) * st.reqSize ≤ (a + p) * st.reqSize :=
    Nat.mul_le_mul_right _ (st.readRow_le a p)
  rw [Nat.add_mul a p] at hbytes
  have hlba : (ceilDiv a st.numCtrls + p / st.numCtrls) * st.numBlock < 18446744073709551616 :=
    st.mul_numBlock_lt (by omega)
  have hrow : ceilDiv a st.numCtrls + p / st.numCtrls < 18446744073709551616 :=
    Nat.lt_of_le_of_lt (Nat.le_mul_of_pos_right _ st.numBlock_pos) hlba
  simp only [readLocation, getBackingPage, getBackingCtrl, Option.getD_some]
  rw [pageStart_mul, wrap64_of_lt hrow, wrap64_of_lt hlba]

/-- Two pages of a range never share a place. -/
theorem readLocation_injective {a p q : Nat} (ha : a * st.reqSize < 18446744073709551616)
    (hp : p * st.reqSize < 18446744073709551616) (hq : q * st.reqSize < 18446744073709551616)
    (h : st.readLocation (a * st.reqSize) p = st.readLocation (a * st.reqSize) q) : p = q := by
  rw [st.readLocation_eq ha hp, st.readLocation_eq ha hq, Location.mk.injEq] at h
  obtain ⟨hctrl, hlba⟩ := h
  have hrow := Nat.eq_of_mul_eq_mul_right st.numBlock_pos hlba
  have hdiv : p / st.numCtrls = q / st.numCtrls := by omega
  rw [← Nat.div_add_mod p st.numCtrls, ← Nat.div_add_mod q st.numCtrls, hctrl, hdiv]

/-! ## Agreement -/

/-- A byte address that wraps lands in an earlier stripe than the one that is read. -/
theorem startBlock_ne_of_wrap {a k t : Nat} (ha : a * st.reqSize < 18446744073709551616)
    (hp : (k + t) * st.reqSize < 18446744073709551616)
    (hwrap : 18446744073709551616 ≤ (a + (k + t)) * st.reqSize) :
    (st.sequentialAccess (a * st.reqSize) (k * st.reqSize) t).startBlock ≠
      (st.readLocation (a * st.reqSize) (k + t)).startBlock := by
  intro heq
  have hlt : (a + (k + t)) * st.reqSize < 36893488147419103232 := by
    rw [Nat.add_mul]
    omega
  obtain ⟨byte, hbyte⟩ := Nat.exists_eq_add_of_le hwrap
  have hmod : wrap64 ((a + (k + t)) * st.reqSize) = byte := by
    rw [wrap64, hbyte, Nat.add_mod_left, Nat.mod_eq_of_lt (by omega)]
  have hrowle : byte / (st.numCtrls * st.reqSize) * (st.numCtrls * st.reqSize) ≤ byte :=
    Nat.div_mul_le_self _ _
  -- the rows of the two locations are the same
  have hrow : byte / (st.numCtrls * st.reqSize) =
      ceilDiv a st.numCtrls + (k + t) / st.numCtrls := by
    have hle : byte / (st.numCtrls * st.reqSize) * st.reqSize ≤
        byte / (st.numCtrls * st.reqSize) * (st.numCtrls * st.reqSize) :=
      Nat.mul_le_mul_left _ (Nat.le_mul_of_pos_left _ st.numCtrls_pos)
    have hlba : byte / (st.numCtrls * st.reqSize) * st.numBlock < 18446744073709551616 :=
      st.mul_numBlock_lt (by omega)
    rw [sequentialAccess_startBlock, hmod, wrap64_of_lt hlba, st.readLocation_eq ha hp] at heq
    exact Nat.eq_of_mul_eq_mul_right st.numBlock_pos heq
  -- but the row that is read ends behind page `a + (k + t)`
  have hend : a + (k + t) < (ceilDiv a st.numCtrls + (k + t) / st.numCtrls + 1) * st.numCtrls := by
    have hstart := le_ceilDiv_mul a st.numCtrls_pos
    have hdiv := Nat.div_add_mod (k + t) st.numCtrls
    have hmod' := Nat.mod_lt (k + t) st.numCtrls_pos
    have hexpand : (ceilDiv a st.numCtrls + (k + t) / st.numCtrls + 1) * st.numCtrls =
        ceilDiv a st.numCtrls * st.numCtrls + st.numCtrls * ((k + t) / st.numCtrls) +
          st.numCtrls := by
      rw [Nat.add_mul, Nat.add_mul, Nat.one_mul, Nat.mul_comm ((k + t) / st.numCtrls)]
    omega
  have hbytes : (a + (k + t)) * st.reqSize <
      (byte / (st.numCtrls * st.reqSize) + 1) * (st.numCtrls * st.reqSize) := by
    rw [hrow, ← Nat.mul_assoc]
    exact Nat.mul_lt_mul_of_pos_right hend st.reqSize_pos
  have hstripe := st.stripe_lt
  rw [Nat.add_mul _ 1, Nat.one_mul] at hbytes
  omega

/-- One page is read where it was written exactly when the offset is a whole number of
    stripes and the address of the page fits in 64 bits. -/
theorem page_agrees_iff {a k t : Nat} (ha : a * st.reqSize < 18446744073709551616)
    (hp : (k + t) * st.reqSize < 18446744073709551616) :
    st.sequentialAccess (a * st.reqSize) (k * st.reqSize) t =
        st.readLocation (a * st.reqSize) (k + t) ↔
      st.numCtrls ∣ a ∧ (a + (k + t)) * st.reqSize < 18446744073709551616 := by
  rcases Nat.lt_or_ge ((a + (k + t)) * st.reqSize) 18446744073709551616 with hfit | hwrap
  · rw [st.sequentialAccess_eq hfit, st.readLocation_eq ha hp, Location.mk.injEq]
    apply Iff.intro
    · rintro ⟨hctrl, -⟩
      have hzero := Nat.sub_mod_eq_zero_of_mod_eq hctrl
      rw [Nat.add_sub_cancel] at hzero
      exact ⟨Nat.dvd_of_mod_eq_zero hzero, hfit⟩
    · rintro ⟨⟨c, rfl⟩, -⟩
      rw [Nat.mul_add_mod, Nat.mul_add_div st.numCtrls_pos, Nat.mul_comm _ c,
        ceilDiv_mul st.numCtrls_pos]
      exact ⟨rfl, rfl⟩
  · apply Iff.intro
    · intro heq
      exact absurd (congrArg Location.startBlock heq) (st.startBlock_ne_of_wrap ha hp hwrap)
    · intro ⟨_, hfit⟩
      omega

theorem filePages_mul_lt {fileSize p : Nat} (hsize : fileSize < 18446744073709551616)
    (hp : p < st.filePages fileSize) : p * st.reqSize < 18446744073709551616 := by
  have hpos := st.reqSize_pos
  have hmul : (p + 1) * st.reqSize ≤ fileSize + st.reqSize - 1 :=
    Nat.le_trans (Nat.mul_le_mul_right _ hp) (Nat.div_mul_le_self _ _)
  rw [Nat.add_mul] at hmul
  omega

/-- The layouts agree on a file exactly when its offset is a whole number of stripes and
    its last page has a 64-bit address, or the file is empty. -/
theorem stripeLayout_iff {off fileSize : Nat} (haligned : st.reqSize ∣ off)
    (hoff : off < 18446744073709551616) (hsize : fileSize < 18446744073709551616) :
    st.LayoutAgrees off fileSize ↔ fileSize = 0 ∨
      st.numCtrls ∣ off / st.reqSize ∧
        off + (st.filePages fileSize - 1) * st.reqSize < 18446744073709551616 := by
  obtain ⟨a, rfl⟩ := haligned
  rw [Nat.mul_comm st.reqSize a] at hoff ⊢
  rw [Nat.mul_div_cancel _ st.reqSize_pos, ← Nat.add_mul]
  apply Iff.intro
  · rintro ⟨hagree, -⟩
    rcases Nat.eq_zero_or_pos fileSize with rfl | hpos
    · exact Or.inl rfl
    -- the last page decides
    · have hreq := st.reqSize_pos
      have hlast : st.filePages fileSize - 1 < st.filePages fileSize := by
        have : 0 < st.filePages fileSize := Nat.div_pos (by omega) hreq
        omega
      have hpage := hagree (0 * st.reqSize) (st.filePages fileSize - 1)
        (Nat.dvd_mul_left _ _) (by rw [Nat.mul_div_cancel _ hreq]; omega)
      rw [Nat.mul_div_cancel _ hreq,
        st.page_agrees_iff hoff (by rw [Nat.zero_add]; exact st.filePages_mul_lt hsize hlast),
        Nat.zero_add] at hpage
      exact Or.inr hpage
  · intro hcond
    apply And.intro
    · rintro s t ⟨k, rfl⟩ hp
      rw [Nat.mul_comm st.reqSize k, Nat.mul_div_cancel _ st.reqSize_pos] at hp ⊢
      rw [st.page_agrees_iff hoff (st.filePages_mul_lt hsize hp)]
      rcases hcond with rfl | ⟨hdvd, hfit⟩
      · have hnone : st.filePages 0 = 0 := Nat.div_eq_of_lt (by have := st.reqSize_pos; omega)
        omega
      · have hle : (a + (k + t)) * st.reqSize ≤
            (a + (st.filePages fileSize - 1)) * st.reqSize := Nat.mul_le_mul_right _ (by omega)
        exact ⟨hdvd, by omega⟩
    · intro p q hp hq hne heq
      exact hne (st.readLocation_injective hoff (st.filePages_mul_lt hsize hp)
        (st.filePages_mul_lt hsize hq) heq)

end Stripes

/-- Two SSDs with pages of 4096 bytes. -/
def twoSsds : Stripes where
  numCtrls := 2
  reqSize := 4096
  blockSizeLog := 9
  numCtrls_pos := by decide
  numCtrls_lt := by decide
  reqSize_pos := by decide
  reqSize_lt := by decide
  blockSizeLog_ge := by decide
  block_dvd := by decide

/-- The author features of `write_data_full.sh` start at an even page. -/
theorem author_layout_agrees : twoSsds.LayoutAgrees (269346174 * 4096) 4096 :=
  (twoSsds.stripeLayout_iff ⟨269346174, by decide⟩ (by decide) (by decide)).mpr
    (Or.inr ⟨by decide, by decide⟩)

/-- `write_data_full.sh` puts the fos features at page 546567057 of two SSDs: the first page
    is written to controller 1 and read from controller 0. -/
theorem fos_written_elsewhere : ¬ twoSsds.LayoutAgrees (546567057 * 4096) 4096 := by
  intro h
  have hpage := h.1 0 0 (Nat.dvd_zero _) (by decide)
  exact absurd hpage (by decide)

end GidsStack.Addressing
