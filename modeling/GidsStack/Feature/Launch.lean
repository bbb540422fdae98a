/-
  GidsStack.Feature.Launch

  How the read entry points launch their kernels, and which contexts the kernels use.

  A launch has `g_size` blocks of `b_size` threads; a warp handles one row (`idx_idx`), lane
  by lane, in chunks of 32 elements. Two entry points allocate one `s_ctx` a warp
  (`read_feature`, `read_feature_merged`), two allocate 32 a warp (`read_feature_submit_async`
  and its registered variant); all kernels use `d_warp_ctxs[idx_idx * 32 + loop_idx]`, computed
  in `int`, except the single page poll, which computes `global_tid * 32` in `uint32_t`.
-/

import GidsStack.Lib.Kernel
import Mathlib

namespace GidsStack.Feature

open GidsStack.Kernel

/-! ## Machine integers -/

/-- The value of an `int` expression. -/
def int32 (n : Int) : Int := (n + 2147483648) % 4294967296 - 2147483648

/-- The value of a `uint32_t` expression. -/
def uint32 (n : Nat) : Nat := n % 4294967296

theorem int32_of_lt {n : Int} (h1 : -2147483648 ≤ n) (h2 : n < 2147483648) : int32 n = n := by
  rw [int32]
  omega

theorem uint32_of_lt {n : Nat} (h : n < 4294967296) : uint32 n = n :=
  Nat.mod_eq_of_lt h

/-! ## Launches -/

/-- The arguments of an entry point that CUDA accepts: a block holds at least one warp (the
    entry points divide by the number of warps) and at most 1024 threads, `dim` is an `int`,
    and the grid has fewer than `2 ^ 31` blocks. -/
structure Launch where
  bSize : Nat
  numIndex : Nat
  dim : Int
  bSize_ge : 32 ≤ bSize
  bSize_le : bSize ≤ 1024
  dim_ge : -2147483648 ≤ dim
  dim_lt : dim < 2147483648
  grid_lt : (numIndex + bSize / 32 - 1) / (bSize / 32) < 2147483648

/-- The blocks of 128 threads and the sizes that the examples share. -/
theorem bSize128_ge : 32 ≤ 128 := by decide

theorem bSize128_le : 128 ≤ 1024 := by decide

theorem dim32_ge : -2147483648 ≤ (32 : Int) := by decide

theorem dim32_lt : (32 : Int) < 2147483648 := by decide

theorem oneRow_grid : (1 + 128 / 32 - 1) / (128 / 32) < 2147483648 := by decide

theorem elems32_pos : 0 < 32 := by decide

theorem count64_le : 64 ≤ 2 ^ 63 := by decide

namespace Launch

def nWarp (l : Launch) : Nat := l.bSize / 32

def gSize (l : Launch) : Nat := (l.numIndex + l.nWarp - 1) / l.nWarp

def totalWarps (l : Launch) : Nat := l.gSize * l.nWarp

/-- The grid of the single page poll: one thread a row. -/
def pollGSize (l : Launch) : Nat := (l.numIndex + l.bSize - 1) / l.bSize

/-- `dim` in `tid < dim`, where `tid` is a `uint64_t`. -/
def dimU (l : Launch) : Nat := (l.dim % 18446744073709551616).toNat

/-- `int idx_idx = bid * num_warps + warp_id` of thread `t` of block `bid`. -/
def idxIdx (l : Launch) (bid t : Nat) : Int := int32 (bid * l.nWarp + t / 32 : Nat)

/-- `int num_chunks = (dim + 31) / 32` of the single thread poll. -/
def numChunks (l : Launch) : Int := (int32 (l.dim + 31)).tdiv 32

/-- The single page poll's `uint32_t global_tid`. -/
def globalTid (l : Launch) (bid t : Nat) : Nat := uint32 (bid * l.bSize + t)

theorem nWarp_pos (l : Launch) : 0 < l.nWarp :=
  Nat.div_pos l.bSize_ge (by decide)

theorem nWarp_le (l : Launch) : l.nWarp ≤ 32 := by
  have hle : l.bSize ≤ 1024 := l.bSize_le
  rw [nWarp]
  omega

/-- Thread `r % n_warp * 32` of block `r / n_warp` handles row `r`. -/
theorem row_thread (l : Launch) {r : Nat} (hr : r < l.numIndex) :
    r / l.nWarp < l.gSize ∧ r % l.nWarp * 32 < l.bSize ∧
      r / l.nWarp * l.nWarp + r % l.nWarp * 32 / 32 = r := by
  have hpos : 0 < l.nWarp := l.nWarp_pos
  have hmod : r % l.nWarp < l.nWarp := Nat.mod_lt r hpos
  have hmul : l.nWarp * 32 ≤ l.bSize := Nat.div_mul_le_self l.bSize 32
  refine ⟨?_, by omega, ?_⟩
  · rw [gSize, Nat.lt_div_iff_mul_lt hpos]
    have hdiv : r / l.nWarp * l.nWarp ≤ r := Nat.div_mul_le_self r l.nWarp
    omega
  · rw [Nat.mul_div_cancel _ (by decide), Nat.div_add_mod']

/-- There is a warp for every row, and less than one block of warps too many. -/
theorem totalWarps_bounds (l : Launch) :
    l.numIndex ≤ l.totalWarps ∧ l.totalWarps < l.numIndex + l.nWarp := by
  have hpos : 0 < l.nWarp := l.nWarp_pos
  have hdiv : (l.numIndex + l.nWarp - 1) / l.nWarp * l.nWarp +
      (l.numIndex + l.nWarp - 1) % l.nWarp = l.numIndex + l.nWarp - 1 := Nat.div_add_mod' _ _
  have hmod : (l.numIndex + l.nWarp - 1) % l.nWarp < l.nWarp := Nat.mod_lt _ hpos
  rw [totalWarps, gSize]
  omega

/-- The row numbers before the conversion to `int`. -/
theorem row_lt (l : Launch) {bid t : Nat} (hbid : bid < l.gSize) (ht : t < l.bSize) :
    bid * l.nWarp + t / 32 < l.numIndex + 2 * l.nWarp := by
  have hrow : bid * l.nWarp + l.nWarp ≤ l.totalWarps := by
    rw [totalWarps, ← Nat.succ_mul]
    exact Nat.mul_le_mul_right _ hbid
  have hwarp : t / 32 ≤ l.nWarp := Nat.div_le_div_right (Nat.le_of_lt ht)
  have htotal := l.totalWarps_bounds
  omega

theorem dimU_of_nonneg (l : Launch) (h : 0 ≤ l.dim) : (l.dimU : Int) = l.dim := by
  have hlt : l.dim < 2147483648 := l.dim_lt
  rw [dimU]
  omega

/-- A negative `dim` is compared as a number close to `2 ^ 64`. -/
theorem dimU_of_neg (l : Launch) (h : l.dim < 0) : 18446744071562067968 ≤ l.dimU := by
  have hge : -2147483648 ≤ l.dim := l.dim_ge
  rw [dimU]
  omega

end Launch

/-! ## Contexts -/

/-- The kernels that use contexts 32 a row. -/
inductive CtxKernel where
  | submitAsync
  | waitAsync
  | getFeature
  | getFeatureLight
  | singleThreadPoll
  | singlePageSingleThreadPoll
  deriving DecidableEq, Repr

/-- The kernels whose lanes all walk the row with `loop_idx`. -/
def CtxKernel.isChunked : CtxKernel → Bool
  | .submitAsync | .waitAsync | .getFeature | .getFeatureLight => true
  | .singleThreadPoll | .singlePageSingleThreadPoll => false

/-- Some thread of the kernel uses the context with this index for this row and chunk. -/
inductive CtxUse (l : Launch) : CtxKernel → Int → Nat → Int → Prop
  | chunked {k : CtxKernel} (hk : k.isChunked = true) {bid t loopIdx : Nat} (hbid : bid < l.gSize)
      (ht : t < l.bSize) (hrow : l.idxIdx bid t < l.numIndex)
      (hloop : loopIdx < loopCount 32 l.dimU (t % 32)) :
      CtxUse l k (l.idxIdx bid t) loopIdx (int32 (l.idxIdx bid t * 32 + loopIdx))
  | singleThreadPoll {bid t chunkIdx : Nat} (hbid : bid < l.gSize) (ht : t < l.bSize)
      (hrow : l.idxIdx bid t < l.numIndex)
      (hchunk : chunkIdx ∈ strided 32 l.numChunks.toNat (t % 32)) :
      CtxUse l .singleThreadPoll (l.idxIdx bid t) chunkIdx (int32 (l.idxIdx bid t * 32 + chunkIdx))
  | singlePage {bid t : Nat} (hbid : bid < l.pollGSize) (ht : t < l.bSize)
      (hrow : l.globalTid bid t < l.numIndex) :
      CtxUse l .singlePageSingleThreadPoll (l.globalTid bid t) 0 (uint32 (l.globalTid bid t * 32))

/-- The entry points that allocate contexts 32 a row, or are used as if they did. -/
inductive EntryPoint where
  | readFeature
  | readFeatureMerged
  | readFeatureSubmitAsync
  | readFeatureSubmitAsyncRegistered
  deriving DecidableEq, Repr

/-- The number of contexts allocated for a warp. -/
def EntryPoint.ctxsPerWarp : EntryPoint → Nat
  | .readFeature | .readFeatureMerged => 1
  | .readFeatureSubmitAsync | .readFeatureSubmitAsyncRegistered => 32

/-- The number of `s_ctx` that the entry point allocates. -/
def EntryPoint.totalCtxs (e : EntryPoint) (l : Launch) : Nat := l.totalWarps * e.ctxsPerWarp

/-- The kernels that run on the entry point's contexts, its own or those of later calls (the
    launch of the 32-stride poll is commented out in the source). -/
def EntryPoint.kernels : EntryPoint → List CtxKernel
  | .readFeature | .readFeatureMerged => [.submitAsync, .waitAsync]
  | .readFeatureSubmitAsync | .readFeatureSubmitAsyncRegistered =>
    [.submitAsync, .waitAsync, .getFeature, .getFeatureLight, .singleThreadPoll,
      .singlePageSingleThreadPoll]

end GidsStack.Feature
