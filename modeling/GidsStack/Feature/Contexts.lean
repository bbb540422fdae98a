/-
  GidsStack.Feature.Contexts

  When the contexts of a launch are enough.

  Row `r` and chunk `c` use context `r * 32 + c`, whatever the kernel (`use_row`); so a row
  has room for 32 chunks, and the allocation has to hold 32 contexts a row. `ctxsSafe_iff`
  says exactly for which row counts, block sizes and dims an entry point has allocated enough
  contexts and no two chunks share one.
-/

import GidsStack.Feature.Launch

namespace GidsStack.Feature

open GidsStack.Kernel

/-- Every context that a kernel uses has been allocated, and different chunks use different
    contexts. -/
structure CtxsSafe (e : EntryPoint) (l : Launch) : Prop where
  inBounds : ∀ k ∈ e.kernels, ∀ row chunk index, CtxUse l k row chunk index →
    0 ≤ index ∧ index < e.totalCtxs l
  distinct : ∀ k ∈ e.kernels, ∀ k' ∈ e.kernels, ∀ row chunk row' chunk' index,
    CtxUse l k row chunk index → CtxUse l k' row' chunk' index → row = row' ∧ chunk = chunk'

/-- The launches whose contexts are enough: nothing to read; one row that fits the contexts of
    one block; or, with 32 contexts a row, rows of at most 32 chunks whose indices fit in the
    integer type they are computed in. -/
def CtxsFit (e : EntryPoint) (l : Launch) : Prop :=
  l.numIndex = 0 ∨ (l.dim = 0 ∧ (e.ctxsPerWarp = 1 ∨ l.numIndex ≤ 2 ^ 27)) ∨
    (0 < l.dim ∧ l.numIndex = 1 ∧ l.dim ≤ 32 * (l.nWarp * e.ctxsPerWarp : Nat)) ∨
    (0 < l.dim ∧ e.ctxsPerWarp = 32 ∧ l.dim ≤ 1024 ∧ l.numIndex ≤ 2 ^ 26)

/-! ## What the kernels use -/

theorem submit_use {l : Launch} {r c : Nat} (hr : r < l.numIndex) (hr31 : r < 2147483648)
    (hc : c * 32 < l.dimU) : CtxUse l .submitAsync r c (int32 (r * 32 + c)) := by
  obtain ⟨hbid, ht, hrow⟩ := l.row_thread hr
  have hidx : l.idxIdx (r / l.nWarp) (r % l.nWarp * 32) = r := by
    rw [Launch.idxIdx, hrow]
    exact int32_of_lt (by omega) (by omega)
  have hloop : c < loopCount 32 l.dimU (r % l.nWarp * 32 % 32) :=
    (lt_loopCount_iff (by decide)).mpr (by omega)
  have huse := CtxUse.chunked (l := l) (k := .submitAsync) rfl hbid ht
    (by rw [hidx]; exact Int.ofNat_lt.mpr hr) hloop
  rwa [hidx] at huse

theorem singlePage_use {l : Launch} {r : Nat} (hr : r < l.numIndex) (hr32 : r < 4294967296) :
    CtxUse l .singlePageSingleThreadPoll r 0 (uint32 (r * 32)) := by
  have hpos : 0 < l.bSize := Nat.lt_of_lt_of_le (by decide) l.bSize_ge
  have hdiv : r / l.bSize * l.bSize ≤ r := Nat.div_mul_le_self r l.bSize
  have hbid : r / l.bSize < l.pollGSize := by
    rw [Launch.pollGSize, Nat.lt_div_iff_mul_lt hpos]
    omega
  have htid : l.globalTid (r / l.bSize) (r % l.bSize) = r := by
    rw [Launch.globalTid, Nat.div_add_mod']
    exact uint32_of_lt hr32
  have huse := CtxUse.singlePage (l := l) hbid (Nat.mod_lt r hpos) (by rw [htid]; exact hr)
  rwa [htid] at huse

/-- A lane of a chunked kernel stays inside the row. -/
theorem chunk_lt {l : Launch} {k : CtxKernel} (hk : k.isChunked = true) {row : Int} {chunk : Nat}
    {index : Int} (h : CtxUse l k row chunk index) : chunk * 32 < l.dimU := by
  cases h with
  | chunked _ _ _ _ hloop =>
    have hlt := (lt_loopCount_iff (by decide)).mp hloop
    omega
  | singleThreadPoll => cases hk
  | singlePage => cases hk

theorem numChunks_lt {l : Launch} (hdim : 0 ≤ l.dim) {chunk : Nat}
    (h : chunk < l.numChunks.toNat) : chunk * 32 < l.dimU := by
  have hU := l.dimU_of_nonneg hdim
  have hlt : l.dim < 2147483648 := l.dim_lt
  rw [Launch.numChunks] at h
  by_cases hsmall : l.dim + 31 < 2147483648
  · rw [int32_of_lt (by omega) hsmall, Int.tdiv_eq_ediv_of_nonneg (by omega)] at h
    omega
  · -- the sum has become negative: no chunk is polled
    have hneg : int32 (l.dim + 31) ≤ 0 := by
      rw [int32]
      omega
    have hchunks : (int32 (l.dim + 31)).tdiv 32 ≤ 0 := by
      rw [← Int.neg_neg (int32 (l.dim + 31)), Int.neg_tdiv]
      exact Int.neg_nonpos_of_nonneg (Int.tdiv_nonneg (by omega) (by decide))
    omega

/-- Every use is of some row `r` and some chunk `c`, and is of context `r * 32 + c` as far as
    that can be represented. -/
theorem use_row {l : Launch} {k : CtxKernel} {row : Int} {chunk : Nat} {index : Int}
    (h : CtxUse l k row chunk index) (hnum : l.numIndex ≤ 2 ^ 27) (hdim : 0 ≤ l.dim) :
    ∃ r : Nat, row = r ∧ r < l.numIndex ∧
      (chunk * 32 < l.dimU ∨ chunk = 0 ∧ index = r * 32) ∧
      (r * 32 + chunk < 2147483648 → index = r * 32 + chunk) := by
  have hidx : ∀ bid t, bid < l.gSize → t < l.bSize →
      l.idxIdx bid t = (bid * l.nWarp + t / 32 : Nat) := by
    intro bid t hbid ht
    have hlt := l.row_lt hbid ht
    have hwarp := l.nWarp_le
    exact int32_of_lt (by omega) (by omega)
  cases h with
  | @chunked _ hk bid t _ hbid ht hrow hloop =>
    rw [hidx bid t hbid ht] at hrow ⊢
    have hlt := (lt_loopCount_iff (by decide)).mp hloop
    exact ⟨_, rfl, by omega, .inl (by omega), fun _ => int32_of_lt (by omega) (by omega)⟩
  | @singleThreadPoll bid t _ hbid ht hrow hchunk =>
    rw [hidx bid t hbid ht] at hrow ⊢
    have hlt := numChunks_lt hdim (lt_of_mem_strided (by decide) hchunk)
    exact ⟨_, rfl, by omega, .inl hlt, fun _ => int32_of_lt (by omega) (by omega)⟩
  | @singlePage bid t hbid ht hrow =>
    have hindex : uint32 (l.globalTid bid t * 32) = l.globalTid bid t * 32 :=
      uint32_of_lt (by omega)
    refine ⟨_, rfl, hrow, .inr ⟨rfl, ?_⟩, fun _ => ?_⟩
    · rw [hindex]
      omega
    · rw [hindex]
      omega

/-! ## Enough contexts -/

theorem safe_of_no_use {e : EntryPoint} {l : Launch}
    (h : ∀ k ∈ e.kernels, ∀ row chunk index, ¬ CtxUse l k row chunk index) : CtxsSafe e l where
  inBounds k hk row chunk index huse := absurd huse (h k hk row chunk index)
  distinct k hk _ _ row chunk _ _ index huse _ := absurd huse (h k hk row chunk index)

theorem no_use_of_empty {l : Launch} (hnum : l.numIndex = 0) (k : CtxKernel) (row : Int)
    (chunk : Nat) (index : Int) : ¬ CtxUse l k row chunk index := by
  have hgrid : l.gSize = 0 := by
    have hpos := l.nWarp_pos
    rw [Launch.gSize, hnum, Nat.zero_add]
    exact Nat.div_eq_of_lt (by omega)
  have hpoll : l.pollGSize = 0 := by
    have hpos := l.bSize_ge
    rw [Launch.pollGSize, hnum, Nat.zero_add]
    exact Nat.div_eq_of_lt (by omega)
  intro h
  cases h with
  | chunked _ hbid => omega
  | singleThreadPoll hbid => omega
  | singlePage hbid => omega

/-- The entry points with one context a warp only run chunked kernels. -/
theorem isChunked_of_ctxsPerWarp {e : EntryPoint} (h : e.ctxsPerWarp = 1) :
    ∀ k ∈ e.kernels, k.isChunked = true := by
  cases e with
  | readFeature => decide
  | readFeatureMerged => decide
  | readFeatureSubmitAsync => cases h
  | readFeatureSubmitAsyncRegistered => cases h

/-- Rows and chunks whose contexts `r * 32 + c` are all inside the allocation. -/
theorem safe_of_use {e : EntryPoint} {l : Launch} (hnum : l.numIndex ≤ 2 ^ 27) (hdim : 0 ≤ l.dim)
    (huse : ∀ r chunk : Nat, r < l.numIndex → (chunk * 32 < l.dimU ∨ chunk = 0) →
      r * 32 + chunk < e.totalCtxs l ∧ (chunk < 32 ∨ l.numIndex = 1) ∧
        (chunk = 0 ∧ l.dim = 0 ∨ r * 32 + chunk < 2147483648)) :
    CtxsSafe e l := by
  have hU := l.dimU_of_nonneg hdim
  -- the context of a use, exactly
  have hindex : ∀ k row chunk index, CtxUse l k row chunk index → ∃ r : Nat, row = r ∧
      r < l.numIndex ∧ index = r * 32 + chunk ∧ r * 32 + chunk < e.totalCtxs l ∧
      (chunk < 32 ∨ l.numIndex = 1) := by
    intro k row chunk index h
    obtain ⟨r, hrow, hr, hchunk, hexact⟩ := use_row h hnum hdim
    obtain ⟨hlt, hwide, hsmall⟩ := huse r chunk hr (by omega)
    exact ⟨r, hrow, hr, by omega, hlt, hwide⟩
  refine ⟨fun k _ row chunk index h => ?_, fun k _ k' _ row chunk row' chunk' index h h' => ?_⟩
  · obtain ⟨r, -, -, hr, hlt, -⟩ := hindex k row chunk index h
    omega
  · obtain ⟨r, rfl, hlt, hr, -, hwide⟩ := hindex k row chunk index h
    obtain ⟨r', rfl, hlt', hr', -, hwide'⟩ := hindex k' row' chunk' index h'
    by_cases hone : l.numIndex = 1
    · omega
    · have hchunk : chunk < 32 := hwide.resolve_right hone
      have hchunk' : chunk' < 32 := hwide'.resolve_right hone
      omega

theorem safe_of_fit {e : EntryPoint} {l : Launch} (h : CtxsFit e l) : CtxsSafe e l := by
  have htotal := l.totalWarps_bounds
  have htot : e.totalCtxs l = l.totalWarps * e.ctxsPerWarp := rfl
  have hper : e.ctxsPerWarp = 1 ∨ e.ctxsPerWarp = 32 := by cases e <;> decide
  rcases h with hnum | ⟨hdim, hsmall⟩ | ⟨hdim, hnum, hrow⟩ | ⟨hdim, hper, hrow, hnum⟩
  · exact safe_of_no_use fun k _ => no_use_of_empty hnum k
  · have hU := l.dimU_of_nonneg (by omega)
    rcases hper with hper | hper
    · refine safe_of_no_use fun k hk row chunk index h => ?_
      have hlt := chunk_lt (isChunked_of_ctxsPerWarp hper k hk) h
      omega
    · refine safe_of_use (by omega) (by omega) fun r chunk hr hchunk => ?_
      rw [htot, hper]
      omega
  · have hU := l.dimU_of_nonneg (by omega)
    have hone : l.nWarp * e.ctxsPerWarp ≤ e.totalCtxs l := by
      have hg : 0 < l.gSize := Nat.zero_lt_of_lt (l.row_thread (r := 0) (by omega)).1
      rw [htot, Launch.totalWarps]
      exact Nat.mul_le_mul_right _ (Nat.le_mul_of_pos_left _ hg)
    have hpos : 0 < l.nWarp * e.ctxsPerWarp := Nat.mul_pos l.nWarp_pos (by omega)
    have hlt := l.dim_lt
    refine safe_of_use (by omega) (by omega) fun r chunk hr hchunk => ?_
    omega
  · have hU := l.dimU_of_nonneg (by omega)
    refine safe_of_use (by omega) (by omega) fun r chunk hr hchunk => ?_
    rw [htot, hper]
    omega

/-! ## Too few contexts -/

/-- The contexts that the submit kernel uses have been allocated. -/
def SubmitInBounds (e : EntryPoint) (l : Launch) : Prop :=
  ∀ row chunk index, CtxUse l .submitAsync row chunk index → 0 ≤ index ∧ index < e.totalCtxs l

theorem CtxsSafe.submitInBounds {e : EntryPoint} {l : Launch} (h : CtxsSafe e l) :
    SubmitInBounds e l :=
  h.inBounds .submitAsync (by cases e <;> decide)

/-- Row `2 ^ 26` makes the `int` index negative. -/
theorem numIndex_le_of_inBounds {e : EntryPoint} {l : Launch} (h : SubmitInBounds e l)
    (hdim : 0 < l.dimU) : l.numIndex ≤ 2 ^ 26 := by
  by_contra hnum
  have huse : CtxUse l .submitAsync (2 ^ 26 : Nat) 0 (int32 ((2 ^ 26 : Nat) * 32 + (0 : Nat))) :=
    submit_use (by omega) (by decide) (by omega)
  have hbound := (h _ _ _ huse).1
  have hneg : int32 ((2 ^ 26 : Nat) * 32 + (0 : Nat)) = -2147483648 := by decide
  omega

/-- A negative `dim` is compared unsigned, and the chunk counter itself overflows. -/
theorem dim_nonneg_of_inBounds {e : EntryPoint} {l : Launch} (h : SubmitInBounds e l)
    (hnum : 0 < l.numIndex) : 0 ≤ l.dim := by
  by_contra hdim
  have hU := l.dimU_of_neg (by omega)
  have huse : CtxUse l .submitAsync (0 : Nat) (2 ^ 31) (int32 ((0 : Nat) * 32 + (2 ^ 31 : Nat))) :=
    submit_use hnum (by decide) (by omega)
  have hbound := (h _ _ _ huse).1
  have hneg : int32 ((0 : Nat) * 32 + (2 ^ 31 : Nat)) = -2147483648 := by decide
  omega

/-- One context a warp: already the second row is outside. -/
theorem one_row_of_inBounds {e : EntryPoint} {l : Launch} (h : SubmitInBounds e l)
    (hper : e.ctxsPerWarp = 1) (hdim : 0 < l.dimU) (hnum : 0 < l.numIndex) : l.numIndex = 1 := by
  have hle := numIndex_le_of_inBounds h hdim
  have htotal := l.totalWarps_bounds
  have hwarp := l.nWarp_le
  have hindex : int32 ((l.numIndex - 1 : Nat) * 32 + (0 : Nat)) = (l.numIndex - 1 : Nat) * 32 := by
    rw [int32_of_lt (by omega) (by omega)]
    omega
  have huse := submit_use (l := l) (r := l.numIndex - 1) (c := 0) (by omega) (by omega) (by omega)
  have hbound := (h _ _ _ huse).2
  rw [hindex, EntryPoint.totalCtxs, hper, Nat.mul_one] at hbound
  by_contra hne
  -- two rows fit only into two blocks of 32 warps, and there is one
  have htwo : l.numIndex = 2 ∧ l.nWarp = 32 := by omega
  have hgrid : l.totalWarps = (2 + 32 - 1) / 32 * 32 := by
    rw [Launch.totalWarps, Launch.gSize, htwo.1, htwo.2]
  omega

/-- One row: the first chunk too many is outside. -/
theorem one_row_dim_of_inBounds {e : EntryPoint} {l : Launch} (h : SubmitInBounds e l)
    (hone : l.numIndex = 1) :
    l.dim ≤ 32 * (l.nWarp * e.ctxsPerWarp : Nat) := by
  have hdim := dim_nonneg_of_inBounds h (by omega)
  have hU := l.dimU_of_nonneg hdim
  have hwarp := l.nWarp_le
  by_contra hbig
  have hctxs : l.nWarp * e.ctxsPerWarp ≤ 1024 := by
    have hper : e.ctxsPerWarp ≤ 32 := by cases e <;> decide
    exact Nat.mul_le_mul hwarp hper
  have huse := submit_use (l := l) (r := 0) (c := l.nWarp * e.ctxsPerWarp) (by omega) (by decide)
    (by omega)
  have hbound := (h _ _ _ huse).2
  have htotal : l.totalWarps = l.nWarp := by
    rw [Launch.totalWarps, Launch.gSize, hone, Nat.add_sub_cancel_left, Nat.div_self l.nWarp_pos,
      Nat.one_mul]
  rw [int32_of_lt (by omega) (by omega), EntryPoint.totalCtxs, htotal] at hbound
  omega

theorem fit_of_safe {e : EntryPoint} {l : Launch} (h : CtxsSafe e l) : CtxsFit e l := by
  by_cases hnum : l.numIndex = 0
  · exact .inl hnum
  have hdim : 0 ≤ l.dim := dim_nonneg_of_inBounds h.submitInBounds (by omega)
  have hU := l.dimU_of_nonneg hdim
  have hper : e.ctxsPerWarp = 1 ∨ e.ctxsPerWarp = 32 := by cases e <;> decide
  have hpoll : e.ctxsPerWarp = 32 → .singlePageSingleThreadPoll ∈ e.kernels := by
    cases e <;> decide
  by_cases hzero : l.dim = 0
  · refine .inr (.inl ⟨hzero, ?_⟩)
    refine hper.imp_right fun hper => ?_
    by_contra hbig
    -- rows `0` and `2 ^ 27` poll on the same context
    have huse0 := singlePage_use (l := l) (r := 0) (by omega) (by decide)
    have huse := singlePage_use (l := l) (r := 2 ^ 27) (by omega) (by decide)
    have hsame : uint32 (0 * 32) = uint32 (2 ^ 27 * 32) := by decide
    rw [← hsame] at huse
    have hrow := (h.distinct _ (hpoll hper) _ (hpoll hper) _ _ _ _ _ huse0 huse).1
    exact absurd hrow (by decide)
  have hpos : 0 < l.dimU := by omega
  have hle := numIndex_le_of_inBounds h.submitInBounds hpos
  have hsubmit : .submitAsync ∈ e.kernels := by cases e <;> decide
  by_cases hone : l.numIndex = 1
  · exact .inr (.inr (.inl ⟨by omega, hone, one_row_dim_of_inBounds h.submitInBounds hone⟩))
  · rcases hper with hper | hper
    · exact absurd (one_row_of_inBounds h.submitInBounds hper hpos (by omega)) hone
    refine .inr (.inr (.inr ⟨by omega, hper, ?_, hle⟩))
    by_contra hbig
    -- chunk 32 of row 0 is chunk 0 of row 1
    have huse0 := submit_use (l := l) (r := 0) (c := 32) (by omega) (by decide) (by omega)
    have huse1 := submit_use (l := l) (r := 1) (c := 0) (by omega) (by decide) (by omega)
    have hsame : int32 ((1 : Nat) * 32 + (0 : Nat)) = int32 ((0 : Nat) * 32 + (32 : Nat)) := by decide
    rw [hsame] at huse1
    have hrow := (h.distinct _ hsubmit _ hsubmit _ _ _ _ _ huse0 huse1).1
    exact absurd hrow (by decide)

/-- For every entry point and every launch, the contexts are enough exactly in the listed
    cases. -/
theorem ctxsSafe_iff (e : EntryPoint) (l : Launch) : CtxsSafe e l ↔ CtxsFit e l :=
  ⟨fit_of_safe, safe_of_fit⟩

/-! ### Two rows of one chunk -/

/-- `read_feature` of two rows of 32 elements with the store's block size. -/
def twoRows : Launch where
  bSize := 128
  numIndex := 2
  dim := 32
  bSize_ge := bSize128_ge
  bSize_le := bSize128_le
  dim_ge := dim32_ge
  dim_lt := dim32_lt
  grid_lt := by decide

/-- Four contexts are allocated, and row 1 uses the one with index 32. -/
theorem twoRows_out_of_bounds : ¬ ∀ e l, CtxsSafe e l := by
  intro h
  have huse := submit_use (l := twoRows) (r := 1) (c := 0) (by decide) (by decide) (by decide)
  have hbound := ((h .readFeature twoRows).inBounds .submitAsync (by decide) _ _ _ huse).2
  revert hbound
  decide

end GidsStack.Feature
