/-
  GidsStack.Feature.SplitPhase

  When the two modes of `read_feature` agree.

  The default mode gets through only if every context it uses has been allocated, which by
  the context count leaves at most one row (`submitInBounds_of_some`). For one row inside one
  page the submit acquires that page once, and the wait reads every chunk of the row from it
  (`async_one_row`). But it reads the row that the index names, without the key offset, so it
  agrees with the synchronous mode only if the key offset moves the row by a multiple of
  `2 ^ 64` elements.
-/

import GidsStack.Feature.Contexts
import GidsStack.Feature.Read
import GidsStack.Lib.RowMajor
import Mathlib

namespace GidsStack.Feature

open GidsStack.Kernel

/-- Every row that the index list names, with the key offset, is inside the range and inside
    one page. -/
def RowsOk (r : ReadCall) : Prop :=
  ∀ w < r.launch.numIndex, ∀ tid < r.launch.dimU, r.elem r.keyOff w tid < r.count ∧
    r.page (r.elem r.keyOff w tid) = r.page (r.elem r.keyOff w 0)

/-- Between requests: no page is on its way, and a valid page is in the slot it names. -/
structure Idle (pages : Pages) : Prop where
  notBusy : ∀ pg slot, pages.state pg ≠ .nvB slot
  coherent : ∀ pg slot, pages.state pg = .vNb slot → pages.holds slot = some pg

/-- The default mode writes what the synchronous mode writes, for all data. -/
def AsyncEqSync (E : Type) (r : ReadCall) : Prop :=
  ∀ (findSlot : Pages → Nat) (pages : Pages), Idle pages → ∀ array out : Nat → E,
    ∃ result, readFeature false findSlot r pages array out = some result ∧
      readFeature true findSlot r pages array out = some result

variable {E : Type}

/-! ## Rows, chunks and lanes -/

namespace ReadCall

theorem nWarp_eq (r : ReadCall) : r.launch.nWarp = 4 := by
  rw [Launch.nWarp, r.bSize_eq]

theorem mem_lanes_iff (r : ReadCall) {c tid : Nat} :
    tid ∈ r.lanes c ↔ c * 32 ≤ tid ∧ tid < c * 32 + 32 ∧ tid < r.launch.dimU := by
  simp only [lanes, List.mem_filter, List.mem_map, List.mem_range, decide_eq_true_eq]
  refine ⟨?_, ?_⟩
  · rintro ⟨⟨n, hn, rfl⟩, hlt⟩
    omega
  · rintro ⟨h1, h2, h3⟩
    exact ⟨⟨tid - c * 32, by omega, by omega⟩, h3⟩

theorem lt_chunks_iff (r : ReadCall) {c : Nat} : c < r.chunks ↔ c * 32 < r.launch.dimU := by
  rw [chunks, lt_loopCount_iff (by decide), Nat.zero_add]

theorem mem_warps_iff (r : ReadCall) {w : Nat} :
    w ∈ r.warps ↔ w < r.launch.totalWarps ∧ int32 w < r.launch.numIndex := by
  rw [warps, List.mem_filter, List.mem_range, decide_eq_true_eq]

theorem warps_of_empty (r : ReadCall) (h : r.launch.numIndex = 0) : r.warps = [] := by
  have hwarps := r.launch.totalWarps_bounds
  have hfour := r.nWarp_eq
  have hgrid : r.launch.totalWarps = 0 := by
    rw [Launch.totalWarps, Launch.gSize, h, hfour]
  rw [warps, hgrid]
  rfl

theorem warps_of_one (r : ReadCall) (h : r.launch.numIndex = 1) : r.warps = [0] := by
  have hgrid : r.launch.totalWarps = 4 := by
    rw [Launch.totalWarps, Launch.gSize, h, r.nWarp_eq]
  rw [warps, hgrid, h]
  decide

/-- The key offset adds `keyOff * cacheDim` modulo `2 ^ 64`. -/
theorem elem_eq_iff (r : ReadCall) (w tid : Nat) :
    r.elem r.keyOff w tid = r.elem 0 w tid ↔
      r.keyOff * r.cacheDim % 18446744073709551616 = 0 := by
  have hsum : (r.index w + r.keyOff) * r.cacheDim + tid =
      (r.index w + (0 : Nat)) * r.cacheDim + tid + r.keyOff * r.cacheDim := by ring
  rw [elem, elem, hsum]
  generalize (r.index w + (0 : Nat)) * r.cacheDim + tid = base
  omega

/-- Lanes do not wrap around if lane 0 is inside the range. -/
theorem elem_add (r : ReadCall) {keyOff w tid : Nat} (h : r.elem keyOff w 0 < r.count)
    (htid : tid < 2 ^ 63) : r.elem keyOff w tid = r.elem keyOff w 0 + tid := by
  have hcount := r.count_le
  rw [elem] at h
  rw [elem, elem]
  omega

end ReadCall

/-- Two elements of a page, by the place of the first in it. -/
theorem add_div_eq_iff {n s t : Nat} (hn : 0 < n) : (s + t) / n = s / n ↔ s % n + t < n := by
  have hsplit : s + t = n * (s / n) + (s % n + t) := by
    rw [← Nat.add_assoc, Nat.div_add_mod]
  rw [hsplit, Nat.mul_add_div hn, Nat.add_eq_left, Nat.div_eq_zero_iff_lt hn]

/-! ## Getting through -/

theorem ctxIndex_eq_some {r : ReadCall} {w c ci : Nat} (h : ctxIndex r w c = some ci) :
    (0 ≤ int32 (int32 w * 32 + c) ∧
      int32 (int32 w * 32 + c) < EntryPoint.readFeature.totalCtxs r.launch) ∧
      ci = (int32 (int32 w * 32 + c)).toNat := by
  simp only [ctxIndex] at h
  split at h
  case isTrue hin => exact ⟨hin, (Option.some.inj h).symm⟩
  case isFalse => cases h

/-- If the submit gets through, every context it uses has been allocated. -/
theorem submitInBounds_of_some {findSlot : Pages → Nat} {r : ReadCall} {s s' : Split}
    (h : readFeatureKernelSubmitAsync findSlot r s = some s') :
    SubmitInBounds .readFeature r.launch := by
  intro row chunk index huse
  cases huse with
  | @chunked _ _ bid t _ hbid ht hrow hloop =>
    have hbSize := r.bSize_eq
    have hnWarp := r.nWarp_eq
    -- the warp of the thread, and lane 0 of that warp
    have hw : bid * r.launch.nWarp + t / 32 < r.launch.totalWarps := by
      have hmul : bid * r.launch.nWarp + r.launch.nWarp ≤ r.launch.totalWarps := by
        rw [Launch.totalWarps, ← Nat.succ_mul]
        exact Nat.mul_le_mul_right _ hbid
      omega
    rw [Launch.idxIdx] at hrow
    have hmem : bid * r.launch.nWarp + t / 32 ∈ r.warps := r.mem_warps_iff.mpr ⟨hw, hrow⟩
    have hc : chunk < r.chunks := by
      rw [lt_loopCount_iff (by decide)] at hloop
      rw [r.lt_chunks_iff]
      omega
    obtain ⟨t1, t2, hstep⟩ := foldlM_step h (b := (bid * r.launch.nWarp + t / 32, chunk))
      (List.mem_flatMap.mpr ⟨_, hmem, List.mem_map.mpr ⟨chunk, List.mem_range.mpr hc, rfl⟩⟩)
    obtain ⟨ci, hci, -⟩ := Option.map_eq_some_iff.mp hstep
    rw [Launch.idxIdx]
    exact (ctxIndex_eq_some hci).1

/-! ## What lane 0 reads -/

/-- Whatever slot an element is read through, it is read at its own place in the page. -/
theorem wait_keeps_first {r : ReadCall} {array out out' : Nat → E} {s s' : Split} {x : E}
    (hdim : 0 < r.launch.dimU)
    (harray : ∀ q, array (q * r.nElemsPerPage + r.elem 0 0 0 % r.nElemsPerPage) = x)
    (hx : out 0 = x) (h : readFeatureKernelWaitAsync r array s out = some (s', out')) :
    out' 0 = x := by
  refine foldlM_keeps (P := fun t : Split × (Nat → E) => t.2 0 = x) ?_ hx h
  rintro ⟨w, c⟩ - t t' ht hchunk
  rw [waitChunk] at hchunk
  obtain ⟨ci, -, hpages⟩ := Option.bind_eq_some_iff.mp hchunk
  split at hpages
  case isFalse => cases hpages
  refine foldlM_keeps (P := fun t : Split × (Nat → E) => t.2 0 = x) ?_ ht hpages
  rintro pg - u u' hu hpage
  rw [waitPage] at hpage
  obtain ⟨⟨pages, ctx, slot⟩, -, hread⟩ := Option.bind_eq_some_iff.mp hpage
  obtain ⟨out1, hlanes, hu'⟩ := Option.bind_eq_some_iff.mp hread
  rw [readLanes] at hlanes
  obtain ⟨held, -, rfl⟩ := Option.map_eq_some_iff.mp hlanes
  cases hu'
  refine scatter_eq (fun tid _ hkey => ?_) (.inl hu)
  -- only lane 0 of warp 0 writes the first element
  have hzero : w * r.launch.dimU = 0 ∧ tid = 0 := Nat.add_eq_zero_iff.mp hkey
  have hw : w = 0 := (Nat.mul_eq_zero.mp hzero.1).resolve_right (by omega)
  rw [hw, hzero.2]
  exact harray held

/-! ## One row -/

theorem ctxIndex_of_one {r : ReadCall} (hone : r.launch.numIndex = 1) {c : Nat} (hc : c < 4) :
    ctxIndex r 0 c = some c := by
  have hgrid : r.launch.totalWarps = 4 := by
    rw [Launch.totalWarps, Launch.gSize, hone, r.nWarp_eq]
  have hindex : int32 (int32 (0 : Nat) * 32 + c) = c := by
    have hzero : int32 (0 : Nat) = 0 := by decide
    rw [hzero, int32_of_lt (by omega) (by omega)]
    omega
  rw [ctxIndex, hindex, EntryPoint.totalCtxs, hgrid]
  exact if_pos (by simp only [EntryPoint.ctxsPerWarp]; omega)

/-- After the submit of an idle cache's page, the wait on it returns the slot that holds it. -/
theorem submit_wait (findSlot : Pages → Nat) {pages : Pages} (h : Idle pages) (pg : Nat) :
    ∃ pages' ctx slot, acquirePageWaitAsync (acquirePageSubmitAsync findSlot pages pg).1 pg
        (acquirePageSubmitAsync findSlot pages pg).2 = some (pages', ctx, slot) ∧
      pages'.state pg = .vNb slot ∧ pages'.holds slot = some pg := by
  cases hst : pages.state pg with
  | nvNb =>
    -- a miss: the page goes to the slot that `find_slot` returned
    simp only [acquirePageSubmitAsync, hst, acquirePageWaitAsync, Bool.false_eq_true, if_false,
      Function.update_self]
    exact ⟨_, _, _, rfl, Function.update_self .., Function.update_self ..⟩
  | nvB slot => exact absurd hst (h.notBusy pg slot)
  | vNb slot =>
    simp only [acquirePageSubmitAsync, hst, acquirePageWaitAsync, if_true]
    exact ⟨_, _, _, rfl, hst, h.coherent pg slot hst⟩

/-- A context that the submit has not touched finds a page that has become valid. -/
theorem wait_zeroed {pages : Pages} {pg slot : Nat} (h : pages.state pg = .vNb slot) :
    acquirePageWaitAsync pages pg .zeroed = some (pages, ⟨false, slot⟩, slot) := by
  rw [acquirePageWaitAsync, SCtx.zeroed, if_neg (by decide)]
  rw [h]

section OneRow

variable {r : ReadCall} {pg : Nat} (hrow : ∀ tid < r.launch.dimU,
  r.elem 0 0 tid < r.count ∧ r.page (r.elem 0 0 tid) = pg)
include hrow

theorem dedup_pages {l : List Nat} (hne : l ≠ []) (hl : ∀ tid ∈ l, tid < r.launch.dimU) :
    (l.map fun tid => r.page (r.elem 0 0 tid)).dedup = [pg] := by
  have hmap : (l.map fun tid => r.page (r.elem 0 0 tid)) = List.replicate l.length pg := by
    rw [← List.map_const']
    exact List.map_congr_left fun tid htid => (hrow tid (hl tid htid)).2
  rw [hmap, List.replicate_dedup (by simpa using hne)]

theorem submitPages_first (hdim : 0 < r.launch.dimU) : submitPages r 0 0 = [pg] := by
  have hlane : 0 ∈ r.lanes 0 := r.mem_lanes_iff.mpr (by omega)
  refine dedup_pages hrow ?_ ?_
  · refine List.ne_nil_of_mem (a := 0) (List.mem_filter.mpr ⟨hlane, ?_⟩)
    simpa using (hrow 0 hdim).1
  · intro tid htid
    exact (r.mem_lanes_iff.mp (List.mem_filter.mp htid).1).2.2

/-- Later chunks of the row are on the page that the pointer is on. -/
theorem submitPages_later (c : Nat) : submitPages r 0 (c + 1) = [] := by
  rw [submitPages, List.filter_eq_nil_iff.mpr, List.map_nil, List.dedup_nil]
  intro tid htid
  obtain ⟨h1, -, h3⟩ := r.mem_lanes_iff.mp htid
  have hsame : r.page (r.elem 0 0 tid) = r.page (r.elem 0 0 (tid - 32)) := by
    rw [(hrow tid h3).2, (hrow (tid - 32) (by omega)).2]
  simp [hsame]

theorem waitPages_eq {c : Nat} (hc : c < r.chunks) : waitPages r 0 c = [pg] := by
  rw [r.lt_chunks_iff] at hc
  refine dedup_pages hrow ?_ fun tid htid => (r.mem_lanes_iff.mp htid).2.2
  exact List.ne_nil_of_mem (a := c * 32) (r.mem_lanes_iff.mpr (by omega))

theorem submit_one_row {findSlot : Pages → Nat} {pages : Pages} (hone : r.launch.numIndex = 1)
    (hdim : 0 < r.launch.dimU) (hfit : r.launch.dimU ≤ 128) :
    readFeatureKernelSubmitAsync findSlot r ⟨pages, fun _ => .zeroed⟩ =
      some ⟨(acquirePageSubmitAsync findSlot pages pg).1,
        Function.update (fun _ => .zeroed) 0 (acquirePageSubmitAsync findSlot pages pg).2⟩ := by
  obtain ⟨n, hn⟩ : ∃ n, r.chunks = n + 1 :=
    Nat.exists_eq_succ_of_ne_zero (Nat.ne_of_gt (r.lt_chunks_iff.mpr (by omega)))
  rw [readFeatureKernelSubmitAsync, r.warps_of_one hone, List.flatMap_singleton, hn,
    List.range_succ_eq_map, List.map_cons, List.foldlM_cons]
  have hfirst : submitChunk findSlot r ⟨pages, fun _ => .zeroed⟩ 0 0 =
      some ⟨(acquirePageSubmitAsync findSlot pages pg).1,
        Function.update (fun _ => .zeroed) 0 (acquirePageSubmitAsync findSlot pages pg).2⟩ := by
    rw [submitChunk, ctxIndex_of_one hone (by decide), submitPages_first hrow hdim]
    rfl
  rw [hfirst]
  -- the other chunks have nothing to acquire
  refine foldlM_fixed fun wc hwc => ?_
  obtain ⟨c', hc', rfl⟩ := List.mem_map.mp hwc
  obtain ⟨c, hcn, rfl⟩ := List.mem_map.mp hc'
  have hlt : c + 1 < r.chunks := by
    rw [hn]
    exact Nat.succ_lt_succ (List.mem_range.mp hcn)
  rw [r.lt_chunks_iff] at hlt
  show submitChunk findSlot r _ 0 (c + 1) = _
  rw [submitChunk, ctxIndex_of_one hone (by omega), submitPages_later hrow]
  rfl

/-- One chunk of the wait: its lanes' elements go to the output. -/
theorem waitChunk_one_row (array out : Nat → E) {s : Split} (hone : r.launch.numIndex = 1)
    (hfit : r.launch.dimU ≤ 128) {c : Nat} (hc : c < r.chunks) {pages : Pages} {ctx : SCtx}
    {slot : Nat} (hwait : acquirePageWaitAsync s.pages pg (s.ctxs c) = some (pages, ctx, slot))
    (hheld : pages.holds slot = some pg) :
    ∃ out', waitChunk r array (s, out) 0 c =
        some (⟨pages, Function.update s.ctxs c ctx⟩, out') ∧
      ∀ k, out' k = if k ∈ r.lanes c then array (r.elem 0 0 k) else out k := by
  have hlanes : ∀ tid ∈ r.lanes c, tid < r.launch.dimU := fun tid h => (r.mem_lanes_iff.mp h).2.2
  have hc4 : c < 4 := by
    rw [r.lt_chunks_iff] at hc
    omega
  have hall : ∀ tid ∈ r.lanes c, r.elem 0 0 tid < r.count := fun tid h => (hrow tid (hlanes tid h)).1
  have hfilter : (r.lanes c).filter (fun tid => r.page (r.elem 0 0 tid) = pg) = r.lanes c :=
    List.filter_eq_self.mpr fun tid h => by simpa using (hrow tid (hlanes tid h)).2
  refine ⟨scatter out (fun tid => 0 * r.launch.dimU + tid)
    (fun tid => array (pg * r.nElemsPerPage + r.elem 0 0 tid % r.nElemsPerPage)) (r.lanes c),
    ?_, fun k => ?_⟩
  · rw [waitChunk, ctxIndex_of_one hone hc4]
    show (if ∀ tid ∈ r.lanes c, r.elem 0 0 tid < r.count then
      (waitPages r 0 c).foldlM (waitPage r array 0 c c) (s, out) else none) = _
    rw [if_pos hall, waitPages_eq hrow hc, List.foldlM_cons, waitPage, hwait]
    show (readLanes r array pages slot 0 c pg out >>= _) >>= _ = _
    rw [readLanes, hheld, hfilter]
    rfl
  · by_cases hk : k ∈ r.lanes c
    · rw [if_pos hk]
      refine scatter_eq (fun tid htid hkey => ?_) (.inr ⟨k, hk, by omega⟩)
      have heq : tid = k := by omega
      have hpage := (hrow k (hlanes k hk)).2
      rw [heq, ← hpage, ReadCall.page, Nat.div_add_mod']
    · rw [if_neg hk]
      exact scatter_other fun tid htid hkey => hk (by rwa [← show tid = k by omega])

/-- The chunks behind the first one. -/
theorem wait_later (array : Nat → E) (hone : r.launch.numIndex = 1) (hfit : r.launch.dimU ≤ 128)
    (cs : List Nat) (hcs : ∀ c ∈ cs, c < r.chunks) (hnodup : cs.Nodup) {s : Split} {slot : Nat}
    (hvalid : s.pages.state pg = .vNb slot) (hheld : s.pages.holds slot = some pg)
    (hctxs : ∀ c ∈ cs, s.ctxs c = .zeroed) (out : Nat → E) :
    ∃ s' out', (cs.map fun c => (0, c)).foldlM (fun t wc => waitChunk r array t wc.1 wc.2) (s, out) =
        some (s', out') ∧
      ∀ k, out' k = if ∃ c ∈ cs, k ∈ r.lanes c then array (r.elem 0 0 k) else out k := by
  induction cs generalizing s out with
  | nil => exact ⟨s, out, rfl, fun k => by simp⟩
  | cons c cs ih =>
    obtain ⟨hc, hnodup⟩ := List.nodup_cons.mp hnodup
    obtain ⟨out1, hstep, hout1⟩ := waitChunk_one_row hrow array out hone hfit
      (hcs c List.mem_cons_self)
      (by rw [hctxs c List.mem_cons_self]; exact wait_zeroed hvalid) hheld
    have hrest : ∀ c' ∈ cs, Function.update s.ctxs c ⟨false, slot⟩ c' = .zeroed := by
      intro c' hc'
      have hne : c' ≠ c := fun h => hc (by rwa [← h])
      rw [Function.update_of_ne hne]
      exact hctxs c' (List.mem_cons_of_mem c hc')
    obtain ⟨s', out', hrun, hout'⟩ := ih (fun c' hc' => hcs c' (List.mem_cons_of_mem c hc')) hnodup
      (s := ⟨s.pages, Function.update s.ctxs c ⟨false, slot⟩⟩) hvalid hheld hrest out1
    refine ⟨s', out', ?_, fun k => ?_⟩
    · rw [List.map_cons, List.foldlM_cons, hstep]
      exact hrun
    · rw [hout' k, hout1 k]
      simp only [List.mem_cons, exists_eq_or_imp]
      by_cases h1 : k ∈ r.lanes c
      · simp [h1]
      · simp [h1]

/-- The default mode reads a row of one page as it stands in the array. -/
theorem async_one_row (findSlot : Pages → Nat) {pages : Pages} (hidle : Idle pages)
    (hone : r.launch.numIndex = 1) (hdim : 0 < r.launch.dimU) (hfit : r.launch.dimU ≤ 128)
    (array out : Nat → E) :
    ∃ result, readFeature false findSlot r pages array out = some result ∧
      ∀ k, result k = if k < r.launch.dimU then array (r.elem 0 0 k) else out k := by
  obtain ⟨n, hn⟩ : ∃ n, r.chunks = n + 1 :=
    Nat.exists_eq_succ_of_ne_zero (Nat.ne_of_gt (r.lt_chunks_iff.mpr (by omega)))
  obtain ⟨pages', ctx, slot, hwait, hvalid, hheld⟩ := submit_wait findSlot hidle pg
  obtain ⟨out1, hfirst, hout1⟩ := waitChunk_one_row hrow array out hone hfit (c := 0)
    (by omega)
    (s := ⟨(acquirePageSubmitAsync findSlot pages pg).1,
      Function.update (fun _ => .zeroed) 0 (acquirePageSubmitAsync findSlot pages pg).2⟩)
    (by simpa only [Function.update_self] using hwait) hheld
  obtain ⟨s', out', hrun, hout'⟩ := wait_later hrow array hone hfit
    ((List.range n).map Nat.succ)
    (fun c' hc' => by
      obtain ⟨c, hc, rfl⟩ := List.mem_map.mp hc'
      rw [hn]
      exact Nat.succ_lt_succ (List.mem_range.mp hc))
    (List.Nodup.map Nat.succ_injective List.nodup_range)
    (s := ⟨pages', Function.update (Function.update (fun _ => .zeroed) 0
      (acquirePageSubmitAsync findSlot pages pg).2) 0 ctx⟩) hvalid hheld
    (fun c' hc' => by
      obtain ⟨c, -, rfl⟩ := List.mem_map.mp hc'
      simp only [Function.update_of_ne (Nat.succ_ne_zero c)])
    out1
  refine ⟨out', ?_, fun k => ?_⟩
  · rw [readFeature, if_neg (by decide), submit_one_row hrow hone hdim hfit]
    show (readFeatureKernelWaitAsync r array _ out >>= _) = _
    rw [readFeatureKernelWaitAsync, r.warps_of_one hone, List.flatMap_singleton, hn,
      List.range_succ_eq_map, List.map_cons, List.foldlM_cons]
    show (waitChunk r array _ 0 0 >>= _) >>= _ = _
    rw [hfirst]
    show ((((List.range n).map Nat.succ).map fun c => (0, c)).foldlM _ _ >>= _) = _
    rw [hrun]
    rfl
  · rw [hout' k, hout1 k]
    by_cases hk : k < r.launch.dimU
    · -- lane `k % 32` of chunk `k / 32`
      rw [if_pos hk]
      have hlane : k ∈ r.lanes (k / 32) := r.mem_lanes_iff.mpr (by omega)
      by_cases hlater : ∃ c ∈ (List.range n).map Nat.succ, k ∈ r.lanes c
      · rw [if_pos hlater]
      · rw [if_neg hlater, if_pos]
        by_cases hzero : k / 32 = 0
        · rwa [hzero] at hlane
        · refine absurd ⟨k / 32, List.mem_map.mpr ⟨k / 32 - 1, ?_, by omega⟩, hlane⟩ hlater
          have hchunk : k / 32 < r.chunks := r.lt_chunks_iff.mpr (by omega)
          rw [List.mem_range]
          omega
    · have hnone : ∀ c, k ∉ r.lanes c := fun c hc => hk (r.mem_lanes_iff.mp hc).2.2
      rw [if_neg hk, if_neg fun ⟨c, _, hc⟩ => hnone c hc, if_neg (hnone 0)]

end OneRow

theorem mem_warps_of_le {r : ReadCall} (hnum : r.launch.numIndex ≤ 2147483648) {w : Nat} :
    w ∈ r.warps ↔ w < r.launch.numIndex := by
  have hgrid : r.launch.totalWarps = (r.launch.numIndex + 4 - 1) / 4 * 4 := by
    rw [Launch.totalWarps, Launch.gSize, r.nWarp_eq]
  rw [r.mem_warps_iff, hgrid]
  constructor
  · rintro ⟨hlt, hrow⟩
    rw [int32_of_lt (by omega) (by omega)] at hrow
    exact Int.ofNat_lt.mp hrow
  · intro hlt
    refine ⟨by omega, ?_⟩
    rw [int32_of_lt (by omega) (by omega)]
    exact Int.ofNat_lt.mpr hlt

/-- The synchronous mode on rows inside the range. -/
theorem sync_rows (findSlot : Pages → Nat) (pages : Pages) {r : ReadCall}
    (hnum : r.launch.numIndex ≤ 2147483648)
    (hrange : ∀ w < r.launch.numIndex, ∀ tid < r.launch.dimU, r.elem r.keyOff w tid < r.count)
    (array out : Nat → E) :
    ∃ result, readFeature true findSlot r pages array out = some result ∧
      ∀ k, result k = if k < r.launch.numIndex * r.launch.dimU then
        array (r.elem r.keyOff (k / r.launch.dimU) (k % r.launch.dimU)) else out k := by
  -- the cells of the kernel
  have hcells : ∀ c, c ∈ (r.warps.flatMap fun w => (List.range r.launch.dimU).map fun tid => (w, tid))
      ↔ c.1 < r.launch.numIndex ∧ c.2 < r.launch.dimU := by
    rintro ⟨w, tid⟩
    simp only [List.mem_flatMap, List.mem_map, List.mem_range, Prod.mk.injEq]
    refine ⟨?_, fun ⟨hw, htid⟩ => ⟨w, (mem_warps_of_le hnum).mpr hw, tid, htid, rfl, rfl⟩⟩
    rintro ⟨w', hw', tid', htid', rfl, rfl⟩
    exact ⟨(mem_warps_of_le hnum).mp hw', htid'⟩
  have hall : ∀ c ∈ (r.warps.flatMap fun w => (List.range r.launch.dimU).map fun tid => (w, tid)),
      0 ≤ int32 (c.1 : Nat) ∧ r.elem r.keyOff c.1 c.2 < r.count := by
    intro c hc
    obtain ⟨hw, htid⟩ := (hcells c).mp hc
    refine ⟨?_, hrange c.1 hw c.2 htid⟩
    rw [int32_of_lt (by omega) (by omega)]
    exact Int.natCast_nonneg c.1
  refine ⟨_, by rw [readFeature, if_pos rfl, readFeatureKernel]; exact if_pos hall, fun k => ?_⟩
  by_cases hk : k < r.launch.numIndex * r.launch.dimU
  · have hdim : 0 < r.launch.dimU := Nat.pos_of_ne_zero fun h => by
      rw [h, Nat.mul_zero] at hk
      omega
    rw [if_pos hk]
    refine scatter_eq (fun c hc hkey => ?_) (.inr ⟨(k / r.launch.dimU, k % r.launch.dimU),
      (hcells _).mpr ⟨(Nat.div_lt_iff_lt_mul hdim).mpr hk, Nat.mod_lt k hdim⟩,
      Nat.div_add_mod' k r.launch.dimU⟩)
    have htid := ((hcells c).mp hc).2
    rw [← hkey, Nat.mul_comm c.1, Nat.mul_add_div hdim, Nat.div_eq_of_lt htid, Nat.add_zero,
      Nat.mul_add_mod, Nat.mod_eq_of_lt htid]
  · rw [if_neg hk]
    refine scatter_other fun c hc hkey => hk ?_
    obtain ⟨hw, htid⟩ := (hcells c).mp hc
    rw [← hkey]
    exact RowMajor.Rows.cell_lt hw htid

theorem sync_one_row (findSlot : Pages → Nat) (pages : Pages) {r : ReadCall} (hrows : RowsOk r)
    (hone : r.launch.numIndex = 1) (array out : Nat → E) :
    ∃ result, readFeature true findSlot r pages array out = some result ∧
      ∀ k, result k = if k < r.launch.dimU then array (r.elem r.keyOff 0 k) else out k := by
  obtain ⟨result, hresult, hvalue⟩ := sync_rows findSlot pages (r := r)
    (by omega) (fun w hw tid htid => (hrows w hw tid htid).1) array out
  refine ⟨result, hresult, fun k => ?_⟩
  rw [hvalue k, hone, Nat.one_mul]
  by_cases hk : k < r.launch.dimU
  · rw [if_pos hk, if_pos hk, Nat.div_eq_of_lt hk, Nat.mod_eq_of_lt hk]
  · rw [if_neg hk, if_neg hk]

/-! ## Agreement -/

/-- The calls for which the two modes agree: nothing to read, or one row of at most 128
    elements that the key offset does not move. -/
def ModesAgree (r : ReadCall) : Prop :=
  r.launch.numIndex = 0 ∨ r.launch.dim = 0 ∨
    (r.launch.numIndex = 1 ∧ 0 < r.launch.dim ∧ r.launch.dim ≤ 128 ∧
      r.keyOff * r.cacheDim % 18446744073709551616 = 0)

theorem asyncEqSync_of_agree {r : ReadCall} (hrows : RowsOk r) (h : ModesAgree r) :
    AsyncEqSync E r := by
  intro findSlot pages hidle array out
  rcases h with hnum | hdim | ⟨hone, hpos, hle, hkey⟩
  · -- no warp has a row
    refine ⟨out, ?_, ?_⟩
    · rw [readFeature, if_neg (by decide), readFeatureKernelSubmitAsync, r.warps_of_empty hnum]
      show (readFeatureKernelWaitAsync r array _ out >>= _) = _
      rw [readFeatureKernelWaitAsync, r.warps_of_empty hnum]
      rfl
    · rw [readFeature, if_pos rfl, readFeatureKernel, r.warps_of_empty hnum]
      exact if_pos fun c hc => absurd hc List.not_mem_nil
  · -- no lane has an element
    have hU : r.launch.dimU = 0 := by
      have hdimU := r.launch.dimU_of_nonneg (by omega)
      omega
    have hchunks : r.chunks = 0 := by
      by_contra hne
      have hlt := r.lt_chunks_iff.mp (Nat.pos_of_ne_zero hne)
      omega
    have hnone : ∀ l : List Nat, (l.flatMap fun w => (List.range 0).map fun c => (w, c)) = [] := by
      intro l
      exact List.flatMap_eq_nil_iff.mpr fun _ _ => rfl
    refine ⟨out, ?_, ?_⟩
    · rw [readFeature, if_neg (by decide), readFeatureKernelSubmitAsync, hchunks, hnone]
      show (readFeatureKernelWaitAsync r array _ out >>= _) = _
      rw [readFeatureKernelWaitAsync, hchunks, hnone]
      rfl
    · rw [readFeature, if_pos rfl, readFeatureKernel, hU, hnone]
      exact if_pos fun c hc => absurd hc List.not_mem_nil
  · have hU := r.launch.dimU_of_nonneg (by omega)
    have hsame : ∀ tid, r.elem r.keyOff 0 tid = r.elem 0 0 tid :=
      fun tid => (r.elem_eq_iff 0 tid).mpr hkey
    have hrow : ∀ tid < r.launch.dimU, r.elem 0 0 tid < r.count ∧
        r.page (r.elem 0 0 tid) = r.page (r.elem 0 0 0) := by
      intro tid htid
      rw [← hsame tid, ← hsame 0]
      exact hrows 0 (by omega) tid htid
    obtain ⟨async, hasync, hvalue⟩ := async_one_row hrow findSlot hidle hone
      (by omega) (by omega) array out
    obtain ⟨sync, hsync, hvalue'⟩ := sync_one_row findSlot pages hrows hone
      array out
    have heq : async = sync := by
      funext k
      rw [hvalue k, hvalue' k, hsame k]
    exact ⟨async, hasync, heq ▸ hsync⟩

/-- A cache in which nothing is resident. -/
def emptyPages : Pages := ⟨fun _ => .nvNb, fun _ => none⟩

theorem emptyPages_idle : Idle emptyPages where
  notBusy _ _ h := by cases h
  coherent _ _ h := by cases h

/-- What got through in the default mode went through both kernels. -/
theorem async_some {findSlot : Pages → Nat} {r : ReadCall} {pages : Pages}
    {array out result : Nat → E} (h : readFeature false findSlot r pages array out = some result) :
    ∃ s s', readFeatureKernelSubmitAsync findSlot r ⟨pages, fun _ => .zeroed⟩ = some s ∧
      readFeatureKernelWaitAsync r array s out = some (s', result) := by
  rw [readFeature, if_neg (by decide)] at h
  obtain ⟨s, hs, hrest⟩ := Option.bind_eq_some_iff.mp h
  obtain ⟨⟨s', out'⟩, hwait, hout⟩ := Option.bind_eq_some_iff.mp hrest
  cases hout
  exact ⟨s, s', hs, hwait⟩

/-- A wait that gets through has found every lane inside the range. -/
theorem lane_lt_of_some {r : ReadCall} (hone : r.launch.numIndex = 1) {array out out' : Nat → E}
    {s s' : Split} (h : readFeatureKernelWaitAsync r array s out = some (s', out')) (tid : Nat)
    (htid : tid < r.launch.dimU) : r.elem 0 0 tid < r.count := by
  have hc : tid / 32 < r.chunks := r.lt_chunks_iff.mpr (by omega)
  obtain ⟨t, t', hstep⟩ := foldlM_step h (b := (0, tid / 32)) (List.mem_flatMap.mpr
    ⟨0, by rw [r.warps_of_one hone]; exact List.mem_cons_self,
      List.mem_map.mpr ⟨_, List.mem_range.mpr hc, rfl⟩⟩)
  rw [waitChunk] at hstep
  obtain ⟨ci, -, hpages⟩ := Option.bind_eq_some_iff.mp hstep
  split at hpages
  case isTrue hall => exact hall tid (r.mem_lanes_iff.mpr (by omega))
  case isFalse => cases hpages

/-- Where the default mode gets through with something to read, the contexts are enough, so it
    reads one row of at most 128 elements. -/
theorem one_row_of_async_some {findSlot : Pages → Nat} {r : ReadCall} {pages : Pages}
    {array out result : Nat → E} (h : readFeature false findSlot r pages array out = some result)
    (hnum : r.launch.numIndex ≠ 0) (hzero : r.launch.dim ≠ 0) :
    r.launch.numIndex = 1 ∧ 0 < r.launch.dim ∧ r.launch.dim ≤ 128 := by
  obtain ⟨s, -, hsubmit, -⟩ := async_some h
  have hbounds := submitInBounds_of_some hsubmit
  have hdim : 0 ≤ r.launch.dim := dim_nonneg_of_inBounds hbounds (by omega)
  have hU := r.launch.dimU_of_nonneg hdim
  have hone := one_row_of_inBounds hbounds rfl (by omega) (by omega)
  have hle := one_row_dim_of_inBounds hbounds hone
  rw [r.nWarp_eq] at hle
  exact ⟨hone, by omega, hle⟩

theorem agree_of_asyncEqSync [Nontrivial E] {r : ReadCall} (hrows : RowsOk r)
    (h : AsyncEqSync E r) : ModesAgree r := by
  obtain ⟨x, y, hxy⟩ := exists_pair_ne E
  by_cases hnum : r.launch.numIndex = 0
  · exact .inl hnum
  by_cases hzero : r.launch.dim = 0
  · exact .inr (.inl hzero)
  obtain ⟨result, hasync, -⟩ := h (fun _ => 0) emptyPages emptyPages_idle (fun _ => x) (fun _ => x)
  obtain ⟨s, s', -, hwait⟩ := async_some hasync
  obtain ⟨hone, hdim, hle⟩ := one_row_of_async_some hasync hnum hzero
  have hU := r.launch.dimU_of_nonneg (by omega)
  refine .inr (.inr ⟨hone, hdim, hle, ?_⟩)
  by_contra hkey
  have hmoved : r.elem r.keyOff 0 0 ≠ r.elem 0 0 0 := fun heq => hkey ((r.elem_eq_iff 0 0).mp heq)
  by_cases hmod : r.elem r.keyOff 0 0 % r.nElemsPerPage = r.elem 0 0 0 % r.nElemsPerPage
  · -- the row without the offset is inside one page too, and is read as it stands
    have hfirst := (hrows 0 (by omega) 0 (by omega)).1
    have hfirst' := lane_lt_of_some hone hwait 0 (by omega)
    have hpos := r.nElemsPerPage_pos
    have hrow : ∀ tid < r.launch.dimU, r.elem 0 0 tid < r.count ∧
        r.page (r.elem 0 0 tid) = r.page (r.elem 0 0 0) := by
      intro tid htid
      refine ⟨lane_lt_of_some hone hwait tid htid, ?_⟩
      have hpage := (hrows 0 (by omega) tid htid).2
      rw [r.elem_add hfirst (by omega), ReadCall.page, ReadCall.page, add_div_eq_iff hpos, hmod]
        at hpage
      rw [r.elem_add hfirst' (by omega), ReadCall.page, ReadCall.page, add_div_eq_iff hpos]
      exact hpage
    -- an array whose two rows begin differently
    obtain ⟨res, hres, hres'⟩ := h (fun _ => 0) emptyPages emptyPages_idle
      (fun i => if i = r.elem 0 0 0 then x else y) (fun _ => x)
    obtain ⟨async, hasync', hvalue⟩ := async_one_row hrow (fun _ => 0) emptyPages_idle
      hone (by omega) (by omega) (fun i => if i = r.elem 0 0 0 then x else y) (fun _ => x)
    obtain ⟨sync, hsync, hvalue'⟩ := sync_one_row (fun _ => 0) emptyPages
      hrows hone (fun i => if i = r.elem 0 0 0 then x else y) (fun _ => x)
    have heq : async = sync := Option.some.inj
      ((hasync'.symm.trans hres).trans (hres'.symm.trans hsync))
    have hdimU : 0 < r.launch.dimU := by omega
    have hx := hvalue 0
    rw [heq, hvalue' 0, if_pos hdimU, if_neg hmoved, if_pos hdimU, if_pos rfl] at hx
    exact hxy hx.symm
  · -- lane 0 reads at the place in the page that the index without the offset has
    obtain ⟨res, hres, hres'⟩ := h (fun _ => 0) emptyPages emptyPages_idle
      (fun i => if i % r.nElemsPerPage = r.elem 0 0 0 % r.nElemsPerPage then x else y) (fun _ => x)
    obtain ⟨t, t', -, hwait'⟩ := async_some hres
    have hx : res 0 = x := wait_keeps_first (by omega) (fun q => by
      rw [if_pos (by rw [Nat.mul_comm, Nat.mul_add_mod, Nat.mod_mod])]) rfl hwait'
    obtain ⟨sync, hsync, hvalue'⟩ := sync_one_row (fun _ => 0) emptyPages
      hrows hone
      (fun i => if i % r.nElemsPerPage = r.elem 0 0 0 % r.nElemsPerPage then x else y) (fun _ => x)
    have heq : res = sync := Option.some.inj (hres'.symm.trans hsync)
    rw [heq, hvalue' 0, if_pos (by omega), if_neg hmod] at hx
    exact hxy hx.symm

/-- For every call whose rows lie inside one page each, the default mode writes what the
    synchronous mode writes exactly in the listed cases. -/
theorem asyncEqSync_iff [Nontrivial E] (r : ReadCall) (hrows : RowsOk r) :
    AsyncEqSync E r ↔ ModesAgree r :=
  ⟨agree_of_asyncEqSync hrows, asyncEqSync_of_agree hrows⟩

/-! ### One row of one chunk -/

/-- Row 0 of an array of two rows, with a key offset. -/
def oneRow (keyOff : Nat) : ReadCall where
  launch :=
    { bSize := 128
      numIndex := 1
      dim := 32
      bSize_ge := bSize128_ge
      bSize_le := bSize128_le
      dim_ge := dim32_ge
      dim_lt := dim32_lt
      grid_lt := oneRow_grid }
  index _ := 0
  cacheDim := 32
  keyOff := keyOff
  nElemsPerPage := 32
  count := 64
  bSize_eq := rfl
  nElemsPerPage_pos := elems32_pos
  count_le := count64_le

theorem oneRow_rowsOk : RowsOk (oneRow 0) ∧ RowsOk (oneRow 1) := by
  unfold RowsOk
  decide

theorem oneRow_modes_agree : AsyncEqSync Nat (oneRow 0) :=
  (asyncEqSync_iff (oneRow 0) oneRow_rowsOk.1).mpr (.inr (.inr (by decide)))

/-- With the key offset 1 the synchronous mode reads row 1, the default mode row 0. -/
theorem oneRow_keyOff_ignored : ¬ ∀ r, RowsOk r → AsyncEqSync Nat r := by
  intro h
  have hagree := agree_of_asyncEqSync oneRow_rowsOk.2 (h (oneRow 1) oneRow_rowsOk.2)
  revert hagree
  unfold ModesAgree
  decide

end GidsStack.Feature
