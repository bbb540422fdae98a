/-
  GidsStack.Requests.Layout

  Which contexts the kernels of polls and gets index.  A request submitted by
  `read_feature_submit_async_registered` has 32 contexts a row, one for each
  chunk, and one submitted by its `_rowctx` variant has one.  The blocking poll
  and both gets are written for one of the two and do not look at the
  `ctx_stride` of the front request; `service_registered_poll_compatible` and
  the ready check do.
-/

import GidsStack.Lib.Kernel
import GidsStack.Requests.Lifecycle

namespace GidsStack.Requests

open GidsStack.Kernel

/-! ## The contexts a kernel indexes -/

/-- The index that the kernel of a submit gives the context of a chunk of a row:
    `d_warp_ctxs[idx_idx * 32 + loop_idx++]`, and `d_row_ctxs[idx_idx]` for the whole row. -/
def Call.ctxIndex : Call → Nat → Nat → Option Nat
  | .submitAsyncRegistered _, row, chunk => some (row * 32 + chunk)
  | .submitAsyncRegisteredRowctx _, row, _ => some row
  | _, _, _ => none

/-- A context that a kernel of a poll or get indexes: for the request at `offset`, in the
    contexts `ctxs`, as if neighbouring rows were `stride` apart. -/
structure Access where
  offset : Nat
  ctxs : Ctxs
  stride : Nat
  row : Nat
  chunk : Nat
  deriving DecidableEq

/-- The index itself. -/
def Access.index (a : Access) : Nat := a.row * a.stride + a.chunk

/-- A kernel with one thread a row. -/
def rowAccesses (offset : Nat) (ctxs : Option Ctxs) (numIndex stride : Nat) : List Access :=
  match ctxs with
  | none => []
  | some ctxs => (List.range numIndex).map fun row => { offset, ctxs, stride, row, chunk := 0 }

/-- The chunks of a row: `for (; tid < dim; tid += 32)` from 0, where `dim` becomes `uint64_t`. -/
def rowChunks (dim : Int) : Nat := loopCount 32 (dim % 18446744073709551616).toNat 0

/-- `read_feature_kernel_get_feature_light`. -/
def chunkAccesses (offset : Nat) (ctxs : Option Ctxs) (numIndex : Nat) (dim : Int) : List Access :=
  match ctxs with
  | none => []
  | some ctxs => (List.range numIndex).flatMap fun row =>
      (List.range (rowChunks dim)).map fun chunk => { offset, ctxs, stride := 32, row, chunk }

/-! ## The accesses of the calls -/

/-- `service_registered_poll`. -/
def pollAccesses (s : Store) : List Access :=
  match s.iostack.frontOutstanding with
  | none => []
  | some m =>
    if m.state = .ready then [] else rowAccesses 0 s.iostack.frontCtxs.1 m.numIndex 32

/-- `service_registered_poll_compatible`. -/
def pollCompatibleAccesses (s : Store) : List Access :=
  match s.iostack.frontOutstanding with
  | none => []
  | some m =>
    if m.state = .ready then []
    else if m.ctxStride ≠ 1 then pollAccesses s
    else if (s.iostack.frontCtxs.1.bind (·.addr)).isNone then []
    else rowAccesses 0 s.iostack.frontCtxs.1 m.numIndex 1

/-- `registered_request_ready_at`. -/
def readyAccesses (s : Store) (offset : Nat) : List Access :=
  match s.iostack.outstandingAt offset with
  | none => []
  | some m =>
    if m.state = .ready then []
    else
      match s.iostack.ctxsAt offset with
      | none => []
      | some c =>
        if c.addr.isNone then [] else rowAccesses offset (some c) m.numIndex m.ctxStride

/-- `service_registered_try_poll`. -/
def tryPollAccesses (s : Store) (k : Kernels) : List Access :=
  match s.iostack.frontOutstanding with
  | none => []
  | some m => if m.state = .ready then [] else readyAccesses (serviceBurst s k) 0

/-- The loop of `service_registered_try_poll_window_skip_front`, in which a ready check is
    followed by the rest of the loop in the store it leaves. -/
def windowAccesses (s : Store) (k : Kernels) (offset : Nat) : Nat → List Access
  | 0 => []
  | count + 1 =>
    match s.iostack.outstandingAt offset with
    | none => []
    | some m =>
      if m.state ≠ .submitted then windowAccesses s k (offset + 1) count
      else
        readyAccesses s offset ++
          match requestReadyAt s k offset with
          | (false, s) => windowAccesses s k (offset + 1) count
          | (true, s) =>
            match s.iostack.markReadyAt offset m.requestId with
            | (true, iostack) => windowAccesses { s with iostack } k (offset + 1) count
            | (false, _) => []

/-- `service_registered_try_poll_window_skip_front`. -/
def windowSkipFrontAccesses (s : Store) (k : Kernels) (windowSize : Nat) : List Access :=
  let total := s.iostack.outstandingCount
  if total ≤ 1 then []
  else windowAccesses (serviceBurst s k) k 1 (min (max 1 windowSize) (total - 1))

/-- The front request that a get takes. -/
def Store.taken (s : Store) : Option OutstandingMeta :=
  s.iostack.frontOutstanding.filter (·.state = .ready)

/-- The contexts that the kernels of a registered call index.  The kernels of submits are
    those that the others are compared with. -/
def Call.accesses (s : Store) : Call → List Access
  | .poll _ => pollAccesses s
  | .pollCompatible _ => pollCompatibleAccesses s
  | .tryPoll k => tryPollAccesses s k
  | .tryPollWindowSkipFront k windowSize => windowSkipFrontAccesses s k windowSize
  | .getFeatureLightRegistered =>
    match s.taken with
    | none => []
    | some m => chunkAccesses 0 s.iostack.frontCtxs.1 m.numIndex m.dim
  | .getFeatureLightRegisteredRowctx =>
    match s.taken with
    | none => []
    | some m => rowAccesses 0 s.iostack.frontCtxs.1 m.numIndex 1
  | _ => []

/-! ## Following the request -/

/-- The exported registered calls. -/
def Call.isRegistered : Call → Bool
  | .submitAsync _ => false
  | .waitAsync => false
  | .singlePageSingleThreadPoll _ _ => false
  | .getFeatureLight => false
  | _ => true

/-- The submits of a run, by the numbers of their submissions. -/
def submits (cs : List Call) : List Call := cs.filter Call.isRegisteredSubmit

/-- The access is to the contexts of the request at its offset, with the request's own
    `ctx_stride`, and the context is the one that the request's submit wrote for the row. -/
def Access.Follows (a : Access) (cs : List Call) (s : Store) : Prop :=
  ∃ m c, s.iostack.outstandingAt a.offset = some m ∧ (submits cs)[m.ctxs.submission]? = some c ∧
    a.ctxs = m.ctxs ∧ a.stride = m.ctxStride ∧ c.ctxIndex a.row a.chunk = some a.index

/-- In the store `s` that the calls `cs` have left, the call `c` indexes contexts only as their
    requests have them; or it throws, and has indexed none and left the queues and the contexts
    as they were. -/
def FollowsLayout (cs : List Call) (s : Store) (c : Call) : Prop :=
  match (call s c).2 with
  | .ok _ => ∀ a ∈ c.accesses s, a.Follows cs s
  | .error _ => c.accesses s = [] ∧ SameQueues s.iostack (call s c).1.iostack ∧
      (call s c).1.complete = s.complete

/-- The call launches a kernel on rows of the front request that is written for the other
    layout. -/
def MixesLayouts (s : Store) : Call → Prop
  | .poll _ => ∃ m, s.iostack.frontOutstanding = some m ∧ m.state ≠ .ready ∧ m.ctxStride ≠ 32 ∧
      m.numIndex ≠ 0
  | .getFeatureLightRegistered => ∃ m, s.iostack.frontOutstanding = some m ∧ m.state = .ready ∧
      m.ctxStride ≠ 32 ∧ m.numIndex ≠ 0 ∧ rowChunks m.dim ≠ 0
  | .getFeatureLightRegisteredRowctx => ∃ m, s.iostack.frontOutstanding = some m ∧
      m.state = .ready ∧ m.ctxStride ≠ 1 ∧ m.numIndex ≠ 0
  | _ => False

/-! ## What holds between two calls -/

/-- The submit of a request, and the distance between the contexts of neighbouring rows. -/
def SubmittedBy (cs : List Call) (m : OutstandingMeta) : Prop :=
  (m.ctxStride = 32 ∧ ∃ r, (submits cs)[m.ctxs.submission]? = some (.submitAsyncRegistered r)) ∨
    (m.ctxStride = 1 ∧
      ∃ r, (submits cs)[m.ctxs.submission]? = some (.submitAsyncRegisteredRowctx r))

/-- Each request stands beside its contexts, and has the `ctx_stride` of its submit. -/
structure LaidOut (cs : List Call) (s : Store) : Prop where
  queued : s.iostack.dWarpCtxsQueue = s.iostack.outstandingQueue.map (·.ctxs)
  submissions : s.submissions = (submits cs).length
  submitted : ∀ m ∈ s.iostack.outstandingQueue, SubmittedBy cs m

theorem new_laidOut : LaidOut [] .new where
  queued := rfl
  submissions := rfl
  submitted _ hm := absurd hm List.not_mem_nil

theorem SubmittedBy.append {cs : List Call} {m : OutstandingMeta} (h : SubmittedBy cs m)
    (ds : List Call) : SubmittedBy (cs ++ ds) m := by
  have hat : ∀ c, (submits cs)[m.ctxs.submission]? = some c →
      (submits (cs ++ ds))[m.ctxs.submission]? = some c := by
    intro c hc
    rw [submits, List.filter_append]
    exact (List.getElem?_append_left (List.getElem?_eq_some_iff.mp hc).1).trans hc
  rcases h with ⟨hs, r, hr⟩ | ⟨hs, r, hr⟩
  · exact .inl ⟨hs, r, hat _ hr⟩
  · exact .inr ⟨hs, r, hat _ hr⟩

/-- Calls that are no submits leave the numbering of submissions. -/
theorem submits_append_other {c : Call} (hc : c.isRegisteredSubmit = false) (cs : List Call) :
    submits (cs ++ [c]) = submits cs := by
  rw [submits, List.filter_append, List.filter_cons_of_neg (by rw [hc]; decide), List.filter_nil,
    List.append_nil, submits]

theorem LaidOut.append {cs : List Call} {s : Store} (h : LaidOut cs s) {c : Call}
    (hc : c.isRegisteredSubmit = false) : LaidOut (cs ++ [c]) s where
  queued := h.queued
  submissions := by rw [h.submissions, submits_append_other hc]
  submitted m hm := (h.submitted m hm).append [c]

/-- The states of requests do not matter. -/
theorem Still.laidOut {s s' : Store} (h : Still s s') {cs : List Call} (hl : LaidOut cs s) :
    LaidOut cs s' where
  queued := by
    rw [h.queued, hl.queued]
    exact (settled_map (·.ctxs) (fun _ _ => rfl) h.settled).symm
  submissions := by rw [h.submissions, hl.submissions]
  submitted := by
    intro m' hm'
    -- the request before the call differs only in its state
    have hmap := settled_map (fun m => (m.ctxs, m.ctxStride)) (fun _ _ => rfl) h.settled
    have hmem : (m'.ctxs, m'.ctxStride) ∈
        s.iostack.outstandingQueue.map fun m => (m.ctxs, m.ctxStride) := by
      rw [← hmap]
      exact List.mem_map_of_mem hm'
    obtain ⟨m, hm, heq⟩ := List.mem_map.mp hmem
    obtain ⟨hctxs, hstride⟩ := Prod.mk.inj heq
    have hsub := hl.submitted m hm
    rw [SubmittedBy, hctxs, hstride] at hsub
    exact hsub

/-- A registered submit adds its request and the contexts of it. -/
theorem submitRegistered_laidOut {cs : List Call} {s : Store} (hl : LaidOut cs s) {c : Call}
    (hc : c.isRegisteredSubmit = true) (r : Request) (totalCtxs ctxStride : Nat)
    (hlayout : (ctxStride = 32 ∧ c = .submitAsyncRegistered r) ∨
      (ctxStride = 1 ∧ c = .submitAsyncRegisteredRowctx r)) :
    LaidOut (cs ++ [c]) (submitRegistered s r totalCtxs ctxStride).1 := by
  have hsubmits : submits (cs ++ [c]) = submits cs ++ [c] := by
    rw [submits, List.filter_append, List.filter_cons_of_pos hc, List.filter_nil, submits]
  refine ⟨?_, ?_, ?_⟩
  · simp only [submitRegistered, IoStack.registerOutstanding, IoStack.pushCtxs, List.map_append,
      List.map_cons, List.map_nil, hl.queued]
  · show s.submissions + 1 = _
    rw [hsubmits, List.length_append, hl.submissions]
    rfl
  · intro m hm
    rcases List.mem_append.mp hm with hm | hm
    · exact (hl.submitted m hm).append [c]
    · rw [List.mem_singleton.mp hm]
      have hlast : (submits (cs ++ [c]))[s.submissions]? = some c := by
        rw [hsubmits, hl.submissions, List.getElem?_concat_length]
      rcases hlayout with ⟨hs, rfl⟩ | ⟨hs, rfl⟩
      · exact .inl ⟨hs, r, hlast⟩
      · exact .inr ⟨hs, r, hlast⟩

/-- A get removes the front request and its contexts, or changes nothing. -/
theorem getRegistered_laidOut {cs : List Call} {s : Store} (hl : LaidOut cs s) {c : Call}
    (hc : c.isRegisteredSubmit = false) :
    LaidOut (cs ++ [c]) (readFeatureGetFeatureLightRegistered s).1 := by
  cases hq : s.iostack.outstandingQueue with
  | nil =>
    have hsame : (readFeatureGetFeatureLightRegistered s).1 = s := by
      rw [readFeatureGetFeatureLightRegistered, IoStack.frontOutstanding, hq]
      rfl
    rw [hsame]
    exact hl.append hc
  | cons m rest =>
    by_cases hst : m.state = .ready
    · obtain ⟨h1, h2, -⟩ := getRegistered_ready hl.queued hq hst
      refine ⟨by rw [h1, h2], ?_, fun m' hm' => ?_⟩
      · rw [submits_append_other hc, ← hl.submissions, readFeatureGetFeatureLightRegistered]
        split
        · rfl
        split
        · rfl
        dsimp only
        split <;> rfl
      · rw [h1] at hm'
        exact (hl.submitted m' (by rw [hq]; exact List.mem_cons_of_mem _ hm')).append [c]
    · have hsame : (readFeatureGetFeatureLightRegistered s).1 = s := by
        rw [readFeatureGetFeatureLightRegistered, IoStack.frontOutstanding, hq]
        dsimp only [List.head?_cons]
        rw [if_pos hst]
      rw [hsame]
      exact hl.append hc

theorem call_laidOut {cs : List Call} {s : Store} (hl : LaidOut cs s) {c : Call}
    (hc : c.isRegistered = true) : LaidOut (cs ++ [c]) (call s c).1 := by
  cases c with
  | submitAsync r => cases hc
  | submitAsyncRegistered r => exact submitRegistered_laidOut hl rfl r _ _ (.inl ⟨rfl, rfl⟩)
  | submitAsyncRegisteredRowctx r => exact submitRegistered_laidOut hl rfl r _ _ (.inr ⟨rfl, rfl⟩)
  | waitAsync => cases hc
  | singlePageSingleThreadPoll n inRange => cases hc
  | getFeatureLight => cases hc
  | poll inRange => exact ((serviceRegisteredPoll_still s inRange).laidOut hl).append rfl
  | pollCompatible inRange =>
    exact ((serviceRegisteredPollCompatible_still s inRange).laidOut hl).append rfl
  | tryPoll k => exact ((serviceRegisteredTryPoll_still s k).laidOut hl).append rfl
  | tryPollWindowSkipFront k w => exact ((serviceWindowSkipFront_still s k w).laidOut hl).append rfl
  | getFeatureLightRegistered => exact getRegistered_laidOut hl rfl
  | getFeatureLightRegisteredRowctx => exact getRegistered_laidOut hl rfl

/-- Every run of registered calls, by induction from its last call. -/
theorem run_laidOut (cs : List Call) (h : ∀ c ∈ cs, c.isRegistered = true) :
    LaidOut cs (run .new cs) := by
  induction cs using List.reverseRecOn with
  | nil => exact new_laidOut
  | append_singleton cs c ih =>
    rw [run_append]
    exact call_laidOut (ih fun d hd => h d (List.mem_append_left _ hd))
      (h c (List.mem_append_right _ List.mem_cons_self))

/-! ## Accesses that follow -/

variable {cs : List Call} {s : Store}

/-- A kernel on the contexts of the request at `offset` that uses the request's own
    `ctx_stride`. -/
theorem LaidOut.follows (hl : LaidOut cs s) {a : Access} {m : OutstandingMeta}
    (hat : s.iostack.outstandingAt a.offset = some m) (hctxs : a.ctxs = m.ctxs)
    (hstride : a.stride = m.ctxStride) (hchunk : m.ctxStride = 1 → a.chunk = 0) :
    a.Follows cs s := by
  have hmem : m ∈ s.iostack.outstandingQueue := List.mem_of_getElem? hat
  rcases hl.submitted m hmem with ⟨h32, r, hr⟩ | ⟨h1, r, hr⟩
  · refine ⟨m, _, hat, hr, hctxs, hstride, ?_⟩
    rw [Access.index, hstride, h32]
    rfl
  · refine ⟨m, _, hat, hr, hctxs, hstride, ?_⟩
    rw [Access.index, hstride, h1, hchunk h1, Nat.mul_one]
    rfl

/-- Being followed does not depend on the states of requests. -/
theorem Still.follows {s' : Store} (h : Still s s') {a : Access} (hf : a.Follows cs s') :
    a.Follows cs s := by
  obtain ⟨m', c, hat', hc, hctxs, hstride, hindex⟩ := hf
  have hmap := settled_map (fun m => (m.ctxs, m.ctxStride)) (fun _ _ => rfl) h.settled
  have hsome := congrArg (fun l => l[a.offset]?) hmap
  simp only [List.getElem?_map, show s'.iostack.outstandingQueue[a.offset]? = some m' from hat',
    Option.map_some] at hsome
  obtain ⟨m, hm, heq⟩ := Option.map_eq_some_iff.mp hsome.symm
  obtain ⟨h1, h2⟩ := Prod.mk.inj heq
  exact ⟨m, c, hm, by rw [h1]; exact hc, hctxs.trans h1.symm, hstride.trans h2.symm, hindex⟩

theorem LaidOut.ctxsAt (hl : LaidOut cs s) {offset : Nat} {m : OutstandingMeta}
    (hat : s.iostack.outstandingAt offset = some m) : s.iostack.ctxsAt offset = some m.ctxs := by
  rw [IoStack.ctxsAt, hl.queued, List.getElem?_map,
    show s.iostack.outstandingQueue[offset]? = some m from hat, Option.map_some]

theorem LaidOut.frontCtxs (hl : LaidOut cs s) {m : OutstandingMeta}
    (hm : s.iostack.frontOutstanding = some m) : s.iostack.frontCtxs.1 = some m.ctxs := by
  have hhead : s.iostack.dWarpCtxsQueue.head? = some m.ctxs := by
    rw [hl.queued, List.head?_map, show s.iostack.outstandingQueue.head? = some m from hm,
      Option.map_some]
  rw [IoStack.frontCtxs]
  cases hq : s.iostack.dWarpCtxsQueue with
  | nil => rw [hq] at hhead; cases hhead
  | cons c rest =>
    rw [hq] at hhead
    exact hhead

theorem frontOutstanding_at {m : OutstandingMeta} (hm : s.iostack.frontOutstanding = some m) :
    s.iostack.outstandingAt 0 = some m := by
  rw [IoStack.outstandingAt, ← List.head?_eq_getElem?]
  exact hm

theorem mem_rowAccesses {offset : Nat} {ctxs : Ctxs} {numIndex stride : Nat} {a : Access} :
    a ∈ rowAccesses offset (some ctxs) numIndex stride ↔
      a.row < numIndex ∧ a = { offset, ctxs, stride, row := a.row, chunk := 0 } := by
  rw [rowAccesses, List.mem_map]
  constructor
  · rintro ⟨row, hrow, rfl⟩
    exact ⟨List.mem_range.mp hrow, rfl⟩
  · rintro ⟨hrow, ha⟩
    exact ⟨a.row, List.mem_range.mpr hrow, ha.symm⟩

theorem mem_chunkAccesses {offset : Nat} {ctxs : Ctxs} {numIndex : Nat} {dim : Int} {a : Access} :
    a ∈ chunkAccesses offset (some ctxs) numIndex dim ↔
      a.row < numIndex ∧ a.chunk < rowChunks dim ∧
        a = { offset, ctxs, stride := 32, row := a.row, chunk := a.chunk } := by
  rw [chunkAccesses, List.mem_flatMap]
  constructor
  · rintro ⟨row, hrow, ha⟩
    obtain ⟨chunk, hchunk, rfl⟩ := List.mem_map.mp ha
    exact ⟨List.mem_range.mp hrow, List.mem_range.mp hchunk, rfl⟩
  · rintro ⟨hrow, hchunk, ha⟩
    exact ⟨a.row, List.mem_range.mpr hrow,
      List.mem_map.mpr ⟨a.chunk, List.mem_range.mpr hchunk, ha.symm⟩⟩

/-- A kernel with one thread a row on the contexts of the request at `offset` follows the
    request exactly if it has no rows or is written for the request's stride. -/
theorem LaidOut.rowAccesses_follow_iff (hl : LaidOut cs s) {offset : Nat} {m : OutstandingMeta}
    (hat : s.iostack.outstandingAt offset = some m) (stride : Nat) :
    (∀ a ∈ rowAccesses offset (some m.ctxs) m.numIndex stride, a.Follows cs s) ↔
      m.numIndex = 0 ∨ stride = m.ctxStride := by
  constructor
  · intro hall
    rcases Nat.eq_zero_or_pos m.numIndex with h0 | hpos
    · exact .inl h0
    obtain ⟨m', -, hat', -, -, hstride, -⟩ := hall
      { offset, ctxs := m.ctxs, stride, row := 0, chunk := 0 } (mem_rowAccesses.mpr ⟨hpos, rfl⟩)
    rw [hat] at hat'
    cases hat'
    exact .inr hstride
  · intro h a ha
    obtain ⟨hrow, heq⟩ := mem_rowAccesses.mp ha
    rcases h with h0 | hstride
    · omega
    · rw [heq]
      exact hl.follows hat rfl hstride fun _ => rfl

/-- The same for the kernel that goes through the chunks of a row. -/
theorem LaidOut.chunkAccesses_follow_iff (hl : LaidOut cs s) {offset : Nat} {m : OutstandingMeta}
    (hat : s.iostack.outstandingAt offset = some m) :
    (∀ a ∈ chunkAccesses offset (some m.ctxs) m.numIndex m.dim, a.Follows cs s) ↔
      m.numIndex = 0 ∨ rowChunks m.dim = 0 ∨ m.ctxStride = 32 := by
  constructor
  · intro hall
    rcases Nat.eq_zero_or_pos m.numIndex with h0 | hpos
    · exact .inl h0
    rcases Nat.eq_zero_or_pos (rowChunks m.dim) with h0 | hchunks
    · exact .inr (.inl h0)
    obtain ⟨m', -, hat', -, -, hstride, -⟩ := hall
      { offset, ctxs := m.ctxs, stride := 32, row := 0, chunk := 0 }
      (mem_chunkAccesses.mpr ⟨hpos, hchunks, rfl⟩)
    rw [hat] at hat'
    cases hat'
    exact .inr (.inr hstride.symm)
  · intro h a ha
    obtain ⟨hrow, hchunk, heq⟩ := mem_chunkAccesses.mp ha
    rcases h with h0 | h0 | hstride
    · omega
    · omega
    · rw [heq]
      refine hl.follows hat rfl hstride.symm fun h1 => ?_
      rw [hstride] at h1
      cases h1

/-- The ready check indexes with the `ctx_stride` of the request it checks. -/
theorem LaidOut.readyAccesses_follow (hl : LaidOut cs s) (offset : Nat) :
    ∀ a ∈ readyAccesses s offset, a.Follows cs s := by
  rw [readyAccesses]
  split
  · exact fun a ha => absurd ha List.not_mem_nil
  rename_i m hm
  split
  · exact fun a ha => absurd ha List.not_mem_nil
  rw [hl.ctxsAt hm]
  dsimp only
  split
  · exact fun a ha => absurd ha List.not_mem_nil
  · exact (hl.rowAccesses_follow_iff hm m.ctxStride).mpr (.inr rfl)

/-- The window loop, by induction on the offsets that remain. -/
theorem windowAccesses_follow (k : Kernels) (count : Nat) :
    ∀ (s : Store) (offset : Nat), LaidOut cs s →
      ∀ a ∈ windowAccesses s k offset count, a.Follows cs s := by
  induction count with
  | zero => exact fun s _ _ a ha => absurd ha List.not_mem_nil
  | succ count ih =>
    intro s offset hl a ha
    rw [windowAccesses] at ha
    split at ha
    · exact absurd ha List.not_mem_nil
    split at ha
    · exact ih s _ hl a ha
    rw [List.mem_append] at ha
    rcases ha with ha | ha
    · exact hl.readyAccesses_follow offset a ha
    have hs := (requestReadyAt_same s k offset).still
    split at ha
    · rename_i t ht
      rw [ht] at hs
      exact hs.follows (ih t _ (hs.laidOut hl) a ha)
    · rename_i t ht
      rw [ht] at hs
      split at ha
      · rename_i hm
        have hmarked := hs.trans (mark_still hm)
        exact hmarked.follows (ih _ _ (hmarked.laidOut hl) a ha)
      · exact absurd ha List.not_mem_nil

/-! ## Each call -/

/-- A poll of the front request with a fixed stride does not throw. -/
theorem poll_ok (s : Store) (inRange : Nat → Bool) :
    ∃ r, (serviceRegisteredPoll s inRange).2 = .ok r := by
  rw [serviceRegisteredPoll]
  split
  · exact ⟨_, rfl⟩
  rename_i m hm
  split
  · exact ⟨_, rfl⟩
  dsimp only
  have hat : (pollRows { s with iostack := s.iostack.frontCtxs.2 } inRange s.iostack.frontCtxs.1
      m.numIndex 32).iostack.outstandingAt 0 = some m := by
    rw [(pollRows_same _ _ _ _ _).1]
    show s.iostack.frontCtxs.2.outstandingQueue[0]? = some m
    rw [(frontCtxs_queue s.iostack).2.2.1]
    exact frontOutstanding_at hm
  rw [IoStack.markFrontReady, markReadyAt_self hat]
  exact ⟨_, rfl⟩

theorem tryPoll_ok (s : Store) (k : Kernels) : ∃ r, (serviceRegisteredTryPoll s k).2 = .ok r := by
  rw [serviceRegisteredTryPoll]
  split
  · exact ⟨_, rfl⟩
  rename_i m hm
  split
  · exact ⟨_, rfl⟩
  dsimp only
  have hsame := requestReadyAt_same (serviceBurst s k) k 0
  split
  · rename_i t ht
    rw [ht] at hsame
    have hat : t.iostack.outstandingAt 0 = some m := by
      rw [hsame.1, (serviceBurst_same s k).1]
      exact frontOutstanding_at hm
    rw [IoStack.markFrontReady, markReadyAt_self hat]
    exact ⟨_, rfl⟩
  · exact ⟨_, rfl⟩

theorem windowSkipFront_ok (hl : LaidOut cs s) (k : Kernels) (windowSize : Nat) :
    ∃ r, (serviceRegisteredTryPollWindowSkipFront s k windowSize).2 = .ok r := by
  rw [serviceRegisteredTryPollWindowSkipFront]
  split
  · exact ⟨_, rfl⟩
  · exact (window_serves (P := True) k _ _ 1 (by rw [(serviceBurst_same s k).1]; exact hl.queued)).2

/-- The blocking poll is written for 32 contexts a row. -/
theorem poll_follows_iff (hl : LaidOut cs s) (inRange : Nat → Bool) :
    (∀ a ∈ pollAccesses s, a.Follows cs s) ↔ ¬ MixesLayouts s (.poll inRange) := by
  rw [pollAccesses, MixesLayouts]
  split
  · rename_i hnone
    refine ⟨?_, fun _ a ha => absurd ha List.not_mem_nil⟩
    rintro - ⟨m, hm, -⟩
    rw [hnone] at hm
    cases hm
  rename_i m hm
  split
  · rename_i hst
    refine ⟨?_, fun _ a ha => absurd ha List.not_mem_nil⟩
    rintro - ⟨m', hm', hst', -⟩
    obtain rfl := Option.some.inj (hm.symm.trans hm')
    exact hst' hst
  rename_i hst
  rw [hl.frontCtxs hm, hl.rowAccesses_follow_iff (frontOutstanding_at hm)]
  constructor
  · rintro h ⟨m', hm', -, hstride, hnum⟩
    obtain rfl := Option.some.inj (hm.symm.trans hm')
    rcases h with h | h
    · exact hnum h
    · exact hstride h.symm
  · intro h
    by_contra hne
    exact h ⟨m, hm, hst, fun h32 => hne (.inr h32.symm), fun h0 => hne (.inl h0)⟩

/-- The poll that looks at the `ctx_stride` of the front request. -/
theorem pollCompatible_follows (hl : LaidOut cs s) :
    ∀ a ∈ pollCompatibleAccesses s, a.Follows cs s := by
  rw [pollCompatibleAccesses]
  split
  · exact fun a ha => absurd ha List.not_mem_nil
  rename_i m hm
  split
  · exact fun a ha => absurd ha List.not_mem_nil
  split
  · rename_i hstride
    apply (poll_follows_iff hl fun _ => true).mpr
    rintro ⟨m', hm', -, hstride', -⟩
    obtain rfl := Option.some.inj (hm.symm.trans hm')
    have hmem : m ∈ s.iostack.outstandingQueue := List.mem_of_getElem? (frontOutstanding_at hm)
    rcases hl.submitted m hmem with h | h
    · exact hstride' h.1
    · exact hstride h.1
  rename_i hstride
  split
  · exact fun a ha => absurd ha List.not_mem_nil
  · rw [hl.frontCtxs hm]
    exact (hl.rowAccesses_follow_iff (frontOutstanding_at hm) 1).mpr
      (.inr (not_not.mp hstride).symm)

/-- It throws where the contexts of the front request are `nullptr`, before its kernel. -/
theorem pollCompatible_throws {inRange : Nat → Bool} {e : String}
    (h : (serviceRegisteredPollCompatible s inRange).2 = .error e) :
    pollCompatibleAccesses s = [] ∧
      SameQueues s.iostack (serviceRegisteredPollCompatible s inRange).1.iostack ∧
      (serviceRegisteredPollCompatible s inRange).1.complete = s.complete := by
  rw [serviceRegisteredPollCompatible] at h ⊢
  rw [pollCompatibleAccesses]
  cases hm : s.iostack.frontOutstanding with
  | none => rw [hm] at h; cases h
  | some m =>
    rw [hm] at h
    dsimp only at h ⊢
    by_cases hst : m.state = .ready
    · rw [if_pos hst] at h
      cases h
    rw [if_neg hst] at h
    rw [if_neg hst, if_neg hst]
    by_cases hstride : m.ctxStride ≠ 1
    · rw [if_pos hstride] at h
      obtain ⟨r, hr⟩ := poll_ok s inRange
      rw [hr] at h
      cases h
    rw [if_neg hstride] at h
    rw [if_neg hstride, if_neg hstride]
    by_cases hnull : (s.iostack.frontCtxs.1.bind (·.addr)).isNone = true
    · rw [if_pos hnull, if_pos hnull]
      refine ⟨rfl, ?_, rfl⟩
      obtain ⟨h1, h2, h3, h4, h5⟩ := frontCtxs_queue s.iostack
      show s.iostack.frontCtxs.2 = _
      rw [IoStack.frontCtxs]
      split <;> rfl
    rw [if_neg hnull] at h
    have hat : (pollRows { s with iostack := s.iostack.frontCtxs.2 } inRange s.iostack.frontCtxs.1
        m.numIndex 1).iostack.outstandingAt 0 = some m := by
      rw [(pollRows_same _ _ _ _ _).1]
      show s.iostack.frontCtxs.2.outstandingQueue[0]? = some m
      rw [(frontCtxs_queue s.iostack).2.2.1]
      exact frontOutstanding_at hm
    rw [IoStack.markFrontReady, markReadyAt_self hat] at h
    cases h

theorem taken_some {m : OutstandingMeta} :
    s.taken = some m ↔ s.iostack.frontOutstanding = some m ∧ m.state = .ready := by
  rw [Store.taken, Option.filter_eq_some_iff, decide_eq_true_eq]

/-- A get that throws has changed nothing; one that does not consumes the front request. -/
theorem getRegistered_cases (hl : LaidOut cs s) :
    (s.taken = none ∧ (readFeatureGetFeatureLightRegistered s).1 = s ∧
      ∃ e, (readFeatureGetFeatureLightRegistered s).2 = .error e) ∨
    ∃ m, s.taken = some m ∧ ∃ r, (readFeatureGetFeatureLightRegistered s).2 = .ok r := by
  cases hq : s.iostack.outstandingQueue with
  | nil =>
    have hfront : s.iostack.frontOutstanding = none := by
      rw [IoStack.frontOutstanding, hq, List.head?_nil]
    refine .inl ⟨by rw [Store.taken, hfront, Option.filter_none], ?_⟩
    rw [readFeatureGetFeatureLightRegistered, hfront]
    exact ⟨rfl, _, rfl⟩
  | cons m rest =>
    have hfront : s.iostack.frontOutstanding = some m := by
      rw [IoStack.frontOutstanding, hq, List.head?_cons]
    by_cases hst : m.state = .ready
    · exact .inr ⟨m, taken_some.mpr ⟨hfront, hst⟩, _,
        (getRegistered_ready hl.queued hq hst).2.2.2.2.2.2⟩
    · refine .inl ⟨?_, ?_⟩
      · rw [Store.taken, hfront, Option.filter_some, if_neg (by rw [decide_eq_true_eq]; exact hst)]
      · rw [readFeatureGetFeatureLightRegistered, hfront]
        dsimp only
        rw [if_pos hst]
        exact ⟨rfl, _, rfl⟩

/-- The two gets: `accesses m` are those of the kernel for the front request `m`. -/
theorem getRegistered_follows_iff (hl : LaidOut cs s) {c : Call}
    (hcall : call s c = readFeatureGetFeatureLightRegistered s)
    {accesses : OutstandingMeta → List Access}
    (haccesses : c.accesses s = match s.taken with | none => [] | some m => accesses m) :
    FollowsLayout cs s c ↔ ∀ m, s.taken = some m → ∀ a ∈ accesses m, a.Follows cs s := by
  rw [FollowsLayout, hcall, haccesses]
  rcases getRegistered_cases hl with ⟨hnone, hsame, e, he⟩ | ⟨m, hm, r, hr⟩
  · rw [he, hnone, hsame]
    refine ⟨fun _ m hm => ?_, fun _ => ⟨rfl, rfl, rfl⟩⟩
    cases hm
  · rw [hr, hm]
    refine ⟨fun h m' hm' => ?_, fun h => h m rfl⟩
    cases hm'
    exact h

/-- A registered call follows the layout of the requests exactly if it does not mix the two
    layouts. -/
theorem call_follows_iff (hl : LaidOut cs s) {c : Call} (hc : c.isRegistered = true) :
    FollowsLayout cs s c ↔ ¬ MixesLayouts s c := by
  cases c with
  | submitAsync r => cases hc
  | submitAsyncRegistered r =>
    exact iff_of_true (fun a ha => absurd ha List.not_mem_nil) not_false
  | submitAsyncRegisteredRowctx r =>
    exact iff_of_true (fun a ha => absurd ha List.not_mem_nil) not_false
  | waitAsync => cases hc
  | singlePageSingleThreadPoll n inRange => cases hc
  | getFeatureLight => cases hc
  | poll inRange =>
    obtain ⟨r, hr⟩ := poll_ok s inRange
    rw [FollowsLayout, call, hr]
    exact poll_follows_iff hl inRange
  | pollCompatible inRange =>
    refine iff_of_true ?_ not_false
    rw [FollowsLayout, call]
    cases hr : (serviceRegisteredPollCompatible s inRange).2 with
    | ok r => exact pollCompatible_follows hl
    | error e => exact pollCompatible_throws hr
  | tryPoll k =>
    obtain ⟨r, hr⟩ := tryPoll_ok s k
    refine iff_of_true ?_ not_false
    rw [FollowsLayout, call, hr]
    show ∀ a ∈ tryPollAccesses s k, _
    rw [tryPollAccesses]
    split
    · exact fun a ha => absurd ha List.not_mem_nil
    split
    · exact fun a ha => absurd ha List.not_mem_nil
    have hburst := (serviceBurst_same s k).still
    exact fun a ha => hburst.follows ((hburst.laidOut hl).readyAccesses_follow 0 a ha)
  | tryPollWindowSkipFront k w =>
    obtain ⟨r, hr⟩ := windowSkipFront_ok hl k w
    refine iff_of_true ?_ not_false
    rw [FollowsLayout, call, hr]
    show ∀ a ∈ windowSkipFrontAccesses s k w, _
    rw [windowSkipFrontAccesses]
    split
    · exact fun a ha => absurd ha List.not_mem_nil
    have hburst := (serviceBurst_same s k).still
    exact fun a ha => hburst.follows (windowAccesses_follow k _ _ _ (hburst.laidOut hl) a ha)
  | getFeatureLightRegistered =>
    rw [getRegistered_follows_iff hl rfl rfl]
    constructor
    · rintro h ⟨m, hm, hst, hstride, hnum, hchunks⟩
      have hall := h m (taken_some.mpr ⟨hm, hst⟩)
      rw [hl.frontCtxs hm, hl.chunkAccesses_follow_iff (frontOutstanding_at hm)] at hall
      rcases hall with h0 | h0 | h32
      · exact hnum h0
      · exact hchunks h0
      · exact hstride h32
    · intro h m htaken
      obtain ⟨hm, hst⟩ := taken_some.mp htaken
      rw [hl.frontCtxs hm, hl.chunkAccesses_follow_iff (frontOutstanding_at hm)]
      by_contra hne
      exact h ⟨m, hm, hst, fun h32 => hne (.inr (.inr h32)), fun h0 => hne (.inl h0),
        fun h0 => hne (.inr (.inl h0))⟩
  | getFeatureLightRegisteredRowctx =>
    rw [getRegistered_follows_iff hl rfl rfl]
    constructor
    · rintro h ⟨m, hm, hst, hstride, hnum⟩
      have hall := h m (taken_some.mpr ⟨hm, hst⟩)
      rw [hl.frontCtxs hm, hl.rowAccesses_follow_iff (frontOutstanding_at hm)] at hall
      rcases hall with h0 | h1
      · exact hnum h0
      · exact hstride h1.symm
    · intro h m htaken
      obtain ⟨hm, hst⟩ := taken_some.mp htaken
      rw [hl.frontCtxs hm, hl.rowAccesses_follow_iff (frontOutstanding_at hm)]
      by_contra hne
      exact h ⟨m, hm, hst, fun h1 => hne (.inr h1.symm), fun h0 => hne (.inl h0)⟩

/-! ## Every run -/

/-- Every call of a run of registered calls follows the layout of its requests exactly if none
    of them mixes the two layouts. -/
theorem layouts_followed_iff (cs : List Call) (h : ∀ c ∈ cs, c.isRegistered = true) :
    (∀ n c, cs[n]? = some c → FollowsLayout (cs.take n) (run .new (cs.take n)) c) ↔
      ∀ n c, cs[n]? = some c → ¬ MixesLayouts (run .new (cs.take n)) c := by
  refine forall_congr' fun n => forall_congr' fun c => imp_congr_right fun hc => ?_
  exact call_follows_iff (run_laidOut _ fun d hd => h d (List.mem_of_mem_take hd))
    (h c (List.mem_of_getElem? hc))

/-- One request of each kind, each polled and taken by the calls for its kind. -/
theorem eachOwnCalls_followed :
    let cs := [Call.submitAsyncRegisteredRowctx (requestFor 2 8192 (by decide)),
      .pollCompatible fun _ => true, .getFeatureLightRegisteredRowctx,
      .submitAsyncRegistered (requestFor 2 12288 (by decide)), .poll fun _ => true,
      .getFeatureLightRegistered]
    ∀ n c, cs[n]? = some c → FollowsLayout (cs.take n) (run .new (cs.take n)) c := by
  intro cs
  apply (layouts_followed_iff cs (by decide)).mpr
  intro n c hc
  match n with
  | 0 => cases hc; exact not_false
  | 1 => cases hc; exact not_false
  | 2 =>
    cases hc
    rintro ⟨m, hm, -, hstride, -⟩
    cases hm
    exact hstride rfl
  | 3 => cases hc; exact not_false
  | 4 =>
    cases hc
    rintro ⟨m, hm, -, hstride, -⟩
    cases hm
    exact hstride rfl
  | 5 =>
    cases hc
    rintro ⟨m, hm, -, hstride, -⟩
    cases hm
    exact hstride rfl
  | n + 6 => cases hc

/-- `service_registered_poll` after a submit of two rows with one context each indexes context
    32 for row 1. -/
theorem rowctx_then_poll_not_followed :
    ¬ ∀ cs : List Call, (∀ c ∈ cs, c.isRegistered = true) → ∀ n c, cs[n]? = some c →
      FollowsLayout (cs.take n) (run .new (cs.take n)) c := by
  intro hall
  have hreg : ∀ c ∈ [Call.submitAsyncRegisteredRowctx (requestFor 2 8192 (by decide)),
      .poll fun _ => true], c.isRegistered = true := by decide
  have hpoll := hall _ hreg 1 (.poll fun _ => true) rfl
  rw [call_follows_iff (run_laidOut _ (by decide)) rfl] at hpoll
  exact hpoll ⟨_, rfl, by decide, by decide, by decide⟩

end GidsStack.Requests
