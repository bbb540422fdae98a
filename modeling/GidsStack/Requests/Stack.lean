/-
  GidsStack.Requests.Stack

  `BaM_IOStack` (bam_iostack.cuh): the deques in which a feature store keeps the
  contexts of its submissions, their numbers, and the requests of those that are
  registered.  A plain submission is pushed on two deques, a registered one on
  all three, and `pop_ctxs` takes from all of them.
-/

import Mathlib.Data.List.Lookmap
import Mathlib.Data.List.Basic

namespace GidsStack.Requests

/-! ## Data -/

/-- `request_state_t`. -/
inductive RequestState
  | submitted
  | ready
  | consumed
  deriving DecidableEq, Repr

/-- The contexts of a submission: the device pointer, `none` for `nullptr`.
    `submission` only tells submissions apart, also those whose contexts got the
    same address; no code reads it. -/
structure Ctxs where
  addr : Option Nat
  submission : Nat
  deriving DecidableEq, Repr

/-- `outstanding_meta_t`. -/
structure OutstandingMeta where
  requestId : Nat
  indexPtr : Nat
  numIndex : Nat
  dim : Int
  cacheDim : Int
  keyOff : Nat
  ctxs : Ctxs
  ctxCount : Nat
  ctxStride : Nat
  state : RequestState
  deriving DecidableEq, Repr

/-- `BaM_IOStack`.  Request ids are `uint64_t`, which no run exhausts. -/
structure IoStack where
  dWarpCtxs : Option Nat
  dWarpCtxsQueue : List Ctxs
  dWarpCtxsCountQueue : List Nat
  outstandingQueue : List OutstandingMeta
  nextRequestId : Nat
  lastConsumedRequestId : Nat
  deriving DecidableEq, Repr

/-- A new stack. -/
def IoStack.new : IoStack where
  dWarpCtxs := none
  dWarpCtxsQueue := []
  dWarpCtxsCountQueue := []
  outstandingQueue := []
  nextRequestId := 1
  lastConsumedRequestId := 0

namespace IoStack

/-! ## Submissions -/

/-- `push_ctxs`. -/
def pushCtxs (s : IoStack) (ctxs : Ctxs) (ctxCount : Nat) : IoStack :=
  { s with
    dWarpCtxsQueue := s.dWarpCtxsQueue ++ [ctxs]
    dWarpCtxsCountQueue := s.dWarpCtxsCountQueue ++ [ctxCount]
    dWarpCtxs := if s.dWarpCtxs.isNone then ctxs.addr else s.dWarpCtxs }

/-- `register_outstanding`: the id of the new request and the stack. -/
def registerOutstanding (s : IoStack) (ctxs : Ctxs) (ctxCount indexPtr numIndex : Nat)
    (dim cacheDim : Int) (keyOff ctxStride : Nat) : Nat × IoStack :=
  let s := s.pushCtxs ctxs ctxCount
  let outstanding : OutstandingMeta :=
    { requestId := s.nextRequestId, indexPtr, numIndex, dim, cacheDim, keyOff, ctxs, ctxCount,
      ctxStride, state := .submitted }
  (s.nextRequestId,
    { s with
      nextRequestId := s.nextRequestId + 1
      outstandingQueue := s.outstandingQueue ++ [outstanding] })

/-! ## What the stack shows -/

/-- `front_ctxs`: also refreshes the cached pointer `d_warp_ctxs`. -/
def frontCtxs (s : IoStack) : Option Ctxs × IoStack :=
  match s.dWarpCtxsQueue with
  | [] => (none, { s with dWarpCtxs := none })
  | ctxs :: _ => (some ctxs, { s with dWarpCtxs := ctxs.addr })

/-- `front_outstanding`. -/
def frontOutstanding (s : IoStack) : Option OutstandingMeta := s.outstandingQueue.head?

/-- `outstanding_at`. -/
def outstandingAt (s : IoStack) (offset : Nat) : Option OutstandingMeta :=
  s.outstandingQueue[offset]?

/-- `ctxs_at`. -/
def ctxsAt (s : IoStack) (offset : Nat) : Option Ctxs := s.dWarpCtxsQueue[offset]?

/-- `outstanding_count`. -/
def outstandingCount (s : IoStack) : Nat := s.outstandingQueue.length

/-- `front_ready_request_id`. -/
def frontReadyRequestId (s : IoStack) : Nat :=
  match s.frontOutstanding with
  | none => 0
  | some m => if m.state = .ready then m.requestId else 0

/-! ## Moving requests on -/

/-- The request at `offset` gets a new state. -/
def setStateAt (s : IoStack) (offset : Nat) (st : RequestState) : IoStack :=
  { s with outstandingQueue := s.outstandingQueue.modify offset ({ · with state := st }) }

/-- `mark_ready_at`, whose test of the request id id 0 passes. -/
def markReadyAt (s : IoStack) (offset requestId : Nat) : Bool × IoStack :=
  match s.outstandingAt offset with
  | none => (false, s)
  | some m =>
    if requestId ≠ 0 ∧ m.requestId ≠ requestId then (false, s)
    else (true, s.setStateAt offset .ready)

/-- `mark_front_ready`. -/
def markFrontReady (s : IoStack) (requestId : Nat) : Bool × IoStack := s.markReadyAt 0 requestId

/-- `mark_front_consumed`. -/
def markFrontConsumed (s : IoStack) (requestId : Nat) : Bool × IoStack :=
  match s.frontOutstanding with
  | none => (false, s)
  | some m =>
    if requestId ≠ 0 ∧ m.requestId ≠ requestId then (false, s)
    else (true, { s.setStateAt 0 .consumed with lastConsumedRequestId := m.requestId })

/-- `pop_ctxs`. -/
def popCtxs (s : IoStack) : IoStack :=
  match s.dWarpCtxsQueue with
  | [] => { s with dWarpCtxs := none }
  | _ :: rest =>
    { s with
      dWarpCtxsQueue := rest
      dWarpCtxsCountQueue := s.dWarpCtxsCountQueue.tail
      outstandingQueue := s.outstandingQueue.tail
      dWarpCtxs := rest.head?.bind (·.addr) }

/-! ## Contexts and requests of the same submission -/

/-- Whatever `outstanding_at` and `ctxs_at` return for the same offset belongs to the
    same submission, and so do the two halves `pop_ctxs` removes. -/
structure Aligned (s : IoStack) : Prop where
  same : ∀ k m, s.outstandingAt k = some m →
    ∃ ctxs, s.ctxsAt k = some ctxs ∧ ctxs.submission = m.ctxs.submission
  popped : ∀ m, s.frontOutstanding = some m →
    ∃ ctxs, s.dWarpCtxsQueue.head? = some ctxs ∧ ctxs.submission = m.ctxs.submission

/-- The submissions of the requests are a prefix of those of the contexts. -/
theorem aligned_iff_prefix (s : IoStack) : s.Aligned ↔
    s.outstandingQueue.map (·.ctxs.submission) <+: s.dWarpCtxsQueue.map (·.submission) := by
  rw [List.prefix_iff_getElem?]
  constructor
  · intro h k hk
    rw [List.length_map] at hk
    obtain ⟨ctxs, hc, he⟩ := h.same k _ (List.getElem?_eq_getElem hk)
    rw [List.getElem?_map, show s.dWarpCtxsQueue[k]? = some ctxs from hc, List.getElem_map]
    exact congrArg some he
  · intro h
    have hsame : ∀ k m, s.outstandingAt k = some m →
        ∃ ctxs, s.ctxsAt k = some ctxs ∧ ctxs.submission = m.ctxs.submission := by
      intro k m hm
      obtain ⟨hk, rfl⟩ := List.getElem?_eq_some_iff.mp hm
      have hk' := h k (by rw [List.length_map]; exact hk)
      rw [List.getElem?_map, List.getElem_map, Option.map_eq_some_iff] at hk'
      exact hk'
    refine ⟨hsame, fun m hm => ?_⟩
    rw [frontOutstanding, List.head?_eq_getElem?] at hm
    rw [List.head?_eq_getElem?]
    exact hsame 0 m hm

end IoStack

end GidsStack.Requests
