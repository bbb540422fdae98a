/-
  GidsStack.Requests.Calls

  The exported calls of a feature store that submit, serve and get feature reads
  (gids_nvme.cu), as far as they touch its `BaM_IOStack`.  Of a context the model
  keeps whether it is complete: whether the page of its row has been found valid
  for it.  Which contexts the kernels of a call complete depends on what the
  controllers have posted, so it is an argument of the call.
-/

import GidsStack.Requests.Stack
import GidsStack.Lib.Transition

namespace GidsStack.Requests

/-! ## The state of a store -/

/-- The arguments of a submit, and the address `cudaMalloc` has for its contexts.
    The contexts of 2^32 rows fit in no device memory. -/
structure Request where
  indexPtr : Nat
  numIndex : Nat
  dim : Int
  cacheDim : Int
  keyOff : Nat
  addr : Nat
  numIndex_lt : numIndex < 2 ^ 32
  deriving DecidableEq

/-- The stack, and for each submission which of its contexts are complete.
    `submissions` counts the submits so far and `consumed` lists the requests that
    have been consumed; no code reads either. -/
structure Store where
  iostack : IoStack
  complete : Nat → Nat → Bool
  submissions : Nat
  consumed : List Nat

/-- A store whose controllers have been initialised. -/
def Store.new : Store where
  iostack := .new
  complete _ _ := false
  submissions := 0
  consumed := []

/-- The contexts, by submission and index, that the kernels of a call find complete:
    those of the CQ service rounds, and those the ready check refreshes. -/
structure Kernels where
  finalized : Nat → Nat → Bool
  refreshed : Nat → Nat → Bool

/-- What a call returns, or the message of the exception it throws. -/
abbrev Result := Except String Nat

/-! ## Submits -/

/-- The contexts of a new submission: `cudaMalloc` of nothing gives `nullptr`. -/
def Store.alloc (s : Store) (r : Request) (ctxCount : Nat) : Ctxs where
  addr := if ctxCount = 0 then none else some r.addr
  submission := s.submissions

/-- `blkSize` threads of 32 lanes: `total_warps`. -/
def totalWarps (numIndex : Nat) : Nat := (numIndex + 4 - 1) / 4 * 4

/-- `read_feature_submit_async`. -/
def readFeatureSubmitAsync (s : Store) (r : Request) : Store × Result :=
  let totalCtxs := totalWarps r.numIndex * 32
  ({ s with
      iostack := s.iostack.pushCtxs (s.alloc r totalCtxs) totalCtxs
      submissions := s.submissions + 1 }, .ok 0)

/-- The two registered submits, which differ in how many contexts they allocate and how far
    apart those of neighbouring rows are. -/
def submitRegistered (s : Store) (r : Request) (totalCtxs ctxStride : Nat) : Store × Result :=
  let (requestId, iostack) := s.iostack.registerOutstanding (s.alloc r totalCtxs) totalCtxs
    r.indexPtr r.numIndex r.dim r.cacheDim r.keyOff ctxStride
  ({ s with iostack, submissions := s.submissions + 1 }, .ok requestId)

/-- `read_feature_submit_async_registered`. -/
def readFeatureSubmitAsyncRegistered (s : Store) (r : Request) : Store × Result :=
  submitRegistered s r (totalWarps r.numIndex * 32) 32

/-- `read_feature_submit_async_registered_rowctx`. -/
def readFeatureSubmitAsyncRegisteredRowctx (s : Store) (r : Request) : Store × Result :=
  submitRegistered s r r.numIndex 1

/-! ## Kernels -/

/-- `service_registered_completions_burst`. -/
def serviceBurst (s : Store) (k : Kernels) : Store :=
  if s.iostack.outstandingCount = 0 then s
  else { s with complete := fun u i => s.complete u i || k.finalized u i }

/-- A blocking poll of `numIndex` rows, which returns when every row whose first element lies in
    the array has its page; `acquire_page_single_thread_poll` leaves the contexts of the others
    as they are. -/
def pollRows (s : Store) (inRange : Nat → Bool) (ctxs : Option Ctxs) (numIndex ctxStride : Nat) :
    Store :=
  match ctxs with
  | none => s
  | some c =>
    { s with
      complete := fun u i => s.complete u i || (u == c.submission &&
        (List.range numIndex).any fun row => inRange row && row * ctxStride == i) }

/-- `check_registered_request_ready_kernel`: refreshes the contexts of the rows and tells
    whether none is pending. -/
def checkReady (s : Store) (k : Kernels) (ctxs : Ctxs) (numIndex ctxStride : Nat) : Bool × Store :=
  let complete := fun u i => s.complete u i || (u == ctxs.submission && k.refreshed u i)
  ((List.range numIndex).all fun row => complete ctxs.submission (row * ctxStride),
    { s with complete })

/-- `registered_request_ready_at`. -/
def requestReadyAt (s : Store) (k : Kernels) (offset : Nat) : Bool × Store :=
  match s.iostack.outstandingAt offset with
  | none => (false, s)
  | some m =>
    if m.state = .ready then (true, s)
    else
      match s.iostack.ctxsAt offset with
      | none => (false, s)
      | some c =>
        if c.addr.isNone then (false, s) else checkReady s k c m.numIndex m.ctxStride

/-! ## Service calls -/

/-- `service_registered_poll`, with the rows that the kernel finds in the array. -/
def serviceRegisteredPoll (s : Store) (inRange : Nat → Bool) : Store × Result :=
  match s.iostack.frontOutstanding with
  | none => (s, .ok 0)
  | some m =>
    if m.state = .ready then (s, .ok m.requestId)
    else
      -- `read_feature_single_page_single_thread_poll_registered`, whose tests pass here
      let (ctxs, iostack) := s.iostack.frontCtxs
      let s := pollRows { s with iostack } inRange ctxs m.numIndex 32
      match s.iostack.markFrontReady m.requestId with
      | (true, iostack) => ({ s with iostack }, .ok m.requestId)
      | (false, _) => (s, .error "Failed to mark registered outstanding request as ready")

/-- `service_registered_poll_compatible`. -/
def serviceRegisteredPollCompatible (s : Store) (inRange : Nat → Bool) : Store × Result :=
  match s.iostack.frontOutstanding with
  | none => (s, .ok 0)
  | some m =>
    if m.state = .ready then (s, .ok m.requestId)
    else if m.ctxStride ≠ 1 then serviceRegisteredPoll s inRange
    else
      let (ctxs, iostack) := s.iostack.frontCtxs
      let s := { s with iostack }
      if (ctxs.bind (·.addr)).isNone then (s, .error "No registered rowctx request to poll")
      else
        let s := pollRows s inRange ctxs m.numIndex 1
        match s.iostack.markFrontReady m.requestId with
        | (true, iostack) => ({ s with iostack }, .ok m.requestId)
        | (false, _) => (s, .error "Failed to mark registered rowctx request as ready")

/-- `service_registered_try_poll`. -/
def serviceRegisteredTryPoll (s : Store) (k : Kernels) : Store × Result :=
  match s.iostack.frontOutstanding with
  | none => (s, .ok 0)
  | some m =>
    if m.state = .ready then (s, .ok m.requestId)
    else
      let s := serviceBurst s k
      match requestReadyAt s k 0 with
      | (true, s) =>
        match s.iostack.markFrontReady m.requestId with
        | (true, iostack) => ({ s with iostack }, .ok m.requestId)
        | (false, _) => (s, .error "Failed to mark registered outstanding request as ready")
      | (false, s) => (s, .ok s.iostack.frontReadyRequestId)

/-- The loop of `service_registered_try_poll_window_skip_front`, over `count` offsets from
    `offset` on. -/
def serviceWindow (s : Store) (k : Kernels) (offset : Nat) : Nat → Store × Result
  | 0 => (s, .ok s.iostack.frontReadyRequestId)
  | count + 1 =>
    match s.iostack.outstandingAt offset with
    | none => (s, .ok s.iostack.frontReadyRequestId)
    | some m =>
      if m.state ≠ .submitted then serviceWindow s k (offset + 1) count
      else
        match requestReadyAt s k offset with
        | (false, s) => serviceWindow s k (offset + 1) count
        | (true, s) =>
          match s.iostack.markReadyAt offset m.requestId with
          | (true, iostack) => serviceWindow { s with iostack } k (offset + 1) count
          | (false, _) =>
            (s, .error
              "Failed to mark registered outstanding request as ready in skip-front try window")

/-- `service_registered_try_poll_window_skip_front`. -/
def serviceRegisteredTryPollWindowSkipFront (s : Store) (k : Kernels) (windowSize : Nat) :
    Store × Result :=
  let total := s.iostack.outstandingCount
  if total ≤ 1 then (s, .ok s.iostack.frontReadyRequestId)
  else serviceWindow (serviceBurst s k) k 1 (min (max 1 windowSize) (total - 1))

/-! ## Polls and gets -/

/-- `read_feature_single_page_single_thread_poll`, with the caller's number of rows. -/
def readFeatureSinglePageSingleThreadPoll (s : Store) (numIndex : Nat) (inRange : Nat → Bool) :
    Store × Result :=
  let (ctxs, iostack) := s.iostack.frontCtxs
  (pollRows { s with iostack } inRange ctxs numIndex 32, .ok 0)

/-- `read_feature_wait_async` and `read_feature_get_feature_light`: both take the front
    contexts, free them and pop. -/
def takeFront (s : Store) : Store × Result :=
  ({ s with iostack := s.iostack.frontCtxs.2.popCtxs }, .ok 0)

/-- `read_feature_get_feature_light_registered` and its `_rowctx` variant, which launch
    different kernels. -/
def readFeatureGetFeatureLightRegistered (s : Store) : Store × Result :=
  match s.iostack.frontOutstanding with
  | none => (s, .error "No registered outstanding request to get")
  | some m =>
    if m.state ≠ .ready then (s, .error "Registered outstanding request is not ready for get")
    else
      let iostack := s.iostack.frontCtxs.2
      match iostack.markFrontConsumed m.requestId with
      | (true, iostack) =>
        ({ s with
            iostack := iostack.popCtxs
            consumed := s.consumed ++ [m.requestId] }, .ok m.requestId)
      | (false, _) =>
        ({ s with iostack }, .error "Failed to mark registered outstanding request as consumed")

/-! ## Runs -/

/-- An exported call. -/
inductive Call
  | submitAsync (r : Request)
  | submitAsyncRegistered (r : Request)
  | submitAsyncRegisteredRowctx (r : Request)
  | waitAsync
  | singlePageSingleThreadPoll (numIndex : Nat) (inRange : Nat → Bool)
  | getFeatureLight
  | poll (inRange : Nat → Bool)
  | pollCompatible (inRange : Nat → Bool)
  | tryPoll (k : Kernels)
  | tryPollWindowSkipFront (k : Kernels) (windowSize : Nat)
  | getFeatureLightRegistered
  | getFeatureLightRegisteredRowctx

def call (s : Store) : Call → Store × Result
  | .submitAsync r => readFeatureSubmitAsync s r
  | .submitAsyncRegistered r => readFeatureSubmitAsyncRegistered s r
  | .submitAsyncRegisteredRowctx r => readFeatureSubmitAsyncRegisteredRowctx s r
  | .waitAsync => takeFront s
  | .singlePageSingleThreadPoll numIndex inRange =>
    readFeatureSinglePageSingleThreadPoll s numIndex inRange
  | .getFeatureLight => takeFront s
  | .poll inRange => serviceRegisteredPoll s inRange
  | .pollCompatible inRange => serviceRegisteredPollCompatible s inRange
  | .tryPoll k => serviceRegisteredTryPoll s k
  | .tryPollWindowSkipFront k windowSize => serviceRegisteredTryPollWindowSkipFront s k windowSize
  | .getFeatureLightRegistered => readFeatureGetFeatureLightRegistered s
  | .getFeatureLightRegisteredRowctx => readFeatureGetFeatureLightRegistered s

/-- The two registered submits. -/
def Call.isRegisteredSubmit : Call → Bool
  | .submitAsyncRegistered _ => true
  | .submitAsyncRegisteredRowctx _ => true
  | _ => false

/-- The store after a list of calls. -/
def run (s : Store) (cs : List Call) : Store := cs.foldl (fun s c => (call s c).1) s

@[simp] theorem run_nil (s : Store) : run s [] = s := rfl

theorem run_append (s : Store) (cs ds : List Call) : run s (cs ++ ds) = run (run s cs) ds := by
  simp only [run, List.foldl_append]

end GidsStack.Requests
