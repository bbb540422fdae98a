/-
  GidsStack.Queue.Completion

  The completion side of an NVMe queue pair, from the identifier of a command to the place of
  its completion: `get_cid`, `cq_poll` with `cq_try_poll`, `cq_dequeue` with `move_head_cq`, and
  `put_cid` (nvm_parallel_queue.h), in the order in which the reads and writes of page_cache.h
  call them.

  A request is one use of an identifier, and every atomic operation and every read of shared
  memory is one step of it.  What `sq_enqueue` does with the command between `get_cid` and the
  poll is `Submission`; of `move_head_cq` the same holds for the slots of the submission queue,
  here only the head that it reads off an entry appears.  The controller posts completions of
  requests that hold their identifier, in any order, and looks at the doorbell before it does.
  A poll that ends without a completion starts anew, as `cq_poll` does and as the callers of
  `cq_try_poll` do.
-/

import GidsStack.Lib.PhaseRing
import GidsStack.Queue.Geometry

namespace GidsStack.Queue

/-- The ring that polling sees. -/
def QueueSize.cq (g : QueueSize) : CompletionQueue :=
  ⟨g.qs, g.qsMinus1, g.qsLog2⟩

/-- The words of a completion entry that are read. -/
structure Cpl where
  dword2 : Nat
  dword3 : Nat
  deriving DecidableEq, Repr

def Cpl.cid (e : Cpl) : Nat :=
  e.dword3 &&& 65535

def Cpl.phase (e : Cpl) : Bool :=
  (e.dword3 &&& 65536) >>> 16 != 0

/-- `new_sq_head`. -/
def Cpl.sqHead (e : Cpl) : Nat :=
  e.dword2 &&& 65535

/-! ## State -/

/-- Where a request stands. -/
inductive RequestPc
  /-- `get_cid`: the draw from `cid_ticket` -/
  | drawCid
  /-- `get_cid`: the `fetch_or` on the lock of an identifier -/
  | lockCid (id : Nat)
  /-- inside `sq_enqueue` -/
  | enqueue
  /-- a round of the poll begins -/
  | loadHead
  /-- the poll reads the `i`-th entry from `head` on -/
  | loadEntry (head i : Nat)
  | waitPos
  | takePos
  | storeMark
  | loadMark
  | takeHeadLock
  | loadCqHead
  /-- `move_head_cq`: the exchange of a mark -/
  | exchangeMark (curHead count : Nat)
  /-- `move_head_cq`: the last of the entries that were marked -/
  | loadLast (curHead count : Nat)
  /-- `move_head_cq`: the head of the submission queue moves up to `newSqHead` -/
  | moveSqHead (curHead count newSqHead : Nat)
  | writeDb (curHead count : Nat)
  | storeHead (curHead count : Nat)
  | freeHeadLock
  /-- the wait until the head has passed the entry -/
  | loadNewHead
  | freePos
  | putCid
  | returned
  deriving DecidableEq

/-- Between getting an identifier and putting it back. -/
def RequestPc.holdsCid : RequestPc → Bool
  | .drawCid | .lockCid _ | .returned => false
  | _ => true

/-- In `sq_enqueue` or in the poll. -/
def RequestPc.awaits : RequestPc → Bool
  | .enqueue | .loadHead | .loadEntry .. => true
  | _ => false

/-- After the poll. -/
def RequestPc.polled : RequestPc → Bool
  | .drawCid | .lockCid _ | .enqueue | .loadHead | .loadEntry .. => false
  | _ => true

/-- Between taking the lock of a position and giving it back. -/
def RequestPc.inPos : RequestPc → Bool
  | .storeMark | .loadMark | .takeHeadLock | .loadCqHead | .exchangeMark .. | .loadLast ..
  | .moveSqHead .. | .writeDb .. | .storeHead .. | .freeHeadLock | .loadNewHead | .freePos => true
  | _ => false

/-- Between taking `head_lock` and giving it back. -/
def RequestPc.inHead : RequestPc → Bool
  | .loadCqHead | .exchangeMark .. | .loadLast .. | .moveSqHead .. | .writeDb .. | .storeHead ..
  | .freeHeadLock => true
  | _ => false

/-- What the poll returns: `cq_pos`, `*loc_` and `*cq_head`. -/
structure Found where
  pos : Nat
  loc : Nat
  cqHead : Nat
  deriving DecidableEq

structure Completion where
  cidTicket : Nat
  /-- the locks of the identifiers -/
  cidLocks : Nat → Bool
  vaddr : Nat → Cpl
  headMark : Nat → Bool
  posLocks : Nat → Bool
  headLock : Bool
  head : Nat
  db : Nat
  pc : Nat → RequestPc
  cid : Nat → Nat
  found : Nat → Found
  /-- how many completions have been posted -/
  posted : Nat
  log : Nat → Cpl
  /-- the request whose completion is the `n`-th -/
  owner : Nat → Nat
  /-- how many completions the head had passed when the round of the poll began -/
  base : Nat → Nat
  /-- the number of the completion that was found -/
  index : Nat → Nat
  /-- how many marks `move_head_cq` has taken away -/
  swept : Nat
  /-- how many completions the doorbell has given back -/
  rung : Nat
  /-- how many completions the head has passed -/
  passed : Nat

/-- A queue as `nvm_queue_clear` leaves it. -/
structure Completion.Init (s : Completion) : Prop where
  cidTicket : s.cidTicket = 0
  cidLocks : s.cidLocks = fun _ => false
  vaddr : s.vaddr = fun _ => ⟨0, 0⟩
  headMark : s.headMark = fun _ => false
  posLocks : s.posLocks = fun _ => false
  headLock : s.headLock = false
  head : s.head = 0
  db : s.db = 0
  pc : s.pc = fun _ => .drawCid
  posted : s.posted = 0
  swept : s.swept = 0
  rung : s.rung = 0
  passed : s.passed = 0

def Completion.goto (s : Completion) (k : Nat) (pc : RequestPc) : Completion :=
  { s with pc := Function.update s.pc k pc }

/-! ## A request -/

/-- The test of the last loop of `cq_dequeue`: `loc_` is between `cur_head_` and `new_head`. -/
def headPassed (newHead loc curHead : Nat) : Bool :=
  if newHead > curHead then decide (loc ≥ curHead) && decide (loc < newHead)
  else if newHead < curHead then decide (loc ≥ curHead) || decide (loc < newHead)
  else false

/-- The entry at `loc` is a completion of this lap for `k`. -/
def Completion.Hit (g : QueueSize) (s : Completion) (k curHead : Nat) : Prop :=
  (s.vaddr (g.cq.loc curHead)).cid = s.cid k ∧
    (s.vaddr (g.cq.loc curHead)).phase = g.cq.searchPhase curHead

instance (g : QueueSize) (s : Completion) (k curHead : Nat) : Decidable (s.Hit g k curHead) :=
  inferInstanceAs (Decidable (_ ∧ _))

/-- One step of the poll; `for` goes on while `i < cq->qs_minus_1`. -/
def pollStep (g : QueueSize) (s : Completion) (k head i : Nat) : Completion :=
  let curHead := add32 head i
  let loc := g.cq.loc curHead
  if s.Hit g k curHead then
    { s with
      found := Function.update s.found k ⟨loc, curHead, head⟩
      index := Function.update s.index k (s.base k + i) }.goto k .waitPos
  else if (s.vaddr loc).phase ≠ g.cq.searchPhase curHead then s.goto k .loadHead
  else s.goto k (if i + 1 < g.qsMinus1 then .loadEntry head (i + 1) else .loadHead)

/-- One exchange of `move_head_cq`. -/
def exchangeStep (g : QueueSize) (s : Completion) (k curHead count : Nat) : Completion :=
  let loc := add32 curHead count &&& g.qsMinus1
  let s' := { s with headMark := Function.update s.headMark loc false }
  if s.headMark loc then
    { s' with swept := s.swept + 1 }.goto k (.exchangeMark curHead (add32 count 1))
  else s'.goto k (if count ≠ 0 then .loadLast curHead count else .freeHeadLock)

def requestStep (g : QueueSize) (s : Completion) (k : Nat) : Option Completion :=
  let pos := (s.found k).pos
  match s.pc k with
  | .drawCid =>
    some ({ s with cidTicket := add32 s.cidTicket 1 }.goto k (.lockCid (s.cidTicket &&& 65535)))
  | .lockCid id =>
    -- `fetch_or`: the lock is up afterwards, and who found it down holds it
    let s' := { s with cidLocks := Function.update s.cidLocks id true }
    some (if s.cidLocks id then s'.goto k .drawCid
      else { s' with cid := Function.update s.cid k id }.goto k .enqueue)
  | .enqueue => some (s.goto k .loadHead)
  | .loadHead =>
    some ({ s with base := Function.update s.base k s.passed }.goto k (.loadEntry s.head 0))
  | .loadEntry head i => some (pollStep g s k head i)
  | .waitPos => some (if s.posLocks pos then s else s.goto k .takePos)
  | .takePos =>
    some ({ s with posLocks := Function.update s.posLocks pos true }.goto k
      (if s.posLocks pos then .takePos else .storeMark))
  | .storeMark =>
    some ({ s with headMark := Function.update s.headMark pos true }.goto k .loadMark)
  | .loadMark => some (s.goto k (if s.headMark pos then .takeHeadLock else .loadNewHead))
  | .takeHeadLock =>
    some ({ s with headLock := true }.goto k (if s.headLock then .loadMark else .loadCqHead))
  | .loadCqHead => some (s.goto k (.exchangeMark s.head 0))
  | .exchangeMark curHead count => some (exchangeStep g s k curHead count)
  | .loadLast curHead count =>
    let loc := add32 curHead (count - 1) &&& g.qsMinus1
    some (s.goto k (.moveSqHead curHead count (s.vaddr loc).sqHead))
  | .moveSqHead curHead count _ => some (s.goto k (.writeDb curHead count))
  | .writeDb curHead count =>
    some ({ s with db := add32 curHead count &&& g.qsMinus1, rung := s.swept }.goto k
      (.storeHead curHead count))
  | .storeHead curHead count =>
    some ({ s with head := add32 curHead count, passed := s.rung }.goto k .freeHeadLock)
  | .freeHeadLock => some ({ s with headLock := false }.goto k .loadMark)
  | .loadNewHead =>
    some (s.goto k (if headPassed s.head (s.found k).loc (s.found k).cqHead then .freePos
      else .loadNewHead))
  | .freePos =>
    some ({ s with posLocks := Function.update s.posLocks pos false }.goto k .putCid)
  | .putCid =>
    some ({ s with cidLocks := Function.update s.cidLocks (s.cid k) false }.goto k .returned)
  | .returned => none

/-! ## The system -/

inductive CompletionAct
  /-- request `k` takes a step -/
  | run (k : Nat)
  /-- the controller posts a completion for request `k` -/
  | post (k : Nat) (e : Cpl)

/-- What a controller may post for request `k`: nothing twice, under the identifier of `k`, in
    the phase of its lap, and never so that its tail meets the head it was told. -/
def Completion.MayPost (g : QueueSize) (s : Completion) (k : Nat) (e : Cpl) : Prop :=
  (s.pc k).awaits = true ∧ (∀ n < s.posted, s.owner n ≠ k) ∧ e.cid = s.cid k ∧
    e.phase = (tailAfter g.qs s.posted).phase ∧
    ((tailAfter g.qs s.posted).next g.qs).pos ≠ s.db

instance (g : QueueSize) (s : Completion) (k : Nat) (e : Cpl) : Decidable (s.MayPost g k e) :=
  inferInstanceAs (Decidable (_ ∧ _ ∧ _ ∧ _ ∧ _))

def completionStep (g : QueueSize) (s : Completion) : CompletionAct → Option Completion
  | .run k => requestStep g s k
  | .post k e =>
    if s.MayPost g k e then
      some { s with
        vaddr := Function.update s.vaddr (tailAfter g.qs s.posted).pos e
        log := Function.update s.log s.posted e
        owner := Function.update s.owner s.posted k
        posted := s.posted + 1 }
    else none

/-- No request falls two laps behind the controller between reading the head and finding its
    completion from there: an entry two laps on has the phase that the poll looks for. -/
def Fresh (g : QueueSize) (s : Completion) : CompletionAct → Prop
  | .run k =>
    match s.pc k with
    | .loadEntry head i => s.Hit g k (add32 head i) → s.posted ≤ s.base k + i + 2 * g.qs
    | _ => True
  | .post .. => True

instance (g : QueueSize) (s : Completion) : ∀ a, Decidable (Fresh g s a)
  | .run k =>
    match h : s.pc k with
    | .loadEntry head i => decidable_of_iff
        (s.Hit g k (add32 head i) → s.posted ≤ s.base k + i + 2 * g.qs) (by rw [Fresh, h])
    | .drawCid | .lockCid _ | .enqueue | .loadHead | .waitPos | .takePos | .storeMark | .loadMark
    | .takeHeadLock | .loadCqHead | .exchangeMark .. | .loadLast .. | .moveSqHead .. | .writeDb ..
    | .storeHead .. | .freeHeadLock | .loadNewHead | .freePos | .putCid | .returned =>
      isTrue (by rw [Fresh, h]; trivial)
  | .post .. => isTrue trivial

end GidsStack.Queue
