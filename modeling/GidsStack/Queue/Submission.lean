/-
  GidsStack.Queue.Submission

  The submission side of an NVMe queue pair: `sq_enqueue` with `move_tail`, and the part of
  `move_head_cq` that frees submission slots.

  Every atomic operation and every read of shared memory is one step. A call of `sq_enqueue`
  is named by the number of its draw from `in_ticket`, counted without wrap-around; what the
  code itself computes with is the 32-bit `ticket` it got. The consumers are the threads that
  have a completion to dequeue; of `move_head_cq` the model keeps what touches the submission
  queue, the marks of the completion queue appear as the number of entries a scan finds. The
  controller consumes commands up to the doorbell and reports its head in the completions.
-/

import GidsStack.Lib.Laps

namespace GidsStack.Queue

open Laps

/-! ## Sizes -/

/-- A power of two among the queue sizes that `nvm_queue_clear` accepts. -/
structure QueueSize where
  qsLog2 : Nat
  /-- `qs < 2` is refused -/
  one_le : 1 ≤ qsLog2
  /-- `qs > 0x10000` is refused -/
  le_16 : qsLog2 ≤ 16

def QueueSize.qs (g : QueueSize) : Nat :=
  2 ^ g.qsLog2

def QueueSize.qsMinus1 (g : QueueSize) : Nat :=
  g.qs - 1

theorem QueueSize.qs_pos (g : QueueSize) : 0 < g.qs :=
  Nat.two_pow_pos _

theorem QueueSize.two_le_qs (g : QueueSize) : 2 ≤ g.qs :=
  Nat.pow_le_pow_right (show 0 < 2 by decide) g.one_le

theorem QueueSize.qs_le (g : QueueSize) : g.qs ≤ 65536 :=
  Nat.pow_le_pow_right (show 0 < 2 by decide) g.le_16

theorem QueueSize.land_qsMinus1 (g : QueueSize) (n : Nat) : n &&& g.qsMinus1 = n % g.qs :=
  Nat.and_two_pow_sub_one_eq_mod n g.qsLog2

/-- `uint32_t` addition. -/
def add32 (x y : Nat) : Nat :=
  (x + y) % 4294967296

theorem add32_of_lt {x y : Nat} (h : x + y < 4294967296) : add32 x y = x + y :=
  Nat.mod_eq_of_lt h

/-- `get_id`, on `uint64_t`. -/
def getId (x y : Nat) : Nat :=
  (x >>> y) * 2 % 18446744073709551616

/-! ## State -/

/-- Where a call of `sq_enqueue` stands. -/
inductive EnqueuePc
  | undrawn
  /-- the wait for `tickets[pos]`, relaxed -/
  | waitRelaxed
  /-- the wait for `tickets[pos]`, acquiring -/
  | waitAcquire
  /-- the `i`-th half of the command goes to its entry -/
  | copy (i : Nat)
  | storeMark
  | loadMark
  | loadTailLock
  | takeTailLock
  | loadTail
  /-- `move_tail`: the test against `head` -/
  | loadHead (curTail count : Nat)
  /-- `move_tail`: the exchange of a mark -/
  | exchangeMark (curTail count : Nat)
  | writeDb (curTail count : Nat)
  | storeTail (curTail count : Nat)
  | freeTailLock
  | addTicket
  | returned
  deriving DecidableEq

/-- Between taking `tail_lock` and giving it back. -/
def EnqueuePc.inTail : EnqueuePc → Bool
  | .loadTail | .loadHead .. | .exchangeMark .. | .writeDb .. | .storeTail .. | .freeTailLock =>
    true
  | _ => false

/-- Inside `move_tail`. -/
def EnqueuePc.inMoveTail : EnqueuePc → Bool
  | .loadHead .. | .exchangeMark .. => true
  | _ => false

/-- Where a thread with a completion to dequeue stands. -/
inductive ConsumePc
  | idle
  /-- holds `head_lock` of the completion queue, about to look at the marks -/
  | scan
  | loadSqHead (newSqHead : Nat)
  | addTicket (newSqHead loc sqMoveCount : Nat)
  | addHead (sqMoveCount : Nat)
  | freeHeadLock
  deriving DecidableEq

/-- Between taking `head_lock` and giving it back. -/
def ConsumePc.inHead : ConsumePc → Bool
  | .idle => false
  | _ => true

structure Submission (C : Type) where
  inTicket : Nat
  tickets : Nat → Nat
  tailMark : Nat → Bool
  tailLock : Bool
  head : Nat
  tail : Nat
  db : Nat
  /-- the entries, two halves each -/
  vaddr : Nat → Nat → C
  /-- the calls of `sq_enqueue`, by the number of their draw -/
  pc : Nat → EnqueuePc
  ticket : Nat → Nat
  cmd : Nat → Nat → C
  /-- `head_lock` of the completion queue -/
  headLock : Bool
  consumer : Nat → ConsumePc
  /-- how many completions have been dequeued -/
  dequeued : Nat
  /-- the submission queue heads in the completions posted so far, not yet reduced to a slot -/
  reports : List Nat
  /-- how many calls have been made -/
  drawn : Nat
  /-- how many marks `move_tail` has taken away -/
  swept : Nat
  /-- how many commands the doorbell has announced -/
  rung : Nat
  /-- the advances of the doorbell, oldest first -/
  advances : List (Nat × Nat)
  /-- the head in the last completion that was dequeued -/
  read : Nat
  /-- how many slots `move_head_cq` has counted as consumed -/
  acked : Nat
  /-- how many calls have counted their slot as filled, per slot -/
  finished : Nat → Nat

variable {C : Type}

/-- A queue as `nvm_queue_clear` leaves it. -/
structure Submission.Init (s : Submission C) : Prop where
  inTicket : s.inTicket = 0
  tickets : s.tickets = fun _ => 0
  tailMark : s.tailMark = fun _ => false
  tailLock : s.tailLock = false
  head : s.head = 0
  tail : s.tail = 0
  db : s.db = 0
  pc : s.pc = fun _ => .undrawn
  headLock : s.headLock = false
  consumer : s.consumer = fun _ => .idle
  dequeued : s.dequeued = 0
  reports : s.reports = []
  drawn : s.drawn = 0
  swept : s.swept = 0
  rung : s.rung = 0
  advances : s.advances = []
  read : s.read = 0
  acked : s.acked = 0
  finished : s.finished = fun _ => 0

/-- The head of the submission queue in the last completion posted. -/
def Submission.reported (s : Submission C) : Nat :=
  s.reports.getLastD 0

def Submission.goto (s : Submission C) (k : Nat) (pc : EnqueuePc) : Submission C :=
  { s with pc := Function.update s.pc k pc }

def Submission.cgoto (s : Submission C) (t : Nat) (pc : ConsumePc) : Submission C :=
  { s with consumer := Function.update s.consumer t pc }

/-! ## sq_enqueue -/

/-- `in_ticket.fetch_add(1)`: a new call begins. -/
def draw (s : Submission C) (c : Nat → C) : Submission C :=
  { s with
    inTicket := add32 s.inTicket 1
    drawn := s.drawn + 1
    ticket := Function.update s.ticket s.drawn s.inTicket
    cmd := Function.update s.cmd s.drawn c
    pc := Function.update s.pc s.drawn .waitRelaxed }

/-- After `move_tail`: the doorbell is written if the tail moved. -/
def afterMove (curTail count : Nat) : EnqueuePc :=
  if count ≠ 0 then .writeDb curTail count else .freeTailLock

def enqueueStep (g : QueueSize) (s : Submission C) (k : Nat) : Option (Submission C) :=
  let pos := s.ticket k &&& g.qsMinus1
  let id := getId (s.ticket k) g.qsLog2
  match s.pc k with
  | .undrawn | .returned => none
  | .waitRelaxed => some (if s.tickets pos = id then s.goto k .waitAcquire else s)
  | .waitAcquire => some (if s.tickets pos = id then s.goto k (.copy 0) else s)
  | .copy i =>
    let s' := { s with
      vaddr := Function.update s.vaddr pos (Function.update (s.vaddr pos) i (s.cmd k i)) }
    some (s'.goto k (if i + 1 < 2 then .copy (i + 1) else .storeMark))
  | .storeMark =>
    some ({ s with tailMark := Function.update s.tailMark pos true }.goto k .loadMark)
  | .loadMark => some (s.goto k (if s.tailMark pos then .loadTailLock else .addTicket))
  | .loadTailLock => some (s.goto k (if s.tailLock then .loadMark else .takeTailLock))
  | .takeTailLock =>
    -- `fetch_or`: the lock is up afterwards, and who found it down holds it
    some ({ s with tailLock := true }.goto k (if s.tailLock then .loadMark else .loadTail))
  | .loadTail => some (s.goto k (.loadHead s.tail 0))
  | .loadHead curTail count =>
    let next := add32 (add32 curTail count) 1
    some (s.goto k (if next &&& g.qsMinus1 ≠ s.head &&& g.qsMinus1
      then .exchangeMark curTail count else afterMove curTail count))
  | .exchangeMark curTail count =>
    let at_ := add32 curTail count &&& g.qsMinus1
    let s' := { s with tailMark := Function.update s.tailMark at_ false }
    some (if s.tailMark at_
      then { s' with swept := s.swept + 1 }.goto k (.loadHead curTail (add32 count 1))
      else s'.goto k (afterMove curTail count))
  | .writeDb curTail count =>
    let newTail := add32 curTail count
    some ({ s with
      db := newTail &&& g.qsMinus1
      rung := s.rung + count
      advances := s.advances ++ [(curTail, newTail)] }.goto k (.storeTail curTail count))
  | .storeTail curTail count => some ({ s with tail := add32 curTail count }.goto k .freeTailLock)
  | .freeTailLock => some ({ s with tailLock := false }.goto k .loadMark)
  | .addTicket =>
    some ({ s with
      tickets := Function.update s.tickets pos (add32 (s.tickets pos) 1)
      finished := Function.update s.finished pos (s.finished pos + 1) }.goto k .returned)

/-! ## move_head_cq -/

/-- `fetch_or` on `head_lock` of the completion queue. -/
def takeHeadLock (s : Submission C) (t : Nat) : Option (Submission C) :=
  match s.consumer t with
  | .idle => some ({ s with headLock := true }.cgoto t (if s.headLock then .idle else .scan))
  | _ => none

/-- The marks found from the head on, and the head of the submission queue in the last
    completion they stand for: a 16-bit field. -/
def scanMarks (g : QueueSize) (s : Submission C) (t count : Nat) : Option (Submission C) :=
  match s.consumer t with
  | .scan =>
    if count = 0 then some (s.cgoto t .freeHeadLock)
    else match s.reports[s.dequeued + (count - 1)]? with
      | some r =>
        some ({ s with dequeued := s.dequeued + count, read := r }.cgoto t
          (.loadSqHead (r % g.qs &&& 65535)))
      | none => none
  | _ => none

def consumeStep (g : QueueSize) (s : Submission C) (t : Nat) : Option (Submission C) :=
  match s.consumer t with
  | .idle | .scan => none
  | .loadSqHead newSqHead =>
    let loc := s.head &&& g.qsMinus1
    some (s.cgoto t (if loc ≠ newSqHead then .addTicket newSqHead loc 0 else .freeHeadLock))
  | .addTicket newSqHead loc sqMoveCount =>
    let s' := { s with
      tickets := Function.update s.tickets loc (add32 (s.tickets loc) 1)
      acked := s.acked + 1 }
    let loc' := add32 loc 1 &&& g.qsMinus1
    some (s'.cgoto t (if loc' ≠ newSqHead then .addTicket newSqHead loc' (add32 sqMoveCount 1)
      else .addHead (add32 sqMoveCount 1)))
  | .addHead sqMoveCount =>
    some ({ s with head := add32 s.head sqMoveCount }.cgoto t .freeHeadLock)
  | .freeHeadLock => some ({ s with headLock := false }.cgoto t .idle)

/-! ## The system -/

inductive Act (C : Type)
  | draw (c : Nat → C)
  | enqueue (k : Nat)
  | takeHeadLock (t : Nat)
  | scanMarks (t count : Nat)
  | consume (t : Nat)
  /-- the controller posts a completion that reports `r` commands consumed -/
  | report (r : Nat)

/-- One step. What the controller reports does not go back and is not beyond the doorbell. -/
def step (g : QueueSize) (s : Submission C) : Act C → Option (Submission C)
  | .draw c => some (draw s c)
  | .enqueue k => enqueueStep g s k
  | .takeHeadLock t => takeHeadLock s t
  | .scanMarks t count => scanMarks g s t count
  | .consume t => consumeStep g s t
  | .report r =>
    if s.reported ≤ r ∧ r ≤ s.rung then some { s with reports := s.reports ++ [r] } else none

end GidsStack.Queue
