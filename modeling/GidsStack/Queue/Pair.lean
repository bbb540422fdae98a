/-
  GidsStack.Queue.Pair

  A queue pair as a whole: the requests of page_cache.h (`get_cid`, `sq_enqueue`, `cq_poll`,
  `cq_dequeue`, `put_cid`) over both queues, and a controller that knows nothing but the memory
  and the doorbells.  It fetches commands in order up to the doorbell of the submission queue,
  completes them in any order under the identifier it read in the command, and stops before the
  head it was told of the completion queue.

  `Submission` and `Completion` each take the other half as given: a completion reports no more
  commands than were announced, a scan ends at a head that was reported, a completion is posted
  once and for a request that waits for it.  Here none of this is assumed.
-/

import GidsStack.Queue.Dequeue

namespace GidsStack.Queue

open Laps Lib Lock

/-! ## State -/

structure Pair (C : Type) where
  sub : Submission C
  comp : Completion
  /-- the call of `sq_enqueue` of a request -/
  call : Nat → Option Nat
  /-- the request of a call -/
  requester : Nat → Nat
  /-- how many commands the controller has fetched -/
  fetched : Nat
  /-- the commands it has fetched -/
  taken : Nat → Nat → C
  /-- the commands it has completed -/
  executed : Nat → Bool

variable {C : Type}

structure Pair.Init (p : Pair C) : Prop where
  sub : p.sub.Init
  comp : p.comp.Init
  call : p.call = fun _ => none
  fetched : p.fetched = 0
  executed : p.executed = fun _ => false

/-! ## The requests -/

/-- A step of request `k`. Inside `sq_enqueue` it is one of its call, inside `move_head_cq` one
    of the submission queue's slots; `head_lock` is one lock. -/
def pairRun (gs gc : QueueSize) (p : Pair C) (k : Nat) : Option (Pair C) :=
  match p.comp.pc k with
  | .enqueue =>
    (p.call k).bind fun d =>
      if p.sub.pc d = .returned then (requestStep gc p.comp k).map fun c => { p with comp := c }
      else (enqueueStep gs p.sub d).map fun q => { p with sub := q }
  | .takeHeadLock | .freeHeadLock =>
    (requestStep gc p.comp k).bind fun c =>
      ((if p.comp.pc k = .takeHeadLock then takeHeadLock p.sub k else consumeStep gs p.sub k)).map
        fun q => { p with comp := c, sub := q }
  | .exchangeMark .. =>
    (requestStep gc p.comp k).map fun c =>
      if c.pc k = .freeHeadLock then { p with comp := c, sub := p.sub.cgoto k .freeHeadLock }
      else { p with comp := c }
  | .loadLast curHead count =>
    let loc := add32 curHead (count - 1) &&& gc.qsMinus1
    (requestStep gc p.comp k).map fun c =>
      { p with
        comp := c
        sub := { p.sub with
          dequeued := p.sub.dequeued + count
          read := p.sub.reports.getD (p.sub.dequeued + (count - 1)) 0 }.cgoto k
            (.loadSqHead (p.comp.vaddr loc).sqHead) }
  | .moveSqHead .. =>
    if p.sub.consumer k = .freeHeadLock then
      (requestStep gc p.comp k).map fun c => { p with comp := c }
    else (consumeStep gs p.sub k).map fun q => { p with sub := q }
  | _ => (requestStep gc p.comp k).map fun c => { p with comp := c }

/-! ## The system -/

inductive PairAct (C : Type)
  /-- request `k` calls `sq_enqueue` with a command -/
  | enqueue (k : Nat) (c : Nat → C)
  | run (k : Nat)
  /-- the controller fetches the next command -/
  | fetch
  /-- the controller completes command `d` -/
  | complete (d : Nat) (e : Cpl)

/-- A completion the controller may post for command `d`: once, under the identifier it has
    fetched, with its own head, in the phase of its lap, and not onto the head it was told. -/
def Pair.MayComplete (gs gc : QueueSize) (cid : C → Nat) (p : Pair C) (d : Nat) (e : Cpl) : Prop :=
  d < p.fetched ∧ p.executed d = false ∧ e.cid = cid (p.taken d 0) ∧
    e.sqHead = p.fetched % gs.qs &&& 65535 ∧
    e.phase = (tailAfter gc.qs p.comp.posted).phase ∧
    ((tailAfter gc.qs p.comp.posted).next gc.qs).pos ≠ p.comp.db

instance (gs gc : QueueSize) (cid : C → Nat) (p : Pair C) (d : Nat) (e : Cpl) :
    Decidable (p.MayComplete gs gc cid d e) :=
  inferInstanceAs (Decidable (_ ∧ _ ∧ _ ∧ _ ∧ _ ∧ _))

/-- `cid` reads the identifier in the first half of a command, where `nvm_cmd_header` put it. -/
def pairStep (gs gc : QueueSize) (cid : C → Nat) (p : Pair C) : PairAct C → Option (Pair C)
  | .enqueue k c =>
    if p.comp.pc k = .enqueue ∧ p.call k = none ∧ cid (c 0) = p.comp.cid k then
      some { p with
        sub := draw p.sub c
        call := Function.update p.call k (some p.sub.drawn)
        requester := Function.update p.requester p.sub.drawn k }
    else none
  | .run k => pairRun gs gc p k
  | .fetch =>
    if p.fetched % gs.qs ≠ p.sub.db then
      some { p with
        fetched := p.fetched + 1
        taken := Function.update p.taken p.fetched (p.sub.vaddr (p.fetched % gs.qs)) }
    else none
  | .complete d e =>
    if p.MayComplete gs gc cid d e then
      some { p with
        comp := { p.comp with
          vaddr := Function.update p.comp.vaddr (tailAfter gc.qs p.comp.posted).pos e
          log := Function.update p.comp.log p.comp.posted e
          owner := Function.update p.comp.owner p.comp.posted (p.requester d)
          posted := p.comp.posted + 1 }
        sub := { p.sub with reports := p.sub.reports ++ [p.fetched] }
        executed := Function.update p.executed d true }
    else none

/-- No request falls two laps behind the controller while it looks for its completion. -/
def PairFresh (gc : QueueSize) (p : Pair C) : PairAct C → Prop
  | .run k => Fresh gc p.comp (.run k)
  | _ => True

instance (gc : QueueSize) (p : Pair C) : ∀ a, Decidable (PairFresh gc p a)
  | .run k => inferInstanceAs (Decidable (Fresh gc p.comp (.run k)))
  | .enqueue .. | .fetch | .complete .. => isTrue trivial

variable {gs gc : QueueSize} {cid : C → Nat} {p p' : Pair C} {k : Nat}

/-! ## The steps of a request -/

/-- Where the steps of a request are steps of the completion side alone. -/
def RequestPc.alone : RequestPc → Bool
  | .enqueue | .takeHeadLock | .loadLast .. | .moveSqHead .. | .freeHeadLock => false
  | _ => true

inductive PairRuns (gs gc : QueueSize) (p : Pair C) (k : Nat) : Pair C → Prop
  | call {d : Nat} {q : Submission C} (hpc : p.comp.pc k = .enqueue) (hcall : p.call k = some d)
      (hq : enqueueStep gs p.sub d = some q) : PairRuns gs gc p k { p with sub := q }
  | enqueued {d : Nat} {c : Completion} (hpc : p.comp.pc k = .enqueue) (hcall : p.call k = some d)
      (hret : p.sub.pc d = .returned) (hc : requestStep gc p.comp k = some c) :
      PairRuns gs gc p k { p with comp := c }
  | lock {c : Completion} {q : Submission C} (hpc : p.comp.pc k = .takeHeadLock)
      (hc : requestStep gc p.comp k = some c) (hq : takeHeadLock p.sub k = some q) :
      PairRuns gs gc p k { p with comp := c, sub := q }
  | nothing {c : Completion} {h n : Nat} (hpc : p.comp.pc k = .exchangeMark h n)
      (hc : requestStep gc p.comp k = some c) (hend : c.pc k = .freeHeadLock) :
      PairRuns gs gc p k { p with comp := c, sub := p.sub.cgoto k .freeHeadLock }
  | last {c : Completion} {h n : Nat} (hpc : p.comp.pc k = .loadLast h n)
      (hc : requestStep gc p.comp k = some c) :
      PairRuns gs gc p k
        { p with
          comp := c
          sub := { p.sub with
            dequeued := p.sub.dequeued + n
            read := p.sub.reports.getD (p.sub.dequeued + (n - 1)) 0 }.cgoto k
              (.loadSqHead (p.comp.vaddr (add32 h (n - 1) &&& gc.qsMinus1)).sqHead) }
  | slots {q : Submission C} {h n v : Nat} (hpc : p.comp.pc k = .moveSqHead h n v)
      (hne : p.sub.consumer k ≠ .freeHeadLock) (hq : consumeStep gs p.sub k = some q) :
      PairRuns gs gc p k { p with sub := q }
  | moved {c : Completion} {h n v : Nat} (hpc : p.comp.pc k = .moveSqHead h n v)
      (hend : p.sub.consumer k = .freeHeadLock) (hc : requestStep gc p.comp k = some c) :
      PairRuns gs gc p k { p with comp := c }
  | unlock {c : Completion} {q : Submission C} (hpc : p.comp.pc k = .freeHeadLock)
      (hc : requestStep gc p.comp k = some c) (hq : consumeStep gs p.sub k = some q) :
      PairRuns gs gc p k { p with comp := c, sub := q }
  | alone {c : Completion} (hpc : (p.comp.pc k).alone = true)
      (hc : requestStep gc p.comp k = some c)
      (hmore : ∀ h n, p.comp.pc k = .exchangeMark h n → c.pc k ≠ .freeHeadLock) :
      PairRuns gs gc p k { p with comp := c }

theorem pairRuns_of_run (h : pairRun gs gc p k = some p') : PairRuns gs gc p k p' := by
  rw [pairRun] at h
  split at h
  case h_1 hpc =>
    obtain ⟨d, hcall, h⟩ := Option.bind_eq_some_iff.mp h
    split at h
    case isTrue hret =>
      obtain ⟨c, hc, rfl⟩ := Option.map_eq_some_iff.mp h
      exact .enqueued hpc hcall hret hc
    case isFalse =>
      obtain ⟨q, hq, rfl⟩ := Option.map_eq_some_iff.mp h
      exact .call hpc hcall hq
  case h_2 hpc =>
    obtain ⟨c, hc, h⟩ := Option.bind_eq_some_iff.mp h
    rw [if_pos hpc] at h
    obtain ⟨q, hq, rfl⟩ := Option.map_eq_some_iff.mp h
    exact .lock hpc hc hq
  case h_3 hpc =>
    obtain ⟨c, hc, h⟩ := Option.bind_eq_some_iff.mp h
    rw [if_neg (by rw [hpc]; exact RequestPc.noConfusion)] at h
    obtain ⟨q, hq, rfl⟩ := Option.map_eq_some_iff.mp h
    exact .unlock hpc hc hq
  case h_4 hd n hpc =>
    obtain ⟨c, hc, rfl⟩ := Option.map_eq_some_iff.mp h
    split
    case isTrue hend => exact .nothing hpc hc hend
    case isFalse hend => exact .alone (by rw [hpc]; rfl) hc fun _ _ _ => hend
  case h_5 hd n hpc =>
    obtain ⟨c, hc, rfl⟩ := Option.map_eq_some_iff.mp h
    exact .last hpc hc
  case h_6 hd n v hpc =>
    split at h
    case isTrue hend =>
      obtain ⟨c, hc, rfl⟩ := Option.map_eq_some_iff.mp h
      exact .moved hpc hend hc
    case isFalse hne =>
      obtain ⟨q, hq, rfl⟩ := Option.map_eq_some_iff.mp h
      exact .slots hpc hne hq
  case h_7 h1 h2 h3 h4 h5 h6 =>
    obtain ⟨c, hc, rfl⟩ := Option.map_eq_some_iff.mp h
    refine .alone ?_ hc fun hd n hpc => absurd hpc (h4 hd n)
    cases hpc : p.comp.pc k <;> first
      | rfl
      | exact absurd hpc h1
      | exact absurd hpc h2
      | exact absurd hpc h3
      | exact absurd hpc (h5 _ _)
      | exact absurd hpc (h6 _ _ _)

end GidsStack.Queue
