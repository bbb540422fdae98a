/-
  GidsStack.Queue.Steps

  What one step of a call of `sq_enqueue`, and one step of a consumer, can do: one constructor
  for each outcome, with the guard under which the code takes it. Every invariant of the queue
  is proved from these cases, the step functions are not unfolded again.
-/

import GidsStack.Lib.Lock
import GidsStack.Queue.Submission

namespace GidsStack.Queue

open Lock

variable {C : Type} {g : QueueSize} {s s' : Submission C}

/-! ## Steps of the calls -/

/-- The slot of a call. -/
def Submission.pos (g : QueueSize) (s : Submission C) (k : Nat) : Nat :=
  s.ticket k &&& g.qsMinus1

/-- The steps of call `k`. -/
inductive Enqueues (g : QueueSize) (s : Submission C) (k : Nat) : Submission C → Prop
  | spin (hpc : s.pc k = .waitRelaxed ∨ s.pc k = .waitAcquire) : Enqueues g s k s
  | seen (hpc : s.pc k = .waitRelaxed) : Enqueues g s k (s.goto k .waitAcquire)
  | pass (hpc : s.pc k = .waitAcquire)
      (htest : s.tickets (s.pos g k) = getId (s.ticket k) g.qsLog2) :
      Enqueues g s k (s.goto k (.copy 0))
  | copy {i : Nat} (hpc : s.pc k = .copy i) :
      Enqueues g s k
        ({ s with
            vaddr := Function.update s.vaddr (s.pos g k)
              (Function.update (s.vaddr (s.pos g k)) i (s.cmd k i)) }.goto k
          (if i + 1 < 2 then .copy (i + 1) else .storeMark))
  | post (hpc : s.pc k = .storeMark) :
      Enqueues g s k
        ({ s with tailMark := Function.update s.tailMark (s.pos g k) true }.goto k .loadMark)
  | stays (hpc : s.pc k = .loadMark) : Enqueues g s k (s.goto k .loadTailLock)
  | leave (hpc : s.pc k = .loadMark) (hmark : s.tailMark (s.pos g k) = false) :
      Enqueues g s k (s.goto k .addTicket)
  | busy (hpc : s.pc k = .loadTailLock ∨ s.pc k = .takeTailLock) (hlock : s.tailLock = true) :
      Enqueues g s k (s.goto k .loadMark)
  | unlocked (hpc : s.pc k = .loadTailLock) : Enqueues g s k (s.goto k .takeTailLock)
  | take (hpc : s.pc k = .takeTailLock) (hlock : s.tailLock = false) :
      Enqueues g s k ({ s with tailLock := true }.goto k .loadTail)
  | loadTail (hpc : s.pc k = .loadTail) : Enqueues g s k (s.goto k (.loadHead s.tail 0))
  | room {c n : Nat} (hpc : s.pc k = .loadHead c n)
      (hne : add32 (add32 c n) 1 &&& g.qsMinus1 ≠ s.head &&& g.qsMinus1) :
      Enqueues g s k (s.goto k (.exchangeMark c n))
  | full {c n : Nat} (hpc : s.pc k = .loadHead c n) : Enqueues g s k (s.goto k (afterMove c n))
  | sweep {c n : Nat} (hpc : s.pc k = .exchangeMark c n)
      (hmark : s.tailMark (add32 c n &&& g.qsMinus1) = true) :
      Enqueues g s k
        ({ s with
            tailMark := Function.update s.tailMark (add32 c n &&& g.qsMinus1) false
            swept := s.swept + 1 }.goto k (.loadHead c (add32 n 1)))
  | unswept {c n : Nat} (hpc : s.pc k = .exchangeMark c n)
      (hmark : s.tailMark (add32 c n &&& g.qsMinus1) = false) :
      Enqueues g s k (s.goto k (afterMove c n))
  | writeDb {c n : Nat} (hpc : s.pc k = .writeDb c n) :
      Enqueues g s k
        ({ s with
            db := add32 c n &&& g.qsMinus1
            rung := s.rung + n
            advances := s.advances ++ [(c, add32 c n)] }.goto k (.storeTail c n))
  | storeTail {c n : Nat} (hpc : s.pc k = .storeTail c n) :
      Enqueues g s k ({ s with tail := add32 c n }.goto k .freeTailLock)
  | free (hpc : s.pc k = .freeTailLock) :
      Enqueues g s k ({ s with tailLock := false }.goto k .loadMark)
  | finish (hpc : s.pc k = .addTicket) :
      Enqueues g s k
        ({ s with
            tickets := Function.update s.tickets (s.pos g k) (add32 (s.tickets (s.pos g k)) 1)
            finished := Function.update s.finished (s.pos g k) (s.finished (s.pos g k) + 1) }.goto
          k .returned)

theorem afterMove_eq (curTail count : Nat) :
    (count ≠ 0 ∧ afterMove curTail count = .writeDb curTail count) ∨
      (count = 0 ∧ afterMove curTail count = .freeTailLock) := by
  rcases Nat.eq_zero_or_pos count with h | h
  · exact .inr ⟨h, if_neg (by omega)⟩
  · exact .inl ⟨by omega, if_pos (by omega)⟩

theorem enqueues_of_step {k : Nat} (h : enqueueStep g s k = some s') : Enqueues g s k s' := by
  cases hpc : s.pc k <;> simp only [enqueueStep, hpc, reduceCtorEq, Option.some.injEq] at h
  case waitRelaxed =>
    subst h
    split
    · exact .seen hpc
    · exact .spin (.inl hpc)
  case waitAcquire =>
    subst h
    split
    case isTrue htest => exact .pass hpc htest
    case isFalse => exact .spin (.inr hpc)
  case copy i =>
    subst h
    exact .copy hpc
  case storeMark =>
    subst h
    exact .post hpc
  case loadMark =>
    subst h
    cases hmark : s.tailMark (s.ticket k &&& g.qsMinus1) with
    | true => exact .stays hpc
    | false => exact .leave hpc hmark
  case loadTailLock =>
    subst h
    cases hlock : s.tailLock with
    | true => exact .busy (.inl hpc) hlock
    | false => exact .unlocked hpc
  case takeTailLock =>
    subst h
    cases hlock : s.tailLock with
    | true =>
      have hsame : { s with tailLock := true } = s := by
        cases s
        simp only at hlock
        rw [hlock]
      rw [hsame]
      exact .busy (.inr hpc) hlock
    | false => exact .take hpc hlock
  case loadTail =>
    subst h
    exact .loadTail hpc
  case loadHead c n =>
    subst h
    split
    case isTrue hne => exact .room hpc hne
    case isFalse => exact .full hpc
  case exchangeMark c n =>
    subst h
    cases hmark : s.tailMark (add32 c n &&& g.qsMinus1) with
    | true => exact .sweep hpc hmark
    | false =>
      -- the exchange leaves a mark that is down as it is
      rw [← hmark, Function.update_eq_self, hmark]
      exact .unswept hpc hmark
  case writeDb c n =>
    subst h
    exact .writeDb hpc
  case storeTail c n =>
    subst h
    exact .storeTail hpc
  case freeTailLock =>
    subst h
    exact .free hpc
  case addTicket =>
    subst h
    exact .finish hpc

/-- What no step of a call touches. -/
structure CallFrame (s s' : Submission C) (k : Nat) : Prop where
  inTicket : s'.inTicket = s.inTicket
  drawn : s'.drawn = s.drawn
  ticket : s'.ticket = s.ticket
  cmd : s'.cmd = s.cmd
  head : s'.head = s.head
  headLock : s'.headLock = s.headLock
  consumer : s'.consumer = s.consumer
  dequeued : s'.dequeued = s.dequeued
  reports : s'.reports = s.reports
  read : s'.read = s.read
  acked : s'.acked = s.acked
  pc_ne : ∀ j, j ≠ k → s'.pc j = s.pc j

theorem Enqueues.frame {k : Nat} (h : Enqueues g s k s') : CallFrame s s' k := by
  have hgoto : ∀ j, j ≠ k → ∀ p, Function.update s.pc k p j = s.pc j :=
    fun j hj p => Function.update_of_ne hj p s.pc
  cases h with
  | spin => exact ⟨rfl, rfl, rfl, rfl, rfl, rfl, rfl, rfl, rfl, rfl, rfl, fun _ _ => rfl⟩
  | _ => exact ⟨rfl, rfl, rfl, rfl, rfl, rfl, rfl, rfl, rfl, rfl, rfl, fun j hj => hgoto j hj _⟩

@[simp] theorem goto_pc_self (s : Submission C) (k : Nat) (pc : EnqueuePc) :
    (s.goto k pc).pc k = pc :=
  Function.update_self ..

/-- A call that has been made is not unmade, and counts its slot when it returns. -/
theorem Enqueues.counts {k : Nat} (h : Enqueues g s k s') :
    s.pc k ≠ .undrawn ∧ s.pc k ≠ .returned ∧ s'.pc k ≠ .undrawn ∧
      ((s'.pc k ≠ .returned ∧ s'.tickets = s.tickets ∧ s'.finished = s.finished) ∨
        (s'.pc k = .returned ∧
          s'.tickets = Function.update s.tickets (s.pos g k) (add32 (s.tickets (s.pos g k)) 1) ∧
          s'.finished = Function.update s.finished (s.pos g k) (s.finished (s.pos g k) + 1))) := by
  have hafter : ∀ c n, afterMove c n ≠ .undrawn ∧ afterMove c n ≠ .returned := by
    intro c n
    rcases afterMove_eq c n with ⟨-, h⟩ | ⟨-, h⟩ <;> rw [h] <;> simp
  cases h with
  | finish hpc => exact ⟨by simp [hpc], by simp [hpc], by simp, .inr ⟨by simp, rfl, rfl⟩⟩
  | spin hpc => rcases hpc with hpc | hpc <;> simp [hpc]
  | busy hpc =>
    rcases hpc with hpc | hpc <;>
      exact ⟨by simp [hpc], by simp [hpc], by simp, .inl ⟨by simp, rfl, rfl⟩⟩
  | copy hpc =>
    refine ⟨by simp [hpc], by simp [hpc], ?_, .inl ⟨?_, rfl, rfl⟩⟩ <;> simp <;> split <;> simp
  | full hpc | unswept hpc =>
    exact ⟨by simp [hpc], by simp [hpc], by simp [hafter], .inl ⟨by simp [hafter], rfl, rfl⟩⟩
  | seen hpc | pass hpc | post hpc | stays hpc | leave hpc | unlocked hpc | take hpc
  | loadTail hpc | room hpc | sweep hpc | writeDb hpc | storeTail hpc | free hpc =>
    exact ⟨by simp [hpc], by simp [hpc], by simp, .inl ⟨by simp, rfl, rfl⟩⟩

theorem afterMove_inTail (c n : Nat) : (afterMove c n).inTail = true := by
  rcases afterMove_eq c n with ⟨-, h⟩ | ⟨-, h⟩ <;> rw [h] <;> rfl

/-- `tail_lock` is taken when free, given back, or nobody's place changes. -/
theorem Enqueues.held {k : Nat} (hs : Enqueues g s k s')
    (h : Held (fun j => (s.pc j).inTail = true) s.tailLock) :
    Held (fun j => (s'.pc j).inTail = true) s'.tailLock := by
  have hother : ∀ j, j ≠ k → (s'.pc j).inTail = true → (s.pc j).inTail = true :=
    fun j hj hi => by rwa [hs.frame.pc_ne j hj] at hi
  have hkeep : (s'.pc k).inTail = (s.pc k).inTail → s'.tailLock = s.tailLock →
      Held (fun j => (s'.pc j).inTail = true) s'.tailLock := by
    intro hin hlock
    rw [hlock]
    refine h.keep fun j => ?_
    by_cases hj : j = k
    · subst hj
      rw [hin]
    · rw [hs.frame.pc_ne j hj]
  cases hs with
  | spin hpc => exact h
  | take hpc hlock =>
    rw [hlock] at h
    exact h.take (k := k) (by rw [goto_pc_self]; rfl) hother
  | free hpc =>
    refine h.release (k := k) (by rw [hpc]; rfl) hother ?_
    rw [goto_pc_self]
    exact Bool.false_ne_true
  | busy hpc hlock =>
    refine hkeep ?_ rfl
    rcases hpc with hpc | hpc <;> rw [hpc, goto_pc_self] <;> rfl
  | full hpc | unswept hpc => exact hkeep (by rw [hpc, goto_pc_self, afterMove_inTail]; rfl) rfl
  | copy hpc =>
    refine hkeep ?_ rfl
    rw [hpc, goto_pc_self]
    split <;> rfl
  | seen hpc | pass hpc | post hpc | stays hpc | leave hpc | unlocked hpc | loadTail hpc | room hpc
  | sweep hpc | writeDb hpc | storeTail hpc | finish hpc =>
    exact hkeep (by rw [hpc, goto_pc_self]; rfl) rfl

/-! ## Steps of the consumers -/

/-- What no step of a consumer touches. -/
structure ConsumeFrame (s s' : Submission C) (t : Nat) : Prop where
  inTicket : s'.inTicket = s.inTicket
  drawn : s'.drawn = s.drawn
  ticket : s'.ticket = s.ticket
  cmd : s'.cmd = s.cmd
  pc : s'.pc = s.pc
  tailMark : s'.tailMark = s.tailMark
  tailLock : s'.tailLock = s.tailLock
  tail : s'.tail = s.tail
  db : s'.db = s.db
  vaddr : s'.vaddr = s.vaddr
  swept : s'.swept = s.swept
  rung : s'.rung = s.rung
  advances : s'.advances = s.advances
  reports : s'.reports = s.reports
  finished : s'.finished = s.finished
  consumer_ne : ∀ u, u ≠ t → s'.consumer u = s.consumer u

/-- The steps of consumer `t`, with the place it goes to. -/
inductive Consumes (g : QueueSize) (s : Submission C) (t : Nat) : Submission C → Prop
  | busy (hpc : s.consumer t = .idle) (hlock : s.headLock = true) :
      Consumes g s t ({ s with headLock := true }.cgoto t .idle)
  | take (hpc : s.consumer t = .idle) (hlock : s.headLock = false) :
      Consumes g s t ({ s with headLock := true }.cgoto t .scan)
  | scanNone (hpc : s.consumer t = .scan) : Consumes g s t (s.cgoto t .freeHeadLock)
  | scan {count r : Nat} (hpc : s.consumer t = .scan) (hcount : count ≠ 0)
      (hr : s.reports[s.dequeued + (count - 1)]? = some r) :
      Consumes g s t ({ s with dequeued := s.dequeued + count, read := r }.cgoto t
        (.loadSqHead (r % g.qs &&& 65535)))
  | headMoved {n : Nat} (hpc : s.consumer t = .loadSqHead n)
      (hne : s.head &&& g.qsMinus1 ≠ n) :
      Consumes g s t (s.cgoto t (.addTicket n (s.head &&& g.qsMinus1) 0))
  | headStays {n : Nat} (hpc : s.consumer t = .loadSqHead n)
      (heq : s.head &&& g.qsMinus1 = n) : Consumes g s t (s.cgoto t .freeHeadLock)
  | addTicket {n loc mv : Nat} (hpc : s.consumer t = .addTicket n loc mv)
      (hne : add32 loc 1 &&& g.qsMinus1 ≠ n) :
      Consumes g s t ({ s with
        tickets := Function.update s.tickets loc (add32 (s.tickets loc) 1)
        acked := s.acked + 1 }.cgoto t
          (.addTicket n (add32 loc 1 &&& g.qsMinus1) (add32 mv 1)))
  | addTicketLast {n loc mv : Nat} (hpc : s.consumer t = .addTicket n loc mv)
      (heq : add32 loc 1 &&& g.qsMinus1 = n) :
      Consumes g s t ({ s with
        tickets := Function.update s.tickets loc (add32 (s.tickets loc) 1)
        acked := s.acked + 1 }.cgoto t (.addHead (add32 mv 1)))
  | addHead {mv : Nat} (hpc : s.consumer t = .addHead mv) :
      Consumes g s t ({ s with head := add32 s.head mv }.cgoto t .freeHeadLock)
  | free (hpc : s.consumer t = .freeHeadLock) :
      Consumes g s t ({ s with headLock := false }.cgoto t .idle)

theorem consumes_of_take {t : Nat} (h : takeHeadLock s t = some s') : Consumes g s t s' := by
  cases hpc : s.consumer t <;> simp only [takeHeadLock, hpc, reduceCtorEq, Option.some.injEq] at h
  subst h
  cases hlock : s.headLock with
  | true => exact .busy hpc hlock
  | false => exact .take hpc hlock

theorem consumes_of_scan {t count : Nat} (h : scanMarks g s t count = some s') :
    Consumes g s t s' := by
  cases hpc : s.consumer t <;> simp only [scanMarks, hpc, reduceCtorEq] at h
  split at h
  case isTrue =>
    rw [← Option.some.inj h]
    exact .scanNone hpc
  case isFalse hcount =>
    split at h
    case h_1 r hr =>
      rw [← Option.some.inj h]
      exact .scan hpc hcount hr
    case h_2 => cases h

theorem consumes_of_consume {t : Nat} (h : consumeStep g s t = some s') : Consumes g s t s' := by
  cases hpc : s.consumer t <;> simp only [consumeStep, hpc, reduceCtorEq, Option.some.injEq] at h
  case loadSqHead n =>
    subst h
    by_cases heq : s.head &&& g.qsMinus1 = n
    · rw [if_neg (not_not.mpr heq)]
      exact .headStays hpc heq
    · rw [if_pos heq]
      exact .headMoved hpc heq
  case addTicket n loc mv =>
    subst h
    by_cases heq : add32 loc 1 &&& g.qsMinus1 = n
    · rw [if_neg (not_not.mpr heq)]
      exact .addTicketLast hpc heq
    · rw [if_pos heq]
      exact .addTicket hpc heq
  case addHead mv =>
    subst h
    exact .addHead hpc
  case freeHeadLock =>
    subst h
    exact .free hpc

theorem Consumes.frame {t : Nat} (h : Consumes g s t s') : ConsumeFrame s s' t := by
  have hgoto : ∀ u, u ≠ t → ∀ p, Function.update s.consumer t p u = s.consumer u :=
    fun u hu p => Function.update_of_ne hu p s.consumer
  cases h <;>
    exact ⟨rfl, rfl, rfl, rfl, rfl, rfl, rfl, rfl, rfl, rfl, rfl, rfl, rfl, rfl, rfl,
      fun u hu => hgoto u hu _⟩

/-- The lock of the consumers is one: it is taken when free, given back, or nobody's place
    changes. -/
theorem Consumes.held {t : Nat} (hs : Consumes g s t s')
    (h : Held (fun u => (s.consumer u).inHead = true) s.headLock) :
    Held (fun u => (s'.consumer u).inHead = true) s'.headLock := by
  have hother : ∀ u, u ≠ t → (s'.consumer u).inHead = true → (s.consumer u).inHead = true :=
    fun u hu hi => by rwa [hs.frame.consumer_ne u hu] at hi
  have hkeep : (s'.consumer t).inHead = (s.consumer t).inHead → s'.headLock = s.headLock →
      Held (fun u => (s'.consumer u).inHead = true) s'.headLock := by
    intro hin hlock
    rw [hlock]
    refine h.keep fun u => ?_
    by_cases hu : u = t
    · subst hu
      rw [hin]
    · rw [hs.frame.consumer_ne u hu]
  have hself : ∀ p, Function.update s.consumer t p t = p := fun p => Function.update_self ..
  cases hs with
  | take hpc hlock =>
    rw [hlock] at h
    exact h.take (k := t) (by show (Function.update s.consumer t _ t).inHead = true; rw [hself]; rfl)
      hother
  | free hpc =>
    refine h.release (k := t) (by rw [hpc]; rfl) hother ?_
    show (Function.update s.consumer t _ t).inHead ≠ true
    rw [hself]
    exact Bool.false_ne_true
  | busy hpc hlock =>
    refine hkeep ?_ hlock.symm
    show (Function.update s.consumer t _ t).inHead = _
    rw [hself, hpc]
  | scanNone hpc | scan hpc | headMoved hpc | headStays hpc | addTicket hpc | addTicketLast hpc
  | addHead hpc =>
    refine hkeep ?_ rfl
    show (Function.update s.consumer t _ t).inHead = _
    rw [hself, hpc]
    rfl

end GidsStack.Queue
