/-
  GidsStack.Queue.Admin

  The admin queues, which the host drives one command at a time: the functions of nvm_queue.h
  and `execute_command` (rpc.cpp), which enqueues a command, rings the doorbell and waits until
  a completion comes or the time is up.

  `execute_command` hands back whatever completion is next in the ring. It replaces the
  identifier of a command, but never looks at that of a completion. So a command that times out
  shifts all later answers by one: a call gets the completion of the command that came as many
  calls earlier as there have been timeouts (`answers_shifted`), and when a ring of them has
  gone by, every call is refused.
-/

import GidsStack.Lib.PhaseRing
import GidsStack.Lib.Transition
import GidsStack.Queue.Completion
import Mathlib.Data.Nat.ModEq

namespace GidsStack.Queue

open Laps Lib

/-! ## The queues of the host -/

/-- The fields of `nvm_queue_t` that the host uses. -/
structure HostQueue where
  qs : Nat
  head : Nat
  tail : Nat
  last : Nat
  phase : Bool
  deriving DecidableEq, Repr

namespace HostQueue

/-- `nvm_queue_clear`. -/
def clear (qs : Nat) : HostQueue :=
  ⟨qs, 0, 0, 0, true⟩

/-- `nvm_sq_enqueue`: the slot of the command, `none` when the queue is full. -/
def sqEnqueue (sq : HostQueue) : Option (Nat × HostQueue) :=
  if (sq.tail + (4294967296 - sq.head)) % 4294967296 % 65536 % sq.qs = sq.qs - 1 then none
  else if sq.tail + 1 = sq.qs then some (sq.tail, { sq with phase := !sq.phase, tail := 0 })
  else some (sq.tail, { sq with tail := sq.tail + 1 })

/-- `NVM_DEFAULT_CID`. -/
def defaultCid (sq : HostQueue) : Nat :=
  (sq.tail + (if sq.phase then 0 else 1) * sq.qs) % 65536

/-- `nvm_sq_submit`. -/
def sqSubmit (sq : HostQueue) (db : Nat) : HostQueue × Nat :=
  if sq.last ≠ sq.tail then ({ sq with last := sq.tail }, sq.tail) else (sq, db)

/-- `nvm_sq_update`. -/
def sqUpdate (sq : HostQueue) : HostQueue :=
  { sq with head := if sq.head + 1 = sq.qs then 0 else sq.head + 1 }

/-- `nvm_cq_poll`. -/
def cqPoll (cq : HostQueue) (vaddr : Nat → Cpl) : Option Cpl :=
  if (vaddr cq.head).phase ≠ cq.phase then none else some (vaddr cq.head)

/-- `nvm_cq_dequeue`. -/
def cqDequeue (cq : HostQueue) (vaddr : Nat → Cpl) : Option (Cpl × HostQueue) :=
  (cq.cqPoll vaddr).map fun cpl =>
    (cpl, if cq.head + 1 = cq.qs then { cq with head := 0, phase := !cq.phase }
      else { cq with head := cq.head + 1 })

/-- `nvm_cq_update`. -/
def cqUpdate (cq : HostQueue) (db : Nat) : HostQueue × Nat :=
  if cq.last ≠ cq.head then ({ cq with tail := cq.head, last := cq.head }, cq.head) else (cq, db)

end HostQueue

/-! ## State -/

/-- What a call of `execute_command` came back with. -/
structure Answer where
  /-- the number of its command -/
  call : Nat
  /-- the command whose completion it got -/
  got : Nat
  /-- how many calls before it had timed out -/
  timeouts : Nat
  cpl : Cpl
  deriving DecidableEq, Repr

/-- A command with the identifier it was given. -/
structure AdminCmd (C : Type) where
  cid : Nat
  cmd : C
  deriving DecidableEq, Repr

structure Admin (C : Type) where
  asq : HostQueue
  acq : HostQueue
  sqVaddr : Nat → Option (AdminCmd C)
  cqVaddr : Nat → Cpl
  sqDb : Nat
  cqDb : Nat
  /-- a call waits for a completion -/
  waiting : Bool
  /-- how many commands the controller has fetched -/
  fetched : Nat
  taken : Nat → Option (AdminCmd C)
  executed : Nat → Bool
  /-- how many completions it has posted -/
  posted : Nat
  log : Nat → Cpl
  /-- the command whose completion is the `n`-th -/
  owner : Nat → Nat
  /-- the commands that have been enqueued -/
  cmds : List (AdminCmd C)
  /-- how many calls have timed out -/
  timeouts : Nat
  answers : List Answer

variable {C : Type}

/-- The queues as `create_admin` leaves them. -/
def Admin.create (gs gc : QueueSize) : Admin C where
  asq := .clear gs.qs
  acq := .clear gc.qs
  sqVaddr _ := none
  cqVaddr _ := ⟨0, 0⟩
  sqDb := 0
  cqDb := 0
  waiting := false
  fetched := 0
  taken _ := none
  executed _ := false
  posted := 0
  log _ := ⟨0, 0⟩
  owner _ := 0
  cmds := []
  timeouts := 0
  answers := []

/-! ## execute_command -/

/-- Up to the wait; a full queue leaves everything as it is (`EAGAIN`). -/
def Admin.submit (s : Admin C) (c : C) : Admin C :=
  match s.asq.sqEnqueue with
  | none => s
  | some (slot, sq) =>
    let cmd : AdminCmd C := ⟨sq.defaultCid, c⟩
    let (sq', db) := sq.sqSubmit s.sqDb
    { s with
      asq := sq'
      sqVaddr := Function.update s.sqVaddr slot (some cmd)
      sqDb := db
      cmds := s.cmds ++ [cmd]
      waiting := true }

/-- One round of `nvm_cq_dequeue_block`, and the rest of the function when a completion is
    there. -/
def Admin.poll (s : Admin C) : Admin C :=
  match s.acq.cqDequeue s.cqVaddr with
  | none => s
  | some (cpl, cq) =>
    let (cq', db) := cq.cqUpdate s.cqDb
    { s with
      asq := s.asq.sqUpdate
      acq := cq'
      cqDb := db
      waiting := false
      answers := s.answers ++
        [⟨s.cmds.length - 1, s.owner s.answers.length, s.timeouts, cpl⟩] }

/-! ## The system -/

inductive AdminAct (C : Type)
  | call (c : C)
  | poll
  /-- the time is up (`ETIME`) -/
  | timeout
  /-- the controller fetches the next command -/
  | fetch
  /-- the controller completes command `d` -/
  | complete (d : Nat) (e : Cpl)

/-- A completion the controller may post for command `d`. -/
def Admin.MayComplete (gc : QueueSize) (s : Admin C) (d : Nat) (e : Cpl) : Prop :=
  d < s.fetched ∧ s.executed d = false ∧ some e.cid = (s.taken d).map AdminCmd.cid ∧
    e.phase = (tailAfter gc.qs s.posted).phase ∧
    ((tailAfter gc.qs s.posted).next gc.qs).pos ≠ s.cqDb

instance Admin.decidableMayComplete (gc : QueueSize) (s : Admin C) (d : Nat) (e : Cpl) :
    Decidable (s.MayComplete gc d e) :=
  inferInstanceAs (Decidable (_ ∧ _ ∧ _ ∧ _ ∧ _))

def adminStep (gs gc : QueueSize) (s : Admin C) : AdminAct C → Option (Admin C)
  | .call c => if s.waiting then none else some (s.submit c)
  | .poll => if s.waiting then some s.poll else none
  | .timeout =>
    if s.waiting then some { s with waiting := false, timeouts := s.timeouts + 1 } else none
  | .fetch =>
    if s.fetched % gs.qs ≠ s.sqDb then
      some { s with
        taken := Function.update s.taken s.fetched (s.sqVaddr (s.fetched % gs.qs))
        fetched := s.fetched + 1 }
    else none
  | .complete d e =>
    if s.MayComplete gc d e then
      some { s with
        cqVaddr := Function.update s.cqVaddr (tailAfter gc.qs s.posted).pos e
        log := Function.update s.log s.posted e
        owner := Function.update s.owner s.posted d
        executed := Function.update s.executed d true
        posted := s.posted + 1 }
    else none

variable {gs gc : QueueSize} {s s' : Admin C}

/-! ## Places -/

theorem tailAfter_pos (h : 0 < gs.qs) (n : Nat) : (tailAfter gs.qs n).pos = n % gs.qs := by
  rw [tailAfter_eq h]

theorem succ_mod (g : QueueSize) (n : Nat) :
    (n + 1) % g.qs = if n % g.qs + 1 = g.qs then 0 else n % g.qs + 1 := by
  have hsucc : (tailAfter g.qs (n + 1)).pos = ((tailAfter g.qs n).next g.qs).pos := rfl
  rw [CqTail.next, tailAfter_pos g.qs_pos, tailAfter_pos g.qs_pos] at hsucc
  rw [hsucc]
  split <;> rfl

/-- The test for a full queue, on the numbers of commands and completions. -/
theorem full_iff (g : QueueSize) {m n : Nat} (hle : m ≤ n) (hroom : n < m + g.qs) :
    (n % g.qs + (4294967296 - m % g.qs)) % 4294967296 % 65536 % g.qs = g.qs - 1 ↔
      n - m = g.qs - 1 := by
  have hpos := g.qs_pos
  have hqs := g.qs_le
  have hdvd : g.qs ∣ 65536 := by
    show 2 ^ g.qsLog2 ∣ 2 ^ 16
    exact Nat.pow_dvd_pow 2 g.le_16
  have hdvd32 : g.qs ∣ 4294967296 := Nat.dvd_trans hdvd ⟨65536, rfl⟩
  have hm := Nat.mod_lt m hpos
  have hsub : (n % g.qs + (4294967296 - m % g.qs)) % g.qs = (n - m) % g.qs := by
    -- both give `n % qs` when `m % qs` is added
    have hsum : n % g.qs + (4294967296 - m % g.qs) + m % g.qs ≡ n - m + m % g.qs [MOD g.qs] := by
      calc n % g.qs + (4294967296 - m % g.qs) + m % g.qs
          = n % g.qs + 4294967296 := by omega
        _ ≡ n + 0 [MOD g.qs] :=
            (Nat.mod_modEq n g.qs).add (Nat.modEq_zero_iff_dvd.mpr hdvd32)
        _ = n - m + m := by omega
        _ ≡ n - m + m % g.qs [MOD g.qs] := (Nat.ModEq.refl _).add (Nat.mod_modEq m g.qs).symm
    exact Nat.ModEq.add_right_cancel' _ hsum
  rw [Nat.mod_mod_of_dvd _ (show 65536 ∣ 4294967296 from ⟨65536, rfl⟩),
    Nat.mod_mod_of_dvd _ hdvd, hsub, Nat.mod_eq_of_lt (by omega)]

theorem defaultCid_tailAfter {qs : Nat} (h : 0 < qs) (head last n : Nat) :
    HostQueue.defaultCid ⟨qs, head, (tailAfter qs n).pos, last, (tailAfter qs n).phase⟩ =
      n % (2 * qs) % 65536 := by
  rw [tailAfter_eq h, HostQueue.defaultCid, Nat.mul_comm 2 qs, Nat.mod_mul]
  congr 2
  rcases Nat.mod_two_eq_zero_or_one (n / qs) with hp | hp <;> simp [hp]

/-! ## The invariant -/

/-- How many completions have been handed back. -/
abbrev Admin.dequeued (s : Admin C) : Nat := s.answers.length

/-- How many commands have been enqueued. -/
abbrev Admin.enqueued (s : Admin C) : Nat := s.cmds.length

structure AdminInv (gs gc : QueueSize) (s : Admin C) : Prop where
  asq : s.asq = ⟨gs.qs, s.dequeued % gs.qs, (tailAfter gs.qs s.enqueued).pos,
    (tailAfter gs.qs s.enqueued).pos, (tailAfter gs.qs s.enqueued).phase⟩
  acq : s.acq = ⟨gc.qs, (tailAfter gc.qs s.dequeued).pos, (tailAfter gc.qs s.dequeued).pos,
    (tailAfter gc.qs s.dequeued).pos, (tailAfter gc.qs s.dequeued).phase⟩
  sqDb : s.sqDb = (tailAfter gs.qs s.enqueued).pos
  cqDb : s.cqDb = (tailAfter gc.qs s.dequeued).pos
  count : s.enqueued = s.dequeued + s.timeouts + if s.waiting then 1 else 0
  room : s.enqueued < s.dequeued + gs.qs
  fetched_le : s.fetched ≤ s.enqueued
  slots : ∀ d, s.dequeued ≤ d → d < s.enqueued → s.sqVaddr (d % gs.qs) = s.cmds[d]?
  cids : ∀ d cmd, s.cmds[d]? = some cmd → cmd.cid = (d + 1) % (2 * gs.qs) % 65536
  taken : ∀ d < s.fetched, s.taken d = s.cmds[d]?
  posted : s.posted = Nat.count (fun d => s.executed d = true) s.fetched
  executed : ∀ d, s.executed d = true → d < s.fetched
  dequeued_le : s.dequeued ≤ s.posted
  posted_lt : s.posted < s.dequeued + gc.qs
  vaddr : PhaseRing.Written gc.qs (fun p => (s.cqVaddr p, (s.cqVaddr p).phase)) s.log s.posted
  owner : ∀ n < s.posted, s.executed (s.owner n) = true
  owner_inj : ∀ m < s.posted, ∀ n < s.posted, s.owner m = s.owner n → m = n
  logCid : ∀ n < s.posted, some (s.log n).cid = s.cmds[s.owner n]?.map AdminCmd.cid
  /-- as long as every call waits for its completion, they come in order -/
  inOrder : s.timeouts = 0 → ∀ n < s.posted, s.owner n = n
  answer : ∀ i (h : i < s.answers.length), (s.answers[i]).got = s.owner i ∧
    (s.answers[i]).call = i + (s.answers[i]).timeouts ∧ (s.answers[i]).cpl = s.log i ∧
      (s.answers[i]).timeouts ≤ s.timeouts ∧
        ((s.answers[i]).timeouts = 0 → (s.answers[i]).got = i)

namespace AdminInv

theorem create (gs gc : QueueSize) : AdminInv gs gc (Admin.create gs gc : Admin C) where
  asq := by
    show HostQueue.clear gs.qs = ⟨gs.qs, 0 % gs.qs, 0, 0, true⟩
    rw [Nat.zero_mod]
    rfl
  acq := rfl
  sqDb := rfl
  cqDb := rfl
  count := rfl
  room := Nat.lt_of_lt_of_le gs.qs_pos (Nat.le_add_left _ _)
  fetched_le := Nat.le_refl _
  slots _ _ hd := absurd hd (Nat.not_lt_zero _)
  cids _ _ hd := nomatch hd
  taken _ hd := absurd hd (Nat.not_lt_zero _)
  posted := rfl
  executed _ hd := nomatch hd
  dequeued_le := Nat.le_refl _
  posted_lt := Nat.lt_of_lt_of_le gc.qs_pos (Nat.le_add_left _ _)
  vaddr := PhaseRing.written_zero fun k => by
    show ((Admin.create gs gc : Admin C).cqVaddr k).phase = false
    rw [show (Admin.create gs gc : Admin C).cqVaddr k = ⟨0, 0⟩ from rfl]
    decide
  owner _ hn := absurd hn (Nat.not_lt_zero _)
  owner_inj _ hm := absurd hm (Nat.not_lt_zero _)
  logCid _ hn := absurd hn (Nat.not_lt_zero _)
  inOrder _ _ hn := absurd hn (Nat.not_lt_zero _)
  answer _ hi := absurd hi (Nat.not_lt_zero _)

theorem posted_le (h : AdminInv gs gc s) : s.posted ≤ s.fetched := by
  rw [h.posted]
  exact Nat.count_le _

/-- The queue is full when a whole ring of commands but one has no answer. -/
theorem sqEnqueue_none_iff (h : AdminInv gs gc s) :
    s.asq.sqEnqueue = none ↔ s.enqueued - s.dequeued = gs.qs - 1 := by
  have hroom := h.room
  have hcount := h.count
  have hfull := full_iff gs (show s.dequeued ≤ s.enqueued by omega) hroom
  rw [h.asq, HostQueue.sqEnqueue]
  simp only [tailAfter_pos gs.qs_pos]
  rw [← hfull]
  split
  case isTrue hf => exact ⟨fun _ => hf, fun _ => rfl⟩
  case isFalse hf =>
    refine ⟨fun hnone => ?_, fun hf' => absurd hf' hf⟩
    split at hnone <;> cases hnone

/-- What `nvm_sq_enqueue` does when there is room. -/
theorem sqEnqueue_some (h : AdminInv gs gc s) (hroom : s.enqueued - s.dequeued ≠ gs.qs - 1) :
    s.asq.sqEnqueue = some (s.enqueued % gs.qs,
      { s.asq with
        tail := (tailAfter gs.qs (s.enqueued + 1)).pos
        phase := (tailAfter gs.qs (s.enqueued + 1)).phase }) := by
  have hnone := mt h.sqEnqueue_none_iff.mp hroom
  rw [HostQueue.sqEnqueue] at hnone ⊢
  split at hnone
  case isTrue => exact absurd rfl hnone
  case isFalse hf =>
    rw [if_neg hf, tailAfter, CqTail.next, h.asq]
    simp only
    rw [tailAfter_pos gs.qs_pos]
    split <;> rfl

theorem submit_eq (h : AdminInv gs gc s) (hroom : s.enqueued - s.dequeued ≠ gs.qs - 1) (c : C) :
    s.submit c =
      { s with
        asq := ⟨gs.qs, s.dequeued % gs.qs, (tailAfter gs.qs (s.enqueued + 1)).pos,
          (tailAfter gs.qs (s.enqueued + 1)).pos, (tailAfter gs.qs (s.enqueued + 1)).phase⟩
        sqVaddr := Function.update s.sqVaddr (s.enqueued % gs.qs)
          (some ⟨(s.enqueued + 1) % (2 * gs.qs) % 65536, c⟩)
        sqDb := (tailAfter gs.qs (s.enqueued + 1)).pos
        cmds := s.cmds ++ [⟨(s.enqueued + 1) % (2 * gs.qs) % 65536, c⟩]
        waiting := true } := by
  have hcid : HostQueue.defaultCid ⟨gs.qs, s.dequeued % gs.qs,
      (tailAfter gs.qs (s.enqueued + 1)).pos, (tailAfter gs.qs s.enqueued).pos,
      (tailAfter gs.qs (s.enqueued + 1)).phase⟩ = (s.enqueued + 1) % (2 * gs.qs) % 65536 :=
    defaultCid_tailAfter gs.qs_pos _ _ _
  have hmoved : (tailAfter gs.qs s.enqueued).pos ≠ (tailAfter gs.qs (s.enqueued + 1)).pos := by
    rw [tailAfter_pos gs.qs_pos, tailAfter_pos gs.qs_pos]
    exact (succ_mod_ne gs.two_le_qs _).symm
  rw [Admin.submit, h.sqEnqueue_some hroom, h.asq]
  simp only [HostQueue.sqSubmit, if_pos hmoved, hcid]

theorem call (h : AdminInv gs gc s) (hw : s.waiting = false) (c : C) :
    AdminInv gs gc (s.submit c) := by
  by_cases hfull : s.enqueued - s.dequeued = gs.qs - 1
  · rw [Admin.submit, h.sqEnqueue_none_iff.mpr hfull]
    exact h
  have hroom := h.room
  have hcount := h.count
  have hdeq := h.dequeued_le
  have hfetched := h.fetched_le
  rw [hw] at hcount
  rw [h.submit_eq hfull]
  generalize hcmd : (⟨(s.enqueued + 1) % (2 * gs.qs) % 65536, c⟩ : AdminCmd C) = cmd
  have hlen : (s.cmds ++ [cmd]).length = s.enqueued + 1 := List.length_append
  have hold {d : Nat} (hd : d < s.enqueued) : (s.cmds ++ [cmd])[d]? = s.cmds[d]? :=
    List.getElem?_append_left hd
  exact
    { h with
      asq := by
        show _ = HostQueue.mk gs.qs _ (tailAfter gs.qs (s.cmds ++ [cmd]).length).pos
          (tailAfter gs.qs (s.cmds ++ [cmd]).length).pos
          (tailAfter gs.qs (s.cmds ++ [cmd]).length).phase
        rw [hlen]
      sqDb := by
        show _ = (tailAfter gs.qs (s.cmds ++ [cmd]).length).pos
        rw [hlen]
      count := by
        show (s.cmds ++ [cmd]).length = s.dequeued + s.timeouts + 1
        rw [hlen]
        simp only [Bool.false_eq_true, if_false] at hcount
        omega
      room := by
        show (s.cmds ++ [cmd]).length < s.dequeued + gs.qs
        omega
      fetched_le := by
        show s.fetched ≤ (s.cmds ++ [cmd]).length
        omega
      slots := fun d hle hlt => by
        replace hlt : d < (s.cmds ++ [cmd]).length := hlt
        rw [hlen] at hlt
        rcases Nat.lt_succ_iff_lt_or_eq.mp hlt with hd | rfl
        · -- the new command takes the place of one that has its answer
          have hle' : s.dequeued ≤ d := hle
          have hne : d % gs.qs ≠ s.enqueued % gs.qs := fun hmod => by
            have := eq_of_mod_eq hmod (by omega) (by omega)
            omega
          rw [hold hd]
          exact (Function.update_of_ne hne _ _).trans (h.slots d hle hd)
        · rw [List.getElem?_concat_length]
          exact Function.update_self _ _ _
      cids := fun d cmd' hd => by
        have hlt := (List.getElem?_eq_some_iff.mp hd).1
        rw [hlen] at hlt
        rcases Nat.lt_succ_iff_lt_or_eq.mp hlt with hlt | rfl
        · exact h.cids d cmd' ((hold hlt).symm.trans hd)
        · rw [List.getElem?_concat_length] at hd
          rw [← Option.some.inj hd, ← hcmd]
      taken := fun d hd => (h.taken d hd).trans (hold (Nat.lt_of_lt_of_le hd hfetched)).symm
      logCid := fun n hn => by
        have hlt := h.executed _ (h.owner n hn)
        rw [hold (Nat.lt_of_lt_of_le hlt hfetched)]
        exact h.logCid n hn }

/-- What `nvm_cq_dequeue` finds: the next completion. The doorbell follows the head over it. -/
theorem cqDequeue_some (h : AdminInv gs gc s) {cpl : Cpl} {cq : HostQueue}
    (hdeq : s.acq.cqDequeue s.cqVaddr = some (cpl, cq)) :
    s.dequeued < s.posted ∧ cpl = s.log s.dequeued ∧
      cq.cqUpdate s.cqDb = (⟨gc.qs, (tailAfter gc.qs (s.dequeued + 1)).pos,
        (tailAfter gc.qs (s.dequeued + 1)).pos, (tailAfter gc.qs (s.dequeued + 1)).pos,
        (tailAfter gc.qs (s.dequeued + 1)).phase⟩, (tailAfter gc.qs (s.dequeued + 1)).pos) := by
  obtain ⟨cpl', hpoll, heq⟩ := Option.map_eq_some_iff.mp hdeq
  obtain ⟨rfl, rfl⟩ := Prod.mk.inj heq
  rw [HostQueue.cqPoll, h.acq] at hpoll
  simp only at hpoll
  split at hpoll
  case isTrue => cases hpoll
  case isFalse hphase =>
    have hroom := h.posted_lt
    have hle := h.dequeued_le
    rw [tailAfter_pos gc.qs_pos, tailAfter_eq gc.qs_pos, not_not] at hphase
    obtain ⟨hlt, hlog⟩ := h.vaddr.read gc.qs_pos (show s.dequeued < s.posted + gc.qs by
      have := gc.qs_pos
      omega) (by omega) hphase
    rw [tailAfter_pos gc.qs_pos] at hpoll
    refine ⟨hlt, (Option.some.inj hpoll).symm.trans hlog, ?_⟩
    have hmoved : (tailAfter gc.qs s.dequeued).pos ≠ (tailAfter gc.qs (s.dequeued + 1)).pos := by
      rw [tailAfter_pos gc.qs_pos, tailAfter_pos gc.qs_pos]
      exact (succ_mod_ne gc.two_le_qs _).symm
    rw [tailAfter, CqTail.next] at hmoved ⊢
    rw [h.acq]
    simp only
    by_cases hlast : (tailAfter gc.qs s.dequeued).pos + 1 = gc.qs
    · rw [if_pos hlast] at hmoved
      rw [if_pos hlast, if_pos hlast]
      exact if_pos hmoved
    · rw [if_neg hlast] at hmoved
      rw [if_neg hlast, if_neg hlast]
      exact if_pos hmoved

theorem poll (h : AdminInv gs gc s) (hw : s.waiting = true) : AdminInv gs gc s.poll := by
  rw [Admin.poll]
  cases hdeq : s.acq.cqDequeue s.cqVaddr with
  | none => exact h
  | some found =>
    obtain ⟨cpl, cq⟩ := found
    obtain ⟨hlt, rfl, hupdate⟩ := h.cqDequeue_some hdeq
    have hcount := h.count
    have hroom := h.room
    have hposted := h.posted_lt
    rw [hw, if_pos rfl] at hcount
    simp only [hupdate]
    generalize hans : (⟨s.cmds.length - 1, s.owner s.answers.length, s.timeouts,
      s.log s.dequeued⟩ : Answer) = a
    have hlen : (s.answers ++ [a]).length = s.dequeued + 1 := List.length_append
    exact
      { h with
        asq := by
          show s.asq.sqUpdate = HostQueue.mk gs.qs ((s.answers ++ [a]).length % gs.qs) _ _ _
          rw [hlen, h.asq, HostQueue.sqUpdate, succ_mod]
        acq := by
          show _ = HostQueue.mk gc.qs (tailAfter gc.qs (s.answers ++ [a]).length).pos
            (tailAfter gc.qs (s.answers ++ [a]).length).pos
            (tailAfter gc.qs (s.answers ++ [a]).length).pos
            (tailAfter gc.qs (s.answers ++ [a]).length).phase
          rw [hlen]
        cqDb := by
          show _ = (tailAfter gc.qs (s.answers ++ [a]).length).pos
          rw [hlen]
        count := by
          show s.enqueued = (s.answers ++ [a]).length + s.timeouts + 0
          omega
        room := by
          show s.enqueued < (s.answers ++ [a]).length + gs.qs
          omega
        slots := fun d hle hd => by
          replace hle : (s.answers ++ [a]).length ≤ d := hle
          exact h.slots d (by omega) hd
        dequeued_le := by
          show (s.answers ++ [a]).length ≤ s.posted
          omega
        posted_lt := by
          show s.posted < (s.answers ++ [a]).length + gc.qs
          omega
        answer := fun i hi => by
          rcases Nat.lt_succ_iff_lt_or_eq.mp (hlen ▸ hi) with hi' | rfl
          · show ((s.answers ++ [a])[i]).got = _ ∧ _
            rw [List.getElem_append_left hi']
            exact h.answer i hi'
          · show ((s.answers ++ [a])[s.answers.length]).got = _ ∧ _
            rw [List.getElem_concat_length rfl, ← hans]
            exact ⟨rfl, by
              show s.enqueued - 1 = s.dequeued + s.timeouts
              omega, rfl, Nat.le_refl _, fun h0 => h.inOrder h0 _ hlt⟩ }

theorem timeout (h : AdminInv gs gc s) (hw : s.waiting = true) :
    AdminInv gs gc { s with waiting := false, timeouts := s.timeouts + 1 } := by
  have hcount := h.count
  rw [hw, if_pos rfl] at hcount
  exact
    { h with
      count := by
        show s.enqueued = s.dequeued + (s.timeouts + 1) + 0
        omega
      inOrder := fun h0 => absurd h0 (Nat.succ_ne_zero _)
      answer := fun i hi => by
        obtain ⟨hgot, hcall, hcpl, hle, hown⟩ := h.answer i hi
        exact ⟨hgot, hcall, hcpl, Nat.le_succ_of_le hle, hown⟩ }

theorem fetch (h : AdminInv gs gc s) (hdb : s.fetched % gs.qs ≠ s.sqDb) :
    AdminInv gs gc
      { s with
        taken := Function.update s.taken s.fetched (s.sqVaddr (s.fetched % gs.qs))
        fetched := s.fetched + 1 } := by
  have hle := h.fetched_le
  have hposted := h.posted_le
  have hdeq := h.dequeued_le
  have hlt : s.fetched < s.enqueued := by
    refine Nat.lt_of_le_of_ne hle fun heq => hdb ?_
    rw [h.sqDb, tailAfter_pos gs.qs_pos, heq]
  have hnot : ¬ s.executed s.fetched = true := fun hex =>
    absurd (h.executed _ hex) (Nat.lt_irrefl _)
  exact
    { h with
      fetched_le := hlt
      taken := fun d hd => by
        rcases Nat.lt_succ_iff_lt_or_eq.mp hd with hd | rfl
        · exact (Function.update_of_ne (Nat.ne_of_lt hd) _ _).trans (h.taken d hd)
        · exact (Function.update_self _ _ _).trans (h.slots _ (by omega) hlt)
      posted := by
        show s.posted = Nat.count (fun d => s.executed d = true) (s.fetched + 1)
        rw [Nat.count_succ, if_neg hnot]
        exact h.posted
      executed := fun d hd => Nat.lt_succ_of_lt (h.executed d hd) }

/-- While every call waits for its completion, only the last command can be completed. -/
theorem next_of_inOrder (h : AdminInv gs gc s) (h0 : s.timeouts = 0) {d : Nat}
    (hd : d < s.fetched) (hnot : s.executed d = false) : d = s.posted := by
  have hle := h.fetched_le
  have hdeq := h.dequeued_le
  have hcount := h.count
  have hone : (if s.waiting = true then 1 else 0) ≤ 1 := by split <;> omega
  have hge : s.posted ≤ d := by
    refine Nat.le_of_not_lt fun hlt => ?_
    have hex := h.owner d hlt
    rw [h.inOrder h0 d hlt, hnot] at hex
    cases hex
  omega

theorem complete (h : AdminInv gs gc s) {d : Nat} {e : Cpl} (hmay : s.MayComplete gc d e) :
    AdminInv gs gc
      { s with
        cqVaddr := Function.update s.cqVaddr (tailAfter gc.qs s.posted).pos e
        log := Function.update s.log s.posted e
        owner := Function.update s.owner s.posted d
        executed := Function.update s.executed d true
        posted := s.posted + 1 } := by
  obtain ⟨hd, hnot, hcid, hphase, hfull⟩ := hmay
  have hdeq := h.dequeued_le
  have hposted := h.posted_lt
  have hotherLog {n : Nat} (hn : n < s.posted) :
      Function.update s.log s.posted e n = s.log n := Function.update_of_ne (Nat.ne_of_lt hn) _ _
  have hother {n : Nat} (hn : n < s.posted) :
      Function.update s.owner s.posted d n = s.owner n :=
    Function.update_of_ne (Nat.ne_of_lt hn) _ _
  have hnew : Function.update s.owner s.posted d s.posted = d := Function.update_self _ _ _
  have hfresh {n : Nat} (hn : n < s.posted) : s.owner n ≠ d := fun heq => by
    have hex := h.owner n hn
    rw [heq, hnot] at hex
    cases hex
  exact
    { h with
      posted := by
        show s.posted + 1 = _
        have hone : Nat.count (fun j => Function.update s.executed d true j = true) s.fetched =
            Nat.count (fun j => s.executed j = true) s.fetched + 1 :=
          count_insert hd (by rw [hnot]; exact Bool.false_ne_true) (Function.update_self _ _ _)
            fun j hj => by rw [Function.update_of_ne hj]
        rw [h.posted]
        exact hone.symm
      executed := fun j hj => by
        by_cases hjd : j = d
        · exact hjd ▸ hd
        · exact h.executed j ((Function.update_of_ne hjd _ _).symm.trans hj)
      dequeued_le := Nat.le_succ_of_le hdeq
      posted_lt := by
        show s.posted + 1 < s.dequeued + gc.qs
        -- were the ring full, the next place would be the one the doorbell names
        refine Nat.lt_of_le_of_ne hposted fun heq => hfull ?_
        rw [show (tailAfter gc.qs s.posted).next gc.qs = tailAfter gc.qs (s.posted + 1) from rfl,
          h.cqDb, tailAfter_pos gc.qs_pos, tailAfter_pos gc.qs_pos, heq, Nat.add_mod_right]
      vaddr := by
        show PhaseRing.Written gc.qs (fun p =>
            (Function.update s.cqVaddr (tailAfter gc.qs s.posted).pos e p,
              (Function.update s.cqVaddr (tailAfter gc.qs s.posted).pos e p).phase))
          (Function.update s.log s.posted e) (s.posted + 1)
        rw [tailAfter_eq gc.qs_pos] at hphase ⊢
        refine cast ?_ (h.vaddr.write e)
        congr 1
        funext p
        by_cases hp : p = s.posted % gc.qs
        · rw [hp, Function.update_self, Function.update_self, hphase]
          rfl
        · rw [Function.update_of_ne hp, Function.update_of_ne hp]
      owner := fun n hn => by
        show Function.update s.executed d true (Function.update s.owner s.posted d n) = true
        rcases Nat.lt_succ_iff_lt_or_eq.mp hn with hn | rfl
        · rw [hother hn, Function.update_of_ne (hfresh hn)]
          exact h.owner n hn
        · rw [hnew, Function.update_self]
      owner_inj := fun m hm n hn heq => by
        replace heq : Function.update s.owner s.posted d m =
          Function.update s.owner s.posted d n := heq
        rcases Nat.lt_succ_iff_lt_or_eq.mp hm with hm | rfl <;>
          rcases Nat.lt_succ_iff_lt_or_eq.mp hn with hn | rfl
        · rw [hother hm, hother hn] at heq
          exact h.owner_inj m hm n hn heq
        · rw [hother hm, hnew] at heq
          exact absurd heq (hfresh hm)
        · rw [hnew, hother hn] at heq
          exact absurd heq.symm (hfresh hn)
        · rfl
      logCid := fun n hn => by
        show some (Function.update s.log s.posted e n).cid =
          (s.cmds[Function.update s.owner s.posted d n]?).map AdminCmd.cid
        rcases Nat.lt_succ_iff_lt_or_eq.mp hn with hn | rfl
        · rw [hotherLog hn, hother hn]
          exact h.logCid n hn
        · rw [hnew, Function.update_self, ← h.taken d hd]
          exact hcid
      inOrder := fun h0 n hn => by
        show Function.update s.owner s.posted d n = n
        rcases Nat.lt_succ_iff_lt_or_eq.mp hn with hn | rfl
        · exact (hother hn).trans (h.inOrder h0 n hn)
        · exact hnew.trans (h.next_of_inOrder h0 hd hnot)
      answer := fun i hi => by
        have hlt : i < s.posted := Nat.lt_of_lt_of_le hi hdeq
        show _ = Function.update s.owner s.posted d i ∧ _ ∧
          _ = Function.update s.log s.posted e i ∧ _
        rw [hother hlt, hotherLog hlt]
        exact h.answer i hi }

/-- One step keeps it. -/
theorem step (h : AdminInv gs gc s) {a : AdminAct C} (hstep : adminStep gs gc s a = some s') :
    AdminInv gs gc s' := by
  cases a with
  | call c =>
    simp only [adminStep] at hstep
    split at hstep
    case isTrue => cases hstep
    case isFalse hw => exact Option.some.inj hstep ▸ h.call (Bool.eq_false_iff.mpr hw) c
  | poll =>
    simp only [adminStep] at hstep
    split at hstep
    case isTrue hw => exact Option.some.inj hstep ▸ h.poll hw
    case isFalse => cases hstep
  | timeout =>
    simp only [adminStep] at hstep
    split at hstep
    case isTrue hw => exact Option.some.inj hstep ▸ h.timeout hw
    case isFalse => cases hstep
  | fetch =>
    simp only [adminStep] at hstep
    split at hstep
    case isTrue hdb => exact Option.some.inj hstep ▸ h.fetch hdb
    case isFalse => cases hstep
  | complete d e =>
    simp only [adminStep] at hstep
    split at hstep
    case isTrue hmay => exact Option.some.inj hstep ▸ h.complete hmay
    case isFalse => cases hstep

end AdminInv

/-! ## What the calls get -/

/-- The states of the admin queues in all runs. -/
abbrev AdminReached (gs gc : QueueSize) (s : Admin C) : Prop :=
  Reachable (· = Admin.create gs gc) (fun s a s' => adminStep gs gc s a = some s') s

theorem adminInv_reached (h : AdminReached gs gc s) : AdminInv gs gc s :=
  h.invariant (fun _ h0 => h0 ▸ AdminInv.create gs gc) fun _ _ _ hinv hstep => hinv.step hstep

structure AdminSafe (gs : QueueSize) (s : Admin C) : Prop where
  /-- the controller fetches the commands as they were enqueued -/
  fetched : s.fetched ≤ s.enqueued ∧ ∀ d < s.fetched, s.taken d = s.cmds[d]?
  /-- what a call gets is the completion of an executed command -/
  completes : ∀ a ∈ s.answers, s.executed a.got = true ∧
    some a.cpl.cid = s.cmds[a.got]?.map AdminCmd.cid
  once : s.answers.Pairwise fun a b => a.got ≠ b.got
  /-- before the first timeout it is that of its own command -/
  own : ∀ a ∈ s.answers, a.timeouts = 0 → a.got = a.call
  /-- of a controller that completes in order, it is that of as many calls ago as there have
      been timeouts -/
  shifted : (∀ n < s.posted, s.owner n = n) → ∀ a ∈ s.answers, a.got + a.timeouts = a.call
  /-- the identifier, which nobody looks at, would tell -/
  told : (∀ n < s.posted, s.owner n = n) → ∀ a ∈ s.answers,
    (some a.cpl.cid = s.cmds[a.call]?.map AdminCmd.cid ↔ a.timeouts = 0)
  /-- the places of calls that timed out are never given back -/
  refused : s.waiting = false → (s.asq.sqEnqueue = none ↔ s.timeouts = gs.qs - 1)

namespace AdminInv

theorem timeouts_lt (h : AdminInv gs gc s) : s.timeouts < gs.qs := by
  have hcount := h.count
  have hroom := h.room
  omega

/-- The identifiers of two commands less than a ring apart are the same only if they are one
    command. -/
theorem cid_iff (h : AdminInv gs gc s) {m n : Nat} (hm : m ≤ n) (hn : n < s.enqueued)
    (hnear : n < m + gs.qs) :
    s.cmds[m]?.map AdminCmd.cid = s.cmds[n]?.map AdminCmd.cid ↔ m = n := by
  refine ⟨fun heq => ?_, fun heq => heq ▸ rfl⟩
  have hget {d : Nat} (hd : d < s.enqueued) :
      s.cmds[d]?.map AdminCmd.cid = some ((d + 1) % (2 * gs.qs) % 65536) := by
    rw [List.getElem?_eq_getElem hd, Option.map_some,
      h.cids d _ (List.getElem?_eq_getElem hd)]
  -- the size of the ring divides both moduli of an identifier
  have hring (d : Nat) : d % (2 * gs.qs) % 65536 % gs.qs = d % gs.qs := by
    rw [Nat.mod_mod_of_dvd _ (show gs.qs ∣ 65536 from Nat.pow_dvd_pow 2 gs.le_16),
      Nat.mod_mod_of_dvd _ (Nat.dvd_mul_left gs.qs 2)]
  rw [hget (Nat.lt_of_le_of_lt hm hn), hget hn] at heq
  have hmod := congrArg (· % gs.qs) (Option.some.inj heq)
  simp only [hring] at hmod
  have := eq_of_mod_eq hmod (by omega) (by omega)
  omega

theorem call_lt (h : AdminInv gs gc s) {i : Nat} (hi : i < s.answers.length) :
    (s.answers[i]).call < s.enqueued := by
  obtain ⟨-, hcall, -, hle, -⟩ := h.answer i hi
  have hcount := h.count
  have hi' : i < s.dequeued := hi
  omega

end AdminInv

/-- The admin queue in every run, whatever the order in which the controller completes the
    commands. -/
theorem answers_shifted {s : Admin C} (h : AdminReached gs gc s) : AdminSafe gs s := by
  have hi := adminInv_reached h
  have hget {i : Nat} (hlt : i < s.answers.length) : i < s.posted :=
    Nat.lt_of_lt_of_le hlt hi.dequeued_le
  have hshift (horder : ∀ n < s.posted, s.owner n = n) {i : Nat} (hlt : i < s.answers.length) :
      (s.answers[i]).got + (s.answers[i]).timeouts = (s.answers[i]).call := by
    obtain ⟨hgot, hcall, -⟩ := hi.answer i hlt
    rw [hgot, horder i (hget hlt), hcall]
  exact
    { fetched := ⟨hi.fetched_le, hi.taken⟩
      completes := fun a ha => by
        obtain ⟨i, hlt, rfl⟩ := List.getElem_of_mem ha
        obtain ⟨hgot, -, hcpl, -⟩ := hi.answer i hlt
        rw [hgot, hcpl]
        exact ⟨hi.owner i (hget hlt), hi.logCid i (hget hlt)⟩
      once := List.pairwise_iff_getElem.mpr fun i j hlt hlt' hij heq => by
        rw [(hi.answer i hlt).1, (hi.answer j hlt').1] at heq
        exact absurd (hi.owner_inj i (hget hlt) j (hget hlt') heq) (Nat.ne_of_lt hij)
      own := fun a ha h0 => by
        obtain ⟨i, hlt, rfl⟩ := List.getElem_of_mem ha
        obtain ⟨-, hcall, -, -, hown⟩ := hi.answer i hlt
        rw [hown h0, hcall, h0, Nat.add_zero]
      shifted := fun horder a ha => by
        obtain ⟨i, hlt, rfl⟩ := List.getElem_of_mem ha
        exact hshift horder hlt
      told := fun horder a ha => by
        obtain ⟨i, hlt, rfl⟩ := List.getElem_of_mem ha
        obtain ⟨hgot, -, hcpl, hle, -⟩ := hi.answer i hlt
        have hsum := hshift horder hlt
        have hfew := hi.timeouts_lt
        rw [hcpl, hi.logCid i (hget hlt), ← hgot,
          hi.cid_iff (by omega) (hi.call_lt hlt) (by omega)]
        omega
      refused := fun hw => by
        have hcount := hi.count
        rw [hw] at hcount
        simp only [Bool.false_eq_true, if_false] at hcount
        rw [hi.sqEnqueue_none_iff]
        omega }

/-! ### A call that times out -/

/-- Queues of four entries. -/
def fourEntries : QueueSize := ⟨2, by decide, by decide⟩

/-- The first call times out before its completion comes; the second and third get the
    completions of the first and second. -/
def lateCompletion : List (AdminAct Nat) :=
  [.call 6, .fetch, .timeout, .call 9, .complete 0 ⟨1, 65537⟩, .poll, .fetch,
    .complete 1 ⟨2, 65538⟩, .call 6, .poll]

theorem lateCompletion_ends :
    (runActs (adminStep fourEntries fourEntries) (Admin.create fourEntries fourEntries)
      lateCompletion).map (fun s => (s.answers.map fun a => (a.call, a.got, a.cpl.cid),
        s.cmds.map AdminCmd.cid)) = some ([(1, 0, 1), (2, 1, 2)], [1, 2, 3]) := by
  decide +kernel

theorem lateCompletion_safe :
    ∃ s : Admin Nat, runActs (adminStep fourEntries fourEntries)
        (Admin.create fourEntries fourEntries) lateCompletion = some s ∧
      AdminSafe fourEntries s ∧ s.answers.map (fun a => (a.call, a.got)) = [(1, 0), (2, 1)] := by
  obtain ⟨s, hrun, hends⟩ := Option.map_eq_some_iff.mp lateCompletion_ends
  refine ⟨s, hrun, answers_shifted (reachable_of_steps (.init rfl) hrun), ?_⟩
  have hanswers := congrArg (fun t => t.1.map fun a => (a.1, a.2.1)) hends
  rw [List.map_map] at hanswers
  exact hanswers

end GidsStack.Queue
