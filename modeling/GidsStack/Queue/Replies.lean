/-
  GidsStack.Queue.Replies

  Every step of the completion side is a step of the abstract ring of replies or none at all,
  as long as no request falls two laps behind the controller.  Added to the ring's invariant is
  what the code keeps it with: which locks are held, what the holder of `head_lock` knows, that
  head and doorbell are 32-bit and ring-size views of `passed` and `rung`, and that the entries
  since the last doorbell stand in memory with the phase of their lap.
-/

import GidsStack.Lib.ReplyRing
import GidsStack.Queue.Counters
import GidsStack.Queue.Completion

namespace GidsStack.Queue

open Laps Lib Lock ReplyRing

variable {g : QueueSize} {s s' : Completion} {j k : Nat}

/-! ## The steps of a request -/

/-- The steps of request `k`, with the state each leads to. -/
inductive Runs (g : QueueSize) (s : Completion) (k : Nat) : Completion → Prop
  | drawCid (hpc : s.pc k = .drawCid) :
      Runs g s k
        ({ s with cidTicket := add32 s.cidTicket 1 }.goto k (.lockCid (s.cidTicket &&& 65535)))
  | cidBusy {id : Nat} (hpc : s.pc k = .lockCid id) (hlock : s.cidLocks id = true) :
      Runs g s k (s.goto k .drawCid)
  | cidTaken {id : Nat} (hpc : s.pc k = .lockCid id) (hlock : s.cidLocks id = false) :
      Runs g s k
        ({ s with
            cidLocks := Function.update s.cidLocks id true
            cid := Function.update s.cid k id }.goto k .enqueue)
  | enqueued (hpc : s.pc k = .enqueue) : Runs g s k (s.goto k .loadHead)
  | loadHead (hpc : s.pc k = .loadHead) :
      Runs g s k
        ({ s with base := Function.update s.base k s.passed }.goto k (.loadEntry s.head 0))
  | hit {head i : Nat} (hpc : s.pc k = .loadEntry head i) (hhit : s.Hit g k (add32 head i)) :
      Runs g s k
        ({ s with
            found := Function.update s.found k
              ⟨g.cq.loc (add32 head i), add32 head i, head⟩
            index := Function.update s.index k (s.base k + i) }.goto k .waitPos)
  | next {head i : Nat} (hpc : s.pc k = .loadEntry head i) (hi : i + 1 < g.qsMinus1) :
      Runs g s k (s.goto k (.loadEntry head (i + 1)))
  | restart {head i : Nat} (hpc : s.pc k = .loadEntry head i) : Runs g s k (s.goto k .loadHead)
  | spin (hpc : s.pc k = .waitPos ∨ s.pc k = .takePos ∨ s.pc k = .loadNewHead) : Runs g s k s
  | posSeen (hpc : s.pc k = .waitPos) : Runs g s k (s.goto k .takePos)
  | posTaken (hpc : s.pc k = .takePos) (hlock : s.posLocks (s.found k).pos = false) :
      Runs g s k
        ({ s with posLocks := Function.update s.posLocks (s.found k).pos true }.goto k .storeMark)
  | storeMark (hpc : s.pc k = .storeMark) :
      Runs g s k
        ({ s with headMark := Function.update s.headMark (s.found k).pos true }.goto k .loadMark)
  | stays (hpc : s.pc k = .loadMark) : Runs g s k (s.goto k .takeHeadLock)
  | cleared (hpc : s.pc k = .loadMark) (hmark : s.headMark (s.found k).pos = false) :
      Runs g s k (s.goto k .loadNewHead)
  | headBusy (hpc : s.pc k = .takeHeadLock) : Runs g s k (s.goto k .loadMark)
  | headTaken (hpc : s.pc k = .takeHeadLock) (hlock : s.headLock = false) :
      Runs g s k ({ s with headLock := true }.goto k .loadCqHead)
  | loadCqHead (hpc : s.pc k = .loadCqHead) : Runs g s k (s.goto k (.exchangeMark s.head 0))
  | sweep {c n : Nat} (hpc : s.pc k = .exchangeMark c n)
      (hmark : s.headMark (add32 c n &&& g.qsMinus1) = true) :
      Runs g s k
        ({ s with
            headMark := Function.update s.headMark (add32 c n &&& g.qsMinus1) false
            swept := s.swept + 1 }.goto k (.exchangeMark c (add32 n 1)))
  | swept {c n : Nat} (hpc : s.pc k = .exchangeMark c n) (hn : 0 < n) :
      Runs g s k (s.goto k (.loadLast c n))
  | sweptNone {c : Nat} (hpc : s.pc k = .exchangeMark c 0) : Runs g s k (s.goto k .freeHeadLock)
  | loadLast {c n : Nat} (hpc : s.pc k = .loadLast c n) :
      Runs g s k (s.goto k
        (.moveSqHead c n (s.vaddr (add32 c (n - 1) &&& g.qsMinus1)).sqHead))
  | moveSqHead {c n v : Nat} (hpc : s.pc k = .moveSqHead c n v) :
      Runs g s k (s.goto k (.writeDb c n))
  | writeDb {c n : Nat} (hpc : s.pc k = .writeDb c n) :
      Runs g s k ({ s with db := add32 c n &&& g.qsMinus1, rung := s.swept }.goto k
        (.storeHead c n))
  | storeHead {c n : Nat} (hpc : s.pc k = .storeHead c n) :
      Runs g s k ({ s with head := add32 c n, passed := s.rung }.goto k .freeHeadLock)
  | freeHeadLock (hpc : s.pc k = .freeHeadLock) :
      Runs g s k ({ s with headLock := false }.goto k .loadMark)
  | headPassed (hpc : s.pc k = .loadNewHead)
      (htest : headPassed s.head (s.found k).loc (s.found k).cqHead = true) :
      Runs g s k (s.goto k .freePos)
  | freePos (hpc : s.pc k = .freePos) :
      Runs g s k
        ({ s with posLocks := Function.update s.posLocks (s.found k).pos false }.goto k .putCid)
  | putCid (hpc : s.pc k = .putCid) :
      Runs g s k
        ({ s with cidLocks := Function.update s.cidLocks (s.cid k) false }.goto k .returned)

/-- A request that stays where it is. -/
theorem goto_self {pc : RequestPc} (h : s.pc k = pc) : s.goto k pc = s := by
  rw [Completion.goto, ← h, Function.update_eq_self]

theorem runs_of_poll {head i : Nat} (hpc : s.pc k = .loadEntry head i) :
    Runs g s k (pollStep g s k head i) := by
  rw [pollStep]
  split
  case isTrue hhit => exact .hit hpc hhit
  case isFalse =>
    split
    case isTrue => exact .restart hpc
    case isFalse =>
      split
      case isTrue hi => exact .next hpc hi
      case isFalse => exact .restart hpc

theorem runs_of_exchange {c n : Nat} (hpc : s.pc k = .exchangeMark c n) :
    Runs g s k (exchangeStep g s k c n) := by
  cases hmark : s.headMark (add32 c n &&& g.qsMinus1) with
  | true =>
    simp only [exchangeStep, hmark, if_true]
    exact .sweep hpc hmark
  | false =>
    -- the exchange leaves a mark that is down as it is
    have hsame : Function.update s.headMark (add32 c n &&& g.qsMinus1) false = s.headMark := by
      rw [← hmark, Function.update_eq_self]
    simp only [exchangeStep, hmark, hsame, Bool.false_eq_true, if_false]
    split
    case isTrue hn => exact .swept hpc (Nat.pos_of_ne_zero hn)
    case isFalse hn =>
      obtain rfl : n = 0 := by omega
      exact .sweptNone hpc

theorem runs_of_step (h : requestStep g s k = some s') : Runs g s k s' := by
  cases hpc : s.pc k <;> simp only [requestStep, hpc, reduceCtorEq, Option.some.injEq] at h <;>
    subst h
  case drawCid => exact .drawCid hpc
  case lockCid id =>
    cases hlock : s.cidLocks id with
    | true =>
      -- `fetch_or` leaves a lock that is up as it is
      have hsame : Function.update s.cidLocks id true = s.cidLocks := by
        rw [← hlock, Function.update_eq_self]
      rw [hsame]
      exact .cidBusy hpc hlock
    | false => exact .cidTaken hpc hlock
  case enqueue => exact .enqueued hpc
  case loadHead => exact .loadHead hpc
  case loadEntry head i => exact runs_of_poll hpc
  case waitPos =>
    split
    · exact .spin (.inl hpc)
    · exact .posSeen hpc
  case takePos =>
    cases hlock : s.posLocks (s.found k).pos with
    | true =>
      have hsame : Function.update s.posLocks (s.found k).pos true = s.posLocks := by
        rw [← hlock, Function.update_eq_self]
      rw [hsame]
      simp only [if_true]
      rw [show ({ s with posLocks := s.posLocks } : Completion) = s from rfl, goto_self hpc]
      exact .spin (.inr (.inl hpc))
    | false => exact .posTaken hpc hlock
  case storeMark => exact .storeMark hpc
  case loadMark =>
    cases hmark : s.headMark (s.found k).pos with
    | true => exact .stays hpc
    | false => exact .cleared hpc hmark
  case takeHeadLock =>
    cases hlock : s.headLock with
    | true =>
      have hsame : ({ s with headLock := true } : Completion) = s := by
        rw [← hlock]
      rw [hsame]
      exact .headBusy hpc
    | false => exact .headTaken hpc hlock
  case loadCqHead => exact .loadCqHead hpc
  case exchangeMark c n => exact runs_of_exchange hpc
  case loadLast c n => exact .loadLast hpc
  case moveSqHead c n v => exact .moveSqHead hpc
  case writeDb c n => exact .writeDb hpc
  case storeHead c n => exact .storeHead hpc
  case freeHeadLock => exact .freeHeadLock hpc
  case loadNewHead =>
    split
    case isTrue htest => exact .headPassed hpc htest
    case isFalse =>
      rw [goto_self hpc]
      exact .spin (.inr (.inr hpc))
  case freePos => exact .freePos hpc
  case putCid => exact .putCid hpc

/-- What no step of a request touches. -/
structure RequestFrame (s s' : Completion) (k : Nat) : Prop where
  posted : s'.posted = s.posted
  log : s'.log = s.log
  owner : s'.owner = s.owner
  vaddr : s'.vaddr = s.vaddr
  pc_ne : ∀ j, j ≠ k → s'.pc j = s.pc j
  cid_ne : ∀ j, j ≠ k → s'.cid j = s.cid j
  found_ne : ∀ j, j ≠ k → s'.found j = s.found j
  base_ne : ∀ j, j ≠ k → s'.base j = s.base j
  index_ne : ∀ j, j ≠ k → s'.index j = s.index j

theorem Runs.frame (h : Runs g s k s') : RequestFrame s s' k := by
  have hupd : ∀ {β : Type} (f : Nat → β) (x : β) (j : Nat), j ≠ k → Function.update f k x j = f j :=
    fun f x j hj => Function.update_of_ne hj x f
  cases h with
  | spin =>
    exact ⟨rfl, rfl, rfl, rfl, fun _ _ => rfl, fun _ _ => rfl, fun _ _ => rfl, fun _ _ => rfl,
      fun _ _ => rfl⟩
  | cidTaken =>
    exact ⟨rfl, rfl, rfl, rfl, hupd _ _, hupd _ _, fun _ _ => rfl, fun _ _ => rfl, fun _ _ => rfl⟩
  | loadHead =>
    exact ⟨rfl, rfl, rfl, rfl, hupd _ _, fun _ _ => rfl, fun _ _ => rfl, hupd _ _, fun _ _ => rfl⟩
  | hit =>
    exact ⟨rfl, rfl, rfl, rfl, hupd _ _, fun _ _ => rfl, hupd _ _, fun _ _ => rfl, hupd _ _⟩
  | _ =>
    exact ⟨rfl, rfl, rfl, rfl, hupd _ _, fun _ _ => rfl, fun _ _ => rfl, fun _ _ => rfl,
      fun _ _ => rfl⟩

@[simp] theorem request_goto_pc (s : Completion) (k : Nat) (pc : RequestPc) :
    (s.goto k pc).pc k = pc :=
  Function.update_self ..

/-! ## The invariant -/

def RequestPc.stage (base index : Nat) : RequestPc → Stage
  | .drawCid | .lockCid _ => .idle
  | .enqueue | .loadHead => .asked
  | .loadEntry .. => .looking base
  | .waitPos | .takePos | .storeMark => .found index
  | .freePos | .putCid => .passed index
  | .returned => .done index
  | _ => .marked index

def Completion.ring (s : Completion) : ReplyRing.Ring Nat where
  posted := s.posted
  owner := s.owner
  id := s.cid
  stage k := (s.pc k).stage (s.base k) (s.index k)
  mark := s.headMark
  swept := s.swept
  rung := s.rung
  passed := s.passed

/-- What the holder of `head_lock` knows at `pc`. -/
def SweeperFact (s : Completion) : RequestPc → Prop
  | .loadCqHead | .freeHeadLock => s.passed = s.swept ∧ s.rung = s.swept
  | .exchangeMark c n => c = s.passed % 4294967296 ∧ s.passed + n = s.swept ∧ s.rung = s.passed
  | .loadLast c n | .writeDb c n =>
    c = s.passed % 4294967296 ∧ s.passed + n = s.swept ∧ s.rung = s.passed ∧ 0 < n
  | .moveSqHead c n v =>
    c = s.passed % 4294967296 ∧ s.passed + n = s.swept ∧ s.rung = s.passed ∧ 0 < n ∧
      v = (s.log (s.swept - 1)).sqHead
  | .storeHead c n =>
    c = s.passed % 4294967296 ∧ s.passed + n = s.swept ∧ s.rung = s.swept
  | _ => True

/-- What a request knows of the completion it has found. -/
structure FoundFact (g : QueueSize) (s : Completion) (k : Nat) : Prop where
  found : s.found k = ⟨s.index k % g.qs, s.index k % 4294967296, s.base k % 4294967296⟩
  base_le : s.base k ≤ s.passed
  le_index : s.base k ≤ s.index k
  index_lt : s.index k < s.base k + g.qs

structure Tracked (g : QueueSize) (s : Completion) : Prop where
  ring : s.ring.Inv g.qs
  cidHeld : ∀ c, Held (fun k => (s.pc k).holdsCid = true ∧ s.cid k = c) (s.cidLocks c)
  posHeld : ∀ p, Held (fun k => (s.pc k).inPos = true ∧ (s.found k).pos = p) (s.posLocks p)
  headHeld : Held (fun k => (s.pc k).inHead = true) s.headLock
  headFree : s.headLock = false → s.passed = s.swept ∧ s.rung = s.swept
  sweeper : ∀ k, SweeperFact s (s.pc k)
  poller : ∀ k head i, s.pc k = .loadEntry head i →
    head = s.base k % 4294967296 ∧ i < g.qsMinus1
  found : ∀ k, (s.pc k).polled = true → FoundFact g s k
  cleared : ∀ k, s.pc k = .loadNewHead → s.index k < s.swept
  head : s.head = s.passed % 4294967296
  db : s.db = s.rung % g.qs
  logCid : ∀ n < s.posted, (s.log n).cid = s.cid (s.owner n)
  vaddr : PhaseRing.Written g.qs (fun p => (s.vaddr p, (s.vaddr p).phase)) s.log s.posted

/-! ## The ring -/

/-- The ring after a step of request `k`. -/
theorem RequestFrame.ring_goto (h : RequestFrame s s' k) {t : Stage}
    (ht : (s'.pc k).stage (s'.base k) (s'.index k) = t) :
    s'.ring = ReplyRing.Ring.goto
      { s.ring with
        id := s'.cid
        mark := s'.headMark
        swept := s'.swept
        rung := s'.rung
        passed := s'.passed } k t := by
  have hstage : s'.ring.stage = Function.update s.ring.stage k t := by
    funext i
    by_cases hi : i = k
    · rw [hi, Function.update_self]
      exact ht
    · rw [Function.update_of_ne hi]
      show (s'.pc i).stage (s'.base i) (s'.index i) = (s.pc i).stage (s.base i) (s.index i)
      rw [h.pc_ne i hi, h.base_ne i hi, h.index_ne i hi]
  show ({ posted := s'.posted
          owner := s'.owner
          id := s'.cid
          stage := s'.ring.stage
          mark := s'.headMark
          swept := s'.swept
          rung := s'.rung
          passed := s'.passed } : ReplyRing.Ring Nat) = _
  rw [h.posted, h.owner, hstage]
  rfl

/-- A request that stays on its stage. -/
theorem RequestFrame.ring_same (h : RequestFrame s s' k)
    (ht : (s'.pc k).stage (s'.base k) (s'.index k) = (s.pc k).stage (s.base k) (s.index k)) :
    s'.ring =
      { s.ring with
        id := s'.cid
        mark := s'.headMark
        swept := s'.swept
        rung := s'.rung
        passed := s'.passed } := by
  rw [h.ring_goto ht, ReplyRing.Ring.goto]
  exact congrArg (fun f => ({ s.ring with
      id := s'.cid
      mark := s'.headMark
      stage := f
      swept := s'.swept
      rung := s'.rung
      passed := s'.passed } : ReplyRing.Ring Nat)) (Function.update_eq_self k s.ring.stage)

/-- Where the poll looks for completion `base + i`, and in which phase. -/
theorem poll_follows (g : QueueSize) (n i : Nat) :
    g.cq.loc (add32 (n % 4294967296) i) = (n + i) % g.qs ∧
      g.cq.searchPhase (add32 (n % 4294967296) i) = PhaseRing.phase g.qs (n + i) := by
  have hfollows : FollowsController g.cq := follows_of_two_pow g.le_16
  obtain ⟨hpos, hphase⟩ := hfollows n i
  rw [show g.cq.qs = g.qs from rfl, tailAfter_eq g.qs_pos] at hpos hphase
  exact ⟨hpos, hphase⟩

/-- A hit of the poll is a completion that has been posted since the round began, and is the
    request's own. -/
theorem Tracked.own_of_hit (h : Tracked g s) {head i : Nat} (hpc : s.pc k = .loadEntry head i)
    (hhit : s.Hit g k (add32 head i)) (hfresh : Fresh g s (.run k)) :
    s.base k + i < s.posted ∧ s.cid (s.owner (s.base k + i)) = s.cid k := by
  obtain ⟨hhead, hi⟩ := h.poller k head i hpc
  rw [Fresh, hpc] at hfresh
  have hahead := hfresh hhit
  subst hhead
  obtain ⟨hloc, hphase⟩ := poll_follows g (s.base k) i
  obtain ⟨hcid, hsame⟩ := hhit
  rw [hloc] at hcid hsame
  rw [hphase] at hsame
  have hbase : s.base k ≤ s.passed := (h.ring.looking k (s.base k) (by
    show (s.pc k).stage _ _ = _
    rw [hpc]
    rfl)).1
  have hpassed : s.passed ≤ s.posted :=
    Nat.le_trans h.ring.passed_le (Nat.le_trans h.ring.rung_le h.ring.swept_le)
  have hqs := g.qs_pos
  have hlast : g.qsMinus1 = g.qs - 1 := rfl
  obtain ⟨hlt, hentry⟩ := h.vaddr.read g.qs_pos (m := s.base k + i) (by omega) hahead hsame
  refine ⟨hlt, ?_⟩
  rw [← h.logCid _ hlt, ← hcid]
  exact congrArg Cpl.cid hentry.symm

/-- The last loop of `cq_dequeue` ends only after the head has passed the entry. -/
theorem FoundFact.passed_of_test (h : FoundFact g s k) (hhead : s.head = s.passed % 4294967296)
    (htest : headPassed s.head (s.found k).loc (s.found k).cqHead = true) :
    s.index k < s.passed := by
  by_contra hge
  obtain ⟨hfound, hbase, hle, hlt⟩ := h
  have hqs := g.qs_le
  rw [hfound, hhead, headPassed] at htest
  simp only [gt_iff_lt, ge_iff_le] at htest
  split at htest
  case isTrue hgt =>
    rw [Bool.and_eq_true, decide_eq_true_eq, decide_eq_true_eq] at htest
    omega
  case isFalse =>
    split at htest
    case isTrue hgt =>
      rw [Bool.or_eq_true, decide_eq_true_eq, decide_eq_true_eq] at htest
      omega
    case isFalse => cases htest

/-- A step of a request is a step of the ring or none. -/
theorem Tracked.ring_step (h : Tracked g s) (hs : Runs g s k s') (hfresh : Fresh g s (.run k)) :
    s'.ring = s.ring ∨ ReplyRing.Step g.qs s.ring s'.ring := by
  have hf := hs.frame
  have hstage : ∀ pc, s.pc k = pc → s.ring.stage k = pc.stage (s.base k) (s.index k) := by
    intro pc hpc
    show (s.pc k).stage _ _ = _
    rw [hpc]
  cases hs with
  | spin => exact .inl rfl
  | drawCid hpc | cidBusy hpc | enqueued hpc | next hpc | posSeen hpc | posTaken hpc | stays hpc
  | cleared hpc | headBusy hpc | headTaken hpc | loadCqHead hpc | swept hpc | sweptNone hpc
  | loadLast hpc | moveSqHead hpc | freeHeadLock hpc | freePos hpc =>
    rw [hf.ring_same (by rw [request_goto_pc, hpc]; rfl)]
    exact .inl rfl
  | cidTaken hpc hlock =>
    rw [hf.ring_goto (t := .asked) (by rw [request_goto_pc]; rfl)]
    refine .inr (.ask (hstage _ hpc) fun j hj hcid => ?_)
    -- who holds the identifier has its lock up
    have hin : (s.pc j).holdsCid = true := by
      replace hj : ((s.pc j).stage (s.base j) (s.index j)).holds = true := hj
      cases hpcj : s.pc j <;> rw [hpcj] at hj <;> first | rfl | cases hj
    have hup := (h.cidHeld _).locked ⟨hin, hcid⟩
    rw [hlock] at hup
    cases hup
  | loadHead hpc =>
    rw [hf.ring_goto (t := .looking s.passed) (by
      rw [request_goto_pc]
      exact congrArg Stage.looking (Function.update_self ..))]
    exact .inr (.look (hstage _ hpc))
  | @hit head i hpc hhit =>
    obtain ⟨hlt, hcid⟩ := h.own_of_hit hpc hhit hfresh
    rw [hf.ring_goto (t := .found (s.base k + i)) (by
      rw [request_goto_pc]
      exact congrArg Stage.found (Function.update_self ..))]
    exact .inr (.find (hstage _ hpc) (Nat.le_add_right _ _) hlt hcid)
  | restart hpc =>
    rw [hf.ring_goto (t := .asked) (by rw [request_goto_pc]; rfl)]
    exact .inr (.miss (hstage _ hpc))
  | storeMark hpc =>
    have hfound := (h.found k (by rw [hpc]; rfl)).found
    rw [hf.ring_goto (t := .marked (s.index k)) (by rw [request_goto_pc]; rfl)]
    rw [show (s.found k).pos = s.index k % g.qs by rw [hfound]]
    exact .inr (.mark (hstage _ hpc))
  | sweep hpc hmark =>
    have hfact := h.sweeper k
    rw [hpc] at hfact
    obtain ⟨hc, hsum, hrung⟩ := hfact
    rw [hf.ring_same (by rw [request_goto_pc, hpc]; rfl)]
    rw [hc, add32_mod, g.pos_eq, hsum] at hmark ⊢
    exact .inr (.sweep hmark)
  | writeDb hpc =>
    rw [hf.ring_same (by rw [request_goto_pc, hpc]; rfl)]
    exact .inr .ring
  | storeHead hpc =>
    rw [hf.ring_same (by rw [request_goto_pc, hpc]; rfl)]
    exact .inr .pass
  | headPassed hpc htest =>
    rw [hf.ring_goto (t := .passed (s.index k)) (by rw [request_goto_pc]; rfl)]
    exact .inr (.leave (hstage _ hpc)
      ((h.found k (by rw [hpc]; rfl)).passed_of_test h.head htest))
  | putCid hpc =>
    rw [hf.ring_goto (t := .done (s.index k)) (by rw [request_goto_pc]; rfl)]
    exact .inr (.close (hstage _ hpc))

theorem Tracked.ring_run (h : Tracked g s) (hs : Runs g s k s') (hfresh : Fresh g s (.run k)) :
    s'.ring.Inv g.qs := by
  rcases h.ring_step hs hfresh with heq | hstep
  · rw [heq]
    exact h.ring
  · exact h.ring.step hstep

/-! ## The locks -/

theorem Tracked.cidHeld_run (h : Tracked g s) (hs : Runs g s k s') (c : Nat) :
    Held (fun i => (s'.pc i).holdsCid = true ∧ s'.cid i = c) (s'.cidLocks c) := by
  have hf := hs.frame
  have hother : ∀ i, i ≠ k → ((s'.pc i).holdsCid = true ∧ s'.cid i = c ↔
      (s.pc i).holdsCid = true ∧ s.cid i = c) := by
    intro i hi
    rw [hf.pc_ne i hi, hf.cid_ne i hi]
  have hold := h.cidHeld c
  cases hs with
  | spin => exact hold
  | @cidTaken id hpc hlock =>
    by_cases hc : c = id
    · subst hc
      rw [hlock] at hold
      show Held _ (Function.update s.cidLocks c true c)
      rw [Function.update_self]
      refine hold.take (k := k) ⟨by rw [request_goto_pc]; rfl, Function.update_self ..⟩ ?_
      exact fun i hi => (hother i hi).mp
    · show Held _ (Function.update s.cidLocks id true c)
      rw [Function.update_of_ne hc]
      refine hold.keep_at hother ⟨fun hin => ?_, fun hin => ?_⟩
      · exact absurd (hin.2.symm.trans (Function.update_self ..)) hc
      · rw [hpc] at hin
        cases hin.1
  | putCid hpc =>
    by_cases hc : c = s.cid k
    · subst hc
      show Held _ (Function.update s.cidLocks (s.cid k) false (s.cid k))
      rw [Function.update_self]
      refine hold.release (k := k) ⟨by rw [hpc]; rfl, rfl⟩ (fun i hi => (hother i hi).mp) ?_
      rw [request_goto_pc]
      exact fun hin => nomatch hin.1
    · show Held _ (Function.update s.cidLocks (s.cid k) false c)
      rw [Function.update_of_ne hc]
      refine hold.keep_at hother ⟨fun hin => ?_, fun hin => ?_⟩
      · rw [request_goto_pc] at hin
        cases hin.1
      · exact absurd hin.2.symm hc
  | drawCid hpc | cidBusy hpc | enqueued hpc | loadHead hpc | hit hpc | next hpc | restart hpc
  | posSeen hpc | posTaken hpc | storeMark hpc | stays hpc | cleared hpc | headBusy hpc
  | headTaken hpc | loadCqHead hpc | sweep hpc | swept hpc | sweptNone hpc | loadLast hpc
  | moveSqHead hpc | writeDb hpc | storeHead hpc | freeHeadLock hpc | headPassed hpc
  | freePos hpc =>
    refine hold.keep_at hother (and_congr_left fun _ => ?_)
    rw [request_goto_pc, hpc]
    exact Iff.rfl

theorem Tracked.posHeld_run (h : Tracked g s) (hs : Runs g s k s') (p : Nat) :
    Held (fun i => (s'.pc i).inPos = true ∧ (s'.found i).pos = p) (s'.posLocks p) := by
  have hf := hs.frame
  have hother : ∀ i, i ≠ k → ((s'.pc i).inPos = true ∧ (s'.found i).pos = p ↔
      (s.pc i).inPos = true ∧ (s.found i).pos = p) := by
    intro i hi
    rw [hf.pc_ne i hi, hf.found_ne i hi]
  have hold := h.posHeld p
  cases hs with
  | spin => exact hold
  | hit hpc =>
    refine hold.keep_at hother ⟨fun hin => ?_, fun hin => ?_⟩
    · rw [request_goto_pc] at hin
      cases hin.1
    · rw [hpc] at hin
      cases hin.1
  | posTaken hpc hlock =>
    by_cases hp : p = (s.found k).pos
    · subst hp
      rw [hlock] at hold
      show Held _ (Function.update s.posLocks (s.found k).pos true (s.found k).pos)
      rw [Function.update_self]
      refine hold.take (k := k) ⟨by rw [request_goto_pc]; rfl, rfl⟩ ?_
      exact fun i hi => (hother i hi).mp
    · show Held _ (Function.update s.posLocks (s.found k).pos true p)
      rw [Function.update_of_ne hp]
      refine hold.keep_at hother ⟨fun hin => absurd hin.2.symm hp, fun hin => ?_⟩
      rw [hpc] at hin
      cases hin.1
  | freePos hpc =>
    by_cases hp : p = (s.found k).pos
    · subst hp
      show Held _ (Function.update s.posLocks (s.found k).pos false (s.found k).pos)
      rw [Function.update_self]
      refine hold.release (k := k) ⟨by rw [hpc]; rfl, rfl⟩ (fun i hi => (hother i hi).mp) ?_
      rw [request_goto_pc]
      exact fun hin => nomatch hin.1
    · show Held _ (Function.update s.posLocks (s.found k).pos false p)
      rw [Function.update_of_ne hp]
      refine hold.keep_at hother ⟨fun hin => ?_, fun hin => absurd hin.2.symm hp⟩
      rw [request_goto_pc] at hin
      cases hin.1
  | drawCid hpc | cidBusy hpc | cidTaken hpc | enqueued hpc | loadHead hpc | next hpc | restart hpc
  | posSeen hpc | storeMark hpc | stays hpc | cleared hpc | headBusy hpc
  | headTaken hpc | loadCqHead hpc | sweep hpc | swept hpc | sweptNone hpc | loadLast hpc
  | moveSqHead hpc | writeDb hpc | storeHead hpc | freeHeadLock hpc | headPassed hpc
  | putCid hpc =>
    refine hold.keep_at hother (and_congr_left fun _ => ?_)
    rw [request_goto_pc, hpc]
    exact Iff.rfl

theorem Tracked.headHeld_run (h : Tracked g s) (hs : Runs g s k s') :
    Held (fun i => (s'.pc i).inHead = true) s'.headLock := by
  have hf := hs.frame
  have hother : ∀ i, i ≠ k → ((s'.pc i).inHead = true ↔ (s.pc i).inHead = true) := by
    intro i hi
    rw [hf.pc_ne i hi]
  have hold := h.headHeld
  cases hs with
  | spin => exact hold
  | headTaken hpc hlock =>
    rw [hlock] at hold
    refine hold.take (k := k) (by rw [request_goto_pc]; rfl) fun i hi => (hother i hi).mp
  | freeHeadLock hpc =>
    refine hold.release (k := k) (by rw [hpc]; rfl) (fun i hi => (hother i hi).mp) ?_
    rw [request_goto_pc]
    exact Bool.false_ne_true
  | drawCid hpc | cidBusy hpc | cidTaken hpc | enqueued hpc | loadHead hpc | hit hpc | next hpc
  | restart hpc | posSeen hpc | posTaken hpc | storeMark hpc | stays hpc | cleared hpc
  | headBusy hpc | loadCqHead hpc | sweep hpc | swept hpc | sweptNone hpc | loadLast hpc
  | moveSqHead hpc | writeDb hpc | storeHead hpc | headPassed hpc | freePos hpc | putCid hpc =>
    refine hold.keep_at hother ?_
    rw [request_goto_pc, hpc]
    exact Iff.rfl

/-! ## The holder of the head -/

/-- Who is outside knows nothing. -/
theorem sweeperFact_outside {pc : RequestPc} (h : pc.inHead = false) (s : Completion) :
    SweeperFact s pc := by
  cases pc <;> trivial

/-- Only the holder of `head_lock` moves the head. -/
theorem Runs.head_kept (hs : Runs g s k s') (h : (s.pc k).inHead = false) :
    s'.swept = s.swept ∧ s'.rung = s.rung ∧ s'.passed = s.passed ∧ s'.head = s.head ∧
      s'.db = s.db := by
  cases hs with
  | sweep hpc | writeDb hpc | storeHead hpc =>
    rw [hpc] at h
    cases h
  | _ => exact ⟨rfl, rfl, rfl, rfl, rfl⟩

/-- What request `k` knows of the head after its step. -/
theorem Tracked.sweeperFact_run (h : Tracked g s) (hs : Runs g s k s') :
    SweeperFact s' (s'.pc k) := by
  have hfact := h.sweeper k
  have hroom : s.posted < s.rung + g.qs := h.ring.room
  have hswept : s.swept ≤ s.posted := h.ring.swept_le
  have hqs := g.qs_le
  cases hs with
  | spin => exact hfact
  | headTaken hpc hlock =>
    rw [request_goto_pc]
    exact h.headFree hlock
  | loadCqHead hpc =>
    rw [hpc] at hfact
    rw [request_goto_pc]
    exact ⟨h.head, by rw [Nat.add_zero]; exact hfact.1, hfact.2.trans hfact.1.symm⟩
  | @sweep c n hpc hmark =>
    rw [hpc] at hfact
    rw [request_goto_pc]
    obtain ⟨hc, hsum, hrung⟩ := hfact
    refine ⟨hc, ?_, hrung⟩
    show s.passed + add32 n 1 = s.swept + 1
    rw [add32_of_lt (by omega)]
    omega
  | swept hpc hn =>
    rw [hpc] at hfact
    rw [request_goto_pc]
    exact ⟨hfact.1, hfact.2.1, hfact.2.2, hn⟩
  | sweptNone hpc =>
    rw [hpc] at hfact
    rw [request_goto_pc]
    obtain ⟨-, hsum, hrung⟩ := hfact
    exact ⟨hsum, hrung.trans hsum⟩
  | @loadLast c n hpc =>
    rw [hpc] at hfact
    rw [request_goto_pc]
    obtain ⟨hc, hsum, hrung, hn⟩ := hfact
    refine ⟨hc, hsum, hrung, hn, ?_⟩
    -- the entry is the last one swept, and no later one has been written there
    show (s.vaddr (add32 c (n - 1) &&& g.qsMinus1)).sqHead = (s.log (s.swept - 1)).sqHead
    rw [hc, add32_mod, g.pos_eq, show s.passed + (n - 1) = s.swept - 1 by omega]
    have hentry := h.vaddr.entry (s.swept - 1) (by omega) (by omega)
    exact congrArg (fun e => Cpl.sqHead e.1) hentry
  | moveSqHead hpc =>
    rw [hpc] at hfact
    rw [request_goto_pc]
    exact ⟨hfact.1, hfact.2.1, hfact.2.2.1, hfact.2.2.2.1⟩
  | writeDb hpc =>
    rw [hpc] at hfact
    rw [request_goto_pc]
    exact ⟨hfact.1, hfact.2.1, rfl⟩
  | storeHead hpc =>
    rw [hpc] at hfact
    rw [request_goto_pc]
    exact ⟨hfact.2.2, hfact.2.2⟩
  | drawCid | cidBusy | cidTaken | enqueued | loadHead | hit | next | restart | posSeen | posTaken
  | storeMark | stays | cleared | headBusy | freeHeadLock | headPassed | freePos | putCid =>
    rw [request_goto_pc]
    trivial

/-- The lock is free after a step only if it was free before, or given back with the head
    stored. -/
theorem Tracked.headFree_run (h : Tracked g s) (hs : Runs g s k s') (hfree : s'.headLock = false) :
    s'.passed = s'.swept ∧ s'.rung = s'.swept := by
  have hfact := h.sweeper k
  have hnotfree : (s.pc k).inHead = true → s.headLock ≠ false := by
    intro hin hl
    rw [h.headHeld.locked hin] at hl
    cases hl
  cases hs with
  | headTaken => cases hfree
  | freeHeadLock hpc =>
    rw [hpc] at hfact
    exact hfact
  | sweep hpc | writeDb hpc | storeHead hpc => exact absurd hfree (hnotfree (by rw [hpc]; rfl))
  | _ => exact h.headFree hfree

/-- Head and doorbell after a step. -/
theorem Tracked.head_run (h : Tracked g s) (hs : Runs g s k s') :
    s'.head = s'.passed % 4294967296 ∧ s'.db = s'.rung % g.qs ∧ s.passed ≤ s'.passed ∧
      s.swept ≤ s'.swept := by
  have hfact := h.sweeper k
  cases hs with
  | sweep => exact ⟨h.head, h.db, Nat.le_refl _, Nat.le_succ _⟩
  | @writeDb c n hpc =>
    rw [hpc] at hfact
    obtain ⟨hc, hsum, -, -⟩ := hfact
    refine ⟨h.head, ?_, Nat.le_refl _, Nat.le_refl _⟩
    show add32 c n &&& g.qsMinus1 = s.swept % g.qs
    rw [hc, add32_mod, g.pos_eq, hsum]
  | @storeHead c n hpc =>
    rw [hpc] at hfact
    obtain ⟨hc, hsum, hrung⟩ := hfact
    refine ⟨?_, h.db, h.ring.passed_le, Nat.le_refl _⟩
    show add32 c n = s.rung % 4294967296
    rw [hc, add32_mod, hsum, hrung]
  | _ => exact ⟨h.head, h.db, Nat.le_refl _, Nat.le_refl _⟩

/-! ## What a request has found -/

theorem Tracked.found_run (h : Tracked g s) (hs : Runs g s k s')
    (hpolled : (s'.pc k).polled = true) : FoundFact g s' k := by
  have hpassed := (h.head_run hs).2.2.1
  -- a request that had found its completion before the step
  have hold : (s.pc k).polled = true → s'.found k = s.found k → s'.base k = s.base k →
      s'.index k = s.index k → FoundFact g s' k := by
    intro hp hfound hbase hindex
    obtain ⟨h1, h2, h3, h4⟩ := h.found k hp
    refine ⟨?_, ?_, ?_, ?_⟩
    · rw [hfound, hindex, hbase, h1]
    · rw [hbase]
      exact Nat.le_trans h2 hpassed
    · rw [hbase, hindex]
      exact h3
    · rw [hbase, hindex]
      exact h4
  cases hs with
  | drawCid | cidBusy | cidTaken | enqueued | loadHead | next | restart =>
    rw [request_goto_pc] at hpolled
    cases hpolled
  | @hit head i hpc hhit =>
    obtain ⟨hhead, hi⟩ := h.poller k head i hpc
    have hlast : g.qsMinus1 = g.qs - 1 := rfl
    have hbase : s.base k ≤ s.passed := (h.ring.looking k (s.base k) (by
      show (s.pc k).stage _ _ = _
      rw [hpc]
      rfl)).1
    have hindex : Function.update s.index k (s.base k + i) k = s.base k + i :=
      Function.update_self ..
    refine ⟨?_, hbase, ?_, ?_⟩
    · show Function.update s.found k _ k =
        ⟨Function.update s.index k (s.base k + i) k % g.qs,
          Function.update s.index k (s.base k + i) k % 4294967296, s.base k % 4294967296⟩
      rw [Function.update_self, hindex, hhead, (poll_follows g (s.base k) i).1, add32_mod]
    · show s.base k ≤ Function.update s.index k (s.base k + i) k
      rw [hindex]
      exact Nat.le_add_right _ _
    · show Function.update s.index k (s.base k + i) k < s.base k + g.qs
      rw [hindex]
      omega
  | spin hpc => exact hold hpolled rfl rfl rfl
  | posSeen hpc | posTaken hpc | storeMark hpc | stays hpc | cleared hpc | headBusy hpc
  | headTaken hpc | loadCqHead hpc | sweep hpc | swept hpc | sweptNone hpc | loadLast hpc
  | moveSqHead hpc | writeDb hpc | storeHead hpc | freeHeadLock hpc | headPassed hpc | freePos hpc
  | putCid hpc => exact hold (by rw [hpc]; rfl) rfl rfl rfl

theorem Tracked.poller_run (h : Tracked g s) (hs : Runs g s k s') {head i : Nat}
    (hpc' : s'.pc k = .loadEntry head i) : head = s'.base k % 4294967296 ∧ i < g.qsMinus1 := by
  have htwo := g.two_le_qs
  have hlast : g.qsMinus1 = g.qs - 1 := rfl
  cases hs with
  | spin hpc =>
    rcases hpc with hpc | hpc | hpc <;> rw [hpc] at hpc' <;> cases hpc'
  | loadHead hpc =>
    rw [request_goto_pc] at hpc'
    cases hpc'
    refine ⟨?_, by omega⟩
    show s.head = Function.update s.base k s.passed k % 4294967296
    rw [Function.update_self, h.head]
  | next hpc hi =>
    rw [request_goto_pc] at hpc'
    cases hpc'
    exact ⟨(h.poller k _ _ hpc).1, hi⟩
  | _ =>
    rw [request_goto_pc] at hpc'
    cases hpc'

/-- A mark that is down has been taken away. -/
theorem Tracked.cleared_run (h : Tracked g s) (hs : Runs g s k s') (hpc' : s'.pc k = .loadNewHead) :
    s'.index k < s'.swept := by
  cases hs with
  | spin hpc => exact h.cleared k hpc'
  | cleared hpc hmark =>
    by_contra hge
    have hfound := (h.found k (by rw [hpc]; rfl)).found
    have hup : s.ring.mark (s.index k % g.qs) = true := (h.ring.mark_iff _).mpr
      ⟨k, s.index k, by
        show (s.pc k).stage _ _ = _
        rw [hpc]
        rfl, rfl, Nat.le_of_not_lt hge⟩
    rw [hfound] at hmark
    rw [show s.ring.mark (s.index k % g.qs) = false from hmark] at hup
    cases hup
  | _ =>
    rw [request_goto_pc] at hpc'
    cases hpc'

/-! ## Steps keep the invariant -/

theorem tracked_init (h : Completion.Init s) : Tracked g s := by
  have hpc : ∀ k, s.pc k = .drawCid := fun k => by rw [h.pc]
  have hstage : ∀ k, s.ring.stage k = .idle := fun k => by
    show (s.pc k).stage _ _ = _
    rw [hpc]
    rfl
  have hposted : s.ring.posted = 0 := h.posted
  have hswept : s.ring.swept = 0 := h.swept
  have hno : ∀ {n : Nat}, n < s.ring.posted → False := fun hn => by
    rw [hposted] at hn
    exact Nat.not_lt_zero _ hn
  have hidle : ∀ k, (s.ring.stage k).reply = none := fun k => by
    rw [hstage]
    rfl
  exact
    { ring :=
        { passed_le := by
            show s.passed ≤ s.rung
            rw [h.passed, h.rung]
          rung_le := by
            show s.rung ≤ s.swept
            rw [h.rung, h.swept]
          swept_le := by rw [hswept, hposted]
          room := by
            have := g.qs_pos
            rw [hposted, show s.ring.rung = 0 from h.rung]
            omega
          id_unique := fun j _ hj => by
            rw [hstage] at hj
            cases hj
          owner_inj := fun _ hm => (hno hm).elim
          asked := fun _ hn => (hno hn).elim
          pending := fun _ hn => (hno hn).elim
          looking := fun k b hk => by
            rw [hstage] at hk
            cases hk
          reply := fun k n hk => by
            rw [hidle] at hk
            cases hk
          unmarked := fun k n hk => by
            rw [hstage] at hk
            cases hk
          mark_iff := fun i => by
            rw [show s.ring.mark i = false from congrFun h.headMark i]
            refine ⟨fun he => (nomatch he), ?_⟩
            rintro ⟨k, n, hk, -⟩
            rw [hstage] at hk
            cases hk
          left := fun k n hk => by
            rw [hstage] at hk
            rcases hk with hk | hk <;> cases hk
          answered := fun n hn => by
            rw [hswept] at hn
            exact absurd hn (Nat.not_lt_zero n) }
      cidHeld := fun c => by
        rw [h.cidLocks]
        refine .none fun k hk => ?_
        rw [hpc] at hk
        cases hk.1
      posHeld := fun p => by
        rw [h.posLocks]
        refine .none fun k hk => ?_
        rw [hpc] at hk
        cases hk.1
      headHeld := by
        rw [h.headLock]
        refine .none fun k hk => ?_
        rw [hpc] at hk
        cases hk
      headFree := fun _ => ⟨h.passed.trans h.swept.symm, h.rung.trans h.swept.symm⟩
      sweeper := fun k => by
        rw [hpc]
        trivial
      poller := fun k _ _ hk => by
        rw [hpc] at hk
        cases hk
      found := fun k hk => by
        rw [hpc] at hk
        cases hk
      cleared := fun k hk => by
        rw [hpc] at hk
        cases hk
      head := by rw [h.head, h.passed]
      db := by rw [h.db, h.rung, Nat.zero_mod]
      logCid := fun _ hn => (hno hn).elim
      vaddr := by
        rw [h.posted]
        refine PhaseRing.written_zero fun p => ?_
        show (s.vaddr p).phase = false
        rw [congrFun h.vaddr p]
        decide }

/-- A step of a request. -/
theorem Tracked.run (h : Tracked g s) (hs : Runs g s k s') (hfresh : Fresh g s (.run k)) :
    Tracked g s' := by
  have hf := hs.frame
  obtain ⟨hhead, hdb, hpassed, hswept⟩ := h.head_run hs
  have hring := h.ring_run hs hfresh
  refine
    { ring := hring
      cidHeld := h.cidHeld_run hs
      posHeld := h.posHeld_run hs
      headHeld := h.headHeld_run hs
      headFree := h.headFree_run hs
      sweeper := fun j => ?_
      poller := fun j head i hj => ?_
      found := fun j hj => ?_
      cleared := fun j hj => ?_
      head := hhead
      db := hdb
      logCid := fun n hn => ?_
      vaddr := ?_ }
  · by_cases hjk : j = k
    · rw [hjk]
      exact h.sweeperFact_run hs
    rw [hf.pc_ne j hjk]
    cases hin : (s.pc k).inHead with
    | true =>
      -- the lock is `k`'s, so `j` is outside
      refine sweeperFact_outside ?_ s'
      rw [Bool.eq_false_iff]
      exact fun hj => hjk (h.headHeld.unique j k hj hin)
    | false =>
      obtain ⟨h1, h2, h3, -, -⟩ := hs.head_kept hin
      have hfact := h.sweeper j
      cases hpc : s.pc j <;> rw [hpc] at hfact <;> simp only [SweeperFact] at hfact ⊢ <;>
        simpa only [h1, h2, h3, hf.log] using hfact
  · by_cases hjk : j = k
    · subst hjk
      exact h.poller_run hs hj
    · rw [hf.pc_ne j hjk] at hj
      rw [hf.base_ne j hjk]
      exact h.poller j head i hj
  · by_cases hjk : j = k
    · subst hjk
      exact h.found_run hs hj
    · rw [hf.pc_ne j hjk] at hj
      obtain ⟨h1, h2, h3, h4⟩ := h.found j hj
      rw [← hf.index_ne j hjk, ← hf.base_ne j hjk] at h1 h4
      rw [← hf.base_ne j hjk] at h2 h3
      rw [← hf.index_ne j hjk] at h3
      exact ⟨(hf.found_ne j hjk).trans h1, Nat.le_trans h2 hpassed, h3, h4⟩
  · by_cases hjk : j = k
    · subst hjk
      exact h.cleared_run hs hj
    · rw [hf.pc_ne j hjk] at hj
      rw [hf.index_ne j hjk]
      exact Nat.lt_of_lt_of_le (h.cleared j hj) hswept
  · rw [hf.posted] at hn
    rw [hf.log, hf.owner, h.logCid n hn]
    -- whose completion has been posted draws no other identifier
    have hasked : s.ring.stage (s.owner n) ≠ .idle := h.ring.asked n hn
    cases hs with
    | cidTaken hpc =>
      refine (Function.update_of_ne ?_ _ _).symm
      rintro heq
      apply hasked
      show (s.pc (s.owner n)).stage _ _ = _
      rw [heq, hpc]
      rfl
    | _ => rfl
  · rw [hf.vaddr, hf.log, hf.posted]
    exact h.vaddr

/-- A completion is posted. -/
theorem Tracked.post (h : Tracked g s) {e : Cpl} (hmay : s.MayPost g k e) :
    Tracked g { s with
      vaddr := Function.update s.vaddr (tailAfter g.qs s.posted).pos e
      log := Function.update s.log s.posted e
      owner := Function.update s.owner s.posted k
      posted := s.posted + 1 } := by
  obtain ⟨hawaits, hnew, hcid, hphase, hroom⟩ := hmay
  have htail := tailAfter_eq g.qs_pos s.posted
  have hold : s.posted < s.rung + g.qs := h.ring.room
  have hswept : s.swept ≤ s.posted := h.ring.swept_le
  have hlog : ∀ n, n ≠ s.posted → Function.update s.log s.posted e n = s.log n :=
    fun n hn => Function.update_of_ne hn _ _
  rw [htail] at hphase
  -- the controller's test, in full counters
  have hnext : s.posted + 1 < s.rung + g.qs := by
    refine Nat.lt_of_le_of_ne hold fun heq => hroom ?_
    rw [h.db, ← Nat.add_mod_right s.rung, ← heq]
    show (tailAfter g.qs (s.posted + 1)).pos = _
    rw [tailAfter_eq g.qs_pos]
  have hsearch : (s.ring.stage k).searching = true := by
    show ((s.pc k).stage _ _).searching = true
    cases hpc : s.pc k <;> rw [hpc] at hawaits <;> first | rfl | cases hawaits
  refine
    { ring := h.ring.step (.post hsearch hnew hnext)
      cidHeld := h.cidHeld
      posHeld := h.posHeld
      headHeld := h.headHeld
      headFree := h.headFree
      sweeper := fun j => ?_
      poller := h.poller
      found := fun j hj => ⟨(h.found j hj).found, (h.found j hj).base_le, (h.found j hj).le_index,
        (h.found j hj).index_lt⟩
      cleared := h.cleared
      head := h.head
      db := h.db
      logCid := fun n hn => ?_
      vaddr := ?_ }
  · have hfact := h.sweeper j
    show SweeperFact _ (s.pc j)
    cases hpc : s.pc j with
    | moveSqHead c n v =>
      rw [hpc] at hfact
      obtain ⟨hc, hsum, hrung, hn, hv⟩ := hfact
      refine ⟨hc, hsum, hrung, hn, ?_⟩
      show v = (Function.update s.log s.posted e (s.swept - 1)).sqHead
      rw [hlog _ (by omega)]
      exact hv
    | _ =>
      rw [hpc] at hfact
      exact hfact
  · show (Function.update s.log s.posted e n).cid =
      s.cid (Function.update s.owner s.posted k n)
    rcases Nat.lt_succ_iff_lt_or_eq.mp hn with hlt | rfl
    · rw [hlog n (Nat.ne_of_lt hlt), Function.update_of_ne (Nat.ne_of_lt hlt)]
      exact h.logCid n hlt
    · rw [Function.update_self, Function.update_self]
      exact hcid
  · have hwrite := h.vaddr.write e
    have hmem : (fun p => (Function.update s.vaddr (tailAfter g.qs s.posted).pos e p,
        (Function.update s.vaddr (tailAfter g.qs s.posted).pos e p).phase)) =
        Function.update (fun p => (s.vaddr p, (s.vaddr p).phase)) (s.posted % g.qs)
          (e, PhaseRing.phase g.qs s.posted) := by
      rw [htail, map_update (fun x : Cpl => (x, x.phase)), hphase]
      rfl
    rw [hmem]
    exact hwrite

theorem Tracked.step (h : Tracked g s) {a : CompletionAct} (hs : completionStep g s a = some s')
    (hfresh : Fresh g s a) : Tracked g s' := by
  cases a with
  | run k => exact h.run (runs_of_step hs) hfresh
  | post k e =>
    rw [completionStep] at hs
    split at hs
    case isTrue hmay =>
      rw [← Option.some.inj hs]
      exact h.post hmay
    case isFalse => cases hs

/-- The states of a completion queue in runs in which no request falls two laps behind. -/
abbrev Dequeued (g : QueueSize) : Completion → Prop :=
  Reachable Completion.Init (Guarded (completionStep g) (Fresh g))

theorem tracked_reached (h : Dequeued g s) : Tracked g s :=
  h.invariant (fun _ h0 => tracked_init h0) fun _ _ _ hI hs => hI.step hs.2 hs.1

end GidsStack.Queue
