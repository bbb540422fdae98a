/-
  GidsStack.Queue.FrontPoll

  The blocking poll of a front request: its threads are the only ones in `cq_poll` and
  `cq_dequeue`, all their completions have been posted, and completions of other requests may
  stand between theirs. `move_head_cq` goes over marked entries only and nobody marks the
  entries of a request that is not polled, so a thread gets out of `cq_dequeue` exactly if no
  such entry stands between the head and its own (`front_leaves_iff`).

  That no other entry stands there is enough is shown by a schedule: whoever holds `head_lock`
  runs until it gives the lock back (`drain`), a thread whose entry the head has passed runs
  until it is out (`leave`), and the thread of the next entry runs until it has moved the head
  over it (`advance`).
-/

import GidsStack.Queue.Dequeue
import Mathlib.Logic.Relation

namespace GidsStack.Queue

open Laps Lib Lock ReplyRing Relation

variable {g : QueueSize} {F : Nat → Prop} {s s' t : Completion} {j k n : Nat}

/-! ## The property -/

/-- In `cq_dequeue`. -/
def RequestPc.inDequeue : RequestPc → Bool
  | .putCid | .returned => false
  | pc => pc.polled

/-- `cq_dequeue` has returned. -/
def RequestPc.out : RequestPc → Bool
  | .putCid | .returned => true
  | _ => false

/-- A step of a thread of the front request. -/
def FrontStep (g : QueueSize) (F : Nat → Prop) (s s' : Completion) : Prop :=
  ∃ k, F k ∧ completionStep g s (.run k) = some s'

/-- The threads of the front request `F` alone are polling, and its completions have been
    posted. None of them is two laps behind the controller, or sleeps while it posts `2 ^ 32`. -/
structure FrontPolls (g : QueueSize) (F : Nat → Prop) (s : Completion) : Prop where
  only : ∀ k, ¬ F k → (s.pc k).inDequeue = false
  posted : ∀ k, F k → ∃ n < s.posted, s.owner n = k
  near : ∀ k head i, F k → s.pc k = .loadEntry head i → s.posted ≤ s.base k + 2 * g.qs
  awake : ∀ k, F k → (s.pc k).polled = true → s.posted < s.base k + 4294967296

theorem polled_of_inDequeue {pc : RequestPc} (h : pc.inDequeue = true) : pc.polled = true := by
  cases pc <;> first | rfl | cases h

theorem inDequeue_or_out {pc : RequestPc} (h : pc.polled = true) :
    pc.inDequeue = true ∨ pc.out = true := by
  cases pc <;> first | exact .inl rfl | exact .inr rfl | cases h

theorem inDequeue_of_inHead {pc : RequestPc} (h : pc.inHead = true) : pc.inDequeue = true := by
  cases pc <;> first | rfl | cases h

theorem inDequeue_of_inPos {pc : RequestPc} (h : pc.inPos = true) : pc.inDequeue = true := by
  cases pc <;> first | rfl | cases h

/-- What a poll of the front request keeps. -/
structure Polling (g : QueueSize) (F : Nat → Prop) (s : Completion) : Prop where
  tracked : Tracked g s
  lag : s.rung < s.passed + g.qs
  polls : FrontPolls g F s

namespace Polling

/-- A poll that has no more than two laps to look at finds what is its own. -/
theorem fresh (h : Polling g F s) (hk : F k) : Fresh g s (.run k) := by
  cases hpc : s.pc k with
  | loadEntry head i =>
    rw [Fresh, hpc]
    have hnear := h.polls.near k head i hk hpc
    intro _
    omega
  | _ =>
    rw [Fresh, hpc]
    trivial

/-- What request `k` has found, and where it began to look, stays once the poll is over. -/
theorem found_kept (hs : Runs g s k s') (h : (s.pc k).polled = true) :
    (s'.pc k).polled = true ∧ s'.index k = s.index k ∧ s'.base k = s.base k ∧
      s'.found k = s.found k := by
  cases hs with
  | drawCid hpc | cidBusy hpc | cidTaken hpc | enqueued hpc | loadHead hpc | hit hpc | next hpc
  | restart hpc =>
    rw [hpc] at h
    cases h
  | spin => exact ⟨h, rfl, rfl, rfl⟩
  | _ =>
    rw [request_goto_pc]
    exact ⟨rfl, rfl, rfl, rfl⟩

theorem run (h : Polling g F s) (hk : F k) (hs : Runs g s k s') : Polling g F s' := by
  have hf := hs.frame
  have ht := h.tracked
  have hpassed := (ht.head_run hs).2.2.1
  have hroom : s.posted < s.rung + g.qs := ht.ring.room
  have hswept : s.swept ≤ s.posted := ht.ring.swept_le
  have hqs := g.qs_le
  refine
    { tracked := ht.run hs (h.fresh hk)
      lag := ?_
      polls :=
        { only := fun i hi => ?_
          posted := fun i hi => ?_
          near := fun i head e hi hpc => ?_
          awake := fun i hi hp => ?_ } }
  · have hfact := ht.sweeper k
    have hlag := h.lag
    cases hs with
    | writeDb hpc =>
      rw [hpc] at hfact
      obtain ⟨-, -, hrung, -⟩ := hfact
      show s.swept < s.passed + g.qs
      omega
    | storeHead hpc =>
      show s.rung < s.rung + g.qs
      exact Nat.lt_add_of_pos_right g.qs_pos
    | _ => exact hlag
  · rw [hf.pc_ne i fun heq => hi (heq ▸ hk)]
    exact h.polls.only i hi
  · rw [hf.posted, hf.owner]
    exact h.polls.posted i hi
  · rw [hf.posted]
    by_cases hik : i = k
    · subst hik
      have hnear := h.polls.near i
      have hlag := h.lag
      cases hs with
      | spin => exact hnear head e hi hpc
      | loadHead =>
        show s.posted ≤ Function.update s.base i s.passed i + 2 * g.qs
        rw [Function.update_self]
        omega
      | next hpc' => exact hnear _ _ hi hpc'
      | _ =>
        rw [request_goto_pc] at hpc
        cases hpc
    · rw [hf.pc_ne i hik] at hpc
      rw [hf.base_ne i hik]
      exact h.polls.near i head e hi hpc
  · rw [hf.posted]
    by_cases hik : i = k
    · subst hik
      cases hold : (s.pc i).polled with
      | true =>
        rw [(found_kept hs hold).2.2.1]
        exact h.polls.awake i hi hold
      | false =>
        have hnear := h.polls.near i
        cases hs with
        | hit hpc =>
          have hle := hnear _ _ hi hpc
          show s.posted < s.base i + 4294967296
          omega
        | spin hpc =>
          rw [hp] at hold
          cases hold
        | drawCid | cidBusy | cidTaken | enqueued | loadHead | next | restart =>
          rw [request_goto_pc] at hp
          cases hp
        | posSeen hpc | posTaken hpc | storeMark hpc | stays hpc | cleared hpc | headBusy hpc
        | headTaken hpc | loadCqHead hpc | sweep hpc | swept hpc | sweptNone hpc | loadLast hpc
        | moveSqHead hpc | writeDb hpc | storeHead hpc | freeHeadLock hpc | headPassed hpc
        | freePos hpc | putCid hpc =>
          rw [hpc] at hold
          cases hold
    · rw [hf.pc_ne i hik] at hp
      rw [hf.base_ne i hik]
      exact h.polls.awake i hi hp

/-- What steps of the front request leave as it is. -/
structure Kept (F : Nat → Prop) (s t : Completion) : Prop where
  posted : t.posted = s.posted
  owner : t.owner = s.owner
  swept : s.swept ≤ t.swept
  others : ∀ k, ¬ F k → t.pc k = s.pc k
  found : ∀ k, (s.pc k).polled = true →
    (t.pc k).polled = true ∧ t.index k = s.index k ∧ t.found k = s.found k

theorem kept (h : Polling g F s) (hk : F k) (hs : Runs g s k s') : Kept F s s' where
  posted := hs.frame.posted
  owner := hs.frame.owner
  swept := (h.tracked.head_run hs).2.2.2
  others i hi := hs.frame.pc_ne i fun heq => hi (heq ▸ hk)
  found i hi := by
    by_cases hik : i = k
    · subst hik
      obtain ⟨hp, hindex, -, hfound⟩ := found_kept hs hi
      exact ⟨hp, hindex, hfound⟩
    · rw [hs.frame.pc_ne i hik, hs.frame.index_ne i hik, hs.frame.found_ne i hik]
      exact ⟨hi, rfl, rfl⟩

theorem path (h : Polling g F s) (hp : ReflTransGen (FrontStep g F) s t) :
    Polling g F t ∧ Kept F s t := by
  induction hp with
  | refl => exact ⟨h, rfl, rfl, Nat.le_refl _, fun _ _ => rfl, fun _ hk => ⟨hk, rfl, rfl⟩⟩
  | tail _ hstep ih =>
    obtain ⟨hu, hkept⟩ := ih
    obtain ⟨k, hk, hs⟩ := hstep
    have hruns := runs_of_step hs
    have hlast := hu.kept hk hruns
    refine ⟨hu.run hk hruns, hlast.posted.trans hkept.posted, hlast.owner.trans hkept.owner,
      Nat.le_trans hkept.swept hlast.swept,
      fun i hi => (hlast.others i hi).trans (hkept.others i hi), fun i hi => ?_⟩
    obtain ⟨hp, hindex, hfound⟩ := hkept.found i hi
    obtain ⟨hp', hindex', hfound'⟩ := hlast.found i hp
    exact ⟨hp', hindex'.trans hindex, hfound'.trans hfound⟩

/-! ### Entries of other requests -/

/-- What is left to do before `head_lock` is given back. -/
def headRank : RequestPc → Nat
  | .loadCqHead => 7
  | .exchangeMark .. => 6
  | .loadLast .. => 5
  | .moveSqHead .. => 4
  | .writeDb .. => 3
  | .storeHead .. => 2
  | .freeHeadLock => 1
  | _ => 0

def work (s : Completion) (k : Nat) : Nat :=
  8 * (s.posted - s.swept) + headRank (s.pc k)

theorem work_goto (s : Completion) (k : Nat) (pc : RequestPc) :
    work (s.goto k pc) k = 8 * (s.posted - s.swept) + headRank pc := by
  rw [work, request_goto_pc]
  rfl

/-- A thread that has not returned has a step. -/
theorem exists_step (g : QueueSize) (h : s.pc k ≠ .returned) :
    ∃ s', completionStep g s (.run k) = some s' := by
  refine Option.isSome_iff_exists.mp ?_
  show (requestStep g s k).isSome = true
  cases hpc : s.pc k with
  | returned => exact absurd hpc h
  | _ => simp only [requestStep, hpc, Option.isSome_some]

/-- A step under `head_lock`. -/
theorem inHead_step (h : Polling g F s) (hk : F k) (hin : (s.pc k).inHead = true)
    (hs : Runs g s k s') : s'.posLocks = s.posLocks ∧
      (s'.pc k = .loadMark ∧ s'.headLock = false ∨
        (s'.pc k).inHead = true ∧ work s' k < work s k) := by
  have hle : s'.swept ≤ s'.posted := (h.run hk hs).tracked.ring.swept_le
  have hold : ∀ pc, s.pc k = pc → work s k = 8 * (s.posted - s.swept) + headRank pc :=
    fun pc hpc => by rw [work, hpc]
  cases hs with
  | loadCqHead hpc | swept hpc | sweptNone hpc | loadLast hpc | moveSqHead hpc | writeDb hpc
  | storeHead hpc =>
    refine ⟨rfl, .inr ⟨by rw [request_goto_pc]; rfl, ?_⟩⟩
    rw [work_goto, hold _ hpc]
    simp only [headRank]
    omega
  | @sweep c n hpc hmark =>
    refine ⟨rfl, .inr ⟨by rw [request_goto_pc]; rfl, ?_⟩⟩
    replace hle : s.swept + 1 ≤ s.posted := hle
    rw [work_goto, hold _ hpc]
    show 8 * (s.posted - (s.swept + 1)) + 6 < 8 * (s.posted - s.swept) + 6
    omega
  | freeHeadLock hpc => exact ⟨rfl, .inl ⟨request_goto_pc .., rfl⟩⟩
  | spin hpc =>
    rcases hpc with hpc | hpc | hpc <;> rw [hpc] at hin <;> cases hin
  | drawCid hpc | cidBusy hpc | cidTaken hpc | enqueued hpc | loadHead hpc | hit hpc | next hpc
  | restart hpc | posSeen hpc | posTaken hpc | storeMark hpc | stays hpc | cleared hpc
  | headBusy hpc | headTaken hpc | headPassed hpc | freePos hpc | putCid hpc =>
    rw [hpc] at hin
    cases hin

/-- The holder of `head_lock` runs until it has given it back. -/
theorem drain_from (h : Polling g F s) (hk : F k) (hin : (s.pc k).inHead = true) :
    ∃ t, ReflTransGen (FrontStep g F) s t ∧ t.headLock = false ∧ t.pc k = .loadMark ∧
      t.posLocks = s.posLocks ∧ ∀ j, j ≠ k → t.pc j = s.pc j := by
  generalize hw : work s k = w
  induction w using Nat.strong_induction_on generalizing s with
  | _ w ih =>
    obtain ⟨s', hstep⟩ := exists_step g (s := s) (k := k) fun hpc => by
      rw [hpc] at hin
      cases hin
    have hruns := runs_of_step hstep
    obtain ⟨hpos, hnext⟩ := h.inHead_step hk hin hruns
    have hfirst : ReflTransGen (FrontStep g F) s s' := .single ⟨k, hk, hstep⟩
    rcases hnext with ⟨hpc, hfree⟩ | ⟨hin', hless⟩
    · exact ⟨s', hfirst, hfree, hpc, hpos, hruns.frame.pc_ne⟩
    · obtain ⟨t, hp, hfree, hpc, hpos', hne⟩ :=
        ih (work s' k) (by omega) (h.run hk hruns) hin' rfl
      exact ⟨t, hfirst.trans hp, hfree, hpc, hpos'.trans hpos,
        fun j hj => (hne j hj).trans (hruns.frame.pc_ne j hj)⟩

/-- The lock of the head comes free. -/
theorem drain (h : Polling g F s) :
    ∃ t, ReflTransGen (FrontStep g F) s t ∧ t.headLock = false := by
  cases hlock : s.headLock with
  | false => exact ⟨s, .refl, hlock⟩
  | true =>
    obtain ⟨k, hin⟩ := h.tracked.headHeld.locked_iff.mp hlock
    have hk : F k := by
      by_contra hnot
      have hout := h.polls.only k hnot
      rw [inDequeue_of_inHead hin] at hout
      cases hout
    obtain ⟨t, hp, hfree, -⟩ := h.drain_from hk hin
    exact ⟨t, hp, hfree⟩

/-! ### A thread whose entry has been passed -/

theorem inPos_of_marked {pc : RequestPc} {b i : Nat} (h : pc.stage b i = .marked n) :
    pc.inPos = true := by
  cases pc <;> cases h <;> rfl

/-- The mark of a thread whose entry has been swept is down. -/
theorem mark_down (h : Polling g F s) (hpc : s.pc j = .loadMark) (hlt : s.index j < s.swept) :
    s.headMark (s.found j).pos = false := by
  refine Bool.eq_false_iff.mpr fun hmark => ?_
  obtain ⟨k, n, hk, hmod, hle⟩ := (h.tracked.ring.mark_iff _).mp hmark
  replace hk : (s.pc k).stage (s.base k) (s.index k) = .marked n := hk
  have hindex := (inLoop_of_marked hk).1
  have hin := inPos_of_marked hk
  have hfound := (h.tracked.found k (polled_of_inDequeue (inDequeue_of_inPos hin))).found
  have hpos : (s.found k).pos = (s.found j).pos := by
    rw [hfound, hindex]
    exact hmod
  -- the lock of the position is held by one of them
  obtain rfl : k = j := (h.tracked.posHeld (s.found j).pos).unique k j ⟨hin, hpos⟩
    ⟨by rw [hpc]; rfl, rfl⟩
  replace hle : s.swept ≤ n := hle
  omega

/-- The last loop of `cq_dequeue` ends when the head has passed the entry. -/
theorem test_of_passed (h : Polling g F s) (hk : F k) (hp : (s.pc k).polled = true)
    (hlt : s.index k < s.passed) :
    headPassed s.head (s.found k).loc (s.found k).cqHead = true := by
  obtain ⟨hfound, -, hle, -⟩ := h.tracked.found k hp
  have hawake := h.polls.awake k hk hp
  have hposted : s.passed ≤ s.posted := Nat.le_trans h.tracked.ring.passed_le
    (Nat.le_trans h.tracked.ring.rung_le h.tracked.ring.swept_le)
  rw [hfound, h.tracked.head, headPassed]
  simp only [gt_iff_lt, ge_iff_le]
  split
  case isTrue hgt =>
    rw [Bool.and_eq_true, decide_eq_true_eq, decide_eq_true_eq]
    omega
  case isFalse hge =>
    split
    case isTrue hgt =>
      rw [Bool.or_eq_true, decide_eq_true_eq, decide_eq_true_eq]
      omega
    case isFalse =>
      exfalso
      omega

/-- The thread `j` gets out, by steps of its own. -/
def Leaves (g : QueueSize) (F : Nat → Prop) (s : Completion) (j : Nat) : Prop :=
  ∃ t, ReflTransGen (FrontStep g F) s t ∧ t.headLock = false ∧ t.pc j = .putCid ∧
    ∀ i, i ≠ j → t.pc i = s.pc i

theorem Leaves.of_step (hj : F j) (hstep : completionStep g s (.run j) = some s')
    (h : Leaves g F s' j) : Leaves g F s j := by
  obtain ⟨t, hp, hfree, hpc, hne⟩ := h
  exact ⟨t, .head ⟨j, hj, hstep⟩ hp, hfree, hpc,
    fun i hi => (hne i hi).trans ((runs_of_step hstep).frame.pc_ne i hi)⟩

theorem leave_freePos (hfree : s.headLock = false) (hj : F j) (hpc : s.pc j = .freePos) :
    Leaves g F s j := by
  have hstep : completionStep g s (.run j) = some ({ s with
      posLocks := Function.update s.posLocks (s.found j).pos false }.goto j .putCid) := by
    simp only [completionStep, requestStep, hpc]
  exact .of_step hj hstep ⟨_, .refl, hfree, request_goto_pc .., fun _ _ => rfl⟩

theorem leave_loadNewHead (h : Polling g F s) (hfree : s.headLock = false) (hj : F j)
    (hpc : s.pc j = .loadNewHead) (hlt : s.index j < s.swept) : Leaves g F s j := by
  have htest := h.test_of_passed hj (by rw [hpc]; rfl)
    (Nat.lt_of_lt_of_eq hlt (h.tracked.headFree hfree).1.symm)
  have hstep : completionStep g s (.run j) = some (s.goto j .freePos) := by
    simp only [completionStep, requestStep, hpc, htest, if_true]
  exact .of_step hj hstep (leave_freePos hfree hj (request_goto_pc ..))

theorem leave_loadMark (h : Polling g F s) (hfree : s.headLock = false) (hj : F j)
    (hpc : s.pc j = .loadMark) (hlt : s.index j < s.swept) : Leaves g F s j := by
  have hmark := h.mark_down hpc hlt
  have hstep : completionStep g s (.run j) = some (s.goto j .loadNewHead) := by
    simp only [completionStep, requestStep, hpc, hmark, Bool.false_eq_true, if_false]
  exact .of_step hj hstep
    ((h.run hj (runs_of_step hstep)).leave_loadNewHead hfree hj (request_goto_pc ..) hlt)

/-- With the lock of the head free, a thread whose entry the head has passed gets out. -/
theorem leave (h : Polling g F s) (hfree : s.headLock = false) (hj : F j)
    (hin : (s.pc j).inDequeue = true) (hlt : s.index j < s.swept) : Leaves g F s j := by
  have hunmarked := h.tracked.ring.unmarked j (s.index j)
  have hnotFound : (s.pc j).stage (s.base j) (s.index j) ≠ .found (s.index j) := fun hstage => by
    have hle : s.swept ≤ s.index j := hunmarked hstage
    omega
  cases hpc : s.pc j with
  | freePos => exact leave_freePos hfree hj hpc
  | loadNewHead => exact h.leave_loadNewHead hfree hj hpc hlt
  | loadMark => exact h.leave_loadMark hfree hj hpc hlt
  | takeHeadLock =>
    -- it takes the lock once more, and finds its mark down when it has given it back
    have hstep : completionStep g s (.run j) =
        some ({ s with headLock := true }.goto j .loadCqHead) := by
      simp only [completionStep, requestStep, hpc, hfree, Bool.false_eq_true, if_false]
    have h' := h.run hj (runs_of_step hstep)
    obtain ⟨t, hp, hfree', hpc', -, hne⟩ := h'.drain_from hj (by rw [request_goto_pc]; rfl)
    obtain ⟨ht, hkept⟩ := h'.path hp
    obtain ⟨-, hindex, -⟩ := hkept.found j (by rw [request_goto_pc]; rfl)
    obtain ⟨u, hp', hfree'', hpc'', hne'⟩ := ht.leave_loadMark hfree' hj hpc' (by
      rw [hindex]
      exact Nat.lt_of_lt_of_le hlt hkept.swept)
    exact .of_step hj hstep
      ⟨u, hp.trans hp', hfree'', hpc'', fun i hi => (hne' i hi).trans (hne i hi)⟩
  | waitPos | takePos | storeMark =>
    rw [hpc] at hnotFound
    exact absurd rfl hnotFound
  | loadCqHead | exchangeMark | loadLast | moveSqHead | writeDb | storeHead | freeHeadLock =>
    have hlocked := h.tracked.headHeld.locked (i := j) (by rw [hpc]; rfl)
    rw [hfree] at hlocked
    cases hlocked
  | drawCid | lockCid | enqueue | loadHead | loadEntry | putCid | returned =>
    rw [hpc] at hin
    cases hin

/-! ### The thread of the next entry -/

/-- The head moves on, by steps of the front request. -/
def Advances (g : QueueSize) (F : Nat → Prop) (s : Completion) : Prop :=
  ∃ t, ReflTransGen (FrontStep g F) s t ∧ t.headLock = false ∧ s.swept < t.swept

theorem Advances.of_path (hp : ReflTransGen (FrontStep g F) s s') (hle : s.swept ≤ s'.swept)
    (h : Advances g F s') : Advances g F s := by
  obtain ⟨t, hp', hfree, hlt⟩ := h
  exact ⟨t, hp.trans hp', hfree, Nat.lt_of_le_of_lt hle hlt⟩

/-- The lock of the head is free, and the next entry is that of the front request's thread
    `j`. -/
structure Next (g : QueueSize) (F : Nat → Prop) (s : Completion) (j : Nat) : Prop where
  front : Polling g F s
  free : s.headLock = false
  mem : F j
  lt : s.swept < s.posted
  owner : s.owner s.swept = j

namespace Next

theorem index_eq (h : Next g F s j) (hp : (s.pc j).polled = true) : s.index j = s.swept := by
  obtain ⟨hlt, hown⟩ := h.front.tracked.ring.reply j (s.index j) (stage_reply hp _ _)
  exact h.front.tracked.ring.owner_inj _ hlt _ h.lt (hown.trans h.owner.symm)

theorem pos_eq (h : Next g F s j) (hp : (s.pc j).polled = true) :
    (s.found j).pos = s.swept % g.qs := by
  rw [(h.front.tracked.found j hp).found, h.index_eq hp]

theorem mark_up (h : Next g F s j) (hpc : s.pc j = .loadMark ∨ s.pc j = .takeHeadLock) :
    s.headMark (s.swept % g.qs) = true := by
  have hindex := h.index_eq (by rcases hpc with hpc | hpc <;> rw [hpc] <;> rfl)
  refine (h.front.tracked.ring.mark_iff _).mpr ⟨j, s.swept, ?_, rfl, Nat.le_refl _⟩
  show (s.pc j).stage (s.base j) (s.index j) = _
  rw [hindex]
  rcases hpc with hpc | hpc <;> rw [hpc] <;> rfl

/-- A step of the thread outside of the lock of the head. -/
theorem run (h : Next g F s j) (hs : Runs g s j s') (hin : (s.pc j).inHead = false)
    (hfree : s'.headLock = false) : Next g F s' j := by
  have hswept := (hs.head_kept hin).1
  refine ⟨h.front.run h.mem hs, hfree, h.mem, ?_, ?_⟩
  · rw [hswept, hs.frame.posted]
    exact h.lt
  · rw [hswept, hs.frame.owner]
    exact h.owner

theorem of_step (h : Next g F s j) (hstep : completionStep g s (.run j) = some s')
    (hin : (s.pc j).inHead = false) (hfree : s'.headLock = false)
    (hnext : Next g F s' j → Advances g F s') : Advances g F s :=
  have hruns := runs_of_step hstep
  .of_path (.single ⟨j, h.mem, hstep⟩) (Nat.le_of_eq (hruns.head_kept hin).1.symm)
    (hnext (h.run hruns hin hfree))

/-- It takes the lock of the head, and moves the head over its entry at least. -/
theorem takeHeadLock (h : Next g F s j) (hpc : s.pc j = .takeHeadLock) : Advances g F s := by
  have hmark := h.mark_up (.inr hpc)
  obtain ⟨hpassed, -⟩ := h.front.tracked.headFree h.free
  have hloc : add32 s.head 0 &&& g.qsMinus1 = s.swept % g.qs := by
    rw [h.front.tracked.head, add32_mod, Nat.add_zero, g.pos_eq, hpassed]
  have hlock : completionStep g s (.run j) =
      some ({ s with headLock := true }.goto j .loadCqHead) := by
    simp only [completionStep, requestStep, hpc, h.free, Bool.false_eq_true, if_false]
  generalize hs1 : ({ s with headLock := true } : Completion).goto j .loadCqHead = s1 at hlock
  have hpc1 : s1.pc j = .loadCqHead := by rw [← hs1, request_goto_pc]
  have hload : completionStep g s1 (.run j) = some (s1.goto j (.exchangeMark s1.head 0)) := by
    simp only [completionStep, requestStep, hpc1]
  generalize hs2 : s1.goto j (.exchangeMark s1.head 0) = s2 at hload
  have hpc2 : s2.pc j = .exchangeMark s.head 0 := by rw [← hs2, request_goto_pc, ← hs1]; rfl
  have hup : s2.headMark (add32 s.head 0 &&& g.qsMinus1) = true := by
    rw [hloc, ← hs2, ← hs1]
    exact hmark
  have hsweep : completionStep g s2 (.run j) = some ({ s2 with
      headMark := Function.update s2.headMark (add32 s.head 0 &&& g.qsMinus1) false
      swept := s2.swept + 1 }.goto j (.exchangeMark s.head (add32 0 1))) := by
    simp only [completionStep, requestStep, hpc2, exchangeStep, hup, if_true]
  have h3 := ((h.front.run h.mem (runs_of_step hlock)).run h.mem (runs_of_step hload)).run h.mem
    (runs_of_step hsweep)
  obtain ⟨t, hp, hfree, -⟩ := h3.drain_from h.mem (by rw [request_goto_pc]; rfl)
  refine ⟨t, .head ⟨j, h.mem, hlock⟩ (.head ⟨j, h.mem, hload⟩ (.head ⟨j, h.mem, hsweep⟩ hp)),
    hfree, Nat.lt_of_lt_of_le ?_ (h3.path hp).2.swept⟩
  show s.swept < s2.swept + 1
  rw [← hs2, ← hs1]
  exact Nat.lt_succ_self _

theorem loadMark (h : Next g F s j) (hpc : s.pc j = .loadMark) : Advances g F s := by
  have hmark := h.mark_up (.inl hpc)
  rw [← h.pos_eq (by rw [hpc]; rfl)] at hmark
  have hstep : completionStep g s (.run j) = some (s.goto j .takeHeadLock) := by
    simp only [completionStep, requestStep, hpc, hmark, if_true]
  exact h.of_step hstep (by rw [hpc]; rfl) h.free fun h' => h'.takeHeadLock (request_goto_pc ..)

theorem storeMark (h : Next g F s j) (hpc : s.pc j = .storeMark) : Advances g F s := by
  have hstep : completionStep g s (.run j) = some ({ s with
      headMark := Function.update s.headMark (s.found j).pos true }.goto j .loadMark) := by
    simp only [completionStep, requestStep, hpc]
  exact h.of_step hstep (by rw [hpc]; rfl) h.free fun h' => h'.loadMark (request_goto_pc ..)

/-- A thread that has the lock of the same position has an entry that has been passed. -/
theorem index_lt_of_pos (h : Next g F s j) (hp : (s.pc j).polled = true) {i : Nat} (hij : i ≠ j)
    (hin : (s.pc i).inPos = true) (hpos : (s.found i).pos = (s.found j).pos) :
    s.index i < s.swept := by
  have hpolled := polled_of_inDequeue (inDequeue_of_inPos hin)
  obtain ⟨hlt, hown⟩ := h.front.tracked.ring.reply i (s.index i) (stage_reply hpolled _ _)
  rw [(h.front.tracked.found i hpolled).found, h.pos_eq hp] at hpos
  by_contra hge
  have hroom : s.posted < s.rung + g.qs := h.front.tracked.ring.room
  have hrung : s.rung ≤ s.swept := h.front.tracked.ring.rung_le
  replace hlt : s.index i < s.posted := hlt
  have heq : s.index i = s.swept := eq_of_mod_eq hpos (by omega) (by omega)
  rw [heq] at hown
  exact hij (hown.symm.trans h.owner)

/-- The lock of the position comes free, if the head does not move before. -/
theorem clearPos (h : Next g F s j) (hpc : s.pc j = .waitPos ∨ s.pc j = .takePos) :
    Advances g F s ∨ ∃ t, ReflTransGen (FrontStep g F) s t ∧ s.swept ≤ t.swept ∧
      Next g F t j ∧ t.pc j = s.pc j ∧ t.posLocks (t.found j).pos = false := by
  have hpolled : (s.pc j).polled = true := by rcases hpc with hpc | hpc <;> rw [hpc] <;> rfl
  cases hlock : s.posLocks (s.found j).pos with
  | false => exact .inr ⟨s, .refl, Nat.le_refl _, h, rfl, hlock⟩
  | true =>
    obtain ⟨i, hin, hpos⟩ := (h.front.tracked.posHeld _).locked_iff.mp hlock
    have hij : i ≠ j := fun heq => by
      rw [heq] at hin
      rcases hpc with hpc | hpc <;> rw [hpc] at hin <;> cases hin
    have hindeq := inDequeue_of_inPos hin
    have hi : F i := by
      by_contra hnot
      have hout := h.front.polls.only i hnot
      rw [hindeq] at hout
      cases hout
    obtain ⟨t, hp, hfree, hpci, hne⟩ :=
      h.front.leave h.free hi hindeq (h.index_lt_of_pos hpolled hij hin hpos)
    obtain ⟨ht, hkept⟩ := h.front.path hp
    rcases Nat.lt_or_eq_of_le hkept.swept with hlt | heq
    · exact .inl ⟨t, hp, hfree, hlt⟩
    · have hnext : Next g F t j := ⟨ht, hfree, h.mem, by rw [← heq, hkept.posted]; exact h.lt, by
        rw [← heq, hkept.owner]
        exact h.owner⟩
      refine .inr ⟨t, hp, hkept.swept, hnext, hne j hij.symm, Bool.eq_false_iff.mpr fun hup => ?_⟩
      -- nobody but `i` had the lock, and `i` has given it back
      obtain ⟨i', hin', hpos'⟩ := (ht.tracked.posHeld _).locked_iff.mp hup
      by_cases hii : i' = i
      · rw [hii, hpci] at hin'
        cases hin'
      · rw [hne i' hii] at hin'
        have hfound' := (hkept.found i' (polled_of_inDequeue (inDequeue_of_inPos hin'))).2.2
        rw [hfound', (hkept.found j hpolled).2.2] at hpos'
        exact hii ((h.front.tracked.posHeld _).unique i' i ⟨hin', hpos'⟩ ⟨hin, hpos⟩)

theorem takePos (h : Next g F s j) (hpc : s.pc j = .takePos) : Advances g F s := by
  rcases h.clearPos (.inr hpc) with hdone | ⟨t, hp, hle, ht, hsame, hfree⟩
  · exact hdone
  · have hpc' := hsame.trans hpc
    have hstep : completionStep g t (.run j) = some ({ t with
        posLocks := Function.update t.posLocks (t.found j).pos true }.goto j .storeMark) := by
      simp only [completionStep, requestStep, hpc', hfree, Bool.false_eq_true, if_false]
    exact .of_path hp hle (ht.of_step hstep (by rw [hpc']; rfl) ht.free fun h' =>
      h'.storeMark (request_goto_pc ..))

theorem waitPos (h : Next g F s j) (hpc : s.pc j = .waitPos) : Advances g F s := by
  rcases h.clearPos (.inl hpc) with hdone | ⟨t, hp, hle, ht, hsame, hfree⟩
  · exact hdone
  · have hpc' := hsame.trans hpc
    have hstep : completionStep g t (.run j) = some (t.goto j .takePos) := by
      simp only [completionStep, requestStep, hpc', hfree, Bool.false_eq_true, if_false]
    exact .of_path hp hle (ht.of_step hstep (by rw [hpc']; rfl) ht.free fun h' =>
      h'.takePos (request_goto_pc ..))

/-- The next entry is the first that a new round of the poll looks at. -/
theorem hit_first (h : Next g F s j) : s.Hit g j (add32 s.head 0) := by
  obtain ⟨hpassed, hrung⟩ := h.front.tracked.headFree h.free
  obtain ⟨hloc, hphase⟩ := poll_follows g s.swept 0
  rw [Nat.add_zero] at hloc hphase
  have hroom : s.posted < s.rung + g.qs := h.front.tracked.ring.room
  have hentry := h.front.tracked.vaddr.entry s.swept h.lt (by omega)
  rw [Completion.Hit, h.front.tracked.head, hpassed, hloc, hphase]
  refine ⟨?_, congrArg Prod.snd hentry⟩
  have hlog := congrArg Prod.fst hentry
  rw [show s.vaddr (s.swept % g.qs) = s.log s.swept from hlog, h.front.tracked.logCid _ h.lt,
    h.owner]

theorem loadHead (h : Next g F s j) (hpc : s.pc j = .loadHead) : Advances g F s := by
  have hstep : completionStep g s (.run j) = some ({ s with
      base := Function.update s.base j s.passed }.goto j (.loadEntry s.head 0)) := by
    simp only [completionStep, requestStep, hpc]
  refine h.of_step hstep (by rw [hpc]; rfl) h.free fun h' => ?_
  generalize hs1 : ({ s with base := Function.update s.base j s.passed } : Completion).goto j
    (.loadEntry s.head 0) = s1 at h'
  have hpc1 : s1.pc j = .loadEntry s1.head 0 := by rw [← hs1, request_goto_pc]; rfl
  have hhit := h'.hit_first
  have hpoll : completionStep g s1 (.run j) = some ({ s1 with
      found := Function.update s1.found j
        ⟨g.cq.loc (add32 s1.head 0), add32 s1.head 0, s1.head⟩
      index := Function.update s1.index j (s1.base j + 0) }.goto j .waitPos) := by
    simp only [completionStep, requestStep, hpc1, pollStep, if_pos hhit]
  exact h'.of_step hpoll (by rw [hpc1]; rfl) h'.free fun h'' => h''.waitPos (request_goto_pc ..)

theorem enqueue (h : Next g F s j) (hpc : s.pc j = .enqueue) : Advances g F s := by
  have hstep : completionStep g s (.run j) = some (s.goto j .loadHead) := by
    simp only [completionStep, requestStep, hpc]
  exact h.of_step hstep (by rw [hpc]; rfl) h.free fun h' => h'.loadHead (request_goto_pc ..)

theorem pollStep_cases (g : QueueSize) (s : Completion) (k head i : Nat) :
    (∃ f x, pollStep g s k head i = { s with found := f, index := x }.goto k .waitPos) ∨
      pollStep g s k head i = s.goto k .loadHead ∨
        i + 1 < g.qsMinus1 ∧ pollStep g s k head i = s.goto k (.loadEntry head (i + 1)) := by
  rw [pollStep]
  split
  · exact .inl ⟨_, _, rfl⟩
  · split
    · exact .inr (.inl rfl)
    · split
      case isTrue hi => exact .inr (.inr ⟨hi, rfl⟩)
      case isFalse => exact .inr (.inl rfl)

/-- A round of the poll that is under way finds the entry, or comes to its end. -/
theorem loadEntry (h : Next g F s j) {head i : Nat} (hpc : s.pc j = .loadEntry head i) :
    Advances g F s := by
  -- by induction on the entries that the round has not looked at
  generalize hleft : g.qsMinus1 - i = left
  induction left using Nat.strong_induction_on generalizing s i with
  | _ left ih =>
    have hstep : completionStep g s (.run j) = some (pollStep g s j head i) := by
      simp only [completionStep, requestStep, hpc]
    have hout : (s.pc j).inHead = false := by rw [hpc]; rfl
    rcases pollStep_cases g s j head i with ⟨f, x, hpoll⟩ | hpoll | ⟨hlt, hpoll⟩ <;>
      rw [hpoll] at hstep
    · exact h.of_step hstep hout h.free fun h' => h'.waitPos (request_goto_pc ..)
    · exact h.of_step hstep hout h.free fun h' => h'.loadHead (request_goto_pc ..)
    · exact h.of_step hstep hout h.free fun h' =>
        ih (g.qsMinus1 - (i + 1)) (by omega) h' (request_goto_pc ..) rfl

/-- With the lock of the head free, the thread of the next entry can move the head over it. -/
theorem advance (h : Next g F s j) : Advances g F s := by
  have hpassed := (h.front.tracked.headFree h.free).1
  have hpending : ((s.pc j).stage (s.base j) (s.index j)).pending = true := by
    have hpending := h.front.tracked.ring.pending s.swept h.lt (Nat.le_of_eq hpassed)
    replace hpending : ((s.pc (s.owner s.swept)).stage (s.base (s.owner s.swept))
      (s.index (s.owner s.swept))).pending = true := hpending
    rw [h.owner] at hpending
    exact hpending
  cases hpc : s.pc j with
  | enqueue => exact h.enqueue hpc
  | loadHead => exact h.loadHead hpc
  | loadEntry head i => exact h.loadEntry hpc
  | waitPos => exact h.waitPos hpc
  | takePos => exact h.takePos hpc
  | storeMark => exact h.storeMark hpc
  | loadMark => exact h.loadMark hpc
  | takeHeadLock => exact h.takeHeadLock hpc
  | loadNewHead =>
    -- it would have been swept
    have hlt := h.front.tracked.cleared j hpc
    rw [h.index_eq (by rw [hpc]; rfl)] at hlt
    exact absurd hlt (Nat.lt_irrefl _)
  | loadCqHead | exchangeMark | loadLast | moveSqHead | writeDb | storeHead | freeHeadLock =>
    have hlocked := h.front.tracked.headHeld.locked (i := j) (by rw [hpc]; rfl)
    rw [h.free] at hlocked
    cases hlocked
  | drawCid | lockCid | freePos | putCid | returned =>
    rw [hpc] at hpending
    cases hpending

end Next

/-- A thread gets out if all entries before its own are the front request's. -/
theorem leaves (h : Polling g F s) (hk : F k) (hp : (s.pc k).polled = true)
    (hfirst : ∀ n, s.swept ≤ n → n < s.index k → F (s.owner n)) :
    ∃ t, ReflTransGen (FrontStep g F) s t ∧ (t.pc k).out = true := by
  -- by induction on the entries up to its own
  generalize hleft : s.index k + 1 - s.swept = left
  induction left using Nat.strong_induction_on generalizing s with
  | _ left ih =>
    obtain ⟨t, hpath, hfree⟩ := h.drain
    obtain ⟨ht, hkept⟩ := h.path hpath
    obtain ⟨hp', hindex, -⟩ := hkept.found k hp
    rcases inDequeue_or_out hp' with hin | hout
    · by_cases hlt : t.index k < t.swept
      · obtain ⟨u, hpath', -, hpc, -⟩ := ht.leave hfree hk hin hlt
        exact ⟨u, hpath.trans hpath', by rw [hpc]; rfl⟩
      · obtain ⟨hposted, hown⟩ := ht.tracked.ring.reply k (t.index k) (stage_reply hp' _ _)
        replace hposted : t.index k < t.posted := hposted
        replace hown : t.owner (t.index k) = k := hown
        have hmem : F (t.owner t.swept) := by
          rcases Nat.lt_or_eq_of_le (Nat.le_of_not_lt hlt) with hless | heq
          · rw [hkept.owner]
            exact hfirst _ hkept.swept (by rw [← hindex]; exact hless)
          · rw [heq, hown]
            exact hk
        obtain ⟨u, hpath', -, hless⟩ :=
          Next.advance ⟨ht, hfree, hmem, by omega, rfl⟩
        obtain ⟨hu, hkept'⟩ := ht.path hpath'
        obtain ⟨hp'', hindex', -⟩ := hkept'.found k hp'
        have hswept := hkept.swept
        obtain ⟨v, hpath'', hout⟩ := ih (u.index k + 1 - u.swept) (by omega) hu hp''
          (fun n hn hlt' => by
            rw [hkept'.owner, hkept.owner]
            exact hfirst n (by omega) (by omega)) rfl
        exact ⟨v, (hpath.trans hpath').trans hpath'', hout⟩
    · exact ⟨t, hpath, hout⟩

end Polling

end GidsStack.Queue
