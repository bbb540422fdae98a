/-
  GidsStack.Queue.Safety

  What the submission queue guarantees in every run of fewer than `2^32` calls: an entry is
  overwritten only after the controller has reported the command that was there, every command
  is announced by exactly one advance of the doorbell, the doorbell is never a whole ring ahead
  of `head`, and one thread at a time is inside `move_tail`.

  `tail` itself trails the doorbell: it is stored after the doorbell has been written, and a
  consumer may move `head` past it in between (`doorbellFirst_tail_behind_head`).
-/

import GidsStack.Queue.Slots

namespace GidsStack.Queue

open Laps Lib Lock SlotRing

variable {C : Type} {g : QueueSize} {s s' : Submission C}

/-- `tail - head` on `uint32_t`. -/
def Submission.outstanding (s : Submission C) : Nat :=
  (s.tail + 4294967296 - s.head) % 4294967296

/-- The advance of the doorbell that the holder of `tail_lock` is about to make. -/
def Submission.Sweeping (s : Submission C) (lo hi : Nat) : Prop :=
  ∃ j n, lo + n = hi ∧ (s.pc j = .loadHead lo n ∨ s.pc j = .exchangeMark lo n ∨ s.pc j = .writeDb lo n)

structure SubmissionSafe (g : QueueSize) (s : Submission C) : Prop where
  /-- an entry is overwritten only after the commands before it were reported as consumed -/
  overwrite : ∀ a s', step g s a = some s' → ∀ pos i, s'.vaddr pos i ≠ s.vaddr pos i →
    ∃ k, s.pc k = .copy i ∧ k % g.qs = pos ∧ ∀ j < k, j % g.qs = pos → j < s.reported
  /-- what has been announced and not been consumed stands in its entry -/
  intact : ∀ k, s.acked ≤ k → k < s.rung → ∀ i < 2, s.vaddr (k % g.qs) i = s.cmd k i
  /-- every command announced is covered by exactly one advance, no other by any -/
  covered : ∀ k, s.advances.countP (fun a => a.1 ≤ k ∧ k < a.2) = if k < s.rung then 1 else 0
  /-- the advances come in ticket order -/
  ordered : s.advances.Pairwise fun a b => a.2 ≤ b.1
  /-- a call returns with its command covered, or about to be by the advance under way -/
  announced : ∀ k, s.pc k = .returned → k < s.rung ∨ ∃ lo hi, s.Sweeping lo hi ∧ lo ≤ k ∧ k < hi
  db : s.db = s.rung % g.qs
  /-- the doorbell is never a whole ring ahead of the head -/
  room : s.head ≤ s.rung ∧ s.rung - s.head ≤ g.qsMinus1
  /-- nor is `tail`, unless a thread has written the doorbell and not stored `tail` yet -/
  tail : (∀ k c n, s.pc k ≠ .storeTail c n) → s.tail = s.rung ∧ s.outstanding ≤ g.qsMinus1
  oneMover : ∀ j k, (s.pc j).inMoveTail = true → (s.pc k).inMoveTail = true → j = k

/-! ## The parts -/

theorem inTail_of_inMoveTail {pc : EnqueuePc} (h : pc.inMoveTail = true) : pc.inTail = true := by
  cases pc <;> first | rfl | cases h

/-- Only a call that copies its command writes to the entries. -/
theorem Enqueues.copies {k : Nat} (hs : Enqueues g s k s') {pos i : Nat}
    (h : s'.vaddr pos i ≠ s.vaddr pos i) : s.pc k = .copy i ∧ pos = s.pos g k := by
  cases hs with
  | @copy n hpc =>
    replace h : Function.update s.vaddr (s.pos g k)
      (Function.update (s.vaddr (s.pos g k)) n (s.cmd k n)) pos i ≠ s.vaddr pos i := h
    by_cases hp : pos = s.pos g k
    · subst hp
      rw [Function.update_self] at h
      by_cases hi : i = n
      · exact ⟨hi ▸ hpc, rfl⟩
      · rw [Function.update_of_ne hi] at h
        exact absurd rfl h
    · rw [Function.update_of_ne hp] at h
      exact absurd rfl h
  | _ => exact absurd rfl h

theorem Sound.overwrite (h : Sound g s) (hc : Counted g s) {a : Act C} {s' : Submission C}
    (hs : Queue.step g s a = some s') {pos i : Nat} (hw : s'.vaddr pos i ≠ s.vaddr pos i) :
    ∃ k, s.pc k = .copy i ∧ k % g.qs = pos ∧ ∀ j < k, j % g.qs = pos → j < s.reported := by
  cases a with
  | enqueue k =>
    obtain ⟨hpc, hpos⟩ := (enqueues_of_step hs).copies hw
    have hk : k < s.drawn := by
      have hdrawn := (enqueues_of_step hs).counts.1
      rw [Ne, hc.undrawn_iff] at hdrawn
      omega
    rw [hc.pos_eq hk] at hpos
    refine ⟨k, hpc, hpos.symm, fun j hjk hj => ?_⟩
    -- what is a lap behind a writer has been counted as consumed, so it was reported
    have hown : k < s.acked + g.qs := (h.ring.owner k (by
      show (s.pc k).stage.owns = true
      rw [hpc]
      rfl)).2
    have hlap := add_le_of_mod_eq (hj.trans hpos) hjk
    have hread := h.read_le
    have hacked := h.acked_le
    omega
  | draw c =>
    rw [← Option.some.inj hs] at hw
    exact absurd rfl hw
  | takeHeadLock t => exact absurd (by rw [(consumes_of_take (g := g) hs).frame.vaddr]) hw
  | scanMarks t count => exact absurd (by rw [(consumes_of_scan hs).frame.vaddr]) hw
  | consume t => exact absurd (by rw [(consumes_of_consume hs).frame.vaddr]) hw
  | report r =>
    rw [Queue.step] at hs
    split at hs
    case isTrue =>
      rw [← Option.some.inj hs] at hw
      exact absurd rfl hw
    case isFalse => cases hs

/-- What has been swept is announced, or is about to be by the holder of `tail_lock`; and `tail`
    is the number announced, unless a thread is about to store it. -/
theorem Sound.tail_cases (h : Sound g s) :
    (s.rung = s.swept ∨ s.Sweeping s.rung s.swept) ∧
      (s.tail = s.rung ∨ ∃ k c n, s.pc k = .storeTail c n) := by
  cases hlock : s.tailLock with
  | false =>
    obtain ⟨htail, hrung⟩ := h.tailFree hlock
    exact ⟨.inl hrung, .inl (htail.trans hrung.symm)⟩
  | true =>
    obtain ⟨j, hj⟩ := h.tailHeld.locked_iff.mp hlock
    have hfact := h.tail j
    cases hpc : s.pc j with
    | loadTail | freeTailLock =>
      rw [hpc] at hfact
      exact ⟨.inl hfact.2, .inl (hfact.1.trans hfact.2.symm)⟩
    | storeTail c n =>
      rw [hpc] at hfact
      exact ⟨.inl hfact.2.2.1, .inr ⟨j, c, n, hpc⟩⟩
    | loadHead c n =>
      rw [hpc] at hfact
      obtain ⟨hc, hrung, hsum⟩ := hfact
      have hcr : c = s.rung := hc.trans hrung.symm
      exact ⟨.inr ⟨j, n, by rw [← hcr, hsum], .inl (hcr ▸ hpc)⟩, .inl hrung.symm⟩
    | exchangeMark c n =>
      rw [hpc] at hfact
      obtain ⟨hc, hrung, hsum, -⟩ := hfact
      have hcr : c = s.rung := hc.trans hrung.symm
      exact ⟨.inr ⟨j, n, by rw [← hcr, hsum], .inr (.inl (hcr ▸ hpc))⟩, .inl hrung.symm⟩
    | writeDb c n =>
      rw [hpc] at hfact
      obtain ⟨hc, hrung, hsum, -⟩ := hfact
      have hcr : c = s.rung := hc.trans hrung.symm
      exact ⟨.inr ⟨j, n, by rw [← hcr, hsum], .inr (.inr (hcr ▸ hpc))⟩, .inl hrung.symm⟩
    | _ =>
      rw [hpc] at hj
      cases hj

theorem Sound.intact_rung (h : Sound g s) {k : Nat} (hack : s.acked ≤ k) (hk : k < s.rung) :
    ∀ i < 2, s.vaddr (k % g.qs) i = s.cmd k i := by
  have hmarked : (s.pc k).stage.marked = true :=
    h.ring.marked_of_swept k (Nat.lt_of_lt_of_le hk h.rung_le)
  have hhalves : (s.pc k).halves = 2 := by
    cases hpc : s.pc k <;> rw [hpc] at hmarked <;> first | rfl | cases hmarked
  have hheld : (s.pc k).stage.owns = true ∨ (s.pc k = .returned ∧ s.acked ≤ k) := by
    rcases (Stage.marked_iff _).mp hmarked with hst | hst | hst
    · exact .inl (by rw [hst]; rfl)
    · exact .inl (by rw [hst]; rfl)
    · exact .inr ⟨(stage_returned_iff _).mp hst, hack⟩
  have hintact := h.intact k hheld
  rwa [hhalves] at hintact

theorem Sound.room_rung (h : Sound g s) : s.head ≤ s.rung ∧ s.rung - s.head ≤ g.qsMinus1 := by
  have hhead : s.head ≤ s.acked := h.ring.head_le
  have hroom : s.swept < s.head + g.qs := h.ring.room
  have hacked := h.acked_le
  have hread := h.read_le
  have hreported := h.reported_le
  have hrung := h.rung_le
  rw [QueueSize.qsMinus1]
  omega

/-- Every run of fewer than `2^32` calls, with any number of calls and consumers in any order. -/
theorem submission_safe (g : QueueSize) {s : Submission C} (h : Reached g s)
    (hn : s.drawn < 4294967296) : SubmissionSafe g s := by
  have hc := counted_reached h
  have hi := sound_reached h hn
  obtain ⟨hsweep, htail⟩ := hi.tail_cases
  have hswept : s.swept ≤ s.drawn := hi.ring.swept_le
  refine
    { overwrite := fun a s' hs pos i hw => hi.overwrite hc hs hw
      intact := fun k hack hk => hi.intact_rung hack hk
      covered := fun k => ?_
      ordered := hi.advances.pairwise
      announced := fun k hk => ?_
      db := hi.db
      room := hi.room_rung
      tail := fun hstore => ?_
      oneMover := fun j k hj hk =>
        hi.tailHeld.unique j k (inTail_of_inMoveTail hj) (inTail_of_inMoveTail hk) }
  · rw [hi.advances.countP]
    simp only [Nat.zero_le, true_and]
  · have hlt : k < s.swept := hi.ring.swept_of_left k (.inr ((stage_returned_iff _).mpr hk))
    rcases hsweep with heq | hsweep
    · exact .inl (heq ▸ hlt)
    · rcases Nat.lt_or_ge k s.rung with hr | hr
      · exact .inl hr
      · exact .inr ⟨_, _, hsweep, hr, hlt⟩
  · have heq : s.tail = s.rung := by
      rcases htail with heq | ⟨k, c, n, hpc⟩
      · exact heq
      · exact absurd hpc (hstore k c n)
    obtain ⟨hhead, hroom⟩ := hi.room_rung
    have hrung := hi.rung_le
    refine ⟨heq, ?_⟩
    rw [Submission.outstanding, heq]
    omega

/-! ### A consumer that is faster than the store of `tail` -/

/-- A queue of two entries. -/
def qsTwo : QueueSize := ⟨1, by decide, by decide⟩

def newQueue : Submission Nat where
  inTicket := 0
  tickets _ := 0
  tailMark _ := false
  tailLock := false
  head := 0
  tail := 0
  db := 0
  vaddr _ _ := 0
  pc _ := .undrawn
  ticket _ := 0
  cmd _ _ := 0
  headLock := false
  consumer _ := .idle
  dequeued := 0
  reports := []
  drawn := 0
  swept := 0
  rung := 0
  advances := []
  read := 0
  acked := 0
  finished _ := 0

theorem newQueue_init : Submission.Init newQueue :=
  ⟨rfl, rfl, rfl, rfl, rfl, rfl, rfl, rfl, rfl, rfl, rfl, rfl, rfl, rfl, rfl, rfl, rfl, rfl, rfl⟩

/-- Call `k`, from its draw to its return. -/
def oneCall (k : Nat) : List (Act Nat) :=
  [.draw fun i => 10 * k + i] ++ List.replicate 17 (.enqueue k)

/-- Its command is reported, and a consumer gives the slot back. -/
def oneDequeue (k : Nat) : List (Act Nat) :=
  [.report (k + 1), .takeHeadLock 0, .scanMarks 0 1] ++ List.replicate 4 (.consume 0)

/-- Three calls whose commands are consumed, and a fourth whose command is not: calls 2 and 3
    have written over the commands of calls 0 and 1. -/
def fourCalls : List (Act Nat) :=
  ((List.range 3).flatMap fun k => oneCall k ++ oneDequeue k) ++ oneCall 3

def fourCallsEnd : Option (Submission Nat) := runActs (step qsTwo) newQueue fourCalls

theorem fourCallsEnd_isSome : fourCallsEnd.isSome = true := by decide +kernel

theorem fourCalls_safe :
    (fourCallsEnd.get fourCallsEnd_isSome).vaddr 1 0 = 30 ∧
      SubmissionSafe qsTwo (fourCallsEnd.get fourCallsEnd_isSome) :=
  ⟨by decide +kernel, submission_safe qsTwo
    (reachable_of_steps (.init newQueue_init) (l := fourCalls) (Option.some_get _).symm)
    (by decide +kernel)⟩

/-- One call up to its write of the doorbell, the command consumed and reported, and the
    completion dequeued before the call goes on to store `tail`. -/
def doorbellFirst : List (Act Nat) :=
  [.draw fun i => i] ++ List.replicate 13 (.enqueue 0) ++
    [.report 1, .takeHeadLock 0, .scanMarks 0 1, .consume 0, .consume 0, .consume 0]

theorem doorbellFirst_ends :
    (runActs (step qsTwo) newQueue doorbellFirst).map (fun s => (s.drawn, s.outstanding)) =
      some (1, 4294967295) := by
  decide

theorem doorbellFirst_tail_behind_head :
    ¬ ∀ s : Submission Nat, Reached qsTwo s → s.drawn < 4294967296 →
      s.outstanding ≤ qsTwo.qsMinus1 := by
  intro hall
  obtain ⟨s, hrun, hends⟩ := Option.map_eq_some_iff.mp doorbellFirst_ends
  have hdrawn : s.drawn = 1 := congrArg Prod.fst hends
  have hout : s.outstanding = 4294967295 := congrArg Prod.snd hends
  have hle := hall s (reachable_of_steps (.init newQueue_init) hrun) (by omega)
  rw [hout] at hle
  exact absurd hle (by decide)

end GidsStack.Queue
