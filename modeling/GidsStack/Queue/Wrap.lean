/-
  GidsStack.Queue.Wrap

  The wait for a slot across the wrap-around of `in_ticket`. After `n` calls whose commands
  have all been consumed, the next caller finds its slot at the count it waits for exactly when
  `n % 2^(31 + qs_log2) < 2^32` (`ticket_matches_iff`); with a queue of more than two entries that
  fails for the first time at `n = 2^32`. A queue used by one caller at a time gets there: one
  round of a call and a consumer is run symbolically (`Rest.round`), and 2^32 rounds follow by
  induction.
-/

import GidsStack.Queue.Safety

namespace GidsStack.Queue

open Laps Lib

variable {C : Type} {g : QueueSize} {s s' : Submission C}

/-! ## One round -/

/-- A caller past its wait has copied its command and marked its slot. -/
def Submission.filled (g : QueueSize) (s : Submission C) (k : Nat) : Submission C :=
  { s with
    vaddr := Function.update s.vaddr (s.pos g k)
      (Function.update (Function.update (s.vaddr (s.pos g k)) 0 (s.cmd k 0)) 1 (s.cmd k 1))
    tailMark := Function.update s.tailMark (s.pos g k) true
    pc := Function.update s.pc k .loadMark }

theorem run_fill {k : Nat} (hpc : s.pc k = .waitRelaxed) (htest : Proceeds g s k) :
    runActs (step g) s (List.replicate 5 (.enqueue k)) = some (s.filled g k) := by
  rw [Proceeds, Submission.pos] at htest
  rw [Submission.filled, Submission.pos]
  simp [List.replicate, runActs, step, enqueueStep, Submission.goto, hpc, htest]

/-- A caller has taken the lock, swept its own mark, found none behind it, written the doorbell,
    stored `tail` and given the lock back. -/
def Submission.announcedOne (g : QueueSize) (s : Submission C) (k : Nat) : Submission C :=
  { s with
    tailMark := Function.update s.tailMark (add32 s.tail 0 &&& g.qsMinus1) false
    tail := add32 s.tail 1
    db := add32 s.tail 1 &&& g.qsMinus1
    swept := s.swept + 1
    rung := s.rung + 1
    advances := s.advances ++ [(s.tail, add32 s.tail 1)]
    pc := Function.update s.pc k .loadMark }

theorem run_announce {k : Nat} (hpc : s.pc k = .loadMark) (hmark : s.tailMark (s.pos g k) = true)
    (hlock : s.tailLock = false)
    (hroom : ∀ n < 2, add32 (add32 s.tail n) 1 &&& g.qsMinus1 ≠ s.head &&& g.qsMinus1)
    (hfirst : s.tailMark (add32 s.tail 0 &&& g.qsMinus1) = true)
    (hsecond : s.tailMark (add32 s.tail 1 &&& g.qsMinus1) = false) :
    runActs (step g) s (List.replicate 11 (.enqueue k)) = some (s.announcedOne g k) := by
  have h0 := hroom 0 (by decide)
  have h1 := hroom 1 (by decide)
  have hne : add32 s.tail 1 &&& g.qsMinus1 ≠ add32 s.tail 0 &&& g.qsMinus1 := by
    intro heq
    rw [heq, hfirst] at hsecond
    cases hsecond
  have hone : add32 0 1 = 1 := rfl
  have hsame : Function.update (Function.update s.tailMark (add32 s.tail 0 &&& g.qsMinus1) false)
      (add32 s.tail 1 &&& g.qsMinus1) false =
      Function.update s.tailMark (add32 s.tail 0 &&& g.qsMinus1) false := by
    rw [Function.update_eq_self_iff, Function.update_of_ne hne, hsecond]
  rw [Submission.pos] at hmark
  simp [List.replicate, runActs, step, enqueueStep, Submission.goto, hpc, hmark, hlock, h0, h1,
    hfirst, hone, hne, hsecond, afterMove, hsame, Submission.announcedOne]

/-- A caller whose mark is gone has counted its slot and returned. -/
def Submission.left (g : QueueSize) (s : Submission C) (k : Nat) : Submission C :=
  { s with
    tickets := Function.update s.tickets (s.pos g k) (add32 (s.tickets (s.pos g k)) 1)
    finished := Function.update s.finished (s.pos g k) (s.finished (s.pos g k) + 1)
    pc := Function.update s.pc k .returned }

theorem run_leave {k : Nat} (hpc : s.pc k = .loadMark) (hmark : s.tailMark (s.pos g k) = false) :
    runActs (step g) s (List.replicate 2 (.enqueue k)) = some (s.left g k) := by
  rw [Submission.pos] at hmark
  rw [Submission.left, Submission.pos]
  simp [List.replicate, runActs, step, enqueueStep, Submission.goto, hpc, hmark]

/-- The controller has reported `r` commands, one more than before, and consumer 0 has counted
    the slot. -/
def Submission.consumedOne (g : QueueSize) (s : Submission C) (r : Nat) : Submission C :=
  { s with
    reports := s.reports ++ [r]
    dequeued := s.dequeued + 1
    read := r
    tickets := Function.update s.tickets (s.head &&& g.qsMinus1)
      (add32 (s.tickets (s.head &&& g.qsMinus1)) 1)
    acked := s.acked + 1
    head := add32 s.head (add32 0 1)
    consumer := Function.update s.consumer 0 .idle }

theorem run_consume {r : Nat} (hrep : s.reported ≤ r) (hrung : r ≤ s.rung)
    (hread : s.dequeued = s.reports.length) (hlock : s.headLock = false)
    (hpc : s.consumer 0 = .idle) (hne : s.head &&& g.qsMinus1 ≠ r % g.qs &&& 65535)
    (hlast : add32 (s.head &&& g.qsMinus1) 1 &&& g.qsMinus1 = r % g.qs &&& 65535) :
    runActs (step g) s [.report r, .takeHeadLock 0, .scanMarks 0 1, .consume 0, .consume 0,
      .consume 0, .consume 0] = some (s.consumedOne g r) := by
  have hget : (s.reports ++ [r])[s.dequeued]? = some r := by
    rw [hread, List.getElem?_concat_length]
  simp [runActs, step, takeHeadLock, scanMarks, consumeStep, Submission.cgoto, hrep, hrung, hlock,
    hpc, hget, hne, hlast, Submission.consumedOne]

/-- A queue at rest after `n` rounds. -/
structure Rest (n : Nat) (s : Submission C) : Prop where
  drawn : s.drawn = n
  returned : ∀ k < n, s.pc k = .returned
  acked : s.acked = n
  tailMark : ∀ i, s.tailMark i = false
  tailLock : s.tailLock = false
  tail : s.tail = n % 4294967296
  head : s.head = n % 4294967296
  headLock : s.headLock = false
  consumer : s.consumer 0 = .idle
  rung : s.rung = n
  reported : s.reported = n
  dequeued : s.dequeued = s.reports.length

theorem Rest.quiet {n : Nat} (h : Rest n s) : s.Quiet where
  returned k hk := h.returned k (h.drawn ▸ hk)
  acked := h.acked.trans h.drawn.symm

theorem add32_place (g : QueueSize) (n j : Nat) :
    add32 (n % 4294967296) j &&& g.qsMinus1 = (n + j) % g.qs := by
  rw [add32_mod, g.pos_eq]

theorem QueueSize.field_eq (g : QueueSize) (n : Nat) : n % g.qs &&& 65535 = n % g.qs := by
  have hlt := Nat.mod_lt n g.qs_pos
  have hqs := g.qs_le
  rw [show (65535 : Nat) = 2 ^ 16 - 1 from rfl, Nat.and_two_pow_sub_one_eq_mod]
  exact Nat.mod_eq_of_lt (by omega)

/-- One more round. -/
theorem Rest.round {n : Nat} (hg : 2 < g.qs) (h : Rest n s) (hr : Reached g s) (hn : n < 2 ^ 32)
    (c : Nat → C) : ∃ s' : Submission C, Reached g s' ∧ Rest (n + 1) s' := by
  have hplace : ∀ j, 0 < j → j < g.qs → (n + j) % g.qs ≠ n % g.qs := by
    intro j hj hjq heq
    have := add_le_of_mod_eq heq.symm (by omega)
    omega
  have hn32 : n % 4294967296 = n := Nat.mod_eq_of_lt hn
  -- the call draws its ticket and passes its wait
  have hr1 : Reached g (draw s c) := .step hr (a := .draw c) rfl
  have hpc1 : (draw s c).pc n = .waitRelaxed := by
    rw [← h.drawn]
    exact Function.update_self ..
  have hpos1 : (draw s c).pos g n = n % g.qs :=
    (counted_reached hr1).pos_eq (by rw [← h.drawn]; exact Nat.lt_succ_self _)
  have htest : Proceeds g (draw s c) n := by
    have hiff := h.quiet.proceeds_iff g hr (c := c) rfl
    rw [h.drawn] at hiff
    exact hiff.mpr (Nat.lt_of_le_of_lt (Nat.mod_le _ _) hn)
  -- it fills its slot, whose mark is then the only one
  have hr2 := reachable_of_steps hr1 (run_fill hpc1 htest)
  have hmark2 : ∀ i, ((draw s c).filled g n).tailMark i = decide (i = n % g.qs) := by
    intro i
    show Function.update s.tailMark ((draw s c).pos g n) true i = _
    rw [hpos1, Function.update_apply, h.tailMark]
    split <;> simp [*]
  have htail2 : ((draw s c).filled g n).tail = n % 4294967296 := h.tail
  -- it takes the lock and announces its command, and its mark is gone
  have hr3 := reachable_of_steps hr2 (run_announce (g := g) (k := n) (Function.update_self ..)
    (by rw [hmark2]; exact decide_eq_true hpos1) h.tailLock
    (fun j hj => by
      show add32 (add32 s.tail j) 1 &&& g.qsMinus1 ≠ s.head &&& g.qsMinus1
      rw [h.tail, h.head, add32_mod, add32_place, g.pos_eq, Nat.add_assoc]
      exact hplace _ (by omega) (by omega))
    (by rw [hmark2, htail2, add32_place]; exact decide_eq_true rfl)
    (by
      rw [hmark2, htail2, add32_place]
      exact decide_eq_false (hplace 1 (by omega) (by omega))))
  have hmark3 : ∀ i, (((draw s c).filled g n).announcedOne g n).tailMark i = false := by
    intro i
    show Function.update ((draw s c).filled g n).tailMark
      (add32 ((draw s c).filled g n).tail 0 &&& g.qsMinus1) false i = false
    rw [htail2, add32_place, Nat.add_zero, Function.update_apply]
    split
    case isTrue => rfl
    case isFalse hi => rw [hmark2, decide_eq_false hi]
  -- it returns, and its command is consumed
  have hr4 := reachable_of_steps hr3
    (run_leave (g := g) (k := n) (Function.update_self ..) (hmark3 _))
  have hr5 := reachable_of_steps hr4 (run_consume (g := g) (r := n + 1)
    (by
      show s.reported ≤ n + 1
      rw [h.reported]
      exact Nat.le_succ n)
    (by
      show n + 1 ≤ s.rung + 1
      rw [h.rung])
    h.dequeued h.headLock h.consumer
    (by
      show s.head &&& g.qsMinus1 ≠ _
      rw [h.head, g.pos_eq, g.field_eq]
      exact (hplace 1 (by omega) (by omega)).symm)
    (by
      show add32 (s.head &&& g.qsMinus1) 1 &&& g.qsMinus1 = _
      rw [h.head, g.pos_eq, g.next_place, g.field_eq]))
  refine ⟨_, hr5, ?_⟩
  exact
    { drawn := congrArg (· + 1) h.drawn
      returned := fun k hk => by
        show Function.update (Function.update (Function.update (Function.update s.pc s.drawn
          .waitRelaxed) n .loadMark) n .loadMark) n .returned k = .returned
        by_cases hkn : k = n
        · rw [hkn, Function.update_self]
        · rw [Function.update_of_ne hkn, Function.update_of_ne hkn, Function.update_of_ne hkn,
            h.drawn, Function.update_of_ne hkn]
          exact h.returned k (by omega)
      acked := congrArg (· + 1) h.acked
      tailMark := hmark3
      tailLock := h.tailLock
      tail := by
        show add32 s.tail 1 = _
        rw [h.tail, add32_mod]
      head := by
        show add32 s.head 1 = _
        rw [h.head, add32_mod]
      headLock := h.headLock
      consumer := by
        show Function.update s.consumer 0 .idle 0 = .idle
        rw [Function.update_self]
      rung := congrArg (· + 1) h.rung
      reported := List.getLastD_concat
      dequeued := by
        show s.dequeued + 1 = (s.reports ++ [n + 1]).length
        rw [List.length_append, h.dequeued]
        rfl }

theorem newQueue_rest : Rest 0 newQueue :=
  ⟨rfl, fun k hk => absurd hk (Nat.not_lt_zero k), rfl, fun _ => rfl, rfl, rfl, rfl, rfl, rfl, rfl,
    rfl, rfl⟩

/-- A queue used by one caller at a time, after `n` rounds. -/
theorem rest_reached (hg : 2 < g.qs) {n : Nat} (hn : n ≤ 2 ^ 32) :
    ∃ s : Submission Nat, Reached g s ∧ Rest n s := by
  induction n with
  | zero => exact ⟨newQueue, .init newQueue_init, newQueue_rest⟩
  | succ n ih =>
    obtain ⟨s, hr, hrest⟩ := ih (Nat.le_of_succ_le hn)
    exact hrest.round hg hr hn fun i => i

/-! ## The wait -/

/-- After `n` calls with all their commands consumed, the call that draws the next ticket finds
    `tickets[pos]` equal to its id exactly while `n` and the count of laps have not drifted
    apart. -/
theorem ticket_matches_iff (g : QueueSize) {s s' : Submission C} (h : Reached g s) (hq : s.Quiet)
    {c : Nat → C} (hs : step g s (.draw c) = some s') :
    Proceeds g s' s.drawn ↔ s.drawn % 2 ^ (31 + g.qsLog2) < 2 ^ 32 :=
  hq.proceeds_iff g h hs

/-- The size that the queue pairs are created with. -/
def qs4096 : QueueSize := ⟨12, by decide, by decide⟩

/-- The last ticket before the wrap-around is still served. -/
theorem lastTicket_proceeds :
    ∃ s : Submission Nat, s.drawn = 4294967295 ∧ Proceeds qs4096 (draw s fun i => i) s.drawn := by
  obtain ⟨s, hr, hrest⟩ := rest_reached (g := qs4096) (by decide) (n := 4294967295) (by decide)
  have hdraw : step qs4096 s (.draw fun i => i) = some (draw s fun i => i) := rfl
  refine ⟨s, hrest.drawn, (ticket_matches_iff qs4096 hr hrest.quiet hdraw).mpr ?_⟩
  rw [hrest.drawn]
  decide

/-- The caller that finds `in_ticket` wrapped waits for a count that was passed long ago. -/
theorem wrapped_ticket_waits :
    ¬ ∀ s s' : Submission Nat, Reached qs4096 s → s.Quiet → ∀ c,
      step qs4096 s (.draw c) = some s' → Proceeds qs4096 s' s.drawn := by
  intro hall
  obtain ⟨s, hr, hrest⟩ := rest_reached (g := qs4096) (by decide) (Nat.le_refl (2 ^ 32))
  have hproceeds := hall s (draw s fun i => i) hr hrest.quiet _ rfl
  have hlt := (hrest.quiet.proceeds_iff qs4096 hr rfl).mp hproceeds
  rw [hrest.drawn] at hlt
  exact absurd hlt (by decide)

end GidsStack.Queue
