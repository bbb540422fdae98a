/-
  GidsStack.Queue.Counters

  The two 32-bit counters of a submission queue: `in_ticket` counts the calls of `sq_enqueue`,
  `tickets[pos]` the fills and the consumptions of one slot. Both wrap, but not together:
  `in_ticket` after 2^32 calls, `tickets[pos]` after 2^31 laps. What each counter holds is an
  invariant of every run, however long (`Counted`); a caller that finds everything before it
  consumed gets past its wait exactly while the two agree (`Submission.Quiet.proceeds_iff`).
-/

import GidsStack.Lib.Lock
import GidsStack.Lib.Transition
import GidsStack.Queue.Steps

namespace GidsStack.Queue

open Laps Lib Lock

variable {C : Type} {g : QueueSize} {s s' : Submission C}

/-- The states of a queue, whoever calls and in whatever order. -/
abbrev Reached (g : QueueSize) : Submission C → Prop :=
  Reachable Submission.Init (fun s a s' => step g s a = some s')

/-- The calls that have counted slot `i`. -/
def Submission.ReturnedAt (g : QueueSize) (s : Submission C) (i k : Nat) : Prop :=
  k % g.qs = i ∧ s.pc k = .returned

instance (g : QueueSize) (s : Submission C) (i : Nat) : DecidablePred (s.ReturnedAt g i) :=
  fun k => inferInstanceAs (Decidable (k % g.qs = i ∧ s.pc k = .returned))

/-- What a consumer at `pc` knows of `head` and of the slots it has counted. -/
def CountFact (g : QueueSize) (head acked : Nat) : ConsumePc → Prop
  | .idle => True
  | .scan | .loadSqHead _ | .freeHeadLock => head = acked % 4294967296
  | .addTicket _ loc mv => loc = acked % g.qs ∧ add32 head mv = acked % 4294967296
  | .addHead mv => add32 head mv = acked % 4294967296

structure Counted (g : QueueSize) (s : Submission C) : Prop where
  inTicket : s.inTicket = s.drawn % 4294967296
  ticket : ∀ k < s.drawn, s.ticket k = k % 4294967296
  undrawn_iff : ∀ k, s.pc k = .undrawn ↔ s.drawn ≤ k
  finished : ∀ i, s.finished i = Nat.count (s.ReturnedAt g i) s.drawn
  tickets : ∀ i < g.qs, s.tickets i = (s.finished i + uses g.qs s.acked i) % 4294967296
  headHeld : Held (fun t => (s.consumer t).inHead = true) s.headLock
  headFree : s.headLock = false → s.head = s.acked % 4294967296
  consumer : ∀ t, CountFact g s.head s.acked (s.consumer t)

/-! ## Arithmetic -/

/-- The size of the ring divides what a 32-bit counter wraps at. -/
theorem QueueSize.mod_word (g : QueueSize) (n : Nat) : n % 4294967296 % g.qs = n % g.qs := by
  have hdvd : g.qs ∣ 4294967296 :=
    (Nat.pow_dvd_pow_iff_le_right (show 1 < 2 by decide)).mpr (by have := g.le_16; omega) |>.trans
      (Nat.dvd_refl (2 ^ 32))
  exact Nat.mod_mod_of_dvd n hdvd

theorem QueueSize.pos_eq (g : QueueSize) (n : Nat) :
    n % 4294967296 &&& g.qsMinus1 = n % g.qs := by
  rw [g.land_qsMinus1, g.mod_word]

theorem add32_mod (x y : Nat) : add32 (x % 4294967296) y = (x + y) % 4294967296 := by
  rw [add32, Nat.mod_add_mod]

theorem add32_next {x y n : Nat} (h : add32 x y = n % 4294967296) :
    add32 x (add32 y 1) = (n + 1) % 4294967296 := by
  simp only [add32] at h ⊢
  omega

theorem QueueSize.next_place (g : QueueSize) (n : Nat) :
    add32 (n % g.qs) 1 &&& g.qsMinus1 = (n + 1) % g.qs := by
  rw [add32, g.pos_eq, Nat.mod_add_mod]

/-! ## The invariant -/

theorem counted_init (h : Submission.Init s) : Counted g s where
  inTicket := by rw [h.inTicket, h.drawn]
  ticket k hk := by
    rw [h.drawn] at hk
    exact absurd hk (Nat.not_lt_zero k)
  undrawn_iff k := by
    rw [h.pc, h.drawn]
    exact ⟨fun _ => Nat.zero_le k, fun _ => rfl⟩
  finished i := by rw [h.finished, h.drawn, Nat.count_zero]
  tickets i _ := by
    rw [h.tickets, h.finished, h.acked, uses_zero]
    rfl
  headHeld := by
    rw [h.headLock, h.consumer]
    exact .none fun _ hi => nomatch hi
  headFree _ := by rw [h.head, h.acked]
  consumer t := by
    rw [h.consumer]
    trivial

/-- The slot of a call is that of its number. -/
theorem Counted.pos_eq (h : Counted g s) {k : Nat} (hk : k < s.drawn) : s.pos g k = k % g.qs := by
  rw [Submission.pos, h.ticket k hk, g.pos_eq]

theorem Counted.draw (h : Counted g s) (c : Nat → C) : Counted g (draw s c) := by
  have hnew : s.pc s.drawn = .undrawn := (h.undrawn_iff _).mpr (Nat.le_refl _)
  refine
    { inTicket := ?_
      ticket := fun k hk => ?_
      undrawn_iff := fun k => ?_
      finished := fun i => ?_
      tickets := h.tickets
      headHeld := h.headHeld
      headFree := h.headFree
      consumer := h.consumer }
  · show add32 s.inTicket 1 = (s.drawn + 1) % 4294967296
    rw [h.inTicket, add32_mod]
  · show Function.update s.ticket s.drawn s.inTicket k = k % 4294967296
    rcases Nat.lt_succ_iff_lt_or_eq.mp hk with hlt | rfl
    · rw [Function.update_of_ne (Nat.ne_of_lt hlt), h.ticket k hlt]
    · rw [Function.update_self, h.inTicket]
  · show Function.update s.pc s.drawn .waitRelaxed k = .undrawn ↔ s.drawn + 1 ≤ k
    by_cases hk : k = s.drawn
    · subst hk
      rw [Function.update_self]
      exact ⟨fun he => (nomatch he), fun he => absurd he (Nat.not_succ_le_self _)⟩
    · rw [Function.update_of_ne hk, h.undrawn_iff]
      omega
  · -- the new call has not returned
    have hsame : ∀ k, (Queue.draw s c).ReturnedAt g i k ↔ s.ReturnedAt g i k := by
      intro k
      refine and_congr_right fun _ => ?_
      show Function.update s.pc s.drawn .waitRelaxed k = .returned ↔ _
      by_cases hk : k = s.drawn
      · subst hk
        rw [Function.update_self, hnew]
        exact ⟨fun he => (nomatch he), fun he => (nomatch he)⟩
      · rw [Function.update_of_ne hk]
    show s.finished i = Nat.count ((Queue.draw s c).ReturnedAt g i) (s.drawn + 1)
    rw [count_congr hsame, Nat.count_succ, if_neg, h.finished, Nat.add_zero]
    rintro ⟨-, hret⟩
    rw [hnew] at hret
    cases hret

/-- A step of a call. -/
theorem Counted.enqueue (h : Counted g s) {k : Nat} (hs : Enqueues g s k s') : Counted g s' := by
  have hf := hs.frame
  obtain ⟨hdrawn, hnot, hdrawn', hcounts⟩ := hs.counts
  have hk : k < s.drawn := by
    rw [Ne, h.undrawn_iff] at hdrawn
    omega
  have hother : ∀ i j, j ≠ k → (s'.ReturnedAt g i j ↔ s.ReturnedAt g i j) := by
    intro i j hj
    rw [Submission.ReturnedAt, Submission.ReturnedAt, hf.pc_ne j hj]
  have hpos := h.pos_eq hk
  have hcount : ∀ i, s'.finished i = Nat.count (s'.ReturnedAt g i) s.drawn ∧
      (i < g.qs → s'.tickets i = (s'.finished i + uses g.qs s.acked i) % 4294967296) := by
    intro i
    rcases hcounts with ⟨hnot', htickets, hfinished⟩ | ⟨hret, htickets, hfinished⟩
    · -- the call has not returned yet
      have hsame : ∀ j, s'.ReturnedAt g i j ↔ s.ReturnedAt g i j := by
        intro j
        by_cases hj : j = k
        · subst hj
          exact ⟨fun hr => absurd hr.2 hnot', fun hr => absurd hr.2 hnot⟩
        · exact hother i j hj
      rw [htickets, hfinished, count_congr hsame]
      exact ⟨h.finished i, h.tickets i⟩
    · rw [htickets, hfinished, hpos]
      by_cases hi : i = k % g.qs
      · subst hi
        rw [Function.update_self, Function.update_self]
        refine ⟨?_, fun hlt => ?_⟩
        · rw [h.finished, ← count_insert hk (fun hr => hnot hr.2) ⟨rfl, hret⟩ (hother _)]
        · rw [h.tickets _ hlt, add32_mod]
          congr 1
          omega
      · -- it has returned, at another slot
        have hsame : ∀ j, s'.ReturnedAt g i j ↔ s.ReturnedAt g i j := by
          intro j
          by_cases hj : j = k
          · subst hj
            exact ⟨fun hr => absurd hr.1.symm hi, fun hr => absurd hr.1.symm hi⟩
          · exact hother i j hj
        rw [Function.update_of_ne hi, Function.update_of_ne hi, count_congr hsame]
        exact ⟨h.finished i, h.tickets i⟩
  exact
    { inTicket := by rw [hf.inTicket, hf.drawn, h.inTicket]
      ticket := fun j hj => by
        rw [hf.drawn] at hj
        rw [hf.ticket, h.ticket j hj]
      undrawn_iff := fun j => by
        rw [hf.drawn]
        by_cases hj : j = k
        · subst hj
          exact ⟨fun he => absurd he hdrawn', fun he => absurd he (by omega)⟩
        · rw [hf.pc_ne j hj, h.undrawn_iff]
      finished := fun i => by
        rw [hf.drawn]
        exact (hcount i).1
      tickets := fun i hi => by
        rw [hf.acked]
        exact (hcount i).2 hi
      headHeld := by
        rw [hf.headLock, hf.consumer]
        exact h.headHeld
      headFree := fun hl => by
        rw [hf.headLock] at hl
        rw [hf.head, hf.acked, h.headFree hl]
      consumer := fun t => by
        rw [hf.consumer]
        rw [hf.head, hf.acked]
        exact h.consumer t }

/-- A slot counted as consumed. -/
theorem Counted.tickets_ack (h : Counted g s) {loc : Nat} (hloc : loc = s.acked % g.qs) :
    ∀ i < g.qs, Function.update s.tickets loc (add32 (s.tickets loc) 1) i =
      (s.finished i + uses g.qs (s.acked + 1) i) % 4294967296 := by
  intro i hi
  rw [uses_succ hi]
  by_cases hil : i = loc
  · subst hil
    rw [Function.update_self, h.tickets _ hi, add32_mod, if_pos hloc.symm, Nat.add_assoc]
  · rw [Function.update_of_ne hil, h.tickets i hi, if_neg, Nat.add_zero]
    exact fun heq => hil (heq.symm.trans hloc.symm)

/-- Who is outside knows nothing. -/
theorem countFact_outside {pc : ConsumePc} (h : pc.inHead = false) (head acked : Nat) :
    CountFact g head acked pc := by
  cases pc <;> trivial

theorem Counted.of_consume (h : Counted g s) {t : Nat} (hs : Consumes g s t s')
    (htickets : ∀ i < g.qs, s'.tickets i = (s.finished i + uses g.qs s'.acked i) % 4294967296)
    (hfree : s'.headLock = false → s'.head = s'.acked % 4294967296)
    (hfact : CountFact g s'.head s'.acked (s'.consumer t))
    (hkept : (s.consumer t).inHead = false → s'.head = s.head ∧ s'.acked = s.acked) :
    Counted g s' := by
  have hf := hs.frame
  exact
    { inTicket := by rw [hf.inTicket, hf.drawn, h.inTicket]
      ticket := fun k hk => by
        rw [hf.drawn] at hk
        rw [hf.ticket, h.ticket k hk]
      undrawn_iff := fun k => by rw [hf.pc, hf.drawn, h.undrawn_iff]
      finished := fun i => by
        have hsame : ∀ k, s'.ReturnedAt g i k ↔ s.ReturnedAt g i k := fun k => by
          rw [Submission.ReturnedAt, Submission.ReturnedAt, hf.pc]
        rw [hf.finished, hf.drawn, count_congr hsame, h.finished]
      tickets := fun i hi => by rw [hf.finished, htickets i hi]
      headHeld := hs.held h.headHeld
      headFree := hfree
      consumer := fun u => by
        by_cases hu : u = t
        · subst hu
          exact hfact
        rw [hf.consumer_ne u hu]
        cases hin : (s.consumer t).inHead with
        | false =>
          rw [(hkept hin).1, (hkept hin).2]
          exact h.consumer u
        | true =>
          -- the lock is `t`'s, so `u` is outside
          refine countFact_outside ?_ _ _
          rw [Bool.eq_false_iff]
          exact fun hui => hu (h.headHeld.unique u t hui hin) }

/-- A step of a consumer. -/
theorem Counted.consume (h : Counted g s) {t : Nat} (hs : Consumes g s t s') : Counted g s' := by
  have hself : ∀ p, Function.update s.consumer t p t = p := fun p => Function.update_self ..
  have hfact := h.consumer t
  -- while a consumer is inside, the lock is not free
  have hnotfree : (s.consumer t).inHead = true → s.headLock = false → False := by
    intro hin hl
    rw [h.headHeld.locked hin] at hl
    cases hl
  have hcases := hs
  cases hs with
  | busy hpc hlock =>
    refine h.of_consume hcases h.tickets (fun hl => nomatch hl) ?_ fun _ => ⟨rfl, rfl⟩
    show CountFact g s.head s.acked (Function.update s.consumer t _ t)
    rw [hself]
    trivial
  | take hpc hlock =>
    refine h.of_consume hcases h.tickets (fun hl => nomatch hl) ?_ fun _ => ⟨rfl, rfl⟩
    show CountFact g s.head s.acked (Function.update s.consumer t _ t)
    rw [hself]
    exact h.headFree hlock
  | scanNone hpc | scan hpc | headStays hpc =>
    refine h.of_consume hcases h.tickets
      (fun hl => (hnotfree (by rw [hpc]; rfl) hl).elim) ?_ fun _ => ⟨rfl, rfl⟩
    show CountFact g s.head s.acked (Function.update s.consumer t _ t)
    rw [hself]
    rw [hpc] at hfact
    exact hfact
  | headMoved hpc hne =>
    refine h.of_consume hcases h.tickets
      (fun hl => (hnotfree (by rw [hpc]; rfl) hl).elim) ?_ fun _ => ⟨rfl, rfl⟩
    show CountFact g s.head s.acked (Function.update s.consumer t _ t)
    rw [hself]
    rw [hpc] at hfact
    replace hfact : s.head = s.acked % 4294967296 := hfact
    refine ⟨?_, ?_⟩
    · rw [hfact, g.pos_eq]
    · rw [hfact, add32_mod, Nat.add_zero]
  | addTicket hpc hne =>
    rw [hpc] at hfact
    refine h.of_consume hcases (h.tickets_ack hfact.1)
      (fun hl => (hnotfree (by rw [hpc]; rfl) hl).elim) ?_ fun hout => ?_
    · show CountFact g s.head (s.acked + 1) (Function.update s.consumer t _ t)
      rw [hself]
      refine ⟨?_, ?_⟩
      · rw [hfact.1, g.next_place]
      · exact add32_next hfact.2
    · rw [hpc] at hout
      cases hout
  | addTicketLast hpc heq =>
    rw [hpc] at hfact
    refine h.of_consume hcases (h.tickets_ack hfact.1)
      (fun hl => (hnotfree (by rw [hpc]; rfl) hl).elim) ?_ fun hout => ?_
    · show CountFact g s.head (s.acked + 1) (Function.update s.consumer t _ t)
      rw [hself]
      exact add32_next hfact.2
    · rw [hpc] at hout
      cases hout
  | addHead hpc =>
    rw [hpc] at hfact
    refine h.of_consume hcases h.tickets
      (fun hl => (hnotfree (by rw [hpc]; rfl) hl).elim) ?_ fun hout => ?_
    · show CountFact g (add32 s.head _) s.acked (Function.update s.consumer t _ t)
      rw [hself]
      exact hfact
    · rw [hpc] at hout
      cases hout
  | free hpc =>
    rw [hpc] at hfact
    refine h.of_consume hcases h.tickets (fun _ => hfact) ?_ fun _ => ⟨rfl, rfl⟩
    show CountFact g s.head s.acked (Function.update s.consumer t _ t)
    rw [hself]
    trivial

theorem Counted.step (h : Counted g s) {a : Act C} (hs : step g s a = some s') : Counted g s' := by
  cases a with
  | draw c =>
    rw [← Option.some.inj hs]
    exact h.draw c
  | enqueue k => exact h.enqueue (enqueues_of_step hs)
  | takeHeadLock t => exact h.consume (consumes_of_take hs)
  | scanMarks t count => exact h.consume (consumes_of_scan hs)
  | consume t => exact h.consume (consumes_of_consume hs)
  | report r =>
    rw [Queue.step] at hs
    split at hs
    case isTrue =>
      rw [← Option.some.inj hs]
      exact { h with }
    case isFalse => cases hs

theorem counted_reached (h : Reached g s) : Counted g s :=
  h.invariant (fun _ h0 => counted_init h0) fun _ _ _ hI hs => hI.step hs

/-! ## The wait for a slot -/

/-- The count of a slot after `n / qs` laps, and the id of the ticket that draw `n` gets. -/
theorem lap_eq_getId_iff (g : QueueSize) (n : Nat) :
    (n / g.qs + n / g.qs) % 4294967296 = getId (n % 4294967296) g.qsLog2 ↔
      n % 2 ^ (31 + g.qsLog2) < 2 ^ 32 := by
  have hone := g.one_le
  have hle := g.le_16
  have hqs : g.qs = 2 ^ g.qsLog2 := rfl
  have hpos := g.qs_pos
  -- both sides in laps: `n / qs` modulo `2^31` and modulo `2^(32 - qs_log2)`
  have hword : 4294967296 = 2 ^ g.qsLog2 * 2 ^ (32 - g.qsLog2) := by
    rw [← Nat.pow_add, show g.qsLog2 + (32 - g.qsLog2) = 32 by omega]
  have hid : getId (n % 4294967296) g.qsLog2 = 2 * (n / g.qs % 2 ^ (32 - g.qsLog2)) := by
    have hdiv : n % 4294967296 / 2 ^ g.qsLog2 = n / g.qs % 2 ^ (32 - g.qsLog2) := by
      rw [hword, Nat.mod_mul_right_div_self]
      rfl
    have hsmall : n % 4294967296 / 2 ^ g.qsLog2 ≤ n % 4294967296 := Nat.div_le_self _ _
    rw [getId, Nat.shiftRight_eq_div_pow, ← hdiv]
    omega
  have hcount : (n / g.qs + n / g.qs) % 4294967296 = 2 * (n / g.qs % 2 ^ 31) := by
    omega
  have hdvd : 2 ^ (32 - g.qsLog2) ∣ 2 ^ 31 := Nat.pow_dvd_pow 2 (by omega)
  have hmod : n % 2 ^ (31 + g.qsLog2) / g.qs = n / g.qs % 2 ^ 31 := by
    rw [Nat.pow_add, Nat.mul_comm, ← hqs, Nat.mod_mul_right_div_self]
  have hlt : n % 2 ^ (31 + g.qsLog2) < 2 ^ 32 ↔ n / g.qs % 2 ^ 31 < 2 ^ (32 - g.qsLog2) := by
    rw [← hmod, Nat.div_lt_iff_lt_mul hpos, hqs, ← Nat.pow_add,
      show 32 - g.qsLog2 + g.qsLog2 = 32 by omega]
  rw [hcount, hid, hlt, ← Nat.mod_mod_of_dvd _ hdvd]
  refine ⟨fun h => ?_, fun h => ?_⟩
  · have hbound := Nat.mod_lt (n / g.qs % 2 ^ 31) (Nat.two_pow_pos (32 - g.qsLog2))
    omega
  · rw [Nat.mod_eq_of_lt h]

/-- All calls have returned and all their commands have been counted as consumed. -/
structure Submission.Quiet (s : Submission C) : Prop where
  returned : ∀ k < s.drawn, s.pc k = .returned
  acked : s.acked = s.drawn

/-- The test of the wait loops succeeds for call `k`. -/
def Proceeds (g : QueueSize) (s : Submission C) (k : Nat) : Prop :=
  s.tickets (s.pos g k) = getId (s.ticket k) g.qsLog2

/-- A call that finds everything before it consumed passes its wait while the two counters
    agree. -/
theorem Submission.Quiet.proceeds_iff (g : QueueSize) {s s' : Submission C} (hq : s.Quiet) (h : Reached g s)
    {c : Nat → C} (hs : step g s (.draw c) = some s') :
    Proceeds g s' s.drawn ↔ s.drawn % 2 ^ (31 + g.qsLog2) < 2 ^ 32 := by
  have hc := counted_reached h
  have hs' : s' = draw s c := (Option.some.inj hs).symm
  subst hs'
  have hticket : (draw s c).ticket s.drawn = s.drawn % 4294967296 :=
    hc.draw c |>.ticket _ (Nat.lt_succ_self _)
  have hlt := Nat.mod_lt s.drawn g.qs_pos
  have hfin : s.finished (s.drawn % g.qs) = s.drawn / g.qs := by
    rw [hc.finished, ← uses_self, ← count_mod hlt]
    refine Nat.le_antisymm (Nat.count_mono_left fun k _ hk => hk.1) (Nat.count_mono_left fun k hk hmod => ?_)
    exact ⟨hmod, hq.returned k hk⟩
  rw [Proceeds, Submission.pos, hticket, g.pos_eq]
  show s.tickets (s.drawn % g.qs) = _ ↔ _
  rw [hc.tickets _ hlt, hfin, hq.acked, uses_self]
  exact lap_eq_getId_iff g s.drawn

end GidsStack.Queue
