/-
  GidsStack.Queue.SubmitPhase

  The submit kernel alone: the threads whose rows miss call `sq_enqueue`, one call each, and
  nobody consumes a completion before the kernel has ended.  So `head` stands still, and with
  it the slots that can be used again.

  A queue takes what fits between `head` and a slot before it.  Within that, one call at a time
  can always be run to its end: the one with the lowest number, after whoever holds `tail_lock`
  has given it back (`Phase.drain`).  One call more is never announced (`fits_of_canFollow`).
-/

import GidsStack.Lib.Family
import GidsStack.Queue.Wrap

namespace GidsStack.Queue

open Laps Lib Lock SlotRing

variable {C : Type} {g : QueueSize} {s0 s s' t : Submission C} {m k : Nat}

/-! ## The kernel -/

/-- The steps at one queue whose calls are `total` in the end. -/
def submitStep (g : QueueSize) (total : Nat) (s : Submission C) : Act C → Option (Submission C)
  | .draw c => if s.drawn < total then some (draw s c) else none
  | .enqueue k => step g s (.enqueue k)
  | .report r => step g s (.report r)
  | _ => none

/-- A queue when no kernel runs: every call has returned, all marks have been swept and the
    tail is stored. -/
structure AtRest (g : QueueSize) (s : Submission C) : Prop where
  reached : Reached g s
  returned : ∀ k < s.drawn, s.pc k = .returned
  ring : Ring.Inv g.qs { s.ring with head := s.acked }
  tailLock : s.tailLock = false
  headLock : s.headLock = false
  tail : s.tail = s.rung % 4294967296
  rung : s.rung = s.swept

/-- The calls fit: each is before the slot of `head`, and its ticket is the count of its slot. -/
def Fits (g : QueueSize) (s0 : Submission C) (m : Nat) : Prop :=
  ∀ k, s0.drawn ≤ k → k < s0.drawn + m →
    k + 1 < s0.acked + g.qs ∧ k % 2 ^ (31 + g.qsLog2) < 2 ^ 32

theorem AtRest.swept_eq (h : AtRest g s0) : s0.swept = s0.drawn := by
  have hle : s0.swept ≤ s0.drawn := h.ring.swept_le
  rcases Nat.lt_or_ge s0.swept s0.drawn with hlt | hge
  · have hleft : s0.swept < s0.swept :=
      h.ring.swept_of_left s0.swept (Or.inr ((stage_returned_iff _).mpr (h.returned _ hlt)))
    omega
  · omega

theorem AtRest.room (h : AtRest g s0) : s0.acked ≤ s0.drawn ∧ s0.drawn < s0.acked + g.qs := by
  have hroom : s0.swept < s0.acked + g.qs := h.ring.room
  have hacked : s0.acked ≤ s0.swept := h.ring.acked_le
  rw [h.swept_eq] at hroom hacked
  exact ⟨hacked, hroom⟩

/-! ## What the kernel does not change -/

theorem step_of_submit {total : Nat} {a : Act C} (h : submitStep g total s a = some s') :
    step g s a = some s' := by
  cases a with
  | draw c =>
    rw [submitStep] at h
    split at h
    · exact h
    · cases h
  | enqueue k => exact h
  | report r => exact h
  | _ => cases h

/-- What a step of the kernel can be. -/
theorem submit_cases {total : Nat} {a : Act C} (h : submitStep g total s a = some s') :
    (s.drawn < total ∧ ∃ c, s' = draw s c) ∨ (∃ k, Enqueues g s k s') ∨
      ∃ r, s' = { s with reports := s.reports ++ [r] } := by
  cases a with
  | draw c =>
    rw [submitStep] at h
    split at h
    · rename_i hlt
      exact .inl ⟨hlt, c, (Option.some.inj h).symm⟩
    · cases h
  | enqueue k => exact .inr (.inl ⟨k, enqueues_of_step h⟩)
  | report r =>
    rw [submitStep, Queue.step] at h
    split at h
    · exact .inr (.inr ⟨r, (Option.some.inj h).symm⟩)
    · cases h
  | _ => cases h

/-- A state of the kernel. -/
structure Launched (g : QueueSize) (s0 : Submission C) (m : Nat) (s : Submission C) : Prop where
  reached : Reached g s
  old : ∀ k < s0.drawn, s.pc k = .returned
  lo : s0.drawn ≤ s.drawn
  hi : s.drawn ≤ s0.drawn + m
  acked : s.acked = s0.acked
  head : s.head = s0.acked % 4294967296

theorem AtRest.launched (h : AtRest g s0) (m : Nat) : Launched g s0 m s0 where
  reached := h.reached
  old := h.returned
  lo := Nat.le_refl _
  hi := Nat.le_add_right _ _
  acked := rfl
  head := (counted_reached h.reached).headFree h.headLock

theorem Launched.lt_drawn (h : Launched g s0 m s) (hk : s.pc k ≠ .undrawn) : k < s.drawn := by
  rw [Ne, (counted_reached h.reached).undrawn_iff] at hk
  omega

theorem Launched.step (h : Launched g s0 m s) {a : Act C}
    (hs : submitStep g (s0.drawn + m) s a = some s') : Launched g s0 m s' := by
  have hreached : Reached g s' := .step h.reached (step_of_submit hs)
  rcases submit_cases hs with ⟨hlt, c, rfl⟩ | ⟨j, henq⟩ | ⟨r, rfl⟩
  · refine ⟨hreached, fun k hk => ?_, Nat.le_succ_of_le h.lo, hlt, h.acked, h.head⟩
    show Function.update s.pc s.drawn _ k = _
    rw [Function.update_of_ne (by have := h.lo; omega)]
    exact h.old k hk
  · have hf := henq.frame
    refine ⟨hreached, fun k hk => ?_, by rw [hf.drawn]; exact h.lo, by rw [hf.drawn]; exact h.hi,
      by rw [hf.acked]; exact h.acked, by rw [hf.head]; exact h.head⟩
    by_cases hkj : k = j
    · subst hkj
      exact absurd (h.old k hk) henq.counts.2.1
    · rw [hf.pc_ne k hkj]
      exact h.old k hk
  · exact { h with reached := hreached }

/-- While the calls have room, each finds its slot at the count of its lap. -/
theorem Launched.laps (h : Launched g s0 m s) (hbase : s0.acked ≤ s0.drawn)
    (hroom : s0.drawn + m < s0.acked + g.qs) (hk : k < s.drawn) (hnot : s.pc k ≠ .returned) :
    s.finished (k % g.qs) = k / g.qs ∧ uses g.qs s.acked (k % g.qs) = k / g.qs := by
  have hc := counted_reached h.reached
  have hlo : s0.drawn ≤ k := by
    rcases Nat.lt_or_ge k s0.drawn with hlt | hge
    · exact absurd (h.old k hlt) hnot
    · exact hge
  have hhi := h.hi
  have hacked := h.acked
  refine ⟨?_, ?_⟩
  · -- the calls of the slot that have returned are those before `k`
    rw [hc.finished, ← uses_self, ← count_mod (Nat.mod_lt k g.qs_pos)]
    obtain ⟨d, hd⟩ := Nat.exists_eq_add_of_le (Nat.le_of_lt hk)
    rw [hd, Nat.count_add]
    have hlate : Nat.count (fun j => s.ReturnedAt g (k % g.qs) (k + j)) d = 0 := by
      rw [Nat.count_iff_forall_not]
      rintro j hj ⟨hmod, hret⟩
      rcases Nat.eq_zero_or_pos j with rfl | hpos
      · exact hnot hret
      · have := add_le_of_mod_eq hmod.symm (show k < k + j by omega)
        omega
    rw [hlate, Nat.add_zero]
    refine Nat.le_antisymm (Nat.count_mono_left fun j _ hj => hj.1)
      (Nat.count_mono_left fun j hj hmod => ⟨hmod, h.old j ?_⟩)
    have := add_le_of_mod_eq hmod hj
    omega
  · rw [hacked]
    have hnlt : ¬ k / g.qs < uses g.qs s0.acked (k % g.qs) := by
      rw [div_lt_uses_iff g.qs_pos]
      omega
    have hle : k / g.qs ≤ uses g.qs s0.acked (k % g.qs) := by
      rw [div_le_uses_iff g.qs_pos]
      omega
    omega

/-- So its wait ends exactly if its ticket is that count. -/
theorem Launched.test_iff (h : Launched g s0 m s) (hbase : s0.acked ≤ s0.drawn)
    (hroom : s0.drawn + m < s0.acked + g.qs) (hk : k < s.drawn) (hnot : s.pc k ≠ .returned) :
    s.tickets (s.pos g k) = getId (s.ticket k) g.qsLog2 ↔ k % 2 ^ (31 + g.qsLog2) < 2 ^ 32 := by
  have hc := counted_reached h.reached
  obtain ⟨hfin, huses⟩ := h.laps hbase hroom hk hnot
  rw [hc.pos_eq hk, hc.ticket k hk, hc.tickets _ (Nat.mod_lt k g.qs_pos), hfin, huses]
  exact lap_eq_getId_iff g k

/-! ## The tail -/

/-- What the holder of `tail_lock` knows at `pc`, with the counters as they wrap. -/
def SweepFact (g : QueueSize) (s : Submission C) : EnqueuePc → Prop
  | .loadTail | .freeTailLock => s.tail = s.rung % 4294967296 ∧ s.rung = s.swept
  | .loadHead c n => s.tail = c ∧ c = s.rung % 4294967296 ∧ s.rung + n = s.swept
  | .exchangeMark c n =>
    (s.tail = c ∧ c = s.rung % 4294967296 ∧ s.rung + n = s.swept) ∧
      s.swept + 1 < s.acked + g.qs
  | .writeDb c n => c = s.rung % 4294967296 ∧ s.rung + n = s.swept
  | .storeTail c n => add32 c n = s.rung % 4294967296 ∧ s.rung = s.swept
  | _ => True

/-- The tail in a kernel: `head` stands still, and nothing is swept past the slot before it. -/
structure Sweeps (g : QueueSize) (s0 s : Submission C) : Prop where
  acked : s.acked = s0.acked
  head : s.head = s0.acked % 4294967296
  base : s0.acked ≤ s0.swept
  start_le : s0.swept ≤ s.rung
  rung_le : s.rung ≤ s.swept
  room : s.swept < s0.acked + g.qs
  held : Held (fun k => (s.pc k).inTail = true) s.tailLock
  free : s.tailLock = false → s.tail = s.rung % 4294967296 ∧ s.rung = s.swept
  fact : ∀ k, SweepFact g s (s.pc k)

theorem AtRest.sweeps (h : AtRest g s0) : Sweeps g s0 s0 := by
  have hc := counted_reached h.reached
  have hout : ∀ k, (s0.pc k).inTail = false := by
    intro k
    rcases Nat.lt_or_ge k s0.drawn with hlt | hge
    · rw [h.returned k hlt]
      rfl
    · rw [(hc.undrawn_iff k).mpr hge]
      rfl
  refine ⟨rfl, hc.headFree h.headLock, h.ring.acked_le, Nat.le_of_eq h.rung.symm,
    Nat.le_of_eq h.rung, h.ring.room, ?_, fun _ => ⟨h.tail, h.rung⟩, fun k => ?_⟩
  · rw [h.tailLock]
    refine .none fun k hk => ?_
    rw [hout k] at hk
    cases hk
  · have hk := hout k
    cases hpc : s0.pc k <;> rw [hpc] at hk <;> trivial

theorem sweepFact_outside {pc : EnqueuePc} (h : pc.inTail = false) (s : Submission C) :
    SweepFact g s pc := by
  cases pc <;> trivial

theorem sweepFact_afterMove {c n : Nat} (htail : s.tail = c) (hc : c = s.rung % 4294967296)
    (hsum : s.rung + n = s.swept) : SweepFact g s (afterMove c n) := by
  rcases afterMove_eq c n with ⟨-, h⟩ | ⟨hn, h⟩
  · rw [h]
    exact ⟨hc, hsum⟩
  · rw [h]
    exact ⟨htail.trans hc, by omega⟩

/-- The places that `move_tail` looks at. -/
theorem place_of_count {c n : Nat} (hc : c = s.rung % 4294967296) (hsum : s.rung + n = s.swept) :
    add32 c n &&& g.qsMinus1 = s.swept % g.qs ∧
      add32 (add32 c n) 1 &&& g.qsMinus1 = (s.swept + 1) % g.qs := by
  rw [hc, add32_mod, hsum, add32_mod, g.pos_eq, g.pos_eq]
  exact ⟨rfl, rfl⟩

/-- The slot after the last one swept is not the head's. -/
theorem Sweeps.room_of_ne (h : Sweeps g s0 s) {c n : Nat} (hc : c = s.rung % 4294967296)
    (hsum : s.rung + n = s.swept)
    (hne : add32 (add32 c n) 1 &&& g.qsMinus1 ≠ s.head &&& g.qsMinus1) :
    s.swept + 1 < s.acked + g.qs := by
  rw [(place_of_count hc hsum).2, h.head, g.pos_eq] at hne
  have hroom := h.room
  rw [h.acked]
  by_contra hge
  have heq : s.swept + 1 = s0.acked + g.qs := by omega
  rw [heq, Nat.add_mod_right] at hne
  exact hne rfl

/-- What call `k` knows after its step. -/
theorem Sweeps.fact_enqueue (h : Sweeps g s0 s) (hs : Enqueues g s k s') :
    SweepFact g s' (s'.pc k) := by
  have hfact := h.fact k
  have hroom := h.room
  have hbase := h.base
  have hlo := h.start_le
  have hqs := g.qs_le
  cases hs with
  | spin hpc => exact hfact
  | copy hpc =>
    rw [goto_pc_self]
    split <;> trivial
  | take hpc hlock =>
    rw [goto_pc_self]
    exact h.free hlock
  | loadTail hpc =>
    rw [hpc] at hfact
    rw [goto_pc_self]
    exact ⟨rfl, hfact.1, hfact.2⟩
  | room hpc hne =>
    rw [hpc] at hfact
    rw [goto_pc_self]
    exact ⟨hfact, h.room_of_ne hfact.2.1 hfact.2.2 hne⟩
  | full hpc =>
    rw [hpc] at hfact
    rw [goto_pc_self]
    exact sweepFact_afterMove (s := s.goto k _) hfact.1 hfact.2.1 hfact.2.2
  | @sweep c n hpc hmark =>
    rw [hpc] at hfact
    rw [goto_pc_self]
    obtain ⟨⟨htail, hc, hsum⟩, hnext⟩ := hfact
    refine ⟨htail, hc, ?_⟩
    show s.rung + add32 n 1 = s.swept + 1
    rw [show add32 n 1 = n + 1 from add32_of_lt (by omega)]
    omega
  | unswept hpc =>
    rw [hpc] at hfact
    rw [goto_pc_self]
    exact sweepFact_afterMove (s := s.goto k _) hfact.1.1 hfact.1.2.1 hfact.1.2.2
  | @writeDb c n hpc =>
    rw [hpc] at hfact
    rw [goto_pc_self]
    refine ⟨?_, hfact.2⟩
    show add32 c n = (s.rung + n) % 4294967296
    rw [hfact.1, add32_mod]
  | storeTail hpc =>
    rw [hpc] at hfact
    rw [goto_pc_self]
    exact hfact
  | seen | pass | post | stays | leave | busy | unlocked | free | finish =>
    rw [goto_pc_self]
    trivial

theorem Sweeps.enqueue (h : Sweeps g s0 s) (hs : Enqueues g s k s') : Sweeps g s0 s' := by
  have hf := hs.frame
  have hfact := h.fact k
  have hkfact := h.fact_enqueue hs
  have hcounts : s.rung ≤ s'.rung ∧ s'.rung ≤ s'.swept ∧ s'.swept < s0.acked + g.qs ∧
      (s'.tailLock = false → s'.tail = s'.rung % 4294967296 ∧ s'.rung = s'.swept) := by
    have hrung := h.rung_le
    have hroom := h.room
    have hacked := h.acked
    have hnotfree : (s.pc k).inTail = true → s.tailLock ≠ false := by
      intro hin hl
      rw [h.held.locked hin] at hl
      cases hl
    cases hs with
    | take => exact ⟨Nat.le_refl _, hrung, hroom, fun hl => by cases hl⟩
    | free hpc =>
      rw [hpc] at hfact
      exact ⟨Nat.le_refl _, hrung, hroom, fun _ => hfact⟩
    | sweep hpc hmark =>
      refine ⟨Nat.le_refl _, Nat.le_succ_of_le hrung, ?_,
        fun hl => absurd hl (hnotfree (by rw [hpc]; rfl))⟩
      rw [hpc] at hfact
      have hnext := hfact.2
      show s.swept + 1 < _
      omega
    | @writeDb c n hpc =>
      refine ⟨Nat.le_add_right _ _, ?_, hroom, fun hl => absurd hl (hnotfree (by rw [hpc]; rfl))⟩
      rw [hpc] at hfact
      exact Nat.le_of_eq hfact.2
    | storeTail hpc =>
      exact ⟨Nat.le_refl _, hrung, hroom, fun hl => absurd hl (hnotfree (by rw [hpc]; rfl))⟩
    | _ => exact ⟨Nat.le_refl _, hrung, hroom, h.free⟩
  refine ⟨by rw [hf.acked]; exact h.acked, by rw [hf.head]; exact h.head, h.base,
    Nat.le_trans h.start_le hcounts.1, hcounts.2.1, hcounts.2.2.1, hs.held h.held, hcounts.2.2.2,
    fun j => ?_⟩
  by_cases hj : j = k
  · rw [hj]
    exact hkfact
  · rw [hf.pc_ne j hj]
    cases hin : (s.pc k).inTail with
    | true =>
      -- the lock is `k`'s, so `j` is outside
      apply sweepFact_outside
      rw [Bool.eq_false_iff]
      exact fun hji => hj (h.held.unique j k hji hin)
    | false =>
      obtain ⟨htail, hrung, hswept⟩ := hs.tail_kept hin
      have hjfact := h.fact j
      cases hpc : s.pc j <;> rw [hpc] at hjfact <;>
        simp only [SweepFact, htail, hrung, hswept, hf.acked] at hjfact ⊢ <;> exact hjfact

theorem Sweeps.draw (h : Sweeps g s0 s) (hnew : s.pc s.drawn = .undrawn) (c : Nat → C) :
    Sweeps g s0 (draw s c) := by
  have hpc : ∀ k, k ≠ s.drawn → (Queue.draw s c).pc k = s.pc k :=
    fun k hk => Function.update_of_ne hk _ _
  have hself : (Queue.draw s c).pc s.drawn = .waitRelaxed := Function.update_self ..
  refine ⟨h.acked, h.head, h.base, h.start_le, h.rung_le, h.room, ?_, h.free, fun k => ?_⟩
  · refine h.held.keep fun k => ?_
    by_cases hk : k = s.drawn
    · rw [hk, hself, hnew]
      exact Iff.rfl
    · rw [hpc k hk]
  · by_cases hk : k = s.drawn
    · rw [hk, hself]
      trivial
    · rw [hpc k hk]
      exact h.fact k

theorem Sweeps.step (h : Sweeps g s0 s) (hl : Launched g s0 m s) {a : Act C}
    (hs : submitStep g (s0.drawn + m) s a = some s') : Sweeps g s0 s' := by
  rcases submit_cases hs with ⟨-, c, rfl⟩ | ⟨k, henq⟩ | ⟨r, rfl⟩
  · exact h.draw (((counted_reached hl.reached).undrawn_iff _).mpr (Nat.le_refl _)) c
  · exact h.enqueue henq
  · exact ⟨h.acked, h.head, h.base, h.start_le, h.rung_le, h.room, h.held, h.free, h.fact⟩

/-! ## The ring -/

/-- The ring of slots, with `head` where the last consumption was counted. -/
def Submission.standing (s : Submission C) : Ring := { s.ring with head := s.acked }

theorem goto_standing (s : Submission C) (k : Nat) (pc : EnqueuePc) :
    (s.goto k pc).standing =
      { s.standing with stage := Function.update s.standing.stage k pc.stage } :=
  congrArg (fun r => ({ r with head := s.acked } : Ring)) (goto_ring s k pc)

theorem goto_standing_same (s : Submission C) {k : Nat} {pc : EnqueuePc}
    (h : (s.pc k).stage = pc.stage) : (s.goto k pc).standing = s.standing :=
  congrArg (fun r => ({ r with head := s.acked } : Ring)) (goto_ring_same s h)

/-- A state of the kernel when the calls fit. -/
structure Phase (g : QueueSize) (s0 : Submission C) (m : Nat) (s : Submission C) : Prop where
  launched : Launched g s0 m s
  sweeps : Sweeps g s0 s
  ring : s.standing.Inv g.qs

theorem AtRest.phase (h : AtRest g s0) (m : Nat) : Phase g s0 m s0 where
  launched := h.launched m
  sweeps := h.sweeps
  ring := h.ring

/-- The last call that fits leaves a slot before that of `head`. -/
theorem AtRest.room_of_fits (h : AtRest g s0) (hfit : Fits g s0 m) :
    s0.drawn + m < s0.acked + g.qs := by
  have hroom := h.room
  rcases Nat.eq_zero_or_pos m with rfl | hm
  · exact hroom.2
  · have hlast := (hfit (s0.drawn + m - 1) (by omega) (by omega)).1
    omega

theorem Phase.ring_enqueue (h : Phase g s0 m s) (h0 : AtRest g s0)
    (hroom : s0.drawn + m < s0.acked + g.qs) (hs : Enqueues g s k s') :
    s'.standing.Inv g.qs := by
  have hq := g.qs_pos
  have hc := counted_reached h.launched.reached
  have hk : k < s.drawn := h.launched.lt_drawn hs.counts.1
  have hpos := hc.pos_eq hk
  have hstage : ∀ pc, s.pc k = pc → s.standing.stage k = pc.stage := by
    intro pc hpc
    show (s.pc k).stage = _
    rw [hpc]
  have hsame : ∀ pc, (s.pc k).stage = pc.stage → (s.goto k pc).standing.Inv g.qs := by
    intro pc hst
    rw [goto_standing_same s hst]
    exact h.ring
  have hfact := h.sweeps.fact k
  cases hs with
  | spin hpc => exact h.ring
  | seen hpc | stays hpc | unlocked hpc | loadTail hpc | room hpc =>
    exact hsame _ (by rw [hpc]; rfl)
  | busy hpc => exact hsame _ (by rcases hpc with hpc | hpc <;> rw [hpc] <;> rfl)
  | full hpc | unswept hpc => exact hsame _ (by rw [hpc, stage_afterMove]; rfl)
  | pass hpc htest =>
    rw [goto_standing]
    obtain ⟨hfin, huses⟩ :=
      h.launched.laps h0.room.1 hroom hk (by rw [hpc]; exact EnqueuePc.noConfusion)
    refine h.ring.step hq (.pass (hstage _ hpc) ?_)
    show s.finished (k % g.qs) + uses g.qs s.acked (k % g.qs) = 2 * (k / g.qs)
    omega
  | copy hpc =>
    rw [goto_standing_same]
    · exact h.ring
    · show (s.pc k).stage = _
      rw [hpc]
      split <;> rfl
  | post hpc =>
    rw [goto_standing, hpos]
    exact h.ring.step hq (.post (hstage _ hpc))
  | leave hpc hmark =>
    rw [goto_standing]
    rw [hpos] at hmark
    exact h.ring.step hq (.leave (hstage _ hpc) hmark)
  | take hpc | writeDb hpc | storeTail hpc | free hpc =>
    rw [goto_standing_same]
    · exact h.ring
    · show (s.pc k).stage = _
      rw [hpc]
      rfl
  | sweep hpc hmark =>
    rw [hpc] at hfact
    obtain ⟨⟨-, hc, hsum⟩, hnext⟩ := hfact
    rw [(place_of_count hc hsum).1] at hmark ⊢
    rw [goto_standing_same]
    · exact h.ring.step hq (.sweep hnext hmark)
    · show (s.pc k).stage = _
      rw [hpc]
      rfl
  | finish hpc =>
    rw [goto_standing, hpos]
    exact h.ring.step hq (.finish (hstage _ hpc))

theorem Phase.step (h : Phase g s0 m s) (h0 : AtRest g s0)
    (hroom : s0.drawn + m < s0.acked + g.qs) {a : Act C}
    (hs : submitStep g (s0.drawn + m) s a = some s') : Phase g s0 m s' := by
  refine ⟨h.launched.step hs, h.sweeps.step h.launched hs, ?_⟩
  rcases submit_cases hs with ⟨-, c, rfl⟩ | ⟨k, henq⟩ | ⟨r, rfl⟩
  · have hstage : (draw s c).standing =
        { s.standing with
          stage := Function.update s.standing.stage s.standing.drawn .waiting
          drawn := s.standing.drawn + 1 } :=
      congrArg (fun f => ({ s.standing with stage := f, drawn := s.drawn + 1 } : Ring))
        (map_update EnqueuePc.stage s.pc s.drawn .waitRelaxed)
    rw [hstage]
    exact h.ring.step g.qs_pos .draw
  · exact h.ring_enqueue h0 hroom henq
  · exact h.ring

/-! ## One call alone -/

/-- A run of the steps of call `k`. -/
abbrev Solo (g : QueueSize) (k : Nat) : Submission C → Submission C → Prop :=
  Relation.ReflTransGen fun s s' => enqueueStep g s k = some s'

theorem Solo.frame (h : Solo g k s t) : t.drawn = s.drawn ∧ ∀ j, j ≠ k → t.pc j = s.pc j := by
  induction h with
  | refl => exact ⟨rfl, fun _ _ => rfl⟩
  | tail _ hs ih =>
    have hf := (enqueues_of_step hs).frame
    exact ⟨hf.drawn.trans ih.1, fun j hj => (hf.pc_ne j hj).trans (ih.2 j hj)⟩

theorem Phase.solo (h : Phase g s0 m s) (h0 : AtRest g s0)
    (hroom : s0.drawn + m < s0.acked + g.qs) (hrun : Solo g k s t) : Phase g s0 m t := by
  induction hrun with
  | refl => exact h
  | tail _ hs ih => exact ih.step (a := .enqueue k) h0 hroom hs

theorem Solo.reachable {total : Nat} (h : Solo g k s t) :
    Reachable (· = s) (fun s a s' => submitStep g total s a = some s') t := by
  induction h with
  | refl => exact .init rfl
  | tail _ hs ih => exact .step (a := .enqueue k) ih hs

/-! ### Up to the mark -/

/-- A call that has not marked its slot can do so, as long as its count is there. -/
theorem solo_post (htest : Proceeds g s k)
    (hst : (s.pc k).stage = .waiting ∨ (s.pc k).stage = .writing) :
    ∃ t, Solo g k s t ∧ t.pc k = .loadMark ∧ t.tailLock = s.tailLock := by
  have hmark : ∀ {u : Submission C}, u.pc k = .storeMark →
      ∃ t, Solo g k u t ∧ t.pc k = .loadMark ∧ t.tailLock = u.tailLock := by
    intro u hpc
    have hstep : enqueueStep g u k = some
        ({ u with tailMark := Function.update u.tailMark (u.pos g k) true }.goto k .loadMark) := by
      simp only [enqueueStep, hpc, Submission.pos]
    exact ⟨_, .single hstep, goto_pc_self .., rfl⟩
  -- the two halves of the command
  have hcopy : ∀ {u : Submission C} {i : Nat}, u.pc k = .copy i →
      ∃ v, enqueueStep g u k = some v ∧
        v.pc k = (if i + 1 < 2 then .copy (i + 1) else .storeMark) ∧
        v.tailLock = u.tailLock := by
    intro u i hpc
    have hstep : enqueueStep g u k = some
        ({ u with
            vaddr := Function.update u.vaddr (u.pos g k)
              (Function.update (u.vaddr (u.pos g k)) i (u.cmd k i)) }.goto k
          (if i + 1 < 2 then .copy (i + 1) else .storeMark)) := by
      simp only [enqueueStep, hpc, Submission.pos]
    exact ⟨_, hstep, goto_pc_self .., rfl⟩
  have hcopies : ∀ {u : Submission C} {i : Nat}, u.pc k = .copy i →
      ∃ t, Solo g k u t ∧ t.pc k = .loadMark ∧ t.tailLock = u.tailLock := by
    intro u i hpc
    obtain ⟨v, hv, hvpc, hvlock⟩ := hcopy hpc
    split at hvpc
    case isFalse =>
      obtain ⟨t, ht, hpost, hlock⟩ := hmark hvpc
      exact ⟨t, .head hv ht, hpost, hlock.trans hvlock⟩
    case isTrue hlt =>
      obtain ⟨w, hw, hwpc, hwlock⟩ := hcopy hvpc
      rw [if_neg (by omega)] at hwpc
      obtain ⟨t, ht, hpost, hlock⟩ := hmark hwpc
      exact ⟨t, .head hv (.head hw ht), hpost, hlock.trans (hwlock.trans hvlock)⟩
  have hacquire : ∀ {u : Submission C}, Proceeds g u k → u.pc k = .waitAcquire →
      ∃ t, Solo g k u t ∧ t.pc k = .loadMark ∧ t.tailLock = u.tailLock := by
    intro u htest hpc
    have hstep : enqueueStep g u k = some (u.goto k (.copy 0)) := by
      simp only [enqueueStep, hpc]
      exact congrArg some (if_pos htest)
    obtain ⟨t, ht, hpost, hlock⟩ := hcopies (goto_pc_self u k (.copy 0))
    exact ⟨t, .head hstep ht, hpost, hlock⟩
  cases hpc : s.pc k with
  | waitRelaxed =>
    have hstep : enqueueStep g s k = some (s.goto k .waitAcquire) := by
      simp only [enqueueStep, hpc]
      exact congrArg some (if_pos htest)
    obtain ⟨t, ht, hpost, hlock⟩ := hacquire (u := s.goto k .waitAcquire) htest (goto_pc_self ..)
    exact ⟨t, .head hstep ht, hpost, hlock⟩
  | waitAcquire => exact hacquire htest hpc
  | copy i => exact hcopies hpc
  | storeMark => exact hmark hpc
  | _ =>
    rw [hpc] at hst
    rcases hst with hst | hst <;> cases hst

/-! ### Out of the tail -/

/-- Nothing is left that `move_tail` could take: the next mark is down, or the slot after it is
    that of `head`. -/
def Submission.Settled (g : QueueSize) (s : Submission C) : Prop :=
  s.tailMark (s.swept % g.qs) = true → ¬ s.swept + 1 < s.acked + g.qs

/-- A run of call `k` that gives `tail_lock` back and leaves the marks as they are. -/
structure GivesBack (g : QueueSize) (k : Nat) (s t : Submission C) : Prop where
  solo : Solo g k s t
  pc : t.pc k = .loadMark
  tailLock : t.tailLock = false
  tailMark : t.tailMark = s.tailMark
  swept : t.swept = s.swept
  acked : t.acked = s.acked

theorem givesBack_freeTailLock (hpc : s.pc k = .freeTailLock) : ∃ t, GivesBack g k s t := by
  have hstep : enqueueStep g s k = some ({ s with tailLock := false }.goto k .loadMark) := by
    simp only [enqueueStep, hpc]
  exact ⟨_, .single hstep, goto_pc_self .., rfl, rfl, rfl, rfl⟩

theorem givesBack_storeTail {c n : Nat} (hpc : s.pc k = .storeTail c n) :
    ∃ t, GivesBack g k s t := by
  have hstep : enqueueStep g s k = some ({ s with tail := add32 c n }.goto k .freeTailLock) := by
    simp only [enqueueStep, hpc]
  obtain ⟨t, ht⟩ := givesBack_freeTailLock (g := g) (goto_pc_self { s with tail := add32 c n } k _)
  exact ⟨t, .head hstep ht.solo, ht.pc, ht.tailLock, ht.tailMark, ht.swept, ht.acked⟩

theorem givesBack_writeDb {c n : Nat} (hpc : s.pc k = .writeDb c n) : ∃ t, GivesBack g k s t := by
  let rang : Submission C := { s with
    db := add32 c n &&& g.qsMinus1
    rung := s.rung + n
    advances := s.advances ++ [(c, add32 c n)] }
  have hstep : enqueueStep g s k = some (rang.goto k (.storeTail c n)) := by
    simp only [enqueueStep, hpc, rang]
  obtain ⟨t, ht⟩ := givesBack_storeTail (g := g) (goto_pc_self rang k (.storeTail c n))
  exact ⟨t, .head hstep ht.solo, ht.pc, ht.tailLock, ht.tailMark, ht.swept, ht.acked⟩

theorem givesBack_afterMove {c n : Nat} (hpc : s.pc k = afterMove c n) :
    ∃ t, GivesBack g k s t := by
  rcases afterMove_eq c n with ⟨-, hn⟩ | ⟨-, hn⟩
  · exact givesBack_writeDb (hpc.trans hn)
  · exact givesBack_freeTailLock (hpc.trans hn)

/-- The exchange finds a mark and goes on, or leaves the mark down and stops. -/
theorem exchangeMark_step {c n : Nat} (hpc : s.pc k = .exchangeMark c n) :
    ∃ u, enqueueStep g s k = some u ∧
      ((u.pc k = .loadHead c (add32 n 1) ∧ u.swept = s.swept + 1) ∨
        (u.pc k = afterMove c n ∧ u.tailMark (add32 c n &&& g.qsMinus1) = false ∧
          u.swept = s.swept)) := by
  let cleared : Submission C :=
    { s with tailMark := Function.update s.tailMark (add32 c n &&& g.qsMinus1) false }
  cases hmark : s.tailMark (add32 c n &&& g.qsMinus1) with
  | true =>
    have hstep : enqueueStep g s k =
        some ({ cleared with swept := s.swept + 1 }.goto k (.loadHead c (add32 n 1))) := by
      simp only [enqueueStep, hpc]
      exact congrArg some (if_pos hmark)
    exact ⟨_, hstep, .inl ⟨goto_pc_self .., rfl⟩⟩
  | false =>
    have hstep : enqueueStep g s k = some (cleared.goto k (afterMove c n)) := by
      simp only [enqueueStep, hpc]
      exact congrArg some (if_neg (Bool.not_eq_true _ ▸ hmark))
    exact ⟨_, hstep, .inr ⟨goto_pc_self .., Function.update_self .., rfl⟩⟩

/-- The rounds of `move_tail` end, with nothing left to take. -/
theorem Sweeps.solo_loadHead {c n : Nat} (h : Sweeps g s0 s) (hpc : s.pc k = .loadHead c n) :
    ∃ t, Solo g k s t ∧ t.pc k = .loadMark ∧ t.tailLock = false ∧ t.Settled g := by
  -- induction on the room that is left
  induction hd : s0.acked + g.qs - s.swept generalizing s n with
  | zero =>
    have hroom := h.room
    omega
  | succ d ih =>
    have hfact := h.fact k
    rw [hpc] at hfact
    obtain ⟨htail, hc, hsum⟩ := hfact
    have hstep : enqueueStep g s k = some (s.goto k
        (if add32 (add32 c n) 1 &&& g.qsMinus1 ≠ s.head &&& g.qsMinus1
          then .exchangeMark c n else afterMove c n)) := by
      simp only [enqueueStep, hpc]
    by_cases hne : add32 (add32 c n) 1 &&& g.qsMinus1 ≠ s.head &&& g.qsMinus1
    · rw [if_pos hne] at hstep
      have h' := h.enqueue (enqueues_of_step hstep)
      obtain ⟨u, hu, hgoes | hstops⟩ :=
        exchangeMark_step (g := g) (goto_pc_self s k (.exchangeMark c n))
      · obtain ⟨hupc, huswept⟩ := hgoes
        have huswept : u.swept = s.swept + 1 := huswept
        obtain ⟨t, ht, hend⟩ := ih (h'.enqueue (enqueues_of_step hu)) hupc (by omega)
        exact ⟨t, .head hstep (.head hu ht), hend⟩
      · obtain ⟨hupc, hudown, huswept⟩ := hstops
        have huswept : u.swept = s.swept := huswept
        obtain ⟨t, ht⟩ := givesBack_afterMove (g := g) hupc
        refine ⟨t, .head hstep (.head hu ht.solo), ht.pc, ht.tailLock, fun hup => ?_⟩
        rw [ht.tailMark, ht.swept, huswept, ← (place_of_count hc hsum).1, hudown] at hup
        cases hup
    · rw [if_neg hne] at hstep
      obtain ⟨t, ht⟩ := givesBack_afterMove (g := g) (goto_pc_self s k (afterMove c n))
      refine ⟨t, .head hstep ht.solo, ht.pc, ht.tailLock, fun _ hlt => hne ?_⟩
      have hlt : s.swept + 1 < s.acked + g.qs := by
        rw [ht.swept, ht.acked] at hlt
        exact hlt
      -- between `head` and the slot before it, places differ
      rw [(place_of_count hc hsum).2, h.head, g.pos_eq]
      intro heq
      have hbase := h.base
      have hlo := h.start_le
      have hrung := h.rung_le
      have hacked := h.acked
      have := eq_of_mod_eq heq (by omega) (by omega)
      omega

/-- Whoever holds `tail_lock` can give it back, and has swept what there was from where it has
    loaded the tail. -/
theorem Sweeps.solo_release (h : Sweeps g s0 s) (hin : (s.pc k).inTail = true) :
    ∃ t, Solo g k s t ∧ t.pc k = .loadMark ∧ t.tailLock = false ∧
      (s.pc k = .loadTail → t.Settled g) := by
  cases hpc : s.pc k with
  | loadTail =>
    have hstep : enqueueStep g s k = some (s.goto k (.loadHead s.tail 0)) := by
      simp only [enqueueStep, hpc]
    obtain ⟨t, ht, hpost, hlock, hend⟩ :=
      (h.enqueue (enqueues_of_step hstep)).solo_loadHead (goto_pc_self ..)
    exact ⟨t, .head hstep ht, hpost, hlock, fun _ => hend⟩
  | loadHead c n =>
    obtain ⟨t, ht, hpost, hlock, hend⟩ := h.solo_loadHead hpc
    exact ⟨t, ht, hpost, hlock, fun _ => hend⟩
  | exchangeMark c n =>
    obtain ⟨u, hu, ⟨hupc, -⟩ | ⟨hupc, -⟩⟩ := exchangeMark_step (g := g) hpc
    · obtain ⟨t, ht, hpost, hlock, hend⟩ := (h.enqueue (enqueues_of_step hu)).solo_loadHead hupc
      exact ⟨t, .head hu ht, hpost, hlock, fun _ => hend⟩
    · obtain ⟨t, ht⟩ := givesBack_afterMove (g := g) hupc
      exact ⟨t, .head hu ht.solo, ht.pc, ht.tailLock, EnqueuePc.noConfusion⟩
  | writeDb c n =>
    obtain ⟨t, ht⟩ := givesBack_writeDb (g := g) hpc
    exact ⟨t, ht.solo, ht.pc, ht.tailLock, EnqueuePc.noConfusion⟩
  | storeTail c n =>
    obtain ⟨t, ht⟩ := givesBack_storeTail (g := g) hpc
    exact ⟨t, ht.solo, ht.pc, ht.tailLock, EnqueuePc.noConfusion⟩
  | freeTailLock =>
    obtain ⟨t, ht⟩ := givesBack_freeTailLock (g := g) hpc
    exact ⟨t, ht.solo, ht.pc, ht.tailLock, EnqueuePc.noConfusion⟩
  | _ =>
    rw [hpc] at hin
    cases hin

/-! ### To its end -/

/-- Call `k` can return on its own and leave the lock free. -/
def Returns (g : QueueSize) (k : Nat) (s : Submission C) : Prop :=
  ∃ t, Solo g k s t ∧ t.pc k = .returned ∧ t.tailLock = false

theorem Returns.head (hs : enqueueStep g s k = some s') (h : Returns g k s') : Returns g k s := by
  obtain ⟨t, ht, hend⟩ := h
  exact ⟨t, .head hs ht, hend⟩

theorem returns_addTicket (hpc : s.pc k = .addTicket) (hlock : s.tailLock = false) :
    Returns g k s := by
  have hstep : enqueueStep g s k = some
      ({ s with
          tickets := Function.update s.tickets (s.pos g k) (add32 (s.tickets (s.pos g k)) 1)
          finished := Function.update s.finished (s.pos g k)
            (s.finished (s.pos g k) + 1) }.goto k .returned) := by
    simp only [enqueueStep, hpc, Submission.pos]
  exact ⟨_, .single hstep, goto_pc_self .., hlock⟩

theorem returns_swept (hpc : s.pc k = .loadMark) (hlock : s.tailLock = false)
    (hmark : s.tailMark (s.pos g k) = false) : Returns g k s := by
  have hstep : enqueueStep g s k = some (s.goto k .addTicket) := by
    simp only [enqueueStep, hpc]
    exact congrArg (fun p => some (s.goto k p)) (if_neg (Bool.not_eq_true _ ▸ hmark))
  exact .head hstep (returns_addTicket (s := s.goto k .addTicket) (goto_pc_self ..) hlock)

/-- Call `k` is the lowest one that may not have returned. -/
structure Front (g : QueueSize) (s0 : Submission C) (m k : Nat) (s : Submission C) : Prop where
  phase : Phase g s0 m s
  drawn : k < s.drawn
  before : ∀ j < k, s.pc j = .returned

theorem Front.solo (h : Front g s0 m k s) (h0 : AtRest g s0)
    (hroom : s0.drawn + m < s0.acked + g.qs) (hrun : Solo g k s t) : Front g s0 m k t where
  phase := h.phase.solo h0 hroom hrun
  drawn := by
    rw [hrun.frame.1]
    exact h.drawn
  before j hj := by
    rw [hrun.frame.2 j (Nat.ne_of_lt hj)]
    exact h.before j hj

/-- The lowest call is the next to be swept, so its mark does not survive `move_tail`. -/
theorem Front.mark_down (h : Front g s0 m k s) (hroom : s0.drawn + m < s0.acked + g.qs)
    (hsettled : s.Settled g) (hpc : s.pc k = .loadMark) : s.tailMark (s.pos g k) = false := by
  have hring := h.phase.ring
  have hposted : s.standing.stage k = .posted := congrArg EnqueuePc.stage hpc
  rw [(counted_reached h.phase.launched.reached).pos_eq h.drawn, Bool.eq_false_iff]
  intro hup
  obtain ⟨j, hmod, hj, hle⟩ := (hring.mark_iff (k % g.qs)).mp hup
  have hjk : j = k := hring.owner_unique (by rw [hj]; rfl) (by rw [hposted]; rfl) hmod
  subst hjk
  have hle : s.swept ≤ j := hle
  have hswept : s.swept = j := by
    rcases Nat.lt_or_eq_of_le hle with hlt | heq
    · have hret := (stage_returned_iff _).mpr (h.before _ hlt)
      exact absurd (hring.swept_of_left s.swept (.inr hret)) (Nat.lt_irrefl _)
    · exact heq
  have hdrawn := h.drawn
  have hhi := h.phase.launched.hi
  rw [Submission.Settled, hswept, h.phase.launched.acked] at hsettled
  exact hsettled hup (by omega)

theorem Front.returns_loadTail (h : Front g s0 m k s) (h0 : AtRest g s0)
    (hroom : s0.drawn + m < s0.acked + g.qs) (hpc : s.pc k = .loadTail) : Returns g k s := by
  obtain ⟨t, ht, htpc, htlock, hend⟩ := h.phase.sweeps.solo_release (by rw [hpc]; rfl)
  obtain ⟨v, hv, hret⟩ : Returns g k t :=
    returns_swept htpc htlock ((h.solo h0 hroom ht).mark_down hroom (hend hpc) htpc)
  exact ⟨v, ht.trans hv, hret⟩

theorem Front.returns_takeTailLock (h : Front g s0 m k s) (h0 : AtRest g s0)
    (hroom : s0.drawn + m < s0.acked + g.qs) (hlock : s.tailLock = false)
    (hpc : s.pc k = .takeTailLock) : Returns g k s := by
  have hstep : enqueueStep g s k = some ({ s with tailLock := true }.goto k .loadTail) := by
    simp only [enqueueStep, hpc, hlock]
    rfl
  exact .head hstep ((h.solo h0 hroom (.single hstep)).returns_loadTail h0 hroom
    (goto_pc_self ..))

theorem Front.returns_loadTailLock (h : Front g s0 m k s) (h0 : AtRest g s0)
    (hroom : s0.drawn + m < s0.acked + g.qs) (hlock : s.tailLock = false)
    (hpc : s.pc k = .loadTailLock) : Returns g k s := by
  have hstep : enqueueStep g s k = some (s.goto k .takeTailLock) := by
    simp only [enqueueStep, hpc, hlock]
    rfl
  exact .head hstep ((h.solo h0 hroom (.single hstep)).returns_takeTailLock h0 hroom hlock
    (goto_pc_self ..))

theorem Front.returns_loadMark (h : Front g s0 m k s) (h0 : AtRest g s0)
    (hroom : s0.drawn + m < s0.acked + g.qs) (hlock : s.tailLock = false)
    (hpc : s.pc k = .loadMark) : Returns g k s := by
  cases hmark : s.tailMark (s.pos g k) with
  | false => exact returns_swept hpc hlock hmark
  | true =>
    have hstep : enqueueStep g s k = some (s.goto k .loadTailLock) := by
      simp only [enqueueStep, hpc]
      exact congrArg (fun p => some (s.goto k p)) (if_pos hmark)
    exact .head hstep ((h.solo h0 hroom (.single hstep)).returns_loadTailLock h0 hroom hlock
      (goto_pc_self ..))

/-- Before its mark is stored, the call has its count and writes its command. -/
theorem Front.returns_waiting (h : Front g s0 m k s) (h0 : AtRest g s0) (hfit : Fits g s0 m)
    (hlock : s.tailLock = false)
    (hst : (s.pc k).stage = .waiting ∨ (s.pc k).stage = .writing) : Returns g k s := by
  have hroom := h0.room_of_fits hfit
  have hnot : s.pc k ≠ .returned := by
    intro hpc
    rw [hpc] at hst
    rcases hst with hst | hst <;> cases hst
  have hlo : s0.drawn ≤ k := by
    rcases Nat.lt_or_ge k s0.drawn with hlt | hge
    · exact absurd (h.phase.launched.old k hlt) hnot
    · exact hge
  have hdrawn := h.drawn
  have hhi := h.phase.launched.hi
  have htest : Proceeds g s k :=
    (h.phase.launched.test_iff h0.room.1 hroom hdrawn hnot).mpr (hfit k hlo (by omega)).2
  obtain ⟨u, hu, hupc, hul⟩ := solo_post htest hst
  obtain ⟨t, ht, hend⟩ :=
    (h.solo h0 hroom hu).returns_loadMark h0 hroom (hul.trans hlock) hupc
  exact ⟨t, hu.trans ht, hend⟩

/-- The lowest call can return, once `tail_lock` is free. -/
theorem Front.returns (h : Front g s0 m k s) (h0 : AtRest g s0) (hfit : Fits g s0 m)
    (hlock : s.tailLock = false) : Returns g k s := by
  have hroom := h0.room_of_fits hfit
  cases hpc : s.pc k with
  | undrawn =>
    have hnone := ((counted_reached h.phase.launched.reached).undrawn_iff k).mp hpc
    exact absurd h.drawn (Nat.not_lt.mpr hnone)
  | returned => exact ⟨s, .refl, hpc, hlock⟩
  | waitRelaxed | waitAcquire =>
    exact h.returns_waiting h0 hfit hlock (.inl (congrArg EnqueuePc.stage hpc))
  | copy i | storeMark =>
    exact h.returns_waiting h0 hfit hlock (.inr (congrArg EnqueuePc.stage hpc))
  | loadMark => exact h.returns_loadMark h0 hroom hlock hpc
  | loadTailLock => exact h.returns_loadTailLock h0 hroom hlock hpc
  | takeTailLock => exact h.returns_takeTailLock h0 hroom hlock hpc
  | addTicket => exact returns_addTicket hpc hlock
  | loadTail | loadHead | exchangeMark | writeDb | storeTail | freeTailLock =>
    have hup := h.phase.sweeps.held.locked (i := k) (by rw [hpc]; rfl)
    rw [hlock] at hup
    cases hup

/-! ## All of them -/

/-- Whoever holds `tail_lock` gives it back. -/
theorem Phase.unlock (h : Phase g s0 m s) (h0 : AtRest g s0)
    (hroom : s0.drawn + m < s0.acked + g.qs) :
    ∃ t, Reachable (· = s) (fun s a s' => submitStep g (s0.drawn + m) s a = some s') t ∧
      Phase g s0 m t ∧ t.drawn = s.drawn ∧ t.tailLock = false := by
  cases hlock : s.tailLock with
  | false => exact ⟨s, .init rfl, h, rfl, hlock⟩
  | true =>
    obtain ⟨k, hk⟩ := h.sweeps.held.locked_iff.mp hlock
    obtain ⟨t, ht, -, hfree, -⟩ := h.sweeps.solo_release hk
    exact ⟨t, ht.reachable, h.solo h0 hroom ht, ht.frame.1, hfree⟩

/-- One after the other, the calls that have been made return. -/
theorem Phase.drain (h : Phase g s0 m s) (h0 : AtRest g s0) (hfit : Fits g s0 m) {n : Nat}
    (hn : n ≤ s.drawn) :
    ∃ t, Reachable (· = s) (fun s a s' => submitStep g (s0.drawn + m) s a = some s') t ∧
      Phase g s0 m t ∧ t.drawn = s.drawn ∧ t.tailLock = false ∧ ∀ j < n, t.pc j = .returned := by
  have hroom := h0.room_of_fits hfit
  induction n with
  | zero =>
    obtain ⟨t, ht, hp, hd, hfree⟩ := h.unlock h0 hroom
    exact ⟨t, ht, hp, hd, hfree, fun j hj => absurd hj (Nat.not_lt_zero j)⟩
  | succ n ih =>
    obtain ⟨t, ht, hp, hd, hfree, hret⟩ := ih (Nat.le_of_succ_le hn)
    have hfront : Front g s0 m n t := ⟨hp, by omega, hret⟩
    obtain ⟨u, hu, hnret, hufree⟩ := hfront.returns h0 hfit hfree
    refine ⟨u, ht.trans hu.reachable, hp.solo h0 hroom hu, hu.frame.1.trans hd, hufree,
      fun j hj => ?_⟩
    rcases Nat.lt_succ_iff_lt_or_eq.mp hj with hlt | rfl
    · rw [hu.frame.2 j (Nat.ne_of_lt hlt)]
      exact hret j hlt
    · exact hnret

theorem AtRest.launched_reached (h0 : AtRest g s0)
    (h : Reachable (· = s0) (fun s a s' => submitStep g (s0.drawn + m) s a = some s') s) :
    Launched g s0 m s ∧ Sweeps g s0 s := by
  induction h with
  | init he =>
    subst he
    exact ⟨h0.launched m, h0.sweeps⟩
  | step _ hs ih => exact ⟨ih.1.step hs, ih.2.step ih.1 hs⟩

theorem Enqueues.waits_of_late (hs : Enqueues g s k s') (hlate : ¬ Proceeds g s k)
    (h : (s.pc k).stage = .undrawn ∨ (s.pc k).stage = .waiting) :
    (s'.pc k).stage = .undrawn ∨ (s'.pc k).stage = .waiting := by
  cases hs with
  | spin => exact h
  | seen =>
    rw [goto_pc_self]
    exact .inr rfl
  | pass _ htest => exact absurd htest hlate
  | busy hpc => rcases hpc with hpc | hpc <;> rw [hpc] at h <;> rcases h with h | h <;> cases h
  | copy hpc | post hpc | stays hpc | leave hpc | unlocked hpc | take hpc | loadTail hpc | room hpc
  | full hpc | sweep hpc | unswept hpc | writeDb hpc | storeTail hpc | free hpc | finish hpc =>
    rw [hpc] at h
    rcases h with h | h <;> cases h

/-- A call whose ticket is not its slot's count does not get past the wait. -/
theorem AtRest.waits (h0 : AtRest g s0) (hroom : s0.drawn + m < s0.acked + g.qs)
    (hlo : s0.drawn ≤ k) (hlate : ¬ k % 2 ^ (31 + g.qsLog2) < 2 ^ 32)
    (h : Reachable (· = s0) (fun s a s' => submitStep g (s0.drawn + m) s a = some s') s) :
    (s.pc k).stage = .undrawn ∨ (s.pc k).stage = .waiting := by
  induction h with
  | init he =>
    subst he
    rw [((counted_reached h0.reached).undrawn_iff k).mpr hlo]
    exact .inl rfl
  | @step s s' a hr hs ih =>
    have hl := (h0.launched_reached hr).1
    rcases submit_cases hs with ⟨-, c, rfl⟩ | ⟨j, henq⟩ | ⟨r, rfl⟩
    · show (Function.update s.pc s.drawn _ k).stage = _ ∨
        (Function.update s.pc s.drawn _ k).stage = _
      by_cases hk : k = s.drawn
      · rw [hk, Function.update_self]
        exact .inr rfl
      · rw [Function.update_of_ne hk]
        exact ih
    · by_cases hj : k = j
      · subst hj
        refine henq.waits_of_late (fun htest => hlate ?_) ih
        have hcounts := henq.counts
        exact (hl.test_iff h0.room.1 hroom (hl.lt_drawn hcounts.1) hcounts.2.1).mp htest
      · rw [henq.frame.pc_ne k hj]
        exact ih
    · exact ih

end GidsStack.Queue
