/-
  GidsStack.Queue.Slots

  The submission queue as a ring of slots: while `in_ticket` has not wrapped, every step of
  the queue is a step of the abstract ring or none at all, so the ring's invariant holds in
  every run (`Sound.ring`). What the holder of `tail_lock` and the holder of `head_lock` know
  is added to it, and the doorbell, whose advances tile the numbers announced so far.
-/

import GidsStack.Lib.SlotRing
import GidsStack.Queue.Counters

namespace GidsStack.Queue

open Laps Lib Lock SlotRing

variable {C : Type} {g : QueueSize} {s s' : Submission C}

/-! ## The ring -/

def EnqueuePc.stage : EnqueuePc → Stage
  | .undrawn => .undrawn
  | .waitRelaxed | .waitAcquire => .waiting
  | .copy _ | .storeMark => .writing
  | .addTicket => .leaving
  | .returned => .returned
  | _ => .posted

def Submission.ring (s : Submission C) : Ring where
  drawn := s.drawn
  stage k := (s.pc k).stage
  mark := s.tailMark
  finished := s.finished
  acked := s.acked
  swept := s.swept
  head := s.head

/-- What the holder of `tail_lock` knows at `pc`. -/
def TailFact (g : QueueSize) (s : Submission C) : EnqueuePc → Prop
  | .loadTail | .freeTailLock => s.tail = s.swept ∧ s.rung = s.swept
  | .loadHead c n => c = s.tail ∧ s.rung = s.tail ∧ c + n = s.swept
  | .exchangeMark c n =>
    c = s.tail ∧ s.rung = s.tail ∧ c + n = s.swept ∧ s.swept + 1 < s.head + g.qs
  | .writeDb c n => c = s.tail ∧ s.rung = s.tail ∧ c + n = s.swept ∧ 0 < n
  | .storeTail c n => c = s.tail ∧ c + n = s.swept ∧ s.rung = s.swept ∧ 0 < n
  | _ => True

/-- What the holder of `head_lock` knows at `pc`. -/
def HeadFact (g : QueueSize) (s : Submission C) : ConsumePc → Prop
  | .idle => True
  | .scan | .freeHeadLock => s.head = s.acked ∧ s.acked = s.read
  | .loadSqHead n => s.head = s.acked ∧ n = s.read % g.qs
  | .addTicket n _ mv => s.head + mv = s.acked ∧ n = s.read % g.qs ∧ s.acked < s.read
  | .addHead mv => s.head + mv = s.acked ∧ s.acked = s.read

/-- How many halves of its command a call has copied. -/
def EnqueuePc.halves : EnqueuePc → Nat
  | .undrawn | .waitRelaxed | .waitAcquire => 0
  | .copy i => i
  | _ => 2

structure Sound (g : QueueSize) (s : Submission C) : Prop where
  ring : s.ring.Inv g.qs
  tailHeld : Held (fun k => (s.pc k).inTail = true) s.tailLock
  tailFree : s.tailLock = false → s.tail = s.swept ∧ s.rung = s.swept
  tail : ∀ k, TailFact g s (s.pc k)
  headFree : s.headLock = false → s.head = s.acked ∧ s.acked = s.read
  consumer : ∀ t, HeadFact g s (s.consumer t)
  acked_le : s.acked ≤ s.read
  read_le : s.read ≤ s.reported
  le_reported : ∀ r ∈ s.reports, r ≤ s.reported
  reported_le : s.reported ≤ s.rung
  sorted : s.reports.Pairwise (· ≤ ·)
  unread : ∀ r ∈ s.reports.drop s.dequeued, s.read ≤ r
  rung_le : s.rung ≤ s.swept
  db : s.db = s.rung % g.qs
  advances : Tiles 0 s.advances s.rung
  /-- a slot holds the command of its call until the command has been consumed -/
  intact : ∀ k, (s.pc k).stage.owns = true ∨ (s.pc k = .returned ∧ s.acked ≤ k) →
    ∀ i < (s.pc k).halves, s.vaddr (k % g.qs) i = s.cmd k i

/-! ## Steps of the calls -/

theorem stage_returned_iff (pc : EnqueuePc) : pc.stage = .returned ↔ pc = .returned := by
  cases pc <;> simp [EnqueuePc.stage]

theorem stage_afterMove (c n : Nat) : (afterMove c n).stage = .posted := by
  rcases afterMove_eq c n with ⟨-, h⟩ | ⟨-, h⟩ <;> rw [h] <;> rfl

/-- A call that moves, in the ring. -/
theorem goto_ring (s : Submission C) (k : Nat) (pc : EnqueuePc) :
    (s.goto k pc).ring =
      { s.ring with stage := Function.update s.ring.stage k pc.stage } :=
  congrArg (fun f => ({ s.ring with stage := f } : Ring))
    (map_update EnqueuePc.stage s.pc k pc)

/-- A call that stays on its stage leaves the ring as it is. -/
theorem goto_ring_same (s : Submission C) {k : Nat} {pc : EnqueuePc}
    (h : (s.pc k).stage = pc.stage) : (s.goto k pc).ring = s.ring := by
  rw [goto_ring, ← h]
  exact congrArg (fun f => ({ s.ring with stage := f } : Ring))
    (Function.update_eq_self k s.ring.stage)

/-- The test of the wait loops, without wrap-around. -/
theorem Sound.free_of_test (h : Sound g s) (hc : Counted g s) (hn : s.drawn < 4294967296) {k : Nat}
    (hk : k < s.drawn) (hpc : s.pc k = .waitAcquire)
    (htest : s.tickets (s.pos g k) = getId (s.ticket k) g.qsLog2) :
    s.finished (k % g.qs) + uses g.qs s.acked (k % g.qs) = 2 * (k / g.qs) := by
  have hpos := Nat.mod_lt k g.qs_pos
  have hle : uses g.qs s.acked (k % g.qs) ≤ s.finished (k % g.qs) + 1 :=
    h.ring.uses_le g.qs_pos hpos
  have hnot : ¬ k / g.qs < s.finished (k % g.qs) := by
    intro hlt
    have := (stage_returned_iff _).mp ((h.ring.returned_iff k).mpr hlt)
    rw [hpc] at this
    cases this
  -- `2 * (k / qs) ≤ k`, so nothing wraps
  have hhalf : k / g.qs * 2 ≤ k :=
    Nat.le_trans (Nat.mul_le_mul_left _ g.two_le_qs) (Nat.div_mul_le_self k g.qs)
  have hid : getId (s.ticket k) g.qsLog2 = k / g.qs * 2 := by
    rw [hc.ticket k hk, Nat.mod_eq_of_lt (by omega), getId, Nat.shiftRight_eq_div_pow,
      Nat.mod_eq_of_lt]
    · rfl
    · show k / g.qs * 2 < _
      omega
  rw [hc.pos_eq hk, hc.tickets _ hpos, hid] at htest
  omega

/-- A step of a call is a step of the ring or none. -/
theorem Sound.ring_enqueue (h : Sound g s) (hc : Counted g s) (hn : s.drawn < 4294967296) {k : Nat}
    (hs : Enqueues g s k s') : s'.ring.Inv g.qs := by
  have hq := g.qs_pos
  have hk : k < s.drawn := by
    have hdrawn := hs.counts.1
    rw [Ne, hc.undrawn_iff] at hdrawn
    omega
  have hpos := hc.pos_eq hk
  have hswept : s.swept ≤ s.drawn := h.ring.swept_le
  have hstage : ∀ pc, s.pc k = pc → s.ring.stage k = pc.stage := by
    intro pc hpc
    show (s.pc k).stage = _
    rw [hpc]
  have hsame : ∀ pc, (s.pc k).stage = pc.stage → (s.goto k pc).ring.Inv g.qs := by
    intro pc hst
    rw [goto_ring_same s hst]
    exact h.ring
  cases hs with
  | spin hpc => exact h.ring
  | seen hpc | stays hpc | unlocked hpc | loadTail hpc | room hpc => exact hsame _ (by rw [hpc]; rfl)
  | busy hpc => exact hsame _ (by rcases hpc with hpc | hpc <;> rw [hpc] <;> rfl)
  | full hpc | unswept hpc => exact hsame _ (by rw [hpc, stage_afterMove]; rfl)
  | pass hpc htest =>
    rw [goto_ring]
    exact h.ring.step hq (.pass (hstage _ hpc) (h.free_of_test hc hn hk hpc htest))
  | copy hpc =>
    rw [goto_ring_same]
    · exact h.ring
    · show (s.pc k).stage = _
      rw [hpc]
      split <;> rfl
  | post hpc =>
    rw [goto_ring, hpos]
    exact h.ring.step hq (.post (hstage _ hpc))
  | leave hpc hmark =>
    rw [goto_ring]
    rw [hpos] at hmark
    exact h.ring.step hq (.leave (hstage _ hpc) hmark)
  | take hpc | writeDb hpc | storeTail hpc | free hpc =>
    rw [goto_ring_same]
    · exact h.ring
    · show (s.pc k).stage = _
      rw [hpc]
      rfl
  | sweep hpc hmark =>
    have hfact := h.tail k
    rw [hpc] at hfact
    obtain ⟨-, -, hsum, hroom⟩ := hfact
    rw [add32_of_lt (by omega), hsum, g.land_qsMinus1] at hmark ⊢
    rw [goto_ring_same]
    · exact h.ring.step hq (.sweep hroom hmark)
    · show (s.pc k).stage = _
      rw [hpc]
      rfl
  | finish hpc =>
    rw [goto_ring, hpos]
    exact h.ring.step hq (.finish (hstage _ hpc))

/-- Who is outside knows nothing. -/
theorem tailFact_outside {pc : EnqueuePc} (h : pc.inTail = false) (s : Submission C) :
    TailFact g s pc := by
  cases pc <;> trivial

theorem tailFact_afterMove {c n : Nat} (hc : c = s.tail) (hrung : s.rung = s.tail)
    (hsum : c + n = s.swept) : TailFact g s (afterMove c n) := by
  rcases afterMove_eq c n with ⟨hn, h⟩ | ⟨hn, h⟩
  · rw [h]
    exact ⟨hc, hrung, hsum, by omega⟩
  · rw [h]
    show s.tail = s.swept ∧ s.rung = s.swept
    omega

/-- What call `k` knows of the tail after its step. -/
theorem Sound.tailFact_enqueue (h : Sound g s) (hc : Counted g s) (hn : s.drawn < 4294967296)
    {k : Nat} (hs : Enqueues g s k s') : TailFact g s' (s'.pc k) := by
  have hfact := h.tail k
  have hswept : s.swept ≤ s.drawn := h.ring.swept_le
  have hswept' : s'.swept ≤ s'.drawn := (h.ring_enqueue hc hn hs).swept_le
  have hhead : s.head ≤ s.swept := Nat.le_trans h.ring.head_le h.ring.acked_le
  have hroom : s.swept < s.head + g.qs := h.ring.room
  cases hs with
  | spin hpc => exact hfact
  | copy hpc =>
    rw [goto_pc_self]
    split <;> trivial
  | take hpc hlock =>
    rw [goto_pc_self]
    exact h.tailFree hlock
  | loadTail hpc =>
    rw [hpc] at hfact
    rw [goto_pc_self]
    exact ⟨rfl, hfact.2.trans hfact.1.symm, hfact.1⟩
  | @room c n hpc hne =>
    rw [hpc] at hfact
    rw [goto_pc_self]
    obtain ⟨hc, hrung, hsum⟩ := hfact
    refine ⟨hc, hrung, hsum, ?_⟩
    -- the next slot is not the head's, so the tail is not a whole ring ahead of it
    rw [add32_of_lt (by omega : c + n < 4294967296), hsum, add32, g.pos_eq, g.land_qsMinus1] at hne
    show s.swept + 1 < s.head + g.qs
    by_contra hge
    have heq : s.swept + 1 = s.head + g.qs := by omega
    rw [heq, Nat.add_mod_right] at hne
    exact hne rfl
  | full hpc =>
    rw [hpc] at hfact
    rw [goto_pc_self]
    exact tailFact_afterMove (s := s.goto k _) hfact.1 hfact.2.1 hfact.2.2
  | sweep hpc hmark =>
    rw [hpc] at hfact
    rw [goto_pc_self]
    obtain ⟨hc, hrung, hsum, -⟩ := hfact
    refine ⟨hc, hrung, ?_⟩
    replace hswept' : s.swept + 1 ≤ s.drawn := hswept'
    rw [add32_of_lt (by omega)]
    show _ = s.swept + 1
    omega
  | unswept hpc =>
    rw [hpc] at hfact
    rw [goto_pc_self]
    exact tailFact_afterMove (s := s.goto k _) hfact.1 hfact.2.1 hfact.2.2.1
  | writeDb hpc =>
    rw [hpc] at hfact
    rw [goto_pc_self]
    obtain ⟨hc, hrung, hsum, hpos⟩ := hfact
    refine ⟨hc, hsum, ?_, hpos⟩
    show s.rung + _ = s.swept
    omega
  | storeTail hpc =>
    rw [hpc] at hfact
    rw [goto_pc_self]
    obtain ⟨-, hsum, hrung, -⟩ := hfact
    refine ⟨?_, hrung⟩
    show add32 _ _ = s.swept
    rw [add32_of_lt (by omega), hsum]
  | seen | pass | post | stays | leave | busy | unlocked | free | finish =>
    rw [goto_pc_self]
    trivial

/-- Only the holder of `tail_lock` moves the tail. -/
theorem Enqueues.tail_kept {k : Nat} (hs : Enqueues g s k s') (h : (s.pc k).inTail = false) :
    s'.tail = s.tail ∧ s'.rung = s.rung ∧ s'.swept = s.swept := by
  cases hs with
  | sweep hpc | writeDb hpc | storeTail hpc =>
    rw [hpc] at h
    cases h
  | _ => exact ⟨rfl, rfl, rfl⟩

/-- The lock is free after a step only if it was free before, or given back with the tail
    stored. -/
theorem Sound.tailFree_enqueue (h : Sound g s) {k : Nat} (hs : Enqueues g s k s')
    (hfree : s'.tailLock = false) : s'.tail = s'.swept ∧ s'.rung = s'.swept := by
  have hfact := h.tail k
  have hnotfree : (s.pc k).inTail = true → s.tailLock ≠ false := by
    intro hin hl
    rw [h.tailHeld.locked hin] at hl
    cases hl
  cases hs with
  | take => cases hfree
  | free hpc =>
    rw [hpc] at hfact
    exact hfact
  | sweep hpc | writeDb hpc | storeTail hpc => exact absurd hfree (hnotfree (by rw [hpc]; rfl))
  | _ => exact h.tailFree hfree

/-- Marks, doorbell and commands after a step of call `k`. -/
theorem Sound.db_enqueue (h : Sound g s) (hn : s.drawn < 4294967296) {k : Nat}
    (hs : Enqueues g s k s') :
    s.rung ≤ s'.rung ∧ s'.rung ≤ s'.swept ∧ s'.db = s'.rung % g.qs ∧
      Tiles 0 s'.advances s'.rung := by
  have hfact := h.tail k
  have hswept : s.swept ≤ s.drawn := h.ring.swept_le
  cases hs with
  | sweep => exact ⟨Nat.le_refl _, Nat.le_succ_of_le h.rung_le, h.db, h.advances⟩
  | @writeDb c n hpc =>
    rw [hpc] at hfact
    obtain ⟨hc, hrung, hsum, hpos⟩ := hfact
    have hcr : c = s.rung := by omega
    refine ⟨Nat.le_add_right _ _, ?_, ?_, ?_⟩
    · show s.rung + n ≤ s.swept
      omega
    · show add32 c n &&& g.qsMinus1 = (s.rung + n) % g.qs
      rw [g.land_qsMinus1, add32_of_lt (by omega), hcr]
    · show Tiles 0 (s.advances ++ [(c, add32 c n)]) (s.rung + n)
      rw [add32_of_lt (by omega), hcr]
      exact h.advances.snoc (by omega)
  | _ => exact ⟨Nat.le_refl _, h.rung_le, h.db, h.advances⟩

/-- A call writes to no slot that holds another call's command. -/
theorem Sound.owner_alone (h : Sound g s) {j k : Nat} (hjk : j ≠ k)
    (hk : (s.pc k).stage.owns = true)
    (hj : (s.pc j).stage.owns = true ∨ (s.pc j = .returned ∧ s.acked ≤ j)) :
    j % g.qs ≠ k % g.qs := by
  intro hmod
  have hack : k < s.acked + g.qs := (h.ring.owner k hk).2
  rcases hj with hown | ⟨hret, hacked⟩
  · exact hjk (h.ring.owner_unique hown hk hmod)
  · -- a call that has returned is at least a lap behind the owner, and its command consumed
    have hlt : j / g.qs < s.finished (j % g.qs) :=
      (h.ring.returned_iff j).mp ((stage_returned_iff _).mpr hret)
    rw [hmod, show s.finished (k % g.qs) = k / g.qs from (h.ring.owner k hk).1] at hlt
    have hjk' : j < k := by
      by_contra hge
      have := Nat.div_le_div_right (c := g.qs) (Nat.le_of_not_lt hge)
      omega
    have := add_le_of_mod_eq hmod hjk'
    omega

/-- What call `k` has copied after its step. -/
theorem Sound.intact_self (h : Sound g s) {k : Nat} (hpos : s.pos g k = k % g.qs)
    (hs : Enqueues g s k s')
    (hk : (s'.pc k).stage.owns = true ∨ (s'.pc k = .returned ∧ s'.acked ≤ k)) :
    ∀ i < (s'.pc k).halves, s'.vaddr (k % g.qs) i = s'.cmd k i := by
  have hold : (s.pc k).stage.owns = true → (s.pc k).halves = 2 →
      ∀ i < (s'.pc k).halves, i < 2 → s.vaddr (k % g.qs) i = s.cmd k i := by
    intro hown hhalves i _ hi
    exact h.intact k (.inl hown) i (by rwa [hhalves])
  cases hs with
  | spin hpc => rcases hpc with hpc | hpc <;> rw [hpc] at hk <;> simp [EnqueuePc.stage, Stage.owns] at hk
  | seen hpc =>
    rw [goto_pc_self] at hk
    simp [EnqueuePc.stage, Stage.owns] at hk
  | pass hpc =>
    rw [goto_pc_self]
    exact fun i hi => absurd hi (Nat.not_lt_zero i)
  | @copy n hpc =>
    intro i hi
    have hi' : i ≤ n ∧ i < 2 := by
      rw [goto_pc_self] at hi
      split at hi
      · replace hi : i < n + 1 := hi
        omega
      · replace hi : i < 2 := hi
        omega
    show Function.update s.vaddr (s.pos g k) (Function.update (s.vaddr (s.pos g k)) n (s.cmd k n))
      (k % g.qs) i = s.cmd k i
    rw [hpos, Function.update_self]
    by_cases hin : i = n
    · rw [hin, Function.update_self]
    · rw [Function.update_of_ne hin]
      refine h.intact k (.inl (by rw [hpc]; rfl)) i ?_
      rw [hpc]
      show i < n
      omega
  | full hpc | unswept hpc =>
    intro i hi
    refine hold (by rw [hpc]; rfl) (by rw [hpc]; rfl) i hi ?_
    rw [goto_pc_self] at hi
    rcases afterMove_eq _ _ with ⟨-, he⟩ | ⟨-, he⟩ <;> rw [he] at hi <;> exact hi
  | busy hpc =>
    rcases hpc with hpc | hpc <;>
      exact fun i hi => hold (by rw [hpc]; rfl) (by rw [hpc]; rfl) i hi
        (by rw [goto_pc_self] at hi; exact hi)
  | post hpc | stays hpc | leave hpc | unlocked hpc | take hpc | loadTail hpc | room hpc
  | sweep hpc | writeDb hpc | storeTail hpc | free hpc | finish hpc =>
    exact fun i hi => hold (by rw [hpc]; rfl) (by rw [hpc]; rfl) i hi
      (by rw [goto_pc_self] at hi; exact hi)

/-- A step of a call writes at most to its own slot, and only while it owns it. -/
theorem Enqueues.vaddr {k : Nat} (hs : Enqueues g s k s') :
    s'.vaddr = s.vaddr ∨ ((∃ i, s.pc k = .copy i) ∧ ∀ p, p ≠ s.pos g k → s'.vaddr p = s.vaddr p) := by
  cases hs with
  | copy hpc => exact .inr ⟨⟨_, hpc⟩, fun p hp => Function.update_of_ne hp _ _⟩
  | _ => exact .inl rfl

/-- The entries after a step of call `k`. -/
theorem Sound.intact_enqueue (h : Sound g s) (hc : Counted g s) {k : Nat}
    (hs : Enqueues g s k s') (j : Nat)
    (hj : (s'.pc j).stage.owns = true ∨ (s'.pc j = .returned ∧ s'.acked ≤ j)) :
    ∀ i < (s'.pc j).halves, s'.vaddr (j % g.qs) i = s'.cmd j i := by
  have hf := hs.frame
  have hk : k < s.drawn := by
    have hdrawn := hs.counts.1
    rw [Ne, hc.undrawn_iff] at hdrawn
    omega
  by_cases hjk : j = k
  · subst hjk
    exact h.intact_self (hc.pos_eq hk) hs hj
  · rw [hf.acked, hf.pc_ne j hjk] at hj
    rw [hf.pc_ne j hjk, hf.cmd]
    have hsame : s'.vaddr (j % g.qs) = s.vaddr (j % g.qs) := by
      rcases hs.vaddr with hv | ⟨⟨i, hpc⟩, hv⟩
      · rw [hv]
      · refine hv _ ?_
        rw [hc.pos_eq hk]
        exact h.owner_alone hjk (by rw [hpc]; rfl) hj
    rw [hsame]
    exact h.intact j hj

theorem Sound.enqueue (h : Sound g s) (hc : Counted g s) (hn : s.drawn < 4294967296) {k : Nat}
    (hs : Enqueues g s k s') : Sound g s' := by
  have hf := hs.frame
  obtain ⟨hrung, hrung', hdb, hadvances⟩ := h.db_enqueue hn hs
  exact
    { ring := h.ring_enqueue hc hn hs
      tailHeld := hs.held h.tailHeld
      tailFree := h.tailFree_enqueue hs
      tail := fun j => by
        by_cases hjk : j = k
        · subst hjk
          exact h.tailFact_enqueue hc hn hs
        rw [hf.pc_ne j hjk]
        cases hin : (s.pc k).inTail with
        | false =>
          obtain ⟨htail, hrung, hswept⟩ := hs.tail_kept hin
          have hj := h.tail j
          cases hpc : s.pc j <;> rw [hpc] at hj <;>
            simp only [TailFact, htail, hrung, hswept, hf.head] at hj ⊢ <;> exact hj
        | true =>
          -- the lock is `k`'s, so `j` is outside
          refine tailFact_outside ?_ _
          rw [Bool.eq_false_iff]
          exact fun hinj => hjk (h.tailHeld.unique j k hinj hin)
      headFree := fun hl => by
        rw [hf.headLock] at hl
        rw [hf.head, hf.acked, hf.read]
        exact h.headFree hl
      consumer := fun t => by
        have ht := h.consumer t
        rw [hf.consumer]
        cases hpc : s.consumer t <;> rw [hpc] at ht <;>
          simp only [HeadFact, hf.head, hf.acked, hf.read] at ht ⊢ <;> exact ht
      acked_le := by
        rw [hf.acked, hf.read]
        exact h.acked_le
      read_le := by
        rw [hf.read, Submission.reported, hf.reports]
        exact h.read_le
      sorted := by
        rw [hf.reports]
        exact h.sorted
      unread := by
        rw [hf.reports, hf.dequeued, hf.read]
        exact h.unread
      le_reported := by
        rw [Submission.reported, hf.reports]
        exact h.le_reported
      reported_le := by
        rw [Submission.reported, hf.reports]
        exact Nat.le_trans h.reported_le hrung
      rung_le := hrung'
      db := hdb
      advances := hadvances
      intact := h.intact_enqueue hc hs }

/-! ## Steps of the consumers -/

theorem headFact_outside {pc : ConsumePc} (h : pc.inHead = false) (s : Submission C) :
    HeadFact g s pc := by
  cases pc <;> trivial

/-- A step of a consumer is a step of the ring or none. -/
theorem Sound.ring_consume (h : Sound g s) (hn : s.drawn < 4294967296) {t : Nat}
    (hs : Consumes g s t s') : s'.ring.Inv g.qs ∧ s.head ≤ s'.head := by
  have hq := g.qs_pos
  have hfact := h.consumer t
  have hread := h.read_le
  have hreported := h.reported_le
  have hrung := h.rung_le
  have hdrawn : s.swept ≤ s.drawn := h.ring.swept_le
  cases hs with
  | addTicket hpc | addTicketLast hpc =>
    rw [hpc] at hfact
    refine ⟨h.ring.step hq (.ack ?_), Nat.le_refl _⟩
    show s.acked < s.swept
    have := hfact.2.2
    omega
  | @addHead mv hpc =>
    rw [hpc] at hfact
    obtain ⟨hsum, hacked⟩ := hfact
    have hadd : add32 s.head mv = s.acked := by
      rw [add32_of_lt (by omega), hsum]
    refine ⟨?_, ?_⟩
    · show Ring.Inv g.qs { s.ring with head := add32 s.head mv }
      rw [hadd]
      exact h.ring.step hq (.free h.ring.head_le (Nat.le_refl _))
    · show s.head ≤ add32 s.head mv
      omega
  | _ => exact ⟨h.ring, Nat.le_refl _⟩

@[simp] theorem cgoto_consumer_self (s : Submission C) (t : Nat) (pc : ConsumePc) :
    (s.cgoto t pc).consumer t = pc :=
  Function.update_self ..

/-- What consumer `t` knows after its step. -/
theorem Sound.headFact_consume (h : Sound g s) (hc : Counted g s) (hn : s.drawn < 4294967296)
    {t : Nat} (hs : Consumes g s t s') : HeadFact g s' (s'.consumer t) := by
  have hfact := h.consumer t
  have hplace := hc.consumer t
  have hack := h.acked_le
  have hread := h.read_le
  have hreported := h.reported_le
  have hrung := h.rung_le
  have hdrawn : s.swept ≤ s.drawn := h.ring.swept_le
  have hroom : s.swept < s.head + g.qs := h.ring.room
  -- two counts at one place that are less than a lap apart are equal
  have hsame : ∀ n m, n % g.qs = m % g.qs → n ≤ m → m < n + g.qs → n = m :=
    fun n m hmod hle hlt => eq_of_mod_eq hmod (by omega) hlt
  cases hs with
  | busy | free =>
    rw [cgoto_consumer_self]
    trivial
  | take hpc hlock =>
    rw [cgoto_consumer_self]
    exact h.headFree hlock
  | scanNone hpc =>
    rw [hpc] at hfact
    rw [cgoto_consumer_self]
    exact hfact
  | @scan count r hpc hcount hr =>
    rw [hpc] at hfact
    rw [cgoto_consumer_self]
    refine ⟨hfact.1, ?_⟩
    -- a slot number fits in the 16-bit field
    have hlt := Nat.mod_lt r g.qs_pos
    have hqs := g.qs_le
    show r % g.qs &&& 65535 = r % g.qs
    rw [show (65535 : Nat) = 2 ^ 16 - 1 from rfl, Nat.and_two_pow_sub_one_eq_mod]
    exact Nat.mod_eq_of_lt (by omega)
  | @headMoved n hpc hne =>
    rw [hpc] at hfact
    rw [cgoto_consumer_self]
    obtain ⟨hhead, hslot⟩ := hfact
    refine ⟨hhead, hslot, ?_⟩
    show s.acked < s.read
    rcases Nat.lt_or_ge s.acked s.read with hlt | hge
    · exact hlt
    · rw [g.land_qsMinus1, hhead, hslot, show s.acked = s.read by omega] at hne
      exact absurd rfl hne
  | headStays hpc heq =>
    rw [hpc] at hfact
    rw [cgoto_consumer_self]
    obtain ⟨hhead, hslot⟩ := hfact
    refine ⟨hhead, ?_⟩
    rw [g.land_qsMinus1, hhead, hslot] at heq
    exact hsame s.acked s.read heq hack (by omega)
  | @addTicket n loc mv hpc hne =>
    rw [hpc] at hfact hplace
    rw [cgoto_consumer_self]
    obtain ⟨hsum, hslot, hlt⟩ := hfact
    rw [hplace.1, g.next_place, hslot] at hne
    refine ⟨?_, hslot, ?_⟩
    · show s.head + add32 mv 1 = s.acked + 1
      rw [add32_of_lt (by omega)]
      omega
    · show s.acked + 1 < s.read
      rcases Nat.lt_or_ge (s.acked + 1) s.read with hlt' | hge
      · exact hlt'
      · rw [show s.acked + 1 = s.read by omega] at hne
        exact absurd rfl hne
  | @addTicketLast n loc mv hpc heq =>
    rw [hpc] at hfact hplace
    rw [cgoto_consumer_self]
    obtain ⟨hsum, hslot, hlt⟩ := hfact
    rw [hplace.1, g.next_place, hslot] at heq
    refine ⟨?_, hsame (s.acked + 1) s.read heq hlt (by omega)⟩
    show s.head + add32 mv 1 = s.acked + 1
    rw [add32_of_lt (by omega)]
    omega
  | @addHead mv hpc =>
    rw [hpc] at hfact
    rw [cgoto_consumer_self]
    obtain ⟨hsum, hacked⟩ := hfact
    refine ⟨?_, hacked⟩
    show add32 s.head mv = s.acked
    rw [add32_of_lt (by omega), hsum]

/-- Only the holder of `head_lock` moves the head. -/
theorem Consumes.head_kept {t : Nat} (hs : Consumes g s t s') (h : (s.consumer t).inHead = false) :
    s'.head = s.head ∧ s'.acked = s.acked ∧ s'.read = s.read := by
  cases hs with
  | scan hpc | addTicket hpc | addTicketLast hpc | addHead hpc =>
    rw [hpc] at h
    cases h
  | _ => exact ⟨rfl, rfl, rfl⟩

theorem Sound.headFree_consume (h : Sound g s) (hc : Counted g s) {t : Nat}
    (hs : Consumes g s t s') (hfree : s'.headLock = false) :
    s'.head = s'.acked ∧ s'.acked = s'.read := by
  have hfact := h.consumer t
  have hnotfree : (s.consumer t).inHead = true → s.headLock ≠ false := by
    intro hin hl
    rw [hc.headHeld.locked hin] at hl
    cases hl
  cases hs with
  | busy | take => cases hfree
  | free hpc =>
    rw [hpc] at hfact
    exact hfact
  | scanNone hpc | scan hpc | headMoved hpc | headStays hpc | addTicket hpc | addTicketLast hpc
  | addHead hpc => exact absurd hfree (hnotfree (by rw [hpc]; rfl))

/-- What has been read of the controller's reports after a step of consumer `t`. -/
theorem Sound.read_consume (h : Sound g s) {t : Nat} (hs : Consumes g s t s') :
    s'.acked ≤ s'.read ∧ s'.read ≤ s.reported ∧
      (∀ r ∈ s.reports.drop s'.dequeued, s'.read ≤ r) := by
  have hfact := h.consumer t
  cases hs with
  | @scan count r hpc hcount hr =>
    obtain ⟨hlt, hget⟩ := List.getElem?_eq_some_iff.mp hr
    refine ⟨?_, h.le_reported r (List.mem_of_getElem? hr), ?_⟩
    · -- the entry is one that had not been read
      have hmem : r ∈ s.reports.drop s.dequeued := by
        rw [List.mem_drop_iff_getElem]
        exact ⟨count - 1, by omega, hget⟩
      exact Nat.le_trans h.acked_le (h.unread r hmem)
    · intro r' hr'
      obtain ⟨i, hi, hget'⟩ := List.mem_drop_iff_getElem.mp hr'
      replace hi : s.dequeued + count + i < s.reports.length := by
        rw [Nat.add_comm]
        exact hi
      rw [← hget']
      show r ≤ _
      rw [← hget]
      exact List.pairwise_iff_getElem.mp h.sorted _ _ hlt hi (by omega)
  | addTicket hpc | addTicketLast hpc =>
    rw [hpc] at hfact
    exact ⟨hfact.2.2, h.read_le, h.unread⟩
  | _ => exact ⟨h.acked_le, h.read_le, h.unread⟩

/-- Consumers count slots as consumed, and do nothing else to what is acknowledged. -/
theorem Consumes.acked_le {t : Nat} (hs : Consumes g s t s') : s.acked ≤ s'.acked := by
  cases hs with
  | addTicket | addTicketLast => exact Nat.le_succ _
  | _ => exact Nat.le_refl _

theorem Sound.consume (h : Sound g s) (hc : Counted g s) (hn : s.drawn < 4294967296) {t : Nat}
    (hs : Consumes g s t s') : Sound g s' := by
  have hf := hs.frame
  obtain ⟨hring, hhead⟩ := h.ring_consume hn hs
  obtain ⟨hacked, hread, hunread⟩ := h.read_consume hs
  exact
    { ring := hring
      tailHeld := by
        rw [hf.pc, hf.tailLock]
        exact h.tailHeld
      tailFree := by
        rw [hf.tailLock, hf.tail, hf.swept, hf.rung]
        exact h.tailFree
      tail := fun k => by
        have hk := h.tail k
        rw [hf.pc]
        cases hpc : s.pc k <;> rw [hpc] at hk <;>
          simp only [TailFact, hf.tail, hf.rung, hf.swept] at hk ⊢ <;> first | exact hk | skip
        exact ⟨hk.1, hk.2.1, hk.2.2.1, by omega⟩
      headFree := h.headFree_consume hc hs
      consumer := fun u => by
        by_cases hu : u = t
        · subst hu
          exact h.headFact_consume hc hn hs
        rw [hf.consumer_ne u hu]
        cases hin : (s.consumer t).inHead with
        | false =>
          obtain ⟨hhead, hacked, hread⟩ := hs.head_kept hin
          have hfact := h.consumer u
          cases hpc : s.consumer u <;> rw [hpc] at hfact <;>
            simp only [HeadFact, hhead, hacked, hread] at hfact ⊢ <;> exact hfact
        | true =>
          refine headFact_outside ?_ _
          rw [Bool.eq_false_iff]
          exact fun hui => hu (hc.headHeld.unique u t hui hin)
      acked_le := hacked
      read_le := by
        rw [Submission.reported, hf.reports]
        exact hread
      le_reported := by
        rw [Submission.reported, hf.reports]
        exact h.le_reported
      reported_le := by
        rw [Submission.reported, hf.reports, hf.rung]
        exact h.reported_le
      sorted := by
        rw [hf.reports]
        exact h.sorted
      unread := by
        rw [hf.reports]
        exact hunread
      rung_le := by
        rw [hf.rung, hf.swept]
        exact h.rung_le
      db := by
        rw [hf.db, hf.rung]
        exact h.db
      advances := by
        rw [hf.advances, hf.rung]
        exact h.advances
      intact := fun k hk => by
        rw [hf.pc] at hk ⊢
        rw [hf.vaddr, hf.cmd]
        exact h.intact k (hk.imp_right fun hret => ⟨hret.1, Nat.le_trans hs.acked_le hret.2⟩) }

/-! ## Runs -/

theorem sound_init (h : Submission.Init s) : Sound g s := by
  have hpc : ∀ k, s.pc k = .undrawn := fun k => by rw [h.pc]
  have hcons : ∀ t, s.consumer t = .idle := fun t => by rw [h.consumer]
  have hring : s.ring = ⟨0, fun _ => .undrawn, fun _ => false, fun _ => 0, 0, 0, 0⟩ := by
    rw [Submission.ring, h.drawn, h.pc, h.tailMark, h.finished, h.acked, h.swept, h.head]
    rfl
  exact
    { ring := by
        rw [hring]
        exact .init g.qs_pos
      tailHeld := by
        rw [h.tailLock]
        refine .none fun k hk => ?_
        rw [hpc] at hk
        cases hk
      tailFree := fun _ => by rw [h.tail, h.swept, h.rung, and_self]
      tail := fun k => by
        rw [hpc]
        trivial
      headFree := fun _ => by rw [h.head, h.acked, h.read, and_self]
      consumer := fun t => by
        rw [hcons]
        trivial
      acked_le := by rw [h.acked, h.read]
      read_le := by
        rw [h.read]
        exact Nat.zero_le _
      le_reported := by
        rw [h.reports]
        exact fun r hr => absurd hr List.not_mem_nil
      reported_le := by
        rw [Submission.reported, h.reports]
        exact Nat.zero_le _
      sorted := by
        rw [h.reports]
        exact .nil
      unread := by
        rw [h.reports, List.drop_nil]
        exact fun r hr => absurd hr List.not_mem_nil
      rung_le := by rw [h.rung, h.swept]
      db := by rw [h.db, h.rung, Nat.zero_mod]
      advances := by
        rw [h.advances, h.rung]
        exact .nil 0
      intact := fun k hk => by
        rw [hpc] at hk
        rcases hk with hk | ⟨hk, -⟩ <;> cases hk }

theorem Sound.draw (h : Sound g s) (c : Nat → C) : Sound g (draw s c) := by
  have hnew : s.pc s.drawn = .undrawn := by
    have hst := (h.ring.drawn_iff s.drawn).mpr (Nat.le_refl _)
    replace hst : (s.pc s.drawn).stage = .undrawn := hst
    cases hpc : s.pc s.drawn <;> rw [hpc] at hst <;> first | rfl | cases hst
  have hstage : (Queue.draw s c).ring =
      { s.ring with
        stage := Function.update s.ring.stage s.ring.drawn .waiting, drawn := s.ring.drawn + 1 } :=
    congrArg (fun f => ({ s.ring with stage := f, drawn := s.drawn + 1 } : Ring))
      (map_update EnqueuePc.stage s.pc s.drawn .waitRelaxed)
  have hpc : ∀ k, k ≠ s.drawn → (Queue.draw s c).pc k = s.pc k :=
    fun k hk => Function.update_of_ne hk _ _
  have hself : (Queue.draw s c).pc s.drawn = .waitRelaxed := Function.update_self ..
  exact
    { h with
      ring := by
        rw [hstage]
        exact h.ring.step g.qs_pos .draw
      tailHeld := by
        refine h.tailHeld.keep fun k => ?_
        by_cases hk : k = s.drawn
        · rw [hk, hself, hnew]
          exact Iff.rfl
        · rw [hpc k hk]
      tail := fun k => by
        by_cases hk : k = s.drawn
        · rw [hk, hself]
          trivial
        · rw [hpc k hk]
          exact h.tail k
      intact := fun k hk => by
        by_cases hkd : k = s.drawn
        · rw [hkd, hself] at hk
          rcases hk with hk | ⟨hk, -⟩ <;> cases hk
        · rw [hpc k hkd] at hk ⊢
          show ∀ i < _, s.vaddr (k % g.qs) i = Function.update s.cmd s.drawn c k i
          rw [Function.update_of_ne hkd]
          exact h.intact k hk }

theorem Sound.report (h : Sound g s) {r : Nat} (hr : s.reported ≤ r) (hrung : r ≤ s.rung) :
    Sound g { s with reports := s.reports ++ [r] } := by
  have hlast : ({ s with reports := s.reports ++ [r] } : Submission C).reported = r :=
    List.getLastD_concat
  exact
    { h with
      read_le := by
        rw [hlast]
        exact Nat.le_trans h.read_le hr
      le_reported := fun r' hr' => by
        rw [hlast]
        rcases List.mem_append.mp hr' with hr' | hr'
        · exact Nat.le_trans (h.le_reported r' hr') hr
        · rw [List.mem_singleton.mp hr']
      reported_le := by
        rw [hlast]
        exact hrung
      sorted := by
        refine List.pairwise_append.mpr ⟨h.sorted, List.pairwise_singleton _ _, ?_⟩
        intro a ha b hb
        rw [List.mem_singleton.mp hb]
        exact Nat.le_trans (h.le_reported a ha) hr
      unread := fun r' hr' => by
        have hread := h.read_le
        have hmem : r' ∈ (s.reports ++ [r]).drop s.dequeued := hr'
        rw [List.drop_append] at hmem
        rcases List.mem_append.mp hmem with hmem | hmem
        · exact h.unread r' hmem
        · rw [List.mem_singleton.mp (List.mem_of_mem_drop hmem)]
          exact Nat.le_trans hread hr }

theorem Sound.step (h : Sound g s) (hc : Counted g s) (hn : s.drawn < 4294967296) {a : Act C}
    (hs : step g s a = some s') : Sound g s' := by
  cases a with
  | draw c =>
    rw [← Option.some.inj hs]
    exact h.draw c
  | enqueue k => exact h.enqueue hc hn (enqueues_of_step hs)
  | takeHeadLock t => exact h.consume hc hn (consumes_of_take hs)
  | scanMarks t count => exact h.consume hc hn (consumes_of_scan hs)
  | consume t => exact h.consume hc hn (consumes_of_consume hs)
  | report r =>
    rw [Queue.step] at hs
    split at hs
    case isTrue hr =>
      rw [← Option.some.inj hs]
      exact h.report hr.1 hr.2
    case isFalse => cases hs

/-- Calls are not unmade. -/
theorem step_drawn_le {a : Act C} (hs : step g s a = some s') : s.drawn ≤ s'.drawn := by
  cases a with
  | draw c =>
    rw [← Option.some.inj hs]
    exact Nat.le_succ _
  | enqueue k => exact Nat.le_of_eq (enqueues_of_step hs).frame.drawn.symm
  | takeHeadLock t => exact Nat.le_of_eq (consumes_of_take (g := g) hs).frame.drawn.symm
  | scanMarks t count => exact Nat.le_of_eq (consumes_of_scan hs).frame.drawn.symm
  | consume t => exact Nat.le_of_eq (consumes_of_consume hs).frame.drawn.symm
  | report r =>
    rw [Queue.step] at hs
    split at hs
    case isTrue =>
      rw [← Option.some.inj hs]
    case isFalse => cases hs

/-- The invariant of every run of fewer than `2^32` calls. -/
theorem sound_reached (h : Reached g s) (hn : s.drawn < 4294967296) : Sound g s := by
  induction h with
  | init h0 => exact sound_init h0
  | step hr hs ih =>
    have hlt := Nat.lt_of_le_of_lt (step_drawn_le hs) hn
    exact (ih hlt).step (counted_reached hr) hlt hs

end GidsStack.Queue
