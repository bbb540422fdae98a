/-
  GidsStack.Lib.SlotRing

  A ring of slots handed out by a counter of tickets.

  A caller draws a number, waits until the slot of that number is free again, fills it, marks
  it and waits until the mark is taken away; then it leaves. One sweeper at a time takes the
  marks away in the order of the numbers, and never gets a whole ring ahead of `head`. A slot
  is free again when its last caller has left and a consumer has acknowledged the number, and
  both events are counted in the slot: the caller of lap `n` waits for the count `2 * n`.

  The two counts of a slot may come in either order. `Ring.Inv` says why nothing goes wrong
  all the same: at most one caller at a time is past the wait at a slot, and a mark is always
  that of the next number to be swept there.
-/

import GidsStack.Lib.Laps
import GidsStack.Lib.Transition

namespace GidsStack.SlotRing

open Laps

/-- What a caller has done. -/
inductive Stage
  | undrawn
  | waiting
  | writing
  | posted
  | leaving
  | returned
  deriving DecidableEq

/-- A caller that is past the wait and has not left. -/
def Stage.owns : Stage → Bool
  | .writing | .posted | .leaving => true
  | _ => false

/-- A caller that has marked its slot. -/
def Stage.marked : Stage → Bool
  | .posted | .leaving | .returned => true
  | _ => false

structure Ring where
  drawn : Nat
  stage : Nat → Stage
  mark : Nat → Bool
  /-- how many callers have left, per slot -/
  finished : Nat → Nat
  /-- how many numbers have been acknowledged -/
  acked : Nat
  swept : Nat
  head : Nat

variable {q : Nat} {r r' : Ring} {k : Nat}

/-! ## Steps -/

inductive Step (q : Nat) (r : Ring) : Ring → Prop
  | draw : Step q r
      { r with stage := Function.update r.stage r.drawn .waiting, drawn := r.drawn + 1 }
  | pass {k : Nat} (hk : r.stage k = .waiting)
      (hfree : r.finished (k % q) + uses q r.acked (k % q) = 2 * (k / q)) :
      Step q r { r with stage := Function.update r.stage k .writing }
  | post {k : Nat} (hk : r.stage k = .writing) :
      Step q r
        { r with
          stage := Function.update r.stage k .posted
          mark := Function.update r.mark (k % q) true }
  | sweep (hroom : r.swept + 1 < r.head + q) (hmark : r.mark (r.swept % q) = true) :
      Step q r
        { r with
          mark := Function.update r.mark (r.swept % q) false
          swept := r.swept + 1 }
  | leave {k : Nat} (hk : r.stage k = .posted) (hmark : r.mark (k % q) = false) :
      Step q r { r with stage := Function.update r.stage k .leaving }
  | finish {k : Nat} (hk : r.stage k = .leaving) :
      Step q r
        { r with
          stage := Function.update r.stage k .returned
          finished := Function.update r.finished (k % q) (r.finished (k % q) + 1) }
  | ack (hlt : r.acked < r.swept) : Step q r { r with acked := r.acked + 1 }
  | free {n : Nat} (hle : r.head ≤ n) (hack : n ≤ r.acked) : Step q r { r with head := n }

/-! ## The invariant -/

structure Ring.Inv (q : Nat) (r : Ring) : Prop where
  drawn_iff : ∀ k, r.stage k = .undrawn ↔ r.drawn ≤ k
  /-- the callers of a slot leave in order -/
  returned_iff : ∀ k, r.stage k = .returned ↔ k / q < r.finished (k % q)
  /-- past the wait, everything before is finished and acknowledged -/
  owner : ∀ k, (r.stage k).owns = true → r.finished (k % q) = k / q ∧ k < r.acked + q
  mark_iff : ∀ i, r.mark i = true ↔ ∃ k, k % q = i ∧ r.stage k = .posted ∧ r.swept ≤ k
  swept_of_left : ∀ k, r.stage k = .leaving ∨ r.stage k = .returned → k < r.swept
  marked_of_swept : ∀ k < r.swept, (r.stage k).marked = true
  head_le : r.head ≤ r.acked
  acked_le : r.acked ≤ r.swept
  room : r.swept < r.head + q

theorem Stage.marked_iff (s : Stage) :
    s.marked = true ↔ s = .posted ∨ s = .leaving ∨ s = .returned := by
  cases s <;> simp [Stage.marked]

namespace Ring.Inv

/-- At most one caller owns a slot. -/
theorem owner_unique (h : r.Inv q) {j k : Nat} (hj : (r.stage j).owns = true)
    (hk : (r.stage k).owns = true) (hmod : j % q = k % q) : j = k := by
  have hfj := (h.owner j hj).1
  rw [hmod, (h.owner k hk).1] at hfj
  exact eq_of_mod_of_div hmod hfj.symm

/-- A number that has been acknowledged is at most one ahead of the callers that have left. -/
theorem uses_le (h : r.Inv q) (hq : 0 < q) {i : Nat} (hi : i < q) :
    uses q r.acked i ≤ r.finished i + 1 := by
  rcases Nat.eq_zero_or_pos (uses q r.acked i) with h0 | hpos
  · omega
  -- the last acknowledged number at the slot
  have hmod : ((uses q r.acked i - 1) * q + i) % q = i := by
    rw [Nat.mul_comm, Nat.mul_add_mod, Nat.mod_eq_of_lt hi]
  have hdiv : ((uses q r.acked i - 1) * q + i) / q = uses q r.acked i - 1 := by
    rw [Nat.mul_comm, Nat.mul_add_div hq, Nat.div_eq_of_lt hi, Nat.add_zero]
  have hlt : (uses q r.acked i - 1) * q + i < r.acked := by
    rw [← div_lt_uses_iff hq, hmod, hdiv]
    omega
  have hmarked := h.marked_of_swept _ (Nat.lt_of_lt_of_le hlt h.acked_le)
  cases hs : r.stage ((uses q r.acked i - 1) * q + i) with
  | undrawn | waiting | writing =>
    rw [hs] at hmarked
    cases hmarked
  | posted | leaving =>
    have hown := (h.owner _ (by rw [hs]; rfl)).1
    rw [hmod, hdiv] at hown
    omega
  | returned =>
    have hret := (h.returned_iff _).mp hs
    rw [hmod, hdiv] at hret
    omega

/-- A caller whose count has come is the only one past the wait at its slot. -/
theorem of_pass (h : r.Inv q) (hq : 0 < q) (hk : r.stage k = .waiting)
    (hfree : r.finished (k % q) + uses q r.acked (k % q) = 2 * (k / q)) :
    r.finished (k % q) = k / q ∧ k < r.acked + q := by
  have hle := h.uses_le hq (Nat.mod_lt k hq)
  have hnot : ¬ k / q < r.finished (k % q) := fun hlt => by
    have := (h.returned_iff k).mpr hlt
    rw [hk] at this
    cases this
  refine ⟨by omega, ?_⟩
  rw [← div_le_uses_iff hq]
  omega

/-- Only what has been drawn is swept. -/
theorem swept_le (h : r.Inv q) : r.swept ≤ r.drawn := by
  by_contra hlt
  have hm := h.marked_of_swept r.drawn (by omega)
  rw [(h.drawn_iff _).mpr (Nat.le_refl _)] at hm
  cases hm

/-- The mark of the next slot to sweep is that of the next number. -/
theorem posted_of_mark (h : r.Inv q) (hmark : r.mark (r.swept % q) = true) :
    r.stage r.swept = .posted := by
  obtain ⟨k, hmod, hk, hle⟩ := (h.mark_iff _).mp hmark
  have hown := (h.owner k (by rw [hk]; rfl)).2
  have hacked := h.acked_le
  have hkq : k = r.swept := eq_of_mod_eq hmod (by omega) (by omega)
  rwa [hkq] at hk

/-! ### One lemma for each step -/

/-- A caller that moves between two stages leaves the others where they are. -/
theorem update_eq_iff {f : Nat → Stage} {k : Nat} {s t u : Stage} (hk : f k = s) (hs : u ≠ s)
    (ht : u ≠ t) (j : Nat) : Function.update f k t j = u ↔ f j = u := by
  by_cases hj : j = k
  · subst hj
    rw [Function.update_self, hk]
    exact ⟨fun he => absurd he.symm ht, fun he => absurd he.symm hs⟩
  · rw [Function.update_of_ne hj]

theorem draw (h : r.Inv q) : Ring.Inv q
    { r with stage := Function.update r.stage r.drawn .waiting, drawn := r.drawn + 1 } := by
  have hnew : r.stage r.drawn = .undrawn := (h.drawn_iff _).mpr (Nat.le_refl _)
  refine
    { drawn_iff := fun k => ?_
      returned_iff := fun k =>
        (update_eq_iff hnew (by decide) (by decide) k).trans (h.returned_iff k)
      owner := fun k hk => ?_
      mark_iff := fun i => (h.mark_iff i).trans <| exists_congr fun k => and_congr_right fun _ =>
        and_congr_left fun _ => (update_eq_iff hnew (by decide) (by decide) k).symm
      swept_of_left := fun k hk => h.swept_of_left k <|
        hk.imp (update_eq_iff hnew (by decide) (by decide) k).mp
          (update_eq_iff hnew (by decide) (by decide) k).mp
      marked_of_swept := fun k hk => ?_
      head_le := h.head_le
      acked_le := h.acked_le
      room := h.room }
  · show Function.update r.stage r.drawn .waiting k = .undrawn ↔ r.drawn + 1 ≤ k
    by_cases hk : k = r.drawn
    · subst hk
      rw [Function.update_self]
      exact ⟨fun he => (nomatch he), fun he => absurd he (Nat.not_succ_le_self _)⟩
    · rw [Function.update_of_ne hk, h.drawn_iff]
      omega
  · replace hk : (Function.update r.stage r.drawn .waiting k).owns = true := hk
    by_cases hkd : k = r.drawn
    · subst hkd
      rw [Function.update_self] at hk
      cases hk
    · rw [Function.update_of_ne hkd] at hk
      exact h.owner k hk
  · show (Function.update r.stage r.drawn .waiting k).marked = true
    have hm := h.marked_of_swept k hk
    rw [Function.update_of_ne]
    · exact hm
    · rintro rfl
      rw [hnew] at hm
      cases hm

theorem pass (h : r.Inv q) (hq : 0 < q) (hk : r.stage k = .waiting)
    (hfree : r.finished (k % q) + uses q r.acked (k % q) = 2 * (k / q)) :
    Ring.Inv q { r with stage := Function.update r.stage k .writing } := by
  refine
    { drawn_iff := fun j => (update_eq_iff hk (by decide) (by decide) j).trans (h.drawn_iff j)
      returned_iff := fun j => (update_eq_iff hk (by decide) (by decide) j).trans (h.returned_iff j)
      owner := fun j hj => ?_
      mark_iff := fun i => (h.mark_iff i).trans <| exists_congr fun j => and_congr_right fun _ =>
        and_congr_left fun _ => (update_eq_iff hk (by decide) (by decide) j).symm
      swept_of_left := fun j hj => h.swept_of_left j <|
        hj.imp (update_eq_iff hk (by decide) (by decide) j).mp
          (update_eq_iff hk (by decide) (by decide) j).mp
      marked_of_swept := fun j hj => ?_
      head_le := h.head_le
      acked_le := h.acked_le
      room := h.room }
  · replace hj : (Function.update r.stage k .writing j).owns = true := hj
    by_cases hjk : j = k
    · subst hjk
      exact h.of_pass hq hk hfree
    · rw [Function.update_of_ne hjk] at hj
      exact h.owner j hj
  · show (Function.update r.stage k .writing j).marked = true
    have hm := h.marked_of_swept j hj
    rw [Function.update_of_ne]
    · exact hm
    · rintro rfl
      rw [hk] at hm
      cases hm

theorem post (h : r.Inv q) (hk : r.stage k = .writing) :
    Ring.Inv q
      { r with
        stage := Function.update r.stage k .posted
        mark := Function.update r.mark (k % q) true } := by
  -- what is not marked yet has not been swept
  have hswept : r.swept ≤ k := by
    by_contra hlt
    have hm := h.marked_of_swept k (by omega)
    rw [hk] at hm
    cases hm
  refine
    { drawn_iff := fun j => (update_eq_iff hk (by decide) (by decide) j).trans (h.drawn_iff j)
      returned_iff := fun j => (update_eq_iff hk (by decide) (by decide) j).trans (h.returned_iff j)
      owner := fun j hj => ?_
      mark_iff := fun i => ?_
      swept_of_left := fun j hj => h.swept_of_left j <|
        hj.imp (update_eq_iff hk (by decide) (by decide) j).mp
          (update_eq_iff hk (by decide) (by decide) j).mp
      marked_of_swept := fun j hj => ?_
      head_le := h.head_le
      acked_le := h.acked_le
      room := h.room }
  · replace hj : (Function.update r.stage k .posted j).owns = true := hj
    by_cases hjk : j = k
    · subst hjk
      exact h.owner j (by rw [hk]; rfl)
    · rw [Function.update_of_ne hjk] at hj
      exact h.owner j hj
  · show Function.update r.mark (k % q) true i = true ↔
      ∃ j, j % q = i ∧ Function.update r.stage k .posted j = .posted ∧ r.swept ≤ j
    by_cases hi : i = k % q
    · subst hi
      rw [Function.update_self]
      exact ⟨fun _ => ⟨k, rfl, Function.update_self .., hswept⟩, fun _ => rfl⟩
    · rw [Function.update_of_ne hi, h.mark_iff]
      refine exists_congr fun j => and_congr_right fun hj => and_congr_left fun _ => ?_
      rw [Function.update_of_ne]
      rintro rfl
      exact hi hj.symm
  · show (Function.update r.stage k .posted j).marked = true
    by_cases hjk : j = k
    · subst hjk
      rw [Function.update_self]
      rfl
    · rw [Function.update_of_ne hjk]
      exact h.marked_of_swept j hj

theorem sweep (h : r.Inv q) (hroom : r.swept + 1 < r.head + q)
    (hmark : r.mark (r.swept % q) = true) :
    Ring.Inv q
      { r with
        mark := Function.update r.mark (r.swept % q) false
        swept := r.swept + 1 } := by
  have hposted := h.posted_of_mark hmark
  have hacked := h.acked_le
  refine
    { drawn_iff := h.drawn_iff
      returned_iff := h.returned_iff
      owner := h.owner
      mark_iff := fun i => ?_
      swept_of_left := fun k hk => Nat.lt_succ_of_lt (h.swept_of_left k hk)
      marked_of_swept := fun k hk => ?_
      head_le := h.head_le
      acked_le := Nat.le_succ_of_le hacked
      room := hroom }
  · show Function.update r.mark (r.swept % q) false i = true ↔
      ∃ k, k % q = i ∧ r.stage k = .posted ∧ r.swept + 1 ≤ k
    by_cases hi : i = r.swept % q
    · subst hi
      rw [Function.update_self]
      refine ⟨fun he => (nomatch he), ?_⟩
      rintro ⟨k, hmod, hk, hle⟩
      -- a second mark at the slot would be a lap ahead of its owner
      have hown := (h.owner k (by rw [hk]; rfl)).2
      have hlap := add_le_of_mod_eq hmod.symm hle
      omega
    · rw [Function.update_of_ne hi, h.mark_iff]
      refine exists_congr fun k => and_congr_right fun hk => and_congr_right fun _ => ?_
      refine ⟨fun hle => Nat.lt_of_le_of_ne hle ?_, Nat.le_of_succ_le⟩
      rintro rfl
      exact hi hk.symm
  · rcases Nat.lt_succ_iff_lt_or_eq.mp hk with hlt | rfl
    · exact h.marked_of_swept k hlt
    · show (r.stage r.swept).marked = true
      rw [hposted]
      rfl

theorem leave (h : r.Inv q) (hk : r.stage k = .posted) (hmark : r.mark (k % q) = false) :
    Ring.Inv q { r with stage := Function.update r.stage k .leaving } := by
  -- the mark is gone, so the number has been swept
  have hswept : k < r.swept := by
    by_contra hge
    have hm := (h.mark_iff (k % q)).mpr ⟨k, rfl, hk, by omega⟩
    rw [hmark] at hm
    cases hm
  refine
    { drawn_iff := fun j => (update_eq_iff hk (by decide) (by decide) j).trans (h.drawn_iff j)
      returned_iff := fun j => (update_eq_iff hk (by decide) (by decide) j).trans (h.returned_iff j)
      owner := fun j hj => ?_
      mark_iff := fun i => (h.mark_iff i).trans <| exists_congr fun j => and_congr_right fun _ =>
        and_congr_left_iff.mpr fun hle => ?_
      swept_of_left := fun j hj => ?_
      marked_of_swept := fun j hj => ?_
      head_le := h.head_le
      acked_le := h.acked_le
      room := h.room }
  · replace hj : (Function.update r.stage k .leaving j).owns = true := hj
    by_cases hjk : j = k
    · subst hjk
      exact h.owner j (by rw [hk]; rfl)
    · rw [Function.update_of_ne hjk] at hj
      exact h.owner j hj
  · show r.stage j = .posted ↔ Function.update r.stage k .leaving j = .posted
    rw [Function.update_of_ne]
    rintro rfl
    exact Nat.not_lt.mpr hle hswept
  · replace hj : Function.update r.stage k .leaving j = .leaving ∨
        Function.update r.stage k .leaving j = .returned := hj
    by_cases hjk : j = k
    · subst hjk
      exact hswept
    · rw [Function.update_of_ne hjk] at hj
      exact h.swept_of_left j hj
  · show (Function.update r.stage k .leaving j).marked = true
    by_cases hjk : j = k
    · subst hjk
      rw [Function.update_self]
      rfl
    · rw [Function.update_of_ne hjk]
      exact h.marked_of_swept j hj

theorem finish (h : r.Inv q) (hk : r.stage k = .leaving) :
    Ring.Inv q
      { r with
        stage := Function.update r.stage k .returned
        finished := Function.update r.finished (k % q) (r.finished (k % q) + 1) } := by
  have hkown : (r.stage k).owns = true := by rw [hk]; rfl
  have hfin := (h.owner k hkown).1
  refine
    { drawn_iff := fun j => (update_eq_iff hk (by decide) (by decide) j).trans (h.drawn_iff j)
      returned_iff := fun j => ?_
      owner := fun j hj => ?_
      mark_iff := fun i => (h.mark_iff i).trans <| exists_congr fun j => and_congr_right fun _ =>
        and_congr_left fun _ => (update_eq_iff hk (by decide) (by decide) j).symm
      swept_of_left := fun j hj => ?_
      marked_of_swept := fun j hj => ?_
      head_le := h.head_le
      acked_le := h.acked_le
      room := h.room }
  · show Function.update r.stage k .returned j = .returned ↔
      j / q < Function.update r.finished (k % q) (r.finished (k % q) + 1) (j % q)
    by_cases hjk : j = k
    · subst hjk
      rw [Function.update_self, Function.update_self, hfin]
      exact ⟨fun _ => Nat.lt_succ_self _, fun _ => rfl⟩
    · rw [Function.update_of_ne hjk, h.returned_iff]
      by_cases hmod : j % q = k % q
      · have hne : j / q ≠ k / q := fun hdiv => hjk (eq_of_mod_of_div hmod hdiv)
        rw [hmod, Function.update_self, hfin]
        omega
      · rw [Function.update_of_ne hmod]
  · replace hj : (Function.update r.stage k .returned j).owns = true := hj
    have hjk : j ≠ k := by
      rintro rfl
      rw [Function.update_self] at hj
      cases hj
    rw [Function.update_of_ne hjk] at hj
    have hmod : j % q ≠ k % q := fun hmod => hjk (h.owner_unique hj hkown hmod)
    show Function.update r.finished (k % q) (r.finished (k % q) + 1) (j % q) = j / q ∧ _
    rw [Function.update_of_ne hmod]
    exact h.owner j hj
  · replace hj : Function.update r.stage k .returned j = .leaving ∨
        Function.update r.stage k .returned j = .returned := hj
    by_cases hjk : j = k
    · subst hjk
      exact h.swept_of_left j (.inl hk)
    · rw [Function.update_of_ne hjk] at hj
      exact h.swept_of_left j hj
  · show (Function.update r.stage k .returned j).marked = true
    by_cases hjk : j = k
    · subst hjk
      rw [Function.update_self]
      rfl
    · rw [Function.update_of_ne hjk]
      exact h.marked_of_swept j hj

theorem ack (h : r.Inv q) (hlt : r.acked < r.swept) :
    Ring.Inv q { r with acked := r.acked + 1 } :=
  { h with
    owner := fun k hk => ⟨(h.owner k hk).1, by
      show k < r.acked + 1 + q
      have := (h.owner k hk).2
      omega⟩
    head_le := Nat.le_succ_of_le h.head_le
    acked_le := hlt }

theorem free (h : r.Inv q) {n : Nat} (hle : r.head ≤ n) (hack : n ≤ r.acked) :
    Ring.Inv q { r with head := n } :=
  { h with
    head_le := hack
    room := Nat.lt_of_lt_of_le h.room (Nat.add_le_add_right hle q) }

/-- Every step keeps the invariant. -/
theorem step (h : r.Inv q) (hq : 0 < q) (hs : Step q r r') : r'.Inv q := by
  cases hs with
  | draw => exact h.draw
  | pass hk hfree => exact h.pass hq hk hfree
  | post hk => exact h.post hk
  | sweep hroom hmark => exact h.sweep hroom hmark
  | leave hk hmark => exact h.leave hk hmark
  | finish hk => exact h.finish hk
  | ack hlt => exact h.ack hlt
  | free hle hack => exact h.free hle hack

/-- The ring before its first caller. -/
theorem init (hq : 0 < q) :
    Ring.Inv q ⟨0, fun _ => .undrawn, fun _ => false, fun _ => 0, 0, 0, 0⟩ where
  drawn_iff k := ⟨fun _ => Nat.zero_le k, fun _ => rfl⟩
  returned_iff k := ⟨fun h => (nomatch h), fun h => absurd h (Nat.not_lt_zero _)⟩
  owner k h := nomatch h
  mark_iff i := ⟨fun h => (nomatch h), fun ⟨_, _, h, _⟩ => (nomatch h)⟩
  swept_of_left k h := h.elim (fun h => (nomatch h)) fun h => (nomatch h)
  marked_of_swept k h := absurd h (Nat.not_lt_zero _)
  head_le := Nat.le_refl _
  acked_le := Nat.le_refl _
  room := by
    show 0 < 0 + q
    omega

end Ring.Inv

end GidsStack.SlotRing
