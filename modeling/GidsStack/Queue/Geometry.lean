/-
  GidsStack.Queue.Geometry

  The completion ring: the sizes that the `QueuePair` constructor and
  `nvm_admin_cq_create` settle on (queue.h, admin.cpp, queue.cpp), and the index and the
  phase that `cq_poll`, `cq_try_poll` and `cq_try_peek_head` compute from a free-running
  32-bit head (nvm_parallel_queue.h).

  A controller posts at its tail, from position 0 in phase 1, and changes the phase each time
  the tail comes back to position 0. Mask and shift follow it exactly on rings whose size is
  a power of two (`follows_controller_iff`); the constructor checks no such thing.
-/

import GidsStack.Queue.Submission

namespace GidsStack.Queue

/-! ## Construction -/

/-- What the sizes of a queue pair depend on: the argument, the capabilities register of the
    controller (`mqes` is a 16-bit field), its page size and what mapping the completion
    queue's memory returned. -/
structure PairInput where
  queueDepth : Nat
  mqes : Nat
  cqr : Bool
  ctrlPageSize : Nat
  cqDmaPageSize : Nat
  cqDmaIoaddrs : Nat
  sqDmaIoaddrs : Nat
  queueDepth_lt : queueDepth < 18446744073709551616
  mqes_lt : mqes < 65536

/-- The fields of `nvm_queue_t` that polling uses. -/
structure CompletionQueue where
  qs : Nat
  qsMinus1 : Nat
  qsLog2 : Nat
  deriving DecidableEq, Repr

namespace PairInput

variable (inp : PairInput)

def maxQs : Nat := inp.mqes + 1

/-- `cq_size` before `std::min`. -/
def cqLimit : Nat :=
  if inp.cqr then (if 4096 ≤ inp.mqes + 1 then 4096 else inp.mqes + 1) else inp.mqes + 1

/-- `cq_size`. -/
def cqSize : Nat := min inp.queueDepth inp.cqLimit

/-- `qs` in `nvm_admin_cq_create`, which has its own size for 0. -/
def cqQs : Nat := if inp.cqSize = 0 then min (inp.cqDmaPageSize / 16) inp.maxQs else inp.cqSize

/-- The checks that `nvm_admin_cq_create`, `nvm_admin_sq_create` and `nvm_queue_clear` make of
    a size, with the number of pages of the queue. -/
def sizeRefused (qs entrySize ioaddrs : Nat) : Bool :=
  decide (qs < 2) || decide (65536 < qs) || decide (inp.maxQs < qs) ||
    decide (ioaddrs < (qs - 1) % 65536 * entrySize / inp.ctrlPageSize + 1)

/-- The constructor; `none` when it throws. `sq_size` is 4096. -/
def queuePair : Option CompletionQueue :=
  if inp.sizeRefused inp.cqQs 16 inp.cqDmaIoaddrs then none
  else if inp.sizeRefused 4096 64 inp.sqDmaIoaddrs then none
  else some ⟨inp.cqQs, inp.cqQs - 1, Nat.log2 inp.cqQs⟩

end PairInput

/-! ## Polling -/

/-- `~x` of a `uint32_t`. -/
def not32 (x : Nat) : Nat := 4294967295 - x

namespace CompletionQueue

variable (q : CompletionQueue)

/-- `loc`. -/
def loc (curHead : Nat) : Nat := curHead &&& q.qsMinus1

/-- `search_phase`. -/
def searchPhase (curHead : Nat) : Bool := (not32 (curHead >>> q.qsLog2)) &&& 1 != 0

end CompletionQueue

/-! ## The controller -/

/-- Where a controller posts next, and with which phase. -/
structure CqTail where
  pos : Nat
  phase : Bool
  deriving DecidableEq, Repr

/-- The tail moves on by one entry. -/
def CqTail.next (qs : Nat) (t : CqTail) : CqTail :=
  if t.pos + 1 = qs then ⟨0, !t.phase⟩ else ⟨t.pos + 1, t.phase⟩

/-- The tail after `n` completions. -/
def tailAfter (qs : Nat) : Nat → CqTail
  | 0 => ⟨0, true⟩
  | n + 1 => (tailAfter qs n).next qs

/-- After `n` completions were consumed, `head` is `n` in 32 bits, and the `i`-th entry from
    there is looked for where the controller posts completion `n + i`, in its phase. -/
def FollowsController (q : CompletionQueue) : Prop :=
  ∀ n i, q.loc (add32 (n % 4294967296) i) = (tailAfter q.qs (n + i)).pos ∧
    q.searchPhase (add32 (n % 4294967296) i) = (tailAfter q.qs (n + i)).phase

/-! ## Rings -/

theorem tailAfter_eq {qs : Nat} (h : 0 < qs) (n : Nat) :
    tailAfter qs n = ⟨n % qs, decide (n / qs % 2 = 0)⟩ := by
  induction n with
  | zero => simp [tailAfter]
  | succ n ih =>
    rw [tailAfter, ih, CqTail.next]
    have hmod := Nat.mod_lt n h
    have hdm := Nat.div_add_mod n qs
    by_cases hlast : n % qs + 1 = qs
    · have hsucc : n + 1 = qs * (n / qs + 1) := by
        rw [Nat.mul_succ]
        omega
      have hdiv : (n + 1) / qs = n / qs + 1 := by rw [hsucc, Nat.mul_div_cancel_left _ h]
      rw [if_pos hlast, hdiv, hsucc, Nat.mul_mod_right]
      congr 1
      by_cases hp : n / qs % 2 = 0
      · have hp' : ¬(n / qs + 1) % 2 = 0 := by omega
        simp [hp, hp']
      · have hp' : (n / qs + 1) % 2 = 0 := by omega
        simp [hp, hp']
    · have hlt : n % qs + 1 < qs := by omega
      have hsucc : n + 1 = n % qs + 1 + qs * (n / qs) := by omega
      have hdiv : (n + 1) / qs = n / qs := by
        rw [hsucc, Nat.add_mul_div_left _ _ h, Nat.div_eq_of_lt hlt, Nat.zero_add]
      have hmod' : (n + 1) % qs = n % qs + 1 := by
        rw [hsucc, Nat.add_mul_mod_self_left, Nat.mod_eq_of_lt hlt]
      rw [if_neg hlast, hdiv, hmod']

theorem searchPhase_eq (q : CompletionQueue) {h : Nat} (hlt : h < 4294967296) :
    q.searchPhase h = !h.testBit q.qsLog2 := by
  have hshift : h >>> q.qsLog2 < 4294967296 :=
    Nat.lt_of_le_of_lt (Nat.shiftRight_le h q.qsLog2) hlt
  rw [CompletionQueue.searchPhase, not32, Nat.and_one_is_mod, Nat.testBit, Nat.one_and_eq_mod_two]
  have hcases : (4294967295 - h >>> q.qsLog2) % 2 = 1 - h >>> q.qsLog2 % 2 := by omega
  rw [hcases]
  rcases Nat.mod_two_eq_zero_or_one (h >>> q.qsLog2) with h0 | h1
  · rw [h0]
    rfl
  · rw [h1]
    rfl

/-- The 32-bit counter of entry `n + i` keeps the bits below bit 32. -/
theorem add32_head (n i : Nat) : add32 (n % 4294967296) i = (n + i) % 4294967296 :=
  Nat.mod_add_mod n _ i

/-- On a ring of `2 ^ k` entries mask and shift are remainder and quotient, also when the
    counter wraps around. -/
theorem follows_of_two_pow {k : Nat} (hk : k ≤ 16) :
    FollowsController ⟨2 ^ k, 2 ^ k - 1, k⟩ := by
  intro n i
  have hdvd : 2 ^ k ∣ 4294967296 := Nat.pow_dvd_pow 2 (show k ≤ 32 by omega)
  rw [add32_head, tailAfter_eq (Nat.two_pow_pos k), searchPhase_eq _ (Nat.mod_lt _ (by decide))]
  refine ⟨?_, ?_⟩
  · show (n + i) % 4294967296 &&& (2 ^ k - 1) = (n + i) % 2 ^ k
    rw [Nat.and_two_pow_sub_one_eq_mod, Nat.mod_mod_of_dvd _ hdvd]
  · have hbit : ((n + i) % 2 ^ 32).testBit k = (n + i).testBit k := by
      rw [Nat.testBit_mod_two_pow, decide_eq_true (show k < 32 by omega), Bool.true_and]
    show (!((n + i) % 2 ^ 32).testBit k) = decide ((n + i) / 2 ^ k % 2 = 0)
    rw [hbit, Nat.testBit_eq_decide_div_mod_eq]
    rcases Nat.mod_two_eq_zero_or_one ((n + i) / 2 ^ k) with h0 | h1
    · rw [h0]
      rfl
    · rw [h1]
      rfl

/-- A ring whose entry `qs` is looked for at position 0 has a power of two of entries. -/
theorem isPowerOfTwo_of_follows {q : CompletionQueue} (hpos : 0 < q.qs) (hlt : q.qs < 4294967296)
    (hmask : q.qsMinus1 = q.qs - 1) (h : FollowsController q) : q.qs.isPowerOfTwo := by
  have hloc := (h q.qs 0).1
  rw [add32_head, Nat.add_zero, Nat.mod_eq_of_lt hlt, tailAfter_eq hpos, CompletionQueue.loc,
    hmask] at hloc
  rw [← Nat.and_sub_one_eq_zero_iff_isPowerOfTwo (by omega), hloc]
  exact Nat.mod_self q.qs

theorem PairInput.queuePair_some {inp : PairInput} {q : CompletionQueue}
    (h : inp.queuePair = some q) :
    q = ⟨inp.cqQs, inp.cqQs - 1, Nat.log2 inp.cqQs⟩ ∧ 2 ≤ inp.cqQs ∧ inp.cqQs ≤ 65536 := by
  rw [queuePair] at h
  split at h
  · exact absurd h (by simp)
  · rename_i hcq
    split at h
    · exact absurd h (by simp)
    · simp only [sizeRefused, Bool.or_eq_true, decide_eq_true_eq, not_or] at hcq
      exact ⟨(Option.some.inj h).symm, by omega, by omega⟩

/-- The completion queue of an accepted pair is polled as the controller fills it if and only
    if its size is a power of two. -/
theorem follows_controller_iff (inp : PairInput) (q : CompletionQueue)
    (h : inp.queuePair = some q) :
    FollowsController q ↔
      Nat.isPowerOfTwo (if min inp.queueDepth inp.cqLimit = 0
        then min (inp.cqDmaPageSize / 16) (inp.mqes + 1) else min inp.queueDepth inp.cqLimit) := by
  obtain ⟨rfl, h2, h16⟩ := PairInput.queuePair_some h
  show _ ↔ inp.cqQs.isPowerOfTwo
  constructor
  · exact isPowerOfTwo_of_follows (Nat.lt_of_lt_of_le Nat.two_pos h2)
      (Nat.lt_of_le_of_lt h16 (by decide)) rfl
  · rintro ⟨k, hk⟩
    have hk16 : k ≤ 16 := by
      rw [hk] at h16
      exact (Nat.pow_le_pow_iff_right (by decide)).mp h16
    rw [hk, Nat.log2_two_pow]
    exact follows_of_two_pow hk16

/-- A queue pair of the given depth on a controller with the largest MQES. -/
def pairOfDepth (depth : Nat) (h : depth < 18446744073709551616) : PairInput where
  queueDepth := depth
  mqes := 65535
  cqr := true
  ctrlPageSize := 4096
  cqDmaPageSize := 4096
  cqDmaIoaddrs := 16
  sqDmaIoaddrs := 64
  queueDepth_lt := h
  mqes_lt := by decide

theorem depth1024_follows : FollowsController ⟨1024, 1023, 10⟩ :=
  (follows_controller_iff (pairOfDepth 1024 (by decide)) ⟨1024, 1023, 10⟩ (by decide +kernel)).mpr
    ⟨10, by decide +kernel⟩

/-- The constructor accepts a depth of 1000; completion 1000 is posted at position 0 and looked
    for at position 992. -/
theorem depth1000_astray :
    (pairOfDepth 1000 (by decide)).queuePair = some ⟨1000, 999, 9⟩ ∧
      ¬FollowsController ⟨1000, 999, 9⟩ := by
  refine ⟨by decide +kernel, fun h => ?_⟩
  have hloc := (h 1000 0).1
  rw [tailAfter_eq (by decide)] at hloc
  exact absurd hloc (by decide)

end GidsStack.Queue
