/-
  GidsStack.PageCache.WarpCopy

  The two copies that the active lanes of a warp share: `warp_memcpy` (util.h) and
  `write_to_queue` (window_buffer.h).  Each lane starts at its rank among the active lanes and
  goes on by their number.

  `write_to_queue` counts the lanes below its own.  `warp_memcpy` shifts the mask by `32 - lane`
  and so counts the `lane` highest lanes: two lanes can start at the same element
  (`twoLanes_not_copied`).
-/

import GidsStack.Lib.Cooperative
import Mathlib.Data.Nat.Bitwise
import Mathlib.Data.List.Basic
import Mathlib.Data.Nat.Count

namespace GidsStack.PageCache

open Kernel

/-! ## The code -/

/-- `__popc`. -/
def popc (mask : BitVec 32) : Nat := Nat.count (fun lane => mask.getLsbD lane = true) 32

/-- The loop of one lane in `warp_memcpy`: the elements it assigns. -/
def warpMemcpy (mask : BitVec 32) (num fuel lane : Nat) : Option (List Nat) :=
  let activeCnt := popc mask
  -- lane 0 shifts by 32, which leaves nothing on the device
  let priorMask := mask >>> (32 - lane)
  let priorCount := popc priorMask
  wordLoop (2 ^ 64) activeCnt num fuel priorCount

/-- The loop of one lane in `write_to_queue`, with a 32-bit index. -/
def writeToQueue (mask : BitVec 32) (size sizeofT fuel laneId : Nat) : Option (List Nat) :=
  let count := popc mask
  let myId := count - popc (mask >>> laneId)
  wordLoop (2 ^ 32) count (size / sizeofT) fuel myId

/-- The lanes of a mask. -/
def active (mask : BitVec 32) : List Nat := (List.range 32).filter fun lane => mask.getLsbD lane

/-- The active lanes below a lane. -/
def lanesBelow (mask : BitVec 32) (lane : Nat) : Nat :=
  Nat.count (fun i => mask.getLsbD i = true) lane

/-- The lanes of `mask` come to the end of their loops, they assign each of the `num` elements
    once, and in whatever order they do, the elements are those of the source and nothing else
    has changed. -/
def CopiesOnce (loop : Nat → Nat → Option (List Nat)) (mask : BitVec 32) (num : Nat) : Prop :=
  ∃ fuel runs, (active mask).mapM (loop fuel) = some runs ∧
    runs.flatten.Perm (List.range num) ∧
    ∀ {T : Type} (order : List Nat), order.Perm runs.flatten → ∀ (src dest : Nat → T) (x : Nat),
      scatter dest id src order x = if x < num then src x else dest x

/-! ## Ranks -/

/-- The members of a set of numbers, each by how many are below it. -/
theorem map_count_filter (p : Nat → Bool) (n : Nat) :
    ((List.range n).filter p).map (Nat.count fun i => p i = true) =
      List.range (Nat.count (fun i => p i = true) n) := by
  induction n with
  | zero => rfl
  | succ n ih =>
    rw [List.range_succ, List.filter_append, List.map_append, ih, Nat.count_succ]
    by_cases hp : p n = true
    · rw [if_pos hp, List.range_succ, List.filter_singleton, hp]
      rfl
    · rw [if_neg hp, List.filter_singleton, Bool.eq_false_iff.mpr hp]
      exact List.append_nil _

section Ranks

variable {mask : BitVec 32} {lane : Nat}

theorem mem_active : lane ∈ active mask ↔ mask.getLsbD lane = true := by
  rw [active, List.mem_filter, List.mem_range]
  exact ⟨fun h => h.2, fun h => ⟨BitVec.lt_of_getLsbD h, h⟩⟩

theorem map_lanesBelow_active (mask : BitVec 32) :
    (active mask).map (lanesBelow mask) = List.range (popc mask) :=
  map_count_filter (fun lane => mask.getLsbD lane) 32

theorem length_active (mask : BitVec 32) : (active mask).length = popc mask := by
  have h := congrArg List.length (map_lanesBelow_active mask)
  rwa [List.length_map, List.length_range] at h

theorem popc_pos (h : mask ≠ 0) : 0 < popc mask := by
  rw [← length_active, List.length_pos_iff]
  intro hnil
  apply h
  apply BitVec.eq_of_getLsbD_eq
  intro i _
  show mask.getLsbD i = (0#32).getLsbD i
  rw [BitVec.getLsbD_zero, Bool.eq_false_iff]
  intro hi
  rw [← mem_active, hnil] at hi
  cases hi

theorem popc_le (mask : BitVec 32) : popc mask ≤ 32 := Nat.count_le _

/-- The lanes from `s` on are those that are not below it. -/
theorem popc_ushiftRight {s : Nat} (h : s ≤ 32) :
    popc (mask >>> s) = popc mask - lanesBelow mask s := by
  have hshift : popc (mask >>> s) = Nat.count (fun i => mask.getLsbD (s + i) = true) 32 := by
    rw [popc]
    simp only [BitVec.getLsbD_ushiftRight]
  have htop : Nat.count (fun i => mask.getLsbD (s + i) = true) 32 =
      Nat.count (fun i => mask.getLsbD (s + i) = true) (32 - s) := by
    have hsum := Nat.count_add (fun i => mask.getLsbD (s + i) = true) (32 - s) s
    rw [Nat.sub_add_cancel h] at hsum
    rw [hsum, Nat.add_eq_left, Nat.count_iff_forall_not]
    intro i _
    rw [BitVec.getLsbD_of_ge _ _ (by omega)]
    exact Bool.false_ne_true
  have hsum := Nat.count_add (fun i => mask.getLsbD i = true) s (32 - s)
  rw [Nat.add_sub_cancel' h] at hsum
  rw [hshift, htop, popc, lanesBelow, hsum, Nat.add_sub_cancel_left]

end Ranks

/-! ## Lanes and starts -/

section Lanes

variable {mask : BitVec 32} {w num : Nat} {start : Nat → Nat}
  {loop : Nat → Nat → Option (List Nat)}

/-- A copy is right if its lanes cover the elements. -/
theorem copiesOnce_iff_cover
    (hloop : ∀ fuel lane, loop fuel lane = wordLoop w (popc mask) num fuel (start lane)) :
    CopiesOnce loop mask num ↔ LanesCover w num ((active mask).map start) := by
  have hruns : ∀ fuel, (active mask).mapM (loop fuel) =
      ((active mask).map start).mapM
        (wordLoop w ((active mask).map start).length num fuel) := by
    intro fuel
    rw [List.mapM_map, List.length_map, length_active]
    congr 1
    funext lane
    exact hloop fuel lane
  constructor
  · rintro ⟨fuel, runs, hrun, hperm, -⟩
    exact ⟨fuel, runs, hruns fuel ▸ hrun, hperm⟩
  · rintro ⟨fuel, runs, hrun, hperm⟩
    refine ⟨fuel, runs, (hruns fuel).trans hrun, hperm, ?_⟩
    intro T order horder src dest x
    exact scatter_copy (horder.trans hperm) src dest x

/-- Lanes whose starts go up with the lane copy everything once exactly if the counter has room
    and each starts at its rank, or both are past the end. -/
theorem copiesOnce_iff (hmask : mask ≠ 0)
    (hloop : ∀ fuel lane, loop fuel lane = wordLoop w (popc mask) num fuel (start lane))
    (hmono : ∀ i j, i ≤ j → j < 32 → start i ≤ start j)
    (hw : ∀ lane ∈ active mask, start lane + popc mask ≤ w) :
    CopiesOnce loop mask num ↔ num + popc mask ≤ w ∧
      ∀ lane, mask.getLsbD lane = true →
        min (start lane) num = min (lanesBelow mask lane) num := by
  have hlength : ((active mask).map start).length = popc mask := by
    rw [List.length_map, length_active]
  have hsorted : ((active mask).map start).Pairwise (· ≤ ·) := by
    rw [List.pairwise_map]
    apply (List.pairwise_lt_range.filter _).imp_of_mem
    intro i j _ hj hlt
    exact hmono i j (Nat.le_of_lt hlt) (List.mem_range.mp (List.mem_filter.mp hj).1)
  rw [copiesOnce_iff_cover hloop, lanesCover_iff (hlength ▸ popc_pos hmask) hsorted, hlength,
    ← map_lanesBelow_active, List.map_map, List.map_map, List.map_inj_left]
  · simp only [mem_active, Function.comp_apply]
  · intro a ha
    obtain ⟨lane, hlane, rfl⟩ := List.mem_map.mp ha
    rw [hlength]
    exact hw lane hlane

end Lanes

/-! ## The two copies

`count - popc (mask >>> lane)` is the rank of a lane, `popc (mask >>> (32 - lane))` is the
number of active lanes among the `lane` highest. -/

section Copies

variable {mask : BitVec 32}

theorem warpMemcpy_iff (hmask : mask ≠ 0) (num : Nat) :
    CopiesOnce (warpMemcpy mask num) mask num ↔ num + popc mask ≤ 2 ^ 64 ∧
      ∀ lane, mask.getLsbD lane = true →
        min (popc mask - lanesBelow mask (32 - lane)) num = min (lanesBelow mask lane) num := by
  have hstart : ∀ lane, popc (mask >>> (32 - lane)) = popc mask - lanesBelow mask (32 - lane) :=
    fun lane => popc_ushiftRight (Nat.sub_le 32 lane)
  have hle := popc_le mask
  apply copiesOnce_iff hmask
  · intro fuel lane
    rw [← hstart]
    rfl
  · intro i j hij hj
    have hcount : lanesBelow mask (32 - j) ≤ lanesBelow mask (32 - i) :=
      Nat.count_monotone _ (by omega)
    omega
  · intro lane _
    omega

theorem writeToQueue_iff (hmask : mask ≠ 0) (size sizeofT : Nat) :
    CopiesOnce (writeToQueue mask size sizeofT) mask (size / sizeofT) ↔
      size / sizeofT + popc mask ≤ 2 ^ 32 := by
  have hle := popc_le mask
  have hstart : ∀ lane, lane ≤ 32 → popc mask - popc (mask >>> lane) = lanesBelow mask lane := by
    intro lane hlane
    have hrank : lanesBelow mask lane ≤ popc mask := Nat.count_monotone _ hlane
    rw [popc_ushiftRight hlane]
    omega
  have hiff := @copiesOnce_iff mask (2 ^ 32) (size / sizeofT)
    (fun lane => popc mask - popc (mask >>> lane)) (writeToQueue mask size sizeofT) hmask
    (fun _ _ => rfl) ?_ ?_
  · rw [hiff, and_iff_left]
    -- the starts are the ranks
    intro lane hlane
    rw [hstart lane (Nat.le_of_lt (BitVec.lt_of_getLsbD hlane))]
  · intro i j hij hj
    rw [hstart i (by omega), hstart j (by omega)]
    exact Nat.count_monotone _ hij
  · intro lane _
    omega

/-- `warp_memcpy` copies everything once exactly if its counter has room and, as far as there
    are elements, the number of the `lane` highest active lanes is that of the active lanes
    below `lane`; `write_to_queue` exactly if its counter has room. -/
theorem warpCopies_iff (hmask : mask ≠ 0) (num size sizeofT : Nat) :
    (CopiesOnce (warpMemcpy mask num) mask num ↔ num + popc mask ≤ 2 ^ 64 ∧
      ∀ lane, mask.getLsbD lane = true →
        min (popc mask - lanesBelow mask (32 - lane)) num = min (lanesBelow mask lane) num) ∧
    (CopiesOnce (writeToQueue mask size sizeofT) mask (size / sizeofT) ↔
      size / sizeofT + popc mask ≤ 2 ^ 32) :=
  ⟨warpMemcpy_iff hmask num, writeToQueue_iff hmask size sizeofT⟩

/-- All lanes: the 16 elements of a line, and a page of words. -/
theorem warpCopies_full :
    CopiesOnce (warpMemcpy (BitVec.allOnes 32) 16) (BitVec.allOnes 32) 16 ∧
    CopiesOnce (writeToQueue (BitVec.allOnes 32) 4096 8) (BitVec.allOnes 32) (4096 / 8) := by
  obtain ⟨hmemcpy, hqueue⟩ := @warpCopies_iff (BitVec.allOnes 32) (by decide) 16 4096 8
  refine ⟨hmemcpy.mpr ⟨by decide, ?_⟩, hqueue.mpr (by decide)⟩
  have hall : ∀ lane < 32, min (popc (BitVec.allOnes 32) -
      lanesBelow (BitVec.allOnes 32) (32 - lane)) 16 =
        min (lanesBelow (BitVec.allOnes 32) lane) 16 := by decide
  exact fun lane hlane => hall lane (BitVec.lt_of_getLsbD hlane)

/-- Lanes 0 and 1 both start at element 0, and nobody comes to element 1. -/
theorem twoLanes_not_copied : ¬ CopiesOnce (warpMemcpy 0b11#32 2) 0b11#32 2 := by
  rw [warpMemcpy_iff (by decide)]
  rintro ⟨-, hstarts⟩
  have hlane := hstarts 1 (by decide)
  revert hlane
  decide

end Copies

end GidsStack.PageCache
