/-
  GidsStack.Lib.Cooperative

  A loop that several lanes share: each starts somewhere and goes on by the number of lanes,
  with a counter of so many values.

  The lanes visit everything below `stop` once exactly if the counter does not wrap before the
  last of them has left and the `k`-th start is `k`, as far as it is below `stop`
  (`lanesCover_iff`).
-/

import GidsStack.Lib.Kernel
import Mathlib.Data.List.Basic
import Mathlib.Data.Nat.ModEq
import Mathlib.Tactic.Basic

namespace GidsStack.Kernel

/-! ## Strided loops, one iteration at a time -/

theorem strided_nil {step stop i : Nat} (h : 0 < step) (hi : stop ≤ i) :
    strided step stop i = [] := by
  have hcount : loopCount step stop i = 0 := by
    rw [loopCount, Nat.div_eq_zero_iff_lt h]
    omega
  rw [strided, hcount]
  rfl

theorem strided_cons {step stop i : Nat} (h : 0 < step) (hi : i < stop) :
    strided step stop i = i :: strided step stop (i + step) := by
  have hcount : loopCount step stop i = loopCount step stop (i + step) + 1 := by
    rw [loopCount, loopCount, ← Nat.add_div_right _ h]
    by_cases hle : i + step ≤ stop
    · congr 1
      omega
    · -- the last iteration
      rw [Nat.div_eq_of_lt_le (k := 1) (by omega) (by omega),
        Nat.div_eq_of_lt_le (k := 1) (by omega) (by omega)]
  rw [strided, hcount, List.range_succ_eq_map, List.map_cons, List.map_map, Nat.zero_mul,
    Nat.add_zero, strided]
  congr 1
  apply List.map_congr_left
  intro n _
  show i + (n + 1) * step = i + step + n * step
  rw [Nat.succ_mul]
  omega

theorem nodup_strided {step : Nat} (h : 0 < step) (stop i : Nat) :
    (strided step stop i).Nodup := by
  apply List.Nodup.map _ List.nodup_range
  intro m n heq
  exact Nat.eq_of_mul_eq_mul_right h (Nat.add_left_cancel heq)

/-! ## One lane -/

/-- The values of the counter in the iterations of `for (; i < stop; i += step)`, where the
    counter has `w` values. -/
def wordLoop (w step stop : Nat) : Nat → Nat → Option (List Nat)
  | 0, _ => none
  | fuel + 1, i =>
    if i < stop then (wordLoop w step stop fuel ((i + step) % w)).map (i :: ·) else some []

variable {w step stop : Nat}

/-- Without a wrap it comes to its end, -/
theorem wordLoop_total (hw : stop + step ≤ w) (h : 0 < step) {fuel i : Nat}
    (hfuel : stop - i < fuel) : wordLoop w step stop fuel i = some (strided step stop i) := by
  induction fuel generalizing i with
  | zero => omega
  | succ fuel ih =>
    rw [wordLoop]
    split
    · rename_i hi
      rw [Nat.mod_eq_of_lt (by omega), ih (by omega), strided_cons h hi]
      rfl
    · rw [strided_nil h (by omega)]

/-- and at its end it has done what the strided loop does. -/
theorem eq_strided_of_wordLoop (hw : stop + step ≤ w) (h : 0 < step) {fuel i : Nat} {l : List Nat}
    (hl : wordLoop w step stop fuel i = some l) : l = strided step stop i := by
  induction fuel generalizing i l with
  | zero => cases hl
  | succ fuel ih =>
    rw [wordLoop] at hl
    split at hl
    · rename_i hi
      obtain ⟨rest, hrest, rfl⟩ := Option.map_eq_some_iff.mp hl
      rw [Nat.mod_eq_of_lt (by omega)] at hrest
      rw [strided_cons h hi, ih hrest]
    · rw [← Option.some.inj hl, strided_nil h (by omega)]

/-- With a wrap or without, a loop that is entered and comes to its end leaves it once. -/
theorem wordLoop_leaves {fuel i : Nat} {l : List Nat}
    (hl : wordLoop w step stop fuel i = some l) :
    (l.countP fun x => decide (stop ≤ (x + step) % w)) = if i < stop then 1 else 0 := by
  induction fuel generalizing i l with
  | zero => cases hl
  | succ fuel ih =>
    rw [wordLoop] at hl
    split at hl
    · rename_i hi
      obtain ⟨rest, hrest, rfl⟩ := Option.map_eq_some_iff.mp hl
      rw [List.countP_cons, ih hrest, if_pos hi]
      by_cases hnext : (i + step) % w < stop
      · rw [if_pos hnext, if_neg]
        simpa using hnext
      · rw [if_neg hnext, if_pos]
        simpa using hnext
    · rename_i hi
      rw [← Option.some.inj hl, if_neg hi]
      rfl

/-! ## All lanes -/

/-- What is known of each result is known of the list of them. -/
theorem map_of_mapM {α β γ : Type} {f : α → Option β} {l : List α} {bs : List β} {p : β → γ}
    {q : α → γ} (h : l.mapM f = some bs) (hpq : ∀ a ∈ l, ∀ b, f a = some b → p b = q a) :
    bs.map p = l.map q := by
  induction l generalizing bs with
  | nil =>
    rw [List.mapM_nil] at h
    rw [← Option.some.inj h]
    rfl
  | cons a l ih =>
    rw [List.mapM_cons] at h
    obtain ⟨b, hb, hrest⟩ := Option.bind_eq_some_iff.mp h
    obtain ⟨bs', hbs, hret⟩ := Option.bind_eq_some_iff.mp hrest
    rw [← Option.some.inj hret, List.map_cons, List.map_cons, hpq a List.mem_cons_self b hb,
      ih hbs fun a' ha' => hpq a' (List.mem_cons_of_mem a ha')]

/-- The runs of all lanes visit everything below `stop` once. -/
def LanesCover (w stop : Nat) (starts : List Nat) : Prop :=
  ∃ fuel runs, starts.mapM (wordLoop w starts.length stop fuel) = some runs ∧
    runs.flatten.Perm (List.range stop)

variable {starts : List Nat}

/-- Only the places that are one step before the end lead out. -/
theorem countP_leave_le (h : step ≤ w) :
    ((List.range stop).countP fun x => decide (stop ≤ (x + step) % w)) ≤
      (w - step) - (stop - step) := by
  rw [List.countP_eq_length_filter]
  have hsub : ((List.range stop).filter fun x => decide (stop ≤ (x + step) % w)) ⊆
      List.range' (stop - step) ((w - step) - (stop - step)) := by
    intro x hx
    obtain ⟨hlt, hle⟩ := List.mem_filter.mp hx
    rw [List.mem_range] at hlt
    rw [decide_eq_true_iff] at hle
    rw [List.mem_range'_1]
    by_cases hwrap : x + step < w
    · rw [Nat.mod_eq_of_lt hwrap] at hle
      omega
    · -- after a wrap the counter is below `x`
      rw [Nat.mod_eq_sub_mod (by omega)] at hle
      have hmod := Nat.mod_le (x + step - w) w
      omega
  have hlength := (List.subperm_of_subset (List.nodup_range.filter _) hsub).length_le
  rwa [List.length_range'] at hlength

/-- The lanes leave at different values of the counter, so there must be as many. -/
theorem LanesCover.fits (hpos : 0 < starts.length) (hw : ∀ a ∈ starts, a + starts.length ≤ w)
    (h : LanesCover w stop starts) : stop + starts.length ≤ w := by
  obtain ⟨fuel, runs, hruns, hperm⟩ := h
  by_contra hlt
  have hle : starts.length ≤ w := by
    have hstart := hw _ (List.getElem_mem hpos)
    omega
  -- every lane is in the loop, and leaves it
  have hcounts : runs.map (List.countP fun x => decide (stop ≤ (x + starts.length) % w)) =
      starts.map fun _ => 1 := by
    apply map_of_mapM hruns
    intro a ha l hl
    have hstart := hw a ha
    rw [wordLoop_leaves hl, if_pos (by omega)]
  have hcount : (List.range stop).countP (fun x => decide (stop ≤ (x + starts.length) % w)) =
      starts.length := by
    rw [← hperm.countP_eq, List.countP_flatten, hcounts, List.map_const', List.sum_replicate_nat,
      Nat.mul_one]
  have hleave := @countP_leave_le w starts.length stop hle
  omega

/-- Without a wrap the runs are the strided ones. -/
theorem lanesCover_iff_strided (hpos : 0 < starts.length) (hw : stop + starts.length ≤ w) :
    LanesCover w stop starts ↔
      ((starts.map (strided starts.length stop)).flatten).Perm (List.range stop) := by
  constructor
  · rintro ⟨fuel, runs, hruns, hperm⟩
    have heq : runs.map id = starts.map (strided starts.length stop) :=
      map_of_mapM hruns fun _ _ _ hl => eq_strided_of_wordLoop hw hpos hl
    rwa [← heq, List.map_id]
  · intro hperm
    refine ⟨stop + 1, starts.map (strided starts.length stop), ?_, hperm⟩
    have hall : ∀ l : List Nat, l.mapM (wordLoop w starts.length stop (stop + 1)) =
        some (l.map (strided starts.length stop)) := by
      intro l
      induction l with
      | nil => rfl
      | cons a l ih =>
        rw [List.mapM_cons, wordLoop_total hw hpos (by omega), ih]
        rfl
    exact hall starts

/-! ## Where the lanes start -/

/-- The starts `0`, ..., `c - 1`. -/
theorem strided_range_perm {c : Nat} (h : 0 < c) (stop : Nat) :
    (((List.range c).map (strided c stop)).flatten).Perm (List.range stop) := by
  apply (List.perm_ext_iff_of_nodup ?_ List.nodup_range).mpr
  · intro x
    rw [List.mem_range, List.mem_flatten]
    constructor
    · rintro ⟨l, hl, hx⟩
      obtain ⟨i, -, rfl⟩ := List.mem_map.mp hl
      exact lt_of_mem_strided h hx
    · intro hx
      exact ⟨_, List.mem_map_of_mem (List.mem_range.mpr (Nat.mod_lt x h)), mem_strided_mod h hx⟩
  · apply List.nodup_flatten.mpr
    constructor
    · intro l hl
      obtain ⟨i, -, rfl⟩ := List.mem_map.mp hl
      exact nodup_strided h stop i
    · rw [List.pairwise_map]
      apply List.pairwise_lt_range.imp_of_mem
      intro i j hi hj hlt x hxi hxj
      obtain ⟨m, rfl, -⟩ := (mem_strided_iff h).mp hxi
      obtain ⟨n, heq, -⟩ := (mem_strided_iff h).mp hxj
      -- both are the remainder of `x`
      have hmod := congrArg (· % c) heq
      simp only [Nat.add_mul_mod_self_right, Nat.mod_eq_of_lt (List.mem_range.mp hi),
        Nat.mod_eq_of_lt (List.mem_range.mp hj)] at hmod
      omega

theorem strided_min {c : Nat} (h : 0 < c) (stop a : Nat) :
    strided c stop (min a stop) = strided c stop a := by
  by_cases hlt : a ≤ stop
  · rw [Nat.min_eq_left hlt]
  · rw [strided_nil h (by omega), strided_nil h (by omega)]

/-- What is visited once gives the starts below `stop`, from the lowest on. -/
theorem start_eq (hpos : 0 < starts.length) (hsorted : starts.Pairwise (· ≤ ·))
    (hperm : ((starts.map (strided starts.length stop)).flatten).Perm (List.range stop)) (k : Nat)
    (hk : k < starts.length) : min starts[k] stop = min k stop := by
  have hnodup := List.nodup_flatten.mp (hperm.nodup_iff.mpr List.nodup_range)
  have hdisj := List.pairwise_iff_getElem.mp (List.pairwise_map.mp hnodup.2)
  have hone : ∀ i j (hi : i < starts.length) (hj : j < starts.length), i < j →
      starts[i] = starts[j] → stop ≤ starts[i] := by
    intro i j hi hj hlt heq
    by_contra hstop
    have hmem : starts[i] ∈ strided starts.length stop starts[i] :=
      (mem_strided_iff hpos).mpr ⟨0, by omega, by omega⟩
    exact hdisj i j hi hj hlt hmem (heq ▸ hmem)
  induction k using Nat.strongRecOn with
  | ind k ih =>
    have hge : starts[k] < stop → k ≤ starts[k] := by
      intro hstop
      by_contra hlt
      -- the lane `starts[k]` starts there too
      have hj := ih starts[k] (by omega) (by omega)
      have hboth := hone starts[k] k (by omega) hk (by omega)
      omega
    by_cases hstop : k < stop
    · obtain ⟨l, hl, hx⟩ := List.mem_flatten.mp (hperm.mem_iff.mpr (List.mem_range.mpr hstop))
      obtain ⟨a, ha, rfl⟩ := List.mem_map.mp hl
      obtain ⟨j, hj, rfl⟩ := List.getElem_of_mem ha
      obtain ⟨n, hn, -⟩ := (mem_strided_iff hpos).mp hx
      have hzero : n = 0 := by
        by_contra hne
        have hmul := Nat.le_mul_of_pos_left starts.length (Nat.pos_of_ne_zero hne)
        omega
      rw [hzero, Nat.zero_mul, Nat.add_zero] at hn
      rcases Nat.lt_trichotomy j k with hlt | rfl | hlt
      · have hj' := ih j hlt hj
        omega
      · rw [← hn]
      · have hle := List.pairwise_iff_getElem.mp hsorted k j hk hj hlt
        have hge' := hge (by omega)
        omega
    · have hge' : ¬ starts[k] < stop := fun hlt => hstop (Nat.lt_of_le_of_lt (hge hlt) hlt)
      omega

/-- The lanes visit everything below `stop` once exactly if the counter has room for one more
    step of each, and they start at `0`, `1`, ..., as far as that is below `stop`. -/
theorem lanesCover_iff (hpos : 0 < starts.length) (hsorted : starts.Pairwise (· ≤ ·))
    (hw : ∀ a ∈ starts, a + starts.length ≤ w) :
    LanesCover w stop starts ↔ stop + starts.length ≤ w ∧
      starts.map (fun a => min a stop) = (List.range starts.length).map fun k => min k stop := by
  constructor
  · intro h
    have hfits := h.fits hpos hw
    have hperm := (lanesCover_iff_strided hpos hfits).mp h
    refine ⟨hfits, List.ext_getElem (by simp) fun k hk _ => ?_⟩
    rw [List.length_map] at hk
    rw [List.getElem_map, List.getElem_map, List.getElem_range]
    exact start_eq hpos hsorted hperm k hk
  · rintro ⟨hfits, hstarts⟩
    apply (lanesCover_iff_strided hpos hfits).mpr
    have heq : starts.map (strided starts.length stop) =
        (List.range starts.length).map (strided starts.length stop) := by
      have hmap := congrArg (List.map (strided starts.length stop)) hstarts
      simpa only [List.map_map, Function.comp_def, strided_min hpos] using hmap
    rw [heq]
    exact strided_range_perm hpos stop

/-- Writes that visit `[0, n)` once copy it, and leave the rest as it was. -/
theorem scatter_copy {α : Type} {order : List Nat} {n : Nat} (h : order.Perm (List.range n))
    (src dest : Nat → α) (x : Nat) :
    scatter dest id src order x = if x < n then src x else dest x := by
  split
  · rename_i hx
    apply scatter_eq
    · rintro c - rfl
      rfl
    · exact .inr ⟨x, h.mem_iff.mpr (List.mem_range.mpr hx), rfl⟩
  · rename_i hx
    apply scatter_other
    rintro c hc rfl
    exact hx (List.mem_range.mp (h.mem_iff.mp hc))

end GidsStack.Kernel
