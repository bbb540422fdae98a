/-
  GidsStack.Lib.Kernel

  What the threads of a data-parallel kernel visit, count and write.

  A thread walks a row with a fixed stride (`strided`): it visits `i`, `i + step`, ... below
  `stop`, and its `n`-th iteration is at `i + n * step`. The writes of all threads together
  are a `scatter` into memory; when threads that write the same place write the same value,
  the result does not depend on the order in which they run.
-/

import Mathlib.Data.List.Perm.Basic
import Mathlib.Data.List.Nodup

namespace GidsStack.Kernel

/-! ## Strided loops -/

/-- The number of iterations of `for (; i < stop; i += step)`. -/
def loopCount (step stop i : Nat) : Nat :=
  (stop - i + step - 1) / step

/-- The values of `i` in the iterations of `for (; i < stop; i += step)`. -/
def strided (step stop i : Nat) : List Nat :=
  (List.range (loopCount step stop i)).map fun n => i + n * step

theorem lt_loopCount_iff {step stop i n : Nat} (h : 0 < step) :
    n < loopCount step stop i ↔ i + n * step < stop := by
  rw [loopCount, Nat.lt_div_iff_mul_lt h]
  have hmul : step * n = n * step := Nat.mul_comm step n
  omega

theorem mem_strided_iff {step stop i x : Nat} (h : 0 < step) :
    x ∈ strided step stop i ↔ ∃ n, x = i + n * step ∧ x < stop := by
  rw [strided, List.mem_map]
  refine ⟨?_, ?_⟩
  · rintro ⟨n, hn, rfl⟩
    exact ⟨n, rfl, (lt_loopCount_iff h).mp (List.mem_range.mp hn)⟩
  · rintro ⟨n, rfl, hlt⟩
    exact ⟨n, List.mem_range.mpr ((lt_loopCount_iff h).mpr hlt), rfl⟩

/-- The threads `0`, ..., `step - 1` together visit everything below `stop`. -/
theorem mem_strided_mod {step stop x : Nat} (h : 0 < step) (hx : x < stop) :
    x ∈ strided step stop (x % step) :=
  (mem_strided_iff h).mpr ⟨x / step, by rw [Nat.mul_comm, Nat.mod_add_div], hx⟩

theorem lt_of_mem_strided {step stop i x : Nat} (h : 0 < step) (hx : x ∈ strided step stop i) :
    x < stop := by
  obtain ⟨n, -, hlt⟩ := (mem_strided_iff h).mp hx
  exact hlt

/-- Counts of lanes agree in sum when they do for every lane. -/
theorem countP_add_congr {α : Type} {l : List α} {p q p' q' : α → Bool}
    (h : ∀ x ∈ l, (p x).toNat + (q x).toNat = (p' x).toNat + (q' x).toNat) :
    l.countP p + l.countP q = l.countP p' + l.countP q' := by
  induction l with
  | nil => rfl
  | cons a l ih =>
    have ha : (p a).toNat + (q a).toNat = (p' a).toNat + (q' a).toNat := h a List.mem_cons_self
    have hl := ih fun x hx => h x (List.mem_cons_of_mem a hx)
    have hbit : ∀ b : Bool, b.toNat = if b = true then 1 else 0 := by decide
    simp only [hbit] at ha
    simp only [List.countP_cons]
    omega

/-! ## Scatters -/

variable {α β : Type}

/-- Memory after the writes `val c` to `key c`, one after the other. -/
def scatter (mem : Nat → α) (key : β → Nat) (val : β → α) (cells : List β) : Nat → α :=
  cells.foldl (fun m c => Function.update m (key c) (val c)) mem

theorem scatter_other {mem : Nat → α} {key : β → Nat} {val : β → α} {cells : List β} {k : Nat}
    (h : ∀ c ∈ cells, key c ≠ k) : scatter mem key val cells k = mem k := by
  induction cells generalizing mem with
  | nil => rfl
  | cons c cells ih =>
    show scatter (Function.update mem (key c) (val c)) key val cells k = mem k
    rw [ih fun d hd => h d (List.mem_cons_of_mem c hd),
      Function.update_of_ne (h c List.mem_cons_self).symm]

/-- A place that is written at all holds `v` afterwards if every write to it writes `v`. -/
theorem scatter_eq {mem : Nat → α} {key : β → Nat} {val : β → α} {cells : List β} {k : Nat} {v : α}
    (h : ∀ c ∈ cells, key c = k → val c = v) (hk : mem k = v ∨ ∃ c ∈ cells, key c = k) :
    scatter mem key val cells k = v := by
  induction cells generalizing mem with
  | nil =>
    rcases hk with hk | ⟨c, hc, -⟩
    · exact hk
    · exact absurd hc List.not_mem_nil
  | cons d cells ih =>
    show scatter (Function.update mem (key d) (val d)) key val cells k = v
    refine ih (fun c hc => h c (List.mem_cons_of_mem d hc)) ?_
    by_cases hd : key d = k
    · left
      rw [hd, Function.update_self]
      exact h d List.mem_cons_self hd
    · rw [Function.update_of_ne (Ne.symm hd)]
      rcases hk with hk | ⟨c, hc, hck⟩
      · exact .inl hk
      · rcases List.mem_cons.mp hc with rfl | hc
        · exact absurd hck hd
        · exact .inr ⟨c, hc, hck⟩

/-- Writes of the same values to the same places. -/
theorem scatter_congr {mem : Nat → α} {key : β → Nat} {val val' : β → α} {cells : List β}
    (h : ∀ c ∈ cells, val c = val' c) : scatter mem key val cells = scatter mem key val' cells := by
  induction cells generalizing mem with
  | nil => rfl
  | cons c cells ih =>
    show scatter (Function.update mem (key c) (val c)) key val cells =
      scatter (Function.update mem (key c) (val' c)) key val' cells
    rw [h c List.mem_cons_self, ih fun d hd => h d (List.mem_cons_of_mem c hd)]

/-- A place holds what was there, or what some write to it has written. -/
theorem scatter_cases (mem : Nat → α) (key : β → Nat) (val : β → α) (cells : List β) (k : Nat) :
    ((∀ c ∈ cells, key c ≠ k) ∧ scatter mem key val cells k = mem k) ∨
      ∃ c ∈ cells, key c = k ∧ scatter mem key val cells k = val c := by
  induction cells generalizing mem with
  | nil => exact .inl ⟨fun _ hc => absurd hc List.not_mem_nil, rfl⟩
  | cons d cells ih =>
    rcases ih (Function.update mem (key d) (val d)) with ⟨hnone, heq⟩ | ⟨c, hc, hck, heq⟩
    · by_cases hd : key d = k
      · refine .inr ⟨d, List.mem_cons_self, hd, heq.trans ?_⟩
        rw [← hd, Function.update_self]
      · refine .inl ⟨fun c hc => ?_, heq.trans (Function.update_of_ne (Ne.symm hd) _ _)⟩
        rcases List.mem_cons.mp hc with rfl | hc
        · exact hd
        · exact hnone c hc
    · exact .inr ⟨c, List.mem_cons_of_mem d hc, hck, heq⟩

/-- The last write to a place decides. -/
theorem scatter_concat (mem : Nat → α) (key : β → Nat) (val : β → α) (cells : List β) (c : β) :
    scatter mem key val (cells ++ [c]) (key c) = val c := by
  rw [scatter, List.foldl_append]
  exact Function.update_self _ _ _

/-! ## Runs that may leave the program's control -/

variable {σ : Type}

/-- Every step of a run that got through got through. -/
theorem foldlM_step {f : σ → β → Option σ} {l : List β} {s s' : σ} (h : l.foldlM f s = some s')
    {b : β} (hb : b ∈ l) : ∃ t t', f t b = some t' := by
  induction l generalizing s with
  | nil => exact absurd hb List.not_mem_nil
  | cons a l ih =>
    rw [List.foldlM_cons] at h
    obtain ⟨t, ht, hrest⟩ := Option.bind_eq_some_iff.mp h
    rcases List.mem_cons.mp hb with rfl | hb
    · exact ⟨s, t, ht⟩
    · exact ih hrest hb

/-- What every step keeps, a run keeps. -/
theorem foldlM_keeps {f : σ → β → Option σ} {P : σ → Prop} {l : List β}
    (hstep : ∀ b ∈ l, ∀ t t', P t → f t b = some t' → P t') {s s' : σ} (hs : P s)
    (h : l.foldlM f s = some s') : P s' := by
  induction l generalizing s with
  | nil =>
    rw [List.foldlM_nil] at h
    rwa [← Option.some.inj h]
  | cons a l ih =>
    rw [List.foldlM_cons] at h
    obtain ⟨t, ht, hrest⟩ := Option.bind_eq_some_iff.mp h
    exact ih (fun b hb => hstep b (List.mem_cons_of_mem a hb))
      (hstep a List.mem_cons_self s t hs ht) hrest

/-- A run that got through did so item by item. -/
theorem mapM_some {γ : Type} {f : β → Option γ} {l : List β} {cs : List γ}
    (h : l.mapM f = some cs) : l.map f = cs.map some := by
  induction l generalizing cs with
  | nil =>
    rw [List.mapM_nil] at h
    rw [← Option.some.inj h]
    rfl
  | cons a l ih =>
    rw [List.mapM_cons] at h
    obtain ⟨c, hc, hrest⟩ := Option.bind_eq_some_iff.mp h
    obtain ⟨cs', hcs, hret⟩ := Option.bind_eq_some_iff.mp hrest
    rw [← Option.some.inj hret, List.map_cons, List.map_cons, hc, ih hcs]

theorem mapM_isSome {γ : Type} {f : β → Option γ} {l : List β} (h : ∀ b ∈ l, (f b).isSome) :
    (l.mapM f).isSome := by
  induction l with
  | nil => rfl
  | cons a l ih =>
    obtain ⟨c, hc⟩ := Option.isSome_iff_exists.mp (h a List.mem_cons_self)
    obtain ⟨cs, hcs⟩ :=
      Option.isSome_iff_exists.mp (ih fun b hb => h b (List.mem_cons_of_mem a hb))
    rw [List.mapM_cons, hc, hcs]
    rfl

/-- A run of steps that change nothing. -/
theorem foldlM_fixed {f : σ → β → Option σ} {l : List β} {s : σ} (h : ∀ b ∈ l, f s b = some s) :
    l.foldlM f s = some s := by
  induction l with
  | nil => rfl
  | cons a l ih =>
    rw [List.foldlM_cons, h a List.mem_cons_self]
    exact ih fun b hb => h b (List.mem_cons_of_mem a hb)

end GidsStack.Kernel
