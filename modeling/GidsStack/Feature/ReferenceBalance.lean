/-
  GidsStack.Feature.ReferenceBalance

  When the split read gives back what it took.

  A lane takes a reference on every page it comes to and the fetching kernel drops one on the
  page it ends on, so a page keeps a reference of every lane that went on from it to another
  page. On pages without marks a call changes CNT by one atomic addition, wherever it is
  interleaved, and the read gives back what it took if and only if no lane leaves a page
  (`references_balanced_iff`).
-/

import GidsStack.Feature.References
import Mathlib

namespace GidsStack.Feature

open GidsStack.Kernel

/-! ## Where the lanes go -/

namespace ReadCall

variable (r : ReadCall)

/-- The page of a lane's element in chunk `c`. -/
def lanePage (w c lane : Nat) : Nat := r.page (r.laneElem w c lane)

/-- The lane comes to a page in chunk `c`. -/
def enters (w c lane : Nat) : Prop :=
  r.active c lane ∧ (c = 0 ∨ r.lanePage w (c - 1) lane ≠ r.lanePage w c lane)

/-- The lane goes in chunk `c` from page `pg` to another one. -/
def leaves (w pg c lane : Nat) : Prop :=
  0 < c ∧ r.active c lane ∧ r.lanePage w (c - 1) lane = pg ∧ r.lanePage w c lane ≠ pg

instance (w c lane : Nat) : Decidable (r.enters w c lane) := instDecidableAnd

instance (w pg c lane : Nat) : Decidable (r.leaves w pg c lane) := instDecidableAnd

/-- The number of times a lane leaves page `pg`. -/
def lanesLeft (pg : Nat) : Nat :=
  (r.warps.map fun w => ((List.range r.chunks).map fun c =>
    (List.range 32).countP fun lane => r.leaves w pg c lane).sum).sum

/-- The elements that the kernel's pointers have to look up are elements of the range. -/
def Reaches (k : GetKernel) : Prop :=
  ∀ w ∈ r.warps, ∀ c < r.chunks, ∀ lane < 32, r.active c lane →
    (k = .getFeatureLight → r.enters w c lane) → r.laneElem w c lane < r.count

/-- All elements of a lane in a row are on one page. -/
def LanesStay : Prop :=
  ∀ w ∈ r.warps, ∀ c < r.chunks, ∀ lane < 32, 0 < c → r.active c lane →
    r.lanePage w (c - 1) lane = r.lanePage w c lane

end ReadCall

/-! ## Calls -/

/-- The lanes that the calls on page `pg` count. -/
def lanesOn (pg : Nat) (calls : List PageCall) : Nat :=
  ((calls.filter fun c => c.page = pg).map (·.count)).sum

theorem lanesOn_append (pg : Nat) (l l' : List PageCall) :
    lanesOn pg (l ++ l') = lanesOn pg l + lanesOn pg l' := by
  rw [lanesOn, List.filter_append, List.map_append, List.sum_append, lanesOn, lanesOn]

theorem lanesOn_cons (pg : Nat) (c : PageCall) (l : List PageCall) :
    lanesOn pg (c :: l) = (if c.page = pg then c.count else 0) + lanesOn pg l := by
  by_cases h : c.page = pg <;> simp [lanesOn, h]

theorem lanesOn_flatMap {α : Type} (pg : Nat) (f : α → List PageCall) (l : List α) :
    lanesOn pg (l.flatMap f) = (l.map fun a => lanesOn pg (f a)).sum := by
  induction l with
  | nil => rfl
  | cons a l ih => rw [List.flatMap_cons, lanesOn_append, ih, List.map_cons, List.sum_cons]

/-- A group of lanes is counted by the call of its master. -/
theorem lanesOn_coalesce (pg : Nat) (pages : List Nat) :
    lanesOn pg (coalesce pages) = pages.count pg := by
  have hfilter : (coalesce pages).filter (fun c => c.page = pg) =
      if pg ∈ pages then [⟨pg, pages.count pg⟩] else [] := by
    rw [coalesce, List.filter_map]
    have heq : pages.dedup.filter (fun q => decide (q = pg)) =
        if pg ∈ pages then [pg] else [] := by
      rw [show (fun q : Nat => decide (q = pg)) = (· == pg) from rfl, List.filter_beq,
        List.count_dedup]
      by_cases h : pg ∈ pages <;> simp [h]
    show (pages.dedup.filter (fun q => decide (q = pg))).map _ = _
    rw [heq]
    by_cases h : pg ∈ pages <;> simp [h]
  rw [lanesOn, hfilter]
  by_cases h : pg ∈ pages
  · rw [if_pos h]
    rfl
  · rw [if_neg h, List.count_eq_zero_of_not_mem h]
    rfl

/-! ### What the calls leave on a page without marks -/

/-- No prefetch and no window is planned for the page. -/
def PageRefs.Unmarked (p : PageRefs) : Prop := p.prefetchCount = 0#8 ∧ p.prefetchCounter = 0#8

/-- The call has met no mark. -/
def CallPc.plain : CallPc → Bool
  | .prologue .loadPrefetch | .prologue (.loadWindow false) | .fetchAdd false
  | .addRefCount false | .release .loadPrefetch | .release (.loadWindow false)
  | .release (.subState false) | .release (.subRefCount false) => true
  | _ => false

/-- What a call of `count` lanes that meets no mark has yet to add to CNT. -/
def CallPc.due (count : Nat) : CallPc → Int
  | .prologue _ | .fetchAdd _ => count
  | .addRefCount _ | .release (.subRefCount _) => 0
  | .release _ => -count

/-- The steps a call has left, at most. -/
def CallPc.left : CallPc → Nat
  | .prologue .loadPrefetch | .release .loadPrefetch => 6
  | .prologue (.storePrefetch _) | .release .storePrefetch | .release .subPrefetch => 5
  | .prologue (.loadWindow _) | .release (.loadWindow _) => 4
  | .prologue (.storeWindow _) | .release .storeWindow | .release (.subWindow _) => 3
  | .fetchAdd _ | .release (.subState _) => 2
  | .addRefCount _ | .release (.subRefCount _) => 1

/-- A step on a page without marks. -/
theorem PageRefs.Unmarked.advance {p : PageRefs} (h : p.Unmarked) (count : Nat) {pc : CallPc}
    (hpc : pc.plain = true) :
    (p.advance count pc).1.Unmarked ∧ (∀ pc' ∈ (p.advance count pc).2, pc'.plain = true) ∧
      (p.advance count pc).1.cnt + ((p.advance count pc).2.map (CallPc.due count)).getD 0 =
        p.cnt + pc.due count := by
  obtain ⟨h1, h2⟩ := h
  have hplanned : PageCache.prefetchPlanned 0#8 = false := rfl
  have hwindow : PageCache.windowPlanned 0#8 = false := rfl
  have hcount : PageCache.byteCount 0#8 = 0 := rfl
  cases pc with
  | prologue k =>
    cases k with
    | loadPrefetch =>
      simp [PageRefs.advance, PageRefs.Unmarked, h1, h2, hplanned, CallPc.plain, CallPc.due]
    | loadWindow pin =>
      cases pin
      · simp [PageRefs.advance, PageRefs.Unmarked, h1, h2, hwindow, CallPc.plain, CallPc.due]
      · cases hpc
    | _ => cases hpc
  | fetchAdd pin =>
    cases pin
    · simp [PageRefs.advance, PageRefs.Unmarked, h1, h2, CallPc.plain, CallPc.due]
    · cases hpc
  | addRefCount pin =>
    cases pin
    · simp [PageRefs.advance, PageRefs.Unmarked, h1, h2, CallPc.due]
    · cases hpc
  | release k =>
    cases k with
    | loadPrefetch =>
      simp [PageRefs.advance, PageRefs.Unmarked, h1, h2, hcount, CallPc.plain, CallPc.due]
    | loadWindow tc =>
      cases tc
      · simp [PageRefs.advance, PageRefs.Unmarked, h1, h2, hcount, CallPc.plain, CallPc.due]
      · cases hpc
    | subState tc =>
      cases tc
      · simp [PageRefs.advance, PageRefs.Unmarked, h1, h2, CallPc.plain, CallPc.due,
          Int.sub_eq_add_neg]
      · cases hpc
    | subRefCount tc =>
      cases tc
      · simp [PageRefs.advance, PageRefs.Unmarked, h1, h2, CallPc.due]
      · cases hpc
    | _ => cases hpc

/-- Every step brings a call nearer to its end. -/
theorem PageRefs.advance_left (p : PageRefs) (count : Nat) {pc pc' : CallPc}
    (h : (p.advance count pc).2 = some pc') : pc'.left < pc.left := by
  cases pc with
  | prologue k =>
    cases k with
    | loadPrefetch | loadWindow pin =>
      obtain rfl := Option.some.inj h
      split <;> simp only [CallPc.left, Nat.reduceLT]
    | _ =>
      obtain rfl := Option.some.inj h
      simp only [CallPc.left, Nat.reduceLT]
  | fetchAdd pin =>
    obtain rfl := Option.some.inj h
    simp only [CallPc.left, Nat.reduceLT]
  | addRefCount pin => cases h
  | release k =>
    cases k with
    | loadPrefetch | loadWindow tc =>
      obtain rfl := Option.some.inj h
      split
      · split <;> simp only [CallPc.left, Nat.reduceLT]
      · simp only [CallPc.left, Nat.reduceLT]
    | subRefCount tc => cases h
    | _ =>
      obtain rfl := Option.some.inj h
      simp only [CallPc.left, Nat.reduceLT]

/-- What the calls under way have yet to add to CNT of page `pg`. -/
def dueOn (pg : Nat) (xs : List Running) : Int :=
  (xs.map fun x => if x.call.page = pg then x.pc.due x.call.count else 0).sum

theorem dueOn_append (pg : Nat) (xs ys : List Running) :
    dueOn pg (xs ++ ys) = dueOn pg xs + dueOn pg ys := by
  rw [dueOn, List.map_append, List.sum_append, dueOn, dueOn]

theorem dueOn_cons (pg : Nat) (x : Running) (xs : List Running) :
    dueOn pg (x :: xs) =
      (if x.call.page = pg then x.pc.due x.call.count else 0) + dueOn pg xs := by
  rw [dueOn, List.map_cons, List.sum_cons, dueOn]

/-- Calls that have just begun owe CNT their lanes, `z` times. -/
theorem dueOn_start {start : CallPc} {z : Int} (hdue : ∀ n, start.due n = z * n) (pg : Nat)
    (calls : List PageCall) :
    dueOn pg (calls.map fun c => ⟨c, start⟩) = z * lanesOn pg calls := by
  induction calls with
  | nil =>
    show (0 : Int) = z * ((0 : Nat) : Int)
    rw [Nat.cast_zero, mul_zero]
  | cons c calls ih =>
    rw [List.map_cons, dueOn_cons, ih, lanesOn_cons, hdue]
    split <;> push_cast <;> ring

/-- The calls of a kernel under way on pages without marks: what is in CNT and what is still to
    come is `total`. -/
structure Unhindered (total : Nat → Int) (s : Nat → PageRefs) (xs : List Running) : Prop where
  unmarked : ∀ pg, (s pg).Unmarked
  plain : ∀ x ∈ xs, x.pc.plain = true
  cnt : ∀ pg, (s pg).cnt + dueOn pg xs = total pg

theorem Unhindered.step {total : Nat → Int} {s : Nat → PageRefs} {pre post : List Running}
    {x : Running} (h : Unhindered total s (pre ++ x :: post)) :
    Unhindered total (callStep s x).1 (pre ++ (callStep s x).2.toList ++ post) := by
  have hx := h.plain x (List.mem_append_right _ List.mem_cons_self)
  obtain ⟨hmarks, hplain, hcnt⟩ := (h.unmarked x.call.page).advance x.call.count hx
  have hdue : ∀ pg, dueOn pg (callStep s x).2.toList = if x.call.page = pg then
      (((s x.call.page).advance x.call.count x.pc).2.map (CallPc.due x.call.count)).getD 0
      else 0 := by
    intro pg
    rw [callStep]
    cases ((s x.call.page).advance x.call.count x.pc).2 with
    | none => exact (ite_self _).symm
    | some pc =>
      show ([_] : List Int).sum = _
      rw [List.sum_singleton]
      rfl
  have hpages : (callStep s x).1 = Function.update s x.call.page
      ((s x.call.page).advance x.call.count x.pc).1 := rfl
  constructor
  · intro pg
    rw [hpages, Function.update_apply]
    split
    · exact hmarks
    · exact h.unmarked pg
  · intro y hy
    simp only [List.mem_append] at hy
    rcases hy with (hy | hy) | hy
    · exact h.plain y (List.mem_append_left _ hy)
    · obtain ⟨pc, hpc, rfl⟩ := Option.map_eq_some_iff.mp (Option.mem_toList.mp hy)
      exact hplain pc hpc
    · exact h.plain y (List.mem_append_right _ (List.mem_cons_of_mem _ hy))
  · intro pg
    have hold := h.cnt pg
    rw [dueOn_append, dueOn_cons] at hold
    rw [dueOn_append, dueOn_append, hdue]
    by_cases hpg : x.call.page = pg
    · subst hpg
      rw [if_pos rfl] at hold ⊢
      rw [hpages, Function.update_self]
      omega
    · rw [if_neg hpg] at hold ⊢
      rw [hpages, Function.update_of_ne (Ne.symm hpg)]
      omega

/-- A kernel whose calls meet no mark adds to CNT what its calls owe it. -/
theorem Calls.cnt {start : CallPc} {z : Int} (hplain : start.plain = true)
    (hdue : ∀ n, start.due n = z * n) {s t : Nat → PageRefs} {calls : List PageCall}
    (h : Calls start s calls t) (hs : ∀ pg, (s pg).Unmarked) :
    (∀ pg, (t pg).Unmarked) ∧ ∀ pg, (t pg).cnt = (s pg).cnt + z * lanesOn pg calls := by
  have hend := h.invariant
    (I := Unhindered fun pg => (s pg).cnt + z * lanesOn pg calls) (fun _ _ _ _ => .step)
    { unmarked := hs
      plain := fun x hx => by
        obtain ⟨c, -, rfl⟩ := List.mem_map.mp hx
        exact hplain
      cnt := fun pg => by rw [dueOn_start hdue] }
  exact ⟨hend.unmarked, fun pg => by rw [← hend.cnt pg]; exact (add_zero _).symm⟩

/-- A kernel's calls can always run to their end. -/
theorem calls_return (start : CallPc) (s : Nat → PageRefs) (calls : List PageCall) :
    ∃ t, Calls start s calls t := by
  refine Lib.Interleave.exists_of_measure (fun x => x.pc.left) ?_ s _
  intro s x y hy
  obtain ⟨pc, hpc, rfl⟩ := Option.map_eq_some_iff.mp hy
  exact PageRefs.advance_left _ _ hpc

theorem acquires_cnt {s t : Nat → PageRefs} {calls : List PageCall} (h : Acquires s calls t)
    (hs : ∀ pg, (s pg).Unmarked) :
    (∀ pg, (t pg).Unmarked) ∧ ∀ pg, (t pg).cnt = (s pg).cnt + lanesOn pg calls := by
  have hcnt := Calls.cnt rfl (z := 1) (fun n => (one_mul _).symm) h hs
  simpa only [one_mul] using hcnt

theorem releases_cnt {s t : Nat → PageRefs} {calls : List PageCall} (h : Releases s calls t)
    (hs : ∀ pg, (s pg).Unmarked) (pg : Nat) : (t pg).cnt = (s pg).cnt - lanesOn pg calls := by
  rw [(Calls.cnt rfl (z := -1) (fun n => (neg_one_mul _).symm) h hs).2 pg, neg_one_mul,
    Int.sub_eq_add_neg]

/-! ## Pointers -/

section Pointers

variable {r : ReadCall} {w : Nat}

/-- A lane's pointer after `n` chunks. -/
def ptrAfter (r : ReadCall) (w : Nat) : Nat → Nat → BamPtr
  | 0, _ => .new
  | c + 1, lane => if r.active c lane then r.window (r.laneElem w c lane) else ptrAfter r w c lane

theorem active_of_succ {c lane : Nat} (h : r.active (c + 1) lane) : r.active c lane := by
  rw [ReadCall.active] at h ⊢
  omega

theorem page_window (i : Nat) : r.page (r.window i).start = r.page i :=
  Nat.mul_div_cancel_left _ r.nElemsPerPage_pos

theorem window_outside_iff (i j : Nat) :
    (r.window i).outside j = true ↔ r.page i ≠ r.page j := by
  have hpos := r.nElemsPerPage_pos
  have hlo : j < r.nElemsPerPage * r.page i ↔ r.page j < r.page i := by
    rw [Nat.mul_comm, ReadCall.page, ReadCall.page, Nat.div_lt_iff_lt_mul hpos]
  have hhi : r.nElemsPerPage * r.page i + r.nElemsPerPage ≤ j ↔ r.page i + 1 ≤ r.page j := by
    rw [← Nat.mul_succ, Nat.mul_comm]
    exact (Nat.le_div_iff_mul_le hpos).symm
  rw [BamPtr.outside, Bool.or_eq_true, decide_eq_true_eq, decide_eq_true_eq, ReadCall.window, hlo,
    hhi]
  omega

/-- A lane looks a page up exactly when it comes to it. -/
theorem outside_iff {c lane : Nat} (h : r.active c lane) :
    (ptrAfter r w c lane).outside (r.laneElem w c lane) = true ↔ r.enters w c lane := by
  cases c with
  | zero =>
    rw [ptrAfter, BamPtr.outside, ReadCall.enters]
    simp [BamPtr.new, h]
  | succ c =>
    rw [ptrAfter, if_pos (active_of_succ h), window_outside_iff, ReadCall.enters]
    simp [h, ReadCall.lanePage]

/-- Reading inside the window of a pointer leaves the pointer as it is. -/
theorem ptrAfter_of_not_enters {c lane : Nat} (h : r.active c lane) (hin : ¬r.enters w c lane) :
    ptrAfter r w c lane = r.window (r.laneElem w c lane) := by
  cases c with
  | zero => exact absurd ⟨h, .inl rfl⟩ hin
  | succ c =>
    have hpage : r.lanePage w c lane = r.lanePage w (c + 1) lane := by
      by_contra hne
      exact hin ⟨h, .inr hne⟩
    rw [ptrAfter, if_pos (active_of_succ h), ReadCall.window, ReadCall.window]
    rw [ReadCall.lanePage, ReadCall.lanePage] at hpage
    rw [hpage]

/-- The lane's pointer is on page `pg` after `n` chunks. -/
def standsOn (r : ReadCall) (w pg n lane : Nat) : Bool :=
  (ptrAfter r w n lane).held && decide (r.page (ptrAfter r w n lane).start = pg)

theorem standsOn_succ (pg c lane : Nat) :
    standsOn r w pg (c + 1) lane =
      if r.active c lane then decide (r.lanePage w c lane = pg) else standsOn r w pg c lane := by
  rw [standsOn, ptrAfter]
  by_cases h : r.active c lane
  · rw [if_pos h, if_pos h, page_window]
    rfl
  · rw [if_neg h, if_neg h]
    rfl

/-- Who comes to a page was elsewhere, and who leaves it was there. -/
theorem standsOn_step (pg c lane : Nat) :
    (standsOn r w pg (c + 1) lane).toNat + (decide (r.leaves w pg c lane)).toNat =
      (standsOn r w pg c lane).toNat +
        (decide (r.enters w c lane ∧ r.lanePage w c lane = pg)).toNat := by
  rw [standsOn_succ]
  by_cases h : r.active c lane
  · cases c with
    | zero =>
      have hnew : standsOn r w pg 0 lane = false := rfl
      simp [hnew, h, ReadCall.leaves, ReadCall.enters]
    | succ c =>
      rw [standsOn_succ, if_pos h, if_pos (active_of_succ h)]
      by_cases h1 : r.lanePage w c lane = pg
      · by_cases h2 : r.lanePage w (c + 1) lane = pg
        · simp [h, h1, h2, ReadCall.leaves, ReadCall.enters]
        · simp [h, h1, h2, ReadCall.leaves]
      · by_cases h2 : r.lanePage w (c + 1) lane = pg
        · have h3 : r.lanePage w c lane ≠ r.lanePage w (c + 1) lane := by rw [h2]; exact h1
          simp [h, h1, h2, ReadCall.leaves, ReadCall.enters]
        · simp [h1, h2, ReadCall.leaves]
  · simp [h, ReadCall.leaves, ReadCall.enters]

end Pointers

/-! ## The submit -/

section Warps

variable {r : ReadCall} {w : Nat}

/-- The pointers of a warp's lanes are those after `n` chunks. -/
def Agree (r : ReadCall) (w n : Nat) (ptrs : Nat → BamPtr) : Prop :=
  ∀ lane < 32, ptrs lane = ptrAfter r w n lane

/-- The elements with which the lanes of a warp come to pages are in the range. -/
def Enterable (r : ReadCall) (w : Nat) : Prop :=
  ∀ c < r.chunks, ∀ lane < 32, r.enters w c lane → r.laneElem w c lane < r.count

/-- The acquires of a warp in chunk `c`. -/
def pinned (r : ReadCall) (w c : Nat) : List PageCall :=
  coalesce ((List.range 32).filterMap fun lane =>
    if r.enters w c lane then some (r.lanePage w c lane) else none)

theorem readSubmitAsync_eq {c lane : Nat} (h : r.active c lane)
    (hin : r.enters w c lane → r.laneElem w c lane < r.count) :
    readSubmitAsync r (ptrAfter r w c lane) (r.laneElem w c lane) =
      (r.window (r.laneElem w c lane),
        if r.enters w c lane then some (r.lanePage w c lane) else none) := by
  rw [readSubmitAsync]
  by_cases he : r.enters w c lane
  · rw [if_pos ((outside_iff h).mpr he), if_pos (hin he), if_pos he]
    rfl
  · rw [if_neg (mt (outside_iff h).mp he), if_neg he, ptrAfter_of_not_enters h he]

theorem submitPins_eq (hin : Enterable r w) {c : Nat} (hc : c < r.chunks) {ptrs : Nat → BamPtr}
    (h : Agree r w c ptrs) :
    Agree r w (c + 1) (submitPins r w ptrs c).1 ∧ (submitPins r w ptrs c).2 = pinned r w c := by
  refine ⟨?_, ?_⟩
  · intro lane hlane
    show (if r.active c lane then (readSubmitAsync r (ptrs lane) (r.laneElem w c lane)).1
      else ptrs lane) = ptrAfter r w (c + 1) lane
    rw [ptrAfter, h lane hlane]
    by_cases ha : r.active c lane
    · rw [if_pos ha, if_pos ha, readSubmitAsync_eq ha (hin c hc lane hlane)]
    · rw [if_neg ha, if_neg ha]
  · show coalesce _ = coalesce _
    congr 1
    apply List.filterMap_congr
    intro lane hmem
    have hlane : lane < 32 := List.mem_range.mp hmem
    show (if r.active c lane then (readSubmitAsync r (ptrs lane) (r.laneElem w c lane)).2
      else none) = _
    rw [h lane hlane]
    by_cases ha : r.active c lane
    · rw [if_pos ha, readSubmitAsync_eq ha (hin c hc lane hlane)]
    · rw [if_neg ha, if_neg fun he : r.enters w c lane => ha he.1]

theorem submitWarp_eq (hin : Enterable r w) :
    submitWarp r w = (List.range r.chunks).flatMap (pinned r w) := by
  have hrun : ∀ n ≤ r.chunks, Agree r w n ((List.range n).foldl (fun st c =>
      ((submitPins r w st.1 c).1, st.2 ++ (submitPins r w st.1 c).2))
        ((fun _ => BamPtr.new), [])).1 ∧
      ((List.range n).foldl (fun st c =>
        ((submitPins r w st.1 c).1, st.2 ++ (submitPins r w st.1 c).2))
          ((fun _ => BamPtr.new), [])).2 = (List.range n).flatMap (pinned r w) := by
    intro n
    induction n with
    | zero => exact fun _ => ⟨fun _ _ => rfl, rfl⟩
    | succ n ih =>
      intro hn
      obtain ⟨hagree, hcalls⟩ := ih (by omega)
      obtain ⟨hnext, hpins⟩ := submitPins_eq hin (Nat.lt_of_succ_le hn) hagree
      rw [List.range_succ, List.foldl_append, List.foldl_cons, List.foldl_nil]
      refine ⟨hnext, ?_⟩
      rw [hcalls, hpins, List.flatMap_append, List.flatMap_cons, List.flatMap_nil, List.append_nil]
  exact (hrun r.chunks (Nat.le_refl _)).2

/-! ## The fetch -/

theorem lanesOn_finiCalls (pg : Nat) {n : Nat} {ptrs : Nat → BamPtr} (h : Agree r w n ptrs) :
    lanesOn pg (finiCalls r ptrs) = (List.range 32).countP (standsOn r w pg n) := by
  rw [finiCalls, lanesOn_coalesce, List.count_filterMap]
  apply List.countP_congr
  intro lane hmem
  rw [h lane (List.mem_range.mp hmem), standsOn]
  cases (ptrAfter r w n lane).held <;> simp

variable {k : GetKernel} {nPages : Nat} {trans : Nat → Nat → Nat}

/-- A read that returns leaves the pointer on the page of its element. -/
theorem read_some {c lane pageTrans : Nat} {p : BamPtr} (ha : r.active c lane)
    (h : k.read r nPages pageTrans (ptrAfter r w c lane) (r.laneElem w c lane) = some p) :
    p = r.window (r.laneElem w c lane) ∧
      ((k = .getFeatureLight → r.enters w c lane) → r.laneElem w c lane < r.count) := by
  have hwait : readWaitAsync r (r.laneElem w c lane) = some p →
      p = r.window (r.laneElem w c lane) ∧ r.laneElem w c lane < r.count := by
    intro hread
    rw [readWaitAsync] at hread
    by_cases hlt : r.laneElem w c lane < r.count
    · rw [if_pos hlt] at hread
      exact ⟨(Option.some.inj hread).symm, hlt⟩
    · rw [if_neg hlt] at hread
      exact absurd hread (by simp)
  cases k with
  | waitAsync => exact ⟨(hwait h).1, fun _ => (hwait h).2⟩
  | getFeature => exact ⟨(hwait h).1, fun _ => (hwait h).2⟩
  | getFeatureLight =>
    rw [GetKernel.read, readPostPollLight] at h
    by_cases he : r.enters w c lane
    · rw [if_pos ((outside_iff ha).mpr he)] at h
      by_cases hok : r.laneElem w c lane < r.count ∧
          ¬(pageTrans = asyncPageTransPending ∨ nPages ≤ pageTrans)
      · rw [if_pos hok] at h
        exact ⟨(Option.some.inj h).symm, fun _ => hok.1⟩
      · rw [if_neg hok] at h
        exact absurd h (by simp)
    · rw [if_neg (mt (outside_iff ha).mp he), ptrAfter_of_not_enters ha he] at h
      exact ⟨(Option.some.inj h).symm, fun hlight => absurd (hlight rfl) he⟩

/-- A read returns when the contexts name slots and the page it looks up exists. -/
theorem read_isSome {c lane : Nat} (ha : r.active c lane)
    (hin : (k = .getFeatureLight → r.enters w c lane) → r.laneElem w c lane < r.count) :
    (k.read r 1 0 (ptrAfter r w c lane) (r.laneElem w c lane)).isSome := by
  cases k with
  | waitAsync =>
    rw [GetKernel.read, readWaitAsync, if_pos (hin (fun h => nomatch h))]
    rfl
  | getFeature =>
    rw [GetKernel.read, readWaitAsync, if_pos (hin (fun h => nomatch h))]
    rfl
  | getFeatureLight =>
    rw [GetKernel.read, readPostPollLight]
    by_cases he : r.enters w c lane
    · rw [if_pos ((outside_iff ha).mpr he), if_pos ⟨hin fun _ => he, by decide⟩]
      rfl
    · rw [if_neg (mt (outside_iff ha).mp he)]
      rfl

theorem chunk_some {c : Nat} {ptrs ptrs' : Nat → BamPtr} (hagree : Agree r w c ptrs)
    (h : k.chunk r nPages trans w ptrs c = some ptrs') :
    Agree r w (c + 1) ptrs' ∧ ∀ lane < 32, r.active c lane →
      (k = .getFeatureLight → r.enters w c lane) → r.laneElem w c lane < r.count := by
  rw [GetKernel.chunk] at h
  split at h
  · rename_i hall
    obtain rfl := Option.some.inj h
    have hread : ∀ lane < 32, r.active c lane → ∃ p,
        k.read r nPages (trans w c) (ptrs lane) (r.laneElem w c lane) = some p := by
      intro lane hlane ha
      exact Option.isSome_iff_exists.mp (hall lane (List.mem_range.mpr hlane) ha)
    refine ⟨?_, ?_⟩
    · intro lane hlane
      show (if r.active c lane then (k.read r nPages (trans w c) (ptrs lane)
        (r.laneElem w c lane)).getD (ptrs lane) else ptrs lane) = ptrAfter r w (c + 1) lane
      by_cases ha : r.active c lane
      · obtain ⟨p, hp⟩ := hread lane hlane ha
        rw [if_pos ha, hp, Option.getD_some, ptrAfter, if_pos ha]
        rw [hagree lane hlane] at hp
        exact (read_some ha hp).1
      · rw [if_neg ha, ptrAfter, if_neg ha]
        exact hagree lane hlane
    · intro lane hlane ha
      obtain ⟨p, hp⟩ := hread lane hlane ha
      rw [hagree lane hlane] at hp
      exact (read_some ha hp).2
  · exact absurd h (by simp)

theorem chunk_isSome {c : Nat} {ptrs : Nat → BamPtr} (hagree : Agree r w c ptrs)
    (hin : ∀ lane < 32, r.active c lane → (k = .getFeatureLight → r.enters w c lane) →
      r.laneElem w c lane < r.count) :
    (k.chunk r 1 (fun _ _ => 0) w ptrs c).isSome := by
  rw [GetKernel.chunk, if_pos]
  · rfl
  · intro lane hmem ha
    have hlane : lane < 32 := List.mem_range.mp hmem
    show (k.read r 1 0 (ptrs lane) (r.laneElem w c lane)).isSome
    rw [hagree lane hlane]
    exact read_isSome ha (hin lane hlane ha)

/-- The elements that the kernel's pointers look up in the row of a warp, up to chunk `n`. -/
def WarpReaches (k : GetKernel) (r : ReadCall) (w n : Nat) : Prop :=
  ∀ c < n, ∀ lane < 32, r.active c lane → (k = .getFeatureLight → r.enters w c lane) →
    r.laneElem w c lane < r.count

theorem chunks_some {n : Nat} {ptrs : Nat → BamPtr}
    (h : (List.range n).foldlM (k.chunk r nPages trans w) (fun _ => .new) = some ptrs) :
    Agree r w n ptrs ∧ WarpReaches k r w n := by
  induction n generalizing ptrs with
  | zero =>
    obtain rfl := Option.some.inj h
    exact ⟨fun _ _ => rfl, fun c hc => absurd hc (Nat.not_lt_zero c)⟩
  | succ n ih =>
    rw [List.range_succ, List.foldlM_append] at h
    obtain ⟨mid, hmid, hlast⟩ := Option.bind_eq_some_iff.mp h
    rw [List.foldlM_cons] at hlast
    obtain ⟨next, hnext, hret⟩ := Option.bind_eq_some_iff.mp hlast
    obtain rfl := Option.some.inj hret
    obtain ⟨hagree, hreach⟩ := ih hmid
    obtain ⟨hagree', hreach'⟩ := chunk_some hagree hnext
    refine ⟨hagree', ?_⟩
    intro c hc
    rcases Nat.lt_or_eq_of_le (Nat.le_of_lt_succ hc) with hlt | rfl
    · exact hreach c hlt
    · exact hreach'

theorem chunks_isSome {n : Nat} (h : WarpReaches k r w n) :
    ((List.range n).foldlM (k.chunk r 1 (fun _ _ => 0) w) (fun _ => .new)).isSome := by
  induction n with
  | zero => rfl
  | succ n ih =>
    obtain ⟨mid, hmid⟩ := Option.isSome_iff_exists.mp (ih fun c hc => h c (by omega))
    obtain ⟨next, hnext⟩ := Option.isSome_iff_exists.mp
      (chunk_isSome (chunks_some hmid).1 (h n (Nat.lt_succ_self n)))
    rw [List.range_succ, List.foldlM_append, hmid]
    show ((k.chunk r 1 (fun _ _ => 0) w mid n).bind some).isSome
    rw [hnext]
    rfl

/-- A warp that gets through drops a reference for every lane, on the page its pointer is on. -/
theorem warp_some {calls : List PageCall} (h : k.warp r nPages trans w = some calls) :
    WarpReaches k r w r.chunks ∧
      ∀ pg, lanesOn pg calls = (List.range 32).countP (standsOn r w pg r.chunks) := by
  obtain ⟨ptrs, hptrs, hcalls⟩ := Option.map_eq_some_iff.mp h
  obtain ⟨hagree, hreach⟩ := chunks_some hptrs
  refine ⟨hreach, ?_⟩
  intro pg
  rw [← hcalls]
  exact lanesOn_finiCalls pg hagree

theorem warp_isSome (h : WarpReaches k r w r.chunks) :
    (k.warp r 1 (fun _ _ => 0) w).isSome := by
  rw [GetKernel.warp, Option.isSome_map]
  exact chunks_isSome h

/-! ## What a warp takes and gives back -/

/-- Whoever does not stand on a page it came to has left it. -/
theorem lanesOn_pinned (pg n : Nat) :
    lanesOn pg ((List.range n).flatMap (pinned r w)) =
      ((List.range n).map fun c => (List.range 32).countP fun lane => r.leaves w pg c lane).sum +
        (List.range 32).countP (standsOn r w pg n) := by
  induction n with
  | zero =>
    have hnone : (List.range 32).countP (standsOn r w pg 0) = 0 :=
      List.countP_eq_zero.mpr fun lane _ => Bool.false_ne_true
    rw [hnone]
    rfl
  | succ n ih =>
    have hpinned : lanesOn pg (pinned r w n) = (List.range 32).countP fun lane =>
        r.enters w n lane ∧ r.lanePage w n lane = pg := by
      rw [pinned, lanesOn_coalesce, List.count_filterMap]
      apply List.countP_congr
      intro lane _
      by_cases he : r.enters w n lane <;> simp [he]
    have hstep := countP_add_congr (l := List.range 32) fun lane _ =>
      standsOn_step (r := r) (w := w) pg n lane
    rw [List.range_succ, List.flatMap_append, lanesOn_append, ih, List.flatMap_cons,
      List.flatMap_nil, List.append_nil, hpinned, List.map_append, List.sum_append, List.map_cons,
      List.map_nil, List.sum_cons, List.sum_nil]
    omega

end Warps

/-! ## The two kernels -/

theorem WarpReaches.enterable {k : GetKernel} {r : ReadCall} {w : Nat}
    (h : WarpReaches k r w r.chunks) : Enterable r w :=
  fun c hc lane hlane he => h c hc lane hlane he.1 fun _ => he

theorem calls_isSome {k : GetKernel} {r : ReadCall} (h : r.Reaches k) :
    (k.calls r 1 fun _ _ => 0).isSome := by
  rw [GetKernel.calls, Option.isSome_map]
  exact mapM_isSome fun w hw => warp_isSome (h w hw)

/-- What the calls of a kernel that gets through amount to on each page. -/
theorem calls_some {k : GetKernel} {r : ReadCall} {nPages : Nat} {trans : Nat → Nat → Nat}
    {calls : List PageCall} (h : k.calls r nPages trans = some calls) :
    r.Reaches k ∧ ∀ pg, lanesOn pg calls =
      (r.warps.map fun w => (List.range 32).countP (standsOn r w pg r.chunks)).sum := by
  obtain ⟨groups, hgroups, rfl⟩ := Option.map_eq_some_iff.mp h
  have hmap := mapM_some hgroups
  simp only [ReadCall.Reaches]
  clear hgroups h
  generalize r.warps = ws at hmap ⊢
  induction ws generalizing groups with
  | nil =>
    obtain rfl : groups = [] := by simpa using hmap.symm
    exact ⟨fun w hw => absurd hw List.not_mem_nil, fun _ => rfl⟩
  | cons w ws ih =>
    cases groups with
    | nil => exact absurd hmap (by simp)
    | cons group groups =>
      obtain ⟨hw, hrest⟩ := List.cons.inj hmap
      obtain ⟨hreach, htotals⟩ := warp_some hw
      obtain ⟨hreaches, hsums⟩ := ih groups hrest
      refine ⟨List.forall_mem_cons.mpr ⟨hreach, hreaches⟩, ?_⟩
      intro pg
      rw [List.flatten_cons, lanesOn_append, htotals pg, hsums pg, List.map_cons, List.sum_cons]

/-- The submit takes what the lanes that stand on a page will drop, and one more for every lane
    that leaves it. -/
theorem lanesOn_submitCalls {k : GetKernel} {r : ReadCall} (h : r.Reaches k) (pg : Nat) :
    lanesOn pg (submitCalls r) = r.lanesLeft pg +
      (r.warps.map fun w => (List.range 32).countP (standsOn r w pg r.chunks)).sum := by
  have hwarp : ∀ w ∈ r.warps, lanesOn pg (submitWarp r w) =
      ((List.range r.chunks).map fun c =>
        (List.range 32).countP fun lane => r.leaves w pg c lane).sum +
      (List.range 32).countP (standsOn r w pg r.chunks) := by
    intro w hw
    rw [submitWarp_eq (WarpReaches.enterable (h w hw)), lanesOn_pinned]
  rw [submitCalls, lanesOn_flatMap, ReadCall.lanesLeft, List.map_congr_left hwarp,
    List.sum_map_add]

/-- No lane leaves a page exactly if all lanes stay on theirs. -/
theorem lanesLeft_eq_zero_iff {r : ReadCall} : (∀ pg, r.lanesLeft pg = 0) ↔ r.LanesStay := by
  simp only [ReadCall.lanesLeft, List.sum_eq_zero_iff_forall_eq_nat, List.mem_map,
    forall_exists_index, and_imp, forall_apply_eq_imp_iff₂, List.countP_eq_zero, List.mem_range,
    decide_eq_true_eq]
  constructor
  · intro hleft w hw c hc lane hlane hpos ha
    by_contra hne
    exact hleft _ w hw c hc lane hlane ⟨hpos, ha, rfl, Ne.symm hne⟩
  · rintro hstay pg w hw c hc lane hlane ⟨hpos, ha, hprev, hcur⟩
    exact hcur ((hstay w hw c hc lane hlane hpos ha).symm.trans hprev)

/-- On pages without marks, CNT after a submit and a kernel that gets through is what it was
    exactly if no lane has left the page. -/
theorem cnt_balance {k : GetKernel} {r : ReadCall} {nPages : Nat} {trans : Nat → Nat → Nat}
    {calls : List PageCall} (h : k.calls r nPages trans = some calls) {s t u : Nat → PageRefs}
    (hs : ∀ pg, (s pg).Unmarked) (hacq : Acquires s (submitCalls r) t) (hrel : Releases t calls u)
    (pg : Nat) : (u pg).cnt = (s pg).cnt ↔ r.lanesLeft pg = 0 := by
  obtain ⟨hreaches, htotals⟩ := calls_some h
  obtain ⟨hmarks, hcnt⟩ := acquires_cnt hacq hs
  rw [releases_cnt hrel hmarks pg, hcnt pg, htotals pg, lanesOn_submitCalls hreaches]
  push_cast
  omega

/-! ## Rows whose lanes stay on their pages -/

section Rows

variable {r : ReadCall} {w : Nat}

/-- Lanes that stay come to a page in their first chunk only. -/
theorem pinned_of_stay (hstay : r.LanesStay) (hw : w ∈ r.warps) {c : Nat} (hc : c < r.chunks)
    (hpos : 0 < c) : pinned r w c = [] := by
  have hnone : (List.range 32).filterMap (fun lane =>
      if r.enters w c lane then some (r.lanePage w c lane) else none) = [] := by
    refine List.filterMap_eq_nil_iff.mpr fun lane hlane => if_neg ?_
    rintro ⟨ha, h0 | hne⟩
    · omega
    · exact hne (hstay w hw c hc lane (List.mem_range.mp hlane) hpos ha)
  rw [pinned, hnone]
  rfl

/-- And then their pointers stay on it. -/
theorem ptrAfter_of_stay (hstay : r.LanesStay) (hw : w ∈ r.warps) {n lane : Nat}
    (hn : n + 1 ≤ r.chunks) (hlane : lane < 32) :
    (if (ptrAfter r w (n + 1) lane).held then some (r.page (ptrAfter r w (n + 1) lane).start)
      else none) = if r.enters w 0 lane then some (r.lanePage w 0 lane) else none := by
  have henters : r.enters w 0 lane ↔ r.active 0 lane := ⟨fun h => h.1, fun h => ⟨h, .inl rfl⟩⟩
  induction n with
  | zero =>
    rw [ptrAfter]
    by_cases ha : r.active 0 lane
    · rw [if_pos ha, if_pos (henters.mpr ha), page_window]
      rfl
    · rw [if_neg ha, if_neg (mt henters.mp ha)]
      rfl
  | succ n ih =>
    rw [ptrAfter]
    by_cases ha : r.active (n + 1) lane
    · have hprev := ih (by omega)
      rw [ptrAfter, if_pos (active_of_succ ha), page_window] at hprev
      rw [if_pos ha, page_window, ← hprev]
      exact congrArg some (hstay w hw (n + 1) (by omega) lane hlane (Nat.succ_pos n) ha).symm
    · rw [if_neg ha]
      exact ih (by omega)

theorem nodup_coalesce (pages : List Nat) : ((coalesce pages).map PageCall.page).Nodup := by
  rw [coalesce, List.map_map]
  show (pages.dedup.map id).Nodup
  rw [List.map_id]
  exact List.nodup_dedup pages

/-- Where lanes stay on their pages a row gives back what it took. -/
theorem row_returned {k : GetKernel} {nPages : Nat} {trans : Nat → Nat → Nat}
    {releases : List PageCall} (hstay : r.LanesStay) (hw : w ∈ r.warps)
    (h : k.warp r nPages trans w = some releases) : RowReturned (submitWarp r w) releases := by
  obtain ⟨hreach, -⟩ := warp_some h
  obtain ⟨ptrs, hptrs, rfl⟩ := Option.map_eq_some_iff.mp h
  have hagree := (chunks_some hptrs).1
  rw [submitWarp_eq hreach.enterable]
  cases hchunks : r.chunks with
  | zero =>
    -- no element, no call
    rw [hchunks] at hagree
    have hnone : finiCalls r ptrs = [] := by
      rw [finiCalls, List.filterMap_eq_nil_iff.mpr]
      · rfl
      · intro lane hlane
        rw [hagree lane (List.mem_range.mp hlane)]
        rfl
    rw [hnone]
    exact ⟨List.nodup_nil, .refl []⟩
  | succ n =>
    rw [hchunks] at hagree
    have hfirst : (List.range (n + 1)).flatMap (pinned r w) = pinned r w 0 := by
      rw [List.range_succ_eq_map, List.flatMap_cons, List.flatMap_eq_nil_iff.mpr, List.append_nil]
      intro c hc
      obtain ⟨d, hd, rfl⟩ := List.mem_map.mp hc
      have hlt := List.mem_range.mp hd
      exact pinned_of_stay hstay hw (by omega) (Nat.succ_pos d)
    have hsame : finiCalls r ptrs = pinned r w 0 := by
      rw [finiCalls, pinned]
      congr 1
      apply List.filterMap_congr
      intro lane hlane
      rw [hagree lane (List.mem_range.mp hlane)]
      exact ptrAfter_of_stay hstay hw (by omega) (List.mem_range.mp hlane)
    rw [hfirst, hsame]
    exact ⟨nodup_coalesce _, .refl _⟩

end Rows

/-- On pages without marks, references are balanced if and only if, where the rows are in the
    range, every lane's elements of a row are on one page. -/
theorem references_balanced_iff (k : GetKernel) (r : ReadCall) (s : Nat → PageRefs)
    (hs : ∀ pg, (s pg).Unmarked) : ReferencesBalanced k r s ↔ (r.Reaches k → r.LanesStay) := by
  constructor
  · intro h hreach
    obtain ⟨calls, hcalls⟩ := Option.isSome_iff_exists.mp (calls_isSome hreach)
    obtain ⟨t, ht⟩ := calls_return (.prologue .loadPrefetch) s (submitCalls r)
    obtain ⟨u, hu⟩ := calls_return (.release .loadPrefetch) t calls
    refine lanesLeft_eq_zero_iff.mp fun pg => (cnt_balance hcalls hs ht hu pg).mp ?_
    exact h.cnt 1 _ calls hcalls t u ht hu pg
  · intro h
    constructor
    · intro nPages trans calls hcalls t u ht hu pg
      have hstay := h (calls_some hcalls).1
      exact (cnt_balance hcalls hs ht hu pg).mpr (lanesLeft_eq_zero_iff.mpr hstay pg)
    · intro nPages trans calls hcalls w hw releases hreleases
      exact row_returned (h (calls_some hcalls).1) hw hreleases

/-- A row of `n` elements on pages of 32. -/
def rowOn (n : Nat) (h : n ≤ 64) : ReadCall where
  launch :=
    { bSize := 128
      numIndex := 1
      dim := n
      bSize_ge := bSize128_ge
      bSize_le := bSize128_le
      dim_ge := by omega
      dim_lt := by omega
      grid_lt := oneRow_grid }
  index _ := 0
  cacheDim := 64
  keyOff := 0
  nElemsPerPage := 32
  count := 64
  bSize_eq := rfl
  nElemsPerPage_pos := elems32_pos
  count_le := count64_le

theorem rowOn_unmarked (pg : Nat) : PageRefs.Unmarked ((fun _ => ⟨0, 0, 0#8, 0#8⟩) pg) :=
  ⟨rfl, rfl⟩

/-- The row fills its page, so that each lane stays on it. -/
theorem onePageRow_balanced :
    ReferencesBalanced .waitAsync (rowOn 32 (by decide)) fun _ => ⟨0, 0, 0#8, 0#8⟩ := by
  refine (references_balanced_iff .waitAsync (rowOn 32 (by decide)) _ rowOn_unmarked).mpr
    fun _ => ?_
  have hstay : ∀ w ∈ (rowOn 32 (by decide)).warps, ∀ c < (rowOn 32 (by decide)).chunks,
      ∀ lane < 32, 0 < c → (rowOn 32 (by decide)).active c lane →
        (rowOn 32 (by decide)).lanePage w (c - 1) lane =
          (rowOn 32 (by decide)).lanePage w c lane := by
    decide +kernel
  exact hstay

/-- The submit of a row on two pages takes 32 references on each page, the fetch drops those of
    the second page only. -/
theorem twoPageRow_not_balanced :
    ¬ ReferencesBalanced .waitAsync (rowOn 64 (by decide)) fun _ => ⟨0, 0, 0#8, 0#8⟩ := by
  intro h
  have hcalls : GetKernel.waitAsync.calls (rowOn 64 (by decide)) 1 (fun _ _ => 0) =
      some [⟨1, 32⟩] := by decide +kernel
  have hpins : lanesOn 0 (submitCalls (rowOn 64 (by decide))) = 32 := by decide +kernel
  obtain ⟨t, ht⟩ := calls_return (.prologue .loadPrefetch) (fun _ => ⟨0, 0, 0#8, 0#8⟩)
    (submitCalls (rowOn 64 (by decide)))
  obtain ⟨u, hu⟩ := calls_return (.release .loadPrefetch) t [⟨1, 32⟩]
  have hcnt := h.cnt 1 _ _ hcalls t u ht hu 0
  obtain ⟨hmarks, htaken⟩ := acquires_cnt ht rowOn_unmarked
  rw [releases_cnt hu hmarks 0, htaken 0, hpins] at hcnt
  revert hcnt
  decide

end GidsStack.Feature
