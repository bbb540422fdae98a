/-
  GidsStack.Dataset.CacheStore

  `store_tensor` on the page cache.  The threads of `write_feature_kernel2` write through
  `bam_ptr`s: `operator[]` acquires the page of an element and marks a page DIRTY, the pointers
  release their pages when the threads end, and then `flush_cache` runs.

  `Writing` is the cache together with the cells that no thread has written yet; its steps are
  steps of the cache, in any interleaving.  Where every pointer marks the page it writes, and
  the flush finds no slot that names a dirty page it does not have, every run leaves in the array
  what the kernel makes of it (`StoreTensor.readElement`), in the cache and on the SSDs.
-/

import GidsStack.PageCache.WriteBack
import GidsStack.Dataset.RoundTrip

namespace GidsStack.Dataset

open GidsStack.PageCache GidsStack.Kernel
open Lib (Reachable Guarded)

variable {R : Nat} {A : Type*} {E : Type}

/-! ## The array in the cache -/

/-- What a pointer reads of element `n` of an array with a row of `rowDim` elements on a page:
    its place in the slot of its page, or on the SSD, from where an invalid page is read. -/
def readElement (s : St R A E) (r : Fin R) (rowDim n : Nat) : E :=
  if (s.pages ⟨r, n / rowDim⟩).state.isValid then
    s.slotData (s.pages ⟨r, n / rowDim⟩).offset (n % rowDim)
  else s.ssd ⟨r, n / rowDim⟩ (n % rowDim)

/-- Where every page's last values are kept, they are what is read. -/
theorem readElement_of_backed {s : St R A E} (h : Backed s) (r : Fin R) (rowDim n : Nat) :
    readElement s r rowDim n = s.written ⟨r, n / rowDim⟩ (n % rowDim) := by
  rw [readElement]
  split
  · rename_i hv
    rw [h.cached _ hv]
  · rename_i hv
    rw [h.store _ fun hvalid => absurd hvalid hv]

/-! ## The kernel -/

/-- The arguments of `write_feature_kernel2`: the range that the array is, the elements of a row,
    the source tensor and the offset into it. -/
structure WriteLaunch (R : Nat) (E : Type) where
  range : Fin R
  dim : Nat
  inTensor : Nat → E
  offset : Nat

/-- What the thread of a cell writes to it. -/
def WriteLaunch.value (w : WriteLaunch R E) (row i : Nat) : E :=
  w.inTensor (row * w.dim + i + w.offset)

/-- The cache, and the cells that are still to be written. -/
structure Writing (R : Nat) (A : Type*) (E : Type) where
  cache : St R A E
  todo : List (Nat × Nat)

/-- What threads do next: a pointer acquires a page for them, one of them writes its element, or
    they give references back; `run` and `spurious` are the steps of these calls. -/
inductive WriteAct (R : Nat) (A : Type*)
  | acquire (a : A) (c : Call R)
  | write (a : A) (e : Nat)
  | release (a : A) (m : Nat)
  | run (a : A)
  | spurious (a : A)

/-- The page whose window a pointer is in. -/
def window (s : St R A E) (a : A) : Option (PageId R) :=
  match s.pc a with
  | .holding c _ _ => some c.page
  | _ => none

/-- The step of the cache. -/
def WriteAct.toAct (w : WriteLaunch R E) (s : St R A E) : WriteAct R A → Act R A E
  | .acquire a c => .acquire a c
  | .write a e => .write a e (w.value ((window s a).elim 0 (·.index)) e)
  | .release a m => .release a m
  | .run a => .run a
  | .spurious a => .spurious a

namespace Writing

/-- A page is acquired by `operator[]` for a cell that is still to be written, and such a cell is
    written when its row's page is in the window. -/
def Enabled (w : WriteLaunch R E) (s : Writing R A E) : WriteAct R A → Prop
  | .acquire _ c => c.page.range = w.range ∧ (∃ cell ∈ s.todo, cell.1 = c.page.index) ∧
    c.write = false ∧ c.mark = true
  | .write a e => ∃ p ∈ window s.cache a, p.range = w.range ∧ (p.index, e) ∈ s.todo
  | _ => True

instance decidableEnabled (w : WriteLaunch R E) (s : Writing R A E) :
    ∀ act, Decidable (s.Enabled w act)
  | .acquire _ _ => inferInstanceAs (Decidable (_ ∧ _ ∧ _ ∧ _))
  | .write _ _ => inferInstanceAs (Decidable (∃ p ∈ window s.cache _, _ ∧ _))
  | .release _ _ => inferInstanceAs (Decidable True)
  | .run _ => inferInstanceAs (Decidable True)
  | .spurious _ => inferInstanceAs (Decidable True)

/-- The cells to be written after a step. -/
def left (s : Writing R A E) : WriteAct R A → List (Nat × Nat)
  | .write a e => (window s.cache a).elim s.todo fun p => s.todo.erase (p.index, e)
  | _ => s.todo

/-- Nothing is left to be written. -/
theorem eq_of_done {s : Writing R A E} (h : s.todo = []) : s = ⟨s.cache, []⟩ := by
  rw [← h]

variable [NeZero R] [DecidableEq A]

def step (cfg : Config R) (w : WriteLaunch R E) (s : Writing R A E) (act : WriteAct R A) :
    Option (Writing R A E) :=
  if s.Enabled w act then
    (PageCache.step cfg s.cache (act.toAct w s.cache)).map fun t => ⟨t, s.left act⟩
  else none

variable [Fintype A]

/-- The step of the cache is one of a run that marks the pages it writes. -/
def Marks (w : WriteLaunch R E) (s : Writing R A E) (act : WriteAct R A) : Prop :=
  Marking s.cache (act.toAct w s.cache)

instance decidableMarks (w : WriteLaunch R E) (s : Writing R A E) (act : WriteAct R A) :
    Decidable (s.Marks w act) :=
  inferInstanceAs (Decidable (Marking _ _))

end Writing

/-! ## What the kernel has written -/

/-- The cells that are done have their values, and nothing else has changed. -/
structure Written (w : WriteLaunch R E) (cells : List (Nat × Nat)) (s : St R A E)
    (t : Writing R A E) : Prop where
  todo : ∀ c ∈ t.todo, c ∈ cells
  done : ∀ c ∈ cells, c ∉ t.todo → t.cache.written ⟨w.range, c.1⟩ c.2 = w.value c.1 c.2
  kept : ∀ p e, ¬ (p.range = w.range ∧ (p.index, e) ∈ cells) → t.cache.written p e = s.written p e

section Written

variable {w : WriteLaunch R E} {cells : List (Nat × Nat)} {s s' : St R A E}

theorem Written.start (w : WriteLaunch R E) (cells : List (Nat × Nat)) (s : St R A E) :
    Written w cells s ⟨s, cells⟩ where
  todo _ hc := hc
  done _ hc hno := absurd hc hno
  kept _ _ _ := rfl

/-- Steps that write no element. -/
theorem Written.of_eq {t u : Writing R A E} (h : Written w cells s t)
    (hcache : u.cache.written = t.cache.written) (htodo : u.todo = t.todo) :
    Written w cells s u where
  todo c hc := h.todo c (htodo ▸ hc)
  done c hc hno := by
    rw [hcache]
    exact h.done c hc (htodo ▸ hno)
  kept p e hno := by
    rw [hcache]
    exact h.kept p e hno

/-- A cell is written. -/
theorem Written.write {t : Writing R A E} (h : Written w cells s t) {c : St R A E} {row e : Nat}
    (hmem : (row, e) ∈ t.todo)
    (hc : c.written = Function.update t.cache.written ⟨w.range, row⟩
      (Function.update (t.cache.written ⟨w.range, row⟩) e (w.value row e))) :
    Written w cells s ⟨c, t.todo.erase (row, e)⟩ where
  todo x hx := h.todo x (List.mem_of_mem_erase hx)
  done x hx hno := by
    obtain ⟨row', e'⟩ := x
    show c.written _ e' = _
    rw [hc]
    by_cases hrow : row' = row
    · subst hrow
      rw [Function.update_self]
      by_cases he : e' = e
      · rw [he, Function.update_self]
      · rw [Function.update_of_ne he]
        refine h.done _ hx fun hmem' => hno ((List.mem_erase_of_ne ?_).mpr hmem')
        exact fun heq => he (Prod.mk.inj heq).2
    · rw [Function.update_of_ne fun heq => hrow (PageId.mk.inj heq).2]
      refine h.done _ hx fun hmem' => hno ((List.mem_erase_of_ne ?_).mpr hmem')
      exact fun heq => hrow (Prod.mk.inj heq).1
  kept p e' hno := by
    show c.written p e' = _
    rw [hc]
    by_cases hp : p = ⟨w.range, row⟩
    · subst hp
      rw [Function.update_self, Function.update_of_ne, h.kept _ _ hno]
      rintro rfl
      exact hno ⟨rfl, h.todo _ hmem⟩
    · rw [Function.update_of_ne hp, h.kept _ _ hno]

/-- What a finished kernel has written is what `writeFeatureKernel2` makes of the array. -/
theorem Written.kernel2 (h : Written w cells s ⟨s', []⟩) (hcells : ∀ c ∈ cells, c.2 < w.dim)
    (array : Nat → E) (n : Nat)
    (harray : s.written ⟨w.range, n / w.dim⟩ (n % w.dim) = array n) :
    s'.written ⟨w.range, n / w.dim⟩ (n % w.dim) =
      writeFeatureKernel2 cells w.inTensor w.dim w.offset array n := by
  rw [writeFeatureKernel2]
  by_cases hmem : (n / w.dim, n % w.dim) ∈ cells
  · rw [h.done _ hmem List.not_mem_nil, WriteLaunch.value, Nat.div_add_mod']
    symm
    refine scatter_eq (fun c _ hc => by rw [hc]) (.inr ⟨_, hmem, Nat.div_add_mod' n w.dim⟩)
  · rw [h.kept _ _ fun hcell => hmem hcell.2, harray]
    symm
    refine scatter_other fun c hc hkey => hmem ?_
    -- a cell is the place of its element
    have hlt := hcells c hc
    have hdiv : n / w.dim = c.1 := by
      rw [← hkey, Nat.mul_comm, Nat.mul_add_div (Nat.lt_of_le_of_lt (Nat.zero_le _) hlt),
        Nat.div_eq_of_lt hlt, Nat.add_zero]
    have hmod : n % w.dim = c.2 := by
      rw [← hkey, Nat.mul_comm, Nat.mul_add_mod, Nat.mod_eq_of_lt hlt]
    rwa [hdiv, hmod]

end Written

/-! ## The call -/

section Store

variable [NeZero R] [DecidableEq A] [Fintype A]

/-- A run of the kernel from `s` to `t`, before and after which no thread is in the cache.  At
    its end no slot is FREE or waits for its page and yet names a DIRTY page. -/
structure Writes (cfg : Config R) (w : WriteLaunch R E) (cells : List (Nat × Nat))
    (s t : St R A E) : Prop where
  start : ∀ a, s.pc a = .idle
  run : Reachable (· = ⟨s, cells⟩) (Guarded (Writing.step cfg w) fun s act => s.Marks w act) ⟨t, []⟩
  ended : ∀ a, t.pc a = .idle
  quiet : ∀ i < cfg.nPages, (t.cachePages i).pageTakeLock ≠ .locked
  named : ∀ i < cfg.nPages,
    (t.cachePages i).pageTakeLock = .free ∨ (t.pages (slotPage t i)).state.st = .nvB →
      (t.pages (slotPage t i)).state.isDirty = false

/-- `store_tensor`: the kernel, and a flush to its end. -/
def StoreTensor (cfg : Config R) (w : WriteLaunch R E) (cells : List (Nat × Nat))
    (s s' : St R A E) : Prop :=
  ∃ t f, Writes cfg w cells s t ∧ Flushes cfg t f ∧ (∀ i < cfg.nPages, f.pc i = .done) ∧ f.st = s'

variable {cfg : Config R} {w : WriteLaunch R E} {cells : List (Nat × Nat)} {s s' : St R A E}

/-- A step of the kernel. -/
theorem Written.step {t u : Writing R A E} (h : Written w cells s t) (ho : SyncOnly t.cache)
    {act : WriteAct R A} (hok : t.Marks w act) (hs : t.step cfg w act = some u) :
    Written w cells s u := by
  rw [Writing.step] at hs
  split at hs
  case isFalse => cases hs
  rename_i hen
  obtain ⟨c, hc, rfl⟩ := Option.map_eq_some_iff.mp hs
  cases act with
  | write a e =>
    obtain ⟨p, hp, hrange, hmem⟩ := hen
    have hwin : window t.cache a = some p := hp
    have hpage : p = ⟨w.range, p.index⟩ := by rw [← hrange]
    rw [WriteAct.toAct, hwin, PageCache.step] at hc
    rw [Writing.left, hwin]
    refine h.write hmem ?_
    rw [window] at hwin
    split at hc <;> cases hc
    rename_i d i marked hpc
    rw [hpc] at hwin
    rw [← hpage, ← Option.some.inj hwin]
    rfl
  | _ => exact h.of_eq (step_written ho hok.sync rfl hc) rfl

/-- A run of the kernel is one of the cache. -/
theorem writing_reached (hs : Reached cfg Marking s) {t : Writing R A E}
    (h : Reachable (· = ⟨s, cells⟩) (Guarded (Writing.step cfg w) fun s act => s.Marks w act) t) :
    Reached cfg Marking t.cache ∧ Written w cells s t := by
  induction h with
  | init h =>
    rw [h]
    exact ⟨hs, .start w cells s⟩
  | @step t u act _ hstep ih =>
    obtain ⟨hreached, hwritten⟩ := ih
    obtain ⟨hok, hstep⟩ := hstep
    refine ⟨?_, hwritten.step (sync_reached (marking_sync hreached)).2 hok hstep⟩
    rw [Writing.step] at hstep
    split at hstep
    case isFalse => cases hstep
    obtain ⟨c, hc, rfl⟩ := Option.map_eq_some_iff.mp hstep
    exact .step hreached ⟨hok, hc⟩

/-- In every run of `store_tensor` in which the pointers mark the pages they write: what the
    kernel makes of the array is what is read afterwards, and what the SSDs have. -/
theorem StoreTensor.readElement (hs : Reached cfg Marking s) (hcells : ∀ c ∈ cells, c.2 < w.dim)
    (h : StoreTensor cfg w cells s s') (n : Nat) :
    Dataset.readElement s' w.range w.dim n =
        writeFeatureKernel2 cells w.inTensor w.dim w.offset
          (Dataset.readElement s w.range w.dim) n ∧
      s'.ssd ⟨w.range, n / w.dim⟩ (n % w.dim) =
        writeFeatureKernel2 cells w.inTensor w.dim w.offset
          (Dataset.readElement s w.range w.dim) n := by
  obtain ⟨t, f, hwrites, hflush, hdone, rfl⟩ := h
  obtain ⟨hreached, hwritten⟩ := writing_reached hs hwrites.run
  have hbacked := backed_reached hreached
  have hstored := (writes_kept cfg hreached hwrites.quiet hwrites.named).flushed f hflush hdone
  have hflushing := flushing_reached hflush
  have hkernel := hwritten.kernel2 hcells (Dataset.readElement s w.range w.dim) n
    (readElement_of_backed (backed_reached hs) _ _ _).symm
  refine ⟨?_, by rw [hstored]; exact hkernel⟩
  rw [Dataset.readElement, ← hkernel]
  split
  · rename_i hv
    rw [(hflushing.page _).1] at hv
    rw [hflushing.slotData, (hflushing.page _).2, hbacked.cached _ hv]
  · rw [hstored]

end Store

end GidsStack.Dataset
