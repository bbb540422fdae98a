/-
  GidsStack.Requests.RowctxCache

  What the kernels that serve, check and get do to the cache: the invariant of a cache that
  is only read, and where they leave the contexts.
-/

import GidsStack.Requests.Rowctx
import GidsStack.PageCache.Reads

namespace GidsStack.Rowctx

open Function (update)
open PageCache
open Lib.PinCache (Referenced)

/-! ## Contexts that hold a slot -/

/-- A context that is hit has the slot of its page, which is valid and pinned. -/
structure Holds {A V : Type} (cfg : StoreConfig) (s : St 1 A V) (c : Call 1) (x : Ctx) : Prop where
  valid : (s.pages c.page).state.isValid = true
  offset : (s.pages c.page).offset = x.pageTrans
  translation : (s.cachePages x.pageTrans).pageTranslation = getGlobalAddress c.page
  slot : x.pageTrans < cfg.cache.nPages
  pinned : 0 < (s.pages c.page).state.cnt

/-- What the references of the cache say of a context that is hit. -/
theorem holds_of_hit {A V : Type} [Fintype A] {cfg : StoreConfig} {s : St 1 A V} {a : A}
    (h : Fetching cfg.cache s) {c : Call 1} {x : Ctx}
    (hpc : s.pc a = .submitted c x) (hit : x.isHit = true) : Holds cfg s c x := by
  have hi := h.kept.referenced
  have href : (abs s).ref a = some ⟨c.page, c.count, .fixed x.pageTrans⟩ := by
    show (s.pc a).ref = _
    rw [hpc, Pc.ref, ctxGrip, hit]
    rfl
  obtain ⟨hv, ho⟩ := hi.counted.fixed a _ _ href rfl
  have hoff : (s.pages c.page).offset = x.pageTrans := ho
  refine ⟨hv, hoff, ?_, ?_, ?_⟩
  · rw [← hoff]
    exact valid_translation hi hv
  · rw [← hoff]
    exact (valid_slot hi h.fit hv).1
  · have hge := Lib.PinCache.count_ge href
    have hcnt : _ ≤ (s.pages c.page).state.cnt := hi.counted.refCount c.page
    have hpos := c.count_pos
    exact Nat.lt_of_lt_of_le hpos (hge.trans hcnt)

variable {A V : Type} [DecidableEq A] {cfg : StoreConfig} {s : St 1 A V} {a : A}

/-! ## The service kernel -/

/-- The context of a command in flight has its page published for it. -/
theorem finalize_eq {cmd : Cmd 1 A} {rest : List (Cmd 1 A)} {c : Call 1} {x : Ctx} {l : Nat}
    (hsent : Sent s 0 l cmd c x) (hit : x.isHit = false)
    (hst : (s.pages c.page).state.st = .nvB) :
    finalize (dequeue s 0 l cmd rest) cmd.owner 0 l cmd =
      publishFor s cmd.owner c x cmd rest := by
  obtain ⟨hpc, -, hctrl, rfl, hcid, -⟩ := hsent
  have hcid : cmd.cid = x.cid := hcid
  simp only [finalize, dequeue, St.setQp, hpc, hit, hst, publishFor, hctrl, hcid,
    Bool.false_eq_true, if_false, setOffset_state, took_pages]

/-! ## The ready check -/

section Kernels

variable [Fintype A]

/-- A context that takes up a slot, or stays as it is. -/
def Refreshed (k k' : Pc 1) : Prop :=
  k' = k ∨ ∃ c x i, k = .submitted c x ∧ x.hasPendingIo = false ∧
    k' = .submitted c { x with pageTrans := i, isHit := true }

/-- A ready check of one context. -/
theorem refresh_fetching (h : Fetching cfg.cache s) (a : A) :
    Fetching cfg.cache (refresh cfg s a) ∧ (refresh cfg s a).ssd = s.ssd ∧
      ∀ b, Refreshed (s.pc b) ((refresh cfg s a).pc b) := by
  rw [refresh]
  split
  · rename_i c x hpc
    dsimp only
    split
    · rename_i hcond
      obtain ⟨hit, hst, -, -⟩ := hcond
      obtain ⟨hpend, hf⟩ := h.takeUp hpc hit hst
      refine ⟨hf, rfl, fun b => ?_⟩
      by_cases hb : b = a
      · subst hb
        exact .inr ⟨c, x, _, hpc, hpend, goto_pc_self ..⟩
      · exact .inl (goto_pc_ne _ _ hb _)
    · exact ⟨h, rfl, fun b => .inl rfl⟩
  · exact ⟨h, rfl, fun b => .inl rfl⟩

theorem Refreshed.trans {k k' k'' : Pc 1} (h : Refreshed k k') (h' : Refreshed k' k'') :
    Refreshed k k'' := by
  obtain rfl | ⟨c, x, i, rfl, hpend, rfl⟩ := h
  · exact h'
  · obtain rfl | ⟨d, y, j, heq, -, rfl⟩ := h'
    · exact .inr ⟨c, x, i, rfl, hpend, rfl⟩
    · cases heq
      exact .inr ⟨c, x, j, rfl, hpend, rfl⟩

/-- And of all contexts of a request. -/
theorem refreshAll_fetching (h : Fetching cfg.cache s) (ctxs : List A) :
    Fetching cfg.cache (ctxs.foldl (refresh cfg) s) ∧ (ctxs.foldl (refresh cfg) s).ssd = s.ssd ∧
      ∀ b, Refreshed (s.pc b) ((ctxs.foldl (refresh cfg) s).pc b) := by
  induction ctxs generalizing s with
  | nil => exact ⟨h, rfl, fun b => .inl rfl⟩
  | cons a ctxs ih =>
    obtain ⟨hf, hssd, hpc⟩ := refresh_fetching h a
    obtain ⟨hf', hssd', hpc'⟩ := ih hf
    exact ⟨hf', hssd'.trans hssd, fun b => (hpc b).trans (hpc' b)⟩

/-! ## The get -/

/-- One step of `release_page`. -/
theorem runRelease_succ {A V : Type} [DecidableEq A] {s : St 1 A V} {a : A} (n : Nat) {c : Call 1}
    {i m : Nat} {marked : Bool} {hm : m ≤ c.count} {k : ReleasePc}
    (hpc : s.pc a = .release c i marked m hm k) :
    runRelease (n + 1) s a = runRelease n (releaseStep s a c i marked m hm k) a := by
  simp only [runRelease, hpc]

/-- `release_page` of a page with no prefetch planned. -/
theorem runRelease_eq {A V : Type} [DecidableEq A] {s : St 1 A V} {a : A} {c : Call 1} {i : Nat}
    (hcount : (s.pages c.page).prefetchCount = 0#8)
    (hcounter : (s.pages c.page).prefetchCounter = 0#8) :
    runRelease 6 (s.goto a (.release c i false c.count (Nat.le_refl _) .loadPrefetch)) a =
      ((s.setState c.page ((s.pages c.page).state - BitVec.ofNat 32 c.count)).setRefCount c.page
        ((s.pages c.page).refCount - BitVec.ofNat 32 c.count)).goto a .idle := by
  -- neither count is set, so that only the caller's own reference is taken off
  have hzero : ¬ 0 < byteCount 0#8 := by decide
  rw [runRelease_succ 5 (goto_pc_self ..), releaseStep, goto_pages, hcount]
  simp only [if_neg hzero]
  rw [runRelease_succ 4 (goto_pc_self ..), releaseStep, goto_pages, goto_pages, hcounter]
  simp only [Nat.succ_le_iff, if_neg hzero]
  rw [runRelease_succ 3 (goto_pc_self ..), releaseStep, runRelease_succ 2 (goto_pc_self ..),
    releaseStep, runRelease, released]
  simp [St.goto, St.setState, St.setRefCount, St.setPage]

/-- A row of a get frees its context. -/
theorem freeRow_fetching (h : Fetching cfg.cache s) (hit : IsHit (s.pc a) = true) :
    Fetching cfg.cache (freeRow cfg s a) ∧ (freeRow cfg s a).ssd = s.ssd ∧
      (freeRow cfg s a).pc a = .idle ∧ ∀ b, b ≠ a → (freeRow cfg s a).pc b = s.pc b := by
  unfold IsHit at hit
  split at hit
  · rename_i c x hpc
    simp only [freeRow, hpc]
    -- a context that is hit has a slot of the cache, so that the release is made
    rw [if_pos (holds_of_hit h hpc hit).slot,
      runRelease_eq (h.bare _).prefetchCount (h.bare _).prefetchCounter]
    exact ⟨h.giveBack hpc hit, rfl, goto_pc_self .., fun b hb => goto_pc_ne _ _ hb _⟩
  · cases hit

/-- And the get frees those of all rows. -/
theorem freeAll_fetching (h : Fetching cfg.cache s) {ctxs : List A} (hnodup : ctxs.Nodup)
    (hit : ∀ a ∈ ctxs, IsHit (s.pc a) = true) :
    Fetching cfg.cache (ctxs.foldl (freeRow cfg) s) ∧
      (ctxs.foldl (freeRow cfg) s).ssd = s.ssd ∧
      (∀ a ∈ ctxs, (ctxs.foldl (freeRow cfg) s).pc a = .idle) ∧
      ∀ b, b ∉ ctxs → (ctxs.foldl (freeRow cfg) s).pc b = s.pc b := by
  induction ctxs generalizing s with
  | nil => exact ⟨h, rfl, fun a ha => (List.not_mem_nil ha).elim, fun b _ => rfl⟩
  | cons a ctxs ih =>
    obtain ⟨hna, hnd⟩ := List.nodup_cons.mp hnodup
    obtain ⟨hf, hssd, hpc, hne⟩ := freeRow_fetching h (hit a List.mem_cons_self)
    obtain ⟨hf', hssd', hidle, hother⟩ := ih hf hnd fun b hb => by
      rw [hne b fun heq => hna (heq ▸ hb)]
      exact hit b (List.mem_cons_of_mem _ hb)
    refine ⟨hf', hssd'.trans hssd, fun b hb => ?_, fun b hb => ?_⟩
    · rcases List.mem_cons.mp hb with rfl | hb
      · exact (hother b hna).trans hpc
      · exact hidle b hb
    · rw [List.mem_cons, not_or] at hb
      exact (hother b hb.2).trans (hne b hb.1)

end Kernels

end GidsStack.Rowctx
