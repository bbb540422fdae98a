/-
  GidsStack.PageCache.Fetch

  Asynchronous submits that only read.  Their contexts are finished by somebody
  else (gids_kernel.cu): a kernel that takes completions off the queues publishes
  the page of the context a completion is for, and one that checks contexts takes
  up the slot of a page that is valid.  Neither runs while a submit does.
-/

import GidsStack.PageCache.Leader
import GidsStack.PageCache.Sync
import GidsStack.Lib.PinCache.Assigned

namespace GidsStack.PageCache

open Function (update)
open Lib (Reachable Guarded runActs)
open Lib.PinCache (Ref Guard Exclusive Referenced Counted Assigned)

variable {R : Nat} [NeZero R] {A V : Type*} [DecidableEq A]

/-! ## Leaders that publish their own misses -/

section Own

variable [Fintype A]

/-- Nobody leads a valid page, and a miss is published for the slot it was given. -/
def ownGuard : Guard (PageId R) Nat A where
  nowhere := asyncPageTransPending
  lead v p _ := v.valid p = false
  win v _ p i := v.leader p ≠ none ∧ v.given p = some i ∧ v.shared p = true ∧
    ∀ b k, v.polling b = some k → k.page ≠ p
  unpad v p n := (∑ a, Ref.on (v.ref a) p) + n ≤ v.cnt p
  recount := False

/-- The guard places. -/
theorem ownGuard_placing {R : Nat} {A : Type*} [Fintype A] :
    (ownGuard : Guard (PageId R) Nat A).Placing where
  lead _ _ _ h := h
  win _ _ _ _ h := ⟨h.1, by simp [h.2.1], h.2.2.1, h.2.2.2⟩
  place _ _ _ _ h := h.2.1

/-- And it covers. -/
theorem ownGuard_covering {R : Nat} {A : Type*} [Fintype A] :
    (ownGuard : Guard (PageId R) Nat A).Covering where
  exact h := h
  cover _ _ _ h := h

/-- Counts fit and cover what they stand for, nobody leads a valid page, only contexts with
    a command of their own poll, and the cache is not cleared under a page. -/
structure OwnRun (s : St R A V) (act : Act R A V) : Prop where
  adds : AddsFit s act
  pins : PinsCounted s act
  lead : LeadsInvalid s act
  poll : PollsOwn s act
  clear : ClearsUnoccupied s act

/-- What such a run keeps. -/
structure Kept (s : St R A V) : Prop where
  commanded : Commanded s
  referenced : Referenced (abs s)
  assigned : Assigned (abs s)

variable {cfg : Config R} {s s' : St R A V} {act : Act R A V} {a : A}

/-- A new cache. -/
theorem Kept.init {R : Nat} [NeZero R] {A V : Type*} [Fintype A] {s : St R A V} (h : Init s) :
    Kept s where
  commanded := .of_init h
  referenced := (init_unused h).referenced
  assigned := (init_unused h).assigned

/-- Whoever takes a count off a page has it there. -/
theorem OwnRun.subs {R : Nat} [NeZero R] {A V : Type*} [Fintype A] {s : St R A V}
    {act : Act R A V} (hk : Kept s) (h : OwnRun s act) : SubsFit s act := by
  rintro a ha ⟨p, n⟩ hd
  refine subs_fit hk.referenced.counted (fun b hb => ?_) hd
  rw [Option.mem_some_iff.mp hb] at ha
  exact h.pins b ha

/-- The steps of such a run are steps of the protocol under the guard. -/
theorem OwnRun.permits {R : Nat} [NeZero R] {A V : Type*} [Fintype A] {s : St R A V}
    {act : Act R A V} (hk : Kept s) (h : OwnRun s act) : Permits ownGuard s act where
  nowhere := rfl
  lead a p t ha hl := h.lead a (by rw [ha]; rfl) (p, t) hl
  win := by
    rintro a p i rfl hw
    have hpend := h.poll a rfl (p, i) hw
    have hrole := hk.commanded.attributed.role a
    have hpoll := hk.commanded.exclusive.poll
    rw [winsPage] at hw
    split at hw
    · rename_i c x blocking hpc
      split at hw <;> cases hw
      rw [hpc] at hpend
      rw [hpc, show (Pc.wait c x blocking .casPolling).role = .pending (x.errand c.page) from
        if_pos hpend] at hrole
      obtain ⟨⟨⟨hl, hsh⟩, hgv⟩, -⟩ := hrole
      have hlead : (abs s).leader c.page = some a := hl
      refine ⟨by rw [hlead]; simp, hgv, hsh, fun b k hk hkp => ?_⟩
      -- whoever polls for the page leads it, and the leader is about to begin
      have hb := (hpoll b k hk).1
      rw [hkp, hlead] at hb
      obtain rfl := Option.some.inj hb
      rw [show (abs s).polling a = (s.pc a).polling from rfl, hpc] at hk
      cases hk
    · cases hw
  add a p n ha hd := h.adds a (by rw [ha]; rfl) (p, n) hd
  sub a p n ha hd := h.subs hk a (by rw [ha]; rfl) (p, n) hd
  clear hc := h.clear (by rw [hc]; rfl)
  unpad a p ha hd := h.pins a (by rw [ha]; rfl) p hd
  exact := .inr ⟨hk.referenced.owned, hk.referenced.placed⟩

/-- The step lemma. -/
theorem Kept.step (h : Kept s) (hok : OwnRun s act) (hs : step cfg s act = some s') : Kept s' := by
  have hrun := Lib.PinCache.run_assigned ownGuard_placing ownGuard_covering h.referenced
    h.assigned (step_sim cfg hs (hok.permits h))
  exact ⟨h.commanded.step ⟨⟨hok.adds, hok.subs h, hok.clear⟩, hok.poll⟩ hs, hrun.1, hrun.2⟩

/-- A step of an agent in a wait. -/
theorem Kept.wait {R : Nat} [NeZero R] {A V : Type*} [DecidableEq A] [Fintype A] {s s' : St R A V}
    {a : A} (cfg : Config R) (h : Kept s) {c : Call R} {x : Ctx} {blocking : Bool} {k : WaitPc}
    (hpc : s.pc a = .wait c x blocking k) (hio : k = .casPolling → x.hasPendingIo = true)
    (hs : waitStep s a c x blocking k = some s') : Kept s' := by
  have hrun : PageCache.step cfg s (.run a) = some s' := by
    simp only [PageCache.step, runStep, hpc]
    exact hs
  refine h.step ⟨?_, ?_, ?_, ?_, ?_⟩ hrun
  · rintro b ⟨⟩ d hd
    simp [addsCount, hpc] at hd
  · rintro b ⟨⟩ p hd
    simp [dropsPin, hpc] at hd
  · rintro b ⟨⟩ l hl
    simp [leadsPage, hpc] at hl
  · rintro b ⟨⟩ w hw
    rw [hpc]
    cases k <;> simp [winsPage, hpc] at hw
    exact hio rfl
  · intro hc
    cases hc

/-- A step of an agent that gives a reference back and drops no pin. -/
theorem Kept.release {R : Nat} [NeZero R] {A V : Type*} [DecidableEq A] [Fintype A]
    {s : St R A V} {a : A} (cfg : Config R) (h : Kept s) {c : Call R} {i m : Nat} {marked : Bool}
    {hm : m ≤ c.count} {k : ReleasePc} (hpc : s.pc a = .release c i marked m hm k)
    (hk : k.unpinned = true) : Kept (releaseStep s a c i marked m hm k) := by
  have hrun : PageCache.step cfg s (.run a) = some (releaseStep s a c i marked m hm k) := by
    simp only [PageCache.step, runStep, hpc]
  refine h.step ⟨?_, ?_, ?_, ?_, ?_⟩ hrun
  · rintro b ⟨⟩ d hd
    simp [addsCount, hpc] at hd
  · rintro b ⟨⟩ p hd
    rw [dropsPin, hpc] at hd
    split at hd
    · rename_i heq
      cases heq
      cases hk
    · cases hd
  · rintro b ⟨⟩ l hl
    simp [leadsPage, hpc] at hl
  · rintro b ⟨⟩ w hw
    simp [winsPage, hpc] at hw
  · intro hc
    cases hc

/-- Neither a wait nor a release asks for anything when it starts. -/
theorem Kept.start (cfg : Config R) (h : Kept s) (act : Act R A V) (ha : act.agent = none)
    (hc : act.isClear = false) (hs : PageCache.step cfg s act = some s') : Kept s' := by
  refine h.step ⟨?_, ?_, ?_, ?_, ?_⟩ hs
  · intro b hb
    rw [ha] at hb
    cases hb
  · intro b hb
    rw [ha] at hb
    cases hb
  · intro b hb
    rw [ha] at hb
    cases hb
  · intro b hb
    rw [ha] at hb
    cases hb
  · intro hcl
    rw [hc] at hcl
    cases hcl

/-- An agent goes on where the protocol sees it stand already. -/
theorem Kept.moves (h : Kept s) {k l : Pc R} (hpc : s.pc a = k) (hv : l.view = k.view)
    (hr : l.role = k.role ∨ l.role = .none) (hf : l.isFresh = true) : Kept (s.goto a l) := by
  have habs := abs_goto_same hpc hv
  refine ⟨⟨habs ▸ h.commanded.exclusive, ?_, fun b => ?_⟩, habs ▸ h.referenced, habs ▸ h.assigned⟩
  · rw [← hpc] at hr
    exact goto_attributed h.commanded.attributed h.commanded.exclusive a l hr
  · by_cases hb : b = a
    · rw [hb, goto_pc_self]
      exact hf
    · rw [goto_pc_ne _ _ hb]
      exact h.commanded.fresh b

/-- The polling flag is nobody's business but the waiters'. -/
theorem Kept.setPolling {R : Nat} [NeZero R] {A V : Type*} [Fintype A] {s : St R A V}
    (h : Kept s) (p : PageId R) (b : Bool) : Kept (s.setPolling p b) where
  commanded := ⟨abs_setPolling s p b ▸ h.commanded.exclusive,
    { h.commanded.attributed with role := h.commanded.attributed.role }, h.commanded.fresh⟩
  referenced := abs_setPolling s p b ▸ h.referenced
  assigned := abs_setPolling s p b ▸ h.assigned

/-! ## Contexts finished by somebody else -/

section Finish

variable {c : Call R} {x : Ctx}

/-- Somebody takes the completion of a context's command off its queue pair and publishes the
    page for it. -/
def publishFor {R : Nat} {A V : Type*} [DecidableEq A] (s : St R A V) (a : A) (c : Call R)
    (x : Ctx) (cmd : Cmd R A) (rest : List (Cmd R A)) : St R A V :=
  let q := s.qps x.memberAcquireCtrl x.queue
  let t := s.setQp x.memberAcquireCtrl x.queue
    { q with cq := rest, cidLocked := update q.cidLocked x.cid false }
  let t := (t.took c.page x.memberAcquireCtrl x.queue cmd).setOffset c.page x.pageTrans
  let t := t.setState c.page ((s.pages c.page).state ^^^ Word.disableBusyEnableValid)
  ((t.published c.page).setPolling c.page false).goto a
    (.submitted c { x with isHit := true, hasPendingIo := false })

/-- It is a wait, run from its first step to its last. -/
theorem Kept.publishFor (cfg : Config R) (h : Kept s) (hpc : s.pc a = .submitted c x)
    (hw : c.write = false) (hit : x.isHit = false) (hio : x.hasPendingIo = true)
    (hst : (s.pages c.page).state.st = .nvB) {cmd : Cmd R A} {rest : List (Cmd R A)}
    (hcq : (s.qps x.memberAcquireCtrl x.queue).cq = cmd :: rest) (hcid : cmd.cid = x.cid) :
    Kept (publishFor s a c x cmd rest) := by
  -- `casPolling` takes the flag that `setPolling` has put down
  have h1 : Kept ((s.setPolling c.page false).goto a (.wait c x false .loadState)) := by
    refine (h.setPolling c.page false).start cfg (.wait a false) rfl rfl ?_
    simp only [PageCache.step, St.setPolling, St.setPage, hpc]
  have h2 := h1.wait cfg (goto_pc_self ..) (by rintro ⟨⟩) (by
    simp only [waitStep, hit, Bool.false_eq_true, if_false, waitDispatch, goto_pages,
      setPolling_state, hst]
    rfl)
  have h3 := h2.wait cfg (goto_pc_self ..) (fun _ => hio) (by
    simp only [waitStep, goto_pages, setPolling_pollingFlag, if_true, Bool.false_eq_true, if_false]
    rfl)
  have h4 := h3.wait cfg (goto_pc_self ..) (by rintro ⟨⟩) (by
    simp only [waitStep, goto_qps, St.setPolling, St.setPage, hcq, takeCompletion, hcid, if_true]
    rfl)
  have h5 := h4.wait cfg (goto_pc_self ..) (by rintro ⟨⟩) rfl
  have h6 := h5.wait cfg (goto_pc_self ..) (by rintro ⟨⟩) (by
    simp only [waitStep, hw, Bool.false_eq_true, if_false]
    rfl)
  have h7 := h6.wait cfg (goto_pc_self ..) (by rintro ⟨⟩) rfl
  have h8 := h7.wait cfg (goto_pc_self ..) (by rintro ⟨⟩) rfl
  have h9 := h8.moves (l := .submitted c { x with isHit := true, hasPendingIo := false })
    (goto_pc_self ..) rfl (.inr rfl) rfl
  -- the stores of these steps are those of the publication
  convert h9 using 1
  simp only [PageCache.publishFor, St.goto, St.setPolling, St.setOffset, St.setState, St.setPage,
    St.setQp, St.took, St.published, St.setHistory, Function.update_idem, Function.update_self]

/-- Somebody takes up for the context the slot of its page, which is valid. -/
theorem Kept.takeUp (cfg : Config R) (h : Kept s) (hpc : s.pc a = .submitted c x)
    (hw : c.write = false) (hit : x.isHit = false) (hst : (s.pages c.page).state.st = .vNb) :
    Kept ((s.setPolling c.page false).goto a
      (.submitted c { x with pageTrans := (s.pages c.page).offset, isHit := true })) := by
  have h1 : Kept (s.goto a (.wait c x false .loadState)) := by
    refine h.start cfg (.wait a false) rfl rfl ?_
    simp only [PageCache.step, hpc]
  have h2 := h1.wait cfg (goto_pc_self ..) (by rintro ⟨⟩) (by
    simp only [waitStep, hit, Bool.false_eq_true, if_false, waitDispatch, goto_pages, hst]
    rfl)
  have h3 := h2.wait cfg (goto_pc_self ..) (by rintro ⟨⟩) (by
    simp only [waitStep, hw, Bool.false_and, Bool.false_eq_true, if_false]
    rfl)
  have h4 := h3.wait cfg (goto_pc_self ..) (by rintro ⟨⟩) rfl
  have h5 := h4.moves
    (l := .submitted c { x with pageTrans := (s.pages c.page).offset, isHit := true })
    (goto_pc_self ..) ?_ (.inr rfl) rfl
  · convert h5 using 1
    simp only [St.goto, St.setPolling, St.setPage, Function.update_idem]
  · simp [Pc.view, St.goto, St.setPolling, St.setPage, Pc.leading, Pc.own, Pc.taking, Pc.assigned,
      Pc.serving, Pc.polling, Pc.ref, ctxGrip]

/-- Somebody gives the references of the context back and frees it. -/
theorem Kept.giveBack (cfg : Config R) (h : Kept s) (hpc : s.pc a = .submitted c x)
    (hit : x.isHit = true) (hcount : (s.pages c.page).prefetchCount = 0#8)
    (hcounter : (s.pages c.page).prefetchCounter = 0#8) :
    Kept (((s.setState c.page ((s.pages c.page).state - BitVec.ofNat 32 c.count)).setRefCount c.page
      ((s.pages c.page).refCount - BitVec.ofNat 32 c.count)).goto a .idle) := by
  -- a release begins where a wait has ended, and takes no prefetch branch
  have h1 : Kept (s.goto a (.holding c x.pageTrans false)) :=
    h.moves hpc (by simp [Pc.view, Pc.leading, Pc.own, Pc.taking, Pc.assigned,
      Pc.serving, Pc.polling, Pc.ref, ctxGrip, hit]) (.inr rfl) rfl
  have h2 : Kept ((s.goto a (.holding c x.pageTrans false)).goto a
      (.release c x.pageTrans false c.count (Nat.le_refl _) .loadPrefetch)) := by
    refine h1.start cfg (.release a c.count) rfl rfl ?_
    simp only [PageCache.step, goto_pc_self]
    exact dif_pos ⟨c.count_pos, Nat.le_refl _⟩
  have hzero : ¬ 0 < byteCount 0#8 := by decide
  have h3 := h2.release cfg (goto_pc_self ..) rfl
  simp only [releaseStep, goto_pages, hcount, if_neg hzero] at h3
  have h4 := h3.release cfg (goto_pc_self ..) rfl
  simp only [releaseStep, goto_pages, hcounter, Nat.succ_le_iff, if_neg hzero] at h4
  have h5 := h4.release cfg (goto_pc_self ..) rfl
  have h6 := h5.release cfg (goto_pc_self ..) rfl
  convert h6 using 1
  simp [releaseStep, St.goto, St.setState, St.setRefCount, St.setPage, released]

end Finish

end Own

end GidsStack.PageCache
