/-
  GidsStack.PageCache.Publication

  How a follower of a miss finds out the slot (debug.md, section 5): it spins
  until the offset of the page names a slot whose translation is the page.  A
  leader stores `ASYNC_PAGE_TRANS_PENDING` in the offset only two steps after it
  has set BUSY, and an evictor overwrites the translation of the old slot only
  after it has cleared the page's state, so that in between the test can be
  passed by the offset of the page's earlier stay.
-/

import GidsStack.PageCache.Wait

namespace GidsStack.PageCache

open Lib (Reachable Guarded runActs runOk reachable_of_runActs)
open Lib.PinCache (Stage Joined)

variable {R : Nat} [NeZero R] {A V : Type*} [DecidableEq A]

/-- Slot `i` is the one `find_slot` has returned for the current miss of page `p`, or is
    about to return, the page being written into it. -/
def SlotOfMiss (s : St R A V) (p : PageId R) (i : Nat) : Prop :=
  (s.history p).given = some i ∨ ∃ b, assignsPage s b = some (p, i)

/-- The page and the `page_trans` of a context that a submit has returned, or returns
    next, without a hit. -/
def Pc.followed : Pc R → Option (PageId R × Nat)
  | .submit c x .followCtrl => some (c.page, x.pageTrans)
  | .submitted c x => if x.isHit then none else some (c.page, x.pageTrans)
  | _ => none

section Named

variable {s : St R A V} {a : A} {p : PageId R} {i : Nat}

/-- An agent that has written page `p` into slot `i` is about to return it. -/
theorem assignsPage_of_written {R : Nat} {A V : Type*} {s : St R A V} {a : A} {p : PageId R}
    {i : Nat} {t : Bool} (hl : (s.pc a).leading = some (p, t))
    (ho : (s.pc a).own = some ⟨i, .written⟩) : assignsPage s a = some (p, i) := by
  rw [assignsPage]
  generalize s.pc a = k at hl ho
  cases k with
  | acquire c k =>
    cases k with
    | find k => cases k <;> cases ho; cases hl; rfl
    | _ => cases ho
  | submit c x k =>
    cases k with
    | find k => cases k <;> cases ho; cases hl; rfl
    | _ => cases ho
  | _ => cases ho

theorem slotOfMiss_of_named {R : Nat} [NeZero R] {A V : Type*} {s : St R A V} {p : PageId R}
    {i : Nat} (h : (abs s).Named p i) : SlotOfMiss s p i := by
  obtain h | ⟨b, t, hl, ho⟩ := h
  · exact .inl h
  · exact .inr ⟨b, assignsPage_of_written hl ho⟩

/-- A followed context knows the slot by its reference. -/
theorem followed_named {R : Nat} {A V : Type*} {s : St R A V} {a : A} {p : PageId R} {i : Nat}
    (h : (s.pc a).followed = some (p, i)) :
    ∃ n, (s.pc a).ref = some ⟨p, n, .named i⟩ := by
  generalize s.pc a = k at h
  cases k with
  | submit c x k =>
    cases k <;> cases h
    exact ⟨c.count, rfl⟩
  | submitted c x =>
    simp only [Pc.followed] at h
    split at h <;> cases h
    rename_i hx
    exact ⟨c.count, by simp [Pc.ref, ctxGrip, hx]⟩
  | _ => cases h

end Named

/-- The test of the NV_B branch passes only for the slot of the current miss, and a
    context that has passed it keeps that slot: in every clean run. -/
theorem follower_slot_current [Fintype A] (cfg : Config R) {s : St R A V}
    (h : Reached cfg Clean s) :
    (∀ a c x i, s.pc a = .submit c x (.followTrans i) →
      (s.cachePages i).pageTranslation = getGlobalAddress c.page → SlotOfMiss s c.page i) ∧
    ∀ a p i, (s.pc a).followed = some (p, i) → SlotOfMiss s p i := by
  obtain ⟨hi, hj⟩ := clean_reached h
  constructor
  · intro a c x i hpc ht
    have href : (abs s).ref a = some ⟨c.page, c.count, .aimed i⟩ := (abs_at hpc).2.2.2.2.2.2
    have hten : (abs s).tenant i = some c.page := by
      show tenantOf (s.cachePages i).pageTranslation = some c.page
      rw [ht, tenantOf_getGlobalAddress cfg.maxRange_pow]
    exact slotOfMiss_of_named (hj.aimed a _ i href rfl hten)
  · intro a p i hf
    obtain ⟨n, hn⟩ := followed_named hf
    exact slotOfMiss_of_named (hj.named a _ i hn rfl)

/-! ### A follower of a leader that has its slot -/

def followLeader : List (Act 1 (Fin 2) Nat) :=
  [.submit 0 (callFor 1 false false) 0] ++ runs 0 17
    ++ [.submit 1 (callFor 1 false false) 1] ++ runs 1 7

def followLeaderEnd : Option (St 1 (Fin 2) Nat) :=
  runActs (step (smallConfig 2 1 twoSlots_ok oneCtrl_ok))
    (newCache (Fin 2) (fun p e => 10 * p + e) 0) followLeader

theorem followLeaderEnd_isSome : followLeaderEnd.isSome = true := by decide +kernel

theorem followLeaderEnd_reached :
    Reached (smallConfig 2 1 (by decide) (by decide)) Clean
      (followLeaderEnd.get followLeaderEnd_isSome) :=
  reachable_of_runActs (.init (newCache_init _ _ _)) (l := followLeader) (by decide +kernel)
    (Option.some_get _).symm

theorem followLeaderEnd_slot :
    SlotOfMiss (followLeaderEnd.get followLeaderEnd_isSome) ⟨0, 1⟩ 0 :=
  (follower_slot_current _ followLeaderEnd_reached).2 1 ⟨0, 1⟩ 0 (by decide +kernel)

/-! ### A follower that reads the offset of an earlier stay

    Pages 0 and 1 are loaded into slots 0 and 1 and given back.  Context 2 evicts page
    0 for page 2 and has cleared its state, but not yet overwritten the translation
    of slot 0; context 0 leads a new miss of page 0 and has not yet stored the pending
    offset; context 3 follows it, and passes the test with slot 0.  Slot 0 goes to
    page 2, and page 0 gets slot 1. -/

def loadPage (a : A) (i : Nat) : List (Act 1 A Nat) :=
  [.submit a (callFor i false false) 0] ++ runs a 17 ++ [.post 0 0 0, .wait a true] ++ runs a 7
    ++ [.release a 1] ++ runs a 4

def staleFollower : List (Act 1 (Fin 4) Nat) :=
  loadPage 0 0 ++ loadPage 1 1
    ++ [.submit 2 (callFor 2 false false) 0] ++ runs 2 15
    ++ [.submit 0 (callFor 0 false false) 0] ++ runs 0 5
    ++ [.submit 3 (callFor 0 false false) 1] ++ runs 3 7
    ++ runs 2 2 ++ runs 0 12

def staleFollowerEnd : Option (St 1 (Fin 4) Nat) :=
  runActs (step (smallConfig 2 1 twoSlots_ok oneCtrl_ok))
    (newCache (Fin 4) (fun p e => 10 * p + e) 0) staleFollower

theorem staleFollowerEnd_isSome : staleFollowerEnd.isSome = true := by decide +kernel

theorem staleFollowerEnd_reached :
    Reached (smallConfig 2 1 (by decide) (by decide)) Proper
      (staleFollowerEnd.get staleFollowerEnd_isSome) :=
  reachable_of_runActs (.init (newCache_init _ _ _)) (l := staleFollower) (by decide +kernel)
    (Option.some_get _).symm

/-- The follower has been returned slot 0 of a miss that was given slot 1. -/
theorem staleFollower_wrong_slot :
    ¬ ∀ s : St 1 (Fin 4) Nat, Reached (smallConfig 2 1 (by decide) (by decide)) Proper s →
      ∀ a p i, (s.pc a).followed = some (p, i) → SlotOfMiss s p i := by
  intro hall
  have hslot := hall _ staleFollowerEnd_reached 3 ⟨0, 0⟩ 0 (by decide +kernel)
  rcases hslot with h | ⟨b, h⟩
  · revert h
    decide +kernel
  · revert b
    decide +kernel

end GidsStack.PageCache
