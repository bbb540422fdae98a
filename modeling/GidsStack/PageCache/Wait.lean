/-
  GidsStack.PageCache.Wait

  Waiters of one page: who holds `polling_flag`, and how often a miss is
  published.  A waiter tests the state of the page and takes the flag in two
  steps, and a page published in between has its flag clear again; a waiter
  that takes it then polls for a second completion and toggles the state back.
-/

import GidsStack.PageCache.Frame

namespace GidsStack.PageCache

open Function (update)
open Lib (Reachable Guarded runActs runOk reachable_of_runActs)
open Lib.PinCache (Guard Orderly)

variable {R : Nat} [NeZero R] {A V : Type*} [DecidableEq A]

/-! ## The polling flag has a holder -/

/-- The page whose `polling_flag` the agent has taken and not yet cleared. -/
def Pc.flagHeld : Pc R → Option (PageId R)
  | .wait c _ _ .poll | .wait c _ _ .putCid | .wait c _ _ .storeOffset | .wait c _ _ .setDirty
  | .wait c _ _ .publish | .wait c _ _ .releaseFlag | .wait c _ _ .dropFlag => some c.page
  | _ => none

/-- Whose flag is set has an agent that is polling or publishing for it. -/
def Flagged (s : St R A V) : Prop :=
  ∀ p, (s.pages p).pollingFlag = true → ∃ a, (s.pc a).flagHeld = some p

section Flag

variable {cfg : Config R} {s s' : St R A V} {a : A}

/-- A step of agent `a` alone: a flag stays set only if the agent keeps what it held,
    or holds it from now on. -/
theorem Flagged.of_step {R : Nat} {A V : Type*} {s s' : St R A V} {a : A}
    (h : Flagged s) (hne : ∀ b, b ≠ a → s'.pc b = s.pc b)
    (hf : ∀ q, (s'.pages q).pollingFlag = true → (s'.pc a).flagHeld = some q ∨
      (s.pages q).pollingFlag = true ∧ (s.pc a).flagHeld ≠ some q) : Flagged s' := by
  intro q hq
  obtain ha | ⟨hold, hna⟩ := hf q hq
  · exact ⟨a, ha⟩
  · obtain ⟨b, hb⟩ := h q hold
    have hba : b ≠ a := by
      rintro rfl
      exact hna hb
    exact ⟨b, by rw [hne b hba]; exact hb⟩

/-- A step of an agent that holds no flag, by which no flag is set. -/
theorem Flagged.of_idle {R : Nat} {A V : Type*} {s s' : St R A V} {a : A}
    (h : Flagged s) (hne : ∀ b, b ≠ a → s'.pc b = s.pc b)
    (ha : (s.pc a).flagHeld = none)
    (hf : ∀ q, (s'.pages q).pollingFlag = true → (s.pages q).pollingFlag = true) : Flagged s' :=
  h.of_step hne fun q hq => .inr ⟨hf q hq, by simp [ha]⟩

/-- A step of a waiter that goes on at `k` after storing nothing to a flag. -/
theorem Flagged.keep {R : Nat} {A V : Type*} [DecidableEq A] {s : St R A V} {a : A}
    (h : Flagged s) {t : St R A V} (k : Pc R) (hpc : t.pc = s.pc)
    (hk : k.flagHeld = (s.pc a).flagHeld)
    (hf : ∀ q, (t.pages q).pollingFlag = (s.pages q).pollingFlag) :
    Flagged (t.goto a k) := by
  refine h.of_step (fun b hb => by rw [goto_pc_ne _ _ hb, hpc]) fun q hq => ?_
  rw [goto_pages, hf] at hq
  rw [goto_pc_self, hk]
  by_cases ha : (s.pc a).flagHeld = some q
  · exact .inl ha
  · exact .inr ⟨hq, ha⟩

/-- A step of a waiter that clears the flag of its page. -/
theorem Flagged.clear {R : Nat} {A V : Type*} [DecidableEq A] {s : St R A V} {a : A}
    (h : Flagged s) (p : PageId R) (k : Pc R)
    (hk : ∀ q, (s.pc a).flagHeld = some q → q = p) :
    Flagged ((s.setPolling p false).goto a k) := by
  refine h.of_step (fun b hb => by rw [goto_pc_ne _ _ hb]; rfl) fun q hq => ?_
  rw [goto_pages, setPolling_pollingFlag] at hq
  split at hq
  · cases hq
  · rename_i hqp
    exact .inr ⟨hq, fun ha => hqp (hk q ha)⟩

theorem waitStep_flagged {R : Nat} {A V : Type*} [DecidableEq A] {s s' : St R A V} {a : A}
    {c : Call R} {x : Ctx} {blocking : Bool} {k : WaitPc}
    (hpc : s.pc a = .wait c x blocking k) (h : Flagged s)
    (hs : waitStep s a c x blocking k = some s') : Flagged s' := by
  have hself : ∀ k', (s.pc a).flagHeld = none → Flagged (s.goto a k') := fun k' ha =>
    h.of_idle (fun b hb => goto_pc_ne _ _ hb _) ha fun q hq => hq
  have hpage : ∀ q, (s.pc a).flagHeld = some q → q = c.page := by
    intro q hq
    rw [hpc] at hq
    cases k <;> cases hq <;> rfl
  cases k with
  | loadState =>
    simp only [waitStep] at hs
    split at hs <;> cases hs <;> exact hself _ (by rw [hpc]; rfl)
  | clearFlag w =>
    cases hs
    exact h.clear c.page _ hpage
  | markDirty =>
    cases hs
    exact h.keep (t := s.setState _ _) _ rfl (by rw [hpc]; rfl)
      fun q => pollingFlag_of_side (setState_side ..)
  | loadOffset =>
    cases hs
    exact hself _ (by rw [hpc]; rfl)
  | casPolling =>
    simp only [waitStep] at hs
    split at hs <;> cases hs
    · exact hself _ (by rw [hpc]; rfl)
    · refine h.of_step (fun b hb => by rw [goto_pc_ne _ _ hb]; rfl) fun q hq => ?_
      rw [goto_pages, setPolling_pollingFlag] at hq
      rw [goto_pc_self]
      split at hq
      · rename_i hqp
        exact .inl (congrArg some hqp.symm)
      · exact .inr ⟨hq, by rw [hpc]; simp [Pc.flagHeld]⟩
  | poll =>
    simp only [waitStep] at hs
    split at hs
    · cases hs
      exact h.keep (t := (s.setQp _ _ _).took _ _ _ _) _ rfl (by rw [hpc]; rfl) fun q => rfl
    · split at hs <;> cases hs
      exact h.keep (t := s) _ rfl (by rw [hpc]; rfl) fun q => rfl
  | putCid =>
    cases hs
    exact h.keep (t := s.setQp _ _ _) _ rfl (by rw [hpc]; rfl) fun q => rfl
  | storeOffset =>
    cases hs
    refine h.keep (t := s.setOffset _ _) _ rfl (by rw [hpc]; split <;> rfl)
      fun q => pollingFlag_of_side (setOffset_side ..)
  | setDirty =>
    cases hs
    exact h.keep (t := s.setState _ _) _ rfl (by rw [hpc]; rfl)
      fun q => pollingFlag_of_side (setState_side ..)
  | publish =>
    cases hs
    exact h.keep (t := (s.setState _ _).published _) _ rfl (by rw [hpc]; rfl)
      fun q => pollingFlag_of_side (setState_side ..)
  | releaseFlag =>
    cases hs
    exact h.clear c.page _ hpage
  | reload =>
    cases hs
    exact hself _ (by rw [hpc]; rfl)
  | dropFlag =>
    cases hs
    exact h.clear c.page _ hpage
  | recheck =>
    simp only [waitStep] at hs
    split at hs <;> cases hs <;> exact hself _ (by rw [hpc]; rfl)

/-- The flag is set only while its holder is polling or publishing: every step. -/
theorem step_flagged {act : Act R A V} (h : Flagged s) (hs : step cfg s act = some s') :
    Flagged s' := by
  have hstart : ∀ a k, (s.pc a).flagHeld = none → Flagged (s.goto a k) := fun a k ha =>
    h.of_idle (fun b hb => goto_pc_ne _ _ hb _) ha fun q hq => hq
  cases act with
  | run a =>
    have hne : ∀ b, b ≠ a → s'.pc b = s.pc b := fun b hb => runStep_pc_ne hs hb
    simp only [step, runStep] at hs
    split at hs <;> rename_i hpc
    · cases hs
      exact h.of_idle hne (by rw [hpc]; rfl) fun q hq => by rwa [acquireStep_pollingFlag] at hq
    · cases hs
      exact h.of_idle hne (by rw [hpc]; rfl) fun q hq => submitStep_pollingFlag cfg s a _ q _ _ hq
    · exact waitStep_flagged hpc h hs
    · cases hs
      refine h.of_idle hne (by rw [hpc]; rfl) fun q hq => ?_
      rwa [goto_pages, pollingFlag_of_side (setState_side ..)] at hq
    · cases hs
      exact h.of_idle hne (by rw [hpc]; rfl) fun q hq => by rwa [releaseStep_pollingFlag] at hq
    all_goals cases hs
  | spurious a =>
    simp only [step] at hs
    split at hs
    · rename_i k hpc
      cases k <;> cases hs <;> exact hstart a _ (by rw [hpc]; rfl)
    · rename_i k hpc
      cases k <;> cases hs <;> exact hstart a _ (by rw [hpc]; rfl)
    · cases hs
  | post ctrl queue n =>
    simp only [step, postStep] at hs
    split at hs <;> cases hs
    exact h
  | release a m =>
    simp only [step] at hs
    split at hs
    · rename_i hpc
      split at hs <;> cases hs
      exact hstart a _ (by rw [hpc]; rfl)
    · cases hs
  | setPrefetch p w =>
    cases hs
    intro q hq
    rw [setPrefetchCount_pollingFlag] at hq
    exact h q hq
  | setWindow p w =>
    cases hs
    intro q hq
    rw [setPrefetchCounter_pollingFlag] at hq
    exact h q hq
  | clear =>
    cases hs
    exact h
  | write a e v =>
    simp only [step] at hs
    split at hs <;> cases hs
    exact h
  | _ =>
    simp only [step] at hs
    split at hs <;> cases hs
    rename_i hpc
    exact hstart _ _ (by rw [hpc]; rfl)

end Flag

/-! ## One publication for every miss -/

/-- Any schedule of any operations in which counts stay inside their field. -/
structure AnySchedule (s : St R A V) (act : Act R A V) : Prop where
  adds : AddsFit s act
  subs : SubsFit s act
  clear : ClearsUnoccupied s act

/-- And in which leaders and waiters find the page as they left it: a leader sets
    BUSY on no VALID page, a waiter takes `polling_flag` of no page that has been
    published since it read NV_B. -/
structure OnePublisher (s : St R A V) (act : Act R A V) : Prop extends AnySchedule s act where
  lead : LeadsInvalid s act
  win : WinsOpen s act

noncomputable instance (s : St R A V) (act : Act R A V) : Decidable (AnySchedule s act) :=
  decidable_of_iff (AddsFit s act ∧ SubsFit s act ∧ ClearsUnoccupied s act)
    ⟨fun ⟨h1, h2, h3⟩ => ⟨h1, h2, h3⟩, fun ⟨h1, h2, h3⟩ => ⟨h1, h2, h3⟩⟩

noncomputable instance [Fintype A] (s : St R A V) (act : Act R A V) :
    Decidable (OnePublisher s act) :=
  decidable_of_iff (AnySchedule s act ∧ LeadsInvalid s act ∧ WinsOpen s act)
    ⟨fun ⟨h1, h2, h3⟩ => ⟨h1, h2, h3⟩, fun ⟨h1, h2, h3⟩ => ⟨h1, h2, h3⟩⟩

/-- A new cache with every `polling_flag` zero. -/
def InitFlags (s : St R A V) : Prop := Init s ∧ ∀ p, (s.pages p).pollingFlag = false

/-- From the leader's BUSY to the next one at most one waiter consumes a completion
    and the state is toggled at most once, once if the page is valid; a flag that is
    set has a holder. -/
structure PublishedOnce (s : St R A V) : Prop where
  once : ∀ p, (s.history p).published ≤ 1 ∧ (s.history p).consumed ≤ 1
  loading : ∀ p, (s.pages p).state.st = .nvB → (s.history p).published = 0
  valid : ∀ p, (s.pages p).state.isValid = true → (s.history p).published = 1 ∧
    (s.history p).consumed = if (s.history p).shared then 1 else 0
  flagged : Flagged s

theorem OnePublisher.permits {R : Nat} [NeZero R] {A V : Type*}
    {s : St R A V} {act : Act R A V} (hi : Orderly (abs s))
    (h : OnePublisher s act) : Permits looseGuard s act where
  nowhere := rfl
  lead := by
    rintro a p t rfl hl
    exact h.lead a rfl (p, t) hl
  win := by
    rintro a p i rfl hw
    exact h.win.win hi.owned hw
  add := by
    rintro a p n rfl hd
    exact h.adds a rfl (p, n) hd
  sub := by
    rintro a p n rfl hd
    exact h.subs a rfl (p, n) hd
  clear := by
    rintro rfl
    exact h.clear rfl
  unpad _ _ _ _ := trivial
  exact := .inl trivial

theorem onePublisher_reached {cfg : Config R} {s : St R A V}
    (h : Reachable InitFlags (Guarded (step cfg) OnePublisher) s) :
    Orderly (abs s) ∧ Flagged s := by
  refine h.invariant (I := fun s => Orderly (abs s) ∧ Flagged s) ?_ ?_
  · intro s hs
    exact ⟨(init_unused hs.1).orderly, fun p hp => absurd hp (by simp [hs.2 p])⟩
  · rintro s act s' ⟨hi, hf⟩ ⟨hok, hs⟩
    exact ⟨orderly_step hi (hok.permits hi) hs, step_flagged hf hs⟩

/-- A miss becomes open only by a leader setting BUSY. -/
theorem leader_opened {cfg : Config R} {s s' : St R A V} {act : Act R A V} {p : PageId R}
    (hs : step cfg s act = some s') (h : (s.history p).leader = none)
    (h' : (s'.history p).leader ≠ none) :
    ∃ a ∈ act.agent, ∃ t, leadsPage s a = some (p, t) := by
  have hh := step_history cfg hs
  generalize s'.history = h2 at hh h'
  cases hh with
  | same => exact absurd h h'
  | @led a q t hl =>
    by_cases hq : p = q
    · exact ⟨a, rfl, t, hq ▸ hl⟩
    · simp [St.led, St.setHistory, hq, h] at h'
  | @assigned a q i hl =>
    by_cases hq : p = q
    · simp [St.assigned, St.setHistory, ← hq, h] at h'
    · simp [St.assigned, St.setHistory, hq, h] at h'
  | @published a q hl =>
    by_cases hq : p = q
    · simp [St.published, St.setHistory, ← hq] at h'
    · simp [St.published, St.setHistory, hq, h] at h'
  | @sent a c x cid hl =>
    by_cases hq : p = c.page
    · simp [St.sent, St.setHistory, ← hq, h] at h'
    · simp [St.sent, St.setHistory, hq, h] at h'
  | @took a c x b cmd cq hl htake =>
    by_cases hq : p = c.page
    · simp [St.took, St.setHistory, ← hq, h] at h'
    · simp [St.took, St.setHistory, hq, h] at h'

/-- In every such run a miss is published once, and a page that is valid is never
    taken back to loading. -/
theorem waiters_publish_once (cfg : Config R) {s : St R A V}
    (h : Reachable InitFlags (Guarded (step cfg) OnePublisher) s) :
    PublishedOnce s ∧ ∀ act s', OnePublisher s act → step cfg s act = some s' →
      ∀ p, (s.pages p).state.st = .vNb → (s'.pages p).state.st ≠ .nvB := by
  obtain ⟨hi, hf⟩ := onePublisher_reached h
  refine ⟨⟨hi.tallied.once, ?_, ?_, hf⟩, ?_⟩
  · intro p hp
    exact hi.tallied.openOnce p (open_of_nvB hi.owned hp)
  · intro p hp
    exact ⟨hi.tallied.validOnce p hp, hi.tallied.validConsumed p hp⟩
  · intro act s' hok hs p hp hp'
    have hi' := orderly_step hi (hok.permits hi) hs
    have hl : (abs s).leader p = none := (hi.owned.openIff p).mpr (.inr (Word.st_vNb hp).1)
    obtain ⟨a, ha, t, hlead⟩ := leader_opened hs hl (open_of_nvB hi'.owned hp')
    have hinv := hok.lead a ha (p, t) hlead
    rw [(Word.st_vNb hp).1] at hinv
    cases hinv

/-! ### A leader and a follower

    Contexts 0 and 1 want page 0; both wait, and context 0 publishes. -/

def twoWaiters : List (Act 1 (Fin 2) Nat) :=
  [.submit 0 (callFor 0 false false) 0] ++ runs 0 17
    ++ [.submit 1 (callFor 0 false false) 1] ++ runs 1 7
    ++ [.post 0 0 0, .wait 1 true, .wait 0 true] ++ runs 0 7 ++ runs 1 3

def twoWaitersEnd : Option (St 1 (Fin 2) Nat) :=
  runActs (step (smallConfig 2 1 twoSlots_ok oneCtrl_ok))
    (newCache (Fin 2) (fun p e => 10 * p + e) 0) twoWaiters

theorem twoWaitersEnd_isSome : twoWaitersEnd.isSome = true := by decide +kernel

theorem twoWaitersEnd_reached :
    Reachable InitFlags (Guarded (step (smallConfig 2 1 (by decide) (by decide))) OnePublisher)
      (twoWaitersEnd.get twoWaitersEnd_isSome) :=
  reachable_of_runActs (.init ⟨newCache_init _ _ _, fun _ => rfl⟩) (l := twoWaiters)
    (by decide +kernel) (Option.some_get _).symm

/-- At the end of that run both hold the page, published once. -/
theorem twoWaitersEnd_publishedOnce :
    PublishedOnce (twoWaitersEnd.get twoWaitersEnd_isSome) ∧
      ((twoWaitersEnd.get twoWaitersEnd_isSome).pages ⟨0, 0⟩).state.st = .vNb :=
  ⟨(waiters_publish_once _ twoWaitersEnd_reached).1, by decide +kernel⟩

/-! ### A waiter that takes the flag too late

    Contexts 0 and 1 want page 0, context 2 wants page 1; contexts 1 and 2 use queue
    1, where the command of context 2 has identifier 0.  Context 1 reads NV_B;
    context 0 publishes page 0 and clears its flag; context 1 takes the flag,
    consumes the completion of context 2 and toggles page 0 back. -/

def lateWaiter : List (Act 1 (Fin 3) Nat) :=
  [.submit 0 (callFor 0 false false) 0] ++ runs 0 17
    ++ [.submit 1 (callFor 0 false false) 1] ++ runs 1 7
    ++ [.submit 2 (callFor 1 false false) 1] ++ runs 2 17
    ++ [.post 0 0 0, .post 0 1 0, .wait 1 true] ++ runs 1 1
    ++ [.wait 0 true] ++ runs 0 7 ++ runs 1 5

def lateWaiterEnd : Option (St 1 (Fin 3) Nat) :=
  runActs (step (smallConfig 2 1 twoSlots_ok oneCtrl_ok))
    (newCache (Fin 3) (fun p e => 10 * p + e) 0) lateWaiter

theorem lateWaiterEnd_isSome : lateWaiterEnd.isSome = true := by decide +kernel

theorem lateWaiterEnd_reached :
    Reachable InitFlags (Guarded (step (smallConfig 2 1 (by decide) (by decide))) AnySchedule)
      (lateWaiterEnd.get lateWaiterEnd_isSome) :=
  reachable_of_runActs (.init ⟨newCache_init _ _ _, fun _ => rfl⟩) (l := lateWaiter)
    (by decide +kernel) (Option.some_get _).symm

/-- Two waiters toggle the state of page 0 in one miss, and it ends up NV_B. -/
theorem lateWaiter_publishes_again :
    ¬ ∀ s : St 1 (Fin 3) Nat,
      Reachable InitFlags (Guarded (step (smallConfig 2 1 (by decide) (by decide))) AnySchedule) s →
      ∀ p, (s.history p).published ≤ 1 ∧
        ((s.pages p).state.st = .nvB → (s.history p).published = 0) := by
  intro hall
  have hp := hall _ lateWaiterEnd_reached ⟨0, 0⟩
  revert hp
  decide +kernel

end GidsStack.PageCache
