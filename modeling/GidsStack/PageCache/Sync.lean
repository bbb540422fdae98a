/-
  GidsStack.PageCache.Sync

  Runs of the synchronous operations alone: acquire_page, release_page and
  find_slot, without prefetches.  The mapping from pages to slots and back, the
  slot locks, and what a thread can rely on while it holds a page.
-/

import GidsStack.PageCache.Runs

namespace GidsStack.PageCache

open Function (update)
open Lib (Reachable Guarded runActs runOk reachable_of_runActs)
open Lib.PinCache (Ref Cache Step Guard Orderly Referenced Unshared)

variable {R : Nat} [NeZero R] {A V : Type*} [DecidableEq A]

/-! ## The synchronous operations -/

/-- The actions of a program that only acquires and releases pages. -/
def Act.isSync : Act R A V → Bool
  | .acquire _ _ | .release _ _ | .run _ | .spurious _ | .post _ _ _ | .write _ _ _ => true
  | .submit _ _ _ | .wait _ _ | .setPrefetch _ _ | .setWindow _ _ | .clear => false

def ProloguePc.unpinned : ProloguePc → Bool
  | .loadPrefetch => true
  | .loadWindow pin => !pin
  | .storePrefetch _ | .storeWindow _ => false

def AcquirePc.unpinned : AcquirePc R → Bool
  | .prologue k => k.unpinned
  | .fetchAdd pin => !pin
  | _ => true

def ReleasePc.unpinned : ReleasePc → Bool
  | .loadPrefetch => true
  | .loadWindow tc | .subState tc | .subRefCount tc => !tc
  | .storePrefetch | .subPrefetch | .storeWindow | .subWindow _ => false

/-- An agent of such a program that has met no prefetch. -/
def Pc.isSync : Pc R → Bool
  | .idle | .mark _ _ | .holding _ _ _ => true
  | .acquire _ k => k.unpinned
  | .release _ _ _ _ _ k => k.unpinned
  | .submit _ _ _ | .submitted _ _ | .wait _ _ _ _ => false

/-- Only synchronous operations are going on, and no prefetch or window is set. -/
structure SyncOnly (s : St R A V) : Prop where
  pc : ∀ a, (s.pc a).isSync = true
  unplanned : ∀ p, (s.pages p).prefetchCount = 0#8 ∧ (s.pages p).prefetchCounter = 0#8

section SyncOnly

variable {s : St R A V} {a : A}

theorem SyncOnly.goto {R : Nat} {A V : Type*} [DecidableEq A] {s : St R A V} {a : A}
    (h : SyncOnly s) {k : Pc R} (hk : k.isSync = true) :
    SyncOnly (s.goto a k) where
  pc b := by
    simp only [St.goto, Function.update_apply]
    split
    · exact hk
    · exact h.pc b
  unplanned := h.unplanned

theorem SyncOnly.setPage {R : Nat} {A V : Type*} {s : St R A V}
    (h : SyncOnly s) {p : PageId R} {d : DataPage}
    (h1 : d.prefetchCount = (s.pages p).prefetchCount)
    (h2 : d.prefetchCounter = (s.pages p).prefetchCounter) : SyncOnly (s.setPage p d) where
  pc := h.pc
  unplanned q := by
    simp only [St.setPage, Function.update_apply]
    split
    · rw [h1, h2]
      exact h.unplanned p
    · exact h.unplanned q

theorem SyncOnly.setState {R : Nat} {A V : Type*} {s : St R A V}
    (h : SyncOnly s) (p : PageId R) (w : Word) :
    SyncOnly (s.setState p w) := h.setPage rfl rfl

theorem SyncOnly.setRefCount {R : Nat} {A V : Type*} {s : St R A V}
    (h : SyncOnly s) (p : PageId R) (w : Word) :
    SyncOnly (s.setRefCount p w) := h.setPage rfl rfl

/-- Changes of anything but the pages and where agents stand. -/
theorem SyncOnly.of_eq {R : Nat} {A V : Type*} {s : St R A V}
    (h : SyncOnly s) {t : St R A V} (hpc : t.pc = s.pc)
    (hp : t.pages = s.pages) : SyncOnly t where
  pc a := hpc ▸ h.pc a
  unplanned p := hp ▸ h.unplanned p

theorem findStep_sync (cfg : Config R) (ver : FindVersion) (h : SyncOnly s) (p : PageId R)
    {e : FindPc R → Pc R} {r : Nat → Pc R} (he : ∀ k, (e k).isSync = true)
    (hr : ∀ i, (r i).isSync = true) (k : FindPc R) :
    SyncOnly (findStep cfg ver s a p e r k) := by
  cases k with
  | ticket =>
    exact (h.of_eq (t := { s with pageTicket := s.pageTicket + 1 }) rfl rfl).goto (he _)
  | loadLock i =>
    simp only [findStep]
    split <;> exact h.goto (he _)
  | casFree i =>
    simp only [findStep]
    split
    · exact (h.of_eq (t := s.setLock i .locked) rfl rfl).goto (he _)
    · exact h.goto (he _)
  | casUnlocked i =>
    simp only [findStep]
    split
    · exact (h.of_eq (t := s.setLock i .locked) rfl rfl).goto (he _)
    · exact h.goto (he _)
  | loadTrans i => exact h.goto (he _)
  | loadState i q =>
    simp only [findStep, findTest]
    split
    · split <;> exact h.goto (he _)
    · exact h.goto (he _)
  | loadRefCount i q =>
    simp only [findStep, findTest]
    split <;> exact h.goto (he _)
  | setBusy i q =>
    simp only [findStep]
    split
    · exact (h.setState q _).goto (he _)
    · split
      · split <;> exact (h.setState q _).goto (he _)
      · exact (h.setState q _).goto (he _)
  | writeData i q =>
    exact (h.of_eq (t := { s with ssd := update s.ssd q (s.slotData i) }) rfl rfl).goto (he _)
  | clearState i q => exact (h.setState q _).goto (he _)
  | undoBusy i q => exact (h.setState q _).goto (he _)
  | unlockFail i q => exact (h.of_eq (t := s.setLock i .unlocked) rfl rfl).goto (he _)
  | storeTrans i => exact (h.of_eq (t := s.setTrans i _) rfl rfl).goto (he _)
  | unlockDone i =>
    exact (h.of_eq (t := (s.setLock i .unlocked).assigned p i) rfl rfl).goto (hr i)

theorem acquireDispatch_sync {R : Nat} (c : Call R) (w : Word) :
    (Pc.acquire c (acquireDispatch c w)).isSync = true := by
  rw [acquireDispatch]
  split
  · rfl
  · split <;> rfl
  · rfl
  · rfl

theorem acquired_sync {R : Nat} (c : Call R) (i : Nat) : (acquired c i).isSync = true := by
  rw [acquired]
  split <;> rfl

theorem acquireStep_sync (cfg : Config R) (h : SyncOnly s) {c : Call R} {k : AcquirePc R}
    (hk : k.unpinned = true) : SyncOnly (acquireStep cfg s a c k) := by
  obtain ⟨hpre, hwin⟩ := h.unplanned c.page
  cases k with
  | prologue k =>
    cases k with
    | loadPrefetch =>
      have hno : prefetchPlanned (s.pages c.page).prefetchCount = false := by rw [hpre]; rfl
      simp only [acquireStep, prologueStep, hno]
      exact h.goto rfl
    | loadWindow pin =>
      have hno : windowPlanned (s.pages c.page).prefetchCounter = false := by rw [hwin]; rfl
      simp only [acquireStep, prologueStep, hno]
      exact h.goto hk
    | storePrefetch w => cases hk
    | storeWindow w => cases hk
  | fetchAdd pin => exact (h.setState c.page _).goto (acquireDispatch_sync c _)
  | setBusy =>
    simp only [acquireStep]
    split
    · exact (h.setState c.page _).goto rfl
    · exact ((h.setState c.page _).of_eq (t := (s.setState c.page _).led c.page a false)
        rfl rfl).goto rfl
  | find k =>
    exact findStep_sync cfg .state h c.page (e := fun k => .acquire c (.find k))
      (r := fun i => .acquire c (.chooseCtrl i)) (fun _ => rfl) (fun _ => rfl) k
  | chooseCtrl i =>
    simp only [acquireStep]
    split
    · exact h.goto rfl
    · exact (h.of_eq (t := { s with ctrlCounter := s.ctrlCounter + 1 }) rfl rfl).goto rfl
  | readData i =>
    exact (h.of_eq (t := { s with slotData := update s.slotData i (s.ssd c.page) }) rfl
      rfl).goto rfl
  | storeOffset i =>
    simp only [acquireStep]
    refine (h.setPage (p := c.page) (d := { s.pages c.page with offset := i }) rfl rfl).goto ?_
    split <;> rfl
  | setDirty i => exact (h.setState c.page _).goto rfl
  | publish i =>
    exact ((h.setState c.page _).of_eq (t := (s.setState c.page _).published c.page)
      rfl rfl).goto (acquired_sync c i)
  | markDirty => exact (h.setState c.page _).goto rfl
  | loadOffset => exact h.goto (acquired_sync c _)
  | reload => exact h.goto (acquireDispatch_sync c _)

theorem releaseStep_sync {R : Nat} {A V : Type*} [DecidableEq A] {s : St R A V} {a : A}
    (h : SyncOnly s) {c : Call R} {i m : Nat} {marked : Bool}
    {hm : m ≤ c.count} {k : ReleasePc} (hk : k.unpinned = true) :
    SyncOnly (releaseStep s a c i marked m hm k) := by
  obtain ⟨hpre, hwin⟩ := h.unplanned c.page
  cases k with
  | loadPrefetch =>
    simp only [releaseStep, hpre]
    exact h.goto rfl
  | loadWindow tc =>
    simp only [releaseStep, hwin]
    exact h.goto hk
  | subState tc => exact (h.setState c.page _).goto hk
  | subRefCount tc =>
    refine (h.setRefCount c.page _).goto ?_
    rw [released]
    split <;> rfl
  | _ => cases hk

/-- Synchronous operations stay synchronous. -/
theorem step_sync {cfg : Config R} {s' : St R A V} {act : Act R A V} (h : SyncOnly s)
    (hact : act.isSync = true) (hs : step cfg s act = some s') : SyncOnly s' := by
  cases act with
  | acquire a c =>
    simp only [step] at hs
    split at hs <;> cases hs
    exact h.goto rfl
  | release a m =>
    simp only [step] at hs
    split at hs
    · split at hs <;> cases hs
      exact h.goto rfl
    · cases hs
  | run a =>
    have hpc := h.pc a
    simp only [step, runStep] at hs
    split at hs <;> rename_i hk <;> rw [hk] at hpc
    · cases hs
      exact acquireStep_sync cfg h hpc
    · cases hpc
    · cases hpc
    · cases hs
      exact (h.setState _ _).goto rfl
    · cases hs
      exact releaseStep_sync h hpc
    all_goals cases hs
  | spurious a =>
    have hpc := h.pc a
    simp only [step] at hs
    split at hs
    · rename_i c k hk
      cases k <;> cases hs <;> exact h.goto rfl
    · rename_i c x k hk
      rw [hk] at hpc
      cases hpc
    · cases hs
  | post ctrl queue n =>
    simp only [step, postStep] at hs
    split at hs <;> cases hs
    exact h.of_eq rfl rfl
  | write a e v =>
    simp only [step] at hs
    split at hs <;> cases hs
    exact h.of_eq rfl rfl
  | _ => cases hact

end SyncOnly

/-! ## Synchronous runs -/

section Runs

variable [Fintype A]

/-- A run of synchronous operations in which counts fit their field and nobody sets
    BUSY for a miss of a page that has become VALID. -/
structure SyncRun (s : St R A V) (act : Act R A V) : Prop where
  sync : act.isSync = true
  adds : AddsFit s act
  lead : LeadsInvalid s act

instance (s : St R A V) (act : Act R A V) : Decidable (SyncRun s act) :=
  decidable_of_iff (act.isSync = true ∧ AddsFit s act ∧ LeadsInvalid s act)
    ⟨fun ⟨h1, h2, h3⟩ => ⟨h1, h2, h3⟩, fun ⟨h1, h2, h3⟩ => ⟨h1, h2, h3⟩⟩

/-- Nobody drops a prefetch pin where none is set. -/
theorem SyncOnly.dropsPin {R : Nat} {A V : Type*}
    {s : St R A V} (ho : SyncOnly s) (a : A) : dropsPin s a = none := by
  have hpc := ho.pc a
  rw [PageCache.dropsPin]
  split
  · rename_i c i marked m hm hk
    rw [hk] at hpc
    cases hpc
  · rfl

theorem SyncOnly.pinsCounted {R : Nat} {A V : Type*} [Fintype A]
    {s : St R A V} (ho : SyncOnly s) (act : Act R A V) :
    PinsCounted s act := by
  intro a ha p hp
  rw [ho.dropsPin a] at hp
  cases hp

theorem SyncRun.permits {R : Nat} [NeZero R] {A V : Type*} [Fintype A]
    {s : St R A V} {act : Act R A V} (hi : Referenced (abs s))
    (ho : SyncOnly s) (h : SyncRun s act) : Permits privateGuard s act := by
  refine ⟨rfl, ?_, ?_, ?_, ?_, ?_, ?_, .inr ⟨hi.owned, hi.placed⟩⟩
  · rintro a p t rfl hl
    refine ⟨h.lead a rfl (p, t) hl, ?_⟩
    have hpc := ho.pc a
    rw [leadsPage] at hl
    split at hl <;> rename_i hk
    · split at hl <;> cases hl
      rfl
    · rw [hk] at hpc
      cases hpc
    · cases hl
  · rintro a p i rfl hw
    have hpc := ho.pc a
    rw [winsPage] at hw
    split at hw
    · rename_i c x b hk
      rw [hk] at hpc
      cases hpc
    · cases hw
  · rintro a p n rfl hd
    exact h.adds a rfl (p, n) hd
  · rintro a p n rfl hd
    exact subs_fit hi.counted (ho.pinsCounted _) hd
  · rintro rfl
    cases h.sync
  · rintro a p rfl hd
    rw [ho.dropsPin a] at hd
    cases hd

/-- The invariants of a synchronous run. -/
theorem sync_reached {cfg : Config R} {s : St R A V} (h : Reached cfg SyncRun s) :
    (Referenced (abs s) ∧ Unshared (abs s)) ∧ SyncOnly s := by
  refine h.invariant
    (I := fun s => (Referenced (abs s) ∧ Unshared (abs s)) ∧ SyncOnly s) ?_ ?_
  · intro s hs
    refine ⟨⟨(init_unused hs).referenced, (init_unused hs).unshared⟩, fun a => ?_, fun p => ?_⟩
    · rw [hs.pc a]
      rfl
    · exact ⟨hs.prefetchCount p, hs.prefetchCounter p⟩
  · rintro s act s' ⟨⟨hi, hu⟩, ho⟩ ⟨hok, hs⟩
    exact ⟨Lib.PinCache.run_unshared privateGuard_placing privateGuard_covering
      privateGuard_private hi hu (step_sim cfg hs (hok.permits hi ho)), step_sync ho hok.sync hs⟩

end Runs

/-! ## The mapping between pages and slots -/

/-- Agent `a` holds the lock of slot `i`. -/
def holdsLock (s : St R A V) (a : A) (i : Nat) : Prop := ∃ st, (s.pc a).own = some ⟨i, st⟩

/-- An acquire of page `p` has returned slot `i` to agent `a`, which has not given the
    reference back. -/
def holdsSlot (s : St R A V) (a : A) (p : PageId R) (i : Nat) : Prop :=
  ∃ n, (s.pc a).ref = some ⟨p, n, .fixed i⟩

/-- Agent `a` has set BUSY on page `p` to evict it, has found it referenced, and is
    about to clear BUSY again. -/
def undoesBusy (s : St R A V) (a : A) (p : PageId R) : Prop :=
  (s.pc a).taking = some ⟨p, false⟩

/-- What every state of a synchronous run has: the mapping between the pages and the
    slots, the exclusive slot locks, and the pages threads hold in the slot
    `find_slot` gave them in their last miss. -/
structure Mapped (s : St R A V) : Prop where
  translation : ∀ p, (s.pages p).state.st = .vNb →
    (s.cachePages (s.pages p).offset).pageTranslation = getGlobalAddress p
  distinct : ∀ p q, (s.pages p).state.st = .vNb → (s.pages q).state.st = .vNb →
    (s.pages p).offset = (s.pages q).offset → p = q
  exclusive : ∀ a b i, holdsLock s a i → holdsLock s b i → a = b
  locked : ∀ a i, holdsLock s a i → (s.cachePages i).pageTakeLock = .locked
  held : ∀ a p i, holdsSlot s a p i → (s.history p).given = some i ∧ (s.pages p).offset = i ∧
    (s.cachePages i).pageTranslation = getGlobalAddress p ∧
    ((s.pages p).state.st = .vNb ∨ (s.pages p).state.st = .vB ∧ ∃ b, undoesBusy s b p)

section Mapping

variable {s : St R A V}

/-- A valid page is the tenant of the slot its offset names. -/
theorem valid_translation {R : Nat} [NeZero R] {A V : Type*} {s : St R A V}
    [Fintype A] (hi : Referenced (abs s)) {p : PageId R}
    (hv : (s.pages p).state.isValid = true) :
    (s.cachePages (s.pages p).offset).pageTranslation = getGlobalAddress p := by
  have hgiven := hi.placed.valid p hv
  exact (tenantOf_eq_some (hi.slotted.home p _ ⟨hgiven, .inl hv⟩).1).symm

theorem mapped_of_referenced {R : Nat} [NeZero R] {A V : Type*} {s : St R A V}
    [Fintype A] (cfg : Config R) (hi : Referenced (abs s)) :
    Mapped s where
  translation p hp := valid_translation hi (Word.st_vNb hp).1
  distinct p q hp hq hpq := by
    have htp := valid_translation hi (Word.st_vNb hp).1
    have htq := valid_translation hi (Word.st_vNb hq).1
    rw [hpq, htq] at htp
    exact (getGlobalAddress_injective cfg.maxRange_pow htp).symm
  exclusive := by
    rintro a b i ⟨st, ha⟩ ⟨st', hb⟩
    exact hi.slotted.ownUnique a b _ _ ha hb rfl
  locked := by
    rintro a i ⟨st, ha⟩
    have hlock : (s.cachePages i).pageTakeLock.abs = .taken := hi.slotted.ownTaken a _ ha
    cases hl : (s.cachePages i).pageTakeLock with
    | locked => rfl
    | unlocked => simp [hl, TakeLock.abs] at hlock
    | free => simp [hl, TakeLock.abs] at hlock
  held := by
    rintro a p i ⟨n, ha⟩
    obtain ⟨hv, hoff⟩ := hi.counted.fixed a _ i ha rfl
    refine ⟨by rw [← hoff]; exact hi.placed.valid p hv, hoff,
      by rw [← hoff]; exact valid_translation hi hv, ?_⟩
    by_cases hb : (s.pages p).state.isBusy = true
    · -- BUSY on a valid page is an evictor's, and this one has seen the reference
      obtain ⟨b, k, hk, rfl⟩ := hi.owned.evictor p hv hb
      have hev := hi.counted.safe a b _ k ha (by simp) hk rfl
      exact .inr ⟨Word.st_eq_vB hv hb, b, by rw [undoesBusy, ← hev]; exact hk⟩
    · exact .inl (Word.st_eq_vNb hv (by simpa using hb))

end Mapping

/-- The mapping invariant: it holds in every state of every synchronous run. -/
theorem sync_run_mapped [Fintype A] (cfg : Config R) {s : St R A V}
    (h : Reached cfg SyncRun s) : Mapped s :=
  mapped_of_referenced cfg (sync_reached h).1.1

/-! ### A page held while an evictor undoes its BUSY

    Thread 0 loads page 0 and gives it back; thread 1 wants the only slot for page
    1 and loads the count, which is zero; thread 0 acquires page 0 again; thread 1
    sets BUSY. -/

def undoneEviction : List (Act 1 (Fin 2) Nat) :=
  [.acquire 0 (callFor 0 false false)] ++ runs 0 13 ++ [.release 0 1] ++ runs 0 4
    ++ [.acquire 1 (callFor 1 false false)] ++ runs 1 9
    ++ [.acquire 0 (callFor 0 false false)] ++ runs 0 4 ++ runs 1 1

def undoneEvictionEnd : Option (St 1 (Fin 2) Nat) :=
  runActs (step (smallConfig 1 1 oneSlot_ok oneCtrl_ok))
    (newCache (Fin 2) (fun p e => 10 * p + e) 0) undoneEviction

theorem undoneEvictionEnd_isSome : undoneEvictionEnd.isSome = true := by decide +kernel

theorem undoneEvictionEnd_reached :
    Reached (smallConfig 1 1 (by decide) (by decide)) SyncRun
      (undoneEvictionEnd.get undoneEvictionEnd_isSome) :=
  reachable_of_runActs (.init (newCache_init _ _ _)) (l := undoneEviction) (by decide +kernel)
    (Option.some_get _).symm

/-- The held page of the run is V_B, so it does not stay V_NB until it is released. -/
theorem held_page_not_vNb :
    ¬ ∀ s : St 1 (Fin 2) Nat, Reached (smallConfig 1 1 (by decide) (by decide)) SyncRun s →
      ∀ a p i, holdsSlot s a p i → (s.pages p).state.st = .vNb := by
  intro hall
  have hheld : holdsSlot (undoneEvictionEnd.get undoneEvictionEnd_isSome) 0 ⟨0, 0⟩ 0 :=
    ⟨1, by decide +kernel⟩
  have hst := hall _ undoneEvictionEnd_reached 0 ⟨0, 0⟩ 0 hheld
  revert hst
  decide +kernel

/-- The invariant at the end of that run: the page is still in its slot. -/
theorem undoneEvictionEnd_mapped :
    Mapped (undoneEvictionEnd.get undoneEvictionEnd_isSome) :=
  sync_run_mapped _ undoneEvictionEnd_reached

end GidsStack.PageCache
