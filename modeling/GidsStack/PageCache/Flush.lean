/-
  GidsStack.PageCache.Flush

  `__flush` (page_cache.h): the thread of a slot reads the slot's translation, tests DIRTY of
  the page it names, writes the slot to that page's place in the store and clears DIRTY.

  No thread looks at the lock of its slot.  A slot that was never given out has a translation
  all the same, what its memory was or the 0 of `clear_cache_safe`, and its thread takes the
  page this names for the one in the slot.
-/

import GidsStack.PageCache.Sync

namespace GidsStack.PageCache

open Function (update)
open Lib (Reachable runActs reachable_of_runActs)
open Lib.PinCache (Referenced)

variable {R : Nat} [NeZero R] {A V : Type*} [DecidableEq A]

/-! ## The kernel -/

/-- Where the thread of a slot stands. -/
inductive FlushPc (R : Nat)
  | loadTrans
  | loadState (q : PageId R)
  | writeData (q : PageId R)
  | clearDirty (q : PageId R)
  | done
  deriving DecidableEq

structure FlushSt (R : Nat) (A V : Type*) where
  st : St R A V
  pc : Nat → FlushPc R

/-- The kernel starts. -/
def flushCache (s : St R A V) : FlushSt R A V where
  st := s
  pc _ := .loadTrans

def FlushSt.goto (f : FlushSt R A V) (i : Nat) (k : FlushPc R) : FlushSt R A V :=
  { f with pc := update f.pc i k }

/-- The page that the translation of a slot names. -/
def slotPage (s : St R A V) (i : Nat) : PageId R :=
  pageOfAddress (s.cachePages i).pageTranslation

/-- A step of the thread of slot `i`. -/
def flushStep (cfg : Config R) (f : FlushSt R A V) (i : Nat) : Option (FlushSt R A V) :=
  if i < cfg.nPages then
    match f.pc i with
    | .loadTrans => some (f.goto i (.loadState (slotPage f.st i)))
    | .loadState q =>
      some (f.goto i (if (f.st.pages q).state.isDirty then .writeData q else .done))
    | .writeData q =>
      some ({ f with
        st := { f.st with ssd := update f.st.ssd q (f.st.slotData i) } }.goto i (.clearDirty q))
    | .clearDirty q =>
      some ({ f with
        st := f.st.setState q ((f.st.pages q).state &&& ~~~Word.DIRTY) }.goto i .done)
    | .done => none
  else none

/-- What the threads reach, in any order. -/
abbrev Flushes (cfg : Config R) (s : St R A V) : FlushSt R A V → Prop :=
  Reachable (· = flushCache s) (fun f i f' => flushStep cfg f i = some f')

/-- A flush of the cache writes a slot to a page only if the page is in it, and puts nothing
    into the store but what the cache has of a page. -/
structure FlushRight (cfg : Config R) (s : St R A V) : Prop where
  resident : ∀ f, Flushes cfg s f → ∀ i q, f.pc i = .writeData q →
    (f.st.pages q).state.isValid = true ∧ (f.st.pages q).offset = i
  kept : ∀ f, Flushes cfg s f → ∀ p, f.st.ssd p = s.ssd p ∨
    (s.pages p).state.isValid = true ∧ f.st.ssd p = s.slotData (s.pages p).offset

/-! ## What the threads know -/

/-- What the thread of slot `i` has found out. -/
def FlushFact (cfg : Config R) (s : St R A V) (i : Nat) : FlushPc R → Prop
  | .loadTrans | .done => True
  | .loadState q => q = slotPage s i
  | .writeData q | .clearDirty q =>
    q = slotPage s i ∧ i < cfg.nPages ∧ (s.pages q).state.isDirty = true

/-- The store has page `p` from a slot that names it. -/
def FlushSt.Wrote (f : FlushSt R A V) (cfg : Config R) (s : St R A V) (p : PageId R) : Prop :=
  ∃ j < cfg.nPages, slotPage s j = p ∧ (s.pages p).state.isDirty = true ∧
    f.st.ssd p = s.slotData j

/-- A state of the kernel. -/
structure Flushing (cfg : Config R) (s : St R A V) (f : FlushSt R A V) : Prop where
  cachePages : f.st.cachePages = s.cachePages
  slotData : f.st.slotData = s.slotData
  page : ∀ p, (f.st.pages p).state.isValid = (s.pages p).state.isValid ∧
    (f.st.pages p).offset = (s.pages p).offset
  dirty : ∀ p, (f.st.pages p).state.isDirty = true → (s.pages p).state.isDirty = true
  fact : ∀ i, FlushFact cfg s i (f.pc i)
  ssd : ∀ p, f.st.ssd p = s.ssd p ∨ f.Wrote cfg s p
  cleared : ∀ p, (s.pages p).state.isDirty = true → (f.st.pages p).state.isDirty = false →
    f.Wrote cfg s p
  passed : ∀ i q, f.pc i = .clearDirty q → f.Wrote cfg s q
  done : ∀ i, f.pc i = .done → (s.pages (slotPage s i)).state.isDirty = true →
    f.Wrote cfg s (slotPage s i)

theorem flushing_start {R : Nat} [NeZero R] {A V : Type*}
    (cfg : Config R) (s : St R A V) : Flushing cfg s (flushCache s) where
  cachePages := rfl
  slotData := rfl
  page _ := ⟨rfl, rfl⟩
  dirty _ h := h
  fact _ := trivial
  ssd _ := .inl rfl
  cleared p h h' := by
    rw [show (flushCache s).st = s from rfl, h] at h'
    cases h'
  passed i q h := by cases h
  done i h := by cases h

section Step

variable {R : Nat} {A V : Type*} {cfg : Config R} {s : St R A V} {f f' : FlushSt R A V} {i : Nat}

@[simp] theorem flush_goto_self (k : FlushPc R) : (f.goto i k).pc i = k :=
  Function.update_self ..

theorem flush_goto_ne {j : Nat} (h : j ≠ i) (k : FlushPc R) : (f.goto i k).pc j = f.pc j :=
  Function.update_of_ne h ..

theorem Flushing.slotPage_eq [NeZero R]
    (h : Flushing cfg s f) (j : Nat) : slotPage f.st j = slotPage s j := by
  rw [slotPage, h.cachePages, slotPage]

/-- A thread that only looks: what it finds out is what the others know too. -/
theorem Flushing.look [NeZero R] (h : Flushing cfg s f) {k : FlushPc R} (hk : FlushFact cfg s i k)
    (hclear : ∀ q, k ≠ .clearDirty q)
    (hdone : k = .done → (s.pages (slotPage s i)).state.isDirty = true →
      f.Wrote cfg s (slotPage s i)) : Flushing cfg s (f.goto i k) := by
  refine { h with fact := fun j => ?_, passed := fun j q hj => ?_, done := fun j hj => ?_ }
  · by_cases hji : j = i
    · rw [hji, flush_goto_self]
      exact hk
    · rw [flush_goto_ne hji]
      exact h.fact j
  · by_cases hji : j = i
    · rw [hji, flush_goto_self] at hj
      exact absurd hj (hclear q)
    · rw [flush_goto_ne hji] at hj
      exact h.passed j q hj
  · by_cases hji : j = i
    · subst hji
      rw [flush_goto_self] at hj
      exact hdone hj
    · rw [flush_goto_ne hji] at hj
      exact h.done j hj

theorem Flushing.write [NeZero R]
    (h : Flushing cfg s f) {q : PageId R} (hpc : f.pc i = .writeData q) :
    Flushing cfg s ({ f with
      st := { f.st with ssd := update f.st.ssd q (f.st.slotData i) } }.goto i
        (.clearDirty q)) := by
  have hfact := h.fact i
  rw [hpc] at hfact
  obtain ⟨hq, hi, hdirty⟩ := hfact
  -- the page written is now that of slot `i`, the others are as they were
  have hnew : ∀ p, f.Wrote cfg s p ∨ p = q → FlushSt.Wrote (({ f with
      st := { f.st with ssd := update f.st.ssd q (f.st.slotData i) } } : FlushSt R A V).goto i
        (.clearDirty q)) cfg s p := by
    intro p hp
    by_cases hpq : p = q
    · subst hpq
      refine ⟨i, hi, hq.symm, hdirty, ?_⟩
      show update f.st.ssd p (f.st.slotData i) p = _
      rw [Function.update_self, h.slotData]
    · obtain ⟨j, hj, hjp, hd, hwrote⟩ := hp.resolve_right hpq
      refine ⟨j, hj, hjp, hd, ?_⟩
      show update f.st.ssd q (f.st.slotData i) p = _
      rw [Function.update_of_ne hpq]
      exact hwrote
  refine ⟨h.cachePages, h.slotData, h.page, h.dirty, fun j => ?_, fun p => ?_,
    fun p hp hp' => hnew p (.inl (h.cleared p hp hp')), fun j r hj => ?_, fun j hj hd => ?_⟩
  · by_cases hji : j = i
    · rw [hji, flush_goto_self]
      exact ⟨hq, hi, hdirty⟩
    · rw [flush_goto_ne hji]
      exact h.fact j
  · by_cases hpq : p = q
    · exact .inr (hnew p (.inr hpq))
    · refine (h.ssd p).imp (fun hs => ?_) fun hw => hnew p (.inl hw)
      show update f.st.ssd q (f.st.slotData i) p = _
      rw [Function.update_of_ne hpq]
      exact hs
  · by_cases hji : j = i
    · rw [hji, flush_goto_self] at hj
      exact hnew r (.inr (FlushPc.clearDirty.inj hj).symm)
    · rw [flush_goto_ne hji] at hj
      exact hnew r (.inl (h.passed j r hj))
  · by_cases hji : j = i
    · rw [hji, flush_goto_self] at hj
      cases hj
    · rw [flush_goto_ne hji] at hj
      exact hnew _ (.inl (h.done j hj hd))

theorem Flushing.clear [NeZero R]
    (h : Flushing cfg s f) {q : PageId R} (hpc : f.pc i = .clearDirty q) :
    Flushing cfg s ({ f with
      st := f.st.setState q ((f.st.pages q).state &&& ~~~Word.DIRTY) }.goto i .done) := by
  have hwrote := h.passed i q hpc
  have hfact := h.fact i
  rw [hpc] at hfact
  have hpages : ∀ p, (f.st.setState q ((f.st.pages q).state &&& ~~~Word.DIRTY)).pages p =
      if p = q then { f.st.pages q with state := (f.st.pages q).state &&& ~~~Word.DIRTY }
      else f.st.pages p := fun p => Function.update_apply ..
  refine ⟨h.cachePages, h.slotData, fun p => ?_, fun p hp => ?_, fun j => ?_, h.ssd,
    fun p hp hp' => ?_, fun j r hj => ?_, fun j hj hd => ?_⟩
  · show ((f.st.setState q _).pages p).state.isValid = _ ∧
      ((f.st.setState q _).pages p).offset = _
    rw [hpages]
    split
    · rename_i hpq
      rw [hpq, Word.isValid_and_not_DIRTY]
      exact h.page q
    · exact h.page p
  · replace hp : ((f.st.setState q _).pages p).state.isDirty = true := hp
    rw [hpages] at hp
    split at hp
    · rw [Word.isDirty_and_not_DIRTY] at hp
      cases hp
    · exact h.dirty p hp
  · by_cases hji : j = i
    · rw [hji, flush_goto_self]
      trivial
    · rw [flush_goto_ne hji]
      exact h.fact j
  · by_cases hpq : p = q
    · rw [hpq]
      exact hwrote
    · replace hp' : ((f.st.setState q _).pages p).state.isDirty = false := hp'
      rw [hpages, if_neg hpq] at hp'
      exact h.cleared p hp hp'
  · by_cases hji : j = i
    · rw [hji, flush_goto_self] at hj
      cases hj
    · rw [flush_goto_ne hji] at hj
      exact h.passed j r hj
  · by_cases hji : j = i
    · rw [hji, ← hfact.1]
      exact hwrote
    · rw [flush_goto_ne hji] at hj
      exact h.done j hj hd

theorem Flushing.step [NeZero R] (h : Flushing cfg s f) (hs : flushStep cfg f i = some f') :
    Flushing cfg s f' := by
  rw [flushStep] at hs
  split at hs
  case isFalse => cases hs
  case isTrue hi =>
    have hfact := h.fact i
    split at hs
    case h_1 hpc =>
      obtain rfl := Option.some.inj hs
      exact h.look (h.slotPage_eq i) (fun _ => nofun) nofun
    case h_2 q hpc =>
      obtain rfl := Option.some.inj hs
      rw [hpc] at hfact
      cases hd : (f.st.pages q).state.isDirty with
      | true => exact h.look ⟨hfact, hi, h.dirty q hd⟩ (fun _ => nofun) nofun
      | false =>
        refine h.look trivial (fun _ => nofun) fun _ hdirty => ?_
        -- somebody has cleared it since
        rw [← show q = slotPage s i from hfact] at hdirty ⊢
        exact h.cleared q hdirty hd
    case h_3 q hpc =>
      obtain rfl := Option.some.inj hs
      exact h.write hpc
    case h_4 q hpc =>
      obtain rfl := Option.some.inj hs
      exact h.clear hpc
    case h_5 => cases hs

theorem flushing_reached [NeZero R] (h : Flushes cfg s f) : Flushing cfg s f := by
  induction h with
  | init he =>
    subst he
    exact flushing_start cfg s
  | step _ hs ih => exact ih.step hs

end Step

/-! ## When a flush is right -/

/-- A thread that runs alone gets to the store if its page is dirty. -/
theorem flush_alone {R : Nat} [NeZero R] {A V : Type*}
    {cfg : Config R} {s : St R A V} {i : Nat} (hi : i < cfg.nPages)
    (hd : (s.pages (slotPage s i)).state.isDirty = true) :
    ∃ f, Flushes cfg s f ∧ f.pc i = .writeData (slotPage s i) := by
  have h1 : flushStep cfg (flushCache s) i =
      some ((flushCache s).goto i (.loadState (slotPage s i))) := if_pos hi
  have hpc : ((flushCache s).goto i (.loadState (slotPage s i))).pc i =
      .loadState (slotPage s i) := flush_goto_self _
  have h2 : flushStep cfg ((flushCache s).goto i (.loadState (slotPage s i))) i =
      some (((flushCache s).goto i (.loadState (slotPage s i))).goto i
        (.writeData (slotPage s i))) := by
    rw [flushStep, if_pos hi]
    simp only [hpc]
    exact congrArg (fun k => some (FlushSt.goto _ i k)) (if_pos hd)
  exact ⟨_, .step (.step (.init rfl) h1) h2, flush_goto_self _⟩

/-- A flush is right exactly if every slot that names a dirty page has it. -/
theorem flushRight_iff_slots {R : Nat} [NeZero R] {A V : Type*} {cfg : Config R} {s : St R A V} :
    FlushRight cfg s ↔ ∀ i < cfg.nPages, (s.pages (slotPage s i)).state.isDirty = true →
      (s.pages (slotPage s i)).state.isValid = true ∧ (s.pages (slotPage s i)).offset = i := by
  constructor
  · intro h i hi hd
    obtain ⟨f, hf, hpc⟩ := flush_alone hi hd
    have hres := h.resident f hf i _ hpc
    have hpage := (flushing_reached hf).page (slotPage s i)
    rw [hpage.1, hpage.2] at hres
    exact hres
  · intro h
    refine ⟨fun f hf i q hpc => ?_, fun f hf p => ?_⟩
    · have hi := flushing_reached hf
      have hfact := hi.fact i
      rw [hpc] at hfact
      obtain ⟨rfl, hlt, hd⟩ := hfact
      rw [(hi.page _).1, (hi.page _).2]
      exact h i hlt hd
    · refine ((flushing_reached hf).ssd p).imp_right ?_
      rintro ⟨j, hj, rfl, hd, hw⟩
      obtain ⟨hv, ho⟩ := h j hj hd
      rw [hw, ho]
      exact ⟨hv, rfl⟩

/-- In a state between kernels, a slot that has been given out is that of the page it names, or
    that page is being read into it. -/
theorem slot_of_named {R : Nat} [NeZero R] {A V : Type*}
    [Fintype A] (cfg : Config R) {s : St R A V} (hi : Referenced (abs s))
    {i : Nat} (hl : (s.cachePages i).pageTakeLock = .unlocked) :
    (s.pages (slotPage s i)).state.st = .nvB ∨
      ((s.pages (slotPage s i)).state.isValid = true ∧ (s.pages (slotPage s i)).offset = i) := by
  have hlive : (abs s).lock i = .opened := congrArg TakeLock.abs hl
  obtain ⟨hne, hhome⟩ := hi.slotted.live i hlive
  obtain ⟨p, hp⟩ := Option.ne_none_iff_exists'.mp hne
  have hpage : slotPage s i = p := by
    rw [slotPage, ← tenantOf_eq_some hp, pageOfAddress_getGlobalAddress cfg.maxRange_pow]
  rw [hpage]
  obtain ⟨hgiven, hstay⟩ := hhome p hp
  rcases hstay with hv | hlead
  · have hoff := hi.placed.valid p hv
    rw [hgiven] at hoff
    exact .inr ⟨hv, (Option.some.inj hoff).symm⟩
  · obtain ⟨hb, hv⟩ := hi.owned.opened hlead
    refine .inl ?_
    rw [Word.st_eq, show (s.pages p).state.isValid = false from hv,
      show (s.pages p).state.isBusy = true from hb]
    rfl

theorem flushRight_of_referenced {R : Nat} [NeZero R] {A V : Type*}
    [Fintype A] {cfg : Config R} {s : St R A V}
    (hi : Referenced (abs s))
    (hquiet : ∀ i < cfg.nPages, (s.cachePages i).pageTakeLock ≠ .locked) :
    FlushRight cfg s ↔ ∀ i < cfg.nPages,
      (s.cachePages i).pageTakeLock = .free ∨ (s.pages (slotPage s i)).state.st = .nvB →
        (s.pages (slotPage s i)).state.isDirty = false := by
  rw [flushRight_iff_slots]
  constructor
  · intro h i hlt hslot
    rw [Bool.eq_false_iff]
    intro hd
    obtain ⟨hv, hoff⟩ := h i hlt hd
    rcases hslot with hfree | hst
    · -- a slot that has a page is not free
      have hgiven := hi.placed.valid _ hv
      rw [show (abs s).offset (slotPage s i) = i from hoff] at hgiven
      exact (hi.slotted.home _ i ⟨hgiven, .inl hv⟩).2 (congrArg TakeLock.abs hfree)
    · rw [(Word.st_nvB hst).1] at hv
      cases hv
  · intro h i hlt hd
    cases hl : (s.cachePages i).pageTakeLock with
    | locked => exact absurd hl (hquiet i hlt)
    | free =>
      rw [h i hlt (.inl hl)] at hd
      cases hd
    | unlocked =>
      rcases slot_of_named cfg hi hl with hst | hres
      · rw [h i hlt (.inr hst)] at hd
        cases hd
      · exact hres

/-- In the runs that keep the cache in order, a flush between two kernels is right exactly if no
    slot that was never given out names a dirty page, and no page that is still being read is
    dirty. -/
theorem flush_right_iff [Fintype A] (cfg : Config R) {s : St R A V}
    (h : Reached cfg SyncRun s ∨ Reached cfg Clean s)
    (hquiet : ∀ i < cfg.nPages, (s.cachePages i).pageTakeLock ≠ .locked) :
    FlushRight cfg s ↔ ∀ i < cfg.nPages,
      (s.cachePages i).pageTakeLock = .free ∨ (s.pages (slotPage s i)).state.st = .nvB →
        (s.pages (slotPage s i)).state.isDirty = false := by
  refine flushRight_of_referenced ?_ hquiet
  rcases h with h | h
  · exact (sync_reached h).1.1
  · exact (clean_reached h).1

/-! ### Page 0 written, in a cache of one slot and of two

    Page 0 is in slot 0, so the page that `operator[]` marks is its own. -/

def markZero : List (Act 1 (Fin 2) Nat) := [.acquire 0 (callFor 0 false true)] ++ runs 0 14

def markZeroOne : Option (St 1 (Fin 2) Nat) :=
  runActs (step (smallConfig 1 1 oneSlot_ok oneCtrl_ok))
    (newCache (Fin 2) (fun p e => 10 * p + e) 0) markZero

theorem markZeroOne_isSome : markZeroOne.isSome = true := by decide +kernel

/-- The only slot is given out. -/
theorem markZeroOne_flushRight :
    FlushRight (smallConfig 1 1 (by decide) (by decide)) (markZeroOne.get markZeroOne_isSome) :=
  (flush_right_iff _ (.inl (reachable_of_runActs (.init (newCache_init _ _ _)) (l := markZero)
    (by decide +kernel) (Option.some_get _).symm)) (by decide +kernel)).mpr (by decide +kernel)

def markZeroTwo : Option (St 1 (Fin 2) Nat) :=
  runActs (step (smallConfig 2 1 twoSlots_ok oneCtrl_ok))
    (newCache (Fin 2) (fun p e => 10 * p + e) 0) markZero

theorem markZeroTwo_isSome : markZeroTwo.isSome = true := by decide +kernel

/-- Slot 1 was never given out, and its translation is that of page 0. -/
theorem freeSlot_flushed :
    ¬ ∀ s : St 1 (Fin 2) Nat, Reached (smallConfig 2 1 (by decide) (by decide)) SyncRun s →
      (∀ i < 2, (s.cachePages i).pageTakeLock ≠ .locked) →
        FlushRight (smallConfig 2 1 (by decide) (by decide)) s := by
  intro hall
  have hreached : Reached (smallConfig 2 1 (by decide) (by decide)) SyncRun
      (markZeroTwo.get markZeroTwo_isSome) :=
    reachable_of_runActs (.init (newCache_init _ _ _)) (l := markZero) (by decide +kernel)
      (Option.some_get _).symm
  have hright := hall _ hreached (by decide +kernel)
  have hslot := flushRight_iff_slots.mp hright 1 (by decide) (by decide +kernel)
  revert hslot
  decide +kernel

end GidsStack.PageCache
