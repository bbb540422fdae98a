/-
  GidsStack.PageCache.Runs

  Runs of the machine whose steps meet a condition, and the protocol's
  invariants along them.  The conditions are about the state before a step:
  what a leader finds when it sets BUSY, what a waiter finds when it takes
  `polling_flag`, and what a count is when it is changed.
-/

import GidsStack.PageCache.Simulation
import GidsStack.Lib.PinCache.Runs

namespace GidsStack.PageCache

open Lib (Reachable Guarded runActs runOk)
open Lib.PinCache (Ref Cache Step Guard Orderly Referenced Unshared Joined)

variable {R : Nat} [NeZero R] {A V : Type*} [DecidableEq A]

/-- The states reached from a new cache by steps that meet condition `ok`. -/
abbrev Reached (cfg : Config R) (ok : St R A V → Act R A V → Prop) : St R A V → Prop :=
  Reachable Init (Guarded (step cfg) ok)

/-- The agent whose operation an action goes on with. -/
def Act.agent : Act R A V → Option A
  | .run a => some a
  | _ => none

/-! ## Conditions on a step -/

/-- A leader sets BUSY only on a page that is not VALID. -/
def LeadsInvalid (s : St R A V) (act : Act R A V) : Prop :=
  ∀ a ∈ act.agent, ∀ l ∈ leadsPage s a, (s.pages l.1).state.isValid = false

/-- When a leader sets BUSY, the test by which a follower takes the page's offset
    for its slot fails. -/
def LeadsFresh (s : St R A V) (act : Act R A V) : Prop :=
  ∀ a ∈ act.agent, ∀ l ∈ leadsPage s a, (s.pages l.1).offset = asyncPageTransPending ∨
    (s.cachePages (s.pages l.1).offset).pageTranslation ≠ getGlobalAddress l.1

/-- The page a waiter is publishing, from taking `polling_flag` to toggling the
    state. -/
def pollsPage (s : St R A V) (a : A) : Option (PageId R) := (s.pc a).polling.map (·.page)

/-- A waiter takes `polling_flag` only of a page that is NV_B in a miss led by an
    asynchronous submit that has its slot, while no other waiter publishes it. -/
def WinsOpen (s : St R A V) (act : Act R A V) : Prop :=
  ∀ a ∈ act.agent, ∀ w ∈ winsPage s a, (s.pages w.1).state.st = .nvB ∧
    (s.history w.1).shared = true ∧ (s.history w.1).given ≠ none ∧
    ∀ b, pollsPage s b ≠ some w.1

/-- The count of a page stays below the limit of its field when it is raised. -/
def AddsFit (s : St R A V) (act : Act R A V) : Prop :=
  ∀ a ∈ act.agent, ∀ d ∈ addsCount s a, (s.pages d.1).state.cnt + d.2 < Word.cntLimit

/-- The count of a page is there when it is lowered. -/
def SubsFit (s : St R A V) (act : Act R A V) : Prop :=
  ∀ a ∈ act.agent, ∀ d ∈ subsCount s a, d.2 ≤ (s.pages d.1).state.cnt

/-- The references agents hold on a page. -/
def heldRefs [Fintype A] (s : St R A V) (p : PageId R) : Nat := ∑ a, Ref.on (s.pc a).ref p

/-- A prefetch pin is dropped only where the count stands for one. -/
def PinsCounted [Fintype A] (s : St R A V) (act : Act R A V) : Prop :=
  ∀ a ∈ act.agent, ∀ p ∈ dropsPin s a, heldRefs s p + 1 ≤ (s.pages p).state.cnt

/-- No page is valid or being loaded, and no slot lock is held. -/
def St.Unoccupied (s : St R A V) : Prop :=
  (∀ p, (s.pages p).state.isValid = false ∧ (s.history p).leader = none) ∧
    ∀ a, (s.pc a).own = none

def Act.isClear : Act R A V → Bool
  | .clear => true
  | _ => false

/-- The cache is cleared only while it is unoccupied. -/
def ClearsUnoccupied (s : St R A V) (act : Act R A V) : Prop :=
  act.isClear = true → s.Unoccupied

section Decidable

variable (s : St R A V) (act : Act R A V)

instance : Decidable (LeadsInvalid s act) :=
  inferInstanceAs (Decidable (∀ a ∈ act.agent, ∀ l ∈ leadsPage s a, _))

instance : Decidable (LeadsFresh s act) :=
  inferInstanceAs (Decidable (∀ a ∈ act.agent, ∀ l ∈ leadsPage s a, _ ∨ _ ≠ _))

instance [Fintype A] : Decidable (WinsOpen s act) :=
  inferInstanceAs (Decidable (∀ a ∈ act.agent, ∀ w ∈ winsPage s a, _ ∧ _ ∧ _ ∧ ∀ _, _ ≠ _))

instance : Decidable (AddsFit s act) :=
  inferInstanceAs (Decidable (∀ a ∈ act.agent, ∀ d ∈ addsCount s a, _ < _))

instance : Decidable (SubsFit s act) :=
  inferInstanceAs (Decidable (∀ a ∈ act.agent, ∀ d ∈ subsCount s a, _ ≤ _))

instance [Fintype A] : Decidable (PinsCounted s act) :=
  inferInstanceAs (Decidable (∀ a ∈ act.agent, ∀ p ∈ dropsPin s a, _ ≤ _))

open Classical in
/-- Only the action that clears the cache asks about every page. -/
noncomputable instance : Decidable (ClearsUnoccupied s act) :=
  if h : act.isClear = true then decidable_of_iff s.Unoccupied ⟨fun hu _ => hu, fun hc => hc h⟩
  else isTrue fun hc => absurd hc h

end Decidable

/-! ## The start of a run -/

theorem init_unused {R : Nat} [NeZero R] {A V : Type*}
    {s : St R A V} (h : Init s) : (abs s).Unused where
  flags p := by
    rw [← valid_eq, ← busy_eq, h.state p]
    exact ⟨rfl, rfl⟩
  history p := by
    simp only [abs, h.history p, and_self]
  lock i := by simp only [abs, h.lock i, TakeLock.abs]
  roles a := by
    simp only [abs, h.pc a]
    exact ⟨rfl, rfl, rfl, rfl, rfl, rfl⟩
  ref a := by
    simp only [abs, h.pc a]
    rfl

/-! ## Runs in which nothing is known of the counts -/

/-- Nobody leads a page that is valid, and only open shared misses that have their
    slot and no publisher yet are taken on. -/
def looseGuard : Guard (PageId R) Nat A where
  nowhere := asyncPageTransPending
  lead v p _ := v.valid p = false
  win v _ p _ := v.leader p ≠ none ∧ v.given p ≠ none ∧ v.shared p = true ∧
    ∀ b k, v.polling b = some k → k.page ≠ p
  unpad _ _ _ := True
  recount := True

theorem looseGuard_owning {R : Nat} {A : Type*} : (looseGuard : Guard (PageId R) Nat A).Owning where
  lead _ _ _ h := h
  win _ _ _ _ h := h

/-- A waiter that takes the flag as it should takes on an open miss. -/
theorem WinsOpen.win {R : Nat} [NeZero R] {A V : Type*}
    {s : St R A V} (ho : Lib.PinCache.Owned (abs s)) {a : A} {p : PageId R}
    {i : Nat} (h : WinsOpen s (.run a)) (hw : winsPage s a = some (p, i)) :
    (abs s).leader p ≠ none ∧ (abs s).given p ≠ none ∧ (abs s).shared p = true ∧
      ∀ b k, (abs s).polling b = some k → k.page ≠ p := by
  obtain ⟨hst, hsh, hgv, hpoll⟩ := h a rfl (p, i) hw
  refine ⟨open_of_nvB ho hst, hgv, hsh, ?_⟩
  rintro b k hk rfl
  refine hpoll b ?_
  rw [pollsPage, show (s.pc b).polling = some k from hk]
  rfl

/-- One step of a run keeps what does not depend on the counts. -/
theorem orderly_step {cfg : Config R} {s s' : St R A V} {act : Act R A V}
    (hi : Orderly (abs s)) (hok : Permits looseGuard s act) (hs : step cfg s act = some s') :
    Orderly (abs s') :=
  Lib.PinCache.run_orderly looseGuard_owning hi (step_sim cfg hs hok)

/-! ## Runs in which references are counted -/

section Counted

variable [Fintype A]

/-- No waiters: misses are published by their leaders. -/
def privateGuard : Guard (PageId R) Nat A where
  nowhere := asyncPageTransPending
  lead v p t := v.valid p = false ∧ t = false
  win _ _ _ _ := False
  unpad v p n := (∑ a, Ref.on (v.ref a) p) + n ≤ v.cnt p
  recount := False

theorem privateGuard_placing {R : Nat} {A : Type*} [Fintype A] :
    (privateGuard : Guard (PageId R) Nat A).Placing where
  lead _ _ _ h := h.1
  win _ _ _ _ h := h.elim
  place _ _ _ _ h := h.elim

theorem privateGuard_covering {R : Nat} {A : Type*} [Fintype A] :
    (privateGuard : Guard (PageId R) Nat A).Covering where
  exact h := h
  cover _ _ _ h := h

theorem privateGuard_private {R : Nat} {A : Type*} [Fintype A] :
    (privateGuard : Guard (PageId R) Nat A).Private :=
  fun _ _ _ h => h.2

/-- Nobody leads a page whose offset still passes a follower's test, and whoever
    takes on a publication has found out the slot. -/
def sharedGuard : Guard (PageId R) Nat A where
  nowhere := asyncPageTransPending
  lead v p _ := v.valid p = false ∧
    (v.offset p = asyncPageTransPending ∨ v.tenant (v.offset p) ≠ some p)
  win v a p i := (v.leader p ≠ none ∧ v.given p = some i ∧ v.shared p = true ∧
    ∀ b k, v.polling b = some k → k.page ≠ p) ∧ ∃ n, v.ref a = some ⟨p, n, .named i⟩
  unpad v p n := (∑ a, Ref.on (v.ref a) p) + n ≤ v.cnt p
  recount := False

theorem sharedGuard_placing {R : Nat} {A : Type*} [Fintype A] :
    (sharedGuard : Guard (PageId R) Nat A).Placing where
  lead _ _ _ h := h.1
  win v a p i h := ⟨h.1.1, by simp [h.1.2.1], h.1.2.2.1, h.1.2.2.2⟩
  place _ _ _ _ h := h.1.2.1

theorem sharedGuard_covering {R : Nat} {A : Type*} [Fintype A] :
    (sharedGuard : Guard (PageId R) Nat A).Covering where
  exact h := h
  cover _ _ _ h := h

theorem sharedGuard_aiming {R : Nat} {A : Type*} [Fintype A] :
    (sharedGuard : Guard (PageId R) Nat A).Aiming where
  toOwning := sharedGuard_placing.toOwning
  exact h := h
  stale _ _ _ h := h.2
  hold _ _ _ _ h := h.2

/-- A reference an agent is about to give back is counted, and so is a pin it drops. -/
theorem subs_fit {R : Nat} [NeZero R] {A V : Type*} [Fintype A]
    {s : St R A V} {a : A} (hc : Lib.PinCache.Counted (abs s))
    (hpin : PinsCounted s (.run a)) {p : PageId R} {n : Nat} (h : subsCount s a = some (p, n)) :
    n ≤ (s.pages p).state.cnt := by
  rw [subsCount] at h
  split at h <;> cases h
  rename_i c i marked m hm tc hpc
  have href : (abs s).ref a = some ⟨c.page, c.count, .fixed i⟩ := (abs_at hpc).2.2.2.2.2.2
  have hle : c.count ≤ heldRefs s c.page := Lib.PinCache.count_ge href
  have hheld : heldRefs s c.page ≤ (s.pages c.page).state.cnt := hc.refCount c.page
  cases tc with
  | false =>
    simp only [Bool.toNat_false]
    omega
  | true =>
    have hdrop := hpin a rfl c.page (by rw [dropsPin, hpc]; rfl)
    simp only [Bool.toNat_true]
    omega

/-- Counts stay what they stand for, and leaders and waiters find the page as they
    left it. -/
structure Proper (s : St R A V) (act : Act R A V) : Prop where
  adds : AddsFit s act
  pins : PinsCounted s act
  lead : LeadsInvalid s act
  win : WinsOpen s act
  clear : ClearsUnoccupied s act

/-- The conditions under which a run keeps every invariant of the protocol. -/
structure Clean (s : St R A V) (act : Act R A V) : Prop extends Proper s act where
  fresh : LeadsFresh s act

noncomputable instance (s : St R A V) (act : Act R A V) : Decidable (Proper s act) :=
  decidable_of_iff (AddsFit s act ∧ PinsCounted s act ∧ LeadsInvalid s act ∧ WinsOpen s act ∧
    ClearsUnoccupied s act)
    ⟨fun ⟨h1, h2, h3, h4, h5⟩ => ⟨h1, h2, h3, h4, h5⟩,
      fun ⟨h1, h2, h3, h4, h5⟩ => ⟨h1, h2, h3, h4, h5⟩⟩

noncomputable instance (s : St R A V) (act : Act R A V) : Decidable (Clean s act) :=
  decidable_of_iff (Proper s act ∧ LeadsFresh s act)
    ⟨fun ⟨h1, h2⟩ => ⟨h1, h2⟩, fun ⟨h1, h2⟩ => ⟨h1, h2⟩⟩

/-- A waiter about to take the flag knows the slot of its context. -/
theorem winsPage_named {R : Nat} [NeZero R] {A V : Type*}
    {s : St R A V} {a : A} {p : PageId R} {i : Nat}
    (h : winsPage s a = some (p, i)) : ∃ n, (abs s).ref a = some ⟨p, n, .named i⟩ := by
  rw [winsPage] at h
  split at h
  · rename_i c x b hpc
    split at h <;> cases h
    exact ⟨c.count, (abs_at hpc).2.2.2.2.2.2⟩
  · cases h

theorem Clean.permits {R : Nat} [NeZero R] {A V : Type*} [Fintype A]
    {s : St R A V} {act : Act R A V} (hi : Referenced (abs s))
    (hj : Joined sharedGuard (abs s)) (h : Clean s act) : Permits sharedGuard s act where
  nowhere := rfl
  lead := by
    rintro a p t rfl hl
    refine ⟨h.lead a rfl (p, t) hl, (h.fresh a rfl (p, t) hl).imp_right fun hne ht => ?_⟩
    exact hne (tenantOf_eq_some ht).symm
  win := by
    rintro a p i rfl hw
    obtain ⟨hl, hgv, hsh, hpoll⟩ := h.win.win hi.owned hw
    obtain ⟨n, hn⟩ := winsPage_named hw
    exact ⟨⟨hl, (hj.named a _ i hn rfl).given_eq hi.owned hgv, hsh, hpoll⟩, n, hn⟩
  add := by
    rintro a p n rfl hd
    exact h.adds a rfl (p, n) hd
  sub := by
    rintro a p n rfl hd
    exact subs_fit hi.counted h.pins hd
  clear := by
    rintro rfl
    exact h.clear rfl
  unpad := by
    rintro a p rfl hd
    exact h.pins a rfl p hd
  exact := .inr ⟨hi.owned, hi.placed⟩

/-- The invariants of a clean run. -/
theorem clean_reached {cfg : Config R} {s : St R A V} (h : Reached cfg Clean s) :
    Referenced (abs s) ∧ Joined sharedGuard (abs s) := by
  refine h.invariant (I := fun s => Referenced (abs s) ∧ Joined sharedGuard (abs s)) ?_ ?_
  · intro s hs
    exact ⟨(init_unused hs).referenced, (init_unused hs).joined _⟩
  · rintro s act s' ⟨hi, hj⟩ ⟨hok, hs⟩
    exact Lib.PinCache.run_joined sharedGuard_placing sharedGuard_covering sharedGuard_aiming hi hj
      (step_sim cfg hs (hok.permits hi hj))

end Counted

/-! ## A small cache

    One range of pages striped over `nCtrls` controllers, and memory that was
    all zero. -/

-- Named, so that numerals of ranges and of two or three threads are the same terms in all runs.
scoped instance oneRange : NeZero 1 := ⟨Nat.succ_ne_zero 0⟩

scoped instance twoThreads : NeZero 2 := ⟨Nat.succ_ne_zero 1⟩

scoped instance threeThreads : NeZero 3 := ⟨Nat.succ_ne_zero 2⟩

def smallConfig (nPages nCtrls : Nat) (hp : 0 < nPages ∧ nPages < asyncPageTransPending)
    (hc : 0 < nCtrls) : Config 1 where
  nPages := nPages
  nCtrls := nCtrls
  dist _ := .stripe
  nPages_pos := hp.1
  nPages_lt := hp.2
  nCtrls_pos := hc
  maxRange_pow := oneRange_pow

theorem oneSlot_ok : 0 < 1 ∧ 1 < asyncPageTransPending := by decide

theorem twoSlots_ok : 0 < 2 ∧ 2 < asyncPageTransPending := by decide

theorem oneCtrl_ok : 0 < 1 := by decide

/-- A new cache over a store whose element `e` of page `p` is `data p e`. -/
def newCache (A : Type*) {V : Type*} (data : Nat → Nat → V) (none : V) : St 1 A V where
  pages _ := ⟨0, 0, false, 0, 0, 0⟩
  cachePages _ := ⟨.free, 0⟩
  pageTicket := 0
  ctrlCounter := 0
  qps _ _ := ⟨fun _ => false, 0, [], []⟩
  slotData _ _ := none
  ssd p := data p.index
  pc _ := .idle
  history _ := ⟨.none, false, .none, 0, 0, .none, .none⟩
  serial := 0
  written p := data p.index

theorem newCache_init (A : Type*) {V : Type*} (data : Nat → Nat → V) (none : V) :
    Init (newCache A data none) where
  state _ := rfl
  offset _ := rfl
  prefetchCount _ := rfl
  prefetchCounter _ := rfl
  lock _ := rfl
  queues _ _ := ⟨rfl, rfl, fun _ => rfl⟩
  pc _ := rfl
  history _ := rfl
  written := rfl

/-- A call for one reference on page `i`. -/
def callFor (i : Nat) (write mark : Bool) : Call 1 := ⟨⟨0, i⟩, 1, write, mark, Nat.one_pos⟩

/-- The next `n` steps of agent `a`. -/
def runs (a : A) (n : Nat) : List (Act 1 A V) := List.replicate n (.run a)

end GidsStack.PageCache
