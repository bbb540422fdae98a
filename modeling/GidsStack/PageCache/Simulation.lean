/-
  GidsStack.PageCache.Simulation

  Every step of the machine is a sequence of steps of the protocol, under
  whatever guard the protocol is given, as long as the count fields neither
  overflow nor underflow.
-/

import GidsStack.PageCache.Abstraction

namespace GidsStack.PageCache

open Function (update)
open Lib (map_update)
open Lib.PinCache (Own Take Serve Poll Grip Ref Cache Step Guard Owned Placed)

variable {R : Nat} [NeZero R] {A V : Type*} [DecidableEq A]

/-! ## What the conditions on a step are about -/

/-- The page agent `a` becomes the leader of with its next step, and whether others
    may publish the miss. -/
def leadsPage (s : St R A V) (a : A) : Option (PageId R × Bool) :=
  match s.pc a with
  | .acquire c .setBusy => if (s.pages c.page).state.isBusy then none else some (c.page, false)
  | .submit c _ .setBusy => if (s.pages c.page).state.isBusy then none else some (c.page, true)
  | _ => none

/-- The page whose `polling_flag` agent `a` takes with its next step, and the slot
    of its context. -/
def winsPage (s : St R A V) (a : A) : Option (PageId R × Nat) :=
  match s.pc a with
  | .wait c x _ .casPolling =>
    if (s.pages c.page).pollingFlag then none else some (c.page, x.pageTrans)
  | _ => none

/-- The page whose count agent `a` raises with its next step, and by how much. -/
def addsCount (s : St R A V) (a : A) : Option (PageId R × Nat) :=
  match s.pc a with
  | .acquire c (.fetchAdd pin) | .submit c _ (.fetchAdd pin) =>
    some (c.page, c.count + pin.toNat)
  | _ => none

/-- The page whose count agent `a` lowers with its next step, and by how much. -/
def subsCount (s : St R A V) (a : A) : Option (PageId R × Nat) :=
  match s.pc a with
  | .release c _ _ m _ (.subState tc) => some (c.page, m + tc.toNat)
  | _ => none

/-- The page whose prefetch pin agent `a` stops counting with its next step. -/
def dropsPin (s : St R A V) (a : A) : Option (PageId R) :=
  match s.pc a with
  | .release c _ _ _ _ (.subState true) => some c.page
  | _ => none

/-- The conditions under which a step of the machine is one of the protocol.
    Where counts and references may not be anything, the flags are owned and the
    offsets agree with the slots. -/
structure Permits (g : Guard (PageId R) Nat A) (s : St R A V) (act : Act R A V) : Prop where
  nowhere : g.nowhere = asyncPageTransPending
  lead : ∀ a p t, act = .run a → leadsPage s a = some (p, t) → g.lead (abs s) p t
  win : ∀ a p i, act = .run a → winsPage s a = some (p, i) → g.win (abs s) a p i
  add : ∀ a p n, act = .run a → addsCount s a = some (p, n) →
    (s.pages p).state.cnt + n < Word.cntLimit
  sub : ∀ a p n, act = .run a → subsCount s a = some (p, n) → n ≤ (s.pages p).state.cnt
  clear : act = .clear → (∀ p, (abs s).valid p = false ∧ (abs s).leader p = none) ∧
    ∀ a, (abs s).own a = none
  unpad : ∀ a p, act = .run a → dropsPin s a = some p → g.unpad (abs s) p 1
  exact : g.recount ∨ Owned (abs s) ∧ Placed (abs s)

/-! ## Sequences of protocol steps -/

variable {g : Guard (PageId R) Nat A}

/-- Reached by protocol steps. -/
abbrev Steps (g : Guard (PageId R) Nat A) := Relation.ReflTransGen (Step g)

theorem steps_of_eq {R : Nat} {A : Type*} [DecidableEq A] {g : Guard (PageId R) Nat A}
    {v w : Cache (PageId R) Nat A} (h : w = v) : Steps g v w :=
  h ▸ .refl

theorem steps_one {R : Nat} {A : Type*} [DecidableEq A] {g : Guard (PageId R) Nat A}
    {v u w : Cache (PageId R) Nat A} (h : Step g v u) (e : w = u) : Steps g v w :=
  e ▸ .single h

theorem update_eq_of {α β : Type*} [DecidableEq α] {f : α → β} {a : α} {x : β} (h : f a = x) :
    update f a x = f := by
  rw [← h, Function.update_eq_self]

section Store

variable (s : St R A V) (p : PageId R) (a : A)

theorem abs_led {R : Nat} [NeZero R] {A V : Type*} (s : St R A V) (p : PageId R) (a : A)
    (t : Bool) : abs (s.led p a t) =
    { abs s with
      leader := update (abs s).leader p (some a)
      shared := update (abs s).shared p t
      given := update (abs s).given p none
      consumed := update (abs s).consumed p 0
      published := update (abs s).published p 0 } := by
  simp only [abs, St.led, St.setHistory, map_update]

omit [DecidableEq A] in
theorem abs_assigned (i : Nat) : abs (s.assigned p i) =
    { abs s with given := update (abs s).given p (some i) } := by
  simp only [abs, St.assigned, St.setHistory, map_update, Cache.mk.injEq, true_and, and_true]
  exact ⟨update_eq_of rfl, update_eq_of rfl, update_eq_of rfl, update_eq_of rfl⟩

omit [DecidableEq A] in
theorem abs_published : abs (s.published p) =
    { abs s with
      leader := update (abs s).leader p none
      published := update (abs s).published p ((abs s).published p + 1) } := by
  simp only [abs, St.published, St.setHistory, map_update, Cache.mk.injEq, true_and, and_true]
  exact ⟨update_eq_of rfl, update_eq_of rfl, update_eq_of rfl⟩

omit [DecidableEq A] in
theorem abs_sent (ctrl queue : Nat) (cmd : Cmd R A) : abs (s.sent p ctrl queue cmd) = abs s := by
  simp only [abs, St.sent, St.setHistory, map_update, Cache.mk.injEq, true_and, and_true]
  exact ⟨update_eq_of rfl, update_eq_of rfl, update_eq_of rfl, update_eq_of rfl,
    update_eq_of rfl⟩

omit [DecidableEq A] in
theorem abs_took (ctrl queue : Nat) (cmd : Cmd R A) : abs (s.took p ctrl queue cmd) =
    { abs s with consumed := update (abs s).consumed p ((abs s).consumed p + 1) } := by
  simp only [abs, St.took, St.setHistory, map_update, Cache.mk.injEq, true_and, and_true]
  exact ⟨update_eq_of rfl, update_eq_of rfl, update_eq_of rfl, update_eq_of rfl⟩

end Store

/-! ## find_slot -/

/-- Standing in `find_slot` for page `p`, whichever operation called it. -/
structure FindEmb (emb : FindPc R → Pc R) (p : PageId R) (t : Bool)
    (r : Option (Ref (PageId R) Nat)) : Prop where
  leading : ∀ k, (emb k).leading = some (p, t)
  own : ∀ k, (emb k).own = k.own
  taking : ∀ k, (emb k).taking = k.taking
  assigned : ∀ k, (emb k).assigned = none
  serving : ∀ k, (emb k).serving = none
  polling : ∀ k, (emb k).polling = none
  ref : ∀ k, (emb k).ref = r

section Find

variable {s : St R A V} {a : A} {p : PageId R} {emb : FindPc R → Pc R} {t : Bool}
  {r : Option (Ref (PageId R) Nat)} {k : FindPc R}

theorem abs_goto_find (he : FindEmb emb p t r) (hpc : s.pc a = emb k) (k' : FindPc R) :
    abs (s.goto a (emb k')) =
      { abs s with
        own := update (abs s).own a k'.own
        taking := update (abs s).taking a k'.taking } := by
  have h1 : (abs s).leading a = some (p, t) := by rw [← he.leading k, ← hpc]; rfl
  have h2 : (abs s).assigned a = none := by rw [← he.assigned k, ← hpc]; rfl
  have h3 : (abs s).serving a = none := by rw [← he.serving k, ← hpc]; rfl
  have h4 : (abs s).polling a = none := by rw [← he.polling k, ← hpc]; rfl
  have h5 : (abs s).ref a = r := by rw [← he.ref k, ← hpc]; rfl
  rw [abs_goto, he.leading, he.own, he.taking, he.assigned, he.serving, he.polling, he.ref,
    update_eq_of h1, update_eq_of h2, update_eq_of h3, update_eq_of h4, update_eq_of h5]

/-- A step of `find_slot` that owns and evicts what it did before is not seen. -/
theorem abs_goto_find_same (he : FindEmb emb p t r) (hpc : s.pc a = emb k) {k' : FindPc R}
    (ho : k'.own = k.own) (ht : k'.taking = k.taking) : abs (s.goto a (emb k')) = abs s := by
  have h1 : (abs s).own a = k'.own := by rw [ho, ← he.own k, ← hpc]; rfl
  have h2 : (abs s).taking a = k'.taking := by rw [ht, ← he.taking k, ← hpc]; rfl
  rw [abs_goto_find he hpc, update_eq_of h1, update_eq_of h2]

theorem findTest_sim (he : FindEmb emb p t r) {i : Nat} {q : PageId R} (hpc : s.pc a = emb k)
    (ho : k.own = some ⟨i, .looked q⟩) (ht : k.taking = none) (n : Nat) (b : Bool) :
    Steps g (abs s) (abs (findTest s a emb i q n b)) := by
  rw [findTest]
  split <;> exact steps_of_eq (abs_goto_find_same he hpc (by rw [ho]; rfl) (by rw [ht]; rfl))

/-- The step lemma of `find_slot`: every step but its return. -/
theorem findStep_sim (cfg : Config R) (ver : FindVersion) (he : FindEmb emb p t r)
    (hpc : s.pc a = emb k) (ret : Nat → Pc R) (hk : ∀ i, k ≠ .unlockDone i) :
    Steps g (abs s) (abs (findStep cfg ver s a p emb ret k)) := by
  have hlead : (abs s).leading a = some (p, t) := by rw [← he.leading k, ← hpc]; rfl
  have hown : (abs s).own a = k.own := by rw [← he.own k, ← hpc]; rfl
  have htake : (abs s).taking a = k.taking := by rw [← he.taking k, ← hpc]; rfl
  cases k with
  | ticket =>
    exact steps_of_eq (abs_goto_find_same (s := { s with pageTicket := s.pageTicket + 1 }) he hpc
      rfl rfl)
  | loadLock i =>
    simp only [findStep]
    split <;> exact steps_of_eq (abs_goto_find_same he hpc rfl rfl)
  | casFree i =>
    simp only [findStep]
    split
    · rename_i hl
      have hl' : (abs s).lock i = .free := by simp only [abs, hl, TakeLock.abs]
      refine steps_one (Step.grabFree a i (by simp [hlead]) (hown.trans rfl) hl') ?_
      rw [abs_goto_find (s := s.setLock i .locked) he hpc, abs_setLock]
      simp only [FindPc.own, FindPc.taking, TakeLock.abs] at htake ⊢
      rw [update_eq_of htake]
    · exact steps_of_eq (abs_goto_find_same he hpc rfl rfl)
  | casUnlocked i =>
    simp only [findStep]
    split
    · rename_i hl
      have hl' : (abs s).lock i = .opened := by simp only [abs, hl, TakeLock.abs]
      refine steps_one (Step.grabUsed a i (by simp [hlead]) (hown.trans rfl) hl') ?_
      rw [abs_goto_find (s := s.setLock i .locked) he hpc, abs_setLock]
      simp only [FindPc.own, FindPc.taking, TakeLock.abs] at htake ⊢
      rw [update_eq_of htake]
    · exact steps_of_eq (abs_goto_find_same he hpc rfl rfl)
  | loadTrans i =>
    refine steps_one (Step.look a _ i (hown.trans rfl)
      (tenantOf_cases (s.cachePages i).pageTranslation)) ?_
    simp only [findStep, abs_goto_find he hpc, FindPc.own, FindPc.taking] at htake ⊢
    rw [update_eq_of htake]
  | loadState i q =>
    cases ver with
    | state => exact findTest_sim he hpc rfl rfl _ _
    | refCount => exact steps_of_eq (abs_goto_find_same he hpc rfl rfl)
  | loadRefCount i q => exact findTest_sim he hpc rfl rfl _ _
  | setBusy i q =>
    simp only [FindPc.own, FindPc.taking] at hown htake
    have hsame : ∀ k', k'.own = some ⟨i, .looked q⟩ → k'.taking = none →
        (s.pages q).state.isBusy = true →
        abs ((s.setState q ((s.pages q).state ||| Word.BUSY)).goto a (emb k')) = abs s := by
      intro k' ho ht hb
      rw [abs_goto_find (s := s.setState q _) he hpc, abs_or_BUSY, ho, ht]
      simp only [update_eq_of hown, update_eq_of htake, update_eq_of (f := (abs s).busy) hb]
    have hmark : ∀ k', k'.own = some ⟨i, .looked q⟩ →
        k'.taking = some ⟨q, decide ((s.pages q).state.cnt = 0)⟩ →
        (s.pages q).state.isBusy = false →
        Steps g (abs s)
          (abs ((s.setState q ((s.pages q).state ||| Word.BUSY)).goto a (emb k'))) := by
      intro k' ho ht hb
      refine steps_one (Step.markBusy a q i hown htake hb) ?_
      rw [abs_goto_find (s := s.setState q _) he hpc, abs_or_BUSY, ho, ht]
      simp only [update_eq_of hown]
      rfl
    simp only [findStep]
    by_cases hb : (s.pages q).state.isBusy = true
    · simp only [hb, if_true]
      exact steps_of_eq (hsame _ rfl rfl hb)
    · have hb' : (s.pages q).state.isBusy = false := by simpa using hb
      by_cases hc : (s.pages q).state.cnt = 0
      · by_cases hd : (s.pages q).state.isDirty = true
        · simp only [hb, hc, hd, if_true]
          exact hmark _ rfl (by simp [hc, FindPc.taking]) hb'
        · simp only [hb, hc, hd, if_true]
          exact hmark _ rfl (by simp [hc, FindPc.taking]) hb'
      · simp only [hb, hc, if_false]
        exact hmark _ rfl (by simp [hc, FindPc.taking]) hb'
  | writeData i q =>
    exact steps_of_eq (abs_goto_find_same (s := { s with ssd := update s.ssd q (s.slotData i) })
      he hpc rfl rfl)
  | clearState i q =>
    refine steps_one (Step.evicted a q i (hown.trans rfl) (htake.trans rfl)) ?_
    simp only [findStep]
    rw [abs_goto_find (s := s.setState q _) he hpc, abs_and_cntMask]
    simp only [FindPc.own, FindPc.taking]
  | undoBusy i q =>
    refine steps_one (Step.undone a q (htake.trans rfl)) ?_
    simp only [findStep]
    rw [abs_goto_find (s := s.setState q _) he hpc, abs_and_disableBusy]
    simp only [FindPc.own, FindPc.taking] at hown ⊢
    rw [update_eq_of hown]
  | unlockFail i q =>
    refine steps_one (Step.giveUp a q i (hown.trans rfl) (htake.trans rfl)) ?_
    simp only [findStep]
    rw [abs_goto_find (s := s.setLock i .unlocked) he hpc, abs_setLock]
    simp only [FindPc.own, FindPc.taking, TakeLock.abs] at htake ⊢
    rw [update_eq_of htake]
  | storeTrans i =>
    refine steps_one (Step.settle a p t i hlead (hown.trans rfl)) ?_
    simp only [findStep]
    rw [abs_goto_find (s := s.setTrans i _) he hpc, abs_setTrans,
      tenantOf_getGlobalAddress cfg.maxRange_pow]
    simp only [FindPc.own, FindPc.taking] at htake ⊢
    rw [update_eq_of htake]
  | unlockDone i => exact absurd rfl (hk i)

end Find

/-! ## Steps that only move an agent -/

/-- What the protocol sees of where an agent stands. -/
def Pc.view (k : Pc R) :=
  (k.leading, k.own, k.taking, k.assigned, k.serving, k.polling, k.ref)

/-- The same without the reference the agent holds. -/
def Pc.roles (k : Pc R) := (k.leading, k.own, k.taking, k.assigned, k.serving, k.polling)

section Goto

variable {s : St R A V} {a : A} {k k' : Pc R}

/-- What the protocol sees of an agent that stands at `k`. -/
theorem abs_at {R : Nat} [NeZero R] {A V : Type*} {s : St R A V} {a : A} {k : Pc R}
    (hpc : s.pc a = k) : (abs s).leading a = k.leading ∧ (abs s).own a = k.own ∧
    (abs s).taking a = k.taking ∧ (abs s).assigned a = k.assigned ∧
    (abs s).serving a = k.serving ∧ (abs s).polling a = k.polling ∧ (abs s).ref a = k.ref := by
  subst hpc
  exact ⟨rfl, rfl, rfl, rfl, rfl, rfl, rfl⟩

theorem abs_goto_ref (hpc : s.pc a = k) (h : k'.roles = k.roles) :
    abs (s.goto a k') = { abs s with ref := update (abs s).ref a k'.ref } := by
  subst hpc
  simp only [Pc.roles, Prod.mk.injEq] at h
  obtain ⟨h1, h2, h3, h4, h5, h6⟩ := h
  rw [abs_goto, update_eq_of (f := (abs s).leading) h1.symm,
    update_eq_of (f := (abs s).own) h2.symm, update_eq_of (f := (abs s).taking) h3.symm,
    update_eq_of (f := (abs s).assigned) h4.symm, update_eq_of (f := (abs s).serving) h5.symm,
    update_eq_of (f := (abs s).polling) h6.symm]

/-- What an agent outside of `find_slot` shows of itself. -/
def Pc.late (k : Pc R) := (k.assigned, k.serving, k.polling, k.ref)

/-- An agent that goes on outside of `find_slot`. -/
theorem abs_goto_late (hpc : s.pc a = k)
    (h : (k'.leading, k'.own, k'.taking) = (k.leading, k.own, k.taking))
    {l : Option (PageId R × Nat)} {v : Option (Serve (PageId R) Nat)}
    {o : Option (Poll (PageId R) Nat)} {r : Option (Ref (PageId R) Nat)}
    (h' : k'.late = (l, v, o, r)) :
    abs (s.goto a k') =
      { abs s with
        assigned := update (abs s).assigned a l
        serving := update (abs s).serving a v
        polling := update (abs s).polling a o
        ref := update (abs s).ref a r } := by
  subst hpc
  simp only [Prod.mk.injEq, Pc.late] at h h'
  obtain ⟨h1, h2, h3⟩ := h
  obtain ⟨rfl, rfl, rfl, rfl⟩ := h'
  rw [abs_goto, update_eq_of (f := (abs s).leading) h1.symm,
    update_eq_of (f := (abs s).own) h2.symm, update_eq_of (f := (abs s).taking) h3.symm]

theorem abs_goto_same (hpc : s.pc a = k) (h : k'.view = k.view) : abs (s.goto a k') = abs s := by
  simp only [Pc.view, Prod.mk.injEq] at h
  obtain ⟨h1, h2, h3, h4, h5, h6, h7⟩ := h
  have hr : (abs s).ref a = k'.ref := by rw [h7, ← hpc]; rfl
  rw [abs_goto_ref hpc (by simp only [Pc.roles, h1, h2, h3, h4, h5, h6]), update_eq_of hr]

/-- A store the protocol does not see, by an agent whose going on it does not see. -/
theorem stutter {s' : St R A V} (hpc : s.pc a = k) (hs : abs s' = abs s) (hp : s'.pc = s.pc)
    (h : k'.view = k.view) : Steps g (abs s) (abs (s'.goto a k')) := by
  rw [← hs]
  exact steps_of_eq (abs_goto_same (by rw [hp, hpc]) h)

end Goto

/-! ## References -/

/-- A page that is invalid and busy has an open miss. -/
theorem open_of_nvB {R : Nat} [NeZero R] {A V : Type*}
    {s : St R A V} {p : PageId R} (ho : Owned (abs s))
    (h : (s.pages p).state.st = .nvB) : (abs s).leader p ≠ none := by
  obtain ⟨hv, hb⟩ := Word.st_nvB h
  intro hl
  have hopen := (ho.openIff p).mp hl
  rw [← valid_eq, ← busy_eq, hv, hb] at hopen
  simp at hopen

section Refs

variable {s : St R A V} {a : A} {k k' : Pc R} {p : PageId R} {n : Nat}

/-- An agent that reads a page valid and not busy under its reference pins it. -/
theorem pin_sim {gr : Grip Nat} (hpc : s.pc a = k) (h : k'.roles = k.roles)
    (hr : k.ref = some ⟨p, n, gr⟩) (hidle : k.assigned = none ∧ k.polling = none)
    (hst : (s.pages p).state.st = .vNb) (hr' : k'.ref = some ⟨p, n, .pinned⟩) :
    Steps g (abs s) (abs (s.goto a k')) := by
  obtain ⟨hv, hb⟩ := Word.st_vNb hst
  obtain ⟨-, -, -, e4, -, e6, e7⟩ := abs_at hpc
  rw [hidle.1] at e4
  rw [hidle.2] at e6
  rw [hr] at e7
  refine steps_one (Step.pin a p n gr e7 e4 e6 hv hb) ?_
  rw [abs_goto_ref hpc h, hr']

/-- An agent that reads the offset of a page it has pinned knows its slot. -/
theorem fix_sim (hpc : s.pc a = k) (h : k'.roles = k.roles) (hr : k.ref = some ⟨p, n, .pinned⟩)
    (hr' : k'.ref = some ⟨p, n, .fixed (s.pages p).offset⟩) :
    Steps g (abs s) (abs (s.goto a k')) := by
  have hra : (abs s).ref a = some ⟨p, n, .pinned⟩ := by rw [← hr, ← hpc]; rfl
  refine steps_one (Step.fix a p n (s.pages p).offset hra rfl) ?_
  rw [abs_goto_ref hpc h, hr']

/-- An agent that reads a page invalid and busy has joined its miss. -/
theorem join_sim (hpc : s.pc a = k) (h : k'.roles = k.roles) (hr : k.ref = some ⟨p, n, .raised⟩)
    (hst : (s.pages p).state.st = .nvB) (hr' : k'.ref = some ⟨p, n, .joined⟩)
    (hex : g.recount ∨ Owned (abs s)) : Steps g (abs s) (abs (s.goto a k')) := by
  have hra : (abs s).ref a = some ⟨p, n, .raised⟩ := by rw [← hr, ← hpc]; rfl
  rcases hex with hre | ho
  · rw [abs_goto_ref hpc h]
    exact steps_one (Step.recount (abs s).cnt _ hre) rfl
  · refine steps_one (Step.join a p n hra (open_of_nvB ho hst)) ?_
    rw [abs_goto_ref hpc h, hr']

/-- Raising the count of a page: the state read at once tells whether the page is
    pinned or its miss joined already. -/
theorem raise_sim {gr : Grip Nat} (pin : Bool) (hpc : s.pc a = k) (h : k'.roles = k.roles)
    (hk : k.ref = none ∧ k.assigned = none ∧ k.polling = none) (hr' : k'.ref = some ⟨p, n, gr⟩)
    (hgr : gr = .raised ∨ gr = seenGrip (s.pages p).state.st)
    (hn : 0 < n) (hadd : (s.pages p).state.cnt + (n + pin.toNat) < Word.cntLimit)
    (hex : g.recount ∨ Owned (abs s)) :
    Steps g (abs s) (abs ((s.setState p
      ((s.pages p).state + BitVec.ofNat 32 (n + pin.toNat))).goto a k')) := by
  obtain ⟨-, -, -, e4, -, e6, e7⟩ := abs_at hpc
  rw [hk.1] at e7
  rw [hk.2.1] at e4
  rw [hk.2.2] at e6
  have habs := abs_goto_ref
    (s := s.setState p ((s.pages p).state + BitVec.ofNat 32 (n + pin.toNat))) hpc h
  rw [abs_add s p hadd] at habs
  rw [habs, hr']
  rcases hex with hre | ho
  · exact steps_one (Step.recount _ _ hre) rfl
  -- the reference first, then what was seen, and last the pin
  have htake := Step.takeRef (g := g) a p n hn e7
  set v := { abs s with
    cnt := update (abs s).cnt p ((abs s).cnt p + n)
    ref := update (abs s).ref a (some ⟨p, n, .raised⟩) } with hv
  have hva : v.ref a = some ⟨p, n, .raised⟩ := Function.update_self ..
  have hsee : Steps g v { v with ref := update v.ref a (some ⟨p, n, gr⟩) } := by
    have hself : { v with ref := update v.ref a (some ⟨p, n, .raised⟩) } = v := by
      rw [update_eq_of hva]
    rcases hgr with rfl | rfl
    · exact steps_of_eq hself
    cases hst : (s.pages p).state.st with
    | vNb =>
      obtain ⟨hval, hb⟩ := Word.st_vNb hst
      exact .single (Step.pin a p n .raised hva e4 e6 hval hb)
    | nvB => exact .single (Step.join a p n hva (open_of_nvB ho hst))
    | nvNb => exact steps_of_eq hself
    | vB => exact steps_of_eq hself
  refine (Relation.ReflTransGen.single htake).trans (hsee.trans ?_)
  refine steps_one (Step.pad p pin.toNat) ?_
  simp only [hv, Function.update_idem, Function.update_self, Nat.add_assoc]

/-- Publishing a page leaves the publisher with a reference that knows its slot. -/
theorem published_sim {R : Nat} {A : Type*} [DecidableEq A] {g : Guard (PageId R) Nat A} {a : A}
    {p : PageId R} {n : Nat} {v : Cache (PageId R) Nat A} {i : Nat} {gr : Grip Nat}
    (hra : v.ref a = some ⟨p, n, gr⟩) (hidle : v.assigned a = none ∧ v.polling a = none)
    (hex : g.recount ∨ v.valid p = true ∧ v.busy p = false ∧ v.offset p = i) :
    Steps g v { v with ref := update v.ref a (some ⟨p, n, .fixed i⟩) } := by
  rcases hex with hre | ⟨hv, hb, ho⟩
  · exact steps_one (Step.recount v.cnt _ hre) rfl
  · refine .tail (.single (Step.pin a p n gr hra hidle.1 hidle.2 hv hb)) ?_
    have hfix := Step.fix (g := g) (v := { v with
      ref := update v.ref a (some ⟨p, n, .pinned⟩) }) a p n i (Function.update_self ..) ho
    simpa only [Function.update_idem] using hfix

end Refs

/-! ## acquire_page -/

section Operations

variable {s : St R A V} {a : A} {c : Call R} {x : Ctx}

/-- The prologue is not seen. -/
theorem prologueStep_sim {e : ProloguePc → Pc R} {r : Bool → Pc R} {k : ProloguePc}
    (hpc : s.pc a = e k) (he : ∀ k', (e k').view = (e k).view)
    (hr : ∀ pin, (r pin).view = (e k).view) (p : PageId R) :
    Steps g (abs s) (abs (prologueStep s a p e r k)) := by
  cases k with
  | loadPrefetch =>
    simp only [prologueStep]
    split <;> exact stutter hpc rfl rfl (he _)
  | storePrefetch w => exact stutter hpc (abs_setPrefetchCount s p _) rfl (he _)
  | loadWindow pin =>
    simp only [prologueStep]
    split
    · exact stutter hpc rfl rfl (he _)
    · exact stutter hpc rfl rfl (hr _)
  | storeWindow w => exact stutter hpc (abs_setPrefetchCounter s p _) rfl (hr _)

/-- A leader setting BUSY; the leader of a shared miss joins it. -/
theorem lead_sim {k k' : Pc R} {p : PageId R} {n : Nat} (t : Bool) (hpc : s.pc a = k)
    (hk : k.leading = none ∧ k.own = none) (hr : k.ref = some ⟨p, n, .raised⟩)
    (hlead : leadsPage s a = some (p, t))
    (hb : (s.pages p).state.isBusy = false) (hok : Permits g s (.run a))
    (h' : k'.view = (some (p, t), k.own, k.taking, k.assigned, k.serving, k.polling,
      some ⟨p, n, if t then .joined else .raised⟩)) :
    Steps g (abs s)
      (abs (((s.setState p ((s.pages p).state ||| Word.BUSY)).led p a t).goto a k')) := by
  subst hpc
  simp only [Pc.view, Prod.mk.injEq] at h'
  obtain ⟨h1, h2, h3, h4, h5, h6, h7⟩ := h'
  obtain ⟨-, e2, e3, e4, e5, e6, e7⟩ := abs_at (s := s) (a := a) rfl
  rw [hr] at e7
  have hstep := Step.lead a p t hk.1 hk.2 hb (hok.lead a p t rfl hlead)
  rw [abs_goto, abs_led, abs_or_BUSY, h1, h2, h3, h4, h5, h6, h7]
  simp only [update_eq_of e2, update_eq_of e3, update_eq_of e4, update_eq_of e5, update_eq_of e6]
  cases t with
  | false => exact steps_one hstep (by simp only [Bool.false_eq_true, if_false, update_eq_of e7])
  | true =>
    refine .tail (.single hstep) ?_
    exact Step.join a p n e7 (by simp)

theorem acquire_emb {R : Nat} (c : Call R) :
    FindEmb (fun k => .acquire c (.find k)) c.page false (some ⟨c.page, c.count, .raised⟩) where
  leading _ := rfl
  own _ := rfl
  taking _ := rfl
  assigned _ := rfl
  serving _ := rfl
  polling _ := rfl
  ref _ := rfl

theorem submit_emb {R : Nat} (c : Call R) (x : Ctx) :
    FindEmb (fun k => .submit c x (.find k)) c.page true (some ⟨c.page, c.count, .joined⟩) where
  leading _ := rfl
  own _ := rfl
  taking _ := rfl
  assigned _ := rfl
  serving _ := rfl
  polling _ := rfl
  ref _ := rfl

/-- `find_slot` returning slot `i` for page `p`; the leader of a shared miss knows it
    is the page's. -/
theorem assign_sim {emb : FindPc R → Pc R} {t : Bool} {r : Option (Ref (PageId R) Nat)}
    {p : PageId R} {i n : Nat} {k' : Pc R} (he : FindEmb emb p t r)
    (hpc : s.pc a = emb (.unlockDone i)) (hr : t = true → r = some ⟨p, n, .joined⟩)
    (h' : k'.view = (none, none, none, if t then some (p, i) else none,
      if t then none else some ⟨p, i, false⟩, none,
      if t then some ⟨p, n, .named i⟩ else r)) :
    Steps g (abs s) (abs (((s.setLock i .unlocked).assigned p i).goto a k')) := by
  simp only [Pc.view, Prod.mk.injEq] at h'
  obtain ⟨h1, h2, h3, h4, h5, h6, h7⟩ := h'
  have e1 : (abs s).leading a = some (p, t) := by rw [← he.leading, ← hpc]; rfl
  have e2 : (abs s).own a = some ⟨i, .written⟩ := by
    rw [show (abs s).own a = (s.pc a).own from rfl, hpc, he.own]; rfl
  have e3 : (abs s).taking a = none := by
    rw [show (abs s).taking a = (s.pc a).taking from rfl, hpc, he.taking]; rfl
  have e4 : (abs s).polling a = none := by rw [← he.polling, ← hpc]; rfl
  have e5 : (abs s).ref a = r := by rw [← he.ref, ← hpc]; rfl
  have hstep := Step.assign (g := g) a p t i e1 e2 (fun ht => ⟨n, by rw [e5, hr ht]⟩)
  rw [abs_goto, abs_assigned, abs_setLock, h1, h2, h3, h4, h5, h6, h7]
  simp only [update_eq_of e3, update_eq_of e4, TakeLock.abs]
  cases t with
  | false =>
    refine steps_one hstep ?_
    simp only [Bool.false_eq_true, if_false, update_eq_of e5]
  | true =>
    refine .tail (.single hstep) ?_
    exact Step.receive a p n i (by rw [e5, hr rfl]) (Function.update_self ..)

/-- Going on with the state just read: the page is pinned if it was valid. -/
theorem acquireDispatch_view {R : Nat} (c : Call R) (w : Word) :
    (Pc.acquire c (acquireDispatch c w)).roles = (none, none, none, none, none, none) ∧
    (Pc.acquire c (acquireDispatch c w)).ref =
      some ⟨c.page, c.count, if w.st = .vNb then .pinned else .raised⟩ := by
  rw [acquireDispatch]
  cases w.st with
  | vNb => dsimp only; split <;> exact ⟨rfl, rfl⟩
  | nvNb => exact ⟨rfl, rfl⟩
  | nvB => exact ⟨rfl, rfl⟩
  | vB => exact ⟨rfl, rfl⟩

/-- Toggling the state of a page whose slot the publisher has stored. -/
theorem publish_sim {v : Cache (PageId R) Nat A} {p : PageId R} {i n : Nat} {k' : Pc R}
    {gr : Grip Nat} (hstep : Step g (abs s) v) (hv : v.ref a = some ⟨p, n, gr⟩)
    (hidle : v.assigned a = none ∧ v.polling a = none)
    (heq : abs (((s.setState p ((s.pages p).state ^^^ Word.disableBusyEnableValid)).published
      p).goto a k') = { v with ref := update v.ref a (some ⟨p, n, .fixed i⟩) })
    (hvalid : v.valid p = !(abs s).valid p) (hbusy : v.busy p = !(abs s).busy p)
    (hoff : v.offset p = (abs s).offset p)
    (hex : g.recount ∨ (abs s).leader p ≠ none ∧ Owned (abs s) ∧ (abs s).offset p = i) :
    Steps g (abs s) (abs (((s.setState p
      ((s.pages p).state ^^^ Word.disableBusyEnableValid)).published p).goto a k')) := by
  rw [heq]
  refine .trans (.single hstep) (published_sim hv hidle (hex.imp_right ?_))
  rintro ⟨hl, ho, hi⟩
  have hopen := (ho.openIff p).not.mp hl
  simp only [not_or, Bool.not_eq_false, Bool.not_eq_true] at hopen
  exact ⟨by rw [hvalid, hopen.2]; rfl, by rw [hbusy, hopen.1]; rfl, hoff.trans hi⟩

theorem acquireStep_sim (cfg : Config R) {k : AcquirePc R} (hpc : s.pc a = .acquire c k)
    (hok : Permits g s (.run a)) : Steps g (abs s) (abs (acquireStep cfg s a c k)) := by
  cases k with
  | prologue k =>
    exact prologueStep_sim (e := fun k => .acquire c (.prologue k))
      (r := fun pin => .acquire c (.fetchAdd pin)) hpc (fun _ => rfl) (fun _ => rfl) c.page
  | fetchAdd pin =>
    have hadd := hok.add a c.page (c.count + pin.toNat) rfl (by rw [addsCount, hpc])
    obtain ⟨hroles, href⟩ := acquireDispatch_view c (s.pages c.page).state
    refine raise_sim pin hpc hroles ⟨rfl, rfl, rfl⟩ href ?_ c.count_pos hadd
      (hok.exact.imp_right (·.1))
    cases (s.pages c.page).state.st with
    | vNb => exact .inr rfl
    | nvNb => exact .inl rfl
    | nvB => exact .inl rfl
    | vB => exact .inl rfl
  | setBusy =>
    simp only [acquireStep]
    by_cases hb : (s.pages c.page).state.isBusy = true
    · rw [if_pos hb]
      refine stutter hpc ?_ rfl rfl
      rw [abs_or_BUSY, update_eq_of (f := (abs s).busy) hb]
    · rw [if_neg hb]
      have hl : leadsPage s a = some (c.page, false) := by rw [leadsPage, hpc]; exact if_neg hb
      exact lead_sim false hpc ⟨rfl, rfl⟩ rfl hl (by simpa using hb) hok rfl
  | find k =>
    by_cases hk : ∃ i, k = .unlockDone i
    · obtain ⟨i, rfl⟩ := hk
      exact assign_sim (n := c.count) (acquire_emb c) hpc (by simp) rfl
    · exact findStep_sim cfg .state (acquire_emb c) hpc _ (fun i h => hk ⟨i, h⟩)
  | chooseCtrl i =>
    simp only [acquireStep]
    split <;> exact stutter hpc rfl rfl rfl
  | readData i => exact stutter hpc rfl rfl rfl
  | storeOffset i =>
    have e4 : (abs s).assigned a = none := (abs_at hpc).2.2.2.1
    have e5 : (abs s).serving a = some ⟨c.page, i, false⟩ := (abs_at hpc).2.2.2.2.1
    have e6 : (abs s).polling a = none := (abs_at hpc).2.2.2.2.2.1
    have e7 : (abs s).ref a = some ⟨c.page, c.count, .raised⟩ := (abs_at hpc).2.2.2.2.2.2
    refine steps_one (Step.storeServed a c.page i e5) ?_
    have hl : (Pc.acquire c (if c.write then .setDirty i else .publish i)).view =
        (none, none, none, none, some ⟨c.page, i, true⟩, none,
          some ⟨c.page, c.count, .raised⟩) := by
      split <;> rfl
    simp only [Pc.view, Prod.mk.injEq] at hl
    obtain ⟨h1, h2, h3, hl⟩ := hl
    rw [acquireStep, abs_goto_late (s := s.setOffset c.page i) hpc (by rw [h1, h2, h3]; rfl)
      (by rw [Pc.late, hl.1, hl.2.1, hl.2.2.1, hl.2.2.2]), abs_setOffset]
    simp only [update_eq_of e4, update_eq_of e6, update_eq_of e7]
  | setDirty i => exact stutter hpc (abs_or_DIRTY s c.page) rfl rfl
  | publish i =>
    have e4 : (abs s).assigned a = none := (abs_at hpc).2.2.2.1
    have e5 : (abs s).serving a = some ⟨c.page, i, true⟩ := (abs_at hpc).2.2.2.2.1
    have e6 : (abs s).polling a = none := (abs_at hpc).2.2.2.2.2.1
    have e7 : (abs s).ref a = some ⟨c.page, c.count, .raised⟩ := (abs_at hpc).2.2.2.2.2.2
    refine publish_sim (i := i) (Step.publishServed a c.page i e5) e7 ⟨e4, e6⟩ ?_
      (Function.update_self ..) (Function.update_self ..) rfl ?_
    · have hl : (acquired c i).view =
          (none, none, none, none, none, none, some ⟨c.page, c.count, .fixed i⟩) := by
        rw [acquired]
        split <;> rfl
      simp only [Pc.view, Prod.mk.injEq] at hl
      obtain ⟨h1, h2, h3, hl⟩ := hl
      rw [abs_goto_late (s := (s.setState _ _).published _) hpc (by rw [h1, h2, h3]; rfl)
        (by rw [Pc.late, hl.1, hl.2.1, hl.2.2.1, hl.2.2.2]), abs_published, abs_xor]
      simp only [update_eq_of e4, update_eq_of e6]
    · refine hok.exact.imp_right fun h => ⟨?_, h.1, h.2.served a _ e5 rfl⟩
      simp [(h.1.serve a _ e5).1]
  | markDirty => exact stutter hpc (abs_or_DIRTY s c.page) rfl rfl
  | loadOffset =>
    simp only [acquireStep, acquired]
    split <;> exact fix_sim hpc rfl rfl rfl
  | reload =>
    simp only [acquireStep, acquireDispatch]
    split
    · exact stutter hpc rfl rfl rfl
    · rename_i hst
      split <;> exact pin_sim hpc rfl rfl ⟨rfl, rfl⟩ hst rfl
    · exact stutter hpc rfl rfl rfl
    · exact stutter hpc rfl rfl rfl

/-! ## acquire_page_submit_async -/

theorem submitDispatch_view {R : Nat} (c : Call R) (x : Ctx) (w : Word) :
    (Pc.submit c x (submitDispatch c w)).roles = (none, none, none, none, none, none) ∧
    (Pc.submit c x (submitDispatch c w)).ref = some ⟨c.page, c.count, seenGrip w.st⟩ := by
  rw [submitDispatch]
  cases w.st with
  | vNb => dsimp only; split <;> exact ⟨rfl, rfl⟩
  | nvNb => exact ⟨rfl, rfl⟩
  | nvB => exact ⟨rfl, rfl⟩
  | vB => exact ⟨rfl, rfl⟩

theorem submitStep_sim (cfg : Config R) {k : SubmitPc R} (hpc : s.pc a = .submit c x k)
    (hok : Permits g s (.run a)) : Steps g (abs s) (abs (submitStep cfg s a c x k)) := by
  cases k with
  | prologue k =>
    exact prologueStep_sim (e := fun k => .submit c x (.prologue k))
      (r := fun pin => .submit c x (.fetchAdd pin)) hpc (fun _ => rfl) (fun _ => rfl) c.page
  | fetchAdd pin =>
    have hadd := hok.add a c.page (c.count + pin.toNat) rfl (by rw [addsCount, hpc])
    exact raise_sim pin hpc rfl ⟨rfl, rfl, rfl⟩ rfl (.inr rfl) c.count_pos hadd
      (hok.exact.imp_right (·.1))
  | addRefCount pin w =>
    refine stutter hpc (abs_setRefCount s c.page _) rfl ?_
    obtain ⟨hroles, href⟩ := submitDispatch_view c x w
    simp only [Pc.roles, Prod.mk.injEq] at hroles
    obtain ⟨h1, h2, h3, h4, h5, h6⟩ := hroles
    rw [Pc.view, h1, h2, h3, h4, h5, h6, href]
    rfl
  | setBusy =>
    simp only [submitStep]
    by_cases hb : (s.pages c.page).state.isBusy = true
    · rw [if_pos hb]
      refine stutter hpc ?_ rfl rfl
      rw [abs_or_BUSY, update_eq_of (f := (abs s).busy) hb]
    · rw [if_neg hb]
      have hl : leadsPage s a = some (c.page, true) := by rw [leadsPage, hpc]; exact if_neg hb
      exact lead_sim true hpc ⟨rfl, rfl⟩ rfl hl (by simpa using hb) hok rfl
  | clearPolling => exact stutter hpc (abs_setPolling s c.page false) rfl rfl
  | storePending =>
    have e1 : (abs s).leading a = some (c.page, true) := (abs_at hpc).1
    refine steps_one (Step.unset a c.page true e1) ?_
    rw [submitStep, hok.nowhere, ← abs_setOffset]
    exact abs_goto_same (s := s.setOffset c.page asyncPageTransPending) hpc rfl
  | find k =>
    by_cases hk : ∃ i, k = .unlockDone i
    · obtain ⟨i, rfl⟩ := hk
      exact assign_sim (submit_emb c x) hpc (fun _ => rfl) rfl
    · exact findStep_sim cfg .refCount (submit_emb c x) hpc _ (fun i h => hk ⟨i, h⟩)
  | storeOffset =>
    have e4 : (abs s).assigned a = some (c.page, x.pageTrans) := (abs_at hpc).2.2.2.1
    have e5 : (abs s).serving a = none := (abs_at hpc).2.2.2.2.1
    have e6 : (abs s).polling a = none := (abs_at hpc).2.2.2.2.2.1
    have e7 : (abs s).ref a = some ⟨c.page, c.count, .named x.pageTrans⟩ :=
      (abs_at hpc).2.2.2.2.2.2
    refine steps_one (Step.storeAssigned a c.page x.pageTrans e4) ?_
    refine (abs_goto_late (s := s.setOffset c.page x.pageTrans) (l := none) (v := none)
      (o := none) (r := some ⟨c.page, c.count, .named x.pageTrans⟩) hpc ?_ ?_).trans ?_
    · rfl
    · rfl
    · rw [abs_setOffset]
      simp only [update_eq_of e5, update_eq_of e6, update_eq_of e7]
  | chooseCtrl =>
    simp only [submitStep]
    split <;> exact stutter hpc rfl rfl rfl
  | getCid => exact stutter hpc rfl rfl rfl
  | lockCid cid =>
    simp only [submitStep]
    split <;> exact stutter hpc rfl rfl rfl
  | enqueue cid => exact stutter hpc (abs_sent _ _ _ _ _) rfl rfl
  | markDirty => exact stutter hpc (abs_or_DIRTY s c.page) rfl rfl
  | loadOffset => exact fix_sim hpc rfl rfl rfl
  | followOffset =>
    have e4 : (abs s).assigned a = none := (abs_at hpc).2.2.2.1
    have e7 : (abs s).ref a = some ⟨c.page, c.count, .joined⟩ := (abs_at hpc).2.2.2.2.2.2
    simp only [submitStep]
    split <;> rename_i hi
    · exact stutter hpc rfl rfl rfl
    · refine steps_one (Step.aim a c.page c.count (s.pages c.page).offset e7 e4 rfl
        (by rw [hok.nowhere]; exact hi)) ?_
      exact abs_goto_ref hpc rfl
  | followTrans i =>
    have e7 : (abs s).ref a = some ⟨c.page, c.count, .aimed i⟩ := (abs_at hpc).2.2.2.2.2.2
    simp only [submitStep]
    split <;> rename_i hi
    · refine steps_one (Step.unaim a c.page c.count i e7) ?_
      exact abs_goto_ref hpc rfl
    · have ht : (abs s).tenant i = some c.page := by
        show tenantOf (s.cachePages i).pageTranslation = some c.page
        rw [not_ne_iff.mp hi, tenantOf_getGlobalAddress cfg.maxRange_pow]
      refine steps_one (Step.check a c.page c.count i e7 ht) ?_
      exact abs_goto_ref hpc rfl
  | followCtrl =>
    simp only [submitStep]
    split <;> exact stutter hpc rfl rfl rfl
  | reload =>
    obtain ⟨hroles, href⟩ := submitDispatch_view c x (s.pages c.page).state
    cases hst : (s.pages c.page).state.st with
    | vNb =>
      rw [hst] at href
      exact pin_sim hpc (hroles.trans rfl) rfl ⟨rfl, rfl⟩ hst href
    | nvB =>
      rw [hst] at href
      exact join_sim hpc (hroles.trans rfl) rfl hst href (hok.exact.imp_right (·.1))
    | nvNb =>
      refine stutter hpc rfl rfl ?_
      rw [submitDispatch, hst]
      rfl
    | vB =>
      refine stutter hpc rfl rfl ?_
      rw [submitDispatch, hst]

/-! ## acquire_page_wait_async and acquire_page_try_wait_async -/

theorem view_loadState {R : Nat} (c : Call R) (x : Ctx) (blocking : Bool) :
    (Pc.wait c x blocking .loadState).view =
      (none, none, none, none, none, none, some ⟨c.page, c.count, ctxGrip x⟩) := rfl

/-- Going on with the state just read. -/
theorem waitDispatch_sim {k : Pc R} (blocking : Bool) (hpc : s.pc a = k)
    (hk : k.view = (none, none, none, none, none, none, some ⟨c.page, c.count, .named x.pageTrans⟩)) :
    Steps g (abs s) (abs (s.goto a (waitDispatch c x blocking (s.pages c.page).state))) := by
  have hret : (if blocking then Pc.wait c x blocking .reload
      else Pc.submitted c { x with isHit := false }).view = k.view := by
    rw [hk]
    split <;> rfl
  simp only [waitDispatch]
  split
  · rename_i hst
    simp only [Pc.view, Prod.mk.injEq] at hk
    obtain ⟨h1, h2, h3, h4, h5, h6, h7⟩ := hk
    exact pin_sim hpc (by rw [Pc.roles, Pc.roles, h1, h2, h3, h4, h5, h6]; rfl) h7 ⟨h4, h6⟩ hst
      rfl
  · exact stutter hpc rfl rfl (hk ▸ rfl)
  · exact stutter hpc rfl rfl hret
  · exact stutter hpc rfl rfl hret

theorem waitStep_sim {s' : St R A V} {blocking : Bool} {k : WaitPc}
    (hpc : s.pc a = .wait c x blocking k) (hok : Permits g s (.run a))
    (hs : waitStep s a c x blocking k = some s') : Steps g (abs s) (abs s') := by
  have e4 : (abs s).assigned a = none := (abs_at hpc).2.2.2.1
  have e5 : (abs s).serving a = none := (abs_at hpc).2.2.2.2.1
  cases k with
  | loadState =>
    simp only [waitStep] at hs
    split at hs <;> rename_i hx <;> obtain rfl := Option.some.inj hs
    · have hgrip : ctxGrip x = .fixed x.pageTrans := if_pos hx
      exact stutter hpc rfl rfl (by rw [view_loadState, hgrip]; rfl)
    · have hgrip : ctxGrip x = .named x.pageTrans := if_neg hx
      exact waitDispatch_sim blocking hpc (by rw [view_loadState, hgrip])
  | clearFlag w =>
    obtain rfl := Option.some.inj hs
    refine stutter hpc (abs_setPolling s c.page false) rfl ?_
    split <;> rfl
  | markDirty =>
    obtain rfl := Option.some.inj hs
    exact stutter hpc (abs_or_DIRTY s c.page) rfl rfl
  | loadOffset =>
    obtain rfl := Option.some.inj hs
    exact fix_sim hpc rfl rfl rfl
  | casPolling =>
    have e6 : (abs s).polling a = none := (abs_at hpc).2.2.2.2.2.1
    have e7 : (abs s).ref a = some ⟨c.page, c.count, .named x.pageTrans⟩ := (abs_at hpc).2.2.2.2.2.2
    simp only [waitStep] at hs
    split at hs <;> rename_i hf <;> obtain rfl := Option.some.inj hs
    · refine stutter hpc rfl rfl ?_
      split <;> rfl
    · have hw : winsPage s a = some (c.page, x.pageTrans) := by
        rw [winsPage, hpc]
        exact if_neg hf
      refine steps_one (Step.win a c.page x.pageTrans e6 (hok.win a _ _ rfl hw)) ?_
      refine (abs_goto_late (s := s.setPolling c.page true) (l := none) (v := none)
        (o := some ⟨c.page, x.pageTrans, .waits⟩) (r := some ⟨c.page, c.count, .named x.pageTrans⟩)
        hpc ?_ ?_).trans ?_
      · rfl
      · rfl
      · rw [abs_setPolling]
        simp only [update_eq_of e4, update_eq_of e5, update_eq_of e7]
  | poll =>
    have e6 : (abs s).polling a = some ⟨c.page, x.pageTrans, .waits⟩ := (abs_at hpc).2.2.2.2.2.1
    have e7 : (abs s).ref a = some ⟨c.page, c.count, .named x.pageTrans⟩ := (abs_at hpc).2.2.2.2.2.2
    simp only [waitStep] at hs
    split at hs
    · obtain rfl := Option.some.inj hs
      refine steps_one (Step.consume a c.page x.pageTrans e6) ?_
      refine (abs_goto_late (s := (s.setQp _ _ _).took _ _ _ _) (l := none) (v := none)
        (o := some ⟨c.page, x.pageTrans, .got⟩) (r := some ⟨c.page, c.count, .named x.pageTrans⟩)
        hpc ?_ ?_).trans ?_
      · rfl
      · rfl
      · rw [abs_took, abs_setQp]
        simp only [update_eq_of e4, update_eq_of e5, update_eq_of e7]
    · split at hs
      · cases hs
      obtain rfl := Option.some.inj hs
      refine steps_one (Step.lose a c.page x.pageTrans e6) ?_
      refine (abs_goto_late (s := s) (l := none) (v := none)
        (o := none) (r := some ⟨c.page, c.count, .named x.pageTrans⟩) hpc ?_ ?_).trans ?_
      · rfl
      · rfl
      · simp only [update_eq_of e4, update_eq_of e5, update_eq_of e7]
  | putCid =>
    obtain rfl := Option.some.inj hs
    exact stutter hpc rfl rfl rfl
  | storeOffset =>
    have e6 : (abs s).polling a = some ⟨c.page, x.pageTrans, .got⟩ := (abs_at hpc).2.2.2.2.2.1
    have e7 : (abs s).ref a = some ⟨c.page, c.count, .named x.pageTrans⟩ := (abs_at hpc).2.2.2.2.2.2
    obtain rfl := Option.some.inj hs
    refine steps_one (Step.storePolled a c.page x.pageTrans e6) ?_
    have hl : (Pc.wait c x blocking (if c.write then .setDirty else .publish)).view =
        (none, none, none, none, none, some ⟨c.page, x.pageTrans, .stored⟩,
          some ⟨c.page, c.count, .named x.pageTrans⟩) := by
      split <;> rfl
    simp only [Pc.view, Prod.mk.injEq] at hl
    obtain ⟨h1, h2, h3, hl⟩ := hl
    rw [abs_goto_late (s := s.setOffset c.page x.pageTrans) hpc (by rw [h1, h2, h3]; rfl)
      (by rw [Pc.late, hl.1, hl.2.1, hl.2.2.1, hl.2.2.2]), abs_setOffset]
    simp only [update_eq_of e4, update_eq_of e5, update_eq_of e7]
  | setDirty =>
    obtain rfl := Option.some.inj hs
    exact stutter hpc (abs_or_DIRTY s c.page) rfl rfl
  | publish =>
    have e6 : (abs s).polling a = some ⟨c.page, x.pageTrans, .stored⟩ :=
      (abs_at hpc).2.2.2.2.2.1
    have e7 : (abs s).ref a = some ⟨c.page, c.count, .named x.pageTrans⟩ := (abs_at hpc).2.2.2.2.2.2
    obtain rfl := Option.some.inj hs
    refine publish_sim (i := x.pageTrans) (Step.publishPolled a c.page x.pageTrans e6) e7
      ⟨e4, Function.update_self ..⟩ ?_ (Function.update_self ..) (Function.update_self ..) rfl ?_
    · refine (abs_goto_late (s := (s.setState _ _).published _) (l := none) (v := none)
        (o := none) (r := some ⟨c.page, c.count, .fixed x.pageTrans⟩) hpc ?_ ?_).trans ?_
      · rfl
      · rfl
      · rw [abs_published, abs_xor]
        simp only [update_eq_of e4, update_eq_of e5]
    · exact hok.exact.imp_right fun h =>
        ⟨(h.1.poll a _ e6).1, h.1, h.2.stored a _ e6 rfl⟩
  | releaseFlag =>
    obtain rfl := Option.some.inj hs
    exact stutter hpc (abs_setPolling s c.page false) rfl rfl
  | reload =>
    obtain rfl := Option.some.inj hs
    exact waitDispatch_sim blocking hpc rfl
  | dropFlag =>
    obtain rfl := Option.some.inj hs
    exact stutter hpc (abs_setPolling s c.page false) rfl rfl
  | recheck =>
    simp only [waitStep] at hs
    split at hs <;> rename_i hst <;> obtain rfl := Option.some.inj hs
    · exact pin_sim hpc rfl rfl ⟨rfl, rfl⟩ hst rfl
    · exact stutter hpc rfl rfl rfl

/-! ## release_page -/

theorem releaseStep_sim {i m : Nat} {marked : Bool} {hm : m ≤ c.count} {k : ReleasePc}
    (hpc : s.pc a = .release c i marked m hm k) (hok : Permits g s (.run a)) :
    Steps g (abs s) (abs (releaseStep s a c i marked m hm k)) := by
  cases k with
  | loadPrefetch =>
    refine stutter hpc rfl rfl ?_
    split <;> (try split) <;> rfl
  | storePrefetch => exact stutter hpc (abs_setPrefetchCount s c.page _) rfl rfl
  | subPrefetch => exact stutter hpc (abs_setPrefetchCount s c.page _) rfl rfl
  | loadWindow tc =>
    refine stutter hpc rfl rfl ?_
    split <;> (try split) <;> rfl
  | storeWindow => exact stutter hpc (abs_setPrefetchCounter s c.page _) rfl rfl
  | subWindow tc => exact stutter hpc (abs_setPrefetchCounter s c.page _) rfl rfl
  | subState tc =>
    have hsub := hok.sub a c.page (m + tc.toNat) rfl (by rw [subsCount, hpc])
    have e7 : (abs s).ref a = some ⟨c.page, c.count, .fixed i⟩ := (abs_at hpc).2.2.2.2.2.2
    have habs := abs_goto_ref
      (s := s.setState c.page ((s.pages c.page).state - BitVec.ofNat 32 (m + tc.toNat)))
      hpc (show (Pc.release c i marked m hm (.subRefCount tc)).roles = _ from rfl)
    rw [abs_sub s c.page hsub] at habs
    rw [releaseStep, habs]
    have hpad : Steps g (abs s) { abs s with
        cnt := update (abs s).cnt c.page ((abs s).cnt c.page - tc.toNat) } := by
      cases tc with
      | false => exact steps_of_eq (by rw [Bool.toNat_false, Nat.sub_zero, Function.update_eq_self])
      | true =>
        have hdrop : dropsPin s a = some c.page := by rw [dropsPin, hpc]
        exact .single (Step.unpad c.page 1 (hok.unpad a c.page rfl hdrop))
    refine hpad.trans ?_
    rw [show (Pc.release c i marked m hm (.subRefCount tc)).ref =
      if m < c.count then some ⟨c.page, c.count - m, .fixed i⟩ else none from rfl,
      Nat.add_comm m, Nat.sub_add_eq]
    set v := { abs s with
      cnt := update (abs s).cnt c.page ((abs s).cnt c.page - tc.toNat) } with hv
    have hcnt : v.cnt c.page = (abs s).cnt c.page - tc.toNat := Function.update_self ..
    have hupd : ∀ n, update (abs s).cnt c.page n = update v.cnt c.page n := by
      intro n
      simp only [hv, Function.update_idem]
    rw [hupd, ← hcnt]
    split
    · rename_i hlt
      refine steps_one (Step.shrinkRef (v := v) a c.page (c.count - m) m i (by omega) ?_) rfl
      rw [Nat.sub_add_cancel hm]
      exact e7
    · obtain rfl : m = c.count := by omega
      exact steps_one (Step.dropRef (v := v) a c.page c.count i e7) rfl
  | subRefCount tc =>
    refine stutter hpc (abs_setRefCount s c.page _) rfl ?_
    rw [released, show (Pc.release c i marked m hm (.subRefCount tc)).view =
      (none, none, none, none, none, none,
        if m < c.count then some ⟨c.page, c.count - m, .fixed i⟩ else none) from rfl]
    split <;> rfl

end Operations

/-! ## The machine -/

theorem runStep_sim (cfg : Config R) {s s' : St R A V} {a : A} (hs : runStep cfg s a = some s')
    (hok : Permits g s (.run a)) : Steps g (abs s) (abs s') := by
  rw [runStep] at hs
  split at hs <;> rename_i hpc
  · obtain rfl := Option.some.inj hs
    exact acquireStep_sim cfg hpc hok
  · obtain rfl := Option.some.inj hs
    exact submitStep_sim cfg hpc hok
  · exact waitStep_sim hpc hok hs
  · obtain rfl := Option.some.inj hs
    exact stutter hpc (abs_or_DIRTY s _) rfl rfl
  · obtain rfl := Option.some.inj hs
    exact releaseStep_sim hpc hok
  all_goals cases hs

theorem findSpurious_sim {s s' : St R A V} {a : A} {p : PageId R} {emb : FindPc R → Pc R}
    {t : Bool} {r : Option (Ref (PageId R) Nat)} {k : FindPc R} (he : FindEmb emb p t r)
    (hpc : s.pc a = emb k) (hs : findSpurious s a emb k = some s') :
    Steps g (abs s) (abs s') := by
  cases k with
  | casFree i =>
    obtain rfl := Option.some.inj hs
    exact steps_of_eq (abs_goto_find_same he hpc rfl rfl)
  | casUnlocked i =>
    obtain rfl := Option.some.inj hs
    exact steps_of_eq (abs_goto_find_same he hpc rfl rfl)
  | _ => cases hs

/-- The simulation: every permitted step of the machine is made of steps of the
    protocol. -/
theorem step_sim (cfg : Config R) {s s' : St R A V} {act : Act R A V}
    (hs : step cfg s act = some s') (hok : Permits g s act) : Steps g (abs s) (abs s') := by
  cases act with
  | acquire a c =>
    simp only [step] at hs
    split at hs
    · rename_i hpc
      obtain rfl := Option.some.inj hs
      exact stutter hpc rfl rfl rfl
    · cases hs
  | submit a c queue =>
    simp only [step] at hs
    split at hs
    · rename_i hpc
      obtain rfl := Option.some.inj hs
      exact stutter hpc rfl rfl rfl
    · cases hs
  | wait a blocking =>
    simp only [step] at hs
    split at hs
    · rename_i hpc
      obtain rfl := Option.some.inj hs
      exact stutter hpc rfl rfl rfl
    · cases hs
  | release a m =>
    simp only [step] at hs
    split at hs
    · rename_i hpc
      split at hs
      · obtain rfl := Option.some.inj hs
        exact stutter hpc rfl rfl rfl
      · cases hs
    · cases hs
  | run a => exact runStep_sim cfg hs hok
  | spurious a =>
    simp only [step] at hs
    split at hs
    · rename_i hpc
      exact findSpurious_sim (acquire_emb _) hpc hs
    · rename_i hpc
      exact findSpurious_sim (submit_emb _ _) hpc hs
    · cases hs
  | post ctrl queue n =>
    simp only [step, postStep] at hs
    split at hs
    · cases hs
    · obtain rfl := Option.some.inj hs
      exact steps_of_eq rfl
  | setPrefetch p w =>
    obtain rfl := Option.some.inj hs
    exact steps_of_eq (abs_setPrefetchCount s p w)
  | setWindow p w =>
    obtain rfl := Option.some.inj hs
    exact steps_of_eq (abs_setPrefetchCounter s p w)
  | write a e v =>
    simp only [step] at hs
    split at hs
    · obtain rfl := Option.some.inj hs
      exact steps_of_eq rfl
    · cases hs
  | clear =>
    obtain rfl := Option.some.inj hs
    obtain ⟨hp, ho⟩ := hok.clear rfl
    exact steps_one (Step.reset (fun _ => tenantOf 0) hp ho) rfl

end GidsStack.PageCache
