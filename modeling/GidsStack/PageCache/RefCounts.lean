/-
  GidsStack.PageCache.RefCounts

  The two counters of a page (page_cache.h).  CNT of `state` is raised by both acquires and
  lowered by `release_page`; `ref_count` is raised by `acquire_page_submit_async` alone and
  lowered by every `release_page`.  The two overloads of `find_slot` test one of them each.

  A run keeps the ledger of both: what `ref_count` lacks of CNT is what `acquire_page` has
  taken, whoever gave it back since.  So they agree in the runs in which nobody has called it,
  and one `acquire_page` with its release leaves `ref_count` below 0.
-/

import GidsStack.PageCache.WindowPins
import GidsStack.PageCache.Runs

namespace GidsStack.PageCache

open Function (update)
open Lib (Ledger Reachable Guarded runActs runOk reachable_of_runActs)
open Lib.PinCache (Ref)

variable {R : Nat} {A V : Type*}

/-! ## What a step does to the counters -/

/-- By how much the next step of an agent moves CNT and `ref_count` of its page; `pin` and
    `unpin` are the part of this that is a prefetch or window pin, and `sync` is what
    `acquire_page` adds to CNT only. -/
structure CountMove where
  raise : Nat := 0
  lower : Nat := 0
  raiseRef : Nat := 0
  lowerRef : Nat := 0
  pin : Nat := 0
  unpin : Nat := 0
  sync : Nat := 0

def countMove : Pc R → CountMove
  | .acquire c (.fetchAdd pin) =>
    { raise := c.count + pin.toNat
      pin := pin.toNat
      sync := c.count + pin.toNat }
  | .submit c _ (.fetchAdd pin) =>
    { raise := c.count + pin.toNat
      pin := pin.toNat }
  | .submit c _ (.addRefCount pin _) => { raiseRef := c.count + pin.toNat }
  | .release _ _ _ m _ (.subState tc) =>
    { lower := m + tc.toNat
      unpin := tc.toNat }
  | .release _ _ _ m _ (.subRefCount tc) => { lowerRef := m + tc.toNat }
  | _ => {}

/-- The references of an agent that CNT counts; those it has yet to add to `ref_count`, and
    those it has yet to take off. -/
def refLedger : Ledger (Pc R) (PageId R) where
  page := Pc.onPage
  held := pinLedger.held
  owed
    | .submit c _ (.addRefCount pin _) => c.count + pin.toNat
    | _ => 0
  left
    | .release _ _ _ m _ (.subRefCount tc) => m + tc.toNat
    | _ => 0

/-- What an amount of the next step comes to on page `p`. -/
def moveOn (f : CountMove → Nat) (p : PageId R) (k : Pc R) : Nat :=
  if k.onPage = some p then f (countMove k) else 0

/-- A page and the agent before and after a step of the agent. -/
structure Counts (p : PageId R) (d : DataPage) (k : Pc R) (d' : DataPage) (k' : Pc R) : Prop where
  cnt : d'.state.cnt + moveOn CountMove.lower p k = d.state.cnt + moveOn CountMove.raise p k
  refCount : d'.refCount = d.refCount + BitVec.ofNat 32 (moveOn CountMove.raiseRef p k) -
    BitVec.ofNat 32 (moveOn CountMove.lowerRef p k)
  held : refLedger.on refLedger.held p k' + moveOn CountMove.lower p k +
      moveOn CountMove.pin p k =
    refLedger.on refLedger.held p k + moveOn CountMove.raise p k + moveOn CountMove.unpin p k
  owed : refLedger.on refLedger.owed p k' + moveOn CountMove.raiseRef p k +
      moveOn CountMove.sync p k =
    refLedger.on refLedger.owed p k + moveOn CountMove.raise p k
  left : refLedger.on refLedger.left p k' + moveOn CountMove.lowerRef p k =
    refLedger.on refLedger.left p k + moveOn CountMove.lower p k

/-- An agent of a call has `n` references counted and owes nothing. -/
structure Stands (c : Call R) (n : Nat) (k : Pc R) : Prop where
  page : k.onPage = some c.page
  held : refLedger.held k = n
  owed : refLedger.owed k = 0
  left : refLedger.left k = 0

theorem Stands.on (f : Pc R → Nat) {c : Call R} {n : Nat} {k : Pc R} (h : Stands c n k)
    (p : PageId R) : refLedger.on f p k = if c.page = p then f k else 0 := by
  rw [Ledger.on, show refLedger.page k = k.onPage from rfl, h.page]
  simp only [Option.some.injEq]

/-- A step that moves no counter and leaves the agent its references. -/
theorem Counts.quiet {p : PageId R} {d d' : DataPage} {c : Call R} {n : Nat} {k k' : Pc R}
    (h : Stands c n k) (h' : Stands c n k') (hmove : countMove k = {})
    (hcnt : d'.state.cnt = d.state.cnt) (href : d'.refCount = d.refCount) :
    Counts p d k d' k' := by
  have hzero : ∀ f : CountMove → Nat, f {} = 0 → moveOn f p k = 0 := by
    intro f hf
    rw [moveOn, hmove, hf, ite_self]
  constructor
  · rw [hzero _ rfl, hzero _ rfl, hcnt]
  · rw [hzero _ rfl, hzero _ rfl, href]
    simp
  · rw [hzero _ rfl, hzero _ rfl, hzero _ rfl, hzero _ rfl, h.on, h'.on, h.held, h'.held]
  · rw [hzero _ rfl, hzero _ rfl, hzero _ rfl, h.on, h'.on, h.owed, h'.owed]
  · rw [hzero _ rfl, hzero _ rfl, h.on, h'.on, h.left, h'.left]

/-! ## Steps that move no counter -/

/-- The two counters. -/
def DataPage.counts (d : DataPage) : Nat × Word := (d.state.cnt, d.refCount)

/-- A call whose count has been raised in both counters. -/
def SubmitPc.Raised : SubmitPc R → Prop
  | .prologue _ | .fetchAdd _ | .addRefCount _ _ => False
  | _ => True

theorem submitRaised_dispatch (c : Call R) (w : Word) : (submitDispatch c w).Raised := by
  rw [submitDispatch]
  cases w.st with
  | vNb =>
    show (if c.write && !w.isDirty then SubmitPc.markDirty else .loadOffset).Raised
    split <;> trivial
  | _ => trivial

theorem stands_submit (c : Call R) (x : Ctx) {k : SubmitPc R} (hk : k.Raised) :
    Stands c c.count (.submit c x k) := by
  cases k with
  | prologue k => exact hk.elim
  | fetchAdd pin => exact hk.elim
  | addRefCount pin w => exact hk.elim
  | _ => exact ⟨rfl, rfl, rfl, rfl⟩

theorem stands_submitted (c : Call R) (x : Ctx) : Stands c c.count (.submitted c x) :=
  ⟨rfl, rfl, rfl, rfl⟩

theorem stands_wait (c : Call R) (x : Ctx) (blocking : Bool) (k : WaitPc) :
    Stands c c.count (.wait c x blocking k) := ⟨rfl, rfl, rfl, rfl⟩

theorem Holds.stands {c : Call R} {k : Pc R} (h : Holds c k) : Stands c c.count k := by
  refine ⟨h.onPage, h.held, ?_, ?_⟩ <;>
    obtain ⟨k', rfl, -⟩ | ⟨i, rfl⟩ | ⟨i, marked, rfl⟩ := h <;> rfl

/-- Before the count is raised an agent has no reference. -/
theorem stands_acquiring (c : Call R) {k : AcquirePc R} (hk : ¬ k.Raised) :
    Stands c 0 (.acquire c k) := by
  cases k with
  | prologue k => exact ⟨rfl, rfl, rfl, rfl⟩
  | fetchAdd pin => exact ⟨rfl, rfl, rfl, rfl⟩
  | _ => exact absurd trivial hk

theorem stands_prologue (c : Call R) (x : Ctx) (k : ProloguePc) :
    Stands c 0 (.submit c x (.prologue k)) := ⟨rfl, rfl, rfl, rfl⟩

theorem stands_fetchAdd (c : Call R) (x : Ctx) (pin : Bool) :
    Stands c 0 (.submit c x (.fetchAdd pin)) := ⟨rfl, rfl, rfl, rfl⟩

theorem countMove_acquire (c : Call R) {k : AcquirePc R} (hk : k.Raised) :
    countMove (.acquire c k) = {} := by
  cases k <;> first | rfl | exact hk.elim

theorem countMove_submit (c : Call R) (x : Ctx) {k : SubmitPc R} (hk : k.Raised) :
    countMove (.submit c x k) = {} := by
  cases k <;> first | rfl | exact hk.elim

section Quiet

variable [NeZero R] [DecidableEq A] (cfg : Config R) (s : St R A V) (a : A) (c : Call R)

theorem setState_counts {R : Nat} {A V : Type*} (s : St R A V)
    (p q : PageId R) {w : Word} (h : w.cnt = (s.pages p).state.cnt) :
    ((s.setState p w).pages q).counts = (s.pages q).counts :=
  setPage_keeps s DataPage.counts p q (Prod.ext h rfl)

theorem findStep_counts (ver : FindVersion) (p q : PageId R) (emb : FindPc R → Pc R)
    (ret : Nat → Pc R) (k : FindPc R) :
    ((findStep cfg ver s a p emb ret k).pages q).counts = (s.pages q).counts :=
  Prod.ext (findStep_cnt cfg s a ver p q emb ret k)
    (congrArg (·.1) (findStep_side cfg s a q ver p emb ret k))

theorem prologueStep_counts {R : Nat} {A V : Type*} [DecidableEq A] (s : St R A V) (a : A)
    (p q : PageId R) (emb : ProloguePc → Pc R) (ret : Bool → Pc R)
    (k : ProloguePc) :
    ((prologueStep s a p emb ret k).pages q).counts = (s.pages q).counts := by
  cases k <;> simp only [prologueStep] <;> (repeat' split) <;>
    first
      | rfl
      | exact setPage_keeps s DataPage.counts p q rfl

theorem acquireStep_counts (q : PageId R) {k : AcquirePc R} (hk : k.Raised) :
    ((acquireStep cfg s a c k).pages q).counts = (s.pages q).counts := by
  have hpro : ∀ k', k ≠ .prologue k' := by
    rintro k' rfl
    exact hk
  have hadd : ∀ pin, k ≠ .fetchAdd pin := by
    rintro pin rfl
    exact hk
  exact Prod.ext (acquireStep_cnt cfg s a c q hpro hadd)
    (congrArg (·.1) (acquireStep_side cfg s a c q hpro))

theorem submitStep_counts (x : Ctx) (q : PageId R) {k : SubmitPc R} (hk : k.Raised) :
    ((submitStep cfg s a c x k).pages q).counts = (s.pages q).counts := by
  cases k with
  | prologue k => exact hk.elim
  | fetchAdd pin => exact hk.elim
  | addRefCount pin w => exact hk.elim
  | find k => exact findStep_counts ..
  | setBusy =>
    simp only [submitStep]
    split <;> exact setState_counts s _ q (Word.cnt_or_BUSY _)
  | markDirty => exact setState_counts s _ q (Word.cnt_or_DIRTY _)
  | clearPolling => exact setPage_keeps s DataPage.counts _ q rfl
  | storePending => exact setPage_keeps s DataPage.counts _ q rfl
  | storeOffset => exact setPage_keeps s DataPage.counts _ q rfl
  | _ =>
    simp only [submitStep]
    (repeat' split) <;> rfl

theorem waitStep_counts {R : Nat} {A V : Type*} [DecidableEq A] (s : St R A V) (a : A) (c : Call R)
    {t : St R A V} {x : Ctx} {blocking : Bool} {k : WaitPc}
    (hs : waitStep s a c x blocking k = some t) (q : PageId R) :
    (t.pages q).counts = (s.pages q).counts := by
  cases k with
  | markDirty =>
    cases hs
    exact setState_counts s _ q (Word.cnt_or_DIRTY _)
  | setDirty =>
    cases hs
    exact setState_counts s _ q (Word.cnt_or_DIRTY _)
  | publish =>
    cases hs
    exact setState_counts s _ q (Word.cnt_xor _)
  | storeOffset =>
    cases hs
    exact setPage_keeps s DataPage.counts _ q rfl
  | clearFlag w =>
    cases hs
    exact setPage_keeps s DataPage.counts _ q rfl
  | releaseFlag =>
    cases hs
    exact setPage_keeps s DataPage.counts _ q rfl
  | dropFlag =>
    cases hs
    exact setPage_keeps s DataPage.counts _ q rfl
  | casPolling =>
    simp only [waitStep] at hs
    split at hs <;> cases hs
    · rfl
    · exact setPage_keeps s DataPage.counts _ q rfl
  | _ =>
    simp only [waitStep] at hs
    (repeat' split at hs) <;> cases hs <;> rfl

theorem stands_findStep (ver : FindVersion) {emb : FindPc R → Pc R} {ret : Nat → Pc R}
    (hemb : ∀ k, Stands c c.count (emb k)) (hret : ∀ i, Stands c c.count (ret i))
    (k : FindPc R) : Stands c c.count ((findStep cfg ver s a c.page emb ret k).pc a) := by
  cases k <;> simp only [findStep, findTest] <;> (repeat' split) <;>
    rw [goto_pc_self] <;>
    first
      | exact hemb _
      | exact hret _

theorem stands_submitStep (x : Ctx) {k : SubmitPc R} (hk : k.Raised) :
    Stands c c.count ((submitStep cfg s a c x k).pc a) := by
  cases k with
  | prologue k => exact hk.elim
  | fetchAdd pin => exact hk.elim
  | addRefCount pin w => exact hk.elim
  | find k =>
    exact stands_findStep cfg s a c .refCount (fun k => stands_submit c x (k := .find k) trivial)
      (fun i => stands_submit c _ (k := .storeOffset) trivial) k
  | reload =>
    rw [submitStep, goto_pc_self]
    exact stands_submit c x (submitRaised_dispatch c _)
  | _ =>
    simp only [submitStep]
    (repeat' split) <;> rw [goto_pc_self] <;>
      first
        | exact stands_submitted c _
        | exact stands_submit c _ trivial

theorem stands_waitStep {R : Nat} {A V : Type*} [DecidableEq A] (s : St R A V) (a : A) (c : Call R)
    {t : St R A V} {x : Ctx} {blocking : Bool} {k : WaitPc}
    (hs : waitStep s a c x blocking k = some t) : Stands c c.count (t.pc a) := by
  have hdispatch : ∀ w, Stands c c.count (waitDispatch c x blocking w) := by
    intro w
    rw [waitDispatch]
    (repeat' split) <;> exact ⟨rfl, rfl, rfl, rfl⟩
  cases k <;> simp only [waitStep] at hs <;> (repeat' split at hs) <;> cases hs <;>
    rw [goto_pc_self] <;>
    first
      | exact hdispatch _
      | exact ⟨rfl, rfl, rfl, rfl⟩

end Quiet

/-! ## Every step keeps the ledger -/

theorem moveOn_page (f : CountMove → Nat) (p : PageId R) {k : Pc R} {q : PageId R}
    (h : k.onPage = some q) : moveOn f p k = if q = p then f (countMove k) else 0 := by
  rw [moveOn, h]
  simp only [Option.some.injEq]

/-- An amount of an agent that is on page `p` or nowhere. -/
theorem refLedger_on (f : Pc R → Nat) {p q : PageId R} {k : Pc R} (h : k.onPage = some q) :
    refLedger.on f p k = if q = p then f k else 0 := by
  rw [Ledger.on, show refLedger.page k = k.onPage from rfl, h]
  simp only [Option.some.injEq]

/-- What an agent does to the page of its call is nothing to the others. -/
theorem Counts.elsewhere {p q : PageId R} {d d' : DataPage} {k k' : Pc R}
    (hk : k.onPage = some q) (hq : q ≠ p)
    (hk' : ∀ f : Pc R → Nat, refLedger.on f p k' = 0) (h : d'.counts = d.counts) :
    Counts p d k d' k' := by
  have hmove : ∀ f : CountMove → Nat, moveOn f p k = 0 := fun f => by
    rw [moveOn_page f p hk, if_neg hq]
  have hon : ∀ f : Pc R → Nat, refLedger.on f p k = 0 := fun f => by
    rw [refLedger_on f hk, if_neg hq]
  constructor
  · rw [hmove, hmove]
    exact congrArg (·.1) h
  · rw [hmove, hmove, show d'.refCount = d.refCount from congrArg (·.2) h]
    simp
  · rw [hmove, hmove, hmove, hmove, hon, hk']
  · rw [hmove, hmove, hmove, hon, hk']
  · rw [hmove, hmove, hon, hk']

theorem refLedger_elsewhere {p q : PageId R} {k : Pc R} (hk : k.onPage = some q) (hq : q ≠ p)
    (f : Pc R → Nat) : refLedger.on f p k = 0 := by
  rw [refLedger_on f hk, if_neg hq]

section Steps

variable [NeZero R] [DecidableEq A] {cfg : Config R} {s t : St R A V} {a : A}

theorem setState_refCount {R : Nat} {A V : Type*} {s : St R A V} (p q : PageId R) (w : Word) :
    ((s.setState p w).pages q).refCount = (s.pages q).refCount :=
  congrArg (·.1) (setState_side s p q w)

/-- The count of the page of a call is raised, and the agent stands at `k'`. -/
theorem counts_fetchAdd {R : Nat} {A V : Type*} {s : St R A V}
    {c : Call R} {k k' : Pc R} {pin : Bool} {n : Nat} {p : PageId R}
    (hk : Stands c 0 k) (hk' : k'.onPage = some c.page)
    (hraise : countMove k =
      { raise := c.count + pin.toNat, pin := pin.toNat, sync := n })
    (hheld : refLedger.held k' = c.count) (howed : refLedger.owed k' + n = c.count + pin.toNat)
    (hleft : refLedger.left k' = 0)
    (hfit : (s.pages c.page).state.cnt + (c.count + pin.toNat) < Word.cntLimit) :
    Counts p (s.pages p) k
      ((s.setState c.page
        ((s.pages c.page).state + BitVec.ofNat 32 (c.count + pin.toNat))).pages p) k' := by
  by_cases hp : c.page = p
  · subst hp
    have hmove : ∀ f : CountMove → Nat, moveOn f c.page k = f (countMove k) := fun f => by
      rw [moveOn_page f _ hk.page, if_pos rfl]
    have hon : ∀ f : Pc R → Nat, refLedger.on f c.page k = f k := fun f => by
      rw [refLedger_on f hk.page, if_pos rfl]
    have hon' : ∀ f : Pc R → Nat, refLedger.on f c.page k' = f k' := fun f => by
      rw [refLedger_on f hk', if_pos rfl]
    constructor
    · rw [hmove, hmove, hraise, setState_state, if_pos rfl, Word.cnt_add hfit]
      rfl
    · rw [hmove, hmove, hraise, setState_refCount]
      simp
    · rw [hmove, hmove, hmove, hmove, hon, hon', hraise, hk.held, hheld]
      show c.count + 0 + pin.toNat = 0 + (c.count + pin.toNat) + 0
      omega
    · rw [hmove, hmove, hmove, hon, hon', hraise, hk.owed]
      show refLedger.owed k' + 0 + n = 0 + (c.count + pin.toNat)
      omega
    · rw [hmove, hmove, hon, hon', hraise, hk.left, hleft]
  · refine .elsewhere hk.page hp (refLedger_elsewhere hk' hp) ?_
    exact congrArg DataPage.counts (Function.update_of_ne (Ne.symm hp) ..)

theorem setRefCount_refCount {R : Nat} {A V : Type*} {s : St R A V} (p : PageId R) (w : Word) :
    ((s.setRefCount p w).pages p).refCount = w := by
  rw [St.setRefCount, setPage_apply, if_pos rfl]

theorem counts_addRefCount {R : Nat} {A V : Type*} {s : St R A V}
    {c : Call R} {x : Ctx} {pin : Bool} {w : Word} {k' : Pc R}
    (hk' : Stands c c.count k') (p : PageId R) :
    Counts p (s.pages p) (.submit c x (.addRefCount pin w))
      ((s.setRefCount c.page
        ((s.pages c.page).refCount + BitVec.ofNat 32 (c.count + pin.toNat))).pages p) k' := by
  by_cases hp : c.page = p
  · subst hp
    constructor
    · rw [setRefCount_state, moveOn_page _ _ rfl, moveOn_page _ _ rfl]
      rfl
    · rw [setRefCount_refCount, moveOn_page _ _ rfl, moveOn_page _ _ rfl, if_pos rfl, if_pos rfl]
      show _ = _ + BitVec.ofNat 32 (c.count + pin.toNat) - BitVec.ofNat 32 0
      simp
    · rw [moveOn_page _ _ rfl, moveOn_page _ _ rfl, moveOn_page _ _ rfl, moveOn_page _ _ rfl,
        hk'.on, refLedger_on _ rfl, hk'.held]
      rfl
    · rw [moveOn_page _ _ rfl, moveOn_page _ _ rfl, moveOn_page _ _ rfl, hk'.on,
        refLedger_on _ rfl, hk'.owed]
      simp only [if_true]
      show 0 + (c.count + pin.toNat) + 0 = c.count + pin.toNat + 0
      omega
    · rw [moveOn_page _ _ rfl, moveOn_page _ _ rfl, hk'.on, refLedger_on _ rfl, hk'.left]
      rfl
  · refine .elsewhere (q := c.page) rfl hp (refLedger_elsewhere hk'.page hp) ?_
    exact congrArg DataPage.counts (Function.update_of_ne (Ne.symm hp) ..)

theorem counts_subState {R : Nat} {A V : Type*} {s : St R A V}
    {c : Call R} {i m : Nat} {marked : Bool} {hm : m ≤ c.count} {tc : Bool}
    (hsub : m + tc.toNat ≤ (s.pages c.page).state.cnt) (p : PageId R) :
    Counts p (s.pages p) (.release c i marked m hm (.subState tc))
      ((s.setState c.page
        ((s.pages c.page).state - BitVec.ofNat 32 (m + tc.toNat))).pages p)
      (.release c i marked m hm (.subRefCount tc)) := by
  by_cases hp : c.page = p
  · subst hp
    constructor
    · rw [moveOn_page _ _ rfl, moveOn_page _ _ rfl, if_pos rfl, if_pos rfl, setState_state,
        if_pos rfl, Word.cnt_sub hsub]
      exact Nat.sub_add_cancel hsub
    · rw [setState_refCount, moveOn_page _ _ rfl, moveOn_page _ _ rfl, if_pos rfl, if_pos rfl]
      show _ = _ + BitVec.ofNat 32 0 - BitVec.ofNat 32 0
      simp
    · rw [moveOn_page _ _ rfl, moveOn_page _ _ rfl, moveOn_page _ _ rfl, moveOn_page _ _ rfl,
        refLedger_on _ rfl, refLedger_on _ rfl,
        show refLedger.held (.release c i marked m hm (.subRefCount tc)) = c.count - m from
          held_subRefCount c i m marked hm tc]
      simp only [if_true]
      show c.count - m + (m + tc.toNat) + 0 = c.count + 0 + tc.toNat
      omega
    · rw [moveOn_page _ _ rfl, moveOn_page _ _ rfl, moveOn_page _ _ rfl, refLedger_on _ rfl,
        refLedger_on _ rfl]
      simp only [if_true]
      rfl
    · rw [moveOn_page _ _ rfl, moveOn_page _ _ rfl, refLedger_on _ rfl, refLedger_on _ rfl]
      simp only [if_true]
      show m + tc.toNat + 0 = 0 + (m + tc.toNat)
      omega
  · refine .elsewhere (q := c.page) rfl hp (refLedger_elsewhere (q := c.page) rfl hp) ?_
    exact congrArg DataPage.counts (Function.update_of_ne (Ne.symm hp) ..)

theorem counts_subRefCount {R : Nat} {A V : Type*} {s : St R A V}
    {c : Call R} {i m : Nat} {marked : Bool} {hm : m ≤ c.count} {tc : Bool}
    (p : PageId R) :
    Counts p (s.pages p) (.release c i marked m hm (.subRefCount tc))
      ((s.setRefCount c.page
        ((s.pages c.page).refCount - BitVec.ofNat 32 (m + tc.toNat))).pages p)
      (released c i marked m) := by
  have hheld : ∀ q, refLedger.on refLedger.held q (released c i marked m) =
      if c.page = q then c.count - m else 0 := held_released c i m marked
  have hrest : ∀ f : Pc R → Nat, (∀ k : Pc R, (∃ d j b, k = .holding d j b) ∨ k = .idle → f k = 0) →
      ∀ q, refLedger.on f q (released c i marked m) = 0 := by
    intro f hf q
    have hzero : f (released c i marked m) = 0 := by
      rw [released]
      split
      · exact hf _ (.inl ⟨_, _, _, rfl⟩)
      · exact hf _ (.inr rfl)
    rw [Ledger.on, hzero, ite_self]
  have howed := hrest refLedger.owed (by rintro k (⟨d, j, b, rfl⟩ | rfl) <;> rfl)
  have hleft := hrest refLedger.left (by rintro k (⟨d, j, b, rfl⟩ | rfl) <;> rfl)
  by_cases hp : c.page = p
  · subst hp
    constructor
    · rw [setRefCount_state, moveOn_page _ _ rfl, moveOn_page _ _ rfl]
      rfl
    · rw [setRefCount_refCount, moveOn_page _ _ rfl, moveOn_page _ _ rfl, if_pos rfl, if_pos rfl]
      show _ = _ + BitVec.ofNat 32 0 - BitVec.ofNat 32 (m + tc.toNat)
      simp
    · rw [moveOn_page _ _ rfl, moveOn_page _ _ rfl, moveOn_page _ _ rfl, moveOn_page _ _ rfl,
        hheld, refLedger_on _ rfl,
        show refLedger.held (.release c i marked m hm (.subRefCount tc)) = c.count - m from
          held_subRefCount c i m marked hm tc]
      rfl
    · rw [moveOn_page _ _ rfl, moveOn_page _ _ rfl, moveOn_page _ _ rfl, howed,
        refLedger_on _ rfl]
      simp only [if_true]
      rfl
    · rw [moveOn_page _ _ rfl, moveOn_page _ _ rfl, hleft, refLedger_on _ rfl]
      simp only [if_true]
      show 0 + (m + tc.toNat) = m + tc.toNat + 0
      omega
  · constructor
    · rw [setRefCount_state, moveOn_page _ _ rfl, moveOn_page _ _ rfl, if_neg hp, if_neg hp]
    · rw [show ((s.setRefCount c.page _).pages p) = s.pages p from
        Function.update_of_ne (Ne.symm hp) .., moveOn_page _ _ rfl, moveOn_page _ _ rfl,
        if_neg hp, if_neg hp]
      simp
    · rw [moveOn_page _ _ rfl, moveOn_page _ _ rfl, moveOn_page _ _ rfl, moveOn_page _ _ rfl,
        hheld, refLedger_on _ rfl]
      simp only [if_neg hp]
    · rw [moveOn_page _ _ rfl, moveOn_page _ _ rfl, moveOn_page _ _ rfl, howed,
        refLedger_on _ rfl]
      simp only [if_neg hp]
    · rw [moveOn_page _ _ rfl, moveOn_page _ _ rfl, hleft, refLedger_on _ rfl]
      simp only [if_neg hp]

/-- What the next step of an agent does to the counters, when the count has room to be raised
    and is there to be lowered. -/
theorem runStep_counts (hs : runStep cfg s a = some t)
    (hadd : ∀ d ∈ addsCount s a, (s.pages d.1).state.cnt + d.2 < Word.cntLimit)
    (hsub : ∀ d ∈ subsCount s a, d.2 ≤ (s.pages d.1).state.cnt) (p : PageId R) :
    Counts p (s.pages p) (s.pc a) (t.pages p) (t.pc a) := by
  have hquiet : ∀ {c : Call R} {n : Nat} {k : Pc R}, Stands c n k → Stands c n (t.pc a) →
      countMove k = {} → (t.pages p).counts = (s.pages p).counts →
        Counts p (s.pages p) k (t.pages p) (t.pc a) := fun h h' hmove hc =>
    .quiet h h' hmove (congrArg (·.1) hc) (congrArg (·.2) hc)
  rw [runStep] at hs
  split at hs
  · rename_i c k hpc
    cases hs
    rw [hpc]
    by_cases hk : k.Raised
    · exact hquiet (Holds.stands (.inl ⟨k, rfl, hk⟩)) (acquireStep_holds cfg s a c hk).stands
        (countMove_acquire c hk) (acquireStep_counts cfg s a c p hk)
    · cases k with
      | prologue k =>
        refine hquiet (stands_acquiring c id) ?_ rfl (prologueStep_counts s a c.page p _ _ k)
        rcases prologueStep_pc s a c.page (fun k => .acquire c (.prologue k))
          (fun pin => .acquire c (.fetchAdd pin)) k with ⟨k', hk'⟩ | ⟨pin, hk'⟩
        · rw [show (acquireStep cfg s a c (.prologue k)).pc a = _ from hk']
          exact stands_acquiring c id
        · rw [show (acquireStep cfg s a c (.prologue k)).pc a = _ from hk']
          exact stands_acquiring c id
      | fetchAdd pin =>
        -- `acquire_page` adds to CNT only
        have hfit := hadd (c.page, c.count + pin.toNat) (by rw [addsCount, hpc]; rfl)
        have hd := Holds.stands (c := c) (.inl ⟨_, rfl, raised_dispatch c (s.pages c.page).state⟩)
        rw [acquireStep, goto_pc_self]
        refine counts_fetchAdd (stands_acquiring c id) hd.page rfl hd.held ?_ hd.left hfit
        rw [hd.owed, Nat.zero_add]
      | _ => exact absurd trivial hk
  · rename_i c x k hpc
    cases hs
    rw [hpc]
    by_cases hk : k.Raised
    · exact hquiet (stands_submit c x hk) (stands_submitStep cfg s a c x hk)
        (countMove_submit c x hk) (submitStep_counts cfg s a c x p hk)
    · cases k with
      | prologue k =>
        refine hquiet (stands_prologue c x k) ?_ rfl (prologueStep_counts s a c.page p _ _ k)
        rcases prologueStep_pc s a c.page (fun k => .submit c x (.prologue k))
          (fun pin => .submit c x (.fetchAdd pin)) k with ⟨k', hk'⟩ | ⟨pin, hk'⟩
        · rw [show (submitStep cfg s a c x (.prologue k)).pc a = _ from hk']
          exact stands_prologue c x k'
        · rw [show (submitStep cfg s a c x (.prologue k)).pc a = _ from hk']
          exact stands_fetchAdd c x pin
      | fetchAdd pin =>
        -- a submit adds to `ref_count` in the step after this one
        have hfit := hadd (c.page, c.count + pin.toNat) (by rw [addsCount, hpc]; rfl)
        rw [submitStep, goto_pc_self]
        exact counts_fetchAdd (stands_fetchAdd c x pin) rfl rfl rfl rfl rfl hfit
      | addRefCount pin w =>
        rw [submitStep, goto_pc_self]
        exact counts_addRefCount (stands_submit c x (submitRaised_dispatch c w)) p
      | _ => exact absurd trivial hk
  · rename_i c x blocking k hpc
    rw [hpc]
    exact hquiet (stands_wait c x blocking k) (stands_waitStep s a c hs) rfl
      (waitStep_counts s a c hs p)
  · rename_i c i hpc
    cases hs
    rw [hpc]
    refine hquiet (Holds.stands (.inr (.inl ⟨i, rfl⟩))) ?_ rfl
      (setState_counts s _ p (Word.cnt_or_DIRTY _))
    rw [goto_pc_self]
    exact Holds.stands (.inr (.inr ⟨i, true, rfl⟩))
  · rename_i c i marked m hm k hpc
    cases hs
    rw [hpc]
    have hstands : ∀ k : ReleasePc, (∀ tc, k ≠ .subRefCount tc) →
        Stands c c.count (.release c i marked m hm k) := by
      intro k hk
      cases k with
      | subRefCount tc => exact absurd rfl (hk tc)
      | _ => exact ⟨rfl, rfl, rfl, rfl⟩
    cases k with
    | subState tc =>
      have hn := hsub (c.page, m + tc.toNat) (by rw [subsCount, hpc]; rfl)
      rw [releaseStep, goto_pc_self]
      exact counts_subState hn p
    | subRefCount tc =>
      rw [releaseStep, goto_pc_self]
      exact counts_subRefCount p
    | loadPrefetch =>
      refine hquiet (hstands _ (by intro tc; exact ReleasePc.noConfusion)) ?_ rfl rfl
      rw [releaseStep, goto_pc_self]
      exact hstands _ (by (repeat' split) <;> intro tc <;> exact ReleasePc.noConfusion)
    | loadWindow tc =>
      refine hquiet (hstands _ (by intro tc; exact ReleasePc.noConfusion)) ?_ rfl rfl
      rw [releaseStep, goto_pc_self]
      exact hstands _ (by (repeat' split) <;> intro tc <;> exact ReleasePc.noConfusion)
    | _ =>
      refine hquiet (hstands _ (by intro tc; exact ReleasePc.noConfusion)) ?_ rfl
        (setPage_keeps s DataPage.counts c.page p rfl)
      rw [releaseStep, goto_pc_self]
      exact hstands _ (by intro tc; exact ReleasePc.noConfusion)
  all_goals cases hs

end Steps

/-! ## Runs

    A state of the cache with what no code records of each page: the pins that are counted,
    and what `acquire_page` has added to CNT since the cache was made. -/

structure CountSt (R : Nat) (A V : Type*) where
  cache : St R A V
  pins : PageId R → Nat
  sync : PageId R → Nat

/-- What an action is to move of page `p`. -/
def Act.moves (s : St R A V) (f : CountMove → Nat) (p : PageId R) : Act R A V → Nat
  | .run a => moveOn f p (s.pc a)
  | _ => 0

/-- The page on whose counters an agent has made one of its two changes. -/
def midUpdate : Pc R → Option (PageId R)
  | .submit c _ (.addRefCount _ _) | .release c _ _ _ _ (.subRefCount _) => some c.page
  | _ => none

/-- The step is the `fetch_add` of `acquire_page`. -/
def Act.addsSync (s : St R A V) : Act R A V → Bool
  | .run a =>
    match s.pc a with
    | .acquire _ (.fetchAdd _) => true
    | _ => false
  | _ => false

theorem moves_sync {s : St R A V} {act : Act R A V} (h : act.addsSync s = false) (p : PageId R) :
    act.moves s CountMove.sync p = 0 := by
  cases act with
  | run a =>
    show moveOn CountMove.sync p (s.pc a) = 0
    rw [Act.addsSync] at h
    cases hpc : s.pc a with
    | acquire c k =>
      cases k with
      | fetchAdd pin =>
        rw [hpc] at h
        cases h
      | _ => exact ite_self _
    | submit c x k => cases k <;> exact ite_self _
    | release c i marked m hm k => cases k <;> exact ite_self _
    | _ => exact ite_self _
  | _ => rfl

/-- `find_slot` goes past its test of the page's count. -/
def FindVersion.Passes (s : St R A V) (p : PageId R) : FindVersion → Prop
  | .state => (s.pages p).state.cnt = 0 ∧ (s.pages p).state.isBusy = false
  | .refCount => (s.pages p).refCount.toNat = 0 ∧ (s.pages p).refCount.isBusy = false

namespace CountSt

variable [NeZero R] [DecidableEq A]

def step (cfg : Config R) (s : CountSt R A V) (act : Act R A V) : Option (CountSt R A V) :=
  (PageCache.step cfg s.cache act).map fun t =>
    { cache := t
      pins := fun p => s.pins p + act.moves s.cache CountMove.pin p -
        act.moves s.cache CountMove.unpin p
      sync := fun p => s.sync p + act.moves s.cache CountMove.sync p }

/-- A new cache whose pages have the `ref_count` that their memory had. -/
structure Init (first : PageId R → Word) (s : CountSt R A V) : Prop where
  cache : PageCache.Init s.cache
  refCount : ∀ p, (s.cache.pages p).refCount = first p
  pins : ∀ p, s.pins p = 0
  sync : ∀ p, s.sync p = 0

/-- Counts fit in CNT, and a pin is dropped only where the count stands for one. -/
structure Fits [Fintype A] (s : CountSt R A V) (act : Act R A V) : Prop where
  adds : AddsFit s.cache act
  pins : PinsCounted s.cache act

instance [Fintype A] (s : CountSt R A V) (act : Act R A V) : Decidable (Fits s act) :=
  decidable_of_iff (AddsFit s.cache act ∧ PinsCounted s.cache act)
    ⟨fun ⟨h1, h2⟩ => ⟨h1, h2⟩, fun ⟨h1, h2⟩ => ⟨h1, h2⟩⟩

/-- CNT is the references held and the pins; `ref_count` is CNT, but for what `acquire_page` has
    added and for the agents between the two counters. -/
structure Ledgered [Fintype A] (first : PageId R → Word) (s : CountSt R A V) : Prop where
  cnt : ∀ p, (s.cache.pages p).state.cnt =
    s.pins p + refLedger.total refLedger.held s.cache.pc p
  refCount : ∀ p, (s.cache.pages p).refCount +
      BitVec.ofNat 32 (refLedger.total refLedger.owed s.cache.pc p + s.sync p) =
    first p + BitVec.ofNat 32 ((s.cache.pages p).state.cnt +
      refLedger.total refLedger.left s.cache.pc p)

section Ledgered

variable [Fintype A] {cfg : Config R} {first : PageId R → Word} {s t : CountSt R A V}
  {p : PageId R}

/-- The references agents hold are those of the ledger. -/
theorem heldRefs_eq {R : Nat} {A V : Type*} [Fintype A] (c : St R A V) (p : PageId R) :
    heldRefs c p = refLedger.total refLedger.held c.pc p := by
  refine Finset.sum_congr rfl fun a _ => ?_
  show Ref.on (c.pc a).ref p = if (c.pc a).onPage = some p then _ else 0
  generalize c.pc a = k
  have hpage : ∀ r, k.ref = some r → k.onPage = some r.page := by
    intro r hr
    cases k with
    | idle => cases hr
    | acquire c k =>
      obtain ⟨g, -, rfl⟩ := Option.map_eq_some_iff.mp hr
      rfl
    | submit c x k =>
      obtain ⟨g, -, rfl⟩ := Option.map_eq_some_iff.mp hr
      rfl
    | release c i marked m hm k =>
      cases k with
      | subRefCount tc =>
        simp only [Pc.ref] at hr
        split at hr <;> cases hr
        rfl
      | _ =>
        obtain rfl := Option.some.inj hr
        rfl
    | _ =>
      obtain rfl := Option.some.inj hr
      rfl
  show Ref.on k.ref p = if k.onPage = some p then refLedger.held k else 0
  cases hr : k.ref with
  | none =>
    have hheld : refLedger.held k = 0 := by simp only [refLedger, pinLedger, hr]
    rw [hheld, ite_self]
    rfl
  | some r =>
    have hheld : refLedger.held k = r.count := by simp only [refLedger, pinLedger, hr]
    rw [hheld, hpage r hr, Lib.PinCache.Ref.on_some]
    simp only [Option.some.injEq]

theorem ledgered_init {R : Nat} {A V : Type*} [Fintype A] {first : PageId R → Word}
    {s : CountSt R A V} (h : Init first s) : Ledgered first s := by
  have hzero : ∀ (f : Pc R → Nat) (p : PageId R), refLedger.total f s.cache.pc p = 0 := by
    intro f p
    refine Finset.sum_eq_zero fun a _ => ?_
    rw [h.cache.pc a]
    rfl
  refine ⟨fun p => ?_, fun p => ?_⟩
  · rw [hzero, h.pins, h.cache.state]
    rfl
  · rw [hzero, hzero, h.sync, h.refCount, h.cache.state]
    rfl

/-- The equation of a counter of 32 bits after a step that adds `x` to it and takes off `y`. -/
theorem word_ledger {rc rc' w : Word} {x y owed owed' sync raise n left n' left' add : Nat}
    (hrc : rc' = rc + BitVec.ofNat 32 x - BitVec.ofNat 32 y)
    (h : rc + BitVec.ofNat 32 (owed + sync) = w + BitVec.ofNat 32 (n + left))
    (howe : owed' + x + add = owed + raise) (hleft : n' + left' + y = n + left + raise) :
    rc' + BitVec.ofNat 32 (owed' + (sync + add)) = w + BitVec.ofNat 32 (n' + left') := by
  have hn := congrArg BitVec.toNat h
  rw [hrc]
  apply BitVec.eq_of_toNat_eq
  simp only [BitVec.toNat_add, BitVec.toNat_sub, BitVec.toNat_ofNat] at hn ⊢
  omega

/-- What one agent's step leaves of the ledger. -/
theorem Ledgered.run {R : Nat} {A V : Type*} [DecidableEq A] [Fintype A] {first : PageId R → Word}
    {s : CountSt R A V} {a : A} {c : St R A V} (h : Ledgered first s)
    (hpc : ∀ b, b ≠ a → c.pc b = s.cache.pc b)
    (hc : ∀ p, Counts p (s.cache.pages p) (s.cache.pc a) (c.pages p) (c.pc a))
    (hunpin : ∀ p, moveOn CountMove.unpin p (s.cache.pc a) ≤ s.pins p) :
    Ledgered first ⟨c, fun p => s.pins p + moveOn CountMove.pin p (s.cache.pc a) -
      moveOn CountMove.unpin p (s.cache.pc a),
      fun p => s.sync p + moveOn CountMove.sync p (s.cache.pc a)⟩ := by
  have hupdate := pc_eq_update hpc
  have htotal : ∀ (f : Pc R → Nat) (p : PageId R), refLedger.total f c.pc p +
      refLedger.on f p (s.cache.pc a) =
        refLedger.total f s.cache.pc p + refLedger.on f p (c.pc a) := by
    intro f p
    rw [hupdate, Function.update_self]
    exact refLedger.total_update f s.cache.pc a (c.pc a) p
  refine ⟨fun p => ?_, fun p => ?_⟩
  · have h1 := htotal refLedger.held p
    have h2 := (hc p).cnt
    have h3 := (hc p).held
    have h4 := h.cnt p
    have h5 := hunpin p
    show (c.pages p).state.cnt = s.pins p + moveOn CountMove.pin p (s.cache.pc a) -
      moveOn CountMove.unpin p (s.cache.pc a) + refLedger.total refLedger.held c.pc p
    omega
  · have h1 := htotal refLedger.owed p
    have h2 := htotal refLedger.left p
    have h3 := (hc p).cnt
    have h4 := (hc p).owed
    have h5 := (hc p).left
    have h6 := h.refCount p
    show (c.pages p).refCount + BitVec.ofNat 32 (refLedger.total refLedger.owed c.pc p +
      (s.sync p + _)) = first p + BitVec.ofNat 32 ((c.pages p).state.cnt +
        refLedger.total refLedger.left c.pc p)
    -- what is yet to be added and to be taken off moves with the counter, modulo its width
    have howe : refLedger.total refLedger.owed c.pc p + moveOn CountMove.raiseRef p (s.cache.pc a) +
        moveOn CountMove.sync p (s.cache.pc a) =
      refLedger.total refLedger.owed s.cache.pc p + moveOn CountMove.raise p (s.cache.pc a) := by
      omega
    have hleft : (c.pages p).state.cnt + refLedger.total refLedger.left c.pc p +
        moveOn CountMove.lowerRef p (s.cache.pc a) =
      (s.cache.pages p).state.cnt + refLedger.total refLedger.left s.cache.pc p +
        moveOn CountMove.raise p (s.cache.pc a) := by
      omega
    exact word_ledger (hc p).refCount h6 howe hleft

/-- An action that moves no counter and leaves every agent its amounts. -/
theorem Ledgered.quiet {R : Nat} {A V : Type*} [Fintype A] {first : PageId R → Word}
    {s t : CountSt R A V} (h : Ledgered first s)
    (hcounts : ∀ p, (t.cache.pages p).counts = (s.cache.pages p).counts)
    (hon : ∀ f p, f ∈ [refLedger.held, refLedger.owed, refLedger.left] →
      refLedger.total f t.cache.pc p = refLedger.total f s.cache.pc p)
    (hpins : t.pins = s.pins) (hsync : t.sync = s.sync) : Ledgered first t := by
  have hcnt : ∀ p, (t.cache.pages p).state.cnt = (s.cache.pages p).state.cnt :=
    fun p => congrArg (·.1) (hcounts p)
  have href : ∀ p, (t.cache.pages p).refCount = (s.cache.pages p).refCount :=
    fun p => congrArg (·.2) (hcounts p)
  refine ⟨fun p => ?_, fun p => ?_⟩
  · rw [hon _ p (.head _), hcnt, hpins]
    exact h.cnt p
  · rw [hon _ p (.tail _ (.head _)), hon _ p (.tail _ (.tail _ (.head _))), hcnt, href, hsync]
    exact h.refCount p

/-- An agent goes somewhere with the same amounts. -/
theorem Ledgered.goes {R : Nat} {A V : Type*} [DecidableEq A] [Fintype A] {first : PageId R → Word}
    {s : CountSt R A V} (h : Ledgered first s) {a : A} {k : Pc R}
    (hon : ∀ f p, f ∈ [refLedger.held, refLedger.owed, refLedger.left] →
      refLedger.total f (s.cache.goto a k).pc p = refLedger.total f s.cache.pc p) :
    Ledgered first ⟨s.cache.goto a k, s.pins, s.sync⟩ :=
  Ledgered.quiet (t := ⟨s.cache.goto a k, s.pins, s.sync⟩) h (fun _ => rfl) hon rfl rfl

/-- Beginning an operation, or going on with it, with the same references. -/
theorem total_goto {R : Nat} {A V : Type*} [DecidableEq A] [Fintype A]
    (f : Pc R → Nat) (c : St R A V) {a : A} {k : Pc R} (p : PageId R)
    (h : refLedger.on f p k = refLedger.on f p (c.pc a)) :
    refLedger.total f (c.goto a k).pc p = refLedger.total f c.pc p := by
  have htotal := refLedger.total_update f c.pc a k p
  show refLedger.total f (update c.pc a k) p = _
  omega

/-- The amounts of an agent that goes on with its call as it stands. -/
theorem stands_total {R : Nat} {A V : Type*} [DecidableEq A] [Fintype A]
    {c : St R A V} {a : A} {k : Pc R} {call : Call R} {n : Nat}
    (h : Stands call n (c.pc a)) (h' : Stands call n k) (f : Pc R → Nat) (p : PageId R)
    (hf : f ∈ [refLedger.held, refLedger.owed, refLedger.left]) :
    refLedger.total f (c.goto a k).pc p = refLedger.total f c.pc p := by
  refine total_goto f c p ?_
  rw [h.on, h'.on]
  simp only [List.mem_cons, List.not_mem_nil, or_false] at hf
  rcases hf with rfl | rfl | rfl
  · rw [h.held, h'.held]
  · rw [h.owed, h'.owed]
  · rw [h.left, h'.left]

/-- An agent that had nothing to do with the counters begins a call. -/
theorem total_begin {R : Nat} {A V : Type*} [DecidableEq A] [Fintype A]
    {c : St R A V} {a : A} {k : Pc R} {call : Call R} (h : c.pc a = .idle)
    (h' : Stands call 0 k) (f : Pc R → Nat) (p : PageId R)
    (hf : f ∈ [refLedger.held, refLedger.owed, refLedger.left]) :
    refLedger.total f (c.goto a k).pc p = refLedger.total f c.pc p := by
  refine total_goto f c p ?_
  rw [h, h'.on, show refLedger.on f p .idle = 0 from rfl]
  simp only [List.mem_cons, List.not_mem_nil, or_false] at hf
  rcases hf with rfl | rfl | rfl
  · rw [h'.held, ite_self]
  · rw [h'.owed, ite_self]
  · rw [h'.left, ite_self]

/-- A pin that is dropped is counted. -/
theorem Ledgered.unpin_le {R : Nat} {A V : Type*} [Fintype A] {first : PageId R → Word}
    {s : CountSt R A V} (h : Ledgered first s) {a : A} (hok : PinsCounted s.cache (.run a))
    (p : PageId R) : moveOn CountMove.unpin p (s.cache.pc a) ≤ s.pins p := by
  by_cases hp : (s.cache.pc a).onPage = some p
  · rw [moveOn, if_pos hp]
    have hle : ∀ c : Call R, c.page = p → dropsPin s.cache a = some c.page → 1 ≤ s.pins p := by
      rintro c rfl hdrop
      have hcount := hok a rfl c.page hdrop
      rw [heldRefs_eq, h.cnt] at hcount
      omega
    unfold countMove
    split
    case h_4 c i marked m hm tc hpc =>
      cases tc with
      | false => exact Nat.zero_le _
      | true =>
        rw [hpc] at hp
        exact hle c (Option.some.inj hp) (by rw [dropsPin, hpc])
    all_goals exact Nat.zero_le _
  · rw [moveOn, if_neg hp]
    exact Nat.zero_le _

/-- The count is there when it is lowered. -/
theorem Ledgered.subs {R : Nat} {A V : Type*} [Fintype A] {first : PageId R → Word}
    {s : CountSt R A V} (h : Ledgered first s) {a : A} (hok : PinsCounted s.cache (.run a)) :
    ∀ d ∈ subsCount s.cache a, d.2 ≤ (s.cache.pages d.1).state.cnt := by
  intro d hd
  rw [subsCount] at hd
  split at hd
  case h_1 c i marked m hm tc hpc =>
    obtain rfl := Option.some.inj hd
    -- what is taken off is the caller's own, and a pin that is counted
    have hpin := h.unpin_le hok c.page
    have hheld := refLedger.on_le_total refLedger.held s.cache.pc a c.page
    rw [hpc, moveOn_page _ _ rfl, if_pos rfl] at hpin
    rw [hpc, refLedger_on _ rfl, if_pos rfl] at hheld
    replace hpin : tc.toNat ≤ s.pins c.page := hpin
    replace hheld : c.count ≤ _ := hheld
    have hcnt := h.cnt c.page
    show m + tc.toNat ≤ (s.cache.pages c.page).state.cnt
    omega
  case h_2 => cases hd

theorem Ledgered.step {act : Act R A V} (h : Ledgered first s) (hok : Fits s act)
    (hs : s.step cfg act = some t) : Ledgered first t := by
  obtain ⟨c, hc, rfl⟩ := Option.map_eq_some_iff.mp hs
  cases act with
  | run a =>
    exact h.run (fun b hb => runStep_pc_ne hc hb)
      (runStep_counts hc (hok.adds a rfl) (h.subs hok.pins)) (h.unpin_le hok.pins)
  | acquire a call =>
    simp only [PageCache.step] at hc
    split at hc <;> cases hc
    rename_i hpc
    exact h.goes fun f p => total_begin hpc (stands_acquiring call id) f p
  | submit a call queue =>
    simp only [PageCache.step] at hc
    split at hc <;> cases hc
    rename_i hpc
    exact h.goes fun f p => total_begin hpc (stands_prologue call _ _) f p
  | wait a blocking =>
    simp only [PageCache.step] at hc
    split at hc <;> cases hc
    rename_i call x hpc
    have hk : Stands call call.count (s.cache.pc a) := by
      rw [hpc]
      exact stands_submitted call x
    exact h.goes fun f p => stands_total hk (stands_wait call x blocking _) f p
  | release a m =>
    simp only [PageCache.step] at hc
    split at hc
    · rename_i call i marked hpc
      split at hc <;> cases hc
      have hk : Stands call call.count (s.cache.pc a) := by
        rw [hpc]
        exact ⟨rfl, rfl, rfl, rfl⟩
      exact h.goes fun f p => stands_total hk ⟨rfl, rfl, rfl, rfl⟩ f p
    · cases hc
  | spurious a =>
    simp only [PageCache.step] at hc
    split at hc
    · rename_i call k hpc
      have hgo : c = s.cache.goto a (.acquire call (.find .ticket)) := by
        cases k <;> cases hc <;> rfl
      subst hgo
      have hk : Stands call call.count (s.cache.pc a) := by
        rw [hpc]
        exact ⟨rfl, rfl, rfl, rfl⟩
      exact h.goes fun f p => stands_total hk ⟨rfl, rfl, rfl, rfl⟩ f p
    · rename_i call x k hpc
      have hgo : c = s.cache.goto a (.submit call x (.find .ticket)) := by
        cases k <;> cases hc <;> rfl
      subst hgo
      have hk : Stands call call.count (s.cache.pc a) := by
        rw [hpc]
        exact ⟨rfl, rfl, rfl, rfl⟩
      exact h.goes fun f p => stands_total hk ⟨rfl, rfl, rfl, rfl⟩ f p
    · cases hc
  | post ctrl queue n =>
    simp only [PageCache.step, postStep] at hc
    split at hc <;> cases hc
    exact Ledgered.quiet h (fun _ => rfl) (fun _ _ _ => rfl) rfl rfl
  | setPrefetch q w =>
    cases hc
    exact Ledgered.quiet h (fun p => setPage_keeps s.cache DataPage.counts q p rfl)
      (fun _ _ _ => rfl) rfl rfl
  | setWindow q w =>
    cases hc
    exact Ledgered.quiet h (fun p => setPage_keeps s.cache DataPage.counts q p rfl)
      (fun _ _ _ => rfl) rfl rfl
  | write a e v =>
    simp only [PageCache.step] at hc
    split at hc <;> cases hc
    exact Ledgered.quiet h (fun _ => rfl) (fun _ _ _ => rfl) rfl rfl
  | clear =>
    cases hc
    exact Ledgered.quiet h (fun _ => rfl) (fun _ _ _ => rfl) rfl rfl

/-- The states that a new cache reaches while counts fit. -/
abbrev Reached (cfg : Config R) (first : PageId R → Word) : CountSt R A V → Prop :=
  Reachable (Init first) (Guarded (step cfg) Fits)

theorem ledgered_reached (h : Reached cfg first s) : Ledgered first s := by
  refine h.invariant (fun s hs => ledgered_init hs) ?_
  rintro s act s' hi ⟨hok, hs⟩
  exact hi.step hok hs

theorem owed_settled {R : Nat} {p : PageId R} {k : Pc R} (hk : midUpdate k ≠ some p) :
    refLedger.on refLedger.owed p k = 0 := by
  cases k with
  | submit c x k =>
    cases k with
    | addRefCount pin w => exact if_neg fun hp => hk hp
    | _ => exact ite_self _
  | _ => exact ite_self _

theorem left_settled {R : Nat} {p : PageId R} {k : Pc R} (hk : midUpdate k ≠ some p) :
    refLedger.on refLedger.left p k = 0 := by
  cases k with
  | release c i marked m hm k =>
    cases k with
    | subRefCount tc => exact if_neg fun hp => hk hp
    | _ => exact ite_self _
  | _ => exact ite_self _

/-- What the ledger says of a page whose counters no agent is between. -/
theorem Ledgered.counters {R : Nat} {A V : Type*} [Fintype A] {first : PageId R → Word}
    {s : CountSt R A V} {p : PageId R} (h : Ledgered first s)
    (hquiet : ∀ a, midUpdate (s.cache.pc a) ≠ some p) :
    (s.cache.pages p).state.cnt = heldRefs s.cache p + s.pins p ∧
      ((s.cache.pages p).refCount.toNat = (s.cache.pages p).state.cnt ↔
        BitVec.ofNat 32 (s.sync p) = first p) := by
  have howed : refLedger.total refLedger.owed s.cache.pc p = 0 :=
    Finset.sum_eq_zero fun a _ => owed_settled (hquiet a)
  have hleft : refLedger.total refLedger.left s.cache.pc p = 0 :=
    Finset.sum_eq_zero fun a _ => left_settled (hquiet a)
  have hcnt := h.cnt p
  have href := congrArg BitVec.toNat (h.refCount p)
  rw [howed, hleft] at href
  simp only [BitVec.toNat_add, BitVec.toNat_ofNat] at href
  -- without agents between the counters the ledger is an equation modulo `2 ^ 32`
  have hlimit : (s.cache.pages p).state.cnt < 2 ^ 32 := by
    rw [Word.cnt_eq]
    exact (Nat.mod_lt _ (by decide)).trans (by decide)
  have hfirst := (first p).isLt
  have hrc := (s.cache.pages p).refCount.isLt
  rw [← BitVec.toNat_inj, BitVec.toNat_ofNat]
  refine ⟨by rw [heldRefs_eq, hcnt, Nat.add_comm], fun hcounters => ?_, fun hsync => ?_⟩
  · omega
  · omega

/-- Where no agent is between the two counters of a page, CNT is the references held and the
    pins; and `ref_count` is CNT exactly if what `acquire_page` has added to CNT is what was in
    the memory of `ref_count`, modulo `2 ^ 32`. -/
theorem counters_agree_iff (cfg : Config R) (first : PageId R → Word) {s : CountSt R A V}
    (h : Reached cfg first s) {p : PageId R} (hquiet : ∀ a, midUpdate (s.cache.pc a) ≠ some p) :
    (s.cache.pages p).state.cnt = heldRefs s.cache p + s.pins p ∧
      ((s.cache.pages p).refCount.toNat = (s.cache.pages p).state.cnt ↔
        BitVec.ofNat 32 (s.sync p) = first p) :=
  (ledgered_reached h).counters hquiet

/-! ### Runs without `acquire_page`

    A run in which nobody takes a reference through `acquire_page` keeps the counters equal. -/

/-- Where no agent is between the two counters of a page they agree, on the references held and
    the pins, and `find_slot` may take the page by `ref_count` if it may by CNT. -/
structure Agree (s : CountSt R A V) : Prop where
  counters : ∀ p, (∀ a, midUpdate (s.cache.pc a) ≠ some p) →
    (s.cache.pages p).refCount.toNat = (s.cache.pages p).state.cnt ∧
      (s.cache.pages p).state.cnt = heldRefs s.cache p + s.pins p
  evicts : ∀ p, (∀ a, midUpdate (s.cache.pc a) ≠ some p) →
    FindVersion.state.Passes s.cache p → FindVersion.refCount.Passes s.cache p

/-- Counts fit, pins are counted, and no `acquire_page` adds to CNT. -/
structure NoSync (s : CountSt R A V) (act : Act R A V) : Prop where
  fits : Fits s act
  sync : act.addsSync s.cache = false

instance (s : CountSt R A V) (act : Act R A V) : Decidable (NoSync s act) :=
  decidable_of_iff (Fits s act ∧ act.addsSync s.cache = false)
    ⟨fun ⟨h1, h2⟩ => ⟨h1, h2⟩, fun ⟨h1, h2⟩ => ⟨h1, h2⟩⟩

/-- Nothing is ever added that `ref_count` does not get. -/
theorem sync_zero (h : Reachable (Init first) (Guarded (step cfg) NoSync) s) (p : PageId R) :
    s.sync p = 0 := by
  refine h.invariant (I := fun s => ∀ p, s.sync p = 0) (fun s hs => hs.sync) ?_ p
  rintro s act s' hi ⟨hok, hs⟩ q
  obtain ⟨c, -, rfl⟩ := Option.map_eq_some_iff.mp hs
  show s.sync q + act.moves s.cache CountMove.sync q = 0
  rw [hi q, moves_sync hok.sync]

/-- In a run without `acquire_page`, on pages whose `ref_count` was 0, the counters agree. -/
theorem refCounts_agree (cfg : Config R) {s : CountSt R A V}
    (h : Reachable (Init fun _ => 0#32) (Guarded (step cfg) NoSync) s) : Agree s := by
  have hledger : Ledgered (fun _ => 0#32) s :=
    ledgered_reached (h.mono fun _ _ _ hs => ⟨hs.1.fits, hs.2⟩)
  have hcount : ∀ p, (∀ a, midUpdate (s.cache.pc a) ≠ some p) →
      (s.cache.pages p).refCount.toNat = (s.cache.pages p).state.cnt ∧
        (s.cache.pages p).state.cnt = heldRefs s.cache p + s.pins p := by
    intro p hquiet
    obtain ⟨hheld, hagree⟩ := hledger.counters hquiet
    exact ⟨hagree.mpr (by rw [sync_zero h]), hheld⟩
  refine ⟨hcount, fun p hquiet hstate => ?_⟩
  have hzero : (s.cache.pages p).refCount.toNat = 0 := (hcount p hquiet).1.trans hstate.1
  have hword : (s.cache.pages p).refCount = 0#32 := BitVec.eq_of_toNat_eq hzero
  exact ⟨hzero, by rw [hword]; decide⟩

end Ledgered

/-! ### A page read through a submit -/

/-- A thread submits a read of page 0, its command completes, and it waits for the page. -/
def submitAndHold : List (Act 1 (Fin 2) Nat) :=
  [.submit 0 (callFor 0 false false) 0] ++ runs 0 17 ++ [.post 0 0 0, .wait 0 true] ++ runs 0 7

def newCounts : CountSt 1 (Fin 2) Nat :=
  ⟨newCache (Fin 2) (fun p e => 10 * p + e) 0, fun _ => 0, fun _ => 0⟩

theorem newCounts_init : Init (fun _ => 0#32) newCounts :=
  ⟨newCache_init (Fin 2) (fun p e => 10 * p + e) 0, fun _ => rfl, fun _ => rfl, fun _ => rfl⟩

def heldCounts : Option (CountSt 1 (Fin 2) Nat) :=
  runActs (step (smallConfig 1 1 oneSlot_ok oneCtrl_ok)) newCounts submitAndHold

theorem heldCounts_isSome : heldCounts.isSome = true := by decide +kernel

/-- The page is held once, and both counters say so. -/
theorem heldCounts_agree :
    heldRefs (heldCounts.get heldCounts_isSome).cache ⟨0, 0⟩ = 1 ∧
      ((heldCounts.get heldCounts_isSome).cache.pages ⟨0, 0⟩).state.cnt = 1 ∧
      ((heldCounts.get heldCounts_isSome).cache.pages ⟨0, 0⟩).refCount.toNat =
        ((heldCounts.get heldCounts_isSome).cache.pages ⟨0, 0⟩).state.cnt := by
  obtain ⟨hheld, hagree⟩ := counters_agree_iff (smallConfig 1 1 (by decide) (by decide))
    (fun _ => 0#32) (s := heldCounts.get heldCounts_isSome) (p := ⟨0, 0⟩)
    (reachable_of_runActs (.init newCounts_init) (l := submitAndHold) (by decide +kernel)
      (Option.some_get _).symm) (by decide +kernel)
  have hrefs : heldRefs (heldCounts.get heldCounts_isSome).cache ⟨0, 0⟩ = 1 := by decide +kernel
  have hpins : (heldCounts.get heldCounts_isSome).pins ⟨0, 0⟩ = 0 := by decide +kernel
  exact ⟨hrefs, by rw [hheld, hrefs, hpins], hagree.mpr (by decide +kernel)⟩

/-- In that run nobody has called `acquire_page`, and the page held keeps its slot by either
    count. -/
theorem submitAndHold_agree :
    ∃ s, runActs (step (smallConfig 1 1 oneSlot_ok oneCtrl_ok)) newCounts submitAndHold = some s ∧
      Agree s ∧ heldRefs s.cache ⟨0, 0⟩ = 1 ∧ (s.cache.pages ⟨0, 0⟩).refCount.toNat = 1 := by
  have hagree := refCounts_agree (smallConfig 1 1 oneSlot_ok oneCtrl_ok)
    (s := heldCounts.get heldCounts_isSome)
    (reachable_of_runActs (.init newCounts_init) (l := submitAndHold) (by decide +kernel)
      (Option.some_get _).symm)
  exact ⟨_, (Option.some_get heldCounts_isSome).symm, hagree, by decide +kernel,
    by decide +kernel⟩

/-! ### A page read through `acquire_page` -/

/-- A thread reads page 0 and releases it. -/
def acquireAndRelease : List (Act 1 (Fin 2) Nat) :=
  [.acquire 0 (callFor 0 false false)] ++ runs 0 13 ++ [.release 0 1] ++ runs 0 4

/-- The counts fit in that run, and at its end nobody does anything: CNT is 0 and `ref_count`
    below 0, so that `find_slot` may take the page by CNT and never by `ref_count`. -/
theorem released_disagree :
    runOk (step (smallConfig 1 1 oneSlot_ok oneCtrl_ok)) Fits newCounts acquireAndRelease ∧
    ∃ s, runActs (step (smallConfig 1 1 oneSlot_ok oneCtrl_ok)) newCounts acquireAndRelease =
        some s ∧
      (∀ a, s.cache.pc a = .idle) ∧ (s.cache.pages ⟨0, 0⟩).refCount.toNat = 4294967295 ∧
      FindVersion.state.Passes s.cache ⟨0, 0⟩ ∧ ¬ FindVersion.refCount.Passes s.cache ⟨0, 0⟩ ∧
      ¬ Agree s := by
  have hend : (runActs (step (smallConfig 1 1 oneSlot_ok oneCtrl_ok)) newCounts
      acquireAndRelease).map (fun s => (decide (∀ a, s.cache.pc a = .idle),
        (s.cache.pages ⟨0, 0⟩).refCount.toNat, (s.cache.pages ⟨0, 0⟩).state.cnt,
        (s.cache.pages ⟨0, 0⟩).state.isBusy)) = some (true, 4294967295, 0, false) := by
    decide +kernel
  obtain ⟨s, hs, hend⟩ := Option.map_eq_some_iff.mp hend
  have hidle : ∀ a, s.cache.pc a = .idle := of_decide_eq_true (congrArg (·.1) hend)
  have href : (s.cache.pages ⟨0, 0⟩).refCount.toNat = 4294967295 := congrArg (·.2.1) hend
  have hpasses : FindVersion.state.Passes s.cache ⟨0, 0⟩ :=
    ⟨congrArg (·.2.2.1) hend, congrArg (·.2.2.2) hend⟩
  have hblocked : ¬ FindVersion.refCount.Passes s.cache ⟨0, 0⟩ := by
    intro h
    have hzero : (s.cache.pages ⟨0, 0⟩).refCount.toNat = 0 := h.1
    rw [href] at hzero
    cases hzero
  refine ⟨by decide +kernel, s, hs, hidle, href, hpasses, hblocked, fun h => ?_⟩
  have hquiet : ∀ a, midUpdate (s.cache.pc a) ≠ some ⟨0, 0⟩ := by
    intro a
    rw [hidle a]
    exact (Option.some_ne_none _).symm
  exact hblocked (h.evicts ⟨0, 0⟩ hquiet hpasses)

end CountSt

end GidsStack.PageCache
