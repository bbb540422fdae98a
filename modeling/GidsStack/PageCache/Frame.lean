/-
  GidsStack.PageCache.Frame

  What the steps of the machine leave alone.
-/

import GidsStack.PageCache.Runs

namespace GidsStack.PageCache

open Function (update)

variable {R : Nat} [NeZero R] {A V : Type*} [DecidableEq A]

/-! ## Stores -/

section Stores

variable {R : Nat} {A V : Type*} (s : St R A V) (p q : PageId R) (a : A)

@[simp] theorem goto_pages [DecidableEq A] (k : Pc R) : (s.goto a k).pages = s.pages := rfl

@[simp] theorem goto_qps [DecidableEq A] (k : Pc R) : (s.goto a k).qps = s.qps := rfl

@[simp] theorem goto_history [DecidableEq A] (k : Pc R) : (s.goto a k).history = s.history := rfl

@[simp] theorem goto_pc_self [DecidableEq A]
    (k : Pc R) : (s.goto a k).pc a = k := Function.update_self ..

theorem goto_pc_ne [DecidableEq A] {b : A} (h : b ≠ a) (k : Pc R) : (s.goto a k).pc b = s.pc b :=
  Function.update_of_ne h ..

@[simp] theorem setQp_pages (ctrl queue : Nat) (d : QueuePair R A) :
    (s.setQp ctrl queue d).pages = s.pages := rfl

@[simp] theorem setQp_history (ctrl queue : Nat) (d : QueuePair R A) :
    (s.setQp ctrl queue d).history = s.history := rfl

@[simp] theorem led_pages (t : Bool) : (s.led p a t).pages = s.pages := rfl

@[simp] theorem assigned_pages (i : Nat) : (s.assigned p i).pages = s.pages := rfl

@[simp] theorem published_pages : (s.published p).pages = s.pages := rfl

@[simp] theorem sent_pages (ctrl queue : Nat) (cmd : Cmd R A) :
    (s.sent p ctrl queue cmd).pages = s.pages := rfl

@[simp] theorem took_pages (ctrl queue : Nat) (cmd : Cmd R A) :
    (s.took p ctrl queue cmd).pages = s.pages := rfl

theorem setPage_apply (d : DataPage) :
    (s.setPage p d).pages q = if q = p then d else s.pages q := by
  simp only [St.setPage, Function.update_apply]

/-- The fields of a page besides its state and its offset. -/
def DataPage.side (d : DataPage) : Word × Bool × BitVec 8 × BitVec 8 :=
  (d.refCount, d.pollingFlag, d.prefetchCount, d.prefetchCounter)

@[simp] theorem setState_side (w : Word) :
    ((s.setState p w).pages q).side = (s.pages q).side := by
  rw [St.setState, setPage_apply]
  split
  · rename_i h
    rw [h]
    rfl
  · rfl

@[simp] theorem setOffset_side (i : Nat) :
    ((s.setOffset p i).pages q).side = (s.pages q).side := by
  rw [St.setOffset, setPage_apply]
  split
  · rename_i h
    rw [h]
    rfl
  · rfl

@[simp] theorem setRefCount_pollingFlag (w : Word) :
    ((s.setRefCount p w).pages q).pollingFlag = (s.pages q).pollingFlag := by
  rw [St.setRefCount, setPage_apply]
  split
  · rename_i h
    rw [h]
  · rfl

@[simp] theorem setPrefetchCount_pollingFlag (w : BitVec 8) :
    ((s.setPrefetchCount p w).pages q).pollingFlag = (s.pages q).pollingFlag := by
  rw [St.setPrefetchCount, setPage_apply]
  split
  · rename_i h
    rw [h]
  · rfl

@[simp] theorem setPrefetchCounter_pollingFlag (w : BitVec 8) :
    ((s.setPrefetchCounter p w).pages q).pollingFlag = (s.pages q).pollingFlag := by
  rw [St.setPrefetchCounter, setPage_apply]
  split
  · rename_i h
    rw [h]
  · rfl

theorem setPolling_pollingFlag (b : Bool) :
    ((s.setPolling p b).pages q).pollingFlag = if q = p then b else (s.pages q).pollingFlag := by
  rw [St.setPolling, setPage_apply]
  split <;> rfl

theorem setState_state (w : Word) :
    ((s.setState p w).pages q).state = if q = p then w else (s.pages q).state := by
  rw [St.setState, setPage_apply]
  split <;> rfl

/-- Stores to the other fields of a page leave its state. -/
theorem setPage_state {d : DataPage} (h : d.state = (s.pages p).state) :
    ((s.setPage p d).pages q).state = (s.pages q).state := by
  rw [setPage_apply]
  split
  · rename_i hq
    rw [h, hq]
  · rfl

@[simp] theorem setOffset_state (i : Nat) :
    ((s.setOffset p i).pages q).state = (s.pages q).state := setPage_state s p q rfl

@[simp] theorem setRefCount_state (w : Word) :
    ((s.setRefCount p w).pages q).state = (s.pages q).state := setPage_state s p q rfl

@[simp] theorem setPolling_state (b : Bool) :
    ((s.setPolling p b).pages q).state = (s.pages q).state := setPage_state s p q rfl

@[simp] theorem setPrefetchCount_state (w : BitVec 8) :
    ((s.setPrefetchCount p w).pages q).state = (s.pages q).state := setPage_state s p q rfl

@[simp] theorem setPrefetchCounter_state (w : BitVec 8) :
    ((s.setPrefetchCounter p w).pages q).state = (s.pages q).state := setPage_state s p q rfl

theorem pollingFlag_of_side {d e : DataPage} (h : d.side = e.side) :
    d.pollingFlag = e.pollingFlag := congrArg (·.2.1) h

end Stores

/-! ## The polling flag -/

section PollingFlag

variable (cfg : Config R) (s : St R A V) (a : A) (c : Call R) (q : PageId R)

theorem findStep_side (ver : FindVersion) (p : PageId R) (emb : FindPc R → Pc R)
    (ret : Nat → Pc R) (k : FindPc R) :
    ((findStep cfg ver s a p emb ret k).pages q).side = (s.pages q).side := by
  cases k <;> simp only [findStep, findTest] <;> (repeat' split) <;>
    simp only [goto_pages, setState_side] <;> rfl

theorem prologueStep_pollingFlag {R : Nat} {A V : Type*} [DecidableEq A] (s : St R A V) (a : A)
    (q : PageId R) (p : PageId R) (emb : ProloguePc → Pc R) (ret : Bool → Pc R)
    (k : ProloguePc) : ((prologueStep s a p emb ret k).pages q).pollingFlag =
      (s.pages q).pollingFlag := by
  cases k <;> simp only [prologueStep] <;> (repeat' split) <;>
    simp only [goto_pages, setPrefetchCount_pollingFlag, setPrefetchCounter_pollingFlag]

theorem acquireStep_pollingFlag (k : AcquirePc R) :
    ((acquireStep cfg s a c k).pages q).pollingFlag = (s.pages q).pollingFlag := by
  cases k with
  | prologue k => exact prologueStep_pollingFlag ..
  | find k => exact pollingFlag_of_side (findStep_side ..)
  | _ =>
    refine pollingFlag_of_side ?_
    simp only [acquireStep]
    (repeat' split) <;> simp

theorem submitStep_pollingFlag (x : Ctx) (k : SubmitPc R)
    (h : ((submitStep cfg s a c x k).pages q).pollingFlag = true) :
    (s.pages q).pollingFlag = true := by
  cases k with
  | prologue k => rwa [submitStep, prologueStep_pollingFlag] at h
  | find k => rwa [submitStep, pollingFlag_of_side (findStep_side ..)] at h
  | clearPolling =>
    rw [submitStep, goto_pages, setPolling_pollingFlag] at h
    split at h
    · cases h
    · exact h
  | addRefCount pin w => rwa [submitStep, goto_pages, setRefCount_pollingFlag] at h
  | _ =>
    refine (pollingFlag_of_side ?_).symm.trans h
    simp only [submitStep]
    (repeat' split) <;> simp

theorem releaseStep_pollingFlag {R : Nat} {A V : Type*} [DecidableEq A] (s : St R A V) (a : A)
    (c : Call R) (q : PageId R) (i m : Nat) (marked : Bool) (hm : m ≤ c.count) (k : ReleasePc) :
    ((releaseStep s a c i marked m hm k).pages q).pollingFlag = (s.pages q).pollingFlag := by
  cases k <;> simp only [releaseStep, goto_pages, setRefCount_pollingFlag,
    setPrefetchCount_pollingFlag, setPrefetchCounter_pollingFlag,
    pollingFlag_of_side (setState_side ..)]

end PollingFlag

/-! ## Where the other agents stand -/

section Others

variable {s s' : St R A V} {a : A}

theorem findStep_pc_ne (cfg : Config R) (ver : FindVersion) (s : St R A V) (p : PageId R)
    (emb : FindPc R → Pc R) (ret : Nat → Pc R) (k : FindPc R) {b : A} (h : b ≠ a) :
    (findStep cfg ver s a p emb ret k).pc b = s.pc b := by
  cases k <;> simp only [findStep, findTest] <;> (repeat' split) <;> exact goto_pc_ne _ _ h _

/-- `find_slot` stays in `find_slot` until it returns. -/
theorem findStep_pc (cfg : Config R) (ver : FindVersion) (s : St R A V) (a : A) (p : PageId R)
    (emb : FindPc R → Pc R) (ret : Nat → Pc R) {k : FindPc R} (hk : ∀ i, k ≠ .unlockDone i) :
    ∃ k', (findStep cfg ver s a p emb ret k).pc a = emb k' := by
  cases k with
  | unlockDone i => exact absurd rfl (hk i)
  | _ =>
    simp only [findStep, findTest]
    (repeat' split) <;> exact ⟨_, goto_pc_self _ _ _⟩

theorem findStep_qps (cfg : Config R) (ver : FindVersion) (s : St R A V) (a : A) (p : PageId R)
    (emb : FindPc R → Pc R) (ret : Nat → Pc R) (k : FindPc R) :
    (findStep cfg ver s a p emb ret k).qps = s.qps := by
  cases k <;> simp only [findStep, findTest] <;> (repeat' split) <;> rfl

theorem prologueStep_qps {R : Nat} {A V : Type*} [DecidableEq A]
    (s : St R A V) (a : A) (p : PageId R) (emb : ProloguePc → Pc R)
    (ret : Bool → Pc R) (k : ProloguePc) : (prologueStep s a p emb ret k).qps = s.qps := by
  cases k <;> simp only [prologueStep] <;> (repeat' split) <;> rfl

/-- The prologue of an acquire stays in it until it returns. -/
theorem prologueStep_pc {R : Nat} {A V : Type*} [DecidableEq A]
    (s : St R A V) (a : A) (p : PageId R) (emb : ProloguePc → Pc R)
    (ret : Bool → Pc R) (k : ProloguePc) :
    (∃ k', (prologueStep s a p emb ret k).pc a = emb k') ∨
      ∃ pin, (prologueStep s a p emb ret k).pc a = ret pin := by
  cases k <;> simp only [prologueStep] <;> (repeat' split) <;>
    first
      | exact .inl ⟨_, goto_pc_self _ _ _⟩
      | exact .inr ⟨_, goto_pc_self _ _ _⟩

theorem acquireStep_qps (cfg : Config R) (s : St R A V) (a : A) (c : Call R) (k : AcquirePc R) :
    (acquireStep cfg s a c k).qps = s.qps := by
  cases k with
  | prologue k => exact prologueStep_qps ..
  | find k => exact findStep_qps ..
  | _ =>
    simp only [acquireStep]
    (repeat' split) <;> rfl

theorem releaseStep_qps {R : Nat} {A V : Type*} [DecidableEq A]
    (s : St R A V) (a : A) (c : Call R) (i m : Nat) (marked : Bool)
    (hm : m ≤ c.count) (k : ReleasePc) :
    (releaseStep s a c i marked m hm k).qps = s.qps := by
  cases k <;> rfl

theorem findStep_written (cfg : Config R) (ver : FindVersion) (s : St R A V) (a : A)
    (p : PageId R) (emb : FindPc R → Pc R) (ret : Nat → Pc R) (k : FindPc R) :
    (findStep cfg ver s a p emb ret k).written = s.written := by
  cases k <;> simp only [findStep, findTest] <;> (repeat' split) <;> rfl

theorem acquireStep_written (cfg : Config R) (s : St R A V) (a : A) (c : Call R)
    (k : AcquirePc R) : (acquireStep cfg s a c k).written = s.written := by
  cases k with
  | prologue k => cases k <;> simp only [acquireStep, prologueStep] <;> (repeat' split) <;> rfl
  | find k => exact findStep_written ..
  | _ =>
    simp only [acquireStep]
    (repeat' split) <;> rfl

theorem releaseStep_written {R : Nat} {A V : Type*} [DecidableEq A]
    (s : St R A V) (a : A) (c : Call R) (i m : Nat) (marked : Bool)
    (hm : m ≤ c.count) (k : ReleasePc) :
    (releaseStep s a c i marked m hm k).written = s.written := by
  cases k <;> rfl

/-- Only the agent that makes a step goes anywhere. -/
theorem runStep_pc_ne {cfg : Config R} (hs : runStep cfg s a = some s') {b : A} (h : b ≠ a) :
    s'.pc b = s.pc b := by
  rw [runStep] at hs
  split at hs
  · rename_i c k hpc
    cases hs
    cases k with
    | prologue k =>
      simp only [acquireStep]
      cases k <;> simp only [prologueStep] <;> (repeat' split) <;> exact goto_pc_ne _ _ h _
    | find k => exact findStep_pc_ne cfg _ s _ _ _ k h
    | _ => simp only [acquireStep]; (repeat' split) <;> exact goto_pc_ne _ _ h _
  · rename_i c x k hpc
    cases hs
    cases k with
    | prologue k =>
      simp only [submitStep]
      cases k <;> simp only [prologueStep] <;> (repeat' split) <;> exact goto_pc_ne _ _ h _
    | find k => exact findStep_pc_ne cfg _ s _ _ _ k h
    | _ => simp only [submitStep]; (repeat' split) <;> exact goto_pc_ne _ _ h _
  · rename_i c x blocking k hpc
    cases k <;> simp only [waitStep] at hs <;> (repeat' split at hs) <;> cases hs <;>
      exact goto_pc_ne _ _ h _
  · cases hs
    exact goto_pc_ne _ _ h _
  · rename_i c i marked m hm k hpc
    cases hs
    cases k <;> exact goto_pc_ne _ _ h _
  all_goals cases hs

end Others

/-! ## Slots returned and states toggled -/

/-- The page agent `a` returns from `find_slot` for with its next step, and the slot. -/
def assignsPage (s : St R A V) (a : A) : Option (PageId R × Nat) :=
  match s.pc a with
  | .acquire c (.find (.unlockDone i)) | .submit c _ (.find (.unlockDone i)) => some (c.page, i)
  | _ => none

/-- The page whose state agent `a` toggles with its next step. -/
def publishesPage (s : St R A V) (a : A) : Option (PageId R) :=
  match s.pc a with
  | .acquire c (.publish _) | .wait c _ _ .publish => some c.page
  | _ => none

/-! ## The VALID flag -/

section Valid

variable (cfg : Config R) {s s' : St R A V} {a : A} {c : Call R} {p : PageId R}

/-- A store to a state word that does not raise VALID. -/
theorem setState_valid {R : Nat} {A V : Type*} {s : St R A V} {p : PageId R}
    {q : PageId R} {w : Word}
    (hw : w.isValid = true → (s.pages q).state.isValid = true)
    (h : ((s.setState q w).pages p).state.isValid = true) : (s.pages p).state.isValid = true := by
  rw [setState_state] at h
  split at h
  · rename_i hq
    rw [hq]
    exact hw h
  · exact h

theorem findStep_valid (ver : FindVersion) (q : PageId R) (emb : FindPc R → Pc R)
    (ret : Nat → Pc R) (k : FindPc R)
    (h : ((findStep cfg ver s a q emb ret k).pages p).state.isValid = true) :
    (s.pages p).state.isValid = true := by
  cases k with
  | setBusy i q =>
    refine setState_valid (q := q) (w := (s.pages q).state ||| Word.BUSY) (by simp) ?_
    simp only [findStep] at h
    (repeat' split at h) <;> exact h
  | clearState i q =>
    exact setState_valid (q := q) (w := (s.pages q).state &&& Word.cntMask) (by simp) h
  | undoBusy i q =>
    exact setState_valid (q := q) (w := (s.pages q).state &&& Word.disableBusyMask) (by simp) h
  | _ =>
    simp only [findStep, findTest] at h
    (repeat' split at h) <;> exact h

theorem prologueStep_state {R : Nat} {A V : Type*} [DecidableEq A] {s : St R A V} {a : A}
    {p : PageId R} (q : PageId R) (emb : ProloguePc → Pc R) (ret : Bool → Pc R)
    (k : ProloguePc) :
    ((prologueStep s a q emb ret k).pages p).state = (s.pages p).state := by
  cases k <;> simp only [prologueStep] <;> (repeat' split) <;> simp

/-- A page becomes valid only by having its state toggled. -/
theorem valid_raised {act : Act R A V} (hs : step cfg s act = some s') (hadd : AddsFit s act)
    (hsub : SubsFit s act) (h : (s.pages p).state.isValid = false)
    (h' : (s'.pages p).state.isValid = true) :
    ∃ a ∈ act.agent, publishesPage s a = some p := by
  have hno : (s.pages p).state.isValid ≠ true := by simp [h]
  -- every step but a toggle keeps an invalid page invalid
  cases act with
  | run a =>
    refine ⟨a, rfl, ?_⟩
    simp only [step, runStep] at hs
    split at hs <;> rename_i hpc
    · rename_i c k
      cases hs
      cases k with
      | prologue k => rw [acquireStep, prologueStep_state] at h'; exact absurd h' hno
      | find k => exact absurd (findStep_valid cfg _ _ _ _ _ h') hno
      | fetchAdd pin =>
        have hfit := hadd a rfl (c.page, c.count + pin.toNat) (by rw [addsCount, hpc]; rfl)
        exact absurd (setState_valid (by rw [Word.isValid_add hfit]; exact id) h') hno
      | setBusy =>
        refine absurd (setState_valid (q := c.page)
          (w := (s.pages c.page).state ||| Word.BUSY) (by simp) ?_) hno
        simp only [acquireStep] at h'
        split at h' <;> exact h'
      | setDirty i =>
        exact absurd (setState_valid (q := c.page)
          (w := (s.pages c.page).state ||| Word.DIRTY) (by simp) h') hno
      | markDirty =>
        exact absurd (setState_valid (q := c.page)
          (w := (s.pages c.page).state ||| Word.DIRTY) (by simp) h') hno
      | publish i =>
        by_cases hp : p = c.page
        · rw [publishesPage, hpc, hp]
        · refine absurd ?_ hno
          rwa [acquireStep, goto_pages, published_pages, setState_state, if_neg hp] at h'
      | storeOffset i =>
        simp only [acquireStep, goto_pages, setOffset_state] at h'
        exact absurd h' hno
      | _ =>
        simp only [acquireStep] at h'
        refine absurd ?_ hno
        (repeat' split at h') <;> exact h'
    · rename_i c x k
      cases hs
      cases k with
      | prologue k => rw [submitStep, prologueStep_state] at h'; exact absurd h' hno
      | find k => exact absurd (findStep_valid cfg _ _ _ _ _ h') hno
      | fetchAdd pin =>
        have hfit := hadd a rfl (c.page, c.count + pin.toNat) (by rw [addsCount, hpc]; rfl)
        exact absurd (setState_valid (by rw [Word.isValid_add hfit]; exact id) h') hno
      | setBusy =>
        refine absurd (setState_valid (q := c.page)
          (w := (s.pages c.page).state ||| Word.BUSY) (by simp) ?_) hno
        simp only [submitStep] at h'
        split at h' <;> exact h'
      | markDirty =>
        exact absurd (setState_valid (q := c.page)
          (w := (s.pages c.page).state ||| Word.DIRTY) (by simp) h') hno
      | _ =>
        simp only [submitStep] at h'
        refine absurd ?_ hno
        (repeat' split at h') <;> simpa using h'
    · rename_i c x blocking k
      cases k with
      | setDirty =>
        cases hs
        exact absurd (setState_valid (q := c.page)
          (w := (s.pages c.page).state ||| Word.DIRTY) (by simp) h') hno
      | markDirty =>
        cases hs
        exact absurd (setState_valid (q := c.page)
          (w := (s.pages c.page).state ||| Word.DIRTY) (by simp) h') hno
      | publish =>
        cases hs
        by_cases hp : p = c.page
        · rw [publishesPage, hpc, hp]
        · refine absurd ?_ hno
          rwa [goto_pages, published_pages, setState_state, if_neg hp] at h'
      | _ =>
        simp only [waitStep] at hs
        refine absurd ?_ hno
        (repeat' split at hs) <;> cases hs <;> simpa using h'
    · cases hs
      exact absurd (setState_valid (w := _ ||| Word.DIRTY) (by simp) h') hno
    · rename_i c i marked m hm k
      cases hs
      refine absurd ?_ hno
      cases k with
      | subState tc =>
        have hfit := hsub a rfl (c.page, m + tc.toNat) (by rw [subsCount, hpc]; rfl)
        exact setState_valid (by rw [Word.isValid_sub hfit]; exact id) h'
      | _ => simpa [releaseStep] using h'
    all_goals cases hs
  | spurious a =>
    refine absurd ?_ hno
    simp only [step] at hs
    split at hs
    · rename_i k hpc
      cases k <;> cases hs <;> exact h'
    · rename_i k hpc
      cases k <;> cases hs <;> exact h'
    · cases hs
  | post ctrl queue n =>
    simp only [step, postStep] at hs
    split at hs <;> cases hs
    exact absurd h' hno
  | release a m =>
    simp only [step] at hs
    split at hs
    · split at hs <;> cases hs
      exact absurd h' hno
    · cases hs
  | setPrefetch q w =>
    cases hs
    rw [setPrefetchCount_state] at h'
    exact absurd h' hno
  | setWindow q w =>
    cases hs
    rw [setPrefetchCounter_state] at h'
    exact absurd h' hno
  | clear =>
    cases hs
    exact absurd h' hno
  | _ =>
    simp only [step] at hs
    split at hs <;> cases hs
    exact absurd h' hno

end Valid

/-! ## The history of the misses -/

/-- How a step changes the history. -/
inductive HistoryStep (s : St R A V) : Act R A V → (PageId R → History R A) → Prop
  | same {act : Act R A V} : HistoryStep s act s.history
  | led {a : A} {p : PageId R} {t : Bool} (h : leadsPage s a = some (p, t)) :
      HistoryStep s (.run a) (s.led p a t).history
  | assigned {a : A} {p : PageId R} {i : Nat} (h : assignsPage s a = some (p, i)) :
      HistoryStep s (.run a) (s.assigned p i).history
  | published {a : A} {p : PageId R} (h : publishesPage s a = some p) :
      HistoryStep s (.run a) (s.published p).history
  | sent {a : A} {c : Call R} {x : Ctx} {cid : Nat} (h : s.pc a = .submit c x (.enqueue cid)) :
      HistoryStep s (.run a) (s.sent c.page x.memberAcquireCtrl x.queue
        ⟨cid, c.page, x.pageTrans, a, s.serial⟩).history
  | took {a : A} {c : Call R} {x : Ctx} {b : Bool} {cmd : Cmd R A} {cq : List (Cmd R A)}
      (h : s.pc a = .wait c x b .poll)
      (hq : takeCompletion x.cid (s.qps x.memberAcquireCtrl x.queue).cq = some (cmd, cq)) :
      HistoryStep s (.run a) (s.took c.page x.memberAcquireCtrl x.queue cmd).history

section History

variable (cfg : Config R) {s s' : St R A V} {a : A} {c : Call R}

theorem findStep_history (ver : FindVersion) (p : PageId R) (emb : FindPc R → Pc R)
    (ret : Nat → Pc R) {k : FindPc R} (hk : ∀ i, k ≠ .unlockDone i) :
    (findStep cfg ver s a p emb ret k).history = s.history := by
  cases k with
  | unlockDone i => exact absurd rfl (hk i)
  | _ => simp only [findStep, findTest]; (repeat' split) <;> rfl

theorem prologueStep_history {R : Nat} {A V : Type*} [DecidableEq A] {s : St R A V} {a : A}
    (p : PageId R) (emb : ProloguePc → Pc R) (ret : Bool → Pc R)
    (k : ProloguePc) : (prologueStep s a p emb ret k).history = s.history := by
  cases k <;> simp only [prologueStep] <;> (repeat' split) <;> rfl

theorem HistoryStep.of_eq {R : Nat} {A V : Type*} {s : St R A V}
    {act : Act R A V} {h : PageId R → History R A} (he : h = s.history) :
    HistoryStep s act h := he ▸ .same

theorem acquireStep_history {k : AcquirePc R} (hpc : s.pc a = .acquire c k) :
    HistoryStep s (.run a) (acquireStep cfg s a c k).history := by
  cases k with
  | prologue k => exact .of_eq (prologueStep_history ..)
  | setBusy =>
    simp only [acquireStep]
    split
    · exact .same
    · rename_i hb
      exact .led (by rw [leadsPage, hpc]; exact if_neg hb)
  | find k =>
    by_cases hk : ∃ i, k = .unlockDone i
    · obtain ⟨i, rfl⟩ := hk
      exact .assigned (by rw [assignsPage, hpc])
    · exact .of_eq (findStep_history cfg _ _ _ _ fun i h => hk ⟨i, h⟩)
  | publish i => exact .published (by rw [publishesPage, hpc])
  | _ =>
    refine .of_eq ?_
    simp only [acquireStep]
    (repeat' split) <;> rfl

theorem submitStep_history {x : Ctx} {k : SubmitPc R} (hpc : s.pc a = .submit c x k) :
    HistoryStep s (.run a) (submitStep cfg s a c x k).history := by
  cases k with
  | prologue k => exact .of_eq (prologueStep_history ..)
  | setBusy =>
    simp only [submitStep]
    split
    · exact .same
    · rename_i hb
      exact .led (by rw [leadsPage, hpc]; exact if_neg hb)
  | find k =>
    by_cases hk : ∃ i, k = .unlockDone i
    · obtain ⟨i, rfl⟩ := hk
      exact .assigned (by rw [assignsPage, hpc])
    · exact .of_eq (findStep_history cfg _ _ _ _ fun i h => hk ⟨i, h⟩)
  | enqueue cid => exact .sent hpc
  | _ =>
    refine .of_eq ?_
    simp only [submitStep]
    (repeat' split) <;> rfl

theorem waitStep_history {R : Nat} {A V : Type*} [DecidableEq A] {s s' : St R A V} {a : A}
    {c : Call R} {x : Ctx} {blocking : Bool} {k : WaitPc}
    (hpc : s.pc a = .wait c x blocking k) (hs : waitStep s a c x blocking k = some s') :
    HistoryStep s (.run a) s'.history := by
  cases k with
  | publish =>
    obtain rfl := Option.some.inj hs
    exact .published (by rw [publishesPage, hpc])
  | poll =>
    simp only [waitStep] at hs
    split at hs
    · rename_i cmd cq hq
      obtain rfl := Option.some.inj hs
      exact .took hpc hq
    · split at hs <;> cases hs
      exact .same
  | _ =>
    simp only [waitStep] at hs
    (repeat' split at hs) <;> cases hs <;> exact .same

theorem releaseStep_history {R : Nat} {A V : Type*} [DecidableEq A] {s : St R A V} {a : A}
    {c : Call R} {i m : Nat} {marked : Bool} {hm : m ≤ c.count} (k : ReleasePc) :
    (releaseStep s a c i marked m hm k).history = s.history := by
  cases k <;> rfl

/-- The inversion lemma of the history. -/
theorem step_history {act : Act R A V} (hs : step cfg s act = some s') :
    HistoryStep s act s'.history := by
  cases act with
  | run a =>
    simp only [step, runStep] at hs
    split at hs <;> rename_i hpc
    · cases hs
      exact acquireStep_history cfg hpc
    · cases hs
      exact submitStep_history cfg hpc
    · exact waitStep_history hpc hs
    · cases hs
      exact .same
    · cases hs
      exact .of_eq (releaseStep_history _)
    all_goals cases hs
  | spurious a =>
    simp only [step] at hs
    split at hs
    · rename_i k hpc
      cases k <;> cases hs <;> exact .same
    · rename_i k hpc
      cases k <;> cases hs <;> exact .same
    · cases hs
  | post ctrl queue n =>
    simp only [step, postStep] at hs
    split at hs <;> cases hs
    exact .same
  | release a m =>
    simp only [step] at hs
    split at hs
    · split at hs <;> cases hs
      exact .same
    · cases hs
  | setPrefetch p w =>
    cases hs
    exact .same
  | setWindow p w =>
    cases hs
    exact .same
  | clear =>
    cases hs
    exact .same
  | _ =>
    simp only [step] at hs
    split at hs <;> cases hs
    exact .same

end History

end GidsStack.PageCache
