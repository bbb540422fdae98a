/-
  GidsStack.PageCache.Accounting

  The statistics of a range: `access_cnt`, `hit_cnt` and `miss_cnt` (page_cache.h,
  gids_kernel.cu).

  A synchronous acquire counts an access and classifies it before it returns.  A submit counts
  it too, but when the page is not valid yet it leaves a context behind, and whichever call
  finds the page valid, or makes it so, ends the access: a wait, a try-wait, the finalization
  of a registered context or its refresh.  Some of these calls classify the access and some do
  not, and nothing keeps a context from being waited for twice, or before any submit.

  Only what decides the branches is followed here: the state word, the polling flag and the
  slot of a page and a few fields of the contexts.  What a step meets besides (the slot
  `find_slot` returns, whether a completion is there) is part of the action, and whatever else
  happens to a page may happen at any time.
-/

import GidsStack.PageCache.Layout
import GidsStack.Lib.Transition
import Mathlib.Data.List.Basic

namespace GidsStack.PageCache.Accounting

open Function (update)

/-! ## The state -/

/-- The page a call is for, and the lanes that it is made for. -/
structure Access (R : Nat) where
  page : PageId R
  count : Nat
  deriving DecidableEq

/-- The fields of `data_page_t` that decide the branches. -/
structure Page where
  state : Word
  pollingFlag : Bool
  offset : Nat

/-- The fields of `s_ctx` that decide them: `page` is `none` when `r` is negative. -/
structure SCtx (R : Nat) where
  page : Option (PageId R)
  count : Nat
  isHit : Bool
  pageTrans : Nat

/-- `cudaMemset` has zeroed the context. -/
def SCtx.zeroed {R : Nat} [NeZero R] : SCtx R :=
  { page := some ⟨0, 0⟩, count := 0, isHit := false, pageTrans := 0 }

/-- `acquire_page`. -/
inductive AcquireAt
  | fetchAdd
  | setBusy
  | readData
  | reload
  deriving DecidableEq

/-- `acquire_page_submit_async`. -/
inductive SubmitAt
  | fetchAdd
  | setBusy
  | findSlot
  | follow
  | reload
  deriving DecidableEq

/-- `acquire_page_wait_async` and `acquire_page_try_wait_async`. -/
inductive WaitAt
  | start
  | casPolling
  | poll
  | publish
  | releaseFlag
  | reload
  | recheck
  deriving DecidableEq

/-- `finalize_registered_ctx_completion`. -/
inductive FinalizeAt (R : Nat)
  | start
  | publish (c : Access R)
  | releaseFlag (c : Access R)
  deriving DecidableEq

/-- Where a thread stands; `x` is the context its call is given. -/
inductive At (R : Nat) (K : Type*)
  | idle
  | acquire (c : Access R) (k : AcquireAt)
  | submit (x : K) (c : Access R) (k : SubmitAt)
  | wait (x : K) (c : Access R) (blocking : Bool) (k : WaitAt)
  | finalize (x : K) (k : FinalizeAt R)
  | refresh (x : K)

/-- The pages, the contexts, the counters of the ranges and the threads.  `pending` is the
    access a submit has left in a context and no call has ended; no code reads it. -/
structure AccountSt (R : Nat) (A K : Type*) where
  pages : PageId R → Page
  ctxs : K → SCtx R
  accessCnt : Fin R → Nat
  hitCnt : Fin R → Nat
  missCnt : Fin R → Nat
  pc : A → At R K
  pending : K → Option (Access R)

/-- What a step meets outside: whether the translation of the slot is that of the page, or a
    completion is there; and the slot `find_slot` returns. -/
structure Env where
  found : Bool
  slot : Nat

variable {R : Nat} {A K : Type*} [DecidableEq A] [DecidableEq K]

namespace AccountSt

/-! ## Stores -/

def goto (s : AccountSt R A K) (a : A) (k : At R K) : AccountSt R A K :=
  { s with pc := update s.pc a k }

def setPage (s : AccountSt R A K) (p : PageId R) (d : Page) : AccountSt R A K :=
  { s with pages := update s.pages p d }

def setState (s : AccountSt R A K) (p : PageId R) (w : Word) : AccountSt R A K :=
  s.setPage p { s.pages p with state := w }

def setPolling (s : AccountSt R A K) (p : PageId R) (b : Bool) : AccountSt R A K :=
  s.setPage p { s.pages p with pollingFlag := b }

def setOffset (s : AccountSt R A K) (p : PageId R) (i : Nat) : AccountSt R A K :=
  s.setPage p { s.pages p with offset := i }

def setCtx (s : AccountSt R A K) (x : K) (c : SCtx R) : AccountSt R A K :=
  { s with ctxs := update s.ctxs x c }

/-- `access_cnt.fetch_add(count)`, and the same for the two others. -/
def countAccess (s : AccountSt R A K) (c : Access R) : AccountSt R A K :=
  { s with accessCnt := update s.accessCnt c.page.range (s.accessCnt c.page.range + c.count) }

def countHit (s : AccountSt R A K) (c : Access R) : AccountSt R A K :=
  { s with hitCnt := update s.hitCnt c.page.range (s.hitCnt c.page.range + c.count) }

def countMiss (s : AccountSt R A K) (c : Access R) : AccountSt R A K :=
  { s with missCnt := update s.missCnt c.page.range (s.missCnt c.page.range + c.count) }

/-- A call has ended what was pending in context `x`. -/
def ended (s : AccountSt R A K) (x : K) : AccountSt R A K :=
  { s with pending := update s.pending x none }

/-- A submit returns: what it stores in its context, and what it leaves pending. -/
def submitted (s : AccountSt R A K) (x : K) (c : Access R) (isHit : Bool) (pageTrans : Nat) :
    AccountSt R A K :=
  { s.setCtx x { page := some c.page, count := c.count, isHit, pageTrans } with
    pending := update s.pending x (if isHit then none else some c) }

/-! ## acquire_page -/

/-- `acquire_page` with the state it has read. -/
def acquireSeen (s : AccountSt R A K) (a : A) (c : Access R) (w : Word) : AccountSt R A K :=
  match w.st with
  | .nvNb => s.goto a (.acquire c .setBusy)
  | .vNb => (s.countHit c).goto a .idle
  | .nvB => s.goto a (.acquire c .reload)
  | .vB => s.goto a (.acquire c .reload)

def acquireStep (s : AccountSt R A K) (a : A) (c : Access R) (env : Env) :
    AcquireAt → AccountSt R A K
  | .fetchAdd =>
    let w := (s.pages c.page).state
    (s.setState c.page (w + BitVec.ofNat 32 c.count)).acquireSeen a c w
  | .setBusy =>
    let w := (s.pages c.page).state
    let s' := s.setState c.page (w ||| Word.BUSY)
    if w.isBusy then s'.goto a (.acquire c .reload) else s'.goto a (.acquire c .readData)
  | .readData =>
    let w := (s.pages c.page).state
    (((s.setOffset c.page env.slot).countMiss c).setState c.page
      (w ^^^ Word.disableBusyEnableValid)).goto a .idle
  | .reload => s.acquireSeen a c (s.pages c.page).state

/-! ## acquire_page_submit_async -/

/-- `acquire_page_submit_async` with the state it has read. -/
def submitSeen (s : AccountSt R A K) (a : A) (x : K) (c : Access R) (w : Word) :
    AccountSt R A K :=
  match w.st with
  | .nvNb => s.goto a (.submit x c .setBusy)
  | .vNb => ((s.countHit c).submitted x c true (s.pages c.page).offset).goto a .idle
  | .nvB => s.goto a (.submit x c .follow)
  | .vB => s.goto a (.submit x c .reload)

def submitStep (s : AccountSt R A K) (a : A) (x : K) (c : Access R) (env : Env) :
    SubmitAt → AccountSt R A K
  | .fetchAdd =>
    let w := (s.pages c.page).state
    (s.setState c.page (w + BitVec.ofNat 32 c.count)).submitSeen a x c w
  | .setBusy =>
    let w := (s.pages c.page).state
    let s' := s.setState c.page (w ||| Word.BUSY)
    if w.isBusy then s'.goto a (.submit x c .reload)
    else
      ((s'.setPolling c.page false).setOffset c.page asyncPageTransPending).goto a
        (.submit x c .findSlot)
  | .findSlot =>
    ((s.setOffset c.page env.slot).submitted x c false env.slot).goto a .idle
  | .follow =>
    let i := (s.pages c.page).offset
    if i = asyncPageTransPending ∨ env.found = false then s
    else (s.submitted x c false i).goto a .idle
  | .reload => s.submitSeen a x c (s.pages c.page).state

/-! ## acquire_page_wait_async and acquire_page_try_wait_async -/

/-- The waits with the state they have read; only the blocking one counts a hit. -/
def waitSeen (s : AccountSt R A K) (a : A) (x : K) (c : Access R) (blocking : Bool) (w : Word) :
    AccountSt R A K :=
  match w.st with
  | .vNb =>
    let s' := (s.setPolling c.page false).setCtx x
      { s.ctxs x with pageTrans := (s.pages c.page).offset }
    if blocking then ((s'.countHit c).ended x).goto a .idle else (s'.ended x).goto a .idle
  | .nvB =>
    (s.setCtx x { s.ctxs x with isHit := false }).goto a (.wait x c blocking .casPolling)
  | .nvNb => s.goto a (if blocking then .wait x c blocking .reload else .idle)
  | .vB => s.goto a (if blocking then .wait x c blocking .reload else .idle)

def waitStep (s : AccountSt R A K) (a : A) (x : K) (c : Access R) (blocking : Bool) (env : Env) :
    WaitAt → AccountSt R A K
  | .start =>
    if (s.ctxs x).isHit then s.goto a .idle
    else s.waitSeen a x c blocking (s.pages c.page).state
  | .casPolling =>
    if (s.pages c.page).pollingFlag then
      s.goto a (.wait x c blocking (if blocking then .reload else .recheck))
    else (s.setPolling c.page true).goto a (.wait x c blocking .poll)
  | .poll =>
    if env.found then
      (s.setOffset c.page (s.ctxs x).pageTrans).goto a (.wait x c blocking .publish)
    else if blocking then s
    else (s.setPolling c.page false).goto a .idle
  | .publish =>
    (((s.countMiss c).setState c.page
      ((s.pages c.page).state ^^^ Word.disableBusyEnableValid)).ended x).goto a
        (.wait x c blocking .releaseFlag)
  | .releaseFlag =>
    ((s.setPolling c.page false).setCtx x { s.ctxs x with isHit := true }).goto a .idle
  | .reload => s.waitSeen a x c blocking (s.pages c.page).state
  | .recheck =>
    if (s.pages c.page).state.st = .vNb then
      ((s.setCtx x { s.ctxs x with pageTrans := (s.pages c.page).offset }).ended x).goto a .idle
    else s.goto a .idle

/-! ## The registered contexts -/

/-- `finalize_registered_ctx_completion`. -/
def finalizeStep (s : AccountSt R A K) (a : A) (x : K) : FinalizeAt R → AccountSt R A K
  | .start =>
    match (s.ctxs x).isHit, (s.ctxs x).page with
    | false, some p =>
      match (s.pages p).state.st with
      | .vNb =>
        (((s.setCtx x { s.ctxs x with pageTrans := (s.pages p).offset, isHit := true }).setPolling
          p false).ended x).goto a .idle
      | .nvB =>
        (s.setOffset p (s.ctxs x).pageTrans).goto a (.finalize x (.publish ⟨p, (s.ctxs x).count⟩))
      | .nvNb => s.goto a .idle
      | .vB => s.goto a .idle
    | _, _ => s.goto a .idle
  | .publish c =>
    (((s.countMiss c).setState c.page
      ((s.pages c.page).state ^^^ Word.disableBusyEnableValid)).ended x).goto a
        (.finalize x (.releaseFlag c))
  | .releaseFlag c =>
    ((s.setPolling c.page false).setCtx x { s.ctxs x with isHit := true }).goto a .idle

/-- The page whose slot `refresh_registered_ctx_from_valid_page` takes, if it does. -/
def refreshes (nPages : Nat) (s : AccountSt R A K) (x : K) : Option (PageId R) :=
  match (s.ctxs x).isHit, (s.ctxs x).page with
  | false, some p =>
    if (s.pages p).state.st = .vNb ∧ ¬((s.pages p).offset = asyncPageTransPending ∨
      nPages ≤ (s.pages p).offset) then some p else none
  | _, _ => none

/-- `refresh_registered_ctx_from_valid_page`. -/
def refreshStep (nPages : Nat) (s : AccountSt R A K) (a : A) (x : K) : AccountSt R A K :=
  match s.refreshes nPages x with
  | some p =>
    (((s.setCtx x { s.ctxs x with pageTrans := (s.pages p).offset, isHit := true }).setPolling
      p false).ended x).goto a .idle
  | none => s.goto a .idle

/-! ## The machine -/

/-- What can happen next: a thread begins a call or makes a step of it, contexts are allocated,
    or something else changes a page. -/
inductive Act (R : Nat) (A K : Type*)
  | acquire (a : A) (c : Access R)
  | submit (a : A) (x : K) (c : Access R)
  | wait (a : A) (x : K) (c : Access R) (blocking : Bool)
  | finalize (a : A) (x : K)
  | refresh (a : A) (x : K)
  | run (a : A) (env : Env)
  | allocate (x : K)
  | other (p : PageId R) (d : Page)

def runStep (nPages : Nat) (s : AccountSt R A K) (a : A) (env : Env) :
    Option (AccountSt R A K) :=
  match s.pc a with
  | .idle => none
  | .acquire c k => some (s.acquireStep a c env k)
  | .submit x c k => some (s.submitStep a x c env k)
  | .wait x c blocking k => some (s.waitStep a x c blocking env k)
  | .finalize x k => some (s.finalizeStep a x k)
  | .refresh x => some (s.refreshStep nPages a x)

/-- A thread that is in no call begins one. -/
def begin (s : AccountSt R A K) (a : A) (k : At R K) : Option (AccountSt R A K) :=
  match s.pc a with
  | .idle => some (s.goto a k)
  | _ => none

/-- Both acquires count the access first. -/
def step [NeZero R] (nPages : Nat) (s : AccountSt R A K) : Act R A K → Option (AccountSt R A K)
  | .acquire a c => (s.countAccess c).begin a (.acquire c .fetchAdd)
  | .submit a x c => (s.countAccess c).begin a (.submit x c .fetchAdd)
  | .wait a x c blocking => s.begin a (.wait x c blocking .start)
  | .finalize a x => s.begin a (.finalize x .start)
  | .refresh a x => s.begin a (.refresh x)
  | .run a env => s.runStep nPages a env
  | .allocate x => some ((s.setCtx x .zeroed).ended x)
  | .other p d => some (s.setPage p d)

/-- The constructor of a range sets its counters to 0, and nothing has been submitted. -/
structure Init (s : AccountSt R A K) : Prop where
  accessCnt : ∀ r, s.accessCnt r = 0
  hitCnt : ∀ r, s.hitCnt r = 0
  missCnt : ∀ r, s.missCnt r = 0
  pc : ∀ a, s.pc a = .idle
  pending : ∀ x, s.pending x = none

/-! ## Accesses in progress -/

/-- What an access makes of the counters of range `r`. -/
def amount (o : Option (Access R)) (r : Fin R) : Nat :=
  match o with
  | some c => if c.page.range = r then c.count else 0
  | none => 0

end AccountSt

/-- The access that a thread's call has counted and not classified. -/
def At.counted : At R K → Option (Access R)
  | .acquire c _ => some c
  | .submit _ c _ => some c
  | _ => none

namespace AccountSt

variable [Fintype A] [Fintype K]

/-- The lanes whose access to range `r` is in progress: in a call, or left in a context. -/
def inProgress (s : AccountSt R A K) (r : Fin R) : Nat :=
  (∑ a, amount (s.pc a).counted r) + ∑ x, amount (s.pending x) r

/-- Every access counted is in progress or has been classified once. -/
def Accounted (s : AccountSt R A K) : Prop :=
  ∀ r, s.accessCnt r = s.hitCnt r + s.missCnt r + s.inProgress r

/-- No thread is in a call that has counted an access, and no submitted access is left. -/
def Quiet (s : AccountSt R A K) : Prop :=
  (∀ a, (s.pc a).counted = none) ∧ ∀ x, s.pending x = none

instance (s : AccountSt R A K) : Decidable s.Quiet :=
  inferInstanceAs (Decidable ((∀ _, _ = _) ∧ ∀ _, _ = _))

omit [DecidableEq A] [DecidableEq K] in
/-- Once no access is in progress, the counters of every range add up. -/
theorem Accounted.quiet {s : AccountSt R A K} (h : s.Accounted) (hq : s.Quiet) (r : Fin R) :
    s.accessCnt r = s.hitCnt r + s.missCnt r := by
  have hpc : ∑ a, amount (s.pc a).counted r = 0 :=
    Finset.sum_eq_zero fun a _ => by rw [hq.1 a]; rfl
  have hctx : ∑ x, amount (s.pending x) r = 0 :=
    Finset.sum_eq_zero fun x _ => by rw [hq.2 x]; rfl
  rw [h r, inProgress, hpc, hctx, Nat.add_zero]

/-! ## Steps that end an access -/

/-- What a blocking or non-blocking wait that reads `w` ends, and what it counts for it. -/
def waitEnds (x : K) (c : Access R) (blocking : Bool) (w : Word) : Option (K × Option (Access R)) :=
  if w.st = .vNb then some (x, if blocking then some c else none) else none

/-- The context whose pending access the next step of `a` ends, or overwrites, and the access
    that the step adds to `hit_cnt` or `miss_cnt` for it.  The blocking wait counts in both its
    cases, the others only where they publish the page themselves. -/
def ends (nPages : Nat) (s : AccountSt R A K) (a : A) (env : Env) :
    Option (K × Option (Access R)) :=
  match s.pc a with
  | .submit x c .fetchAdd => if (s.pages c.page).state.st = .vNb then some (x, none) else none
  | .submit x c .reload => if (s.pages c.page).state.st = .vNb then some (x, none) else none
  | .submit x _ .findSlot => some (x, none)
  | .submit x c .follow =>
    if (s.pages c.page).offset = asyncPageTransPending ∨ env.found = false then none
    else some (x, none)
  | .wait x c blocking .start =>
    if (s.ctxs x).isHit then none else waitEnds x c blocking (s.pages c.page).state
  | .wait x c blocking .reload => waitEnds x c blocking (s.pages c.page).state
  | .wait x c _ .publish => some (x, some c)
  | .wait x c _ .recheck => if (s.pages c.page).state.st = .vNb then some (x, none) else none
  | .finalize x .start =>
    match (s.ctxs x).isHit, (s.ctxs x).page with
    | false, some p => if (s.pages p).state.st = .vNb then some (x, none) else none
    | _, _ => none
  | .finalize x (.publish c) => some (x, some c)
  | .refresh x => (s.refreshes nPages x).map fun _ => (x, none)
  | _ => none

/-- A context's pending access ends with the counts it was counted with. -/
def Settles (s : AccountSt R A K) (x : K) (o : Option (Access R)) : Prop :=
  ∀ r, amount o r = amount (s.pending x) r

instance (s : AccountSt R A K) (x : K) (o : Option (Access R)) : Decidable (s.Settles x o) :=
  inferInstanceAs (Decidable (∀ _, _ = _))

/-- A step ends a context's access with what was counted for it. -/
def SettlesEnd (s : AccountSt R A K) : Option (K × Option (Access R)) → Prop
  | some (x, o) => s.Settles x o
  | none => True

instance (s : AccountSt R A K) : (e : Option (K × Option (Access R))) → Decidable (s.SettlesEnd e)
  | some (x, o) => inferInstanceAs (Decidable (s.Settles x o))
  | none => inferInstanceAs (Decidable True)

/-- What the accounting rests on: a wait that counts is made for a context whose access is
    pending, with its range and count; the calls that do not count find nothing pending when
    they find the page valid; and no context is submitted into or allocated over while an
    access is pending in it. -/
def Act.Ok (nPages : Nat) (s : AccountSt R A K) : Act R A K → Prop
  | .run a env => s.SettlesEnd (s.ends nPages a env)
  | .allocate x => s.Settles x none
  | _ => True

instance (nPages : Nat) (s : AccountSt R A K) : (act : Act R A K) → Decidable (act.Ok nPages s)
  | .run a env => inferInstanceAs (Decidable (s.SettlesEnd (s.ends nPages a env)))
  | .allocate x => inferInstanceAs (Decidable (s.Settles x none))
  | .acquire _ _ => inferInstanceAs (Decidable True)
  | .submit _ _ _ => inferInstanceAs (Decidable True)
  | .wait _ _ _ _ => inferInstanceAs (Decidable True)
  | .finalize _ _ => inferInstanceAs (Decidable True)
  | .refresh _ _ => inferInstanceAs (Decidable True)
  | .other _ _ => inferInstanceAs (Decidable True)

/-! ## What one step does to the books -/

/-- A step of `a` that classifies `now` of what its call has counted and leaves `left` of it in
    a context, and ends the access of a context as `e` says. -/
structure Booked (s : AccountSt R A K) (a : A) (e : Option (K × Option (Access R)))
    (now left : Option (Access R)) (t : AccountSt R A K) : Prop where
  access : t.accessCnt = s.accessCnt
  others : ∀ b, b ≠ a → t.pc b = s.pc b
  classified : ∀ r, t.hitCnt r + t.missCnt r =
    s.hitCnt r + s.missCnt r + amount now r + amount (e.bind (·.2)) r
  own : ∀ r, amount (s.pc a).counted r =
    amount (t.pc a).counted r + amount now r + amount left r
  pending : match e with
    | some (x, _) => t.pending = update s.pending x left
    | none => t.pending = s.pending ∧ left = none

omit [DecidableEq A] [DecidableEq K] [Fintype A] [Fintype K] in
@[simp] theorem amount_none (r : Fin R) : amount none r = 0 := rfl

omit [DecidableEq A] [DecidableEq K] [Fintype A] [Fintype K] in
theorem count_update (f : Fin R → Nat) (c : Access R) (r : Fin R) :
    update f c.page.range (f c.page.range + c.count) r = f r + amount (some c) r := by
  rw [amount, Function.update_apply]
  by_cases h : r = c.page.range
  · rw [if_pos h, if_pos h.symm, h]
  · rw [if_neg h, if_neg fun e => h e.symm, Nat.add_zero]

theorem countHit_sum {R : Nat} {A K : Type*} (s : AccountSt R A K) (c : Access R) (r : Fin R) :
    (s.countHit c).hitCnt r + (s.countHit c).missCnt r =
      s.hitCnt r + s.missCnt r + amount (some c) r := by
  have h := count_update s.hitCnt c r
  show update s.hitCnt c.page.range (s.hitCnt c.page.range + c.count) r + s.missCnt r = _
  omega

theorem countMiss_sum {R : Nat} {A K : Type*} (s : AccountSt R A K) (c : Access R) (r : Fin R) :
    (s.countMiss c).hitCnt r + (s.countMiss c).missCnt r =
      s.hitCnt r + s.missCnt r + amount (some c) r := by
  have h := count_update s.missCnt c r
  show s.hitCnt r + update s.missCnt c.page.range (s.missCnt c.page.range + c.count) r = _
  omega

section Steps

variable {R : Nat} {A K : Type*} {s : AccountSt R A K} {a : A}

theorem goto_pc_ne [DecidableEq A] {b : A} (h : b ≠ a) (k : At R K) : (s.goto a k).pc b = s.pc b :=
  Function.update_of_ne h ..

theorem goto_pc_self [DecidableEq A] (k : At R K) : (s.goto a k).pc a = k := Function.update_self ..

variable {pages : PageId R → Page} {ctxs : K → SCtx R} {k : At R K} {x : K} {c : Access R}

/-- A step that counts nothing. -/
theorem booked_goto [DecidableEq A] [DecidableEq K] (hk : k.counted = (s.pc a).counted) :
    Booked s a none none none ({ s with pages, ctxs }.goto a k) where
  access := rfl
  others _ hb := goto_pc_ne hb k
  classified _ := rfl
  own r := by rw [goto_pc_self, hk]; rfl
  pending := ⟨rfl, rfl⟩

/-- A thread that stays where it is. -/
theorem booked_stay [DecidableEq K] : Booked s a none none none s where
  access := rfl
  others _ _ := rfl
  classified _ := rfl
  own _ := rfl
  pending := ⟨rfl, rfl⟩

/-- `acquire_page` returns with a hit. -/
theorem booked_hit [DecidableEq A] [DecidableEq K] (hc : (s.pc a).counted = some c) :
    Booked s a none (some c) none (({ s with pages, ctxs }.countHit c).goto a .idle) where
  access := rfl
  others _ hb := goto_pc_ne hb _
  classified r := countHit_sum { s with pages, ctxs } c r
  own r := by
    rw [goto_pc_self, hc]
    show _ = 0 + _ + 0
    omega
  pending := ⟨rfl, rfl⟩

/-- `acquire_page` returns with a miss. -/
theorem booked_miss [DecidableEq A] [DecidableEq K]
    (hc : (s.pc a).counted = some c) {pages' : PageId R → Page} :
    Booked s a none (some c) none
      ({ { s with pages, ctxs }.countMiss c with pages := pages' }.goto a .idle) where
  access := rfl
  others _ hb := goto_pc_ne hb _
  classified r := countMiss_sum { s with pages, ctxs } c r
  own r := by
    rw [goto_pc_self, hc]
    show _ = 0 + _ + 0
    omega
  pending := ⟨rfl, rfl⟩

/-- A submit returns with a hit. -/
theorem booked_submit_hit [DecidableEq A] [DecidableEq K]
    (hc : (s.pc a).counted = some c) (i : Nat) :
    Booked s a (some (x, none)) (some c) none
      ((({ s with pages, ctxs }.countHit c).submitted x c true i).goto a .idle) where
  access := rfl
  others _ hb := goto_pc_ne hb _
  classified r := countHit_sum { s with pages, ctxs } c r
  own r := by
    rw [goto_pc_self, hc]
    show _ = 0 + _ + 0
    omega
  pending := rfl

/-- A submit returns and leaves its access in the context. -/
theorem booked_submit_miss [DecidableEq A] [DecidableEq K]
    (hc : (s.pc a).counted = some c) (i : Nat) :
    Booked s a (some (x, none)) none (some c)
      (({ s with pages, ctxs }.submitted x c false i).goto a .idle) where
  access := rfl
  others _ hb := goto_pc_ne hb _
  classified _ := rfl
  own r := by
    rw [goto_pc_self, hc]
    show _ = 0 + 0 + _
    omega
  pending := rfl

/-- A call ends the access of its context and counts nothing. -/
theorem booked_end [DecidableEq A] [DecidableEq K]
    (hc : (s.pc a).counted = none) (hk : k.counted = none) :
    Booked s a (some (x, none)) none none (({ s with pages, ctxs }.ended x).goto a k) where
  access := rfl
  others _ hb := goto_pc_ne hb _
  classified _ := rfl
  own r := by rw [goto_pc_self, hc, hk]; rfl
  pending := rfl

/-- A call ends the access of its context with a hit. -/
theorem booked_end_hit [DecidableEq A] [DecidableEq K]
    (hc : (s.pc a).counted = none) (hk : k.counted = none) :
    Booked s a (some (x, some c)) none none
      ((({ s with pages, ctxs }.countHit c).ended x).goto a k) where
  access := rfl
  others _ hb := goto_pc_ne hb _
  classified r := countHit_sum { s with pages, ctxs } c r
  own r := by rw [goto_pc_self, hc, hk]; rfl
  pending := rfl

/-- A call ends the access of its context with a miss. -/
theorem booked_end_miss [DecidableEq A] [DecidableEq K]
    (hc : (s.pc a).counted = none) (hk : k.counted = none) :
    Booked s a (some (x, some c)) none none
      (({ s.countMiss c with pages }.ended x).goto a k) where
  access := rfl
  others _ hb := goto_pc_ne hb _
  classified r := countMiss_sum s c r
  own r := by rw [goto_pc_self, hc, hk]; rfl
  pending := rfl

/-! ### The calls -/

theorem acquireSeen_booked [DecidableEq A] [DecidableEq K]
    (hc : (s.pc a).counted = some c) (w : Word) :
    ∃ now, Booked s a none now none ({ s with pages, ctxs }.acquireSeen a c w) := by
  rw [acquireSeen]
  cases w.st with
  | nvNb => exact ⟨none, booked_goto hc.symm⟩
  | vNb => exact ⟨some c, booked_hit hc⟩
  | nvB => exact ⟨none, booked_goto hc.symm⟩
  | vB => exact ⟨none, booked_goto hc.symm⟩

theorem acquireStep_booked [DecidableEq A] [DecidableEq K]
    {k : AcquireAt} (hpc : s.pc a = .acquire c k) (env : Env) :
    ∃ now, Booked s a none now none (s.acquireStep a c env k) := by
  have hc : (s.pc a).counted = some c := by rw [hpc]; rfl
  cases k with
  | fetchAdd => exact acquireSeen_booked hc _
  | setBusy =>
    rw [acquireStep]
    split
    · exact ⟨none, booked_goto hc.symm⟩
    · exact ⟨none, booked_goto hc.symm⟩
  | readData => exact ⟨some c, booked_miss hc⟩
  | reload => exact acquireSeen_booked hc _

/-- A submit that has read `w` returns if it has seen the page valid. -/
theorem submitSeen_booked [DecidableEq A] [DecidableEq K]
    (hc : (s.pc a).counted = some c) (w : Word) :
    ∃ now left, Booked s a (if w.st = .vNb then some (x, none) else none) now left
      ({ s with pages, ctxs }.submitSeen a x c w) := by
  rw [submitSeen]
  cases w.st with
  | nvNb => exact ⟨none, none, booked_goto hc.symm⟩
  | vNb => exact ⟨some c, none, booked_submit_hit hc _⟩
  | nvB => exact ⟨none, none, booked_goto hc.symm⟩
  | vB => exact ⟨none, none, booked_goto hc.symm⟩

theorem submitStep_booked [DecidableEq A] [DecidableEq K]
    {k : SubmitAt} (nPages : Nat) (hpc : s.pc a = .submit x c k)
    (env : Env) : ∃ now left, Booked s a (s.ends nPages a env) now left
      (s.submitStep a x c env k) := by
  have hc : (s.pc a).counted = some c := by rw [hpc]; rfl
  cases k with
  | fetchAdd =>
    rw [ends, hpc]
    exact submitSeen_booked hc _
  | setBusy =>
    rw [submitStep, ends, hpc]
    show ∃ now left, Booked s a none now left _
    split
    · exact ⟨none, none, booked_goto hc.symm⟩
    · exact ⟨none, none, booked_goto hc.symm⟩
  | findSlot =>
    rw [ends, hpc]
    exact ⟨none, some c, booked_submit_miss hc _⟩
  | follow =>
    rw [submitStep, ends, hpc]
    show ∃ now left, Booked s a (if _ ∨ _ then none else some (x, none)) now left _
    split
    · exact ⟨none, none, booked_stay⟩
    · exact ⟨none, some c, booked_submit_miss hc _⟩
  | reload =>
    rw [ends, hpc]
    exact submitSeen_booked hc _

/-- A wait that has read `w` ends the access if it has seen the page valid. -/
theorem waitSeen_booked [DecidableEq A] [DecidableEq K]
    (hc : (s.pc a).counted = none) (blocking : Bool) (w : Word) :
    Booked s a (waitEnds x c blocking w) none none (s.waitSeen a x c blocking w) := by
  rw [waitSeen, waitEnds]
  cases w.st with
  | nvNb =>
    show Booked s a none none none _
    cases blocking <;> exact booked_goto hc.symm
  | vNb =>
    cases blocking with
    | true => exact booked_end_hit hc rfl
    | false => exact booked_end hc rfl
  | nvB => exact booked_goto hc.symm
  | vB =>
    show Booked s a none none none _
    cases blocking <;> exact booked_goto hc.symm

theorem waitStep_booked [DecidableEq A] [DecidableEq K]
    {k : WaitAt} {blocking : Bool} (nPages : Nat)
    (hpc : s.pc a = .wait x c blocking k) (env : Env) :
    Booked s a (s.ends nPages a env) none none (s.waitStep a x c blocking env k) := by
  have hc : (s.pc a).counted = none := by rw [hpc]; rfl
  cases k with
  | start =>
    rw [waitStep, ends, hpc]
    show Booked s a (if _ then none else waitEnds x c blocking _) none none _
    split
    · exact booked_goto hc.symm
    · exact waitSeen_booked hc blocking _
  | casPolling =>
    rw [waitStep, ends, hpc]
    show Booked s a none none none _
    split
    · cases blocking <;> exact booked_goto hc.symm
    · exact booked_goto hc.symm
  | poll =>
    rw [waitStep, ends, hpc]
    show Booked s a none none none _
    split
    · exact booked_goto hc.symm
    · split
      · exact booked_stay
      · exact booked_goto hc.symm
  | publish =>
    rw [ends, hpc]
    exact booked_end_miss hc rfl
  | releaseFlag =>
    rw [ends, hpc]
    exact booked_goto hc.symm
  | reload =>
    rw [ends, hpc]
    exact waitSeen_booked hc blocking _
  | recheck =>
    rw [waitStep, ends, hpc]
    show Booked s a (if _ then some (x, none) else none) none none _
    split
    · exact booked_end hc rfl
    · exact booked_goto hc.symm

theorem finalizeStep_booked [DecidableEq A] [DecidableEq K]
    {k : FinalizeAt R} (nPages : Nat) (hpc : s.pc a = .finalize x k)
    (env : Env) : Booked s a (s.ends nPages a env) none none (s.finalizeStep a x k) := by
  have hc : (s.pc a).counted = none := by rw [hpc]; rfl
  cases k with
  | start =>
    rw [finalizeStep, ends, hpc]
    show Booked s a (match (s.ctxs x).isHit, (s.ctxs x).page with
      | false, some p => if (s.pages p).state.st = .vNb then some (x, none) else none
      | _, _ => none) none none _
    cases (s.ctxs x).isHit with
    | true => exact booked_goto hc.symm
    | false =>
      cases (s.ctxs x).page with
      | none => exact booked_goto hc.symm
      | some p =>
        show Booked s a (if (s.pages p).state.st = .vNb then some (x, none) else none) none none
          (match (s.pages p).state.st with
            | .vNb => _
            | .nvB => _
            | .nvNb => _
            | .vB => _)
        cases (s.pages p).state.st with
        | vNb => exact booked_end hc rfl
        | nvB => exact booked_goto hc.symm
        | nvNb => exact booked_goto hc.symm
        | vB => exact booked_goto hc.symm
  | publish c =>
    rw [ends, hpc]
    exact booked_end_miss hc rfl
  | releaseFlag c =>
    rw [ends, hpc]
    exact booked_goto hc.symm

theorem refreshStep_booked [DecidableEq A] [DecidableEq K]
    (nPages : Nat) (hpc : s.pc a = .refresh x) (env : Env) :
    Booked s a (s.ends nPages a env) none none (s.refreshStep nPages a x) := by
  have hc : (s.pc a).counted = none := by rw [hpc]; rfl
  rw [refreshStep, ends, hpc]
  show Booked s a ((s.refreshes nPages x).map fun _ => (x, none)) none none _
  cases s.refreshes nPages x with
  | none => exact booked_goto hc.symm
  | some p => exact booked_end hc rfl

theorem runStep_booked [DecidableEq A] [DecidableEq K]
    {nPages : Nat} {env : Env} {t : AccountSt R A K}
    (hs : s.runStep nPages a env = some t) :
    ∃ now left, Booked s a (s.ends nPages a env) now left t := by
  rw [runStep] at hs
  split at hs
  · cases hs
  · rename_i c k hpc
    cases hs
    obtain ⟨now, h⟩ := acquireStep_booked hpc env
    refine ⟨now, none, ?_⟩
    rw [ends, hpc]
    exact h
  · rename_i x c k hpc
    cases hs
    exact submitStep_booked nPages hpc env
  · rename_i x c blocking k hpc
    cases hs
    exact ⟨none, none, waitStep_booked nPages hpc env⟩
  · rename_i x k hpc
    cases hs
    exact ⟨none, none, finalizeStep_booked nPages hpc env⟩
  · rename_i x hpc
    cases hs
    exact ⟨none, none, refreshStep_booked nPages hpc env⟩

/-! ## When a step keeps the accounts -/

/-- What a step books adds up exactly if it settles the context whose access it ends. -/
theorem Booked.accounted_iff [DecidableEq A] [DecidableEq K] [Fintype A] [Fintype K]
    {e : Option (K × Option (Access R))} {now left : Option (Access R)}
    {t : AccountSt R A K} (h : Booked s a e now left t) (hs : s.Accounted) :
    t.Accounted ↔ s.SettlesEnd e := by
  have hpc : t.pc = update s.pc a (t.pc a) := by
    funext b
    by_cases hb : b = a
    · rw [hb, Function.update_self]
    · rw [Function.update_of_ne hb, h.others b hb]
  have hthreads (r : Fin R) : (∑ b, amount (t.pc b).counted r) + amount (s.pc a).counted r =
      (∑ b, amount (s.pc b).counted r) + amount (t.pc a).counted r := by
    have hsum := Lib.sum_update_swap s.pc a (t.pc a) fun k => amount k.counted r
    rwa [← hpc] at hsum
  have hpending := h.pending
  rcases e with - | ⟨x, o⟩
  · obtain ⟨hp, rfl⟩ := hpending
    refine ⟨fun _ => trivial, fun _ r => ?_⟩
    have h1 := hs r
    have h2 := h.classified r
    have h3 := h.own r
    have h4 := hthreads r
    rw [inProgress] at h1 ⊢
    rw [h.access, hp]
    simp only [Option.bind_none, amount_none] at h2 h3
    omega
  · have hctxs (r : Fin R) : (∑ y, amount (t.pending y) r) + amount (s.pending x) r =
        (∑ y, amount (s.pending y) r) + amount left r := by
      rw [show t.pending = update s.pending x left from hpending]
      exact Lib.sum_update_swap s.pending x left fun o => amount o r
    have hiff (r : Fin R) : t.accessCnt r = t.hitCnt r + t.missCnt r + t.inProgress r ↔
        amount o r = amount (s.pending x) r := by
      have h1 := hs r
      have h2 := h.classified r
      have h3 := h.own r
      have h4 := hthreads r
      have h5 := hctxs r
      rw [inProgress] at h1 ⊢
      rw [h.access]
      simp only [Option.bind_some] at h2
      omega
    exact forall_congr' hiff

end Steps

section Runs

variable [NeZero R] {nPages : Nat} {s t : AccountSt R A K}

/-- A thread that begins a call has in progress what the call has counted. -/
theorem begin_spec {R : Nat} {A K : Type*} [DecidableEq A] [Fintype A] [Fintype K]
    {s t : AccountSt R A K} {a : A} {k : At R K} (hs : s.begin a k = some t) :
    t = s.goto a k ∧ ∀ r, t.inProgress r = s.inProgress r + amount k.counted r := by
  rw [begin] at hs
  split at hs
  · rename_i hpc
    cases hs
    refine ⟨rfl, fun r => ?_⟩
    have hsum := Lib.sum_update_swap s.pc a k fun k => amount k.counted r
    rw [hpc, show amount (At.idle : At R K).counted r = 0 from rfl] at hsum
    show (∑ b, amount (update s.pc a k b).counted r) + ∑ x, amount (s.pending x) r = _
    rw [inProgress]
    omega
  · cases hs

/-- A call that counts an access begins with it in progress. -/
theorem begin_counted {R : Nat} {A K : Type*} [DecidableEq A] [Fintype A] [Fintype K]
    {s t : AccountSt R A K} {a : A} {k : At R K} {c : Access R} (hc : k.counted = some c)
    (hs : (s.countAccess c).begin a k = some t) (h : s.Accounted) : t.Accounted := by
  intro r
  obtain ⟨rfl, hprog⟩ := begin_spec hs
  have hr := h r
  have hcount := count_update s.accessCnt c r
  rw [hprog, hc]
  show update s.accessCnt c.page.range (s.accessCnt c.page.range + c.count) r =
    s.hitCnt r + s.missCnt r + (s.inProgress r + amount (some c) r)
  omega

/-- A call that counts nothing changes nothing in progress. -/
theorem begin_uncounted {R : Nat} {A K : Type*} [DecidableEq A] [Fintype A] [Fintype K]
    {s t : AccountSt R A K} {a : A} {k : At R K} (hc : k.counted = none)
    (hs : s.begin a k = some t) (h : s.Accounted) : t.Accounted := by
  intro r
  obtain ⟨rfl, hprog⟩ := begin_spec hs
  rw [hprog, hc]
  exact h r

/-- New contexts have nothing pending. -/
theorem allocate_accounted_iff {R : Nat} {A K : Type*} [DecidableEq K] [Fintype A] [Fintype K]
    [NeZero R] {s : AccountSt R A K} (h : s.Accounted) (x : K) :
    ((s.setCtx x .zeroed).ended x).Accounted ↔ s.Settles x none := by
  have hiff (r : Fin R) : s.accessCnt r = s.hitCnt r + s.missCnt r +
      ((∑ a, amount (s.pc a).counted r) + ∑ y, amount (update s.pending x none y) r) ↔
        amount none r = amount (s.pending x) r := by
    have hr := h r
    have hsum := Lib.sum_update_swap s.pending x none fun o => amount o r
    rw [inProgress] at hr
    simp only [amount_none] at hsum ⊢
    omega
  exact forall_congr' hiff

/-- A step keeps the accounts exactly if it is one they rest on. -/
theorem step_accounted_iff {act : Act R A K} (h : s.Accounted)
    (hs : s.step nPages act = some t) : t.Accounted ↔ act.Ok nPages s := by
  cases act with
  | acquire a c => exact ⟨fun _ => trivial, fun _ => begin_counted rfl hs h⟩
  | submit a x c => exact ⟨fun _ => trivial, fun _ => begin_counted rfl hs h⟩
  | wait a x c blocking => exact ⟨fun _ => trivial, fun _ => begin_uncounted rfl hs h⟩
  | finalize a x => exact ⟨fun _ => trivial, fun _ => begin_uncounted rfl hs h⟩
  | refresh a x => exact ⟨fun _ => trivial, fun _ => begin_uncounted rfl hs h⟩
  | run a env =>
    obtain ⟨now, left, hbook⟩ := runStep_booked hs
    exact hbook.accounted_iff h
  | allocate x =>
    cases hs
    exact allocate_accounted_iff h x
  | other p d =>
    cases hs
    exact ⟨fun _ => trivial, fun _ => h⟩

/-- An action that is not enabled ends no access. -/
theorem ok_of_none {R : Nat} {A K : Type*} [DecidableEq A] [DecidableEq K] [NeZero R] {nPages : Nat}
    {s : AccountSt R A K} {act : Act R A K} (hs : s.step nPages act = none) : act.Ok nPages s := by
  cases act with
  | run a env =>
    have hidle : s.pc a = .idle := by
      have hrun : s.runStep nPages a env = none := hs
      rw [runStep] at hrun
      split at hrun
      · assumption
      all_goals cases hrun
    rw [Act.Ok, ends, hidle]
    trivial
  | allocate x => cases hs
  | _ => trivial

omit [DecidableEq A] [DecidableEq K] [NeZero R] in
theorem Init.accounted (h : s.Init) : s.Accounted := by
  intro r
  have hpc : ∑ a, amount (s.pc a).counted r = 0 :=
    Finset.sum_eq_zero fun a _ => by rw [h.pc a]; rfl
  have hctx : ∑ x, amount (s.pending x) r = 0 :=
    Finset.sum_eq_zero fun x _ => by rw [h.pending x]; rfl
  rw [inProgress, hpc, hctx, h.accessCnt, h.hitCnt, h.missCnt]

/-- Whatever the calls and the order of their steps, in every state of a run every access
    counted is in progress or classified once, exactly if every step of the run is one this
    rests on. -/
theorem run_accounted_iff (nPages : Nat) (h : s.Init) (l : List (Act R A K)) :
    (∀ k t, Lib.runActs (step nPages) s (l.take k) = some t → t.Accounted) ↔
      Lib.runOk (step nPages) (fun s act => act.Ok nPages s) s l := by
  have hgood : ∀ s : AccountSt R A K, s.Accounted → s.Accounted := fun _ hs => hs
  apply Lib.runActs_good_iff hgood
  · exact fun s act _ hnone => ok_of_none hnone
  · exact fun s act t hs hstep hok => (step_accounted_iff hs hstep).mpr hok
  · exact fun s act t hs hstep hno hgood => hno ((step_accounted_iff hs hstep).mp hgood)
  · exact h.accounted

end Runs

/-! ### Two rows on one page -/

/-- Two threads and two contexts; no page is valid. -/
def twoRows : AccountSt 1 (Fin 2) (Fin 2) where
  pages _ := ⟨0, false, 0⟩
  ctxs _ := .zeroed
  accessCnt _ := 0
  hitCnt _ := 0
  missCnt _ := 0
  pc _ := .idle
  pending _ := none

theorem twoRows_init : twoRows.Init where
  accessCnt _ := rfl
  hitCnt _ := rfl
  missCnt _ := rfl
  pc _ := rfl
  pending _ := rfl

/-- The access of a row by one lane. -/
def rowAccess : Access 1 := ⟨⟨0, 0⟩, 1⟩

/-- What the outside answers: everything is there, and `find_slot` returns slot 3. -/
def slotThree : Env := ⟨true, 3⟩

/-- Both rows are submitted: the first sends the command, the second follows it. -/
def submitRows : List (Act 1 (Fin 2) (Fin 2)) :=
  .submit 0 0 rowAccess :: List.replicate 3 (.run 0 slotThree)
    ++ .submit 1 1 rowAccess :: List.replicate 2 (.run 1 slotThree)

/-- Both rows are polled by blocking waits. -/
def pollRows : List (Act 1 (Fin 2) (Fin 2)) :=
  submitRows ++ .wait 0 0 rowAccess true :: List.replicate 5 (.run 0 slotThree)
    ++ .wait 1 1 rowAccess true :: List.replicate 1 (.run 1 slotThree)

theorem pollRows_accounted :
    (Lib.runActs (step 8) twoRows pollRows).isSome ∧
    ∀ k t, Lib.runActs (step 8) twoRows (pollRows.take k) = some t → t.Accounted :=
  ⟨by decide +kernel, (run_accounted_iff 8 twoRows_init pollRows).mpr (by decide +kernel)⟩

/-- The first row is finalized by the completion, the second refreshed by the check. -/
def serviceRows : List (Act 1 (Fin 2) (Fin 2)) :=
  submitRows ++ .finalize 0 0 :: List.replicate 3 (.run 0 slotThree)
    ++ [.refresh 1 1, .run 1 slotThree]

/-- Both rows are ready, but the second one's access is neither a hit nor a miss. -/
theorem serviceRows_not_accounted :
    ¬ ∀ (l : List (Act 1 (Fin 2) (Fin 2))) (k : Nat) (t : AccountSt 1 (Fin 2) (Fin 2)),
      Lib.runActs (step 8) twoRows (l.take k) = some t → t.Quiet →
        ∀ r, t.accessCnt r = t.hitCnt r + t.missCnt r := by
  intro hall
  have hcnt := hall serviceRows 13 _ rfl (by decide +kernel) 0
  revert hcnt
  decide +kernel

end AccountSt

end GidsStack.PageCache.Accounting
