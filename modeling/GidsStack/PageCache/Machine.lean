/-
  GidsStack.PageCache.Machine

  The page cache as a machine of atomic steps (page_cache.h).  Every agent is a
  thread running one of the page operations, or a row context between its
  submit and its release; a thread that holds several references is several
  agents.  Each load, store and atomic operation of the source is one step;
  a blocking `read_data` or `write_data` is one step as well, and a queue pair
  is what `get_cid`, `sq_enqueue`, `cq_poll`/`cq_dequeue` and `put_cid` make of
  it: the identifiers in use, the commands in flight and the completions posted.

  Statistics counters and `observed_page_translation` are left out: nothing
  reads them.
-/

import GidsStack.PageCache.Layout
import Mathlib.Logic.Function.Basic

namespace GidsStack.PageCache

open Function (update)

/-! ## Shared memory -/

/-- `page_take_lock`: UNLOCKED, LOCKED or FREE. -/
inductive TakeLock
  | unlocked
  | locked
  | free
  deriving DecidableEq, Repr

/-- `data_page_t`. -/
structure DataPage where
  state : Word
  refCount : Word
  pollingFlag : Bool
  offset : Nat
  prefetchCount : BitVec 8
  prefetchCounter : BitVec 8
  deriving DecidableEq

/-- `cache_page_t`. -/
structure CachePage where
  pageTakeLock : TakeLock
  pageTranslation : Nat
  deriving DecidableEq

/-- A read command in a queue, and the completion made of it: the identifier, the
    page read and the slot it is read into.  `owner` and `serial` only tell
    commands apart; no queue carries them. -/
structure Cmd (R : Nat) (A : Type*) where
  cid : Nat
  page : PageId R
  slot : Nat
  owner : A
  serial : Nat
  deriving DecidableEq

/-- A queue pair. -/
structure QueuePair (R : Nat) (A : Type*) where
  cidLocked : Nat → Bool
  cidTicket : Nat
  sq : List (Cmd R A)
  cq : List (Cmd R A)

/-- The history of a page's last miss, which no code reads: its leader while the
    miss is open, whether the leader was an asynchronous submit, the slot
    `find_slot` assigned, the completions waiters consumed and the publications
    made for it, the command sent and the completion taken for it. -/
structure History (R : Nat) (A : Type*) where
  leader : Option A
  shared : Bool
  given : Option Nat
  consumed : Nat
  published : Nat
  sent : Option (Nat × Nat × Cmd R A)
  took : Option (Nat × Nat × Cmd R A)

/-! ## Where an agent stands -/

/-- An acquire: the page, the number of lanes that want it, whether one of them
    writes, and whether it comes from `bam_ptr::operator[]`, which marks a page
    dirty after acquiring it. -/
structure Call (R : Nat) where
  page : PageId R
  count : Nat
  write : Bool
  mark : Bool
  count_pos : 0 < count
  deriving DecidableEq

/-- The fields of `s_ctx` the page operations use.  `ctrl` is stored by
    `coalesce_page_submit_async`, which always stores 0. -/
structure Ctx where
  isHit : Bool
  hasPendingIo : Bool
  cid : Nat
  ctrl : Nat
  queue : Nat
  memberAcquireCtrl : Nat
  pageTrans : Nat
  deriving DecidableEq

/-- A context whose memory was cleared, with the queue its submit chose. -/
def Ctx.fresh (queue : Nat) : Ctx :=
  { isHit := false, hasPendingIo := false, cid := 0, ctrl := 0, queue := queue,
    memberAcquireCtrl := 0, pageTrans := 0 }

/-- The prefetch and window part both acquires begin with. -/
inductive ProloguePc
  | loadPrefetch
  | storePrefetch (w : BitVec 8)
  | loadWindow (pin : Bool)
  | storeWindow (w : BitVec 8)
  deriving DecidableEq

/-- The two overloads of `find_slot`: one tests the count in `state`, the other,
    used by the asynchronous submit, tests `ref_count`. -/
inductive FindVersion
  | state
  | refCount
  deriving DecidableEq

/-- `find_slot`, at slot `i`, whose page was `q`. -/
inductive FindPc (R : Nat)
  | ticket
  | loadLock (i : Nat)
  | casFree (i : Nat)
  | casUnlocked (i : Nat)
  | loadTrans (i : Nat)
  | loadState (i : Nat) (q : PageId R)
  | loadRefCount (i : Nat) (q : PageId R)
  | setBusy (i : Nat) (q : PageId R)
  | writeData (i : Nat) (q : PageId R)
  | clearState (i : Nat) (q : PageId R)
  | undoBusy (i : Nat) (q : PageId R)
  | unlockFail (i : Nat) (q : PageId R)
  | storeTrans (i : Nat)
  | unlockDone (i : Nat)
  deriving DecidableEq

/-- `acquire_page`. -/
inductive AcquirePc (R : Nat)
  | prologue (k : ProloguePc)
  | fetchAdd (pin : Bool)
  | setBusy
  | find (k : FindPc R)
  | chooseCtrl (i : Nat)
  | readData (i : Nat)
  | storeOffset (i : Nat)
  | setDirty (i : Nat)
  | publish (i : Nat)
  | markDirty
  | loadOffset
  | reload
  deriving DecidableEq

/-- `acquire_page_submit_async`. -/
inductive SubmitPc (R : Nat)
  | prologue (k : ProloguePc)
  | fetchAdd (pin : Bool)
  | addRefCount (pin : Bool) (w : Word)
  | setBusy
  | clearPolling
  | storePending
  | find (k : FindPc R)
  | storeOffset
  | chooseCtrl
  | getCid
  | lockCid (cid : Nat)
  | enqueue (cid : Nat)
  | markDirty
  | loadOffset
  | followOffset
  | followTrans (i : Nat)
  | followCtrl
  | reload
  deriving DecidableEq

/-- `acquire_page_wait_async` and `acquire_page_try_wait_async`. -/
inductive WaitPc
  | loadState
  | clearFlag (w : Word)
  | markDirty
  | loadOffset
  | casPolling
  | poll
  | putCid
  | storeOffset
  | setDirty
  | publish
  | releaseFlag
  | reload
  | dropFlag
  | recheck
  deriving DecidableEq

/-- `release_page(pg, count)`. -/
inductive ReleasePc
  | loadPrefetch
  | storePrefetch
  | subPrefetch
  | loadWindow (tc : Bool)
  | storeWindow
  | subWindow (tc : Bool)
  | subState (tc : Bool)
  | subRefCount (tc : Bool)
  deriving DecidableEq

/-- Where an agent stands; `holding` is a reference returned to the caller, and
    `release` gives back `m` of the `c.count` references it stands for. -/
inductive Pc (R : Nat)
  | idle
  | acquire (c : Call R) (k : AcquirePc R)
  | submit (c : Call R) (x : Ctx) (k : SubmitPc R)
  | submitted (c : Call R) (x : Ctx)
  | wait (c : Call R) (x : Ctx) (blocking : Bool) (k : WaitPc)
  | mark (c : Call R) (i : Nat)
  | holding (c : Call R) (i : Nat) (marked : Bool)
  | release (c : Call R) (i : Nat) (marked : Bool) (m : Nat) (hm : m ≤ c.count) (k : ReleasePc)
  deriving DecidableEq

/-- The state of the machine.  `written` is, for every page, what its elements
    were last set to; like `history`, no code reads it. -/
structure St (R : Nat) (A V : Type*) where
  pages : PageId R → DataPage
  cachePages : Nat → CachePage
  pageTicket : Word
  ctrlCounter : BitVec 64
  qps : Nat → Nat → QueuePair R A
  slotData : Nat → Nat → V
  ssd : PageId R → Nat → V
  pc : A → Pc R
  history : PageId R → History R A
  serial : Nat
  written : PageId R → Nat → V

variable {R : Nat} {A V : Type*} [DecidableEq A]

namespace St

/-! ## Stores -/

/-- The agent goes on at `k`. -/
def goto (s : St R A V) (a : A) (k : Pc R) : St R A V :=
  { s with pc := update s.pc a k }

def setPage (s : St R A V) (p : PageId R) (d : DataPage) : St R A V :=
  { s with pages := update s.pages p d }

def setState (s : St R A V) (p : PageId R) (w : Word) : St R A V :=
  s.setPage p { s.pages p with state := w }

def setRefCount (s : St R A V) (p : PageId R) (w : Word) : St R A V :=
  s.setPage p { s.pages p with refCount := w }

def setPolling (s : St R A V) (p : PageId R) (b : Bool) : St R A V :=
  s.setPage p { s.pages p with pollingFlag := b }

def setOffset (s : St R A V) (p : PageId R) (i : Nat) : St R A V :=
  s.setPage p { s.pages p with offset := i }

def setPrefetchCount (s : St R A V) (p : PageId R) (w : BitVec 8) : St R A V :=
  s.setPage p { s.pages p with prefetchCount := w }

def setPrefetchCounter (s : St R A V) (p : PageId R) (w : BitVec 8) : St R A V :=
  s.setPage p { s.pages p with prefetchCounter := w }

def setLock (s : St R A V) (i : Nat) (l : TakeLock) : St R A V :=
  { s with cachePages := update s.cachePages i { s.cachePages i with pageTakeLock := l } }

def setTrans (s : St R A V) (i : Nat) (g : Nat) : St R A V :=
  { s with cachePages := update s.cachePages i { s.cachePages i with pageTranslation := g } }

def setQp (s : St R A V) (ctrl queue : Nat) (q : QueuePair R A) : St R A V :=
  { s with qps := update s.qps ctrl (update (s.qps ctrl) queue q) }

def setHistory (s : St R A V) (p : PageId R) (h : History R A) : St R A V :=
  { s with history := update s.history p h }

/-! ## The history of a miss -/

/-- Agent `a` has set BUSY on the page. -/
def led (s : St R A V) (p : PageId R) (a : A) (shared : Bool) : St R A V :=
  s.setHistory p
    { leader := some a
      shared := shared
      given := none
      consumed := 0
      published := 0
      sent := none
      took := none }

/-- `find_slot` has returned slot `i` for the miss. -/
def assigned (s : St R A V) (p : PageId R) (i : Nat) : St R A V :=
  s.setHistory p { s.history p with given := some i }

/-- The state of the page has been toggled. -/
def published (s : St R A V) (p : PageId R) : St R A V :=
  s.setHistory p
    { s.history p with
      leader := none
      published := (s.history p).published + 1 }

/-- The leader has sent its command to a queue. -/
def sent (s : St R A V) (p : PageId R) (ctrl queue : Nat) (cmd : Cmd R A) : St R A V :=
  s.setHistory p { s.history p with sent := some (ctrl, queue, cmd) }

/-- A waiter of the page has consumed a completion. -/
def took (s : St R A V) (p : PageId R) (ctrl queue : Nat) (cmd : Cmd R A) : St R A V :=
  s.setHistory p
    { s.history p with
      consumed := (s.history p).consumed + 1
      took := some (ctrl, queue, cmd) }

end St

/-! ## The common prologue of the acquires -/

/-- `prefetch_count != 0 && (prefetch_count >> 7 == 0)`. -/
def prefetchPlanned (w : BitVec 8) : Bool := w != 0#8 && w >>> 7 == 0#8

/-- `window_count > 1 && (window_count >> 7 == 0)`. -/
def windowPlanned (w : BitVec 8) : Bool := decide (1 < w.toNat) && w >>> 7 == 0#8

/-- One step of the prologue of an acquire of page `p`, which stands at `emb k` and
    goes on at `ret pin` with `p_count = 1` when `pin`. -/
def prologueStep (s : St R A V) (a : A) (p : PageId R) (emb : ProloguePc → Pc R)
    (ret : Bool → Pc R) : ProloguePc → St R A V
  | .loadPrefetch =>
    let w := (s.pages p).prefetchCount
    if prefetchPlanned w then s.goto a (emb (.storePrefetch w))
    else s.goto a (emb (.loadWindow false))
  | .storePrefetch w =>
    (s.setPrefetchCount p (w ||| 0x80#8)).goto a (emb (.loadWindow true))
  | .loadWindow pin =>
    let w := (s.pages p).prefetchCounter
    if windowPlanned w then s.goto a (emb (.storeWindow w)) else s.goto a (ret pin)
  | .storeWindow w =>
    (s.setPrefetchCounter p (w ||| 0x80#8)).goto a (ret true)

/-! ## find_slot -/

/-- `find_slot` after it has loaded the count of page `q`, which decides whether it
    tries to evict it. -/
def findTest (s : St R A V) (a : A) (emb : FindPc R → Pc R) (i : Nat) (q : PageId R)
    (cnt : Nat) (busy : Bool) : St R A V :=
  if cnt = 0 ∧ busy = false then s.goto a (emb (.setBusy i q))
  else s.goto a (emb (.unlockFail i q))

/-- One step of `find_slot` for page `p`, which stands at `emb k` and goes on at
    `ret i` with the slot it found. -/
def findStep [NeZero R] (cfg : Config R) (ver : FindVersion) (s : St R A V) (a : A)
    (p : PageId R) (emb : FindPc R → Pc R) (ret : Nat → Pc R) : FindPc R → St R A V
  | .ticket =>
    { s with pageTicket := s.pageTicket + 1 }.goto a
      (emb (.loadLock (s.pageTicket.toNat % cfg.nPages)))
  | .loadLock i =>
    match (s.cachePages i).pageTakeLock with
    | .free => s.goto a (emb (.casFree i))
    | .unlocked => s.goto a (emb (.casUnlocked i))
    | .locked => s.goto a (emb .ticket)
  | .casFree i =>
    if (s.cachePages i).pageTakeLock = .free then
      (s.setLock i .locked).goto a (emb (.storeTrans i))
    else s.goto a (emb .ticket)
  | .casUnlocked i =>
    if (s.cachePages i).pageTakeLock = .unlocked then
      (s.setLock i .locked).goto a (emb (.loadTrans i))
    else s.goto a (emb .ticket)
  | .loadTrans i =>
    s.goto a (emb (.loadState i (pageOfAddress (s.cachePages i).pageTranslation)))
  | .loadState i q =>
    match ver with
    | .state => findTest s a emb i q (s.pages q).state.cnt (s.pages q).state.isBusy
    | .refCount => s.goto a (emb (.loadRefCount i q))
  | .loadRefCount i q =>
    findTest s a emb i q (s.pages q).refCount.toNat (s.pages q).refCount.isBusy
  | .setBusy i q =>
    let w := (s.pages q).state
    let s' := s.setState q (w ||| Word.BUSY)
    if w.isBusy then s'.goto a (emb (.unlockFail i q))
    else if w.cnt = 0 then
      if w.isDirty then s'.goto a (emb (.writeData i q)) else s'.goto a (emb (.clearState i q))
    else s'.goto a (emb (.undoBusy i q))
  | .writeData i q =>
    { s with ssd := update s.ssd q (s.slotData i) }.goto a (emb (.clearState i q))
  | .clearState i q =>
    (s.setState q ((s.pages q).state &&& Word.cntMask)).goto a (emb (.storeTrans i))
  | .undoBusy i q =>
    (s.setState q ((s.pages q).state &&& Word.disableBusyMask)).goto a (emb (.unlockFail i q))
  | .unlockFail i _ =>
    (s.setLock i .unlocked).goto a (emb .ticket)
  | .storeTrans i =>
    (s.setTrans i (getGlobalAddress p)).goto a (emb (.unlockDone i))
  | .unlockDone i =>
    ((s.setLock i .unlocked).assigned p i).goto a (ret i)

/-- A `compare_exchange_weak` of `find_slot` that fails although it need not. -/
def findSpurious (s : St R A V) (a : A) (emb : FindPc R → Pc R) : FindPc R → Option (St R A V)
  | .casFree _ => some (s.goto a (emb .ticket))
  | .casUnlocked _ => some (s.goto a (emb .ticket))
  | _ => none

/-! ## acquire_page -/

/-- Where `acquire_page` goes on with the state it has read. -/
def acquireDispatch (c : Call R) (w : Word) : AcquirePc R :=
  match w.st with
  | .nvNb => .setBusy
  | .vNb => if c.write && !w.isDirty then .markDirty else .loadOffset
  | .nvB => .reload
  | .vB => .reload

/-- `acquire_page` returns slot `i`. -/
def acquired (c : Call R) (i : Nat) : Pc R :=
  if c.mark then .mark c i else .holding c i false

/-- Choosing a controller for a replicated page. -/
def nextCtrl (cfg : Config R) (s : St R A V) : Nat := s.ctrlCounter.toNat % cfg.nCtrls

def acquireStep [NeZero R] (cfg : Config R) (s : St R A V) (a : A) (c : Call R) :
    AcquirePc R → St R A V
  | .prologue k =>
    prologueStep s a c.page (fun k => .acquire c (.prologue k))
      (fun pin => .acquire c (.fetchAdd pin)) k
  | .fetchAdd pin =>
    let w := (s.pages c.page).state
    let n := c.count + pin.toNat
    (s.setState c.page (w + BitVec.ofNat 32 n)).goto a (.acquire c (acquireDispatch c w))
  | .setBusy =>
    let w := (s.pages c.page).state
    let s' := s.setState c.page (w ||| Word.BUSY)
    if w.isBusy then s'.goto a (.acquire c .reload)
    else (s'.led c.page a false).goto a (.acquire c (.find .ticket))
  | .find k =>
    findStep cfg .state s a c.page (fun k => .acquire c (.find k))
      (fun i => .acquire c (.chooseCtrl i)) k
  | .chooseCtrl i =>
    match getBackingCtrl cfg c.page with
    | some _ => s.goto a (.acquire c (.readData i))
    | none =>
      { s with ctrlCounter := s.ctrlCounter + 1 }.goto a (.acquire c (.readData i))
  | .readData i =>
    { s with slotData := update s.slotData i (s.ssd c.page) }.goto a (.acquire c (.storeOffset i))
  | .storeOffset i =>
    (s.setOffset c.page i).goto a (.acquire c (if c.write then .setDirty i else .publish i))
  | .setDirty i =>
    (s.setState c.page ((s.pages c.page).state ||| Word.DIRTY)).goto a (.acquire c (.publish i))
  | .publish i =>
    ((s.setState c.page ((s.pages c.page).state ^^^ Word.disableBusyEnableValid)).published
      c.page).goto a (acquired c i)
  | .markDirty =>
    (s.setState c.page ((s.pages c.page).state ||| Word.DIRTY)).goto a (.acquire c .loadOffset)
  | .loadOffset => s.goto a (acquired c (s.pages c.page).offset)
  | .reload => s.goto a (.acquire c (acquireDispatch c (s.pages c.page).state))

/-! ## acquire_page_submit_async

    The source sets `ctx.isHit` where it enters a case of the switch; here the
    context gets it when the submit returns. -/

/-- Where `acquire_page_submit_async` goes on with the state it has read. -/
def submitDispatch (c : Call R) (w : Word) : SubmitPc R :=
  match w.st with
  | .nvNb => .setBusy
  | .vNb => if c.write && !w.isDirty then .markDirty else .loadOffset
  | .nvB => .followOffset
  | .vB => .reload

def submitStep [NeZero R] (cfg : Config R) (s : St R A V) (a : A) (c : Call R) (x : Ctx) :
    SubmitPc R → St R A V
  | .prologue k =>
    prologueStep s a c.page (fun k => .submit c x (.prologue k))
      (fun pin => .submit c x (.fetchAdd pin)) k
  | .fetchAdd pin =>
    let w := (s.pages c.page).state
    let n := c.count + pin.toNat
    (s.setState c.page (w + BitVec.ofNat 32 n)).goto a (.submit c x (.addRefCount pin w))
  | .addRefCount pin w =>
    let n := c.count + pin.toNat
    (s.setRefCount c.page ((s.pages c.page).refCount + BitVec.ofNat 32 n)).goto a
      (.submit c x (submitDispatch c w))
  | .setBusy =>
    let w := (s.pages c.page).state
    let s' := s.setState c.page (w ||| Word.BUSY)
    if w.isBusy then s'.goto a (.submit c x .reload)
    else (s'.led c.page a true).goto a (.submit c x .clearPolling)
  | .clearPolling => (s.setPolling c.page false).goto a (.submit c x .storePending)
  | .storePending =>
    (s.setOffset c.page asyncPageTransPending).goto a (.submit c x (.find .ticket))
  | .find k =>
    findStep cfg .refCount s a c.page (fun k => .submit c x (.find k))
      (fun i => .submit c { x with pageTrans := i } .storeOffset) k
  | .storeOffset => (s.setOffset c.page x.pageTrans).goto a (.submit c x .chooseCtrl)
  | .chooseCtrl =>
    match getBackingCtrl cfg c.page with
    | some ctrl => s.goto a (.submit c { x with memberAcquireCtrl := ctrl } .getCid)
    | none =>
      { s with ctrlCounter := s.ctrlCounter + 1 }.goto a
        (.submit c { x with memberAcquireCtrl := nextCtrl cfg s } .getCid)
  | .getCid =>
    let q := s.qps x.memberAcquireCtrl x.queue
    (s.setQp x.memberAcquireCtrl x.queue { q with cidTicket := q.cidTicket + 1 }).goto a
      (.submit c x (.lockCid (q.cidTicket % 65536)))
  | .lockCid cid =>
    let q := s.qps x.memberAcquireCtrl x.queue
    let s' := s.setQp x.memberAcquireCtrl x.queue
      { q with cidLocked := update q.cidLocked cid true }
    if q.cidLocked cid then s'.goto a (.submit c x .getCid)
    else s'.goto a (.submit c x (.enqueue cid))
  | .enqueue cid =>
    let q := s.qps x.memberAcquireCtrl x.queue
    let cmd : Cmd R A := ⟨cid, c.page, x.pageTrans, a, s.serial⟩
    ({ s with serial := s.serial + 1 }.setQp x.memberAcquireCtrl x.queue
      { q with sq := q.sq ++ [cmd] }).sent c.page x.memberAcquireCtrl x.queue cmd |>.goto a
        (.submitted c { x with isHit := false, cid := cid, hasPendingIo := true })
  | .markDirty =>
    (s.setState c.page ((s.pages c.page).state ||| Word.DIRTY)).goto a (.submit c x .loadOffset)
  | .loadOffset =>
    s.goto a (.submitted c { x with isHit := true, pageTrans := (s.pages c.page).offset })
  | .followOffset =>
    let i := (s.pages c.page).offset
    if i = asyncPageTransPending then s.goto a (.submit c x .followOffset)
    else s.goto a (.submit c x (.followTrans i))
  | .followTrans i =>
    if (s.cachePages i).pageTranslation ≠ getGlobalAddress c.page then
      s.goto a (.submit c x .followOffset)
    else s.goto a (.submit c { x with pageTrans := i } .followCtrl)
  | .followCtrl =>
    match getBackingCtrl cfg c.page with
    | some ctrl => s.goto a (.submitted c { x with isHit := false, memberAcquireCtrl := ctrl })
    | none =>
      { s with ctrlCounter := s.ctrlCounter + 1 }.goto a
        (.submitted c { x with isHit := false, memberAcquireCtrl := nextCtrl cfg s })
  | .reload => s.goto a (.submit c x (submitDispatch c (s.pages c.page).state))

/-! ## acquire_page_wait_async and acquire_page_try_wait_async

    Past their first test both run with `ctx.isHit` false. -/

/-- Where the waits go on with the state they have read; only the blocking one
    reads it again. -/
def waitDispatch (c : Call R) (x : Ctx) (blocking : Bool) (w : Word) : Pc R :=
  match w.st with
  | .vNb => .wait c x blocking (.clearFlag w)
  | .nvB => .wait c { x with isHit := false } blocking .casPolling
  | .nvNb =>
    if blocking then .wait c x blocking .reload else .submitted c { x with isHit := false }
  | .vB =>
    if blocking then .wait c x blocking .reload else .submitted c { x with isHit := false }

/-- `cq_poll` or `cq_try_poll` with `cq_dequeue`: the first posted completion with
    identifier `cid` and the completions that remain. -/
def takeCompletion (cid : Nat) : List (Cmd R A) → Option (Cmd R A × List (Cmd R A))
  | [] => none
  | cmd :: cs =>
    if cmd.cid = cid then some (cmd, cs)
    else (takeCompletion cid cs).map fun r => (r.1, cmd :: r.2)

def waitStep (s : St R A V) (a : A) (c : Call R) (x : Ctx) (blocking : Bool) :
    WaitPc → Option (St R A V)
  | .loadState =>
    if x.isHit then some (s.goto a (.holding c x.pageTrans false))
    else some (s.goto a (waitDispatch c x blocking (s.pages c.page).state))
  | .clearFlag w =>
    some ((s.setPolling c.page false).goto a
      (.wait c x blocking (if c.write && !w.isDirty then .markDirty else .loadOffset)))
  | .markDirty =>
    some ((s.setState c.page ((s.pages c.page).state ||| Word.DIRTY)).goto a
      (.wait c x blocking .loadOffset))
  | .loadOffset => some (s.goto a (.holding c (s.pages c.page).offset false))
  | .casPolling =>
    if (s.pages c.page).pollingFlag then
      some (s.goto a (.wait c x blocking (if blocking then .reload else .recheck)))
    else some ((s.setPolling c.page true).goto a (.wait c x blocking .poll))
  | .poll =>
    let q := s.qps x.memberAcquireCtrl x.queue
    match takeCompletion x.cid q.cq with
    | some (cmd, cq) =>
      some (((s.setQp x.memberAcquireCtrl x.queue { q with cq := cq }).took c.page
        x.memberAcquireCtrl x.queue cmd).goto a (.wait c x blocking .putCid))
    | none => if blocking then none else some (s.goto a (.wait c x blocking .dropFlag))
  | .putCid =>
    let q := s.qps x.memberAcquireCtrl x.queue
    some ((s.setQp x.memberAcquireCtrl x.queue
      { q with cidLocked := update q.cidLocked x.cid false }).goto a
        (.wait c { x with hasPendingIo := false } blocking .storeOffset))
  | .storeOffset =>
    some ((s.setOffset c.page x.pageTrans).goto a
      (.wait c x blocking (if c.write then .setDirty else .publish)))
  | .setDirty =>
    some ((s.setState c.page ((s.pages c.page).state ||| Word.DIRTY)).goto a
      (.wait c x blocking .publish))
  | .publish =>
    some (((s.setState c.page ((s.pages c.page).state ^^^ Word.disableBusyEnableValid)).published
      c.page).goto a (.wait c x blocking .releaseFlag))
  | .releaseFlag =>
    some ((s.setPolling c.page false).goto a (.holding c x.pageTrans false))
  | .reload => some (s.goto a (waitDispatch c x blocking (s.pages c.page).state))
  | .dropFlag =>
    some ((s.setPolling c.page false).goto a (.submitted c { x with isHit := false }))
  | .recheck =>
    if (s.pages c.page).state.st = .vNb then some (s.goto a (.wait c x blocking .loadOffset))
    else some (s.goto a (.submitted c { x with isHit := false }))

/-! ## release_page -/

/-- The caller has given back `m` of the references of `c`. -/
def released (c : Call R) (i : Nat) (marked : Bool) (m : Nat) : Pc R :=
  if h : m < c.count then
    .holding { c with count := c.count - m, count_pos := Nat.sub_pos_of_lt h } i marked
  else .idle

/-- The count of a prefetch or window byte, and its top bit. -/
def byteCount (w : BitVec 8) : Nat := (w &&& 0x7F#8).toNat

def byteStarted (w : BitVec 8) : Bool := w >>> 7 == 1#8

def releaseStep (s : St R A V) (a : A) (c : Call R) (i : Nat) (marked : Bool) (m : Nat)
    (hm : m ≤ c.count) : ReleasePc → St R A V
  | .loadPrefetch =>
    let w := (s.pages c.page).prefetchCount
    s.goto a (.release c i marked m hm (
      if 0 < byteCount w then
        (if byteCount w = 1 ∧ byteStarted w then .storePrefetch else .subPrefetch)
      else .loadWindow false))
  | .storePrefetch =>
    (s.setPrefetchCount c.page 0#8).goto a (.release c i marked m hm (.loadWindow true))
  | .subPrefetch =>
    (s.setPrefetchCount c.page ((s.pages c.page).prefetchCount - 1#8)).goto a
      (.release c i marked m hm (.loadWindow false))
  | .loadWindow tc =>
    let w := (s.pages c.page).prefetchCounter
    s.goto a (.release c i marked m hm (
      if 1 ≤ byteCount w then
        (if byteCount w = 1 ∧ byteStarted w then .storeWindow else .subWindow tc)
      else .subState tc))
  | .storeWindow =>
    (s.setPrefetchCounter c.page 0#8).goto a (.release c i marked m hm (.subState true))
  | .subWindow tc =>
    (s.setPrefetchCounter c.page ((s.pages c.page).prefetchCounter - 1#8)).goto a
      (.release c i marked m hm (.subState tc))
  | .subState tc =>
    let n := m + tc.toNat
    (s.setState c.page ((s.pages c.page).state - BitVec.ofNat 32 n)).goto a
      (.release c i marked m hm (.subRefCount tc))
  | .subRefCount tc =>
    let n := m + tc.toNat
    (s.setRefCount c.page ((s.pages c.page).refCount - BitVec.ofNat 32 n)).goto a
      (released c i marked m)

/-! ## The machine -/

/-- What can happen next: an agent starts an operation, makes a step of the one it
    is in, or stores an element through its pointer; a controller completes a
    command; a kernel plans prefetches; the cache is cleared. -/
inductive Act (R : Nat) (A V : Type*)
  | acquire (a : A) (c : Call R)
  | submit (a : A) (c : Call R) (queue : Nat)
  | wait (a : A) (blocking : Bool)
  | release (a : A) (m : Nat)
  | run (a : A)
  | spurious (a : A)
  | post (ctrl queue n : Nat)
  | setPrefetch (p : PageId R) (w : BitVec 8)
  | setWindow (p : PageId R) (w : BitVec 8)
  | write (a : A) (e : Nat) (v : V)
  | clear

/-- The step an agent makes where it stands. -/
def runStep [NeZero R] (cfg : Config R) (s : St R A V) (a : A) : Option (St R A V) :=
  match s.pc a with
  | .acquire c k => some (acquireStep cfg s a c k)
  | .submit c x k => some (submitStep cfg s a c x k)
  | .wait c x blocking k => waitStep s a c x blocking k
  | .mark c i =>
    -- `page_` points into `pages` at the number of the slot
    let p : PageId R := ⟨c.page.range, i⟩
    some ((s.setState p ((s.pages p).state ||| Word.DIRTY)).goto a (.holding c i true))
  | .release c i marked m hm k => some (releaseStep s a c i marked m hm k)
  | .idle => none
  | .submitted _ _ => none
  | .holding _ _ _ => none

/-- The controller reads the page into the slot and posts the completion. -/
def postStep (s : St R A V) (ctrl queue n : Nat) : Option (St R A V) :=
  let q := s.qps ctrl queue
  match q.sq[n]? with
  | none => none
  | some cmd =>
    some ({ s with slotData := update s.slotData cmd.slot (s.ssd cmd.page) }.setQp ctrl queue
      { q with sq := q.sq.eraseIdx n, cq := q.cq ++ [cmd] })

/-- `clear_cache_safe`. -/
def clearCacheSafe (s : St R A V) : St R A V :=
  { s with cachePages := fun _ => ⟨.free, 0⟩, pageTicket := 0, ctrlCounter := 0 }

def step [NeZero R] (cfg : Config R) (s : St R A V) : Act R A V → Option (St R A V)
  | .acquire a c =>
    match s.pc a with
    | .idle => some (s.goto a (.acquire c (.prologue .loadPrefetch)))
    | _ => none
  | .submit a c queue =>
    match s.pc a with
    | .idle => some (s.goto a (.submit c (.fresh queue) (.prologue .loadPrefetch)))
    | _ => none
  | .wait a blocking =>
    match s.pc a with
    | .submitted c x => some (s.goto a (.wait c x blocking .loadState))
    | _ => none
  | .release a m =>
    match s.pc a with
    | .holding c i marked =>
      if h : 0 < m ∧ m ≤ c.count then
        some (s.goto a (.release c i marked m h.2 .loadPrefetch))
      else none
    | _ => none
  | .run a => runStep cfg s a
  | .spurious a =>
    match s.pc a with
    | .acquire c (.find k) => findSpurious s a (fun k => .acquire c (.find k)) k
    | .submit c x (.find k) => findSpurious s a (fun k => .submit c x (.find k)) k
    | _ => none
  | .post ctrl queue n => postStep s ctrl queue n
  | .setPrefetch p w => some (s.setPrefetchCount p w)
  | .setWindow p w => some (s.setPrefetchCounter p w)
  | .write a e v =>
    match s.pc a with
    | .holding c i _ =>
      some { s with
        slotData := update s.slotData i (update (s.slotData i) e v)
        written := update s.written c.page (update (s.written c.page) e v) }
    | _ => none
  | .clear => some (clearCacheSafe s)

/-- The constructors of the cache and its ranges leave every page INVALID with
    offset 0 and no prefetch planned, and every slot FREE; `ref_count`,
    `polling_flag` and `page_translation` are not initialised. -/
structure Init (s : St R A V) : Prop where
  state : ∀ p, (s.pages p).state = 0#32
  offset : ∀ p, (s.pages p).offset = 0
  prefetchCount : ∀ p, (s.pages p).prefetchCount = 0#8
  prefetchCounter : ∀ p, (s.pages p).prefetchCounter = 0#8
  lock : ∀ i, (s.cachePages i).pageTakeLock = .free
  queues : ∀ ctrl queue, (s.qps ctrl queue).sq = [] ∧ (s.qps ctrl queue).cq = [] ∧
    ∀ cid, (s.qps ctrl queue).cidLocked cid = false
  pc : ∀ a, s.pc a = .idle
  history : ∀ p, s.history p = ⟨none, false, none, 0, 0, none, none⟩
  written : s.written = s.ssd

end GidsStack.PageCache
