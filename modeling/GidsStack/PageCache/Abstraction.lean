/-
  GidsStack.PageCache.Abstraction

  What the protocol of `Lib.PinCache` sees of the machine.  The flags and counts
  are fields of the state words, the locks and tenants those of the slots, and
  what an agent is doing is read off where it stands.
-/

import GidsStack.PageCache.Machine
import GidsStack.Lib.PinCache.Counted

namespace GidsStack.PageCache

open Function (update)
open Lib (map_update)
open Lib.PinCache (SlotLock Stage Own Take Serve Waiting Poll Grip Ref Cache)

variable {R : Nat} {A V : Type*}

/-! ## Where an agent stands -/

def FindPc.own : FindPc R → Option (Own (PageId R) Nat)
  | .ticket | .loadLock _ | .casFree _ | .casUnlocked _ => none
  | .loadTrans i => some ⟨i, .probe⟩
  | .loadState i q | .loadRefCount i q | .setBusy i q | .writeData i q | .clearState i q
  | .undoBusy i q | .unlockFail i q => some ⟨i, .looked q⟩
  | .storeTrans i => some ⟨i, .fresh⟩
  | .unlockDone i => some ⟨i, .written⟩

def FindPc.taking : FindPc R → Option (Take (PageId R))
  | .writeData _ q | .clearState _ q => some ⟨q, true⟩
  | .undoBusy _ q => some ⟨q, false⟩
  | _ => none

/-- The grip of a context between its submit and its wait. -/
def ctxGrip (x : Ctx) : Grip Nat := if x.isHit then .fixed x.pageTrans else .named x.pageTrans

/-- What an agent that raises the count of a page may rely on by the state it read. -/
def seenGrip : Word.St → Grip Nat
  | .vNb => .pinned
  | .nvB => .joined
  | .nvNb | .vB => .raised

/-- What an acquire may rely on once it has raised the count. -/
def AcquirePc.grip : AcquirePc R → Option (Grip Nat)
  | .prologue _ | .fetchAdd _ => none
  | .markDirty | .loadOffset => some .pinned
  | _ => some .raised

def SubmitPc.grip (x : Ctx) : SubmitPc R → Option (Grip Nat)
  | .prologue _ | .fetchAdd _ => none
  | .addRefCount _ w => some (seenGrip w.st)
  | .setBusy | .reload => some .raised
  | .clearPolling | .storePending | .find _ | .followOffset => some .joined
  | .followTrans i => some (.aimed i)
  | .storeOffset | .chooseCtrl | .getCid | .lockCid _ | .enqueue _
  | .followCtrl => some (.named x.pageTrans)
  | .markDirty | .loadOffset => some .pinned

def WaitPc.grip (x : Ctx) : WaitPc → Grip Nat
  | .loadState => ctxGrip x
  | .clearFlag _ | .markDirty | .loadOffset => .pinned
  | .releaseFlag => .fixed x.pageTrans
  | _ => .named x.pageTrans

namespace Pc

def leading : Pc R → Option (PageId R × Bool)
  | .acquire c (.find _) => some (c.page, false)
  | .submit c _ .clearPolling | .submit c _ .storePending
  | .submit c _ (.find _) => some (c.page, true)
  | _ => none

def own : Pc R → Option (Own (PageId R) Nat)
  | .acquire _ (.find k) | .submit _ _ (.find k) => k.own
  | _ => none

def taking : Pc R → Option (Take (PageId R))
  | .acquire _ (.find k) | .submit _ _ (.find k) => k.taking
  | _ => none

def assigned : Pc R → Option (PageId R × Nat)
  | .submit c x .storeOffset => some (c.page, x.pageTrans)
  | _ => none

def serving : Pc R → Option (Serve (PageId R) Nat)
  | .acquire c (.chooseCtrl i) | .acquire c (.readData i)
  | .acquire c (.storeOffset i) => some ⟨c.page, i, false⟩
  | .acquire c (.setDirty i) | .acquire c (.publish i) => some ⟨c.page, i, true⟩
  | _ => none

def polling : Pc R → Option (Poll (PageId R) Nat)
  | .wait c x _ .poll => some ⟨c.page, x.pageTrans, .waits⟩
  | .wait c x _ .putCid | .wait c x _ .storeOffset => some ⟨c.page, x.pageTrans, .got⟩
  | .wait c x _ .setDirty | .wait c x _ .publish => some ⟨c.page, x.pageTrans, .stored⟩
  | _ => none

/-- The reference an agent holds, if it has raised the count of the page. -/
def ref : Pc R → Option (Ref (PageId R) Nat)
  | .idle => none
  | .acquire c k => k.grip.map (⟨c.page, c.count, ·⟩)
  | .submit c x k => (k.grip x).map (⟨c.page, c.count, ·⟩)
  | .submitted c x => some ⟨c.page, c.count, ctxGrip x⟩
  | .wait c x _ k => some ⟨c.page, c.count, k.grip x⟩
  | .mark c i | .holding c i _ => some ⟨c.page, c.count, .fixed i⟩
  | .release c i _ m _ (.subRefCount _) =>
    if m < c.count then some ⟨c.page, c.count - m, .fixed i⟩ else none
  | .release c i _ _ _ _ => some ⟨c.page, c.count, .fixed i⟩

end Pc

/-! ## The abstraction -/

def TakeLock.abs : TakeLock → SlotLock
  | .unlocked => .opened
  | .locked => .taken
  | .free => .free

/-- The page a translation is the global address of. -/
def tenantOf [NeZero R] (g : Nat) : Option (PageId R) :=
  if getGlobalAddress (pageOfAddress g : PageId R) = g then some (pageOfAddress g) else none

def abs [NeZero R] (s : St R A V) : Cache (PageId R) Nat A where
  valid p := (s.pages p).state.isValid
  busy p := (s.pages p).state.isBusy
  cnt p := (s.pages p).state.cnt
  offset p := (s.pages p).offset
  leader p := (s.history p).leader
  shared p := (s.history p).shared
  given p := (s.history p).given
  consumed p := (s.history p).consumed
  published p := (s.history p).published
  lock i := (s.cachePages i).pageTakeLock.abs
  tenant i := tenantOf (s.cachePages i).pageTranslation
  leading a := (s.pc a).leading
  own a := (s.pc a).own
  taking a := (s.pc a).taking
  assigned a := (s.pc a).assigned
  serving a := (s.pc a).serving
  polling a := (s.pc a).polling
  ref a := (s.pc a).ref

theorem tenantOf_getGlobalAddress [NeZero R] (hR : ∃ b, R = 2 ^ b) (p : PageId R) :
    tenantOf (getGlobalAddress p) = some p := by
  rw [tenantOf, pageOfAddress_getGlobalAddress hR, if_pos rfl]

theorem tenantOf_eq_some [NeZero R] {g : Nat} {p : PageId R} (h : tenantOf g = some p) :
    getGlobalAddress p = g := by
  rw [tenantOf] at h
  split at h
  · rename_i hg
    rw [← Option.some.inj h, hg]
  · cases h

theorem tenantOf_cases [NeZero R] (g : Nat) :
    (tenantOf g : Option (PageId R)) = none ∨ tenantOf g = some (pageOfAddress g : PageId R) := by
  rw [tenantOf]
  split
  · exact .inr rfl
  · exact .inl rfl

/-! ## Stores seen by the abstraction -/

section Stores

variable [NeZero R] (s : St R A V) (p : PageId R) (a : A)

theorem valid_eq : (s.pages p).state.isValid = (abs s).valid p := rfl

theorem busy_eq : (s.pages p).state.isBusy = (abs s).busy p := rfl

theorem cnt_eq : (s.pages p).state.cnt = (abs s).cnt p := rfl

theorem offset_eq : (s.pages p).offset = (abs s).offset p := rfl

/-- An agent going on somewhere else changes what it is doing. -/
theorem abs_goto [DecidableEq A] (k : Pc R) : abs (s.goto a k) =
    { abs s with
      leading := update (abs s).leading a k.leading
      own := update (abs s).own a k.own
      taking := update (abs s).taking a k.taking
      assigned := update (abs s).assigned a k.assigned
      serving := update (abs s).serving a k.serving
      polling := update (abs s).polling a k.polling
      ref := update (abs s).ref a k.ref } := by
  simp only [abs, St.goto, map_update]

theorem abs_setPage (d : DataPage) : abs (s.setPage p d) =
    { abs s with
      valid := update (abs s).valid p d.state.isValid
      busy := update (abs s).busy p d.state.isBusy
      cnt := update (abs s).cnt p d.state.cnt
      offset := update (abs s).offset p d.offset } := by
  have hv := map_update (fun d : DataPage => d.state.isValid) s.pages p d
  have hb := map_update (fun d : DataPage => d.state.isBusy) s.pages p d
  have hc := map_update (fun d : DataPage => d.state.cnt) s.pages p d
  have ho := map_update (fun d : DataPage => d.offset) s.pages p d
  simp only [abs, St.setPage, hv, hb, hc, ho]

theorem abs_setState (w : Word) : abs (s.setState p w) =
    { abs s with
      valid := update (abs s).valid p w.isValid
      busy := update (abs s).busy p w.isBusy
      cnt := update (abs s).cnt p w.cnt } := by
  rw [St.setState, abs_setPage, offset_eq, Function.update_eq_self]

theorem abs_setOffset (i : Nat) : abs (s.setOffset p i) =
    { abs s with offset := update (abs s).offset p i } := by
  rw [St.setOffset, abs_setPage]
  simp only [show (s.pages p).state.isValid = (abs s).valid p from rfl,
    show (s.pages p).state.isBusy = (abs s).busy p from rfl,
    cnt_eq, Function.update_eq_self]

/-- Stores to the other fields of a page are not seen. -/
theorem abs_setPage_same (d : DataPage) (hs : d.state = (s.pages p).state)
    (ho : d.offset = (s.pages p).offset) : abs (s.setPage p d) = abs s := by
  rw [abs_setPage, hs, ho]
  simp only [valid_eq, busy_eq, cnt_eq, offset_eq, Function.update_eq_self]

@[simp] theorem abs_setRefCount (w : Word) : abs (s.setRefCount p w) = abs s :=
  abs_setPage_same s p _ rfl rfl

@[simp] theorem abs_setPolling (b : Bool) : abs (s.setPolling p b) = abs s :=
  abs_setPage_same s p _ rfl rfl

@[simp] theorem abs_setPrefetchCount (w : BitVec 8) : abs (s.setPrefetchCount p w) = abs s :=
  abs_setPage_same s p _ rfl rfl

@[simp] theorem abs_setPrefetchCounter (w : BitVec 8) :
    abs (s.setPrefetchCounter p w) = abs s :=
  abs_setPage_same s p _ rfl rfl

theorem abs_or_DIRTY : abs (s.setState p ((s.pages p).state ||| Word.DIRTY)) = abs s := by
  rw [abs_setState]
  simp only [Word.isValid_or_DIRTY, Word.isBusy_or_DIRTY, Word.cnt_or_DIRTY,
    valid_eq, busy_eq, cnt_eq, Function.update_eq_self]

theorem abs_or_BUSY : abs (s.setState p ((s.pages p).state ||| Word.BUSY)) =
    { abs s with busy := update (abs s).busy p true } := by
  rw [abs_setState]
  simp only [Word.isValid_or_BUSY, Word.isBusy_or_BUSY, Word.cnt_or_BUSY,
    valid_eq, cnt_eq, Function.update_eq_self]

theorem abs_xor : abs (s.setState p ((s.pages p).state ^^^ Word.disableBusyEnableValid)) =
    { abs s with
      valid := update (abs s).valid p (!(abs s).valid p)
      busy := update (abs s).busy p (!(abs s).busy p) } := by
  rw [abs_setState]
  simp only [Word.isValid_xor, Word.isBusy_xor, Word.cnt_xor,
    valid_eq, busy_eq, cnt_eq, Function.update_eq_self]

theorem abs_and_cntMask : abs (s.setState p ((s.pages p).state &&& Word.cntMask)) =
    { abs s with
      valid := update (abs s).valid p false
      busy := update (abs s).busy p false } := by
  rw [abs_setState]
  simp only [Word.isValid_and_cntMask, Word.isBusy_and_cntMask, Word.cnt_and_cntMask,
    cnt_eq, Function.update_eq_self]

theorem abs_and_disableBusy : abs (s.setState p ((s.pages p).state &&& Word.disableBusyMask)) =
    { abs s with busy := update (abs s).busy p false } := by
  rw [abs_setState]
  simp only [Word.isValid_and_disableBusy, Word.isBusy_and_disableBusy, Word.cnt_and_disableBusy,
    valid_eq, cnt_eq, Function.update_eq_self]

theorem abs_add {n : Nat} (h : (s.pages p).state.cnt + n < Word.cntLimit) :
    abs (s.setState p ((s.pages p).state + BitVec.ofNat 32 n)) =
      { abs s with cnt := update (abs s).cnt p ((abs s).cnt p + n) } := by
  rw [abs_setState]
  simp only [Word.isValid_add h, Word.isBusy_add h, Word.cnt_add h,
    valid_eq, busy_eq, cnt_eq, Function.update_eq_self]

theorem abs_sub {n : Nat} (h : n ≤ (s.pages p).state.cnt) :
    abs (s.setState p ((s.pages p).state - BitVec.ofNat 32 n)) =
      { abs s with cnt := update (abs s).cnt p ((abs s).cnt p - n) } := by
  rw [abs_setState]
  simp only [Word.isValid_sub h, Word.isBusy_sub h, Word.cnt_sub h,
    valid_eq, busy_eq, cnt_eq, Function.update_eq_self]

theorem abs_setLock (i : Nat) (l : TakeLock) : abs (s.setLock i l) =
    { abs s with lock := update (abs s).lock i l.abs } := by
  have hl := map_update (fun c : CachePage => c.pageTakeLock.abs) s.cachePages i
    { s.cachePages i with pageTakeLock := l }
  have ht := map_update (fun c : CachePage => (tenantOf c.pageTranslation : Option (PageId R)))
    s.cachePages i { s.cachePages i with pageTakeLock := l }
  simp only [abs, St.setLock, hl, ht, Cache.mk.injEq, true_and, and_true]
  exact Function.update_eq_self i _

theorem abs_setTrans (i : Nat) (g : Nat) : abs (s.setTrans i g) =
    { abs s with tenant := update (abs s).tenant i (tenantOf g) } := by
  have hl := map_update (fun c : CachePage => c.pageTakeLock.abs) s.cachePages i
    { s.cachePages i with pageTranslation := g }
  have ht := map_update (fun c : CachePage => (tenantOf c.pageTranslation : Option (PageId R)))
    s.cachePages i { s.cachePages i with pageTranslation := g }
  simp only [abs, St.setTrans, hl, ht, Cache.mk.injEq, true_and, and_true]
  exact Function.update_eq_self i _

@[simp] theorem abs_setQp (ctrl queue : Nat) (q : QueuePair R A) :
    abs (s.setQp ctrl queue q) = abs s := rfl

end Stores

end GidsStack.PageCache
