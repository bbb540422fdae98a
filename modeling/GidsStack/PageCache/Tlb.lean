/-
  GidsStack.PageCache.Tlb

  `bam_ptr_tlb` (page_cache.h): pointers that share a table of `n` pinned pages, indexed by
  the page's global address.  A pointer that leaves its window gives back its use of an entry
  and takes one of the entry of the new page; an entry that holds another page is replaced once
  no pointer uses it.

  `acquire_page_` makes the entry's page pointer from the number of the slot, not of the page,
  and sets the window only of the lane for which it acquires the page.  So what a hit returns,
  and what a replaced or finished entry gives back, is that of the page whose number is the
  slot's.  The window itself knows neither `index_start` nor `page_start_offset`
  (Addressing/Ranges).

  The accesses come one after the other; of the lanes that access a page together the master
  comes first and the others join it.
-/

import GidsStack.Addressing.Ranges
import GidsStack.Lib.Transition

namespace GidsStack.PageCache.Tlb

open Function (update)
open Addressing (ArrayD RangeD wrap64 sub64)

/-! ## The state -/

/-- A table over an array, whose `k`-th range is number `rangeId k` of the cache. -/
structure TlbConfig (R : Nat) where
  array : ArrayD
  rangeId : Nat → Fin R
  pageSizeLog : Nat
  baseAddr : Nat
  n : Nat
  samePages : ∀ r ∈ array.ranges, r.pageSizeLog = pageSizeLog
  n_pos : 0 < n
  maxRange_pow : ∃ b, R = 2 ^ b

/-- The fields of `data_page_t` that matter here. -/
structure Page where
  state : Word
  offset : Nat

/-- `tlb_entry`: `count` is `state` without its lock bit, and `page` the range and the index
    into its pages that the page pointer has. -/
structure TlbEntry (R : Nat) where
  globalId : Nat
  count : Nat
  page : Option (PageId R)
  deriving DecidableEq

/-- `bam_ptr_tlb`; `range` is the number of the range in the array. -/
structure BamPtrTlb where
  range : Option Nat
  start : Nat
  stop : Nat
  gid : Nat
  addr : Option Nat
  deriving DecidableEq

def BamPtrTlb.new : BamPtrTlb := { range := none, start := 0, stop := 0, gid := 0, addr := none }

/-- `(i < start) || (i >= end)`. -/
def BamPtrTlb.outside (q : BamPtrTlb) (i : Nat) : Bool :=
  decide (i < q.start) || decide (q.stop ≤ i)

/-- What `get_page_gid` finds for an element: its range, with its number in the array, and its
    page. -/
structure Spot (R : Nat) where
  k : Nat
  range : RangeD
  page : PageId R

/-- The pages of the cache, the page in each slot, the table and the pointers.  `finished` are
    the entries that `fini` of the table has released; `got` is what the last step was, if it
    was an access: its index, and the address of the element it returned. -/
structure TlbSt (R : Nat) (P : Type*) where
  pages : PageId R → Page
  tenant : Nat → Option (PageId R)
  entries : Nat → TlbEntry R
  ptrs : P → BamPtrTlb
  closing : Bool
  finished : Nat → Bool
  got : Option (Nat × Nat)

variable {R : Nat} {P : Type*} [DecidableEq P]

/-- `gid`, the global address of a page. -/
def gid (pg : PageId R) : Nat := getGlobalAddress pg

namespace TlbConfig

variable (cfg : TlbConfig R)

def sizeofT : Nat := cfg.array.sizeofT

/-- `n_elems_per_page` of the ranges. -/
def nElemsPerPage : Nat := 2 ^ cfg.pageSizeLog / cfg.sizeofT

/-- `get_page_gid`; the pointer's range is null if `find_range` finds none. -/
def getPageGid (i : Nat) : Option (Spot R) :=
  (cfg.array.findRange i).bind fun k => cfg.array.ranges[k]?.map fun r =>
    { k, range := r, page := ⟨cfg.rangeId k, r.getPage cfg.sizeofT i⟩ }

/-- `gid % n`. -/
def ent (gid : Nat) : Nat := gid % cfg.n

/-- `get_cache_page_addr`, of any range of the cache. -/
def getCachePageAddr (pageTrans : Nat) : Nat :=
  wrap64 (cfg.baseAddr + wrap64 (pageTrans * 2 ^ cfg.pageSizeLog))

end TlbConfig

namespace TlbSt

/-! ## The page cache -/

def setPage (s : TlbSt R P) (pg : PageId R) (d : Page) : TlbSt R P :=
  { s with pages := update s.pages pg d }

def setState (s : TlbSt R P) (pg : PageId R) (w : Word) : TlbSt R P :=
  s.setPage pg { s.pages pg with state := w }

/-- `find_slot` may return the slot for page `pg`. -/
def Evictable (s : TlbSt R P) (pg : PageId R) (slot : Nat) : Prop :=
  ∀ q ∈ s.tenant slot, q ≠ pg ∧ (s.pages q).state.cnt = 0 ∧ (s.pages q).state.isBusy = false

instance (s : TlbSt R P) (pg : PageId R) (slot : Nat) : Decidable (s.Evictable pg slot) :=
  inferInstanceAs (Decidable (∀ _ ∈ s.tenant slot, _ ∧ _ ∧ _ = false))

/-- `find_slot` evicts the tenant of a slot. -/
def evict (s : TlbSt R P) (slot : Nat) : TlbSt R P :=
  match s.tenant slot with
  | some q => s.setState q ((s.pages q).state &&& Word.cntMask)
  | none => s

/-- A miss: page `pg` is read into the slot `find_slot` returns, and published. -/
def load (s : TlbSt R P) (pg : PageId R) (slot : Nat) : Option (TlbSt R P) :=
  if s.Evictable pg slot then
    let s' := s.evict slot
    some { s' with
      pages := update s'.pages pg
        { state := ((s'.pages pg).state ||| Word.BUSY) ^^^ Word.disableBusyEnableValid
          offset := slot }
      tenant := update s'.tenant slot (some pg) }
  else none

/-- `range_d_t::acquire_page` for one reference, which returns the slot; it does not return
    while another thread keeps the page busy. -/
def acquirePage (s : TlbSt R P) (pg : PageId R) (slot : Nat) : Option (TlbSt R P × Nat) :=
  let w := (s.pages pg).state
  let s' := s.setState pg (w + BitVec.ofNat 32 1)
  match w.st with
  | .vNb => some (s', (s.pages pg).offset)
  | .nvNb => (s'.load pg slot).map fun t => (t, slot)
  -- the spin on BUSY
  | .nvB => none
  | .vB => none

/-- `page->state.fetch_sub(1)`. -/
def releasePage (s : TlbSt R P) (x : PageId R) : TlbSt R P :=
  s.setState x ((s.pages x).state - BitVec.ofNat 32 1)

/-! ## The table and the pointers -/

def setEntry (s : TlbSt R P) (e : Nat) (entry : TlbEntry R) : TlbSt R P :=
  { s with entries := update s.entries e entry }

def setPtr (s : TlbSt R P) (p : P) (q : BamPtrTlb) : TlbSt R P :=
  { s with ptrs := update s.ptrs p q }

/-- `tlb_entry::release`. -/
def release (s : TlbSt R P) (e : Nat) : TlbSt R P :=
  match (s.entries e).page with
  | some x => s.releasePage x
  | none => s

/-- `tlb::acquire` past the hit: the entry's page is given back, the page acquired, and the
    slot's number made that of the entry's page. -/
def acquireMiss (cfg : TlbConfig R) (s : TlbSt R P) (pg : PageId R) (slot : Nat) :
    Option (TlbSt R P × Nat) :=
  let e := cfg.ent (gid pg)
  ((s.release e).acquirePage pg slot).map fun r =>
    (r.1.setEntry e
      { globalId := gid pg, count := (s.entries e).count + 1,
        page := some ⟨pg.range, r.2⟩ }, r.2)

/-- `fini` of a pointer. -/
def fini (cfg : TlbConfig R) (s : TlbSt R P) (p : P) : TlbSt R P :=
  match (s.ptrs p).addr with
  | some _ =>
    let e := cfg.ent (s.ptrs p).gid
    (s.setEntry e { s.entries e with count := (s.entries e).count - 1 }).setPtr p
      { s.ptrs p with addr := none }
  | none => s

/-- The pointer has a new page at `addr`, with the window it has been given. -/
def arrive (s : TlbSt R P) (p : P) (x : Spot R) (addr start stop : Nat) :
    TlbSt R P :=
  s.setPtr p { range := some x.k, start, stop, gid := gid x.page, addr := some addr }

/-- `update_page` of a pointer after its `fini`, for element `i`. -/
def updatePage (cfg : TlbConfig R) (s : TlbSt R P) (p : P) (x : Spot R) (i slot : Nat) :
    Option (TlbSt R P) :=
  let e := cfg.ent (gid x.page)
  let q := s.ptrs p
  match (s.entries e).page with
  | some y =>
    if (s.entries e).globalId = gid x.page then
      -- the hit: `start` and `end` are not assigned
      some ((s.setEntry e { s.entries e with count := (s.entries e).count + 1 }).arrive p x
        (cfg.getCachePageAddr (s.pages y).offset) q.start q.stop)
    else if (s.entries e).count = 0 then
      -- the replacement; with a pointer still at the entry the loop goes round
      (s.acquireMiss cfg x.page slot).map fun r =>
        r.1.arrive p x (cfg.getCachePageAddr r.2) (x.range.acquireStart cfg.sizeofT i)
          (x.range.acquireEnd cfg.sizeofT i)
    else none
  | none =>
    (s.acquireMiss cfg x.page slot).map fun r =>
      r.1.arrive p x (cfg.getCachePageAddr r.2) (x.range.acquireStart cfg.sizeofT i)
        (x.range.acquireEnd cfg.sizeofT i)

/-- `mark_page_dirty`, which the writing `operator[]` calls after `update_page`. -/
def markDirty (s : TlbSt R P) (write : Bool) (pg : PageId R) : TlbSt R P :=
  if write then s.setState pg ((s.pages pg).state ||| Word.DIRTY) else s

/-- `addr[i - start]`. -/
def element (cfg : TlbConfig R) (s : TlbSt R P) (p : P) (i : Nat) : Option (TlbSt R P) :=
  (s.ptrs p).addr.map fun addr =>
    { s with got := some (i, wrap64 (addr + wrap64 (sub64 i (s.ptrs p).start * cfg.sizeofT))) }

/-- `operator[]`; an element that `find_range` does not find is read through a null range. -/
def access (cfg : TlbConfig R) (s : TlbSt R P) (p : P) (i : Nat) (write : Bool) (slot : Nat) :
    Option (TlbSt R P) :=
  if (s.ptrs p).outside i then
    (cfg.getPageGid i).bind fun x => ((s.fini cfg p).updatePage cfg p x i slot).bind fun t =>
      (t.markDirty write x.page).element cfg p i
  else s.element cfg p i

/-- `operator[]` of a lane for whose group lane `m` has acquired the page. -/
def join (cfg : TlbConfig R) (s : TlbSt R P) (p m : P) (i : Nat) (write : Bool) :
    Option (TlbSt R P) :=
  (cfg.getPageGid i).bind fun x =>
    let s' := s.fini cfg p
    let e := cfg.ent (gid x.page)
    -- the ballot on the global address; the master's address is shuffled to the lane
    if (s.ptrs p).outside i = true ∧ (s'.ptrs m).gid = gid x.page then
      (s'.ptrs m).addr.bind fun addr =>
        (((s'.setEntry e { s'.entries e with count := (s'.entries e).count + 1 }).arrive p
          x addr (s'.ptrs p).start (s'.ptrs p).stop).markDirty write x.page).element cfg p i
    else none

/-! ## The machine -/

/-- What can happen next: an element is accessed, a pointer is finished or made, an entry is
    released by `fini` of the table, or another thread reads a page into the cache. -/
inductive Act (R : Nat) (P : Type*)
  | access (p : P) (i : Nat) (write : Bool) (slot : Nat)
  | join (p m : P) (i : Nat) (write : Bool)
  | fini (p : P)
  | new (p : P)
  | finish (e : Nat)
  | other (pg : PageId R) (slot : Nat)

/-- `fini` of the table releases entry `e`. -/
def finish (s : TlbSt R P) (e : Nat) : TlbSt R P :=
  { s.release e with closing := true, finished := update s.finished e true }

def step (cfg : TlbConfig R) (s : TlbSt R P) : Act R P → Option (TlbSt R P)
  | .access p i write slot => if s.closing = false then s.access cfg p i write slot else none
  | .join p m i write => if s.closing = false then s.join cfg p m i write else none
  | .fini p => some { s.fini cfg p with got := none }
  | .new p =>
    if (s.ptrs p).addr = none then some { s.setPtr p .new with got := none } else none
  | .finish e =>
    if e < cfg.n ∧ s.finished e = false then some { s.finish e with got := none } else none
  | .other pg slot =>
    match (s.pages pg).state.st with
    | .nvNb => (s.load pg slot).map fun t => { t with got := none }
    | _ => none

/-- A page whose state says that it is valid is in its slot; `init` has cleared the table. -/
structure Init (s : TlbSt R P) : Prop where
  resident : ∀ pg, (s.pages pg).state.isValid = true →
    s.tenant (s.pages pg).offset = some pg
  entries : ∀ e, s.entries e = ⟨0, 0, none⟩
  ptrs : ∀ p, s.ptrs p = .new
  closing : s.closing = false
  finished : ∀ e, s.finished e = false
  got : s.got = none

/-! ## What the pointers promise -/

/-- An entry of the table pins the page. -/
def pinned (cfg : TlbConfig R) (s : TlbSt R P) (pg : PageId R) : Bool :=
  let e := cfg.ent (gid pg)
  (s.entries e).page.isSome && decide ((s.entries e).globalId = gid pg) && !s.finished e

/-- The page is valid in a slot. -/
structure Resident (s : TlbSt R P) (pg : PageId R) (slot : Nat) : Prop where
  valid : (s.pages pg).state.isValid = true
  offset : (s.pages pg).offset = slot
  tenant : s.tenant slot = some pg

/-- An access has returned the element's bytes in the slot where its page is: the address that
    `seq_read` has.  The count of every page is what it was at the start and one more while an
    entry pins the page, and so again what it was when the table is finished. -/
structure Right (cfg : TlbConfig R) (s0 s : TlbSt R P) : Prop where
  addressed : ∀ i a, s.got = some (i, a) →
    ∃ x slot, cfg.getPageGid i = some x ∧ s.Resident x.page slot ∧
      a = x.range.seqReadAddr cfg.sizeofT (cfg.getCachePageAddr slot) i
  counts : ∀ pg, (s.pages pg).state.cnt = (s0.pages pg).state.cnt + (s.pinned cfg pg).toNat
  restored : (∀ e < cfg.n, s.finished e = true) →
    ∀ pg, (s.pages pg).state.cnt = (s0.pages pg).state.cnt

/-- The element's place in the window that its page is given is its subindex. -/
def AtSubindex (cfg : TlbConfig R) (x : Spot R) (i : Nat) : Prop :=
  wrap64 (sub64 i (x.range.acquireStart cfg.sizeofT i) * cfg.sizeofT) =
    x.range.getSubindex cfg.sizeofT i

instance (cfg : TlbConfig R) (x : Spot R) (i : Nat) : Decidable (AtSubindex cfg x i) :=
  inferInstanceAs (Decidable (_ = _))

/-- The window of the element's page has the element. -/
def InWindow (cfg : TlbConfig R) (x : Spot R) (i : Nat) : Prop :=
  x.range.acquireStart cfg.sizeofT i ≤ i ∧ i < x.range.acquireEnd cfg.sizeofT i

instance (cfg : TlbConfig R) (x : Spot R) (i : Nat) : Decidable (InWindow cfg x i) :=
  inferInstanceAs (Decidable (_ ∧ _))

/-- The entry of page `pg` holds it. -/
def Hits (cfg : TlbConfig R) (s : TlbSt R P) (pg : PageId R) : Prop :=
  (s.entries (cfg.ent (gid pg))).page.isSome = true ∧
    (s.entries (cfg.ent (gid pg))).globalId = gid pg

instance (cfg : TlbConfig R) (s : TlbSt R P) (pg : PageId R) : Decidable (s.Hits cfg pg) :=
  inferInstanceAs (Decidable (_ ∧ _))

/-- The page pointer of entry `e`, made from a slot number, is that of the entry's page. -/
def Owns (s : TlbSt R P) (e : Nat) : Prop :=
  ∀ x ∈ (s.entries e).page, gid x = (s.entries e).globalId

instance (s : TlbSt R P) (e : Nat) : Decidable (s.Owns e) :=
  inferInstanceAs (Decidable (∀ _ ∈ (s.entries e).page, _ = _))

/-- A hit finds, at the page whose number is that of the entry's slot, the offset of its own
    page, and has its window at that page already.  An entry that is replaced points to its own
    page, and the count of the page that is acquired has room. -/
def UpdateOk (cfg : TlbConfig R) (s : TlbSt R P) (p : P) (x : Spot R) (i : Nat) : Prop :=
  if s.Hits cfg x.page then
    (∀ y ∈ (s.entries (cfg.ent (gid x.page))).page,
      (s.pages y).offset = (s.pages x.page).offset) ∧
    (s.ptrs p).start = x.range.acquireStart cfg.sizeofT i
  else s.Owns (cfg.ent (gid x.page)) ∧ (s.pages x.page).state.cnt + 1 < Word.cntLimit

instance (cfg : TlbConfig R) (s : TlbSt R P) (p : P) (x : Spot R) (i : Nat) :
    Decidable (s.UpdateOk cfg p x i) :=
  inferInstanceAs (Decidable (if s.Hits cfg x.page then
    (∀ y ∈ (s.entries (cfg.ent (gid x.page))).page, (s.pages y).offset = _) ∧ _ = _
    else s.Owns _ ∧ _ < Word.cntLimit))

/-- What the promise rests on: that `find_range` finds the element, and the window of its page
    leads to its subindex; what it asks of a pointer that leaves its window; that the window in
    which a pointer stays is that of the element's page; that a lane that joins has the window
    already; and that a finished entry points to its own page. -/
def Act.Ok (cfg : TlbConfig R) (s : TlbSt R P) : Act R P → Prop
  | .access p i _ _ => ∃ x ∈ cfg.getPageGid i, AtSubindex cfg x i ∧
    if (s.ptrs p).outside i = true then s.UpdateOk cfg p x i
    else (s.ptrs p).range = some x.k ∧ InWindow cfg x i
  | .join p _ i _ => ∃ x ∈ cfg.getPageGid i, AtSubindex cfg x i ∧
    (s.ptrs p).start = x.range.acquireStart cfg.sizeofT i
  | .finish e => s.Owns e
  | _ => True

instance (cfg : TlbConfig R) (s : TlbSt R P) : ∀ a : Act R P, Decidable (a.Ok cfg s)
  | .access p i _ _ => inferInstanceAs (Decidable (∃ x ∈ cfg.getPageGid i, AtSubindex cfg x i ∧
      if (s.ptrs p).outside i = true then s.UpdateOk cfg p x i
      else (s.ptrs p).range = some x.k ∧ InWindow cfg x i))
  | .join _ _ i _ =>
    inferInstanceAs (Decidable (∃ x ∈ cfg.getPageGid i, AtSubindex cfg x i ∧ _ = _))
  | .finish _ => inferInstanceAs (Decidable (Owns _ _))
  | .fini _ => inferInstanceAs (Decidable True)
  | .new _ => inferInstanceAs (Decidable True)
  | .other _ _ => inferInstanceAs (Decidable True)

/-! ## The cache -/

/-- A valid page is in its slot. -/
def Coherent (s : TlbSt R P) : Prop :=
  ∀ pg, (s.pages pg).state.isValid = true → s.tenant (s.pages pg).offset = some pg

/-- The step is the cache's: the table and the pointers are as they were. -/
structure SameTable (s t : TlbSt R P) : Prop where
  entries : t.entries = s.entries
  ptrs : t.ptrs = s.ptrs
  closing : t.closing = s.closing
  finished : t.finished = s.finished

/-- The cache when the pages `f` are pinned: they are valid, and each has one reference more
    than at the start. -/
structure Cached (s0 s : TlbSt R P) (f : PageId R → Bool) : Prop where
  coherent : s.Coherent
  counts : ∀ pg, (s.pages pg).state.cnt = (s0.pages pg).state.cnt + (f pg).toNat
  valid : ∀ pg, f pg = true → (s.pages pg).state.isValid = true

/-- A pinned page stays in its slot. -/
def Keeps (s t : TlbSt R P) (f : PageId R → Bool) : Prop :=
  ∀ q, f q = true → (t.pages q).offset = (s.pages q).offset

theorem setState_pages {P : Type*} (s : TlbSt R P) (pg q : PageId R) (w : Word) :
    (s.setState pg w).pages q = if q = pg then { s.pages pg with state := w } else s.pages q := by
  show update s.pages pg _ q = _
  rw [Function.update_apply]

theorem setState_offset {P : Type*} (s : TlbSt R P) (pg q : PageId R) (w : Word) :
    ((s.setState pg w).pages q).offset = (s.pages q).offset := by
  rw [setState_pages]
  split
  · rename_i h
    rw [h]
  · rfl

theorem setState_same {P : Type*}
    (s : TlbSt R P) (pg : PageId R) (w : Word) : SameTable s (s.setState pg w) :=
  ⟨rfl, rfl, rfl, rfl⟩

variable {s0 s t : TlbSt R P} {f : PageId R → Bool} {pg : PageId R} {slot : Nat}

/-- A new state word that is as valid as the old one, with the count that the pins ask for. -/
theorem Cached.setState {P : Type*} {s0 s : TlbSt R P} {f : PageId R → Bool} {pg : PageId R}
    (h : Cached s0 s f) {w : Word} (b : Bool)
    (hvalid : w.isValid = (s.pages pg).state.isValid)
    (hcnt : w.cnt = (s0.pages pg).state.cnt + b.toNat)
    (hb : b = true → w.isValid = true) :
    Cached s0 (s.setState pg w) (update f pg b) := by
  refine ⟨fun q hq => ?_, fun q => ?_, fun q hq => ?_⟩
  · rw [setState_offset]
    apply h.coherent
    rw [setState_pages] at hq
    by_cases hpg : q = pg
    · subst hpg
      rw [if_pos rfl] at hq
      rw [← hvalid]
      exact hq
    · rw [if_neg hpg] at hq
      exact hq
  · rw [setState_pages]
    by_cases hpg : q = pg
    · subst hpg
      rw [if_pos rfl, Function.update_self]
      exact hcnt
    · rw [if_neg hpg, Function.update_of_ne hpg]
      exact h.counts q
  · rw [setState_pages]
    by_cases hpg : q = pg
    · subst hpg
      rw [Function.update_self] at hq
      rw [if_pos rfl]
      exact hb hq
    · rw [Function.update_of_ne hpg] at hq
      rw [if_neg hpg]
      exact h.valid q hq

theorem Cached.releasePage {P : Type*} {s0 s : TlbSt R P} {f : PageId R → Bool} {pg : PageId R}
    (h : Cached s0 s f) (hf : f pg = true) :
    Cached s0 (s.releasePage pg) (update f pg false) := by
  have hcnt := h.counts pg
  rw [hf, Bool.toNat_true] at hcnt
  have hpos : 1 ≤ (s.pages pg).state.cnt := by omega
  -- the pin is in the count, so the subtraction does not reach the flags
  refine h.setState false (Word.isValid_sub hpos) ?_ (fun hb => by cases hb)
  rw [Word.cnt_sub hpos, Bool.toNat_false]
  omega

theorem Cached.markDirty {P : Type*} {s0 s : TlbSt R P} {f : PageId R → Bool}
    (h : Cached s0 s f) (write : Bool) (pg : PageId R) :
    Cached s0 (s.markDirty write pg) f := by
  rw [TlbSt.markDirty]
  split
  · have hd := h.setState (w := (s.pages pg).state ||| Word.DIRTY) (f pg)
      (Word.isValid_or_DIRTY _) (by rw [Word.cnt_or_DIRTY, h.counts])
      (fun hb => by rw [Word.isValid_or_DIRTY, h.valid pg hb])
    rw [Function.update_eq_self] at hd
    exact hd
  · exact h

/-! ### A miss -/

theorem evict_same {P : Type*} (s : TlbSt R P) (slot : Nat) :
    SameTable s (s.evict slot) ∧ (s.evict slot).tenant = s.tenant := by
  rw [evict]
  split <;> exact ⟨⟨rfl, rfl, rfl, rfl⟩, rfl⟩

/-- The eviction takes the flags of the tenant and leaves all counts and all other pages. -/
theorem evict_pages {P : Type*} (s : TlbSt R P) (slot : Nat) (q : PageId R) :
    ((s.evict slot).pages q).state.cnt = (s.pages q).state.cnt ∧
      ((s.evict slot).pages q).offset = (s.pages q).offset ∧
      (s.tenant slot ≠ some q → (s.evict slot).pages q = s.pages q) ∧
      (s.tenant slot = some q → ((s.evict slot).pages q).state.isValid = false) := by
  rw [evict]
  split
  · rename_i r hr
    rw [setState_pages, hr]
    by_cases h : q = r
    · subst h
      rw [if_pos rfl]
      exact ⟨Word.cnt_and_cntMask _, rfl, fun h => absurd rfl h,
        fun _ => Word.isValid_and_cntMask _⟩
    · rw [if_neg h]
      exact ⟨rfl, rfl, fun _ => rfl, fun e => absurd (Option.some.inj e).symm h⟩
  · rename_i hr
    rw [hr]
    exact ⟨rfl, rfl, fun _ => rfl, fun e => by cases e⟩

/-- What the eviction for a page leaves of a page whose count is not zero. -/
theorem evict_keeps {P : Type*} {s : TlbSt R P} {pg : PageId R} {slot : Nat}
    (hev : s.Evictable pg slot) {q : PageId R} (hq : 0 < (s.pages q).state.cnt) :
    (s.evict slot).pages q = s.pages q := by
  apply (evict_pages s slot q).2.2.1
  intro h
  have hzero := (hev q h).2.1
  omega

/-- A page that is not valid has been read into the slot that `find_slot` has returned; no page
    in use has been evicted. -/
theorem load_spec {P : Type*} {s t : TlbSt R P} {pg : PageId R} {slot : Nat}
    (hinv : (s.pages pg).state.isValid = false) (ht : s.load pg slot = some t) :
    SameTable s t ∧ (s.Coherent → t.Coherent) ∧
      (∀ q, (t.pages q).state.cnt = (s.pages q).state.cnt) ∧
      ((t.pages pg).state.isValid = true ∧ (t.pages pg).offset = slot) ∧
      (∀ q, q ≠ pg → 0 < (s.pages q).state.cnt → t.pages q = s.pages q) := by
  rw [load] at ht
  split at ht
  · rename_i hev
    cases ht
    have hpage := evict_pages s slot
    -- the page is not the tenant that is evicted
    have hpg : (s.evict slot).pages pg = s.pages pg :=
      (hpage pg).2.2.1 fun h => (hev pg h).1 rfl
    have hsame := (evict_same s slot).1
    refine ⟨⟨hsame.entries, hsame.ptrs, hsame.closing, hsame.finished⟩, fun hco q hv => ?_,
      fun q => ?_, ⟨?_, ?_⟩, fun q hq hc => ?_⟩
    · show update (s.evict slot).tenant slot (some pg)
        (update (s.evict slot).pages pg _ q).offset = some q
      replace hv : (update (s.evict slot).pages pg _ q).state.isValid = true := hv
      by_cases hqpg : q = pg
      · subst hqpg
        rw [Function.update_self, Function.update_self]
      · rw [Function.update_of_ne hqpg] at hv ⊢
        have hq : s.tenant slot ≠ some q := by
          intro h
          rw [(hpage q).2.2.2 h] at hv
          cases hv
        rw [(hpage q).2.2.1 hq] at hv ⊢
        have hten := hco q hv
        rw [Function.update_of_ne, (evict_same s slot).2, hten]
        intro he
        rw [he] at hten
        exact hq hten
    · show (update (s.evict slot).pages pg _ q).state.cnt = _
      by_cases hqpg : q = pg
      · subst hqpg
        rw [Function.update_self, Word.cnt_xor, Word.cnt_or_BUSY, hpg]
      · rw [Function.update_of_ne hqpg, (hpage q).1]
    · show (update (s.evict slot).pages pg _ pg).state.isValid = true
      rw [Function.update_self, Word.isValid_xor, Word.isValid_or_BUSY, hpg, hinv]
      rfl
    · show (update (s.evict slot).pages pg _ pg).offset = slot
      rw [Function.update_self]
    · show update (s.evict slot).pages pg _ q = _
      rw [Function.update_of_ne hq, evict_keeps hev hc]
  · cases ht

/-- A page that nothing pins is read into the cache. -/
theorem Cached.load {P : Type*} {s0 s t : TlbSt R P} {f : PageId R → Bool} {pg : PageId R}
    {slot : Nat} (h : Cached s0 s f) (hinv : (s.pages pg).state.isValid = false)
    (ht : s.load pg slot = some t) : SameTable s t ∧ Cached s0 t f ∧ Keeps s t f := by
  obtain ⟨hsame, hco, hcnt, ⟨hv, -⟩, hkeep⟩ := load_spec hinv ht
  have hpin : ∀ q, f q = true → t.pages q = s.pages q := by
    intro q hq
    apply hkeep
    · rintro rfl
      rw [h.valid q hq] at hinv
      cases hinv
    · have hc := h.counts q
      rw [hq, Bool.toNat_true] at hc
      omega
  refine ⟨hsame, ⟨hco h.coherent, fun q => ?_, fun q hq => ?_⟩, fun q hq => ?_⟩
  · rw [hcnt]
    exact h.counts q
  · rw [hpin q hq]
    exact h.valid q hq
  · rw [hpin q hq]

/-- `acquire_page` pins a page that was not pinned, and returns its slot. -/
theorem Cached.acquirePage {P : Type*} {s0 s : TlbSt R P} {f : PageId R → Bool} {pg : PageId R}
    {slot : Nat} (h : Cached s0 s f) (hf : f pg = false)
    (hroom : (s.pages pg).state.cnt + 1 < Word.cntLimit) {r : TlbSt R P × Nat}
    (hr : s.acquirePage pg slot = some r) :
    SameTable s r.1 ∧ Cached s0 r.1 (update f pg true) ∧ Keeps s r.1 f ∧
      (r.1.pages pg).offset = r.2 := by
  have hc := h.counts pg
  rw [hf, Bool.toNat_false] at hc
  have hcnt := Word.cnt_add hroom
  rw [TlbSt.acquirePage] at hr
  split at hr
  · rename_i hst
    cases hr
    have hv := (Word.st_vNb hst).1
    refine ⟨setState_same s pg _, ?_, fun q _ => setState_offset s pg q _,
      setState_offset s pg pg _⟩
    refine h.setState true (Word.isValid_add hroom) ?_ (fun _ => by rw [Word.isValid_add hroom, hv])
    rw [hcnt, Bool.toNat_true]
    omega
  · rename_i hst
    obtain ⟨t, ht, rfl⟩ := Option.map_eq_some_iff.mp hr
    have hinv := (Word.st_nvNb hst).1
    have hsinv : ((s.setState pg ((s.pages pg).state + BitVec.ofNat 32 1)).pages pg).state.isValid =
        false := by
      rw [setState_pages, if_pos rfl]
      show Word.isValid (_ + _) = false
      rw [Word.isValid_add hroom, hinv]
    obtain ⟨hsame, hco, htcnt, ⟨hv, hoff⟩, hkeep⟩ := load_spec hsinv ht
    -- the pages that were pinned are in use, so the eviction has spared them
    have hpin : ∀ q, f q = true → t.pages q = s.pages q := by
      intro q hq
      have hqpg : q ≠ pg := by
        rintro rfl
        rw [hf] at hq
        cases hq
      have hsq : (s.setState pg ((s.pages pg).state + BitVec.ofNat 32 1)).pages q = s.pages q := by
        rw [setState_pages, if_neg hqpg]
      have hcq := h.counts q
      rw [hq, Bool.toNat_true] at hcq
      rw [hkeep q hqpg (by rw [hsq]; omega), hsq]
    refine ⟨⟨hsame.entries, hsame.ptrs, hsame.closing, hsame.finished⟩,
      ⟨hco fun q hq => ?_, fun q => ?_, fun q hq => ?_⟩, fun q hq => by rw [hpin q hq], hoff⟩
    · rw [setState_offset]
      apply h.coherent
      by_cases hqpg : q = pg
      · subst hqpg
        rw [hsinv] at hq
        cases hq
      · rw [setState_pages, if_neg hqpg] at hq
        exact hq
    · rw [htcnt, setState_pages]
      by_cases hqpg : q = pg
      · subst hqpg
        rw [if_pos rfl, Function.update_self, Bool.toNat_true]
        show Word.cnt (_ + _) = _
        rw [hcnt]
        omega
      · rw [if_neg hqpg, Function.update_of_ne hqpg]
        exact h.counts q
    · by_cases hqpg : q = pg
      · subst hqpg
        exact hv
      · rw [Function.update_of_ne hqpg] at hq
        rw [hpin q hq]
        exact h.valid q hq
  · cases hr
  · cases hr

/-! ## The table -/

section Table

variable {cfg : TlbConfig R} {p : P} {e : Nat}

theorem gid_injective (cfg : TlbConfig R) {pg q : PageId R} (h : gid pg = gid q) : pg = q := by
  have hR : NeZero R := ⟨fun h0 => absurd (cfg.rangeId 0).isLt (by omega)⟩
  exact getGlobalAddress_injective cfg.maxRange_pow h

/-- The spot of an element: the range is one of the array's, and the window that `acquire_page_`
    sets is the one of the page's elements, if an element of every range started a page. -/
structure Located (cfg : TlbConfig R) (x : Spot R) (i : Nat) : Prop where
  range : cfg.rangeId x.k = x.page.range
  index_lt : i < 18446744073709551616
  start : x.range.acquireStart cfg.sizeofT i = cfg.nElemsPerPage * x.page.index
  stop : x.range.acquireEnd cfg.sizeofT i ≤ cfg.nElemsPerPage * x.page.index + cfg.nElemsPerPage

theorem located {cfg : TlbConfig R} {i : Nat} {x : Spot R}
    (h : cfg.getPageGid i = some x) : Located cfg x i := by
  obtain ⟨k, hk, hx⟩ := Option.bind_eq_some_iff.mp h
  obtain ⟨r, hr, rfl⟩ := Option.map_eq_some_iff.mp hx
  have hsize : r.nElemsPerPage cfg.sizeofT = cfg.nElemsPerPage := by
    rw [RangeD.nElemsPerPage, RangeD.pageSize, cfg.samePages r (List.mem_of_getElem? hr),
      TlbConfig.nElemsPerPage]
  have hstart : r.acquireStart cfg.sizeofT i = cfg.nElemsPerPage * r.getPage cfg.sizeofT i := by
    rw [r.acquireStart_eq, hsize]
  refine ⟨rfl, Nat.lt_trans (ArrayD.findRange_eq_some hk hr) r.count_lt, hstart, ?_⟩
  show r.acquireEnd cfg.sizeofT i ≤ _
  -- `end` may wrap, which only makes the window smaller
  rw [RangeD.acquireEnd, hstart, hsize]
  exact Addressing.wrap64_le _

theorem pinned_iff {P : Type*} (cfg : TlbConfig R) (s : TlbSt R P) (pg : PageId R) :
    s.pinned cfg pg = true ↔
      (s.entries (cfg.ent (gid pg))).page.isSome = true ∧
        (s.entries (cfg.ent (gid pg))).globalId = gid pg ∧
        s.finished (cfg.ent (gid pg)) = false := by
  rw [pinned, Bool.and_eq_true, Bool.and_eq_true, decide_eq_true_eq, Bool.not_eq_true',
    and_assoc]

/-- The pins are those of the entries. -/
theorem pinned_congr {P : Type*} {s t : TlbSt R P} {cfg : TlbConfig R}
    (hent : ∀ e, (t.entries e).page = (s.entries e).page ∧
      (t.entries e).globalId = (s.entries e).globalId)
    (hfin : t.finished = s.finished) : t.pinned cfg = s.pinned cfg := by
  funext pg
  rw [pinned, pinned, (hent _).1, (hent _).2, hfin]

/-- 1 for a pointer that uses entry `e`. -/
def used (cfg : TlbConfig R) (e : Nat) (q : BamPtrTlb) : Nat :=
  if q.addr.isSome = true ∧ cfg.ent q.gid = e then 1 else 0

/-- What a pointer that has an address knows of its page. -/
structure Points (cfg : TlbConfig R) (s : TlbSt R P) (q : BamPtrTlb) (addr : Nat)
    (pg : PageId R) : Prop where
  gid : q.gid = gid pg
  pinned : s.pinned cfg pg = true
  addr : addr = cfg.getCachePageAddr (s.pages pg).offset
  start : q.start = cfg.nElemsPerPage * pg.index
  range : ∃ k, q.range = some k ∧ cfg.rangeId k = pg.range

variable [Fintype P]

/-- The invariant of a run whose steps keep the condition: the cache is that of the pins, each
    entry has its place and counts the pointers that use it, and each pointer that has an
    address has that of a page that is pinned. -/
structure Inv (cfg : TlbConfig R) (s0 s : TlbSt R P) : Prop where
  cache : Cached s0 s (s.pinned cfg)
  placed : ∀ e, (s.entries e).page.isSome = true → cfg.ent (s.entries e).globalId = e
  opened : s.closing = false → ∀ e, s.finished e = false
  window : ∀ p, (s.ptrs p).stop ≤ (s.ptrs p).start + cfg.nElemsPerPage
  points : s.closing = false → ∀ p a, (s.ptrs p).addr = some a →
    ∃ pg, Points cfg s (s.ptrs p) a pg
  uses : ∀ e, (s.entries e).count = ∑ p, used cfg e (s.ptrs p)

/-- A step of the cache that keeps the pinned pages in their slots. -/
theorem Inv.cacheStep {P : Type*} {s0 s t : TlbSt R P} {cfg : TlbConfig R} [Fintype P]
    (h : Inv cfg s0 s) (hsame : SameTable s t)
    (hc : Cached s0 t (s.pinned cfg)) (hkeep : Keeps s t (s.pinned cfg)) : Inv cfg s0 t := by
  have hpin : t.pinned cfg = s.pinned cfg :=
    pinned_congr (fun e => by rw [hsame.entries]; exact ⟨rfl, rfl⟩) hsame.finished
  refine ⟨by rw [hpin]; exact hc, ?_, ?_, ?_, ?_, ?_⟩
  · rw [hsame.entries]
    exact h.placed
  · rw [hsame.closing, hsame.finished]
    exact h.opened
  · rw [hsame.ptrs]
    exact h.window
  · rw [hsame.closing, hsame.ptrs]
    intro hcl p a ha
    obtain ⟨pg, hpt⟩ := h.points hcl p a ha
    refine ⟨pg, hpt.gid, by rw [hpin]; exact hpt.pinned, ?_, hpt.start, hpt.range⟩
    rw [hkeep pg hpt.pinned]
    exact hpt.addr
  · rw [hsame.entries, hsame.ptrs]
    exact h.uses

theorem Inv.markDirty {P : Type*} {s0 s : TlbSt R P} {cfg : TlbConfig R} [Fintype P]
    (h : Inv cfg s0 s) (write : Bool) (pg : PageId R) :
    Inv cfg s0 (s.markDirty write pg) := by
  refine h.cacheStep ?_ (h.cache.markDirty write pg) fun q _ => ?_
  · rw [TlbSt.markDirty]
    split <;> exact ⟨rfl, rfl, rfl, rfl⟩
  · rw [TlbSt.markDirty]
    split
    · exact setState_offset s pg q _
    · rfl

/-- What the last access returned is not part of the invariant. -/
theorem Inv.setGot {P : Type*} {s0 s : TlbSt R P} {cfg : TlbConfig R} [Fintype P]
    (h : Inv cfg s0 s) (g : Option (Nat × Nat)) : Inv cfg s0 { s with got := g } :=
  h.cacheStep ⟨rfl, rfl, rfl, rfl⟩ ⟨h.cache.coherent, h.cache.counts, h.cache.valid⟩
    fun _ _ => rfl

/-! ### The pointers -/

/-- Only the use of an entry changes, with that of one pointer. -/
theorem Inv.setUse (h : Inv cfg s0 s) (n : Nat) (q : BamPtrTlb)
    (hn : n + used cfg e (s.ptrs p) = (s.entries e).count + used cfg e q)
    (hother : ∀ e', e' ≠ e → used cfg e' (s.ptrs p) = used cfg e' q)
    (hwindow : q.stop ≤ q.start + cfg.nElemsPerPage)
    (hq : s.closing = false → ∀ a, q.addr = some a → ∃ pg, Points cfg s q a pg) :
    Inv cfg s0 ((s.setEntry e { s.entries e with count := n }).setPtr p q) := by
  have hent : ∀ e', (update s.entries e { s.entries e with count := n } e').page =
      (s.entries e').page ∧
      (update s.entries e { s.entries e with count := n } e').globalId =
      (s.entries e').globalId := by
    intro e'
    by_cases he : e' = e
    · subst he
      rw [Function.update_self]
      exact ⟨rfl, rfl⟩
    · rw [Function.update_of_ne he]
      exact ⟨rfl, rfl⟩
  have hpin : ((s.setEntry e { s.entries e with count := n }).setPtr p q).pinned cfg =
      s.pinned cfg := pinned_congr hent rfl
  refine ⟨?_, fun e' => ?_, h.opened, fun p' => ?_, fun hcl p' a ha => ?_, fun e' => ?_⟩
  · rw [hpin]
    exact ⟨h.cache.coherent, h.cache.counts, h.cache.valid⟩
  · show (update s.entries e _ e').page.isSome = true →
      cfg.ent (update s.entries e _ e').globalId = e'
    rw [(hent e').1, (hent e').2]
    exact h.placed e'
  · show (update s.ptrs p q p').stop ≤ (update s.ptrs p q p').start + cfg.nElemsPerPage
    by_cases hp : p' = p
    · subst hp
      rw [Function.update_self]
      exact hwindow
    · rw [Function.update_of_ne hp]
      exact h.window p'
  · have hpts : ∃ pg, Points cfg s (update s.ptrs p q p') a pg := by
      replace ha : (update s.ptrs p q p').addr = some a := ha
      by_cases hp : p' = p
      · subst hp
        rw [Function.update_self] at ha ⊢
        exact hq hcl a ha
      · rw [Function.update_of_ne hp] at ha ⊢
        exact h.points hcl p' a ha
    obtain ⟨pg, hpt⟩ := hpts
    exact ⟨pg, hpt.gid, by rw [hpin]; exact hpt.pinned, hpt.addr, hpt.start, hpt.range⟩
  · show (update s.entries e _ e').count = ∑ j, used cfg e' (update s.ptrs p q j)
    have hsum := Lib.sum_update_swap s.ptrs p q (used cfg e')
    have huses := h.uses e'
    by_cases he : e' = e
    · subst he
      rw [Function.update_self]
      show n = _
      omega
    · rw [Function.update_of_ne he]
      have ho := hother e' he
      omega

theorem Inv.fini (h : Inv cfg s0 s) (p : P) : Inv cfg s0 (s.fini cfg p) := by
  rw [TlbSt.fini]
  split
  · rename_i a ha
    have hused : used cfg (cfg.ent (s.ptrs p).gid) (s.ptrs p) = 1 :=
      if_pos ⟨by rw [ha]; rfl, rfl⟩
    have hnone : ∀ e', used cfg e' { s.ptrs p with addr := none } = 0 :=
      fun e' => if_neg fun hs => by cases hs.1
    have hle : used cfg (cfg.ent (s.ptrs p).gid) (s.ptrs p) ≤
        ∑ j, used cfg (cfg.ent (s.ptrs p).gid) (s.ptrs j) :=
      Finset.single_le_sum (f := fun j => used cfg (cfg.ent (s.ptrs p).gid) (s.ptrs j))
        (fun _ _ => Nat.zero_le _) (Finset.mem_univ p)
    -- the pointer itself is one of the uses that the entry counts
    refine h.setUse _ _ ?_ (fun e' he => ?_) (h.window p) (fun _ a ha => by cases ha)
    · have huses := h.uses (cfg.ent (s.ptrs p).gid)
      rw [hused] at hle
      rw [hused, hnone]
      omega
    · rw [hnone]
      exact if_neg fun hs => he hs.2.symm
  · exact h

theorem fini_addr {P : Type*} [DecidableEq P] (cfg : TlbConfig R) (s : TlbSt R P) (p : P) :
    ((s.fini cfg p).ptrs p).addr = none := by
  rw [TlbSt.fini]
  split
  · show (update s.ptrs p _ p).addr = none
    rw [Function.update_self]
  · rename_i h
    exact h

/-- A pointer without an address takes a use of the entry that pins its new page. -/
theorem Inv.arrive (h : Inv cfg s0 s) (haddr : (s.ptrs p).addr = none) {x : Spot R}
    {addr start stop : Nat} (hpin : s.pinned cfg x.page = true)
    (ha : addr = cfg.getCachePageAddr (s.pages x.page).offset)
    (hrange : cfg.rangeId x.k = x.page.range) (hstart : start = cfg.nElemsPerPage * x.page.index)
    (hstop : stop ≤ start + cfg.nElemsPerPage) :
    Inv cfg s0 ((s.setEntry (cfg.ent (gid x.page))
      { s.entries (cfg.ent (gid x.page)) with
        count := (s.entries (cfg.ent (gid x.page))).count + 1 }).arrive
          p x addr start stop) := by
  have hnone : ∀ e', used cfg e' (s.ptrs p) = 0 :=
    fun e' => if_neg fun hs => by rw [haddr] at hs; cases hs.1
  refine h.setUse _ _ ?_ (fun e' he => ?_) hstop
    (fun _ a ha' => ⟨x.page, ⟨rfl, hpin, ?_, hstart, ⟨x.k, rfl, hrange⟩⟩⟩)
  · rw [hnone]
    show _ + 1 + 0 = _ + ite (_ ∧ _) 1 0
    rw [if_pos ⟨rfl, rfl⟩]
  · rw [hnone]
    exact (if_neg fun hs => he hs.2.symm).symm
  · cases ha'
    exact ha

/-! ### The entries -/

theorem release_same {P : Type*} (s : TlbSt R P) (e : Nat) : SameTable s (s.release e) := by
  rw [release]
  split <;> exact ⟨rfl, rfl, rfl, rfl⟩

theorem release_offset {P : Type*} [DecidableEq P] (s : TlbSt R P) (e : Nat) (q : PageId R) :
    ((s.release e).pages q).offset = (s.pages q).offset := by
  rw [release]
  split
  · exact setState_offset s _ q _
  · rfl

/-- The pins without that of entry `e`. -/
def pinnedBut (cfg : TlbConfig R) (s : TlbSt R P) (e : Nat) (q : PageId R) : Bool :=
  if cfg.ent (gid q) = e then false else s.pinned cfg q

/-- An entry whose page pointer is that of its own page gives back what it has pinned. -/
theorem Inv.release {P : Type*} {s0 s : TlbSt R P} {cfg : TlbConfig R} {e : Nat} [Fintype P]
    (h : Inv cfg s0 s) (hfin : s.finished e = false)
    (hown : s.Owns e) :
    Cached s0 (s.release e) (s.pinnedBut cfg e) := by
  rw [TlbSt.release]
  split
  · rename_i x hx
    have hgid := hown x hx
    have hent : cfg.ent (gid x) = e := by
      rw [hgid]
      exact h.placed e (by rw [hx]; rfl)
    have hpin : s.pinned cfg x = true := by
      rw [pinned_iff, hent, hx]
      exact ⟨rfl, hgid.symm, hfin⟩
    have hf : s.pinnedBut cfg e = update (s.pinned cfg) x false := by
      funext q
      rw [pinnedBut]
      by_cases hq : q = x
      · subst hq
        rw [if_pos hent, Function.update_self]
      · rw [Function.update_of_ne hq]
        split
        · rename_i he
          -- the entry pins only the page that it names
          apply Eq.symm
          apply Bool.eq_false_iff.mpr
          intro hp
          rw [pinned_iff, he, ← hgid] at hp
          exact hq (gid_injective cfg hp.2.1).symm
        · rfl
    rw [hf]
    exact h.cache.releasePage hpin
  · rename_i hnone
    have hf : s.pinnedBut cfg e = s.pinned cfg := by
      funext q
      rw [pinnedBut]
      split
      · rename_i he
        apply Eq.symm
        apply Bool.eq_false_iff.mpr
        intro hp
        rw [pinned_iff, he, hnone] at hp
        cases hp.1
      · rfl
    rw [hf]
    exact h.cache

/-- The pins after an entry has taken page `pg`. -/
theorem pinned_replaced {P : Type*} (cfg : TlbConfig R) (t : TlbSt R P)
    (pg : PageId R) (c : Nat) (x : PageId R)
    (hfin : t.finished (cfg.ent (gid pg)) = false) :
    (t.setEntry (cfg.ent (gid pg)) ⟨gid pg, c, some x⟩).pinned cfg =
      update (t.pinnedBut cfg (cfg.ent (gid pg))) pg true := by
  funext q
  rw [pinned]
  show ((update t.entries _ _ _).page.isSome && decide ((update t.entries _ _ _).globalId = _) &&
    !t.finished _) = _
  by_cases hq : q = pg
  · subst hq
    rw [Function.update_self, Function.update_self, hfin]
    show (true && decide (gid q = gid q) && !false) = true
    rw [decide_eq_true rfl]
    rfl
  · rw [Function.update_of_ne hq, pinnedBut]
    by_cases he : cfg.ent (gid q) = cfg.ent (gid pg)
    · rw [if_pos he, he, Function.update_self]
      have hne : gid pg ≠ gid q := fun h => hq (gid_injective cfg h).symm
      show (true && decide (gid pg = gid q) && _) = false
      rw [decide_eq_false hne]
      rfl
    · rw [if_neg he, Function.update_of_ne he, pinned]

/-- An entry that no pointer uses takes page `pg` for the page it pinned. -/
theorem Inv.acquireMiss (h : Inv cfg s0 s) (hcl : s.closing = false)
    (hunused : ∀ p, used cfg (cfg.ent (gid pg)) (s.ptrs p) = 0)
    (hown : s.Owns (cfg.ent (gid pg)))
    (hroom : (s.pages pg).state.cnt + 1 < Word.cntLimit) {r : TlbSt R P × Nat}
    (hr : s.acquireMiss cfg pg slot = some r) :
    ∃ u : TlbSt R P, Inv cfg s0 u ∧ u.pinned cfg pg = true ∧ (u.pages pg).offset = r.2 ∧
      u.ptrs = s.ptrs ∧ u.closing = false ∧ r.1 = u.setEntry (cfg.ent (gid pg))
        { u.entries (cfg.ent (gid pg)) with
          count := (u.entries (cfg.ent (gid pg))).count + 1 } := by
  rw [TlbSt.acquireMiss] at hr
  obtain ⟨⟨t, x⟩, ht, rfl⟩ := Option.map_eq_some_iff.mp hr
  have hsame := release_same s (cfg.ent (gid pg))
  have hrel := h.release (h.opened hcl _) hown
  have hbut : s.pinnedBut cfg (cfg.ent (gid pg)) pg = false := if_pos rfl
  have hroom' : ((s.release (cfg.ent (gid pg))).pages pg).state.cnt + 1 < Word.cntLimit := by
    have hold := h.cache.counts pg
    have hnew := hrel.counts pg
    rw [hbut, Bool.toNat_false] at hnew
    omega
  obtain ⟨hsame', hcache, hkeep, hoff⟩ := hrel.acquirePage hbut hroom' ht
  have hentries : t.entries = s.entries := hsame'.entries.trans hsame.entries
  have hfinished : t.finished = s.finished := hsame'.finished.trans hsame.finished
  have hptrs : t.ptrs = s.ptrs := hsame'.ptrs.trans hsame.ptrs
  have hclosing : t.closing = s.closing := hsame'.closing.trans hsame.closing
  have hpin := pinned_replaced cfg t pg (s.entries (cfg.ent (gid pg))).count ⟨pg.range, x⟩
    (by rw [hfinished]; exact h.opened hcl _)
  have hbuts : t.pinnedBut cfg = s.pinnedBut cfg := by
    funext e' q
    rw [pinnedBut, pinnedBut, pinned_congr (fun e => by rw [hentries]; exact ⟨rfl, rfl⟩) hfinished]
  rw [hbuts] at hpin
  -- the state in which the entry has changed its page and not yet its count
  refine ⟨t.setEntry (cfg.ent (gid pg)) ⟨gid pg, (s.entries (cfg.ent (gid pg))).count,
    some ⟨pg.range, x⟩⟩, ⟨?_, fun e' => ?_, ?_, ?_, fun _ p a ha => ?_, fun e' => ?_⟩, ?_, hoff,
    hptrs, hclosing.trans hcl, ?_⟩
  · rw [hpin]
    exact ⟨hcache.coherent, hcache.counts, hcache.valid⟩
  · show (update t.entries _ _ e').page.isSome = true →
      cfg.ent (update t.entries _ _ e').globalId = e'
    by_cases he : e' = cfg.ent (gid pg)
    · subst he
      rw [Function.update_self]
      exact fun _ => rfl
    · rw [Function.update_of_ne he, hentries]
      exact h.placed e'
  · show t.closing = false → ∀ e, t.finished e = false
    rw [hclosing, hfinished]
    exact h.opened
  · show ∀ p, (t.ptrs p).stop ≤ (t.ptrs p).start + cfg.nElemsPerPage
    rw [hptrs]
    exact h.window
  · show ∃ q, Points cfg _ (t.ptrs p) a q
    replace ha : (t.ptrs p).addr = some a := ha
    rw [hptrs] at ha ⊢
    obtain ⟨q, hpt⟩ := h.points hcl p a ha
    -- the pointer does not use the entry, so its page is still pinned
    have hne : cfg.ent (gid q) ≠ cfg.ent (gid pg) := by
      intro he
      have hzero := hunused p
      rw [used, ha, hpt.gid, he, if_pos ⟨rfl, rfl⟩] at hzero
      cases hzero
    have hqpg : q ≠ pg := by
      rintro rfl
      exact hne rfl
    have hbutq : s.pinnedBut cfg (cfg.ent (gid pg)) q = true := by
      rw [pinnedBut, if_neg hne]
      exact hpt.pinned
    refine ⟨q, hpt.gid, ?_, ?_, hpt.start, hpt.range⟩
    · rw [hpin, Function.update_of_ne hqpg]
      exact hbutq
    · show a = cfg.getCachePageAddr (t.pages q).offset
      rw [hkeep q hbutq, release_offset]
      exact hpt.addr
  · show (update t.entries _ _ e').count = ∑ p, used cfg e' (t.ptrs p)
    rw [hptrs, ← h.uses e']
    by_cases he : e' = cfg.ent (gid pg)
    · subst he
      rw [Function.update_self]
    · rw [Function.update_of_ne he, hentries]
  · rw [hpin, Function.update_self]
  · show t.setEntry _ _ = (t.setEntry _ _).setEntry _ _
    rw [setEntry, setEntry, setEntry]
    dsimp only
    rw [Function.update_idem, Function.update_self]

/-! ## The accesses -/

/-- What `fini` of a pointer leaves. -/
theorem fini_frame {P : Type*} [DecidableEq P] (cfg : TlbConfig R) (s : TlbSt R P) (p : P) :
    (s.fini cfg p).pages = s.pages ∧ (s.fini cfg p).closing = s.closing ∧
      ((s.fini cfg p).ptrs p).start = (s.ptrs p).start ∧
      ∀ e, ((s.fini cfg p).entries e).page = (s.entries e).page ∧
        ((s.fini cfg p).entries e).globalId = (s.entries e).globalId := by
  rw [TlbSt.fini]
  split
  · refine ⟨rfl, rfl, ?_, fun e => ?_⟩
    · show (update s.ptrs p _ p).start = _
      rw [Function.update_self]
    · show (update s.entries _ _ e).page = _ ∧ (update s.entries _ _ e).globalId = _
      by_cases he : e = cfg.ent (s.ptrs p).gid
      · subst he
        rw [Function.update_self]
        exact ⟨rfl, rfl⟩
      · rw [Function.update_of_ne he]
        exact ⟨rfl, rfl⟩
  · exact ⟨rfl, rfl, rfl, fun _ => ⟨rfl, rfl⟩⟩

theorem updateOk_fini {P : Type*} [DecidableEq P] {s : TlbSt R P} {x : Spot R}
    {i : Nat} {cfg : TlbConfig R} {p : P} (h : s.UpdateOk cfg p x i) :
    (s.fini cfg p).UpdateOk cfg p x i := by
  obtain ⟨hpages, -, hstart, hent⟩ := fini_frame cfg s p
  have hhits : (s.fini cfg p).Hits cfg x.page ↔ s.Hits cfg x.page := by
    rw [Hits, Hits, (hent _).1, (hent _).2]
  rw [UpdateOk] at h ⊢
  by_cases hit : s.Hits cfg x.page
  · rw [if_pos hit] at h
    rw [if_pos (hhits.mpr hit), hpages, hstart, (hent _).1]
    exact h
  · rw [if_neg hit, Owns] at h
    rw [if_neg fun hs => hit (hhits.mp hs), Owns, hpages, (hent _).1, (hent _).2]
    exact h

theorem arrive_ptr {P : Type*} [DecidableEq P]
    (s : TlbSt R P) (p : P) (x : Spot R) (addr start stop : Nat) :
    (s.arrive p x addr start stop).ptrs p =
      ⟨some x.k, start, stop, gid x.page, some addr⟩ := by
  show update s.ptrs p _ p = _
  rw [Function.update_self]

/-- Nobody uses an entry whose count is 0. -/
theorem Inv.unused {P : Type*} {s0 s : TlbSt R P} {cfg : TlbConfig R} {e : Nat} [Fintype P]
    (h : Inv cfg s0 s) (hcount : (s.entries e).count = 0) (p : P) :
    used cfg e (s.ptrs p) = 0 := by
  have hsum : ∑ j, used cfg e (s.ptrs j) = 0 := by
    rw [← h.uses e]
    exact hcount
  exact Finset.sum_eq_zero_iff.mp hsum p (Finset.mem_univ p)

/-- Nobody uses an entry that has no page. -/
theorem Inv.unused_of_none {P : Type*} {s0 s : TlbSt R P} {cfg : TlbConfig R} {e : Nat}
    [Fintype P] (h : Inv cfg s0 s) (hcl : s.closing = false)
    (hnone : (s.entries e).page = none) (p : P) : used cfg e (s.ptrs p) = 0 := by
  apply if_neg
  rintro ⟨hsome, he⟩
  obtain ⟨a, ha⟩ := Option.isSome_iff_exists.mp hsome
  obtain ⟨pg, hpt⟩ := h.points hcl p a ha
  have hpin := ((pinned_iff cfg s pg).mp hpt.pinned).1
  rw [← hpt.gid, he, hnone] at hpin
  cases hpin

/-- The miss of a pointer whose entry nobody uses. -/
theorem Inv.updateMiss (h : Inv cfg s0 s) (hcl : s.closing = false)
    (haddr : (s.ptrs p).addr = none) {x : Spot R} {i : Nat} (hx : Located cfg x i)
    (hunused : ∀ p, used cfg (cfg.ent (gid x.page)) (s.ptrs p) = 0)
    (hown : s.Owns (cfg.ent (gid x.page)))
    (hroom : (s.pages x.page).state.cnt + 1 < Word.cntLimit) {r : TlbSt R P × Nat}
    (hr : s.acquireMiss cfg x.page slot = some r) :
    Inv cfg s0 (r.1.arrive p x (cfg.getCachePageAddr r.2)
      (x.range.acquireStart cfg.sizeofT i) (x.range.acquireEnd cfg.sizeofT i)) ∧
      r.1.closing = false := by
  -- the entry has changed its page in `u`; what is left is the use that the pointer takes
  obtain ⟨u, hu, hpin, hoff, hptrs, hclosing, heq⟩ := h.acquireMiss hcl hunused hown hroom hr
  rw [heq]
  refine ⟨?_, hclosing⟩
  apply hu.arrive (by rw [hptrs]; exact haddr) hpin (by rw [hoff]) hx.range hx.start
  rw [hx.start]
  exact hx.stop

/-- `update_page` under the condition, for a pointer that has no address. -/
theorem Inv.updatePage (h : Inv cfg s0 s) (hcl : s.closing = false)
    (haddr : (s.ptrs p).addr = none) {x : Spot R} {i : Nat} (hx : Located cfg x i)
    (hok : s.UpdateOk cfg p x i) (ht : s.updatePage cfg p x i slot = some t) :
    Inv cfg s0 t ∧ t.closing = false ∧ (t.ptrs p).gid = gid x.page := by
  rw [TlbSt.updatePage] at ht
  dsimp only at ht
  split at ht
  · rename_i y hy
    split at ht
    · -- the hit
      rename_i hgid
      rw [UpdateOk, if_pos ⟨by rw [hy]; rfl, hgid⟩] at hok
      cases ht
      have hpin : s.pinned cfg x.page = true :=
        (pinned_iff cfg s x.page).mpr ⟨by rw [hy]; rfl, hgid, h.opened hcl _⟩
      refine ⟨?_, hcl, by rw [arrive_ptr]⟩
      apply h.arrive haddr hpin (by rw [hok.1 y hy]) hx.range (hok.2.trans hx.start)
      exact h.window p
    · rename_i hgid
      rw [UpdateOk, if_neg fun hit => hgid hit.2] at hok
      split at ht
      · -- the replacement
        rename_i hcount
        obtain ⟨r, hr, rfl⟩ := Option.map_eq_some_iff.mp ht
        have hmiss := h.updateMiss hcl haddr hx (h.unused hcount) hok.1 hok.2 hr
        exact ⟨hmiss.1, hmiss.2, by rw [arrive_ptr]⟩
      · cases ht
  · rename_i hnone
    rw [UpdateOk, if_neg fun hit => by rw [Hits, hnone] at hit; cases hit.1] at hok
    obtain ⟨r, hr, rfl⟩ := Option.map_eq_some_iff.mp ht
    have hmiss := h.updateMiss hcl haddr hx (h.unused_of_none hcl hnone) hok.1 hok.2 hr
    exact ⟨hmiss.1, hmiss.2, by rw [arrive_ptr]⟩

/-- With all entries finished nothing is pinned. -/
theorem Inv.restored {P : Type*} {s0 s : TlbSt R P} {cfg : TlbConfig R} [Fintype P]
    (h : Inv cfg s0 s) (hall : ∀ e < cfg.n, s.finished e = true) (pg : PageId R) :
    (s.pages pg).state.cnt = (s0.pages pg).state.cnt := by
  have hpin : s.pinned cfg pg = false := by
    rw [pinned, hall (cfg.ent (gid pg)) (Nat.mod_lt _ cfg.n_pos)]
    exact Bool.and_false _
  rw [h.cache.counts pg, hpin]
  rfl

/-- What an access returns is the element's place, if the pointer is at its page. -/
theorem Inv.element {P : Type*} {s0 s t : TlbSt R P} {cfg : TlbConfig R} {p : P}
    [Fintype P] (h : Inv cfg s0 s) (hcl : s.closing = false) {i : Nat} {x : Spot R}
    (hx : cfg.getPageGid i = some x) (hsub : AtSubindex cfg x i)
    (hpage : ∀ a pg, Points cfg s (s.ptrs p) a pg → pg = x.page)
    (ht : s.element cfg p i = some t) : Inv cfg s0 t ∧ Right cfg s0 t := by
  rw [TlbSt.element] at ht
  obtain ⟨a, ha, rfl⟩ := Option.map_eq_some_iff.mp ht
  have hinv := h.setGot
    (some (i, wrap64 (a + wrap64 (sub64 i (s.ptrs p).start * cfg.sizeofT))))
  refine ⟨hinv, ?_, hinv.cache.counts, hinv.restored⟩
  rintro j b hgot
  cases hgot
  obtain ⟨pg, hpt⟩ := h.points hcl p a ha
  obtain rfl := hpage a pg hpt
  have hv := h.cache.valid _ hpt.pinned
  refine ⟨x, _, hx, ⟨hv, rfl, h.cache.coherent _ hv⟩, ?_⟩
  rw [hpt.addr, hpt.start, ← (located hx).start, RangeD.seqReadAddr]
  rw [AtSubindex] at hsub
  rw [hsub]

/-- When no access has been made nothing has been returned. -/
theorem Inv.quiet {P : Type*} {s0 s : TlbSt R P} {cfg : TlbConfig R} [Fintype P]
    (h : Inv cfg s0 s) (hgot : s.got = none) : Inv cfg s0 s ∧ Right cfg s0 s := by
  refine ⟨h, ⟨fun i x hx => ?_, h.cache.counts, h.restored⟩⟩
  rw [hgot] at hx
  cases hx

/-- `mark_page_dirty` and the element after `update_page`. -/
theorem Inv.returned {P : Type*} {s0 s t : TlbSt R P} {cfg : TlbConfig R} {p : P}
    [Fintype P] (h : Inv cfg s0 s) (hcl : s.closing = false) {i : Nat} {write : Bool} {x : Spot R}
    (hx : cfg.getPageGid i = some x) (hsub : AtSubindex cfg x i)
    (hgid : (s.ptrs p).gid = gid x.page)
    (ht : (s.markDirty write x.page).element cfg p i = some t) :
    Inv cfg s0 t ∧ Right cfg s0 t := by
  have hframe : (s.markDirty write x.page).closing = s.closing ∧
      (s.markDirty write x.page).ptrs = s.ptrs := by
    rw [TlbSt.markDirty]
    split <;> exact ⟨rfl, rfl⟩
  apply (h.markDirty write x.page).element (hframe.1.trans hcl) hx hsub _ ht
  intro a pg hpt
  rw [hframe.2] at hpt
  exact gid_injective cfg (hpt.gid.symm.trans hgid)

/-- A pointer in whose window the element is, and whose range is the element's, is at its page. -/
theorem Inv.page_eq {P : Type*} {s0 s : TlbSt R P} {cfg : TlbConfig R} {p : P}
    [Fintype P] (h : Inv cfg s0 s) {i : Nat} {x : Spot R} (hx : Located cfg x i)
    (hin : InWindow cfg x i) (hout : ¬ (s.ptrs p).outside i = true)
    (hrange : (s.ptrs p).range = some x.k) {a : Nat} {pg : PageId R}
    (hpt : Points cfg s (s.ptrs p) a pg) : pg = x.page := by
  have hwindow := h.window p
  rw [BamPtrTlb.outside, Bool.or_eq_true, decide_eq_true_eq, decide_eq_true_eq] at hout
  rw [hpt.start] at hout hwindow
  have hstart := hin.1
  have hend := Nat.lt_of_lt_of_le hin.2 hx.stop
  rw [hx.start] at hstart
  -- both pages have the element in their windows, so they have one index
  have hindex : ∀ y, cfg.nElemsPerPage * y ≤ i → i < cfg.nElemsPerPage * y + cfg.nElemsPerPage →
      i / cfg.nElemsPerPage = y := by
    intro y hle hlt
    apply Nat.div_eq_of_lt_le
    · rw [Nat.mul_comm]
      exact hle
    · rw [Nat.mul_comm, Nat.mul_succ]
      exact hlt
  obtain ⟨k, hk, hkr⟩ := hpt.range
  obtain rfl : k = x.k := Option.some.inj (hk.symm.trans hrange)
  have hpg : pg.index = x.page.index := by
    rw [← hindex pg.index (by omega) (by omega), ← hindex x.page.index hstart hend]
  have hr : pg.range = x.page.range := hkr.symm.trans hx.range
  calc pg = ⟨pg.range, pg.index⟩ := rfl
    _ = x.page := by rw [hr, hpg]

theorem Inv.access (h : Inv cfg s0 s) (hcl : s.closing = false) {i : Nat} {write : Bool}
    (hok : (Act.access p i write slot).Ok cfg s)
    (ht : s.access cfg p i write slot = some t) : Inv cfg s0 t ∧ Right cfg s0 t := by
  obtain ⟨x, hx, hsub, hok⟩ := hok
  rw [TlbSt.access] at ht
  split at ht
  · rename_i hout
    rw [if_pos hout] at hok
    rw [hx, Option.bind_some] at ht
    obtain ⟨u, hu, ht⟩ := Option.bind_eq_some_iff.mp ht
    have hclosing := (fini_frame cfg s p).2.1
    have hupd := (h.fini p).updatePage (hclosing.trans hcl) (fini_addr cfg s p) (located hx)
      (updateOk_fini hok) hu
    exact hupd.1.returned hupd.2.1 hx hsub hupd.2.2 ht
  · rename_i hout
    rw [if_neg hout] at hok
    apply h.element hcl hx hsub _ ht
    intro a pg hpt
    exact h.page_eq (located hx) hok.2 hout hok.1 hpt

theorem Inv.join (h : Inv cfg s0 s) (hcl : s.closing = false) {m : P} {i : Nat} {write : Bool}
    (hok : (Act.join p m i write).Ok cfg s)
    (ht : s.join cfg p m i write = some t) : Inv cfg s0 t ∧ Right cfg s0 t := by
  obtain ⟨x, hx, hsub, hok⟩ := hok
  rw [TlbSt.join, hx, Option.bind_some] at ht
  dsimp only at ht
  split at ht
  · rename_i hcond
    obtain ⟨a, ha, ht⟩ := Option.bind_eq_some_iff.mp ht
    obtain ⟨-, hclosing, hstart, -⟩ := fini_frame cfg s p
    have hfini := h.fini p
    obtain ⟨pg, hpt⟩ := hfini.points (hclosing.trans hcl) m a ha
    obtain rfl : pg = x.page := gid_injective cfg (hpt.gid.symm.trans hcond.2)
    have hloc := located hx
    -- the master's page is the lane's, so the lane takes a use of the same entry
    have harrive := hfini.arrive (fini_addr cfg s p) hpt.pinned hpt.addr hloc.range
      ((hstart.trans hok).trans hloc.start) (hfini.window p)
    exact harrive.returned (hclosing.trans hcl) hx hsub (by rw [arrive_ptr]) ht
  · cases ht

theorem Inv.new (h : Inv cfg s0 s) (haddr : (s.ptrs p).addr = none) :
    Inv cfg s0 (s.setPtr p .new) := by
  have hnone : ∀ e, used cfg e (s.ptrs p) = 0 :=
    fun e => if_neg fun hs => by rw [haddr] at hs; cases hs.1
  have hnew : ∀ e, used cfg e .new = 0 := fun e => if_neg fun hs => by cases hs.1
  have hset := h.setUse (e := 0) (p := p) (s.entries 0).count .new (by rw [hnone, hnew])
    (fun e _ => by rw [hnone, hnew]) (Nat.zero_le _) (fun _ a ha => by cases ha)
  have heq : s.setEntry 0 { s.entries 0 with count := (s.entries 0).count } = s := by
    rw [setEntry, Function.update_eq_self]
  rw [heq] at hset
  exact hset

/-- `tlb_entry::release` of an entry for good. -/
theorem Inv.finish {P : Type*} {s0 s : TlbSt R P} {cfg : TlbConfig R} {e : Nat} [Fintype P]
    (h : Inv cfg s0 s) (hfin : s.finished e = false)
    (hown : s.Owns e) :
    Inv cfg s0 (s.finish e) := by
  have hsame := release_same s e
  have hpin : (s.finish e).pinned cfg = s.pinnedBut cfg e := by
    funext q
    rw [pinned, pinnedBut]
    show (((s.release e).entries _).page.isSome &&
      decide (((s.release e).entries _).globalId = _) && !update s.finished e true _) = _
    rw [hsame.entries]
    by_cases he : cfg.ent (gid q) = e
    · rw [if_pos he, he, Function.update_self, Bool.not_true, Bool.and_false]
    · rw [if_neg he, Function.update_of_ne he, pinned]
  have hrel := h.release hfin hown
  refine ⟨?_, ?_, (fun hcl => by cases hcl), ?_, (fun hcl => by cases hcl), ?_⟩
  · rw [hpin]
    exact ⟨hrel.coherent, hrel.counts, hrel.valid⟩
  · show ∀ e', ((s.release e).entries e').page.isSome = true →
      cfg.ent ((s.release e).entries e').globalId = e'
    rw [hsame.entries]
    exact h.placed
  · show ∀ p, ((s.release e).ptrs p).stop ≤
      ((s.release e).ptrs p).start + cfg.nElemsPerPage
    rw [hsame.ptrs]
    exact h.window
  · show ∀ e', ((s.release e).entries e').count = ∑ p, used cfg e' ((s.release e).ptrs p)
    rw [hsame.entries, hsame.ptrs]
    exact h.uses

/-! ## The run -/

/-- A step under the condition keeps the invariant and returns the right element. -/
theorem Inv.step (h : Inv cfg s0 s) {a : Act R P} (hok : a.Ok cfg s)
    (ht : step cfg s a = some t) : Inv cfg s0 t ∧ Right cfg s0 t := by
  cases a with
  | access p i write slot =>
    rw [TlbSt.step] at ht
    split at ht
    · rename_i hc
      exact h.access hc hok ht
    · cases ht
  | join p m i write =>
    rw [TlbSt.step] at ht
    split at ht
    · rename_i hc
      exact h.join hc hok ht
    · cases ht
  | fini p =>
    cases ht
    exact ((h.fini p).setGot none).quiet rfl
  | new p =>
    rw [TlbSt.step] at ht
    split at ht
    · rename_i haddr
      cases ht
      exact ((h.new haddr).setGot none).quiet rfl
    · cases ht
  | finish e =>
    rw [TlbSt.step] at ht
    split at ht
    · rename_i hc
      cases ht
      exact ((h.finish hc.2 hok).setGot none).quiet rfl
    · cases ht
  | other pg slot =>
    rw [TlbSt.step] at ht
    split at ht
    · rename_i hst
      obtain ⟨u, hu, rfl⟩ := Option.map_eq_some_iff.mp ht
      have hload := h.cache.load (Word.st_nvNb hst).1 hu
      exact ((h.cacheStep hload.1 hload.2.1 hload.2.2).setGot none).quiet rfl
    · cases ht

end Table

/-- In an array on which `bam_ptr` and `seq_read` agree every element is in the window of its
    page, at its subindex. -/
theorem inWindow_of_addressable {cfg : TlbConfig R} (h : cfg.array.Addressable)
    {k i : Nat} {r : RangeD} (hr : cfg.array.ranges[k]? = some r) (hi : i < r.count) :
    ∃ x, cfg.getPageGid i = some x ∧ AtSubindex cfg x i ∧ InWindow cfg x i := by
  have hplain := (h k r hr (by omega)).2
  obtain ⟨-, hstart, hend, haddr⟩ := hplain.element cfg.array.sizeofT_pos hi
  have hfound : cfg.getPageGid i =
      some { k, range := r, page := ⟨cfg.rangeId k, r.getPage cfg.sizeofT i⟩ } := by
    rw [TlbConfig.getPageGid, h.findRange_eq hr hi, Option.bind_some, hr, Option.map_some]
  refine ⟨_, hfound, ?_, hstart, hend⟩
  -- both addresses of the first slot's byte are below `2 ^ 64`
  have hsub : r.getSubindex cfg.array.sizeofT i < 18446744073709551616 := by
    rw [RangeD.getSubindex_eq]
    exact Nat.lt_of_lt_of_le (Nat.mod_lt _ r.pageSize_pos)
      (Nat.le_of_dvd (by decide) r.pageSize_dvd)
  have hzero := haddr 0
  rw [RangeD.windowAddr, RangeD.seqReadAddr, Nat.zero_add, Nat.zero_add,
    Addressing.wrap64_of_lt (Addressing.wrap64_lt _)] at hzero
  rw [Addressing.wrap64_of_lt hsub] at hzero
  exact hzero

/-! ### A table whose slots are their pages' -/

theorem table_size : 0 < 4 := by decide

theorem table_elems : 128 < 18446744073709551616 := by decide

theorem table_log : 4 < 64 := by decide

theorem table_entries : 0 < 32 := by decide

theorem table_pages : ∀ r ∈ (Addressing.initControllers 4 128 4 table_size table_elems
    table_log).ranges, r.pageSizeLog = 4 := by
  intro r hr
  rw [List.mem_singleton.mp hr]

/-- The table of the runs: 32 entries, 128 elements of four bytes, pages of four elements. -/
def table : TlbConfig 1 :=
  { array := Addressing.initControllers 4 128 4 table_size table_elems table_log
    rangeId := fun _ => ⟨0, Nat.one_pos⟩
    pageSizeLog := 4
    baseAddr := 0
    n := 32
    samePages := table_pages
    n_pos := table_entries
    maxRange_pow := oneRange_pow }

/-- The pointers of the runs. -/
def first : Fin 2 := ⟨0, Nat.zero_lt_two⟩

def second : Fin 2 := ⟨1, Nat.one_lt_two⟩

/-- Nothing is in the cache, and two pointers have been made. -/
def empty : TlbSt 1 (Fin 2) :=
  { pages := fun _ => { state := 0#32, offset := 0 }
    tenant := fun _ => none
    entries := fun _ => ⟨0, 0, none⟩
    ptrs := fun _ => .new
    closing := false
    finished := fun _ => false
    got := none }

end TlbSt

end GidsStack.PageCache.Tlb
