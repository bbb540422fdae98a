/-
  GidsStack.Requests.Rowctx

  Registered requests with one context a row over the page cache's machine
  (gids_kernel.cu, gids_nvme.cu). A submit launches a warp for every row, and the warps run
  `acquire_page_submit_async` at the same time, one load, store or atomic operation a step.
  The controller completes commands at any time. The other kernels of the stream do not
  overlap with a submit nor with each other, and a call of one of them is one step: the
  lookup kernel, a completion that the service kernel takes off a queue, a ready check, a get.

  A context is an agent of the machine: `idle` while its memory is not in use or zeroed,
  `submitted` once its warp has returned. The store has one controller, and its array is one
  range that starts at element 0 and is only read.
-/

import GidsStack.PageCache.Runs
import GidsStack.Requests.Service

namespace GidsStack.Rowctx

open Function (update)
open PageCache

/-! ## State -/

structure StoreConfig where
  cache : Config 1
  /-- `n_qps` of the controller -/
  nQps : Nat
  /-- `n_elems_per_page` -/
  elems : Nat
  /-- elements of the range -/
  count : Nat
  oneCtrl : cache.nCtrls = 1
  count_lt : count < 2 ^ 64

/-- An entry of the queue of outstanding requests, with its contexts. -/
structure Request (A : Type) where
  id : Nat
  /-- `d_row_ctxs` -/
  ctxs : List A
  /-- what `index_ptr` points to -/
  rows : Nat → Nat
  dim : Nat
  cacheDim : Nat
  ready : Bool

section Request

variable {A : Type}

def Request.numIndex (r : Request A) : Nat := r.ctxs.length

/-- The first element of a row. -/
def Request.base (r : Request A) (k : Nat) : Nat := r.rows k * r.cacheDim

end Request

structure Store (A V : Type) where
  cache : St 1 A V
  /-- `d_registered_ctx_lookup` -/
  lookup : Nat → Option A
  requests : List (Request A)
  /-- the request whose submit kernel is running -/
  current : Option (Request A)
  nextId : Nat
  /-- what the gets wrote; `none` is a row they left out -/
  results : List (Request A × List (Option (List V)))

variable {A V : Type} [DecidableEq A] (cfg : StoreConfig)

/-! ## Submit -/

/-- The page of a row, which one lane of its warp wants. -/
def Request.call (r : Request A) (k : Nat) : Call 1 where
  page := ⟨0, r.base k / cfg.elems⟩
  count := 1
  write := false
  mark := false
  count_pos := Nat.one_pos

/-- The warp of row `k` begins; a context that is not `idle` has its warp already. -/
def Store.start (s : Store A V) (k queue : Nat) : Option (Store A V) := do
  let r ← s.current
  let a ← r.ctxs[k]?
  if queue < cfg.nQps ∧ r.base k < cfg.count then
    (PageCache.step cfg.cache s.cache (.submit a (r.call cfg k) queue)).map
      fun t => { s with cache := t }
  else none

/-- The warp has returned. -/
def Returned : Pc 1 → Bool
  | .submitted _ _ => true
  | _ => false

/-- A thread of `register_registered_ctx_lookup_kernel`. `ctx.ctrl` is 0, so that no queue
    pairs of other controllers come before those of `ctx.queue`. -/
def registerRow (s : St 1 A V) (lookup : Nat → Option A) (a : A) : Nat → Option A :=
  match s.pc a with
  | .submitted _ x =>
    if x.isHit || !x.hasPendingIo || decide (Registered.cidCapacity ≤ x.cid) then lookup
    else update lookup (Registered.lookupSlot x.queue x.cid) (some a)
  | _ => lookup

/-- The lookup kernel, once all warps have returned. The warp of a row that lies in no range
    returns at once, its context zeroed. -/
def Store.register (s : Store A V) : Option (Store A V) := do
  let r ← s.current
  if ∀ k < r.numIndex, r.base k < cfg.count → ∀ a ∈ r.ctxs[k]?, Returned (s.cache.pc a) = true then
    some { s with
      lookup := r.ctxs.foldl (registerRow s.cache) s.lookup
      requests := s.requests ++ [r]
      current := none }
  else none

/-! ## Service -/

/-- `cq_dequeue` and `put_cid` of the completion at the head of a queue. -/
def dequeue (s : St 1 A V) (ctrl queue : Nat) (cmd : Cmd 1 A) (rest : List (Cmd 1 A)) :
    St 1 A V :=
  let q := s.qps ctrl queue
  s.setQp ctrl queue { q with cq := rest, cidLocked := update q.cidLocked cmd.cid false }

/-- `finalize_registered_ctx_completion` of the context at `a`; the history is told which
    completion it was called for. -/
def finalize (s : St 1 A V) (a : A) (ctrl queue : Nat) (cmd : Cmd 1 A) : St 1 A V :=
  match s.pc a with
  | .submitted c x =>
    if x.isHit then s
    else
      match (s.pages c.page).state.st with
      | .vNb =>
        (s.setPolling c.page false).goto a (.submitted c
          { x with pageTrans := (s.pages c.page).offset, isHit := true, hasPendingIo := false })
      | .nvB =>
        let t := (s.took c.page ctrl queue cmd).setOffset c.page x.pageTrans
        let t := t.setState c.page ((t.pages c.page).state ^^^ Word.disableBusyEnableValid)
        ((t.published c.page).setPolling c.page false).goto a (.submitted c
          { x with isHit := true, hasPendingIo := false })
      | _ => s
  | _ => s

/-- One completion in `service_registered_cq_window_kernel`, of logical queue `l`, which is
    queue pair `l` of the controller. -/
def Store.serve (s : Store A V) (l : Nat) : Option (Store A V) :=
  match (s.cache.qps 0 l).cq with
  | [] => none
  | cmd :: rest =>
    let t := dequeue s.cache 0 l cmd rest
    let found :=
      if cmd.cid < Registered.cidCapacity then s.lookup (Registered.lookupSlot l cmd.cid) else none
    match found with
    | none => some { s with cache := t }
    | some a =>
      some { s with
        cache := finalize t a 0 l cmd
        lookup := update s.lookup (Registered.lookupSlot l cmd.cid) none }

/-! ## Ready checks and gets -/

/-- `refresh_registered_ctx_from_valid_page` of the context at `a`. -/
def refresh (s : St 1 A V) (a : A) : St 1 A V :=
  match s.pc a with
  | .submitted c x =>
    let i := (s.pages c.page).offset
    if x.isHit = false ∧ (s.pages c.page).state.st = .vNb ∧ i ≠ asyncPageTransPending ∧
        i < cfg.cache.nPages then
      (s.setPolling c.page false).goto a (.submitted c { x with pageTrans := i, isHit := true })
    else s
  | _ => s

def IsHit : Pc 1 → Bool
  | .submitted _ x => x.isHit
  | _ => false

/-- `registered_request_ready_at` with `check_registered_request_ready_kernel`, and the mark. -/
def Store.check (s : Store A V) (offset : Nat) : Option (Store A V) := do
  let r ← s.requests[offset]?
  if r.ready then some s
  else
    let t := { s with cache := r.ctxs.foldl (refresh cfg) s.cache }
    if ∀ a ∈ r.ctxs, IsHit (t.cache.pc a) = true then
      some { t with requests := s.requests.set offset { r with ready := true } }
    else some t

/-- What row `k` of the get kernel reads, `none` when it has no slot. -/
def readRow (s : St 1 A V) (r : Request A) (k : Nat) : Option (List V) := do
  let a ← r.ctxs[k]?
  match s.pc a with
  | .submitted _ x =>
    if cfg.cache.nPages ≤ x.pageTrans then none
    else
      let start := cfg.elems * (r.base k / cfg.elems)
      some ((List.range r.dim).map fun tid => s.slotData x.pageTrans (r.base k + tid - start))
  | _ => none

/-- `release_page`, which is at most six steps of the machine. -/
def runRelease : Nat → St 1 A V → A → St 1 A V
  | 0, s, _ => s
  | n + 1, s, a =>
    match s.pc a with
    | .release c i marked m hm k => runRelease n (releaseStep s a c i marked m hm k) a
    | _ => s

/-- A row of the get gives the page back, if it has a slot, and its context is freed. -/
def freeRow (s : St 1 A V) (a : A) : St 1 A V :=
  match s.pc a with
  | .submitted c x =>
    if x.pageTrans < cfg.cache.nPages then
      runRelease 6 (s.goto a (.release c x.pageTrans false c.count (Nat.le_refl _) .loadPrefetch)) a
    else s.goto a .idle
  | _ => s

/-- `read_feature_get_feature_light_registered_rowctx`. -/
def Store.get (s : Store A V) : Option (Store A V) :=
  match s.requests with
  | [] => none
  | r :: rest =>
    if r.ready then
      some { s with
        cache := r.ctxs.foldl (freeRow cfg) s.cache
        requests := rest
        results := s.results ++ [(r, (List.range r.numIndex).map (readRow cfg s.cache r))] }
    else none

/-! ## The system -/

inductive Act (A : Type)
  | submit (ctxs : List A) (rows : Nat → Nat) (dim cacheDim : Nat)
  | start (k queue : Nat)
  /-- a warp makes a step, or a compare-and-swap of it fails that need not -/
  | run (a : A)
  | spurious (a : A)
  | register
  /-- the controller has read the page of its `n`th command on a queue into the slot -/
  | post (queue n : Nat)
  | serve (l : Nat)
  | check (offset : Nat)
  | get

/-- A step of the cache alone. -/
def Store.cacheStep (s : Store A V) (act : PageCache.Act 1 A V) : Option (Store A V) :=
  (PageCache.step cfg.cache s.cache act).map fun t => { s with cache := t }

def step (s : Store A V) : Act A → Option (Store A V)
  | .submit ctxs rows dim cacheDim =>
    -- the memory of the contexts is not in use
    if s.current.isNone ∧ ctxs.Nodup ∧ ∀ a ∈ ctxs, s.cache.pc a = .idle then
      some { s with
        current := some ⟨s.nextId, ctxs, rows, dim, cacheDim, false⟩
        nextId := s.nextId + 1 }
    else none
  | .start k queue => s.start cfg k queue
  | .run a => s.cacheStep cfg (.run a)
  | .spurious a => s.cacheStep cfg (.spurious a)
  | .register => s.register cfg
  | .post queue n => s.cacheStep cfg (.post 0 queue n)
  | .serve l => if s.current.isNone ∧ l < cfg.nQps then s.serve l else none
  | .check offset => if s.current.isNone then s.check cfg offset else none
  | .get => if s.current.isNone then s.get cfg else none

/-- A cache with nothing in it over an SSD, and no request. -/
structure Init (ssd : PageId 1 → Nat → V) (s : Store A V) : Prop where
  cache : PageCache.Init s.cache
  ssd : s.cache.ssd = ssd
  lookup : s.lookup = fun _ => none
  requests : s.requests = []
  current : s.current = none
  nextId : s.nextId = 1
  results : s.results = []

end GidsStack.Rowctx
