/-
  GidsStack.Requests.Service

  Registered requests with one context a row, whose completions the GPU takes off the queues
  as they come, whichever request they are for (gids_kernel.cu, gids_nvme.cu). A submit fills
  the contexts of its rows, and enters those with a command of their own in a table, under the
  logical queue and identifier of the command. The service kernel looks the identifier of each
  completion up there and finishes the context it finds.

  One step is the submit of a row, the lookup kernel, a completion posted, one taken off a
  queue, a ready check or a get: what can interleave inside of them is the subject of
  PageCache/Machine.lean and Queue/. Kernels of one stream do not overlap, so that neither the
  service nor a check runs between a submit and its lookup kernel; the controllers work at any
  time. The array is one range that starts at element 0 and is only read.
-/

import Mathlib.Algebra.GroupWithZero.Nat
import Mathlib.Data.Nat.Count
import Mathlib.Logic.Function.Basic

namespace GidsStack.Registered

/-! ## State -/

structure ServiceConfig where
  /-- `n_qps` of the controllers -/
  ctrls : List Nat
  /-- `cache.n_pages` -/
  nSlots : Nat
  /-- `n_elems_per_page` -/
  elems : Nat
  /-- elements of the range -/
  count : Nat

/-- `kRegisteredCidCapacity`. -/
def cidCapacity : Nat := 65536

/-- `state` and `offset` of a page. -/
structure Page where
  valid : Bool
  busy : Bool
  cnt : Nat
  offset : Nat
  deriving DecidableEq

/-- `s_ctx`; `inRange` stands for `r >= 0`. -/
structure Ctx where
  inRange : Bool
  page : Nat
  isHit : Bool
  hasPendingIo : Bool
  ctrl : Nat
  queue : Nat
  cid : Nat
  memberAcquireCtrl : Nat
  pageTrans : Nat
  deriving DecidableEq

/-- The address of a context: the request and the row. -/
abbrev CtxId := Nat × Nat

/-- Controller and queue pair. -/
abbrev QueueId := Nat × Nat

/-- A read command that has not been taken off its queue. -/
structure Cmd where
  owner : CtxId
  page : Nat
  slot : Nat
  deriving DecidableEq

/-- An entry of the queue of outstanding requests. -/
structure Request where
  id : Nat
  /-- what `index_ptr` points to -/
  rows : Nat → Nat
  numIndex : Nat
  dim : Nat
  cacheDim : Nat
  ready : Bool

/-- The first element of a row. -/
def Request.base (r : Request) (k : Nat) : Nat := r.rows k * r.cacheDim

structure Service (V : Type) where
  pages : Nat → Page
  /-- `cache_pages[i].page_translation` -/
  pageTranslation : Nat → Option Nat
  cache : Nat → Nat → V
  /-- the contexts that a submit has filled and no get has freed -/
  ctxs : CtxId → Option Ctx
  cidLocks : QueueId → Nat → Bool
  cmds : QueueId → Nat → Option Cmd
  /-- the completions between head and tail, by their identifiers -/
  posted : QueueId → List Nat
  /-- `d_registered_ctx_lookup` -/
  lookup : Nat → Option CtxId
  requests : List Request
  /-- the request that is being submitted, and its rows that are still to be run -/
  current : Option Request
  todo : List Nat
  nextId : Nat
  /-- whose command each completion taken off was for, and the context it was looked up as -/
  served : List (Option CtxId × Option CtxId)
  /-- what the gets wrote; `none` is a row they left out -/
  results : List (Request × List (Option (List V)))

variable {V : Type} (cfg : ServiceConfig)

/-! ## Submit -/

/-- `find_slot` can return this slot: it was never assigned, or its page has no references and
    is not busy. -/
def Service.SlotFree (s : Service V) (slot : Nat) : Prop :=
  slot < cfg.nSlots ∧
    ∀ v ∈ s.pageTranslation slot, (s.pages v).cnt = 0 ∧ (s.pages v).busy = false

instance (s : Service V) (slot : Nat) : Decidable (s.SlotFree cfg slot) :=
  inferInstanceAs (Decidable (_ ∧ ∀ _ ∈ _, _ ∧ _))

/-- The pages when one of them has left the cache. -/
def evictPage (pages : Nat → Page) (v : Option Nat) (p : Nat) : Page :=
  if v = some p then { pages p with valid := false, busy := false } else pages p

/-- `find_slot`: the page that was in the slot leaves the cache. -/
def Service.takeSlot (s : Service V) (slot p : Nat) : Service V :=
  { s with
    pages := evictPage s.pages (s.pageTranslation slot)
    pageTranslation := Function.update s.pageTranslation slot (some p) }

/-- `acquire_page_submit_async` on page `p` for context `c`, with the queue, the controller, the
    slot and the identifier it comes to use. -/
def Service.acquireSubmit (s : Service V) (c : CtxId) (p q m slot cid : Nat) :
    Option (Service V) :=
  let pg := s.pages p
  let held (s : Service V) (pg : Page) : Service V :=
    { s with pages := Function.update s.pages p { pg with cnt := pg.cnt + 1 } }
  let x : Ctx := ⟨true, p, false, false, 0, q, 0, m, pg.offset⟩
  match pg.valid, pg.busy with
  | true, false =>
    some { held s pg with
      ctxs := Function.update s.ctxs c (some { x with isHit := true, memberAcquireCtrl := 0 }) }
  | false, true => some { held s pg with ctxs := Function.update s.ctxs c (some x) }
  | false, false =>
    if s.SlotFree cfg slot ∧ s.cidLocks (m, q) cid = false ∧ cid < cidCapacity then
      let t := s.takeSlot slot p
      some { held t { pg with busy := true, offset := slot } with
        ctxs := Function.update s.ctxs c
          (some { x with pageTrans := slot, cid := cid, hasPendingIo := true })
        cidLocks := Function.update s.cidLocks (m, q) (Function.update (s.cidLocks (m, q)) cid true)
        cmds := Function.update s.cmds (m, q)
          (Function.update (s.cmds (m, q)) cid (some ⟨c, p, slot⟩)) }
    else none
  | true, true => none

/-- A row of `read_feature_kernel_submit_async_rowctx`. -/
def Service.submitRow (s : Service V) (k q m slot cid : Nat) : Option (Service V) := do
  let r ← s.current
  if k ∉ s.todo then none
  else if cfg.count ≤ r.base k then
    some { s with
      ctxs := Function.update s.ctxs (r.id, k) (some ⟨false, 0, false, false, 0, 0, 0, 0, 0⟩)
      todo := s.todo.erase k }
  else if q < cfg.ctrls.headD 0 ∧ m < cfg.ctrls.length then
    let t ← s.acquireSubmit cfg (r.id, k) (r.base k / cfg.elems) q m slot cid
    some { t with todo := s.todo.erase k }
  else none

/-- The place in the table for a queue and an identifier. -/
def lookupSlot (logicalQueueIdx cid : Nat) : Nat := logicalQueueIdx * cidCapacity + cid

/-- `logical_queue_idx` of a context. -/
def logicalQueue (ctrls : List Nat) (x : Ctx) : Nat := x.queue + (ctrls.take x.ctrl).sum

/-- A thread of `register_registered_ctx_lookup_kernel`. -/
def registerRow (ctxs : CtxId → Option Ctx) (lookup : Nat → Option CtxId) (c : CtxId) :
    Nat → Option CtxId :=
  match ctxs c with
  | none => lookup
  | some x =>
    if !x.inRange || x.isHit || !x.hasPendingIo || decide (cidCapacity ≤ x.cid) then lookup
    else Function.update lookup (lookupSlot (logicalQueue cfg.ctrls x) x.cid) (some c)

def Service.register (s : Service V) : Option (Service V) :=
  match s.current, s.todo with
  | some r, [] =>
    some { s with
      lookup := (List.range r.numIndex).foldl
        (fun lookup k => registerRow cfg s.ctxs lookup (r.id, k)) s.lookup
      requests := s.requests ++ [r]
      current := none }
  | _, _ => none

/-! ## Service -/

/-- The queue pair of a logical queue. -/
def localQueue : List Nat → Nat → Option QueueId
  | [], _ => none
  | n :: ns, l => if l < n then some (0, l) else (localQueue ns (l - n)).map fun q => (q.1 + 1, q.2)

/-- `finalize_registered_ctx_completion`, `none` when it returns `false`. -/
def finalizeCtx (x : Ctx) (pg : Page) : Option (Ctx × Page) :=
  if x.isHit || !x.inRange then none
  else
    match pg.valid, pg.busy with
    | true, false =>
      some ({ x with pageTrans := pg.offset, isHit := true, hasPendingIo := false }, pg)
    | false, true =>
      some ({ x with isHit := true, hasPendingIo := false },
        { pg with offset := x.pageTrans, valid := true, busy := false })
    | _, _ => none

/-- The context that a completion was looked up as. -/
def Service.finalize (s : Service V) (c : CtxId) : Service V :=
  match (s.ctxs c).bind fun x => finalizeCtx x (s.pages x.page) with
  | none => s
  | some (x, pg) =>
    { s with
      ctxs := Function.update s.ctxs c (some x)
      pages := Function.update s.pages x.page pg }

/-- One completion in `service_registered_cq_window_kernel`, of logical queue `l`. -/
def Service.serve (s : Service V) (l : Nat) : Option (Service V) := do
  let q ← localQueue cfg.ctrls l
  match s.posted q with
  | [] => none
  | cid :: rest =>
    let found := if cid < cidCapacity then s.lookup (lookupSlot l cid) else none
    let t : Service V :=
      { s with
        posted := Function.update s.posted q rest
        cidLocks := Function.update s.cidLocks q (Function.update (s.cidLocks q) cid false)
        cmds := Function.update s.cmds q (Function.update (s.cmds q) cid none)
        served := s.served ++ [((s.cmds q cid).map Cmd.owner, found)] }
    match found with
    | none => some t
    | some c => some { t.finalize c with
        lookup := Function.update s.lookup (lookupSlot l cid) none }

/-! ## Ready checks and gets -/

/-- `refresh_registered_ctx_from_valid_page`. -/
def refreshCtx (x : Ctx) (pg : Page) : Ctx :=
  if x.isHit || !x.inRange then x
  else if pg.valid && !pg.busy && decide (pg.offset < cfg.nSlots) then
    { x with pageTrans := pg.offset, isHit := true }
  else x

/-- The contexts of a request after `check_registered_request_ready_kernel`. -/
def Service.refresh (s : Service V) (id : Nat) (c : CtxId) : Option Ctx :=
  if c.1 = id then (s.ctxs c).map fun x => refreshCtx cfg x (s.pages x.page) else s.ctxs c

/-- `pending_count` stays 0. -/
def Service.AllHit (s : Service V) (r : Request) : Prop :=
  ∀ k < r.numIndex, (s.refresh cfg r.id (r.id, k)).any Ctx.isHit = true

instance (s : Service V) (r : Request) : Decidable (s.AllHit cfg r) :=
  inferInstanceAs (Decidable (∀ _ < _, _ = _))

/-- `registered_request_ready_at`, and the mark. -/
def Service.check (s : Service V) (offset : Nat) : Option (Service V) := do
  let r ← s.requests[offset]?
  if r.ready then some s
  else
    let t := { s with ctxs := s.refresh cfg r.id }
    if s.AllHit cfg r then
      some { t with requests := s.requests.set offset { r with ready := true } }
    else some t

/-- A row of `read_feature_kernel_get_feature_light_rowctx`: the page that its pointer releases
    when it goes, and the elements. -/
def Service.getRow (s : Service V) (r : Request) (k : Nat) : Option (Nat × List V) :=
  if cfg.count ≤ r.base k then none
  else
    (s.ctxs (r.id, k)).bind fun x =>
      if cfg.nSlots ≤ x.pageTrans then none
      else
        let start := cfg.elems * (r.base k / cfg.elems)
        some (r.base k / cfg.elems,
          (List.range r.dim).map fun tid => s.cache x.pageTrans (r.base k + tid - start))

/-- `read_feature_get_feature_light_registered_rowctx`. -/
def Service.get (s : Service V) : Option (Service V) :=
  match s.requests with
  | [] => none
  | r :: rest =>
    if r.ready then
      some { s with
        pages := fun p =>
          { s.pages p with
            cnt := (s.pages p).cnt - Nat.count
              (fun k => (s.getRow cfg r k).any (fun out => out.1 == p) = true) r.numIndex }
        ctxs := fun c => if c.1 = r.id then none else s.ctxs c
        requests := rest
        results := s.results ++
          [(r, (List.range r.numIndex).map fun k => (s.getRow cfg r k).map Prod.snd)] }
    else none

/-! ## The system -/

inductive ServiceAct
  | submit (rows : Nat → Nat) (numIndex dim cacheDim : Nat)
  | submitRow (k q m slot cid : Nat)
  | register
  /-- the controller has read the page into the slot -/
  | post (q : QueueId) (cid : Nat)
  | serve (l : Nat)
  | check (offset : Nat)
  | get

/-- What a controller may complete. -/
def Service.MayPost (s : Service V) (q : QueueId) (cid : Nat) : Prop :=
  (s.cmds q cid).isSome = true ∧ cid ∉ s.posted q

instance (s : Service V) (q : QueueId) (cid : Nat) : Decidable (s.MayPost q cid) :=
  inferInstanceAs (Decidable (_ ∧ _))

/-- What a slot has when a page was read into it. -/
def loadPage (ssd : Nat → V) (p : Nat) (slot : Nat → V) (j : Nat) : V :=
  if j < cfg.elems then ssd (p * cfg.elems + j) else slot j

def Service.post (ssd : Nat → V) (s : Service V) (q : QueueId) (cid : Nat) : Service V :=
  match s.cmds q cid with
  | none => s
  | some cmd =>
    { s with
      cache := Function.update s.cache cmd.slot (loadPage cfg ssd cmd.page (s.cache cmd.slot))
      posted := Function.update s.posted q (s.posted q ++ [cid]) }

def serviceStep (ssd : Nat → V) (s : Service V) : ServiceAct → Option (Service V)
  | .submit rows numIndex dim cacheDim =>
    if s.current.isSome then none
    else some { s with
      current := some ⟨s.nextId, rows, numIndex, dim, cacheDim, false⟩
      todo := List.range numIndex
      nextId := s.nextId + 1 }
  | .submitRow k q m slot cid => s.submitRow cfg k q m slot cid
  | .register => s.register cfg
  | .post q cid => if s.MayPost q cid then some (s.post cfg ssd q cid) else none
  | .serve l => if s.current.isSome then none else s.serve cfg l
  | .check offset => if s.current.isSome then none else s.check cfg offset
  | .get => if s.current.isSome then none else s.get cfg

/-- A cache with nothing in it, and no request. -/
structure Service.Init (s : Service V) : Prop where
  pages : ∀ p, (s.pages p).valid = false ∧ (s.pages p).busy = false ∧ (s.pages p).cnt = 0
  pageTranslation : s.pageTranslation = fun _ => none
  ctxs : s.ctxs = fun _ => none
  cidLocks : s.cidLocks = fun _ _ => false
  cmds : s.cmds = fun _ _ => none
  posted : s.posted = fun _ => []
  lookup : s.lookup = fun _ => none
  requests : s.requests = []
  current : s.current = none
  todo : s.todo = []
  nextId : s.nextId = 1
  served : s.served = []
  results : s.results = []

/-- The commands of submits go to the first controller, the one whose queues the lookup kernel
    takes them for. -/
def FirstCtrl : ServiceAct → Prop
  | .submitRow _ _ m _ _ => m = 0
  | _ => True

instance decidableFirstCtrl : ∀ a : ServiceAct, Decidable (FirstCtrl a)
  | .submitRow _ _ m _ _ => inferInstanceAs (Decidable (m = 0))
  | .submit _ _ _ _ => isTrue trivial
  | .register => isTrue trivial
  | .post _ _ => isTrue trivial
  | .serve _ => isTrue trivial
  | .check _ => isTrue trivial
  | .get => isTrue trivial

end GidsStack.Registered
