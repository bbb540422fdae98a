/-
  GidsStack.Feature.Read

  `read_feature` in its two modes.

  With `GIDS_FORCE_SYNC_READ` one kernel reads every element through `bam_ptr::read`, which
  returns the array's element. By default a submit kernel first makes every page resident or
  on its way and notes in one context per row and chunk where it will be, and a wait kernel
  then reads through the slot the context leads to.

  The page cache is seen between two warps: a page is invalid, on its way into a slot (the
  submit's command is outstanding) or valid in a slot, and a slot holds the page that was last
  read into it. No other request is outstanding. Lanes of a chunk on one page acquire it
  together, by a master; a chunk's pages are acquired one after the other through the chunk's
  one context. `none` stands for what leaves the program's control: a context outside the
  allocation, a null page address, a wait that never ends, a slot nothing was read into.
-/

import GidsStack.Feature.Launch

namespace GidsStack.Feature

open GidsStack.Kernel

/-! ## Calls -/

/-- A call of `read_feature` on a store whose array is one range; `blkSize` is 128. -/
structure ReadCall where
  launch : Launch
  index : Nat → Int
  cacheDim : Int
  keyOff : Nat
  nElemsPerPage : Nat
  count : Nat
  bSize_eq : launch.bSize = 128
  nElemsPerPage_pos : 0 < nElemsPerPage
  count_le : count ≤ 2 ^ 63

namespace ReadCall

/-- `row_index * cache_dim + tid` in `uint64_t`, for the row of warp `w` and the key offset
    that the kernel was given. -/
def elem (r : ReadCall) (keyOff w tid : Nat) : Nat :=
  (((r.index w + keyOff) * r.cacheDim + tid) % 18446744073709551616).toNat

/-- `get_page`; the range starts at element 0. -/
def page (r : ReadCall) (i : Nat) : Nat := i / r.nElemsPerPage

/-- The warps that have a row: `bid * num_warps + warp_id`, cut to `int`, below `num_idx`. -/
def warps (r : ReadCall) : List Nat :=
  (List.range r.launch.totalWarps).filter fun w => int32 w < r.launch.numIndex

/-- The number of chunks that lane 0 walks. -/
def chunks (r : ReadCall) : Nat := loopCount 32 r.launch.dimU 0

/-- The elements of chunk `c`, one a lane. -/
def lanes (r : ReadCall) (c : Nat) : List Nat :=
  (List.range 32).map (c * 32 + ·) |>.filter (· < r.launch.dimU)

end ReadCall

/-! ## The synchronous mode -/

variable {E : Type}

/-- `read_feature_kernel`. -/
def readFeatureKernel (r : ReadCall) (array out : Nat → E) : Option (Nat → E) :=
  let cells := r.warps.flatMap fun w => (List.range r.launch.dimU).map fun tid => (w, tid)
  if ∀ c ∈ cells, 0 ≤ int32 c.1 ∧ r.elem r.keyOff c.1 c.2 < r.count then
    some (scatter out (fun c => c.1 * r.launch.dimU + c.2)
      (fun c => array (r.elem r.keyOff c.1 c.2)) cells)
  else none

/-! ## The page cache between warps -/

inductive PageState where
  | nvNb
  | nvB (slot : Nat)
  | vNb (slot : Nat)
  deriving DecidableEq, Repr

structure Pages where
  state : Nat → PageState
  /-- The page that was last read into a slot. -/
  holds : Nat → Option Nat

/-- `find_slot` has taken the slot from the page that was valid in it. -/
def Pages.evict (c : Pages) (slot : Nat) : Pages :=
  { c with state := fun pg => if c.state pg = .vNb slot then .nvNb else c.state pg }

/-- The fields of `s_ctx` that the wait reads; `cudaMemset` has zeroed them. -/
structure SCtx where
  isHit : Bool
  pageTrans : Nat
  deriving DecidableEq, Repr

def SCtx.zeroed : SCtx := ⟨false, 0⟩

/-- `acquire_page_submit_async`, for the slot that `find_slot` returns. -/
def acquirePageSubmitAsync (findSlot : Pages → Nat) (c : Pages) (pg : Nat) : Pages × SCtx :=
  match c.state pg with
  | .nvNb =>
    let evicted := c.evict (findSlot c)
    ({ evicted with state := Function.update evicted.state pg (.nvB (findSlot c)) },
      ⟨false, findSlot c⟩)
  | .vNb slot => (c, ⟨true, slot⟩)
  | .nvB slot => (c, ⟨false, slot⟩)

/-- `acquire_page_wait_async`: the slot it returns. On a page that is on its way the caller
    polls, and publishes the slot its context names. -/
def acquirePageWaitAsync (c : Pages) (pg : Nat) (ctx : SCtx) : Option (Pages × SCtx × Nat) :=
  if ctx.isHit then some (c, ctx, ctx.pageTrans)
  else
    match c.state pg with
    | .vNb slot => some (c, { ctx with pageTrans := slot }, slot)
    | .nvB _ =>
      some (⟨Function.update c.state pg (.vNb ctx.pageTrans),
          Function.update c.holds ctx.pageTrans (some pg)⟩,
        { ctx with isHit := true }, ctx.pageTrans)
    | .nvNb => none

/-! ## The default mode -/

/-- The cache and the contexts that `read_feature` has allocated. -/
structure Split where
  pages : Pages
  ctxs : Nat → SCtx

/-- The context of warp `w` and chunk `c`, if it has been allocated. -/
def ctxIndex (r : ReadCall) (w c : Nat) : Option Nat :=
  let index := int32 (int32 w * 32 + c)
  if 0 ≤ index ∧ index < (EntryPoint.readFeature.totalCtxs r.launch : Int) then some index.toNat
  else none

/-- The pages that the lanes of a chunk have to acquire in the submit: a lane whose pointer is
    on the page already does nothing, and an element outside the range has no page. -/
def submitPages (r : ReadCall) (w c : Nat) : List Nat :=
  ((r.lanes c).filter fun tid => r.elem 0 w tid < r.count ∧
    (c = 0 ∨ r.page (r.elem 0 w tid) ≠ r.page (r.elem 0 w (tid - 32)))).map
      (fun tid => r.page (r.elem 0 w tid)) |>.dedup

def submitChunk (findSlot : Pages → Nat) (r : ReadCall) (s : Split) (w c : Nat) : Option Split :=
  (ctxIndex r w c).map fun ci => (submitPages r w c).foldl (fun s pg =>
    let acquired := acquirePageSubmitAsync findSlot s.pages pg
    ⟨acquired.1, Function.update s.ctxs ci acquired.2⟩) s

/-- `read_feature_kernel_submit_async`, called with `key_off` 0. -/
def readFeatureKernelSubmitAsync (findSlot : Pages → Nat) (r : ReadCall) (s : Split) :
    Option Split :=
  (r.warps.flatMap fun w => (List.range r.chunks).map fun c => (w, c)).foldlM
    (fun s wc => submitChunk findSlot r s wc.1 wc.2) s

/-- The lanes of a chunk on page `pg` read through `slot` and write to the output tensor. -/
def readLanes (r : ReadCall) (array : Nat → E) (pages : Pages) (slot w c pg : Nat)
    (out : Nat → E) : Option (Nat → E) :=
  (pages.holds slot).map fun held =>
    scatter out (fun tid => w * r.launch.dimU + tid)
      (fun tid => array (held * r.nElemsPerPage + r.elem 0 w tid % r.nElemsPerPage))
      ((r.lanes c).filter fun tid => r.page (r.elem 0 w tid) = pg)

/-- One page of a chunk in the wait. -/
def waitPage (r : ReadCall) (array : Nat → E) (w c ci : Nat) (s : Split × (Nat → E)) (pg : Nat) :
    Option (Split × (Nat → E)) := do
  let (pages, ctx, slot) ← acquirePageWaitAsync s.1.pages pg (s.1.ctxs ci)
  let out ← readLanes r array pages slot w c pg s.2
  some (⟨pages, Function.update s.1.ctxs ci ctx⟩, out)

/-- The pages of the lanes of a chunk. -/
def waitPages (r : ReadCall) (w c : Nat) : List Nat :=
  ((r.lanes c).map fun tid => r.page (r.elem 0 w tid)).dedup

def waitChunk (r : ReadCall) (array : Nat → E) (s : Split × (Nat → E)) (w c : Nat) :
    Option (Split × (Nat → E)) := do
  let ci ← ctxIndex r w c
  if ∀ tid ∈ r.lanes c, r.elem 0 w tid < r.count then
    (waitPages r w c).foldlM (waitPage r array w c ci) s
  else none

/-- `read_feature_kernel_wait_async`, called with `key_off` 0. -/
def readFeatureKernelWaitAsync (r : ReadCall) (array : Nat → E) (s : Split) (out : Nat → E) :
    Option (Split × (Nat → E)) :=
  (r.warps.flatMap fun w => (List.range r.chunks).map fun c => (w, c)).foldlM
    (fun s wc => waitChunk r array s wc.1 wc.2) (s, out)

/-- `read_feature` without a CPU buffer: what it leaves in the output tensor. -/
def readFeature (forceSync : Bool) (findSlot : Pages → Nat) (r : ReadCall) (pages : Pages)
    (array out : Nat → E) : Option (Nat → E) :=
  if forceSync then readFeatureKernel r array out
  else do
    let submitted ← readFeatureKernelSubmitAsync findSlot r ⟨pages, fun _ => .zeroed⟩
    let (_, out) ← readFeatureKernelWaitAsync r array submitted out
    some out

end GidsStack.Feature
