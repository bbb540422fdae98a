/-
  GidsStack.Feature.References

  The references that the split read takes and drops (gids_kernel.cu, page_cache.h).

  In `read_feature_kernel_submit_async` every lane walks its row with a `bam_ptr` that
  acquires a page whenever an element lies outside the window of the last one, and drops
  nothing. The kernels that fetch the row walk it again with pointers that acquire nothing
  and whose destructor releases the page they remember, the last one. Lanes that acquire or
  release a page together do so by one call, with their number as its count.

  Only the counters and the marks are followed here. Each load, store and atomic addition of
  `acquire_page_submit_async` and `release_page` on them is a step, and the calls of all warps
  are interleaved at these steps; a kernel ends when all its calls have. The lanes of a warp run
  in lockstep. `none` stands for a null page address that is read through.
-/

import GidsStack.Feature.Read
import GidsStack.Lib.Interleave
import GidsStack.PageCache.Machine

namespace GidsStack.Feature

open GidsStack.Kernel

/-! ## A page's counters -/

/-- The CNT field of `state`, `ref_count` and the marks of a page. -/
@[ext] structure PageRefs where
  cnt : Int
  refCount : Int
  prefetchCount : BitVec 8
  prefetchCounter : BitVec 8
  deriving DecidableEq

/-- A call of `acquire_page_submit_async` or `release_page`: the page and the number of lanes. -/
structure PageCall where
  page : Nat
  count : Nat
  deriving DecidableEq, Repr

/-- Where a call stands: in the marks of `acquire_page_submit_async`, before one of its two
    additions, or in `release_page`. -/
inductive CallPc where
  | prologue (k : PageCache.ProloguePc)
  | fetchAdd (pin : Bool)
  | addRefCount (pin : Bool)
  | release (k : PageCache.ReleasePc)
  deriving DecidableEq

/-- A call under way. -/
structure Running where
  call : PageCall
  pc : CallPc
  deriving DecidableEq

/-- The next step of a call of `count` lanes on its page; a call that misses has no more to do
    with the counters. -/
def PageRefs.advance (s : PageRefs) (count : Nat) : CallPc → PageRefs × Option CallPc
  | .prologue .loadPrefetch =>
    (s, some (.prologue (if PageCache.prefetchPlanned s.prefetchCount then
      .storePrefetch s.prefetchCount else .loadWindow false)))
  | .prologue (.storePrefetch w) =>
    ({ s with prefetchCount := w ||| 0x80#8 }, some (.prologue (.loadWindow true)))
  | .prologue (.loadWindow pin) =>
    (s, some (if PageCache.windowPlanned s.prefetchCounter then
      .prologue (.storeWindow s.prefetchCounter) else .fetchAdd pin))
  | .prologue (.storeWindow w) =>
    ({ s with prefetchCounter := w ||| 0x80#8 }, some (.fetchAdd true))
  | .fetchAdd pin =>
    ({ s with cnt := s.cnt + (count + pin.toNat : Nat) }, some (.addRefCount pin))
  | .addRefCount pin => ({ s with refCount := s.refCount + (count + pin.toNat : Nat) }, none)
  | .release .loadPrefetch =>
    (s, some (.release (
      if 0 < PageCache.byteCount s.prefetchCount then
        (if PageCache.byteCount s.prefetchCount = 1 ∧ PageCache.byteStarted s.prefetchCount then
          .storePrefetch else .subPrefetch)
      else .loadWindow false)))
  | .release .storePrefetch =>
    ({ s with prefetchCount := 0#8 }, some (.release (.loadWindow true)))
  | .release .subPrefetch =>
    ({ s with prefetchCount := s.prefetchCount - 1#8 }, some (.release (.loadWindow false)))
  | .release (.loadWindow tc) =>
    (s, some (.release (
      if 1 ≤ PageCache.byteCount s.prefetchCounter then
        (if PageCache.byteCount s.prefetchCounter = 1 ∧
            PageCache.byteStarted s.prefetchCounter then .storeWindow else .subWindow tc)
      else .subState tc)))
  | .release .storeWindow =>
    ({ s with prefetchCounter := 0#8 }, some (.release (.subState true)))
  | .release (.subWindow tc) =>
    ({ s with prefetchCounter := s.prefetchCounter - 1#8 }, some (.release (.subState tc)))
  | .release (.subState tc) =>
    ({ s with cnt := s.cnt - (count + tc.toNat : Nat) }, some (.release (.subRefCount tc)))
  | .release (.subRefCount tc) =>
    ({ s with refCount := s.refCount - (count + tc.toNat : Nat) }, none)

/-- The next step of a call on all pages. -/
def callStep (s : Nat → PageRefs) (x : Running) : (Nat → PageRefs) × Option Running :=
  let next := (s x.call.page).advance x.call.count x.pc
  (Function.update s x.call.page next.1, next.2.map (Running.mk x.call))

/-- The calls have all returned, in some interleaving of their steps. -/
def Calls (start : CallPc) (s : Nat → PageRefs) (calls : List PageCall) (t : Nat → PageRefs) :
    Prop :=
  Lib.Interleave callStep s (calls.map fun c => ⟨c, start⟩) t

/-- The kernel of the submit has run. -/
abbrev Acquires : (Nat → PageRefs) → List PageCall → (Nat → PageRefs) → Prop :=
  Calls (.prologue .loadPrefetch)

/-- A kernel that fetches has run. -/
abbrev Releases : (Nat → PageRefs) → List PageCall → (Nat → PageRefs) → Prop :=
  Calls (.release .loadPrefetch)

/-- The calls of the masters of a warp whose lanes want these pages (`__match_any_sync`). -/
def coalesce (pages : List Nat) : List PageCall :=
  pages.dedup.map fun pg => ⟨pg, pages.count pg⟩

/-! ## A lane's pointer -/

/-- A lane's `bam_ptr`: whether `page` is a page (`release_page` computes which one from
    `start`), and the window of elements it stands for. -/
structure BamPtr where
  held : Bool
  start : Nat
  stop : Nat
  deriving DecidableEq, Repr

def BamPtr.new : BamPtr := ⟨false, 0, 0⟩

/-- `(i < start) || (i >= end)`. -/
def BamPtr.outside (p : BamPtr) (i : Nat) : Bool := decide (i < p.start) || decide (p.stop ≤ i)

/-- The pointer on the page of an element. -/
def ReadCall.window (r : ReadCall) (i : Nat) : BamPtr :=
  ⟨true, r.nElemsPerPage * r.page i, r.nElemsPerPage * r.page i + r.nElemsPerPage⟩

/-- `read_submit_async`: the pointer, and the page the lane acquires. -/
def readSubmitAsync (r : ReadCall) (p : BamPtr) (i : Nat) : BamPtr × Option Nat :=
  if p.outside i then
    if i < r.count then (r.window i, some (r.page i)) else ({ p with held := false }, none)
  else (p, none)

/-- `read_wait_async` and `read_single_thread_get`. -/
def readWaitAsync (r : ReadCall) (i : Nat) : Option BamPtr :=
  if i < r.count then some (r.window i) else none

/-- `ASYNC_PAGE_TRANS_PENDING`. -/
def asyncPageTransPending : Nat := 0xFFFFFFFF

/-- `read_post_poll_light`, with the slot the lane's context names. -/
def readPostPollLight (r : ReadCall) (nPages pageTrans : Nat) (p : BamPtr) (i : Nat) :
    Option BamPtr :=
  if p.outside i then
    if i < r.count ∧ ¬(pageTrans = asyncPageTransPending ∨ nPages ≤ pageTrans) then
      some (r.window i)
    else none
  else some p

/-! ## The submit kernel -/

/-- Lane `lane` has an element in chunk `c`. -/
def ReadCall.active (r : ReadCall) (c lane : Nat) : Prop := c * 32 + lane < r.launch.dimU

instance (r : ReadCall) (c lane : Nat) : Decidable (r.active c lane) := Nat.decLt _ _

/-- The element of a lane in chunk `c` of the row of warp `w`. -/
def ReadCall.laneElem (r : ReadCall) (w c lane : Nat) : Nat := r.elem r.keyOff w (c * 32 + lane)

/-- One iteration of the loop of `read_feature_kernel_submit_async`, for a warp. -/
def submitPins (r : ReadCall) (w : Nat) (ptrs : Nat → BamPtr) (c : Nat) :
    (Nat → BamPtr) × List PageCall :=
  let read lane := readSubmitAsync r (ptrs lane) (r.laneElem w c lane)
  (fun lane => if r.active c lane then (read lane).1 else ptrs lane,
    coalesce ((List.range 32).filterMap fun lane =>
      if r.active c lane then (read lane).2 else none))

/-- The acquires of a warp; `fini(false)` drops nothing. -/
def submitWarp (r : ReadCall) (w : Nat) : List PageCall :=
  ((List.range r.chunks).foldl (fun st c =>
    let next := submitPins r w st.1 c
    (next.1, st.2 ++ next.2)) ((fun _ => .new), [])).2

/-- The acquires of `read_feature_kernel_submit_async`. -/
def submitCalls (r : ReadCall) : List PageCall := r.warps.flatMap (submitWarp r)

/-! ## The kernels that fetch the rows -/

/-- `read_feature_kernel_wait_async`, `read_feature_kernel_get_feature` and
    `read_feature_kernel_get_feature_light`. -/
inductive GetKernel where
  | waitAsync
  | getFeature
  | getFeatureLight
  deriving DecidableEq, Repr

/-- What a lane's read leaves in its pointer; `trans` has the slots the contexts name, by warp
    and chunk. -/
def GetKernel.read (k : GetKernel) (r : ReadCall) (nPages pageTrans : Nat) (p : BamPtr)
    (i : Nat) : Option BamPtr :=
  match k with
  | .waitAsync | .getFeature => readWaitAsync r i
  | .getFeatureLight => readPostPollLight r nPages pageTrans p i

/-- One iteration of the loop, for a warp. -/
def GetKernel.chunk (k : GetKernel) (r : ReadCall) (nPages : Nat) (trans : Nat → Nat → Nat)
    (w : Nat) (ptrs : Nat → BamPtr) (c : Nat) : Option (Nat → BamPtr) :=
  let read lane := k.read r nPages (trans w c) (ptrs lane) (r.laneElem w c lane)
  if ∀ lane ∈ List.range 32, r.active c lane → (read lane).isSome then
    some fun lane => if r.active c lane then (read lane).getD (ptrs lane) else ptrs lane
  else none

/-- `~bam_ptr` of the lanes of a warp: `fini(true)`, and `array_d_t::release_page`. -/
def finiCalls (r : ReadCall) (ptrs : Nat → BamPtr) : List PageCall :=
  coalesce ((List.range 32).filterMap fun lane =>
    if (ptrs lane).held then some (r.page (ptrs lane).start) else none)

/-- The releases of a warp. -/
def GetKernel.warp (k : GetKernel) (r : ReadCall) (nPages : Nat) (trans : Nat → Nat → Nat)
    (w : Nat) : Option (List PageCall) :=
  ((List.range r.chunks).foldlM (k.chunk r nPages trans w) (fun _ => .new)).map (finiCalls r)

/-- The releases of a kernel. -/
def GetKernel.calls (k : GetKernel) (r : ReadCall) (nPages : Nat) (trans : Nat → Nat → Nat) :
    Option (List PageCall) :=
  (r.warps.mapM (k.warp r nPages trans)).map List.flatten

/-- What the submit of a row pins is released exactly once, with the same count, and nothing
    else is. -/
structure RowReturned (pins releases : List PageCall) : Prop where
  once : (pins.map PageCall.page).Nodup
  same : releases.Perm pins

/-- After the submit and the kernel, in whatever interleaving the calls of each run, CNT is what
    it was, and every row has released what it pinned. -/
structure ReferencesBalanced (k : GetKernel) (r : ReadCall) (s : Nat → PageRefs) : Prop where
  cnt : ∀ nPages trans calls, k.calls r nPages trans = some calls →
    ∀ t u, Acquires s (submitCalls r) t → Releases t calls u → ∀ pg, (u pg).cnt = (s pg).cnt
  rows : ∀ nPages trans calls, k.calls r nPages trans = some calls →
    ∀ w ∈ r.warps, ∀ releases, k.warp r nPages trans w = some releases →
      RowReturned (submitWarp r w) releases

end GidsStack.Feature
