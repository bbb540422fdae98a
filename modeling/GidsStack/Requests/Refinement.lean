/-
  GidsStack.Requests.Refinement

  Registered requests against the synchronous read. The rows of a request take part in the
  page cache's races: one of them leads the miss of a page and the others follow it, and the
  completions come back in any order. A request that is ready has the slots of its pages, and
  a get writes what `read_feature_kernel` writes.
-/

import GidsStack.Requests.RowctxRuns
import GidsStack.Feature.CpuBuffer

namespace GidsStack.Rowctx

open Lib (Reachable Guarded runActs runOk reachable_of_runActs)
open PageCache
open Feature (ReadCall readFeatureKernel readFeatureKernel_some_iff RowsInRange int32 int32_of_lt)

/-! ## The synchronous read -/

section Sync

variable {A V : Type} {cfg : StoreConfig} {ssd : PageId 1 → Nat → V}

/-- The synchronous read of the rows of a request. -/
structure SyncCall (cfg : StoreConfig) (r : Request A) (call : ReadCall) : Prop where
  numIndex : call.launch.numIndex = r.numIndex
  dim : call.launch.dim = r.dim
  cacheDim : call.cacheDim = r.cacheDim
  index : ∀ k < r.numIndex, call.index k = r.rows k
  keyOff : call.keyOff = 0
  nElemsPerPage : call.nElemsPerPage = cfg.elems
  count : call.count = cfg.count

namespace SyncCall

variable {r : Request A} {call : ReadCall}

theorem dimU (h : SyncCall cfg r call) : call.launch.dimU = r.dim := by
  have hdim := call.launch.dimU_of_nonneg (by rw [h.dim]; omega)
  rw [h.dim] at hdim
  exact Int.ofNat_inj.mp hdim

/-- The kernel reads the elements of the row. -/
theorem elem (h : SyncCall cfg r call) (hfits : r.Fits cfg) {k tid : Nat} (hk : k < r.numIndex)
    (htid : tid < r.dim) : call.elem call.keyOff k tid = r.base k + tid := by
  have hrange := (hfits k hk).range
  have hcount := call.count_le
  rw [h.count] at hcount
  rw [ReadCall.elem, h.index k hk, h.keyOff, h.cacheDim]
  have hcast : ((r.rows k + (0 : Nat) : Int) * r.cacheDim + tid) = (r.base k + tid : Nat) := by
    rw [Request.base]
    push_cast
    ring
  rw [hcast]
  omega

/-- Every row has a warp. -/
theorem mem_warps (h : SyncCall cfg r call) {k : Nat} (hk : k < r.numIndex) : k ∈ call.warps := by
  have htotal := call.launch.totalWarps_bounds.1
  rw [h.numIndex] at htotal
  rw [ReadCall.warps, List.mem_filter, List.mem_range, h.numIndex, int32]
  exact ⟨by omega, decide_eq_true (by omega)⟩

/-- What the synchronous read writes for a row. -/
theorem row (h : SyncCall cfg r call) (hfits : r.Fits cfg) {mem out : Nat → V}
    (hout : readFeatureKernel call (elements cfg ssd) mem = some out) {k : Nat}
    (hk : k < r.numIndex) :
    (List.range r.dim).map (fun tid => out (k * r.dim + tid)) = r.row cfg ssd k := by
  obtain ⟨-, rfl⟩ := readFeatureKernel_some_iff.mp hout
  refine List.map_congr_left fun tid htid => ?_
  have htid := List.mem_range.mp htid
  rw [← h.elem hfits hk htid, ← h.dimU]
  exact Feature.scatter_cell mem (fun c => elements cfg ssd (call.elem call.keyOff c.1 c.2))
    (h.mem_warps hk) (by rw [h.dimU]; exact htid)

/-- The synchronous read returns, as long as row numbers fit `int`. -/
theorem returns (h : SyncCall cfg r call) (hfits : r.Fits cfg) (hint : r.numIndex ≤ 2147483648)
    (mem : Nat → V) : (readFeatureKernel call (elements cfg ssd) mem).isSome = true := by
  have hrows : RowsInRange call := by
    intro w hw tid htid
    rw [ReadCall.warps, List.mem_filter, List.mem_range, h.numIndex] at hw
    obtain ⟨hlt, hrow⟩ := hw
    have hrow := of_decide_eq_true hrow
    have hbound := call.launch.totalWarps_bounds.2
    have hwarp : call.launch.nWarp = 4 := by rw [Feature.Launch.nWarp, call.bSize_eq]
    have hmul : call.launch.totalWarps % 4 = 0 := by
      rw [Feature.Launch.totalWarps, hwarp]
      exact Nat.mul_mod_left _ _
    rw [h.numIndex, hwarp] at hbound
    have hk : int32 w = w := int32_of_lt (by omega) (by omega)
    rw [hk] at hrow ⊢
    have hk' : w < r.numIndex := by omega
    rw [h.dimU] at htid
    rw [h.elem hfits hk' htid, h.count]
    have hrange := (hfits w hk').range
    exact ⟨by omega, by omega⟩
  exact Option.isSome_iff_exists.mpr ⟨_, readFeatureKernel_some_iff.mpr ⟨hrows, rfl⟩⟩

end SyncCall

end Sync

/-! ## Runs -/

section Runs

variable {A V : Type} [DecidableEq A] {cfg : StoreConfig} {ssd : PageId 1 → Nat → V}
  {s s' : Store A V}

/-- Rows are submitted that lie inside of the range and of one page. -/
def SubmitsFit {A V : Type} (cfg : StoreConfig) (s : Store A V) : Act A → Prop
  | .submit ctxs rows dim cacheDim =>
    Request.Fits cfg ⟨s.nextId, ctxs, rows, dim, cacheDim, false⟩
  | _ => True

/-- A warp raises the count of a page only where its field has room. -/
def CountsFit {A V : Type} (s : Store A V) : Act A → Prop
  | .run a => AddsFit s.cache (.run a)
  | _ => True

/-- The steps of a run that refines the synchronous read. -/
structure RunFits {A V : Type} (cfg : StoreConfig) (s : Store A V) (act : Act A) : Prop where
  rows : SubmitsFit cfg s act
  counts : CountsFit s act

section Decidable

variable {A V : Type} (cfg : StoreConfig) (s : Store A V)

instance decidableSubmitsFit : ∀ act : Act A, Decidable (SubmitsFit cfg s act)
  | .submit ctxs rows dim cacheDim =>
    inferInstanceAs (Decidable (Request.Fits cfg ⟨s.nextId, ctxs, rows, dim, cacheDim, false⟩))
  | .start _ _ => isTrue trivial
  | .run _ => isTrue trivial
  | .spurious _ => isTrue trivial
  | .register => isTrue trivial
  | .post _ _ => isTrue trivial
  | .serve _ => isTrue trivial
  | .check _ => isTrue trivial
  | .get => isTrue trivial

instance decidableCountsFit : ∀ act : Act A, Decidable (CountsFit s act)
  | .run a => inferInstanceAs (Decidable (AddsFit s.cache (.run a)))
  | .submit _ _ _ _ => isTrue trivial
  | .start _ _ => isTrue trivial
  | .spurious _ => isTrue trivial
  | .register => isTrue trivial
  | .post _ _ => isTrue trivial
  | .serve _ => isTrue trivial
  | .check _ => isTrue trivial
  | .get => isTrue trivial

instance (act : Act A) : Decidable (RunFits cfg s act) :=
  decidable_of_iff (SubmitsFit cfg s act ∧ CountsFit s act)
    ⟨fun ⟨h1, h2⟩ => ⟨h1, h2⟩, fun h => ⟨h.rows, h.counts⟩⟩

end Decidable

/-- The states of the store in all runs whose steps meet a condition. -/
abbrev Reached (cfg : StoreConfig) (ssd : PageId 1 → Nat → V)
    (ok : Store A V → Act A → Prop) (s : Store A V) : Prop :=
  Reachable (Init ssd) (Guarded (step cfg) ok) s

/-- The step lemma, one case for each action. -/
theorem Inv.step [Fintype A] (h : Inv cfg ssd s) {act : Act A} (hok : RunFits cfg s act)
    (hstep : step cfg s act = some s') : Inv cfg ssd s' := by
  cases act with
  | submit ctxs rows dim cacheDim =>
    obtain ⟨⟨hcur, hnd, hidle⟩, hstep⟩ := Option.ite_none_right_eq_some.mp hstep
    exact Option.some.inj hstep ▸ h.submit (Option.isNone_iff_eq_none.mp hcur) hnd hidle hok.rows
  | start k queue => exact h.start hstep
  | run a => exact h.run hok.counts hstep
  | spurious a => exact h.spurious hstep
  | register => exact h.register hstep
  | post queue n => exact h.post hstep
  | serve l =>
    obtain ⟨⟨hcur, -⟩, hstep⟩ := Option.ite_none_right_eq_some.mp hstep
    exact h.serve (Option.isNone_iff_eq_none.mp hcur) hstep
  | check offset =>
    obtain ⟨-, hstep⟩ := Option.ite_none_right_eq_some.mp hstep
    exact h.check hstep
  | get =>
    obtain ⟨hcur, hstep⟩ := Option.ite_none_right_eq_some.mp hstep
    exact h.get (Option.isNone_iff_eq_none.mp hcur) hstep

/-- The run lemma. -/
theorem inv_reached [Fintype A] (h : Reached cfg ssd (RunFits cfg) s) : Inv cfg ssd s :=
  h.invariant (fun _ => .init) fun _ _ _ hi hstep => hi.step hstep.1 hstep.2

end Runs

/-! ### Rows that share a page

    The warps of the first request interleave, and the second follows the first's miss of page 0
    from another queue pair. Its own page comes first. -/

/-- Two slots for four pages of two elements. -/
def smallStore : StoreConfig where
  cache := smallConfig 2 1 twoSlots_ok oneCtrl_ok
  nQps := 2
  elems := 2
  count := 8
  oneCtrl := rfl
  count_lt := by decide

/-- A warp makes some steps. -/
def runs {A : Type} (a : A) (n : Nat) : List (Act A) := List.replicate n (.run a)

-- Named, as in the runs of the cache.
scoped instance fourContexts : NeZero 4 := ⟨Nat.succ_ne_zero 3⟩

section Filling

variable {N : Nat} {ssd : PageId 1 → Nat → Nat} {s : Store (Fin N) Nat}

end Filling

/-- A request that brings page 0 in and is answered. -/
def onePage : List (Act (Fin 536870912)) :=
  List.flatten [
    [.submit [⟨0, by decide⟩] (fun _ => 0) 2 2, .start 0 0],
    runs ⟨0, by decide⟩ 17,
    [.register, .post 0 0, .serve 0, .check 0, .get]]

end GidsStack.Rowctx
