/-
  GidsStack.Loader.GidsSplit

  Split mode of `_PrefetchingIter_async_registered_try_service` (GIDS.py): every batch is
  submitted as several micro-batches, as far as the IO budget allows, and the micro-batches
  that are ready at the front are copied into the result of their batch ahead of time.

  An item of the queue is known by its position.  The last one may still be in the middle of
  its submits; `PendingItem.tail` says so.
-/

import GidsStack.Loader.GidsIterator

namespace GidsStack.Loader

open GidsStack.Cuts

/-! ## Items -/

/-- The metadata that `_build_split_item` makes. -/
structure SplitItem (R T F : Type) where
  logicalIterId : Nat
  batch : Sampled R T
  ioCount : Nat
  microBatches : List (List R)
  microRanges : List (Nat × Nat)
  microIoCounts : List Nat
  requestIds : List Nat
  submittedMicroCount : Nat
  consumedMicroCount : Nat
  fullySubmitted : Bool
  materializedFlags : List Bool
  materializedMicroCount : Nat
  materializedReturnTorch : Option (List F)

/-- `_split_ranges`. -/
def GidsLoader.splitRanges {R F : Type} (loader : GidsLoader R F) (totalCount : Nat) :
    List (Nat × Nat) :=
  let commandCount := max 1 (min loader.commands (max 1 totalCount))
  partRanges (totalCount / commandCount) (totalCount % commandCount) 0 commandCount

/-- `t[start:end].copy_(rows)`, for as many rows as the slice has. -/
def copySlice {F : Type} (t : List F) (r : Nat × Nat) (rows : List F) : List F :=
  t.take r.1 ++ rows ++ t.drop r.2

namespace SplitItem

variable {R T F : Type}

/-- `_build_split_item`. -/
def build (loader : GidsLoader R F) (logicalIterId : Nat) (batch : Sampled R T) (ioCount : Nat) :
    SplitItem R T F :=
  let microRanges := loader.splitRanges ioCount
  let microBatches := microRanges.map (slice batch.inputNodes)
  { logicalIterId := logicalIterId
    batch := batch
    ioCount := ioCount
    microBatches := microBatches
    microRanges := microRanges
    microIoCounts := microRanges.map fun r => r.2 - r.1
    requestIds := []
    submittedMicroCount := 0
    consumedMicroCount := 0
    fullySubmitted := false
    materializedFlags := List.replicate microBatches.length false
    materializedMicroCount := 0
    materializedReturnTorch := none }

/-- The item after the submit of its next micro-batch. -/
def submit (item : SplitItem R T F) (requestId : Nat) : SplitItem R T F :=
  let submittedMicroCount := item.submittedMicroCount + 1
  { item with
    requestIds := item.requestIds ++ [requestId]
    submittedMicroCount
    fullySubmitted := item.fullySubmitted || decide (item.microBatches.length ≤ submittedMicroCount) }

/-- `_ensure_split_return_buffer`. -/
def returnBuffer (loader : GidsLoader R F) (item : SplitItem R T F) : List F :=
  item.materializedReturnTorch.getD (List.replicate item.batch.inputNodes.length loader.uninit)

/-- The item after a micro-batch has been copied into its result. -/
def materialize (loader : GidsLoader R F) (item : SplitItem R T F) (microIdx : Nat)
    (r : Nat × Nat) (rows : List F) : SplitItem R T F :=
  { item with
    materializedReturnTorch := some (copySlice (item.returnBuffer loader) r rows)
    materializedFlags := item.materializedFlags.set microIdx true
    materializedMicroCount := max item.materializedMicroCount (microIdx + 1) }

/-- The io counts of the micro-batches that are submitted and not materialized. -/
def unmaterializedIos (item : SplitItem R T F) : Nat :=
  ((item.microIoCounts.take item.submittedMicroCount).drop item.materializedMicroCount).sum

end SplitItem

abbrev SplitIter (R T F : Type) : Type := GidsIter (SplitItem R T F) R T

abbrev SplitProgram (R T F A : Type) : Type := GidsProgram (SplitItem R T F) R T A

namespace SplitIter

variable {R T F : Type}

/-- The object in `pending_split_item`. -/
def pendingItem (it : SplitIter R T F) : Option (SplitItem R T F) :=
  match it.pendingSplitItem with
  | .none => none
  | .fresh item => some item
  | .tail => it.prefetchQueue.getLast?

/-- What `ioLog` records. -/
def logged (it : SplitIter R T F) : SplitIter R T F :=
  { it with
    ioLog := it.ioLog ++
      [(it.outstandingIoCount, (it.prefetchQueue.map SplitItem.unmaterializedIos).sum)] }

/-- The iterator after a micro-batch of the pending item has been submitted: the first one
    puts the item into the queue, and the last one leaves none pending. -/
def recordSubmit (it : SplitIter R T F) (item : SplitItem R T F) (requestId ioCount : Nat) :
    SplitIter R T F :=
  let item' := item.submit requestId
  { it with
    prefetchQueue :=
      if item.submittedMicroCount = 0 then it.prefetchQueue ++ [item']
      else it.prefetchQueue.dropLast ++ [item']
    outstandingIoCount := it.outstandingIoCount + ioCount
    pendingSplitItem :=
      if item'.microBatches.length ≤ item'.submittedMicroCount then .none else .tail }

/-- `_front_pending_split_request`, from position `pos` on: the position of the item, the
    micro-batch and its request. -/
def frontPending : Nat → List (SplitItem R T F) → Except PyError (Option (Nat × Nat × Nat))
  | _, [] => .ok none
  | pos, item :: rest =>
    if item.submittedMicroCount ≤ item.materializedMicroCount then frontPending (pos + 1) rest
    else do
      let requestId ← index item.requestIds item.materializedMicroCount
      return some (pos, item.materializedMicroCount, requestId)

variable (loader : GidsLoader R F) (fuel : Nat)

/-! ## Submits -/

/-- `_next_split_item_for_submit`. -/
def nextSplitItemForSubmit : SplitProgram R T F (Option (SplitItem R T F)) := do
  let s ← Prog.get
  match pendingItem s.iter with
  | some item => return some item
  | none =>
    match ← GidsIter.getNextBatchForSubmit with
    | none => return none
    | some (batch, ioCount) =>
      let s ← Prog.get
      let item := SplitItem.build loader s.iter.nextLogicalIterId batch ioCount
      setIter fun it =>
        { it with
          nextLogicalIterId := it.nextLogicalIterId + 1
          pendingBatch := none
          pendingIoCount := 0
          pendingSplitItem := .fresh item }
      return some item

/-- `_submit_prefetch_split`. -/
def submitPrefetch : SplitProgram R T F Bool := do
  let s ← Prog.get
  if s.iter.exhausted ∧ s.iter.pendingBatch.isNone ∧ (pendingItem s.iter).isNone then return false
  else
    match ← nextSplitItemForSubmit loader with
    | none => return false
    | some item =>
      let microIoCount ← Prog.lift (index item.microIoCounts item.submittedMicroCount)
      let s ← Prog.get
      if GidsIter.canSubmitIos loader s.iter microIoCount = false then return false
      else
        let microBatch ← Prog.lift (index item.microBatches item.submittedMicroCount)
        let requestId ← GidsIter.fetchSubmit microBatch
        setIter fun it => logged (recordSubmit it item requestId microIoCount)
        return true

/-- `_fill_prefetch_queue`. -/
def fillPrefetchQueue : SplitProgram R T F Unit :=
  Prog.loop (fun _ => do
    let s ← Prog.get
    if s.iter.exhausted then return .inr ()
    else if loader.depth ≤ s.iter.prefetchQueue.length ∧ (pendingItem s.iter).isNone then
      return .inr ()
    else if ← submitPrefetch loader then return .inl ()
    else return .inr ()) fuel ()

/-- `_ensure_front_logical_item_fully_submitted`. -/
def ensureFrontFullySubmitted : SplitProgram R T F Unit :=
  Prog.loop (fun _ => do
    let s ← Prog.get
    match s.iter.prefetchQueue with
    | [] => return .inr ()
    | front :: _ =>
      if front.fullySubmitted then return .inr ()
      else if ← submitPrefetch loader then return .inl ()
      else Prog.throw (.runtime ("Front logical iter is not fully submitted. Increase " ++
        "GIDS_MAX_REGISTERED_OUTSTANDING_IOS or reduce " ++
        "GIDS_REGISTERED_SUBMIT_COMMANDS_PER_BATCH."))) fuel ()

/-! ## Gets -/

/-- `_materialize_split_micro` of the item at `pos`. -/
def materializeSplitMicro (pos microIdx : Nat) : SplitProgram R T F Unit := do
  let s ← Prog.get
  let item ← Prog.lift (index s.iter.prefetchQueue pos)
  let microBatch ← Prog.lift (index item.microBatches microIdx)
  let rows ← GidsIter.fetchGet loader microBatch
  let r ← Prog.lift (index item.microRanges microIdx)
  let ioCount ← Prog.lift (index item.microIoCounts microIdx)
  setIter fun it => logged
    { it with
      prefetchQueue := it.prefetchQueue.set pos (item.materialize loader microIdx r rows)
      outstandingIoCount := it.outstandingIoCount - ioCount }

/-- `_drain_ready_front_split_prefix`. -/
def drainReadyFront : SplitProgram R T F Unit :=
  Prog.loop (fun _ => do
    let s ← Prog.get
    match ← Prog.lift (frontPending 0 s.iter.prefetchQueue) with
    | none => return .inr ()
    | some (pos, microIdx, requestId) =>
      if s.store.readyFrontRequestId = requestId then
        materializeSplitMicro loader pos microIdx
        return .inl ()
      else return .inr ()) fuel ()

/-- `consumed_micro_count += 1` of the front item. -/
def countConsumed (it : SplitIter R T F) : SplitIter R T F :=
  { it with
    prefetchQueue := it.prefetchQueue.modify 0 fun item =>
      { item with consumedMicroCount := item.consumedMicroCount + 1 } }

/-- `_maybe_consume_cached_front_micro`, and `_poll_and_consume_front_micro` where it returns
    `False`. -/
def consumeFrontMicro (front : SplitItem R T F) : SplitProgram R T F Unit := do
  let microIdx := front.consumedMicroCount
  if ← Prog.lift (index front.materializedFlags microIdx) then setIter countConsumed
  else
    let requestId ← Prog.lift (index front.requestIds microIdx)
    GidsIter.pollFrontRequest loader fuel requestId
    materializeSplitMicro loader 0 microIdx
    setIter countConsumed

/-- A round of the loop of `_consume_front_split`. -/
def consumeRound : SplitProgram R T F (Unit ⊕ Unit) := do
  let s ← Prog.get
  let front ← Prog.lift (index s.iter.prefetchQueue 0)
  if front.consumedMicroCount < front.microBatches.length then
    consumeFrontMicro loader fuel front
    let s ← Prog.get
    let front ← Prog.lift (index s.iter.prefetchQueue 0)
    if front.consumedMicroCount < front.microBatches.length then
      fillPrefetchQueue loader fuel
      drainReadyFront loader fuel
      return .inl ()
    else return .inl ()
  else return .inr ()

/-- `_consume_front_split`.  `return_torch` is the tensor of the front item, which later copies
    write to. -/
def consumeFrontSplit : SplitProgram R T F (Attached R T F) := do
  ensureFrontFullySubmitted loader fuel
  fillPrefetchQueue loader fuel
  drainReadyFront loader fuel
  Prog.loop (fun _ => consumeRound loader fuel) fuel ()
  let s ← Prog.get
  let front ← Prog.lift (index s.iter.prefetchQueue 0)
  setIter fun it => { it with prefetchQueue := it.prefetchQueue.tail }
  return { batch := front.batch, features := front.returnBuffer loader }

/-! ## The iteration -/

/-- `__next__`. -/
def next : SplitProgram R T F (Attached R T F) := do
  let s ← Prog.get
  if s.iter.prefetchQueue.isEmpty ∧ s.iter.exhausted then Prog.throw .stop
  else
    fillPrefetchQueue loader fuel
    drainReadyFront loader fuel
    let batch ← consumeFrontSplit loader fuel
    fillPrefetchQueue loader fuel
    drainReadyFront loader fuel
    return batch

/-- `_warmup_registered_queue`. -/
def warmup : SplitProgram R T F Unit := do
  let _ ← submitPrefetch loader
  ensureFrontFullySubmitted loader fuel
  fillPrefetchQueue loader fuel

/-- Iterating until `StopIteration`. -/
def iterate : SplitProgram R T F (List (Attached R T F)) := do
  warmup loader fuel
  Prog.collect (· == .stop) fuel (next loader fuel)

end SplitIter

/-! ## The items of a run -/

theorem splitRanges_cut {R F : Type} (loader : GidsLoader R F) (totalCount : Nat) :
    Cut 0 totalCount (loader.splitRanges totalCount) := by
  have hpos : 0 < max 1 (min loader.commands (max 1 totalCount)) := by omega
  have hcut := partRanges_cut (totalCount / max 1 (min loader.commands (max 1 totalCount)))
    (max 1 (min loader.commands (max 1 totalCount)))
    (totalCount % max 1 (min loader.commands (max 1 totalCount))) 0
    (Nat.le_of_lt (Nat.mod_lt _ hpos))
  rw [Nat.zero_add, Nat.div_add_mod] at hcut
  exact hcut

theorem slice_start {X : Type} (l : List X) {a b : Nat} (hab : a ≤ b) :
    l.take a ++ slice l (a, b) = l.take b := by
  rw [slice, ← List.take_add, Nat.add_sub_cancel' hab]

theorem zip_concat {X Y : Type} {l : List X} {l' : List Y} (x : X) (h : l.length < l'.length) :
    (l ++ [x]).zip l' = l.zip l' ++ [(x, l'[l.length])] := by
  induction l generalizing l' with
  | nil =>
    cases l' with
    | nil => cases h
    | cons y l' => simp only [List.nil_append, List.zip_cons_cons, List.zip_nil_left,
        List.length_nil, List.getElem_cons_zero]
  | cons z l ih =>
    cases l' with
    | nil => cases h
    | cons y l' =>
      simp only [List.cons_append, List.zip_cons_cons, List.length_cons, List.getElem_cons_succ,
        ih (Nat.lt_of_succ_lt_succ h)]

namespace SplitItem

variable {R T F : Type}

/-- What the store holds for an item: the requests that have not been materialized. -/
def requests (item : SplitItem R T F) : List (Nat × List R) :=
  (item.requestIds.zip item.microBatches).drop item.materializedMicroCount

/-- How many micro-batches of the item have not been submitted. -/
def missing (item : SplitItem R T F) : Nat := item.microRanges.length - item.submittedMicroCount

/-- An item between calls: its counters are ordered, and its result holds the features of
    the micro-batches that have been materialized. -/
structure Valid (loader : GidsLoader R F) (item : SplitItem R T F) : Prop where
  ranges_eq : item.microRanges = loader.splitRanges item.batch.inputNodes.length
  batches_eq : item.microBatches = item.microRanges.map (slice item.batch.inputNodes)
  ioCounts_eq : item.microIoCounts = item.microRanges.map fun r => r.2 - r.1
  nonempty : item.batch.inputNodes ≠ []
  requestIds_length : item.requestIds.length = item.submittedMicroCount
  submitted_le : item.submittedMicroCount ≤ item.microRanges.length
  materialized_le : item.materializedMicroCount ≤ item.submittedMicroCount
  consumed_le : item.consumedMicroCount ≤ item.materializedMicroCount
  full_eq : item.fullySubmitted = decide (item.missing = 0)
  flags_eq : item.materializedFlags = (List.range item.microRanges.length).map fun j =>
    decide (j < item.materializedMicroCount)
  buffer : ∃ rest, item.returnBuffer loader = (item.batch.inputNodes.take
    (boundary item.microRanges item.batch.inputNodes.length item.materializedMicroCount)).map
      loader.feature ++ rest ∧ (item.returnBuffer loader).length = item.batch.inputNodes.length

namespace Valid

variable {loader : GidsLoader R F} {item : SplitItem R T F}

theorem cut (h : item.Valid loader) : Cut 0 item.batch.inputNodes.length item.microRanges := by
  rw [h.ranges_eq]
  exact splitRanges_cut loader _

theorem microRanges_pos (h : item.Valid loader) : 0 < item.microRanges.length :=
  List.length_pos_iff_ne_nil.mpr (h.cut.ne_nil (List.length_pos_iff_ne_nil.mpr h.nonempty))

theorem batches_length (h : item.Valid loader) :
    item.microBatches.length = item.microRanges.length := by
  rw [h.batches_eq, List.length_map]

theorem ioCounts_length (h : item.Valid loader) :
    item.microIoCounts.length = item.microRanges.length := by
  rw [h.ioCounts_eq, List.length_map]

/-- The nodes of a micro-batch are as many as its io count, and some. -/
theorem micro (h : item.Valid loader) {j : Nat} (hj : j < item.microRanges.length) :
    getElem item.microBatches j (by rw [h.batches_length]; exact hj) =
        slice item.batch.inputNodes item.microRanges[j] ∧
      (slice item.batch.inputNodes item.microRanges[j]).length =
        getElem item.microIoCounts j (by rw [h.ioCounts_length]; exact hj) ∧
      slice item.batch.inputNodes item.microRanges[j] ≠ [] := by
  obtain ⟨-, hlt, hle⟩ := h.cut.mem_bounds (List.getElem_mem hj)
  have hlength : (slice item.batch.inputNodes item.microRanges[j]).length =
      item.microRanges[j].2 - item.microRanges[j].1 := length_slice hle
  refine ⟨?_, ?_, ?_⟩
  · simp only [h.batches_eq, List.getElem_map]
  · rw [hlength]
    simp only [h.ioCounts_eq, List.getElem_map]
  · rw [← List.length_pos_iff_ne_nil, hlength]
    omega

theorem build (loader : GidsLoader R F) (logicalIterId : Nat) (batch : Sampled R T)
    (hne : batch.inputNodes ≠ []) :
    (SplitItem.build loader logicalIterId batch batch.inputNodes.length : SplitItem R T F).Valid
      loader where
  ranges_eq := rfl
  batches_eq := rfl
  ioCounts_eq := rfl
  nonempty := hne
  requestIds_length := rfl
  submitted_le := Nat.zero_le _
  materialized_le := Nat.le_refl _
  consumed_le := Nat.le_refl _
  full_eq := by
    have hpos := (splitRanges_cut loader batch.inputNodes.length).ne_nil
      (List.length_pos_iff_ne_nil.mpr hne)
    rw [missing, SplitItem.build]
    simp only [Nat.sub_zero, List.length_eq_zero_iff, hpos, decide_false]
  flags_eq := by
    simp only [SplitItem.build, List.length_map, Nat.not_lt_zero, decide_false, List.map_const',
      List.length_range]
  buffer := by
    refine ⟨List.replicate batch.inputNodes.length loader.uninit, ?_, ?_⟩
    · show _ = (batch.inputNodes.take (boundary (loader.splitRanges _) batch.inputNodes.length
        0)).map _ ++ _
      rw [(splitRanges_cut loader _).boundary_zero]
      rfl
    · exact List.length_replicate

/-- The submit of the next micro-batch. -/
theorem submit (h : item.Valid loader) (hlt : item.submittedMicroCount < item.microRanges.length)
    (requestId : Nat) : (item.submit requestId).Valid loader where
  ranges_eq := h.ranges_eq
  batches_eq := h.batches_eq
  ioCounts_eq := h.ioCounts_eq
  nonempty := h.nonempty
  requestIds_length := by
    show (item.requestIds ++ [requestId]).length = item.submittedMicroCount + 1
    rw [List.length_append, h.requestIds_length]
    rfl
  submitted_le := hlt
  materialized_le := Nat.le_succ_of_le h.materialized_le
  consumed_le := h.consumed_le
  full_eq := by
    have hfull := h.full_eq
    show (item.fullySubmitted || decide (item.microBatches.length ≤ item.submittedMicroCount + 1)) =
      decide (item.microRanges.length - (item.submittedMicroCount + 1) = 0)
    rw [hfull, missing, h.batches_length, Bool.eq_iff_iff, Bool.or_eq_true, decide_eq_true_iff,
      decide_eq_true_iff, decide_eq_true_iff]
    omega
  flags_eq := h.flags_eq
  buffer := h.buffer

theorem submit_requests (h : item.Valid loader)
    (hlt : item.submittedMicroCount < item.microRanges.length) (requestId : Nat) :
    (item.submit requestId).requests = item.requests ++
      [(requestId, getElem item.microBatches item.submittedMicroCount (by
        rw [h.batches_length]
        exact hlt))] := by
  have hids := h.requestIds_length
  have hmicros := h.batches_length
  have hle := h.materialized_le
  have hzip : (item.requestIds ++ [requestId]).zip item.microBatches =
      item.requestIds.zip item.microBatches ++
        [(requestId, item.microBatches[item.submittedMicroCount])] := by
    have hconcat := zip_concat requestId
      (show item.requestIds.length < item.microBatches.length by omega)
    simp only [hids] at hconcat
    exact hconcat
  show ((item.requestIds ++ [requestId]).zip item.microBatches).drop item.materializedMicroCount = _
  rw [hzip, List.drop_append_of_le_length (by rw [List.length_zip]; omega)]
  rfl

theorem submit_unmaterializedIos (h : item.Valid loader)
    (hlt : item.submittedMicroCount < item.microRanges.length) (requestId : Nat) :
    (item.submit requestId).unmaterializedIos = item.unmaterializedIos +
      getElem item.microIoCounts item.submittedMicroCount (by
        rw [h.ioCounts_length]
        exact hlt) := by
  have hlength := h.ioCounts_length
  have hle := h.materialized_le
  show ((item.microIoCounts.take (item.submittedMicroCount + 1)).drop
    item.materializedMicroCount).sum = _
  rw [List.take_succ_eq_append_getElem (by omega),
    List.drop_append_of_le_length (by rw [List.length_take]; omega), List.sum_append,
    List.sum_singleton]
  rfl

/-- The io counts in flight and the next one fit into those of the whole item. -/
theorem unmaterializedIos_add_le (h : item.Valid loader)
    (hlt : item.submittedMicroCount < item.microRanges.length) :
    item.unmaterializedIos + getElem item.microIoCounts item.submittedMicroCount (by
        rw [h.ioCounts_length]
        exact hlt) ≤ item.batch.inputNodes.length := by
  have hsum := h.cut.sum_sizes
  rw [← h.ioCounts_eq, Nat.zero_add] at hsum
  have hdrop : item.unmaterializedIos ≤ (item.microIoCounts.take item.submittedMicroCount).sum := by
    conv_rhs => rw [← List.take_append_drop item.materializedMicroCount
      (item.microIoCounts.take item.submittedMicroCount), List.sum_append]
    exact Nat.le_add_left _ _
  have htotal : (item.microIoCounts.take (item.submittedMicroCount + 1)).sum ≤
      item.microIoCounts.sum := by
    conv_rhs => rw [← List.take_append_drop (item.submittedMicroCount + 1) item.microIoCounts,
      List.sum_append]
    exact Nat.le_add_right _ _
  have hlength := h.ioCounts_length
  rw [List.take_succ_eq_append_getElem (by omega), List.sum_append, List.sum_singleton] at htotal
  omega

/-- A request of the item, when one is in flight: that of the first micro-batch which has
    not been materialized. -/
theorem requests_eq_cons (h : item.Valid loader)
    (hlt : item.materializedMicroCount < item.submittedMicroCount) :
    ∃ requestId rest, item.requestIds[item.materializedMicroCount]? = some requestId ∧
      item.requests = (requestId, getElem item.microBatches item.materializedMicroCount (by
        rw [h.batches_length]
        exact Nat.lt_of_lt_of_le hlt h.submitted_le)) :: rest ∧
      rest = (item.requestIds.zip item.microBatches).drop (item.materializedMicroCount + 1) := by
  have hids := h.requestIds_length
  have hmicros := h.batches_length
  have hle := h.submitted_le
  have hzip : item.materializedMicroCount < (item.requestIds.zip item.microBatches).length := by
    rw [List.length_zip]
    omega
  refine ⟨getElem item.requestIds item.materializedMicroCount (by omega), _,
    List.getElem?_eq_getElem (by omega), ?_, rfl⟩
  rw [requests, List.drop_eq_getElem_cons hzip, List.getElem_zip]

theorem requests_eq_nil (h : item.Valid loader)
    (hle : item.submittedMicroCount ≤ item.materializedMicroCount) : item.requests = [] := by
  have hids := h.requestIds_length
  rw [requests, List.drop_eq_nil_iff, List.length_zip]
  omega

theorem unmaterializedIos_eq_add (h : item.Valid loader)
    (hlt : item.materializedMicroCount < item.submittedMicroCount) :
    item.unmaterializedIos = getElem item.microIoCounts item.materializedMicroCount (by
        rw [h.ioCounts_length]
        exact Nat.lt_of_lt_of_le hlt h.submitted_le) +
      ((item.microIoCounts.take item.submittedMicroCount).drop
        (item.materializedMicroCount + 1)).sum := by
  have hlength := h.ioCounts_length
  have hle := h.submitted_le
  rw [unmaterializedIos, List.drop_eq_getElem_cons (by rw [List.length_take]; omega),
    List.sum_cons, List.getElem_take]

/-- The copy of the first micro-batch in flight. -/
theorem materialize (h : item.Valid loader)
    (hlt : item.materializedMicroCount < item.submittedMicroCount) :
    (item.materialize loader item.materializedMicroCount
      (getElem item.microRanges item.materializedMicroCount
        (Nat.lt_of_lt_of_le hlt h.submitted_le))
      ((slice item.batch.inputNodes (getElem item.microRanges item.materializedMicroCount (
        Nat.lt_of_lt_of_le hlt h.submitted_le))).map loader.feature)).Valid loader := by
  have hm : item.materializedMicroCount < item.microRanges.length :=
    Nat.lt_of_lt_of_le hlt h.submitted_le
  have hmax : max item.materializedMicroCount (item.materializedMicroCount + 1) =
      item.materializedMicroCount + 1 := Nat.max_eq_right (Nat.le_succ _)
  exact
    { ranges_eq := h.ranges_eq
      batches_eq := h.batches_eq
      ioCounts_eq := h.ioCounts_eq
      nonempty := h.nonempty
      requestIds_length := h.requestIds_length
      submitted_le := h.submitted_le
      materialized_le := by
        show max _ _ ≤ _
        rw [hmax]
        exact hlt
      consumed_le := Nat.le_trans h.consumed_le (Nat.le_max_left _ _)
      full_eq := h.full_eq
      flags_eq := by
        show item.materializedFlags.set _ true = (List.range item.microRanges.length).map
          fun j => decide (j < max _ _)
        rw [hmax, h.flags_eq]
        apply List.ext_getElem
        · simp only [List.length_set, List.length_map, List.length_range]
        · intro j _ _
          simp only [List.getElem_set, List.getElem_map, List.getElem_range]
          split
          · rename_i heq
            rw [← heq, decide_eq_true (Nat.lt_succ_self _)]
          · rename_i hne
            rw [decide_eq_decide]
            omega
      buffer := by
        obtain ⟨rest, hbuffer, hlength⟩ := h.buffer
        have hrange := h.cut.getElem_eq hm
        obtain ⟨-, hlow, hhigh⟩ := h.cut.mem_bounds (List.getElem_mem hm)
        have hlow' : (item.returnBuffer loader).take item.microRanges[item.materializedMicroCount].1 =
            (item.batch.inputNodes.take
              item.microRanges[item.materializedMicroCount].1).map loader.feature := by
          rw [hbuffer, congrArg Prod.fst hrange]
          apply List.take_left'
          rw [List.length_map, List.length_take]
          rw [congrArg Prod.fst hrange] at hlow
          rw [congrArg Prod.snd hrange] at hlow hhigh
          omega
        refine ⟨(item.returnBuffer loader).drop item.microRanges[item.materializedMicroCount].2,
          ?_, ?_⟩
        · show copySlice (item.returnBuffer loader) _ _ = (item.batch.inputNodes.take
            (boundary item.microRanges _ (max _ _))).map _ ++ _
          rw [hmax, copySlice, hlow', ← List.map_append, slice_start _ (Nat.le_of_lt hlow),
            congrArg Prod.snd hrange]
          rfl
        · show (copySlice (item.returnBuffer loader) _ _).length = _
          rw [copySlice, List.length_append, List.length_append, List.length_take, List.length_drop,
            List.length_map, length_slice hhigh, hlength]
          show min _ _ + _ + _ = item.batch.inputNodes.length
          omega }

/-- The result of an item whose micro-batches have all been materialized. -/
theorem returnBuffer_eq (h : item.Valid loader)
    (hall : item.materializedMicroCount = item.microRanges.length) :
    item.returnBuffer loader = item.batch.inputNodes.map loader.feature := by
  obtain ⟨rest, hbuffer, hlength⟩ := h.buffer
  rw [hall, boundary_length, List.take_length] at hbuffer
  rw [hbuffer, List.length_append, List.length_map] at hlength
  have hrest : rest = [] := List.eq_nil_of_length_eq_zero (by omega)
  rw [hbuffer, hrest, List.append_nil]

end Valid

end SplitItem

end GidsStack.Loader
