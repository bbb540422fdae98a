/-
  GidsStack.Loader.GidsSplitRun

  Whole runs of the split mode.

  `SplitQueued` ties the store to the queue: what is outstanding are the requests of the
  items, front first, and in an item those that have not been materialized.  Submits extend
  it at the end, the copies of ready micro-batches and of polled ones take from its front,
  and the count of outstanding IOs follows both.
-/

import GidsStack.Loader.GidsSplit

namespace GidsStack.Loader

open GidsStack.Cuts

variable {R T F : Type}

/-! ## What is in flight -/

namespace SplitIter

/-- The pending item, while it is not queued. -/
def freshItems (it : SplitIter R T F) : List (SplitItem R T F) :=
  match it.pendingSplitItem with
  | .fresh item => [item]
  | _ => []

/-- Only the last item may miss submits, when it is the pending one. -/
def OnlyTail (pending : PendingItem (SplitItem R T F)) (missing : List Nat) : Prop :=
  match pending with
  | .tail => ∃ m k, missing = List.replicate m 0 ++ [k + 1]
  | _ => ∃ m, missing = List.replicate m 0

/-- Only the front item may have been consumed in part; `front` is then its count. -/
def OnlyFront (front : Option Nat) (consumed : List Nat) : Prop :=
  match front with
  | none => ∃ m, consumed = List.replicate m 0
  | some c => ∃ m, consumed = c :: List.replicate m 0

end SplitIter

open SplitIter

/-- The micro-batches that a batch is split into. -/
def GidsLoader.micros (loader : GidsLoader R F) (b : Sampled R T) : Nat :=
  (loader.splitRanges b.inputNodes.length).length

/-- Between calls: `left` are the batches still to be returned, `first` the first request of
    the iterator, `limit` bounds the requests it will have made in the end, and `foreign` is
    what was outstanding before.  With `front := some c` the front item is being consumed. -/
structure SplitQueued (loader : GidsLoader R F) (first limit : Nat)
    (foreign : List (Nat × List R)) (front : Option Nat) (left : List (Sampled R T))
    (s : Session R (SplitIter R T F)) : Prop where
  batches : s.iter.prefetchQueue.map SplitItem.batch ++ (freshItems s.iter).map SplitItem.batch ++
    s.iter.dataloaderIt = left
  fits : ∀ b ∈ left, b.inputNodes ≠ [] ∧ loader.micros b ≤ limit ∧
    (loader.maxOutstandingIos = 0 ∨ b.inputNodes.length ≤ loader.maxOutstandingIos)
  pendingBatch : s.iter.pendingBatch = none
  ended : s.iter.exhausted = true → s.iter.dataloaderIt = [] ∧ s.iter.pendingSplitItem = .none
  valid : ∀ item ∈ s.iter.prefetchQueue, item.Valid loader ∧ 0 < item.submittedMicroCount
  fresh : ∀ item ∈ freshItems s.iter, item.Valid loader ∧ item.submittedMicroCount = 0
  missing : OnlyTail s.iter.pendingSplitItem (s.iter.prefetchQueue.map SplitItem.missing)
  consumed : OnlyFront front (s.iter.prefetchQueue.map SplitItem.consumedMicroCount)
  frontFull : front ≠ none → (s.iter.prefetchQueue.map SplitItem.missing).head? = some 0
  requests : s.store.outstanding.map Pending.request =
    foreign ++ s.iter.prefetchQueue.flatMap SplitItem.requests
  ordered : s.store.Ordered first foreign
  untouched : foreign ≠ [] → ∀ item ∈ s.iter.prefetchQueue, item.materializedMicroCount = 0
  remaining : s.store.nextRequestId + (s.iter.prefetchQueue.map SplitItem.missing).sum +
    ((freshItems s.iter).map SplitItem.missing).sum +
      (s.iter.dataloaderIt.map loader.micros).sum = limit
  ios : s.iter.outstandingIoCount = (s.iter.prefetchQueue.map SplitItem.unmaterializedIos).sum
  budget : 0 < loader.maxOutstandingIos → s.iter.outstandingIoCount ≤ loader.maxOutstandingIos
  logged : ∀ e ∈ s.iter.ioLog, e.1 = e.2 ∧
    (0 < loader.maxOutstandingIos → e.1 ≤ loader.maxOutstandingIos)

namespace SplitQueued

variable {loader : GidsLoader R F} {first limit : Nat} {front : Option Nat}
  {foreign : List (Nat × List R)} {left : List (Sampled R T)} {s t : Session R (SplitIter R T F)}

/-- Service keeps what is in flight. -/
theorem served (h : SplitQueued loader first limit foreign front left s) (hiter : t.iter = s.iter)
    (hstore : s.store.Served t.store) : SplitQueued loader first limit foreign front left t where
  batches := by rw [hiter]; exact h.batches
  fits := h.fits
  pendingBatch := by rw [hiter]; exact h.pendingBatch
  ended := by rw [hiter]; exact h.ended
  valid := by rw [hiter]; exact h.valid
  fresh := by rw [hiter]; exact h.fresh
  missing := by rw [hiter]; exact h.missing
  consumed := by rw [hiter]; exact h.consumed
  frontFull := by rw [hiter]; exact h.frontFull
  requests := by rw [hstore.requests_eq, hiter]; exact h.requests
  ordered := h.ordered.served hstore
  untouched := by rw [hiter]; exact h.untouched
  remaining := by rw [hstore.nextRequestId, hiter]; exact h.remaining
  ios := by rw [hiter]; exact h.ios
  budget := by rw [hiter]; exact h.budget
  logged := by rw [hiter]; exact h.logged

/-- The pending item: valid, with a micro-batch to submit, and either not queued yet or the
    last of the queue. -/
theorem pending_eq (h : SplitQueued loader first limit foreign front left s) {item : SplitItem R T F}
    (hitem : pendingItem s.iter = some item) :
    item.Valid loader ∧ item.submittedMicroCount < item.microRanges.length ∧
      item.batch ∈ left ∧
      (s.iter.pendingSplitItem = .fresh item ∧ item.submittedMicroCount = 0 ∨
        s.iter.pendingSplitItem = .tail ∧ 0 < item.submittedMicroCount ∧
          ∃ init, s.iter.prefetchQueue = init ++ [item]) := by
  rw [pendingItem] at hitem
  cases hpending : s.iter.pendingSplitItem with
  | none =>
    rw [hpending] at hitem
    cases hitem
  | fresh item' =>
    rw [hpending] at hitem
    obtain rfl : item' = item := Option.some.inj hitem
    have hmem : item' ∈ freshItems s.iter := by
      rw [freshItems, hpending]
      exact List.mem_singleton_self _
    obtain ⟨hvalid, hzero⟩ := h.fresh item' hmem
    refine ⟨hvalid, ?_, ?_, Or.inl ⟨rfl, hzero⟩⟩
    · rw [hzero]
      exact hvalid.microRanges_pos
    · rw [← h.batches]
      exact List.mem_append_left _ (List.mem_append_right _ (List.mem_map_of_mem hmem))
  | tail =>
    rw [hpending] at hitem
    obtain ⟨init, hqueue⟩ := List.getLast?_eq_some_iff.mp hitem
    have hmem : item ∈ s.iter.prefetchQueue := by
      rw [hqueue]
      exact List.mem_append_right _ (List.mem_singleton_self _)
    obtain ⟨hvalid, hpos⟩ := h.valid item hmem
    have hmissing := h.missing
    rw [hpending] at hmissing
    obtain ⟨m, k, hk⟩ := hmissing
    rw [hqueue, List.map_append, List.map_singleton] at hk
    have hlast := (List.append_inj' hk rfl).2
    rw [List.cons.injEq] at hlast
    have hmiss := hlast.1
    rw [SplitItem.missing] at hmiss
    refine ⟨hvalid, by omega, ?_, Or.inr ⟨rfl, hpos, init, hqueue⟩⟩
    rw [← h.batches]
    exact List.mem_append_left _ (List.mem_append_left _ (List.mem_map_of_mem hmem))

end SplitQueued

/-! ## Submits -/

namespace SplitIter

variable {loader : GidsLoader R F} {fuel first limit : Nat} {front : Option Nat}
  {foreign : List (Nat × List R)} {left : List (Sampled R T)} {s : Session R (SplitIter R T F)}

theorem pendingSplitItem_eq_none (h : SplitQueued loader first limit foreign front left s)
    (hnone : pendingItem s.iter = none) : s.iter.pendingSplitItem = .none := by
  rw [pendingItem] at hnone
  cases hpending : s.iter.pendingSplitItem with
  | none => rfl
  | fresh item =>
    rw [hpending] at hnone
    cases hnone
  | tail =>
    rw [hpending] at hnone
    have hmissing := h.missing
    rw [hpending, List.getLast?_eq_none_iff.mp hnone] at hmissing
    obtain ⟨m, k, hk⟩ := hmissing
    exact absurd hk.symm (List.append_ne_nil_of_right_ne_nil _ (List.cons_ne_nil _ _))

/-- The item to submit from; a new one for the next batch, unless the dataloader has ended. -/
theorem nextSplitItem_returns (h : SplitQueued loader first limit foreign front left s) :
    (nextSplitItemForSubmit loader).Returns s fun o t =>
      SplitQueued loader first limit foreign front left t ∧ t.store = s.store ∧
        t.iter.prefetchQueue = s.iter.prefetchQueue ∧
        match o with
        | none => t.iter.exhausted = true
        | some item => pendingItem t.iter = some item := by
  rw [nextSplitItemForSubmit]
  apply Prog.returns_get_bind
  cases hpending : pendingItem s.iter with
  | some item => exact Prog.returns_pure ⟨h, rfl, rfl, hpending⟩
  | none =>
    have hnone := pendingSplitItem_eq_none h hpending
    have hnofresh : freshItems s.iter = [] := by rw [freshItems, hnone]
    cases hdata : s.iter.dataloaderIt with
    | nil =>
      apply (GidsIter.getNextBatch_of_nil h.pendingBatch hdata).bind
      rintro _ _ ⟨rfl, rfl⟩
      exact Prog.returns_pure ⟨{ h with ended := fun _ => ⟨hdata, hnone⟩ }, rfl, rfl, rfl⟩
    | cons b rest =>
      apply (GidsIter.getNextBatch_of_cons h.pendingBatch hdata).bind
      rintro _ _ ⟨rfl, rfl⟩
      apply Prog.returns_get_bind
      apply Prog.returns_modify_bind
      apply Prog.returns_pure
      have hmem : b ∈ left := by
        rw [← h.batches, hdata]
        exact List.mem_append_right _ List.mem_cons_self
      have hbatches := h.batches
      have hremaining := h.remaining
      have hmissing := h.missing
      rw [hnofresh, hdata] at hbatches
      rw [hnofresh, hdata] at hremaining
      rw [hnone] at hmissing
      refine ⟨?_, rfl, rfl, rfl⟩
      exact
        { h with
          batches := by
            rw [← hbatches]
            simp only [freshItems, List.map_cons, List.map_nil, List.append_nil, List.append_assoc,
              List.cons_append, List.nil_append]
            rfl
          pendingBatch := rfl
          ended := fun hend => by
            have := (h.ended hend).1
            rw [hdata] at this
            cases this
          fresh := fun item hitem => by
            rw [List.mem_singleton.mp hitem]
            exact ⟨.build loader _ b (h.fits b hmem).1, rfl⟩
          missing := hmissing
          remaining := by
            rw [← hremaining]
            simp only [freshItems, List.map_cons, List.map_nil, List.sum_cons, List.sum_nil,
              Nat.add_assoc, Nat.zero_add]
            rfl }

/-- The queue with the pending item at its end, whether it is queued yet or not. -/
structure Split (loader : GidsLoader R F) (front : Option Nat) (it : SplitIter R T F)
    (init : List (SplitItem R T F)) (item : SplitItem R T F) : Prop where
  queue : ∀ item', (if item.submittedMicroCount = 0 then it.prefetchQueue ++ [item']
    else it.prefetchQueue.dropLast ++ [item']) = init ++ [item']
  batches : it.prefetchQueue.map SplitItem.batch ++ (freshItems it).map SplitItem.batch =
    init.map SplitItem.batch ++ [item.batch]
  valid : ∀ i ∈ init, i.Valid loader ∧ 0 < i.submittedMicroCount
  full : ∃ m, init.map SplitItem.missing = List.replicate m 0
  missing : (it.prefetchQueue.map SplitItem.missing).sum +
    ((freshItems it).map SplitItem.missing).sum = item.missing
  consumed : OnlyFront front (init.map SplitItem.consumedMicroCount ++ [item.consumedMicroCount])
  front : front ≠ none → init ≠ []
  requests : it.prefetchQueue.flatMap SplitItem.requests =
    init.flatMap SplitItem.requests ++ item.requests
  ios : (it.prefetchQueue.map SplitItem.unmaterializedIos).sum =
    (init.map SplitItem.unmaterializedIos).sum + item.unmaterializedIos
  untouched : (∀ i ∈ it.prefetchQueue, i.materializedMicroCount = 0) →
    ∀ i ∈ init ++ [item], i.materializedMicroCount = 0

theorem OnlyFront.append_zero {consumed : List Nat} (h : OnlyFront front consumed) :
    OnlyFront front (consumed ++ [0]) := by
  cases front with
  | none =>
    obtain ⟨m, rfl⟩ := h
    exact ⟨m + 1, List.replicate_succ'.symm⟩
  | some c =>
    obtain ⟨m, rfl⟩ := h
    refine ⟨m + 1, ?_⟩
    rw [List.replicate_succ']
    rfl

theorem split_exists (h : SplitQueued loader first limit foreign front left s) {item : SplitItem R T F}
    (hitem : pendingItem s.iter = some item) : ∃ init, Split loader front s.iter init item := by
  obtain ⟨hvalid, hlt, -, hplace⟩ := h.pending_eq hitem
  have hmissing := h.missing
  rcases hplace with ⟨hpending, hzero⟩ | ⟨hpending, hpos, init, hqueue⟩
  · have hfresh : freshItems s.iter = [item] := by rw [freshItems, hpending]
    have hmaterialized := hvalid.materialized_le
    have hconsumed := hvalid.consumed_le
    rw [hpending] at hmissing
    obtain ⟨m, hm⟩ := hmissing
    exact ⟨s.iter.prefetchQueue,
      { queue := fun item' => if_pos hzero
        batches := by rw [hfresh]; rfl
        valid := h.valid
        full := ⟨m, hm⟩
        missing := by
          rw [hm, hfresh, List.sum_replicate_nat, List.map_singleton, List.sum_singleton]
          simp only [Nat.mul_zero, Nat.zero_add]
        consumed := by
          rw [show item.consumedMicroCount = 0 by omega]
          exact OnlyFront.append_zero h.consumed
        front := fun hfront hnil => by
          have hhead := h.frontFull hfront
          rw [hnil] at hhead
          cases hhead
        requests := by rw [hvalid.requests_eq_nil (by omega), List.append_nil]
        ios := by
          have : item.unmaterializedIos = 0 := by
            rw [SplitItem.unmaterializedIos, hzero, List.take_zero, List.drop_nil, List.sum_nil]
          rw [this, Nat.add_zero]
        untouched := fun hqueued i hi => by
          rcases List.mem_append.mp hi with hi | hi
          · exact hqueued i hi
          · rw [List.mem_singleton.mp hi]
            omega }⟩
  · have hfresh : freshItems s.iter = [] := by rw [freshItems, hpending]
    rw [hpending] at hmissing
    obtain ⟨m, k, hk⟩ := hmissing
    rw [hqueue, List.map_append, List.map_singleton] at hk
    obtain ⟨hinit, hlast⟩ := List.append_inj' hk rfl
    rw [List.cons.injEq] at hlast
    exact ⟨init,
      { queue := fun item' => by
          rw [if_neg (by omega), hqueue, List.dropLast_concat]
        batches := by
          rw [hfresh, hqueue, List.map_append, List.map_nil, List.append_nil]
          rfl
        valid := fun i hi => h.valid i (by
          rw [hqueue]
          exact List.mem_append_left _ hi)
        full := ⟨m, hinit⟩
        missing := by
          rw [hfresh, hqueue, List.map_append, hinit, List.sum_append, List.sum_replicate_nat]
          simp only [Nat.mul_zero, Nat.zero_add, List.map_cons, List.map_nil,
            List.sum_cons, List.sum_nil, Nat.add_zero]
        consumed := by
          have hconsumed := h.consumed
          rw [hqueue, List.map_append] at hconsumed
          exact hconsumed
        front := fun hfront hnil => by
          have hhead := h.frontFull hfront
          rw [hqueue, hnil] at hhead
          have : item.missing = 0 := Option.some.inj hhead
          omega
        requests := by rw [hqueue, List.flatMap_append, List.flatMap_singleton]
        ios := by rw [hqueue, List.map_append, List.sum_append, List.map_singleton,
          List.sum_singleton]
        untouched := fun hqueued => by
          rw [← hqueue]
          exact hqueued }⟩

/-- The budget allows a submit only within itself, since no micro-batch exceeds it. -/
theorem canSubmit_le (h : SplitQueued loader first limit foreign front left s) {b : Sampled R T}
    (hb : b ∈ left) {ioCount : Nat} (hio : ioCount ≤ b.inputNodes.length)
    (hcan : GidsIter.canSubmitIos loader s.iter ioCount = true)
    (hbudget : 0 < loader.maxOutstandingIos) :
    s.iter.outstandingIoCount + ioCount ≤ loader.maxOutstandingIos := by
  have hfits := (h.fits b hb).2.2
  rw [GidsIter.canSubmitIos, Bool.or_eq_true, Bool.or_eq_true, beq_iff_eq, beq_iff_eq,
    decide_eq_true_iff] at hcan
  omega

/-- The item stays pending as long as it misses submits. -/
theorem recordSubmit_pending {item : SplitItem R T F} (hvalid : item.Valid loader)
    (it : SplitIter R T F) (requestId ioCount : Nat) :
    (recordSubmit it item requestId ioCount).pendingSplitItem =
      if (item.submit requestId).missing = 0 then .none else .tail := by
  have hlength : (item.submit requestId).microBatches.length = item.microRanges.length :=
    hvalid.batches_length
  show (if (item.submit requestId).microBatches.length ≤
    (item.submit requestId).submittedMicroCount then _ else _) = _
  apply if_congr _ rfl rfl
  rw [hlength]
  show _ ≤ item.submittedMicroCount + 1 ↔
    item.microRanges.length - (item.submittedMicroCount + 1) = 0
  omega

theorem freshItems_recordSubmit {item : SplitItem R T F} (hvalid : item.Valid loader)
    (it : SplitIter R T F) (requestId ioCount : Nat) :
    freshItems (recordSubmit it item requestId ioCount) = [] := by
  rw [freshItems, recordSubmit_pending hvalid]
  split
  · rename_i heq
    split at heq <;> cases heq
  · rfl

/-- The io count covers the micro-batch that is submitted. -/
theorem submit_ios (h : SplitQueued loader first limit foreign front left s)
    {init : List (SplitItem R T F)} {item : SplitItem R T F} (hvalid : item.Valid loader)
    (hlt : item.submittedMicroCount < item.microRanges.length)
    (hsplit : Split loader front s.iter init item) {ioCount : Nat}
    (hio : item.microIoCounts[item.submittedMicroCount]? = some ioCount) (requestId : Nat) :
    s.iter.outstandingIoCount + ioCount =
      ((recordSubmit s.iter item requestId ioCount).prefetchQueue.map
        SplitItem.unmaterializedIos).sum := by
  have hqueue : (recordSubmit s.iter item requestId ioCount).prefetchQueue =
      init ++ [item.submit requestId] := hsplit.queue _
  obtain ⟨hiolt, hioeq⟩ := List.getElem?_eq_some_iff.mp hio
  have hios := hvalid.submit_unmaterializedIos hlt requestId
  rw [hioeq] at hios
  rw [hqueue, h.ios, hsplit.ios, List.map_append, List.sum_append, List.map_singleton,
    List.sum_singleton, hios, Nat.add_assoc]

/-- The submit of the next micro-batch of the pending item. -/
theorem submit_queued (h : SplitQueued loader first limit foreign front left s) {item : SplitItem R T F}
    (hitem : pendingItem s.iter = some item) {microBatch : List R} {ioCount : Nat}
    (hmicro : item.microBatches[item.submittedMicroCount]? = some microBatch)
    (hio : item.microIoCounts[item.submittedMicroCount]? = some ioCount)
    (hcan : GidsIter.canSubmitIos loader s.iter ioCount = true) :
    SplitQueued loader first limit foreign front left
      { store := s.store.registered [microBatch]
        iter := logged (recordSubmit s.iter item s.store.nextRequestId ioCount) } := by
  obtain ⟨hvalid, hlt, hmem, -⟩ := h.pending_eq hitem
  obtain ⟨init, hsplit⟩ := split_exists h hitem
  obtain ⟨m, hfull⟩ := hsplit.full
  obtain ⟨hmicrolt, hmicroeq⟩ := List.getElem?_eq_some_iff.mp hmicro
  have hqueue : (recordSubmit s.iter item s.store.nextRequestId ioCount).prefetchQueue =
      init ++ [item.submit s.store.nextRequestId] := hsplit.queue _
  have hpending := recordSubmit_pending hvalid s.iter s.store.nextRequestId ioCount
  have hnofresh := freshItems_recordSubmit hvalid s.iter s.store.nextRequestId ioCount
  have hcount := submit_ios h hvalid hlt hsplit hio s.store.nextRequestId
  have hsubmitted := hvalid.submit hlt s.store.nextRequestId
  have hmissing : (item.submit s.store.nextRequestId).missing =
      item.microRanges.length - (item.submittedMicroCount + 1) := rfl
  have hbefore : item.missing = item.microRanges.length - item.submittedMicroCount := rfl
  have hrequests := hvalid.submit_requests hlt s.store.nextRequestId
  rw [hmicroeq] at hrequests
  have hbudget : 0 < loader.maxOutstandingIos →
      s.iter.outstandingIoCount + ioCount ≤ loader.maxOutstandingIos := by
    apply canSubmit_le h hmem _ hcan
    obtain ⟨hiolt, hioeq⟩ := List.getElem?_eq_some_iff.mp hio
    have hle := hvalid.unmaterializedIos_add_le hlt
    rw [hioeq] at hle
    omega
  have hbatch : (item.submit s.store.nextRequestId).batch = item.batch := rfl
  have hconsumed : (item.submit s.store.nextRequestId).consumedMicroCount =
      item.consumedMicroCount := rfl
  have hmaterialized : (item.submit s.store.nextRequestId).materializedMicroCount =
      item.materializedMicroCount := rfl
  have hpos : 0 < (item.submit s.store.nextRequestId).submittedMicroCount := Nat.succ_pos _
  generalize item.submit s.store.nextRequestId = item' at *
  exact
    { batches := by
        show (recordSubmit s.iter item s.store.nextRequestId ioCount).prefetchQueue.map _ ++
          (freshItems (recordSubmit s.iter item s.store.nextRequestId ioCount)).map _ ++
            s.iter.dataloaderIt = left
        rw [hqueue, hnofresh, List.map_append, List.map_nil, List.append_nil, List.map_singleton,
          hbatch, ← hsplit.batches]
        exact h.batches
      fits := h.fits
      pendingBatch := h.pendingBatch
      ended := fun hend => by
        have hnone := (h.ended hend).2
        rw [pendingItem, hnone] at hitem
        cases hitem
      valid := fun i hi => by
        have hi' : i ∈ init ++ [item'] := hqueue ▸ hi
        rcases List.mem_append.mp hi' with hi | hi
        · exact hsplit.valid i hi
        · rw [List.mem_singleton.mp hi]
          exact ⟨hsubmitted, hpos⟩
      fresh := fun i hi => by
        have hi' : i ∈ freshItems (recordSubmit s.iter item s.store.nextRequestId ioCount) := hi
        rw [hnofresh] at hi'
        cases hi'
      missing := by
        show OnlyTail (recordSubmit s.iter item s.store.nextRequestId ioCount).pendingSplitItem
          ((recordSubmit s.iter item s.store.nextRequestId ioCount).prefetchQueue.map _)
        rw [hpending, hqueue, List.map_append, List.map_singleton, hfull]
        split
        · rename_i hzero
          rw [hzero]
          exact ⟨m + 1, List.replicate_succ'.symm⟩
        · exact ⟨m, item'.missing - 1, by rw [Nat.sub_add_cancel (by omega)]⟩
      consumed := by
        show OnlyFront front
          ((recordSubmit s.iter item s.store.nextRequestId ioCount).prefetchQueue.map _)
        rw [hqueue, List.map_append, List.map_singleton, hconsumed]
        exact hsplit.consumed
      frontFull := fun hfront => by
        show ((recordSubmit s.iter item s.store.nextRequestId ioCount).prefetchQueue.map
          SplitItem.missing).head? = some 0
        rw [hqueue, List.map_append, hfull]
        cases m with
        | zero => exact absurd (List.map_eq_nil_iff.mp hfull) (hsplit.front hfront)
        | succ m => rfl
      requests := by
        show _ = foreign ++
          (recordSubmit s.iter item s.store.nextRequestId ioCount).prefetchQueue.flatMap _
        rw [hqueue, List.flatMap_append, List.flatMap_singleton, hrequests,
          RegisteredStore.requests_registered, h.requests, hsplit.requests, List.append_assoc,
          List.append_assoc]
        rfl
      ordered := h.ordered.registered _
      untouched := fun hne i hi => by
        have hi' : i ∈ init ++ [item'] := hqueue ▸ hi
        rcases List.mem_append.mp hi' with hi | hi
        · exact hsplit.untouched (h.untouched hne) i (List.mem_append_left _ hi)
        · rw [List.mem_singleton.mp hi, hmaterialized]
          exact hsplit.untouched (h.untouched hne) item
            (List.mem_append_right _ (List.mem_singleton_self _))
      remaining := by
        have hremaining := h.remaining
        have hmiss := hsplit.missing
        show s.store.nextRequestId + 1 +
          ((recordSubmit s.iter item s.store.nextRequestId ioCount).prefetchQueue.map _).sum +
            ((freshItems (recordSubmit s.iter item s.store.nextRequestId ioCount)).map _).sum +
              (s.iter.dataloaderIt.map loader.micros).sum = limit
        rw [hqueue, hnofresh, List.map_append, hfull, List.sum_append, List.sum_replicate_nat,
          List.map_singleton, List.sum_singleton, List.map_nil, List.sum_nil]
        omega
      ios := hcount
      budget := hbudget
      logged := fun e he => by
        rcases List.mem_append.mp he with he | he
        · exact h.logged e he
        · rw [List.mem_singleton.mp he]
          exact ⟨hcount, hbudget⟩ }

theorem length_recordSubmit (it : SplitIter R T F) (item : SplitItem R T F)
    (requestId ioCount : Nat) :
    it.prefetchQueue.length ≤ (recordSubmit it item requestId ioCount).prefetchQueue.length ∧
      0 < (recordSubmit it item requestId ioCount).prefetchQueue.length := by
  show _ ≤ (if item.submittedMicroCount = 0 then _ else _ : List _).length ∧
    0 < (if item.submittedMicroCount = 0 then _ else _ : List _).length
  split
  · rw [List.length_append, List.length_singleton]
    omega
  · rw [List.length_append, List.length_singleton, List.length_dropLast]
    omega

/-- The budget does not admit the next micro-batch of the pending item. -/
def Blocked (loader : GidsLoader R F) (it : SplitIter R T F) : Prop :=
  ∃ item ioCount, pendingItem it = some item ∧
    item.microIoCounts[item.submittedMicroCount]? = some ioCount ∧
      GidsIter.canSubmitIos loader it ioCount = false

/-- A submit goes through, unless nothing is left to submit or the budget blocks it. -/
theorem submitPrefetch_returns (h : SplitQueued loader first limit foreign front left s) :
    (submitPrefetch loader).Returns s fun submitted t =>
      SplitQueued loader first limit foreign front left t ∧
        s.iter.prefetchQueue.length ≤ t.iter.prefetchQueue.length ∧
        if submitted then t.store.nextRequestId = s.store.nextRequestId + 1 ∧
          t.iter.prefetchQueue ≠ []
        else t.iter.prefetchQueue = s.iter.prefetchQueue ∧
          (t.iter.exhausted = true ∨ Blocked loader t.iter) := by
  rw [submitPrefetch]
  apply Prog.returns_get_bind
  split
  · rename_i hnothing
    exact Prog.returns_pure ⟨h, Nat.le_refl _, rfl, Or.inl hnothing.1⟩
  · apply (nextSplitItem_returns h).bind
    rintro o t ⟨ht, hstore, hqueue, ho⟩
    cases o with
    | none =>
      exact Prog.returns_pure ⟨ht, Nat.le_of_eq (congrArg List.length hqueue.symm), hqueue,
        Or.inl ho⟩
    | some item =>
      obtain ⟨hvalid, hlt, -⟩ := ht.pending_eq ho
      have hlt' : item.submittedMicroCount < item.microIoCounts.length := by
        rw [hvalid.ioCounts_length]
        exact hlt
      have hlt'' : item.submittedMicroCount < item.microBatches.length := by
        rw [hvalid.batches_length]
        exact hlt
      apply Prog.returns_lift_bind (index_eq hlt')
      apply Prog.returns_get_bind
      split
      · rename_i hblocked
        exact Prog.returns_pure ⟨ht, Nat.le_of_eq (congrArg List.length hqueue.symm),
          hqueue, Or.inr ⟨item, _, ho, List.getElem?_eq_getElem hlt', hblocked⟩⟩
      · rename_i hcan
        apply Prog.returns_lift_bind (index_eq hlt'')
        rw [GidsIter.fetchSubmit]
        apply (returns_submit (Q := fun id u => id = t.store.nextRequestId ∧
          u = { t with store := t.store.registered [item.microBatches[item.submittedMicroCount]] })
          ⟨rfl, rfl⟩).bind
        rintro _ _ ⟨rfl, rfl⟩
        apply Prog.returns_modify_bind
        apply Prog.returns_pure
        have hlength := length_recordSubmit t.iter item t.store.nextRequestId
          item.microIoCounts[item.submittedMicroCount]
        refine ⟨?_, ?_, ?_, ?_⟩
        · exact submit_queued ht ho (List.getElem?_eq_getElem hlt'')
            (List.getElem?_eq_getElem hlt') (by simpa using hcan)
        · rw [← hqueue]
          exact hlength.1
        · rw [← hstore]
          rfl
        · exact List.length_pos_iff_ne_nil.mp hlength.2

/-- Requests to come bound the rounds of every loop that submits. -/
theorem nextRequestId_le (h : SplitQueued loader first limit foreign front left s) :
    s.store.nextRequestId ≤ limit := by
  have := h.remaining
  omega

/-- The queue has been filled: it is empty only when the dataloader has ended. -/
def SplitFilled (s : Session R (SplitIter R T F)) : Prop :=
  s.iter.prefetchQueue ≠ [] ∨ s.iter.exhausted = true

theorem fillPrefetchQueue_returns (h : SplitQueued loader first limit foreign front left s)
    (hfuel : limit < fuel) :
    (fillPrefetchQueue loader fuel).Returns s fun _ t =>
      SplitQueued loader first limit foreign front left t ∧ SplitFilled t := by
  apply Prog.Returns.loop (fun _ t => SplitQueued loader first limit foreign front left t)
    (fun _ t => limit - t.store.nextRequestId) ?_ fuel h (by omega)
  intro _ t ht
  apply Prog.returns_get_bind
  split
  · rename_i hexhausted
    exact Prog.returns_pure ⟨ht, Or.inr hexhausted⟩
  · split
    · rename_i hdeep
      apply Prog.returns_pure
      refine ⟨ht, Or.inl ?_⟩
      intro hnil
      have hdepth : 1 ≤ loader.depth := Nat.le_max_left _ _
      have hlength := hdeep.1
      rw [hnil, List.length_nil] at hlength
      omega
    · apply (submitPrefetch_returns ht).bind
      rintro submitted u ⟨hu, -, hsubmitted⟩
      split
      · rename_i htrue
        rw [if_pos htrue] at hsubmitted
        have hle := nextRequestId_le hu
        apply Prog.returns_pure
        refine ⟨hu, ?_⟩
        omega
      · rename_i hfalse
        rw [if_neg hfalse] at hsubmitted
        apply Prog.returns_pure
        refine ⟨hu, hsubmitted.2.symm.imp (fun hblocked => ?_) id⟩
        -- something outstanding blocks, and it belongs to an item of the queue
        obtain ⟨item, ioCount, -, -, hcan⟩ := hblocked
        intro hnil
        have hios := hu.ios
        rw [hnil, List.map_nil, List.sum_nil] at hios
        rw [GidsIter.canSubmitIos, hios] at hcan
        simp at hcan

/-- A front item that misses submits is the only one in the queue, so its next micro-batch
    fits the budget. -/
theorem not_blocked_of_front (h : SplitQueued loader first limit foreign front left s)
    {item : SplitItem R T F} {rest : List (SplitItem R T F)}
    (hqueue : s.iter.prefetchQueue = item :: rest) (hmissing : item.missing ≠ 0) :
    pendingItem s.iter = some item ∧ ¬Blocked loader s.iter := by
  have hpattern := h.missing
  have htail : s.iter.pendingSplitItem = .tail ∧ rest = [] := by
    rw [hqueue, List.map_cons] at hpattern
    cases hpending : s.iter.pendingSplitItem with
    | tail =>
      rw [hpending] at hpattern
      obtain ⟨m, k, hk⟩ := hpattern
      cases m with
      | zero =>
        rw [List.replicate_zero, List.nil_append, List.cons.injEq] at hk
        exact ⟨rfl, List.map_eq_nil_iff.mp hk.2⟩
      | succ m =>
        rw [List.replicate_succ, List.cons_append, List.cons.injEq] at hk
        exact absurd hk.1 hmissing
    | none =>
      rw [hpending] at hpattern
      obtain ⟨m, hm⟩ := hpattern
      cases m with
      | zero => cases hm
      | succ m =>
        rw [List.replicate_succ, List.cons.injEq] at hm
        exact absurd hm.1 hmissing
    | fresh other =>
      rw [hpending] at hpattern
      obtain ⟨m, hm⟩ := hpattern
      cases m with
      | zero => cases hm
      | succ m =>
        rw [List.replicate_succ, List.cons.injEq] at hm
        exact absurd hm.1 hmissing
  obtain ⟨hpending, rfl⟩ := htail
  have hitem : pendingItem s.iter = some item := by
    rw [pendingItem, hpending, hqueue]
    rfl
  refine ⟨hitem, ?_⟩
  rintro ⟨item', ioCount, hitem', hio, hcan⟩
  obtain rfl : item = item' := Option.some.inj (hitem.symm.trans hitem')
  obtain ⟨hvalid, hlt, hmem, -⟩ := h.pending_eq hitem
  obtain ⟨hiolt, hioeq⟩ := List.getElem?_eq_some_iff.mp hio
  have hfits := (h.fits item.batch hmem).2.2
  have hle := hvalid.unmaterializedIos_add_le hlt
  have hios := h.ios
  rw [hqueue, List.map_singleton, List.sum_singleton] at hios
  rw [hioeq] at hle
  rw [GidsIter.canSubmitIos, Bool.or_eq_false_iff, Bool.or_eq_false_iff, beq_eq_false_iff_ne,
    decide_eq_false_iff_not] at hcan
  omega

/-- The front item gets all its submits: neither the budget nor the end of the dataloader
    is in the way. -/
theorem ensureFront_returns (h : SplitQueued loader first limit foreign front left s)
    (hfuel : limit < fuel) :
    (ensureFrontFullySubmitted loader fuel).Returns s fun _ t =>
      SplitQueued loader first limit foreign front left t ∧
        s.iter.prefetchQueue.length ≤ t.iter.prefetchQueue.length ∧
          ∀ item rest, t.iter.prefetchQueue = item :: rest → item.missing = 0 := by
  apply Prog.Returns.loop (fun _ t => SplitQueued loader first limit foreign front left t ∧
      s.iter.prefetchQueue.length ≤ t.iter.prefetchQueue.length)
    (fun _ t => limit - t.store.nextRequestId) ?_ fuel ⟨h, Nat.le_refl _⟩ (by omega)
  rintro _ t ⟨ht, hlength⟩
  apply Prog.returns_get_bind
  cases hqueue : t.iter.prefetchQueue with
  | nil =>
    rw [hqueue] at hlength
    refine Prog.returns_pure ⟨ht, by rw [hqueue]; exact hlength, ?_⟩
    intro item rest hcons
    rw [hqueue] at hcons
    cases hcons
  | cons item rest =>
    have hvalid := (ht.valid item (by rw [hqueue]; exact List.mem_cons_self)).1
    have hfull := hvalid.full_eq
    show Prog.Returns (if item.fullySubmitted = true then _ else _) t _
    split
    · rename_i htrue
      rw [htrue] at hfull
      refine Prog.returns_pure ⟨ht, hlength, ?_⟩
      intro item' rest' hcons
      rw [hqueue, List.cons.injEq] at hcons
      rw [← hcons.1]
      exact of_decide_eq_true hfull.symm
    · rename_i hfalse
      rw [Bool.not_eq_true] at hfalse
      rw [hfalse] at hfull
      have hmissing : item.missing ≠ 0 := of_decide_eq_false hfull.symm
      apply (submitPrefetch_returns ht).bind
      rintro submitted u ⟨hu, hmore, hsubmitted⟩
      split
      · rename_i htrue
        rw [if_pos htrue] at hsubmitted
        have hle := nextRequestId_le hu
        apply Prog.returns_pure
        refine ⟨⟨hu, Nat.le_trans hlength hmore⟩, ?_⟩
        omega
      · rename_i hnot
        rw [if_neg hnot] at hsubmitted
        obtain ⟨hsame, hreason⟩ := hsubmitted
        obtain ⟨hitem, hunblocked⟩ := not_blocked_of_front hu (hsame.trans hqueue) hmissing
        -- the item is pending, so the dataloader was not asked
        have hexhausted := hreason.resolve_right hunblocked
        rw [pendingItem, (hu.ended hexhausted).2] at hitem
        cases hitem

/-! ## Gets -/

/-- An item after the copy of its next micro-batch, of `ioCount` rows. -/
structure CopiedNext (loader : GidsLoader R F) (item : SplitItem R T F) (ioCount : Nat)
    (item' : SplitItem R T F) : Prop where
  valid : item'.Valid loader
  batch : item'.batch = item.batch
  missing : item'.missing = item.missing
  consumed : item'.consumedMicroCount = item.consumedMicroCount
  submitted : item'.submittedMicroCount = item.submittedMicroCount
  materialized : item'.materializedMicroCount = item.materializedMicroCount + 1
  requests : item'.requests = item.requests.tail
  ios : item.unmaterializedIos = ioCount + item'.unmaterializedIos

theorem copiedNext {item : SplitItem R T F} (hvalid : item.Valid loader)
    (hlt : item.materializedMicroCount < item.submittedMicroCount)
    (hm : item.materializedMicroCount < item.microRanges.length)
    (hio : item.materializedMicroCount < item.microIoCounts.length) :
    CopiedNext loader item item.microIoCounts[item.materializedMicroCount]
      (item.materialize loader item.materializedMicroCount
        item.microRanges[item.materializedMicroCount]
        ((slice item.batch.inputNodes item.microRanges[item.materializedMicroCount]).map
          loader.feature)) := by
  obtain ⟨requestId, tail, -, hrequests, htail⟩ := hvalid.requests_eq_cons hlt
  have hcount : max item.materializedMicroCount (item.materializedMicroCount + 1) =
      item.materializedMicroCount + 1 := Nat.max_eq_right (Nat.le_succ _)
  exact
    { valid := hvalid.materialize hlt
      batch := rfl
      missing := rfl
      consumed := rfl
      submitted := rfl
      materialized := hcount
      requests := by
        rw [hrequests, List.tail_cons, htail, SplitItem.requests]
        exact congrArg (List.drop · _) hcount
      ios := by
        rw [hvalid.unmaterializedIos_eq_add hlt]
        exact congrArg (fun n => _ + ((item.microIoCounts.take _).drop n).sum) hcount.symm }

/-- The front request of the store has been fetched and copied into the first item that waits for
    one. -/
theorem copied_queued (h : SplitQueued loader first limit [] front left s)
    {pre post : List (SplitItem R T F)} {item item' : SplitItem R T F} {ioCount : Nat}
    (hqueue : s.iter.prefetchQueue = pre ++ item :: post)
    (hpre : pre.flatMap SplitItem.requests = []) (hnext : CopiedNext loader item ioCount item')
    {p : Pending R} {rest : List (Pending R)} (hout : s.store.outstanding = p :: rest)
    (hrest : rest.map Pending.request = item'.requests ++ post.flatMap SplitItem.requests) :
    SplitQueued loader first limit [] front left
      { store := { s.store with
          outstanding := rest
          gets := s.store.gets ++ [{ requestId := p.requestId, own := p.rows, rows := p.rows }] }
        iter := logged { s.iter with
          prefetchQueue := s.iter.prefetchQueue.set pre.length item'
          outstandingIoCount := s.iter.outstandingIoCount - ioCount } } := by
  have hmem : item ∈ s.iter.prefetchQueue := by
    rw [hqueue]
    exact List.mem_append_right _ List.mem_cons_self
  have hq : s.iter.prefetchQueue.set pre.length item' = pre ++ item' :: post := by
    rw [hqueue, List.set_append_right _ _ (Nat.le_refl _), Nat.sub_self]
    rfl
  -- every list that the invariant reads off the queue, except requests and io counts
  have hsame : ∀ {X : Type} (f : SplitItem R T F → X), f item' = f item →
      (s.iter.prefetchQueue.set pre.length item').map f = s.iter.prefetchQueue.map f := by
    intro X f hf
    rw [hq, hqueue, List.map_append, List.map_append, List.map_cons, List.map_cons, hf]
  have hsum : s.iter.outstandingIoCount - ioCount =
      ((s.iter.prefetchQueue.set pre.length item').map SplitItem.unmaterializedIos).sum := by
    have hbefore := h.ios
    rw [hqueue, List.map_append, List.map_cons, List.sum_append, List.sum_cons, hnext.ios]
      at hbefore
    rw [hq, List.map_append, List.map_cons, List.sum_append, List.sum_cons]
    omega
  have hbudget : 0 < loader.maxOutstandingIos →
      s.iter.outstandingIoCount - ioCount ≤ loader.maxOutstandingIos :=
    fun hpos => Nat.le_trans (Nat.sub_le _ _) (h.budget hpos)
  exact
    { batches := by
        show (s.iter.prefetchQueue.set pre.length item').map _ ++ (freshItems s.iter).map _ ++
          s.iter.dataloaderIt = left
        rw [hsame _ hnext.batch]
        exact h.batches
      fits := h.fits
      pendingBatch := h.pendingBatch
      ended := h.ended
      valid := fun i hi => by
        have hi' : i ∈ pre ++ item' :: post := hq ▸ hi
        rcases List.mem_append.mp hi' with hi | hi
        · exact h.valid i (by
            rw [hqueue]
            exact List.mem_append_left _ hi)
        · rcases List.mem_cons.mp hi with rfl | hi
          · exact ⟨hnext.valid, by rw [hnext.submitted]; exact (h.valid item hmem).2⟩
          · exact h.valid i (by
              rw [hqueue]
              exact List.mem_append_right _ (List.mem_cons_of_mem _ hi))
      fresh := h.fresh
      missing := by
        show OnlyTail s.iter.pendingSplitItem ((s.iter.prefetchQueue.set pre.length item').map _)
        rw [hsame _ hnext.missing]
        exact h.missing
      consumed := by
        show OnlyFront front ((s.iter.prefetchQueue.set pre.length item').map _)
        rw [hsame _ hnext.consumed]
        exact h.consumed
      frontFull := fun hfront => by
        show ((s.iter.prefetchQueue.set pre.length item').map SplitItem.missing).head? = some 0
        rw [hsame _ hnext.missing]
        exact h.frontFull hfront
      requests := by
        show _ = (s.iter.prefetchQueue.set pre.length item').flatMap _
        rw [hq, List.flatMap_append, hpre, List.nil_append, List.flatMap_cons]
        exact hrest
      untouched := fun hne => absurd rfl hne
      ordered := h.ordered.get hout
      remaining := by
        show s.store.nextRequestId + ((s.iter.prefetchQueue.set pre.length item').map _).sum +
          ((freshItems s.iter).map _).sum + _ = limit
        rw [hsame _ hnext.missing]
        exact h.remaining
      ios := hsum
      budget := hbudget
      logged := fun e he => by
        rcases List.mem_append.mp he with he | he
        · exact h.logged e he
        · rw [List.mem_singleton.mp he]
          exact ⟨hsum, hbudget⟩ }

/-- The get of the first request in flight, which is that of `item`. -/
theorem materialize_returns (h : SplitQueued loader first limit [] front left s)
    {pre post : List (SplitItem R T F)} {item : SplitItem R T F}
    (hqueue : s.iter.prefetchQueue = pre ++ item :: post)
    (hpre : pre.flatMap SplitItem.requests = [])
    (hlt : item.materializedMicroCount < item.submittedMicroCount) {p : Pending R}
    {rest : List (Pending R)} (hout : s.store.outstanding = p :: rest) (hready : p.ready = true) :
    (materializeSplitMicro loader pre.length item.materializedMicroCount).Returns s fun _ t =>
      SplitQueued loader first limit [] front left t ∧
        t.store.outstanding.length + 1 = s.store.outstanding.length ∧
          t.iter.exhausted = s.iter.exhausted ∧
            ∃ item', t.iter.prefetchQueue = pre ++ item' :: post ∧
              item'.materializedMicroCount = item.materializedMicroCount + 1 := by
  have hmem : item ∈ s.iter.prefetchQueue := by
    rw [hqueue]
    exact List.mem_append_right _ List.mem_cons_self
  have hvalid := (h.valid item hmem).1
  have hm : item.materializedMicroCount < item.microRanges.length :=
    Nat.lt_of_lt_of_le hlt hvalid.submitted_le
  have hmicro : item.materializedMicroCount < item.microBatches.length := by
    rw [hvalid.batches_length]
    exact hm
  have hio : item.materializedMicroCount < item.microIoCounts.length := by
    rw [hvalid.ioCounts_length]
    exact hm
  obtain ⟨hslice, -, -⟩ := hvalid.micro hm
  obtain ⟨requestId, tail, -, hrequests, -⟩ := hvalid.requests_eq_cons hlt
  have hnext := copiedNext hvalid hlt hm hio
  -- the front of the store is the first request of the item
  have hstore := h.requests
  rw [hout, hqueue, List.nil_append, List.flatMap_append, hpre, List.nil_append,
    List.flatMap_cons, hrequests, List.cons_append, List.map_cons, List.cons.injEq] at hstore
  have hrows : p.rows = item.microBatches[item.materializedMicroCount] :=
    congrArg Prod.snd hstore.1
  have hrest : rest.map Pending.request =
      (item.materialize loader item.materializedMicroCount
        item.microRanges[item.materializedMicroCount]
        ((slice item.batch.inputNodes item.microRanges[item.materializedMicroCount]).map
          loader.feature)).requests ++ post.flatMap SplitItem.requests := by
    rw [hnext.requests, hrequests, List.tail_cons]
    exact hstore.2
  rw [materializeSplitMicro]
  apply Prog.returns_get_bind
  have hget : index s.iter.prefetchQueue pre.length = .ok item := by
    rw [index, hqueue, List.getElem?_append_right (Nat.le_refl _), Nat.sub_self]
    rfl
  apply Prog.returns_lift_bind hget
  apply Prog.returns_lift_bind (index_eq hmicro)
  rw [← hrows]
  apply (GidsIter.fetchGet_returns hout hready).bind
  rintro _ _ ⟨rfl, rfl⟩
  apply Prog.returns_lift_bind (index_eq hm)
  apply Prog.returns_lift_bind (index_eq hio)
  apply Prog.returns_modify
  have hqueued := copied_queued h hqueue hpre hnext hout hrest
  rw [hrows, hslice] at hqueued ⊢
  refine ⟨hqueued, by rw [hout]; rfl, rfl, _, ?_, hnext.materialized⟩
  show s.iter.prefetchQueue.set pre.length _ = _
  rw [hqueue, List.set_append_right _ _ (Nat.le_refl _), Nat.sub_self]
  rfl

/-- `_front_pending_split_request` finds the item of the front request, if there is one. -/
theorem frontPending_eq {queue : List (SplitItem R T F)} (hvalid : ∀ i ∈ queue, i.Valid loader)
    (pos : Nat) :
    frontPending pos queue = .ok none ∧ queue.flatMap SplitItem.requests = [] ∨
      ∃ pre item post requestId rows tail, queue = pre ++ item :: post ∧
        pre.flatMap SplitItem.requests = [] ∧
          item.materializedMicroCount < item.submittedMicroCount ∧
            item.requests = (requestId, rows) :: tail ∧
              frontPending pos queue =
                .ok (some (pos + pre.length, item.materializedMicroCount, requestId)) := by
  induction queue generalizing pos with
  | nil => exact Or.inl ⟨rfl, rfl⟩
  | cons item rest ih =>
    have hitem := hvalid item List.mem_cons_self
    rw [frontPending]
    split
    · rename_i hdone
      have hnil := hitem.requests_eq_nil hdone
      rcases ih (fun i hi => hvalid i (List.mem_cons_of_mem _ hi)) (pos + 1) with
        ⟨hnone, hrest⟩ | ⟨pre, found, post, requestId, rows, tail, rfl, hpre, hlt, hrequests, hfound⟩
      · left
        rw [List.flatMap_cons, hnil, hrest]
        exact ⟨hnone, rfl⟩
      · right
        refine ⟨item :: pre, found, post, requestId, rows, tail, rfl, ?_, hlt, hrequests, ?_⟩
        · rw [List.flatMap_cons, hnil, hpre]
          rfl
        · rw [hfound, List.length_cons, Nat.add_assoc, Nat.add_comm 1]
    · rename_i hmore
      right
      obtain ⟨requestId, tail, hid, hrequests, -⟩ := hitem.requests_eq_cons (Nat.lt_of_not_le hmore)
      refine ⟨[], item, rest, requestId, _, tail, rfl, rfl, Nat.lt_of_not_le hmore, hrequests, ?_⟩
      rw [index, hid]
      rfl

theorem drainReadyFront_returns (h : SplitQueued loader first limit foreign front left s)
    (hfilled : SplitFilled s) (hfuel : limit < fuel) :
    (drainReadyFront loader fuel).Returns s fun _ t =>
      SplitQueued loader first limit foreign front left t ∧ SplitFilled t := by
  -- no more requests can be outstanding than have been made
  have hbound : (if foreign = [] then s.store.outstanding.length else 0) < fuel := by
    split
    · rename_i hnil
      have hlength := congrArg List.length h.ordered.order
      rw [hnil, List.length_append, List.length_map, List.length_map, List.length_append,
        List.length_range', List.map_nil, List.length_nil] at hlength
      have := nextRequestId_le h
      omega
    · omega
  apply Prog.Returns.loop
    (fun _ t => SplitQueued loader first limit foreign front left t ∧ SplitFilled t)
    (fun _ t => if foreign = [] then t.store.outstanding.length else 0) ?_ fuel ⟨h, hfilled⟩ hbound
  rintro _ t ⟨ht, hfull⟩
  apply Prog.returns_get_bind
  rcases frontPending_eq (fun i hi => (ht.valid i hi).1) 0 with
    ⟨hnone, -⟩ | ⟨pre, item, post, requestId, rows, tail, hqueue, hpre, hlt, hrequests, hfound⟩
  · apply Prog.returns_lift_bind hnone
    exact Prog.returns_pure ⟨ht, hfull⟩
  · apply Prog.returns_lift_bind hfound
    have hown : t.iter.prefetchQueue.flatMap SplitItem.requests =
        (requestId, rows) :: (tail ++ post.flatMap SplitItem.requests) := by
      rw [hqueue, List.flatMap_append, hpre, List.nil_append, List.flatMap_cons, hrequests]
      rfl
    show Prog.Returns (if t.store.readyFrontRequestId = requestId then _ else _) t _
    split
    · rename_i hready
      -- only with nothing foreign in front can the request found be the ready front
      by_cases hforeign : foreign = []
      · subst hforeign
        have hstore := ht.requests
        rw [hown, List.nil_append] at hstore
        cases hout : t.store.outstanding with
        | nil =>
          rw [hout] at hstore
          cases hstore
        | cons p rest =>
          rw [hout, List.map_cons, List.cons.injEq] at hstore
          have hid : p.requestId = requestId := congrArg Prod.fst hstore.1
          have hmarked : p.ready = true := by
            by_contra hnot
            rw [t.store.readyFrontRequestId_cons hout, if_neg hnot, ← hid] at hready
            exact ht.ordered.ne_zero (by rw [hout]; exact List.mem_cons_self) hready.symm
          rw [Nat.zero_add]
          apply (materialize_returns ht hqueue hpre hlt hout hmarked).bind
          rintro _ u ⟨hu, hlength, hexhausted, item', hqueue', -⟩
          rw [hout] at hlength
          apply Prog.returns_pure
          rw [if_pos rfl, if_pos rfl]
          refine ⟨⟨hu, Or.inl ?_⟩, by omega⟩
          rw [hqueue']
          exact List.append_ne_nil_of_right_ne_nil _ (List.cons_ne_nil _ _)
      · have hmem : (requestId, rows) ∈ t.iter.prefetchQueue.flatMap SplitItem.requests := by
          rw [hown]
          exact List.mem_cons_self
        exact absurd hready (ht.ordered.readyFront_ne hforeign ht.requests hmem)
    · exact Prog.returns_pure ⟨ht, hfull⟩

/-! ## The front item -/

variable {c bound : Nat}

/-- The front item while it is consumed. -/
theorem front_exists (h : SplitQueued loader first limit foreign (some c) left s) :
    ∃ item rest, s.iter.prefetchQueue = item :: rest ∧ item.Valid loader ∧
      item.consumedMicroCount = c ∧ item.submittedMicroCount = item.microRanges.length := by
  have hconsumed := h.consumed
  have hfull := h.frontFull (Option.some_ne_none c)
  obtain ⟨m, hm⟩ := hconsumed
  cases hqueue : s.iter.prefetchQueue with
  | nil =>
    rw [hqueue] at hm
    cases hm
  | cons item rest =>
    rw [hqueue, List.map_cons, List.cons.injEq] at hm
    rw [hqueue] at hfull
    have hmissing : item.missing = 0 := Option.some.inj hfull
    have hvalid := (h.valid item (by rw [hqueue]; exact List.mem_cons_self)).1
    have hle := hvalid.submitted_le
    rw [SplitItem.missing] at hmissing
    exact ⟨item, rest, rfl, hvalid, hm.1, by omega⟩

theorem countConsumed_queued (h : SplitQueued loader first limit [] (some c) left s)
    {item : SplitItem R T F} {rest : List (SplitItem R T F)}
    (hqueue : s.iter.prefetchQueue = item :: rest) (hlt : c < item.materializedMicroCount) :
    SplitQueued loader first limit [] (some (c + 1)) left { s with iter := countConsumed s.iter } := by
  obtain ⟨item', rest', hqueue', hvalid, hcount, -⟩ := front_exists h
  rw [hqueue, List.cons.injEq] at hqueue'
  obtain ⟨rfl, rfl⟩ := hqueue'
  have hq : (countConsumed s.iter).prefetchQueue =
      { item with consumedMicroCount := item.consumedMicroCount + 1 } :: rest := by
    rw [countConsumed, hqueue]
    rfl
  have hsame : ∀ {X : Type} (f : SplitItem R T F → X),
      f { item with consumedMicroCount := item.consumedMicroCount + 1 } = f item →
        (countConsumed s.iter).prefetchQueue.map f = s.iter.prefetchQueue.map f := by
    intro X f hf
    rw [hq, hqueue, List.map_cons, List.map_cons, hf]
  exact
    { batches := by
        show (countConsumed s.iter).prefetchQueue.map _ ++ (freshItems s.iter).map _ ++ _ = left
        rw [hsame SplitItem.batch rfl]
        exact h.batches
      fits := h.fits
      pendingBatch := h.pendingBatch
      ended := h.ended
      valid := fun i hi => by
        have hi' : i ∈ _ :: rest := hq ▸ hi
        rcases List.mem_cons.mp hi' with rfl | hi
        · exact ⟨{ hvalid with consumed_le := by rw [hcount]; exact hlt },
            (h.valid item (by rw [hqueue]; exact List.mem_cons_self)).2⟩
        · exact h.valid i (by rw [hqueue]; exact List.mem_cons_of_mem _ hi)
      fresh := h.fresh
      missing := by
        show OnlyTail s.iter.pendingSplitItem ((countConsumed s.iter).prefetchQueue.map _)
        rw [hsame SplitItem.missing rfl]
        exact h.missing
      consumed := by
        obtain ⟨m, hm⟩ := h.consumed
        rw [hqueue, List.map_cons, List.cons.injEq] at hm
        refine ⟨m, ?_⟩
        show (countConsumed s.iter).prefetchQueue.map _ = _
        rw [hq, List.map_cons, hm.2, hcount]
      frontFull := fun _ => by
        show ((countConsumed s.iter).prefetchQueue.map SplitItem.missing).head? = some 0
        rw [hsame SplitItem.missing rfl]
        exact h.frontFull (Option.some_ne_none c)
      requests := by
        show _ = [] ++ (countConsumed s.iter).prefetchQueue.flatMap _
        rw [h.requests, List.flatMap_def, List.flatMap_def, hsame SplitItem.requests rfl]
      ordered := h.ordered
      untouched := fun hne => absurd rfl hne
      remaining := by
        show s.store.nextRequestId + ((countConsumed s.iter).prefetchQueue.map _).sum +
          ((freshItems s.iter).map _).sum + _ = limit
        rw [hsame SplitItem.missing rfl]
        exact h.remaining
      ios := by
        show s.iter.outstandingIoCount = ((countConsumed s.iter).prefetchQueue.map _).sum
        rw [hsame SplitItem.unmaterializedIos rfl]
        exact h.ios
      budget := h.budget
      logged := h.logged }

/-- One micro-batch of the front item: from its result, or polled and copied. -/
theorem consumeFrontMicro_returns (h : SplitQueued loader first limit [] (some c) left s)
    {item : SplitItem R T F} {rest : List (SplitItem R T F)}
    (hqueue : s.iter.prefetchQueue = item :: rest) (hlt : c < item.microRanges.length)
    (hlive : ∀ id, id < limit → LiveFrom loader.device bound id) (hfuel : bound < fuel) :
    (consumeFrontMicro loader fuel item).Returns s fun _ t =>
      SplitQueued loader first limit [] (some (c + 1)) left t := by
  obtain ⟨item', rest', hqueue', hvalid, hcount, hsubmitted⟩ := front_exists h
  rw [hqueue, List.cons.injEq] at hqueue'
  obtain ⟨rfl, rfl⟩ := hqueue'
  have hflags := hvalid.flags_eq
  have hflagslt : item.consumedMicroCount < item.materializedFlags.length := by
    rw [hflags, List.length_map, List.length_range, hcount]
    exact hlt
  have hflag : index item.materializedFlags item.consumedMicroCount =
      .ok (decide (c < item.materializedMicroCount)) := by
    rw [index_eq hflagslt]
    simp only [hflags, List.getElem_map, List.getElem_range, hcount]
  rw [consumeFrontMicro]
  apply Prog.returns_lift_bind hflag
  split
  · rename_i hcached
    apply Prog.returns_modify
    exact countConsumed_queued h hqueue (of_decide_eq_true hcached)
  · rename_i hnot
    have hle := hvalid.consumed_le
    have hm : item.materializedMicroCount = c := by
      rw [decide_eq_true_iff] at hnot
      omega
    have hmlt : item.materializedMicroCount < item.submittedMicroCount := by omega
    obtain ⟨requestId, tail, hid, hrequests, -⟩ := hvalid.requests_eq_cons hmlt
    have hindex : index item.requestIds item.consumedMicroCount = .ok requestId := by
      rw [index, hcount, ← hm, hid]
    -- the front of the store is the request of this micro-batch
    have hstore := h.requests
    rw [hqueue, List.nil_append, List.flatMap_cons, hrequests] at hstore
    cases hout : s.store.outstanding with
    | nil =>
      rw [hout] at hstore
      cases hstore
    | cons p ps =>
      rw [hout, List.cons_append, List.map_cons, List.cons.injEq] at hstore
      have hpid : p.requestId = requestId := congrArg Prod.fst hstore.1
      have hprows : p.rows = getElem item.microBatches item.materializedMicroCount (by
          rw [hvalid.batches_length]; omega) := congrArg Prod.snd hstore.1
      have hp : p ∈ s.store.outstanding := by rw [hout]; exact List.mem_cons_self
      obtain ⟨hslice, -, hne⟩ := hvalid.micro (j := item.materializedMicroCount) (by omega)
      have hbounds := h.ordered.id_bounds hp
      have hnext := nextRequestId_le h
      apply Prog.returns_lift_bind hindex
      rw [← hpid]
      apply (GidsIter.pollFrontRequest_returns hout (by rw [hprows, hslice]; exact hne)
        (hlive _ (by omega)) hfuel).bind
      rintro _ t ⟨hiter, hserved, hready⟩
      have ht := h.served hiter hserved
      obtain ⟨q, qs, hq, hpq⟩ := hserved.front_eq hout
      have hmarked : q.ready = true := by
        by_contra hnr
        rw [t.store.readyFrontRequestId_cons hq, if_neg hnr] at hready
        exact h.ordered.ne_zero hp hready.symm
      rw [hcount, ← hm]
      apply (materialize_returns ht (show t.iter.prefetchQueue = [] ++ _ :: _ by rw [hiter]; exact hqueue) rfl hmlt hq
        hmarked).bind
      rintro _ u ⟨hu, -, -, item', hqueue', hcopied⟩
      apply Prog.returns_modify
      rw [hm] at hcopied ⊢
      exact countConsumed_queued hu hqueue' (by omega)

/-- The front item is that of the first batch to return. -/
theorem batch_of_front {b : Sampled R T} (h : SplitQueued loader first limit foreign front (b :: left) s)
    {item : SplitItem R T F} {rest : List (SplitItem R T F)}
    (hqueue : s.iter.prefetchQueue = item :: rest) :
    item.batch = b ∧ item.microRanges.length = loader.micros b := by
  have hbatches := h.batches
  rw [hqueue, List.map_cons, List.cons_append, List.cons_append, List.cons.injEq] at hbatches
  have hvalid := (h.valid item (by rw [hqueue]; exact List.mem_cons_self)).1
  refine ⟨hbatches.1, ?_⟩
  rw [hvalid.ranges_eq, GidsLoader.micros, hbatches.1]

/-- How many micro-batches of the front item have not been consumed. -/
def unconsumed (s : Session R (SplitIter R T F)) : Nat :=
  match s.iter.prefetchQueue with
  | [] => 0
  | item :: _ => item.microRanges.length - item.consumedMicroCount

theorem consumeRound_returns {b : Sampled R T}
    (h : SplitQueued loader first limit [] (some c) (b :: left) s)
    (hlive : ∀ id, id < limit → LiveFrom loader.device bound id) (hlimit : limit < fuel)
    (hfuel : bound < fuel) :
    (consumeRound loader fuel).Returns s fun o t =>
      match o with
      | .inl _ => (∃ c, SplitQueued loader first limit [] (some c) (b :: left) t) ∧
          unconsumed t < unconsumed s
      | .inr _ => SplitQueued loader first limit [] (some (loader.micros b)) (b :: left) t := by
  obtain ⟨item, rest, hqueue, hvalid, hcount, hsubmitted⟩ := front_exists h
  obtain ⟨-, hmicros⟩ := batch_of_front h hqueue
  have hindex : ∀ {t : Session R (SplitIter R T F)} {i : SplitItem R T F}
      {l : List (SplitItem R T F)}, t.iter.prefetchQueue = i :: l →
        index t.iter.prefetchQueue 0 = .ok i := by
    intro t i l hl
    rw [hl]
    rfl
  have hunconsumed : unconsumed s = loader.micros b - c := by
    rw [unconsumed, hqueue, ← hmicros, ← hcount]
  rw [consumeRound]
  apply Prog.returns_get_bind
  apply Prog.returns_lift_bind (hindex hqueue)
  rw [hvalid.batches_length, hcount]
  split
  · rename_i hlt
    apply (consumeFrontMicro_returns h hqueue hlt hlive hfuel).bind
    intro _ t ht
    obtain ⟨item', rest', hqueue', -, hcount', -⟩ := front_exists ht
    obtain ⟨-, hmicros'⟩ := batch_of_front ht hqueue'
    -- one micro-batch less, whatever is submitted and copied afterwards
    have hless : ∀ {u : Session R (SplitIter R T F)},
        SplitQueued loader first limit [] (some (c + 1)) (b :: left) u →
          unconsumed u < unconsumed s := by
      intro u hu
      obtain ⟨i, l, hl, -, hi, -⟩ := front_exists hu
      rw [hunconsumed, unconsumed, hl]
      show i.microRanges.length - i.consumedMicroCount < _
      rw [(batch_of_front hu hl).2, hi]
      omega
    apply Prog.returns_get_bind
    apply Prog.returns_lift_bind (hindex hqueue')
    split
    · apply (fillPrefetchQueue_returns ht hlimit).bind
      rintro _ u ⟨hu, hfilled⟩
      apply (drainReadyFront_returns hu hfilled hlimit).bind
      rintro _ v ⟨hv, -⟩
      exact Prog.returns_pure ⟨⟨c + 1, hv⟩, hless hv⟩
    · exact Prog.returns_pure ⟨⟨c + 1, ht⟩, hless ht⟩
  · rename_i hge
    apply Prog.returns_pure
    have hle := hvalid.consumed_le
    have hle' := hvalid.materialized_le
    have hall : loader.micros b = c := by omega
    rw [hall]
    exact h

theorem begin_consume (h : SplitQueued loader first limit foreign none left s)
    {item : SplitItem R T F} {rest : List (SplitItem R T F)}
    (hqueue : s.iter.prefetchQueue = item :: rest) (hmissing : item.missing = 0) :
    SplitQueued loader first limit foreign (some 0) left s :=
  { h with
    consumed := by
      obtain ⟨m, hm⟩ := h.consumed
      cases m with
      | zero =>
        rw [hqueue] at hm
        cases hm
      | succ m => exact ⟨m, hm⟩
    frontFull := fun _ => by
      rw [hqueue, List.map_cons, hmissing]
      rfl }

/-- The front item leaves the queue with all its features. -/
theorem pop_queued {b : Sampled R T} {item : SplitItem R T F} {rest : List (SplitItem R T F)}
    (h : SplitQueued loader first limit [] (some (loader.micros b)) (b :: left) s)
    (hqueue : s.iter.prefetchQueue = item :: rest) :
    item.batch = b ∧ item.returnBuffer loader = b.inputNodes.map loader.feature ∧
      SplitQueued loader first limit [] none left
        { s with iter := { s.iter with prefetchQueue := s.iter.prefetchQueue.tail } } := by
  obtain ⟨item', rest', hqueue', hvalid, hcount, hsubmitted⟩ := front_exists h
  rw [hqueue, List.cons.injEq] at hqueue'
  obtain ⟨rfl, rfl⟩ := hqueue'
  obtain ⟨hbatch, hmicros⟩ := batch_of_front h hqueue
  have hle := hvalid.consumed_le
  have hle' := hvalid.materialized_le
  have hall : item.materializedMicroCount = item.microRanges.length := by omega
  have hmissing : item.missing = 0 := by
    rw [SplitItem.missing]
    omega
  have hrequests : item.requests = [] := hvalid.requests_eq_nil (by omega)
  have hios : item.unmaterializedIos = 0 := by
    rw [SplitItem.unmaterializedIos, hall, hsubmitted,
      List.drop_eq_nil_of_le (by rw [List.length_take]; omega), List.sum_nil]
  have hq : s.iter.prefetchQueue.tail = rest := by
    rw [hqueue]
    rfl
  refine ⟨hbatch, by rw [← hbatch]; exact hvalid.returnBuffer_eq hall, ?_⟩
  exact
    { batches := by
        have hbatches := h.batches
        rw [hqueue, List.map_cons, List.cons_append, List.cons_append, List.cons.injEq] at hbatches
        show s.iter.prefetchQueue.tail.map _ ++ (freshItems s.iter).map _ ++ _ = left
        rw [hq]
        exact hbatches.2
      fits := fun b' hb => h.fits b' (List.mem_cons_of_mem _ hb)
      pendingBatch := h.pendingBatch
      ended := h.ended
      valid := fun i hi => h.valid i (List.mem_of_mem_tail hi)
      fresh := h.fresh
      missing := by
        have hpattern := h.missing
        show OnlyTail s.iter.pendingSplitItem (s.iter.prefetchQueue.tail.map _)
        rw [hqueue, List.map_cons, hmissing] at hpattern
        rw [hq]
        cases hpending : s.iter.pendingSplitItem with
        | tail =>
          rw [hpending] at hpattern
          obtain ⟨m, k, hk⟩ := hpattern
          cases m with
          | zero =>
            rw [List.replicate_zero, List.nil_append, List.cons.injEq] at hk
            exact absurd hk.1.symm (Nat.succ_ne_zero k)
          | succ m =>
            rw [List.replicate_succ, List.cons_append, List.cons.injEq] at hk
            exact ⟨m, k, hk.2⟩
        | none =>
          rw [hpending] at hpattern
          obtain ⟨m, hm⟩ := hpattern
          exact ⟨m - 1, by rw [← List.tail_replicate, ← hm]; rfl⟩
        | fresh other =>
          rw [hpending] at hpattern
          obtain ⟨m, hm⟩ := hpattern
          exact ⟨m - 1, by rw [← List.tail_replicate, ← hm]; rfl⟩
      consumed := by
        obtain ⟨m, hm⟩ := h.consumed
        rw [hqueue, List.map_cons, List.cons.injEq] at hm
        refine ⟨m, ?_⟩
        show s.iter.prefetchQueue.tail.map _ = _
        rw [hq, hm.2]
      frontFull := fun hfront => absurd rfl hfront
      requests := by
        show _ = s.iter.prefetchQueue.tail.flatMap _
        rw [hq, h.requests, hqueue, List.flatMap_cons, hrequests, List.nil_append, List.nil_append]
      ordered := h.ordered
      untouched := fun hne => absurd rfl hne
      remaining := by
        have hremaining := h.remaining
        rw [hqueue, List.map_cons, List.sum_cons, hmissing, Nat.zero_add] at hremaining
        show s.store.nextRequestId + (s.iter.prefetchQueue.tail.map _).sum +
          ((freshItems s.iter).map _).sum + _ = limit
        rw [hq]
        exact hremaining
      ios := by
        have hbefore := h.ios
        rw [hqueue, List.map_cons, List.sum_cons, hios, Nat.zero_add] at hbefore
        show s.iter.outstandingIoCount = (s.iter.prefetchQueue.tail.map _).sum
        rw [hq]
        exact hbefore
      budget := h.budget
      logged := h.logged }

theorem consumeFrontSplit_returns {b : Sampled R T}
    (h : SplitQueued loader first limit [] none (b :: left) s) (hne : s.iter.prefetchQueue ≠ [])
    (hlive : ∀ id, id < limit → LiveFrom loader.device bound id) (hlimit : limit < fuel)
    (hfuel : bound < fuel) :
    (consumeFrontSplit loader fuel).Returns s fun r t =>
      r = { batch := b, features := b.inputNodes.map loader.feature } ∧
        SplitQueued loader first limit [] none left t := by
  rw [consumeFrontSplit]
  apply (ensureFront_returns h hlimit).bind
  rintro _ t ⟨ht, hlength, hfull⟩
  obtain ⟨item, rest, hqueue⟩ : ∃ item rest, t.iter.prefetchQueue = item :: rest := by
    apply List.exists_cons_of_ne_nil
    rw [← List.length_pos_iff_ne_nil] at hne ⊢
    omega
  apply (fillPrefetchQueue_returns (begin_consume ht hqueue (hfull item rest hqueue)) hlimit).bind
  rintro _ u ⟨hu, hfilled⟩
  apply (drainReadyFront_returns hu hfilled hlimit).bind
  rintro _ v ⟨hv, -⟩
  have hunconsumed : unconsumed v < fuel := by
    obtain ⟨i, l, hl, -⟩ := front_exists hv
    have hmicros := (h.fits b List.mem_cons_self).2.1
    rw [unconsumed, hl]
    show i.microRanges.length - i.consumedMicroCount < fuel
    rw [(batch_of_front hv hl).2]
    omega
  have hloop : (Prog.loop (fun _ => consumeRound loader fuel) fuel ()).Returns v fun _ w =>
      SplitQueued loader first limit [] (some (loader.micros b)) (b :: left) w := by
    apply Prog.Returns.loop
      (fun _ w => ∃ c, SplitQueued loader first limit [] (some c) (b :: left) w)
      (fun _ w => unconsumed w) ?_ fuel ⟨0, hv⟩ hunconsumed
    rintro _ w ⟨c, hw⟩
    apply (consumeRound_returns hw hlive hlimit hfuel).mono
    intro o x hx
    cases o with
    | inl _ => exact hx
    | inr _ => exact hx
  apply hloop.bind
  intro _ w hw
  obtain ⟨i, l, hl, -⟩ := front_exists hw
  obtain ⟨hbatch, hbuffer, hpopped⟩ := pop_queued hw hl
  apply Prog.returns_get_bind
  have hindex : index w.iter.prefetchQueue 0 = .ok i := by
    rw [hl]
    rfl
  apply Prog.returns_lift_bind hindex
  apply Prog.returns_modify_bind
  apply Prog.returns_pure
  rw [hbatch, hbuffer]
  exact ⟨rfl, hpopped⟩

/-! ## One call of `__next__` -/

/-- With an empty queue and an ended dataloader nothing is left. -/
theorem left_eq_nil (h : SplitQueued loader first limit foreign front left s)
    (hempty : s.iter.prefetchQueue = []) (hexhausted : s.iter.exhausted = true) : left = [] := by
  obtain ⟨hdata, hpending⟩ := h.ended hexhausted
  have hfresh : freshItems s.iter = [] := by rw [freshItems, hpending]
  rw [← h.batches, hempty, hdata, hfresh]
  rfl

theorem next_returns {b : Sampled R T} (h : SplitQueued loader first limit [] none (b :: left) s)
    (hlive : ∀ id, id < limit → LiveFrom loader.device bound id) (hlimit : limit < fuel)
    (hfuel : bound < fuel) :
    (next loader fuel).Returns s fun r t =>
      r = { batch := b, features := b.inputNodes.map loader.feature } ∧
        SplitQueued loader first limit [] none left t ∧ SplitFilled t := by
  rw [next]
  apply Prog.returns_get_bind
  rw [if_neg fun hend => List.cons_ne_nil b left
    (left_eq_nil h (List.isEmpty_iff.mp hend.1) hend.2)]
  apply (fillPrefetchQueue_returns h hlimit).bind
  rintro _ t ⟨ht, hfilled⟩
  apply (drainReadyFront_returns ht hfilled hlimit).bind
  rintro _ u ⟨hu, hfull⟩
  have hne : u.iter.prefetchQueue ≠ [] := by
    intro hnil
    exact List.cons_ne_nil b left (left_eq_nil hu hnil (hfull.resolve_left fun hn => hn hnil))
  apply (consumeFrontSplit_returns hu hne hlive hlimit hfuel).bind
  rintro r v ⟨hr, hv⟩
  apply (fillPrefetchQueue_returns hv hlimit).bind
  rintro _ w ⟨hw, hrefilled⟩
  apply (drainReadyFront_returns hw hrefilled hlimit).bind
  rintro _ x ⟨hx, hdone⟩
  exact Prog.returns_pure ⟨hr, hx, hdone⟩

/-- Behind what others have left, no micro-batch of the front item has been copied, and the
    poll for the first one never ends. -/
theorem consumeRound_stuck (h : SplitQueued loader first limit foreign (some 0) left s)
    (hne : foreign ≠ []) : (consumeRound loader fuel).Fails (· == .stop) s := by
  obtain ⟨item, rest, hqueue, hvalid, hcount, hsubmitted⟩ := front_exists h
  have hmem : item ∈ s.iter.prefetchQueue := by
    rw [hqueue]
    exact List.mem_cons_self
  have hmaterialized := h.untouched hne item hmem
  have hpos := hvalid.microRanges_pos
  have hindex : index s.iter.prefetchQueue 0 = .ok item := by
    rw [hqueue]
    rfl
  have hflags := hvalid.flags_eq
  have hflagslt : 0 < item.materializedFlags.length := by
    rw [hflags, List.length_map, List.length_range]
    exact hpos
  have hflag : index item.materializedFlags 0 = .ok false := by
    rw [index_eq hflagslt]
    simp only [hflags, List.getElem_map, hmaterialized, Nat.not_lt_zero, decide_false]
  obtain ⟨requestId, tail, hid, hrequests, -⟩ := hvalid.requests_eq_cons (by omega)
  have hidx : index item.requestIds 0 = .ok requestId := by
    rw [index, ← hmaterialized, hid]
  have hown := List.mem_flatMap_of_mem hmem (f := SplitItem.requests)
    (by rw [hrequests]; exact List.mem_cons_self)
  have hmicro : (consumeFrontMicro loader fuel item).Fails (· == .stop) s := by
    rw [consumeFrontMicro, hcount]
    apply Prog.fails_lift_bind hflag
    rw [if_neg Bool.false_ne_true]
    apply Prog.fails_lift_bind hidx
    exact (GidsIter.pollFrontRequest_stuck h.ordered hne h.requests hown).bind _
  rw [consumeRound]
  apply Prog.fails_get_bind
  apply Prog.fails_lift_bind hindex
  rw [hvalid.batches_length, hcount, if_pos hpos]
  exact hmicro.bind _

theorem next_stuck {b : Sampled R T} (h : SplitQueued loader first limit foreign none (b :: left) s)
    (hne : foreign ≠ []) (hlimit : limit < fuel) : (next loader fuel).Fails (· == .stop) s := by
  rw [next]
  apply Prog.fails_get_bind
  rw [if_neg fun hend => List.cons_ne_nil b left
    (left_eq_nil h (List.isEmpty_iff.mp hend.1) hend.2)]
  apply (fillPrefetchQueue_returns h hlimit).bind_fails
  rintro _ t ⟨ht, hfilled⟩
  apply (drainReadyFront_returns ht hfilled hlimit).bind_fails
  rintro _ u ⟨hu, hfull⟩
  have hsome : u.iter.prefetchQueue ≠ [] := by
    intro hnil
    exact List.cons_ne_nil b left (left_eq_nil hu hnil (hfull.resolve_left fun hn => hn hnil))
  apply Prog.Fails.bind
  rw [consumeFrontSplit]
  apply (ensureFront_returns hu hlimit).bind_fails
  rintro _ v ⟨hv, hlength, hmissing⟩
  obtain ⟨item, rest, hqueue⟩ : ∃ item rest, v.iter.prefetchQueue = item :: rest := by
    apply List.exists_cons_of_ne_nil
    rw [← List.length_pos_iff_ne_nil] at hsome ⊢
    omega
  apply (fillPrefetchQueue_returns (begin_consume hv hqueue (hmissing item rest hqueue))
    hlimit).bind_fails
  rintro _ w ⟨hw, hrefilled⟩
  apply (drainReadyFront_returns hw hrefilled hlimit).bind_fails
  rintro _ x ⟨hx, -⟩
  apply Prog.Fails.bind
  apply Prog.Fails.loop (fun _ y => y = x) ?_ fuel rfl
  rintro _ _ rfl
  exact Or.inr (consumeRound_stuck hx hne)

theorem next_stops (h : SplitQueued loader first limit foreign none [] s) (hfilled : SplitFilled s) :
    (next loader fuel).Raises s .stop fun t => t = s := by
  have hqueue : s.iter.prefetchQueue = [] :=
    List.map_eq_nil_iff.mp (List.append_eq_nil_iff.mp (List.append_eq_nil_iff.mp h.batches).1).1
  rw [next]
  apply Prog.raises_get_bind
  rw [if_pos ⟨by rw [hqueue]; rfl, hfilled.resolve_left fun hne => hne hqueue⟩]
  exact Prog.raises_throw rfl

theorem warmup_returns (h : SplitQueued loader first limit foreign none left s) (hlimit : limit < fuel) :
    (warmup loader fuel).Returns s fun _ t =>
      SplitQueued loader first limit foreign none left t ∧ SplitFilled t := by
  rw [warmup]
  apply (submitPrefetch_returns h).bind
  rintro _ t ⟨ht, -, -⟩
  apply (ensureFront_returns ht hlimit).bind
  rintro _ u ⟨hu, -, -⟩
  exact fillPrefetchQueue_returns hu hlimit

/-! ## Whole runs -/

/-- The largest micro-batch of a run. -/
def largestMicro (loader : GidsLoader R F) (batches : List (Sampled R T)) : Nat :=
  (batches.flatMap fun b =>
    (loader.splitRanges b.inputNodes.length).map fun r => r.2 - r.1).foldr max 0

/-- What an iteration owes: each batch once and in order, row `r` of its features that of
    its `r`-th input node; and a count of outstanding IOs that is always the true one and
    within the budget. -/
structure Delivered (loader : GidsLoader R F) (batches : List (Sampled R T))
    (rs : List (Attached R T F)) (t : Session R (SplitIter R T F)) : Prop where
  returned : rs = batches.map fun b =>
    { batch := b, features := b.inputNodes.map loader.feature }
  ios : ∀ e ∈ t.iter.ioLog, e.1 = e.2 ∧ (0 < loader.maxOutstandingIos →
    e.1 ≤ max loader.maxOutstandingIos (largestMicro loader batches))

/-- The requests that a run makes. -/
def totalMicros (loader : GidsLoader R F) (batches : List (Sampled R T)) : Nat :=
  (batches.map loader.micros).sum

theorem le_sum_map {X : Type} (f : X → Nat) {l : List X} {x : X} (h : x ∈ l) :
    f x ≤ (l.map f).sum := by
  obtain ⟨pre, post, rfl⟩ := List.append_of_mem h
  rw [List.map_append, List.map_cons, List.sum_append, List.sum_cons]
  omega

/-- A new iterator, on what others have left. -/
theorem queued_start {store : RegisteredStore R} (hstore : store.Leftover)
    {batches : List (Sampled R T)} (hne : ∀ b ∈ batches, b.inputNodes ≠ [])
    (hbudget : ∀ b ∈ batches, loader.maxOutstandingIos = 0 ∨
      b.inputNodes.length ≤ loader.maxOutstandingIos) :
    SplitQueued loader store.nextRequestId (store.nextRequestId + totalMicros loader batches)
      (store.outstanding.map Pending.request) none batches
      { store := store.fresh, iter := .new batches } where
  batches := rfl
  fits := fun b hb => ⟨hne b hb, by
    have := le_sum_map loader.micros hb
    rw [totalMicros]
    omega, hbudget b hb⟩
  pendingBatch := rfl
  ended := fun hend => by cases hend
  valid := fun _ hi => absurd hi List.not_mem_nil
  fresh := fun _ hi => absurd hi List.not_mem_nil
  missing := ⟨0, rfl⟩
  consumed := ⟨0, rfl⟩
  frontFull := fun hfront => absurd rfl hfront
  requests := (List.append_nil _).symm
  ordered := hstore.ordered
  untouched := fun _ _ hi => absurd hi List.not_mem_nil
  remaining := rfl
  ios := rfl
  budget := fun _ => Nat.zero_le _
  logged := fun _ he => absurd he List.not_mem_nil

theorem queued_idle (requests calls : Nat) {batches : List (Sampled R T)}
    (hne : ∀ b ∈ batches, b.inputNodes ≠ [])
    (hbudget : ∀ b ∈ batches, loader.maxOutstandingIos = 0 ∨
      b.inputNodes.length ≤ loader.maxOutstandingIos) :
    SplitQueued loader (requests + 1) (requests + 1 + totalMicros loader batches) [] none batches
      { store := .idle requests calls, iter := .new batches } :=
  queued_start (RegisteredStore.leftover_idle requests calls) hne hbudget

theorem iterate_returns (loader : GidsLoader R F) (requests calls : Nat)
    {batches : List (Sampled R T)} (hne : ∀ b ∈ batches, b.inputNodes ≠ [])
    (hbudget : ∀ b ∈ batches, loader.maxOutstandingIos = 0 ∨
      b.inputNodes.length ≤ loader.maxOutstandingIos)
    (hlive : ∀ id, id < requests + 1 + totalMicros loader batches →
      LiveFrom loader.device bound id)
    (hlimit : requests + 1 + totalMicros loader batches < fuel) (hfuel : bound < fuel)
    (hlength : batches.length < fuel) :
    (iterate loader fuel).Returns { store := .idle requests calls, iter := .new batches }
      (Delivered loader batches) := by
  rw [iterate]
  apply (warmup_returns (queued_idle requests calls hne hbudget) hlimit).bind
  rintro _ s ⟨hs, hfilled⟩
  apply (Prog.Returns.collect (e := .stop)
    (fun rs t => ∃ left, rs = left.map (fun b =>
        { batch := b, features := b.inputNodes.map loader.feature }) ∧
      SplitQueued loader (requests + 1) (requests + 1 + totalMicros loader batches) [] none left t ∧
        SplitFilled t) rfl ?_
    (Q := SplitQueued loader (requests + 1) (requests + 1 + totalMicros loader batches) [] none [])
    ?_ _ ⟨batches, rfl, hs, hfilled⟩ (by rw [List.length_map]; exact hlength)).mono
  · rintro rs t ⟨rfl, ht⟩
    refine ⟨rfl, fun e he => ?_⟩
    obtain ⟨hsame, hle⟩ := ht.logged e he
    exact ⟨hsame, fun hpos => Nat.le_trans (hle hpos) (Nat.le_max_left _ _)⟩
  · rintro r rs t ⟨left, hrs, ht, hfull⟩
    cases left with
    | nil => cases hrs
    | cons b left =>
      rw [List.map_cons, List.cons.injEq] at hrs
      apply (next_returns ht hlive hlimit hfuel).mono
      rintro r' u ⟨hr', hu, hdone⟩
      exact ⟨hr'.trans hrs.1.symm, left, hrs.2, hu, hdone⟩
  · rintro t ⟨left, hrs, ht, hfull⟩
    rw [List.map_eq_nil_iff.mp hrs.symm] at ht
    obtain ⟨u, hraise, rfl⟩ := next_stops ht hfull
    exact ⟨_, hraise, ht⟩

theorem live_bound {device : Device} (hlive : ∀ id, ∃ n, LiveFrom device n id) (limit : Nat) :
    ∃ bound, ∀ id, id < limit → LiveFrom device bound id := by
  induction limit with
  | zero => exact ⟨0, fun _ h => absurd h (Nat.not_lt_zero _)⟩
  | succ limit ih =>
    obtain ⟨bound, hbound⟩ := ih
    obtain ⟨n, hn⟩ := hlive limit
    refine ⟨max bound n, fun id hid m hm => ?_⟩
    rcases Nat.lt_succ_iff_lt_or_eq.mp hid with hlt | rfl
    · exact hbound id hlt m (by omega)
    · exact hn m (by omega)

/-- Whatever the settings and in whatever order requests become ready: an iteration over
    batches with nodes, each within the budget, delivers them. -/
theorem split_delivers (loader : GidsLoader R F) (requests calls : Nat)
    (batches : List (Sampled R T)) (hne : ∀ b ∈ batches, b.inputNodes ≠ [])
    (hbudget : loader.maxOutstandingIos = 0 ∨
      ∀ b ∈ batches, b.inputNodes.length ≤ loader.maxOutstandingIos)
    (hlive : ∀ id, ∃ n, LiveFrom loader.device n id) :
    ∃ N, ∀ fuel, N ≤ fuel → (iterate loader fuel).Returns
      { store := .idle requests calls, iter := .new batches } (Delivered loader batches) := by
  obtain ⟨bound, hbound⟩ := live_bound hlive (requests + 1 + totalMicros loader batches)
  refine ⟨max (requests + 1 + totalMicros loader batches) (max bound batches.length) + 1,
    fun fuel hfuel => ?_⟩
  apply iterate_returns loader requests calls hne _ hbound (by omega) (by omega) (by omega)
  intro b hb
  exact hbudget.imp id fun hall => hall b hb

end SplitIter

/-! ## A run within a small budget -/

/-- Two micro-batches a batch, and room for three rows; request `n` is ready from the `n`-th
    service call on. -/
def tightLoader : GidsLoader Nat Nat where
  feature node := 10 * node
  zero := 0
  uninit := 7
  device n requestId := decide (requestId ≤ n)
  prefetchDepth := 2
  maxOutstandingIos := 3
  submitCommandsPerBatch := 2
  enableSkipFront := true
  tryWindowSize := 1

def twoBatches : List (Sampled Nat Unit) := [⟨true, [4, 5, 6], []⟩, ⟨false, [8, 9], []⟩]

theorem twoBatches_delivered :
    (∀ b ∈ twoBatches, b.inputNodes ≠ []) ∧
      ∃ N, ∀ fuel, N ≤ fuel → (SplitIter.iterate tightLoader fuel).Returns
        { store := .idle 0 0, iter := .new twoBatches }
        (SplitIter.Delivered tightLoader twoBatches) := by
  have hne : ∀ b ∈ twoBatches, b.inputNodes ≠ [] := by decide
  have hbudget : ∀ b ∈ twoBatches, b.inputNodes.length ≤ tightLoader.maxOutstandingIos := by decide
  refine ⟨hne, SplitIter.split_delivers tightLoader 0 0 twoBatches hne (Or.inr hbudget) ?_⟩
  exact fun id => ⟨id, fun n hn => decide_eq_true hn⟩

end GidsStack.Loader
