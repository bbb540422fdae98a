/-
  GidsStack.Loader.GidsSingle

  Single mode of `_PrefetchingIter_async_registered_try_service` (GIDS.py): every batch is one
  request.  The warm-up submits the first batch, and every `__next__` polls and gets the front
  one before it fills the queue again.
-/

import GidsStack.Loader.GidsIterator

namespace GidsStack.Loader

/-! ## The iterator -/

/-- An item of `prefetch_queue`. -/
structure SingleItem (R T : Type) where
  logicalIterId : Nat
  batch : Sampled R T
  requestId : Nat
  ioCount : Nat

abbrev SingleIter (R T : Type) : Type := GidsIter (SingleItem R T) R T

abbrev SingleProgram (R T A : Type) : Type := GidsProgram (SingleItem R T) R T A

namespace SingleIter

variable {R T F : Type}

/-- The iterator after the request of a batch has been submitted. -/
def recordSubmit (it : SingleIter R T) (batch : Sampled R T) (requestId ioCount : Nat) :
    SingleIter R T :=
  { it with
    nextLogicalIterId := it.nextLogicalIterId + 1
    prefetchQueue := it.prefetchQueue ++
      [{ logicalIterId := it.nextLogicalIterId, batch, requestId, ioCount }]
    outstandingIoCount := it.outstandingIoCount + ioCount
    pendingBatch := none
    pendingIoCount := 0 }

/-- `prefetch_queue.pop(0)`. -/
def popFront : SingleProgram R T (SingleItem R T) := fun s =>
  match s.iter.prefetchQueue with
  | [] => some (.error .index, s)
  | item :: rest => some (.ok item, { s with iter := { s.iter with prefetchQueue := rest } })

variable (loader : GidsLoader R F) (fuel : Nat)

/-- `_submit_prefetch_single`. -/
def submitPrefetch : SingleProgram R T Bool := do
  let s ← Prog.get
  if s.iter.exhausted ∧ s.iter.pendingBatch.isNone then return false
  else
    match ← GidsIter.getNextBatchForSubmit with
    | none => return false
    | some (nextBatch, ioCount) =>
      let s ← Prog.get
      if GidsIter.canSubmitIos loader s.iter ioCount = false then return false
      else
        let requestId ← GidsIter.fetchSubmit nextBatch.inputNodes
        setIter (recordSubmit · nextBatch requestId ioCount)
        return true

/-- `_fill_prefetch_queue`. -/
def fillPrefetchQueue : SingleProgram R T Unit :=
  Prog.loop (fun _ => do
    let s ← Prog.get
    if s.iter.prefetchQueue.length < loader.depth ∧ ¬ s.iter.exhausted then
      if ← submitPrefetch loader then return .inl ()
      else return .inr ()
    else return .inr ()) fuel ()

/-- `_poll_front_prefetch`. -/
def pollFrontPrefetch : SingleProgram R T Unit := do
  let s ← Prog.get
  match s.iter.prefetchQueue with
  | [] => return ()
  | front :: _ => GidsIter.pollFrontRequest loader fuel front.requestId

/-- `_consume_front_single`. -/
def consumeFrontSingle : SingleProgram R T (Attached R T F) := do
  let nextItem ← popFront
  let features ← GidsIter.fetchGet loader nextItem.batch.inputNodes
  setIter fun it => { it with outstandingIoCount := it.outstandingIoCount - nextItem.ioCount }
  return { batch := nextItem.batch, features }

/-- `__next__`. -/
def next : SingleProgram R T (Attached R T F) := do
  let s ← Prog.get
  if s.iter.prefetchQueue.isEmpty ∧ s.iter.exhausted then Prog.throw .stop
  else
    pollFrontPrefetch loader fuel
    GidsIter.servicePrefetchNonblocking loader
    let batch ← consumeFrontSingle loader
    fillPrefetchQueue loader fuel
    return batch

/-- `_warmup_registered_queue`. -/
def warmup : SingleProgram R T Unit := do
  let _ ← submitPrefetch loader
  return ()

end SingleIter

/-! ## What is in flight -/

/-- What the store holds for an item. -/
def SingleItem.request {R T : Type} (item : SingleItem R T) : Nat × List R :=
  (item.requestId, item.batch.inputNodes)

/-- Between calls: `left` are the batches still to be returned, `first` the first request of
    the iterator, `limit` bounds its requests, and `foreign` is what was outstanding before. -/
structure SingleQueued {R T : Type} (first limit : Nat) (foreign : List (Nat × List R))
    (left : List (Sampled R T)) (s : Session R (SingleIter R T)) : Prop where
  batches : s.iter.prefetchQueue.map SingleItem.batch ++ s.iter.pendingBatch.toList ++
    s.iter.dataloaderIt = left
  ended : s.iter.exhausted = true → s.iter.dataloaderIt = [] ∧ s.iter.pendingBatch = none
  requests : s.store.outstanding.map Pending.request =
    foreign ++ s.iter.prefetchQueue.map SingleItem.request
  ordered : s.store.Ordered first foreign
  ios : s.iter.outstandingIoCount = (s.iter.prefetchQueue.map SingleItem.ioCount).sum
  remaining : s.store.nextRequestId + s.iter.pendingBatch.toList.length +
    s.iter.dataloaderIt.length = limit

/-- The queue is empty only when the dataloader has ended. -/
def SingleFilled {R T : Type} (s : Session R (SingleIter R T)) : Prop :=
  s.iter.prefetchQueue ≠ [] ∨ s.iter.exhausted = true

namespace SingleIter

variable {R T F : Type} {loader : GidsLoader R F} {fuel first limit bound : Nat}
  {foreign : List (Nat × List R)} {left : List (Sampled R T)} {s t : Session R (SingleIter R T)}

/-- Service keeps what is in flight. -/
theorem queued_served (h : SingleQueued first limit foreign left s) (hiter : t.iter = s.iter)
    (hstore : s.store.Served t.store) : SingleQueued first limit foreign left t where
  batches := by rw [hiter]; exact h.batches
  ended := by rw [hiter]; exact h.ended
  requests := by rw [hstore.requests_eq, hiter]; exact h.requests
  ordered := h.ordered.served hstore
  ios := by rw [hiter]; exact h.ios
  remaining := by rw [hstore.nextRequestId, hiter]; exact h.remaining

/-! ## Submits -/

/-- The next batch, kept as the pending one, or the end of the dataloader. -/
theorem getNextBatch_returns (h : SingleQueued first limit foreign left s) :
    GidsIter.getNextBatchForSubmit.Returns s fun o t =>
      SingleQueued first limit foreign left t ∧ t.store = s.store ∧
        t.iter.prefetchQueue = s.iter.prefetchQueue ∧
          match o with
          | none => t.iter.exhausted = true
          | some (b, _) => t.iter.pendingBatch = some b := by
  cases hpending : s.iter.pendingBatch with
  | some b =>
    rw [GidsIter.getNextBatchForSubmit]
    apply Prog.returns_get_bind
    rw [hpending]
    exact Prog.returns_pure ⟨h, rfl, rfl, hpending⟩
  | none =>
    cases hdata : s.iter.dataloaderIt with
    | nil =>
      apply (GidsIter.getNextBatch_of_nil hpending hdata).mono
      rintro _ _ ⟨rfl, rfl⟩
      exact ⟨{ h with ended := fun _ => ⟨hdata, hpending⟩ }, rfl, rfl, rfl⟩
    | cons b rest =>
      apply (GidsIter.getNextBatch_of_cons hpending hdata).mono
      rintro _ _ ⟨rfl, rfl⟩
      have hbatches := h.batches
      have hremaining := h.remaining
      rw [hpending, hdata] at hbatches hremaining
      refine ⟨?_, rfl, rfl, rfl⟩
      exact
        { h with
          batches := by
            rw [← hbatches, List.append_assoc, List.append_assoc]
            rfl
          ended := fun hend => by
            have hnil := (h.ended hend).1
            rw [hdata] at hnil
            cases hnil
          remaining := by
            rw [← hremaining]
            show s.store.nextRequestId + 1 + rest.length =
              s.store.nextRequestId + 0 + (rest.length + 1)
            omega }

/-- The pending batch gets its request. -/
theorem submit_queued (h : SingleQueued first limit foreign left s) {b : Sampled R T}
    (hpending : s.iter.pendingBatch = some b) (ioCount : Nat) :
    SingleQueued first limit foreign left
      { store := s.store.registered [b.inputNodes]
        iter := recordSubmit s.iter b s.store.nextRequestId ioCount } where
  batches := by
    have hbatches := h.batches
    rw [hpending] at hbatches
    rw [← hbatches]
    simp only [recordSubmit, List.map_append, List.map_cons, List.map_nil, Option.toList_none,
      Option.toList_some, List.append_nil]
  ended := fun hend => by
    have hnone := (h.ended hend).2
    rw [hpending] at hnone
    cases hnone
  requests := by
    rw [RegisteredStore.requests_registered, h.requests, List.append_assoc]
    show _ = foreign ++ (s.iter.prefetchQueue ++ [_]).map _
    rw [List.map_append]
    rfl
  ordered := h.ordered.registered _
  ios := by
    show s.iter.outstandingIoCount + ioCount = ((s.iter.prefetchQueue ++ [_]).map _).sum
    rw [List.map_append, List.sum_append, ← h.ios]
    rfl
  remaining := by
    have hremaining := h.remaining
    rw [hpending] at hremaining
    rw [← hremaining]
    rfl

/-- A submit goes through, unless the dataloader has ended or something in the queue uses up
    the budget. -/
theorem submitPrefetch_returns (h : SingleQueued first limit foreign left s) :
    (submitPrefetch loader).Returns s fun submitted t => SingleQueued first limit foreign left t ∧
      if submitted then t.iter.prefetchQueue.length = s.iter.prefetchQueue.length + 1
      else SingleFilled t := by
  rw [submitPrefetch]
  apply Prog.returns_get_bind
  split
  · rename_i hend
    exact Prog.returns_pure ⟨h, Or.inr hend.1⟩
  · apply (getNextBatch_returns h).bind
    rintro o t ⟨ht, hstore, hqueue, ho⟩
    cases o with
    | none => exact Prog.returns_pure ⟨ht, Or.inr ho⟩
    | some next =>
      obtain ⟨b, ioCount⟩ := next
      apply Prog.returns_get_bind
      show Prog.Returns (if GidsIter.canSubmitIos loader t.iter ioCount = false then _ else _) t _
      split
      · rename_i hblocked
        refine Prog.returns_pure ⟨ht, Or.inl fun hnil => ?_⟩
        have hios := ht.ios
        rw [hnil, List.map_nil, List.sum_nil] at hios
        rw [GidsIter.canSubmitIos, hios] at hblocked
        simp at hblocked
      · rw [GidsIter.fetchSubmit]
        apply (returns_submit (Q := fun id u => id = t.store.nextRequestId ∧
          u = { t with store := t.store.registered [b.inputNodes] }) ⟨rfl, rfl⟩).bind
        rintro _ _ ⟨rfl, rfl⟩
        apply Prog.returns_modify_bind
        apply Prog.returns_pure
        refine ⟨submit_queued ht ho ioCount, ?_⟩
        rw [if_pos rfl, ← hqueue]
        exact List.length_append

theorem fillPrefetchQueue_returns (h : SingleQueued first limit foreign left s)
    (hfuel : loader.depth < fuel) :
    (fillPrefetchQueue loader fuel).Returns s fun _ t =>
      SingleQueued first limit foreign left t ∧ SingleFilled t := by
  apply Prog.Returns.loop (fun _ t => SingleQueued first limit foreign left t)
    (fun _ t => loader.depth - t.iter.prefetchQueue.length) ?_ fuel h (by omega)
  intro _ t ht
  apply Prog.returns_get_bind
  split
  · rename_i hgo
    apply (submitPrefetch_returns ht).bind
    rintro submitted u ⟨hu, hsubmitted⟩
    cases submitted with
    | true =>
      rw [if_pos rfl] at hsubmitted
      exact Prog.returns_pure ⟨hu, by omega⟩
    | false => exact Prog.returns_pure ⟨hu, hsubmitted⟩
  · rename_i hstop
    refine Prog.returns_pure ⟨ht, ?_⟩
    rcases not_and_or.mp hstop with hfull | hend
    · left
      rw [← List.length_pos_iff_ne_nil]
      have hdepth : 1 ≤ loader.depth := Nat.le_max_left _ _
      omega
    · right
      rwa [not_not] at hend

theorem warmup_returns (h : SingleQueued first limit foreign left s)
    (hempty : s.iter.prefetchQueue = []) :
    (warmup loader).Returns s fun _ t =>
      SingleQueued first limit foreign left t ∧ SingleFilled t := by
  rw [warmup]
  apply (submitPrefetch_returns h).bind
  rintro submitted t ⟨ht, hsubmitted⟩
  refine Prog.returns_pure ⟨ht, ?_⟩
  cases submitted with
  | true =>
    rw [if_pos rfl, hempty] at hsubmitted
    left
    rw [← List.length_pos_iff_ne_nil, hsubmitted]
    exact Nat.succ_pos _
  | false => exact hsubmitted

/-! ## One call of `__next__` -/

/-- With a batch left there is an item in the queue, of that batch. -/
theorem front_exists {b : Sampled R T} (h : SingleQueued first limit foreign (b :: left) s)
    (hfilled : SingleFilled s) :
    ∃ item rest, s.iter.prefetchQueue = item :: rest ∧ item.batch = b := by
  have hbatches := h.batches
  cases hqueue : s.iter.prefetchQueue with
  | nil =>
    obtain ⟨hdata, hpending⟩ := h.ended (hfilled.resolve_left fun hne => hne hqueue)
    rw [hqueue, hdata, hpending] at hbatches
    cases hbatches
  | cons item rest =>
    rw [hqueue, List.map_cons, List.cons_append, List.cons_append, List.cons.injEq] at hbatches
    exact ⟨item, rest, rfl, hbatches.1⟩

theorem go_on {b : Sampled R T} (h : SingleQueued first limit foreign (b :: left) s)
    (hfilled : SingleFilled s) :
    ¬(s.iter.prefetchQueue.isEmpty = true ∧ s.iter.exhausted = true) := by
  rintro ⟨hempty, -⟩
  obtain ⟨item, rest, hqueue, -⟩ := front_exists h hfilled
  rw [hqueue] at hempty
  cases hempty

/-- The store's front, when nothing foreign is before the front item. -/
theorem store_front (h : SingleQueued first limit [] left s) {item : SingleItem R T}
    {rest : List (SingleItem R T)} (hqueue : s.iter.prefetchQueue = item :: rest) :
    ∃ p ps, s.store.outstanding = p :: ps ∧ p.requestId = item.requestId ∧
      p.rows = item.batch.inputNodes := by
  have hrequests := h.requests
  rw [hqueue] at hrequests
  cases hout : s.store.outstanding with
  | nil =>
    rw [hout] at hrequests
    cases hrequests
  | cons p ps =>
    rw [hout, List.nil_append, List.map_cons, List.map_cons, List.cons.injEq] at hrequests
    exact ⟨p, ps, rfl, congrArg Prod.fst hrequests.1, congrArg Prod.snd hrequests.1⟩

/-- The get of the front item, once its request is marked. -/
theorem consumeFrontSingle_returns {b : Sampled R T}
    (h : SingleQueued first limit [] (b :: left) s) {item : SingleItem R T}
    {rest : List (SingleItem R T)} (hqueue : s.iter.prefetchQueue = item :: rest)
    (hready : s.store.readyFrontRequestId = item.requestId) :
    (consumeFrontSingle loader).Returns s fun r t =>
      r = { batch := b, features := b.inputNodes.map loader.feature } ∧
        SingleQueued first limit [] left t := by
  obtain ⟨p, ps, hout, hid, hrows⟩ := store_front h hqueue
  have hp : p ∈ s.store.outstanding := by
    rw [hout]
    exact List.mem_cons_self
  have hmarked : p.ready = true := by
    by_contra hnot
    rw [s.store.readyFrontRequestId_cons hout, if_neg hnot, ← hid] at hready
    exact h.ordered.ne_zero hp hready.symm
  have hbatches := h.batches
  rw [hqueue, List.map_cons, List.cons_append, List.cons_append, List.cons.injEq] at hbatches
  obtain ⟨hb, hleft⟩ := hbatches
  have hrequests := h.requests
  rw [hout, hqueue, List.nil_append, List.map_cons, List.map_cons, List.cons.injEq] at hrequests
  have hios := h.ios
  rw [hqueue, List.map_cons, List.sum_cons] at hios
  rw [consumeFrontSingle]
  have hpop : popFront.Returns s fun i t =>
      i = item ∧ t = { s with iter := { s.iter with prefetchQueue := rest } } :=
    ⟨item, _, by rw [popFront, hqueue], rfl, rfl⟩
  apply hpop.bind
  rintro _ _ ⟨rfl, rfl⟩
  rw [← hrows]
  apply (GidsIter.fetchGet_returns
    (s := { s with iter := { s.iter with prefetchQueue := rest } }) hout hmarked).bind
  rintro _ _ ⟨rfl, rfl⟩
  apply Prog.returns_modify_bind
  apply Prog.returns_pure
  refine ⟨by rw [hb, hrows, hb], ?_⟩
  exact
    { h with
      batches := hleft
      requests := hrequests.2
      ordered := h.ordered.get hout
      ios := by
        show s.iter.outstandingIoCount - _ = (rest.map SingleItem.ioCount).sum
        omega }

theorem next_returns {b : Sampled R T} (h : SingleQueued first limit [] (b :: left) s)
    (hfilled : SingleFilled s) (hne : b.inputNodes ≠ [])
    (hlive : ∀ id, id < limit → LiveFrom loader.device bound id) (hdepth : loader.depth < fuel)
    (hfuel : bound < fuel) :
    (next loader fuel).Returns s fun r t =>
      r = { batch := b, features := b.inputNodes.map loader.feature } ∧
        SingleQueued first limit [] left t ∧ SingleFilled t := by
  obtain ⟨item, rest, hqueue, rfl⟩ := front_exists h hfilled
  obtain ⟨p, ps, hout, hid, hrows⟩ := store_front h hqueue
  have hp : p ∈ s.store.outstanding := by
    rw [hout]
    exact List.mem_cons_self
  have hlt : p.requestId < limit := by
    have hremaining := h.remaining
    have hbounds := h.ordered.id_bounds hp
    omega
  rw [next]
  apply Prog.returns_get_bind
  rw [if_neg (go_on h hfilled)]
  have hpoll : (pollFrontPrefetch loader fuel).Returns s fun _ t =>
      t.iter = s.iter ∧ s.store.Served t.store ∧ t.store.readyFrontRequestId = p.requestId := by
    rw [pollFrontPrefetch]
    apply Prog.returns_get_bind
    rw [hqueue]
    show Prog.Returns (GidsIter.pollFrontRequest loader fuel item.requestId) s _
    rw [← hid]
    exact GidsIter.pollFrontRequest_returns hout (by rw [hrows]; exact hne) (hlive _ hlt) hfuel
  apply hpoll.bind
  rintro _ t ⟨hiter, hserved, hready⟩
  apply (GidsIter.serves_servicePrefetch t).bind
  rintro _ u ⟨hiter', hserved'⟩
  obtain ⟨q, qs, hq, hpq⟩ := hserved.front_eq hout
  have hkept : u.store.readyFrontRequestId = item.requestId := by
    rw [← hid, ← hpq.requestId_eq]
    apply hserved'.readyFront hq
    · rw [hpq.requestId_eq]
      exact h.ordered.ne_zero hp
    · rw [hready, hpq.requestId_eq]
  have hu := queued_served (queued_served h hiter hserved) hiter' hserved'
  apply (consumeFrontSingle_returns hu (by rw [hiter', hiter]; exact hqueue) hkept).bind
  rintro r v ⟨hr, hv⟩
  apply (fillPrefetchQueue_returns hv hdepth).bind
  rintro _ w ⟨hw, hfull⟩
  exact Prog.returns_pure ⟨hr, hw, hfull⟩

theorem next_stops (h : SingleQueued first limit foreign [] s) (hfilled : SingleFilled s) :
    (next loader fuel).Raises s .stop fun t => t = s := by
  have hqueue : s.iter.prefetchQueue = [] :=
    List.map_eq_nil_iff.mp (List.append_eq_nil_iff.mp (List.append_eq_nil_iff.mp h.batches).1).1
  rw [next]
  apply Prog.raises_get_bind
  rw [if_pos ⟨by rw [hqueue]; rfl, hfilled.resolve_left fun hne => hne hqueue⟩]
  exact Prog.raises_throw rfl

/-- A batch waits forever behind what other iterators have left, and when it has no nodes. -/
theorem next_stuck {b : Sampled R T} (h : SingleQueued first limit foreign (b :: left) s)
    (hfilled : SingleFilled s) (hbad : foreign ≠ [] ∨ b.inputNodes = []) :
    (next loader fuel).Fails (· == .stop) s := by
  obtain ⟨item, rest, hqueue, rfl⟩ := front_exists h hfilled
  have hpoll : (pollFrontPrefetch loader fuel).Fails (· == .stop) s := by
    rw [pollFrontPrefetch]
    apply Prog.fails_get_bind
    rw [hqueue]
    show Prog.Fails _ (GidsIter.pollFrontRequest loader fuel item.requestId) s
    by_cases hne : foreign = []
    · subst hne
      obtain ⟨p, ps, hout, hid, hrows⟩ := store_front h hqueue
      rw [← hid]
      exact GidsIter.pollFrontRequest_empty h.ordered hout
        (hrows.trans (hbad.resolve_left fun hnil => hnil rfl))
    · have hmem : (item.requestId, item.batch.inputNodes) ∈
          s.iter.prefetchQueue.map SingleItem.request := by
        rw [hqueue]
        exact List.mem_cons_self
      exact GidsIter.pollFrontRequest_stuck h.ordered hne h.requests hmem
  rw [next]
  apply Prog.fails_get_bind
  rw [if_neg (go_on h hfilled)]
  exact hpoll.bind _

/-- A new iterator, on what others have left. -/
theorem queued_start {store : RegisteredStore R} (hstore : store.Leftover)
    (batches : List (Sampled R T)) :
    SingleQueued store.nextRequestId (store.nextRequestId + batches.length)
      (store.outstanding.map Pending.request) batches
      { store := store.fresh, iter := .new batches } where
  batches := rfl
  ended := fun hend => by cases hend
  requests := (List.append_nil _).symm
  ordered := hstore.ordered
  ios := rfl
  remaining := rfl

end SingleIter

end GidsStack.Loader
