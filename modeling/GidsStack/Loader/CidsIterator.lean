/-
  GidsStack.Loader.CidsIterator

  `_PrefetchingIter_async_registered_try_service_cids` (CIDS.py): the iterator that keeps
  batches of images in flight, each as the requests of its sub-batches, and returns them in
  order.

  Between the sub-gets of the batch being returned new batches are submitted, and service
  calls mark requests behind the front.  `Queued` holds across all of it: what is outstanding
  is the rest of that batch followed by the queued ones, in order.
-/

import GidsStack.Loader.Merge
import GidsStack.Loader.Store

namespace GidsStack.Loader

/-! ## The iterator -/

/-- An item of `prefetch_queue`. -/
structure CidsItem (I A : Type) where
  batch : Batch I A
  splitBatches : List (Batch I A)
  requestIds : List Nat

/-- `dataloaderIt` is what the dataloader has not returned yet.  `maxQueued` is the largest
    length `prefetch_queue` has had; no code reads it. -/
structure CidsIter (I A : Type) where
  dataloaderIt : List (Batch I A)
  prefetchQueue : List (CidsItem I A)
  exhausted : Bool
  maxQueued : Nat

/-- The settings of the iterator and its loader.  `blank` is the image of rows of zeros. -/
structure CidsLoader (I A : Type) where
  src : ImageSource I A
  blank : A
  device : Device
  prefetchDepth : Nat
  registeredSplit : Nat
  enableSkipFront : Bool
  tryWindowSize : Nat

namespace CidsLoader

variable {I A : Type}

def depth (l : CidsLoader I A) : Nat := max 1 l.prefetchDepth

def split (l : CidsLoader I A) : Nat := max 1 l.registeredSplit

def window (l : CidsLoader I A) : Nat := max 1 l.tryWindowSize

/-- The image in a row of the tensor a get has filled. -/
def image (l : CidsLoader I A) : Option A → A
  | some sampleId => l.src.image sampleId
  | none => l.blank

end CidsLoader

abbrev CidsProgram (I A B : Type) : Type := Program A (CidsIter I A) B

namespace CidsIter

variable {I A : Type}

/-- `prefetch_queue.append`. -/
def append (it : CidsIter I A) (item : CidsItem I A) : CidsIter I A :=
  { it with
    prefetchQueue := it.prefetchQueue ++ [item]
    maxQueued := max it.maxQueued (it.prefetchQueue.length + 1) }

/-- `prefetch_queue.pop(0)`. -/
def popFront : CidsProgram I A (CidsItem I A) := fun s =>
  match s.iter.prefetchQueue with
  | [] => some (.error .index, s)
  | item :: rest => some (.ok item, { s with iter := { s.iter with prefetchQueue := rest } })

variable (loader : CidsLoader I A) (fuel : Nat)

/-- `fetch_samples_submit_registered`. -/
def fetchSamplesSubmitRegistered (batch : Batch I A) : CidsProgram I A Nat := do
  let sampleIds ← Prog.lift batch.sampleIdsFromBatch
  onStore (RegisteredStore.submit sampleIds)

/-- `fetch_samples_get_registered`. -/
def fetchSamplesGetRegistered (batch : Batch I A) : CidsProgram I A (Batch I A) := do
  let sampleIds ← Prog.lift batch.sampleIdsFromBatch
  let rows ← onStore (RegisteredStore.get sampleIds)
  return batch.formatReturnBatch (.tensor loader.src.info (rows.map loader.image))

/-- `_submit_prefetch`. -/
def submitPrefetch : CidsProgram I A Bool := do
  let s ← Prog.get
  if s.iter.exhausted then return false
  else
    match s.iter.dataloaderIt with
    | [] =>
      setIter fun it => { it with exhausted := true }
      return false
    | nextBatch :: rest =>
      setIter fun it => { it with dataloaderIt := rest }
      let splitBatches ← Prog.lift (nextBatch.splitBatch loader.split)
      let requestIds ← Prog.forEach fetchSamplesSubmitRegistered splitBatches
      setIter (append · { batch := nextBatch, splitBatches, requestIds })
      return true

/-- `while len(prefetch_queue) < prefetch_depth and not exhausted`. -/
def fillPrefetchQueue : CidsProgram I A Unit :=
  Prog.loop (fun _ => do
    let s ← Prog.get
    if s.iter.prefetchQueue.length < loader.depth ∧ ¬ s.iter.exhausted then
      if ← submitPrefetch loader then return .inl ()
      else return .inr ()
    else return .inr ()) fuel ()

/-- `_service_prefetch_nonblocking`. -/
def servicePrefetchNonblocking : CidsProgram I A Unit := do
  let s ← Prog.get
  if loader.enableSkipFront = false then return ()
  else if s.iter.prefetchQueue.length ≤ 1 then return ()
  else if s.store.outstandingCount ≤ 1 then return ()
  else
    let _ ← onStore (RegisteredStore.tryPollWindowSkipFront loader.device loader.window)
    return ()

/-- A round of the loop of `_poll_request_ready`; its state is `try_loops`. -/
def pollRound (expectedRequestId tryLoops : Nat) : CidsProgram I A (Nat ⊕ Unit) := do
  let requestId ← onStore RegisteredStore.pollCompatible
  if (tryLoops + 1) % 8 = 0 then servicePrefetchNonblocking loader else pure ()
  let s ← Prog.get
  if requestId = expectedRequestId ∨ s.store.readyFrontRequestId = expectedRequestId then
    return .inr ()
  else return .inl (tryLoops + 1)

/-- `_poll_request_ready`. -/
def pollRequestReady (expectedRequestId : Nat) : CidsProgram I A Unit := do
  let s ← Prog.get
  if expectedRequestId = 0 then return ()
  else if s.store.readyFrontRequestId = expectedRequestId then return ()
  else Prog.loop (pollRound loader expectedRequestId) fuel 0

/-- The body of the loop of `__next__` over the sub-batches and their requests. -/
def consume (sub : Batch I A × Nat) : CidsProgram I A (Batch I A) := do
  pollRequestReady loader fuel sub.2
  let batch ← fetchSamplesGetRegistered loader sub.1
  servicePrefetchNonblocking loader
  fillPrefetchQueue loader fuel
  return batch

/-- `__next__`. -/
def next : CidsProgram I A (Batch I A) := do
  let s ← Prog.get
  if s.iter.prefetchQueue.isEmpty ∧ s.iter.exhausted then Prog.throw .stop
  else
    servicePrefetchNonblocking loader
    let nextItem ← popFront
    let splitBatches ← Prog.forEach (consume loader fuel)
      (nextItem.splitBatches.zip nextItem.requestIds)
    let batch ← Prog.lift (Batch.mergeReturnBatches splitBatches)
    fillPrefetchQueue loader fuel
    return batch

/-- Before `_warmup_prefetch_queue`. -/
def start (store : RegisteredStore A) (batches : List (Batch I A)) : Session A (CidsIter I A) where
  store := store
  iter := { dataloaderIt := batches, prefetchQueue := [], exhausted := false, maxQueued := 0 }

/-- Iterating until `StopIteration`. -/
def iterate : CidsProgram I A (List (Batch I A)) := do
  fillPrefetchQueue loader fuel
  Prog.collect (· == .stop) fuel (next loader fuel)

end CidsIter

/-! ## What is in flight -/

section InFlight

variable {I A : Type}

/-- The samples a batch names. -/
def Batch.ids (b : Batch I A) : List A :=
  match b.sampleIdsFromBatch with
  | .ok ids => ids
  | .error _ => []

theorem Batch.ids_eq {b : Batch I A} {ids : List A} (h : b.sampleIdsFromBatch = .ok ids) :
    b.ids = ids := by
  rw [Batch.ids, h]

/-- The dataloader's batches: their samples can be told. -/
def Batch.Readable (b : Batch I A) : Prop := b.sampleIdsFromBatch = .ok b.ids

theorem Batch.Readable.of_ok {b : Batch I A} {ids : List A} (h : b.sampleIdsFromBatch = .ok ids) :
    b.Readable := by
  rw [Batch.Readable, Batch.ids_eq h, h]

/-- The sub-batches of an item with their requests. -/
def CidsItem.subs (item : CidsItem I A) : List (Batch I A × Nat) :=
  item.splitBatches.zip item.requestIds

/-- What the store holds for a sub-batch. -/
def subRequest (sub : Batch I A × Nat) : Nat × List A := (sub.2, sub.1.ids)

/-- An item made by `_submit_prefetch`. -/
structure CidsItem.Submitted (loader : CidsLoader I A) (item : CidsItem I A) : Prop where
  split_eq : item.batch.splitBatch loader.split = .ok item.splitBatches
  length_eq : item.requestIds.length = item.splitBatches.length

theorem CidsItem.Submitted.subs_ne_nil {loader : CidsLoader I A} {item : CidsItem I A}
    (h : item.Submitted loader) (hread : item.batch.Readable) : item.subs ≠ [] := by
  obtain ⟨splitBatches, hsplit, hsome, -, -⟩ := splitBatch_ok hread loader.split
  have hsame : splitBatches = item.splitBatches := Except.ok.inj (hsplit.symm.trans h.split_eq)
  subst hsame
  intro hnil
  have hfst : item.subs.map Prod.fst = item.splitBatches :=
    List.map_fst_zip (Nat.le_of_eq h.length_eq.symm)
  rw [hnil] at hfst
  exact hsome hfst.symm

/-- The sub-batches that a batch is split into. -/
def CidsLoader.parts (loader : CidsLoader I A) (b : Batch I A) : Nat :=
  match b.splitBatch loader.split with
  | .ok splitBatches => splitBatches.length
  | .error _ => 0

/-- Between calls: `front` are the sub-batches of the batch being returned that are still to
    be got, `left` the batches after it, `first` the first request of the iterator, `limit` a
    bound of its requests, and `foreign` what was outstanding before. -/
structure Queued (loader : CidsLoader I A) (first limit : Nat) (foreign : List (Nat × List A))
    (front : List (Batch I A × Nat)) (left : List (Batch I A))
    (s : Session A (CidsIter I A)) : Prop where
  batches : s.iter.prefetchQueue.map CidsItem.batch ++ s.iter.dataloaderIt = left
  readable : ∀ b ∈ left, b.Readable
  ended : s.iter.exhausted = true → s.iter.dataloaderIt = []
  length_le : s.iter.prefetchQueue.length ≤ loader.depth
  maxQueued_le : s.iter.maxQueued ≤ loader.depth
  submitted : ∀ item ∈ s.iter.prefetchQueue, item.Submitted loader
  requests : s.store.outstanding.map Pending.request =
    foreign ++ (front ++ s.iter.prefetchQueue.flatMap CidsItem.subs).map subRequest
  ordered : s.store.Ordered first foreign
  remaining : s.store.nextRequestId + (s.iter.dataloaderIt.map loader.parts).sum = limit

/-- The queue has been filled as far as the dataloader goes. -/
def Filled (s : Session A (CidsIter I A)) : Prop :=
  s.iter.prefetchQueue ≠ [] ∨ s.iter.exhausted = true

namespace Queued

variable {loader : CidsLoader I A} {first limit : Nat} {foreign : List (Nat × List A)}
  {front : List (Batch I A × Nat)} {left : List (Batch I A)} {s t : Session A (CidsIter I A)}

/-- Service keeps what is in flight. -/
theorem served (h : Queued loader first limit foreign front left s) (hiter : t.iter = s.iter)
    (hstore : s.store.Served t.store) : Queued loader first limit foreign front left t where
  batches := by rw [hiter]; exact h.batches
  readable := h.readable
  ended := by rw [hiter]; exact h.ended
  length_le := by rw [hiter]; exact h.length_le
  maxQueued_le := by rw [hiter]; exact h.maxQueued_le
  submitted := by rw [hiter]; exact h.submitted
  requests := by rw [hstore.requests_eq, hiter]; exact h.requests
  ordered := h.ordered.served hstore
  remaining := by rw [hstore.nextRequestId, hiter]; exact h.remaining

/-- The request at the front of the store is that of the first sub-batch. -/
theorem front_eq {sub : Batch I A × Nat} (h : Queued loader first limit [] (sub :: front) left s) :
    ∃ p rest, s.store.outstanding = p :: rest ∧ p.requestId = sub.2 ∧ p.rows = sub.1.ids ∧
      p.requestId ≠ 0 := by
  have hreq := h.requests
  cases hout : s.store.outstanding with
  | nil =>
    rw [hout] at hreq
    cases hreq
  | cons p rest =>
    rw [hout, List.nil_append, List.cons_append, List.map_cons, List.map_cons,
      List.cons.injEq] at hreq
    refine ⟨p, rest, rfl, congrArg Prod.fst hreq.1, congrArg Prod.snd hreq.1, ?_⟩
    exact h.ordered.ne_zero (by rw [hout]; exact List.mem_cons_self)

end Queued

/-! ## Calls -/

namespace CidsIter

variable {loader : CidsLoader I A} {fuel first limit : Nat} {foreign : List (Nat × List A)}
  {front : List (Batch I A × Nat)} {left : List (Batch I A)} {s : Session A (CidsIter I A)}

theorem serves_servicePrefetch : Serves (servicePrefetchNonblocking loader) := by
  intro s
  rw [servicePrefetchNonblocking]
  apply Prog.returns_get_bind
  split
  · exact serves_pure _ s
  · split
    · exact serves_pure _ s
    · split
      · exact serves_pure _ s
      · apply (serves_window loader.device loader.window s).bind
        intro _ t ht
        exact Prog.returns_pure ht

/-- The requests of the sub-batches are registered one after another. -/
theorem submitAll_returns (splitBatches : List (Batch I A))
    (hread : ∀ b ∈ splitBatches, b.Readable) :
    (Prog.forEach fetchSamplesSubmitRegistered splitBatches).Returns s fun requestIds t =>
      requestIds = List.range' s.store.nextRequestId splitBatches.length ∧
        t = { s with store := s.store.registered (splitBatches.map Batch.ids) } := by
  apply (Prog.Returns.forEach
    (fun rest requestIds t => ∃ done, splitBatches = done ++ rest ∧
      requestIds = List.range' s.store.nextRequestId done.length ∧
        t = { s with store := s.store.registered (done.map Batch.ids) })
    splitBatches ?_ (a := []) ⟨[], rfl, rfl, by simp [RegisteredStore.registered]⟩).mono
  · rintro requestIds t ⟨done, hdone, hids, hstore⟩
    rw [List.append_nil] at hdone
    rw [hdone]
    exact ⟨hids, hstore⟩
  · rintro b rest requestIds t ⟨done, hdone, hids, rfl⟩
    rw [fetchSamplesSubmitRegistered]
    apply Prog.returns_lift_bind (hread b (by simp [hdone]))
    apply returns_submit
    refine ⟨done ++ [b], by simp [hdone], ?_, ?_⟩
    · rw [hids, List.length_append, List.length_singleton, List.range'_concat, Nat.one_mul]
      show _ ++ [s.store.nextRequestId + (done.map Batch.ids).length] = _
      rw [List.length_map]
    · rw [RegisteredStore.registered_registered, List.map_append]
      rfl

theorem submitPrefetch_returns (h : Queued loader first limit foreign front left s)
    (hexhausted : s.iter.exhausted = false)
    (hlength : s.iter.prefetchQueue.length < loader.depth) :
    (submitPrefetch loader).Returns s fun submitted t => Queued loader first limit foreign front left t ∧
      if submitted then t.iter.prefetchQueue.length = s.iter.prefetchQueue.length + 1
      else t.iter.exhausted = true := by
  rw [submitPrefetch]
  apply Prog.returns_get_bind
  rw [if_neg (by rw [hexhausted]; exact Bool.false_ne_true)]
  cases hdata : s.iter.dataloaderIt with
  | nil =>
    apply Prog.returns_modify_bind
    apply Prog.returns_pure
    exact ⟨{ h with ended := fun _ => hdata }, rfl⟩
  | cons b rest =>
    apply Prog.returns_modify_bind
    have hmem : b ∈ left := by
      rw [← h.batches, hdata]
      exact List.mem_append_right _ List.mem_cons_self
    obtain ⟨splitBatches, hsplit, -, -, hparts⟩ := splitBatch_ok (h.readable b hmem) loader.split
    apply Prog.returns_lift_bind hsplit
    apply (submitAll_returns _ fun split hmem => by
      obtain ⟨part, hpart, -⟩ := hparts split hmem
      exact .of_ok hpart).bind
    rintro requestIds t ⟨hids, rfl⟩
    apply Prog.returns_modify_bind
    apply Prog.returns_pure
    refine ⟨?_, by rw [if_pos rfl]; exact List.length_append⟩
    have hlen : requestIds.length = splitBatches.length := by rw [hids, List.length_range']
    have hrequests : (List.range' s.store.nextRequestId (splitBatches.map Batch.ids).length).zip
        (splitBatches.map Batch.ids) = (splitBatches.zip requestIds).map subRequest := by
      rw [List.length_map, ← hids]
      apply List.ext_getElem
      · simp only [List.length_map, List.length_zip, Nat.min_comm]
      · intro i _ _
        simp only [List.getElem_map, List.getElem_zip, subRequest]
    exact
      { batches := by
          rw [← h.batches, hdata]
          simp only [append, List.map_append, List.map_cons, List.map_nil, List.append_assoc,
            List.cons_append, List.nil_append]
        readable := h.readable
        ended := fun hend => by
          rw [show s.iter.exhausted = true from hend] at hexhausted
          cases hexhausted
        length_le := by
          show (s.iter.prefetchQueue ++ [_]).length ≤ _
          rw [List.length_append]
          exact hlength
        maxQueued_le := by
          have := h.maxQueued_le
          show max s.iter.maxQueued (s.iter.prefetchQueue.length + 1) ≤ _
          omega
        submitted := fun item hitem => by
          rcases List.mem_append.mp hitem with hitem | hitem
          · exact h.submitted item hitem
          · rw [List.mem_singleton.mp hitem]
            exact ⟨hsplit, hlen⟩
        requests := by
          rw [RegisteredStore.requests_registered, hrequests, h.requests, List.append_assoc,
            ← List.map_append]
          simp only [append, List.flatMap_append, List.flatMap_singleton, List.append_assoc,
            CidsItem.subs]
        ordered := h.ordered.registered _
        remaining := by
          have hremaining := h.remaining
          have hparts : loader.parts b = splitBatches.length := by rw [CidsLoader.parts, hsplit]
          rw [hdata, List.map_cons, List.sum_cons, hparts] at hremaining
          show s.store.nextRequestId + (splitBatches.map Batch.ids).length +
            (rest.map loader.parts).sum = limit
          rw [List.length_map]
          omega }

theorem fillPrefetchQueue_returns (h : Queued loader first limit foreign front left s)
    (hfuel : loader.depth < fuel) :
    (fillPrefetchQueue loader fuel).Returns s fun _ t =>
      Queued loader first limit foreign front left t ∧ Filled t := by
  apply Prog.Returns.loop (fun _ t => Queued loader first limit foreign front left t)
    (fun _ t => loader.depth - t.iter.prefetchQueue.length) ?_ fuel h (by omega)
  intro _ t ht
  apply Prog.returns_get_bind
  split
  · rename_i hroom
    obtain ⟨hlength, hexhausted⟩ := hroom
    apply (submitPrefetch_returns ht (by simpa using hexhausted) hlength).bind
    rintro submitted u ⟨hu, hsubmitted⟩
    split
    · rename_i htrue
      rw [if_pos htrue] at hsubmitted
      apply Prog.returns_pure
      refine ⟨hu, ?_⟩
      omega
    · rename_i hfalse
      rw [if_neg hfalse] at hsubmitted
      exact Prog.returns_pure ⟨hu, Or.inr hsubmitted⟩
  · rename_i hroom
    apply Prog.returns_pure
    refine ⟨ht, ?_⟩
    -- the depth is at least one
    have hdepth : 1 ≤ loader.depth := Nat.le_max_left _ _
    rcases Nat.lt_or_ge t.iter.prefetchQueue.length loader.depth with hlt | hge
    · right
      by_contra hnot
      exact hroom ⟨hlt, by simpa using hnot⟩
    · left
      intro hnil
      rw [hnil, List.length_nil] at hge
      omega

/-- Polling the first sub-batch ends with its mark. -/
theorem pollRequestReady_returns {sub : Batch I A × Nat}
    (h : Queued loader first limit [] (sub :: front) left s) (hrows : sub.1.ids ≠ []) (hfuel : 0 < fuel) :
    (pollRequestReady loader fuel sub.2).Returns s fun _ t =>
      Queued loader first limit [] (sub :: front) left t ∧ t.store.readyFrontRequestId = sub.2 := by
  obtain ⟨p, rest, hout, hid, hids, hne⟩ := h.front_eq
  rw [pollRequestReady]
  apply Prog.returns_get_bind
  rw [if_neg (hid ▸ hne)]
  split
  · rename_i hready
    exact Prog.returns_pure ⟨h, hready⟩
  · obtain ⟨fuel, rfl⟩ := Nat.exists_eq_succ_of_ne_zero (Nat.ne_of_gt hfuel)
    obtain ⟨u, hpoll, hserved, hfront⟩ :=
      RegisteredStore.pollCompatible_eq hout (by rw [hids]; exact hrows)
    -- the first round polls the front, and breaks
    have hround : (pollRound loader sub.2 0).Returns s fun o t =>
        o = .inr () ∧ Queued loader first limit [] (sub :: front) left t ∧
          t.store.readyFrontRequestId = sub.2 := by
      apply (returns_onStore (Q := fun id t => id = sub.2 ∧ t = { s with store := u }) hpoll
        ⟨hid, rfl⟩).bind
      rintro _ _ ⟨rfl, rfl⟩
      rw [if_neg (by decide)]
      apply Prog.returns_get_bind
      rw [if_pos (Or.inl rfl)]
      exact Prog.returns_pure ⟨rfl, h.served rfl hserved, hfront.trans hid⟩
    rw [Prog.loop]
    apply hround.bind
    rintro _ t ⟨rfl, ht⟩
    exact Prog.returns_pure ht

/-- Polling a sub-batch without samples raises. -/
theorem pollRequestReady_raises {sub : Batch I A × Nat}
    (h : Queued loader first limit [] (sub :: front) left s) (hrows : sub.1.ids = []) (hfuel : 0 < fuel) :
    (pollRequestReady loader fuel sub.2).Raises s
      (.runtime "No registered rowctx request to poll") fun _ => True := by
  obtain ⟨p, rest, hout, hid, hids, hne⟩ := h.front_eq
  have hready : p.ready = false := by
    by_contra hp
    refine h.ordered.marked p (by rw [hout]; exact List.mem_cons_self) (by simpa using hp) ?_
    rw [hids, hrows]
  have hfront : s.store.readyFrontRequestId = 0 := by
    rw [s.store.readyFrontRequestId_cons hout, hready]
    rfl
  obtain ⟨fuel, rfl⟩ := Nat.exists_eq_succ_of_ne_zero (Nat.ne_of_gt hfuel)
  have hround : (pollRound loader sub.2 0).Raises s
      (.runtime "No registered rowctx request to poll") fun _ => True :=
    (raises_onStore (RegisteredStore.pollCompatible_eq_error hout hready (hids.trans hrows))
      trivial).bind _
  rw [pollRequestReady]
  apply Prog.raises_get_bind
  rw [if_neg (hid ▸ hne), if_neg (by rw [hfront, ← hid]; exact hne.symm)]
  exact hround.loop

/-- While foreign requests are in front, a poll for a sub-batch never ends, unless the front
    one has no rows. -/
theorem pollRequestReady_stuck {sub : Batch I A × Nat}
    (h : Queued loader first limit foreign (sub :: front) left s) (hne : foreign ≠ []) :
    (pollRequestReady loader fuel sub.2).Fails (· == .stop) s := by
  have hown : ∀ {t : Session A (CidsIter I A)},
      Queued loader first limit foreign (sub :: front) left t →
        (∃ p rest, t.store.outstanding = p :: rest ∧ p.requestId ≠ sub.2) ∧ sub.2 ≠ 0 ∧
          t.store.readyFrontRequestId ≠ sub.2 := by
    intro t ht
    have hmem : (sub.2, sub.1.ids) ∈
        (sub :: front ++ t.iter.prefetchQueue.flatMap CidsItem.subs).map subRequest :=
      List.mem_cons_self
    obtain ⟨⟨p, rest, hout, hlt⟩, hle⟩ := ht.ordered.foreign_front hne ht.requests
    have hsub : first ≤ sub.2 := hle _ hmem
    have hpos := ht.ordered.first_pos
    exact ⟨⟨p, rest, hout, by omega⟩, by omega, ht.ordered.readyFront_ne hne ht.requests hmem⟩
  rw [pollRequestReady]
  apply Prog.fails_get_bind
  rw [if_neg (hown h).2.1, if_neg (hown h).2.2]
  apply Prog.Fails.loop (fun _ t => Queued loader first limit foreign (sub :: front) left t) ?_
    fuel h
  intro tryLoops t ht
  obtain ⟨⟨p, rest, hout, hid⟩, -, -⟩ := hown ht
  rw [pollRound]
  by_cases hrows : p.rows = []
  · right
    have hready : p.ready = false := by
      by_contra hp
      exact ht.ordered.marked p (by rw [hout]; exact List.mem_cons_self) (by simpa using hp) hrows
    exact ((raises_onStore (Q := fun _ => True)
      (RegisteredStore.pollCompatible_eq_error hout hready hrows) trivial).bind _).fails rfl
  · left
    obtain ⟨store, hpoll, hserved, -⟩ := RegisteredStore.pollCompatible_eq hout hrows
    apply (returns_onStore (Q := fun id u => id = p.requestId ∧ u = { t with store }) hpoll
      ⟨rfl, rfl⟩).bind
    rintro _ _ ⟨rfl, rfl⟩
    have hpolled := ht.served (t := { t with store }) rfl hserved
    split
    · apply (serves_servicePrefetch _).bind
      rintro _ u ⟨hiter, hmore⟩
      have hu := hpolled.served hiter hmore
      apply Prog.returns_get_bind
      rw [if_neg (not_or.mpr ⟨hid, (hown hu).2.2⟩)]
      exact Prog.returns_pure ⟨_, rfl, hu⟩
    · apply Prog.returns_get_bind
      rw [if_neg (not_or.mpr ⟨hid, (hown hpolled).2.2⟩)]
      exact Prog.returns_pure ⟨_, rfl, hpolled⟩

/-- A get takes the front sub-batch, and returns what a synchronous read of it does. -/
theorem fetchSamplesGetRegistered_returns {sub : Batch I A × Nat}
    (h : Queued loader first limit [] (sub :: front) left s) (hread : sub.1.Readable)
    (hready : s.store.readyFrontRequestId = sub.2) :
    (fetchSamplesGetRegistered loader sub.1).Returns s fun r t =>
      fetchSamples loader.src sub.1 = .ok r ∧ Queued loader first limit [] front left t := by
  obtain ⟨p, rest, hout, hid, hids, hne⟩ := h.front_eq
  have hmarked : p.ready = true := by
    by_contra hp
    rw [s.store.readyFrontRequestId_cons hout, if_neg hp, ← hid] at hready
    exact hne hready.symm
  rw [fetchSamplesGetRegistered]
  apply Prog.returns_lift_bind hread
  rw [← hids]
  apply (returns_onStore (Q := fun rows t => rows = p.rows.map some ∧ t = _)
    (RegisteredStore.get_eq hout hmarked p.rows) ⟨filledRows_own _, rfl⟩).bind
  rintro _ _ ⟨rfl, rfl⟩
  apply Prog.returns_pure
  apply And.intro
  · rw [fetchSamples_eq _ hread, hids, List.map_map]
    rfl
  · exact
      { h with
        requests := by
          have hreq := h.requests
          rw [hout, List.nil_append, List.cons_append, List.map_cons, List.map_cons,
            List.cons.injEq] at hreq
          exact hreq.2
        ordered := h.ordered.get hout }

theorem consume_returns {sub : Batch I A × Nat}
    (h : Queued loader first limit [] (sub :: front) left s) (hread : sub.1.Readable)
    (hrows : sub.1.ids ≠ []) (hfuel : loader.depth < fuel) :
    (consume loader fuel sub).Returns s fun r t =>
      fetchSamples loader.src sub.1 = .ok r ∧ Queued loader first limit [] front left t := by
  rw [consume]
  apply (pollRequestReady_returns h hrows (by omega)).bind
  rintro _ t ⟨ht, hready⟩
  apply (fetchSamplesGetRegistered_returns ht hread hready).bind
  rintro r u ⟨hr, hu⟩
  apply (serves_servicePrefetch u).bind
  rintro _ v ⟨hiter, hserved⟩
  apply (fillPrefetchQueue_returns (hu.served hiter hserved) hfuel).bind
  rintro _ w ⟨hw, -⟩
  exact Prog.returns_pure ⟨hr, hw⟩

/-! ## One call of `__next__` -/

theorem popFront_returns {b : Batch I A} (h : Queued loader first limit foreign [] (b :: left) s)
    (hfilled : Filled s) :
    popFront.Returns s fun item t => item.batch = b ∧ item.Submitted loader ∧
      Queued loader first limit foreign item.subs left t := by
  have hbatches := h.batches
  cases hqueue : s.iter.prefetchQueue with
  | nil =>
    -- with an empty queue the dataloader has ended, and nothing is left
    have hend := h.ended (hfilled.resolve_left (fun hne => hne hqueue))
    rw [hqueue, hend] at hbatches
    cases hbatches
  | cons item rest =>
    rw [hqueue, List.map_cons, List.cons_append, List.cons.injEq] at hbatches
    refine ⟨item, _, by rw [popFront, hqueue], hbatches.1, ?_, ?_⟩
    · exact h.submitted item (by rw [hqueue]; exact List.mem_cons_self)
    · exact
        { h with
          batches := hbatches.2
          readable := fun b hb => h.readable b (List.mem_cons_of_mem _ hb)
          length_le := by
            have := h.length_le
            rw [hqueue, List.length_cons] at this
            exact Nat.le_of_succ_le this
          submitted := fun it hit => h.submitted it (by
            rw [hqueue]
            exact List.mem_cons_of_mem _ hit)
          requests := by
            have hreq := h.requests
            rw [hqueue, List.flatMap_cons, List.nil_append] at hreq
            exact hreq }

/-- The sub-batches of the popped item, one after another. -/
theorem consumeAll_returns (subs : List (Batch I A × Nat))
    (hsubs : ∀ sub ∈ subs, sub.1.Readable ∧ sub.1.ids ≠ []) (h : Queued loader first limit [] subs left s)
    (hfuel : loader.depth < fuel) :
    (Prog.forEach (consume loader fuel) subs).Returns s fun rs t =>
      (subs.map Prod.fst).mapM (fetchSamples loader.src) = .ok rs ∧
        Queued loader first limit [] [] left t := by
  apply (Prog.Returns.forEach
    (fun rest rs t => ∃ done, subs = done ++ rest ∧
      (done.map Prod.fst).map (fetchSamples loader.src) = rs.map .ok ∧
        Queued loader first limit [] rest left t)
    subs ?_ (a := []) ⟨[], rfl, rfl, h⟩).mono
  · rintro rs t ⟨done, hdone, hrs, ht⟩
    rw [List.append_nil] at hdone
    rw [hdone, mapM_eq_ok_iff]
    exact ⟨hrs, ht⟩
  · rintro sub rest rs t ⟨done, hdone, hrs, ht⟩
    have hsub := hsubs sub (by simp [hdone])
    apply (consume_returns ht hsub.1 hsub.2 hfuel).mono
    rintro r u ⟨hr, hu⟩
    refine ⟨done ++ [sub], by simp [hdone], ?_, hu⟩
    rw [List.map_append, List.map_append, hrs, List.map_append]
    show _ ++ [fetchSamples loader.src sub.1] = _ ++ [.ok r]
    rw [hr]

theorem next_returns {b : Batch I A} (h : Queued loader first limit [] [] (b :: left) s)
    (hfilled : Filled s) (hids : b.ids ≠ []) (hfuel : loader.depth < fuel) :
    (next loader fuel).Returns s fun r t =>
      fetchRegistered loader.src loader.split b = .ok r ∧ Queued loader first limit [] [] left t ∧
        Filled t := by
  have hgo : ¬(s.iter.prefetchQueue.isEmpty = true ∧ s.iter.exhausted = true) := by
    rintro ⟨hempty, hexhausted⟩
    have hbatches := h.batches
    rw [List.isEmpty_iff.mp hempty, h.ended hexhausted] at hbatches
    cases hbatches
  rw [next]
  apply Prog.returns_get_bind
  rw [if_neg hgo]
  apply (serves_servicePrefetch s).bind
  rintro _ t ⟨hiter, hserved⟩
  have ht := h.served hiter hserved
  apply (popFront_returns ht (by rw [Filled, hiter]; exact hfilled)).bind
  rintro item u ⟨hbatch, hitem, hu⟩
  subst hbatch
  have hread := h.readable item.batch List.mem_cons_self
  obtain ⟨splitBatches, hsplit, -, -, hparts⟩ := splitBatch_ok hread loader.split
  have hsame : splitBatches = item.splitBatches :=
    Except.ok.inj (hsplit.symm.trans hitem.split_eq)
  subst hsame
  have hfst : item.subs.map Prod.fst = item.splitBatches :=
    List.map_fst_zip (Nat.le_of_eq hitem.length_eq.symm)
  have hsubs : ∀ sub ∈ item.subs, sub.1.Readable ∧ sub.1.ids ≠ [] := by
    intro sub hsub
    obtain ⟨part, hpart, hne⟩ := hparts sub.1 (by
      rw [← hfst]
      exact List.mem_map_of_mem hsub)
    refine ⟨.of_ok hpart, ?_⟩
    rw [Batch.ids_eq hpart]
    exact hne hids
  apply (consumeAll_returns item.subs hsubs hu hfuel).bind
  rintro rs v ⟨hrs, hv⟩
  rw [hfst] at hrs
  obtain ⟨r, hr⟩ := fetchRegistered_ok loader.src hread loader.split
  have hmerge : Batch.mergeReturnBatches rs = .ok r := by
    rw [← hr, fetchRegistered, hsplit]
    show _ = (do Batch.mergeReturnBatches (← List.mapM _ _))
    rw [hrs]
    rfl
  apply Prog.returns_lift_bind hmerge
  apply (fillPrefetchQueue_returns hv hfuel).bind
  rintro _ w ⟨hw, hfull⟩
  exact Prog.returns_pure ⟨hr, hw, hfull⟩

/-- Nothing is left: `StopIteration`. -/
theorem next_stops (h : Queued loader first limit foreign [] [] s) (hfilled : Filled s) :
    (next loader fuel).Raises s .stop fun t => t = s := by
  have hbatches := List.append_eq_nil_iff.mp h.batches
  have hqueue : s.iter.prefetchQueue = [] := List.map_eq_nil_iff.mp hbatches.1
  rw [next]
  apply Prog.raises_get_bind
  rw [if_pos ⟨by rw [hqueue]; rfl, hfilled.resolve_left (fun hne => hne hqueue)⟩]
  exact Prog.raises_throw rfl

/-- A batch without samples is one sub-batch whose poll raises. -/
theorem next_raises {b : Batch I A} (h : Queued loader first limit [] [] (b :: left) s)
    (hfilled : Filled s) (hids : b.ids = []) (hfuel : loader.depth < fuel) :
    (next loader fuel).Raises s (.runtime "No registered rowctx request to poll")
      fun _ => True := by
  have hgo : ¬(s.iter.prefetchQueue.isEmpty = true ∧ s.iter.exhausted = true) := by
    rintro ⟨hempty, hexhausted⟩
    have hbatches := h.batches
    rw [List.isEmpty_iff.mp hempty, h.ended hexhausted] at hbatches
    cases hbatches
  rw [next]
  apply Prog.raises_get_bind
  rw [if_neg hgo]
  apply (serves_servicePrefetch s).bind_raises
  rintro _ t ⟨hiter, hserved⟩
  have ht := h.served hiter hserved
  apply (popFront_returns ht (by rw [Filled, hiter]; exact hfilled)).bind_raises
  rintro item u ⟨hbatch, hitem, hu⟩
  subst hbatch
  have hread := h.readable item.batch List.mem_cons_self
  obtain ⟨splitBatches, hsplit, -, hone, -⟩ := splitBatch_ok hread loader.split
  have hsame : splitBatches = item.splitBatches :=
    Except.ok.inj (hsplit.symm.trans hitem.split_eq)
  subst hsame
  obtain ⟨id, hid⟩ : ∃ id, item.requestIds = [id] := by
    rw [← List.length_eq_one_iff, hitem.length_eq, hone hids, List.length_singleton]
  have hsubs : item.subs = [(item.batch, id)] := by
    rw [CidsItem.subs, hid, hone hids]
    rfl
  rw [hsubs] at hu
  have hpoll : (consume loader fuel (item.batch, id)).Raises u
      (.runtime "No registered rowctx request to poll") fun _ => True :=
    (pollRequestReady_raises hu hids (by omega)).bind _
  have hall := hpoll.forEach_head []
  rw [← hsubs] at hall
  exact hall.bind _

/-- A later batch waits forever behind what other iterators have left. -/
theorem next_stuck {b : Batch I A} (h : Queued loader first limit foreign [] (b :: left) s)
    (hfilled : Filled s) (hne : foreign ≠ []) : (next loader fuel).Fails (· == .stop) s := by
  have hgo : ¬(s.iter.prefetchQueue.isEmpty = true ∧ s.iter.exhausted = true) := by
    rintro ⟨hempty, hexhausted⟩
    have hbatches := h.batches
    rw [List.isEmpty_iff.mp hempty, h.ended hexhausted] at hbatches
    cases hbatches
  rw [next]
  apply Prog.fails_get_bind
  rw [if_neg hgo]
  apply (serves_servicePrefetch s).bind_fails
  rintro _ t ⟨hiter, hserved⟩
  have ht := h.served hiter hserved
  apply (popFront_returns ht (by rw [Filled, hiter]; exact hfilled)).bind_fails
  rintro item u ⟨hbatch, hitem, hu⟩
  subst hbatch
  obtain ⟨sub, subs, hsubs⟩ := List.exists_cons_of_ne_nil
    (hitem.subs_ne_nil (h.readable item.batch List.mem_cons_self))
  rw [hsubs] at hu
  have hconsume : (consume loader fuel sub).Fails (· == .stop) u :=
    (pollRequestReady_stuck hu hne).bind _
  apply Prog.Fails.bind
  show Prog.Fails _ (Prog.forEach (consume loader fuel) item.subs) u
  rw [hsubs]
  exact hconsume.forEach_head subs

/-! ## Whole runs -/

theorem exists_first {batches : List (Batch I A)} (h : ¬∀ b ∈ batches, b.ids ≠ []) :
    ∃ pre b tail, batches = pre ++ b :: tail ∧ (∀ c ∈ pre, c.ids ≠ []) ∧ b.ids = [] := by
  induction batches with
  | nil => exact absurd (fun _ hb => absurd hb List.not_mem_nil) h
  | cons b batches ih =>
    rcases Decidable.em (b.ids = []) with hb | hb
    · exact ⟨[], b, batches, rfl, fun _ hc => absurd hc List.not_mem_nil, hb⟩
    · obtain ⟨pre, c, tail, rfl, hpre, hc⟩ := ih fun hall => h fun c hc => by
        rcases List.mem_cons.mp hc with rfl | hc
        · exact hb
        · exact hall c hc
      refine ⟨b :: pre, c, tail, rfl, fun d hd => ?_, hc⟩
      rcases List.mem_cons.mp hd with rfl | hd
      · exact hb
      · exact hpre d hd

/-- What an iteration owes: each batch once and in order, gets in the order of the submits
    and each of its own rows, and never more than the prefetch depth queued. -/
structure Delivered (loader : CidsLoader I A) (requests : Nat) (batches rs : List (Batch I A))
    (t : Session A (CidsIter I A)) : Prop where
  returned : batches.map (fetchRegistered loader.src loader.split) = rs.map .ok
  order : t.store.gets.map Get.requestId =
    List.range' (requests + 1) (t.store.nextRequestId - (requests + 1))
  paired : ∀ g ∈ t.store.gets, g.rows = g.own
  maxQueued_le : t.iter.maxQueued ≤ loader.depth

/-- The requests that a run makes. -/
def totalParts (loader : CidsLoader I A) (batches : List (Batch I A)) : Nat :=
  (batches.map loader.parts).sum

/-- A new iterator, on what others have left. -/
theorem queued_start {store : RegisteredStore A} (hstore : store.Leftover)
    {batches : List (Batch I A)} (hread : ∀ b ∈ batches, b.Readable) :
    Queued loader store.nextRequestId (store.nextRequestId + totalParts loader batches)
      (store.outstanding.map Pending.request) [] batches (start store.fresh batches) where
  batches := rfl
  readable := hread
  ended := fun h => by cases h
  length_le := Nat.zero_le _
  maxQueued_le := Nat.zero_le _
  submitted := fun _ h => absurd h List.not_mem_nil
  requests := (List.append_nil _).symm
  ordered := hstore.ordered
  remaining := rfl

/-- What holds when the results `rs`, and after them `tail`, are still to come. -/
def ToCome (loader : CidsLoader I A) (first limit : Nat) (tail : List (Batch I A))
    (rs : List (Batch I A)) (t : Session A (CidsIter I A)) : Prop :=
  ∃ left, left.map (fetchRegistered loader.src loader.split) = rs.map .ok ∧
    (∀ b ∈ left, b.ids ≠ []) ∧ Queued loader first limit [] [] (left ++ tail) t ∧ Filled t

theorem next_toCome {tail : List (Batch I A)} (hfuel : loader.depth < fuel) (r : Batch I A)
    (rs : List (Batch I A)) (t : Session A (CidsIter I A))
    (h : ToCome loader first limit tail (r :: rs) t) :
    (next loader fuel).Returns t fun r' u => r' = r ∧ ToCome loader first limit tail rs u := by
  obtain ⟨left, hresults, hids, hqueued, hfilled⟩ := h
  cases left with
  | nil => cases hresults
  | cons b left =>
    rw [List.map_cons, List.map_cons, List.cons.injEq] at hresults
    apply (next_returns hqueued hfilled (hids b List.mem_cons_self) hfuel).mono
    rintro r' u ⟨hr', hu, hfull⟩
    exact ⟨Except.ok.inj (hr'.symm.trans hresults.1), left, hresults.2,
      fun b hb => hids b (List.mem_cons_of_mem _ hb), hu, hfull⟩

theorem queued_idle (requests calls : Nat) {batches : List (Batch I A)}
    (hread : ∀ b ∈ batches, b.Readable) :
    Queued loader (requests + 1) (requests + 1 + totalParts loader batches) [] [] batches
      (start (.idle requests calls) batches) :=
  queued_start (RegisteredStore.leftover_idle requests calls) hread

theorem results_exist (loader : CidsLoader I A) {batches : List (Batch I A)}
    (hread : ∀ b ∈ batches, b.Readable) :
    ∃ rs : List (Batch I A),
      batches.map (fetchRegistered loader.src loader.split) = rs.map .ok := by
  induction batches with
  | nil => exact ⟨[], rfl⟩
  | cons b batches ih =>
    obtain ⟨r, hr⟩ := fetchRegistered_ok loader.src (hread b List.mem_cons_self) loader.split
    obtain ⟨rs, hrs⟩ := ih fun b hb => hread b (List.mem_cons_of_mem _ hb)
    exact ⟨r :: rs, by rw [List.map_cons, hr, hrs, List.map_cons]⟩

theorem iterate_returns (loader : CidsLoader I A) (requests calls : Nat)
    {batches : List (Batch I A)} (hread : ∀ b ∈ batches, b.Readable)
    (hids : ∀ b ∈ batches, b.ids ≠ []) (hfuel : max loader.depth batches.length < fuel) :
    (iterate loader fuel).Returns (start (.idle requests calls) batches)
      (Delivered loader requests batches) := by
  obtain ⟨rs, hrs⟩ := results_exist loader hread
  have hlength : rs.length = batches.length := by
    have := congrArg List.length hrs
    rw [List.length_map, List.length_map] at this
    exact this.symm
  rw [iterate]
  apply (fillPrefetchQueue_returns (queued_idle requests calls hread) (by omega)).bind
  rintro _ s ⟨hs, hfilled⟩
  apply (Prog.Returns.collect (e := .stop)
    (ToCome loader (requests + 1) (requests + 1 + totalParts loader batches) [])
    rfl (next_toCome (by omega))
    (Q := Queued loader (requests + 1) (requests + 1 + totalParts loader batches) [] [] []) ?_ rs
    ⟨batches, hrs, hids, by rw [List.append_nil]; exact hs, hfilled⟩ (by omega)).mono
  · rintro _ t ⟨rfl, ht⟩
    have hout : t.store.outstanding = [] := by
      have hbatches := (List.append_eq_nil_iff.mp ht.batches).1
      have hreq := ht.requests
      rw [List.map_eq_nil_iff.mp hbatches] at hreq
      exact List.map_eq_nil_iff.mp hreq
    have horder := ht.ordered.order
    rw [hout, List.map_nil, List.append_nil] at horder
    exact
      { returned := hrs
        order := horder
        paired := ht.ordered.paired
        maxQueued_le := ht.maxQueued_le }
  · rintro t ⟨left, hresults, -, hqueued, hfull⟩
    rw [List.map_nil, List.map_eq_nil_iff] at hresults
    rw [hresults] at hqueued
    obtain ⟨u, hraise, rfl⟩ := next_stops hqueued hfull
    exact ⟨_, hraise, hqueued⟩

/-- The iteration raises when it comes to a batch without samples. -/
theorem iterate_raises (loader : CidsLoader I A) (requests calls : Nat)
    {batches tail : List (Batch I A)} {b : Batch I A}
    (hread : ∀ c ∈ batches ++ b :: tail, c.Readable) (hids : ∀ c ∈ batches, c.ids ≠ [])
    (hb : b.ids = []) (hfuel : max loader.depth batches.length < fuel) :
    (iterate loader fuel).Raises (start (.idle requests calls) (batches ++ b :: tail))
      (.runtime "No registered rowctx request to poll") fun _ => True := by
  obtain ⟨rs, hrs⟩ := results_exist loader fun c hc => hread c (List.mem_append_left _ hc)
  have hlength : rs.length = batches.length := by
    have := congrArg List.length hrs
    rw [List.length_map, List.length_map] at this
    exact this.symm
  rw [iterate]
  apply (fillPrefetchQueue_returns (queued_idle requests calls hread) (by omega)).bind_raises
  rintro _ s ⟨hs, hfilled⟩
  apply Prog.Raises.collect
    (ToCome loader (requests + 1) (requests + 1 + totalParts loader (batches ++ b :: tail)) (b :: tail)) rfl
    (next_toCome (by omega)) ?_ rs ⟨batches, hrs, hids, hs, hfilled⟩ (by omega)
  rintro t ⟨left, hresults, -, hqueued, hfull⟩
  rw [List.map_nil, List.map_eq_nil_iff] at hresults
  rw [hresults] at hqueued
  exact next_raises hqueued hfull hb (by omega)

theorem readable_of_fetchRegistered {b r : Batch I A}
    (h : fetchRegistered loader.src loader.split b = .ok r) : b.Readable := by
  cases hids : b.sampleIdsFromBatch with
  | ok ids => exact .of_ok hids
  | error e =>
    rw [fetchRegistered, Batch.splitBatch, hids] at h
    cases h

/-- Enough fuel gives a complete and orderly delivery exactly when every batch has a
    sample. -/
theorem delivered_iff (loader : CidsLoader I A) (requests calls : Nat)
    (batches : List (Batch I A)) :
    (∃ N, ∀ fuel, N ≤ fuel → (iterate loader fuel).Returns (start (.idle requests calls) batches)
      (Delivered loader requests batches)) ↔ ∀ b ∈ batches, b.ids ≠ [] := by
  apply Iff.intro
  · rintro ⟨N, hN⟩
    have hread : ∀ b ∈ batches, b.Readable := by
      obtain ⟨rs, t, -, hdelivered⟩ := hN N (Nat.le_refl N)
      intro b hb
      have hmem := List.mem_map_of_mem (f := fetchRegistered loader.src loader.split) hb
      rw [hdelivered.returned] at hmem
      obtain ⟨r, -, hr⟩ := List.mem_map.mp hmem
      exact readable_of_fetchRegistered hr.symm
    by_contra hempty
    -- the batches before the first one without samples
    obtain ⟨pre, b, tail, rfl, hpre, hb⟩ := exists_first hempty
    have hraises := iterate_raises loader requests calls hread hpre hb
      (show _ < max N (max loader.depth pre.length + 1) by omega)
    exact hraises.not_returns (hN _ (Nat.le_max_left _ _))
  · intro hids
    refine ⟨max loader.depth batches.length + 1, fun fuel hfuel => ?_⟩
    apply iterate_returns loader requests calls (fun b hb => ?_) hids (by omega)
    cases hsample : b.sampleIdsFromBatch with
    | ok ids => exact .of_ok hsample
    | error e => exact absurd (by rw [Batch.ids, hsample]) (hids b hb)

end CidsIter

end InFlight

/-! ## A batch without samples -/

/-- Two batches in flight, in two parts each. -/
def plainLoader : CidsLoader Unit Nat where
  src := plainSource
  blank := 0
  device := fun _ _ => true
  prefetchDepth := 2
  registeredSplit := 2
  enableSkipFront := true
  tryWindowSize := 1

/-- A batch that keeps no sample. -/
def emptyBatch : Batch Unit Nat := .tuple [.tensor () [], .tensor () []]

example : ((CidsIter.iterate plainLoader 4 (CidsIter.start (.idle 0 0)
    [labelledBatch, labelledBatch, labelledBatch])).map fun r => r.2.store.gets.map Get.requestId) =
      some [1, 2, 3, 4, 5, 6] := by decide +kernel

/-- The batch before it is returned, and then the iteration raises. -/
theorem emptyBatch_raises :
    (CidsIter.iterate plainLoader 3).Raises
        (CidsIter.start (.idle 0 0) [labelledBatch, emptyBatch])
        (.runtime "No registered rowctx request to poll") (fun _ => True) ∧
      ¬∃ N, ∀ fuel, N ≤ fuel →
        (CidsIter.iterate plainLoader fuel).Returns
          (CidsIter.start (.idle 0 0) [labelledBatch, emptyBatch])
          (CidsIter.Delivered plainLoader 0 [labelledBatch, emptyBatch]) := by
  have hread : ∀ b ∈ [labelledBatch] ++ emptyBatch :: [], b.Readable := by
    intro b hb
    rcases List.mem_cons.mp hb with rfl | hb
    · exact rfl
    · rw [List.mem_singleton.mp hb]
      exact rfl
  have hids : ∀ b ∈ [labelledBatch], b.ids ≠ [] := by
    intro b hb
    rw [List.mem_singleton.mp hb]
    exact List.cons_ne_nil _ _
  have hraises : ∀ fuel, 3 ≤ fuel → (CidsIter.iterate plainLoader fuel).Raises
      (CidsIter.start (.idle 0 0) [labelledBatch, emptyBatch])
      (.runtime "No registered rowctx request to poll") (fun _ => True) := by
    intro fuel hfuel
    have hdepth : plainLoader.depth = 2 := rfl
    have hlength : [labelledBatch].length = 1 := rfl
    have hempty : emptyBatch.ids = [] := rfl
    have hrun := CidsIter.iterate_raises plainLoader 0 0 hread hids hempty
      (show _ < fuel by omega)
    exact hrun
  apply And.intro
  · exact hraises 3 (Nat.le_refl 3)
  · rintro ⟨N, hN⟩
    exact (hraises (max N 3) (Nat.le_max_right _ _)).not_returns (hN _ (Nat.le_max_left _ _))

end GidsStack.Loader
