/-
  GidsStack.Loader.GidsIterator

  What the two modes of `_PrefetchingIter_async_registered_try_service` (GIDS.py) share: the
  sampled batches, the IO budget, the calls of the loader, and the strong poll of the front
  request, which tries as long as others are outstanding and blocks otherwise.
-/

import GidsStack.Loader.Store

namespace GidsStack.Loader

/-! ## The iterator -/

/-- A sampled batch, a tuple or a list: its input nodes, and what follows them. -/
structure Sampled (R T : Type) where
  isTuple : Bool
  inputNodes : List R
  rest : List T

/-- What `_attach_feature_to_batch` makes of a batch, of the same type as the batch. -/
structure Attached (R T F : Type) where
  batch : Sampled R T
  features : List F

/-- The settings of the iterator and its loader.  `zero` is a row of `torch.zeros` and
    `uninit` one of `torch.empty`. -/
structure GidsLoader (R F : Type) where
  feature : R → F
  zero : F
  uninit : F
  device : Device
  prefetchDepth : Nat
  maxOutstandingIos : Nat
  submitCommandsPerBatch : Nat
  enableSkipFront : Bool
  tryWindowSize : Nat

namespace GidsLoader

variable {R F : Type}

def depth (l : GidsLoader R F) : Nat := max 1 l.prefetchDepth

def window (l : GidsLoader R F) : Nat := max 1 l.tryWindowSize

def commands (l : GidsLoader R F) : Nat := max 1 l.submitCommandsPerBatch

/-- A row of the tensor a get has filled. -/
def row (l : GidsLoader R F) : Option R → F
  | some node => l.feature node
  | none => l.zero

end GidsLoader

/-- `pending_split_item`: none, an item that is not queued yet, or the last one of the
    queue, which is then the same object. -/
inductive PendingItem (Item : Type) where
  | none
  | fresh (item : Item)
  | tail

/-- The iterator, whose queue has items of type `Item`.  `dataloaderIt` is what the dataloader
    has not returned yet.  `ioLog` lists `outstanding_io_count` after each change of it, with
    the io counts of the micro-batches that are then submitted and not materialized; no code
    reads it. -/
structure GidsIter (Item R T : Type) where
  dataloaderIt : List (Sampled R T)
  pendingBatch : Option (Sampled R T)
  pendingIoCount : Nat
  exhausted : Bool
  outstandingIoCount : Nat
  nextLogicalIterId : Nat
  prefetchQueue : List Item
  pendingSplitItem : PendingItem Item
  ioLog : List (Nat × Nat)

abbrev GidsProgram (Item R T A : Type) : Type := Program R (GidsIter Item R T) A

/-- `l[i]`. -/
def index {X : Type} (l : List X) (i : Nat) : Except PyError X :=
  match l[i]? with
  | none => .error .index
  | some x => .ok x

theorem index_eq {X : Type} {l : List X} {i : Nat} (h : i < l.length) : index l i = .ok l[i] := by
  rw [index, List.getElem?_eq_getElem h]

namespace GidsIter

variable {Item R T F : Type}

/-- The iterator before its warm-up. -/
def new (batches : List (Sampled R T)) : GidsIter Item R T where
  dataloaderIt := batches
  pendingBatch := none
  pendingIoCount := 0
  exhausted := false
  outstandingIoCount := 0
  nextLogicalIterId := 0
  prefetchQueue := []
  pendingSplitItem := .none
  ioLog := []

/-! ## Its methods -/

/-- `_get_next_batch_for_submit`, with `none` for `None, 0`. -/
def getNextBatchForSubmit : GidsProgram Item R T (Option (Sampled R T × Nat)) := do
  let s ← Prog.get
  match s.iter.pendingBatch with
  | some batch => return some (batch, s.iter.pendingIoCount)
  | none =>
    match s.iter.dataloaderIt with
    | [] =>
      setIter fun it => { it with exhausted := true }
      return none
    | nextBatch :: rest =>
      setIter fun it =>
        { it with
          dataloaderIt := rest
          pendingBatch := some nextBatch
          pendingIoCount := nextBatch.inputNodes.length }
      return some (nextBatch, nextBatch.inputNodes.length)

variable (loader : GidsLoader R F) (fuel : Nat)

/-- `_can_submit_ios`. -/
def canSubmitIos (it : GidsIter Item R T) (ioCount : Nat) : Bool :=
  loader.maxOutstandingIos == 0 || it.outstandingIoCount == 0 ||
    decide (it.outstandingIoCount + ioCount ≤ loader.maxOutstandingIos)

/-- `fetch_feature_submit_registered_rowctx`. -/
def fetchSubmit (inputNodes : List R) : GidsProgram Item R T Nat :=
  onStore (RegisteredStore.submit inputNodes)

/-- `fetch_feature_get_feature_light_registered_rowctx`: the last element of what it returns. -/
def fetchGet (inputNodes : List R) : GidsProgram Item R T (List F) := do
  let rows ← onStore (RegisteredStore.get inputNodes)
  return rows.map loader.row

/-- `_service_prefetch_nonblocking`. -/
def servicePrefetchNonblocking : GidsProgram Item R T Unit := do
  let s ← Prog.get
  if s.iter.prefetchQueue.isEmpty then return ()
  else if loader.enableSkipFront = false then return ()
  else if s.store.outstandingCount ≤ 1 then return ()
  else if loader.commands ≤ 1 ∧ s.iter.prefetchQueue.length ≤ 1 then return ()
  else
    let _ ← onStore (RegisteredStore.tryPollWindowSkipFront loader.device loader.window)
    return ()

/-- Every eighth round also looks behind the front. -/
def serviceEighth (tryLoops : Nat) : GidsProgram Item R T Unit :=
  if (tryLoops + 1) % 8 = 0 then servicePrefetchNonblocking loader else return ()

/-- A round of the loop of `_poll_front_request`; its state is `try_loops`. -/
def tryRound (expectedRequestId tryLoops : Nat) : GidsProgram Item R T (Nat ⊕ Unit) := do
  let _ ← onStore (RegisteredStore.tryPoll loader.device)
  let s ← Prog.get
  if s.store.readyFrontRequestId = expectedRequestId then return .inr ()
  else
    serviceEighth loader tryLoops
    return .inl (tryLoops + 1)

/-- `_poll_front_request`. -/
def pollFrontRequest (expectedRequestId : Nat) : GidsProgram Item R T Unit := do
  let s ← Prog.get
  if s.store.readyFrontRequestId = expectedRequestId then return ()
  else if s.store.outstandingCount ≤ 1 then
    let _ ← onStore RegisteredStore.pollCompatible
    return ()
  else Prog.loop (tryRound loader expectedRequestId) fuel 0

/-! ## The next batch -/

theorem getNextBatch_of_nil {s : Session R (GidsIter Item R T)}
    (hpending : s.iter.pendingBatch = none) (hdata : s.iter.dataloaderIt = []) :
    getNextBatchForSubmit.Returns s fun o t =>
      o = none ∧ t = { s with iter := { s.iter with exhausted := true } } := by
  rw [getNextBatchForSubmit]
  apply Prog.returns_get_bind
  rw [hpending, hdata]
  apply Prog.returns_modify_bind
  exact Prog.returns_pure ⟨rfl, rfl⟩

theorem getNextBatch_of_cons {s : Session R (GidsIter Item R T)} {b : Sampled R T}
    {rest : List (Sampled R T)} (hpending : s.iter.pendingBatch = none)
    (hdata : s.iter.dataloaderIt = b :: rest) :
    getNextBatchForSubmit.Returns s fun o t =>
      o = some (b, b.inputNodes.length) ∧ t = { s with iter := { s.iter with
        dataloaderIt := rest
        pendingBatch := some b
        pendingIoCount := b.inputNodes.length } } := by
  rw [getNextBatchForSubmit]
  apply Prog.returns_get_bind
  rw [hpending, hdata]
  apply Prog.returns_modify_bind
  exact Prog.returns_pure ⟨rfl, rfl⟩

/-! ## Service and polls -/

variable {loader fuel}

theorem serves_servicePrefetch :
    Serves (servicePrefetchNonblocking loader : GidsProgram Item R T Unit) := by
  intro s
  rw [servicePrefetchNonblocking]
  apply Prog.returns_get_bind
  split
  · exact serves_pure _ s
  · split
    · exact serves_pure _ s
    · split
      · exact serves_pure _ s
      · split
        · exact serves_pure _ s
        · apply (serves_window loader.device loader.window s).bind
          intro _ t ht
          exact Prog.returns_pure ht

theorem serves_serviceEighth (tryLoops : Nat) :
    Serves (serviceEighth loader tryLoops : GidsProgram Item R T Unit) := by
  rw [serviceEighth]
  split
  · exact serves_servicePrefetch
  · exact serves_pure ()

/-- A round marks the front request, or comes before the device has its rows. -/
theorem tryRound_returns {s : Session R (GidsIter Item R T)} {p : Pending R}
    {rest : List (Pending R)} {bound : Nat} (hout : s.store.outstanding = p :: rest)
    (hrows : p.rows ≠ []) (hlive : LiveFrom loader.device bound p.requestId) (tryLoops : Nat) :
    (tryRound loader p.requestId tryLoops).Returns s fun o t =>
      t.iter = s.iter ∧ s.store.Served t.store ∧
        match o with
        | .inl _ => s.store.serviceCalls < bound ∧ s.store.serviceCalls < t.store.serviceCalls
        | .inr _ => t.store.readyFrontRequestId = p.requestId := by
  obtain ⟨id, store, hcall, hserved, hfront⟩ := RegisteredStore.tryPoll_eq loader.device hout hrows
  rw [tryRound]
  apply (returns_onStore (Q := fun _ t => t = { s with store }) hcall rfl).bind
  rintro _ _ rfl
  apply Prog.returns_get_bind
  split
  · rename_i hready
    exact Prog.returns_pure ⟨rfl, hserved, hready⟩
  · rename_i hready
    obtain ⟨-, hnot, hcalls⟩ := hfront.resolve_left hready
    have hbound : s.store.serviceCalls < bound := by
      by_contra hge
      rw [hlive _ (Nat.le_of_not_lt hge)] at hnot
      cases hnot
    apply (serves_serviceEighth tryLoops _).bind
    rintro _ t ⟨hiter, hmore⟩
    apply Prog.returns_pure
    refine ⟨hiter, hserved.trans hmore, hbound, ?_⟩
    have hmono := hmore.serviceCalls
    rw [hcalls] at hmono
    exact hmono

theorem pollFrontRequest_returns {s : Session R (GidsIter Item R T)} {p : Pending R}
    {rest : List (Pending R)} {bound : Nat} (hout : s.store.outstanding = p :: rest)
    (hrows : p.rows ≠ []) (hlive : LiveFrom loader.device bound p.requestId)
    (hfuel : bound < fuel) :
    (pollFrontRequest loader fuel p.requestId).Returns s fun _ t =>
      t.iter = s.iter ∧ s.store.Served t.store ∧ t.store.readyFrontRequestId = p.requestId := by
  rw [pollFrontRequest]
  apply Prog.returns_get_bind
  split
  · rename_i hready
    exact Prog.returns_pure ⟨rfl, .refl _, hready⟩
  · split
    · obtain ⟨store, hcall, hserved, hready⟩ := RegisteredStore.pollCompatible_eq hout hrows
      apply (returns_onStore (Q := fun _ t => t = { s with store }) hcall rfl).bind
      rintro _ _ rfl
      exact Prog.returns_pure ⟨rfl, hserved, hready⟩
    · -- every round that goes on uses up a service call before `bound`
      apply Prog.Returns.loop (fun _ t => t.iter = s.iter ∧ s.store.Served t.store)
        (fun _ t => bound - t.store.serviceCalls) ?_ fuel ⟨rfl, .refl _⟩ (by omega)
      rintro tryLoops t ⟨hiter, hserved⟩
      obtain ⟨q, rest', hq, hpq⟩ := hserved.front_eq hout
      rw [← hpq.requestId_eq]
      apply (tryRound_returns hq (by rw [hpq.rows_eq]; exact hrows)
        (by rw [hpq.requestId_eq]; exact hlive) tryLoops).mono
      rintro o u ⟨hu, hmore, ho⟩
      cases o with
      | inl _ => exact ⟨⟨hu.trans hiter, hserved.trans hmore⟩, by omega⟩
      | inr _ => exact ⟨hu.trans hiter, hserved.trans hmore, ho⟩

/-- A poll for a request that no service brings to the ready front never ends; with only that
    one outstanding the blocking poll has to throw. -/
theorem pollFrontRequest_fails {s : Session R (GidsIter Item R T)} {requestId : Nat}
    (hnever : ∀ t, s.store.Served t → t.readyFrontRequestId ≠ requestId)
    (hshallow : s.store.outstandingCount ≤ 1 →
      ∃ p rest, s.store.outstanding = p :: rest ∧ p.ready = false ∧ p.rows = []) :
    (pollFrontRequest loader fuel requestId).Fails (· == .stop) s := by
  rw [pollFrontRequest]
  apply Prog.fails_get_bind
  rw [if_neg (hnever _ (.refl _))]
  split
  · rename_i hcount
    obtain ⟨p, rest, hout, hready, hrows⟩ := hshallow hcount
    exact ((raises_onStore (Q := fun _ => True)
      (RegisteredStore.pollCompatible_eq_error hout hready hrows) trivial).bind _).fails rfl
  · apply Prog.Fails.loop (fun _ t => s.store.Served t.store) ?_ fuel (.refl _)
    intro tryLoops t ht
    left
    rw [tryRound]
    apply (serves_tryPoll loader.device t).bind
    rintro _ u ⟨-, hu⟩
    apply Prog.returns_get_bind
    rw [if_neg (hnever _ (ht.trans hu))]
    apply (serves_serviceEighth tryLoops u).bind
    rintro _ v ⟨-, hv⟩
    exact Prog.returns_pure ⟨_, rfl, (ht.trans hu).trans hv⟩

/-- While foreign requests are in front, so it is for the iterator's own. -/
theorem pollFrontRequest_stuck {s : Session R (GidsIter Item R T)} {first : Nat}
    {foreign own : List (Nat × List R)} (hordered : s.store.Ordered first foreign)
    (hne : foreign ≠ []) (hout : s.store.outstanding.map Pending.request = foreign ++ own)
    {requestId : Nat} {rows : List R} (hmem : (requestId, rows) ∈ own) :
    (pollFrontRequest loader fuel requestId).Fails (· == .stop) s := by
  apply pollFrontRequest_fails
  · intro t ht
    exact (hordered.served ht).readyFront_ne hne (ht.requests_eq.trans hout) hmem
  · intro hcount
    have hlength := congrArg List.length hout
    rw [List.length_map, List.length_append] at hlength
    have hforeign := List.length_pos_iff_ne_nil.mpr hne
    have hown := List.length_pos_of_mem hmem
    rw [RegisteredStore.outstandingCount] at hcount
    omega

/-- So it is for a front request without rows. -/
theorem pollFrontRequest_empty {s : Session R (GidsIter Item R T)} {first : Nat}
    {foreign : List (Nat × List R)} (hordered : s.store.Ordered first foreign) {p : Pending R}
    {rest : List (Pending R)} (hout : s.store.outstanding = p :: rest) (hrows : p.rows = []) :
    (pollFrontRequest loader fuel p.requestId).Fails (· == .stop) s := by
  have hmem : p ∈ s.store.outstanding := by
    rw [hout]
    exact List.mem_cons_self
  have hunmarked : ∀ {t : RegisteredStore R}, s.store.Served t → ∀ q ∈ t.outstanding,
      q.rows = [] → q.ready = false := by
    intro t ht q hq hnil
    by_contra hready
    exact (hordered.served ht).marked q hq (by simpa using hready) hnil
  apply pollFrontRequest_fails
  · intro t ht
    obtain ⟨q, rest', hq, hpq⟩ := ht.front_eq hout
    have hready := hunmarked ht q (by rw [hq]; exact List.mem_cons_self) (hpq.rows_eq.trans hrows)
    rw [t.readyFrontRequestId_cons hq, hready]
    exact (hordered.ne_zero hmem).symm
  · exact fun _ => ⟨p, rest, hout, hunmarked (.refl _) p hmem hrows, hrows⟩

/-- A get of the rows of the front request returns their features. -/
theorem fetchGet_returns {s : Session R (GidsIter Item R T)} {p : Pending R}
    {rest : List (Pending R)} (hout : s.store.outstanding = p :: rest) (hready : p.ready = true) :
    (fetchGet loader p.rows).Returns s fun rows t => rows = p.rows.map loader.feature ∧
      t = { s with store := { s.store with
        outstanding := rest
        gets := s.store.gets ++ [{ requestId := p.requestId, own := p.rows, rows := p.rows }] } } := by
  rw [fetchGet]
  apply (returns_onStore (Q := fun rows t => rows = p.rows.map some ∧ t = _)
    (RegisteredStore.get_eq hout hready p.rows) ⟨filledRows_own _, rfl⟩).bind
  rintro _ _ ⟨rfl, rfl⟩
  apply Prog.returns_pure
  rw [List.map_map]
  exact ⟨rfl, rfl⟩

end GidsIter

end GidsStack.Loader
