/-
  GidsStack.Loader.SamplePipeline

  `_PrefetchingIter_async_sample_io_pipeline` (GIDS.py): a thread that samples and puts the
  batches on a bounded queue, and an iterator that takes them off it, submits one at a time
  and hands it out with its features.

  The two run at the same time.  Each step is one of the thread, or takes the iterator from
  one read of the queue to the next; the steps come in any order, and a step that would block
  is not enabled.
-/

import GidsStack.Lib.Transition
import GidsStack.Loader.GidsIterator

namespace GidsStack.Loader

/-! ## Plain requests of a store -/

/-- The contexts of a plain submission: the rows it was made for, and for how many of them a
    poll has waited. -/
structure Submission (R : Type) where
  rows : List R
  polled : Nat
  deriving DecidableEq, Repr

/-- The plain part of a `BaM_IOStack`, its front first. -/
abbrev PlainStore (R : Type) : Type := List (Submission R)

namespace PlainStore

variable {R : Type}

/-- `read_feature_submit_async`. -/
def submitAsync (rows : List R) (s : PlainStore R) : PlainStore R := s ++ [{ rows, polled := 0 }]

/-- `read_feature_single_page_single_thread_poll` with the caller's number of rows. -/
def singlePagePoll (numIndex : Nat) : PlainStore R → PlainStore R
  | [] => []
  | front :: rest => { front with polled := max front.polled numIndex } :: rest

/-- `read_feature_get_feature_light` for the caller's rows: the rows of the tensor that hold
    the feature of their node.  The kernel goes to the page that the context of the row names,
    so the row has to be that of the front submission, and polled. -/
def getFeatureLight [DecidableEq R] (own : List R) : PlainStore R → List (Option R) × PlainStore R
  | [] => (own.map fun _ => none, [])
  | front :: rest =>
    (own.mapIdx fun row node =>
      if row < front.polled ∧ front.rows[row]? = some node then some node else none, rest)

end PlainStore

/-! ## The state -/

/-- What `next(self.dataloader_it)` does.  `baseException` is an exception that
    `except Exception` does not catch. -/
inductive NextOutcome (B X : Type) where
  | batch (b : B)
  | stopIteration
  | exception (e : X)
  | baseException (e : X)

/-- What the queue holds. -/
inductive QueueItem (B : Type) where
  | batch (b : B)
  | sentinel
  deriving DecidableEq

/-- Where the sampler thread stands in `_sampler_loop`. -/
inductive SamplerAt (B X : Type) where
  | calling
  | storing (e : X)
  | putting (item : QueueItem B)
  | ended

/-- Where the thread of the iterator stands: in `_prepare_first_batch` before the blocking and
    before the non-blocking read, between two calls, in `__next__` before the blocking read,
    and before the non-blocking read with the batch to return. -/
inductive ConsumerAt (A : Type) where
  | preparingFirst
  | preparingNext
  | idle
  | waiting
  | returning (batch : A)
  | notConstructed

/-- What the constructor or `__next__` raises. -/
inductive Raised (X : Type) where
  | stopIteration
  | exception (e : X)

/-- An item of `prefetch_queue`. -/
structure Prefetch (B : Type) where
  batch : B
  polled : Bool

/-- What a call returns: the batch, and for each row of the feature tensor the node whose
    features it holds. -/
abbrev Fetched (R T : Type) : Type := Attached R T (Option R)

/-- The iterator, its thread, its queue and the store.  `calls` counts the batches sampled;
    `returned` and `raised` are what the calls have returned and raised. -/
structure Pipeline (R T X : Type) where
  calls : Nat
  sampler : SamplerAt (Sampled R T) X
  sampledQueue : List (QueueItem (Sampled R T))
  workerExc : Option X
  exhausted : Bool
  prefetchQueue : List (Prefetch (Sampled R T))
  currentBatch : Option (Fetched R T)
  store : PlainStore R
  consumer : ConsumerAt (Fetched R T)
  returned : List (Fetched R T)
  raised : List (Raised X)

/-- What the sampler's iterator does at each call, and `sample_io_sampled_queue_size`. -/
structure PipelineConfig (R T X : Type) where
  next : Nat → NextOutcome (Sampled R T) X
  sampledQueueSize : Int

def PipelineConfig.maxsize {R T X : Type} (c : PipelineConfig R T X) : Nat :=
  (max 1 c.sampledQueueSize).toNat

namespace Pipeline

variable {R T X : Type}

/-- The sampler thread has been started. -/
def new : Pipeline R T X where
  calls := 0
  sampler := .calling
  sampledQueue := []
  workerExc := none
  exhausted := false
  prefetchQueue := []
  currentBatch := none
  store := []
  consumer := .preparingFirst
  returned := []
  raised := []

/-! ## The sampler thread -/

/-- A step of `_sampler_loop`; `put` blocks while the queue is full. -/
def samplerStep (c : PipelineConfig R T X) (p : Pipeline R T X) : Option (Pipeline R T X) :=
  match p.sampler with
  | .calling =>
    match c.next p.calls with
    | .batch b => some { p with sampler := .putting (.batch b), calls := p.calls + 1 }
    | .stopIteration => some { p with sampler := .putting .sentinel }
    | .exception e => some { p with sampler := .storing e }
    | .baseException _ => some { p with sampler := .ended }
  | .storing e => some { p with workerExc := some e, sampler := .putting .sentinel }
  | .putting item =>
    if p.sampledQueue.length < c.maxsize then
      some { p with
        sampledQueue := p.sampledQueue ++ [item]
        sampler := match item with
          | .batch _ => .calling
          | .sentinel => .ended }
    else none
  | .ended => none

/-! ## The iterator -/

/-- `_get_next_sampled_batch` and `_try_get_next_sampled_batch_nowait` once they have an item. -/
def gotItem (p : Pipeline R T X) (item : QueueItem (Sampled R T)) :
    Except X (Option (Sampled R T)) × Pipeline R T X :=
  match item with
  | .batch b => (.ok (some b), p)
  | .sentinel =>
    match p.workerExc with
    | some e => (.error e, { p with exhausted := true })
    | none => (.ok none, { p with exhausted := true })

/-- `_submit_batch`. -/
def submitBatch (p : Pipeline R T X) (nextBatch : Sampled R T) : Pipeline R T X :=
  { p with
    store := p.store.submitAsync nextBatch.inputNodes
    prefetchQueue := p.prefetchQueue ++ [{ batch := nextBatch, polled := false }] }

/-- The test both `_submit_prefetch_*` make first. -/
def maySubmit (p : Pipeline R T X) : Bool := !(p.exhausted || !p.prefetchQueue.isEmpty)

/-- `_poll_front_prefetch`. -/
def pollFrontPrefetch (p : Pipeline R T X) : Pipeline R T X :=
  match p.prefetchQueue with
  | [] => p
  | front :: rest =>
    if front.polled then p
    else
      { p with
        store := p.store.singlePagePoll front.batch.inputNodes.length
        prefetchQueue := { front with polled := true } :: rest }

/-- `_consume_front_prefetch`, with the result in `current_batch`. -/
def consumeFrontPrefetch [DecidableEq R] (p : Pipeline R T X) : Pipeline R T X :=
  let p := p.pollFrontPrefetch
  match p.prefetchQueue with
  | [] => { p with currentBatch := none }
  | front :: rest =>
    let (features, store) := p.store.getFeatureLight front.batch.inputNodes
    { p with
      prefetchQueue := rest
      store
      currentBatch := some { batch := front.batch, features } }

/-- A call raises. -/
def raise (p : Pipeline R T X) (e : Raised X) : Pipeline R T X :=
  { p with raised := p.raised ++ [e], consumer := .idle }

/-- A call returns. -/
def returnBatch (p : Pipeline R T X) (batch : Fetched R T) : Pipeline R T X :=
  { p with returned := p.returned ++ [batch], consumer := .idle }

/-- `__next__` after `_ensure_current_batch_ready`, up to the non-blocking read. -/
def handOut (p : Pipeline R T X) : Pipeline R T X :=
  match p.currentBatch with
  | none => p.raise .stopIteration
  | some batch =>
    let p := { p with currentBatch := none }
    if p.maySubmit then { p with consumer := .returning batch } else p.returnBatch batch

/-- `__next__` up to its first read of the queue. -/
def callNext [DecidableEq R] (p : Pipeline R T X) : Pipeline R T X :=
  if p.currentBatch.isSome then p.handOut
  else if p.prefetchQueue.isEmpty then
    if p.maySubmit then { p with consumer := .waiting } else p.raise .stopIteration
  else p.consumeFrontPrefetch.handOut

/-- `__next__` after the blocking read. -/
def gotWaiting [DecidableEq R] (p : Pipeline R T X) (item : QueueItem (Sampled R T)) :
    Pipeline R T X :=
  match p.gotItem item with
  | (.error e, p) => p.raise (.exception e)
  | (.ok none, p) => p.raise .stopIteration
  | (.ok (some b), p) => (p.submitBatch b).consumeFrontPrefetch.handOut

/-- `__next__` after the non-blocking read. -/
def gotReturning (p : Pipeline R T X) (batch : Fetched R T) (item : QueueItem (Sampled R T)) :
    Pipeline R T X :=
  match p.gotItem item with
  | (.error e, p) => p.raise (.exception e)
  | (.ok none, p) => p.returnBatch batch
  | (.ok (some b), p) => (p.submitBatch b).returnBatch batch

/-- The constructor raises. -/
def abort (p : Pipeline R T X) (e : X) : Pipeline R T X :=
  { p.raise (.exception e) with consumer := .notConstructed }

/-- `_prepare_first_batch` after the blocking read. -/
def gotFirst [DecidableEq R] (p : Pipeline R T X) (item : QueueItem (Sampled R T)) :
    Pipeline R T X :=
  match p.gotItem item with
  | (.error e, p) => p.abort e
  | (.ok none, p) => { p with currentBatch := none, consumer := .idle }
  | (.ok (some b), p) =>
    let p := (p.submitBatch b).consumeFrontPrefetch
    { p with consumer := if p.maySubmit then .preparingNext else .idle }

/-- `_prepare_first_batch` after the non-blocking read. -/
def gotSecond (p : Pipeline R T X) (item : QueueItem (Sampled R T)) : Pipeline R T X :=
  match p.gotItem item with
  | (.error e, p) => p.abort e
  | (.ok none, p) => { p with consumer := .idle }
  | (.ok (some b), p) => { p.submitBatch b with consumer := .idle }

/-- A step of the iterator's thread; between two calls it makes the next one. -/
def consumerStep [DecidableEq R] (p : Pipeline R T X) : Option (Pipeline R T X) :=
  match p.consumer, p.sampledQueue with
  | .idle, _ => some p.callNext
  | .notConstructed, _ => none
  | .preparingFirst, [] => none
  | .preparingFirst, item :: rest => some ({ p with sampledQueue := rest }.gotFirst item)
  | .preparingNext, [] => some { p with consumer := .idle }
  | .preparingNext, item :: rest => some ({ p with sampledQueue := rest }.gotSecond item)
  | .waiting, [] => none
  | .waiting, item :: rest => some ({ p with sampledQueue := rest }.gotWaiting item)
  | .returning batch, [] => some (p.returnBatch batch)
  | .returning batch, item :: rest =>
    some ({ p with sampledQueue := rest }.gotReturning batch item)

/-! ## Runs -/

/-- Which of the two threads makes a step. -/
inductive Thread
  | sampler
  | consumer
  deriving DecidableEq

def step [DecidableEq R] (c : PipelineConfig R T X) (p : Pipeline R T X) :
    Thread → Option (Pipeline R T X)
  | .sampler => p.samplerStep c
  | .consumer => p.consumerStep

/-! ## Delivery -/

/-- The batch of the `i`-th call of the sampler's iterator. -/
def batchAt (c : PipelineConfig R T X) (i : Nat) : Option (Sampled R T) :=
  match c.next i with
  | .batch b => some b
  | _ => none

/-- How the iterator should announce that the sampler has come to its end. -/
def endOf : NextOutcome (Sampled R T) X → Option (Raised X)
  | .stopIteration => some .stopIteration
  | .exception e => some (.exception e)
  | _ => none

/-- The iterator's thread stands before a blocking read. -/
def Blocks (p : Pipeline R T X) : Prop :=
  match p.consumer with
  | .preparingFirst => True
  | .waiting => True
  | _ => False

/-- A batch has the features of its own nodes. -/
def Own (a : Fetched R T) : Prop := a.features = a.batch.inputNodes.map some

/-- What the pipeline promises of every state: the batches returned are the first ones sampled,
    each with its own features; at most one request is submitted and not consumed; nothing is
    raised before all batches have been returned, first what the sampler came to its end with
    and then `StopIteration`; once the sentinel has been taken, no read blocks; a read that
    waits for the sampler waits for one that can go on; and a sampler does not end without its
    sentinel. -/
structure Delivers (c : PipelineConfig R T X) (p : Pipeline R T X) : Prop where
  inOrder : p.returned.map (fun a => some a.batch) = (List.range p.returned.length).map (batchAt c)
  own : ∀ a ∈ p.returned, Own a
  oneRequest : p.store.length ≤ 1
  ends : ∀ r rest, p.raised = r :: rest →
    endOf (c.next p.returned.length) = some r ∧ ∀ r' ∈ rest, r' = .stopIteration
  unblocked : p.exhausted = true → ¬ p.Blocks
  served : p.Blocks → p.sampledQueue = [] → (p.samplerStep c).isSome = true
  announced : p.sampler = .ended → p.exhausted = true ∨ .sentinel ∈ p.sampledQueue

/-- A step the pipeline is not made for: a non-blocking read, while a batch waits to be
    returned, takes the sentinel of a sampler that has failed; or the sampler raises what its
    thread does not catch. -/
def Breaks (c : PipelineConfig R T X) (p : Pipeline R T X) : Thread → Prop
  | .consumer =>
    (p.consumer = .preparingNext ∨ ∃ batch, p.consumer = .returning batch) ∧
      p.sampledQueue.head? = some .sentinel ∧ p.workerExc ≠ none
  | .sampler => p.sampler = .calling ∧ ∃ e, c.next p.calls = .baseException e

end Pipeline

/-! ## What holds between two steps -/

/-- The batch in the hand of the iterator's thread. -/
def ConsumerAt.handed {A : Type} : ConsumerAt A → List A
  | .returning batch => [batch]
  | _ => []

/-- What the sampler thread is about to put. -/
def SamplerAt.held {B X : Type} : SamplerAt B X → List (QueueItem B)
  | .putting item => [item]
  | _ => []

/-- The exception that `_worker_exc` has at the end. -/
def Raised.worker {X : Type} : Raised X → Option X
  | .stopIteration => none
  | .exception e => some e

namespace Pipeline

variable {R T X : Type} {c : PipelineConfig R T X} {p : Pipeline R T X} {bs : List (Sampled R T)}

/-- What is on its way from the sampler to the iterator. -/
def pending (p : Pipeline R T X) : List (QueueItem (Sampled R T)) :=
  p.sampledQueue ++ p.sampler.held

/-- How far the sampler has come: `bs` are the batches on their way. -/
inductive Phase (c : PipelineConfig R T X) (p : Pipeline R T X) (bs : List (Sampled R T)) : Prop
  | sampling (hpend : p.pending = bs.map .batch) (hexh : p.exhausted = false)
      (hexc : p.workerExc = none) (hraised : p.raised = [])
      (hat : p.sampler = .calling ∨ (∃ e, p.sampler = .storing e ∧ c.next p.calls = .exception e) ∨
        ∃ b, p.sampler = .putting (.batch b))
  | ending (r : Raised X) (hpend : p.pending = bs.map .batch ++ [.sentinel])
      (hexh : p.exhausted = false) (hend : endOf (c.next p.calls) = some r)
      (hexc : p.workerExc = r.worker) (hraised : p.raised = [])
      (hat : p.sampler = .putting .sentinel ∨ p.sampler = .ended)
  | closed (r : Raised X) (hbs : bs = []) (hpend : p.pending = []) (hexh : p.exhausted = true)
      (hend : endOf (c.next p.calls) = some r) (hexc : p.workerExc = r.worker)
      (hraised : p.raised = [] ∧ r = .stopIteration ∨
        ∃ n, p.raised = r :: List.replicate n .stopIteration)
      (hat : p.sampler = .ended)

/-- Where the iterator's thread may stand. -/
def ConsumerOk (p : Pipeline R T X) : Prop :=
  match p.consumer with
  | .idle => True
  | .preparingNext => p.currentBatch.isSome = true ∧ p.prefetchQueue = [] ∧ p.exhausted = false
  | .notConstructed => p.currentBatch = none ∧ p.prefetchQueue = []
  | _ => p.currentBatch = none ∧ p.prefetchQueue = [] ∧ p.exhausted = false

/-- The batches sampled are those returned, those in the hands of the iterator and those still
    on their way, in this order, and the store has the requests of the submitted ones. -/
structure Inv (c : PipelineConfig R T X) (p : Pipeline R T X) (bs : List (Sampled R T)) :
    Prop where
  phase : Phase c p bs
  sampled : (((p.returned ++ p.consumer.handed ++ p.currentBatch.toList).map (·.batch) ++
    p.prefetchQueue.map (·.batch)) ++ bs).map some = (List.range p.calls).map (batchAt c)
  own : ∀ a ∈ p.returned ++ p.consumer.handed ++ p.currentBatch.toList, Own a
  store : p.store = p.prefetchQueue.map fun f => { rows := f.batch.inputNodes, polled := 0 }
  fresh : ∀ f ∈ p.prefetchQueue, f.polled = false
  one : p.prefetchQueue.length ≤ 1
  consumerOk : p.ConsumerOk
  quiet : p.raised ≠ [] →
    p.currentBatch = none ∧ p.prefetchQueue = [] ∧ p.consumer.handed = []

theorem new_inv : Inv c (new : Pipeline R T X) [] where
  phase := .sampling rfl rfl rfl rfl (.inl rfl)
  sampled := rfl
  own _ ha := absurd ha List.not_mem_nil
  store := rfl
  fresh _ hf := absurd hf List.not_mem_nil
  one := Nat.zero_le _
  consumerOk := ⟨rfl, rfl, rfl⟩
  quiet h := absurd rfl h

/-- Before the end of the stream nothing has been raised. -/
theorem Inv.raised_nil (h : Inv c p bs) (hexh : p.exhausted = false) : p.raised = [] := by
  cases h.phase with
  | sampling _ _ _ hraised => exact hraised
  | ending _ _ _ _ _ hraised => exact hraised
  | closed _ _ _ hexh' => rw [hexh] at hexh'; cases hexh'

/-! ## Delivery -/

/-- The batches returned, as the sampler has numbered them. -/
theorem Inv.inOrder (h : Inv c p bs) :
    p.returned.map (fun a => some a.batch) = (List.range p.returned.length).map (batchAt c) := by
  have hs := congrArg (List.take p.returned.length) h.sampled
  have hlen := congrArg List.length h.sampled
  simp only [List.map_append, List.length_append, List.length_map, List.length_range] at hlen
  rw [← List.map_take, ← List.map_take, List.take_range, Nat.min_eq_left (by omega),
    List.map_append, List.map_append, List.append_assoc, List.append_assoc, List.append_assoc,
    List.take_left' (List.length_map _), List.map_map] at hs
  exact hs

theorem Inv.delivers (h : Inv c p bs) : Delivers c p where
  inOrder := h.inOrder
  own a ha := h.own a (List.mem_append_left _ (List.mem_append_left _ ha))
  oneRequest := by
    rw [h.store, List.length_map]
    exact h.one
  ends := by
    intro r rest hr
    obtain ⟨hcur, hpre, hhand⟩ := h.quiet (by rw [hr]; exact List.cons_ne_nil _ _)
    cases h.phase with
    | sampling _ _ _ hraised => rw [hr] at hraised; cases hraised
    | ending _ _ _ _ _ hraised => rw [hr] at hraised; cases hraised
    | closed r' hbs _ _ hend _ hraised =>
      -- nothing is on its way any more
      have hlen := congrArg List.length h.sampled
      simp only [hcur, hpre, hhand, hbs, Option.toList_none, List.map_nil, List.append_nil,
        List.length_map, List.length_range] at hlen
      rcases hraised with ⟨hnil, -⟩ | ⟨n, hn⟩
      · rw [hr] at hnil
        cases hnil
      · rw [hr] at hn
        obtain ⟨rfl, rfl⟩ := List.cons.inj hn
        exact ⟨by rw [hlen]; exact hend, fun r' hr' => List.eq_of_mem_replicate hr'⟩
  unblocked := by
    intro hexh hblock
    have hok := h.consumerOk
    rw [ConsumerOk] at hok
    rw [Blocks] at hblock
    split at hblock
    · rename_i hc
      rw [hc] at hok
      rw [hok.2.2] at hexh
      cases hexh
    · rename_i hc
      rw [hc] at hok
      rw [hok.2.2] at hexh
      cases hexh
    · exact hblock
  served := by
    intro hblock hempty
    have hexh : p.exhausted = false := by
      have hok := h.consumerOk
      rw [ConsumerOk] at hok
      rw [Blocks] at hblock
      split at hblock
      · rename_i hc
        rw [hc] at hok
        exact hok.2.2
      · rename_i hc
        rw [hc] at hok
        exact hok.2.2
      · exact absurd hblock not_false
    have hroom : p.sampledQueue.length < c.maxsize := by
      rw [hempty, PipelineConfig.maxsize, List.length_nil]
      omega
    cases h.phase with
    | sampling _ _ _ _ hat =>
      rcases hat with hat | ⟨e, hat, -⟩ | ⟨b, hat⟩
      · rw [samplerStep, hat]
        dsimp only
        split <;> rfl
      · rw [samplerStep, hat]
        rfl
      · rw [samplerStep, hat]
        dsimp only
        rw [if_pos hroom]
        rfl
    | ending _ hpend _ _ _ _ hat =>
      rcases hat with hat | hat
      · rw [samplerStep, hat]
        dsimp only
        rw [if_pos hroom]
        rfl
      · -- the sentinel is on its way
        rw [pending, hempty, hat] at hpend
        exact absurd hpend.symm (List.append_ne_nil_of_right_ne_nil _ (List.cons_ne_nil _ _))
    | closed _ _ _ hexh' => rw [hexh] at hexh'; cases hexh'
  announced := by
    intro hended
    cases h.phase with
    | sampling _ _ _ _ hat =>
      rw [hended] at hat
      rcases hat with hat | ⟨e, hat, -⟩ | ⟨b, hat⟩ <;> cases hat
    | ending _ hpend =>
      right
      rw [pending, hended] at hpend
      have hqueue : p.sampledQueue = bs.map .batch ++ [.sentinel] := by
        rw [← hpend]
        exact (List.append_nil _).symm
      rw [hqueue]
      exact List.mem_append_right _ List.mem_cons_self
    | closed _ _ _ hexh => exact .inl hexh

/-! ## Steps of the sampler -/

/-- The iterator's side of the invariant, for a step of the sampler's. -/
theorem Inv.of_sampler {p' : Pipeline R T X} {bs' : List (Sampled R T)} (h : Inv c p bs)
    (hphase : Phase c p' bs') (hret : p'.returned = p.returned) (hcon : p'.consumer = p.consumer)
    (hcur : p'.currentBatch = p.currentBatch) (hpre : p'.prefetchQueue = p.prefetchQueue)
    (hstore : p'.store = p.store) (hexh : p'.exhausted = p.exhausted)
    (hraised : p'.raised = p.raised) {more : List (Sampled R T)} (hbs : bs' = bs ++ more)
    (hcalls : (List.range p'.calls).map (batchAt c) =
      (List.range p.calls).map (batchAt c) ++ more.map some) : Inv c p' bs' where
  phase := hphase
  sampled := by
    rw [hret, hcon, hcur, hpre, hcalls, ← h.sampled, hbs, ← List.map_append, ← List.append_assoc]
  own := by
    rw [hret, hcon, hcur]
    exact h.own
  store := by rw [hstore, hpre, h.store]
  fresh := by
    rw [hpre]
    exact h.fresh
  one := by
    rw [hpre]
    exact h.one
  consumerOk := by
    have hok := h.consumerOk
    rw [ConsumerOk] at hok ⊢
    rw [hcon, hcur, hpre, hexh]
    exact hok
  quiet := by
    rw [hraised, hcur, hpre, hcon]
    exact h.quiet

theorem batchAt_range_succ {n : Nat} {b : Sampled R T} (h : c.next n = .batch b) :
    (List.range (n + 1)).map (batchAt c) = (List.range n).map (batchAt c) ++ [b].map some := by
  rw [List.range_succ, List.map_append, List.map_singleton, batchAt, h]
  rfl

/-- A step of the sampler thread that does not end it without its sentinel. -/
theorem samplerStep_inv {p' : Pipeline R T X} (h : Inv c p bs) (hstep : p.samplerStep c = some p')
    (hok : ¬ Breaks c p .sampler) : ∃ bs', Inv c p' bs' := by
  cases h.phase with
  | sampling hpend hexh hexc hraised hat =>
    rcases hat with hat | ⟨e, hat, hnext⟩ | ⟨b, hat⟩
    · rw [pending, hat] at hpend
      replace hpend : p.sampledQueue ++ [] = bs.map .batch := hpend
      rw [List.append_nil] at hpend
      rw [samplerStep, hat] at hstep
      dsimp only at hstep
      cases hnext : c.next p.calls with
      | batch b =>
        rw [hnext] at hstep
        cases hstep
        refine ⟨bs ++ [b], h.of_sampler (.sampling ?_ hexh hexc hraised (.inr (.inr ⟨b, rfl⟩)))
          rfl rfl rfl rfl rfl rfl rfl rfl (batchAt_range_succ hnext)⟩
        show p.sampledQueue ++ [.batch b] = _
        rw [hpend, List.map_append, List.map_singleton]
      | stopIteration =>
        rw [hnext] at hstep
        cases hstep
        refine ⟨bs, h.of_sampler (.ending .stopIteration ?_ hexh (by rw [hnext]; rfl) hexc hraised
          (.inl rfl)) rfl rfl rfl rfl rfl rfl rfl (List.append_nil _).symm (List.append_nil _).symm⟩
        show p.sampledQueue ++ [.sentinel] = _
        rw [hpend]
      | exception e =>
        rw [hnext] at hstep
        cases hstep
        refine ⟨bs, h.of_sampler (.sampling ?_ hexh hexc hraised (.inr (.inl ⟨e, rfl, hnext⟩)))
          rfl rfl rfl rfl rfl rfl rfl (List.append_nil _).symm (List.append_nil _).symm⟩
        show p.sampledQueue ++ [] = _
        rw [List.append_nil, hpend]
      | baseException e => exact absurd ⟨hat, e, hnext⟩ hok
    · rw [pending, hat] at hpend
      replace hpend : p.sampledQueue ++ [] = bs.map .batch := hpend
      rw [List.append_nil] at hpend
      rw [samplerStep, hat] at hstep
      cases hstep
      refine ⟨bs, h.of_sampler (.ending (.exception e) ?_ hexh (by rw [hnext]; rfl) rfl hraised
        (.inl rfl)) rfl rfl rfl rfl rfl rfl rfl (List.append_nil _).symm (List.append_nil _).symm⟩
      show p.sampledQueue ++ [.sentinel] = _
      rw [hpend]
    · rw [pending, hat] at hpend
      rw [samplerStep, hat] at hstep
      dsimp only at hstep
      split at hstep
      · cases hstep
        refine ⟨bs, h.of_sampler (.sampling ?_ hexh hexc hraised (.inl rfl))
          rfl rfl rfl rfl rfl rfl rfl (List.append_nil _).symm (List.append_nil _).symm⟩
        show (p.sampledQueue ++ [.batch b]) ++ [] = _
        rw [List.append_nil]
        exact hpend
      · cases hstep
  | ending r hpend hexh hend hexc hraised hat =>
    rcases hat with hat | hat
    · rw [pending, hat] at hpend
      rw [samplerStep, hat] at hstep
      dsimp only at hstep
      split at hstep
      · cases hstep
        refine ⟨bs, h.of_sampler (.ending r ?_ hexh hend hexc hraised (.inr rfl))
          rfl rfl rfl rfl rfl rfl rfl (List.append_nil _).symm (List.append_nil _).symm⟩
        show (p.sampledQueue ++ [.sentinel]) ++ [] = _
        rw [List.append_nil]
        exact hpend
      · cases hstep
    · rw [samplerStep, hat] at hstep
      cases hstep
  | closed _ _ _ _ _ _ _ hat =>
    rw [samplerStep, hat] at hstep
    cases hstep

/-! ## What the iterator takes off the queue -/

theorem Phase.congr {p' : Pipeline R T X} (h : Phase c p bs)
    (hqueue : p'.sampledQueue = p.sampledQueue) (hsampler : p'.sampler = p.sampler)
    (hcalls : p'.calls = p.calls) (hexh : p'.exhausted = p.exhausted)
    (hexc : p'.workerExc = p.workerExc) (hraised : p'.raised = p.raised) : Phase c p' bs := by
  have hpending : p'.pending = p.pending := by rw [pending, hqueue, hsampler, pending]
  cases h with
  | sampling hpend hexh' hexc' hraised' hat =>
    refine .sampling (hpending.trans hpend) (hexh.trans hexh') (hexc.trans hexc')
      (hraised.trans hraised') ?_
    rw [hsampler, hcalls]
    exact hat
  | ending r hpend hexh' hend hexc' hraised' hat =>
    refine .ending r (hpending.trans hpend) (hexh.trans hexh') ?_ (hexc.trans hexc')
      (hraised.trans hraised') ?_
    · rw [hcalls]
      exact hend
    · rw [hsampler]
      exact hat
  | closed r hbs hpend hexh' hend hexc' hraised' hat =>
    refine .closed r hbs (hpending.trans hpend) (hexh.trans hexh') ?_ (hexc.trans hexc') ?_
      (hsampler.trans hat)
    · rw [hcalls]
      exact hend
    · rw [hraised]
      exact hraised'

/-- A batch at the front of the queue is the first of those on their way. -/
theorem Phase.front_batch {b : Sampled R T} {rest : List (QueueItem (Sampled R T))}
    (h : Phase c p bs) (hqueue : p.sampledQueue = .batch b :: rest) :
    ∃ bs', bs = b :: bs' ∧ Phase c { p with sampledQueue := rest } bs' ∧ p.exhausted = false := by
  have hfront : p.pending = .batch b :: { p with sampledQueue := rest }.pending := by
    rw [pending, hqueue]
    rfl
  cases h with
  | sampling hpend hexh hexc hraised hat =>
    rw [hfront] at hpend
    cases bs with
    | nil => cases hpend
    | cons b' bs' =>
      obtain ⟨hb, hrest⟩ := List.cons.inj hpend
      cases hb
      exact ⟨bs', rfl, .sampling hrest hexh hexc hraised hat, hexh⟩
  | ending r hpend hexh hend hexc hraised hat =>
    rw [hfront] at hpend
    cases bs with
    | nil =>
      obtain ⟨hb, -⟩ := List.cons.inj hpend
      cases hb
    | cons b' bs' =>
      obtain ⟨hb, hrest⟩ := List.cons.inj hpend
      cases hb
      exact ⟨bs', rfl, .ending r hrest hexh hend hexc hraised hat, hexh⟩
  | closed _ _ hpend =>
    rw [hfront] at hpend
    cases hpend

/-- The sentinel at the front of the queue is all there is. -/
theorem Phase.front_sentinel {rest : List (QueueItem (Sampled R T))} (h : Phase c p bs)
    (hqueue : p.sampledQueue = .sentinel :: rest) :
    bs = [] ∧ rest = [] ∧ p.sampler = .ended ∧ p.exhausted = false ∧ p.raised = [] ∧
      ∃ r, endOf (c.next p.calls) = some r ∧ p.workerExc = r.worker := by
  have hfront : p.pending = .sentinel :: (rest ++ p.sampler.held) := by
    rw [pending, hqueue]
    rfl
  cases h with
  | sampling hpend =>
    rw [hfront] at hpend
    cases bs with
    | nil => cases hpend
    | cons b bs' =>
      obtain ⟨hb, -⟩ := List.cons.inj hpend
      cases hb
  | ending r hpend hexh hend hexc hraised hat =>
    rw [hfront] at hpend
    cases bs with
    | nil =>
      obtain ⟨-, hnil⟩ := List.cons.inj hpend
      obtain ⟨hrest, hheld⟩ := List.append_eq_nil_iff.mp hnil
      rcases hat with hat | hat
      · rw [hat] at hheld
        cases hheld
      · exact ⟨rfl, hrest, hat, hexh, hraised, r, hend, hexc⟩
    | cons b bs' =>
      obtain ⟨hb, -⟩ := List.cons.inj hpend
      cases hb
  | closed _ _ hpend =>
    rw [hfront] at hpend
    cases hpend

theorem consumerOk_idle (h : p.consumer = .idle) : p.ConsumerOk := by
  rw [ConsumerOk, h]
  trivial

/-- The iterator's thread stands somewhere else, with the same batch in hand. -/
theorem Inv.stand (h : Inv c p bs) {k : ConsumerAt (Fetched R T)}
    (hhand : k.handed = p.consumer.handed) (hok : ConsumerOk { p with consumer := k }) :
    Inv c { p with consumer := k } bs where
  phase := h.phase.congr rfl rfl rfl rfl rfl rfl
  sampled := by
    show (((p.returned ++ k.handed ++ p.currentBatch.toList).map (·.batch) ++ _) ++ bs).map some = _
    rw [hhand]
    exact h.sampled
  own := by
    show ∀ a ∈ p.returned ++ k.handed ++ p.currentBatch.toList, Own a
    rw [hhand]
    exact h.own
  store := h.store
  fresh := h.fresh
  one := h.one
  consumerOk := hok
  quiet hr := by
    show _ ∧ _ ∧ k.handed = []
    rw [hhand]
    exact h.quiet hr

/-- The iterator takes a batch and submits it. -/
theorem Inv.submit {b : Sampled R T} {rest : List (QueueItem (Sampled R T))} (h : Inv c p bs)
    (hidle : p.consumer = .idle) (hqueue : p.sampledQueue = .batch b :: rest)
    (hpre : p.prefetchQueue = []) :
    ∃ bs', Inv c ({ p with sampledQueue := rest }.submitBatch b) bs' := by
  obtain ⟨bs', hbs, hphase, hexh⟩ := h.phase.front_batch hqueue
  refine ⟨bs', hphase.congr rfl rfl rfl rfl rfl rfl, ?_, h.own, ?_, ?_, ?_, ?_, ?_⟩
  · have hs := h.sampled
    rw [hpre, hbs] at hs
    show (((p.returned ++ p.consumer.handed ++ p.currentBatch.toList).map (·.batch) ++
      (p.prefetchQueue ++ [Prefetch.mk b false]).map (·.batch)) ++ bs').map some =
      (List.range p.calls).map (batchAt c)
    rw [← hs, hpre]
    simp only [List.nil_append, List.map_cons, List.map_nil, List.append_assoc, List.append_nil,
      List.singleton_append]
  · show p.store ++ [Submission.mk b.inputNodes 0] =
      (p.prefetchQueue ++ [Prefetch.mk b false]).map fun f => Submission.mk f.batch.inputNodes 0
    rw [h.store, List.map_append, List.map_singleton]
  · show ∀ f ∈ p.prefetchQueue ++ [Prefetch.mk b false], f.polled = false
    rw [hpre]
    intro f hf
    rw [List.mem_singleton.mp hf]
  · show (p.prefetchQueue ++ [Prefetch.mk b false]).length ≤ 1
    rw [hpre]
    exact Nat.le_refl 1
  · exact consumerOk_idle hidle
  · intro hr
    exact absurd (h.raised_nil hexh) hr

variable [DecidableEq R]

/-- A request that has been polled for all its rows gives each of them its feature. -/
theorem getFeatureLight_own (own : List R) {polled : Nat} (hpoll : own.length ≤ polled)
    (rest : PlainStore R) :
    PlainStore.getFeatureLight own ({ rows := own, polled } :: rest) = (own.map some, rest) := by
  rw [PlainStore.getFeatureLight]
  refine Prod.ext ?_ rfl
  apply List.ext_getElem
  · rw [List.length_mapIdx, List.length_map]
  · intro row h1 h2
    rw [List.length_mapIdx] at h1
    have hrow : row < polled := by omega
    rw [List.getElem_mapIdx, List.getElem_map, if_pos ⟨hrow, List.getElem?_eq_getElem h1⟩]

/-- The only request is polled and taken, and its batch has its own features. -/
theorem consumeFrontPrefetch_eq {f : Prefetch (Sampled R T)} (hpre : p.prefetchQueue = [f])
    (hfresh : f.polled = false) (hstore : p.store = [{ rows := f.batch.inputNodes, polled := 0 }]) :
    p.consumeFrontPrefetch = { p with
      prefetchQueue := []
      store := []
      currentBatch := some { batch := f.batch, features := f.batch.inputNodes.map some } } := by
  have hpoll : p.pollFrontPrefetch = { p with
      store := [{ rows := f.batch.inputNodes, polled := f.batch.inputNodes.length }]
      prefetchQueue := [{ f with polled := true }] } := by
    rw [pollFrontPrefetch, hpre]
    dsimp only
    rw [hfresh, if_neg Bool.false_ne_true, hstore, PlainStore.singlePagePoll, Nat.zero_max]
  rw [consumeFrontPrefetch, hpoll]
  dsimp only
  rw [getFeatureLight_own _ (Nat.le_refl _)]

/-- Consuming the request that is submitted. -/
theorem Inv.consume (h : Inv c p bs) (hidle : p.consumer = .idle) (hpre : p.prefetchQueue ≠ [])
    (hcur : p.currentBatch = none) :
    ∃ a, p.consumeFrontPrefetch.currentBatch = some a ∧
      p.consumeFrontPrefetch.prefetchQueue = [] ∧
      p.consumeFrontPrefetch.exhausted = p.exhausted ∧
      p.consumeFrontPrefetch.consumer = .idle ∧ Inv c p.consumeFrontPrefetch bs := by
  obtain ⟨f, hf⟩ : ∃ f, p.prefetchQueue = [f] :=
    List.length_eq_one_iff.mp (Nat.le_antisymm h.one (List.length_pos_iff.mpr hpre))
  have hfresh := h.fresh f (by rw [hf]; exact List.mem_cons_self)
  have hstore := h.store
  rw [hf, List.map_singleton] at hstore
  rw [consumeFrontPrefetch_eq hf hfresh hstore]
  refine ⟨_, rfl, rfl, rfl, hidle, h.phase.congr rfl rfl rfl rfl rfl rfl, ?_, ?_, rfl, ?_, ?_, ?_, ?_⟩
  · have hs := h.sampled
    rw [hf, hcur, hidle] at hs
    show (((p.returned ++ p.consumer.handed ++ [_]).map _ ++ []) ++ bs).map some =
      (List.range p.calls).map (batchAt c)
    rw [← hs, hidle]
    simp only [ConsumerAt.handed, Option.toList_none, List.append_nil, List.map_append,
      List.map_cons, List.map_nil]
  · intro a ha
    rcases List.mem_append.mp ha with ha | ha
    · exact h.own a (List.mem_append_left _ ha)
    · rw [List.mem_singleton.mp ha]
      rfl
  · exact fun _ hf' => absurd hf' List.not_mem_nil
  · exact Nat.zero_le _
  · exact consumerOk_idle hidle
  · intro hr
    exact absurd (h.quiet hr).2.1 hpre

omit [DecidableEq R] in
/-- The batch in hand, or the current one, is returned. -/
theorem Inv.return {a : Fetched R T} (h : Inv c p bs)
    (ha : p.consumer.handed ++ p.currentBatch.toList = [a]) :
    Inv c { p with returned := p.returned ++ [a], currentBatch := none, consumer := .idle } bs where
  phase := h.phase.congr rfl rfl rfl rfl rfl rfl
  sampled := by
    have hs := h.sampled
    rw [List.append_assoc p.returned, ha] at hs
    rw [← hs]
    simp only [ConsumerAt.handed, Option.toList_none, List.append_nil]
  own := by
    have hown := h.own
    rw [List.append_assoc p.returned, ha] at hown
    simp only [ConsumerAt.handed, Option.toList_none, List.append_nil]
    exact hown
  store := h.store
  fresh := h.fresh
  one := h.one
  consumerOk := consumerOk_idle rfl
  quiet hr := ⟨rfl, (h.quiet hr).2.1, rfl⟩

omit [DecidableEq R] in
/-- The current batch is handed out. -/
theorem Inv.handOut {a : Fetched R T} (h : Inv c p bs) (hidle : p.consumer = .idle)
    (hcur : p.currentBatch = some a) : Inv c p.handOut bs := by
  rw [Pipeline.handOut, hcur]
  dsimp only
  split
  · rename_i hmay
    rw [maySubmit, Bool.not_eq_true', Bool.or_eq_false_iff, Bool.not_eq_false',
      List.isEmpty_iff] at hmay
    obtain ⟨hexh, hpre⟩ := hmay
    refine ⟨h.phase.congr rfl rfl rfl rfl rfl rfl, ?_, ?_, h.store, h.fresh, h.one,
      ⟨rfl, hpre, hexh⟩, fun hr => absurd (h.raised_nil hexh) hr⟩
    · have hs := h.sampled
      rw [hidle, hcur] at hs
      rw [← hs]
      simp only [ConsumerAt.handed, Option.toList_none, Option.toList_some, List.append_nil]
    · have hown := h.own
      rw [hidle, hcur] at hown
      simp only [ConsumerAt.handed, Option.toList_none, Option.toList_some, List.append_nil]
        at hown ⊢
      exact hown
  · apply h.return
    rw [hidle, hcur]
    rfl

omit [DecidableEq R] in
/-- Once the end has been announced, calls raise `StopIteration`. -/
theorem Inv.raiseStop (h : Inv c p bs) (hexh : p.exhausted = true) (hidle : p.consumer = .idle)
    (hcur : p.currentBatch = none) (hpre : p.prefetchQueue = []) :
    Inv c (p.raise .stopIteration) bs := by
  refine ⟨?_, ?_, ?_, h.store, h.fresh, h.one, consumerOk_idle rfl, fun _ => ⟨hcur, hpre, rfl⟩⟩
  · cases h.phase with
    | sampling _ hexh' => rw [hexh] at hexh'; cases hexh'
    | ending _ _ hexh' => rw [hexh] at hexh'; cases hexh'
    | closed r hbs hpend _ hend hexc hraised hat =>
      refine .closed r hbs hpend hexh hend hexc (.inr ?_) hat
      rcases hraised with ⟨hnil, rfl⟩ | ⟨n, hn⟩
      · refine ⟨0, ?_⟩
        show p.raised ++ [.stopIteration] = _
        rw [hnil]
        rfl
      · refine ⟨n + 1, ?_⟩
        show p.raised ++ [.stopIteration] = _
        rw [hn, List.cons_append, List.replicate_succ']
  · have hs := h.sampled
    rw [hidle] at hs
    exact hs
  · have hown := h.own
    rw [hidle] at hown
    exact hown

omit [DecidableEq R] in
/-- The sentinel of a sampler that has returned. -/
theorem Inv.stop {rest : List (QueueItem (Sampled R T))} (h : Inv c p bs)
    (hidle : p.consumer = .idle) (hqueue : p.sampledQueue = .sentinel :: rest)
    (hexc : p.workerExc = none) :
    Inv c { p with sampledQueue := rest, exhausted := true } bs := by
  obtain ⟨rfl, rfl, hat, -, hraised, r, hend, hr⟩ := h.phase.front_sentinel hqueue
  have hstop : r = .stopIteration := by
    cases r with
    | stopIteration => rfl
    | exception e => rw [hexc] at hr; cases hr
  refine ⟨.closed r rfl ?_ rfl hend hr (.inl ⟨hraised, hstop⟩) hat, h.sampled, h.own, h.store, h.fresh,
    h.one, consumerOk_idle hidle, fun hne => absurd hraised hne⟩
  show [] ++ p.sampler.held = []
  rw [hat]
  rfl

omit [DecidableEq R] in
/-- The sentinel of a sampler that has failed, while no batch waits to be returned. -/
theorem Inv.fail {e : X} {rest : List (QueueItem (Sampled R T))} (h : Inv c p bs)
    (hhand : p.consumer.handed = []) (hcur : p.currentBatch = none) (hpre : p.prefetchQueue = [])
    (hqueue : p.sampledQueue = .sentinel :: rest) (hexc : p.workerExc = some e) :
    Inv c ({ p with sampledQueue := rest, exhausted := true }.raise (.exception e)) bs := by
  obtain ⟨rfl, rfl, hat, -, hraised, r, hend, hr⟩ := h.phase.front_sentinel hqueue
  have hfail : r = .exception e := by
    cases r with
    | stopIteration => rw [hexc] at hr; cases hr
    | exception e' =>
      rw [hexc] at hr
      cases hr
      rfl
  refine ⟨.closed r rfl ?_ rfl hend hr (.inr ⟨0, ?_⟩) hat, ?_, ?_, h.store, h.fresh, h.one,
    consumerOk_idle rfl, fun _ => ⟨hcur, hpre, rfl⟩⟩
  · show [] ++ p.sampler.held = []
    rw [hat]
    rfl
  · show p.raised ++ [.exception e] = _
    rw [hraised, hfail]
    rfl
  · have hs := h.sampled
    rw [hhand] at hs
    exact hs
  · have hown := h.own
    rw [hhand] at hown
    exact hown

/-- A call of `__next__` up to its first read. -/
theorem Inv.callNext (h : Inv c p bs) (hidle : p.consumer = .idle) : Inv c p.callNext bs := by
  rw [Pipeline.callNext]
  split
  · rename_i hsome
    obtain ⟨a, ha⟩ := Option.isSome_iff_exists.mp hsome
    exact h.handOut hidle ha
  rename_i hnone
  have hcur : p.currentBatch = none := Option.not_isSome_iff_eq_none.mp hnone
  split
  · rename_i hempty
    have hpre := List.isEmpty_iff.mp hempty
    by_cases hexh : p.exhausted = true
    · rw [if_neg (by rw [maySubmit, hexh, Bool.true_or]; exact Bool.false_ne_true)]
      exact h.raiseStop hexh hidle hcur hpre
    · rw [Bool.not_eq_true] at hexh
      rw [if_pos (by rw [maySubmit, hexh, hpre]; rfl)]
      exact h.stand (k := .waiting) (by rw [hidle]; rfl) ⟨hcur, hpre, hexh⟩
  · rename_i hne
    obtain ⟨a, ha, -, -, hidle', hinv⟩ := h.consume hidle
      (fun hpre => hne (List.isEmpty_iff.mpr hpre)) hcur
    exact hinv.handOut hidle' ha

/-- A batch that is submitted while no other is gets consumed with its own features. -/
theorem submitConsume_eq (hpre : p.prefetchQueue = []) (hstore : p.store = []) (b : Sampled R T) :
    (p.submitBatch b).consumeFrontPrefetch = { p with
      prefetchQueue := []
      store := []
      currentBatch := some { batch := b, features := b.inputNodes.map some } } := by
  have hfront : (p.submitBatch b).prefetchQueue = [Prefetch.mk b false] := by
    rw [submitBatch, hpre]
    rfl
  have hrows : (p.submitBatch b).store = [Submission.mk b.inputNodes 0] := by
    rw [submitBatch, hstore]
    rfl
  rw [consumeFrontPrefetch_eq hfront rfl hrows]
  rfl

/-- Taking a batch while none is there: it is submitted and consumed at once. -/
theorem Inv.submitConsume {b : Sampled R T} {rest : List (QueueItem (Sampled R T))}
    (h : Inv c p bs) (hidle : p.consumer = .idle) (hqueue : p.sampledQueue = .batch b :: rest)
    (hcur : p.currentBatch = none) (hpre : p.prefetchQueue = []) (hstore : p.store = []) :
    ∃ bs', Inv c { p with
      sampledQueue := rest
      prefetchQueue := []
      store := []
      currentBatch := some { batch := b, features := b.inputNodes.map some } } bs' := by
  obtain ⟨bs', hinv⟩ := h.submit hidle hqueue hpre
  have hne : ({ p with sampledQueue := rest }.submitBatch b).prefetchQueue ≠ [] := by
    show p.prefetchQueue ++ [Prefetch.mk b false] ≠ []
    rw [hpre]
    exact List.cons_ne_nil _ _
  obtain ⟨-, -, -, -, -, hinv'⟩ := hinv.consume hidle hne hcur
  have heq := submitConsume_eq (p := { p with sampledQueue := rest }) hpre hstore b
  rw [heq] at hinv'
  exact ⟨bs', hinv'⟩

omit [DecidableEq R] in
theorem handOut_stand (p : Pipeline R T X) (k : ConsumerAt (Fetched R T)) :
    { p with consumer := k }.handOut = p.handOut := by
  obtain ⟨calls, sampler, queue, exc, exhausted, prefetch, current, store, consumer, returned,
    raised⟩ := p
  cases current with
  | none => rfl
  | some a => rfl

omit [DecidableEq R] in
theorem gotItem_stop (hexc : p.workerExc = none) :
    p.gotItem .sentinel = (.ok none, { p with exhausted := true }) := by
  rw [gotItem, hexc]

omit [DecidableEq R] in
theorem gotItem_fail {e : X} (hexc : p.workerExc = some e) :
    p.gotItem .sentinel = (.error e, { p with exhausted := true }) := by
  rw [gotItem, hexc]

omit [DecidableEq R] in
/-- Without a request submitted the store has none. -/
theorem Inv.store_nil (h : Inv c p bs) (hpre : p.prefetchQueue = []) : p.store = [] := by
  rw [h.store, hpre, List.map_nil]

/-- The constructor's blocking read. -/
theorem Inv.first {item : QueueItem (Sampled R T)} {rest : List (QueueItem (Sampled R T))}
    (h : Inv c p bs) (hc : p.consumer = .preparingFirst) (hqueue : p.sampledQueue = item :: rest) :
    ∃ bs', Inv c ({ p with sampledQueue := rest }.gotFirst item) bs' := by
  have hok := h.consumerOk
  rw [ConsumerOk, hc] at hok
  obtain ⟨hcur, hpre, hexh⟩ := hok
  have hidle : Inv c { p with consumer := .idle } bs :=
    h.stand (by rw [hc]; rfl) (consumerOk_idle rfl)
  cases item with
  | batch b =>
    obtain ⟨bs', hinv⟩ := hidle.submitConsume rfl hqueue hcur hpre (h.store_nil hpre)
    refine ⟨bs', ?_⟩
    rw [gotFirst, gotItem]
    dsimp only
    rw [submitConsume_eq (p := { p with sampledQueue := rest }) hpre (h.store_nil hpre) b,
      if_pos (by rw [maySubmit, hexh]; rfl)]
    exact hinv.stand (k := .preparingNext) rfl ⟨rfl, rfl, hexh⟩
  | sentinel =>
    rw [gotFirst]
    rcases Option.eq_none_or_eq_some p.workerExc with hexc | ⟨e, hexc⟩
    · rw [gotItem_stop (p := { p with sampledQueue := rest }) hexc]
      have hclear : ({ p with currentBatch := none, consumer := .idle } : Pipeline R T X) =
          { p with consumer := .idle } := by rw [← hcur]
      rw [← hclear] at hidle
      exact ⟨bs, hidle.stop rfl hqueue hexc⟩
    · rw [gotItem_fail (p := { p with sampledQueue := rest }) hexc]
      have hinv := hidle.fail rfl hcur hpre hqueue hexc
      exact ⟨bs, hinv.stand (k := .notConstructed) rfl ⟨hcur, hpre⟩⟩

/-- The blocking read of `__next__`. -/
theorem Inv.wait {item : QueueItem (Sampled R T)} {rest : List (QueueItem (Sampled R T))}
    (h : Inv c p bs) (hc : p.consumer = .waiting) (hqueue : p.sampledQueue = item :: rest) :
    ∃ bs', Inv c ({ p with sampledQueue := rest }.gotWaiting item) bs' := by
  have hok := h.consumerOk
  rw [ConsumerOk, hc] at hok
  obtain ⟨hcur, hpre, hexh⟩ := hok
  have hidle : Inv c { p with consumer := .idle } bs :=
    h.stand (by rw [hc]; rfl) (consumerOk_idle rfl)
  cases item with
  | batch b =>
    obtain ⟨bs', hinv⟩ := hidle.submitConsume rfl hqueue hcur hpre (h.store_nil hpre)
    refine ⟨bs', ?_⟩
    rw [gotWaiting, gotItem]
    dsimp only
    rw [submitConsume_eq (p := { p with sampledQueue := rest }) hpre (h.store_nil hpre) b,
      ← handOut_stand _ .idle]
    exact hinv.handOut rfl rfl
  | sentinel =>
    rw [gotWaiting]
    rcases Option.eq_none_or_eq_some p.workerExc with hexc | ⟨e, hexc⟩
    · rw [gotItem_stop (p := { p with sampledQueue := rest }) hexc]
      exact ⟨bs, (hidle.stop rfl hqueue hexc).raiseStop rfl rfl hcur hpre⟩
    · rw [gotItem_fail (p := { p with sampledQueue := rest }) hexc]
      exact ⟨bs, hidle.fail rfl hcur hpre hqueue hexc⟩

omit [DecidableEq R] in
/-- The constructor's non-blocking read finds something. -/
theorem Inv.second {item : QueueItem (Sampled R T)} {rest : List (QueueItem (Sampled R T))}
    (h : Inv c p bs) (hc : p.consumer = .preparingNext) (hqueue : p.sampledQueue = item :: rest)
    (hexc : item = .sentinel → p.workerExc = none) :
    ∃ bs', Inv c ({ p with sampledQueue := rest }.gotSecond item) bs' := by
  have hok := h.consumerOk
  rw [ConsumerOk, hc] at hok
  have hidle : Inv c { p with consumer := .idle } bs :=
    h.stand (by rw [hc]; rfl) (consumerOk_idle rfl)
  cases item with
  | batch b => exact hidle.submit rfl hqueue hok.2.1
  | sentinel =>
    rw [gotSecond, gotItem_stop (p := { p with sampledQueue := rest }) (hexc rfl)]
    exact ⟨bs, hidle.stop rfl hqueue (hexc rfl)⟩

omit [DecidableEq R] in
/-- The batch in hand is returned. -/
theorem Inv.returnBatch {a : Fetched R T} (h : Inv c p bs) (hc : p.consumer = .returning a) :
    Inv c (p.returnBatch a) bs := by
  have hok := h.consumerOk
  rw [ConsumerOk, hc] at hok
  have hret := h.return (a := a) (by rw [hc, hok.1]; rfl)
  rw [← hok.1] at hret
  exact hret

omit [DecidableEq R] in
/-- The non-blocking read of `__next__` finds something. -/
theorem Inv.returning {a : Fetched R T} {item : QueueItem (Sampled R T)}
    {rest : List (QueueItem (Sampled R T))} (h : Inv c p bs) (hc : p.consumer = .returning a)
    (hqueue : p.sampledQueue = item :: rest) (hexc : item = .sentinel → p.workerExc = none) :
    ∃ bs', Inv c ({ p with sampledQueue := rest }.gotReturning a item) bs' := by
  have hok := h.consumerOk
  rw [ConsumerOk, hc] at hok
  have hret := h.returnBatch hc
  cases item with
  | batch b => exact hret.submit rfl hqueue hok.2.1
  | sentinel =>
    rw [gotReturning, gotItem_stop (p := { p with sampledQueue := rest }) (hexc rfl)]
    exact ⟨bs, hret.stop rfl hqueue (hexc rfl)⟩

/-- A step of the iterator's thread that does not meet the failure of the sampler while a
    batch waits to be returned. -/
theorem consumerStep_inv {p' : Pipeline R T X} (h : Inv c p bs) (hstep : p.consumerStep = some p')
    (hok : ¬ Breaks c p .consumer) : ∃ bs', Inv c p' bs' := by
  rw [consumerStep] at hstep
  split at hstep
  · rename_i hc
    cases hstep
    exact ⟨bs, h.callNext hc⟩
  · cases hstep
  · cases hstep
  · rename_i item rest hc hqueue
    cases hstep
    exact h.first hc hqueue
  · rename_i hc hqueue
    cases hstep
    exact ⟨bs, h.stand (k := .idle) (by rw [hc]; rfl) (consumerOk_idle rfl)⟩
  · rename_i item rest hc hqueue
    cases hstep
    refine h.second hc hqueue fun hitem => ?_
    by_contra hne
    exact hok ⟨.inl hc, by rw [hqueue, hitem]; rfl, hne⟩
  · cases hstep
  · rename_i item rest hc hqueue
    cases hstep
    exact h.wait hc hqueue
  · rename_i batch hc hqueue
    cases hstep
    exact ⟨bs, h.returnBatch hc⟩
  · rename_i batch item rest hc hqueue
    cases hstep
    refine h.returning hc hqueue fun hitem => ?_
    by_contra hne
    exact hok ⟨.inr ⟨batch, hc⟩, by rw [hqueue, hitem]; rfl, hne⟩

/-! ## Every run -/

theorem step_inv {t : Thread} {p' : Pipeline R T X} (h : Inv c p bs)
    (hstep : step c p t = some p') (hok : ¬ Breaks c p t) : ∃ bs', Inv c p' bs' := by
  cases t with
  | sampler => exact samplerStep_inv h hstep hok
  | consumer => exact consumerStep_inv h hstep hok

/-- After a step the pipeline is not made for, its promise is broken. -/
theorem breaks_not_delivers {t : Thread} (h : Inv c p bs) (hbreak : Breaks c p t) :
    ∃ p', step c p t = some p' ∧ ¬ Delivers c p' := by
  cases t with
  | sampler =>
    obtain ⟨hat, e, hnext⟩ := hbreak
    refine ⟨{ p with sampler := .ended }, ?_, fun hd => ?_⟩
    · rw [step, samplerStep, hat]
      dsimp only
      rw [hnext]
    -- nothing on its way is the sentinel
    · have hphase := h.phase
      cases hphase with
      | sampling hpend hexh =>
        rw [pending, hat] at hpend
        rcases hd.announced rfl with hexh' | hmem
        · rw [show p.exhausted = true from hexh'] at hexh
          cases hexh
        · have hin : QueueItem.sentinel ∈ bs.map QueueItem.batch := by
            rw [← hpend]
            exact List.mem_append_left _ hmem
          obtain ⟨b, -, hb⟩ := List.mem_map.mp hin
          cases hb
      | ending _ _ _ _ _ _ hat' =>
        rw [hat] at hat'
        rcases hat' with hat' | hat' <;> cases hat'
      | closed _ _ _ _ _ _ _ hat' =>
        rw [hat] at hat'
        cases hat'
  | consumer =>
    obtain ⟨hc, hhead, hexc⟩ := hbreak
    obtain ⟨e, he⟩ := Option.ne_none_iff_exists'.mp hexc
    obtain ⟨rest, hqueue⟩ : ∃ rest, p.sampledQueue = .sentinel :: rest := by
      cases hq : p.sampledQueue with
      | nil => rw [hq] at hhead; cases hhead
      | cons item rest =>
        rw [hq] at hhead
        cases hhead
        exact ⟨rest, rfl⟩
    obtain ⟨rfl, -, -, -, hraised, -⟩ := h.phase.front_sentinel hqueue
    -- the batch in the hands of the iterator has not been returned
    have hlost : p.returned.length < p.calls := by
      have hlen := congrArg List.length h.sampled
      simp only [List.map_append, List.length_append, List.length_map, List.length_range,
        List.length_nil] at hlen
      have hhands : 0 < p.consumer.handed.length + p.currentBatch.toList.length := by
        rcases hc with hc | ⟨a, hc⟩
        · have hok := h.consumerOk
          rw [ConsumerOk, hc] at hok
          obtain ⟨a, ha⟩ := Option.isSome_iff_exists.mp hok.1
          rw [ha]
          exact Nat.lt_add_left _ Nat.one_pos
        · rw [hc]
          exact Nat.lt_add_right _ Nat.one_pos
      omega
    have hnext : endOf (c.next p.returned.length) = none := by
      have hat := congrArg (fun l => l[p.returned.length]?) h.sampled
      simp only [List.getElem?_map, List.getElem?_range hlost, Option.map_some] at hat
      rw [batchAt] at hat
      split at hat
      · rename_i b hb
        rw [hb]
        rfl
      · obtain ⟨b, -, hb⟩ := Option.map_eq_some_iff.mp hat
        cases hb
    have hbroken : ∀ p' : Pipeline R T X, p'.returned = p.returned →
        p'.raised = p.raised ++ [.exception e] → ¬ Delivers c p' := by
      intro p' hret hrai hd
      have hend := (hd.ends (.exception e) [] (by rw [hrai, hraised]; rfl)).1
      rw [hret, hnext] at hend
      cases hend
    rcases hc with hc | ⟨a, hc⟩
    · refine ⟨{ p with sampledQueue := rest }.gotSecond .sentinel, ?_, ?_⟩
      · rw [step, consumerStep, hc, hqueue]
      · rw [gotSecond, gotItem_fail (p := { p with sampledQueue := rest }) he]
        exact hbroken _ rfl rfl
    · refine ⟨{ p with sampledQueue := rest }.gotReturning a .sentinel, ?_, ?_⟩
      · rw [step, consumerStep, hc, hqueue]
      · rw [gotReturning, gotItem_fail (p := { p with sampledQueue := rest }) he]
        exact hbroken _ rfl rfl

/-- Whatever the sampler, the size of the queue and the order of the steps, the pipeline
    delivers in every state of a run exactly if no step of the run is one it is not made for. -/
theorem run_delivers_iff (c : PipelineConfig R T X) (ts : List Thread) :
    (∀ k p, Lib.runActs (step c) new (ts.take k) = some p → Delivers c p) ↔
      Lib.runOk (step c) (fun p t => ¬ Breaks c p t) new ts := by
  refine Lib.runActs_good_iff (I := fun p => ∃ bs, Inv c p bs) ?_ ?_ ?_ ?_ ts ⟨[], new_inv⟩
  · rintro p ⟨bs, h⟩
    exact h.delivers
  · rintro p t ⟨bs, h⟩ hnone hbreak
    -- a step that breaks the delivery can be made
    obtain ⟨p', hstep, -⟩ := breaks_not_delivers h hbreak
    rw [hnone] at hstep
    cases hstep
  · rintro p t p' ⟨bs, h⟩ hstep hok
    exact step_inv h hstep hok
  · rintro p t p' ⟨bs, h⟩ hstep hbreak
    obtain ⟨q, hq, hnot⟩ := breaks_not_delivers h (not_not.mp hbreak)
    rw [Option.some.inj (hstep.symm.trans hq)]
    exact hnot

/-! ### A sampler that fails after its first batch -/

/-- The sampler returns one batch and raises then. -/
def failsAfterOne : PipelineConfig Nat Nat String where
  next
    | 0 => .batch { isTuple := true, inputNodes := [7, 9], rest := [] }
    | _ => .exception "sampling failed"
  sampledQueueSize := 1

/-- The constructor waits for the batch, and looks for the next one when the sampler has failed:
    it raises, and the batch is never returned. -/
theorem failsAfterOne_loses_batch :
    ¬ ∀ (c : PipelineConfig Nat Nat String) (ts : List Thread) (k : Nat)
      (p : Pipeline Nat Nat String),
      Lib.runActs (step c) new (ts.take k) = some p → Delivers c p := by
  intro hall
  have hd := hall failsAfterOne [.sampler, .sampler, .consumer, .sampler, .sampler, .sampler,
    .consumer] 7 _ rfl
  have hend := (hd.ends (.exception "sampling failed") [] rfl).1
  cases hend

end Pipeline

end GidsStack.Loader
