/-
  GidsStack.Requests.Alignment

  When the request and the contexts at the same offset of a stack belong to the
  same submission.  A plain submission adds contexts without a request, so a
  request registered behind it is one place further in the one queue than in the
  other; every other call keeps the two in step.
-/

import GidsStack.Requests.Calls

namespace GidsStack.Requests

/-! ## The submissions in the two queues -/

/-- The submissions of the outstanding requests. -/
def Store.requests (s : Store) : List Nat := s.iostack.outstandingQueue.map (·.ctxs.submission)

/-- The submissions whose contexts are queued. -/
def Store.contexts (s : Store) : List Nat := s.iostack.dWarpCtxsQueue.map (·.submission)

/-- What a call that registers no request does to the two queues. -/
inductive Shift (s s' : Store) : Prop
  | stay (hr : s'.requests = s.requests) (hc : s'.contexts = s.contexts)
      (hn : s'.submissions = s.submissions)
  | push (hr : s'.requests = s.requests) (hc : s'.contexts = s.contexts ++ [s.submissions])
      (hn : s'.submissions = s.submissions + 1)
  | pop (h : s.contexts ≠ []) (hr : s'.requests = s.requests.tail)
      (hc : s'.contexts = s.contexts.tail) (hn : s'.submissions = s.submissions)

@[simp] theorem frontCtxs_queue (s : IoStack) :
    s.frontCtxs.2.dWarpCtxsQueue = s.dWarpCtxsQueue ∧
      s.frontCtxs.2.dWarpCtxsCountQueue = s.dWarpCtxsCountQueue ∧
      s.frontCtxs.2.outstandingQueue = s.outstandingQueue ∧
      s.frontCtxs.2.nextRequestId = s.nextRequestId ∧
      s.frontCtxs.2.lastConsumedRequestId = s.lastConsumedRequestId := by
  rw [IoStack.frontCtxs]
  split <;> exact ⟨rfl, rfl, rfl, rfl, rfl⟩

/-- The requests but for their states. -/
def IoStack.settled (s : IoStack) : List OutstandingMeta :=
  s.outstandingQueue.map ({ · with state := .submitted })

/-- What a request has beside its state, read off the settled requests. -/
theorem settled_map {s t : IoStack} {α : Type} (f : OutstandingMeta → α)
    (hf : ∀ m st, f { m with state := st } = f m) (h : t.settled = s.settled) :
    t.outstandingQueue.map f = s.outstandingQueue.map f := by
  have hmap := congrArg (List.map f) h
  simp only [IoStack.settled, List.map_map, Function.comp_def, hf] at hmap
  exact hmap

/-- A new state of a request leaves it where it is. -/
@[simp] theorem setStateAt_settled (s : IoStack) (offset : Nat) (st : RequestState) :
    (s.setStateAt offset st).settled = s.settled := by
  apply List.ext_getElem
  · simp only [IoStack.settled, IoStack.setStateAt, List.length_map, List.length_modify]
  · intro k h1 h2
    simp only [IoStack.settled, IoStack.setStateAt, List.getElem_map, List.getElem_modify]
    split <;> rfl

theorem markReadyAt_settled {s t : IoStack} {offset requestId : Nat} {b : Bool}
    (h : s.markReadyAt offset requestId = (b, t)) :
    t.settled = s.settled ∧ t.dWarpCtxsQueue = s.dWarpCtxsQueue := by
  rw [IoStack.markReadyAt] at h
  split at h
  · cases h
    exact ⟨rfl, rfl⟩
  · split at h <;> cases h
    · exact ⟨rfl, rfl⟩
    · exact ⟨setStateAt_settled _ _ _, rfl⟩

/-! ## What the calls do -/

/-- The store differs only in which contexts are complete. -/
def SameStack (s s' : Store) : Prop :=
  s'.iostack = s.iostack ∧ s'.submissions = s.submissions ∧ s'.consumed = s.consumed

theorem pollRows_same (s : Store) (inRange : Nat → Bool) (ctxs : Option Ctxs) (n stride : Nat) :
    SameStack s (pollRows s inRange ctxs n stride) := by
  cases ctxs with
  | none => exact ⟨rfl, rfl, rfl⟩
  | some c => exact ⟨rfl, rfl, rfl⟩

theorem serviceBurst_same (s : Store) (k : Kernels) : SameStack s (serviceBurst s k) := by
  rw [serviceBurst]
  split <;> exact ⟨rfl, rfl, rfl⟩

theorem requestReadyAt_same (s : Store) (k : Kernels) (offset : Nat) :
    SameStack s (requestReadyAt s k offset).2 := by
  rw [requestReadyAt]
  split
  · exact ⟨rfl, rfl, rfl⟩
  split
  · exact ⟨rfl, rfl, rfl⟩
  split
  · exact ⟨rfl, rfl, rfl⟩
  split <;> exact ⟨rfl, rfl, rfl⟩

/-- Neither queue moves: only the states of requests change. -/
structure Still (s s' : Store) : Prop where
  settled : s'.iostack.settled = s.iostack.settled
  queued : s'.iostack.dWarpCtxsQueue = s.iostack.dWarpCtxsQueue
  submissions : s'.submissions = s.submissions

theorem Still.requests {s s' : Store} (h : Still s s') : s'.requests = s.requests :=
  settled_map (·.ctxs.submission) (fun _ _ => rfl) h.settled

theorem Still.contexts {s s' : Store} (h : Still s s') : s'.contexts = s.contexts := by
  rw [Store.contexts, h.queued, Store.contexts]

theorem Still.refl (s : Store) : Still s s := ⟨rfl, rfl, rfl⟩

theorem Still.trans {s t u : Store} (h : Still s t) (h' : Still t u) : Still s u where
  settled := h'.settled.trans h.settled
  queued := h'.queued.trans h.queued
  submissions := h'.submissions.trans h.submissions

theorem SameStack.still {s s' : Store} (h : SameStack s s') : Still s s' where
  settled := by rw [h.1]
  queued := by rw [h.1]
  submissions := h.2.1

/-- The cached front pointer moves nothing. -/
theorem front_still (s : Store) : Still s { s with iostack := s.iostack.frontCtxs.2 } where
  settled := by simp only [IoStack.settled, (frontCtxs_queue s.iostack).2.2.1]
  queued := (frontCtxs_queue s.iostack).1
  submissions := rfl

theorem mark_still {s : Store} {t : IoStack} {offset requestId : Nat} {b : Bool}
    (h : s.iostack.markReadyAt offset requestId = (b, t)) : Still s { s with iostack := t } where
  settled := (markReadyAt_settled h).1
  queued := (markReadyAt_settled h).2
  submissions := rfl

theorem serviceRegisteredPoll_still (s : Store) (inRange : Nat → Bool) :
    Still s (serviceRegisteredPoll s inRange).1 := by
  rw [serviceRegisteredPoll]
  split
  · exact .refl s
  split
  · exact .refl s
  rename_i m _ _
  have hpoll : Still s (pollRows { s with iostack := s.iostack.frontCtxs.2 } inRange
      s.iostack.frontCtxs.1 m.numIndex 32) :=
    (front_still s).trans (pollRows_same _ _ _ _ _).still
  dsimp only
  split
  · rename_i hm
    exact hpoll.trans (mark_still hm)
  · exact hpoll

theorem serviceRegisteredPollCompatible_still (s : Store) (inRange : Nat → Bool) :
    Still s (serviceRegisteredPollCompatible s inRange).1 := by
  rw [serviceRegisteredPollCompatible]
  split
  · exact .refl s
  split
  · exact .refl s
  split
  · exact serviceRegisteredPoll_still s inRange
  rename_i m _ _ _
  dsimp only
  split
  · exact front_still s
  have hpoll : Still s (pollRows { s with iostack := s.iostack.frontCtxs.2 } inRange
      s.iostack.frontCtxs.1 m.numIndex 1) :=
    (front_still s).trans (pollRows_same _ _ _ _ _).still
  split
  · rename_i hm
    exact hpoll.trans (mark_still hm)
  · exact hpoll

theorem serviceRegisteredTryPoll_still (s : Store) (k : Kernels) :
    Still s (serviceRegisteredTryPoll s k).1 := by
  rw [serviceRegisteredTryPoll]
  split
  · exact .refl s
  split
  · exact .refl s
  dsimp only
  have hready := requestReadyAt_same (serviceBurst s k) k 0
  have hs := (serviceBurst_same s k).still.trans hready.still
  split
  · rename_i t ht
    rw [ht] at hs
    split
    · rename_i hm
      exact hs.trans (mark_still hm)
    · exact hs
  · rename_i t ht
    rw [ht] at hs
    exact hs

/-- The window loop, by induction on the offsets that remain. -/
theorem serviceWindow_still (k : Kernels) (count : Nat) :
    ∀ (s : Store) (offset : Nat), Still s (serviceWindow s k offset count).1 := by
  induction count with
  | zero => exact fun s _ => .refl s
  | succ count ih =>
    intro s offset
    rw [serviceWindow]
    split
    · exact .refl s
    split
    · exact ih s _
    have hs := (requestReadyAt_same s k offset).still
    split
    · rename_i t ht
      rw [ht] at hs
      exact hs.trans (ih t _)
    · rename_i t ht
      rw [ht] at hs
      split
      · rename_i hm
        exact (hs.trans (mark_still hm)).trans (ih _ _)
      · exact hs

theorem serviceWindowSkipFront_still (s : Store) (k : Kernels) (windowSize : Nat) :
    Still s (serviceRegisteredTryPollWindowSkipFront s k windowSize).1 := by
  rw [serviceRegisteredTryPollWindowSkipFront]
  split
  · exact .refl s
  · exact (serviceBurst_same s k).still.trans (serviceWindow_still k _ _ _)

/-- `pop_ctxs` takes from both queues, or from neither. -/
theorem popCtxs_shift (s : Store) (t : IoStack) (consumed : List Nat)
    (hr : t.outstandingQueue.map (·.ctxs.submission) = s.requests)
    (hc : t.dWarpCtxsQueue.map (·.submission) = s.contexts) :
    Shift s { s with iostack := t.popCtxs, consumed } := by
  cases hq : t.dWarpCtxsQueue with
  | nil =>
    have hpop : t.popCtxs = { t with dWarpCtxs := none } := by rw [IoStack.popCtxs, hq]
    exact .stay (by rw [← hr, Store.requests, hpop]) (by rw [← hc, Store.contexts, hpop]) rfl
  | cons c rest =>
    refine .pop ?_ ?_ ?_ rfl
    · rw [← hc, hq]
      exact List.cons_ne_nil _ _
    · rw [← hr, Store.requests, IoStack.popCtxs, hq, List.map_tail]
    · rw [← hc, Store.contexts, IoStack.popCtxs, hq]
      rfl

theorem submitRegistered_shift (s : Store) (r : Request) (totalCtxs ctxStride : Nat) :
    let s' := (submitRegistered s r totalCtxs ctxStride).1
    s'.requests = s.requests ++ [s.submissions] ∧ s'.contexts = s.contexts ++ [s.submissions] ∧
      s'.submissions = s.submissions + 1 := by
  refine ⟨?_, ?_, rfl⟩
  · simp only [submitRegistered, IoStack.registerOutstanding, IoStack.pushCtxs, Store.requests,
      List.map_append, List.map_cons, List.map_nil, Store.alloc]
  · simp only [submitRegistered, IoStack.registerOutstanding, IoStack.pushCtxs, Store.contexts,
      List.map_append, List.map_cons, List.map_nil, Store.alloc]

theorem getRegistered_shift (s : Store) : Shift s (readFeatureGetFeatureLightRegistered s).1 := by
  rw [readFeatureGetFeatureLightRegistered]
  split
  · exact .stay rfl rfl rfl
  split
  · exact .stay rfl rfl rfl
  dsimp only
  have hf := front_still s
  split
  · rename_i t ht
    refine popCtxs_shift s t _ ?_ ?_
    · rw [IoStack.markFrontConsumed] at ht
      split at ht
      · cases ht
      split at ht <;> cases ht
      exact (settled_map (·.ctxs.submission) (fun _ _ => rfl) (setStateAt_settled _ _ _)).trans
        hf.requests
    · rw [IoStack.markFrontConsumed] at ht
      split at ht
      · cases ht
      split at ht <;> cases ht
      exact hf.contexts
  · exact .stay hf.requests hf.contexts rfl

theorem takeFront_shift (s : Store) : Shift s (takeFront s).1 := by
  have hf := front_still s
  exact popCtxs_shift s s.iostack.frontCtxs.2 s.consumed hf.requests hf.contexts

theorem Still.shift {s s' : Store} (h : Still s s') : Shift s s' :=
  .stay h.requests h.contexts h.submissions

theorem pushCtxs_shift (s : Store) (r : Request) : Shift s (readFeatureSubmitAsync s r).1 := by
  refine .push rfl ?_ rfl
  simp only [readFeatureSubmitAsync, IoStack.pushCtxs, Store.contexts, List.map_append,
    List.map_cons, List.map_nil, Store.alloc]

/-- A registered submit adds to both queues; no other call adds a request. -/
theorem call_shift (s : Store) (c : Call) :
    if c.isRegisteredSubmit then
      (call s c).1.requests = s.requests ++ [s.submissions] ∧
        (call s c).1.contexts = s.contexts ++ [s.submissions] ∧
        (call s c).1.submissions = s.submissions + 1
    else Shift s (call s c).1 := by
  cases c with
  | submitAsync r => exact pushCtxs_shift s r
  | submitAsyncRegistered r => exact submitRegistered_shift s r _ _
  | submitAsyncRegisteredRowctx r => exact submitRegistered_shift s r _ _
  | waitAsync => exact takeFront_shift s
  | singlePageSingleThreadPoll n inRange =>
    exact ((front_still s).trans (pollRows_same _ _ _ _ _).still).shift
  | getFeatureLight => exact takeFront_shift s
  | poll inRange => exact (serviceRegisteredPoll_still s inRange).shift
  | pollCompatible inRange => exact (serviceRegisteredPollCompatible_still s inRange).shift
  | tryPoll k => exact (serviceRegisteredTryPoll_still s k).shift
  | tryPollWindowSkipFront k w => exact (serviceWindowSkipFront_still s k w).shift
  | getFeatureLightRegistered => exact getRegistered_shift s
  | getFeatureLightRegisteredRowctx => exact getRegistered_shift s

/-! ## One call -/

/-- The requests are those of the contexts queued first, and submissions are numbered in
    the order they came in. -/
structure InStep (s : Store) : Prop where
  aligned : s.requests <+: s.contexts
  older : ∀ u ∈ s.contexts, u < s.submissions

/-- A registered submit finds no plain submission queued. -/
def RegistersAlone (s : Store) (c : Call) : Prop :=
  c.isRegisteredSubmit = true → s.iostack.dWarpCtxsQueue.length = s.iostack.outstandingQueue.length

instance (s : Store) (c : Call) : Decidable (RegistersAlone s c) :=
  inferInstanceAs (Decidable (_ → _))

theorem registersAlone_iff (s : Store) (c : Call) :
    RegistersAlone s c ↔ (c.isRegisteredSubmit = true → s.contexts.length = s.requests.length) := by
  rw [RegistersAlone, Store.contexts, Store.requests, List.length_map, List.length_map]

/-- Calls other than registered submits keep the queues in step. -/
theorem Shift.inStep {s s' : Store} (h : Shift s s') (hi : InStep s) : InStep s' := by
  obtain ⟨rest, hrest⟩ := hi.aligned
  cases h with
  | stay hr hc hn =>
    refine ⟨by rw [hr, hc]; exact hi.aligned, ?_⟩
    rw [hc, hn]
    exact hi.older
  | push hr hc hn =>
    refine ⟨?_, ?_⟩
    · rw [hr, hc]
      exact hi.aligned.trans (List.prefix_append _ _)
    · intro u hu
      rw [hc, List.mem_append, List.mem_singleton] at hu
      rcases hu with hu | rfl
      · have hlt := hi.older u hu
        omega
      · omega
  | pop _ hr hc hn =>
    refine ⟨?_, ?_⟩
    · rw [hr, hc, ← hrest]
      cases s.requests with
      | nil => exact List.nil_prefix
      | cons a as => exact List.prefix_append as rest
    · intro u hu
      rw [hn]
      rw [hc] at hu
      exact hi.older u (List.mem_of_mem_tail hu)

/-- A registered submit that finds a plain submission queued puts the request beside its
    contexts instead of its own. -/
theorem call_aligned_iff {s : Store} (hi : InStep s) (c : Call) :
    (call s c).1.iostack.Aligned ↔ RegistersAlone s c := by
  rw [IoStack.aligned_iff_prefix, registersAlone_iff]
  have hshift := call_shift s c
  cases hc : c.isRegisteredSubmit with
  | false =>
    rw [hc] at hshift
    simp only [Bool.false_eq_true, if_false, false_implies, iff_true] at hshift ⊢
    exact (hshift.inStep hi).aligned
  | true =>
    rw [hc] at hshift
    simp only [if_true, true_implies] at hshift ⊢
    obtain ⟨hr, hcs, -⟩ := hshift
    show (call s c).1.requests <+: (call s c).1.contexts ↔ _
    rw [hr, hcs]
    obtain ⟨rest, hrest⟩ := hi.aligned
    have hlen : s.contexts.length = s.requests.length + rest.length := by
      rw [← hrest, List.length_append]
    constructor
    · intro hp
      -- the new request stands where the oldest plain contexts do
      cases rest with
      | nil => exact hlen
      | cons u us =>
        have hu : u < s.submissions := by
          apply hi.older
          rw [← hrest]
          exact List.mem_append_right _ List.mem_cons_self
        have hat := List.IsPrefix.getElem hp (i := s.requests.length)
          (by rw [List.length_append]; exact Nat.lt_succ_self _)
        simp only [← hrest, List.append_assoc, List.getElem_append_right (le_refl _),
          Nat.sub_self, List.cons_append, List.getElem_cons_zero] at hat
        omega
    · intro he
      have hnil : rest = [] := by
        rw [← List.length_eq_zero_iff]
        omega
      rw [← hrest, hnil, List.append_nil]

theorem call_inStep {s : Store} (hi : InStep s) {c : Call} (hc : RegistersAlone s c) :
    InStep (call s c).1 := by
  have hal := (IoStack.aligned_iff_prefix _).mp ((call_aligned_iff hi c).mpr hc)
  have hshift := call_shift s c
  cases hreg : c.isRegisteredSubmit with
  | false =>
    rw [hreg] at hshift
    exact Shift.inStep hshift hi
  | true =>
    rw [hreg] at hshift
    simp only [if_true] at hshift
    refine ⟨hal, fun u hu => ?_⟩
    rw [hshift.2.1, List.mem_append, List.mem_singleton] at hu
    rw [hshift.2.2]
    rcases hu with hu | rfl
    · have hlt := hi.older u hu
      omega
    · omega

/-! ## Every run -/

theorem new_inStep : InStep .new where
  aligned := List.nil_prefix
  older _ hu := absurd hu List.not_mem_nil

theorem run_succ {cs : List Call} {n : Nat} {c : Call} (h : cs[n]? = some c) (s : Store) :
    run s (cs.take (n + 1)) = (call (run s (cs.take n)) c).1 := by
  rw [List.take_add_one, h, Option.toList_some, run_append]
  rfl

/-- After every call of a run the requests and the contexts are aligned exactly if no
    registered submit of the run finds a plain submission queued. -/
theorem run_aligned_iff (cs : List Call) :
    (∀ n, (run .new (cs.take n)).iostack.Aligned) ↔
      ∀ n c, cs[n]? = some c → RegistersAlone (run .new (cs.take n)) c := by
  have hstep : ∀ n, (∀ k < n, ∀ c, cs[k]? = some c → RegistersAlone (run .new (cs.take k)) c) →
      InStep (run .new (cs.take n)) := by
    intro n
    induction n with
    | zero => exact fun _ => new_inStep
    | succ n ih =>
      intro hall
      have hn := ih fun k hk => hall k (by omega)
      cases hc : cs[n]? with
      | none =>
        have hlen := List.getElem?_eq_none_iff.mp hc
        rw [List.take_of_length_le hlen] at hn
        rw [List.take_of_length_le (by omega)]
        exact hn
      | some c =>
        rw [run_succ hc]
        exact call_inStep hn (hall n (by omega) c hc)
  constructor
  · intro hal n
    induction n using Nat.strong_induction_on with
    | _ n ih =>
      intro c hc
      apply (call_aligned_iff (hstep n ih) c).mp
      rw [← run_succ hc]
      exact hal (n + 1)
  · intro hall n
    exact (IoStack.aligned_iff_prefix _).mpr (hstep n fun k _ => hall k).aligned

/-! ### A plain submission before a registered one -/

/-- A request for `numIndex` rows whose contexts are at `addr`. -/
def requestFor (numIndex addr : Nat) (h : numIndex < 2 ^ 32) : Request where
  indexPtr := 4096
  numIndex := numIndex
  dim := 8
  cacheDim := 1024
  keyOff := 0
  addr := addr
  numIndex_lt := h

/-- The request at offset 0 is the registered one, the contexts at offset 0 are those of
    the plain one. -/
theorem plain_then_registered_misaligned :
    ¬ ∀ (cs : List Call) (n : Nat), (run .new (cs.take n)).iostack.Aligned := by
  intro hall
  have hal := hall [.submitAsync (requestFor 2 8192 (by decide)),
    .submitAsyncRegistered (requestFor 2 12288 (by decide))] 2
  rw [IoStack.aligned_iff_prefix] at hal
  revert hal
  decide

end GidsStack.Requests
