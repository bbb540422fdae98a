/-
  GidsStack.Requests.Lifecycle

  The life of a registered request whose rows have one context each: submitted,
  ready, consumed.  Service calls move outstanding requests from submitted to
  ready, wherever they stand in the queue; a get consumes the front one; and a
  call that throws has changed nothing but the cached front pointer.
-/

import GidsStack.Requests.Alignment
import Mathlib.Data.List.Basic

namespace GidsStack.Requests

/-- The registered calls whose requests have one context a row. -/
def Call.isRowctx : Call → Bool
  | .submitAsyncRegisteredRowctx _ => true
  | .pollCompatible _ => true
  | .tryPoll _ => true
  | .tryPollWindowSkipFront _ _ => true
  | .getFeatureLightRegisteredRowctx => true
  | _ => false

/-- The calls among them that serve requests. -/
def Call.isService : Call → Bool
  | .pollCompatible _ => true
  | .tryPoll _ => true
  | .tryPollWindowSkipFront _ _ => true
  | _ => false

/-! ## The state of a request -/

/-- Every context of the request is complete. -/
def Store.Complete (s : Store) (m : OutstandingMeta) : Prop :=
  ∀ row < m.numIndex, s.complete m.ctxs.submission (row * m.ctxStride) = true

/-- The state of the request with an id: what its entry says, and consumed once it has been
    taken from the queue by a get. -/
def Store.stateOf (s : Store) (id : Nat) : Option RequestState :=
  if id ∈ s.consumed then some .consumed
  else (s.iostack.outstandingQueue.find? (·.requestId = id)).map (·.state)

/-- What a call may do to the state of a request. -/
inductive Moves : Option RequestState → Option RequestState → Prop
  | stay (a : Option RequestState) : Moves a a
  | submit : Moves none (some .submitted)
  | ready : Moves (some .submitted) (some .ready)
  | consume : Moves (some .ready) (some .consumed)

/-- A blocking poll finds all rows of the front request in the array. -/
def Call.FindsRows (s : Store) : Call → Prop
  | .pollCompatible inRange =>
    ∀ m, s.iostack.frontOutstanding = some m → ∀ row < m.numIndex, inRange row = true
  | _ => True

/-- A blocking poll finds whatever row it looks for. -/
def Call.FindsAll : Call → Prop
  | .pollCompatible inRange => ∀ row, inRange row = true
  | _ => True

/-- What holds between two calls, where `found` says that all polls have found their rows.  Ids
    are consecutive from the front on, behind those consumed, which are all the earlier ones in
    order. -/
structure Lifecycle (found : Prop) (s : Store) : Prop where
  ids : s.iostack.outstandingQueue.map (·.requestId) =
    List.range' (s.iostack.lastConsumedRequestId + 1) s.iostack.outstandingQueue.length
  next : s.iostack.nextRequestId =
    s.iostack.lastConsumedRequestId + s.iostack.outstandingQueue.length + 1
  consumed : s.consumed = List.range' 1 s.iostack.lastConsumedRequestId
  states : ∀ m ∈ s.iostack.outstandingQueue,
    m.state = .submitted ∨ m.state = .ready ∧ (found → s.Complete m)
  rows : ∀ m ∈ s.iostack.outstandingQueue, m.ctxStride = 1
  ctxs : s.iostack.dWarpCtxsQueue = s.iostack.outstandingQueue.map (·.ctxs)

/-- The stack is as before, except perhaps for the cached front pointer. -/
def SameQueues (s s' : IoStack) : Prop := s' = { s with dWarpCtxs := s'.dWarpCtxs }

/-- What a call does. -/
structure CallOk (s : Store) (c : Call) : Prop where
  moves : ∀ id, Moves (s.stateOf id) ((call s c).1.stateOf id)
  served : c.isService = true → c.FindsRows s → ∀ id, (call s c).1.stateOf id ≠ s.stateOf id →
    ∃ m ∈ (call s c).1.iostack.outstandingQueue, m.requestId = id ∧ (call s c).1.Complete m
  throws : ∀ e, (call s c).2 = .error e →
    SameQueues s.iostack (call s c).1.iostack ∧ (call s c).1.consumed = s.consumed

/-! ## Serving -/

/-- An outstanding request after a service call; `found` says that a poll has found its rows. -/
inductive Served (found : Prop) (s' : Store) (m : OutstandingMeta) : OutstandingMeta → Prop
  | same : Served found s' m m
  | ready (h : m.state = .submitted) (hc : found → s'.Complete m) :
      Served found s' m { m with state := .ready }

/-- What a service call does to the store. -/
structure Serves (found : Prop) (s s' : Store) : Prop where
  requests : List.Forall₂ (Served found s') s.iostack.outstandingQueue s'.iostack.outstandingQueue
  ctxs : s'.iostack.dWarpCtxsQueue = s.iostack.dWarpCtxsQueue
  next : s'.iostack.nextRequestId = s.iostack.nextRequestId
  last : s'.iostack.lastConsumedRequestId = s.iostack.lastConsumedRequestId
  consumed : s'.consumed = s.consumed
  grows : ∀ u i, s.complete u i = true → s'.complete u i = true

theorem Store.Complete.mono {s s' : Store} (h : ∀ u i, s.complete u i = true → s'.complete u i = true)
    {m : OutstandingMeta} (hc : s.Complete m) : s'.Complete m :=
  fun row hr => h _ _ (hc row hr)

/-- A call that only completes contexts. -/
theorem Serves.of_same {P : Prop} {s s' : Store}
    (hs : s'.iostack.outstandingQueue = s.iostack.outstandingQueue)
    (hc : s'.iostack.dWarpCtxsQueue = s.iostack.dWarpCtxsQueue)
    (hn : s'.iostack.nextRequestId = s.iostack.nextRequestId)
    (hl : s'.iostack.lastConsumedRequestId = s.iostack.lastConsumedRequestId)
    (hd : s'.consumed = s.consumed)
    (hg : ∀ u i, s.complete u i = true → s'.complete u i = true) : Serves P s s' where
  requests := by
    rw [hs, List.forall₂_same]
    exact fun m _ => .same
  ctxs := hc
  next := hn
  last := hl
  consumed := hd
  grows := hg

theorem Serves.refl {P : Prop} (s : Store) : Serves P s s := .of_same rfl rfl rfl rfl rfl fun _ _ h => h

theorem Serves.trans {P : Prop} {s t u : Store} (h : Serves P s t) (h' : Serves P t u) :
    Serves P s u where
  requests := by
    have hcomp := List.forall₂_iff_get.mp h.requests
    have hcomp' := List.forall₂_iff_get.mp h'.requests
    rw [List.forall₂_iff_get]
    refine ⟨hcomp.1.trans hcomp'.1, fun k h1 h2 => ?_⟩
    have hk := hcomp.2 k h1 (hcomp.1 ▸ h1)
    have hk' := hcomp'.2 k (hcomp.1 ▸ h1) h2
    generalize (t.iostack.outstandingQueue.get ⟨k, hcomp.1 ▸ h1⟩) = m at hk hk'
    cases hk with
    | same => exact hk'
    | ready hst hc =>
      -- a request that is ready is not served again
      generalize hu : u.iostack.outstandingQueue.get ⟨k, h2⟩ = m' at hk' ⊢
      cases hk' with
      | same => exact .ready hst fun hP => (hc hP).mono h'.grows
      | ready hst' => cases hst'
  ctxs := h'.ctxs.trans h.ctxs
  next := h'.next.trans h.next
  last := h'.last.trans h.last
  consumed := h'.consumed.trans h.consumed
  grows v i hv := h'.grows v i (h.grows v i hv)

theorem serviceBurst_serves {P : Prop} (s : Store) (k : Kernels) : Serves P s (serviceBurst s k) := by
  rw [serviceBurst]
  split
  · exact .refl s
  · exact .of_same rfl rfl rfl rfl rfl fun u i h => by simp only [h, Bool.true_or]

theorem checkReady_serves {P : Prop} (s : Store) (k : Kernels) (c : Ctxs) (n stride : Nat) :
    Serves P s (checkReady s k c n stride).2 :=
  .of_same rfl rfl rfl rfl rfl fun u i h => by simp only [checkReady, h, Bool.true_or]

theorem requestReadyAt_serves {P : Prop} (s : Store) (k : Kernels) (offset : Nat) :
    Serves P s (requestReadyAt s k offset).2 := by
  rw [requestReadyAt]
  split
  · exact .refl s
  split
  · exact .refl s
  split
  · exact .refl s
  split
  · exact .refl s
  · exact checkReady_serves s k _ _ _

theorem pollRows_serves {P : Prop} (s : Store) (inRange : Nat → Bool) (ctxs : Option Ctxs)
    (n stride : Nat) : Serves P s (pollRows s inRange ctxs n stride) := by
  cases ctxs with
  | none => exact .refl s
  | some c => exact .of_same rfl rfl rfl rfl rfl fun u i h => by simp only [pollRows, h, Bool.true_or]

/-- The blocking poll returns when every row it was given and has found is complete. -/
theorem pollRows_complete (s : Store) {inRange : Nat → Bool} {m : OutstandingMeta}
    (hin : ∀ row < m.numIndex, inRange row = true) :
    (pollRows s inRange (some m.ctxs) m.numIndex m.ctxStride).Complete m := by
  intro row hrow
  have hany : ((List.range m.numIndex).any
      fun r => inRange r && r * m.ctxStride == row * m.ctxStride) = true :=
    List.any_eq_true.mpr ⟨row, List.mem_range.mpr hrow, by
      rw [hin row hrow, beq_self_eq_true, Bool.and_self]⟩
  simp only [pollRows, hany, beq_self_eq_true, Bool.and_self, Bool.or_true]

/-- Marking a submitted request whose contexts are complete. -/
theorem markReadyAt_serves {P : Prop} {s : Store} {offset requestId : Nat} {t : IoStack}
    {m : OutstandingMeta} (hat : s.iostack.outstandingAt offset = some m)
    (hst : m.state = .submitted) (hc : P → s.Complete m)
    (h : s.iostack.markReadyAt offset requestId = (true, t)) :
    Serves P s { s with iostack := t } := by
  simp only [IoStack.markReadyAt, hat] at h
  split at h <;> cases h
  refine ⟨?_, rfl, rfl, rfl, rfl, fun _ _ h => h⟩
  rw [List.forall₂_iff_get]
  refine ⟨by simp only [IoStack.setStateAt, List.length_modify], fun k h1 h2 => ?_⟩
  simp only [IoStack.setStateAt, List.get_eq_getElem, List.getElem_modify]
  obtain ⟨hlt, hget⟩ := List.getElem?_eq_some_iff.mp hat
  split
  · rename_i hk
    subst hk
    rw [hget]
    exact .ready hst hc
  · exact .same

/-- Marking the request it has just looked at always succeeds. -/
theorem markReadyAt_self {s : IoStack} {offset : Nat} {m : OutstandingMeta}
    (hat : s.outstandingAt offset = some m) :
    s.markReadyAt offset m.requestId = (true, s.setStateAt offset .ready) := by
  simp only [IoStack.markReadyAt, hat]
  rw [if_neg fun h => h.2 rfl]

/-- The ready check looks at the contexts of the request at the same offset. -/
theorem requestReadyAt_complete {s t : Store} {k : Kernels} {offset : Nat} {m : OutstandingMeta}
    (hctxs : s.iostack.dWarpCtxsQueue = s.iostack.outstandingQueue.map (·.ctxs))
    (hat : s.iostack.outstandingAt offset = some m) (hst : m.state = .submitted)
    (h : requestReadyAt s k offset = (true, t)) : t.Complete m := by
  have hc : s.iostack.ctxsAt offset = some m.ctxs := by
    rw [IoStack.ctxsAt, hctxs, List.getElem?_map, show s.iostack.outstandingQueue[offset]? = some m
      from hat]
    rfl
  simp only [requestReadyAt, hat, hst, hc] at h
  rw [if_neg (by decide)] at h
  split at h
  · cases h
  rw [checkReady, Prod.mk.injEq] at h
  obtain ⟨hall, rfl⟩ := h
  intro row hrow
  exact List.all_eq_true.mp hall row (List.mem_range.mpr hrow)

/-! ## What service calls do -/

/-- A ready check that succeeds, and the mark that follows it. -/
theorem readyMark_serves {P : Prop} {s t : Store} {k : Kernels} {offset : Nat} {m : OutstandingMeta}
    (hctxs : s.iostack.dWarpCtxsQueue = s.iostack.outstandingQueue.map (·.ctxs))
    (hat : s.iostack.outstandingAt offset = some m) (hst : m.state = .submitted)
    (h : requestReadyAt s k offset = (true, t)) :
    t.iostack.markReadyAt offset m.requestId = (true, t.iostack.setStateAt offset .ready) ∧
      Serves P s { t with iostack := t.iostack.setStateAt offset .ready } := by
  have hsame := requestReadyAt_same s k offset
  have hserve := requestReadyAt_serves (P := P) s k offset
  have hcomp := requestReadyAt_complete hctxs hat hst h
  rw [h] at hsame hserve
  have hat' : t.iostack.outstandingAt offset = some m := by rw [hsame.1]; exact hat
  have hmark := markReadyAt_self hat'
  exact ⟨hmark, hserve.trans (markReadyAt_serves hat' hst (fun _ => hcomp) hmark)⟩

theorem tryPoll_serves {P Q : Prop} {s : Store} (hi : Lifecycle Q s) (k : Kernels) :
    Serves P s (serviceRegisteredTryPoll s k).1 ∧ ∃ r, (serviceRegisteredTryPoll s k).2 = .ok r := by
  rw [serviceRegisteredTryPoll]
  split
  · exact ⟨.refl s, _, rfl⟩
  rename_i m hm
  split
  · exact ⟨.refl s, _, rfl⟩
  rename_i hst
  have hsub : m.state = .submitted :=
    (hi.states m (List.mem_of_mem_head? hm)).resolve_right fun h => hst h.1
  have hat : (serviceBurst s k).iostack.outstandingAt 0 = some m := by
    rw [(serviceBurst_same s k).1, IoStack.outstandingAt, ← List.head?_eq_getElem?]
    exact hm
  have hburst := serviceBurst_serves (P := P) s k
  dsimp only
  split
  · rename_i t ht
    have hctxs : (serviceBurst s k).iostack.dWarpCtxsQueue =
        (serviceBurst s k).iostack.outstandingQueue.map (·.ctxs) := by
      rw [(serviceBurst_same s k).1]
      exact hi.ctxs
    obtain ⟨hmark, hserve⟩ := readyMark_serves hctxs hat hsub ht
    rw [IoStack.markFrontReady, hmark]
    exact ⟨hburst.trans hserve, _, rfl⟩
  · rename_i t ht
    have hserve := requestReadyAt_serves (P := P) (serviceBurst s k) k 0
    rw [ht] at hserve
    exact ⟨hburst.trans hserve, _, rfl⟩

/-- The window loop, by induction on the offsets that remain. -/
theorem window_serves {P : Prop} (k : Kernels) (count : Nat) : ∀ (s : Store) (offset : Nat),
    s.iostack.dWarpCtxsQueue = s.iostack.outstandingQueue.map (·.ctxs) →
    Serves P s (serviceWindow s k offset count).1 ∧ ∃ r, (serviceWindow s k offset count).2 = .ok r := by
  induction count with
  | zero => exact fun s _ _ => ⟨.refl s, _, rfl⟩
  | succ count ih =>
    intro s offset hctxs
    rw [serviceWindow]
    split
    · exact ⟨.refl s, _, rfl⟩
    rename_i m hm
    split
    · exact ih s _ hctxs
    rename_i hst
    have hsub : m.state = .submitted := not_not.mp hst
    have hserve := requestReadyAt_serves (P := P) s k offset
    have hsame := requestReadyAt_same s k offset
    split
    · rename_i t ht
      rw [ht] at hserve hsame
      obtain ⟨hnext, hok⟩ := ih t (offset + 1) (by rw [hsame.1]; exact hctxs)
      exact ⟨hserve.trans hnext, hok⟩
    · rename_i t ht
      obtain ⟨hmark, hserved⟩ := readyMark_serves hctxs hm hsub ht
      rw [ht] at hsame
      rw [hmark]
      obtain ⟨hnext, hok⟩ := ih { t with iostack := t.iostack.setStateAt offset .ready } (offset + 1)
        (by
          show t.iostack.dWarpCtxsQueue = _
          rw [hsame.1, hctxs]
          apply List.ext_getElem
          · simp only [IoStack.setStateAt, List.length_map, List.length_modify]
          · intro j h1 h2
            simp only [IoStack.setStateAt, List.getElem_map, List.getElem_modify]
            split <;> rfl)
      exact ⟨hserved.trans hnext, hok⟩

theorem windowSkipFront_serves {P Q : Prop} {s : Store} (hi : Lifecycle Q s) (k : Kernels)
    (windowSize : Nat) :
    Serves P s (serviceRegisteredTryPollWindowSkipFront s k windowSize).1 ∧
      ∃ r, (serviceRegisteredTryPollWindowSkipFront s k windowSize).2 = .ok r := by
  rw [serviceRegisteredTryPollWindowSkipFront]
  split
  · exact ⟨.refl s, _, rfl⟩
  · obtain ⟨hserve, hok⟩ := window_serves k (min (max 1 windowSize) (s.iostack.outstandingCount - 1))
      (serviceBurst s k) 1 (by rw [(serviceBurst_same s k).1]; exact hi.ctxs)
    exact ⟨(serviceBurst_serves s k).trans hserve, hok⟩

/-- The blocking poll of the front request throws only where its contexts are `nullptr`, and
    has then refreshed nothing but the cached pointer. -/
theorem pollCompatible_serves {Q : Prop} {s : Store} (hi : Lifecycle Q s) (inRange : Nat → Bool) :
    Serves ((Call.pollCompatible inRange).FindsRows s)
        s (serviceRegisteredPollCompatible s inRange).1 ∧
      ∀ e, (serviceRegisteredPollCompatible s inRange).2 = .error e →
        SameQueues s.iostack (serviceRegisteredPollCompatible s inRange).1.iostack := by
  rw [serviceRegisteredPollCompatible]
  split
  · refine ⟨.refl s, ?_⟩
    rintro e ⟨⟩
  rename_i m hm
  have hmem := List.mem_of_mem_head? hm
  split
  · refine ⟨.refl s, ?_⟩
    rintro e ⟨⟩
  rename_i hst
  have hsub : m.state = .submitted := (hi.states m hmem).resolve_right fun h => hst h.1
  have hrow := hi.rows m hmem
  rw [if_neg (not_not.mpr hrow)]
  -- the contexts at the front are those of the request
  obtain ⟨rest, hq⟩ := List.head?_eq_some_iff.mp hm
  have hfront : s.iostack.frontCtxs = (some m.ctxs, { s.iostack with dWarpCtxs := m.ctxs.addr }) := by
    have hq' : s.iostack.dWarpCtxsQueue = m.ctxs :: rest.map (·.ctxs) := by
      rw [hi.ctxs, hq, List.map_cons]
    rw [IoStack.frontCtxs]
    split
    · rename_i hnil
      rw [hnil] at hq'
      cases hq'
    · rename_i hcons
      rw [hcons] at hq'
      cases hq'
      rfl
  rw [hfront]
  dsimp only
  split
  · refine ⟨.of_same rfl rfl rfl rfl rfl fun _ _ h => h, ?_⟩
    rintro e -
    rfl
  set t : Store := { s with iostack := { s.iostack with dWarpCtxs := m.ctxs.addr } } with ht
  have hfresh : Serves ((Call.pollCompatible inRange).FindsRows s) s t :=
    .of_same rfl rfl rfl rfl rfl fun _ _ h => h
  have hserve := hfresh.trans (pollRows_serves t inRange (some m.ctxs) m.numIndex 1)
  have hcomp : (Call.pollCompatible inRange).FindsRows s →
      (pollRows t inRange (some m.ctxs) m.numIndex 1).Complete m := by
    intro hfound
    rw [← hrow]
    exact pollRows_complete t (hfound m hm)
  have hat : (pollRows t inRange (some m.ctxs) m.numIndex 1).iostack.outstandingAt 0 = some m := by
    show s.iostack.outstandingQueue[0]? = some m
    rw [← List.head?_eq_getElem?]
    exact hm
  have hmark := markReadyAt_self hat
  rw [IoStack.markFrontReady, hmark]
  refine ⟨hserve.trans (markReadyAt_serves hat hsub hcomp hmark), ?_⟩
  rintro e ⟨⟩

/-! ## Serving keeps the lifecycle -/

theorem Served.fields {P : Prop} {s' : Store} {m m' : OutstandingMeta} (h : Served P s' m m') :
    m'.requestId = m.requestId ∧ m'.ctxs = m.ctxs ∧ m'.ctxStride = m.ctxStride := by
  cases h with
  | same => exact ⟨rfl, rfl, rfl⟩
  | ready => exact ⟨rfl, rfl, rfl⟩

/-- A field of the requests that serving leaves alone. -/
theorem served_map_eq {P : Prop} {s' : Store} {l l' : List OutstandingMeta}
    (h : List.Forall₂ (Served P s') l l') {α : Type*} (f : OutstandingMeta → α)
    (hf : ∀ m m', Served P s' m m' → f m' = f m) :
    l'.map f = l.map f := by
  induction h with
  | nil => rfl
  | cons hd _ ih => rw [List.map_cons, List.map_cons, hf _ _ hd, ih]

theorem Serves.length_eq {P : Prop} {s s' : Store} (h : Serves P s s') :
    s'.iostack.outstandingQueue.length = s.iostack.outstandingQueue.length :=
  h.requests.length_eq.symm

theorem Serves.lifecycle {P Q : Prop} {s s' : Store} (h : Serves P s s') (hi : Lifecycle Q s)
    (hQ : Q → P) : Lifecycle Q s' where
  ids := by
    rw [served_map_eq h.requests (·.requestId) fun _ _ hm => hm.fields.1, h.length_eq, h.last]
    exact hi.ids
  next := by
    rw [h.next, h.last, h.length_eq]
    exact hi.next
  consumed := by
    rw [h.consumed, h.last]
    exact hi.consumed
  states := by
    intro m' hm'
    obtain ⟨k, hk, rfl⟩ := List.getElem_of_mem hm'
    have hk' : k < s.iostack.outstandingQueue.length := h.length_eq ▸ hk
    have hserved := (List.forall₂_iff_get.mp h.requests).2 k hk' hk
    simp only [List.get_eq_getElem] at hserved
    generalize s'.iostack.outstandingQueue[k] = m' at hserved
    cases hserved with
    | same =>
      exact (hi.states _ (List.getElem_mem hk')).imp_right
        fun hr => ⟨hr.1, fun hq => (hr.2 hq).mono h.grows⟩
    | ready _ hc => exact .inr ⟨rfl, fun hq => hc (hQ hq)⟩
  rows := by
    intro m' hm'
    have hstr := served_map_eq h.requests (·.ctxStride) fun _ _ hm => hm.fields.2.2
    have hmem : m'.ctxStride ∈ s.iostack.outstandingQueue.map (·.ctxStride) :=
      hstr ▸ List.mem_map_of_mem hm'
    obtain ⟨m, hm, heq⟩ := List.mem_map.mp hmem
    rw [← heq]
    exact hi.rows m hm
  ctxs := by
    rw [h.ctxs, hi.ctxs, served_map_eq h.requests (·.ctxs) fun _ _ hm => hm.fields.2.1]

/-- The request with an id, before and after serving. -/
theorem find_served {P : Prop} {s' : Store} {id : Nat} {l l' : List OutstandingMeta}
    (h : List.Forall₂ (Served P s') l l') :
    Moves ((l.find? (·.requestId = id)).map (·.state)) ((l'.find? (·.requestId = id)).map (·.state)) ∧
      (P → (l'.find? (·.requestId = id)).map (·.state) ≠
          (l.find? (·.requestId = id)).map (·.state) →
        ∃ m ∈ l', m.requestId = id ∧ s'.Complete m) := by
  induction h with
  | nil => exact ⟨.stay _, fun _ hne => absurd rfl hne⟩
  | @cons m m' l l' hd _ ih =>
    rw [List.find?_cons, List.find?_cons, hd.fields.1]
    by_cases hid : m.requestId = id
    · simp only [hid, decide_true]
      cases hd with
      | same => exact ⟨.stay _, fun _ hne => absurd rfl hne⟩
      | ready hst hc =>
        simp only [Option.map_some, hst]
        exact ⟨.ready, fun hP _ => ⟨_, List.mem_cons_self, hid, hc hP⟩⟩
    · simp only [hid, decide_false]
      refine ⟨ih.1, fun hP hne => ?_⟩
      obtain ⟨m'', hm'', hrest⟩ := ih.2 hP hne
      exact ⟨m'', List.mem_cons_of_mem _ hm'', hrest⟩

theorem Serves.moves {P : Prop} {s s' : Store} (h : Serves P s s') (id : Nat) :
    Moves (s.stateOf id) (s'.stateOf id) ∧ (P → s'.stateOf id ≠ s.stateOf id →
      ∃ m ∈ s'.iostack.outstandingQueue, m.requestId = id ∧ s'.Complete m) := by
  rw [Store.stateOf, Store.stateOf, h.consumed]
  split
  · exact ⟨.stay _, fun _ hne => absurd rfl hne⟩
  · exact find_served h.requests

/-! ## Submits and gets -/

theorem submitRowctx_lifecycle {Q : Prop} {s : Store} (hi : Lifecycle Q s) (r : Request) :
    Lifecycle Q (readFeatureSubmitAsyncRegisteredRowctx s r).1 where
  ids := by
    simp only [readFeatureSubmitAsyncRegisteredRowctx, submitRegistered, IoStack.registerOutstanding,
      IoStack.pushCtxs, List.map_append, List.map_cons, List.map_nil, List.length_append,
      List.length_cons, List.length_nil, Nat.zero_add]
    rw [List.range'_1_concat, hi.ids, hi.next]
    congr 2
    omega
  next := by
    simp only [readFeatureSubmitAsyncRegisteredRowctx, submitRegistered, IoStack.registerOutstanding,
      IoStack.pushCtxs, List.length_append, List.length_cons, List.length_nil, Nat.zero_add]
    rw [hi.next]
    omega
  consumed := hi.consumed
  states := by
    intro m hm
    rcases List.mem_append.mp hm with hm | hm
    · exact hi.states m hm
    · rw [List.mem_singleton] at hm
      exact .inl (by rw [hm])
  rows := by
    intro m hm
    rcases List.mem_append.mp hm with hm | hm
    · exact hi.rows m hm
    · rw [List.mem_singleton] at hm
      rw [hm]
  ctxs := by
    simp only [readFeatureSubmitAsyncRegisteredRowctx, submitRegistered, IoStack.registerOutstanding,
      IoStack.pushCtxs, List.map_append, List.map_cons, List.map_nil, hi.ctxs]

theorem submitRowctx_moves (s : Store) (r : Request) (id : Nat) :
    Moves (s.stateOf id) ((readFeatureSubmitAsyncRegisteredRowctx s r).1.stateOf id) := by
  have hcons : (readFeatureSubmitAsyncRegisteredRowctx s r).1.consumed = s.consumed := rfl
  -- the meta of the new request, at the back of the queue
  obtain ⟨new, hnew, hid, hst⟩ : ∃ new : OutstandingMeta,
      (readFeatureSubmitAsyncRegisteredRowctx s r).1.iostack.outstandingQueue =
        s.iostack.outstandingQueue ++ [new] ∧
      new.requestId = s.iostack.nextRequestId ∧ new.state = .submitted := ⟨_, rfl, rfl, rfl⟩
  rw [Store.stateOf, Store.stateOf, hcons, hnew]
  by_cases hmem : id ∈ s.consumed
  · rw [if_pos hmem, if_pos hmem]
    exact .stay _
  rw [if_neg hmem, if_neg hmem, List.find?_append]
  cases hf : s.iostack.outstandingQueue.find? (fun m => decide (m.requestId = id)) with
  | some m => exact .stay _
  | none =>
    by_cases heq : new.requestId = id
    · rw [Option.none_or, List.find?_cons_of_pos (by simpa using heq), Option.map_some, hst]
      exact .submit
    · rw [Option.none_or, List.find?_cons_of_neg (by simpa using heq)]
      exact .stay _

/-- The front request of a get that does not throw, and what the get leaves. -/
theorem getRegistered_ready {s : Store} {m : OutstandingMeta} {rest : List OutstandingMeta}
    (hall : s.iostack.dWarpCtxsQueue = s.iostack.outstandingQueue.map (·.ctxs))
    (hq : s.iostack.outstandingQueue = m :: rest) (hst : m.state = .ready) :
    let s' := (readFeatureGetFeatureLightRegistered s).1
    s'.iostack.outstandingQueue = rest ∧
      s'.iostack.dWarpCtxsQueue = rest.map (·.ctxs) ∧
      s'.iostack.nextRequestId = s.iostack.nextRequestId ∧
      s'.iostack.lastConsumedRequestId = m.requestId ∧
      s'.consumed = s.consumed ++ [m.requestId] ∧ s'.complete = s.complete ∧
      (readFeatureGetFeatureLightRegistered s).2 = .ok m.requestId := by
  have hfront : s.iostack.frontOutstanding = some m := by
    rw [IoStack.frontOutstanding, hq, List.head?_cons]
  obtain ⟨h1, -, h3, h4, h5⟩ := frontCtxs_queue s.iostack
  have hmark : s.iostack.frontCtxs.2.markFrontConsumed m.requestId =
      (true, { s.iostack.frontCtxs.2.setStateAt 0 .consumed with
        lastConsumedRequestId := m.requestId }) := by
    rw [IoStack.markFrontConsumed, show s.iostack.frontCtxs.2.frontOutstanding = some m by
      rw [IoStack.frontOutstanding, h3]; exact hfront]
    dsimp only
    rw [if_neg fun h => h.2 rfl]
  have hctxs : s.iostack.dWarpCtxsQueue = m.ctxs :: rest.map (·.ctxs) := by
    rw [hall, hq, List.map_cons]
  have hget : readFeatureGetFeatureLightRegistered s =
      ({ s with
          iostack := ({ s.iostack.frontCtxs.2.setStateAt 0 .consumed with
            lastConsumedRequestId := m.requestId } : IoStack).popCtxs
          consumed := s.consumed ++ [m.requestId] }, .ok m.requestId) := by
    rw [readFeatureGetFeatureLightRegistered, hfront]
    dsimp only
    rw [if_neg (not_not.mpr hst), hmark]
  -- what `pop_ctxs` leaves of a stack whose front is this request
  have hpop : ∀ t : IoStack, t.dWarpCtxsQueue = m.ctxs :: rest.map (·.ctxs) →
      t.popCtxs = { t with
        dWarpCtxsQueue := rest.map (·.ctxs)
        dWarpCtxsCountQueue := t.dWarpCtxsCountQueue.tail
        outstandingQueue := t.outstandingQueue.tail
        dWarpCtxs := (rest.map (·.ctxs)).head?.bind (·.addr) } := by
    intro t ht
    rw [IoStack.popCtxs, ht]
  have hp := hpop { s.iostack.frontCtxs.2.setStateAt 0 .consumed with
    lastConsumedRequestId := m.requestId } (h1.trans hctxs)
  rw [hget, hp]
  refine ⟨?_, rfl, h4, rfl, rfl, rfl, rfl⟩
  show (s.iostack.frontCtxs.2.outstandingQueue.modify 0 _).tail = rest
  rw [h3, hq]
  rfl

theorem getRegistered_lifecycle {Q : Prop} {s : Store} {m : OutstandingMeta}
    {rest : List OutstandingMeta} (hi : Lifecycle Q s)
    (hq : s.iostack.outstandingQueue = m :: rest) (hst : m.state = .ready) :
    Lifecycle Q (readFeatureGetFeatureLightRegistered s).1 := by
  obtain ⟨h1, h2, h3, h4, h5, h6, -⟩ := getRegistered_ready hi.ctxs hq hst
  have hids := hi.ids
  rw [hq, List.map_cons, List.length_cons, List.range'_succ] at hids
  obtain ⟨hid, hrest⟩ := List.cons.inj hids
  refine ⟨?_, ?_, ?_, ?_, ?_, ?_⟩
  · rw [h1, h4, hrest, hid]
  · rw [h1, h3, h4, hi.next, hid, hq, List.length_cons]
    omega
  · rw [h4, h5, hi.consumed, hid, List.range'_1_concat]
    congr 2
    omega
  · intro m' hm'
    rw [h1] at hm'
    have hm := hi.states m' (by rw [hq]; exact List.mem_cons_of_mem _ hm')
    rwa [Store.Complete, ← h6] at hm
  · intro m' hm'
    rw [h1] at hm'
    exact hi.rows m' (by rw [hq]; exact List.mem_cons_of_mem _ hm')
  · rw [h1, h2]

theorem getRegistered_moves {Q : Prop} {s : Store} {m : OutstandingMeta}
    {rest : List OutstandingMeta} (hi : Lifecycle Q s)
    (hq : s.iostack.outstandingQueue = m :: rest) (hst : m.state = .ready) (id : Nat) :
    Moves (s.stateOf id) ((readFeatureGetFeatureLightRegistered s).1.stateOf id) := by
  obtain ⟨h1, -, -, -, h5, -, -⟩ := getRegistered_ready hi.ctxs hq hst
  have hids := hi.ids
  rw [hq, List.map_cons, List.length_cons, List.range'_succ] at hids
  have hid := (List.cons.inj hids).1
  rw [Store.stateOf, Store.stateOf, h1, h5, hq]
  by_cases hmem : id ∈ s.consumed
  · rw [if_pos hmem, if_pos (List.mem_append_left _ hmem)]
    exact .stay _
  by_cases heq : m.requestId = id
  · rw [if_neg hmem, if_pos (by rw [heq]; exact List.mem_append_right _ List.mem_cons_self),
      List.find?_cons]
    simp only [heq, decide_true, Option.map_some, hst]
    exact .consume
  · have hnot : id ∉ s.consumed ++ [m.requestId] := by
      rw [List.mem_append, List.mem_singleton]
      rintro (h | h)
      · exact hmem h
      · exact heq h.symm
    rw [if_neg hmem, if_neg hnot, List.find?_cons]
    simp only [heq, decide_false]
    exact .stay _

/-! ## Every call and every run -/

/-- A service call. -/
theorem serves_callOk {s : Store} {c : Call} (h : Serves (c.FindsRows s) s (call s c).1)
    (he : ∀ e, (call s c).2 = .error e → SameQueues s.iostack (call s c).1.iostack) : CallOk s c where
  moves id := (h.moves id).1
  served _ hfound id hne := (h.moves id).2 hfound hne
  throws e h2 := ⟨he e h2, h.consumed⟩

theorem unchanged_callOk {s : Store} {c : Call} (hservice : c.isService = false)
    (h : (call s c).1 = s) : CallOk s c where
  moves id := by
    rw [h]
    exact .stay _
  served hs := absurd hs (by rw [hservice]; decide)
  throws e _ := by
    rw [h]
    exact ⟨rfl, rfl⟩

theorem Call.FindsAll.findsRows {c : Call} (h : c.FindsAll) (s : Store) : c.FindsRows s := by
  cases c with
  | pollCompatible inRange => exact fun m _ row _ => h row
  | _ => trivial

/-- One call. -/
theorem call_lifecycle {Q : Prop} {s : Store} (hi : Lifecycle Q s) {c : Call}
    (hc : c.isRowctx = true) (hfound : Q → c.FindsAll) :
    Lifecycle Q (call s c).1 ∧ CallOk s c := by
  have hrows := fun hq => (hfound hq).findsRows s
  cases c with
  | submitAsyncRegisteredRowctx r =>
    refine ⟨submitRowctx_lifecycle hi r, submitRowctx_moves s r, fun h => ?_, fun e he => ?_⟩
    · cases h
    · cases he
  | pollCompatible inRange =>
    obtain ⟨hserve, herr⟩ := pollCompatible_serves hi inRange
    exact ⟨hserve.lifecycle hi hrows, serves_callOk hserve herr⟩
  | tryPoll k =>
    obtain ⟨hserve, r, hok⟩ := tryPoll_serves hi k
    refine ⟨hserve.lifecycle hi hrows, serves_callOk hserve fun e he => ?_⟩
    rw [call, hok] at he
    cases he
  | tryPollWindowSkipFront k w =>
    obtain ⟨hserve, r, hok⟩ := windowSkipFront_serves hi k w
    refine ⟨hserve.lifecycle hi hrows, serves_callOk hserve fun e he => ?_⟩
    rw [call, hok] at he
    cases he
  | getFeatureLightRegisteredRowctx =>
    cases hq : s.iostack.outstandingQueue with
    | nil =>
      have hsame : (readFeatureGetFeatureLightRegistered s).1 = s := by
        rw [readFeatureGetFeatureLightRegistered, IoStack.frontOutstanding, hq]
        rfl
      refine ⟨?_, unchanged_callOk rfl hsame⟩
      rw [call, hsame]
      exact hi
    | cons m rest =>
      by_cases hst : m.state = .ready
      · refine ⟨getRegistered_lifecycle hi hq hst, getRegistered_moves hi hq hst,
          fun h => absurd h (by decide), fun e he => ?_⟩
        rw [call, (getRegistered_ready hi.ctxs hq hst).2.2.2.2.2.2] at he
        cases he
      · have hsame : (readFeatureGetFeatureLightRegistered s).1 = s := by
          rw [readFeatureGetFeatureLightRegistered, IoStack.frontOutstanding, hq]
          dsimp only [List.head?_cons]
          rw [if_pos hst]
        refine ⟨?_, unchanged_callOk rfl hsame⟩
        rw [call, hsame]
        exact hi
  | _ => cases hc

theorem new_lifecycle (Q : Prop) : Lifecycle Q .new where
  ids := rfl
  next := rfl
  consumed := rfl
  states _ hm := absurd hm List.not_mem_nil
  rows _ hm := absurd hm List.not_mem_nil
  ctxs := rfl

/-- Between any two calls of a run ids are consecutive and requests have been consumed in
    their order, and where the polls found their rows only requests whose contexts are complete
    are ready; every call moves each request one state on or not at all, serves only requests
    whose contexts are complete unless it polls a row outside the array, and leaves the queues
    alone if it throws. -/
theorem run_lifecycle (cs : List Call) (h : ∀ c ∈ cs, c.isRowctx = true) :
    Lifecycle (∀ c ∈ cs, c.FindsAll) (run .new cs) ∧
      ∀ c, c.isRowctx = true → CallOk (run .new cs) c := by
  have hrun : ∀ Q : Prop, ∀ ds : List Call, (∀ c ∈ ds, c.isRowctx = true) →
      (∀ c ∈ ds, Q → c.FindsAll) → ∀ s, Lifecycle Q s → Lifecycle Q (run s ds) := by
    intro Q ds
    induction ds with
    | nil => exact fun _ _ s hs => hs
    | cons d ds ih =>
      intro hd hf s hs
      exact ih (fun c hc => hd c (List.mem_cons_of_mem _ hc))
        (fun c hc => hf c (List.mem_cons_of_mem _ hc)) _
        (call_lifecycle hs (hd d List.mem_cons_self) (hf d List.mem_cons_self)).1
  have hl := hrun (∀ c ∈ cs, c.FindsAll) cs h (fun c hc hall => hall c hc) .new (new_lifecycle _)
  exact ⟨hl, fun c hc =>
    (call_lifecycle (hrun False cs h (fun _ _ => False.elim) .new (new_lifecycle _)) hc
      False.elim).2⟩

/-! ### Two requests, of which the second is ready first -/

def secondFirst : List Call :=
  [.submitAsyncRegisteredRowctx (requestFor 1 8192 (by decide)),
    .submitAsyncRegisteredRowctx (requestFor 2 12288 (by decide)),
    .tryPollWindowSkipFront ⟨fun u _ => u == 1, fun _ _ => false⟩ 2]

theorem secondFirst_lifecycle :
    Lifecycle (∀ c ∈ secondFirst, c.FindsAll) (run .new secondFirst) ∧
      CallOk (run .new secondFirst) (.pollCompatible fun _ => true) ∧
      (run .new secondFirst).stateOf 1 = some .submitted ∧
      (run .new secondFirst).stateOf 2 = some .ready :=
  ⟨(run_lifecycle secondFirst (by decide)).1, (run_lifecycle secondFirst (by decide)).2 _ rfl,
    by decide, by decide⟩

/-! ### Two calls that do what they should not

    The contexts of a request for no rows are `nullptr`, so a submit behind it stores its own
    pointer in `d_warp_ctxs`, and the poll that throws resets that.  And the blocking poll does
    not wait for a row outside the array, but marks its request ready. -/

theorem poll_changes_stack_and_pending :
    (¬ ∀ cs : List Call, (∀ c ∈ cs, c.isRowctx = true) → ∀ c, c.isRowctx = true →
      ∀ e, (call (run .new cs) c).2 = .error e →
        (call (run .new cs) c).1.iostack = (run .new cs).iostack) ∧
    ¬ ∀ cs : List Call, (∀ c ∈ cs, c.isRowctx = true) → ∀ c, c.isRowctx = true →
      c.isService = true → ∀ id, (call (run .new cs) c).1.stateOf id ≠ (run .new cs).stateOf id →
        ∃ m ∈ (call (run .new cs) c).1.iostack.outstandingQueue,
          m.requestId = id ∧ (call (run .new cs) c).1.Complete m := by
  refine ⟨fun hall => ?_, fun hall => ?_⟩
  · have hsame := hall [.submitAsyncRegisteredRowctx (requestFor 0 8192 (by decide)),
      .submitAsyncRegisteredRowctx (requestFor 1 12288 (by decide))] (by decide)
      (.pollCompatible fun _ => true) rfl "No registered rowctx request to poll" rfl
    revert hsame
    decide
  · obtain ⟨m, hm, -, hc⟩ := hall [.submitAsyncRegisteredRowctx (requestFor 1 8192 (by decide))]
      (by decide) (.pollCompatible fun _ => false) rfl rfl 1 (by decide)
    cases hm with
    | head => exact absurd (hc 0 (by decide)) (by decide)
    | tail _ hm => cases hm

end GidsStack.Requests
