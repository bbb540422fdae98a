/-
  GidsStack.Loader.Store

  The registered requests of a feature store as its loaders use them: a first-in first-out
  queue of row-context requests, in which service calls set ready marks and a get takes the
  front.  A request carries what its index buffer holds.  Which rows the controllers have
  delivered by a service call is not the store's choice: a `Device` says, for each service
  call and request, whether the check finds all its contexts complete.

  `Served` is all that a service call or a poll can do to the store.
-/

import GidsStack.Lib.Prog
import GidsStack.Loader.Batch

namespace GidsStack.Loader

/-! ## Requests -/

/-- `outstanding_meta_t` of a row-context request. -/
structure Pending (R : Type) where
  requestId : Nat
  rows : List R
  ready : Bool
  deriving DecidableEq, Repr

def Pending.request {R : Type} (p : Pending R) : Nat × List R := (p.requestId, p.rows)

/-- A get: the rows its caller has allocated a tensor for, and those of the request that
    has been written to it. -/
structure Get (R : Type) where
  requestId : Nat
  own : List R
  rows : List R
  deriving DecidableEq, Repr

/-- Whether the `n`-th service call finds the contexts of a request complete. -/
abbrev Device : Type := Nat → Nat → Bool

/-- From service call `bound` on the device has the rows of a request. -/
def LiveFrom (device : Device) (bound requestId : Nat) : Prop :=
  ∀ n, bound ≤ n → device n requestId = true

/-- The registered part of a `BaM_IOStack`.  `serviceCalls` counts the service calls and `gets`
    lists the gets; no code reads either. -/
structure RegisteredStore (R : Type) where
  outstanding : List (Pending R)
  nextRequestId : Nat
  serviceCalls : Nat
  gets : List (Get R)
  deriving DecidableEq, Repr

/-- The rows of a tensor of `capacity` zeroed rows after `rows` have been written from its
    start on; `none` is a row of zeros. -/
def filledRows {R : Type} (capacity : Nat) (rows : List R) : List (Option R) :=
  (rows.take capacity).map some ++ List.replicate (capacity - rows.length) none

theorem filledRows_own {R : Type} (rows : List R) :
    filledRows rows.length rows = rows.map some := by
  rw [filledRows, List.take_length, Nat.sub_self, List.replicate_zero, List.append_nil]

namespace RegisteredStore

variable {R A : Type}

/-- A store that has seen some requests, none of which is outstanding. -/
def idle (requests serviceCalls : Nat) : RegisteredStore R where
  outstanding := []
  nextRequestId := requests + 1
  serviceCalls := serviceCalls
  gets := []

/-! ## Calls -/

/-- `read_feature_submit_async_registered_rowctx`. -/
def submit (rows : List R) (s : RegisteredStore R) : Except PyError Nat × RegisteredStore R :=
  (.ok s.nextRequestId,
    { s with
      outstanding := s.outstanding ++ [{ requestId := s.nextRequestId, rows, ready := false }]
      nextRequestId := s.nextRequestId + 1 })

/-- `get_registered_outstanding_count`. -/
def outstandingCount (s : RegisteredStore R) : Nat := s.outstanding.length

/-- `get_registered_ready_front_request_id`. -/
def readyFrontRequestId (s : RegisteredStore R) : Nat :=
  match s.outstanding with
  | [] => 0
  | p :: _ => if p.ready then p.requestId else 0

/-- What `registered_request_ready_at` makes of a request: without rows it has no contexts to
    check. -/
def check (device : Device) (s : RegisteredStore R) (p : Pending R) : Pending R :=
  { p with ready := p.ready || (!p.rows.isEmpty && device s.serviceCalls p.requestId) }

/-- `service_registered_poll_compatible`, which waits for all rows of the front request. -/
def pollCompatible (s : RegisteredStore R) : Except PyError Nat × RegisteredStore R :=
  match s.outstanding with
  | [] => (.ok 0, s)
  | p :: rest =>
    if p.ready then (.ok p.requestId, s)
    else if p.rows.isEmpty then (.error (.runtime "No registered rowctx request to poll"), s)
    else (.ok p.requestId, { s with outstanding := { p with ready := true } :: rest })

/-- `service_registered_try_poll`. -/
def tryPoll (device : Device) (s : RegisteredStore R) : Except PyError Nat × RegisteredStore R :=
  match s.outstanding with
  | [] => (.ok 0, s)
  | p :: rest =>
    if p.ready then (.ok p.requestId, s)
    else
      let t := { s with
        outstanding := s.check device p :: rest
        serviceCalls := s.serviceCalls + 1 }
      (.ok t.readyFrontRequestId, t)

/-- `service_registered_try_poll_window_skip_front`. -/
def tryPollWindowSkipFront (device : Device) (windowSize : Nat) (s : RegisteredStore R) :
    Except PyError Nat × RegisteredStore R :=
  let total := s.outstandingCount
  if total ≤ 1 then (.ok s.readyFrontRequestId, s)
  else
    let limit := min (max 1 windowSize) (total - 1)
    let t := { s with
      outstanding := s.outstanding.mapIdx fun offset p =>
        if 1 ≤ offset ∧ offset ≤ limit then s.check device p else p
      serviceCalls := s.serviceCalls + 1 }
    (.ok t.readyFrontRequestId, t)

/-- `read_feature_get_feature_light_registered_rowctx` into a tensor for the rows `own`. -/
def get (own : List R) (s : RegisteredStore R) :
    Except PyError (List (Option R)) × RegisteredStore R :=
  match s.outstanding with
  | [] => (.error (.runtime "No registered outstanding request to get"), s)
  | p :: rest =>
    if p.ready then
      (.ok (filledRows own.length p.rows),
        { s with
          outstanding := rest
          gets := s.gets ++ [{ requestId := p.requestId, own, rows := p.rows }] })
    else (.error (.runtime "Registered outstanding request is not ready for get"), s)

end RegisteredStore

/-! ## Service -/

/-- A service call keeps a request, and marks it only if it has rows. -/
structure Pending.Served {R : Type} (p q : Pending R) : Prop where
  request : q.request = p.request
  kept : p.ready = true → q.ready = true
  marked : q.ready = true → p.ready = true ∨ p.rows ≠ []

namespace Pending.Served

variable {R : Type} {p q r : Pending R}

theorem refl (p : Pending R) : p.Served p := ⟨rfl, id, Or.inl⟩

theorem requestId_eq (h : p.Served q) : q.requestId = p.requestId := congrArg Prod.fst h.request

theorem rows_eq (h : p.Served q) : q.rows = p.rows := congrArg Prod.snd h.request

theorem trans (h : p.Served q) (h' : q.Served r) : p.Served r where
  request := h'.request.trans h.request
  kept := h'.kept ∘ h.kept
  marked := fun hr => by
    rcases h'.marked hr with hq | hq
    · exact h.marked hq
    · right
      rw [← h.rows_eq]
      exact hq

end Pending.Served

namespace RegisteredStore

variable {R : Type}

/-- What service does to a store. -/
structure Served (s t : RegisteredStore R) : Prop where
  outstanding : List.Forall₂ Pending.Served s.outstanding t.outstanding
  nextRequestId : t.nextRequestId = s.nextRequestId
  serviceCalls : s.serviceCalls ≤ t.serviceCalls
  gets : t.gets = s.gets

namespace Served

variable {s t u : RegisteredStore R}

theorem refl (s : RegisteredStore R) : s.Served s where
  outstanding := List.forall₂_same.mpr fun p _ => Pending.Served.refl p
  nextRequestId := rfl
  serviceCalls := Nat.le_refl _
  gets := rfl

theorem trans (h : s.Served t) (h' : t.Served u) : s.Served u where
  outstanding := by
    have hst := h.outstanding
    have htu := h'.outstanding
    rw [List.forall₂_iff_get] at hst htu ⊢
    refine ⟨hst.1.trans htu.1, fun i hs hu => ?_⟩
    exact (hst.2 i hs (hst.1 ▸ hs)).trans (htu.2 i (hst.1 ▸ hs) hu)
  nextRequestId := h'.nextRequestId.trans h.nextRequestId
  serviceCalls := Nat.le_trans h.serviceCalls h'.serviceCalls
  gets := h'.gets.trans h.gets

theorem requests_eq (h : s.Served t) :
    t.outstanding.map Pending.request = s.outstanding.map Pending.request := by
  have hout := h.outstanding
  generalize s.outstanding = ps at hout
  generalize t.outstanding = qs at hout
  induction hout with
  | nil => rfl
  | cons hp _ ih => rw [List.map_cons, List.map_cons, hp.request, ih]

theorem front_eq (h : s.Served t) {p : Pending R} {rest : List (Pending R)}
    (hout : s.outstanding = p :: rest) :
    ∃ q rest', t.outstanding = q :: rest' ∧ p.Served q := by
  have hforall := h.outstanding
  rw [hout] at hforall
  obtain ⟨q, rest', hpq, -, hq⟩ := List.forall₂_cons_left_iff.mp hforall
  exact ⟨q, rest', hq, hpq⟩

/-- Requests without rows stay unmarked. -/
theorem marked (h : s.Served t) (hs : ∀ p ∈ s.outstanding, p.ready = true → p.rows ≠ []) :
    ∀ q ∈ t.outstanding, q.ready = true → q.rows ≠ [] := by
  intro q hq hready
  obtain ⟨i, hi, rfl⟩ := List.getElem_of_mem hq
  have hout := List.forall₂_iff_get.mp h.outstanding
  have his : i < s.outstanding.length := hout.1 ▸ hi
  have hp := hout.2 i his hi
  rw [List.get_eq_getElem, List.get_eq_getElem] at hp
  rw [hp.rows_eq]
  rcases hp.marked hready with hpr | hpr
  · exact hs _ (List.getElem_mem his) hpr
  · exact hpr

end Served

/-- The front request of a store, when it is marked. -/
theorem readyFrontRequestId_cons (s : RegisteredStore R) {p : Pending R} {rest : List (Pending R)}
    (h : s.outstanding = p :: rest) :
    s.readyFrontRequestId = if p.ready then p.requestId else 0 := by
  rw [readyFrontRequestId, h]

/-- Service keeps the mark of the front request. -/
theorem Served.readyFront {s t : RegisteredStore R} (h : s.Served t) {p : Pending R}
    {rest : List (Pending R)} (hout : s.outstanding = p :: rest) (hne : p.requestId ≠ 0)
    (hready : s.readyFrontRequestId = p.requestId) : t.readyFrontRequestId = p.requestId := by
  obtain ⟨q, rest', hq, hpq⟩ := h.front_eq hout
  have hp : p.ready = true := by
    by_contra hnot
    rw [s.readyFrontRequestId_cons hout, if_neg hnot] at hready
    exact hne hready.symm
  rw [t.readyFrontRequestId_cons hq, if_pos (hpq.kept hp), hpq.requestId_eq]

theorem pending_check (device : Device) (s : RegisteredStore R) (p : Pending R) :
    p.Served (s.check device p) where
  request := rfl
  kept := fun hp => by
    rw [check, hp]
    rfl
  marked := fun hq => by
    rw [check] at hq
    simp only [Bool.or_eq_true, Bool.and_eq_true, Bool.not_eq_true', List.isEmpty_eq_false_iff]
      at hq
    exact hq.imp id And.left

theorem served_window (device : Device) (windowSize : Nat) (s : RegisteredStore R) :
    ∃ id t, tryPollWindowSkipFront device windowSize s = (.ok id, t) ∧ s.Served t := by
  rw [tryPollWindowSkipFront]
  split
  · exact ⟨_, _, rfl, .refl s⟩
  · refine ⟨_, _, rfl, ?_, rfl, Nat.le_succ _, rfl⟩
    rw [List.forall₂_iff_get]
    refine ⟨by rw [List.length_mapIdx], fun i hs ht => ?_⟩
    rw [List.get_eq_getElem, List.get_eq_getElem, List.getElem_mapIdx]
    split
    · exact pending_check device s _
    · exact .refl _

theorem served_tryPoll (device : Device) (s : RegisteredStore R) :
    ∃ id t, tryPoll device s = (.ok id, t) ∧ s.Served t := by
  rw [tryPoll]
  cases hout : s.outstanding with
  | nil => exact ⟨_, _, rfl, .refl s⟩
  | cons p rest =>
    by_cases hp : p.ready = true
    · exact ⟨_, _, if_pos hp, .refl s⟩
    · refine ⟨_, _, if_neg hp, ?_, rfl, Nat.le_succ _, rfl⟩
      rw [hout]
      exact .cons (pending_check device s p) (List.forall₂_same.mpr fun q _ => .refl q)

/-- A try marks the front request, unless the device does not have its rows yet. -/
theorem tryPoll_eq (device : Device) {s : RegisteredStore R} {p : Pending R}
    {rest : List (Pending R)} (hout : s.outstanding = p :: rest) (hrows : p.rows ≠ []) :
    ∃ id t, tryPoll device s = (.ok id, t) ∧ s.Served t ∧
      (t.readyFrontRequestId = p.requestId ∨ t.readyFrontRequestId = 0 ∧
        device s.serviceCalls p.requestId = false ∧ t.serviceCalls = s.serviceCalls + 1) := by
  rw [tryPoll, hout]
  by_cases hp : p.ready = true
  · refine ⟨_, _, if_pos hp, .refl s, Or.inl ?_⟩
    rw [s.readyFrontRequestId_cons hout, if_pos hp]
  · refine ⟨_, _, if_neg hp, ⟨?_, rfl, Nat.le_succ _, rfl⟩, ?_⟩
    · rw [hout]
      exact .cons (pending_check device s p) (List.forall₂_same.mpr fun q _ => .refl q)
    · show (if (s.check device p).ready then p.requestId else 0) = p.requestId ∨ _
      have hcheck : (s.check device p).ready = device s.serviceCalls p.requestId := by
        rw [check, Bool.eq_false_iff.mpr hp, List.isEmpty_eq_false_iff.mpr hrows]
        rfl
      cases hfound : device s.serviceCalls p.requestId with
      | true =>
        left
        rw [hcheck, hfound]
        rfl
      | false =>
        right
        refine ⟨?_, rfl, rfl⟩
        show (if (s.check device p).ready then p.requestId else 0) = 0
        rw [hcheck, hfound]
        rfl

/-- A blocking poll of a front request with rows ends with its mark. -/
theorem pollCompatible_eq {s : RegisteredStore R} {p : Pending R} {rest : List (Pending R)}
    (hout : s.outstanding = p :: rest) (hrows : p.rows ≠ []) :
    ∃ t, pollCompatible s = (.ok p.requestId, t) ∧ s.Served t ∧
      t.readyFrontRequestId = p.requestId := by
  by_cases hp : p.ready = true
  · refine ⟨s, ?_, .refl s, ?_⟩
    · rw [pollCompatible, hout]
      exact if_pos hp
    · rw [s.readyFrontRequestId_cons hout, if_pos hp]
  · refine ⟨{ s with outstanding := { p with ready := true } :: rest }, ?_, ?_, rfl⟩
    · rw [pollCompatible, hout]
      show (if p.ready then _ else if p.rows.isEmpty then _ else _) = _
      rw [if_neg hp, if_neg (by rwa [List.isEmpty_iff])]
    · refine ⟨?_, rfl, Nat.le_refl _, rfl⟩
      rw [hout]
      refine .cons ⟨rfl, fun _ => rfl, fun _ => Or.inr hrows⟩ ?_
      exact List.forall₂_same.mpr fun q _ => .refl q

/-- A blocking poll of a request without rows throws. -/
theorem pollCompatible_eq_error {s : RegisteredStore R} {p : Pending R} {rest : List (Pending R)}
    (hout : s.outstanding = p :: rest) (hready : p.ready = false) (hrows : p.rows = []) :
    pollCompatible s = (.error (.runtime "No registered rowctx request to poll"), s) := by
  rw [pollCompatible, hout]
  show (if p.ready then _ else if p.rows.isEmpty then _ else _) = _
  rw [hready, hrows]
  rfl

/-- The store after some requests have been registered. -/
def registered (s : RegisteredStore R) (requests : List (List R)) : RegisteredStore R :=
  { s with
    outstanding := s.outstanding ++ requests.mapIdx fun i rows =>
      { requestId := s.nextRequestId + i, rows, ready := false }
    nextRequestId := s.nextRequestId + requests.length }

theorem registered_registered (s : RegisteredStore R) (l l' : List (List R)) :
    (s.registered l).registered l' = s.registered (l ++ l') := by
  simp only [registered, List.mapIdx_append, List.append_assoc, List.length_append, Nat.add_assoc,
    Nat.add_comm l.length]

theorem requests_registered (s : RegisteredStore R) (l : List (List R)) :
    (s.registered l).outstanding.map Pending.request =
      s.outstanding.map Pending.request ++ (List.range' s.nextRequestId l.length).zip l := by
  rw [registered, List.map_append]
  congr 1
  apply List.ext_getElem
  · simp only [List.length_map, List.length_mapIdx, List.length_zip, List.length_range',
      Nat.min_self]
  · intro i _ _
    simp only [List.getElem_map, List.getElem_mapIdx, List.getElem_zip, List.getElem_range',
      Nat.one_mul, Pending.request]

theorem requestIds_registered (s : RegisteredStore R) (l : List (List R)) :
    (s.registered l).outstanding.map Pending.requestId =
      s.outstanding.map Pending.requestId ++ List.range' s.nextRequestId l.length := by
  have h := congrArg (List.map Prod.fst) (s.requests_registered l)
  rw [List.map_append, List.map_map, List.map_map, List.map_fst_zip
    (Nat.le_of_eq List.length_range')] at h
  exact h

theorem get_eq {s : RegisteredStore R} {p : Pending R} {rest : List (Pending R)}
    (hout : s.outstanding = p :: rest) (hready : p.ready = true) (own : List R) :
    get own s = (.ok (filledRows own.length p.rows),
      { s with
        outstanding := rest
        gets := s.gets ++ [{ requestId := p.requestId, own, rows := p.rows }] }) := by
  rw [get, hout]
  exact if_pos hready

/-! ## Order -/

/-- What holds of a store while one iterator uses it: `first` is the first request of the
    iterator, and `foreign` are the requests that were outstanding before.  The gets take the
    requests in the order of their submits, each for its own rows, none while foreign ones
    wait; and only requests with rows are marked. -/
structure Ordered (first : Nat) (foreign : List (Nat × List R)) (s : RegisteredStore R) :
    Prop where
  order : s.gets.map Get.requestId ++ s.outstanding.map Pending.requestId =
    foreign.map Prod.fst ++ List.range' first (s.nextRequestId - first)
  foreign_lt : ∀ r ∈ foreign, 0 < r.1 ∧ r.1 < first
  waiting : foreign ≠ [] → s.gets = []
  first_le : first ≤ s.nextRequestId
  first_pos : 0 < first
  marked : ∀ p ∈ s.outstanding, p.ready = true → p.rows ≠ []
  paired : ∀ g ∈ s.gets, g.rows = g.own

/-- What an iterator finds that is created after others. -/
structure Leftover (s : RegisteredStore R) : Prop where
  ids : ∀ p ∈ s.outstanding, 0 < p.requestId ∧ p.requestId < s.nextRequestId
  next_pos : 0 < s.nextRequestId
  marked : ∀ p ∈ s.outstanding, p.ready = true → p.rows ≠ []

theorem leftover_idle (requests serviceCalls : Nat) :
    (idle requests serviceCalls : RegisteredStore R).Leftover where
  ids := fun _ hp => absurd hp List.not_mem_nil
  next_pos := Nat.succ_pos _
  marked := fun _ hp => absurd hp List.not_mem_nil

/-- The store of a new iterator, whose gets are counted from here on. -/
def fresh (s : RegisteredStore R) : RegisteredStore R := { s with gets := [] }

theorem Leftover.ordered {s : RegisteredStore R} (h : s.Leftover) :
    s.fresh.Ordered s.nextRequestId (s.outstanding.map Pending.request) where
  order := by
    show [] ++ s.outstanding.map Pending.requestId = _ ++ List.range' _ (s.nextRequestId - _)
    rw [Nat.sub_self, List.map_map]
    show _ = _ ++ []
    rw [List.nil_append, List.append_nil]
    rfl
  foreign_lt := fun r hr => by
    obtain ⟨p, hp, rfl⟩ := List.mem_map.mp hr
    exact h.ids p hp
  waiting := fun _ => rfl
  first_le := Nat.le_refl _
  first_pos := h.next_pos
  marked := h.marked
  paired := fun _ hg => absurd hg List.not_mem_nil

namespace Ordered

variable {first : Nat} {foreign : List (Nat × List R)} {s t : RegisteredStore R}

theorem served (h : s.Ordered first foreign) (hserved : s.Served t) : t.Ordered first foreign where
  order := by
    have hids := congrArg (List.map Prod.fst) hserved.requests_eq
    rw [List.map_map, List.map_map] at hids
    rw [hserved.gets, hserved.nextRequestId, ← h.order]
    exact congrArg (s.gets.map Get.requestId ++ ·) hids
  foreign_lt := h.foreign_lt
  waiting := by
    rw [hserved.gets]
    exact h.waiting
  first_le := by
    rw [hserved.nextRequestId]
    exact h.first_le
  first_pos := h.first_pos
  marked := hserved.marked h.marked
  paired := by
    rw [hserved.gets]
    exact h.paired

theorem registered (h : s.Ordered first foreign) (l : List (List R)) :
    (s.registered l).Ordered first foreign where
  order := by
    have hle := h.first_le
    rw [requestIds_registered, ← List.append_assoc]
    show s.gets.map Get.requestId ++ _ ++ _ =
      _ ++ List.range' first (s.nextRequestId + l.length - first)
    rw [h.order, show s.nextRequestId + l.length - first = s.nextRequestId - first + l.length by omega,
      ← List.range'_append_1, Nat.add_sub_of_le hle, List.append_assoc]
  foreign_lt := h.foreign_lt
  waiting := h.waiting
  first_le := Nat.le_trans h.first_le (Nat.le_add_right _ _)
  first_pos := h.first_pos
  marked := fun p hp hready => by
    rcases List.mem_append.mp hp with hp | hp
    · exact h.marked p hp hready
    · obtain ⟨i, _, rfl⟩ := List.mem_mapIdx.mp hp
      cases hready
  paired := h.paired

theorem id_bounds (h : s.Ordered first foreign) {p : Pending R} (hp : p ∈ s.outstanding) :
    0 < p.requestId ∧ p.requestId < s.nextRequestId := by
  have hmem : p.requestId ∈ foreign.map Prod.fst ++ List.range' first (s.nextRequestId - first) := by
    rw [← h.order]
    exact List.mem_append_right _ (List.mem_map_of_mem hp)
  have hle := h.first_le
  have hpos := h.first_pos
  rcases List.mem_append.mp hmem with hmem | hmem
  · obtain ⟨r, hr, hid⟩ := List.mem_map.mp hmem
    have := h.foreign_lt r hr
    omega
  · have hbounds := List.mem_range'_1.mp hmem
    omega

theorem ne_zero (h : s.Ordered first foreign) {p : Pending R} (hp : p ∈ s.outstanding) :
    p.requestId ≠ 0 :=
  Nat.ne_of_gt (h.id_bounds hp).1

theorem leftover (h : s.Ordered first foreign) : s.Leftover where
  ids := fun _ hp => h.id_bounds hp
  next_pos := Nat.lt_of_lt_of_le h.first_pos h.first_le
  marked := h.marked

/-- A get of the rows of the front request. -/
theorem get (h : s.Ordered first []) {p : Pending R} {rest : List (Pending R)}
    (hout : s.outstanding = p :: rest) :
    RegisteredStore.Ordered first [] { s with
      outstanding := rest
      gets := s.gets ++ [{ requestId := p.requestId, own := p.rows, rows := p.rows }] } where
  order := by
    have horder := h.order
    rw [hout] at horder
    rw [← horder]
    simp only [List.map_append, List.map_cons, List.map_nil, List.append_assoc, List.cons_append,
      List.nil_append]
  foreign_lt := h.foreign_lt
  waiting := fun hne => absurd rfl hne
  first_le := h.first_le
  first_pos := h.first_pos
  marked := fun q hq => h.marked q (by
    rw [hout]
    exact List.mem_cons_of_mem _ hq)
  paired := fun g hg => by
    rcases List.mem_append.mp hg with hg | hg
    · exact h.paired g hg
    · rw [List.mem_singleton.mp hg]

/-- No get has taken a foreign request. -/
theorem own_gets (h : s.Ordered first foreign) : ∀ g ∈ s.gets, first ≤ g.requestId := by
  intro g hg
  have horder := h.order
  by_cases hne : foreign = []
  · rw [hne, List.map_nil, List.nil_append] at horder
    have hmem : g.requestId ∈ List.range' first (s.nextRequestId - first) := by
      rw [← horder]
      exact List.mem_append_left _ (List.mem_map_of_mem hg)
    exact (List.mem_range'_1.mp hmem).1
  · rw [h.waiting hne] at hg
    cases hg

/-- Foreign requests stay outstanding. -/
theorem outstanding_ne_nil (h : s.Ordered first foreign) (hne : foreign ≠ []) :
    s.outstanding ≠ [] := by
  intro hnil
  have horder := h.order
  rw [h.waiting hne, hnil] at horder
  exact hne (List.map_eq_nil_iff.mp (List.append_eq_nil_iff.mp horder.symm).1)

/-- While foreign requests wait, one of them is at the front, and it is none of the
    iterator's own. -/
theorem foreign_front (h : s.Ordered first foreign) (hne : foreign ≠ [])
    {own : List (Nat × List R)} (hout : s.outstanding.map Pending.request = foreign ++ own) :
    (∃ p rest, s.outstanding = p :: rest ∧ p.requestId < first) ∧
      (∀ r ∈ own, first ≤ r.1) := by
  have hids := congrArg (List.map Prod.fst) hout
  rw [List.map_map, List.map_append] at hids
  have horder := h.order
  rw [h.waiting hne, List.map_nil, List.nil_append] at horder
  have hown : own.map Prod.fst = List.range' first (s.nextRequestId - first) :=
    List.append_cancel_left (hids.symm.trans horder)
  apply And.intro
  · obtain ⟨r, rs, rfl⟩ := List.exists_cons_of_ne_nil hne
    cases hcons : s.outstanding with
    | nil =>
      rw [hcons] at hout
      cases hout
    | cons p rest =>
      rw [hcons, List.map_cons, List.cons_append, List.cons.injEq] at hout
      refine ⟨p, rest, rfl, ?_⟩
      rw [show p.requestId = r.1 from congrArg Prod.fst hout.1]
      exact (h.foreign_lt r List.mem_cons_self).2
  · intro r hr
    have hmem : r.1 ∈ own.map Prod.fst := List.mem_map_of_mem hr
    rw [hown] at hmem
    exact (List.mem_range'_1.mp hmem).1

/-- While foreign requests wait, the ready front is none of the iterator's own requests. -/
theorem readyFront_ne (h : s.Ordered first foreign) (hne : foreign ≠ [])
    {own : List (Nat × List R)} (hout : s.outstanding.map Pending.request = foreign ++ own)
    {requestId : Nat} {rows : List R} (hmem : (requestId, rows) ∈ own) :
    s.readyFrontRequestId ≠ requestId := by
  obtain ⟨⟨p, rest, hcons, hlt⟩, hown⟩ := h.foreign_front hne hout
  have hpos := h.first_pos
  have hle : first ≤ requestId := hown _ hmem
  rw [s.readyFrontRequestId_cons hcons]
  split <;> omega

end Ordered

end RegisteredStore

/-! ## Programs over a store -/

/-- A store and the iterator that uses it. -/
structure Session (R It : Type) where
  store : RegisteredStore R
  iter : It

abbrev Program (R It A : Type) : Type := Prog PyError (Session R It) A

section Programs

variable {R It A : Type}

def onStore (f : RegisteredStore R → Except PyError A × RegisteredStore R) : Program R It A :=
  fun s => some ((f s.store).1, { s with store := (f s.store).2 })

def setIter (f : It → It) : Program R It Unit := Prog.modify fun s => { s with iter := f s.iter }

theorem returns_onStore {f : RegisteredStore R → Except PyError A × RegisteredStore R}
    {s : Session R It} {a : A} {t : RegisteredStore R} {Q : A → Session R It → Prop}
    (h : f s.store = (.ok a, t)) (hq : Q a { s with store := t }) :
    (onStore f : Program R It A).Returns s Q :=
  ⟨a, _, by rw [onStore, h], hq⟩

theorem raises_onStore {f : RegisteredStore R → Except PyError A × RegisteredStore R}
    {s : Session R It} {e : PyError} {t : RegisteredStore R} {Q : Session R It → Prop}
    (h : f s.store = (.error e, t)) (hq : Q { s with store := t }) :
    (onStore f : Program R It A).Raises s e Q :=
  ⟨_, by rw [onStore, h], hq⟩

theorem returns_submit {rows : List R} {s : Session R It} {Q : Nat → Session R It → Prop}
    (h : Q s.store.nextRequestId { s with store := s.store.registered [rows] }) :
    (onStore (RegisteredStore.submit rows) : Program R It Nat).Returns s Q :=
  returns_onStore rfl h

/-- A program that only has the store served. -/
def Serves (p : Program R It A) : Prop :=
  ∀ s, p.Returns s fun _ t => t.iter = s.iter ∧ s.store.Served t.store

theorem serves_window (device : Device) (windowSize : Nat) :
    Serves (onStore (RegisteredStore.tryPollWindowSkipFront device windowSize) :
      Program R It Nat) := by
  intro s
  obtain ⟨id, t, hcall, hserved⟩ := RegisteredStore.served_window device windowSize s.store
  exact returns_onStore hcall ⟨rfl, hserved⟩

theorem serves_tryPoll (device : Device) :
    Serves (onStore (RegisteredStore.tryPoll device) : Program R It Nat) := by
  intro s
  obtain ⟨id, t, hcall, hserved⟩ := RegisteredStore.served_tryPoll device s.store
  exact returns_onStore hcall ⟨rfl, hserved⟩

theorem serves_pure (a : A) : Serves (pure a : Program R It A) :=
  fun s => Prog.returns_pure ⟨rfl, .refl s.store⟩

end Programs

end GidsStack.Loader
