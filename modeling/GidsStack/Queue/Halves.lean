/-
  GidsStack.Queue.Halves

  Each half of a queue pair keeps to what the other one takes for granted: a step of the pair is
  a step of each half or leaves it alone (`Joined.step`).  So what was proved of submission and
  completion on their own holds of the pair, and a request that has polled has had its own
  command fetched as it wrote it, and executed (`pair_safe`).
-/

import GidsStack.Queue.Pair

namespace GidsStack.Queue

open Laps Lib Lock

variable {C : Type} {gs gc : QueueSize} {cid : C → Nat} {p p' : Pair C} {k : Nat}

/-! ## The halves fit together -/

/-- Where a request is in `move_head_cq`, as the submission queue sees it. -/
inductive Place
  | out
  | scan
  | slots
  | done

def RequestPc.place : RequestPc → Place
  | .loadCqHead | .exchangeMark .. | .loadLast .. => .scan
  | .moveSqHead .. => .slots
  | .writeDb .. | .storeHead .. | .freeHeadLock => .done
  | _ => .out

/-- The consumer of a request is where the request is. -/
def PlaceFact (cpc : ConsumePc) : Place → Prop
  | .out => cpc = .idle
  | .scan => cpc = .scan
  | .slots => cpc ≠ .idle ∧ cpc ≠ .scan
  | .done => cpc = .freeHeadLock

/-- How many completions have been dequeued, as the holder of `head_lock` sees it. -/
def DequeuedFact (c : Completion) (dequeued : Nat) : Place → Prop
  | .out => True
  | .scan => dequeued = c.passed
  | .slots | .done => dequeued = c.swept

/-- The request has an identifier, or had one. -/
def RequestPc.started : RequestPc → Bool
  | .drawCid | .lockCid _ => false
  | _ => true

structure Joined (gs gc : QueueSize) (cid : C → Nat) (p : Pair C) : Prop where
  lock : p.sub.headLock = p.comp.headLock
  place : ∀ k, PlaceFact (p.sub.consumer k) (p.comp.pc k).place
  dequeued : ∀ k, DequeuedFact p.comp p.sub.dequeued (p.comp.pc k).place
  dequeuedFree : p.comp.headLock = false → p.sub.dequeued = p.comp.passed
  length : p.sub.reports.length = p.comp.posted
  sqHead : ∀ n < p.comp.posted,
    (p.comp.log n).sqHead = p.sub.reports.getD n 0 % gs.qs &&& 65535
  reported_le : p.sub.reported ≤ p.fetched
  fetched_le : p.fetched ≤ p.sub.rung
  /-- the controller has fetched what the calls wrote -/
  taken : ∀ d < p.fetched, ∀ i < 2, p.taken d i = p.sub.cmd d i
  requester : ∀ k d, p.call k = some d → d < p.sub.drawn ∧ p.requester d = k
  call : ∀ d < p.sub.drawn, p.call (p.requester d) = some d
  uncalled : ∀ k, (p.comp.pc k).started = false → p.call k = none
  /-- a request goes on when its call has returned -/
  returned : ∀ k d, p.call k = some d → p.comp.pc k ≠ .enqueue → p.sub.pc d = .returned
  cmd : ∀ d < p.sub.drawn, cid (p.sub.cmd d 0) = p.comp.cid (p.requester d)
  /-- every completion is that of a command fetched -/
  answered : ∀ n < p.comp.posted, ∃ d < p.fetched,
    p.requester d = p.comp.owner n ∧ p.executed d = true

theorem joined_init (h : p.Init) : Joined gs gc cid p := by
  have hpc : ∀ k, p.comp.pc k = .drawCid := fun k => by rw [h.comp.pc]
  have hdrawn : ∀ {d}, d < p.sub.drawn → False := fun hd => by
    rw [h.sub.drawn] at hd
    exact Nat.not_lt_zero _ hd
  have hposted : ∀ {n}, n < p.comp.posted → False := fun hn => by
    rw [h.comp.posted] at hn
    exact Nat.not_lt_zero _ hn
  exact
    { lock := by rw [h.sub.headLock, h.comp.headLock]
      place := fun k => by
        rw [hpc, h.sub.consumer]
        rfl
      dequeued := fun k => by
        rw [hpc]
        trivial
      dequeuedFree := fun _ => by rw [h.sub.dequeued, h.comp.passed]
      length := by
        rw [h.sub.reports, h.comp.posted]
        rfl
      sqHead := fun _ hn => (hposted hn).elim
      reported_le := by
        rw [Submission.reported, h.sub.reports]
        exact Nat.zero_le _
      fetched_le := by
        rw [h.fetched]
        exact Nat.zero_le _
      taken := fun d hd => by
        rw [h.fetched] at hd
        exact absurd hd (Nat.not_lt_zero d)
      requester := fun k d hk => by
        rw [h.call] at hk
        cases hk
      call := fun _ hd => (hdrawn hd).elim
      uncalled := fun k _ => by rw [h.call]
      returned := fun k d hk => by
        rw [h.call] at hk
        cases hk
      cmd := fun _ hd => (hdrawn hd).elim
      answered := fun _ hn => (hposted hn).elim }

/-! ### Steps of a request -/

/-- What no step of a request changes in the submission queue; the doorbell only moves on. -/
structure KeepsCalls (q q' : Submission C) : Prop where
  drawn : q'.drawn = q.drawn
  cmd : q'.cmd = q.cmd
  reports : q'.reports = q.reports
  rung : q.rung ≤ q'.rung
  returned : ∀ d, q.pc d = .returned → q'.pc d = .returned

/-- An identifier is drawn before anything else, and then kept. -/
theorem Runs.started {s s' : Completion} (hs : Runs gc s k s') :
    ((s'.pc k).started = false → (s.pc k).started = false) ∧
      ((s.pc k).started = true → s'.cid = s.cid) := by
  cases hs with
  | spin => exact ⟨id, fun _ => rfl⟩
  | cidTaken hpc =>
    refine ⟨fun _ => by rw [hpc]; rfl, fun hst => ?_⟩
    rw [hpc] at hst
    cases hst
  | drawCid hpc | cidBusy hpc => exact ⟨fun _ => by rw [hpc]; rfl, fun _ => rfl⟩
  | _ =>
    refine ⟨fun hst => ?_, fun _ => rfl⟩
    rw [request_goto_pc] at hst
    cases hst

/-- A step of request `k` that is one of the completion side, and perhaps of the submission
    queue. -/
theorem Joined.of_run (h : Joined gs gc cid p) {c : Completion} {q : Submission C}
    (hs : Runs gc p.comp k c) (hq : KeepsCalls p.sub q)
    (hother : ∀ j, j ≠ k → q.consumer j = p.sub.consumer j) (hlock : q.headLock = c.headLock)
    (hplace : PlaceFact (q.consumer k) (c.pc k).place)
    (hdeq : DequeuedFact c q.dequeued (c.pc k).place)
    (hkept : (p.comp.pc k).inHead = false → q.dequeued = p.sub.dequeued)
    (hheld : Held (fun i => (p.comp.pc i).inHead = true) p.comp.headLock)
    (hret : p.comp.pc k = .enqueue → ∀ d, p.call k = some d → p.sub.pc d = .returned)
    (hfree : c.headLock = false → q.dequeued = c.passed) :
    Joined gs gc cid { p with comp := c, sub := q } := by
  have hf := hs.frame
  obtain ⟨hstart, hcid⟩ := hs.started
  refine
    { lock := hlock
      place := fun j => ?_
      dequeued := fun j => ?_
      dequeuedFree := hfree
      length := by
        show q.reports.length = c.posted
        rw [hq.reports, hf.posted, h.length]
      sqHead := fun n hn => by
        show (c.log n).sqHead = q.reports.getD n 0 % gs.qs &&& 65535
        replace hn : n < c.posted := hn
        rw [hf.posted] at hn
        rw [hq.reports, hf.log, h.sqHead n hn]
      reported_le := by
        show q.reports.getLastD 0 ≤ p.fetched
        rw [hq.reports]
        exact h.reported_le
      fetched_le := Nat.le_trans h.fetched_le hq.rung
      taken := fun d hd i hi => by
        show p.taken d i = q.cmd d i
        rw [hq.cmd]
        exact h.taken d hd i hi
      requester := fun j d hj => by
        show d < q.drawn ∧ _
        rw [hq.drawn]
        exact h.requester j d hj
      call := fun d hd => by
        replace hd : d < q.drawn := hd
        rw [hq.drawn] at hd
        exact h.call d hd
      uncalled := fun j hj => ?_
      returned := fun j d hj hpc => ?_
      cmd := fun d hd => ?_
      answered := fun n hn => by
        show ∃ d < p.fetched, p.requester d = c.owner n ∧ p.executed d = true
        replace hn : n < c.posted := hn
        rw [hf.posted] at hn
        rw [hf.owner]
        exact h.answered n hn }
  · by_cases hj : j = k
    · rw [hj]
      exact hplace
    · show PlaceFact (q.consumer j) (c.pc j).place
      rw [hother j hj, hf.pc_ne j hj]
      exact h.place j
  · by_cases hj : j = k
    · rw [hj]
      exact hdeq
    show DequeuedFact c q.dequeued (c.pc j).place
    rw [hf.pc_ne j hj]
    cases hin : (p.comp.pc k).inHead with
    | true =>
      -- the lock is `k`'s, so `j` is outside
      have hout : (p.comp.pc j).inHead ≠ true := fun hi => hj (hheld.unique j k hi hin)
      cases hpc : p.comp.pc j <;> rw [hpc] at hout <;> trivial
    | false =>
      have hold := h.dequeued j
      obtain ⟨h1, -, h3, -, -⟩ := hs.head_kept hin
      rw [hkept hin]
      cases hpl : (p.comp.pc j).place with
      | out => trivial
      | scan =>
        rw [hpl] at hold
        exact hold.trans h3.symm
      | slots | done =>
        rw [hpl] at hold
        exact hold.trans h1.symm
  · by_cases hjk : j = k
    · rw [hjk] at hj ⊢
      exact h.uncalled k (hstart hj)
    · replace hj : (c.pc j).started = false := hj
      rw [hf.pc_ne j hjk] at hj
      exact h.uncalled j hj
  · refine hq.returned d ?_
    by_cases hjk : j = k
    · rw [hjk] at hj
      by_cases henq : p.comp.pc k = .enqueue
      · exact hret henq d hj
      · exact h.returned k d hj henq
    · replace hpc : c.pc j ≠ .enqueue := hpc
      rw [hf.pc_ne j hjk] at hpc
      exact h.returned j d hj hpc
  · show cid (q.cmd d 0) = c.cid (p.requester d)
    replace hd : d < q.drawn := hd
    rw [hq.drawn] at hd
    rw [hq.cmd, h.cmd d hd]
    cases hst : (p.comp.pc k).started with
    | true => rw [hcid hst]
    | false =>
      -- who has no identifier yet has not called
      refine (hf.cid_ne _ ?_).symm
      intro heq
      have hnone := h.uncalled k hst
      rw [← heq, h.call d hd] at hnone
      cases hnone

/-- A step of the submission queue alone. -/
theorem Joined.of_sub (h : Joined gs gc cid p) {q : Submission C} (hq : KeepsCalls p.sub q)
    (hplace : ∀ j, PlaceFact (q.consumer j) (p.comp.pc j).place)
    (hlock : q.headLock = p.sub.headLock) (hdeq : q.dequeued = p.sub.dequeued) :
    Joined gs gc cid { p with sub := q } :=
  { lock := hlock.trans h.lock
    place := hplace
    dequeued := fun j => by
      show DequeuedFact p.comp q.dequeued _
      rw [hdeq]
      exact h.dequeued j
    dequeuedFree := fun hl => hdeq.trans (h.dequeuedFree hl)
    length := by
      show q.reports.length = _
      rw [hq.reports]
      exact h.length
    sqHead := fun n hn => by
      show _ = q.reports.getD n 0 % gs.qs &&& 65535
      rw [hq.reports]
      exact h.sqHead n hn
    reported_le := by
      show q.reports.getLastD 0 ≤ p.fetched
      rw [hq.reports]
      exact h.reported_le
    fetched_le := Nat.le_trans h.fetched_le hq.rung
    taken := fun d hd i hi => by
      show p.taken d i = q.cmd d i
      rw [hq.cmd]
      exact h.taken d hd i hi
    requester := fun j d hj => by
      show d < q.drawn ∧ _
      rw [hq.drawn]
      exact h.requester j d hj
    call := fun d hd => by
      replace hd : d < q.drawn := hd
      rw [hq.drawn] at hd
      exact h.call d hd
    uncalled := h.uncalled
    returned := fun j d hj hpc => hq.returned d (h.returned j d hj hpc)
    cmd := fun d hd => by
      show cid (q.cmd d 0) = _
      replace hd : d < q.drawn := hd
      rw [hq.drawn] at hd
      rw [hq.cmd]
      exact h.cmd d hd
    answered := h.answered }

theorem keepsCalls_refl (q : Submission C) : KeepsCalls q q :=
  ⟨rfl, rfl, rfl, Nat.le_refl _, fun _ => id⟩

/-- A step of a call. -/
theorem Sound.keepsCalls {q q' : Submission C} (h : Sound gs q) (hn : q.drawn < 4294967296)
    {d : Nat} (hs : Enqueues gs q d q') : KeepsCalls q q' where
  drawn := hs.frame.drawn
  cmd := hs.frame.cmd
  reports := hs.frame.reports
  rung := (h.db_enqueue hn hs).1
  returned j hj := by
    rw [hs.frame.pc_ne j ?_]
    · exact hj
    · rintro rfl
      exact hs.counts.2.1 hj

/-- A step of a consumer. -/
theorem Consumes.keepsCalls {q q' : Submission C} {t : Nat} (hs : Consumes gs q t q') :
    KeepsCalls q q' where
  drawn := hs.frame.drawn
  cmd := hs.frame.cmd
  reports := hs.frame.reports
  rung := Nat.le_of_eq hs.frame.rung.symm
  returned j hj := by rwa [hs.frame.pc]

/-- A consumer that moves the head of the submission queue. -/
theorem Consumes.slots {q q' : Submission C} {t : Nat} (hs : Consumes gs q t q')
    (hidle : q.consumer t ≠ .idle) (hscan : q.consumer t ≠ .scan)
    (hfree : q.consumer t ≠ .freeHeadLock) :
    q'.headLock = q.headLock ∧ q'.dequeued = q.dequeued ∧ q'.consumer t ≠ .idle ∧
      q'.consumer t ≠ .scan := by
  have hself : ∀ pc, Function.update q.consumer t pc t = pc := fun pc => Function.update_self ..
  cases hs with
  | busy hpc | take hpc => exact absurd hpc hidle
  | scanNone hpc | scan hpc => exact absurd hpc hscan
  | free hpc => exact absurd hpc hfree
  | headMoved | headStays | addTicket | addTicketLast | addHead =>
    refine ⟨rfl, rfl, ?_, ?_⟩ <;>
    · show Function.update q.consumer t _ t ≠ _
      rw [hself]
      exact ConsumePc.noConfusion

/-- A step outside the places where the two sides meet. -/
theorem Runs.alone {s s' : Completion} (hs : Runs gc s k s')
    (hpc : (s.pc k).alone = true ∨ s.pc k = .enqueue)
    (hmore : ∀ h n, s.pc k = .exchangeMark h n → s'.pc k ≠ .freeHeadLock) :
    (s'.pc k).place = (s.pc k).place ∧ s'.headLock = s.headLock ∧
      ∀ m, DequeuedFact s m (s.pc k).place → DequeuedFact s' m (s'.pc k).place := by
  cases hs with
  | spin => exact ⟨rfl, rfl, fun _ => id⟩
  | headBusy h | headTaken h | loadLast h | moveSqHead h | freeHeadLock h =>
    rw [h] at hpc
    rcases hpc with hpc | hpc <;> cases hpc
  | sweptNone h => exact absurd (request_goto_pc ..) (hmore _ _ h)
  | writeDb h | storeHead h =>
    rw [request_goto_pc, h]
    exact ⟨rfl, rfl, fun _ => id⟩
  | _ h =>
    rw [request_goto_pc, h]
    exact ⟨rfl, rfl, fun _ => id⟩

/-- The exchange of a mark moves neither the lock nor the head. -/
theorem Runs.scan {s s' : Completion} (hs : Runs gc s k s') {c n : Nat}
    (hpc : s.pc k = .exchangeMark c n) : s'.headLock = s.headLock ∧ s'.passed = s.passed := by
  cases hs with
  | headTaken hpc' | storeHead hpc' | freeHeadLock hpc' =>
    rw [hpc] at hpc'
    cases hpc'
  | _ => exact ⟨rfl, rfl⟩

/-! ### Steps of a request in `move_head_cq` -/

/-- Both sides read the same lock. -/
theorem Joined.lockTaken (h : Joined gs gc cid p) (hr : Reached gs p.sub)
    (hd : Dequeued gc p.comp) {c : Completion} {q : Submission C}
    (hpc : p.comp.pc k = .takeHeadLock) (hc : requestStep gc p.comp k = some c)
    (hq : takeHeadLock p.sub k = some q) :
    Reached gs q ∧ Joined gs gc cid { p with comp := c, sub := q } := by
  have hplace := h.place k
  rw [hpc] at hplace
  replace hplace : p.sub.consumer k = .idle := hplace
  have hrun := runs_of_step hc
  have hcons := consumes_of_take (g := gs) hq
  refine ⟨.step (a := .takeHeadLock k) hr hq, ?_⟩
  simp only [requestStep, hpc, Option.some.injEq] at hc
  simp only [takeHeadLock, hplace, Option.some.injEq] at hq
  subst hc hq
  refine h.of_run hrun hcons.keepsCalls (fun j hj => Function.update_of_ne hj _ _) rfl ?_ ?_
    (fun _ => rfl) (tracked_reached hd).headHeld (fun henq => by rw [hpc] at henq; cases henq)
    fun hl => by cases hl
  · show PlaceFact (Function.update p.sub.consumer k _ k) _
    rw [Function.update_self, request_goto_pc, h.lock]
    cases p.comp.headLock <;> rfl
  · rw [request_goto_pc]
    show DequeuedFact _ p.sub.dequeued _
    cases hl : p.comp.headLock with
    | true => trivial
    | false => exact h.dequeuedFree hl

/-- A sweep that found no mark moves neither head. -/
theorem Joined.sweptNone (h : Joined gs gc cid p) (hr : Reached gs p.sub)
    (hd : Dequeued gc p.comp) {c : Completion} {hd' n : Nat}
    (hpc : p.comp.pc k = .exchangeMark hd' n) (hc : requestStep gc p.comp k = some c)
    (hend : c.pc k = .freeHeadLock) :
    Reached gs (p.sub.cgoto k .freeHeadLock) ∧
      Joined gs gc cid { p with comp := c, sub := p.sub.cgoto k .freeHeadLock } := by
  have ht := tracked_reached hd
  have hplace := h.place k
  have hdeq := h.dequeued k
  rw [hpc] at hplace hdeq
  replace hplace : p.sub.consumer k = .scan := hplace
  have hrun := runs_of_step hc
  have hsub : scanMarks gs p.sub k 0 = some (p.sub.cgoto k .freeHeadLock) := by
    simp only [scanMarks, hplace, if_true]
  obtain ⟨hlock, hpassed⟩ := hrun.scan hpc
  have hfact := ht.sweeperFact_run hrun
  rw [hend] at hfact
  refine ⟨.step (a := .scanMarks k 0) hr hsub,
    h.of_run hrun (consumes_of_scan hsub).keepsCalls (fun j hj => Function.update_of_ne hj _ _)
      (h.lock.trans hlock.symm) ?_ ?_ (fun _ => rfl) ht.headHeld
      (fun henq => by rw [hpc] at henq; cases henq) fun _ => ?_⟩
  · show PlaceFact (Function.update p.sub.consumer k _ k) _
    rw [Function.update_self, hend]
    rfl
  · rw [hend]
    show p.sub.dequeued = c.swept
    rw [← hfact.1, hpassed]
    exact hdeq
  · show p.sub.dequeued = c.passed
    rw [hpassed]
    exact hdeq

/-- The entry that a sweep reads is that of the last completion swept, with the head reported
    there. -/
theorem Joined.lastEntry (h : Joined gs gc cid p) (hd : Dequeued gc p.comp) {c : Completion}
    {hd' n : Nat} (hpc : p.comp.pc k = .loadLast hd' n) (hc : requestStep gc p.comp k = some c) :
    0 < n ∧ p.comp.passed + n = p.comp.swept ∧
      p.sub.reports[p.sub.dequeued + (n - 1)]? =
        some (p.sub.reports.getD (p.sub.dequeued + (n - 1)) 0) ∧
      (p.comp.vaddr (add32 hd' (n - 1) &&& gc.qsMinus1)).sqHead =
        p.sub.reports.getD (p.sub.dequeued + (n - 1)) 0 % gs.qs &&& 65535 := by
  have ht := tracked_reached hd
  have hdeq := h.dequeued k
  have hfact := ht.sweeper k
  rw [hpc] at hdeq hfact
  replace hdeq : p.sub.dequeued = p.comp.passed := hdeq
  obtain ⟨-, hsum, -, hpos⟩ := hfact
  have hswept : p.comp.swept ≤ p.comp.posted := ht.ring.swept_le
  have hfact' := ht.sweeperFact_run (runs_of_step hc)
  simp only [requestStep, hpc, Option.some.injEq] at hc
  subst hc
  rw [request_goto_pc] at hfact'
  obtain ⟨-, -, -, -, hv⟩ := hfact'
  replace hv : (p.comp.vaddr (add32 hd' (n - 1) &&& gc.qsMinus1)).sqHead =
    (p.comp.log (p.comp.swept - 1)).sqHead := hv
  refine ⟨hpos, by omega, ?_, ?_⟩
  · have hlt : p.sub.dequeued + (n - 1) < p.sub.reports.length := by
      rw [h.length]
      omega
    rw [List.getD_eq_getElem?_getD, List.getElem?_eq_getElem hlt]
    rfl
  · rw [hv, h.sqHead _ (by omega), hdeq, show p.comp.swept - 1 = p.comp.passed + (n - 1) by omega]

/-- A sweep that found marks dequeues their completions on both sides. -/
theorem Joined.sweptLast (h : Joined gs gc cid p) (hr : Reached gs p.sub)
    (hd : Dequeued gc p.comp) {c : Completion} {hd' n : Nat}
    (hpc : p.comp.pc k = .loadLast hd' n) (hc : requestStep gc p.comp k = some c)
    {q : Submission C} (hq : { p.sub with
      dequeued := p.sub.dequeued + n
      read := p.sub.reports.getD (p.sub.dequeued + (n - 1)) 0 }.cgoto k
        (.loadSqHead (p.comp.vaddr (add32 hd' (n - 1) &&& gc.qsMinus1)).sqHead) = q) :
    Reached gs q ∧ Joined gs gc cid { p with comp := c, sub := q } := by
  have ht := tracked_reached hd
  have hplace := h.place k
  have hdeq := h.dequeued k
  rw [hpc] at hplace hdeq
  replace hplace : p.sub.consumer k = .scan := hplace
  replace hdeq : p.sub.dequeued = p.comp.passed := hdeq
  have hrun := runs_of_step hc
  obtain ⟨hpos, hsum, hget, hsq⟩ := h.lastEntry hd hpc hc
  have hsub : scanMarks gs p.sub k n = some q := by
    rw [← hq]
    simp only [scanMarks, hplace, if_neg (Nat.pos_iff_ne_zero.mp hpos), hget, hsq]
  subst hq
  simp only [requestStep, hpc, Option.some.injEq] at hc
  subst hc
  refine ⟨.step (a := .scanMarks k n) hr hsub,
    h.of_run hrun (consumes_of_scan hsub).keepsCalls (fun j hj => Function.update_of_ne hj _ _)
      h.lock ?_ ?_ (fun hout => by rw [hpc] at hout; cases hout) ht.headHeld
      (fun henq => by rw [hpc] at henq; cases henq) fun hl => ?_⟩
  · show PlaceFact (Function.update p.sub.consumer k _ k) _
    rw [Function.update_self, request_goto_pc]
    exact ⟨ConsumePc.noConfusion, ConsumePc.noConfusion⟩
  · rw [request_goto_pc]
    show p.sub.dequeued + n = p.comp.swept
    omega
  · have hup := ht.headHeld.locked (i := k) (by rw [hpc]; rfl)
    rw [show p.comp.headLock = false from hl] at hup
    cases hup

/-- Both sides give the lock back at the head of the completions swept. -/
theorem Joined.lockFreed (h : Joined gs gc cid p) (hr : Reached gs p.sub)
    (hd : Dequeued gc p.comp) {c : Completion} {q : Submission C}
    (hpc : p.comp.pc k = .freeHeadLock) (hc : requestStep gc p.comp k = some c)
    (hq : consumeStep gs p.sub k = some q) :
    Reached gs q ∧ Joined gs gc cid { p with comp := c, sub := q } := by
  have ht := tracked_reached hd
  have hplace := h.place k
  have hdeq := h.dequeued k
  have hfact := ht.sweeper k
  rw [hpc] at hplace hdeq hfact
  replace hplace : p.sub.consumer k = .freeHeadLock := hplace
  have hrun := runs_of_step hc
  have hcons := consumes_of_consume hq
  refine ⟨.step (a := .consume k) hr hq, ?_⟩
  simp only [requestStep, hpc, Option.some.injEq] at hc
  simp only [consumeStep, hplace, Option.some.injEq] at hq
  subst hc hq
  refine h.of_run hrun hcons.keepsCalls (fun j hj => Function.update_of_ne hj _ _) rfl ?_ ?_
    (fun _ => rfl) ht.headHeld (fun henq => by rw [hpc] at henq; cases henq) fun _ => ?_
  · show PlaceFact (Function.update p.sub.consumer k _ k) _
    rw [Function.update_self, request_goto_pc]
    rfl
  · rw [request_goto_pc]
    trivial
  · exact Eq.trans hdeq hfact.1.symm

/-- A step of the completion side only, away from the places where the two sides meet. -/
theorem Joined.alone (h : Joined gs gc cid p) (hd : Dequeued gc p.comp) {c : Completion}
    (hpc : (p.comp.pc k).alone = true) (hc : requestStep gc p.comp k = some c)
    (hmore : ∀ h n, p.comp.pc k = .exchangeMark h n → c.pc k ≠ .freeHeadLock) :
    Joined gs gc cid { p with comp := c } := by
  have ht := tracked_reached hd
  have hrun := runs_of_step hc
  obtain ⟨hpl, hlock, hdq⟩ := hrun.alone (.inl hpc) hmore
  refine h.of_run hrun (keepsCalls_refl _) (fun _ _ => rfl) (h.lock.trans hlock.symm)
    (by rw [hpl]; exact h.place k) (hdq _ (h.dequeued k)) (fun _ => rfl) ht.headHeld ?_
    fun hl => ?_
  · intro henq
    rw [henq] at hpc
    cases hpc
  · rw [hlock] at hl
    have hout : (p.comp.pc k).inHead = false := by
      rw [Bool.eq_false_iff]
      have hheld := ht.headHeld
      rw [hl] at hheld
      exact hheld.not_inside k
    rw [(hrun.head_kept hout).2.2.1]
    exact h.dequeuedFree hl

theorem Joined.run (h : Joined gs gc cid p) (hr : Reached gs p.sub) (hd : Dequeued gc p.comp)
    (hn : p.sub.drawn < 4294967296) (hs : PairRuns gs gc p k p')
    (hfresh : Fresh gc p.comp (.run k)) :
    Reached gs p'.sub ∧ Dequeued gc p'.comp ∧ Joined gs gc cid p' := by
  have hsound := sound_reached hr hn
  have ht := tracked_reached hd
  have hstep : ∀ {c}, requestStep gc p.comp k = some c → Dequeued gc c :=
    fun hc => .step (a := .run k) hd ⟨hfresh, hc⟩
  cases hs with
  | @call d q hpc hcall hq =>
    have hen := enqueues_of_step hq
    refine ⟨.step (a := .enqueue d) hr hq, hd, h.of_sub (hsound.keepsCalls hn hen) ?_
      hen.frame.headLock hen.frame.dequeued⟩
    rw [hen.frame.consumer]
    exact h.place
  | @enqueued d c hpc hcall hret hc =>
    have hrun := runs_of_step hc
    obtain ⟨hpl, hlock, hdq⟩ := hrun.alone (.inr hpc) (by rw [hpc]; exact fun _ _ he => by cases he)
    refine ⟨hr, hstep hc, h.of_run hrun (keepsCalls_refl _) (fun _ _ => rfl)
      (h.lock.trans hlock.symm) (by rw [hpl]; exact h.place k) (hdq _ (h.dequeued k))
      (fun _ => rfl) ht.headHeld ?_ fun hl => ?_⟩
    · intro _ d' hcall'
      rw [hcall] at hcall'
      rw [← Option.some.inj hcall']
      exact hret
    · rw [hlock] at hl
      rw [(hrun.head_kept (by rw [hpc]; rfl)).2.2.1]
      exact h.dequeuedFree hl
  | @lock c q hpc hc hq =>
    obtain ⟨hr', h'⟩ := h.lockTaken hr hd hpc hc hq
    exact ⟨hr', hstep hc, h'⟩
  | @nothing c hd' n hpc hc hend =>
    obtain ⟨hr', h'⟩ := h.sweptNone hr hd hpc hc hend
    exact ⟨hr', hstep hc, h'⟩
  | @last c hd' n hpc hc =>
    obtain ⟨hr', h'⟩ := h.sweptLast hr hd hpc hc rfl
    exact ⟨hr', hstep hc, h'⟩
  | @slots q hd' n v hpc hnf hq =>
    have hplace := h.place k
    rw [hpc] at hplace
    have hcons := consumes_of_consume hq
    obtain ⟨hlock, hdq, hidle, hscan⟩ := hcons.slots hplace.1 hplace.2 hnf
    refine ⟨.step (a := .consume k) hr hq, hd, h.of_sub hcons.keepsCalls (fun j => ?_) hlock hdq⟩
    by_cases hj : j = k
    · rw [hj, hpc]
      exact ⟨hidle, hscan⟩
    · rw [hcons.frame.consumer_ne j hj]
      exact h.place j
  | @moved c hd' n v hpc hend hc =>
    have hdeq := h.dequeued k
    rw [hpc] at hdeq
    have hrun := runs_of_step hc
    have hc' := hc
    simp only [requestStep, hpc, Option.some.injEq] at hc
    subst hc
    refine ⟨hr, hstep hc', h.of_run hrun (keepsCalls_refl _) (fun _ _ => rfl) h.lock ?_ ?_
      (fun _ => rfl) ht.headHeld (fun henq => by rw [hpc] at henq; cases henq) h.dequeuedFree⟩
    · rw [request_goto_pc]
      exact hend
    · rw [request_goto_pc]
      exact hdeq
  | @unlock c q hpc hc hq =>
    obtain ⟨hr', h'⟩ := h.lockFreed hr hd hpc hc hq
    exact ⟨hr', hstep hc, h'⟩
  | @alone c hpc hc hmore => exact ⟨hr, hstep hc, h.alone hd hpc hc hmore⟩

/-! ### Calls and the controller -/

theorem Joined.enqueue (h : Joined gs gc cid p) (hsound : Sound gs p.sub) {c : Nat → C}
    (hpc : p.comp.pc k = .enqueue) (hnone : p.call k = none) (hcid : cid (c 0) = p.comp.cid k) :
    Joined gs gc cid { p with
      sub := draw p.sub c
      call := Function.update p.call k (some p.sub.drawn)
      requester := Function.update p.requester p.sub.drawn k } := by
  have hfetched : p.fetched ≤ p.sub.drawn :=
    Nat.le_trans h.fetched_le (Nat.le_trans hsound.rung_le hsound.ring.swept_le)
  have hreq : ∀ d, d < p.sub.drawn → Function.update p.requester p.sub.drawn k d = p.requester d :=
    fun d hd => Function.update_of_ne (Nat.ne_of_lt hd) _ _
  -- the calls made so far are other requests'
  have hother : ∀ d < p.sub.drawn, p.requester d ≠ k := by
    intro d hd heq
    have hcall := h.call d hd
    rw [heq, hnone] at hcall
    cases hcall
  refine
    { lock := h.lock
      place := h.place
      dequeued := h.dequeued
      dequeuedFree := h.dequeuedFree
      length := h.length
      sqHead := h.sqHead
      reported_le := h.reported_le
      fetched_le := h.fetched_le
      taken := fun d hd i hi => ?_
      requester := fun j d hj => ?_
      call := fun d hd => ?_
      uncalled := fun j hj => ?_
      returned := fun j d hj hpcj => ?_
      cmd := fun d hd => ?_
      answered := fun n hn => ?_ }
  · show p.taken d i = Function.update p.sub.cmd p.sub.drawn c d i
    replace hd : d < p.fetched := hd
    rw [Function.update_of_ne (by omega)]
    exact h.taken d hd i hi
  · replace hj : Function.update p.call k (some p.sub.drawn) j = some d := hj
    show d < p.sub.drawn + 1 ∧ Function.update p.requester p.sub.drawn k d = j
    rcases of_update_some hj with ⟨rfl, he⟩ | ⟨-, hj⟩
    · rw [← Option.some.inj he, Function.update_self]
      exact ⟨Nat.lt_succ_self _, rfl⟩
    · obtain ⟨hd, hjd⟩ := h.requester j d hj
      rw [hreq d hd]
      exact ⟨Nat.lt_succ_of_lt hd, hjd⟩
  · show Function.update p.call k (some p.sub.drawn)
      (Function.update p.requester p.sub.drawn k d) = some d
    rcases Nat.lt_succ_iff_lt_or_eq.mp hd with hd | rfl
    · rw [hreq d hd, Function.update_of_ne (hother d hd)]
      exact h.call d hd
    · rw [Function.update_self, Function.update_self]
  · have hjk : j ≠ k := by
      rintro rfl
      rw [hpc] at hj
      cases hj
    exact (Function.update_of_ne hjk _ _).trans (h.uncalled j hj)
  · have hjk : j ≠ k := by
      rintro rfl
      exact hpcj hpc
    replace hj : Function.update p.call k (some p.sub.drawn) j = some d := hj
    rw [Function.update_of_ne hjk] at hj
    have hd := (h.requester j d hj).1
    show Function.update p.sub.pc p.sub.drawn .waitRelaxed d = .returned
    rw [Function.update_of_ne (Nat.ne_of_lt hd)]
    exact h.returned j d hj hpcj
  · show cid (Function.update p.sub.cmd p.sub.drawn c d 0) =
      p.comp.cid (Function.update p.requester p.sub.drawn k d)
    rcases Nat.lt_succ_iff_lt_or_eq.mp hd with hd | rfl
    · rw [hreq d hd, Function.update_of_ne (Nat.ne_of_lt hd)]
      exact h.cmd d hd
    · rw [Function.update_self, Function.update_self]
      exact hcid
  · obtain ⟨d, hd, hown, hex⟩ := h.answered n hn
    exact ⟨d, hd, (hreq d (Nat.lt_of_lt_of_le hd hfetched)).trans hown, hex⟩

theorem Joined.fetch (h : Joined gs gc cid p) (hsound : Sound gs p.sub)
    (hne : p.fetched % gs.qs ≠ p.sub.db) :
    Joined gs gc cid { p with
      fetched := p.fetched + 1
      taken := Function.update p.taken p.fetched (p.sub.vaddr (p.fetched % gs.qs)) } := by
  have hlt : p.fetched < p.sub.rung := by
    refine Nat.lt_of_le_of_ne h.fetched_le fun heq => hne ?_
    rw [hsound.db, heq]
  have hacked : p.sub.acked ≤ p.fetched :=
    Nat.le_trans hsound.acked_le (Nat.le_trans hsound.read_le h.reported_le)
  exact
    { h with
      reported_le := Nat.le_succ_of_le h.reported_le
      fetched_le := hlt
      taken := fun d hd i hi => by
        show Function.update p.taken p.fetched (p.sub.vaddr (p.fetched % gs.qs)) d i =
          p.sub.cmd d i
        rcases Nat.lt_succ_iff_lt_or_eq.mp hd with hd | rfl
        · rw [Function.update_of_ne (Nat.ne_of_lt hd)]
          exact h.taken d hd i hi
        · -- what is announced and not consumed stands in its entry
          rw [Function.update_self]
          exact hsound.intact_rung hacked hlt i hi
      answered := fun n hn => by
        obtain ⟨d, hd, hown, hex⟩ := h.answered n hn
        exact ⟨d, Nat.lt_succ_of_lt hd, hown, hex⟩ }

/-- A completion that the controller may post is one that the completion side expects. -/
theorem Joined.mayPost (h : Joined gs gc cid p) (hsound : Sound gs p.sub) (ht : Tracked gc p.comp)
    {d : Nat} {e : Cpl} (hmay : p.MayComplete gs gc cid d e) :
    p.comp.MayPost gc (p.requester d) e := by
  obtain ⟨hd, hex, hcid, -, hphase, hroom⟩ := hmay
  have hdrawn : d < p.sub.drawn :=
    Nat.lt_of_lt_of_le hd
      (Nat.le_trans h.fetched_le (Nat.le_trans hsound.rung_le hsound.ring.swept_le))
  have hcall := h.call d hdrawn
  have hnew : ∀ n < p.comp.posted, p.comp.owner n ≠ p.requester d := by
    intro n hn heq
    obtain ⟨d', hd', hown, hex'⟩ := h.answered n hn
    have hcall' := h.call d' (Nat.lt_of_lt_of_le hd'
      (Nat.le_trans h.fetched_le (Nat.le_trans hsound.rung_le hsound.ring.swept_le)))
    rw [hown, heq, hcall] at hcall'
    rw [← Option.some.inj hcall', hex] at hex'
    cases hex'
  refine ⟨?_, hnew, ?_, hphase, hroom⟩
  · -- a request that has called and not polled waits for its completion
    by_contra haw
    have hstarted : (p.comp.pc (p.requester d)).started ≠ false := by
      intro hst
      rw [h.uncalled _ hst] at hcall
      cases hcall
    have hpolled : (p.comp.pc (p.requester d)).polled = true := by
      cases hpc : p.comp.pc (p.requester d) <;> rw [hpc] at haw hstarted <;> first
        | rfl
        | exact absurd rfl haw
        | exact absurd rfl hstarted
    obtain ⟨hn, hown⟩ := ht.ring.reply _ _ (stage_reply hpolled _ _)
    exact hnew _ hn hown
  · rw [hcid, h.taken d hd 0 (by decide), h.cmd d hdrawn]

theorem Joined.complete (h : Joined gs gc cid p) {d : Nat} {e : Cpl}
    (hmay : p.MayComplete gs gc cid d e) :
    Joined gs gc cid { p with
      comp := { p.comp with
        vaddr := Function.update p.comp.vaddr (tailAfter gc.qs p.comp.posted).pos e
        log := Function.update p.comp.log p.comp.posted e
        owner := Function.update p.comp.owner p.comp.posted (p.requester d)
        posted := p.comp.posted + 1 }
      sub := { p.sub with reports := p.sub.reports ++ [p.fetched] }
      executed := Function.update p.executed d true } := by
  obtain ⟨hd, -, -, hsq, -, -⟩ := hmay
  have hexecuted : ∀ d', p.executed d' = true → Function.update p.executed d true d' = true := by
    intro d' hd'
    by_cases heq : d' = d
    · rw [heq, Function.update_self]
    · rw [Function.update_of_ne heq]
      exact hd'
  refine
    { h with
      length := ?_
      sqHead := fun n hn => ?_
      reported_le := ?_
      answered := fun n hn => ?_ }
  · show (p.sub.reports ++ [p.fetched]).length = p.comp.posted + 1
    rw [List.length_append, h.length]
    rfl
  · show (Function.update p.comp.log p.comp.posted e n).sqHead =
      (p.sub.reports ++ [p.fetched]).getD n 0 % gs.qs &&& 65535
    rcases Nat.lt_succ_iff_lt_or_eq.mp hn with hn | rfl
    · have hlt : n < p.sub.reports.length := by
        rw [h.length]
        exact hn
      rw [Function.update_of_ne (Nat.ne_of_lt hn), h.sqHead n hn, List.getD_eq_getElem?_getD,
        List.getD_eq_getElem?_getD, List.getElem?_append_left hlt]
    · rw [Function.update_self, List.getD_eq_getElem?_getD, ← h.length,
        List.getElem?_concat_length]
      exact hsq
  · show (p.sub.reports ++ [p.fetched]).getLastD 0 ≤ p.fetched
    rw [List.getLastD_concat]
  · show ∃ d' < p.fetched, p.requester d' =
      Function.update p.comp.owner p.comp.posted (p.requester d) n ∧
        Function.update p.executed d true d' = true
    rcases Nat.lt_succ_iff_lt_or_eq.mp hn with hn | rfl
    · obtain ⟨d', hd', hown, hex⟩ := h.answered n hn
      rw [Function.update_of_ne (Nat.ne_of_lt hn)]
      exact ⟨d', hd', hown, hexecuted d' hex⟩
    · rw [Function.update_self]
      exact ⟨d, hd, rfl, Function.update_self ..⟩

/-- A step of the pair is a step of each half, or leaves it alone. -/
theorem Joined.step (h : Joined gs gc cid p) (hr : Reached gs p.sub) (hd : Dequeued gc p.comp)
    (hn : p.sub.drawn < 4294967296) {a : PairAct C} (hs : pairStep gs gc cid p a = some p')
    (hfresh : PairFresh gc p a) :
    Reached gs p'.sub ∧ Dequeued gc p'.comp ∧ Joined gs gc cid p' := by
  have hsound := sound_reached hr hn
  cases a with
  | enqueue k c =>
    rw [pairStep] at hs
    split at hs
    case isTrue hmay =>
      obtain rfl := Option.some.inj hs
      exact ⟨.step (a := .draw c) hr rfl, hd, h.enqueue hsound hmay.1 hmay.2.1 hmay.2.2⟩
    case isFalse => cases hs
  | run k => exact h.run hr hd hn (pairRuns_of_run hs) hfresh
  | fetch =>
    rw [pairStep] at hs
    split at hs
    case isTrue hne =>
      obtain rfl := Option.some.inj hs
      exact ⟨hr, hd, h.fetch hsound hne⟩
    case isFalse => cases hs
  | complete d e =>
    rw [pairStep] at hs
    split at hs
    case isTrue hmay =>
      obtain rfl := Option.some.inj hs
      refine ⟨.step (a := .report p.fetched) hr ?_, .step (a := .post (p.requester d) e) hd
        ⟨trivial, ?_⟩, h.complete hmay⟩
      · rw [Queue.step, if_pos ⟨h.reported_le, h.fetched_le⟩]
      · rw [completionStep, if_pos (h.mayPost hsound (tracked_reached hd) hmay)]
    case isFalse => cases hs

/-! ## Runs -/

/-- Calls are not unmade. -/
theorem pairStep_drawn_le {a : PairAct C} (hs : pairStep gs gc cid p a = some p') :
    p.sub.drawn ≤ p'.sub.drawn := by
  cases a with
  | enqueue k c =>
    rw [pairStep] at hs
    split at hs
    case isTrue =>
      obtain rfl := Option.some.inj hs
      exact Nat.le_succ _
    case isFalse => cases hs
  | run k =>
    cases pairRuns_of_run hs with
    | call _ _ hq => exact Nat.le_of_eq (enqueues_of_step hq).frame.drawn.symm
    | lock _ _ hq => exact Nat.le_of_eq (consumes_of_take (g := gs) hq).frame.drawn.symm
    | slots _ _ hq | unlock _ _ hq => exact Nat.le_of_eq (consumes_of_consume hq).frame.drawn.symm
    | enqueued | nothing | last | moved | alone => exact Nat.le_refl _
  | fetch =>
    rw [pairStep] at hs
    split at hs
    case isTrue =>
      obtain rfl := Option.some.inj hs
      exact Nat.le_refl _
    case isFalse => cases hs
  | complete d e =>
    rw [pairStep] at hs
    split at hs
    case isTrue =>
      obtain rfl := Option.some.inj hs
      exact Nat.le_refl _
    case isFalse => cases hs

/-- The states of a queue pair, whoever steps and in whatever order, while no request falls two
    laps behind the controller. -/
abbrev PairReached (gs gc : QueueSize) (cid : C → Nat) : Pair C → Prop :=
  Reachable Pair.Init (Guarded (pairStep gs gc cid) (PairFresh gc))

theorem joined_reached (h : PairReached gs gc cid p) (hn : p.sub.drawn < 4294967296) :
    Reached gs p.sub ∧ Dequeued gc p.comp ∧ Joined gs gc cid p := by
  induction h with
  | init h0 => exact ⟨.init h0.sub, .init h0.comp, joined_init h0⟩
  | step _ hs ih =>
    have hlt := Nat.lt_of_le_of_lt (pairStep_drawn_le hs.2) hn
    obtain ⟨hr, hd, hj⟩ := ih hlt
    exact hj.step hr hd hlt hs.2 hs.1

structure PairSafe (gs gc : QueueSize) (p : Pair C) : Prop where
  /-- each half is in a state that it reaches on its own -/
  submission : Reached gs p.sub
  completion : Dequeued gc p.comp
  /-- the controller stays within what was announced, and has executed what the calls wrote -/
  fetched : p.fetched ≤ p.sub.rung ∧ p.sub.rung - p.fetched ≤ gs.qsMinus1 ∧
    ∀ d < p.fetched, ∀ i < 2, p.taken d i = p.sub.cmd d i
  /-- a request that has polled has returned from its call, its command has been executed, and
      the completion it found is the one posted for it -/
  answered : ∀ k, (p.comp.pc k).polled = true → ∃ d < p.fetched, p.call k = some d ∧
    p.sub.pc d = .returned ∧ p.executed d = true ∧ p.comp.owner (p.comp.index k) = k ∧
      (p.comp.log (p.comp.index k)).cid = p.comp.cid k
  /-- no two requests share a call -/
  calls : ∀ j k d, p.call j = some d → p.call k = some d → j = k
  /-- the head of the submission queue that `move_head_cq` moves to is one the controller
      reported -/
  sqHead : ∀ k c n v, p.comp.pc k = .moveSqHead c n v → ∃ r ∈ p.sub.reports, r ≤ p.fetched ∧
    v = r % gs.qs &&& 65535

/-- The guarantees of a queue pair, in every run of fewer than `2 ^ 32` calls. -/
theorem pair_safe (h : PairReached gs gc cid p) (hn : p.sub.drawn < 4294967296) :
    PairSafe gs gc p := by
  obtain ⟨hr, hd, hj⟩ := joined_reached h hn
  have hsound := sound_reached hr hn
  have ht := tracked_reached hd
  obtain ⟨hhead, hroom⟩ := hsound.room_rung
  have hfetched : p.sub.head ≤ p.fetched :=
    Nat.le_trans (Nat.le_trans hsound.ring.head_le hsound.acked_le)
      (Nat.le_trans hsound.read_le hj.reported_le)
  refine
    { submission := hr
      completion := hd
      fetched := ⟨hj.fetched_le, by omega, hj.taken⟩
      answered := fun k hk => ?_
      calls := fun j k d hcj hck => (hj.requester j d hcj).2.symm.trans (hj.requester k d hck).2
      sqHead := fun k c n v hpc => ?_ }
  · obtain ⟨hlt, hown⟩ := ht.ring.reply k (p.comp.index k) (stage_reply hk _ _)
    replace hown : p.comp.owner (p.comp.index k) = k := hown
    obtain ⟨d, hdf, hreq, hex⟩ := hj.answered _ hlt
    have hdrawn : d < p.sub.drawn :=
      Nat.lt_of_lt_of_le hdf
        (Nat.le_trans hj.fetched_le (Nat.le_trans hsound.rung_le hsound.ring.swept_le))
    have hcall := hj.call d hdrawn
    rw [hreq, hown] at hcall
    refine ⟨d, hdf, hcall, hj.returned k d hcall ?_, hex, hown, ?_⟩
    · intro hpc
      rw [hpc] at hk
      cases hk
    · rw [ht.logCid _ hlt, hown]
  · have hfact := ht.sweeper k
    rw [hpc] at hfact
    obtain ⟨-, hsum, -, hpos, hv⟩ := hfact
    have hswept : p.comp.swept ≤ p.comp.posted := ht.ring.swept_le
    have hlt : p.comp.swept - 1 < p.sub.reports.length := by
      rw [hj.length]
      omega
    refine ⟨p.sub.reports[p.comp.swept - 1], List.getElem_mem hlt, ?_, ?_⟩
    · exact Nat.le_trans (hsound.le_reported _ (List.getElem_mem hlt)) hj.reported_le
    · rw [hv, hj.sqHead _ (by omega), List.getD_eq_getElem?_getD, List.getElem?_eq_getElem hlt]
      rfl

/-! ### Two requests whose commands are completed the other way round -/

def newPair : Pair Nat where
  sub := newQueue
  comp := newCompletion
  call _ := none
  requester _ := 0
  fetched := 0
  taken _ _ := 0
  executed _ := false

theorem newPair_init : newPair.Init :=
  ⟨newQueue_init, newCompletion_init, rfl, rfl, rfl⟩

/-- The identifier in the upper half of the first word. -/
def upperCid (c : Nat) : Nat := c >>> 16

/-- Both requests enqueue, the controller fetches both commands and completes the second one
    first; request 0 polls before request 1 has marked its completion. -/
def crossedPair : List (PairAct Nat) :=
  List.flatten
    [List.replicate 2 (.run 0), [.enqueue 0 fun i => i + 2], List.replicate 19 (.run 0),
      List.replicate 2 (.run 1), [.enqueue 1 fun i => i + 65538], List.replicate 19 (.run 1),
      [.fetch, .fetch, .complete 1 ⟨2, 65537⟩, .complete 0 ⟨2, 65536⟩],
      List.replicate 11 (.run 0), List.replicate 24 (.run 1), List.replicate 4 (.run 0)]

theorem crossedPair_ends :
    (runActs (pairStep qsFour qsFour upperCid) newPair crossedPair).map (fun p =>
      (p.sub.drawn, decide (p.comp.pc 0 = .returned), decide (p.comp.pc 1 = .returned),
        p.comp.index 0, p.comp.index 1, p.sub.head)) = some (2, true, true, 1, 0, 2) := by
  decide +kernel

theorem crossedPair_fresh :
    runOk (pairStep qsFour qsFour upperCid) (PairFresh qsFour) newPair crossedPair := by
  decide +kernel

/-- Both requests end, each with the command it wrote executed. -/
theorem crossedPair_safe :
    ∃ p, runActs (pairStep qsFour qsFour upperCid) newPair crossedPair = some p ∧
      PairSafe qsFour qsFour p ∧ p.comp.pc 0 = .returned ∧ p.comp.pc 1 = .returned := by
  obtain ⟨p, hrun, hends⟩ := Option.map_eq_some_iff.mp crossedPair_ends
  have hdrawn : p.sub.drawn = 2 := congrArg Prod.fst hends
  have hpc0 : p.comp.pc 0 = .returned := of_decide_eq_true (congrArg (fun t => t.2.1) hends)
  have hpc1 : p.comp.pc 1 = .returned := of_decide_eq_true (congrArg (fun t => t.2.2.1) hends)
  refine ⟨p, hrun, pair_safe
    (reachable_of_runActs (.init newPair_init) crossedPair_fresh hrun) ?_, hpc0, hpc1⟩
  rw [hdrawn]
  decide

end GidsStack.Queue
