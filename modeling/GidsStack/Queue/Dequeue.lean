/-
  GidsStack.Queue.Dequeue

  What the completion side guarantees in every run in which no request falls two laps behind
  the controller while it looks for its completion: an identifier is used by one request at a
  time, a poll returns the request's own completion whatever the order in which completions
  come, no entry is written again before its request has marked it, head and doorbell move over
  marked entries only, and a request is done only when the head has passed its completion, so
  that its identifier can be given to another.
-/

import GidsStack.Queue.Replies
import GidsStack.Queue.Safety

namespace GidsStack.Queue

open Laps Lib Lock ReplyRing

variable {g : QueueSize} {s s' : Completion} {k : Nat}

/-- In the loop of `cq_dequeue` that goes on while the mark is up. -/
def RequestPc.inLoop : RequestPc → Bool
  | .loadMark | .takeHeadLock => true
  | pc => pc.inHead

/-- Past the store of the mark. -/
def RequestPc.hasMarked : RequestPc → Bool
  | .loadNewHead | .freePos | .putCid | .returned => true
  | pc => pc.inLoop

structure DequeueSafe (g : QueueSize) (s : Completion) : Prop where
  /-- an identifier is held by one request at a time -/
  cids : ∀ j k, (s.pc j).holdsCid = true → (s.pc k).holdsCid = true → s.cid j = s.cid k → j = k
  /-- what the poll returns is the place of the request's own completion -/
  own : ∀ k, (s.pc k).polled = true → s.index k < s.posted ∧ s.owner (s.index k) = k ∧
    (s.found k).pos = s.index k % g.qs ∧ (s.found k).loc = s.index k % 4294967296
  /-- what has not been given back to the controller stands in its entry -/
  intact : ∀ n, s.rung ≤ n → n < s.posted → s.vaddr (n % g.qs) = s.log n ∧
    (s.log n).cid = s.cid (s.owner n)
  /-- head and doorbell move over marked completions only -/
  marked : ∀ n < s.swept, (s.pc (s.owner n)).hasMarked = true
  order : s.passed ≤ s.rung ∧ s.rung ≤ s.swept ∧ s.swept ≤ s.posted ∧ s.posted < s.rung + g.qs
  head : s.head = s.passed % 4294967296
  db : s.db = s.rung % g.qs
  /-- the head of the submission queue is that in the last completion swept -/
  sqHead : ∀ k c n v, s.pc k = .moveSqHead c n v → v = (s.log (s.swept - 1)).sqHead
  /-- a request ends after the head has passed its completion -/
  left : ∀ k, s.pc k = .freePos ∨ s.pc k = .putCid ∨ s.pc k = .returned → s.index k < s.passed
  /-- a completion that has not been passed belongs to a request that holds its identifier -/
  waits : ∀ n < s.posted, s.passed ≤ n → (s.pc (s.owner n)).holdsCid = true
  /-- the request of a mark that is up is still in the loop -/
  driver : ∀ i, s.headMark i = true → ∃ n, n % g.qs = i ∧ s.swept ≤ n ∧ n < s.posted ∧
    (s.pc (s.owner n)).inLoop = true
  oneMover : ∀ j k, (s.pc j).inHead = true → (s.pc k).inHead = true → j = k
  onePos : ∀ j k, (s.pc j).inPos = true → (s.pc k).inPos = true →
    (s.found j).pos = (s.found k).pos → j = k

theorem stage_reply {pc : RequestPc} (h : pc.polled = true) (b i : Nat) :
    (pc.stage b i).reply = some i := by
  cases pc <;> first | rfl | cases h

theorem holds_of_holdsCid {pc : RequestPc} (h : pc.holdsCid = true) (b i : Nat) :
    (pc.stage b i).holds = true := by
  cases pc <;> first | rfl | cases h

theorem holdsCid_of_pending {pc : RequestPc} {b i : Nat} (h : (pc.stage b i).pending = true) :
    pc.holdsCid = true := by
  cases pc <;> first | rfl | cases h

theorem hasMarked_of_marks {pc : RequestPc} {b i : Nat} (h : (pc.stage b i).marks = true) :
    pc.hasMarked = true := by
  cases pc <;> first | rfl | cases h

/-- A request with its mark up is in the loop, or has seen the mark down. -/
theorem inLoop_of_marked {pc : RequestPc} {b i n : Nat} (h : pc.stage b i = .marked n) :
    i = n ∧ (pc.inLoop = true ∨ pc = .loadNewHead) := by
  cases pc <;> cases h <;> first | exact ⟨rfl, .inr rfl⟩ | exact ⟨rfl, .inl rfl⟩

theorem Tracked.driver (h : Tracked g s) {i : Nat} (hmark : s.headMark i = true) :
    ∃ n, n % g.qs = i ∧ s.swept ≤ n ∧ n < s.posted ∧ (s.pc (s.owner n)).inLoop = true := by
  obtain ⟨k, n, hk, hmod, hle⟩ := (h.ring.mark_iff i).mp hmark
  obtain ⟨hlt, hown⟩ := h.ring.reply k n (by rw [hk]; rfl)
  obtain ⟨hindex, hloop⟩ := inLoop_of_marked hk
  refine ⟨n, hmod, hle, hlt, ?_⟩
  rw [show s.owner n = k from hown]
  refine hloop.resolve_right fun hpc => ?_
  -- who has seen its mark down has been swept
  have hswept := h.cleared k hpc
  have hn : s.swept ≤ n := hle
  omega

theorem Tracked.left (h : Tracked g s)
    (hpc : s.pc k = .freePos ∨ s.pc k = .putCid ∨ s.pc k = .returned) : s.index k < s.passed := by
  refine h.ring.left k (s.index k) ?_
  show (s.pc k).stage (s.base k) (s.index k) = _ ∨ (s.pc k).stage (s.base k) (s.index k) = _
  rcases hpc with hpc | hpc | hpc <;> rw [hpc]
  · exact .inl rfl
  · exact .inl rfl
  · exact .inr rfl

/-- What the invariant says in the words of the code. -/
theorem Tracked.dequeueSafe (ht : Tracked g s) : DequeueSafe g s := by
  have hroom : s.posted < s.rung + g.qs := ht.ring.room
  exact
    { cids := fun j k hj hk hcid =>
        ht.ring.id_unique j k (holds_of_holdsCid hj _ _) (holds_of_holdsCid hk _ _) hcid
      own := fun k hk => by
        obtain ⟨hlt, hown⟩ := ht.ring.reply k (s.index k) (stage_reply hk _ _)
        rw [(ht.found k hk).found]
        exact ⟨hlt, hown, rfl, rfl⟩
      intact := fun n hrung hn => by
        have hentry := ht.vaddr.entry n hn (by omega)
        exact ⟨congrArg Prod.fst hentry, ht.logCid n hn⟩
      marked := fun n hn => hasMarked_of_marks (ht.ring.answered n hn)
      order := ⟨ht.ring.passed_le, ht.ring.rung_le, ht.ring.swept_le, hroom⟩
      head := ht.head
      db := ht.db
      sqHead := fun k c n v hpc => by
        have hfact := ht.sweeper k
        rw [hpc] at hfact
        exact hfact.2.2.2.2
      left := fun k hpc => ht.left hpc
      waits := fun n hn hp => holdsCid_of_pending (ht.ring.pending n hn hp)
      driver := fun i hmark => ht.driver hmark
      oneMover := fun j k hj hk => ht.headHeld.unique j k hj hk
      onePos := fun j k hj hk hpos =>
        (ht.posHeld (s.found k).pos).unique j k ⟨hj, hpos⟩ ⟨hk, rfl⟩ }

/-- The guarantees of the completion side. -/
theorem dequeue_safe (g : QueueSize) {s : Completion} (h : Dequeued g s) : DequeueSafe g s :=
  (tracked_reached h).dequeueSafe

/-! ## Completions

    The same of each completion that the controller has posted: it is found, marked and passed
    once, by the request whose command it completes. -/

structure CompletionSafe (g : QueueSize) (s : Completion) : Prop where
  /-- no two requests hold one identifier -/
  holders : ∀ j k, (s.pc j).holdsCid = true → (s.pc k).holdsCid = true → s.cid j = s.cid k → j = k
  /-- a use of an identifier has one completion -/
  once : ∀ m < s.posted, ∀ n < s.posted, s.owner m = s.owner n → m = n
  /-- a poll returns the place of the completion of this use, which stands there until the head
      has been moved over it -/
  current : ∀ k, (s.pc k).polled = true → ∃ n < s.posted, s.owner n = k ∧
    (s.found k).pos = n % g.qs ∧ (s.found k).loc = n % 4294967296 ∧
    (s.rung ≤ n → s.vaddr (n % g.qs) = s.log n)
  /-- a mark that is up is of a completion that has not been swept -/
  mark : ∀ i, s.headMark i = true → ∃ n, n % g.qs = i ∧ s.swept ≤ n ∧ n < s.posted
  /-- what has been swept is a prefix, whose requests have stored their marks -/
  swept : s.swept ≤ s.posted ∧ ∀ n < s.swept, (s.pc (s.owner n)).hasMarked = true
  /-- the doorbell and the 32-bit head are that prefix, or on the way to it -/
  advanced : s.passed ≤ s.rung ∧ s.rung ≤ s.swept ∧ s.db = s.rung % g.qs ∧
    s.head = s.passed % 4294967296
  /-- `cq_dequeue` returns when the head has passed the completion -/
  returns : ∀ k, s.pc k = .freePos ∨ s.pc k = .putCid ∨ s.pc k = .returned →
    ∃ n < s.passed, s.owner n = k

/-- Every completion is dequeued by its own request, once, and that before its identifier is
    given back. -/
theorem completion_safe (g : QueueSize) {s : Completion} (h : Dequeued g s) :
    CompletionSafe g s := by
  have ht := tracked_reached h
  have hsafe := ht.dequeueSafe
  have hpolled : ∀ k, s.pc k = .freePos ∨ s.pc k = .putCid ∨ s.pc k = .returned →
      (s.pc k).polled = true := by
    rintro k (hpc | hpc | hpc) <;> rw [hpc] <;> rfl
  exact
    { holders := hsafe.cids
      once := ht.ring.owner_inj
      current := fun k hk => by
        obtain ⟨hlt, hown, hpos, hloc⟩ := hsafe.own k hk
        exact ⟨s.index k, hlt, hown, hpos, hloc, fun hrung => (hsafe.intact _ hrung hlt).1⟩
      mark := fun i hi => by
        obtain ⟨n, hn, hle, hlt, -⟩ := hsafe.driver i hi
        exact ⟨n, hn, hle, hlt⟩
      swept := ⟨hsafe.order.2.2.1, hsafe.marked⟩
      advanced := ⟨hsafe.order.1, hsafe.order.2.1, hsafe.db, hsafe.head⟩
      returns := fun k hk => ⟨s.index k, hsafe.left k hk, (hsafe.own k (hpolled k hk)).2.1⟩ }

/-! ### Two requests whose completions come the other way round -/

def newCompletion : Completion where
  cidTicket := 0
  cidLocks _ := false
  vaddr _ := ⟨0, 0⟩
  headMark _ := false
  posLocks _ := false
  headLock := false
  head := 0
  db := 0
  pc _ := .drawCid
  cid _ := 0
  found _ := ⟨0, 0, 0⟩
  posted := 0
  log _ := ⟨0, 0⟩
  owner _ := 0
  base _ := 0
  index _ := 0
  swept := 0
  rung := 0
  passed := 0

theorem newCompletion_init : newCompletion.Init :=
  ⟨rfl, rfl, rfl, rfl, rfl, rfl, rfl, rfl, rfl, rfl, rfl, rfl, rfl⟩

theorem qsFour_one_le : 1 ≤ 2 := by decide

theorem qsFour_le_16 : 2 ≤ 16 := by decide

/-- A queue of four entries. -/
def qsFour : QueueSize := ⟨2, qsFour_one_le, qsFour_le_16⟩

/-- Requests 0 and 1 get their identifiers; the completion of 1 comes first. Request 0 finds its
    own in the second entry and moves nothing; request 1 then moves the head over both. -/
def crossed : List CompletionAct :=
  List.flatten
    [List.replicate 3 (.run 0), List.replicate 3 (.run 1),
      [.post 1 ⟨2, 65537⟩, .post 0 ⟨2, 65536⟩],
      List.replicate 11 (.run 0), List.replicate 20 (.run 1), List.replicate 4 (.run 0)]

theorem crossed_ends :
    (runActs (completionStep qsFour) newCompletion crossed).map (fun s =>
      (s.passed, s.index 0, s.index 1, decide (s.pc 0 = .returned), decide (s.pc 1 = .returned))) =
        some (2, 1, 0, true, true) := by
  decide +kernel

theorem crossed_fresh : runOk (completionStep qsFour) (Fresh qsFour) newCompletion crossed := by
  decide +kernel

/-- Both requests end with their own completions. -/
theorem crossed_safe :
    ∃ s, runActs (completionStep qsFour) newCompletion crossed = some s ∧ DequeueSafe qsFour s ∧
      s.pc 0 = .returned ∧ s.pc 1 = .returned ∧ s.owner 1 = 0 ∧ s.owner 0 = 1 := by
  obtain ⟨s, hrun, hends⟩ := Option.map_eq_some_iff.mp crossed_ends
  have hsafe := dequeue_safe qsFour
    (reachable_of_runActs (.init newCompletion_init) crossed_fresh hrun)
  have hpc0 : s.pc 0 = .returned := of_decide_eq_true (congrArg (fun t => t.2.2.2.1) hends)
  have hpc1 : s.pc 1 = .returned := of_decide_eq_true (congrArg (fun t => t.2.2.2.2) hends)
  have hindex0 : s.index 0 = 1 := congrArg (fun t => t.2.1) hends
  have hindex1 : s.index 1 = 0 := congrArg (fun t => t.2.2.1) hends
  have hown0 := (hsafe.own 0 (by rw [hpc0]; rfl)).2.1
  have hown1 := (hsafe.own 1 (by rw [hpc1]; rfl)).2.1
  rw [hindex0] at hown0
  rw [hindex1] at hown1
  exact ⟨s, hrun, hsafe, hpc0, hpc1, hown0, hown1⟩

/-- The completions of both have been passed, each by its own request. -/
theorem crossed_completed :
    ∃ s, runActs (completionStep qsFour) newCompletion crossed = some s ∧
      CompletionSafe qsFour s ∧ s.passed = 2 ∧ s.pc 0 = .returned ∧ s.pc 1 = .returned := by
  obtain ⟨s, hrun, hends⟩ := Option.map_eq_some_iff.mp crossed_ends
  exact ⟨s, hrun, completion_safe qsFour
    (reachable_of_runActs (.init newCompletion_init) crossed_fresh hrun),
    congrArg (fun t => t.1) hends,
    of_decide_eq_true (congrArg (fun t => t.2.2.2.1) hends),
    of_decide_eq_true (congrArg (fun t => t.2.2.2.2) hends)⟩

/-! ### A request that two laps have passed by -/

/-- Request `k` gets its identifier, its completion is posted with `dword3`, and it dequeues it
    alone. -/
def wholeRequest (k dword3 : Nat) : List CompletionAct :=
  List.flatten
    [List.replicate 3 (.run k), [.post k ⟨0, dword3⟩], List.replicate 19 (.run k)]

/-- Request 0 reads the head, 0, and no more until eight others are through, which is two laps.
    Then its own completion and that of request 9 are posted.  The entry of request 0 has the
    phase that it looks for, so it takes its completion for number 0 and marks it.  Request 9
    sweeps both and writes the doorbell, and before it stores the head request 0 goes on: the
    head, 8, is greater than the one it has read, so it gives everything back. -/
def overtaken : List CompletionAct :=
  List.flatten
    [List.replicate 4 (.run 0),
      (List.range' 1 4).flatMap fun k => wholeRequest k (65536 + k),
      (List.range' 5 4).flatMap fun k => wholeRequest k k,
      List.replicate 3 (.run 9), [.post 0 ⟨0, 65536⟩, .post 9 ⟨0, 65545⟩],
      List.replicate 4 (.run 0), List.replicate 15 (.run 9), List.replicate 4 (.run 0)]

/-- Request 0 has returned from `cq_dequeue` and put its identifier back, and the head is still
    at its completion, number 8. -/
theorem overtaken_returns_early :
    ∃ s, runActs (completionStep qsFour) newCompletion overtaken = some s ∧
      s.pc 0 = .returned ∧ s.cidLocks 0 = false ∧ s.posted = 10 ∧ s.owner 8 = 0 ∧
      s.passed = 8 ∧ s.head = 8 ∧ ¬ CompletionSafe qsFour s := by
  have hends : (runActs (completionStep qsFour) newCompletion overtaken).map (fun s =>
      (decide (s.pc 0 = .returned ∧ s.cidLocks 0 = false), s.posted, s.owner 8, s.passed,
        s.head)) = some (true, 10, 0, 8, 8) := by
    decide +kernel
  obtain ⟨s, hrun, hends⟩ := Option.map_eq_some_iff.mp hends
  obtain ⟨hpc, hlock⟩ : s.pc 0 = .returned ∧ s.cidLocks 0 = false :=
    of_decide_eq_true (congrArg (fun t => t.1) hends)
  have hposted : s.posted = 10 := congrArg (fun t => t.2.1) hends
  have howner : s.owner 8 = 0 := congrArg (fun t => t.2.2.1) hends
  have hpassed : s.passed = 8 := congrArg (fun t => t.2.2.2.1) hends
  refine ⟨s, hrun, hpc, hlock, hposted, howner, hpassed, congrArg (fun t => t.2.2.2.2) hends,
    fun hsafe => ?_⟩
  -- the only completion of request 0 is number 8
  obtain ⟨n, hn, hown⟩ := hsafe.returns 0 (.inr (.inr hpc))
  have heq := hsafe.once n (by omega) 8 (by omega) (hown.trans howner.symm)
  omega

end GidsStack.Queue
