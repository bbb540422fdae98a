/-
  GidsStack.PageCache.Reads

  A cache that is only read, by asynchronous submits.  Nothing is dirty, so that
  an eviction writes nothing back, and no prefetches are planned.  Every command
  in flight is that of a context whose submit has returned; the slot of a valid
  page has what the store has, and so has the slot of a completion.
-/

import GidsStack.PageCache.Fetch
import GidsStack.PageCache.WriteBack

namespace GidsStack.PageCache

open Function (update)
open Lib.PinCache (Ref Referenced)

variable {R : Nat} [NeZero R] {A V : Type*} [DecidableEq A]

/-! ## Where a submit that only reads stands -/

/-- `find_slot` writes nothing back. -/
def FindPc.plain : FindPc R → Bool
  | .writeData _ _ => false
  | _ => true

/-- No pin is counted and nothing is marked. -/
def SubmitPc.plain : SubmitPc R → Bool
  | .prologue (.storePrefetch _) | .prologue (.storeWindow _) | .prologue (.loadWindow true)
  | .fetchAdd true | .addRefCount true _ | .markDirty => false
  | .find k => k.plain
  | _ => true

/-- The controller and the identifier that a submit has chosen so far. -/
def SubmitPc.Chosen (cfg : Config R) (x : Ctx) : SubmitPc R → Prop
  | .getCid => x.memberAcquireCtrl < cfg.nCtrls
  | .lockCid cid | .enqueue cid => x.memberAcquireCtrl < cfg.nCtrls ∧ cid < 65536
  | _ => True

/-- A context in a submit of `c`, or after it. -/
def Reads (cfg : Config R) (c : Call R) : Pc R → Prop
  | .submit d x k => d = c ∧ k.plain = true ∧ k.Chosen cfg x
  | .submitted d x => d = c ∧ (x.hasPendingIo = true →
      x.isHit = false ∧ x.memberAcquireCtrl < cfg.nCtrls ∧ x.cid < 65536)
  | _ => False

/-- A page with no prefetch planned that is not dirty. -/
structure Bare (d : DataPage) : Prop where
  prefetchCount : d.prefetchCount = 0#8
  prefetchCounter : d.prefetchCounter = 0#8
  clean : d.state.isDirty = false

/-- The call of a context in a submit, or after it. -/
def Pc.fetches : Pc R → Option (Call R)
  | .submit c _ _ | .submitted c _ => some c
  | _ => none

/-- The page an agent is about to lead by what it has read of it. -/
def Pc.raising : Pc R → Option (PageId R)
  | .submit c _ .setBusy => some c.page
  | .submit c _ (.addRefCount _ w) => if w.st = .nvNb then some c.page else none
  | _ => none

section Submit

variable {cfg : Config R} {s : St R A V} {a : A} {c : Call R} {x : Ctx} {k : SubmitPc R}

/-- In a clean cache `find_slot` goes on without writing back, or returns. -/
theorem findStep_plain (cfg : Config R) (ver : FindVersion) (s : St R A V) (a : A) (p : PageId R)
    (emb : FindPc R → Pc R) (ret : Nat → Pc R) {k : FindPc R}
    (hclean : ∀ q, (s.pages q).state.isDirty = false) :
    (∃ k', k'.plain = true ∧ (findStep cfg ver s a p emb ret k).pc a = emb k') ∨
      ∃ i, (findStep cfg ver s a p emb ret k).pc a = ret i := by
  cases k with
  | unlockDone i => exact .inr ⟨i, goto_pc_self ..⟩
  | setBusy i q =>
    refine .inl ?_
    simp only [findStep, hclean q, Bool.false_eq_true, if_false]
    (repeat' split) <;> exact ⟨_, rfl, goto_pc_self ..⟩
  | _ =>
    refine .inl ?_
    simp only [findStep, findTest]
    (repeat' split) <;> exact ⟨_, rfl, goto_pc_self ..⟩

/-- A call that only reads marks nothing. -/
theorem submitDispatch_plain {R : Nat} {c : Call R} (hw : c.write = false) (w : Word) :
    (submitDispatch c w).plain = true := by
  rw [submitDispatch]
  split
  · rfl
  · rw [hw]
    rfl
  · rfl
  · rfl

theorem submitDispatch_chosen {R : Nat} (cfg : Config R) (c : Call R) (x : Ctx) (w : Word) :
    (submitDispatch c w).Chosen cfg x := by
  rw [submitDispatch]
  split
  · trivial
  · split <;> trivial
  · trivial
  · trivial

theorem getBackingCtrl_lt {R : Nat} (cfg : Config R) {p : PageId R} {ctrl : Nat}
    (h : getBackingCtrl cfg p = some ctrl) : ctrl < cfg.nCtrls := by
  rw [getBackingCtrl] at h
  split at h
  · exact Option.some.inj h ▸ Nat.mod_lt _ cfg.nCtrls_pos
  · cases h

/-- A step of a submit that only reads. -/
theorem submitStep_reads (hw : c.write = false) (hbare : ∀ p, Bare (s.pages p))
    (hf : x.hasPendingIo = false) (hk : k.plain = true) (hc : k.Chosen cfg x) :
    Reads cfg c ((submitStep cfg s a c x k).pc a) := by
  have hdispatch (w : Word) : Reads cfg c (.submit c x (submitDispatch c w)) :=
    ⟨rfl, submitDispatch_plain hw w, submitDispatch_chosen cfg c x w⟩
  cases k with
  | prologue k =>
    cases k with
    | loadPrefetch =>
      simp only [submitStep, prologueStep, (hbare c.page).prefetchCount, prefetchPlanned]
      exact (goto_pc_self s a _).symm ▸ ⟨rfl, rfl, trivial⟩
    | loadWindow pin =>
      cases pin with
      | true => cases hk
      | false =>
        simp only [submitStep, prologueStep, (hbare c.page).prefetchCounter, windowPlanned]
        exact (goto_pc_self s a _).symm ▸ ⟨rfl, rfl, trivial⟩
    | storePrefetch w => cases hk
    | storeWindow w => cases hk
  | fetchAdd pin =>
    cases pin with
    | true => cases hk
    | false =>
      rw [submitStep, goto_pc_self]
      exact ⟨rfl, rfl, trivial⟩
  | addRefCount pin w =>
    rw [submitStep, goto_pc_self]
    exact hdispatch w
  | reload =>
    rw [submitStep, goto_pc_self]
    exact hdispatch _
  | find k =>
    rw [submitStep]
    obtain ⟨k', hk', heq⟩ | ⟨i, heq⟩ := findStep_plain cfg .refCount s a c.page
      (fun k => .submit c x (.find k)) (fun i => .submit c { x with pageTrans := i } .storeOffset)
      (k := k) fun q => (hbare q).clean
    · rw [heq]
      exact ⟨rfl, hk', trivial⟩
    · rw [heq]
      exact ⟨rfl, rfl, trivial⟩
  | chooseCtrl =>
    simp only [submitStep]
    split
    · rename_i ctrl hctrl
      rw [goto_pc_self]
      exact ⟨rfl, rfl, getBackingCtrl_lt cfg hctrl⟩
    · rw [goto_pc_self]
      exact ⟨rfl, rfl, Nat.mod_lt _ cfg.nCtrls_pos⟩
  | getCid =>
    rw [submitStep, goto_pc_self]
    exact ⟨rfl, rfl, hc, Nat.mod_lt _ (by decide)⟩
  | lockCid cid =>
    simp only [submitStep]
    split
    · rw [goto_pc_self]
      exact ⟨rfl, rfl, hc.1⟩
    · rw [goto_pc_self]
      exact ⟨rfl, rfl, hc⟩
  | enqueue cid =>
    rw [submitStep, goto_pc_self]
    exact ⟨rfl, fun _ => ⟨rfl, hc⟩⟩
  | markDirty => cases hk
  | loadOffset =>
    rw [submitStep, goto_pc_self]
    exact ⟨rfl, fun hio => Bool.noConfusion (hf.symm.trans hio)⟩
  | followCtrl =>
    simp only [submitStep]
    split
    · rw [goto_pc_self]
      exact ⟨rfl, fun hio => Bool.noConfusion (hf.symm.trans hio)⟩
    · rw [goto_pc_self]
      exact ⟨rfl, fun hio => Bool.noConfusion (hf.symm.trans hio)⟩
  | _ =>
    simp only [submitStep]
    (repeat' split) <;> rw [goto_pc_self] <;> exact ⟨rfl, rfl, trivial⟩

/-- A submit is of one call from its first step to its return. -/
theorem submitStep_fetches (cfg : Config R) (s : St R A V) (a : A) (c : Call R) (x : Ctx)
    (k : SubmitPc R) : ((submitStep cfg s a c x k).pc a).fetches = some c := by
  cases k with
  | prologue k =>
    obtain ⟨k', hk'⟩ | ⟨pin, hk'⟩ := prologueStep_pc s a c.page
      (fun k => .submit c x (.prologue k)) (fun pin => .submit c x (.fetchAdd pin)) k
    · rw [submitStep, hk']
      rfl
    · rw [submitStep, hk']
      rfl
  | find k =>
    by_cases hk : ∃ i, k = .unlockDone i
    · obtain ⟨i, rfl⟩ := hk
      rw [submitStep, findStep, goto_pc_self]
      rfl
    · obtain ⟨k', hk'⟩ := findStep_pc cfg .refCount s a c.page (fun k => .submit c x (.find k))
        (fun i => .submit c { x with pageTrans := i } .storeOffset) fun i h => hk ⟨i, h⟩
      rw [submitStep, hk']
      rfl
  | _ =>
    simp only [submitStep]
    (repeat' split) <;> rw [goto_pc_self] <;> rfl

/-! ## The pages -/

/-- A store to a page that plans nothing and leaves it clean. -/
theorem bare_setPage {R : Nat} {A V : Type*} {s : St R A V} (h : ∀ p, Bare (s.pages p))
    {q : PageId R} (d : DataPage) (hcount : d.prefetchCount = (s.pages q).prefetchCount)
    (hcounter : d.prefetchCounter = (s.pages q).prefetchCounter) (hd : d.state.isDirty = false)
    (p : PageId R) : Bare ((s.setPage q d).pages p) := by
  rw [setPage_apply]
  split
  · exact ⟨hcount.trans (h q).prefetchCount, hcounter.trans (h q).prefetchCounter, hd⟩
  · exact h p

theorem bare_setState {R : Nat} {A V : Type*} {s : St R A V} (h : ∀ p, Bare (s.pages p))
    {q : PageId R} {w : Word} (hw : w.isDirty = false) (p : PageId R) :
    Bare ((s.setState q w).pages p) :=
  bare_setPage h { s.pages q with state := w } rfl rfl hw p

/-- `find_slot` plans nothing and leaves no page dirty. -/
theorem findStep_bare (cfg : Config R) (ver : FindVersion) (s : St R A V) (a : A) (p : PageId R)
    (emb : FindPc R → Pc R) (ret : Nat → Pc R) (k : FindPc R) (h : ∀ p, Bare (s.pages p))
    (q : PageId R) : Bare ((findStep cfg ver s a p emb ret k).pages q) := by
  cases k with
  | setBusy i r =>
    simp only [findStep]
    (repeat' split) <;> exact bare_setState h ((Word.isDirty_or_BUSY _).trans (h r).clean) q
  | clearState i r => exact bare_setState h (Word.isDirty_and_cntMask _) q
  | undoBusy i r =>
    exact bare_setState h ((Word.isDirty_and_disableBusy _).trans (h r).clean) q
  | _ =>
    simp only [findStep, findTest]
    (repeat' split) <;> exact h q

/-- Nor does the rest of a submit, where counts have room. -/
theorem submitStep_bare (hadd : ∀ pin, k = .fetchAdd pin →
      (s.pages c.page).state.cnt + (c.count + pin.toNat) < Word.cntLimit)
    (hk : k.plain = true) (h : ∀ p, Bare (s.pages p)) (q : PageId R) :
    Bare ((submitStep cfg s a c x k).pages q) := by
  have hclean := (h c.page).clean
  cases k with
  | prologue k =>
    cases k <;> simp only [submitStep, prologueStep] <;> first | cases hk | skip
    · split <;> exact h q
    · split <;> exact h q
  | find k => exact findStep_bare cfg .refCount s a c.page _ _ k h q
  | fetchAdd pin => exact bare_setState h ((Word.isDirty_add (hadd pin rfl)).trans hclean) q
  | addRefCount pin w =>
    exact bare_setPage h { s.pages c.page with
      refCount := (s.pages c.page).refCount + BitVec.ofNat 32 (c.count + pin.toNat) } rfl rfl
        hclean q
  | setBusy =>
    simp only [submitStep]
    split <;> exact bare_setState h ((Word.isDirty_or_BUSY _).trans hclean) q
  | clearPolling =>
    exact bare_setPage h { s.pages c.page with pollingFlag := false } rfl rfl hclean q
  | storePending =>
    exact bare_setPage h { s.pages c.page with offset := asyncPageTransPending } rfl rfl hclean q
  | storeOffset =>
    exact bare_setPage h { s.pages c.page with offset := x.pageTrans } rfl rfl hclean q
  | markDirty => cases hk
  | _ =>
    simp only [submitStep]
    (repeat' split) <;> exact h q

/-- Stores to the other fields of a page leave its offset. -/
theorem setPage_offset {R : Nat} {A V : Type*} (s : St R A V) (p q : PageId R) {d : DataPage}
    (h : d.offset = (s.pages p).offset) :
    ((s.setPage p d).pages q).offset = (s.pages q).offset := by
  rw [setPage_apply]
  split
  · rename_i hq
    rw [h, hq]
  · rfl

/-- `find_slot` stores no offset. -/
theorem findStep_offset (cfg : Config R) (ver : FindVersion) (s : St R A V) (a : A) (p : PageId R)
    (emb : FindPc R → Pc R) (ret : Nat → Pc R) (k : FindPc R) (q : PageId R) :
    ((findStep cfg ver s a p emb ret k).pages q).offset = (s.pages q).offset := by
  cases k <;> simp only [findStep, findTest] <;> (repeat' split) <;>
    first | rfl | exact setPage_offset s _ q rfl

/-- A submit stores the offset of a page only while it leads a miss of it. -/
theorem submitStep_offset (cfg : Config R) (s : St R A V) (a : A) (c : Call R) (x : Ctx)
    (k : SubmitPc R) (q : PageId R) :
    ((submitStep cfg s a c x k).pages q).offset = (s.pages q).offset ∨
      q = c.page ∧ ∃ r, (Pc.submit c x k).role = r ∧ r.page = some q := by
  have hstore (i : Nat) : ((s.setOffset c.page i).pages q).offset = (s.pages q).offset ∨
      q = c.page := by
    rw [St.setOffset, setPage_apply]
    split
    · rename_i hq
      exact .inr hq
    · exact .inl rfl
  cases k with
  | prologue k =>
    refine .inl ?_
    cases k <;> simp only [submitStep, prologueStep] <;> (repeat' split) <;>
      first | rfl | exact setPage_offset s _ q rfl
  | find k => exact .inl (findStep_offset ..)
  | storePending =>
    rcases hstore asyncPageTransPending with h | rfl
    · exact .inl h
    · exact .inr ⟨rfl, _, rfl, rfl⟩
  | storeOffset =>
    rcases hstore x.pageTrans with h | rfl
    · exact .inl h
    · exact .inr ⟨rfl, _, rfl, rfl⟩
  | _ =>
    refine .inl ?_
    simp only [submitStep]
    (repeat' split) <;> first | rfl | exact setPage_offset s _ q rfl

/-! ## The data -/

/-- A submit writes to no slot, which the controller does for it. -/
theorem submitStep_slotData (cfg : Config R) (s : St R A V) (a : A) (c : Call R) (x : Ctx)
    (k : SubmitPc R) : (submitStep cfg s a c x k).slotData = s.slotData := by
  cases k with
  | prologue k => cases k <;> simp only [submitStep, prologueStep] <;> (repeat' split) <;> rfl
  | find k =>
    cases k <;> simp only [submitStep, findStep, findTest] <;> (repeat' split) <;> rfl
  | _ =>
    simp only [submitStep]
    (repeat' split) <;> rfl

/-- And nothing to the store, where pages are clean. -/
theorem submitStep_ssd (hk : k.plain = true) : (submitStep cfg s a c x k).ssd = s.ssd := by
  cases k with
  | prologue k => cases k <;> simp only [submitStep, prologueStep] <;> (repeat' split) <;> rfl
  | find k =>
    cases k <;> simp only [submitStep, findStep, findTest] <;> (repeat' split) <;>
      first | rfl | cases hk
  | _ =>
    simp only [submitStep]
    (repeat' split) <;> rfl

/-! ## The queues -/

/-- It consumes no completion. -/
theorem submitStep_cq (cfg : Config R) (s : St R A V) (a : A) (c : Call R) (x : Ctx)
    (k : SubmitPc R) (ctrl queue : Nat) :
    ((submitStep cfg s a c x k).qps ctrl queue).cq = (s.qps ctrl queue).cq := by
  have hset (d : QueuePair R A)
      (hd : d.cq = (s.qps x.memberAcquireCtrl x.queue).cq) :
      ((s.setQp x.memberAcquireCtrl x.queue d).qps ctrl queue).cq = (s.qps ctrl queue).cq := by
    rw [setQp_qps]
    split
    · rename_i heq
      rw [hd, heq.1, heq.2]
    · rfl
  cases k with
  | prologue k => rw [submitStep, prologueStep_qps]
  | find k => rw [submitStep, findStep_qps]
  | _ =>
    simp only [submitStep]
    (repeat' split) <;> first | rfl | exact hset _ rfl

/-- A submit puts one command in flight, when it returns. -/
theorem submitStep_inFlight (cfg : Config R) (s : St R A V) (a : A) (c : Call R) (x : Ctx)
    (k : SubmitPc R) {ctrl queue : Nat} {cmd : Cmd R A}
    (h : cmd ∈ ((submitStep cfg s a c x k).qps ctrl queue).inFlight) :
    cmd ∈ (s.qps ctrl queue).inFlight ∨ ∃ cid, k = .enqueue cid ∧ ctrl = x.memberAcquireCtrl ∧
      queue = x.queue ∧ cmd = ⟨cid, c.page, x.pageTrans, a, s.serial⟩ := by
  have hcq := submitStep_cq cfg s a c x k ctrl queue
  rw [QueuePair.inFlight, List.mem_append, hcq] at h
  rw [QueuePair.inFlight, List.mem_append]
  rcases h with h | h
  · have hset {d : QueuePair R A}
        (hm : cmd ∈ ((s.setQp x.memberAcquireCtrl x.queue d).qps ctrl queue).sq)
        (hd : d.sq = (s.qps x.memberAcquireCtrl x.queue).sq) : cmd ∈ (s.qps ctrl queue).sq := by
      rw [setQp_qps] at hm
      split at hm
      · rename_i heq
        rwa [hd, ← heq.1, ← heq.2] at hm
      · exact hm
    cases k with
    | prologue k =>
      rw [submitStep, prologueStep_qps] at h
      exact .inl (.inl h)
    | find k =>
      rw [submitStep, findStep_qps] at h
      exact .inl (.inl h)
    | enqueue cid =>
      rw [submitStep, goto_qps, St.sent, St.setHistory, setQp_qps] at h
      split at h
      · rename_i heq
        obtain ⟨rfl, rfl⟩ := heq
        rcases List.mem_append.mp h with h | h
        · exact .inl (.inl h)
        · exact .inr ⟨cid, rfl, rfl, rfl, List.mem_singleton.mp h⟩
      · exact .inl (.inl h)
    | getCid =>
      exact .inl (.inl (hset h rfl))
    | lockCid cid =>
      simp only [submitStep] at h
      split at h <;> exact .inl (.inl (hset h rfl))
    | _ =>
      simp only [submitStep] at h
      refine .inl (.inl ?_)
      (repeat' split at h) <;> exact h
  · exact .inl (.inr h)

/-- Whoever is about to lead a page has read that it is not valid. -/
theorem submitStep_raising (hw : c.write = false) {p : PageId R}
    (h : ((submitStep cfg s a c x k).pc a).raising = some p) :
    p = c.page ∧ ((Pc.submit c x k).raising = some p ∨ (s.pages p).state.st = .nvNb) := by
  have hdispatch (w : Word) (hr : (Pc.submit c x (submitDispatch c w)).raising = some p) :
      w.st = .nvNb ∧ p = c.page := by
    rw [submitDispatch, hw] at hr
    split at hr
    · rename_i hst
      exact ⟨hst, (Option.some.inj hr).symm⟩
    all_goals cases hr
  cases k with
  | prologue k =>
    obtain ⟨k', hk'⟩ | ⟨pin, hk'⟩ := prologueStep_pc s a c.page
      (fun k => .submit c x (.prologue k)) (fun pin => .submit c x (.fetchAdd pin)) k
    · rw [submitStep, hk'] at h
      cases h
    · rw [submitStep, hk'] at h
      cases h
  | find k =>
    by_cases hk : ∃ i, k = .unlockDone i
    · obtain ⟨i, rfl⟩ := hk
      rw [submitStep, findStep, goto_pc_self] at h
      cases h
    · obtain ⟨k', hk'⟩ := findStep_pc cfg .refCount s a c.page (fun k => .submit c x (.find k))
        (fun i => .submit c { x with pageTrans := i } .storeOffset) fun i h => hk ⟨i, h⟩
      rw [submitStep, hk'] at h
      cases h
  | fetchAdd pin =>
    rw [submitStep, goto_pc_self] at h
    obtain ⟨hst, rfl⟩ := Option.ite_none_right_eq_some.mp h |>.imp_right Option.some.inj
    exact ⟨rfl, .inr hst⟩
  | addRefCount pin w =>
    rw [submitStep, goto_pc_self] at h
    obtain ⟨hst, rfl⟩ := hdispatch w h
    exact ⟨rfl, .inl (if_pos hst)⟩
  | reload =>
    rw [submitStep, goto_pc_self] at h
    obtain ⟨hst, rfl⟩ := hdispatch _ h
    exact ⟨rfl, .inr hst⟩
  | _ =>
    simp only [submitStep] at h
    (repeat' split at h) <;> rw [goto_pc_self] at h <;> cases h

/-! ## The slots given out -/

theorem trying_submitDispatch {R : Nat} (c : Call R) (x : Ctx) (w : Word) :
    (Pc.submit c x (submitDispatch c w)).trying = none := by
  rw [submitDispatch]
  split
  case h_2 => split <;> rfl
  all_goals rfl

/-- A submit is given slots that the cache has. -/
theorem SlotsFit.submitStep [Fintype A] (h : SlotsFit cfg s) (hi : Referenced (abs s))
    (hpc : s.pc a = .submit c x k) : SlotsFit cfg (submitStep cfg s a c x k) := by
  cases k with
  | prologue k =>
    cases k <;> simp only [PageCache.submitStep, prologueStep] <;> (repeat' split) <;>
      exact h.moves rfl (fun _ => rfl) rfl
  | find k =>
    rw [PageCache.submitStep]
    exact h.findStep hi hpc (fun _ => rfl) (fun _ => rfl) fun _ => rfl
  | addRefCount pin w => exact h.moves rfl (fun _ => rfl) (trying_submitDispatch c x w)
  | reload => exact h.leave (trying_submitDispatch c x _)
  | _ =>
    simp only [PageCache.submitStep]
    (repeat' split) <;> exact h.moves rfl (fun _ => rfl) rfl

end Submit

/-! ## What is kept while the cache is only read -/

/-- The command in flight is that of a context whose submit has returned. -/
structure Sent (s : St R A V) (ctrl queue : Nat) (cmd : Cmd R A) (c : Call R) (x : Ctx) : Prop where
  pc : s.pc cmd.owner = .submitted c x
  pending : x.hasPendingIo = true
  ctrl : x.memberAcquireCtrl = ctrl
  queue : x.queue = queue
  names : (x.errand c.page).Names cmd.owner cmd

/-- The invariant of a cache that is only read. -/
structure Fetching [Fintype A] (cfg : Config R) (s : St R A V) : Prop where
  kept : Kept s
  fit : SlotsFit cfg s
  reads : ∀ a, s.pc a = .idle ∨ ∃ c, c.write = false ∧ Reads cfg c (s.pc a)
  bare : ∀ p, Bare (s.pages p)
  raising : ∀ a p, (s.pc a).raising = some p → (s.pages p).state.isValid = false
  sent : ∀ ctrl queue, ∀ cmd ∈ (s.qps ctrl queue).inFlight, ∃ c x, Sent s ctrl queue cmd c x
  valid : ∀ p, (s.pages p).state.isValid = true → s.slotData (s.pages p).offset = s.ssd p
  posted : ∀ ctrl queue, ∀ cmd ∈ (s.qps ctrl queue).cq, s.slotData cmd.slot = s.ssd cmd.page

namespace Fetching

variable [Fintype A] {cfg : Config R} {s s' : St R A V} {a : A} {c : Call R} {x : Ctx}

/-- A new cache. -/
theorem init {R : Nat} [NeZero R] {A V : Type*} [Fintype A] {cfg : Config R} {s : St R A V}
    (h : Init s) : Fetching cfg s where
  kept := .init h
  fit := .init h
  reads a := .inl (h.pc a)
  bare p := ⟨h.prefetchCount p, h.prefetchCounter p, by rw [h.state p]; rfl⟩
  raising a p ha := by
    rw [h.pc a] at ha
    cases ha
  sent ctrl queue cmd hm := by
    rw [QueuePair.inFlight, (h.queues ctrl queue).1, (h.queues ctrl queue).2.1] at hm
    cases hm
  valid p hv := by
    rw [h.state p] at hv
    cases hv
  posted ctrl queue cmd hm := by
    rw [(h.queues ctrl queue).2.1] at hm
    cases hm

/-- A context after its submit. -/
theorem submitted {R : Nat} [NeZero R] {A V : Type*} [Fintype A] {cfg : Config R} {s : St R A V}
    {a : A} {c : Call R} {x : Ctx} (h : Fetching cfg s) (hpc : s.pc a = .submitted c x) :
    c.write = false ∧ (x.hasPendingIo = true →
      x.isHit = false ∧ x.memberAcquireCtrl < cfg.nCtrls ∧ x.cid < 65536) := by
  obtain hidle | ⟨d, hw, hr⟩ := h.reads a
  · rw [hpc] at hidle
    cases hidle
  · rw [hpc] at hr
    exact ⟨hr.1 ▸ hw, hr.2⟩

/-- A page that somebody leads is busy and not valid. -/
theorem opened {R : Nat} [NeZero R] {A V : Type*} [Fintype A] {cfg : Config R} {s : St R A V}
    {a : A} (h : Fetching cfg s) {p : PageId R} (hl : (s.history p).leader = some a) :
    (s.pages p).state.isBusy = true ∧ (s.pages p).state.isValid = false := by
  have hopen : (abs s).leader p ≠ none := by
    show (s.history p).leader ≠ none
    rw [hl]
    exact Option.some_ne_none _
  exact h.kept.referenced.owned.opened hopen

/-- The page of a command in flight has a miss open, with the slot of the command. -/
theorem led {R : Nat} [NeZero R] {A V : Type*} [Fintype A] {cfg : Config R} {s : St R A V}
    {c : Call R} {x : Ctx} (h : Fetching cfg s) {ctrl queue : Nat} {cmd : Cmd R A}
    (hs : Sent s ctrl queue cmd c x) :
    (s.history cmd.page).leader = some cmd.owner ∧ (s.history cmd.page).given = some cmd.slot := by
  have hrole := h.kept.commanded.attributed.role cmd.owner
  rw [hs.pc, Pc.role, ((h.submitted hs.pc).2 hs.pending).1, Ctx.role, hs.pending] at hrole
  obtain ⟨⟨⟨hl, -⟩, hg⟩, -⟩ := hrole
  obtain ⟨-, hp, hslot, -⟩ := hs.names
  rw [hp, hslot]
  exact ⟨hl, hg⟩

/-- So the slot of the command is the home of its page, which is not valid yet. -/
theorem home {R : Nat} [NeZero R] {A V : Type*} [Fintype A] {cfg : Config R} {s : St R A V}
    {c : Call R} {x : Ctx} (h : Fetching cfg s) {ctrl queue : Nat} {cmd : Cmd R A}
    (hs : Sent s ctrl queue cmd c x) :
    (abs s).Home cmd.page cmd.slot ∧ (s.pages cmd.page).state.isValid = false := by
  obtain ⟨hl, hg⟩ := h.led hs
  have hne : (abs s).leader cmd.page ≠ none := by
    show (s.history cmd.page).leader ≠ none
    rw [hl]
    exact Option.some_ne_none _
  exact ⟨⟨hg, .inr hne⟩, (h.opened hl).2⟩

/-- Two contexts with commands in flight have them on different queue pairs or under different
    identifiers. -/
theorem pending_unique {R : Nat} [NeZero R] {A V : Type*} [Fintype A] {cfg : Config R}
    {s : St R A V} {a b : A} {c d : Call R} {x y : Ctx} (h : Fetching cfg s)
    (ha : s.pc a = .submitted c x) (hb : s.pc b = .submitted d y) (hx : x.hasPendingIo = true)
    (hy : y.hasPendingIo = true) (hctrl : x.memberAcquireCtrl = y.memberAcquireCtrl)
    (hqueue : x.queue = y.queue) (hcid : x.cid = y.cid) : a = b := by
  have hroleA := h.kept.commanded.attributed.role a
  have hroleB := h.kept.commanded.attributed.role b
  rw [ha, Pc.role, ((h.submitted ha).2 hx).1, Ctx.role, hx] at hroleA
  rw [hb, Pc.role, ((h.submitted hb).2 hy).1, Ctx.role, hy] at hroleB
  obtain ⟨-, cmd, -, ⟨hcidA, -, -, rfl⟩, hinA⟩ := hroleA
  obtain ⟨-, cmd', -, ⟨hcidB, -, -, rfl⟩, hinB⟩ := hroleB
  have hinB : cmd' ∈ (s.qps y.memberAcquireCtrl y.queue).inFlight := hinB
  rw [← hctrl, ← hqueue] at hinB
  have hok := h.kept.commanded.attributed.queue x.memberAcquireCtrl x.queue
  exact congrArg Cmd.owner (hok.eq_of_cid hinA hinB (hcidA.trans (hcid.trans hcidB.symm)))

/-- A store that leaves flags and offsets, by which a context goes on somewhere else. -/
theorem goes (h : Fetching cfg s) {t : St R A V} {k : Pc R} (hkept : Kept (t.goto a k))
    (hpc : t.pc = s.pc) (hlock : t.cachePages = s.cachePages) (hq : t.qps = s.qps)
    (hdata : t.slotData = s.slotData) (hssd : t.ssd = s.ssd)
    (hpages : ∀ p, Bare (t.pages p) ∧ (t.pages p).state.isValid = (s.pages p).state.isValid ∧
      (t.pages p).offset = (s.pages p).offset)
    (ht : k.trying = none) (hreads : k = .idle ∨ ∃ c, c.write = false ∧ Reads cfg c k)
    (hr : k.raising = none) (hpend : ∀ c x, s.pc a = .submitted c x → x.hasPendingIo = false) :
    Fetching cfg (t.goto a k) where
  kept := hkept
  fit := (h.fit.of_eq hpc fun i => by rw [hlock]).leave ht
  reads b := by
    by_cases hb : b = a
    · rw [hb, goto_pc_self]
      exact hreads
    · rw [goto_pc_ne _ _ hb, hpc]
      exact h.reads b
  bare p := (hpages p).1
  raising b p hbp := by
    by_cases hb : b = a
    · rw [hb, goto_pc_self, hr] at hbp
      cases hbp
    · rw [goto_pc_ne _ _ hb, hpc] at hbp
      exact (hpages p).2.1.trans (h.raising b p hbp)
  sent ctrl queue cmd hm := by
    rw [goto_qps, hq] at hm
    obtain ⟨c, x, hs⟩ := h.sent ctrl queue cmd hm
    have hne : cmd.owner ≠ a := by
      rintro rfl
      exact Bool.noConfusion ((hpend c x hs.pc).symm.trans hs.pending)
    refine ⟨c, x, { hs with pc := ?_ }⟩
    rw [goto_pc_ne _ _ hne, hpc]
    exact hs.pc
  valid p hv := by
    show t.slotData (t.pages p).offset = t.ssd p
    rw [hdata, hssd, (hpages p).2.2]
    exact h.valid p ((hpages p).2.1.symm.trans hv)
  posted ctrl queue cmd hm := by
    rw [goto_qps, hq] at hm
    show t.slotData cmd.slot = t.ssd cmd.page
    rw [hdata, hssd]
    exact h.posted ctrl queue cmd hm

/-- A context goes on somewhere else. -/
theorem goto (h : Fetching cfg s) {k : Pc R} (hkept : Kept (s.goto a k)) (ht : k.trying = none)
    (hreads : k = .idle ∨ ∃ c, c.write = false ∧ Reads cfg c k) (hr : k.raising = none)
    (hpend : ∀ c x, s.pc a = .submitted c x → x.hasPendingIo = false) :
    Fetching cfg (s.goto a k) :=
  h.goes hkept rfl rfl rfl rfl rfl (fun p => ⟨h.bare p, rfl, rfl⟩) ht hreads hr hpend

/-- The warp of a context begins. -/
theorem start (h : Fetching cfg s) {queue : Nat} (hw : c.write = false)
    (hs : step cfg s (.submit a c queue) = some s') : Fetching cfg s' := by
  have hkept := h.kept.start cfg _ rfl rfl hs
  simp only [step] at hs
  split at hs <;> rename_i hpc <;> cases hs
  refine h.goto hkept rfl (.inr ⟨c, hw, rfl, rfl, trivial⟩) rfl fun d y hd => ?_
  rw [hpc] at hd
  cases hd

/-- A compare-and-swap that fails although it need not. -/
theorem spurious (h : Fetching cfg s) (hs : step cfg s (.spurious a) = some s') :
    Fetching cfg s' := by
  have hkept := h.kept.start cfg _ rfl rfl hs
  simp only [step] at hs
  split at hs
  · rename_i d k hpc
    obtain hidle | ⟨e, -, hr⟩ := h.reads a
    · rw [hpc] at hidle
      cases hidle
    · rw [hpc] at hr
      cases hr
  · rename_i d y k hpc
    obtain hidle | ⟨e, hw, hr⟩ := h.reads a
    · rw [hpc] at hidle
      cases hidle
    · rw [hpc] at hr
      have hnone : ∀ c x, s.pc a = .submitted c x → x.hasPendingIo = false := by
        intro c x hc
        rw [hpc] at hc
        cases hc
      cases k <;> cases hs <;> exact h.goto hkept rfl (.inr ⟨e, hw, hr.1, rfl, trivial⟩) rfl hnone
  · cases hs

/-- The controller completes a command. -/
theorem post (h : Fetching cfg s) {ctrl queue n : Nat}
    (hs : step cfg s (.post ctrl queue n) = some s') : Fetching cfg s' := by
  have hkept := h.kept.start cfg _ rfl rfl hs
  simp only [step, postStep] at hs
  split at hs <;> rename_i hcmd <;> cases hs
  rename_i cmd
  have hperm := post_perm hcmd
  have hmem : cmd ∈ (s.qps ctrl queue).inFlight :=
    List.mem_append_left _ (List.mem_of_getElem? hcmd)
  obtain ⟨c, x, hsent⟩ := h.sent ctrl queue cmd hmem
  obtain ⟨hhome, hinv⟩ := h.home hsent
  have hi := h.kept.referenced
  -- the slot of the command is the home of its page and of no other
  have hdata {i : Nat} {p : PageId R} (hh : (abs s).Home p i)
      (hold : i ≠ cmd.slot → s.slotData i = s.ssd p) :
      update s.slotData cmd.slot (s.ssd cmd.page) i = s.ssd p := by
    by_cases hslot : i = cmd.slot
    · subst hslot
      rw [Function.update_self, home_unique hi hh hhome]
    · rw [Function.update_of_ne hslot]
      exact hold hslot
  have hin (ctrl' queue' : Nat) {d : Cmd R A} (hd : d ∈ (((St.setQp
      { s with slotData := update s.slotData cmd.slot (s.ssd cmd.page) } ctrl queue
        { s.qps ctrl queue with
          sq := (s.qps ctrl queue).sq.eraseIdx n
          cq := (s.qps ctrl queue).cq ++ [cmd] }).qps ctrl' queue').inFlight)) :
      d ∈ (s.qps ctrl' queue').inFlight := by
    rw [setQp_qps] at hd
    split at hd
    · rename_i heq
      rw [heq.1, heq.2]
      exact hperm.mem_iff.mp hd
    · exact hd
  exact
    { kept := hkept
      fit := h.fit.of_eq rfl fun _ => rfl
      reads := h.reads
      bare := h.bare
      raising := h.raising
      sent := fun ctrl' queue' d hd => by
        obtain ⟨c', x', hs'⟩ := h.sent ctrl' queue' d (hin ctrl' queue' hd)
        exact ⟨c', x', ⟨hs'.pc, hs'.pending, hs'.ctrl, hs'.queue, hs'.names⟩⟩
      valid := fun p hv => hdata (valid_home hi hv) fun _ => h.valid p hv
      posted := fun ctrl' queue' d hd => by
        obtain ⟨c', x', hs'⟩ :=
          h.sent ctrl' queue' d (hin ctrl' queue' (List.mem_append_right _ hd))
        refine hdata (h.home hs').1 fun hne => ?_
        rw [setQp_qps] at hd
        split at hd
        · rename_i heq
          rcases List.mem_append.mp hd with hd | hd
          · exact h.posted ctrl queue d hd
          · rw [List.mem_singleton.mp hd] at hne
            exact absurd rfl hne
        · exact h.posted ctrl' queue' d hd }

/-- A warp makes a step of its submit. -/
theorem run (h : Fetching cfg s) {k : SubmitPc R} (hpc : s.pc a = .submit c x k)
    (hadd : AddsFit s (.run a)) : Fetching cfg (submitStep cfg s a c x k) := by
  have hs : step cfg s (.run a) = some (submitStep cfg s a c x k) := by
    simp only [step, runStep, hpc]
  have hrun : runStep cfg s a = some (submitStep cfg s a c x k) := hs
  have hok : OwnRun s (.run a) := by
    refine ⟨hadd, ?_, ?_, ?_, fun hc => by cases hc⟩
    · rintro b ⟨⟩ p hp
      simp [dropsPin, hpc] at hp
    · rintro b ⟨⟩ l hl
      simp only [leadsPage, hpc] at hl
      cases k with
      | setBusy =>
        obtain ⟨-, hl⟩ := Option.ite_none_left_eq_some.mp hl
        rw [← Option.some.inj hl]
        exact h.raising a c.page (by rw [hpc]; rfl)
      | _ => cases hl
    · rintro b ⟨⟩ w hw
      simp [winsPage, hpc] at hw
  obtain ⟨hw, hplain, hchosen⟩ : c.write = false ∧ k.plain = true ∧ k.Chosen cfg x := by
    obtain hidle | ⟨d, hw, hr⟩ := h.reads a
    · rw [hpc] at hidle
      cases hidle
    · rw [hpc] at hr
      exact ⟨hr.1 ▸ hw, hr.2⟩
  have hfresh : x.hasPendingIo = false := by
    have hf := h.kept.commanded.fresh a
    rwa [hpc, Pc.isFresh, Bool.not_eq_true'] at hf
  have hne : ∀ b, b ≠ a → (submitStep cfg s a c x k).pc b = s.pc b := fun b hb =>
    runStep_pc_ne hrun hb
  -- a submit publishes nothing
  have hlower {p : PageId R} (hv : (s.pages p).state.isValid = false) :
      ((submitStep cfg s a c x k).pages p).state.isValid = false := by
    by_contra hv'
    obtain ⟨b, hb, hpub⟩ := valid_raised cfg hs hadd (hok.subs h.kept) hv
      (Bool.not_eq_false _ ▸ hv')
    obtain rfl := Option.some.inj hb
    rw [publishesPage, hpc] at hpub
    cases hpub
  have hsd := submitStep_slotData cfg s a c x k
  have hssd : (submitStep cfg s a c x k).ssd = s.ssd := submitStep_ssd hplain
  exact
    { kept := h.kept.step hok hs
      fit := h.fit.submitStep h.kept.referenced hpc
      reads := fun b => by
        by_cases hb : b = a
        · rw [hb]
          exact .inr ⟨c, hw, submitStep_reads hw h.bare hfresh hplain hchosen⟩
        · rw [hne b hb]
          exact h.reads b
      bare := submitStep_bare (fun pin hk => hadd a rfl (c.page, c.count + pin.toNat) (by
        rw [addsCount, hpc, hk]
        rfl)) hplain h.bare
      raising := fun b p hbp => by
        by_cases hb : b = a
        · rw [hb] at hbp
          obtain ⟨rfl, hold | hst⟩ := submitStep_raising hw hbp
          · exact hlower (h.raising a c.page (hpc ▸ hold))
          · exact hlower (Word.st_nvNb hst).1
        · rw [hne b hb] at hbp
          exact hlower (h.raising b p hbp)
      sent := fun ctrl queue cmd hm => by
        obtain hm | ⟨cid, rfl, rfl, rfl, rfl⟩ := submitStep_inFlight cfg s a c x k hm
        · obtain ⟨d, y, hsent⟩ := h.sent ctrl queue cmd hm
          have hown : cmd.owner ≠ a := by
            rintro rfl
            rw [hsent.pc] at hpc
            cases hpc
          exact ⟨d, y, { hsent with pc := (hne _ hown).trans hsent.pc }⟩
        · -- the command that this step put there
          exact ⟨c, _, ⟨goto_pc_self .., rfl, rfl, rfl, rfl, rfl, rfl, rfl⟩⟩
      valid := fun p hv => by
        -- it was valid before
        have hold : (s.pages p).state.isValid = true := by
          by_contra hv'
          rw [hlower (Bool.not_eq_true _ ▸ hv')] at hv
          cases hv
        rw [hsd, hssd]
        obtain heq | ⟨-, r, hr, hpage⟩ := submitStep_offset cfg s a c x k p
        · rw [heq]
          exact h.valid p hold
        · -- the offset of a page is stored by the leader of a miss, while it is not valid
          have hleads := (h.kept.commanded.attributed.role a).leads (by rw [hpc, hr]; exact hpage)
          rw [(h.opened hleads.1).2] at hold
          cases hold
      posted := fun ctrl queue cmd hm => by
        rw [submitStep_cq] at hm
        rw [hsd, hssd]
        exact h.posted ctrl queue cmd hm }

/-- A context without a command in flight is given the slot of its page. -/
theorem takeUp (h : Fetching cfg s) (hpc : s.pc a = .submitted c x) (hit : x.isHit = false)
    (hst : (s.pages c.page).state.st = .vNb) :
    x.hasPendingIo = false ∧ Fetching cfg ((s.setPolling c.page false).goto a
      (.submitted c { x with pageTrans := (s.pages c.page).offset, isHit := true })) := by
  have hw := (h.submitted hpc).1
  -- the page of a command in flight is not valid
  have hpend : x.hasPendingIo = false := by
    by_contra hno
    have hio : x.hasPendingIo = true := Bool.not_eq_false _ ▸ hno
    -- the context would lead its page
    have hrole := h.kept.commanded.attributed.role a
    rw [hpc, Pc.role, hit, Ctx.role, hio] at hrole
    obtain ⟨⟨⟨hl, -⟩, -⟩, -⟩ := hrole
    have hl : (s.history c.page).leader = some a := hl
    have hinv := (h.opened hl).2
    rw [(Word.st_vNb hst).1] at hinv
    cases hinv
  refine ⟨hpend, h.goes (t := s.setPolling c.page false) (h.kept.takeUp cfg hpc hw hit hst) rfl rfl
    rfl rfl rfl (fun p => ⟨?_, ?_, ?_⟩) rfl (.inr ⟨c, hw, rfl, fun hio => ?_⟩) rfl fun d y hd => ?_⟩
  · exact bare_setPage h.bare { s.pages c.page with pollingFlag := false } rfl rfl
      (h.bare c.page).clean p
  · rw [setPolling_state]
  · exact setPage_offset s c.page p rfl
  · exact Bool.noConfusion (hpend.symm.trans hio)
  · rw [hpc] at hd
    cases hd
    exact hpend

/-- The completion of a command in flight is taken off its queue pair and its page published. -/
theorem publishFor (h : Fetching cfg s) (hstill : ∀ b, (s.pc b).raising = none) {ctrl queue : Nat}
    {cmd : Cmd R A} {rest : List (Cmd R A)} (hsent : Sent s ctrl queue cmd c x)
    (hcq : (s.qps ctrl queue).cq = cmd :: rest) :
    (s.pages c.page).state.st = .nvB ∧ Fetching cfg (publishFor s cmd.owner c x cmd rest) := by
  obtain ⟨hpc, hpend, rfl, rfl, hcid, hpage, hslot, -⟩ := hsent
  have hsent : Sent s x.memberAcquireCtrl x.queue cmd c x :=
    ⟨hpc, hpend, rfl, rfl, hcid, hpage, hslot, rfl⟩
  have hcid : cmd.cid = x.cid := hcid
  have hpage : cmd.page = c.page := hpage
  have hslot : cmd.slot = x.pageTrans := hslot
  have hst : (s.pages c.page).state.st = .nvB := by
    have hl := (h.led hsent).1
    rw [hpage] at hl
    obtain ⟨hb, hv⟩ := h.opened hl
    rw [Word.st_eq, hb, hv]
    rfl
  have hkept := h.kept.publishFor cfg hpc (h.submitted hpc).1 ((h.submitted hpc).2 hpend).1 hpend
    hst hcq hcid
  refine ⟨hst, ?_⟩
  -- the other commands of the queue pair
  have hok := h.kept.commanded.attributed.queue x.memberAcquireCtrl x.queue
  have hsplit : ((s.qps x.memberAcquireCtrl x.queue).inFlight).Perm
      (cmd :: ((s.qps x.memberAcquireCtrl x.queue).sq ++ rest)) := by
    rw [QueuePair.inFlight, hcq]
    exact List.perm_middle
  have hnd := (hsplit.map Cmd.cid).nodup_iff.mp hok.nodup
  rw [List.map_cons, List.nodup_cons] at hnd
  have hqps (ctrl queue : Nat) : (PageCache.publishFor s cmd.owner c x cmd rest).qps ctrl queue =
      if ctrl = x.memberAcquireCtrl ∧ queue = x.queue then
        { s.qps x.memberAcquireCtrl x.queue with
          cq := rest
          cidLocked := update (s.qps x.memberAcquireCtrl x.queue).cidLocked x.cid false }
      else s.qps ctrl queue :=
    setQp_qps s x.memberAcquireCtrl x.queue _ ctrl queue
  have hin {ctrl queue : Nat} {d : Cmd R A}
      (hd : d ∈ ((PageCache.publishFor s cmd.owner c x cmd rest).qps ctrl queue).inFlight) :
      d ∈ (s.qps ctrl queue).inFlight ∧
        (ctrl = x.memberAcquireCtrl ∧ queue = x.queue → d.cid ≠ cmd.cid) := by
    rw [hqps] at hd
    split at hd
    · rename_i heq
      obtain ⟨rfl, rfl⟩ := heq
      have hd : d ∈ (s.qps x.memberAcquireCtrl x.queue).sq ++ rest := hd
      refine ⟨hsplit.mem_iff.mpr (List.mem_cons_of_mem _ hd), fun _ he => hnd.1 ?_⟩
      exact he ▸ List.mem_map_of_mem hd
    · rename_i hne
      exact ⟨hd, fun heq => absurd heq hne⟩
  have hpages (p : PageId R) : (PageCache.publishFor s cmd.owner c x cmd rest).pages p =
      if p = c.page then { s.pages c.page with
        offset := x.pageTrans
        state := (s.pages c.page).state ^^^ Word.disableBusyEnableValid
        pollingFlag := false }
      else s.pages p := by
    simp only [PageCache.publishFor, goto_pages, published_pages, took_pages, setQp_pages,
      St.setPolling, St.setState, St.setOffset, setPage_apply, if_true]
    split <;> rfl
  have hother {b : A} (hb : b ≠ cmd.owner) :
      (PageCache.publishFor s cmd.owner c x cmd rest).pc b = s.pc b := goto_pc_ne _ _ hb _
  have hself : (PageCache.publishFor s cmd.owner c x cmd rest).pc cmd.owner =
      .submitted c { x with isHit := true, hasPendingIo := false } := goto_pc_self ..
  exact
    { kept := hkept
      fit := h.fit.moves rfl (fun _ => rfl) rfl
      reads := fun b => by
        by_cases hb : b = cmd.owner
        · rw [hb, hself]
          exact .inr ⟨c, (h.submitted hpc).1, rfl, fun hio => Bool.noConfusion hio⟩
        · rw [hother hb]
          exact h.reads b
      bare := fun p => by
        rw [hpages]
        split
        · exact ⟨(h.bare _).prefetchCount, (h.bare _).prefetchCounter,
            (Word.isDirty_xor _).trans (h.bare _).clean⟩
        · exact h.bare p
      raising := fun b p hbp => by
        by_cases hb : b = cmd.owner
        · rw [hb, hself] at hbp
          cases hbp
        · rw [hother hb, hstill b] at hbp
          cases hbp
      sent := fun ctrl queue d hd => by
        obtain ⟨hd, hne⟩ := hin hd
        obtain ⟨c', x', hs⟩ := h.sent ctrl queue d hd
        -- a context has one command, and identifiers on a queue pair are distinct
        have hown : d.owner ≠ cmd.owner := by
          intro hown
          obtain ⟨rfl, rfl⟩ : c' = c ∧ x' = x := by
            have heq := hs.pc
            rw [hown, hpc] at heq
            cases heq
            exact ⟨rfl, rfl⟩
          have hcid' : d.cid = x'.cid := hs.names.1
          exact hne ⟨hs.ctrl.symm, hs.queue.symm⟩ (hcid'.trans hcid.symm)
        exact ⟨c', x', { hs with pc := (hother hown).trans hs.pc }⟩
      valid := fun p hv => by
        show s.slotData _ = s.ssd p
        rw [hpages] at hv ⊢
        split at hv
        · rename_i hp
          rw [if_pos hp, hp, ← hpage, ← hslot]
          exact h.posted _ _ cmd (hcq ▸ List.mem_cons_self)
        · rename_i hp
          rw [if_neg hp]
          exact h.valid p hv
      posted := fun ctrl queue d hd => by
        show s.slotData _ = s.ssd _
        rw [hqps] at hd
        split at hd
        · exact h.posted _ _ d (hcq ▸ List.mem_cons_of_mem _ hd)
        · exact h.posted _ _ d hd }

/-- A context gives its references back. -/
theorem giveBack (h : Fetching cfg s) (hpc : s.pc a = .submitted c x) (hit : x.isHit = true) :
    Fetching cfg (((s.setState c.page
      ((s.pages c.page).state - BitVec.ofNat 32 c.count)).setRefCount c.page
        ((s.pages c.page).refCount - BitVec.ofNat 32 c.count)).goto a .idle) := by
  have hfit : c.count ≤ (s.pages c.page).state.cnt := by
    have href : (abs s).ref a = some ⟨c.page, c.count, .fixed x.pageTrans⟩ := by
      show (s.pc a).ref = _
      rw [hpc, Pc.ref, ctxGrip, hit]
      rfl
    exact (Lib.PinCache.count_ge href).trans (h.kept.referenced.counted.refCount c.page)
  have hpages (p : PageId R) : (((s.setState c.page
      ((s.pages c.page).state - BitVec.ofNat 32 c.count)).setRefCount c.page
        ((s.pages c.page).refCount - BitVec.ofNat 32 c.count)).pages p) =
      if p = c.page then { s.pages c.page with
        state := (s.pages c.page).state - BitVec.ofNat 32 c.count
        refCount := (s.pages c.page).refCount - BitVec.ofNat 32 c.count }
      else s.pages p := by
    simp only [St.setRefCount, St.setState, setPage_apply, if_true]
    split
    · rfl
    · rfl
  refine h.goes (t := (s.setState c.page
    ((s.pages c.page).state - BitVec.ofNat 32 c.count)).setRefCount c.page
      ((s.pages c.page).refCount - BitVec.ofNat 32 c.count))
    (h.kept.giveBack cfg hpc hit (h.bare _).prefetchCount (h.bare _).prefetchCounter) rfl rfl rfl
    rfl rfl (fun p => ?_) rfl (.inl rfl) rfl fun d y hd => ?_
  · rw [hpages]
    split
    · rename_i hp
      rw [hp]
      exact ⟨⟨(h.bare _).prefetchCount, (h.bare _).prefetchCounter,
        (Word.isDirty_sub hfit).trans (h.bare _).clean⟩, Word.isValid_sub hfit, rfl⟩
    · exact ⟨h.bare p, rfl, rfl⟩
  · rw [hpc] at hd
    cases hd
    by_contra hno
    have hio : x.hasPendingIo = true := Bool.not_eq_false _ ▸ hno
    rw [((h.submitted hpc).2 hio).1] at hit
    cases hit

end Fetching

end GidsStack.PageCache
