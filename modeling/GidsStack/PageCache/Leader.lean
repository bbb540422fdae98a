/-
  GidsStack.PageCache.Leader

  The command of a miss.  The leader of an asynchronous miss locks a command
  identifier of its queue pair, sends the read, and publishes the page when a
  completion with that identifier is posted there.  As long as nobody polls
  without a command of its own, identifiers in flight are distinct, and the
  completion a leader consumes is that of its own command.
-/

import GidsStack.PageCache.Wait
import GidsStack.Lib.PinCache.Exclusive

namespace GidsStack.PageCache

open Function (update)
open Lib (Reachable Guarded runActs runOk reachable_of_runActs)
open Lib.PinCache (Guard Exclusive)

variable {R : Nat} [NeZero R] {A V : Type*} [DecidableEq A]

/-! ## Identifiers -/

theorem takeCompletion_spec {R : Nat} {A : Type*}
    {cid : Nat} {cq rest : List (Cmd R A)} {cmd : Cmd R A}
    (h : takeCompletion cid cq = some (cmd, rest)) :
    cmd.cid = cid ∧ ∃ l r, cq = l ++ cmd :: r ∧ rest = l ++ r := by
  induction cq generalizing rest with
  | nil => cases h
  | cons d cs ih =>
    rw [takeCompletion] at h
    split at h
    · rename_i hd
      cases h
      exact ⟨hd, [], cs, rfl, rfl⟩
    · obtain ⟨⟨e, rs⟩, hr, he⟩ := Option.map_eq_some_iff.mp h
      cases he
      obtain ⟨hcid, l, r, rfl, rfl⟩ := ih hr
      exact ⟨hcid, d :: l, r, rfl, rfl⟩

/-- The commands of a queue pair whose completion nobody has consumed. -/
def QueuePair.inFlight (q : QueuePair R A) : List (Cmd R A) := q.sq ++ q.cq

/-- The identifiers in flight are locked and distinct. -/
structure QueueOk (q : QueuePair R A) : Prop where
  locked : ∀ cmd ∈ q.inFlight, q.cidLocked cmd.cid = true
  nodup : (q.inFlight.map Cmd.cid).Nodup

theorem QueueOk.eq_of_cid {R : Nat} {A : Type*} {q : QueuePair R A} (h : QueueOk q) {c d : Cmd R A}
    (hc : c ∈ q.inFlight) (hd : d ∈ q.inFlight) (he : c.cid = d.cid) : c = d :=
  List.inj_on_of_nodup_map h.nodup hc hd he

/-- Posting a completion moves a command from one queue to the other. -/
theorem post_perm {R : Nat} {A : Type*}
    {q : QueuePair R A} {n : Nat} {cmd : Cmd R A} (h : q.sq[n]? = some cmd) :
    (({ q with sq := q.sq.eraseIdx n, cq := q.cq ++ [cmd] } : QueuePair R A).inFlight).Perm
      q.inFlight := by
  obtain ⟨hn, hcmd⟩ := List.getElem?_eq_some_iff.mp h
  have hsq : (cmd :: q.sq.eraseIdx n).Perm q.sq := by
    rw [← hcmd]
    exact List.getElem_cons_eraseIdx_perm hn
  have hmove : (q.sq.eraseIdx n ++ (q.cq ++ [cmd])).Perm (q.cq ++ (cmd :: q.sq.eraseIdx n)) := by
    simpa using @List.perm_append_comm _ (q.sq.eraseIdx n) (q.cq ++ [cmd])
  exact hmove.trans ((hsq.append_left q.cq).trans List.perm_append_comm)

/-! ## What a leader is doing -/

/-- The read a leader has to do: its page, queue pair, identifier and slot. -/
structure Errand (R : Nat) where
  page : PageId R
  ctrl : Nat
  queue : Nat
  cid : Nat
  slot : Nat

def Ctx.errand (x : Ctx) (p : PageId R) : Errand R :=
  { page := p, ctrl := x.memberAcquireCtrl, queue := x.queue, cid := x.cid, slot := x.pageTrans }

/-- The stages of a leader: it has no slot yet, it has one, it has locked an
    identifier, its command is in flight, it has consumed the completion and holds
    the identifier, or it has given that back. -/
inductive Role (R : Nat)
  | none
  | opening (p : PageId R)
  | placed (p : PageId R) (i : Nat)
  | sending (e : Errand R)
  | pending (e : Errand R)
  | taken (e : Errand R)
  | done (e : Errand R)

/-- A context has a command in flight if `has_pending_io` says so. -/
def Ctx.role (x : Ctx) (p : PageId R) : Role R :=
  if x.hasPendingIo then .pending (x.errand p) else .none

def Pc.role : Pc R → Role R
  | .submit c _ .clearPolling | .submit c _ .storePending | .submit c _ (.find _) =>
    .opening c.page
  | .submit c x .storeOffset | .submit c x .chooseCtrl | .submit c x .getCid
  | .submit c x (.lockCid _) => .placed c.page x.pageTrans
  | .submit c x (.enqueue cid) => .sending { x.errand c.page with cid := cid }
  | .submitted c x | .wait c x _ .loadState => if x.isHit then .none else x.role c.page
  | .wait c x _ .casPolling | .wait c x _ .reload | .wait c x _ .dropFlag
  | .wait c x _ .recheck => x.role c.page
  | .wait c x _ .poll => .pending (x.errand c.page)
  | .wait c x _ .putCid => .taken (x.errand c.page)
  | .wait c x _ .storeOffset | .wait c x _ .setDirty | .wait c x _ .publish =>
    .done (x.errand c.page)
  | _ => .none

/-- The page an agent leads. -/
def Role.page : Role R → Option (PageId R)
  | .none => Option.none
  | .opening p | .placed p _ => some p
  | .sending e | .pending e | .taken e | .done e => some e.page

/-- The identifier an agent has locked that is not in flight. -/
def Role.holdsCid : Role R → Option (Nat × Nat × Nat)
  | .sending e | .taken e => some (e.ctrl, e.queue, e.cid)
  | _ => Option.none

/-- The command is the one agent `a` sends on errand `e`. -/
def Errand.Names (e : Errand R) (a : A) (cmd : Cmd R A) : Prop :=
  cmd.cid = e.cid ∧ cmd.page = e.page ∧ cmd.slot = e.slot ∧ cmd.owner = a

/-- Agent `a` leads a shared miss of page `p`. -/
def Leads (s : St R A V) (a : A) (p : PageId R) : Prop :=
  (s.history p).leader = some a ∧ (s.history p).shared = true

/-- What is true of the miss of a leader at each stage: its slot, and that the command
    sent for it, or the completion taken, is its own. -/
def RoleOk (s : St R A V) (a : A) : Role R → Prop
  | .none => True
  | .opening p => Leads s a p
  | .placed p i => Leads s a p ∧ (s.history p).given = some i
  | .sending e => Leads s a e.page ∧ (s.history e.page).given = some e.slot
  | .pending e => (Leads s a e.page ∧ (s.history e.page).given = some e.slot) ∧
    ∃ cmd, (s.history e.page).sent = some (e.ctrl, e.queue, cmd) ∧ e.Names a cmd ∧
      cmd ∈ (s.qps e.ctrl e.queue).inFlight
  | .taken e | .done e => (Leads s a e.page ∧ (s.history e.page).given = some e.slot) ∧
    ∃ cmd, (s.history e.page).sent = some (e.ctrl, e.queue, cmd) ∧
      (s.history e.page).took = some (e.ctrl, e.queue, cmd) ∧ e.Names a cmd ∧
      cmd ∉ (s.qps e.ctrl e.queue).sq

/-- Every leader's command is its own, and identifiers are used once. -/
structure Attributed (s : St R A V) : Prop where
  queue : ∀ ctrl queue, QueueOk (s.qps ctrl queue)
  held : ∀ a ctrl queue cid, (s.pc a).role.holdsCid = some (ctrl, queue, cid) →
    (s.qps ctrl queue).cidLocked cid = true ∧
      ∀ cmd ∈ (s.qps ctrl queue).inFlight, cmd.cid ≠ cid
  heldOnce : ∀ a b t, (s.pc a).role.holdsCid = some t → (s.pc b).role.holdsCid = some t → a = b
  role : ∀ a, RoleOk s a (s.pc a).role

section Roles

variable {cfg : Config R} {s s' : St R A V} {a b : A} {r : Role R}

theorem RoleOk.leads {R : Nat} {A V : Type*} {s : St R A V} {a : A} {r : Role R}
    (h : RoleOk s a r) {p : PageId R} (hp : r.page = some p) :
    Leads s a p := by
  cases r <;> cases hp
  · exact h
  · exact h.1
  · exact h.1
  · exact h.1.1
  · exact h.1.1
  · exact h.1.1

/-- What is true of a leader stays true while the history of its page stays and no
    command of its own leaves its queue pair or is sent. -/
theorem RoleOk.mono {R : Nat} {A V : Type*} {s s' : St R A V} {b : A} {r : Role R}
    (h : RoleOk s b r)
    (hh : ∀ p, r.page = some p → s'.history p = s.history p)
    (hin : ∀ ctrl queue cmd, cmd.owner = b → cmd ∈ (s.qps ctrl queue).inFlight →
      cmd ∈ (s'.qps ctrl queue).inFlight)
    (hsq : ∀ ctrl queue cmd, cmd.owner = b → cmd ∈ (s'.qps ctrl queue).sq →
      cmd ∈ (s.qps ctrl queue).sq) : RoleOk s' b r := by
  cases r with
  | none => trivial
  | opening p => simpa only [RoleOk, Leads, hh p rfl] using h
  | placed p i => simpa only [RoleOk, Leads, hh p rfl] using h
  | sending e => simpa only [RoleOk, Leads, hh e.page rfl] using h
  | pending e =>
    obtain ⟨hl, cmd, hs, hn, hm⟩ := h
    refine ⟨by simpa only [Leads, hh e.page rfl] using hl, cmd, ?_, hn, hin _ _ _ hn.2.2.2 hm⟩
    rw [hh e.page rfl, hs]
  | taken e =>
    obtain ⟨hl, cmd, hs, ht, hn, hm⟩ := h
    refine ⟨by simpa only [Leads, hh e.page rfl] using hl, cmd, ?_, ?_, hn,
      fun hm' => hm (hsq _ _ _ hn.2.2.2 hm')⟩
    · rw [hh e.page rfl, hs]
    · rw [hh e.page rfl, ht]
  | done e =>
    obtain ⟨hl, cmd, hs, ht, hn, hm⟩ := h
    refine ⟨by simpa only [Leads, hh e.page rfl] using hl, cmd, ?_, ?_, hn,
      fun hm' => hm (hsq _ _ _ hn.2.2.2 hm')⟩
    · rw [hh e.page rfl, hs]
    · rw [hh e.page rfl, ht]

/-- Nobody but the leader of a page changes the history of its miss. -/
theorem history_kept {R : Nat} [NeZero R] {A V : Type*} {s : St R A V} {b : A}
    (hx : Exclusive (abs s)) (h : Attributed s)
    {h' : PageId R → History R A} {act : Act R A V} (hh : HistoryStep s act h')
    (hb : act.agent ≠ some b) {p : PageId R} (hp : (s.pc b).role.page = some p) :
    h' p = s.history p := by
  have hlead : (s.history p).leader = some b := ((h.role b).leads hp).1
  have hne : ∀ a, act = .run a → (s.history p).leader ≠ some a := by
    rintro a rfl ha
    rw [hlead] at ha
    exact hb (congrArg some (Option.some.inj ha).symm)
  have hother : ∀ q, q ≠ p → ∀ g, update s.history q g p = s.history p :=
    fun q hq g => Function.update_of_ne hq.symm ..
  cases hh with
  | same => rfl
  | @led a q t hl =>
    refine hother q ?_ _
    rintro rfl
    have hbusy : (s.pages q).state.isBusy = true := hx.busy q (by
      show (s.history q).leader ≠ none
      simp [hlead])
    rw [leadsPage] at hl
    split at hl
    · rename_i c hc
      split at hl <;> cases hl
      rename_i hnb
      exact hnb hbusy
    · rename_i c x hc
      split at hl <;> cases hl
      rename_i hnb
      exact hnb hbusy
    · cases hl
  | @assigned a q i hl =>
    refine hother q ?_ _
    rintro rfl
    obtain ⟨t, ht⟩ : ∃ t, (s.pc a).leading = some (q, t) := by
      rw [assignsPage] at hl
      split at hl <;> rename_i hc <;> cases hl <;> rw [hc] <;> exact ⟨_, rfl⟩
    exact hne a rfl (hx.lead a q t ht).1
  | @published a q hl =>
    refine hother q ?_ _
    rintro rfl
    rw [publishesPage] at hl
    split at hl
    · rename_i c i hc
      cases hl
      exact hne a rfl (hx.serve a ⟨c.page, i, true⟩ (abs_at hc).2.2.2.2.1).1
    · rename_i c x blocking hc
      cases hl
      exact hne a rfl (hx.poll a ⟨c.page, x.pageTrans, .stored⟩ (abs_at hc).2.2.2.2.2.1).1
    · cases hl
  | @sent a c x cid hc =>
    refine hother c.page ?_ _
    rintro rfl
    exact hne a rfl ((h.role a).leads (by rw [hc]; rfl)).1
  | @took a c x blocking cmd cq hc hq =>
    refine hother c.page ?_ _
    rintro rfl
    exact hne a rfl (hx.poll a ⟨c.page, x.pageTrans, .waits⟩ (abs_at hc).2.2.2.2.2.1).1

/-- A step of agent `a` that sends and consumes nothing, and leaves the agent in a role
    that is true of it. -/
theorem Attributed.of_step (h : Attributed s) (hx : Exclusive (abs s))
    (hh : HistoryStep s (.run a) s'.history) (hne : ∀ b, b ≠ a → s'.pc b = s.pc b)
    (hq : ∀ ctrl queue, (s'.qps ctrl queue).sq = (s.qps ctrl queue).sq ∧
      (s'.qps ctrl queue).cq = (s.qps ctrl queue).cq ∧
      (s'.qps ctrl queue).cidLocked = (s.qps ctrl queue).cidLocked)
    (hcid : (s'.pc a).role.holdsCid = none ∨
      (s'.pc a).role.holdsCid = (s.pc a).role.holdsCid)
    (hrole : RoleOk s' a (s'.pc a).role) : Attributed s' := by
  have hin : ∀ ctrl queue, (s'.qps ctrl queue).inFlight = (s.qps ctrl queue).inFlight := by
    intro ctrl queue
    rw [QueuePair.inFlight, QueuePair.inFlight, (hq ctrl queue).1, (hq ctrl queue).2.1]
  have hold : ∀ b t, (s'.pc b).role.holdsCid = some t → (s.pc b).role.holdsCid = some t := by
    intro b t ht
    by_cases hb : b = a
    · subst hb
      rcases hcid with h0 | h0
      · rw [h0] at ht
        cases ht
      · rwa [h0] at ht
    · rwa [hne b hb] at ht
  constructor
  · intro ctrl queue
    obtain ⟨hlock, hnd⟩ := h.queue ctrl queue
    constructor
    · intro cmd hm
      rw [(hq ctrl queue).2.2]
      exact hlock cmd (by rwa [hin] at hm)
    · rw [hin]
      exact hnd
  · intro b ctrl queue cid ht
    rw [(hq ctrl queue).2.2, hin]
    exact h.held b ctrl queue cid (hold b _ ht)
  · intro b d t hb hd
    exact h.heldOnce b d t (hold b t hb) (hold d t hd)
  · intro b
    by_cases hb : b = a
    · subst hb
      exact hrole
    · rw [hne b hb]
      refine (h.role b).mono (fun p hp => history_kept hx h hh ?_ hp) ?_ ?_
      · simpa [Act.agent] using fun e => hb e.symm
      · intro ctrl queue cmd _ hm
        rwa [hin]
      · intro ctrl queue cmd _ hm
        rwa [(hq ctrl queue).1] at hm

theorem setQp_qps {R : Nat} {A V : Type*}
    (s : St R A V) (ctrl queue : Nat) (d : QueuePair R A) (ctrl' queue' : Nat) :
    (s.setQp ctrl queue d).qps ctrl' queue' =
      if ctrl' = ctrl ∧ queue' = queue then d else s.qps ctrl' queue' := by
  simp only [St.setQp, Function.update_apply]
  by_cases hc : ctrl' = ctrl
  · by_cases hq : queue' = queue
    · simp [hc, hq]
    · simp [hc, hq]
  · simp [hc]

/-- A step of agent `a` on its queue pair. -/
theorem Attributed.of_qp (h : Attributed s) (hx : Exclusive (abs s))
    (hh : HistoryStep s (.run a) s'.history) (hne : ∀ b, b ≠ a → s'.pc b = s.pc b)
    (ctrl queue : Nat) {d : QueuePair R A} (hqps : s'.qps = (s.setQp ctrl queue d).qps)
    (hd : QueueOk d)
    (hother : ∀ b, b ≠ a → ∀ cid, (s.pc b).role.holdsCid = some (ctrl, queue, cid) →
      d.cidLocked cid = true ∧ ∀ cmd ∈ d.inFlight, cmd.cid ≠ cid)
    (hself : ∀ t, (s'.pc a).role.holdsCid = some t → ∃ cid, t = (ctrl, queue, cid) ∧
      d.cidLocked cid = true ∧ (∀ cmd ∈ d.inFlight, cmd.cid ≠ cid) ∧
      ∀ b, b ≠ a → (s.pc b).role.holdsCid ≠ some (ctrl, queue, cid))
    (hin : ∀ cmd, cmd.owner ≠ a → cmd ∈ (s.qps ctrl queue).inFlight → cmd ∈ d.inFlight)
    (hsq : ∀ cmd, cmd.owner ≠ a → cmd ∈ d.sq → cmd ∈ (s.qps ctrl queue).sq)
    (hrole : RoleOk s' a (s'.pc a).role) : Attributed s' := by
  have happly : ∀ ctrl' queue', s'.qps ctrl' queue' =
      if ctrl' = ctrl ∧ queue' = queue then d else s.qps ctrl' queue' := by
    intro ctrl' queue'
    rw [hqps, setQp_qps]
  constructor
  · intro ctrl' queue'
    rw [happly]
    split
    · exact hd
    · exact h.queue ctrl' queue'
  · intro b ctrl' queue' cid ht
    by_cases hb : b = a
    · subst hb
      obtain ⟨cid', hcid, hlock, hfree, -⟩ := hself _ ht
      cases hcid
      rw [happly, if_pos ⟨rfl, rfl⟩]
      exact ⟨hlock, hfree⟩
    · rw [hne b hb] at ht
      rw [happly]
      split
      · rename_i heq
        obtain ⟨rfl, rfl⟩ := heq
        exact hother b hb cid ht
      · exact h.held b ctrl' queue' cid ht
  · intro b c t hb hc
    by_cases hba : b = a
    · subst hba
      obtain ⟨cid, rfl, -, -, hfree⟩ := hself t hb
      by_contra hcb
      have hcb' : c ≠ b := fun e => hcb e.symm
      rw [hne c hcb'] at hc
      exact hfree c hcb' hc
    · by_cases hca : c = a
      · subst hca
        obtain ⟨cid, rfl, -, -, hfree⟩ := hself t hc
        rw [hne b hba] at hb
        exact absurd hb (hfree b hba)
      · rw [hne b hba] at hb
        rw [hne c hca] at hc
        exact h.heldOnce b c t hb hc
  · intro b
    by_cases hb : b = a
    · subst hb
      exact hrole
    · rw [hne b hb]
      refine (h.role b).mono (fun p hp => history_kept hx h hh ?_ hp) ?_ ?_
      · simpa [Act.agent] using fun e => hb e.symm
      · intro ctrl' queue' cmd hown hm
        rw [happly]
        split
        · rename_i heq
          obtain ⟨rfl, rfl⟩ := heq
          exact hin cmd (by rw [hown]; exact hb) hm
        · exact hm
      · intro ctrl' queue' cmd hown hm
        rw [happly] at hm
        split at hm
        · rename_i heq
          obtain ⟨rfl, rfl⟩ := heq
          exact hsq cmd (by rw [hown]; exact hb) hm
        · exact hm

/-- Posting completions changes nothing of this. -/
theorem Attributed.post {R : Nat} {A V : Type*} {s s' : St R A V}
    (h : Attributed s) {ctrl queue n : Nat}
    (hs : postStep s ctrl queue n = some s') : Attributed s' := by
  simp only [postStep] at hs
  split at hs
  · cases hs
  rename_i cmd hcmd
  cases hs
  have hperm := post_perm hcmd
  set d : QueuePair R A := { s.qps ctrl queue with
    sq := (s.qps ctrl queue).sq.eraseIdx n
    cq := (s.qps ctrl queue).cq ++ [cmd] } with hd
  set s' := St.setQp { s with slotData := update s.slotData cmd.slot (s.ssd cmd.page) }
    ctrl queue d with hs'
  have happly : ∀ ctrl' queue', s'.qps ctrl' queue' =
      if ctrl' = ctrl ∧ queue' = queue then d else s.qps ctrl' queue' :=
    fun ctrl' queue' => setQp_qps _ ctrl queue d ctrl' queue'
  have hin : ∀ ctrl' queue', ((s'.qps ctrl' queue').inFlight).Perm
      (s.qps ctrl' queue').inFlight := by
    intro ctrl' queue'
    rw [happly]
    split
    · rename_i heq
      obtain ⟨rfl, rfl⟩ := heq
      exact hperm
    · exact .refl _
  have hlock : ∀ ctrl' queue', (s'.qps ctrl' queue').cidLocked = (s.qps ctrl' queue').cidLocked := by
    intro ctrl' queue'
    rw [happly]
    split
    · rename_i heq
      obtain ⟨rfl, rfl⟩ := heq
      rfl
    · rfl
  constructor
  · intro ctrl' queue'
    obtain ⟨hl, hnd⟩ := h.queue ctrl' queue'
    constructor
    · intro cmd hm
      rw [hlock]
      exact hl cmd ((hin ctrl' queue').mem_iff.mp hm)
    · exact ((hin ctrl' queue').map Cmd.cid).nodup_iff.mpr hnd
  · intro a ctrl' queue' cid ht
    obtain ⟨hl, hfree⟩ := h.held a ctrl' queue' cid ht
    rw [hlock]
    exact ⟨hl, fun cmd hm => hfree cmd ((hin ctrl' queue').mem_iff.mp hm)⟩
  · exact h.heldOnce
  · intro b
    refine (h.role b).mono (fun p _ => rfl) ?_ ?_
    · intro ctrl' queue' cmd _ hm
      exact (hin ctrl' queue').mem_iff.mpr hm
    · intro ctrl' queue' cmd _ hm
      rw [happly] at hm
      split at hm
      · rename_i heq
        obtain ⟨rfl, rfl⟩ := heq
        exact List.mem_of_mem_eraseIdx hm
      · exact hm

/-- A step of agent `a` that sends and consumes nothing and changes no history, by which
    the agent keeps its role or gives it up. -/
theorem Attributed.quiet (h : Attributed s) (hx : Exclusive (abs s)) {t : St R A V} (k : Pc R)
    (hh : t.history = s.history) (hpc : t.pc = s.pc) (hq : t.qps = s.qps)
    (hr : k.role = (s.pc a).role ∨ k.role = .none) : Attributed (t.goto a k) := by
  have hself : (t.goto a k).pc a = k := goto_pc_self ..
  refine h.of_step (a := a) hx (.of_eq hh) (fun b hb => ?_) (fun ctrl queue => ?_) ?_ ?_
  · rw [goto_pc_ne _ _ hb, hpc]
  · rw [goto_qps, hq]
    exact ⟨rfl, rfl, rfl⟩
  · rw [hself]
    rcases hr with hr | hr <;> rw [hr]
    · exact .inr rfl
    · exact .inl rfl
  · rw [hself]
    rcases hr with hr | hr <;> rw [hr]
    · refine (h.role a).mono (fun p _ => by rw [goto_history, hh]) ?_ ?_
      · intro ctrl queue cmd _ hm
        rwa [goto_qps, hq]
      · intro ctrl queue cmd _ hm
        rwa [goto_qps, hq] at hm
    · trivial

/-- A step of agent `a` that leaves the queue pairs alone and ends in no role. -/
theorem Attributed.idle (h : Attributed s) (hx : Exclusive (abs s))
    (hh : HistoryStep s (.run a) s'.history) (hne : ∀ b, b ≠ a → s'.pc b = s.pc b)
    (hq : s'.qps = s.qps) (hr : (s'.pc a).role = .none) : Attributed s' := by
  refine h.of_step hx hh hne (fun ctrl queue => ?_) (.inl ?_) ?_
  · rw [hq]
    exact ⟨rfl, rfl, rfl⟩
  · rw [hr]
    rfl
  · rw [hr]
    trivial

end Roles

/-! ## Every step keeps commands attributed -/

section Steps

variable {cfg : Config R} {s s' : St R A V} {a : A} {c : Call R} {x : Ctx}

/-- A submit that has sent nothing yet has `has_pending_io` clear. -/
def Pc.isFresh : Pc R → Bool
  | .submit _ x _ => !x.hasPendingIo
  | _ => true

theorem acquireStep_role (cfg : Config R) (s : St R A V) (a : A) (c : Call R) (k : AcquirePc R) :
    ((acquireStep cfg s a c k).pc a).role = .none ∧
      ((acquireStep cfg s a c k).pc a).isFresh = true := by
  have hacquired : ∀ i, (acquired c i).role = .none ∧ (acquired c i).isFresh = true := by
    intro i
    rw [acquired]
    split <;> exact ⟨rfl, rfl⟩
  cases k with
  | prologue k =>
    obtain ⟨k', hk'⟩ | ⟨pin, hk'⟩ := prologueStep_pc s a c.page
      (fun k => .acquire c (.prologue k)) (fun pin => .acquire c (.fetchAdd pin)) k
    · rw [acquireStep, hk']
      exact ⟨rfl, rfl⟩
    · rw [acquireStep, hk']
      exact ⟨rfl, rfl⟩
  | find k =>
    by_cases hk : ∃ i, k = .unlockDone i
    · obtain ⟨i, rfl⟩ := hk
      rw [acquireStep, findStep, goto_pc_self]
      exact ⟨rfl, rfl⟩
    · obtain ⟨k', hk'⟩ := findStep_pc cfg .state s a c.page (fun k => .acquire c (.find k))
        (fun i => .acquire c (.chooseCtrl i)) fun i h => hk ⟨i, h⟩
      rw [acquireStep, hk']
      exact ⟨rfl, rfl⟩
  | publish i =>
    rw [acquireStep, goto_pc_self]
    exact hacquired i
  | loadOffset =>
    rw [acquireStep, goto_pc_self]
    exact hacquired _
  | _ =>
    simp only [acquireStep]
    (repeat' split) <;> rw [goto_pc_self] <;> exact ⟨rfl, rfl⟩

theorem submitDispatch_role {R : Nat} (c : Call R) (x : Ctx) (w : Word) :
    (Pc.submit c x (submitDispatch c w)).role = .none := by
  rw [submitDispatch]
  split
  · rfl
  · split <;> rfl
  · rfl
  · rfl

theorem submitStep_fresh (cfg : Config R) (s : St R A V) (a : A) (c : Call R) {x : Ctx}
    (hx : x.hasPendingIo = false) (k : SubmitPc R) :
    ((submitStep cfg s a c x k).pc a).isFresh = true := by
  cases k with
  | prologue k =>
    obtain ⟨k', hk'⟩ | ⟨pin, hk'⟩ := prologueStep_pc s a c.page
      (fun k => .submit c x (.prologue k)) (fun pin => .submit c x (.fetchAdd pin)) k
    · rw [submitStep, hk', Pc.isFresh, hx]
      rfl
    · rw [submitStep, hk', Pc.isFresh, hx]
      rfl
  | find k =>
    by_cases hk : ∃ i, k = .unlockDone i
    · obtain ⟨i, rfl⟩ := hk
      rw [submitStep, findStep, goto_pc_self, Pc.isFresh, hx]
      rfl
    · obtain ⟨k', hk'⟩ := findStep_pc cfg .refCount s a c.page (fun k => .submit c x (.find k))
        (fun i => .submit c { x with pageTrans := i } .storeOffset) fun i h => hk ⟨i, h⟩
      rw [submitStep, hk', Pc.isFresh, hx]
      rfl
  | _ =>
    simp only [submitStep]
    (repeat' split) <;> rw [goto_pc_self] <;> simp [Pc.isFresh, hx]

/-- Locking an identifier. -/
theorem lockCid_attributed {cid : Nat} (hpc : s.pc a = .submit c x (.lockCid cid))
    (h : Attributed s) (hx : Exclusive (abs s))
    (hh : HistoryStep s (.run a) (submitStep cfg s a c x (.lockCid cid)).history)
    (hne : ∀ b, b ≠ a → (submitStep cfg s a c x (.lockCid cid)).pc b = s.pc b) :
    Attributed (submitStep cfg s a c x (.lockCid cid)) := by
  have hrole := h.role a
  rw [hpc] at hrole
  obtain ⟨hlock, hnd⟩ := h.queue x.memberAcquireCtrl x.queue
  have hall : ∀ cid', (s.qps x.memberAcquireCtrl x.queue).cidLocked cid' = true →
      update (s.qps x.memberAcquireCtrl x.queue).cidLocked cid true cid' = true := by
    intro cid' hc
    rw [Function.update_apply]
    split
    · rfl
    · exact hc
  simp only [submitStep] at hh hne ⊢
  by_cases hl : (s.qps x.memberAcquireCtrl x.queue).cidLocked cid = true
  · rw [if_pos hl] at hh hne ⊢
    refine h.of_step hx hh hne (fun ctrl queue => ?_) (.inl (by rw [goto_pc_self]; rfl))
      (by rw [goto_pc_self]; exact hrole)
    rw [goto_qps, setQp_qps]
    split
    · rename_i heq
      rw [heq.1, heq.2]
      exact ⟨rfl, rfl, update_eq_of hl⟩
    · exact ⟨rfl, rfl, rfl⟩
  · rw [if_neg hl] at hh hne ⊢
    refine h.of_qp hx hh hne x.memberAcquireCtrl x.queue rfl
      ⟨fun cmd hm => hall _ (hlock cmd hm), hnd⟩ ?_ ?_ (fun _ _ hm => hm) (fun _ _ hm => hm)
      (by rw [goto_pc_self]; exact hrole)
    · intro b hb cid' ht
      obtain ⟨hl', hfree⟩ := h.held b _ _ _ ht
      exact ⟨hall _ hl', hfree⟩
    · intro t ht
      rw [goto_pc_self] at ht
      cases ht
      refine ⟨cid, rfl, Function.update_self .., ?_, ?_⟩
      · rintro cmd hm rfl
        exact hl (hlock cmd hm)
      · intro b _ hb
        exact hl (h.held b _ _ _ hb).1

/-- Sending the command of a miss. -/
theorem enqueue_attributed {cid : Nat} (hpc : s.pc a = .submit c x (.enqueue cid))
    (h : Attributed s) (hx : Exclusive (abs s))
    (hh : HistoryStep s (.run a) (submitStep cfg s a c x (.enqueue cid)).history)
    (hne : ∀ b, b ≠ a → (submitStep cfg s a c x (.enqueue cid)).pc b = s.pc b) :
    Attributed (submitStep cfg s a c x (.enqueue cid)) := by
  have hrole := h.role a
  have hheld := h.held a x.memberAcquireCtrl x.queue cid (by rw [hpc]; rfl)
  rw [hpc] at hrole
  obtain ⟨hlead, hgiven⟩ : Leads s a c.page ∧ (s.history c.page).given = some x.pageTrans := hrole
  obtain ⟨hlock, hnd⟩ := h.queue x.memberAcquireCtrl x.queue
  set cmd : Cmd R A := ⟨cid, c.page, x.pageTrans, a, s.serial⟩ with hcmd
  have hmem : ∀ d : Cmd R A, d ∈ (s.qps x.memberAcquireCtrl x.queue).sq ++ [cmd] ++
      (s.qps x.memberAcquireCtrl x.queue).cq ↔
        d = cmd ∨ d ∈ (s.qps x.memberAcquireCtrl x.queue).inFlight := by
    intro d
    simp only [QueuePair.inFlight, List.mem_append, List.mem_singleton]
    tauto
  refine h.of_qp hx hh hne x.memberAcquireCtrl x.queue rfl ⟨?_, ?_⟩ ?_ ?_ ?_
    ?_ ?_
  · intro d hd
    rcases (hmem d).mp hd with rfl | hd
    · exact hheld.1
    · exact hlock d hd
  · have hperm : (((s.qps x.memberAcquireCtrl x.queue).sq ++ [cmd] ++
        (s.qps x.memberAcquireCtrl x.queue).cq).map Cmd.cid).Perm
          (cid :: (s.qps x.memberAcquireCtrl x.queue).inFlight.map Cmd.cid) := by
      rw [← List.map_cons (f := Cmd.cid) (a := cmd), QueuePair.inFlight]
      refine List.Perm.map _ ?_
      simp only [List.append_assoc, List.singleton_append]
      exact List.perm_middle
    refine hperm.nodup_iff.mpr (List.nodup_cons.mpr ⟨?_, hnd⟩)
    intro hm
    obtain ⟨d, hd, hcid⟩ := List.mem_map.mp hm
    exact hheld.2 d hd hcid
  · intro b hb cid' ht
    obtain ⟨hl', hfree⟩ := h.held b _ _ _ ht
    refine ⟨hl', fun d hd => ?_⟩
    rcases (hmem d).mp hd with rfl | hd
    · rintro rfl
      exact hb (h.heldOnce b a _ ht (by rw [hpc]; rfl))
    · exact hfree d hd
  · intro t ht
    rw [submitStep, goto_pc_self] at ht
    cases ht
  · intro d _ hd
    exact (hmem d).mpr (.inr hd)
  · intro d hown hd
    rcases List.mem_append.mp hd with hd | hd
    · exact hd
    · rw [List.mem_singleton] at hd
      rw [hd] at hown
      exact absurd rfl hown
  · rw [submitStep, goto_pc_self]
    refine ⟨⟨?_, ?_⟩, cmd, ?_, ⟨rfl, rfl, rfl, rfl⟩, ?_⟩
    · simpa [Leads, St.sent, St.setHistory, Ctx.errand] using hlead
    · simpa [St.sent, St.setHistory, Ctx.errand] using hgiven
    · simp [St.sent, St.setHistory, Ctx.errand, hcmd]
    · show cmd ∈ ((St.setQp { s with serial := s.serial + 1 } x.memberAcquireCtrl x.queue
        { s.qps x.memberAcquireCtrl x.queue with
          sq := (s.qps x.memberAcquireCtrl x.queue).sq ++ [cmd] }).qps
            x.memberAcquireCtrl x.queue).inFlight
      rw [setQp_qps, if_pos ⟨rfl, rfl⟩]
      exact (hmem cmd).mpr (.inl rfl)

theorem submitStep_attributed {k : SubmitPc R} (hpc : s.pc a = .submit c x k)
    (hf : x.hasPendingIo = false)
    (h : Attributed s) (hx : Exclusive (abs s)) (hs : runStep cfg s a = some s') :
    Attributed s' := by
  have hne : ∀ b, b ≠ a → s'.pc b = s.pc b := fun b hb => runStep_pc_ne hs hb
  have hrole := h.role a
  simp only [runStep, hpc] at hs
  obtain rfl := Option.some.inj hs
  have hh := submitStep_history cfg hpc
  rw [hpc] at hrole
  cases k with
  | prologue k =>
    refine h.idle hx hh hne (prologueStep_qps ..) ?_
    obtain ⟨k', hk'⟩ | ⟨pin, hk'⟩ := prologueStep_pc s a c.page
      (fun k => .submit c x (.prologue k)) (fun pin => .submit c x (.fetchAdd pin)) k
    · rw [submitStep, hk']
      rfl
    · rw [submitStep, hk']
      rfl
  | fetchAdd pin => exact h.quiet hx (t := s.setState _ _) _ rfl rfl rfl (.inr rfl)
  | addRefCount pin w =>
    exact h.quiet hx (t := s.setRefCount _ _) _ rfl rfl rfl (.inr (submitDispatch_role ..))
  | setBusy =>
    simp only [submitStep] at hh hne ⊢
    split
    · exact h.quiet hx (t := s.setState _ _) _ rfl rfl rfl (.inr rfl)
    · rename_i hb
      rw [if_neg hb] at hh hne
      refine h.of_step hx hh hne (fun _ _ => ⟨rfl, rfl, rfl⟩) (.inl (by rw [goto_pc_self]; rfl)) ?_
      rw [goto_pc_self]
      exact ⟨by simp [St.led, St.setHistory], by simp [St.led, St.setHistory]⟩
  | clearPolling =>
    exact h.quiet hx (t := s.setPolling _ _) _ rfl rfl rfl (.inl (by rw [hpc]; rfl))
  | storePending =>
    exact h.quiet hx (t := s.setOffset _ _) _ rfl rfl rfl (.inl (by rw [hpc]; rfl))
  | find k =>
    by_cases hk : ∃ i, k = .unlockDone i
    · obtain ⟨i, rfl⟩ := hk
      refine h.of_step hx hh hne (fun _ _ => ⟨rfl, rfl, rfl⟩)
        (.inl (by rw [submitStep, findStep, goto_pc_self]; rfl)) ?_
      rw [submitStep, findStep, goto_pc_self]
      refine ⟨?_, by simp [St.assigned, St.setHistory]⟩
      have hl : Leads s a c.page := hrole
      simpa [Leads, St.assigned, St.setHistory, St.setLock] using hl
    · have hk' : ∀ i, k ≠ .unlockDone i := fun i e => hk ⟨i, e⟩
      obtain ⟨k', hk''⟩ := findStep_pc cfg .refCount s a c.page (fun k => .submit c x (.find k))
        (fun i => .submit c { x with pageTrans := i } .storeOffset) hk'
      have hhist := findStep_history cfg (s := s) (a := a) .refCount c.page
        (fun k => .submit c x (.find k)) (fun i => .submit c { x with pageTrans := i } .storeOffset)
        hk'
      have hqps := findStep_qps cfg .refCount s a c.page (fun k => .submit c x (.find k))
        (fun i => .submit c { x with pageTrans := i } .storeOffset) k
      refine h.of_step hx hh hne (fun _ _ => by rw [submitStep, hqps]; exact ⟨rfl, rfl, rfl⟩)
        (.inl (by rw [submitStep, hk'']; rfl)) ?_
      rw [submitStep, hk'']
      show Leads _ a c.page
      rw [Leads, hhist]
      exact hrole
  | storeOffset =>
    exact h.quiet hx (t := s.setOffset _ _) _ rfl rfl rfl (.inl (by rw [hpc]; rfl))
  | chooseCtrl =>
    simp only [submitStep] at hh hne ⊢
    split
    · exact h.quiet hx (t := s) _ rfl rfl rfl (.inl (by rw [hpc]; rfl))
    · exact h.quiet hx (t := { s with ctrlCounter := s.ctrlCounter + 1 }) _ rfl rfl rfl
        (.inl (by rw [hpc]; rfl))
  | getCid =>
    refine h.of_step hx hh hne (fun ctrl queue => ?_) (.inl (by rw [submitStep, goto_pc_self]; rfl))
      (by rw [submitStep, goto_pc_self]; exact hrole)
    simp only [submitStep, goto_qps, setQp_qps]
    split
    · rename_i heq
      rw [heq.1, heq.2]
      exact ⟨rfl, rfl, rfl⟩
    · exact ⟨rfl, rfl, rfl⟩
  | lockCid cid => exact lockCid_attributed hpc h hx hh hne
  | enqueue cid => exact enqueue_attributed hpc h hx hh hne
  | markDirty => exact h.quiet hx (t := s.setState _ _) _ rfl rfl rfl (.inr rfl)
  | loadOffset => exact h.quiet hx (t := s) _ rfl rfl rfl (.inr rfl)
  | followOffset =>
    simp only [submitStep]
    split <;> exact h.quiet hx (t := s) _ rfl rfl rfl (.inr rfl)
  | followTrans i =>
    simp only [submitStep]
    split <;> exact h.quiet hx (t := s) _ rfl rfl rfl (.inr rfl)
  | followCtrl =>
    have hnone : ∀ ctrl, (Pc.submitted c { x with isHit := false, memberAcquireCtrl := ctrl }).role
        = .none := by
      intro ctrl
      simp [Pc.role, Ctx.role, hf]
    simp only [submitStep]
    split
    · exact h.quiet hx (t := s) _ rfl rfl rfl (.inr (hnone _))
    · exact h.quiet hx (t := { s with ctrlCounter := s.ctrlCounter + 1 }) _ rfl rfl rfl
        (.inr (hnone _))
  | reload => exact h.quiet hx (t := s) _ rfl rfl rfl (.inr (submitDispatch_role ..))

/-- Going on with the state just read: a waiter keeps its command in flight, or finds
    the page valid. -/
theorem waitDispatch_role {R : Nat} (c : Call R) (x : Ctx) (blocking : Bool) (w : Word) :
    (waitDispatch c x blocking w).role = x.role c.page ∨
      (waitDispatch c x blocking w).role = .none := by
  rw [waitDispatch]
  split
  · exact .inr rfl
  · exact .inl rfl
  · split <;> exact .inl rfl
  · split <;> exact .inl rfl

/-- Consuming a completion: it is the one of the leader's command. -/
theorem poll_attributed {blocking : Bool} {cmd : Cmd R A} {cq : List (Cmd R A)}
    (hpc : s.pc a = .wait c x blocking .poll) (h : Attributed s) (hx : Exclusive (abs s))
    (hq : takeCompletion x.cid (s.qps x.memberAcquireCtrl x.queue).cq = some (cmd, cq)) :
    Attributed (((s.setQp x.memberAcquireCtrl x.queue
      { s.qps x.memberAcquireCtrl x.queue with cq := cq }).took c.page x.memberAcquireCtrl x.queue
        cmd).goto a (.wait c x blocking .putCid)) := by
  have hrole := h.role a
  rw [hpc] at hrole
  obtain ⟨⟨hlead, hgiven⟩, own, hsent, hnames, hin⟩ := hrole
  obtain ⟨hcid, l, r, hcq, hrest⟩ := takeCompletion_spec hq
  have hok := h.queue x.memberAcquireCtrl x.queue
  have hcmd : cmd ∈ (s.qps x.memberAcquireCtrl x.queue).inFlight := by
    simp [QueuePair.inFlight, hcq]
  -- identifiers in flight are distinct
  obtain rfl : cmd = own := hok.eq_of_cid hcmd hin (hcid.trans hnames.1.symm)
  have hsplit : ((s.qps x.memberAcquireCtrl x.queue).inFlight).Perm
      (cmd :: ((s.qps x.memberAcquireCtrl x.queue).sq ++ cq)) := by
    rw [QueuePair.inFlight, hcq, hrest, ← List.append_assoc, ← List.append_assoc]
    exact List.perm_middle
  have hnd := (hsplit.map Cmd.cid).nodup_iff.mp hok.nodup
  rw [List.map_cons, List.nodup_cons] at hnd
  have hfree : ∀ d ∈ (s.qps x.memberAcquireCtrl x.queue).sq ++ cq, d.cid ≠ x.cid := by
    intro d hd he
    exact hnd.1 (List.mem_map.mpr ⟨d, hd, he.trans hcid.symm⟩)
  have hsub : ∀ d ∈ (s.qps x.memberAcquireCtrl x.queue).sq ++ cq,
      d ∈ (s.qps x.memberAcquireCtrl x.queue).inFlight :=
    fun d hd => hsplit.mem_iff.mpr (List.mem_cons_of_mem _ hd)
  refine h.of_qp hx (.took hpc hq) (fun b hb => by rw [goto_pc_ne _ _ hb]; rfl)
    x.memberAcquireCtrl x.queue rfl
    ⟨fun d hd => hok.locked d (hsub d hd), hnd.2⟩ ?_ ?_ ?_ (fun _ _ hd => hd) ?_
  · intro b hb cid ht
    obtain ⟨hl, hf⟩ := h.held b _ _ _ ht
    exact ⟨hl, fun d hd => hf d (hsub d hd)⟩
  · intro t ht
    rw [goto_pc_self] at ht
    cases ht
    refine ⟨x.cid, rfl, ?_, hfree, ?_⟩
    · have hl := hok.locked cmd hcmd
      rwa [hcid] at hl
    · intro b _ hb
      exact (h.held b _ _ _ hb).2 cmd hcmd hcid
  · intro d hown hd
    rcases List.mem_cons.mp (hsplit.mem_iff.mp hd) with rfl | hd
    · exact absurd hnames.2.2.2 hown
    · exact hd
  · rw [goto_pc_self]
    refine ⟨⟨?_, ?_⟩, cmd, ?_, ?_, hnames, ?_⟩
    · simpa [Leads, St.took, St.setHistory, Ctx.errand] using hlead
    · simpa [St.took, St.setHistory, Ctx.errand] using hgiven
    · simpa [St.took, St.setHistory, Ctx.errand] using hsent
    · simp [St.took, St.setHistory, Ctx.errand]
    · show cmd ∉ ((St.setQp s x.memberAcquireCtrl x.queue
        { s.qps x.memberAcquireCtrl x.queue with cq := cq }).qps x.memberAcquireCtrl x.queue).sq
      rw [setQp_qps, if_pos ⟨rfl, rfl⟩]
      exact fun hd => hfree cmd (List.mem_append_left _ hd) hcid

/-- Giving an identifier back. -/
theorem putCid_attributed {blocking : Bool} (hpc : s.pc a = .wait c x blocking .putCid)
    (h : Attributed s) (hx : Exclusive (abs s)) :
    Attributed ((s.setQp x.memberAcquireCtrl x.queue
      { s.qps x.memberAcquireCtrl x.queue with
        cidLocked := update (s.qps x.memberAcquireCtrl x.queue).cidLocked x.cid false }).goto a
          (.wait c { x with hasPendingIo := false } blocking .storeOffset)) := by
  have hrole := h.role a
  have hheld := h.held a x.memberAcquireCtrl x.queue x.cid (by rw [hpc]; rfl)
  rw [hpc] at hrole
  obtain ⟨hlead, own, hsent, htook, hnames, hnot⟩ := hrole
  have hok := h.queue x.memberAcquireCtrl x.queue
  have hkeep : ∀ cid, cid ≠ x.cid → update (s.qps x.memberAcquireCtrl x.queue).cidLocked x.cid
      false cid = (s.qps x.memberAcquireCtrl x.queue).cidLocked cid :=
    fun cid hc => Function.update_of_ne hc ..
  refine h.of_qp hx .same (fun b hb => by rw [goto_pc_ne _ _ hb]; rfl)
    x.memberAcquireCtrl x.queue rfl ⟨?_, hok.nodup⟩ ?_ ?_ (fun _ _ hd => hd)
    (fun _ _ hd => hd) ?_
  · intro d hd
    exact (hkeep d.cid (hheld.2 d hd)).trans (hok.locked d hd)
  · intro b hb cid ht
    obtain ⟨hl, hf⟩ := h.held b _ _ _ ht
    have hne : cid ≠ x.cid := by
      rintro rfl
      exact hb (h.heldOnce b a _ ht (by rw [hpc]; rfl))
    exact ⟨(hkeep cid hne).trans hl, hf⟩
  · intro t ht
    rw [goto_pc_self] at ht
    cases ht
  · rw [goto_pc_self]
    refine ⟨hlead, own, hsent, htook, hnames, ?_⟩
    show own ∉ ((St.setQp s x.memberAcquireCtrl x.queue
      { s.qps x.memberAcquireCtrl x.queue with
        cidLocked := update (s.qps x.memberAcquireCtrl x.queue).cidLocked x.cid false }).qps
          x.memberAcquireCtrl x.queue).sq
    rw [setQp_qps, if_pos ⟨rfl, rfl⟩]
    exact hnot

/-- A step of a waiter, which takes the flag only with a command in flight. -/
theorem waitStep_attributed {blocking : Bool} {k : WaitPc}
    (hpc : s.pc a = .wait c x blocking k) (h : Attributed s) (hx : Exclusive (abs s))
    (hwin : winsPage s a ≠ none → x.hasPendingIo = true)
    (hs : waitStep s a c x blocking k = some s') : Attributed s' := by
  cases k with
  | loadState =>
    simp only [waitStep] at hs
    split at hs <;> rename_i hit <;> cases hs
    · exact h.quiet hx (t := s) _ rfl rfl rfl (.inr rfl)
    · refine h.quiet hx (t := s) _ rfl rfl rfl ?_
      have hr : (s.pc a).role = x.role c.page := by
        rw [hpc]
        exact if_neg hit
      rw [hr]
      exact waitDispatch_role ..
  | clearFlag w =>
    cases hs
    refine h.quiet hx (t := s.setPolling _ _) _ rfl rfl rfl (.inr ?_)
    split <;> rfl
  | markDirty =>
    cases hs
    exact h.quiet hx (t := s.setState _ _) _ rfl rfl rfl (.inr rfl)
  | loadOffset =>
    cases hs
    exact h.quiet hx (t := s) _ rfl rfl rfl (.inr rfl)
  | casPolling =>
    simp only [waitStep] at hs
    split at hs <;> rename_i hf <;> cases hs
    · refine h.quiet hx (t := s) _ rfl rfl rfl (.inl ?_)
      rw [hpc]
      split <;> rfl
    · have hpend := hwin (by rw [winsPage, hpc]; simp [hf])
      refine h.quiet hx (t := s.setPolling _ _) _ rfl rfl rfl (.inl ?_)
      rw [hpc]
      exact (if_pos hpend).symm
  | poll =>
    simp only [waitStep] at hs
    split at hs
    · rename_i cmd cq hq
      cases hs
      exact poll_attributed hpc h hx hq
    · split at hs <;> cases hs
      by_cases hp : x.hasPendingIo = true
      · refine h.quiet hx (t := s) _ rfl rfl rfl (.inl ?_)
        rw [hpc]
        exact if_pos hp
      · exact h.quiet hx (t := s) _ rfl rfl rfl (.inr (if_neg hp))
  | putCid =>
    cases hs
    exact putCid_attributed hpc h hx
  | storeOffset =>
    cases hs
    refine h.quiet hx (t := s.setOffset _ _) _ rfl rfl rfl (.inl ?_)
    rw [hpc]
    split <;> rfl
  | setDirty =>
    cases hs
    exact h.quiet hx (t := s.setState _ _) _ rfl rfl rfl (.inl (by rw [hpc]; rfl))
  | publish =>
    cases hs
    refine h.idle hx (.published (by rw [publishesPage, hpc]))
      (fun b hb => by rw [goto_pc_ne _ _ hb]; rfl) rfl ?_
    rw [goto_pc_self]
    rfl
  | releaseFlag =>
    cases hs
    exact h.quiet hx (t := s.setPolling _ _) _ rfl rfl rfl (.inr rfl)
  | reload =>
    cases hs
    refine h.quiet hx (t := s) _ rfl rfl rfl ?_
    have hr : (s.pc a).role = x.role c.page := by rw [hpc]; rfl
    rw [hr]
    exact waitDispatch_role ..
  | dropFlag =>
    cases hs
    exact h.quiet hx (t := s.setPolling _ _) _ rfl rfl rfl (.inl (by rw [hpc]; rfl))
  | recheck =>
    simp only [waitStep] at hs
    split at hs <;> cases hs
    · exact h.quiet hx (t := s) _ rfl rfl rfl (.inr rfl)
    · exact h.quiet hx (t := s) _ rfl rfl rfl (.inl (by rw [hpc]; rfl))

theorem waitStep_fresh {R : Nat} {A V : Type*} [DecidableEq A] {s s' : St R A V} {a : A}
    {c : Call R} {x : Ctx}
    {blocking : Bool} {k : WaitPc} (hs : waitStep s a c x blocking k = some s') :
    (s'.pc a).isFresh = true := by
  have hdispatch : ∀ w, (waitDispatch c x blocking w).isFresh = true := by
    intro w
    rw [waitDispatch]
    (repeat' split) <;> rfl
  cases k with
  | loadState =>
    simp only [waitStep] at hs
    split at hs <;> cases hs <;> rw [goto_pc_self]
    · rfl
    · exact hdispatch _
  | reload =>
    cases hs
    rw [goto_pc_self]
    exact hdispatch _
  | _ =>
    simp only [waitStep] at hs
    (repeat' split at hs) <;> cases hs <;> rw [goto_pc_self] <;> rfl

theorem releaseStep_role {R : Nat} {A V : Type*} [DecidableEq A] {s : St R A V} {a : A} {c : Call R}
    {i m : Nat} {marked : Bool} {hm : m ≤ c.count} (k : ReleasePc) :
    ((releaseStep s a c i marked m hm k).pc a).role = .none ∧
      ((releaseStep s a c i marked m hm k).pc a).isFresh = true := by
  cases k with
  | subRefCount tc =>
    rw [releaseStep, goto_pc_self, released]
    split <;> exact ⟨rfl, rfl⟩
  | _ =>
    rw [releaseStep, goto_pc_self]
    exact ⟨rfl, rfl⟩

/-- Agents going somewhere without any store keep commands attributed. -/
theorem goto_attributed (h : Attributed s) (hx : Exclusive (abs s)) (a : A) (k : Pc R)
    (hr : k.role = (s.pc a).role ∨ k.role = .none) : Attributed (s.goto a k) :=
  h.quiet hx (t := s) k rfl rfl rfl hr

end Steps

/-! ## Runs in which only contexts with a command poll -/

/-- `has_pending_io` of the context of a waiter. -/
def Pc.hasPendingIo : Pc R → Bool
  | .wait _ x _ _ => x.hasPendingIo
  | _ => false

/-- Every context that takes `polling_flag` has `has_pending_io` set. -/
def PollsOwn (s : St R A V) (act : Act R A V) : Prop :=
  ∀ a ∈ act.agent, ∀ _w ∈ winsPage s a, (s.pc a).hasPendingIo = true

instance (s : St R A V) (act : Act R A V) : Decidable (PollsOwn s act) :=
  inferInstanceAs (Decidable (∀ a ∈ act.agent, ∀ _w ∈ winsPage s a, _ = true))

/-- Any schedule in which only contexts with a command of their own poll. -/
structure OwnPollers (s : St R A V) (act : Act R A V) : Prop extends AnySchedule s act where
  poll : PollsOwn s act

noncomputable instance (s : St R A V) (act : Act R A V) : Decidable (OwnPollers s act) :=
  decidable_of_iff (AnySchedule s act ∧ PollsOwn s act)
    ⟨fun ⟨h1, h2⟩ => ⟨h1, h2⟩, fun ⟨h1, h2⟩ => ⟨h1, h2⟩⟩

/-- Only leaders publish; nothing is asked of the pages they find. -/
def leaderGuard : Guard (PageId R) Nat A where
  nowhere := asyncPageTransPending
  lead _ _ _ := True
  win v a p _ := v.leader p = some a ∧ v.given p ≠ none ∧ v.shared p = true
  unpad _ _ _ := True
  recount := True

/-- What a run in which only contexts with a command poll keeps. -/
structure Commanded (s : St R A V) : Prop where
  exclusive : Exclusive (abs s)
  attributed : Attributed s
  fresh : ∀ a, (s.pc a).isFresh = true

section Commanded

variable {cfg : Config R} {s s' : St R A V} {act : Act R A V}

theorem Commanded.of_init {R : Nat} [NeZero R] {A V : Type*} {s : St R A V}
    (h : Init s) : Commanded s := by
  have hqp : ∀ ctrl queue, (s.qps ctrl queue).inFlight = [] := by
    intro ctrl queue
    rw [QueuePair.inFlight, (h.queues ctrl queue).1, (h.queues ctrl queue).2.1]
    rfl
  have hrole : ∀ a, (s.pc a).role = .none := by
    intro a
    rw [h.pc a]
    rfl
  refine ⟨?_, ⟨?_, ?_, ?_, ?_⟩, ?_⟩
  · obtain ⟨hf, hh, hl, hr, -⟩ := init_unused h
    constructor <;> grind
  · intro ctrl queue
    constructor <;> simp [hqp]
  · intro a ctrl queue cid ht
    simp [hrole a, Role.holdsCid] at ht
  · intro a b t ht
    simp [hrole a, Role.holdsCid] at ht
  · intro a
    rw [hrole a]
    trivial
  · intro a
    rw [h.pc a]
    rfl

theorem OwnPollers.permits {R : Nat} [NeZero R] {A V : Type*} {s : St R A V} {act : Act R A V}
    (hi : Commanded s) (h : OwnPollers s act) :
    Permits leaderGuard s act where
  nowhere := rfl
  lead _ _ _ _ _ := trivial
  win := by
    rintro a p i rfl hw
    have hpend := h.poll a rfl (p, i) hw
    have hrole := hi.attributed.role a
    rw [winsPage] at hw
    split at hw
    · rename_i c x blocking hpc
      split at hw <;> cases hw
      rw [hpc] at hpend
      rw [hpc, show (Pc.wait c x blocking .casPolling).role = .pending (x.errand c.page) from
        if_pos hpend] at hrole
      obtain ⟨⟨⟨hl, hsh⟩, hgv⟩, -⟩ := hrole
      refine ⟨hl, ?_, hsh⟩
      show (s.history c.page).given ≠ none
      have hgv' : (s.history c.page).given = some x.pageTrans := hgv
      simp [hgv']
    · cases hw
  add := by
    rintro a p n rfl hd
    exact h.adds a rfl (p, n) hd
  sub := by
    rintro a p n rfl hd
    exact h.subs a rfl (p, n) hd
  clear := by
    rintro rfl
    exact h.clear rfl
  unpad _ _ _ _ := trivial
  exact := .inl trivial

theorem Commanded.step (hi : Commanded s) (hok : OwnPollers s act)
    (hs : step cfg s act = some s') : Commanded s' := by
  have hx := hi.exclusive
  have hx' : Exclusive (abs s') :=
    Lib.PinCache.run_exclusive (fun _ _ _ _ h => h) hx (step_sim cfg hs (hok.permits hi))
  have hstart : ∀ a k, (k.role = (s.pc a).role ∨ k.role = .none) → k.isFresh = true →
      Attributed (s.goto a k) ∧ ∀ b, ((s.goto a k).pc b).isFresh = true := by
    intro a k hr hk
    refine ⟨goto_attributed hi.attributed hx a k hr, fun b => ?_⟩
    by_cases hb : b = a
    · rw [hb, goto_pc_self]
      exact hk
    · rw [goto_pc_ne _ _ hb]
      exact hi.fresh b
  suffices hboth : Attributed s' ∧ ∀ b, (s'.pc b).isFresh = true from ⟨hx', hboth.1, hboth.2⟩
  cases act with
  | run a =>
    have hne : ∀ b, b ≠ a → s'.pc b = s.pc b := fun b hb => runStep_pc_ne hs hb
    have hfresh : (s'.pc a).isFresh = true → ∀ b, (s'.pc b).isFresh = true := by
      intro ha b
      by_cases hb : b = a
      · rw [hb]
        exact ha
      · rw [hne b hb]
        exact hi.fresh b
    have hrun : runStep cfg s a = some s' := hs
    simp only [PageCache.step, runStep] at hs
    split at hs <;> rename_i hpc
    · cases hs
      obtain ⟨hr, hf⟩ := acquireStep_role cfg s a ‹_› ‹_›
      exact ⟨hi.attributed.idle hx (acquireStep_history cfg hpc) hne (acquireStep_qps ..) hr,
        hfresh hf⟩
    · cases hs
      have hf := hi.fresh a
      rw [hpc, Pc.isFresh, Bool.not_eq_true'] at hf
      exact ⟨submitStep_attributed hpc hf hi.attributed hx hrun,
        hfresh (submitStep_fresh cfg s a _ hf _)⟩
    · refine ⟨waitStep_attributed hpc hi.attributed hx (fun hw => ?_) hs,
        hfresh (waitStep_fresh hs)⟩
      obtain ⟨w, hw⟩ := Option.ne_none_iff_exists'.mp hw
      have hpend := hok.poll a rfl w hw
      rwa [hpc] at hpend
    · cases hs
      refine ⟨hi.attributed.quiet hx (t := s.setState _ _) _ rfl rfl rfl (.inr rfl), hfresh ?_⟩
      rw [goto_pc_self]
      rfl
    · cases hs
      obtain ⟨hr, hf⟩ := releaseStep_role (s := s) (a := a) ‹_›
      exact ⟨hi.attributed.idle hx (.of_eq (releaseStep_history _)) hne (releaseStep_qps ..) hr,
        hfresh hf⟩
    all_goals cases hs
  | post ctrl queue n =>
    refine ⟨hi.attributed.post hs, ?_⟩
    simp only [PageCache.step, postStep] at hs
    split at hs <;> cases hs
    exact hi.fresh
  | acquire a c =>
    simp only [PageCache.step] at hs
    split at hs <;> cases hs
    exact hstart a _ (.inr rfl) rfl
  | submit a c queue =>
    simp only [PageCache.step] at hs
    split at hs <;> cases hs
    exact hstart a _ (.inr rfl) rfl
  | wait a blocking =>
    simp only [PageCache.step] at hs
    split at hs <;> rename_i hpc <;> cases hs
    exact hstart a _ (.inl (by rw [hpc]; rfl)) rfl
  | release a m =>
    simp only [PageCache.step] at hs
    split at hs
    · split at hs <;> cases hs
      exact hstart a _ (.inr rfl) rfl
    · cases hs
  | spurious a =>
    simp only [PageCache.step] at hs
    split at hs
    · rename_i k hpc
      cases k <;> cases hs <;> exact hstart a _ (.inr rfl) rfl
    · rename_i c x k hpc
      have hf := hi.fresh a
      rw [hpc] at hf
      cases k <;> cases hs <;> exact hstart a _ (.inl (by rw [hpc]; rfl)) hf
    · cases hs
  | setPrefetch p w =>
    cases hs
    exact ⟨{ hi.attributed with role := hi.attributed.role }, hi.fresh⟩
  | setWindow p w =>
    cases hs
    exact ⟨{ hi.attributed with role := hi.attributed.role }, hi.fresh⟩
  | write a e v =>
    simp only [PageCache.step] at hs
    split at hs <;> cases hs
    exact ⟨{ hi.attributed with role := hi.attributed.role }, hi.fresh⟩
  | clear =>
    cases hs
    exact ⟨{ hi.attributed with role := hi.attributed.role }, hi.fresh⟩

theorem commanded_reached (h : Reached cfg OwnPollers s) : Commanded s :=
  h.invariant (fun _ hs => .of_init hs) fun _ _ _ hi ⟨hok, hs⟩ => hi.step hok hs

end Commanded

/-- The step is the leader's publication of page `p`: the completion it has consumed,
    with its identifier and on its queue pair, is that of the command it sent for
    the page, which is no longer waiting to be completed. -/
def OwnPublication (s : St R A V) (act : Act R A V) (p : PageId R) : Prop :=
  ∃ a c x blocking cmd, act = .run a ∧ s.pc a = .wait c x blocking .publish ∧ c.page = p ∧
    (s.history p).leader = some a ∧
    (s.history p).sent = some (x.memberAcquireCtrl, x.queue, cmd) ∧
    (s.history p).took = some (x.memberAcquireCtrl, x.queue, cmd) ∧
    cmd.cid = x.cid ∧ cmd.page = p ∧ cmd.owner = a ∧ (s.history p).given = some cmd.slot ∧
    cmd ∉ (s.qps x.memberAcquireCtrl x.queue).sq

/-- In every such run only leaders poll, and the page of an asynchronous miss becomes
    valid only when its leader publishes it after its own command. -/
theorem page_valid_after_own_command (cfg : Config R) {s : St R A V}
    (h : Reached cfg OwnPollers s) :
    (∀ a p, pollsPage s a = some p → (s.history p).leader = some a) ∧
    ∀ act s', OwnPollers s act → step cfg s act = some s' → ∀ p,
      (s.pages p).state.st = .nvB → (s'.pages p).state.st = .vNb →
      (s.history p).shared = true → OwnPublication s act p := by
  obtain ⟨hx, hat, -⟩ := commanded_reached h
  constructor
  · intro a p hp
    obtain ⟨k, hk, rfl⟩ := Option.map_eq_some_iff.mp hp
    exact (hx.poll a k hk).1
  · intro act s' hok hs p hnv hv hsh
    obtain ⟨a, ha, hpub⟩ := valid_raised cfg hs hok.adds hok.subs (Word.st_nvB hnv).1
      (Word.st_vNb hv).1
    have hact : act = .run a := by
      cases act <;> cases ha
      rfl
    rw [publishesPage] at hpub
    split at hpub
    · -- a synchronous leader's miss is not shared
      rename_i c i hpc
      cases hpub
      have hns := (hx.serve a ⟨c.page, i, true⟩ (abs_at hpc).2.2.2.2.1).2.2
      rw [show (abs s).shared c.page = (s.history c.page).shared from rfl, hsh] at hns
      cases hns
    · rename_i c x blocking hpc
      cases hpub
      have hrole := hat.role a
      rw [hpc] at hrole
      obtain ⟨⟨⟨hl, -⟩, hgv⟩, cmd, hsent, htook, ⟨hcid, hpage, hslot, hown⟩, hnot⟩ := hrole
      refine ⟨a, c, x, blocking, cmd, hact, hpc, rfl, hl, hsent, htook, hcid, hpage, hown, ?_, hnot⟩
      rw [hslot]
      exact hgv
    · cases hpub

/-! ### A leader that publishes its own command -/

def ownCommand : List (Act 1 (Fin 2) Nat) :=
  [.submit 0 (callFor 0 false false) 0] ++ runs 0 17 ++ [.post 0 0 0, .wait 0 true] ++ runs 0 5

def ownCommandEnd : Option (St 1 (Fin 2) Nat) :=
  runActs (step (smallConfig 2 1 twoSlots_ok oneCtrl_ok))
    (newCache (Fin 2) (fun p e => 10 * p + e) 0) ownCommand

theorem ownCommandEnd_isSome : ownCommandEnd.isSome = true := by decide +kernel

theorem ownCommandEnd_reached :
    Reached (smallConfig 2 1 (by decide) (by decide)) OwnPollers
      (ownCommandEnd.get ownCommandEnd_isSome) :=
  reachable_of_runActs (.init (newCache_init _ _ _)) (l := ownCommand) (by decide +kernel)
    (Option.some_get _).symm

theorem ownCommandEnd_step :
    (step (smallConfig 2 1 (by decide) (by decide)) (ownCommandEnd.get ownCommandEnd_isSome)
      (.run 0)).isSome = true := by decide +kernel

/-- The next step of the leader is its own publication. -/
theorem ownCommandEnd_publication :
    OwnPublication (ownCommandEnd.get ownCommandEnd_isSome) (.run 0) ⟨0, 0⟩ :=
  (page_valid_after_own_command _ ownCommandEnd_reached).2 (.run 0)
    ((step (smallConfig 2 1 (by decide) (by decide)) (ownCommandEnd.get ownCommandEnd_isSome)
      (.run 0)).get ownCommandEnd_step)
    (by decide +kernel) (Option.some_get _).symm ⟨0, 0⟩ (by decide +kernel) (by decide +kernel)
    (by decide +kernel)

/-! ### A follower that publishes another page's command

    Context 0 leads page 0 on queue 0; context 2 leads page 1 on queue 1, where its
    command has identifier 0; context 1 follows page 0 on queue 1.  The command of
    context 2 is completed; context 1 waits, takes the flag of page 0, and consumes
    that completion with its identifier 0. -/

def followerPolls : List (Act 1 (Fin 3) Nat) :=
  [.submit 0 (callFor 0 false false) 0] ++ runs 0 17
    ++ [.submit 2 (callFor 1 false false) 1] ++ runs 2 17
    ++ [.submit 1 (callFor 0 false false) 1] ++ runs 1 7
    ++ [.post 0 1 0, .wait 1 true] ++ runs 1 5

def followerPollsEnd : Option (St 1 (Fin 3) Nat) :=
  runActs (step (smallConfig 2 1 twoSlots_ok oneCtrl_ok))
    (newCache (Fin 3) (fun p e => 10 * p + e) 0) followerPolls

theorem followerPollsEnd_isSome : followerPollsEnd.isSome = true := by decide +kernel

theorem followerPollsEnd_reached :
    Reached (smallConfig 2 1 (by decide) (by decide)) AnySchedule
      (followerPollsEnd.get followerPollsEnd_isSome) :=
  reachable_of_runActs (.init (newCache_init _ _ _)) (l := followerPolls) (by decide +kernel)
    (Option.some_get _).symm

theorem followerPollsEnd_step :
    (step (smallConfig 2 1 (by decide) (by decide)) (followerPollsEnd.get followerPollsEnd_isSome)
      (.run 1)).isSome = true := by decide +kernel

/-- The follower makes page 0 valid while the leader's read is still in its queue. -/
theorem follower_publishes_early :
    ¬ ∀ s : St 1 (Fin 3) Nat, Reached (smallConfig 2 1 (by decide) (by decide)) AnySchedule s →
      ∀ act s', AnySchedule s act → step (smallConfig 2 1 (by decide) (by decide)) s act = some s' →
      ∀ p, (s.pages p).state.st = .nvB → (s'.pages p).state.st = .vNb →
        (s.history p).shared = true → OwnPublication s act p := by
  intro hall
  obtain ⟨a, c, x, blocking, cmd, hact, -, -, hl, -⟩ := hall _ followerPollsEnd_reached (.run 1)
    ((step (smallConfig 2 1 (by decide) (by decide)) (followerPollsEnd.get followerPollsEnd_isSome)
      (.run 1)).get followerPollsEnd_step)
    (by decide +kernel) (Option.some_get _).symm ⟨0, 0⟩ (by decide +kernel) (by decide +kernel)
    (by decide +kernel)
  cases hact
  revert hl
  decide +kernel

end GidsStack.PageCache
