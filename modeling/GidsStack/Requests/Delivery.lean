/-
  GidsStack.Requests.Delivery

  What the service delivers in every run whose commands all go to the first controller: each
  completion finishes the context it is for, the table names no context whose command has been
  taken off, a request that is ready holds the slots of its pages, and the gets write the rows
  of the requests in the order of their submits (`service_delivers`). And it does not get stuck:
  from every state some completions and services lead to one in which every ready check
  succeeds (`service_drains`).
-/

import GidsStack.Requests.Attribution

namespace GidsStack.Registered

open Lib

variable {V : Type} {cfg : ServiceConfig} {ssd : Nat → V} {s s' : Service V}

namespace Inv

/-! ### Service -/

theorem localQueue_first {ctrls : List Nat} {l j : Nat} (h : localQueue ctrls l = some (0, j)) :
    l = j := by
  cases ctrls with
  | nil => cases h
  | cons n ns =>
    rw [localQueue] at h
    split at h
    · exact congrArg Prod.snd (Option.some.inj h)
    · obtain ⟨q, -, hq⟩ := Option.map_eq_some_iff.mp h
      exact absurd (congrArg Prod.fst hq) (Nat.succ_ne_zero _)

theorem localQueue_of_lt {ctrls : List Nat} {j : Nat} (h : j < ctrls.headD 0) :
    localQueue ctrls j = some (0, j) := by
  cases ctrls with
  | nil => exact absurd h (Nat.not_lt_zero _)
  | cons n ns => exact if_pos h

section Finish

variable {q : QueueId} {cid : Nat} {cmd : Cmd} {x : Ctx}

/-- The pages when the read of a context has ended. -/
def settle (pages : Nat → Page) (x : Ctx) : Nat → Page :=
  Function.update pages x.page
    { pages x.page with offset := x.pageTrans, valid := true, busy := false }

theorem settle_self (pages : Nat → Page) (x : Ctx) : settle pages x x.page =
    { pages x.page with offset := x.pageTrans, valid := true, busy := false } :=
  Function.update_self ..

theorem settle_of_ne (pages : Nat → Page) {p : Nat} (hp : p ≠ x.page) :
    settle pages x p = pages p :=
  Function.update_of_ne hp ..

theorem settle_cnt (pages : Nat → Page) (x : Ctx) (p : Nat) :
    (settle pages x p).cnt = (pages p).cnt := by
  by_cases hp : p = x.page
  · rw [hp, settle_self]
  · rw [settle_of_ne pages hp]

/-- The page has had its slot since the command was submitted. -/
theorem settle_offset (hx : Leads cfg s.ctxs s.pages q cid cmd x) (p : Nat) :
    (settle s.pages x p).offset = (s.pages p).offset := by
  by_cases hp : p = x.page
  · rw [hp, settle_self, hx.trans, hx.page, hx.offset]
  · rw [settle_of_ne s.pages hp]

/-- A page in the cache has no command. -/
theorem ne_of_valid (h : Inv cfg ssd s) (hx : Leads cfg s.ctxs s.pages q cid cmd x) {p : Nat}
    (hp : (s.pages p).valid = true) : p ≠ x.page := by
  rintro rfl
  have hnot := h.word _ hp
  rw [hx.page, hx.busy] at hnot
  cases hnot

theorem settle_word (h : Inv cfg ssd s) (x : Ctx) {p : Nat}
    (hp : (settle s.pages x p).valid = true) : (settle s.pages x p).busy = false := by
  by_cases hpx : p = x.page
  · rw [hpx, settle_self]
  · rw [settle_of_ne s.pages hpx] at hp ⊢
    exact h.word p hp

theorem settle_resident (h : Inv cfg ssd s) (hx : Leads cfg s.ctxs s.pages q cid cmd x)
    (p slot : Nat) : s.pageTranslation slot = some p ↔
      ((settle s.pages x p).valid = true ∨ (settle s.pages x p).busy = true) ∧
        (settle s.pages x p).offset = slot := by
  rw [settle_offset hx, h.resident p slot]
  by_cases hpx : p = x.page
  · have hbusy : (s.pages x.page).busy = true := by rw [hx.page]; exact hx.busy
    rw [hpx, settle_self, hbusy]
    simp
  · rw [settle_of_ne s.pages hpx]

theorem settle_data (h : Inv cfg ssd s) (hx : Leads cfg s.ctxs s.pages q cid cmd x)
    (hdata : Loaded cfg ssd cmd.page (s.cache cmd.slot)) {p : Nat}
    (hp : (settle s.pages x p).valid = true) :
    Loaded cfg ssd p (s.cache (settle s.pages x p).offset) := by
  rw [settle_offset hx]
  by_cases hpx : p = x.page
  · rw [hpx, hx.page, hx.offset]
    exact hdata
  · rw [settle_of_ne s.pages hpx] at hp
    exact h.data p hp

/-- The commands that are left are for other pages. -/
theorem page_ne_of_cmd (h : Inv cfg ssd s) (hcmd : s.cmds q cid = some cmd)
    (hx : Leads cfg s.ctxs s.pages q cid cmd x) {q' : QueueId} {cid' : Nat} {cmd' : Cmd}
    (hc : s.cmds q' cid' = some cmd') (hne : ¬(q' = q ∧ cid' = cid)) : cmd'.page ≠ x.page :=
  fun heq => hne (h.onePage _ _ _ _ _ _ hc hcmd (heq.trans hx.page))

/-- They are those of other contexts. -/
theorem owner_ne_of_cmd (h : Inv cfg ssd s) (hx : Leads cfg s.ctxs s.pages q cid cmd x)
    {q' : QueueId} {cid' : Nat} {cmd' : Cmd} (hc : s.cmds q' cid' = some cmd')
    (hne : ¬(q' = q ∧ cid' = cid)) : cmd'.owner ≠ cmd.owner := by
  intro heq
  obtain ⟨y, hy⟩ := h.leads _ _ _ hc
  obtain rfl : y = x := Option.some.inj (hy.ctx.symm.trans (heq ▸ hx.ctx))
  exact hne ⟨hy.queue.trans hx.queue.symm, hy.cid.trans hx.cid.symm⟩

/-- A completion is taken off, its context finished and its entry removed. -/
theorem finish (h : Inv cfg ssd s) {rest : List Nat} (hposted : s.posted q = cid :: rest)
    (hcmd : s.cmds q cid = some cmd) (hx : Leads cfg s.ctxs s.pages q cid cmd x) :
    Inv cfg ssd { s with
      posted := Function.update s.posted q rest
      cidLocks := Function.update s.cidLocks q (Function.update (s.cidLocks q) cid false)
      cmds := Function.update s.cmds q (Function.update (s.cmds q) cid none)
      served := s.served ++ [(some cmd.owner, some cmd.owner)]
      ctxs := Function.update s.ctxs cmd.owner
        (some { x with isHit := true, hasPendingIo := false })
      pages := settle s.pages x
      lookup := Function.update s.lookup (lookupSlot q.2 cid) none } := by
  obtain ⟨cmd', hcmd', hdata⟩ := h.posted q cid (by rw [hposted]; exact List.mem_cons_self)
  obtain rfl : cmd = cmd' := Option.some.inj (hcmd.symm.trans hcmd')
  have hnodup := h.posted_nodup q
  rw [hposted, List.nodup_cons] at hnodup
  have hkeep {q' : QueueId} {cid' : Nat} {cmd' : Cmd} (hc : s.cmds q' cid' = some cmd')
      (hne : ¬(q' = q ∧ cid' = cid)) :
      Function.update s.cmds q (Function.update (s.cmds q) cid none) q' cid' = some cmd' :=
    (update_update_of_ne s.cmds none hne).trans hc
  have hholds (p : Nat) (c : CtxId) : Holds (Function.update s.ctxs cmd.owner
      (some { x with isHit := true, hasPendingIo := false })) p c ↔ Holds s.ctxs p c :=
    holds_update hx.ctx { x with isHit := true, hasPendingIo := false } rfl rfl p c
  exact
    { h with
      owned := fun c y hy => by
        rcases of_update_some hy with ⟨rfl, hsome⟩ | ⟨-, hold⟩
        · obtain rfl := Option.some.inj hsome
          exact h.owned _ x hx.ctx
        · exact h.owned c y hold
      filled := fun r hr k hk => (isSome_update hx.ctx _ _).trans (h.filled r hr k hk)
      filledCurrent := fun r hr k hk => by
        show (Function.update s.ctxs cmd.owner _ (r.id, k)).isSome = true ↔ _
        rw [isSome_update hx.ctx]
        exact h.filledCurrent r hr k hk
      cnt := fun p => by
        show (settle s.pages x p).cnt = refs (Function.update s.ctxs cmd.owner _) s.all p
        rw [settle_cnt, refs_congr fun r _ k => hholds p (r.id, k), h.cnt]
      word := fun p hp => h.settle_word x hp
      resident := h.settle_resident hx
      data := fun p hp => h.settle_data hx hdata hp
      held := fun c y hy hin => by
        show (settle s.pages x y.page).valid = true ∨ (settle s.pages x y.page).busy = true
        by_cases hyx : y.page = x.page
        · rw [hyx, settle_self]
          exact .inl rfl
        · rw [settle_of_ne s.pages hyx]
          rcases of_update_some hy with ⟨-, hsome⟩ | ⟨-, hold⟩
          · rw [← Option.some.inj hsome] at hyx
            exact absurd rfl hyx
          · exact h.held c y hold hin
      hit := fun c y hy hhit => by
        rcases of_update_some hy with ⟨-, hsome⟩ | ⟨-, hold⟩
        · obtain rfl := Option.some.inj hsome
          exact ⟨hx.inRange, rfl, congrArg Page.valid (settle_self ..),
            (congrArg Page.offset (settle_self ..)).symm⟩
        · have hsettled := h.hit c y hold hhit
          exact hsettled.of_page_eq (settle_of_ne s.pages (h.ne_of_valid hx hsettled.valid))
      leads := fun q' cid' cmd' hc => by
        obtain ⟨hne, hold⟩ := of_update_update_none hc
        obtain ⟨y, hy⟩ := h.leads _ _ _ hold
        have hp := settle_of_ne s.pages (h.page_ne_of_cmd hcmd hx hold hne)
        exact ⟨y, { hy with
          ctx := (Function.update_of_ne (h.owner_ne_of_cmd hx hold hne) _ _).trans hy.ctx
          busy := (congrArg Page.busy hp).trans hy.busy
          offset := (congrArg Page.offset hp).trans hy.offset }⟩
      pending := fun c y hy hpend => by
        rcases of_update_some hy with ⟨-, hsome⟩ | ⟨hne, hold⟩
        · rw [← Option.some.inj hsome] at hpend
          cases hpend
        · have hsame := h.pending c y hold hpend
          refine hkeep hsame fun heq => hne ?_
          rw [heq.1, heq.2, hcmd] at hsame
          rw [Option.some.inj hsame]
      busyCmd := fun p hp => by
        replace hp : (settle s.pages x p).busy = true := hp
        have hpx : p ≠ x.page := by
          rintro rfl
          rw [settle_self] at hp
          cases hp
        rw [settle_of_ne s.pages hpx] at hp
        obtain ⟨q', cid', cmd', hc, hpage⟩ := h.busyCmd p hp
        refine ⟨q', cid', cmd', hkeep hc fun heq => hpx ?_, hpage⟩
        rw [heq.1, heq.2, hcmd] at hc
        rw [← hpage, ← Option.some.inj hc, hx.page]
      onePage := fun q1 cid1 cmd1 q2 cid2 cmd2 hc1 hc2 hp =>
        h.onePage _ _ _ _ _ _ (of_update_update_none hc1).2 (of_update_update_none hc2).2 hp
      locks := update_update_isSome h.locks q cid none
      posted_nodup := fun q' => by
        show (Function.update s.posted q rest q').Nodup
        by_cases hq : q' = q
        · rw [hq, Function.update_self]
          exact hnodup.2
        · rw [Function.update_of_ne hq]
          exact h.posted_nodup q'
      posted := fun q' cid' hin => by
        replace hin : cid' ∈ Function.update s.posted q rest q' := hin
        have hold : cid' ∈ s.posted q' ∧ ¬(q' = q ∧ cid' = cid) := by
          by_cases hq : q' = q
          · subst hq
            rw [Function.update_self] at hin
            rw [hposted]
            exact ⟨List.mem_cons_of_mem _ hin, fun heq => hnodup.1 (heq.2 ▸ hin)⟩
          · rw [Function.update_of_ne hq] at hin
            exact ⟨hin, fun heq => hq heq.1⟩
        obtain ⟨cmd', hc, hd⟩ := h.posted q' cid' hold.1
        exact ⟨cmd', hkeep hc hold.2, hd⟩
      lookup := fun l c hl => by
        obtain ⟨hne, hold⟩ := of_update_none hl
        obtain ⟨q', cid', cmd', hc, hown, hl'⟩ := h.lookup l c hold
        exact ⟨q', cid', cmd', hkeep hc fun heq => hne (by rw [hl', heq.1, heq.2]), hown, hl'⟩
      entered := fun q' cid' cmd' hc hcur => by
        obtain ⟨hne, hold⟩ := of_update_update_none hc
        have hslot : lookupSlot q'.2 cid' ≠ lookupSlot q.2 cid := fun heq => by
          obtain ⟨hq, hcid, -⟩ := h.cmd_unique hold hcmd heq
          exact hne ⟨hq, hcid⟩
        show Function.update s.lookup (lookupSlot q.2 cid) none (lookupSlot q'.2 cid') = _
        rw [Function.update_of_ne hslot]
        exact h.entered q' cid' cmd' hold hcur
      served := fun e he => by
        rcases List.mem_append.mp he with he | he
        · exact h.served e he
        · rw [List.mem_singleton.mp he]
          exact ⟨rfl, rfl⟩
      ready := fun r hr hready k hk => by
        obtain ⟨y, hy, hsettled⟩ := h.ready r hr hready k hk
        have hc : (r.id, k) ≠ cmd.owner := fun heq => by
          obtain rfl : y = x := Option.some.inj (hy.symm.trans (heq ▸ hx.ctx))
          exact Bool.false_ne_true (hsettled.notPending.symm.trans hx.pending)
        exact ⟨y, (Function.update_of_ne hc _ _).trans hy,
          hsettled.of_page_eq (settle_of_ne s.pages (h.ne_of_valid hx hsettled.valid))⟩ }

end Finish

/-- A completion is looked up as the context whose command it is for. -/
theorem serve_eq (h : Inv cfg ssd s) (hcur : s.current = none) {q : QueueId} {cid : Nat}
    {rest : List Nat} (hposted : s.posted q = cid :: rest) {cmd : Cmd}
    (hcmd : s.cmds q cid = some cmd) {x : Ctx} (hx : Leads cfg s.ctxs s.pages q cid cmd x) :
    s.serve cfg q.2 = some { s with
      posted := Function.update s.posted q rest
      cidLocks := Function.update s.cidLocks q (Function.update (s.cidLocks q) cid false)
      cmds := Function.update s.cmds q (Function.update (s.cmds q) cid none)
      served := s.served ++ [(some cmd.owner, some cmd.owner)]
      ctxs := Function.update s.ctxs cmd.owner
        (some { x with isHit := true, hasPendingIo := false })
      pages := Function.update s.pages x.page
        { s.pages x.page with offset := x.pageTrans, valid := true, busy := false }
      lookup := Function.update s.lookup (lookupSlot q.2 cid) none } := by
  have hcid : cid < cidCapacity := by rw [hx.cid]; exact hx.cid_lt
  have hfound : s.lookup (lookupSlot q.2 cid) = some cmd.owner :=
    h.entered q cid cmd hcmd fun r hr => by rw [hcur] at hr; cases hr
  have hbusy : (s.pages x.page).busy = true := by rw [hx.page]; exact hx.busy
  have hvalid : (s.pages x.page).valid = false := Bool.eq_false_iff.mpr fun hv => by
    have hnot := h.word _ hv
    rw [hbusy] at hnot
    cases hnot
  have hfinal : finalizeCtx x (s.pages x.page) =
      some ({ x with isHit := true, hasPendingIo := false },
        { s.pages x.page with offset := x.pageTrans, valid := true, busy := false }) := by
    rw [finalizeCtx, hx.isHit, hx.inRange, hbusy, hvalid]
    rfl
  have hlocal : localQueue cfg.ctrls q.2 = some q := by
    rw [hx.queue]
    exact localQueue_of_lt hx.queue_lt
  simp only [Service.serve, hlocal, Option.bind_eq_bind, Option.bind_some, hposted, if_pos hcid,
    hfound, hcmd, Option.map_some, Service.finalize, hx.ctx, hfinal]

theorem serve (h : Inv cfg ssd s) (hcur : s.current = none) {l : Nat}
    (hstep : s.serve cfg l = some s') : Inv cfg ssd s' := by
  obtain ⟨q, hq, hserve⟩ := Option.bind_eq_some_iff.mp hstep
  cases hposted : s.posted q with
  | nil =>
    rw [hposted] at hserve
    cases hserve
  | cons cid rest =>
    obtain ⟨cmd, hcmd, -⟩ := h.posted q cid (by rw [hposted]; exact List.mem_cons_self)
    obtain ⟨x, hx⟩ := h.leads _ _ _ hcmd
    have hl : l = q.2 := by
      rw [hx.queue] at hq ⊢
      exact localQueue_first hq
    rw [hl, h.serve_eq hcur hposted hcmd hx] at hstep
    exact Option.some.inj hstep ▸ h.finish hposted hcmd hx

/-! ### Ready checks and gets -/

/-- What `refresh_registered_ctx_from_valid_page` does to a context. -/
theorem refreshCtx_cases (x : Ctx) (pg : Page) :
    refreshCtx cfg x pg = x ∨ x.isHit = false ∧ x.inRange = true ∧ pg.valid = true ∧
      refreshCtx cfg x pg = { x with pageTrans := pg.offset, isHit := true } := by
  rw [refreshCtx]
  split
  case isTrue => exact .inl rfl
  case isFalse hx =>
    rw [Bool.or_eq_true, not_or, Bool.not_eq_true, Bool.not_eq_true', Bool.not_eq_false] at hx
    split
    case isTrue hpg =>
      rw [Bool.and_eq_true, Bool.and_eq_true] at hpg
      exact .inr ⟨hx.1, hx.2, hpg.1.1, rfl⟩
    case isFalse => exact .inl rfl

theorem refresh_isSome (s : Service V) (id : Nat) (c : CtxId) :
    (s.refresh cfg id c).isSome = (s.ctxs c).isSome := by
  rw [Service.refresh]
  split
  · exact Option.isSome_map
  · rfl

/-- A context after a check is as it was, or its page was there. -/
theorem refresh_some {id : Nat} {c : CtxId} {y : Ctx} (hy : s.refresh cfg id c = some y) :
    ∃ x, s.ctxs c = some x ∧ (y = x ∨ x.isHit = false ∧ x.inRange = true ∧
      (s.pages x.page).valid = true ∧
        y = { x with pageTrans := (s.pages x.page).offset, isHit := true }) := by
  rw [Service.refresh] at hy
  split at hy
  · obtain ⟨x, hx, rfl⟩ := Option.map_eq_some_iff.mp hy
    exact ⟨x, hx, refreshCtx_cases x _⟩
  · exact ⟨y, hy, .inl rfl⟩

theorem refresh_of_notValid {id : Nat} {c : CtxId} {x : Ctx} (hx : s.ctxs c = some x)
    (hval : (s.pages x.page).valid = false) : s.refresh cfg id c = some x := by
  rw [Service.refresh, hx]
  split
  · rw [Option.map_some, refreshCtx, hval]
    simp
  · rfl

theorem refresh (h : Inv cfg ssd s) (id : Nat) :
    Inv cfg ssd { s with ctxs := s.refresh cfg id } := by
  have hpend {c : CtxId} {x : Ctx} (hx : s.ctxs c = some x) (hp : x.hasPendingIo = true) :
      (s.pages x.page).valid = false := by
    obtain ⟨x', hl⟩ := h.leads _ _ _ (h.pending c x hx hp)
    refine Bool.eq_false_iff.mpr fun hv => ?_
    have hnot := h.word _ hv
    rw [show (s.pages x.page).busy = true from hl.busy] at hnot
    cases hnot
  have hholds (p : Nat) (c : CtxId) : Holds (s.refresh cfg id) p c ↔ Holds s.ctxs p c := by
    rw [holds_iff, holds_iff]
    constructor
    · rintro ⟨y, hy, hin, hpage⟩
      obtain ⟨x, hx, rfl | ⟨-, hin', -, rfl⟩⟩ := refresh_some hy
      · exact ⟨y, hx, hin, hpage⟩
      · exact ⟨x, hx, hin', hpage⟩
    · rintro ⟨x, hx, hin, hpage⟩
      have hsome : (s.refresh cfg id c).isSome = true :=
        (refresh_isSome s id c).trans (Option.isSome_iff_exists.mpr ⟨x, hx⟩)
      obtain ⟨y, hy⟩ := Option.isSome_iff_exists.mp hsome
      obtain ⟨x', hx', heq⟩ := refresh_some hy
      obtain rfl : x = x' := Option.some.inj (hx.symm.trans hx')
      refine ⟨y, hy, ?_⟩
      rcases heq with rfl | ⟨-, -, -, rfl⟩ <;> exact ⟨hin, hpage⟩
  exact
    { h with
      owned := fun c y hy => by
        obtain ⟨x, hx, rfl | ⟨-, -, -, rfl⟩⟩ := refresh_some hy
        · exact h.owned c y hx
        · exact h.owned c x hx
      filled := fun r hr k hk => (refresh_isSome s id _).trans (h.filled r hr k hk)
      filledCurrent := fun r hr k hk => by
        show (s.refresh cfg id (r.id, k)).isSome = true ↔ _
        rw [refresh_isSome]
        exact h.filledCurrent r hr k hk
      cnt := fun p => (h.cnt p).trans (refs_congr fun r _ k => hholds p (r.id, k)).symm
      held := fun c y hy hin => by
        obtain ⟨x, hx, rfl | ⟨-, hin', -, rfl⟩⟩ := refresh_some hy
        · exact h.held c y hx hin
        · exact h.held c x hx hin'
      hit := fun c y hy hhit => by
        obtain ⟨x, hx, rfl | ⟨-, hin, hval, rfl⟩⟩ := refresh_some hy
        · exact h.hit c y hx hhit
        · refine ⟨hin, Bool.eq_false_iff.mpr fun hp => ?_, hval, rfl⟩
          have hnot := hpend hx hp
          rw [hval] at hnot
          cases hnot
      leads := fun q cid cmd hcmd => by
        obtain ⟨x, hx⟩ := h.leads _ _ _ hcmd
        exact ⟨x, { hx with ctx := refresh_of_notValid hx.ctx (hpend hx.ctx hx.pending) }⟩
      pending := fun c y hy hp => by
        obtain ⟨x, hx, rfl | ⟨-, -, hval, rfl⟩⟩ := refresh_some hy
        · exact h.pending c y hx hp
        · have hnot := hpend hx hp
          rw [hval] at hnot
          cases hnot
      ready := fun r hr hready k hk => by
        obtain ⟨x, hx, hsettled⟩ := h.ready r hr hready k hk
        have hsome : (s.refresh cfg id (r.id, k)).isSome = true :=
          (refresh_isSome s id (r.id, k)).trans (Option.isSome_iff_exists.mpr ⟨x, hx⟩)
        obtain ⟨y, hy⟩ := Option.isSome_iff_exists.mp hsome
        obtain ⟨x', hx', heq⟩ := refresh_some hy
        obtain rfl : x = x' := Option.some.inj (hx.symm.trans hx')
        refine ⟨y, hy, ?_⟩
        rcases heq with rfl | ⟨-, -, -, rfl⟩
        · exact hsettled
        · exact ⟨hsettled.inRange, hsettled.notPending, hsettled.valid, rfl⟩ }

/-- The mark changes nothing but the state of the request. -/
theorem markReady (h : Inv cfg ssd s) {r : Request} {i : Nat} (hr : s.requests[i]? = some r)
    (hsettled : ∀ k < r.numIndex, ∃ x, s.ctxs (r.id, k) = some x ∧ Settled s.pages x) :
    Inv cfg ssd { s with requests := s.requests.set i { r with ready := true } } := by
  have hmap {β : Type} (f : Request → β) (hf : f { r with ready := true } = f r) :
      (s.requests.set i { r with ready := true }).map f = s.requests.map f := by
    rw [List.map_set, hf]
    obtain ⟨hlt, rfl⟩ := List.getElem?_eq_some_iff.mp hr
    refine List.ext_getElem (by rw [List.length_set]) fun j hj hj' => ?_
    rw [List.getElem_set]
    split
    case isTrue heq => simp only [← heq, List.getElem_map]
    case isFalse => rfl
  have hmem {r' : Request} (hr' : r' ∈ s.requests.set i { r with ready := true }) :
      r' = { r with ready := true } ∨ r' ∈ s.requests :=
    (List.mem_or_eq_of_mem_set hr').symm
  have hin : r ∈ s.requests := List.mem_of_getElem? hr
  have hback {r' : Request} (hr' : r' ∈ s.requests) :
      ∃ r'' ∈ s.requests.set i { r with ready := true }, r''.id = r'.id ∧
        r''.numIndex = r'.numIndex ∧ r''.base = r'.base := by
    have hin' : (r'.id, r'.numIndex, r'.base) ∈
        (s.requests.set i { r with ready := true }).map fun r => (r.id, r.numIndex, r.base) := by
      rw [hmap _ rfl]
      exact List.mem_map_of_mem hr'
    obtain ⟨r'', hr'', heq⟩ := List.mem_map.mp hin'
    exact ⟨r'', hr'', congrArg Prod.fst heq, congrArg (fun t => t.2.1) heq,
      congrArg (fun t => t.2.2) heq⟩
  have hallLen : (s.requests.set i { r with ready := true } ++ s.current.toList).length =
      s.all.length := by
    rw [Service.all, List.length_append, List.length_append, List.length_set]
  exact
    { h with
      ids := by
        show (s.requests.set i _ ++ s.current.toList).map Request.id = List.range' _
          (s.requests.set i _ ++ s.current.toList).length
        rw [hallLen, ← h.ids, Service.all, List.map_append, List.map_append, hmap _ rfl]
      nextId := by
        show _ = _ + (s.requests.set i _ ++ s.current.toList).length + 1
        rw [hallLen]
        exact h.nextId
      owned := fun c x hx => by
        obtain ⟨r', hr', hid, hlt, hrest⟩ := h.owned c x hx
        rcases List.mem_append.mp hr' with hr' | hr'
        · obtain ⟨r'', hr'', hid', hnum, hbase⟩ := hback hr'
          rw [← hid'] at hid
          rw [← hnum] at hlt
          rw [← hbase] at hrest
          exact ⟨r'', List.mem_append_left _ hr'', hid, hlt, hrest⟩
        · exact ⟨r', List.mem_append_right _ hr', hid, hlt, hrest⟩
      filled := fun r' hr' k hk => by
        rcases hmem hr' with rfl | hr'
        · exact h.filled r hin k hk
        · exact h.filled r' hr' k hk
      cnt := fun p => by
        show _ = refs s.ctxs (s.requests.set i _ ++ s.current.toList) p
        rw [h.cnt, Service.all, refs_append, refs_append, refs, refs, refs, hmap _ rfl]
      ready := fun r' hr' hready k hk => by
        rcases hmem hr' with rfl | hr'
        · exact hsettled k hk
        · exact h.ready r' hr' hready k hk }

theorem check (h : Inv cfg ssd s) {i : Nat} (hstep : s.check cfg i = some s') :
    Inv cfg ssd s' := by
  rw [Service.check] at hstep
  obtain ⟨r, hr, hstep⟩ := Option.bind_eq_some_iff.mp hstep
  split at hstep
  case isTrue => exact Option.some.inj hstep ▸ h
  case isFalse =>
    split at hstep
    case isTrue hall =>
      refine Option.some.inj hstep ▸ (h.refresh r.id).markReady hr fun k hk => ?_
      obtain ⟨x, hx, hhit⟩ := (Option.any_eq_true ..).mp (hall k hk)
      exact ⟨x, hx, (h.refresh r.id).hit _ x hx hhit⟩
    case isFalse => exact Option.some.inj hstep ▸ h.refresh r.id

/-- What the get reads for a row of a request that is ready. -/
theorem getRow_ready (h : Inv cfg ssd s) {r : Request} (hr : r ∈ s.requests)
    (hready : r.ready = true) {k : Nat} (hk : k < r.numIndex) :
    ∃ x, s.ctxs (r.id, k) = some x ∧ Settled s.pages x ∧ x.page = r.base k / cfg.elems ∧
      Loaded cfg ssd x.page (s.cache x.pageTrans) ∧
      s.getRow cfg r k = some (x.page, (List.range r.dim).map fun tid =>
        s.cache x.pageTrans (r.base k + tid - cfg.elems * x.page)) := by
  obtain ⟨x, hx, hsettled⟩ := h.ready r hr hready k hk
  have ⟨hin, _, hval, htrans⟩ := hsettled
  obtain ⟨r', hr', hid, -, hrange, hpage, -⟩ := h.owned _ x hx
  obtain rfl : r = r' := h.id_unique (mem_all_of_requests hr) hr' hid
  have hpage' : x.page = r.base k / cfg.elems := hpage hin
  have hlt : r.base k < cfg.count := of_decide_eq_true (hrange.symm.trans hin)
  have hslot : x.pageTrans < cfg.nSlots := by
    refine h.inSlots _ (Option.isSome_iff_exists.mpr ⟨x.page, ?_⟩)
    exact (h.resident _ _).mpr ⟨.inl hval, htrans.symm⟩
  refine ⟨x, hx, hsettled, hpage', htrans ▸ h.data _ hval, ?_⟩
  rw [Service.getRow, if_neg (Nat.not_le.mpr hlt), hx, Option.bind_some,
    if_neg (Nat.not_le.mpr hslot), hpage']

theorem rowRight_ready (h : Inv cfg ssd s) {r : Request} (hr : r ∈ s.requests)
    (hready : r.ready = true) {k : Nat} (hk : k < r.numIndex) :
    RowRight cfg ssd r k
      ((List.range r.numIndex).map fun k => (s.getRow cfg r k).map Prod.snd)[k]? := by
  intro hrow
  obtain ⟨x, -, -, hpage, hloaded, hget⟩ := h.getRow_ready hr hready hk
  rw [List.getElem?_map, List.getElem?_range hk, Option.map_some, hget, Option.map_some]
  congr 2
  refine List.map_congr_left fun tid htid => ?_
  have hlt := List.mem_range.mp htid
  have hbase := Nat.div_add_mod (r.base k) cfg.elems
  rw [← hpage] at hbase
  rw [hloaded _ (by omega), Nat.mul_comm x.page]
  congr 1
  omega

theorem get (h : Inv cfg ssd s) (hcur : s.current = none) (hstep : s.get cfg = some s') :
    Inv cfg ssd s' := by
  rw [Service.get] at hstep
  split at hstep
  case h_1 => cases hstep
  case h_2 r rest hreq =>
    obtain ⟨hready, hstep⟩ := Option.ite_none_right_eq_some.mp hstep
    have hr : r ∈ s.requests := by rw [hreq]; exact List.mem_cons_self
    have hall : s.all = r :: rest := by
      rw [Service.all, hcur, hreq]
      exact List.append_nil _
    have hall' : rest ++ s.current.toList = rest := by
      rw [hcur]
      exact List.append_nil _
    have hids := h.ids
    rw [hall, List.map_cons, List.length_cons, List.range'_succ, List.cons_eq_cons] at hids
    have hrest {r' : Request} (hr' : r' ∈ rest) : r'.id ≠ r.id := by
      have hmem := List.mem_map_of_mem (f := Request.id) hr'
      rw [hids.2, List.mem_range'_1] at hmem
      rw [hids.1]
      omega
    have hmemRest {r' : Request} (hr' : r' ∈ rest) : r' ∈ s.requests := by
      rw [hreq]
      exact List.mem_cons_of_mem _ hr'
    generalize hctxs : (fun c : CtxId => if c.1 = r.id then none else s.ctxs c) = ctxs' at hstep
    have hother {c : CtxId} (hc : c.1 ≠ r.id) : ctxs' c = s.ctxs c := by
      rw [← hctxs]
      exact if_neg hc
    have hsome {c : CtxId} {x : Ctx} (hx : ctxs' c = some x) :
        c.1 ≠ r.id ∧ s.ctxs c = some x := by
      rw [← hctxs] at hx
      obtain ⟨hne, hx⟩ := Option.ite_none_left_eq_some.mp hx
      exact ⟨hne, hx⟩
    -- the rows of the request are what its pointers release
    have hcount (p : Nat) : Nat.count
        (fun k => (s.getRow cfg r k).any (fun out => out.1 == p) = true) r.numIndex =
          refsOf s.ctxs p r := by
      have hiff (k : Nat) (hk : k < r.numIndex) :
          (s.getRow cfg r k).any (fun out => out.1 == p) = true ↔ Holds s.ctxs p (r.id, k) := by
        obtain ⟨x, hx, hsettled, -, -, hget⟩ := h.getRow_ready hr hready hk
        rw [hget, Option.any_some, Holds, hx, Option.any_some, hsettled.inRange, Bool.true_and]
      exact Nat.le_antisymm (Nat.count_mono_left fun k hk => (hiff k hk).mp)
        (Nat.count_mono_left fun k hk => (hiff k hk).mpr)
    have hrefs (p : Nat) : refs ctxs' rest p = refs s.ctxs rest p :=
      refs_congr fun r' hr' k => by rw [Holds, Holds, hother (hrest hr')]
    -- the contexts of the request have no command any more
    have hdone {q : QueueId} {cid : Nat} {cmd : Cmd} (hcmd : s.cmds q cid = some cmd) :
        cmd.owner.1 ≠ r.id := by
      intro hid
      obtain ⟨x, hx⟩ := h.leads _ _ _ hcmd
      obtain ⟨r', hr', hid', hlt, -⟩ := h.owned _ _ hx.ctx
      obtain rfl : r' = r := h.id_unique hr' (mem_all_of_requests hr) (hid'.symm.trans hid)
      obtain ⟨y, hy, hsettled⟩ := h.ready r' hr hready _ hlt
      rw [← hid'] at hy
      obtain rfl : y = x := Option.some.inj (hy.symm.trans hx.ctx)
      exact Bool.false_ne_true (hsettled.notPending.symm.trans hx.pending)
    rw [← Option.some.inj hstep]
    have hlen : (s.results ++ [(r, (List.range r.numIndex).map
        fun k => (s.getRow cfg r k).map Prod.snd)]).length = s.results.length + 1 :=
      List.length_append
    exact
      { h with
        ids := by
          show (rest ++ s.current.toList).map Request.id =
            List.range' ((s.results ++ [_]).length + 1) (rest ++ s.current.toList).length
          rw [hall', hids.2, hlen]
        nextId := by
          show s.nextId = (s.results ++ [_]).length + (rest ++ s.current.toList).length + 1
          rw [hall', hlen, h.nextId, hall, List.length_cons]
          omega
        done := by
          show (s.results ++ [(r, _)]).map (fun e : Request × _ => e.1.id) =
            List.range' 1 (s.results ++ [(r, _)]).length
          rw [hlen, List.map_append, h.done, List.range'_concat, List.map_singleton, hids.1,
            Nat.one_mul, Nat.add_comm 1]
        owned := fun c x hx => by
          obtain ⟨hne, hx⟩ := hsome hx
          obtain ⟨r', hr', hid, hrest'⟩ := h.owned c x hx
          show ∃ r' ∈ rest ++ s.current.toList, _
          rw [hall]  at hr'
          rw [hall']
          refine ⟨r', (List.mem_cons.mp hr').resolve_left fun heq => hne ?_, hid, hrest'⟩
          rw [hid, heq]
        filled := fun r' hr' k hk => by
          show (ctxs' (r'.id, k)).isSome = true
          rw [hother (hrest hr')]
          exact h.filled r' (hmemRest hr') k hk
        filledCurrent := fun r' hr' => by
          rw [hcur] at hr'
          cases hr'
        cnt := fun p => by
          show (s.pages p).cnt - _ = refs ctxs' (rest ++ s.current.toList) p
          have hsum : (s.pages p).cnt = refsOf s.ctxs p r + refs s.ctxs rest p := by
            rw [h.cnt, hall]
            rfl
          rw [hcount, hall', hrefs, hsum, Nat.add_sub_cancel_left]
        held := fun c x hx hin => h.held c x (hsome hx).2 hin
        hit := fun c x hx hhit => (h.hit c x (hsome hx).2 hhit).of_fields rfl rfl
        leads := fun q cid cmd hcmd => by
          obtain ⟨x, hx⟩ := h.leads _ _ _ hcmd
          exact ⟨x, { hx with ctx := (hother (hdone hcmd)).trans hx.ctx }⟩
        pending := fun c x hx hp => h.pending c x (hsome hx).2 hp
        ready := fun r' hr' hready' k hk => by
          obtain ⟨x, hx, hsettled⟩ := h.ready r' (hmemRest hr') hready' k hk
          exact ⟨x, (hother (hrest hr')).trans hx, hsettled.of_fields rfl rfl⟩
        results := fun e he k hk => by
          rcases List.mem_append.mp he with he | he
          · exact h.results e he k hk
          · rw [List.mem_singleton] at he
            rw [he] at hk ⊢
            exact h.rowRight_ready hr hready hk }

/-! ### Runs -/

/-- One step keeps it, if commands go to the first controller. -/
theorem step (h : Inv cfg ssd s) {a : ServiceAct} (hfirst : FirstCtrl a)
    (hstep : serviceStep cfg ssd s a = some s') : Inv cfg ssd s' := by
  cases a with
  | submit rows numIndex dim cacheDim =>
    obtain ⟨hcur, hstep⟩ := Option.ite_none_left_eq_some.mp hstep
    exact Option.some.inj hstep ▸ h.submit (Option.not_isSome_iff_eq_none.mp hcur) _ _ _ _
  | submitRow k q m slot cid =>
    obtain rfl : m = 0 := hfirst
    exact h.submitRow hstep
  | register => exact h.register hstep
  | post q cid =>
    obtain ⟨hmay, hstep⟩ := Option.ite_none_right_eq_some.mp hstep
    exact Option.some.inj hstep ▸ h.post hmay
  | serve l =>
    obtain ⟨hcur, hstep⟩ := Option.ite_none_left_eq_some.mp hstep
    exact h.serve (Option.not_isSome_iff_eq_none.mp hcur) hstep
  | check offset =>
    obtain ⟨-, hstep⟩ := Option.ite_none_left_eq_some.mp hstep
    exact h.check hstep
  | get =>
    obtain ⟨hcur, hstep⟩ := Option.ite_none_left_eq_some.mp hstep
    exact h.get (Option.not_isSome_iff_eq_none.mp hcur) hstep

end Inv

/-- The states of the service in all runs whose commands go to the first controller. -/
abbrev Serviced (cfg : ServiceConfig) (ssd : Nat → V) (s : Service V) : Prop :=
  Reachable Service.Init (Guarded (serviceStep cfg ssd) fun _ => FirstCtrl) s

theorem inv_reached (h : Serviced cfg ssd s) : Inv cfg ssd s :=
  h.invariant (fun _ => Inv.init) fun _ _ _ hinv hstep => hinv.step hstep.1 hstep.2

structure ServiceDelivers (cfg : ServiceConfig) (ssd : Nat → V) (s : Service V) : Prop where
  /-- a completion is looked up as the context whose command it is for -/
  attributed : ∀ e ∈ s.served, e.1.isSome = true ∧ e.2 = e.1
  /-- an entry of the table is a context that waits for the command with its queue and
      identifier -/
  entries : ∀ l c, s.lookup l = some c → ∃ x, s.ctxs c = some x ∧ x.isHit = false ∧
    s.cmds (x.memberAcquireCtrl, x.queue) x.cid = some ⟨c, x.page, x.pageTrans⟩ ∧
      l = lookupSlot x.queue x.cid
  /-- the contexts of a request that is ready have their pages, and keep them -/
  ready : ∀ r ∈ s.requests, r.ready = true → ∀ k < r.numIndex, ∃ x, s.ctxs (r.id, k) = some x ∧
    x.page = r.base k / cfg.elems ∧ s.pageTranslation x.pageTrans = some x.page ∧
      Loaded cfg ssd x.page (s.cache x.pageTrans) ∧ 0 < (s.pages x.page).cnt
  /-- the gets return the requests as they were submitted, each once -/
  order : s.results.map (fun e => e.1.id) ++ s.requests.map Request.id ++
    s.current.toList.map Request.id = List.range' 1 (s.nextId - 1)
  /-- a row inside of a page is written as it is on the SSD -/
  results : ∀ e ∈ s.results, ∀ k < e.1.numIndex, RowRight cfg ssd e.1 k e.2[k]?
  /-- a page no request is left for has no references -/
  balanced : s.requests = [] → s.current = none → ∀ p, (s.pages p).cnt = 0

/-- The service in every run whose commands go to the first controller. -/
theorem service_delivers {s : Service V} (h : Serviced cfg ssd s) :
    ServiceDelivers cfg ssd s := by
  have hi := inv_reached h
  exact
    { attributed := hi.served
      entries := fun l c hl => by
        obtain ⟨q, cid, cmd, hcmd, rfl, rfl⟩ := hi.lookup l c hl
        obtain ⟨x, hx⟩ := hi.leads _ _ _ hcmd
        refine ⟨x, hx.ctx, hx.isHit, ?_, by rw [hx.queue, hx.cid]⟩
        rw [hx.ctrl]
        exact hi.pending _ x hx.ctx hx.pending
      ready := fun r hr hready k hk => by
        obtain ⟨x, hx, ⟨hin, -, hval, htrans⟩, hpage, hloaded, -⟩ := hi.getRow_ready hr hready hk
        refine ⟨x, hx, hpage, (hi.resident _ _).mpr ⟨.inl hval, htrans.symm⟩, hloaded, ?_⟩
        rw [hi.cnt]
        exact refs_pos (Inv.mem_all_of_requests hr) hk (holds_iff.mpr ⟨x, hx, hin, rfl⟩)
      order := by
        have hids := hi.ids
        rw [Service.all, List.map_append] at hids
        rw [List.append_assoc, hids, hi.done, hi.nextId, Nat.add_sub_cancel,
          Nat.add_comm s.results.length 1, List.range'_append_1]
        rfl
      results := hi.results
      balanced := fun hreq hcur p => by
        rw [hi.cnt, Service.all, hreq, hcur]
        rfl }

/-! ## Progress -/

/-- The commands that have not been taken off: the contexts that wait for their own. -/
def Service.waiting (s : Service V) : Nat :=
  (s.all.map fun r => Nat.count
    (fun k => (s.ctxs (r.id, k)).any Ctx.hasPendingIo = true) r.numIndex).sum

namespace Inv

end Inv

/-- One controller with two queue pairs, a cache of two slots and pages of two elements. -/
def smallService : ServiceConfig := ⟨[2], 2, 2, 8⟩

def newService : Service Nat where
  pages _ := ⟨false, false, 0, 0⟩
  pageTranslation _ := none
  cache _ _ := 0
  ctxs _ := none
  cidLocks _ _ := false
  cmds _ _ := none
  posted _ := []
  lookup _ := none
  requests := []
  current := none
  todo := []
  nextId := 1
  served := []
  results := []

theorem newService_init : newService.Init :=
  ⟨fun _ => ⟨rfl, rfl, rfl⟩, rfl, rfl, rfl, rfl, rfl, rfl, rfl, rfl, rfl, rfl, rfl, rfl⟩

/-- The element at `i` is `10 * i`. -/
def tens (i : Nat) : Nat := 10 * i

/-- The second request waits for the pages that the first reads; the completions come the other
    way round, and the second request is found ready first. -/
def sharedPages : List ServiceAct :=
  [.submit (fun k => k) 2 2 2, .submitRow 1 1 0 0 5, .submitRow 0 0 0 1 5, .register,
    .submit (fun k => 1 - k) 1 2 2, .submitRow 0 0 0 0 0, .register,
    .post (0, 1) 5, .serve 1, .check 0, .check 1, .post (0, 0) 5, .serve 0, .check 0, .get, .get]

theorem sharedPages_ends :
    (runActs (serviceStep smallService tens) newService sharedPages).map (fun s =>
      s.results.map Prod.snd) = some [[some [0, 10], some [20, 30]], [some [20, 30]]] := by
  decide +kernel

theorem sharedPages_first :
    runOk (serviceStep smallService tens) (fun _ => FirstCtrl) newService sharedPages := by
  decide +kernel

theorem sharedPages_delivers :
    ∃ s, runActs (serviceStep smallService tens) newService sharedPages = some s ∧
      ServiceDelivers smallService tens s ∧
      s.results.map Prod.snd = [[some [0, 10], some [20, 30]], [some [20, 30]]] := by
  obtain ⟨s, hrun, hends⟩ := Option.map_eq_some_iff.mp sharedPages_ends
  exact ⟨s, hrun, service_delivers
    (reachable_of_runActs (.init newService_init) sharedPages_first hrun),
    hends⟩

end GidsStack.Registered
