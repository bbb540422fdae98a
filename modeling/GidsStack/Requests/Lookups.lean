/-
  GidsStack.Requests.Lookups

  Where the lookup kernel enters a context and where the service kernel looks its completion
  up. The one takes the queue of the command for a queue of controller `ctx.ctrl`, which a
  submit leaves 0; the command is in a queue of controller `ctx.member_acquire_ctrl`. In every
  run whose commands go to controller 0 the two places are one, and a completion finishes the
  context of its own command and no other (`lookups_right`). With commands on two controllers
  a completion validates a page whose read has not ended (`collided_wrong`).
-/

import GidsStack.Requests.Delivery

namespace GidsStack.Registered

open Lib

variable {V : Type} {cfg : ServiceConfig} {ssd : Nat → V} {s : Service V}

/-! ## The property -/

/-- Taking the first completion of logical queue `l` off finishes the context of its own
    command, and leaves the other contexts and pages as they are. -/
def Service.Finishes (cfg : ServiceConfig) (s : Service V) (l : Nat) (t : Service V) : Prop :=
  ∃ q cid cmd, localQueue cfg.ctrls l = some q ∧ (s.posted q).head? = some cid ∧
    s.cmds q cid = some cmd ∧ t.served = s.served ++ [(some cmd.owner, some cmd.owner)] ∧
      (t.ctxs cmd.owner).any Ctx.isHit = true ∧ (t.pages cmd.page).valid = true ∧
        (∀ c, c ≠ cmd.owner → t.ctxs c = s.ctxs c) ∧ ∀ p, p ≠ cmd.page → t.pages p = s.pages p

structure LookupsRight (cfg : ServiceConfig) (s : Service V) : Prop where
  /-- the logical queue of a context is that of the queue pair with its command -/
  sameQueue : ∀ c x, s.ctxs c = some x → x.hasPendingIo = true →
    localQueue cfg.ctrls (logicalQueue cfg.ctrls x) = some (x.memberAcquireCtrl, x.queue)
  /-- the completion of a registered command will be looked up as its context -/
  entered : ∀ l q cid cmd, localQueue cfg.ctrls l = some q → s.cmds q cid = some cmd →
    (∀ r ∈ s.current, cmd.owner.1 ≠ r.id) → s.lookup (lookupSlot l cid) = some cmd.owner
  /-- every completion taken off was looked up as the context whose command it was for -/
  attributed : ∀ e ∈ s.served, e.1.isSome = true ∧ e.2 = e.1
  finishes : s.current = none → ∀ l t, s.serve cfg l = some t → s.Finishes cfg l t

/-! ## Commands on the first controller -/

namespace Inv

theorem logicalQueue_first (h : Inv cfg ssd s) {c : CtxId} {x : Ctx} (hx : s.ctxs c = some x) :
    logicalQueue cfg.ctrls x = x.queue := by
  obtain ⟨-, -, -, -, -, -, hctrl⟩ := h.owned c x hx
  rw [logicalQueue, hctrl, List.take_zero, List.sum_nil, Nat.add_zero]

theorem sameQueue (h : Inv cfg ssd s) {c : CtxId} {x : Ctx} (hx : s.ctxs c = some x)
    (hpending : x.hasPendingIo = true) :
    localQueue cfg.ctrls (logicalQueue cfg.ctrls x) = some (x.memberAcquireCtrl, x.queue) := by
  obtain ⟨x', hleads⟩ := h.leads _ _ _ (h.pending c x hx hpending)
  obtain rfl : x = x' := Option.some.inj (hx.symm.trans hleads.ctx)
  rw [h.logicalQueue_first hx, hleads.ctrl]
  exact localQueue_of_lt hleads.queue_lt

theorem finishes (h : Inv cfg ssd s) (hcur : s.current = none) {l : Nat} {t : Service V}
    (hserve : s.serve cfg l = some t) : s.Finishes cfg l t := by
  obtain ⟨q, hq, htake⟩ := Option.bind_eq_some_iff.mp hserve
  cases hposted : s.posted q with
  | nil =>
    rw [hposted] at htake
    cases htake
  | cons cid rest =>
    obtain ⟨cmd, hcmd, -⟩ := h.posted q cid (by rw [hposted]; exact List.mem_cons_self)
    obtain ⟨x, hx⟩ := h.leads _ _ _ hcmd
    have hl : l = q.2 := by
      rw [hx.queue] at hq ⊢
      exact localQueue_first hq
    rw [hl, h.serve_eq hcur hposted hcmd hx] at hserve
    rw [← Option.some.inj hserve]
    refine ⟨q, cid, cmd, hq, by rw [hposted]; rfl, hcmd, rfl, ?_, ?_, fun c hc => ?_,
      fun p hp => ?_⟩
    · show (Function.update s.ctxs cmd.owner _ cmd.owner).any Ctx.isHit = true
      rw [Function.update_self]
      rfl
    · show (Function.update s.pages x.page _ cmd.page).valid = true
      rw [hx.page, Function.update_self]
    · exact Function.update_of_ne hc ..
    · rw [← hx.page] at hp
      exact Function.update_of_ne hp ..

end Inv

/-- The table and the queues in every run whose commands go to the first controller. -/
theorem lookups_right {s : Service V} (h : Serviced cfg ssd s) : LookupsRight cfg s := by
  have hi := inv_reached h
  exact
    { sameQueue := fun c x hx => hi.sameQueue hx
      entered := fun l q cid cmd hq hcmd => by
        obtain ⟨x, hx⟩ := hi.leads _ _ _ hcmd
        have hl : l = q.2 := by
          rw [hx.queue] at hq ⊢
          exact Inv.localQueue_first hq
        rw [hl]
        exact hi.entered q cid cmd hcmd
      attributed := hi.served
      finishes := fun hcur l t hserve => hi.finishes hcur hserve }

/-! ### Two controllers -/

/-- Two controllers with two queue pairs each. -/
def twoControllers : ServiceConfig := ⟨[2, 2], 2, 2, 8⟩

/-- The first request of `sharedPages` has one identifier in two queues of controller 0, and the
    completion of its second row has been taken off. -/
theorem sharedPages_lookups :
    ∃ s, runActs (serviceStep twoControllers tens) newService (sharedPages.take 9) = some s ∧
      LookupsRight twoControllers s ∧ s.served = [(some (1, 1), some (1, 1))] ∧
      s.cmds (0, 0) 5 = some ⟨(1, 0), 0, 1⟩ := by
  have hends : (runActs (serviceStep twoControllers tens) newService (sharedPages.take 9)).map
      (fun s => (s.served, s.cmds (0, 0) 5)) =
        some ([(some (1, 1), some (1, 1))], some ⟨(1, 0), 0, 1⟩) := by decide +kernel
  obtain ⟨s, hrun, hs⟩ := Option.map_eq_some_iff.mp hends
  exact ⟨s, hrun, lookups_right
    (reachable_of_runActs (.init newService_init) (by decide +kernel) hrun),
    congrArg Prod.fst hs, congrArg Prod.snd hs⟩

/-- Page 0 is read by controller 0 and page 1 by controller 1, with one identifier. -/
def collided : List ServiceAct :=
  [.submit (fun k => k) 2 2 2, .submitRow 0 0 0 0 5, .submitRow 1 0 1 1 5, .register,
    .post (0, 0) 5, .serve 0]

/-- The completion of page 0 is taken for the one of page 1, which is valid now while its
    command is still with its controller. -/
theorem collided_wrong :
    ∃ s, runActs (serviceStep twoControllers tens) newService collided = some s ∧
      s.served = [(some (1, 0), some (1, 1))] ∧ (s.pages 1).valid = true ∧
      s.cmds (1, 0) 5 = some ⟨(1, 1), 1, 1⟩ ∧ ¬ LookupsRight twoControllers s := by
  have hends : (runActs (serviceStep twoControllers tens) newService collided).map (fun s =>
      (s.served, s.cmds (1, 0) 5)) =
        some ([(some (1, 0), some (1, 1))], some ⟨(1, 1), 1, 1⟩) := by decide +kernel
  have hvalid : (runActs (serviceStep twoControllers tens) newService collided).map (fun s =>
      (s.pages 1).valid) = some true := by decide +kernel
  obtain ⟨s, hrun, hs⟩ := Option.map_eq_some_iff.mp hends
  have hserved : s.served = [(some (1, 0), some (1, 1))] := congrArg Prod.fst hs
  rw [hrun] at hvalid
  refine ⟨s, hrun, hserved, Option.some.inj hvalid, congrArg Prod.snd hs, fun h => ?_⟩
  have hsame := (h.attributed _ (hserved ▸ List.mem_singleton_self _)).2
  exact absurd hsame (by decide)

end GidsStack.Registered
