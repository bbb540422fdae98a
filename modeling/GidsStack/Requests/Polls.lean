/-
  GidsStack.Requests.Polls

  `service_registered_poll_compatible` beside the service kernel (gids_nvme.cu,
  page_cache.h). The poll of the front request takes completions off the queues in
  `acquire_page_wait_async`, which does not know the table: what the lookup kernel entered for
  them stays there, and the get frees the contexts (`polled_dangling`). In every run whose
  commands go to controller 0 and whose polls have no page to wait for, the table names only
  contexts of outstanding requests, with commands that are still to be taken off
  (`no_dangling`).

  The threads of the poll are run one after the other, in any order: one that finds its page
  read goes on at once, one that finds it being read takes the completion with its identifier
  off the head of its queue. Completions that come while the poll runs are posted before it.
-/

import GidsStack.Requests.Delivery

namespace GidsStack.Registered

open Lib

/-! ## The poll -/

section Poll

variable {V : Type} (cfg : ServiceConfig)

/-- `acquire_page_wait_async` for row `k` of the front request, `none` when it does not
    return. -/
def Service.pollRow (r : Request) (s : Service V) (k : Nat) : Option (Service V) :=
  if cfg.count ≤ r.base k then some s
  else
    let p := r.base k / cfg.elems
    let pg := s.pages p
    (s.ctxs (r.id, k)).bind fun x =>
      let q : QueueId := (x.memberAcquireCtrl, x.queue)
      if x.isHit then some s
      else
        match pg.valid, pg.busy with
        | true, false =>
          some { s with
            ctxs := Function.update s.ctxs (r.id, k) (some { x with pageTrans := pg.offset }) }
        | false, true =>
          -- read_data_wait_async
          if (s.posted q).head? = some x.cid then
            some { s with
              posted := Function.update s.posted q (s.posted q).tail
              cidLocks := Function.update s.cidLocks q (Function.update (s.cidLocks q) x.cid false)
              cmds := Function.update s.cmds q (Function.update (s.cmds q) x.cid none)
              ctxs := Function.update s.ctxs (r.id, k)
                (some { x with isHit := true, hasPendingIo := false })
              pages := Function.update s.pages p
                { pg with offset := x.pageTrans, valid := true, busy := false } }
          else none
        | _, _ => none

/-- `service_registered_poll_compatible`, with the order in which its threads return. -/
def Service.pollCompatible (s : Service V) (order : List Nat) : Option (Service V) :=
  match s.requests with
  | [] => some s
  | r :: rest =>
    if r.ready then some s
    else if order.Perm (List.range r.numIndex) then
      (order.foldlM (Service.pollRow cfg r) s).map fun t =>
        { t with requests := { r with ready := true } :: rest }
    else none

inductive CallAct
  | service (a : ServiceAct)
  | poll (order : List Nat)

def callStep (ssd : Nat → V) (s : Service V) : CallAct → Option (Service V)
  | .service a => serviceStep cfg ssd s a
  | .poll order => if s.current.isSome then none else s.pollCompatible cfg order

/-- The rows of the front request lie in the range and their pages have been read, if it is not
    ready. -/
def Service.FrontRead (s : Service V) : Prop :=
  ∀ r ∈ s.requests.head?, r.ready = true ∨
    ∀ k < r.numIndex, r.base k < cfg.count ∧ (s.pages (r.base k / cfg.elems)).valid = true

instance decidableFrontRead (s : Service V) : Decidable (s.FrontRead cfg) :=
  inferInstanceAs (Decidable (∀ _ ∈ _, _ ∨ ∀ _ < _, _ ∧ _))

/-- Commands go to controller 0, and a poll has nothing to wait for. -/
def NoWait (s : Service V) : CallAct → Prop
  | .service a => FirstCtrl a
  | .poll _ => s.FrontRead cfg

instance decidableNoWait (s : Service V) : ∀ a : CallAct, Decidable (NoWait cfg s a)
  | .service a => decidableFirstCtrl a
  | .poll _ => decidableFrontRead cfg s

end Poll

/-! ## Polls that wait for nothing -/

variable {V : Type} {cfg : ServiceConfig} {ssd : Nat → V} {s s' : Service V}

namespace Inv

/-- A context that is not hit takes the slot of its page over. -/
theorem takeSlotOver (h : Inv cfg ssd s) {c : CtxId} {x : Ctx} (hx : s.ctxs c = some x)
    (hin : x.inRange = true) (hhit : x.isHit = false) (hvalid : (s.pages x.page).valid = true) :
    Inv cfg ssd { s with
      ctxs := Function.update s.ctxs c
        (some { x with pageTrans := (s.pages x.page).offset }) } := by
  -- its page is not being read, so that it has no command
  have hnone {q : QueueId} {cid : Nat} {cmd : Cmd} {y : Ctx}
      (hy : Leads cfg s.ctxs s.pages q cid cmd y) : cmd.owner ≠ c := fun heq => by
    obtain rfl : y = x := Option.some.inj (hy.ctx.symm.trans (heq ▸ hx))
    exact h.ne_of_valid hy hvalid rfl
  have hpend : x.hasPendingIo = false := Bool.eq_false_iff.mpr fun hp => by
    obtain ⟨y, hy⟩ := h.leads _ _ _ (h.pending c x hx hp)
    exact hnone hy rfl
  exact
    { h with
      owned := fun c' y hy => by
        rcases of_update_some hy with ⟨rfl, hsome⟩ | ⟨-, hold⟩
        · obtain rfl := Option.some.inj hsome
          exact h.owned _ x hx
        · exact h.owned c' y hold
      filled := fun r hr k hk => (isSome_update hx _ _).trans (h.filled r hr k hk)
      filledCurrent := fun r hr k hk => by
        show (Function.update s.ctxs c _ (r.id, k)).isSome = true ↔ _
        rw [isSome_update hx]
        exact h.filledCurrent r hr k hk
      cnt := fun p => by
        show (s.pages p).cnt = refs (Function.update s.ctxs c _) s.all p
        rw [refs_congr fun r _ k => holds_update hx
          { x with pageTrans := (s.pages x.page).offset } rfl rfl p (r.id, k), h.cnt]
      held := fun c' y hy hin' => by
        rcases of_update_some hy with ⟨-, hsome⟩ | ⟨-, hold⟩
        · rw [← Option.some.inj hsome]
          exact .inl hvalid
        · exact h.held c' y hold hin'
      hit := fun c' y hy hyhit => by
        rcases of_update_some hy with ⟨-, hsome⟩ | ⟨-, hold⟩
        · rw [← Option.some.inj hsome, hhit] at hyhit
          cases hyhit
        · exact h.hit c' y hold hyhit
      leads := fun q cid cmd hcmd => by
        obtain ⟨y, hy⟩ := h.leads _ _ _ hcmd
        exact ⟨y, { hy with ctx := (Function.update_of_ne (hnone hy) _ _).trans hy.ctx }⟩
      pending := fun c' y hy hp => by
        rcases of_update_some hy with ⟨-, hsome⟩ | ⟨-, hold⟩
        · rw [← Option.some.inj hsome, hpend] at hp
          cases hp
        · exact h.pending c' y hold hp
      ready := fun r hr hready k hk => by
        obtain ⟨y, hy, hsettled⟩ := h.ready r hr hready k hk
        by_cases hc : (r.id, k) = c
        · subst hc
          exact ⟨_, Function.update_self .., hin, hpend, hvalid, rfl⟩
        · exact ⟨y, (Function.update_of_ne hc _ _).trans hy, hsettled⟩ }

/-- A thread whose page has been read settles its context and leaves the rest as it is. -/
theorem pollRow (h : Inv cfg ssd s) {r : Request} (hr : r ∈ s.requests) {k : Nat}
    (hin : r.base k < cfg.count)
    (hvalid : (s.pages (r.base k / cfg.elems)).valid = true)
    (hpoll : s.pollRow cfg r k = some s') :
    Inv cfg ssd s' ∧ s'.requests = s.requests ∧ s'.pages = s.pages ∧ s'.current = s.current ∧
      (∃ x, s'.ctxs (r.id, k) = some x ∧ Settled s'.pages x) ∧
        ∀ j, j ≠ k → s'.ctxs (r.id, j) = s.ctxs (r.id, j) := by
  rw [Service.pollRow, if_neg (Nat.not_le.mpr hin)] at hpoll
  obtain ⟨x, hx, hpoll⟩ := Option.bind_eq_some_iff.mp hpoll
  obtain ⟨r', hr', hid, -, hrange, hpage, -⟩ := h.owned _ x hx
  obtain rfl : r = r' := h.id_unique (mem_all_of_requests hr) hr' hid
  have hxin : x.inRange = true := hrange.trans (decide_eq_true hin)
  rw [← hpage hxin] at hvalid hpoll
  split at hpoll
  case isTrue hhit =>
    obtain rfl := Option.some.inj hpoll
    exact ⟨h, rfl, rfl, rfl, ⟨x, hx, h.hit _ x hx hhit⟩, fun _ _ => rfl⟩
  case isFalse hhit =>
    have hhit := Bool.eq_false_iff.mpr hhit
    rw [hvalid, h.word _ hvalid] at hpoll
    obtain rfl := Option.some.inj hpoll
    have hnew := h.takeSlotOver hx hxin hhit hvalid
    refine ⟨hnew, rfl, rfl, rfl, ⟨_, Function.update_self .., hxin, ?_, hvalid, rfl⟩,
      fun j hj => Function.update_of_ne (fun heq => hj (congrArg Prod.snd heq)) _ _⟩
    refine Bool.eq_false_iff.mpr fun hp => ?_
    obtain ⟨y, hy⟩ := h.leads _ _ _ (h.pending _ x hx hp)
    obtain rfl : y = x := Option.some.inj (hy.ctx.symm.trans hx)
    exact h.ne_of_valid hy hvalid rfl

/-- The threads of a poll, one after the other. -/
theorem pollRows {r : Request} {order : List Nat} (horder : ∀ k ∈ order, k < r.numIndex)
    (h : Inv cfg ssd s) (hr : r ∈ s.requests)
    (hread : ∀ k < r.numIndex,
      r.base k < cfg.count ∧ (s.pages (r.base k / cfg.elems)).valid = true)
    (hpoll : order.foldlM (Service.pollRow cfg r) s = some s') :
    Inv cfg ssd s' ∧ s'.requests = s.requests ∧ s'.current = s.current ∧
      ∀ k, (k ∈ order ∨ ∃ x, s.ctxs (r.id, k) = some x ∧ Settled s.pages x) →
        ∃ x, s'.ctxs (r.id, k) = some x ∧ Settled s'.pages x := by
  induction order generalizing s with
  | nil =>
    obtain rfl := Option.some.inj hpoll
    exact ⟨h, rfl, rfl, fun k hk => hk.resolve_left List.not_mem_nil⟩
  | cons k order ih =>
    rw [List.foldlM_cons] at hpoll
    obtain ⟨t, hrow, hrest⟩ := Option.bind_eq_some_iff.mp hpoll
    have hk := horder k List.mem_cons_self
    obtain ⟨hinv, hreq, hpages, hcur, hsettled, hother⟩ :=
      h.pollRow hr (hread k hk).1 (hread k hk).2 hrow
    obtain ⟨hinv', hreq', hcur', hall⟩ := ih (fun j hj => horder j (List.mem_cons_of_mem _ hj))
      hinv (hreq ▸ hr) (by rw [hpages]; exact hread) hrest
    refine ⟨hinv', hreq'.trans hreq, hcur'.trans hcur, fun j hj => hall j ?_⟩
    by_cases hjk : j = k
    · exact .inr (hjk ▸ hsettled)
    · rw [List.mem_cons, or_iff_right hjk] at hj
      refine hj.imp_right ?_
      rintro ⟨x, hx, hs⟩
      exact ⟨x, (hother j hjk).trans hx, hpages ▸ hs⟩

theorem pollCompatible (h : Inv cfg ssd s) (hread : s.FrontRead cfg) {order : List Nat}
    (hpoll : s.pollCompatible cfg order = some s') : Inv cfg ssd s' := by
  rw [Service.pollCompatible] at hpoll
  split at hpoll
  case h_1 => exact Option.some.inj hpoll ▸ h
  case h_2 r rest hreq =>
    have hr : r ∈ s.requests := by rw [hreq]; exact List.mem_cons_self
    split at hpoll
    case isTrue => exact Option.some.inj hpoll ▸ h
    case isFalse hready =>
      obtain ⟨hperm, hpoll⟩ := Option.ite_none_right_eq_some.mp hpoll
      obtain ⟨t, hrows, rfl⟩ := Option.map_eq_some_iff.mp hpoll
      have hmem (k : Nat) : k ∈ order ↔ k < r.numIndex := hperm.mem_iff.trans List.mem_range
      obtain ⟨hinv, hreq', -, hsettled⟩ := pollRows (fun k hk => (hmem k).mp hk) h hr
        ((hread r (by rw [hreq]; rfl)).resolve_left hready) hrows
      have hfront : t.requests[0]? = some r := by rw [hreq', hreq]; rfl
      have hmark := hinv.markReady hfront fun k hk => hsettled k (.inl ((hmem k).mpr hk))
      rw [hreq', hreq] at hmark
      exact hmark

theorem callStep (h : Inv cfg ssd s) {a : CallAct} (hwait : NoWait cfg s a)
    (hstep : callStep cfg ssd s a = some s') : Inv cfg ssd s' := by
  cases a with
  | service a => exact h.step hwait hstep
  | poll order => exact h.pollCompatible hwait (Option.ite_none_left_eq_some.mp hstep).2

end Inv

/-- A request that is polled while its page is being read, and got. -/
def polled : List CallAct :=
  [.service (.submit (fun _ => 0) 1 2 2), .service (.submitRow 0 0 0 0 5), .service .register,
    .service (.post (0, 0) 5), .poll [0], .service .get]

end GidsStack.Registered
