/-
  GidsStack.Requests.Attribution

  What holds in every run of the registered service whose commands all go to the first
  controller.  Every entry of the table stands for a command of the context it names, so that a
  completion is looked up as the context it is for; a page with a read under way has one
  command, and its references are the contexts of the requests that have not been fetched. Here
  stand the invariant and the steps of a submit; those of the service and of the gets are in
  Delivery.lean.
-/

import GidsStack.Lib.Laps
import GidsStack.Lib.Transition
import GidsStack.Requests.Service
import Mathlib.Data.List.Nodup
import Mathlib.Data.List.Range

namespace GidsStack.Registered

open Lib

variable {V : Type} {cfg : ServiceConfig} {ssd : Nat → V} {s s' : Service V}

/-! ## References -/

/-- Context `c` has a reference to page `p`. -/
def Holds (ctxs : CtxId → Option Ctx) (p : Nat) (c : CtxId) : Prop :=
  (ctxs c).any (fun x => x.inRange && x.page == p) = true

instance (ctxs : CtxId → Option Ctx) (p : Nat) : DecidablePred (Holds ctxs p) :=
  fun _ => inferInstanceAs (Decidable (_ = true))

theorem holds_iff {ctxs : CtxId → Option Ctx} {p : Nat} {c : CtxId} :
    Holds ctxs p c ↔ ∃ x, ctxs c = some x ∧ x.inRange = true ∧ x.page = p := by
  rw [Holds, Option.any_eq_true]
  simp only [Bool.and_eq_true, beq_iff_eq]

section Rewritten

variable {ctxs : CtxId → Option Ctx} {c : CtxId} {x : Ctx}

theorem isSome_update (hx : ctxs c = some x) (x' : Ctx) (d : CtxId) :
    (Function.update ctxs c (some x') d).isSome = (ctxs d).isSome := by
  by_cases hd : d = c
  · rw [hd, Function.update_self, hx]
    rfl
  · rw [Function.update_of_ne hd]

/-- A context that is written again for the same page has the same reference. -/
theorem holds_update (hx : ctxs c = some x) (x' : Ctx) (hin : x'.inRange = x.inRange)
    (hpage : x'.page = x.page) (p : Nat) (d : CtxId) :
    Holds (Function.update ctxs c (some x')) p d ↔ Holds ctxs p d := by
  by_cases hd : d = c
  · rw [hd, Holds, Holds, Function.update_self, hx, Option.any_some, Option.any_some, hin, hpage]
  · rw [Holds, Holds, Function.update_of_ne hd]

end Rewritten

/-- The references of a request. -/
def refsOf (ctxs : CtxId → Option Ctx) (p : Nat) (r : Request) : Nat :=
  Nat.count (fun k => Holds ctxs p (r.id, k)) r.numIndex

def refs (ctxs : CtxId → Option Ctx) (requests : List Request) (p : Nat) : Nat :=
  (requests.map (refsOf ctxs p)).sum

theorem refsOf_congr {ctxs ctxs' : CtxId → Option Ctx} {p : Nat} {r : Request}
    (h : ∀ k, Holds ctxs' p (r.id, k) ↔ Holds ctxs p (r.id, k)) :
    refsOf ctxs' p r = refsOf ctxs p r :=
  Laps.count_congr h _

theorem refs_congr {ctxs ctxs' : CtxId → Option Ctx} {p : Nat} {requests : List Request}
    (h : ∀ r ∈ requests, ∀ k, Holds ctxs' p (r.id, k) ↔ Holds ctxs p (r.id, k)) :
    refs ctxs' requests p = refs ctxs requests p := by
  rw [refs, refs, List.map_congr_left fun r hr => refsOf_congr (h r hr)]

theorem refs_append (ctxs : CtxId → Option Ctx) (l l' : List Request) (p : Nat) :
    refs ctxs (l ++ l') p = refs ctxs l p + refs ctxs l' p := by
  rw [refs, List.map_append, List.sum_append]
  rfl

theorem refs_singleton (ctxs : CtxId → Option Ctx) (r : Request) (p : Nat) :
    refs ctxs [r] p = refsOf ctxs p r :=
  Nat.add_zero _

/-- A request one of whose contexts has a reference to the page. -/
theorem refs_pos {ctxs : CtxId → Option Ctx} {requests : List Request} {p k : Nat} {r : Request}
    (hr : r ∈ requests) (hk : k < r.numIndex) (h : Holds ctxs p (r.id, k)) :
    0 < refs ctxs requests p := by
  have hone : 0 < refsOf ctxs p r := by
    rw [refsOf, Nat.pos_iff_ne_zero, Ne, Nat.count_iff_forall_not]
    exact fun hnone => hnone _ hk h
  exact Nat.lt_of_lt_of_le hone (List.single_le_sum (fun _ _ => Nat.zero_le _) _
    (List.mem_map_of_mem hr))

/-- The pages with one more reference to page `p`. -/
def addRef (pages : Nat → Page) (p : Nat) : Nat → Page :=
  Function.update pages p { pages p with cnt := (pages p).cnt + 1 }

section AddRef

variable (pages : Nat → Page) (p v : Nat)

@[simp] theorem addRef_valid : (addRef pages p v).valid = (pages v).valid := by
  by_cases hv : v = p
  · rw [addRef, hv, Function.update_self]
  · rw [addRef, Function.update_of_ne hv]

@[simp] theorem addRef_busy : (addRef pages p v).busy = (pages v).busy := by
  by_cases hv : v = p
  · rw [addRef, hv, Function.update_self]
  · rw [addRef, Function.update_of_ne hv]

@[simp] theorem addRef_offset : (addRef pages p v).offset = (pages v).offset := by
  by_cases hv : v = p
  · rw [addRef, hv, Function.update_self]
  · rw [addRef, Function.update_of_ne hv]

theorem addRef_cnt : (addRef pages p v).cnt = (pages v).cnt + if p = v then 1 else 0 := by
  by_cases hv : v = p
  · rw [addRef, hv, Function.update_self, if_pos rfl]
  · rw [addRef, Function.update_of_ne hv, if_neg (Ne.symm hv), Nat.add_zero]

end AddRef

/-! ## The invariant -/

/-- The requests, with the one that is being submitted. -/
def Service.all (s : Service V) : List Request := s.requests ++ s.current.toList

/-- The command of identifier `cid` in queue `q` is that of its owner's context. -/
structure Leads (cfg : ServiceConfig) (ctxs : CtxId → Option Ctx) (pages : Nat → Page)
    (q : QueueId) (cid : Nat) (cmd : Cmd) (x : Ctx) : Prop where
  ctx : ctxs cmd.owner = some x
  inRange : x.inRange = true
  isHit : x.isHit = false
  pending : x.hasPendingIo = true
  page : x.page = cmd.page
  trans : x.pageTrans = cmd.slot
  ctrl : x.memberAcquireCtrl = 0
  queue : q = (0, x.queue)
  cid : cid = x.cid
  queue_lt : x.queue < cfg.ctrls.headD 0
  cid_lt : x.cid < cidCapacity
  busy : (pages cmd.page).busy = true
  offset : (pages cmd.page).offset = cmd.slot

/-- The slot has the elements of page `p`. -/
def Loaded (cfg : ServiceConfig) (ssd : Nat → V) (p : Nat) (slot : Nat → V) : Prop :=
  ∀ j < cfg.elems, slot j = ssd (p * cfg.elems + j)

theorem loaded_loadPage (cfg : ServiceConfig) (ssd : Nat → V) (p : Nat) (slot : Nat → V) :
    Loaded cfg ssd p (loadPage cfg ssd p slot) :=
  fun _ hj => if_pos hj

/-- The page of a context is in the cache, and the context names its slot. -/
structure Settled (pages : Nat → Page) (x : Ctx) : Prop where
  inRange : x.inRange = true
  notPending : x.hasPendingIo = false
  valid : (pages x.page).valid = true
  trans : x.pageTrans = (pages x.page).offset

namespace Settled

variable {pages pages' : Nat → Page} {x : Ctx}

theorem of_fields (h : Settled pages x) (hvalid : (pages' x.page).valid = (pages x.page).valid)
    (hoffset : (pages' x.page).offset = (pages x.page).offset) : Settled pages' x where
  inRange := h.inRange
  notPending := h.notPending
  valid := hvalid.trans h.valid
  trans := h.trans.trans hoffset.symm

theorem of_page_eq (h : Settled pages x) (hpage : pages' x.page = pages x.page) :
    Settled pages' x :=
  h.of_fields (congrArg Page.valid hpage) (congrArg Page.offset hpage)

end Settled

/-- What a get writes for row `k` when the row lies inside of a page. -/
def RowRight (cfg : ServiceConfig) (ssd : Nat → V) (r : Request) (k : Nat)
    (out : Option (Option (List V))) : Prop :=
  r.base k % cfg.elems + r.dim ≤ cfg.elems →
    out = some (some ((List.range r.dim).map fun tid => ssd (r.base k + tid)))

structure Inv (cfg : ServiceConfig) (ssd : Nat → V) (s : Service V) : Prop where
  ids : s.all.map Request.id = List.range' (s.results.length + 1) s.all.length
  nextId : s.nextId = s.results.length + s.all.length + 1
  done : s.results.map (fun e => e.1.id) = List.range' 1 s.results.length
  todo_nodup : s.todo.Nodup
  todo : ∀ k ∈ s.todo, ∃ r ∈ s.current, k < r.numIndex
  owned : ∀ c x, s.ctxs c = some x → ∃ r ∈ s.all, c.1 = r.id ∧ c.2 < r.numIndex ∧
    x.inRange = decide (r.base c.2 < cfg.count) ∧
    (x.inRange = true → x.page = r.base c.2 / cfg.elems) ∧ x.ctrl = 0
  filled : ∀ r ∈ s.requests, ∀ k < r.numIndex, (s.ctxs (r.id, k)).isSome = true
  filledCurrent : ∀ r ∈ s.current, ∀ k < r.numIndex,
    ((s.ctxs (r.id, k)).isSome = true ↔ k ∉ s.todo)
  notReady : ∀ r ∈ s.current, r.ready = false
  cnt : ∀ p, (s.pages p).cnt = refs s.ctxs s.all p
  word : ∀ p, (s.pages p).valid = true → (s.pages p).busy = false
  resident : ∀ p slot, s.pageTranslation slot = some p ↔
    ((s.pages p).valid = true ∨ (s.pages p).busy = true) ∧ (s.pages p).offset = slot
  inSlots : ∀ slot, (s.pageTranslation slot).isSome = true → slot < cfg.nSlots
  data : ∀ p, (s.pages p).valid = true → Loaded cfg ssd p (s.cache (s.pages p).offset)
  held : ∀ c x, s.ctxs c = some x → x.inRange = true →
    (s.pages x.page).valid = true ∨ (s.pages x.page).busy = true
  hit : ∀ c x, s.ctxs c = some x → x.isHit = true → Settled s.pages x
  leads : ∀ q cid cmd, s.cmds q cid = some cmd → ∃ x,
    Leads cfg s.ctxs s.pages q cid cmd x
  pending : ∀ c x, s.ctxs c = some x → x.hasPendingIo = true →
    s.cmds (0, x.queue) x.cid = some ⟨c, x.page, x.pageTrans⟩
  busyCmd : ∀ p, (s.pages p).busy = true → ∃ q cid cmd, s.cmds q cid = some cmd ∧ cmd.page = p
  onePage : ∀ q cid cmd q' cid' cmd', s.cmds q cid = some cmd → s.cmds q' cid' = some cmd' →
    cmd.page = cmd'.page → q = q' ∧ cid = cid'
  locks : ∀ q cid, s.cidLocks q cid = (s.cmds q cid).isSome
  posted_nodup : ∀ q, (s.posted q).Nodup
  posted : ∀ q, ∀ cid ∈ s.posted q, ∃ cmd, s.cmds q cid = some cmd ∧
    Loaded cfg ssd cmd.page (s.cache cmd.slot)
  lookup : ∀ l c, s.lookup l = some c → ∃ q cid cmd, s.cmds q cid = some cmd ∧ cmd.owner = c ∧
    l = lookupSlot q.2 cid
  entered : ∀ q cid cmd, s.cmds q cid = some cmd → (∀ r ∈ s.current, cmd.owner.1 ≠ r.id) →
    s.lookup (lookupSlot q.2 cid) = some cmd.owner
  served : ∀ e ∈ s.served, e.1.isSome = true ∧ e.2 = e.1
  ready : ∀ r ∈ s.requests, r.ready = true → ∀ k < r.numIndex,
    ∃ x, s.ctxs (r.id, k) = some x ∧ Settled s.pages x
  results : ∀ e ∈ s.results, ∀ k < e.1.numIndex, RowRight cfg ssd e.1 k e.2[k]?

theorem lookupSlot_inj {l l' cid cid' : Nat} (hc : cid < cidCapacity) (hc' : cid' < cidCapacity)
    (h : lookupSlot l cid = lookupSlot l' cid') : l = l' ∧ cid = cid' := by
  rw [lookupSlot, lookupSlot] at h
  rw [cidCapacity] at hc hc' h
  omega

namespace Inv

theorem init (hs : s.Init) : Inv cfg ssd s where
  ids := by rw [Service.all, hs.requests, hs.current, hs.results]; rfl
  nextId := by rw [Service.all, hs.requests, hs.current, hs.results, hs.nextId]; rfl
  done := by rw [hs.results]; rfl
  todo_nodup := by rw [hs.todo]; exact List.nodup_nil
  todo k hk := by rw [hs.todo] at hk; cases hk
  owned c x hx := by rw [hs.ctxs] at hx; cases hx
  filled r hr := by rw [hs.requests] at hr; cases hr
  filledCurrent r hr := by rw [hs.current] at hr; cases hr
  notReady r hr := by rw [hs.current] at hr; cases hr
  cnt p := by rw [Service.all, hs.requests, hs.current, (hs.pages p).2.2]; rfl
  word p hv := by rw [(hs.pages p).1] at hv; cases hv
  resident p slot := by
    rw [hs.pageTranslation, (hs.pages p).1, (hs.pages p).2.1]
    simp
  inSlots slot h := by rw [hs.pageTranslation] at h; cases h
  data p hv := by rw [(hs.pages p).1] at hv; cases hv
  held c x hx := by rw [hs.ctxs] at hx; cases hx
  hit c x hx := by rw [hs.ctxs] at hx; cases hx
  leads q cid cmd hc := by rw [hs.cmds] at hc; cases hc
  pending c x hx := by rw [hs.ctxs] at hx; cases hx
  busyCmd p hb := by rw [(hs.pages p).2.1] at hb; cases hb
  onePage q cid cmd q' cid' cmd' hc := by rw [hs.cmds] at hc; cases hc
  locks q cid := by rw [hs.cidLocks, hs.cmds]; rfl
  posted_nodup q := by rw [hs.posted]; exact List.nodup_nil
  posted q cid hc := by rw [hs.posted] at hc; cases hc
  lookup l c hl := by rw [hs.lookup] at hl; cases hl
  entered q cid cmd hc := by rw [hs.cmds] at hc; cases hc
  served e he := by rw [hs.served] at he; cases he
  ready r hr := by rw [hs.requests] at hr; cases hr
  results e he := by rw [hs.results] at he; cases he

/-! ### Requests -/

theorem id_unique (h : Inv cfg ssd s) {r r' : Request} (hr : r ∈ s.all) (hr' : r' ∈ s.all)
    (heq : r.id = r'.id) : r = r' := by
  have hnodup : (s.all.map Request.id).Nodup := by
    rw [h.ids]
    exact List.nodup_range'
  exact List.inj_on_of_nodup_map hnodup hr hr' heq

theorem id_lt (h : Inv cfg ssd s) {r : Request} (hr : r ∈ s.all) : r.id < s.nextId := by
  have hmem := List.mem_map_of_mem (f := Request.id) hr
  rw [h.ids, List.mem_range'_1] at hmem
  rw [h.nextId]
  omega

theorem mem_all_of_requests {r : Request} (hr : r ∈ s.requests) : r ∈ s.all :=
  List.mem_append_left _ hr

theorem mem_all_of_current {r : Request} (hr : r ∈ s.current) : r ∈ s.all :=
  List.mem_append_right _ (Option.mem_toList.mpr hr)

/-! ### Commands -/

/-- The queue and the identifier tell a command. -/
theorem cmd_unique (h : Inv cfg ssd s) {q q' : QueueId} {cid cid' : Nat} {cmd cmd' : Cmd}
    (hc : s.cmds q cid = some cmd) (hc' : s.cmds q' cid' = some cmd')
    (heq : lookupSlot q.2 cid = lookupSlot q'.2 cid') : q = q' ∧ cid = cid' ∧ cmd = cmd' := by
  obtain ⟨x, hx⟩ := h.leads _ _ _ hc
  obtain ⟨x', hx'⟩ := h.leads _ _ _ hc'
  obtain ⟨hl, hcid⟩ := lookupSlot_inj (by rw [hx.cid]; exact hx.cid_lt)
    (by rw [hx'.cid]; exact hx'.cid_lt) heq
  have hq : q = q' := by
    rw [hx.queue, hx'.queue] at hl ⊢
    exact congrArg _ hl
  subst hq hcid
  exact ⟨rfl, rfl, Option.some.inj (hc.symm.trans hc')⟩

/-! ### The controllers -/

theorem post (h : Inv cfg ssd s) {q : QueueId} {cid : Nat} (hmay : s.MayPost q cid) :
    Inv cfg ssd (s.post cfg ssd q cid) := by
  obtain ⟨hsome, hnew⟩ := hmay
  obtain ⟨cmd, hcmd⟩ := Option.isSome_iff_exists.mp hsome
  obtain ⟨x, hx⟩ := h.leads _ _ _ hcmd
  have hpt : s.pageTranslation cmd.slot = some cmd.page :=
    (h.resident _ _).mpr ⟨.inr hx.busy, hx.offset⟩
  -- no page that is in the cache is in the slot of the command
  have hother {p : Nat} (hp : (s.pages p).valid = true) : (s.pages p).offset ≠ cmd.slot := by
    intro heq
    have hp' := (h.resident p _).mpr ⟨.inl hp, heq⟩
    rw [hpt] at hp'
    have hbusy := h.word p hp
    rw [← Option.some.inj hp', hx.busy] at hbusy
    cases hbusy
  rw [Service.post, hcmd]
  exact
    { h with
      data := fun p hp => by
        show Loaded cfg ssd p (Function.update s.cache _ _ (s.pages p).offset)
        rw [Function.update_of_ne (hother hp)]
        exact h.data p hp
      posted_nodup := fun q' => by
        show (Function.update s.posted q (s.posted q ++ [cid]) q').Nodup
        by_cases hq : q' = q
        · subst hq
          rw [Function.update_self, List.nodup_append]
          exact ⟨h.posted_nodup _, List.nodup_singleton _, fun a ha b hb heq =>
            hnew (List.mem_singleton.mp hb ▸ heq ▸ ha)⟩
        · rw [Function.update_of_ne hq]
          exact h.posted_nodup q'
      posted := fun q' cid' hmem => by
        replace hmem : cid' ∈ Function.update s.posted q (s.posted q ++ [cid]) q' := hmem
        show ∃ cmd', s.cmds q' cid' = some cmd' ∧ Loaded cfg ssd cmd'.page
          (Function.update s.cache cmd.slot (loadPage cfg ssd cmd.page (s.cache cmd.slot)) cmd'.slot)
        have hold : cid' ∈ s.posted q' → ∃ cmd', s.cmds q' cid' = some cmd' ∧
            Loaded cfg ssd cmd'.page (Function.update s.cache cmd.slot
              (loadPage cfg ssd cmd.page (s.cache cmd.slot)) cmd'.slot) := by
          intro hin
          obtain ⟨cmd', hcmd', hdata⟩ := h.posted q' cid' hin
          refine ⟨cmd', hcmd', ?_⟩
          by_cases hslot : cmd'.slot = cmd.slot
          · obtain ⟨x', hx'⟩ := h.leads _ _ _ hcmd'
            have hpt' := (h.resident cmd'.page _).mpr ⟨.inr hx'.busy, hx'.offset⟩
            rw [hslot, hpt] at hpt'
            rw [hslot, Function.update_self, Option.some.inj hpt']
            exact loaded_loadPage _ _ _ _
          · rw [Function.update_of_ne hslot]
            exact hdata
        by_cases hq : q' = q
        · subst hq
          rw [Function.update_self] at hmem
          rcases List.mem_append.mp hmem with hin | hin
          · exact hold hin
          · rw [List.mem_singleton.mp hin]
            refine ⟨cmd, hcmd, ?_⟩
            rw [Function.update_self]
            exact loaded_loadPage _ _ _ _
        · rw [Function.update_of_ne hq] at hmem
          exact hold hmem }

/-! ### Submit -/

theorem submit (h : Inv cfg ssd s) (hcur : s.current = none) (rows : Nat → Nat)
    (numIndex dim cacheDim : Nat) :
    Inv cfg ssd { s with
      current := some ⟨s.nextId, rows, numIndex, dim, cacheDim, false⟩
      todo := List.range numIndex
      nextId := s.nextId + 1 } := by
  have hall : s.all = s.requests := by
    rw [Service.all, hcur]
    exact List.append_nil _
  have hids := h.ids
  have hnext := h.nextId
  rw [hall] at hids hnext
  -- no context has the new identifier yet
  have hfresh (k : Nat) : s.ctxs (s.nextId, k) = none := by
    by_contra hsome
    obtain ⟨x, hx⟩ := Option.ne_none_iff_exists'.mp hsome
    obtain ⟨r, hr, hid, -⟩ := h.owned _ _ hx
    exact absurd (h.id_lt hr) (by rw [← hid]; exact Nat.lt_irrefl _)
  generalize hr : (⟨s.nextId, rows, numIndex, dim, cacheDim, false⟩ : Request) = r
  have hrid : r.id = s.nextId := by rw [← hr]
  have hrn : r.numIndex = numIndex := by rw [← hr]
  exact
    { h with
      ids := by
        show (s.requests ++ [r]).map Request.id =
          List.range' (s.results.length + 1) (s.requests ++ [r]).length
        rw [List.map_append, hids, List.length_append, List.length_singleton,
          List.range'_concat, List.map_singleton, hrid, hnext, Nat.one_mul, Nat.add_right_comm]
      nextId := by
        show s.nextId + 1 = s.results.length + (s.requests ++ [r]).length + 1
        rw [List.length_append, List.length_singleton, hnext, Nat.add_assoc s.results.length]
      todo_nodup := List.nodup_range
      todo := fun k hk => ⟨r, rfl, by rw [hrn]; exact List.mem_range.mp hk⟩
      owned := fun c x hx => by
        obtain ⟨r', hr', hrest⟩ := h.owned c x hx
        rw [hall] at hr'
        exact ⟨r', List.mem_append_left _ hr', hrest⟩
      filledCurrent := fun r' hr' k hk => by
        obtain rfl : r = r' := Option.some.inj hr'
        rw [hrid, hfresh]
        rw [hrn] at hk
        exact ⟨fun hs => (nomatch hs), fun hnot => absurd (List.mem_range.mpr hk) hnot⟩
      notReady := fun r' hr' => by
        rw [← Option.some.inj hr', ← hr]
      cnt := fun p => by
        have hnone : refsOf s.ctxs p r = 0 := by
          rw [refsOf, Nat.count_iff_forall_not]
          intro k _ hk
          rw [hrid, Holds, hfresh] at hk
          cases hk
        show (s.pages p).cnt = refs s.ctxs (s.requests ++ [r]) p
        rw [refs_append, refs_singleton, hnone, Nat.add_zero, h.cnt, hall]
      entered := fun q cid cmd hcmd _ => h.entered q cid cmd hcmd fun r' hr' => by
        rw [hcur] at hr'
        cases hr' }

section Fill

variable {r : Request} {k : Nat}

theorem current_id_ne (h : Inv cfg ssd s) (hr : r ∈ s.current) {r' : Request}
    (hr' : r' ∈ s.requests) : r'.id ≠ r.id := by
  have hnodup : (s.all.map Request.id).Nodup := by
    rw [h.ids]
    exact List.nodup_range'
  rw [Service.all, Option.mem_def.mp hr, List.map_append, List.nodup_append] at hnodup
  exact hnodup.2.2 _ (List.mem_map_of_mem hr') _ (List.mem_singleton_self _)

theorem todo_lt (h : Inv cfg ssd s) (hr : r ∈ s.current) (hk : k ∈ s.todo) : k < r.numIndex := by
  obtain ⟨r', hr', hlt⟩ := h.todo k hk
  rw [Option.mem_def.mp hr] at hr'
  exact Option.some.inj hr' ▸ hlt

theorem unfilled (h : Inv cfg ssd s) (hr : r ∈ s.current) (hk : k ∈ s.todo) :
    s.ctxs (r.id, k) = none := by
  have hnot := mt (h.filledCurrent r hr k (h.todo_lt hr hk)).mp (not_not.mpr hk)
  exact Option.not_isSome_iff_eq_none.mp hnot

/-- A filled context is another one. -/
theorem ne_of_filled (h : Inv cfg ssd s) (hr : r ∈ s.current) (hk : k ∈ s.todo) {c : CtxId}
    {x : Ctx} (hx : s.ctxs c = some x) : c ≠ (r.id, k) := by
  rintro rfl
  rw [h.unfilled hr hk] at hx
  cases hx

theorem refs_fill (h : Inv cfg ssd s) (hr : r ∈ s.current) (hk : k ∈ s.todo) (x : Ctx) (p : Nat) :
    refs (Function.update s.ctxs (r.id, k) (some x)) s.all p =
      refs s.ctxs s.all p + if x.inRange = true ∧ x.page = p then 1 else 0 := by
  have hall : s.all = s.requests ++ [r] := by rw [Service.all, Option.mem_def.mp hr]; rfl
  have hold : refs (Function.update s.ctxs (r.id, k) (some x)) s.requests p =
      refs s.ctxs s.requests p := refs_congr fun r' hr' j => by
    have hne : (r'.id, j) ≠ (r.id, k) := fun heq =>
      h.current_id_ne hr hr' (congrArg Prod.fst heq)
    rw [Holds, Holds, Function.update_of_ne hne]
  have hother (j : Nat) (hj : j ≠ k) :
      Holds (Function.update s.ctxs (r.id, k) (some x)) p (r.id, j) ↔ Holds s.ctxs p (r.id, j) := by
    rw [Holds, Holds, Function.update_of_ne fun heq => hj (congrArg Prod.snd heq)]
  have hnot : ¬ Holds s.ctxs p (r.id, k) := by
    rw [Holds, h.unfilled hr hk]
    exact Bool.false_ne_true
  have hnew : Holds (Function.update s.ctxs (r.id, k) (some x)) p (r.id, k) ↔
      x.inRange = true ∧ x.page = p := by
    rw [Holds, Function.update_self, Option.any_some, Bool.and_eq_true, beq_iff_eq]
  rw [hall, refs_append, refs_append, refs_singleton, refs_singleton, hold, Nat.add_assoc]
  congr 1
  split
  case isTrue hx =>
    exact Laps.count_insert (h.todo_lt hr hk) hnot (hnew.mpr hx) hother
  case isFalse hx =>
    refine refsOf_congr fun j => ?_
    by_cases hj : j = k
    · subst hj
      exact ⟨fun hin => absurd (hnew.mp hin) hx, fun hin => absurd hin hnot⟩
    · exact hother j hj

theorem owned_fill (h : Inv cfg ssd s) (hr : r ∈ s.current) (hk : k ∈ s.todo) {x : Ctx}
    (hrange : x.inRange = decide (r.base k < cfg.count))
    (hpage : x.inRange = true → x.page = r.base k / cfg.elems) (hctrl : x.ctrl = 0) {c : CtxId}
    {x' : Ctx} (hx : Function.update s.ctxs (r.id, k) (some x) c = some x') :
    ∃ r ∈ s.all, c.1 = r.id ∧ c.2 < r.numIndex ∧
      x'.inRange = decide (r.base c.2 < cfg.count) ∧
      (x'.inRange = true → x'.page = r.base c.2 / cfg.elems) ∧ x'.ctrl = 0 := by
  rcases of_update_some hx with ⟨rfl, hsome⟩ | ⟨-, hold⟩
  · obtain rfl := Option.some.inj hsome
    exact ⟨r, mem_all_of_current hr, rfl, h.todo_lt hr hk, hrange, hpage, hctrl⟩
  · exact h.owned c x' hold

theorem filled_fill (h : Inv cfg ssd s) (hr : r ∈ s.current) (x : Ctx) {r' : Request}
    (hr' : r' ∈ s.requests) (j : Nat) :
    Function.update s.ctxs (r.id, k) (some x) (r'.id, j) = s.ctxs (r'.id, j) :=
  Function.update_of_ne (fun heq => h.current_id_ne hr hr' (congrArg Prod.fst heq)) _ _

theorem filledCurrent_fill (h : Inv cfg ssd s) (hr : r ∈ s.current) (hk : k ∈ s.todo) (x : Ctx)
    {r' : Request} (hr' : r' ∈ s.current) {j : Nat} (hj : j < r'.numIndex) :
    ((Function.update s.ctxs (r.id, k) (some x) (r'.id, j)).isSome = true ↔
      j ∉ s.todo.erase k) := by
  obtain rfl : r' = r := Option.some.inj ((Option.mem_def.mp hr').symm.trans hr)
  by_cases hjk : j = k
  · subst hjk
    rw [Function.update_self]
    exact ⟨fun _ => h.todo_nodup.not_mem_erase, fun _ => rfl⟩
  · rw [Function.update_of_ne fun heq => hjk (congrArg Prod.snd heq),
      List.mem_erase_of_ne hjk]
    exact h.filledCurrent r' hr' j hj

/-- A context that takes no command: that of a row outside of the range. -/
theorem skip (h : Inv cfg ssd s) (hr : r ∈ s.current) (hk : k ∈ s.todo)
    (hout : cfg.count ≤ r.base k) :
    Inv cfg ssd { s with
      ctxs := Function.update s.ctxs (r.id, k) (some ⟨false, 0, false, false, 0, 0, 0, 0, 0⟩)
      todo := s.todo.erase k } := by
  have hdec : decide (r.base k < cfg.count) = false := decide_eq_false (Nat.not_lt.mpr hout)
  exact
    { h with
      todo_nodup := h.todo_nodup.erase k
      todo := fun j hj => h.todo j (List.mem_of_mem_erase hj)
      owned := fun c x hx => h.owned_fill hr hk hdec.symm
        (fun hf => absurd hf Bool.false_ne_true) rfl hx
      filled := fun r' hr' j hj =>
        (congrArg Option.isSome (h.filled_fill hr _ hr' j)).trans (h.filled r' hr' j hj)
      filledCurrent := fun r' hr' j hj => h.filledCurrent_fill hr hk _ hr' hj
      cnt := fun p => by
        show (s.pages p).cnt = refs (Function.update s.ctxs _ _) s.all p
        rw [h.refs_fill hr hk, h.cnt, if_neg fun hin => Bool.false_ne_true hin.1, Nat.add_zero]
      held := fun c x hx hin => by
        rcases of_update_some hx with ⟨-, hsome⟩ | ⟨-, hold⟩
        · rw [← Option.some.inj hsome] at hin
          cases hin
        · exact h.held c x hold hin
      hit := fun c x hx hhit => by
        rcases of_update_some hx with ⟨-, hsome⟩ | ⟨-, hold⟩
        · rw [← Option.some.inj hsome] at hhit
          cases hhit
        · exact h.hit c x hold hhit
      leads := fun q cid cmd hcmd => by
        obtain ⟨x, hx⟩ := h.leads q cid cmd hcmd
        exact ⟨x, { hx with
          ctx := (Function.update_of_ne (h.ne_of_filled hr hk hx.ctx) _ _).trans hx.ctx }⟩
      pending := fun c x hx hp => by
        rcases of_update_some hx with ⟨-, hsome⟩ | ⟨-, hold⟩
        · rw [← Option.some.inj hsome] at hp
          cases hp
        · exact h.pending c x hold hp
      ready := fun r' hr' hready j hj => by
        obtain ⟨x, hx, hsettled⟩ := h.ready r' hr' hready j hj
        exact ⟨x, (h.filled_fill hr _ hr' j).trans hx, hsettled⟩ }

/-- A context whose page is in the cache, or on its way there. -/
theorem join (h : Inv cfg ssd s) (hr : r ∈ s.current) (hk : k ∈ s.todo)
    (hin : r.base k < cfg.count) {x : Ctx} (hrange : x.inRange = true)
    (hpage : x.page = r.base k / cfg.elems) (hctrl : x.ctrl = 0) (hpend : x.hasPendingIo = false)
    (hheld : (s.pages x.page).valid = true ∨ (s.pages x.page).busy = true)
    (hhit : x.isHit = true →
      (s.pages x.page).valid = true ∧ x.pageTrans = (s.pages x.page).offset) :
    Inv cfg ssd { s with
      pages := addRef s.pages x.page
      ctxs := Function.update s.ctxs (r.id, k) (some x)
      todo := s.todo.erase k } :=
  { h with
    todo_nodup := h.todo_nodup.erase k
    todo := fun j hj => h.todo j (List.mem_of_mem_erase hj)
    owned := fun c x' hx => h.owned_fill hr hk (by rw [hrange, decide_eq_true hin])
      (fun _ => hpage) hctrl hx
    filled := fun r' hr' j hj =>
      (congrArg Option.isSome (h.filled_fill hr _ hr' j)).trans (h.filled r' hr' j hj)
    filledCurrent := fun r' hr' j hj => h.filledCurrent_fill hr hk _ hr' hj
    cnt := fun p => by
      show (addRef s.pages x.page p).cnt = refs (Function.update s.ctxs _ _) s.all p
      rw [h.refs_fill hr hk, addRef_cnt, h.cnt]
      simp only [hrange, true_and]
    word := fun p => by
      show (addRef s.pages _ p).valid = true → (addRef s.pages _ p).busy = false
      rw [addRef_valid, addRef_busy]
      exact h.word p
    resident := fun p slot => by
      show _ ↔ ((addRef s.pages _ p).valid = true ∨ (addRef s.pages _ p).busy = true) ∧
        (addRef s.pages _ p).offset = slot
      rw [addRef_valid, addRef_busy, addRef_offset]
      exact h.resident p slot
    data := fun p => by
      show (addRef s.pages _ p).valid = true →
        Loaded cfg ssd p (s.cache (addRef s.pages _ p).offset)
      rw [addRef_valid, addRef_offset]
      exact h.data p
    held := fun c x' hx hin' => by
      show (addRef s.pages _ x'.page).valid = true ∨ (addRef s.pages _ x'.page).busy = true
      rw [addRef_valid, addRef_busy]
      rcases of_update_some hx with ⟨-, hsome⟩ | ⟨-, hold⟩
      · exact Option.some.inj hsome ▸ hheld
      · exact h.held c x' hold hin'
    hit := fun c x' hx hhit' => by
      refine Settled.of_fields ?_ (addRef_valid ..) (addRef_offset ..)
      rcases of_update_some hx with ⟨-, hsome⟩ | ⟨-, hold⟩
      · obtain rfl := Option.some.inj hsome
        exact ⟨hrange, hpend, (hhit hhit').1, (hhit hhit').2⟩
      · exact h.hit c x' hold hhit'
    leads := fun q cid cmd hcmd => by
      obtain ⟨x', hx⟩ := h.leads q cid cmd hcmd
      exact ⟨x', { hx with
        ctx := (Function.update_of_ne (h.ne_of_filled hr hk hx.ctx) _ _).trans hx.ctx
        busy := (addRef_busy _ _ _).trans hx.busy
        offset := (addRef_offset _ _ _).trans hx.offset }⟩
    pending := fun c x' hx hp => by
      rcases of_update_some hx with ⟨-, hsome⟩ | ⟨-, hold⟩
      · rw [← Option.some.inj hsome, hpend] at hp
        cases hp
      · exact h.pending c x' hold hp
    busyCmd := fun p hb => h.busyCmd p ((addRef_busy _ _ _).symm.trans hb)
    ready := fun r' hr' hready j hj => by
      obtain ⟨x', hx, hsettled⟩ := h.ready r' hr' hready j hj
      exact ⟨x', (h.filled_fill hr _ hr' j).trans hx,
        hsettled.of_fields (addRef_valid ..) (addRef_offset ..)⟩ }

/-- The page of a free slot leaves the cache. -/
theorem evict (h : Inv cfg ssd s) {slot : Nat} (hfree : s.SlotFree cfg slot) :
    Inv cfg ssd { s with
      pages := evictPage s.pages (s.pageTranslation slot)
      pageTranslation := Function.update s.pageTranslation slot none } := by
  generalize hpages : evictPage s.pages (s.pageTranslation slot) = pages'
  have hgone {v : Nat} (hv : s.pageTranslation slot = some v) :
      pages' v = { s.pages v with valid := false, busy := false } := by
    rw [← hpages]
    exact if_pos hv
  have hstays {v : Nat} (hv : s.pageTranslation slot ≠ some v) : pages' v = s.pages v := by
    rw [← hpages]
    exact if_neg hv
  have hcnt (v : Nat) : (pages' v).cnt = (s.pages v).cnt := by
    by_cases hv : s.pageTranslation slot = some v
    · rw [hgone hv]
    · rw [hstays hv]
  -- nothing refers to the page that goes, and no command is for it
  have hrefs {c : CtxId} {x : Ctx} (hx : s.ctxs c = some x) (hin : x.inRange = true) :
      s.pageTranslation slot ≠ some x.page := by
    intro hv
    obtain ⟨r, hr, hid, hlt, -⟩ := h.owned c x hx
    have hpos : 0 < refs s.ctxs s.all x.page := by
      refine refs_pos hr hlt (holds_iff.mpr ⟨x, ?_, hin, rfl⟩)
      rw [← hid]
      exact hx
    rw [← h.cnt, (hfree.2 x.page hv).1] at hpos
    exact Nat.lt_irrefl 0 hpos
  have hvalid {v : Nat} (hv : (pages' v).valid = true) :
      s.pageTranslation slot ≠ some v ∧ (s.pages v).valid = true := by
    by_cases hpt : s.pageTranslation slot = some v
    · rw [hgone hpt] at hv
      cases hv
    · exact ⟨hpt, hstays hpt ▸ hv⟩
  have hbusy {v : Nat} (hv : (pages' v).busy = true) :
      s.pageTranslation slot ≠ some v ∧ (s.pages v).busy = true := by
    by_cases hpt : s.pageTranslation slot = some v
    · rw [hgone hpt] at hv
      cases hv
    · exact ⟨hpt, hstays hpt ▸ hv⟩
  exact
    { h with
      cnt := fun p => (hcnt p).trans (h.cnt p)
      word := fun p hp => by
        show (pages' p).busy = false
        rw [hstays (hvalid hp).1]
        exact h.word p (hvalid hp).2
      resident := fun p slot' => by
        show Function.update s.pageTranslation slot none slot' = some p ↔
          ((pages' p).valid = true ∨ (pages' p).busy = true) ∧ (pages' p).offset = slot'
        by_cases hpt : s.pageTranslation slot = some p
        · rw [hgone hpt]
          constructor
          · intro hin
            obtain ⟨hne, hin⟩ := of_update_none hin
            exact absurd (((h.resident p slot).mp hpt).2.symm.trans ((h.resident p slot').mp hin).2)
              (Ne.symm hne)
          · rintro ⟨hf | hf, -⟩ <;> cases hf
        · rw [hstays hpt, ← h.resident p slot']
          constructor
          · exact fun hin => (of_update_none hin).2
          · intro hin
            have hne : slot' ≠ slot := fun heq => hpt (heq ▸ hin)
            rw [Function.update_of_ne hne]
            exact hin
      inSlots := fun slot' hin => by
        obtain ⟨p, hp⟩ := Option.isSome_iff_exists.mp hin
        exact h.inSlots slot' (Option.isSome_iff_exists.mpr ⟨p, (of_update_none hp).2⟩)
      data := fun p hp => by
        show Loaded cfg ssd p (s.cache (pages' p).offset)
        rw [hstays (hvalid hp).1]
        exact h.data p (hvalid hp).2
      held := fun c x hx hin => by
        show (pages' x.page).valid = true ∨ (pages' x.page).busy = true
        rw [hstays (hrefs hx hin)]
        exact h.held c x hx hin
      hit := fun c x hx hhit => by
        have hsettled := h.hit c x hx hhit
        exact hsettled.of_page_eq (hstays (hrefs hx hsettled.inRange))
      leads := fun q cid cmd hcmd => by
        obtain ⟨x, hx⟩ := h.leads q cid cmd hcmd
        have hne := hstays (hx.page ▸ hrefs hx.ctx hx.inRange)
        exact ⟨x, { hx with
          busy := (congrArg Page.busy hne).trans hx.busy
          offset := (congrArg Page.offset hne).trans hx.offset }⟩
      busyCmd := fun p hp => h.busyCmd p (hbusy hp).2
      ready := fun r hr hready k hk => by
        obtain ⟨x, hx, hsettled⟩ := h.ready r hr hready k hk
        exact ⟨x, hx, hsettled.of_page_eq (hstays (hrefs hx hsettled.inRange))⟩ }

/-- A page in the cache, or on its way there, is another one than `p` and in another slot than
    the one that has been freed. -/
theorem ne_of_held (h : Inv cfg ssd s) {p slot : Nat} (hvalid : (s.pages p).valid = false)
    (hbusy : (s.pages p).busy = false) (hempty : s.pageTranslation slot = none) {v : Nat}
    (hv : (s.pages v).valid = true ∨ (s.pages v).busy = true) :
    v ≠ p ∧ (s.pages v).offset ≠ slot := by
  refine ⟨?_, fun heq => ?_⟩
  · rintro rfl
    rw [hvalid, hbusy] at hv
    exact hv.elim Bool.false_ne_true Bool.false_ne_true
  · have hpt := (h.resident v slot).mpr ⟨hv, heq⟩
    rw [hempty] at hpt
    cases hpt

theorem assign_word (h : Inv cfg ssd s) {p : Nat} {pg : Page} (hpg : pg.valid = false) {v : Nat}
    (hv : (Function.update s.pages p pg v).valid = true) :
    (Function.update s.pages p pg v).busy = false := by
  by_cases hvp : v = p
  · rw [hvp, Function.update_self, hpg] at hv
    cases hv
  · rw [Function.update_of_ne hvp] at hv ⊢
    exact h.word v hv

theorem assign_data (h : Inv cfg ssd s) {p : Nat} {pg : Page} (hpg : pg.valid = false) {v : Nat}
    (hv : (Function.update s.pages p pg v).valid = true) :
    Loaded cfg ssd v (s.cache (Function.update s.pages p pg v).offset) := by
  by_cases hvp : v = p
  · rw [hvp, Function.update_self, hpg] at hv
    cases hv
  · rw [Function.update_of_ne hvp] at hv ⊢
    exact h.data v hv

/-- A page that gets the free slot. -/
theorem assign_resident (h : Inv cfg ssd s) {p slot : Nat} (hvalid : (s.pages p).valid = false)
    (hbusy : (s.pages p).busy = false) (hempty : s.pageTranslation slot = none) {pg : Page}
    (hpg : pg.busy = true) (hslot : pg.offset = slot) (v slot' : Nat) :
    Function.update s.pageTranslation slot (some p) slot' = some v ↔
      ((Function.update s.pages p pg v).valid = true ∨
        (Function.update s.pages p pg v).busy = true) ∧
          (Function.update s.pages p pg v).offset = slot' := by
  by_cases hvp : v = p
  · rw [hvp, Function.update_self, hpg, hslot]
    constructor
    · intro hin
      rcases of_update_some hin with ⟨hs, -⟩ | ⟨-, hold⟩
      · exact ⟨.inr rfl, hs.symm⟩
      · exact absurd rfl
          (h.ne_of_held hvalid hbusy hempty ((h.resident p slot').mp hold).1).1
    · rintro ⟨-, rfl⟩
      exact Function.update_self _ _ _
  · rw [Function.update_of_ne hvp, ← h.resident v slot']
    constructor
    · intro hin
      rcases of_update_some hin with ⟨-, hs⟩ | ⟨-, hold⟩
      · exact absurd (Option.some.inj hs).symm hvp
      · exact hold
    · intro hold
      have hs : slot' ≠ slot := by
        rintro rfl
        rw [hempty] at hold
        cases hold
      rw [Function.update_of_ne hs, hold]

/-- A context that starts the read of its page. -/
theorem lead (h : Inv cfg ssd s) (hr : r ∈ s.current) (hk : k ∈ s.todo)
    (hin : r.base k < cfg.count) {p q slot cid cnt : Nat} (hp : p = r.base k / cfg.elems)
    (hvalid : (s.pages p).valid = false) (hbusy : (s.pages p).busy = false)
    (hcnt : (s.pages p).cnt = cnt)
    (hq : q < cfg.ctrls.headD 0) (hslot : slot < cfg.nSlots)
    (hempty : s.pageTranslation slot = none) (hlock : s.cidLocks (0, q) cid = false)
    (hcid : cid < cidCapacity) :
    Inv cfg ssd { s with
      pages := Function.update s.pages p ⟨false, true, cnt + 1, slot⟩
      pageTranslation := Function.update s.pageTranslation slot (some p)
      ctxs := Function.update s.ctxs (r.id, k) (some ⟨true, p, false, true, 0, q, cid, 0, slot⟩)
      cidLocks := Function.update s.cidLocks (0, q) (Function.update (s.cidLocks (0, q)) cid true)
      cmds := Function.update s.cmds (0, q)
        (Function.update (s.cmds (0, q)) cid (some ⟨(r.id, k), p, slot⟩))
      todo := s.todo.erase k } := by
  subst hcnt
  have hfree : s.cmds (0, q) cid = none :=
    Option.not_isSome_iff_eq_none.mp (by rw [← h.locks, hlock]; exact Bool.false_ne_true)
  have hne {v : Nat} (hv : (s.pages v).valid = true ∨ (s.pages v).busy = true) : v ≠ p :=
    (h.ne_of_held hvalid hbusy hempty hv).1
  -- the commands are the new one and those from before
  have hcmds {q' : QueueId} {cid' : Nat} {cmd : Cmd} (hc : Function.update s.cmds (0, q)
      (Function.update (s.cmds (0, q)) cid (some ⟨(r.id, k), p, slot⟩)) q' cid' = some cmd) :
      q' = (0, q) ∧ cid' = cid ∧ cmd = ⟨(r.id, k), p, slot⟩ ∨ s.cmds q' cid' = some cmd := by
    rcases of_update_update_some hc with ⟨⟨hq', hcid'⟩, hsome⟩ | ⟨-, hold⟩
    · exact .inl ⟨hq', hcid', (Option.some.inj hsome).symm⟩
    · exact .inr hold
  have hkeep {q' : QueueId} {cid' : Nat} {cmd : Cmd} (hc : s.cmds q' cid' = some cmd) :
      Function.update s.cmds (0, q) (Function.update (s.cmds (0, q)) cid
        (some ⟨(r.id, k), p, slot⟩)) q' cid' = some cmd := by
    rw [update_update_of_ne s.cmds, hc]
    rintro ⟨rfl, rfl⟩
    rw [hfree] at hc
    cases hc
  have hnew := update_update_self s.cmds (0, q) cid (some ⟨(r.id, k), p, slot⟩)
  have hcmdPage {q' : QueueId} {cid' : Nat} {cmd : Cmd} (hc : s.cmds q' cid' = some cmd) :
      cmd.page ≠ p := by
    obtain ⟨x', hx'⟩ := h.leads _ _ _ hc
    exact hne (.inr hx'.busy)
  exact
    { h with
      todo_nodup := h.todo_nodup.erase k
      todo := fun j hj => h.todo j (List.mem_of_mem_erase hj)
      owned := fun c x' hx' => h.owned_fill hr hk (decide_eq_true hin).symm (fun _ => hp) rfl hx'
      filled := fun r' hr' j hj =>
        (congrArg Option.isSome (h.filled_fill hr _ hr' j)).trans (h.filled r' hr' j hj)
      filledCurrent := fun r' hr' j hj => h.filledCurrent_fill hr hk _ hr' hj
      cnt := fun v => by
        show (Function.update s.pages p _ v).cnt = refs (Function.update s.ctxs _ _) s.all v
        rw [h.refs_fill hr hk, ← h.cnt]
        by_cases hv : v = p
        · rw [hv, Function.update_self, if_pos ⟨rfl, rfl⟩]
        · rw [Function.update_of_ne hv, if_neg fun heq => hv heq.2.symm, Nat.add_zero]
      word := fun v hv => h.assign_word rfl hv
      resident := h.assign_resident hvalid hbusy hempty rfl rfl
      inSlots := fun slot' hin' => by
        obtain ⟨v, hv⟩ := Option.isSome_iff_exists.mp hin'
        rcases of_update_some hv with ⟨hs, -⟩ | ⟨-, hold⟩
        · exact hs ▸ hslot
        · exact h.inSlots slot' (Option.isSome_iff_exists.mpr ⟨v, hold⟩)
      data := fun v hv => h.assign_data rfl hv
      held := fun c x' hx' hin' => by
        show (Function.update s.pages p _ x'.page).valid = true ∨
          (Function.update s.pages p _ x'.page).busy = true
        rcases of_update_some hx' with ⟨-, hsome⟩ | ⟨-, hold⟩
        · rw [← Option.some.inj hsome, Function.update_self]
          exact .inr rfl
        · rw [Function.update_of_ne (hne (h.held c x' hold hin'))]
          exact h.held c x' hold hin'
      hit := fun c x' hx' hhit => by
        rcases of_update_some hx' with ⟨-, hsome⟩ | ⟨-, hold⟩
        · rw [← Option.some.inj hsome] at hhit
          cases hhit
        · have hsettled := h.hit c x' hold hhit
          exact hsettled.of_page_eq (Function.update_of_ne (hne (.inl hsettled.valid)) _ _)
      leads := fun q' cid' cmd hc => by
        rcases hcmds hc with ⟨rfl, rfl, rfl⟩ | hold
        · exact ⟨_,
            { ctx := Function.update_self _ _ _
              inRange := rfl
              isHit := rfl
              pending := rfl
              page := rfl
              trans := rfl
              ctrl := rfl
              queue := rfl
              cid := rfl
              queue_lt := hq
              cid_lt := hcid
              busy := congrArg Page.busy (Function.update_self p _ s.pages)
              offset := congrArg Page.offset (Function.update_self p _ s.pages) }⟩
        · obtain ⟨x', hx'⟩ := h.leads _ _ _ hold
          have hpage := Function.update_of_ne (hcmdPage hold)
            ⟨false, true, (s.pages p).cnt + 1, slot⟩ s.pages
          exact ⟨x', { hx' with
            ctx := (Function.update_of_ne (h.ne_of_filled hr hk hx'.ctx) _ _).trans hx'.ctx
            busy := (congrArg Page.busy hpage).trans hx'.busy
            offset := (congrArg Page.offset hpage).trans hx'.offset }⟩
      pending := fun c x' hx' hpend => by
        rcases of_update_some hx' with ⟨rfl, hsome⟩ | ⟨-, hold⟩
        · rw [← Option.some.inj hsome]
          exact hnew
        · exact hkeep (h.pending c x' hold hpend)
      busyCmd := fun v hv => by
        replace hv : (Function.update s.pages p _ v).busy = true := hv
        by_cases hvp : v = p
        · exact ⟨_, _, _, hnew, hvp.symm⟩
        · rw [Function.update_of_ne hvp] at hv
          obtain ⟨q', cid', cmd, hc, hpage⟩ := h.busyCmd v hv
          exact ⟨q', cid', cmd, hkeep hc, hpage⟩
      onePage := fun q1 cid1 cmd1 q2 cid2 cmd2 hc1 hc2 hpage => by
        rcases hcmds hc1 with ⟨rfl, rfl, rfl⟩ | hold1 <;>
          rcases hcmds hc2 with ⟨rfl, rfl, rfl⟩ | hold2
        · exact ⟨rfl, rfl⟩
        · exact absurd hpage.symm (hcmdPage hold2)
        · exact absurd hpage (hcmdPage hold1)
        · exact h.onePage _ _ _ _ _ _ hold1 hold2 hpage
      locks := update_update_isSome h.locks (0, q) cid (some _)
      posted := fun q' cid' hin' => by
        obtain ⟨cmd, hc, hdata⟩ := h.posted q' cid' hin'
        exact ⟨cmd, hkeep hc, hdata⟩
      lookup := fun l c hl => by
        obtain ⟨q', cid', cmd, hc, hrest⟩ := h.lookup l c hl
        exact ⟨q', cid', cmd, hkeep hc, hrest⟩
      entered := fun q' cid' cmd hc hown => by
        rcases hcmds hc with ⟨-, -, rfl⟩ | hold
        · exact absurd rfl (hown r hr)
        · exact h.entered q' cid' cmd hold hown
      ready := fun r' hr' hready j hj => by
        obtain ⟨x', hx', hsettled⟩ := h.ready r' hr' hready j hj
        exact ⟨x', (h.filled_fill hr _ hr' j).trans hx',
          hsettled.of_page_eq (Function.update_of_ne (hne (.inl hsettled.valid)) _ _)⟩ }

/-- `acquire_page_submit_async` for a row that is still to be run. -/
theorem acquireSubmit (h : Inv cfg ssd s) (hr : r ∈ s.current) (hk : k ∈ s.todo)
    (hin : r.base k < cfg.count) {q slot cid : Nat} (hq : q < cfg.ctrls.headD 0)
    {t : Service V}
    (ht : s.acquireSubmit cfg (r.id, k) (r.base k / cfg.elems) q 0 slot cid = some t) :
    Inv cfg ssd { t with todo := s.todo.erase k } := by
  rw [Service.acquireSubmit] at ht
  generalize hp : r.base k / cfg.elems = p at ht
  cases hvalid : (s.pages p).valid <;> cases hbusy : (s.pages p).busy <;>
    rw [hvalid, hbusy] at ht
  case false.false =>
    obtain ⟨hguard, ht⟩ := Option.ite_none_right_eq_some.mp ht
    obtain ⟨hfree, hlock, hcid⟩ := hguard
    have hne : s.pageTranslation slot ≠ some p := fun hpt => by
      rcases ((h.resident p slot).mp hpt).1 with hv | hb
      · rw [hvalid] at hv
        cases hv
      · rw [hbusy] at hb
        cases hb
    have hkept : evictPage s.pages (s.pageTranslation slot) p = s.pages p := if_neg hne
    have hev := (h.evict hfree).lead hr hk hin hp.symm ((congrArg Page.valid hkept).trans hvalid)
      ((congrArg Page.busy hkept).trans hbusy) (congrArg Page.cnt hkept) hq hfree.1
      (Function.update_self _ _ _) hlock hcid
    simp only [Function.update_idem] at hev
    rw [← Option.some.inj ht]
    exact hev
  case false.true =>
    rw [← Option.some.inj ht]
    exact h.join (x := ⟨true, p, false, false, 0, q, 0, 0, (s.pages p).offset⟩) hr hk hin rfl
      hp.symm rfl rfl (.inr hbusy) fun hf => absurd hf Bool.false_ne_true
  case true.false =>
    rw [← Option.some.inj ht]
    exact h.join (x := ⟨true, p, true, false, 0, q, 0, 0, (s.pages p).offset⟩) hr hk hin rfl
      hp.symm rfl rfl (.inl hvalid) fun _ => ⟨hvalid, rfl⟩
  case true.true => cases ht

theorem submitRow (h : Inv cfg ssd s) {q slot cid : Nat}
    (hstep : s.submitRow cfg k q 0 slot cid = some s') : Inv cfg ssd s' := by
  rw [Service.submitRow] at hstep
  obtain ⟨r, hr, hstep⟩ := Option.bind_eq_some_iff.mp hstep
  split at hstep
  case isTrue => cases hstep
  case isFalse hk =>
    rw [not_not] at hk
    split at hstep
    case isTrue hout => exact Option.some.inj hstep ▸ h.skip hr hk hout
    case isFalse hin =>
      obtain ⟨⟨hq, -⟩, hstep⟩ := Option.ite_none_right_eq_some.mp hstep
      obtain ⟨t, ht, hstep⟩ := Option.bind_eq_some_iff.mp hstep
      exact Option.some.inj hstep ▸ h.acquireSubmit hr hk (Nat.lt_of_not_le hin) hq ht

end Fill

/-! ### The lookup kernel -/

section Register

variable {lookup : Nat → Option CtxId} {c : CtxId}

/-- A context with a command of its own enters the table, and no other. -/
theorem registerRow_eq (h : Inv cfg ssd s) (lookup : Nat → Option CtxId) (c : CtxId) :
    (∃ x, s.ctxs c = some x ∧ x.hasPendingIo = true ∧
      registerRow cfg s.ctxs lookup c =
        Function.update lookup (lookupSlot x.queue x.cid) (some c)) ∨
    (∀ x, s.ctxs c = some x → x.hasPendingIo = false) ∧
      registerRow cfg s.ctxs lookup c = lookup := by
  rw [registerRow]
  cases hx : s.ctxs c with
  | none => exact .inr ⟨fun x hf => (nomatch hf), rfl⟩
  | some x =>
    cases hp : x.hasPendingIo with
    | false =>
      refine .inr ⟨fun x' hx' => Option.some.inj hx' ▸ hp, ?_⟩
      simp [hp]
    | true =>
      obtain ⟨x', hl⟩ := h.leads _ _ _ (h.pending c x hx hp)
      obtain rfl : x = x' := Option.some.inj (hx.symm.trans hl.ctx)
      obtain ⟨-, -, -, -, -, -, hctrl⟩ := h.owned c x hx
      refine .inl ⟨x, rfl, hp, ?_⟩
      have hcid : decide (cidCapacity ≤ x.cid) = false :=
        decide_eq_false (Nat.not_le.mpr hl.cid_lt)
      simp only [hl.inRange, hl.isHit, hp, hcid, logicalQueue, hctrl, List.take_zero,
        List.sum_nil, Nat.add_zero]
      rfl

/-- Every entry stands for a command of the context it names. -/
theorem registerRow_lookup (h : Inv cfg ssd s)
    (hl : ∀ l c, lookup l = some c → ∃ q cid cmd, s.cmds q cid = some cmd ∧ cmd.owner = c ∧
      l = lookupSlot q.2 cid) (c : CtxId) :
    ∀ l c', registerRow cfg s.ctxs lookup c l = some c' → ∃ q cid cmd,
      s.cmds q cid = some cmd ∧ cmd.owner = c' ∧ l = lookupSlot q.2 cid := by
  intro l c' hin
  rcases h.registerRow_eq lookup c with ⟨x, hx, hp, heq⟩ | ⟨-, heq⟩
  · rw [heq] at hin
    rcases of_update_some hin with ⟨rfl, hsome⟩ | ⟨-, hold⟩
    · exact ⟨_, _, _, h.pending c x hx hp, Option.some.inj hsome, rfl⟩
    · exact hl l c' hold
  · rw [heq] at hin
    exact hl l c' hin

/-- The command of the context is entered, and those that were entered stay. -/
theorem registerRow_entered (h : Inv cfg ssd s) {q : QueueId} {cid : Nat} {cmd : Cmd}
    (hcmd : s.cmds q cid = some cmd)
    (hin : cmd.owner = c ∨ lookup (lookupSlot q.2 cid) = some cmd.owner) :
    registerRow cfg s.ctxs lookup c (lookupSlot q.2 cid) = some cmd.owner := by
  rcases h.registerRow_eq lookup c with ⟨x, hx, hp, heq⟩ | ⟨hnone, heq⟩
  · rw [heq]
    by_cases hslot : lookupSlot q.2 cid = lookupSlot x.queue x.cid
    · obtain ⟨-, -, rfl⟩ := h.cmd_unique hcmd (h.pending c x hx hp) hslot
      rw [hslot, Function.update_self]
    · rw [Function.update_of_ne hslot]
      refine hin.resolve_left fun hown => hslot ?_
      -- the owner's context has the queue and the identifier of its command
      obtain ⟨x', hl⟩ := h.leads _ _ _ hcmd
      obtain rfl : x' = x := Option.some.inj (hl.ctx.symm.trans (hown ▸ hx))
      rw [hl.queue, hl.cid]
  · rw [heq]
    refine hin.resolve_left fun hown => ?_
    obtain ⟨x, hl⟩ := h.leads _ _ _ hcmd
    have hp := hnone x (hown ▸ hl.ctx)
    rw [hl.pending] at hp
    cases hp

theorem register (h : Inv cfg ssd s) (hstep : s.register cfg = some s') : Inv cfg ssd s' := by
  rw [Service.register] at hstep
  split at hstep
  case h_2 => cases hstep
  case h_1 r hcur htodo =>
    have hall : s.all = s.requests ++ [r] := by rw [Service.all, hcur]; rfl
    have hall' : (s.requests ++ [r]) ++ (none : Option Request).toList = s.all := by
      rw [hall]
      exact List.append_nil _
    -- by induction on the rows: what is in the table, and what the rows so far have entered
    have htable (n : Nat) :
        (∀ l c, (List.range n).foldl (fun lookup k => registerRow cfg s.ctxs lookup (r.id, k))
            s.lookup l = some c → ∃ q cid cmd, s.cmds q cid = some cmd ∧ cmd.owner = c ∧
              l = lookupSlot q.2 cid) ∧
        ∀ q cid cmd, s.cmds q cid = some cmd → (cmd.owner.1 = r.id → cmd.owner.2 < n) →
          (List.range n).foldl (fun lookup k => registerRow cfg s.ctxs lookup (r.id, k)) s.lookup
            (lookupSlot q.2 cid) = some cmd.owner := by
      induction n with
      | zero =>
        refine ⟨h.lookup, fun q cid cmd hcmd hlt => h.entered q cid cmd hcmd fun r' hr' heq => ?_⟩
        rw [hcur] at hr'
        obtain rfl := Option.some.inj hr'
        exact absurd (hlt heq) (Nat.not_lt_zero _)
      | succ n ih =>
        rw [List.range_succ, List.foldl_append]
        refine ⟨h.registerRow_lookup ih.1 _, fun q cid cmd hcmd hlt =>
          h.registerRow_entered hcmd ?_⟩
        by_cases hown : cmd.owner = (r.id, n)
        · exact .inl hown
        · refine .inr (ih.2 q cid cmd hcmd fun hid => ?_)
          have hle := hlt hid
          have hne : cmd.owner.2 ≠ n := fun heq => hown (Prod.ext hid heq)
          omega
    rw [← Option.some.inj hstep]
    exact
      { h with
        ids := by
          show ((s.requests ++ [r]) ++ (none : Option Request).toList).map Request.id =
            List.range' _ ((s.requests ++ [r]) ++ (none : Option Request).toList).length
          rw [hall']
          exact h.ids
        nextId := by
          show _ = _ + ((s.requests ++ [r]) ++ (none : Option Request).toList).length + 1
          rw [hall']
          exact h.nextId
        todo := fun k hk => by
          rw [htodo] at hk
          cases hk
        owned := fun c x hx => by
          show ∃ r' ∈ (s.requests ++ [r]) ++ (none : Option Request).toList, _
          rw [hall']
          exact h.owned c x hx
        filled := fun r' hr' k hk => by
          rcases List.mem_append.mp hr' with hr' | hr'
          · exact h.filled r' hr' k hk
          · rw [List.mem_singleton] at hr'
            rw [hr'] at hk ⊢
            refine (h.filledCurrent r hcur k hk).mpr ?_
            rw [htodo]
            exact List.not_mem_nil
        filledCurrent := fun r' hr' => nomatch hr'
        notReady := fun r' hr' => nomatch hr'
        cnt := fun p => by
          show _ = refs s.ctxs ((s.requests ++ [r]) ++ (none : Option Request).toList) p
          rw [hall']
          exact h.cnt p
        lookup := (htable r.numIndex).1
        entered := fun q cid cmd hcmd _ => (htable r.numIndex).2 q cid cmd hcmd fun hid => by
          obtain ⟨x, hx⟩ := h.leads _ _ _ hcmd
          obtain ⟨r', hr', hid', hlt, -⟩ := h.owned _ _ hx.ctx
          rw [h.id_unique hr' (mem_all_of_current hcur) (hid'.symm.trans hid)] at hlt
          exact hlt
        ready := fun r' hr' hready k hk => by
          rcases List.mem_append.mp hr' with hr' | hr'
          · exact h.ready r' hr' hready k hk
          · rw [List.mem_singleton] at hr'
            rw [hr', h.notReady r hcur] at hready
            cases hready }

end Register

end Inv

end GidsStack.Registered
