/-
  GidsStack.Requests.RowctxRuns

  The invariant of registered requests, over whole runs. Every context is that of one row,
  which it has read the page of; the lookup table has the contexts of the commands in flight,
  and the contexts of a request that is ready have their slots.
-/

import GidsStack.Requests.RowctxCache

namespace GidsStack.Rowctx

open Function (update)
open PageCache
open Registered (lookupSlot cidCapacity)

/-! ## The rows of a request -/

section Rows

variable {A V : Type} (cfg : StoreConfig)

/-- The row lies inside of the range and of one page. -/
structure Request.RowFits (r : Request A) (k : Nat) : Prop where
  base : r.base k < cfg.count
  range : r.base k + r.dim ≤ cfg.count
  page : r.base k % cfg.elems + r.dim ≤ cfg.elems

/-- All rows of the request do. -/
def Request.Fits (r : Request A) : Prop := ∀ k < r.numIndex, r.RowFits cfg k

instance (r : Request A) (k : Nat) : Decidable (r.RowFits cfg k) :=
  decidable_of_iff (r.base k < cfg.count ∧ r.base k + r.dim ≤ cfg.count ∧
      r.base k % cfg.elems + r.dim ≤ cfg.elems)
    ⟨fun ⟨h1, h2, h3⟩ => ⟨h1, h2, h3⟩, fun h => ⟨h.base, h.range, h.page⟩⟩

instance (r : Request A) : Decidable (r.Fits cfg) := inferInstanceAs (Decidable (∀ k < _, _))

/-- The elements of the array, page after page. -/
def elements (ssd : PageId 1 → Nat → V) (e : Nat) : V := ssd ⟨0, e / cfg.elems⟩ (e % cfg.elems)

/-- The elements of a row. -/
def Request.row (ssd : PageId 1 → Nat → V) (r : Request A) (k : Nat) : List V :=
  (List.range r.dim).map fun tid => elements cfg ssd (r.base k + tid)

end Rows

/-! ## The invariant -/

section Invariant

variable {A V : Type} [Fintype A]

/-- The requests that have not been answered. -/
def Store.all (s : Store A V) : List (Request A) := s.requests ++ s.current.toList

/-- The invariant. -/
structure Inv (cfg : StoreConfig) (ssd : PageId 1 → Nat → V) (s : Store A V) : Prop where
  fetching : Fetching cfg.cache s.cache
  store : s.cache.ssd = ssd
  fits : ∀ r ∈ s.all, r.Fits cfg
  nodup : (s.all.flatMap Request.ctxs).Nodup
  /-- a context in use is that of a row, whose page it wants -/
  owned : ∀ a c, (s.cache.pc a).fetches = some c →
    ∃ r ∈ s.all, ∃ k, r.ctxs[k]? = some a ∧ c = r.call cfg k
  registered : ∀ r ∈ s.requests, ∀ a ∈ r.ctxs, Returned (s.cache.pc a) = true
  unready : ∀ r ∈ s.current, r.ready = false
  ready : ∀ r ∈ s.requests, r.ready = true → ∀ a ∈ r.ctxs, IsHit (s.cache.pc a) = true
  /-- the table has the contexts of the commands in flight -/
  lookup : ∀ r ∈ s.requests, ∀ a ∈ r.ctxs, ∀ c x, s.cache.pc a = .submitted c x →
    x.hasPendingIo = true → s.lookup (lookupSlot x.queue x.cid) = some a
  nextId : 0 < s.nextId
  order : s.results.map (fun e => e.1.id) ++ s.all.map Request.id = List.range' 1 (s.nextId - 1)
  results : ∀ e ∈ s.results, e.1.Fits cfg ∧
    e.2 = (List.range e.1.numIndex).map fun k => some (e.1.row cfg ssd k)

variable {cfg : StoreConfig} {ssd : PageId 1 → Nat → V} {s s' : Store A V}

theorem returned_iff {k : Pc 1} : Returned k = true ↔ ∃ c x, k = .submitted c x := by
  constructor
  · intro h
    unfold Returned at h
    split at h
    · exact ⟨_, _, rfl⟩
    · cases h
  · rintro ⟨c, x, rfl⟩
    rfl

theorem isHit_iff {k : Pc 1} : IsHit k = true ↔ ∃ c x, k = .submitted c x ∧ x.isHit = true := by
  constructor
  · intro h
    unfold IsHit at h
    split at h
    · exact ⟨_, _, rfl, h⟩
    · cases h
  · rintro ⟨c, x, rfl, h⟩
    exact h

namespace Inv

/-- A store that nobody has used. -/
theorem init (h : Init ssd s) : Inv cfg ssd s := by
  have hall : s.all = [] := by rw [Store.all, h.requests, h.current]; rfl
  refine ⟨.init h.cache, h.ssd, ?_, ?_, ?_, ?_, ?_, ?_, ?_, ?_, ?_, ?_⟩
  · rw [hall]
    exact fun r hr => (List.not_mem_nil hr).elim
  · rw [hall]
    exact List.nodup_nil
  · intro a c hc
    rw [h.cache.pc a] at hc
    cases hc
  · rw [h.requests]
    exact fun r hr => (List.not_mem_nil hr).elim
  · rw [h.current]
    exact fun r hr => (Option.not_mem_none r hr).elim
  · rw [h.requests]
    exact fun r hr => (List.not_mem_nil hr).elim
  · rw [h.requests]
    exact fun r hr => (List.not_mem_nil hr).elim
  · rw [h.nextId]
    exact Nat.one_pos
  · rw [h.results, hall, h.nextId]
    rfl
  · rw [h.results]
    exact fun e he => (List.not_mem_nil he).elim

/-- A context is that of one row of one request. -/
theorem row_unique (h : Inv cfg ssd s) {r r' : Request A} (hr : r ∈ s.all) (hr' : r' ∈ s.all)
    {k k' : Nat} {a : A} (hk : r.ctxs[k]? = some a) (hk' : r'.ctxs[k']? = some a) :
    r = r' ∧ k = k' := by
  obtain ⟨hnd, hdisj⟩ := List.nodup_flatMap.mp h.nodup
  have hsymm : Std.Symm (Function.onFun List.Disjoint (Request.ctxs (A := A))) :=
    ⟨fun _ _ hab => hab.symm⟩
  obtain rfl : r = r' := by
    by_contra hne
    exact hdisj.forall hr hr' hne (List.mem_of_getElem? hk) (List.mem_of_getElem? hk')
  have hlt : k < r.ctxs.length := (List.getElem?_eq_some_iff.mp hk).1
  exact ⟨rfl, (List.getElem?_inj hlt (hnd r hr)).mp (hk.trans hk'.symm)⟩

/-- Between submits no warp is running. -/
theorem still (h : Inv cfg ssd s) (hcur : s.current = none) (a : A) :
    s.cache.pc a = .idle ∨ ∃ c x, s.cache.pc a = .submitted c x := by
  obtain hidle | ⟨c, -, hr⟩ := h.fetching.reads a
  · exact .inl hidle
  · refine .inr ?_
    have hfetch : (s.cache.pc a).fetches = some c := by
      unfold Reads at hr
      split at hr
      · rename_i hpc
        rw [hpc, ← hr.1]
        rfl
      · rename_i hpc
        rw [hpc, ← hr.1]
        rfl
      · exact hr.elim
    obtain ⟨r, hr, k, hk, -⟩ := h.owned a c hfetch
    rw [Store.all, hcur, Option.toList_none, List.append_nil] at hr
    exact returned_iff.mp (h.registered r hr a (List.mem_of_getElem? hk))

/-- A step of the cache that leaves the contexts of the registered requests alone. -/
theorem of_cache (h : Inv cfg ssd s) {t : St 1 A V} (hf : Fetching cfg.cache t)
    (hssd : t.ssd = s.cache.ssd)
    (hpc : ∀ a, Returned (s.cache.pc a) = true → t.pc a = s.cache.pc a)
    (howned : ∀ a c, (t.pc a).fetches = some c →
      ∃ r ∈ s.all, ∃ k, r.ctxs[k]? = some a ∧ c = r.call cfg k) :
    Inv cfg ssd { s with cache := t } :=
  { h with
    fetching := hf
    store := hssd.trans h.store
    owned := howned
    registered := fun r hr a ha => by
      show Returned (t.pc a) = true
      rw [hpc a (h.registered r hr a ha)]
      exact h.registered r hr a ha
    ready := fun r hr hready a ha => by
      show IsHit (t.pc a) = true
      rw [hpc a (h.registered r hr a ha)]
      exact h.ready r hr hready a ha
    lookup := fun r hr a ha c x hx hpend => by
      have hx : t.pc a = .submitted c x := hx
      rw [hpc a (h.registered r hr a ha)] at hx
      exact h.lookup r hr a ha c x hx hpend }

/-- Contexts with commands in flight have entries of their own. -/
theorem lookupSlot_inj (h : Inv cfg ssd s) {a b : A} {c d : Call 1} {x y : Ctx}
    (ha : s.cache.pc a = .submitted c x) (hb : s.cache.pc b = .submitted d y)
    (hx : x.hasPendingIo = true) (hy : y.hasPendingIo = true)
    (hslot : lookupSlot x.queue x.cid = lookupSlot y.queue y.cid) : a = b := by
  obtain ⟨-, hctrlX, hcidX⟩ := (h.fetching.submitted ha).2 hx
  obtain ⟨-, hctrlY, hcidY⟩ := (h.fetching.submitted hb).2 hy
  rw [cfg.oneCtrl] at hctrlX hctrlY
  simp only [lookupSlot, cidCapacity] at hslot
  exact h.fetching.pending_unique ha hb hx hy (by omega) (by omega) (by omega)

/-- A submit; the memory of its contexts is not in use. -/
theorem submit (h : Inv cfg ssd s) (hcur : s.current = none) {ctxs : List A} (hnd : ctxs.Nodup)
    (hidle : ∀ a ∈ ctxs, s.cache.pc a = .idle) {rows : Nat → Nat} {dim cacheDim : Nat}
    (hfits : Request.Fits cfg ⟨s.nextId, ctxs, rows, dim, cacheDim, false⟩) :
    Inv cfg ssd { s with
      current := some ⟨s.nextId, ctxs, rows, dim, cacheDim, false⟩
      nextId := s.nextId + 1 } := by
  have hall : s.all = s.requests := by rw [Store.all, hcur]; exact List.append_nil _
  have hmem {r : Request A} (hr : r ∈ s.all) : r ∈ s.requests ++
      (some (⟨s.nextId, ctxs, rows, dim, cacheDim, false⟩ : Request A)).toList :=
    List.mem_append_left _ (hall ▸ hr)
  exact
    { h with
      fits := fun r hr => by
        rcases List.mem_append.mp hr with hr | hr
        · exact h.fits r (hall ▸ hr)
        · rw [List.mem_singleton.mp hr]
          exact hfits
      nodup := by
        show ((s.requests ++ [_]).flatMap Request.ctxs).Nodup
        rw [List.flatMap_append, List.flatMap_singleton, List.nodup_append]
        refine ⟨hall ▸ h.nodup, hnd, fun a ha b hb hab => ?_⟩
        -- contexts of registered requests are in use
        obtain ⟨r, hr, ha⟩ := List.mem_flatMap.mp ha
        have hret := h.registered r hr a ha
        rw [hab, hidle b hb] at hret
        cases hret
      owned := fun a c hc => by
        obtain ⟨r, hr, hk⟩ := h.owned a c hc
        exact ⟨r, hmem hr, hk⟩
      unready := fun r hr => Option.some.inj hr ▸ rfl
      nextId := Nat.succ_pos _
      order := by
        show s.results.map _ ++ (s.requests ++ [_]).map Request.id = List.range' 1 s.nextId
        have horder := h.order
        have hpos := h.nextId
        rw [hall] at horder
        rw [List.map_append, ← List.append_assoc, horder]
        obtain ⟨n, hn⟩ : ∃ n, s.nextId = n + 1 := ⟨s.nextId - 1, by omega⟩
        simp only [hn, Nat.add_sub_cancel, List.range'_concat, List.map_cons, List.map_nil,
          Nat.one_mul, Nat.add_comm 1] }

/-- What the get reads for a row of a request that is ready. -/
theorem readRow_ready (h : Inv cfg ssd s) {r : Request A} (hr : r ∈ s.requests)
    (hready : r.ready = true) {k : Nat} (hk : k < r.numIndex) :
    readRow cfg s.cache r k = some (r.row cfg ssd k) := by
  have hctx : r.ctxs[k]? = some (r.ctxs[k]) := List.getElem?_eq_getElem hk
  generalize r.ctxs[k] = a at hctx
  obtain ⟨c, x, hpc, hit⟩ := isHit_iff.mp (h.ready r hr hready a (List.mem_of_getElem? hctx))
  have hall : r ∈ s.all := List.mem_append_left _ hr
  obtain ⟨r', hr', k', hk', rfl⟩ := h.owned a c (by rw [hpc]; rfl)
  obtain ⟨rfl, rfl⟩ := h.row_unique hall hr' hctx hk'
  have hholds := holds_of_hit h.fetching hpc hit
  have hdata := h.fetching.valid _ hholds.valid
  rw [hholds.offset, h.store] at hdata
  have hpage := (h.fits r hall k hk).page
  -- the context is that of row `k`, so the slot has the page of the row
  rw [readRow, hctx]
  simp only [Option.bind_eq_bind, Option.bind_some, hpc, if_neg (Nat.not_le.mpr hholds.slot)]
  refine congrArg some (List.map_congr_left fun tid htid => ?_)
  have htid := List.mem_range.mp htid
  -- element `tid` of the row is in the page that the row begins in
  have hdiv := Nat.div_add_mod (r.base k) cfg.elems
  have hlt : r.base k % cfg.elems + tid < cfg.elems := by omega
  have hsum : r.base k + tid =
      cfg.elems * (r.base k / cfg.elems) + (r.base k % cfg.elems + tid) := by
    omega
  have hquot : (r.base k + tid) / cfg.elems = r.base k / cfg.elems := by
    rw [hsum, Nat.mul_add_div (by omega), Nat.div_eq_of_lt hlt, Nat.add_zero]
  have hrem : (r.base k + tid) % cfg.elems =
      r.base k + tid - cfg.elems * (r.base k / cfg.elems) := by
    rw [hsum, Nat.mul_add_mod, Nat.mod_eq_of_lt hlt, Nat.add_sub_cancel_left]
  rw [elements, hquot, hrem]
  exact congrFun hdata _

/-- Contexts of registered requests that take up slots. -/
theorem of_refreshed (h : Inv cfg ssd s) {t : St 1 A V} (hf : Fetching cfg.cache t)
    (hssd : t.ssd = s.cache.ssd) (hpc : ∀ a, Refreshed (s.cache.pc a) (t.pc a)) :
    Inv cfg ssd { s with cache := t } :=
  { h with
    fetching := hf
    store := hssd.trans h.store
    owned := fun a c hc => by
      have hc : (t.pc a).fetches = some c := hc
      refine h.owned a c ?_
      obtain heq | ⟨d, x, i, heq, -, heq'⟩ := hpc a
      · rwa [heq] at hc
      · rw [heq'] at hc
        rw [heq]
        exact hc
    registered := fun r hr a ha => by
      show Returned (t.pc a) = true
      obtain heq | ⟨d, x, i, -, -, heq⟩ := hpc a
      · rw [heq]
        exact h.registered r hr a ha
      · rw [heq]
        rfl
    ready := fun r hr hready a ha => by
      show IsHit (t.pc a) = true
      obtain heq | ⟨d, x, i, -, -, heq⟩ := hpc a
      · rw [heq]
        exact h.ready r hr hready a ha
      · rw [heq]
        rfl
    lookup := fun r hr a ha c x hx hpend => by
      have hx : t.pc a = .submitted c x := hx
      obtain heq | ⟨d, y, i, -, hno, heq⟩ := hpc a
      · exact h.lookup r hr a ha c x (heq ▸ hx) hpend
      · rw [heq] at hx
        cases hx
        exact Bool.noConfusion (hno.symm.trans hpend) }

/-- The mark of a request whose contexts are all hit. -/
theorem markReady (h : Inv cfg ssd s) {r : Request A} {offset : Nat}
    (hr : s.requests[offset]? = some r) (hit : ∀ a ∈ r.ctxs, IsHit (s.cache.pc a) = true) :
    Inv cfg ssd { s with requests := s.requests.set offset { r with ready := true } } := by
  have hin : r ∈ s.requests := List.mem_of_getElem? hr
  have hmem {r' : Request A} (hr' : r' ∈ s.requests.set offset { r with ready := true }) :
      r' = { r with ready := true } ∨ r' ∈ s.requests := (List.mem_or_eq_of_mem_set hr').symm
  have hmap {β : Type} (f : Request A → β) (hf : f { r with ready := true } = f r) :
      (s.requests.set offset { r with ready := true }).map f = s.requests.map f := by
    obtain ⟨hlt, rfl⟩ := List.getElem?_eq_some_iff.mp hr
    rw [List.map_set, hf, ← List.getElem_map f (h := by rwa [List.length_map]),
      List.set_getElem_self]
  have hsplit {P : Request A → Prop} (hnew : P r → P { r with ready := true })
      (hold : ∀ r' ∈ s.requests, P r') :
      ∀ r' ∈ s.requests.set offset { r with ready := true }, P r' := by
    intro r' hr'
    rcases hmem hr' with rfl | hr'
    · exact hnew (hold r hin)
    · exact hold r' hr'
  exact
    { h with
      fits := fun r' hr' => by
        rcases List.mem_append.mp hr' with hr' | hr'
        · exact hsplit (P := Request.Fits cfg)
            (fun hfit k hk => ⟨(hfit k hk).base, (hfit k hk).range, (hfit k hk).page⟩)
            (fun r' hr' => h.fits r' (List.mem_append_left _ hr')) r' hr'
        · exact h.fits r' (List.mem_append_right _ hr')
      nodup := by
        show ((s.requests.set offset _ ++ s.current.toList).flatMap Request.ctxs).Nodup
        rw [List.flatMap_def, List.map_append, hmap Request.ctxs rfl, ← List.map_append,
          ← List.flatMap_def]
        exact h.nodup
      owned := fun a c hc => by
        obtain ⟨r', hr', k, hk, hcall⟩ := h.owned a c hc
        rcases List.mem_append.mp hr' with hr' | hr'
        · have hpair : (r'.ctxs, fun k => r'.call cfg k) ∈
              (s.requests.set offset { r with ready := true }).map
                fun r => (r.ctxs, fun k => r.call cfg k) := by
            rw [hmap _ rfl]
            exact List.mem_map_of_mem hr'
          obtain ⟨r'', hr'', heq⟩ := List.mem_map.mp hpair
          obtain ⟨hctxs, hcalls⟩ := Prod.mk.inj heq
          refine ⟨r'', List.mem_append_left _ hr'', k, hctxs ▸ hk, ?_⟩
          rw [hcall]
          exact (congrFun hcalls k).symm
        · exact ⟨r', List.mem_append_right _ hr', k, hk, hcall⟩
      registered := hsplit (fun hold => hold) h.registered
      ready := fun r' hr' hready => by
        rcases hmem hr' with rfl | hr'
        · exact hit
        · exact h.ready r' hr' hready
      lookup := hsplit (fun hold => hold) h.lookup
      order := by
        show s.results.map _ ++ (s.requests.set offset _ ++ s.current.toList).map Request.id = _
        rw [List.map_append, hmap Request.id rfl, ← List.map_append]
        exact h.order }

end Inv

/-! ### The lookup kernel -/

/-- A thread of the lookup kernel enters its context, if it has a command in flight. -/
theorem registerRow_cases {A V : Type} (s : St 1 A V) (lookup : Nat → Option A) (a : A) :
    registerRow s lookup a = lookup ∨ ∃ c x, s.pc a = .submitted c x ∧ x.hasPendingIo = true ∧
      registerRow s lookup a = update lookup (lookupSlot x.queue x.cid) (some a) := by
  unfold registerRow
  split
  · rename_i c x ha
    split
    · exact .inl rfl
    · rename_i hpend
      refine .inr ⟨c, x, ha, ?_, rfl⟩
      by_contra hno
      simp [hno] at hpend
  · exact .inl rfl

/-- A context with a command in flight is entered. -/
theorem registerRow_entry {A V : Type} {s : St 1 A V} (lookup : Nat → Option A) {a : A}
    {c : Call 1} {x : Ctx} (ha : s.pc a = .submitted c x) (hpend : x.hasPendingIo = true)
    (hit : x.isHit = false) (hcid : x.cid < cidCapacity) :
    registerRow s lookup a (lookupSlot x.queue x.cid) = some a := by
  have hle : ¬ cidCapacity ≤ x.cid := Nat.not_le.mpr hcid
  simp only [registerRow, ha, hit, hpend, decide_eq_false hle, Bool.not_true, Bool.or_self,
    Bool.false_eq_true, if_false]
  exact Function.update_self ..

namespace Inv

/-- The lookup kernel enters the contexts with commands in flight and overwrites none. -/
theorem registerRows (h : Inv cfg ssd s) {b : A} {d : Call 1} {y : Ctx}
    (hb : s.cache.pc b = .submitted d y) (hy : y.hasPendingIo = true) (ctxs : List A)
    (lookup : Nat → Option A)
    (hin : b ∈ ctxs ∨ lookup (lookupSlot y.queue y.cid) = some b) :
    (ctxs.foldl (registerRow s.cache) lookup) (lookupSlot y.queue y.cid) = some b := by
  obtain ⟨hit, -, hcid⟩ := (h.fetching.submitted hb).2 hy
  induction ctxs generalizing lookup with
  | nil =>
    rcases hin with hin | hin
    · exact (List.not_mem_nil hin).elim
    · exact hin
  | cons a ctxs ih =>
    refine ih _ ?_
    rcases hin with hin | hin
    · rcases List.mem_cons.mp hin with rfl | hin
      · exact .inr (registerRow_entry lookup hb hy hit hcid)
      · exact .inl hin
    · -- only `b` itself can be entered where `b` is
      refine .inr ?_
      obtain heq | ⟨c, x, ha, hx, heq⟩ := registerRow_cases s.cache lookup a
      · rw [heq]
        exact hin
      · rw [heq]
        by_cases hslot : lookupSlot x.queue x.cid = lookupSlot y.queue y.cid
        · rw [hslot, Function.update_self, h.lookupSlot_inj ha hb hx hy hslot]
        · rw [Function.update_of_ne (Ne.symm hslot)]
          exact hin

/-- The lookup kernel, after which the request is outstanding. -/
theorem register (h : Inv cfg ssd s) (hstep : s.register cfg = some s') : Inv cfg ssd s' := by
  rw [Store.register] at hstep
  obtain ⟨r, hcur, hstep⟩ := Option.bind_eq_some_iff.mp hstep
  obtain ⟨hall, hstep⟩ := Option.ite_none_right_eq_some.mp hstep
  obtain rfl := Option.some.inj hstep
  have hlist : Store.all { s with
      lookup := r.ctxs.foldl (registerRow s.cache) s.lookup
      requests := s.requests ++ [r]
      current := none } = s.all := by
    rw [Store.all, Store.all, hcur]
    exact List.append_nil _
  have hr : r ∈ s.all := List.mem_append_right _ (hcur ▸ List.mem_cons_self)
  have hret : ∀ a ∈ r.ctxs, Returned (s.cache.pc a) = true := by
    intro a ha
    obtain ⟨k, hk⟩ := List.getElem?_of_mem ha
    have hlt : k < r.numIndex := (List.getElem?_eq_some_iff.mp hk).1
    exact hall k hlt (h.fits r hr k hlt).base a hk
  have hsplit {P : Request A → Prop} (hold : ∀ r' ∈ s.requests, P r') (hnew : P r) :
      ∀ r' ∈ s.requests ++ [r], P r' := by
    intro r' hr'
    rcases List.mem_append.mp hr' with hr' | hr'
    · exact hold r' hr'
    · exact List.mem_singleton.mp hr' ▸ hnew
  exact
    { h with
      fits := fun r' hr' => h.fits r' (hlist ▸ hr')
      nodup := hlist ▸ h.nodup
      owned := fun a c hc => hlist ▸ h.owned a c hc
      registered := hsplit h.registered hret
      unready := fun r' hr' => (Option.not_mem_none r' hr').elim
      ready := hsplit h.ready fun hready =>
        Bool.noConfusion ((h.unready r hcur).symm.trans hready)
      lookup := hsplit
        (fun r' hr' a ha c x hx hpend =>
          h.registerRows hx hpend r.ctxs s.lookup (.inr (h.lookup r' hr' a ha c x hx hpend)))
        (fun a ha c x hx hpend => h.registerRows hx hpend r.ctxs s.lookup (.inl ha))
      order := by
        rw [hlist]
        exact h.order }

end Inv

end Invariant

/-! ## Every step keeps it -/

section Steps

variable {A V : Type} [DecidableEq A] [Fintype A] {cfg : StoreConfig} {ssd : PageId 1 → Nat → V}
  {s s' : Store A V}

namespace Inv

/-- A warp begins. -/
theorem start (h : Inv cfg ssd s) {k queue : Nat} (hstep : s.start cfg k queue = some s') :
    Inv cfg ssd s' := by
  rw [Store.start] at hstep
  obtain ⟨r, hcur, hstep⟩ := Option.bind_eq_some_iff.mp hstep
  obtain ⟨a, ha, hstep⟩ := Option.bind_eq_some_iff.mp hstep
  obtain ⟨-, hstep⟩ := Option.ite_none_right_eq_some.mp hstep
  obtain ⟨t, ht, rfl⟩ := Option.map_eq_some_iff.mp hstep
  have hf := h.fetching.start rfl ht
  simp only [PageCache.step] at ht
  split at ht <;> rename_i hpc <;> cases ht
  refine h.of_cache hf rfl (fun b hb => goto_pc_ne _ _ ?_ _) fun b c hc => ?_
  · rintro rfl
    rw [hpc] at hb
    cases hb
  · by_cases hba : b = a
    · subst hba
      rw [goto_pc_self] at hc
      refine ⟨r, List.mem_append_right _ ?_, k, ha, (Option.some.inj hc).symm⟩
      rw [hcur]
      exact List.mem_cons_self
    · rw [goto_pc_ne _ _ hba] at hc
      exact h.owned b c hc

/-- A step of a warp. -/
theorem run (h : Inv cfg ssd s) {a : A} (hadd : AddsFit s.cache (.run a))
    (hstep : s.cacheStep cfg (.run a) = some s') : Inv cfg ssd s' := by
  obtain ⟨t, ht, rfl⟩ := Option.map_eq_some_iff.mp hstep
  obtain hidle | ⟨c, hw, hr⟩ := h.fetching.reads a
  · simp only [PageCache.step, runStep, hidle] at ht
    cases ht
  · unfold Reads at hr
    split at hr
    · rename_i d x k hpc
      have hf := h.fetching.run hpc hadd
      have hne (b : A) (hb : b ≠ a) :=
        runStep_pc_ne (show runStep cfg.cache s.cache a = some t from ht) hb
      simp only [PageCache.step, runStep, hpc] at ht
      cases ht
      refine h.of_cache hf (submitStep_ssd hr.2.1) (fun b hb => hne b ?_) fun b e he => ?_
      · rintro rfl
        rw [hpc] at hb
        cases hb
      · by_cases hba : b = a
        · rw [hba, submitStep_fetches] at he
          exact h.owned b e (by rw [hba, hpc]; exact he)
        · rw [hne b hba] at he
          exact h.owned b e he
    · rename_i d x hpc
      simp only [PageCache.step, runStep, hpc] at ht
      cases ht
    · exact hr.elim

/-- A compare-and-swap that fails although it need not. -/
theorem spurious (h : Inv cfg ssd s) {a : A} (hstep : s.cacheStep cfg (.spurious a) = some s') :
    Inv cfg ssd s' := by
  obtain ⟨t, ht, rfl⟩ := Option.map_eq_some_iff.mp hstep
  have hf := h.fetching.spurious ht
  have hgoes {c : Call 1} {x : Ctx} {k : FindPc 1} (hpc : s.cache.pc a = .submit c x (.find k))
      (heq : t = s.cache.goto a (.submit c x (.find .ticket))) :
      Inv cfg ssd { s with cache := t } := by
    subst heq
    refine h.of_cache hf rfl (fun b hb => goto_pc_ne _ _ ?_ _) fun b c hc => ?_
    · rintro rfl
      rw [hpc] at hb
      cases hb
    · by_cases hba : b = a
      · subst hba
        rw [goto_pc_self] at hc
        exact h.owned b c (by rw [hpc]; exact hc)
      · rw [goto_pc_ne _ _ hba] at hc
        exact h.owned b c hc
  simp only [PageCache.step] at ht
  split at ht
  · rename_i hpc
    obtain hidle | ⟨e, -, hr⟩ := h.fetching.reads a
    · rw [hpc] at hidle
      cases hidle
    · rw [hpc] at hr
      exact hr.elim
  · rename_i c x k hpc
    cases k <;> cases ht <;> exact hgoes hpc rfl
  · cases ht

/-- The controller completes a command. -/
theorem post (h : Inv cfg ssd s) {queue n : Nat}
    (hstep : s.cacheStep cfg (.post 0 queue n) = some s') : Inv cfg ssd s' := by
  obtain ⟨t, ht, rfl⟩ := Option.map_eq_some_iff.mp hstep
  have hf := h.fetching.post ht
  simp only [PageCache.step, postStep] at ht
  split at ht <;> cases ht
  exact h.of_cache hf rfl (fun _ _ => rfl) h.owned

/-! ### Service, ready checks and gets -/

/-- A completion is served: its context has an entry, and is hit afterwards. -/
theorem serve (h : Inv cfg ssd s) (hcur : s.current = none) {l : Nat}
    (hstep : s.serve l = some s') : Inv cfg ssd s' := by
  rw [Store.serve] at hstep
  split at hstep
  case h_1 => cases hstep
  case h_2 cmd rest hcq =>
    have hmem : cmd ∈ (s.cache.qps 0 l).inFlight :=
      List.mem_append_right _ (hcq ▸ List.mem_cons_self)
    obtain ⟨c, x, hsent⟩ := h.fetching.sent 0 l cmd hmem
    have hall : s.all = s.requests := by rw [Store.all, hcur]; exact List.append_nil _
    obtain ⟨r, hr, k, hk, -⟩ := h.owned cmd.owner c (by rw [hsent.pc]; rfl)
    obtain ⟨hit, -, hcid⟩ := (h.fetching.submitted hsent.pc).2 hsent.pending
    have hcmd : cmd.cid = x.cid := hsent.names.1
    -- the table has the context of the command
    have hfound : (if cmd.cid < cidCapacity then s.lookup (lookupSlot l cmd.cid) else none) =
        some cmd.owner := by
      rw [hcmd, if_pos (show x.cid < cidCapacity from hcid), ← hsent.queue]
      exact h.lookup r (hall ▸ hr) _ (List.mem_of_getElem? hk) c x hsent.pc hsent.pending
    have hstill (b : A) : (s.cache.pc b).raising = none := by
      obtain hb | ⟨d, y, hb⟩ := h.still hcur b <;> rw [hb] <;> rfl
    obtain ⟨hst, hf⟩ := h.fetching.publishFor hstill hsent hcq
    dsimp only at hstep
    rw [hfound] at hstep
    obtain rfl := Option.some.inj hstep
    rw [finalize_eq hsent hit hst]
    -- its context is hit afterwards, and the others stay as they are
    have hself : (publishFor s.cache cmd.owner c x cmd rest).pc cmd.owner =
        .submitted c { x with isHit := true, hasPendingIo := false } := goto_pc_self ..
    have hother {b : A} (hb : b ≠ cmd.owner) :
        (publishFor s.cache cmd.owner c x cmd rest).pc b = s.cache.pc b := goto_pc_ne _ _ hb _
    exact
      { h with
        fetching := hf
        store := h.store
        owned := fun a d hd => by
          have hd : ((publishFor s.cache cmd.owner c x cmd rest).pc a).fetches = some d := hd
          by_cases ha : a = cmd.owner
          · rw [ha, hself] at hd
            obtain rfl := Option.some.inj hd
            exact h.owned a c (by rw [ha, hsent.pc]; rfl)
          · rw [hother ha] at hd
            exact h.owned a d hd
        registered := fun r' hr' a ha => by
          show Returned ((publishFor s.cache cmd.owner c x cmd rest).pc a) = true
          by_cases hao : a = cmd.owner
          · rw [hao, hself]
            rfl
          · rw [hother hao]
            exact h.registered r' hr' a ha
        ready := fun r' hr' hready a ha => by
          show IsHit ((publishFor s.cache cmd.owner c x cmd rest).pc a) = true
          by_cases hao : a = cmd.owner
          · rw [hao, hself]
            rfl
          · rw [hother hao]
            exact h.ready r' hr' hready a ha
        lookup := fun r' hr' a ha d y hy hpend => by
          have hy : (publishFor s.cache cmd.owner c x cmd rest).pc a = .submitted d y := hy
          have hao : a ≠ cmd.owner := by
            rintro rfl
            rw [hself] at hy
            cases hy
            cases hpend
          rw [hother hao] at hy
          have hold := h.lookup r' hr' a ha d y hy hpend
          show update s.lookup (lookupSlot l cmd.cid) none (lookupSlot y.queue y.cid) = some a
          rw [Function.update_of_ne]
          · exact hold
          · -- two contexts in one entry would be the same
            intro hslot
            rw [if_pos (show cmd.cid < cidCapacity from hcmd ▸ hcid), ← hslot, hold] at hfound
            exact hao (Option.some.inj hfound) }

/-- A ready check. -/
theorem check (h : Inv cfg ssd s) {offset : Nat} (hstep : s.check cfg offset = some s') :
    Inv cfg ssd s' := by
  rw [Store.check] at hstep
  obtain ⟨r, hr, hstep⟩ := Option.bind_eq_some_iff.mp hstep
  split at hstep
  case isTrue => exact Option.some.inj hstep ▸ h
  case isFalse =>
    obtain ⟨hf, hssd, hpc⟩ := refreshAll_fetching h.fetching r.ctxs
    have hnext := h.of_refreshed hf hssd hpc
    dsimp only at hstep
    split at hstep
    case isTrue hit => exact Option.some.inj hstep ▸ hnext.markReady hr hit
    case isFalse => exact Option.some.inj hstep ▸ hnext

/-- A get of the front request, which is ready. -/
theorem get (h : Inv cfg ssd s) (hcur : s.current = none) (hstep : s.get cfg = some s') :
    Inv cfg ssd s' := by
  rw [Store.get] at hstep
  split at hstep
  case h_1 => cases hstep
  case h_2 r rest hreq =>
    obtain ⟨hready, hstep⟩ := Option.ite_none_right_eq_some.mp hstep
    obtain rfl := Option.some.inj hstep
    have hr : r ∈ s.requests := hreq ▸ List.mem_cons_self
    have hall : s.all = r :: rest := by
      rw [Store.all, hcur, hreq]
      exact List.append_nil _
    have hall' : rest ++ s.current.toList = rest := by
      rw [hcur]
      exact List.append_nil _
    have hnodup := h.nodup
    rw [hall, List.flatMap_cons, List.nodup_append] at hnodup
    obtain ⟨hnd, hndRest, hdisj⟩ := hnodup
    -- the other requests have contexts of their own
    have hout {r' : Request A} (hr' : r' ∈ rest) {a : A} (ha : a ∈ r'.ctxs) : a ∉ r.ctxs :=
      fun hin => hdisj a hin a (List.mem_flatMap.mpr ⟨r', hr', ha⟩) rfl
    have hrest {r' : Request A} (hr' : r' ∈ rest) : r' ∈ s.requests :=
      hreq ▸ List.mem_cons_of_mem _ hr'
    obtain ⟨hf, hssd, hidle, hother⟩ :=
      freeAll_fetching h.fetching hnd (h.ready r hr hready)
    generalize r.ctxs.foldl (freeRow cfg) s.cache = t at hf hssd hidle hother
    exact
      { fetching := hf
        store := hssd.trans h.store
        fits := fun r' hr' => h.fits r' (hall ▸ List.mem_cons_of_mem _ (hall' ▸ hr'))
        nodup := by
          show ((rest ++ s.current.toList).flatMap Request.ctxs).Nodup
          rw [hall']
          exact hndRest
        owned := fun a c hc => by
          have hc : (t.pc a).fetches = some c := hc
          have ha : a ∉ r.ctxs := by
            intro ha
            rw [hidle a ha] at hc
            cases hc
          rw [hother a ha] at hc
          obtain ⟨r', hr', k, hk, hcall⟩ := h.owned a c hc
          rw [hall] at hr'
          rcases List.mem_cons.mp hr' with rfl | hr'
          · exact absurd (List.mem_of_getElem? hk) ha
          · exact ⟨r', List.mem_append_left _ hr', k, hk, hcall⟩
        registered := fun r' hr' a ha => by
          show Returned (t.pc a) = true
          rw [hother a (hout hr' ha)]
          exact h.registered r' (hrest hr') a ha
        unready := h.unready
        ready := fun r' hr' hready' a ha => by
          show IsHit (t.pc a) = true
          rw [hother a (hout hr' ha)]
          exact h.ready r' (hrest hr') hready' a ha
        lookup := fun r' hr' a ha c x hx hpend => by
          have hx : t.pc a = .submitted c x := hx
          rw [hother a (hout hr' ha)] at hx
          exact h.lookup r' (hrest hr') a ha c x hx hpend
        nextId := h.nextId
        order := by
          show (s.results ++ [_]).map _ ++ (rest ++ s.current.toList).map Request.id = _
          have horder := h.order
          rw [hall] at horder
          rw [hall', ← horder, List.map_append, List.append_assoc]
          rfl
        results := fun e he => by
          rcases List.mem_append.mp he with he | he
          · exact h.results e he
          · rw [List.mem_singleton.mp he]
            refine ⟨h.fits r (hall ▸ List.mem_cons_self), List.map_congr_left fun k hk => ?_⟩
            exact h.readRow_ready hr hready (List.mem_range.mp hk) }

end Inv

end Steps

end GidsStack.Rowctx
