/-
  GidsStack.Driver.Calls

  Each call of the kernel module, from a state in order: it ends, follows no NULL pointer, leaves
  a state in order, and does and returns what the registry says (`Inv.call`).
-/

import GidsStack.Driver.Registry

namespace GidsStack.Driver

namespace Inv

variable {s : Module} {xs : ListId → List Nat} {us : List Nat} {e : Nat}

theorem registry (h : Inv s xs us) : s.registry = some (s.registryOf xs) := by
  rw [Module.registry, h.ctrlElems, (h.lists.isList .host).elems (h.room .host),
    (h.lists.isList .device).elems (h.room .device)]
  rfl

/-! ## Map requests -/

theorem dmaMapLoop_mapped (dma : Nat → Nat) (n i : Nat) :
    ∀ a ∈ (Module.dmaMapLoop dma n i).mapped, a ≠ dmaMappingError := by
  induction n generalizing i with
  | zero => exact fun a ha => absurd ha List.not_mem_nil
  | succ n ih =>
    intro a ha
    rw [Module.dmaMapLoop] at ha
    split at ha
    · exact absurd ha List.not_mem_nil
    · rename_i hok
      rcases List.mem_cons.mp ha with rfl | ha
      · exact hok
      · exact ih (i + 1) a ha

theorem dmaMapLoop_ok {dma : Nat → Nat} {n i : Nat}
    (h : dmaMappingError ∉ (List.range' i n).map dma) :
    Module.dmaMapLoop dma n i =
      ⟨(List.range' i n).map dma, (List.range' i n).map dma, none⟩ := by
  induction n generalizing i with
  | zero => rfl
  | succ n ih =>
    rw [List.range'_succ, List.map_cons, List.mem_cons, not_or] at h
    rw [Module.dmaMapLoop, if_neg (Ne.symm h.1), ih h.2]
    rfl

/-- A failure ends the loop, and the address that says so stays in the array. -/
theorem dmaMapLoop_error {dma : Nat → Nat} {n i : Nat}
    (h : dmaMappingError ∈ (List.range' i n).map dma) :
    (Module.dmaMapLoop dma n i).error = some .nomem ∧
      dmaMappingError ∈ (Module.dmaMapLoop dma n i).addrs := by
  induction n generalizing i with
  | zero => exact absurd h List.not_mem_nil
  | succ n ih =>
    rw [Module.dmaMapLoop]
    by_cases herr : dma i = dmaMappingError
    · rw [if_pos herr]
      exact ⟨rfl, herr ▸ List.mem_cons_self⟩
    · rw [List.range'_succ, List.map_cons, List.mem_cons, or_iff_right (Ne.symm herr)] at h
      rw [if_neg herr]
      exact ⟨(ih h).1, List.mem_cons_of_mem _ (ih h).2⟩

/-- `map_user_pages` for a new descriptor. -/
theorem mapUserPages (h : Inv s xs [e]) (hd : s.Dirty) {map : Map} (hm : s.maps e = some map)
    (hdata : map.data = .null) {n : Nat} (haddrs : map.addrs = List.replicate n 0)
    (o : UserOutcome) :
    ∃ s' map', (s.mapUserPages e map o).1 = s' ∧ Inv s' xs [e] ∧ s'.maps e = some map' ∧
      (∀ a, a ≠ e → s'.maps a = s.maps a) ∧ s'.maxNumCtrls = s.maxNumCtrls ∧
      map'.owner = map.owner ∧ map'.vaddr = map.vaddr ∧ (∀ t ms, map'.data ≠ .gpuRegion t ms) ∧
      (s'.Dirty ∨ ∃ r ∈ map'.resources (s'.pdevsOf (xs .ctrl)), r ∉ s'.held) ∧
      match (s.mapUserPages e map o).2 with
      | none => o.pages n = .ok map'.addrs ∧ s'.Dirty
      | some err => o.pages n = .error err := by
  have hnull : ∀ t ms, map.data ≠ .gpuRegion t ms := fun t ms heq => by
    rw [hdata] at heq
    cases heq
  rw [Module.mapUserPages, UserOutcome.pages]
  by_cases harray : o.array = false
  · rw [if_pos harray, if_pos harray]
    exact ⟨s, map, rfl, h, hm, fun _ _ => rfl, rfl, rfl, rfl, hnull, .inl hd, rfl⟩
  rw [if_neg harray, if_neg harray]
  cases hpin : o.pinned with
  | error err => exact ⟨s, map, rfl, h, hm, fun _ _ => rfl, rfl, rfl, rfl, hnull, .inl hd, rfl⟩
  | ok pages =>
    by_cases hnil : pages = []
    · simp only [hnil, if_true]
      exact ⟨s, map, rfl, h, hm, fun _ _ => rfl, rfl, rfl, rfl, hnull, .inl hd,
        congrArg Except.ok haddrs.symm, hd⟩
    · simp only [hnil, if_false]
      set r := Module.dmaMapLoop o.dma pages.length 0 with hr
      set map' : Map := { map with pageSize := 4096, data := .userPages pages, addrs := r.addrs }
        with hmap'
      have hrange : List.range' 0 pages.length = List.range pages.length :=
        List.range_eq_range'.symm
      have hold : map.resources (s.pdevsOf (xs .ctrl)) = [] := by rw [Map.resources, hdata]
      have hms : ∀ t ms, map'.data = .gpuRegion t ms → ms.length ≤ (xs .ctrl).length :=
        fun t ms heq => by cases heq
      have hnew : ∀ d, Resource.dma d dmaMappingError ∉
          pages.map Resource.userPage ++ r.mapped.map (Resource.dma map.pdev) := by
        intro d hmem
        rcases List.mem_append.mp hmem with hmem | hmem
        · obtain ⟨_, -, heq⟩ := List.mem_map.mp hmem
          cases heq
        · obtain ⟨a, ha, heq⟩ := List.mem_map.mp hmem
          injection heq with _ haddr
          exact dmaMapLoop_mapped _ _ _ a ha haddr
      have hinv := h.setMap hm hms hnew (n := r.error.toList.length) (by
        intro h0
        rw [hold, List.nil_append]
        by_cases herr : dmaMappingError ∈ (List.range' 0 pages.length).map o.dma
        · rw [hr, (dmaMapLoop_error herr).1] at h0
          exact absurd h0 (Nat.succ_ne_zero _)
        · have hmapped : r.mapped = r.addrs := by rw [hr, dmaMapLoop_ok herr]
          rw [hmapped]
          exact List.perm_append_comm)
      have hself : (s.setMap e map').maps e = some map' := Function.update_self ..
      refine ⟨_, map', rfl, hinv, hself, fun a ha => Function.update_of_ne ha .., rfl, rfl,
        rfl, fun t ms heq => (by cases heq), ?_, ?_⟩
      · -- the address of the failure was never mapped, and the descriptor has it
        by_cases herr : dmaMappingError ∈ (List.range' 0 pages.length).map o.dma
        · refine .inr ⟨.dma map.pdev dmaMappingError, ?_, hinv.books.valid _⟩
          exact List.mem_append_left _ (List.mem_map_of_mem (dmaMapLoop_error herr).2)
        · refine .inl fun hne => hd fun h0 => hne ?_
          show s.dmaErrors + r.error.toList.length = 0
          rw [h0, hr, dmaMapLoop_ok herr]
          rfl
      · by_cases herr : dmaMappingError ∈ (List.range' 0 pages.length).map o.dma
        · have herror : r.error = some .nomem := (dmaMapLoop_error herr).1
          rw [herror, if_pos (hrange ▸ herr)]
        · have hloop : r = ⟨_, _, none⟩ := dmaMapLoop_ok herr
          rw [hrange] at herr hloop
          rw [if_neg herr, hmap', hloop]
          refine ⟨rfl, fun hne => hd fun h0 => hne ?_⟩
          show s.dmaErrors + 0 = 0
          rw [h0]

/-- A call leaves the lists in order and does what the registry says. -/
def Serves (g : Registry × Reply) (r : Option (Module × Reply)) : Prop :=
  ∃ s xs, r = some (s, g.2) ∧ Inv s xs [] ∧ s.Dirty ∧ s.registryOf xs = g.1

/-- Other descriptors than those on the lists do not matter. -/
theorem registryOf_congr {s s' : Module} {xs : ListId → List Nat} {e : Nat}
    (hmaps : ∀ a, a ≠ e → s'.maps a = s.maps a) (hmax : s'.maxNumCtrls = s.maxNumCtrls)
    (he : e ∉ xs .host ++ xs .device) : s'.registryOf xs = s.registryOf xs := by
  rw [List.mem_append, not_or] at he
  rw [Module.registryOf, Module.registryOf, hmax,
    entries_congr fun a ha => hmaps a fun heq => he.1 (heq ▸ ha),
    entries_congr fun a ha => hmaps a fun heq => he.2 (heq ▸ ha)]

theorem registryOf_add {s : Module} {xs : ListId → List Nat} {e : Nat} {map : Map} {l : ListId}
    (hl : l ≠ .ctrl) (hm : s.maps e = some map) :
    s.registryOf (Function.update xs l (xs l ++ [e])) = (s.registryOf xs).add l (map.entry e) := by
  have hentry : s.entries [e] = [map.entry e] := by
    rw [Module.entries, List.filterMap_cons, hm]
    rfl
  cases l with
  | ctrl => exact absurd rfl hl
  | host =>
    rw [Module.registryOf, Function.update_self, Function.update_of_ne (by decide),
      Function.update_of_ne (by decide), entries_append, hentry]
    rfl
  | device =>
    rw [Module.registryOf, Function.update_self, Function.update_of_ne (by decide),
      Function.update_of_ne (by decide), entries_append, hentry]
    rfl

/-- The end of `map_userspace` and `map_device_memory`, and what is copied out. -/
theorem mapEnd {s2 : Module} (h : Inv s2 xs [e]) {l : ListId} (hl : l ≠ .ctrl) {map : Map}
    (hm : s2.maps e = some map) (hmaps : ∀ a, a ≠ e → s2.maps a = s.maps a)
    (hmax : s2.maxNumCtrls = s.maxNumCtrls)
    (hhost : l = .host → ∀ t ms, map.data ≠ .gpuRegion t ms)
    (hdirty : s2.Dirty ∨ ∃ r ∈ map.resources (s2.pdevsOf (xs .ctrl)), r ∉ s2.held)
    {err : Option Errno} {res : Except Errno (List Nat)}
    (hres : match err with
      | none => res = .ok map.addrs ∧ s2.Dirty
      | some err => res = .error err) (copiedOut : Bool) :
    Serves ((s.registryOf xs).map l map.owner map.vaddr copiedOut
        (res.map fun addrs => (e, addrs)))
      ((Module.mapFinish l e (s2, err)).bind (Module.copyAddrs copiedOut)) := by
  have he : e ∉ xs .host ++ xs .device := by
    have hout := (h.unlinked e List.mem_cons_self).2
    rw [List.mem_append, not_or]
    exact ⟨fun hmem => hout .host (List.mem_cons_of_mem _ hmem),
      fun hmem => hout .device (List.mem_cons_of_mem _ hmem)⟩
  cases err with
  | some err =>
    obtain rfl : res = .error err := hres
    -- what was mapped before the error is given back, and more after a failed page
    obtain ⟨held, stray, hunmap, hinv, hkeep, hstray⟩ := h.unmapUnlinked hm
    refine ⟨_, xs, ?_, hinv, fun hne => ?_, ?_⟩
    · show ((s2.unmapAndRelease e).bind _).bind _ = _
      rw [hunmap]
      rfl
    · exact hdirty.elim (fun hd => hkeep (hd hne)) hstray
    · refine registryOf_congr (fun a ha => ?_) hmax he
      exact (Function.update_of_ne ha ..).trans (hmaps a ha)
  | none =>
    obtain ⟨rfl, hd⟩ : res = .ok map.addrs ∧ s2.Dirty := hres
    obtain ⟨nodes, hn, hinv⟩ := h.link hl (fun hlh map' hm' => by
      obtain rfl := Option.some.inj (hm.symm.trans hm')
      exact hhost hlh)
    refine ⟨_, _, ?_, hinv, hd, ?_⟩
    · show ((listInsert s2.nodes l.addr e).bind _).bind _ = _
      rw [hn]
      show ((s2.maps e).bind _) = _
      rw [hm]
      rfl
    · show s2.registryOf _ = _
      rw [registryOf_add hl hm, registryOf_congr hmaps hmax he]
      rfl

/-- `NVM_MAP_HOST_MEMORY`. -/
theorem mapHost (h : Inv s xs []) (hd : s.Dirty) {o : UserOutcome}
    (hf : s.fresh o.descriptor = true) (task pdev vaddr n : Nat) (copiedOut : Bool) :
    Serves ((s.registryOf xs).map .host task (pageMask vaddr) copiedOut (o.result n))
      ((s.mapUserspace task pdev vaddr n o).bind (Module.copyAddrs copiedOut)) := by
  rw [Module.mapUserspace, UserOutcome.result]
  by_cases hn : n < 1
  · rw [if_pos hn, if_pos hn]
    exact ⟨s, xs, rfl, h, hd, rfl⟩
  rw [if_neg hn, if_neg hn]
  cases hdesc : o.descriptor with
  | none => exact ⟨s, xs, rfl, h, hd, rfl⟩
  | some e =>
    set map : Map := ⟨task, pageMask vaddr, pdev, 4096, .null, List.replicate n 0⟩ with hmap
    have hdata : map.data = .null := rfl
    have hcreate := h.create (hdesc ▸ hf) hdata task pdev (pageMask vaddr) n
    set s1 := (s.createDescriptor e task pdev (pageMask vaddr) n).setMap e map with hs1
    have hm1 : s1.maps e = some map := Function.update_self ..
    have hmaps1 : ∀ a, a ≠ e → s1.maps a = s.maps a := fun a ha =>
      (Function.update_of_ne ha ..).trans (Function.update_of_ne ha ..)
    obtain ⟨s2, map2, hs2, hinv, hm2, hmaps, hmax, howner, hvaddr, hnull, hdirty, hres⟩ :=
      hcreate.mapUserPages (show s1.Dirty from hd) hm1 rfl rfl o
    have hend := hinv.mapEnd (s := s) (l := .host) (by decide) hm2
      (fun a ha => (hmaps a ha).trans (hmaps1 a ha)) hmax (fun _ => hnull) hdirty hres copiedOut
    rw [howner, hvaddr] at hend
    have hpair : s1.mapUserPages e map o = (s2, (s1.mapUserPages e map o).2) :=
      Prod.ext hs2 rfl
    show Serves _ ((Module.mapFinish .host e (s1.mapUserPages e map o)).bind _)
    rw [hpair]
    exact hend

theorem gpuMapLoop_length (dma : Nat → Except Errno (Nat × List Nat)) (pdevs : List Nat)
    (j : Nat) : (Module.gpuMapLoop dma pdevs j).1.length ≤ pdevs.length := by
  induction pdevs generalizing j with
  | nil => exact le_rfl
  | cons d pdevs ih =>
    rw [Module.gpuMapLoop]
    cases dma j with
    | error err => exact Nat.zero_le _
    | ok m => exact Nat.succ_le_succ (ih (j + 1))

theorem gpuMapLoop_eq (dma : Nat → Except Errno (Nat × List Nat)) (pdevs : List Nat) (j : Nat) :
    match (List.range' j pdevs.length).mapM dma with
    | .ok ms => Module.gpuMapLoop dma pdevs j = (ms.map Prod.fst, none)
    | .error err => (Module.gpuMapLoop dma pdevs j).2 = some err := by
  induction pdevs generalizing j with
  | nil => rfl
  | cons d pdevs ih =>
    rw [List.length_cons, List.range'_succ, List.mapM_cons, Module.gpuMapLoop]
    cases hj : dma j with
    | error err => rfl
    | ok m =>
      have hrest := ih (j + 1)
      cases hm : (List.range' (j + 1) pdevs.length).mapM dma with
      | error err =>
        rw [hm] at hrest
        exact hrest
      | ok ms =>
        rw [hm] at hrest
        show (m.1 :: (Module.gpuMapLoop dma pdevs (j + 1)).1, _) = _
        rw [hrest]
        rfl

theorem dma_notMem_gpuMappings (d a : Nat) (pdevs ms : List Nat) :
    Resource.dma d a ∉ List.zipWith .gpuMapping pdevs ms := by
  induction pdevs generalizing ms with
  | nil => exact List.not_mem_nil
  | cons p pdevs ih =>
    cases ms with
    | nil => exact List.not_mem_nil
    | cons m ms =>
      rw [List.zipWith_cons_cons, List.mem_cons, not_or]
      exact ⟨(nomatch ·), ih ms⟩

/-- `map_gpu_memory` with a page table: the addresses are those of the first controller. -/
theorem mapGpuMemory_ok (h : Inv s xs us) {o : GpuOutcome} {table : Nat}
    (hmem : ¬ (o.region = false ∨ o.array = false)) (hpages : o.pages = .ok table) (e : Nat)
    (map : Map) :
    ∃ addrs,
      s.mapGpuMemory e map o = some
        ((s.setMap e { map with
            pageSize := 65536
            data := .gpuRegion (some table)
              (Module.gpuMapLoop o.dma (s.pdevsOf (xs .ctrl)) 0).1
            addrs := addrs }).get
          (.pageTable table :: List.zipWith .gpuMapping (s.pdevsOf (xs .ctrl))
            (Module.gpuMapLoop o.dma (s.pdevsOf (xs .ctrl)) 0).1),
          (Module.gpuMapLoop o.dma (s.pdevsOf (xs .ctrl)) 0).2) ∧
      (s.pdevsOf (xs .ctrl) = [] → addrs = map.addrs) ∧
      ∀ p rest m, s.pdevsOf (xs .ctrl) = p :: rest → o.dma 0 = .ok m → addrs = m.2 := by
  rw [Module.mapGpuMemory, if_neg hmem, hpages]
  show ∃ addrs, s.ctrlPdevs.bind _ = _ ∧ _
  rw [h.ctrlPdevs]
  refine ⟨_, rfl, fun hnil => ?_, fun p rest m hcons h0 => ?_⟩
  · rw [hnil]
  · rw [hcons, h0]

/-- `map_gpu_memory` for a new descriptor. -/
theorem mapGpuMemory (h : Inv s xs [e]) (hd : s.Dirty) {map : Map} (hm : s.maps e = some map)
    (hdata : map.data = .null) {n : Nat} (haddrs : map.addrs = List.replicate n 0)
    (o : GpuOutcome) :
    ∃ s' err map', s.mapGpuMemory e map o = some (s', err) ∧ Inv s' xs [e] ∧
      s'.maps e = some map' ∧ (∀ a, a ≠ e → s'.maps a = s.maps a) ∧
      s'.maxNumCtrls = s.maxNumCtrls ∧ map'.owner = map.owner ∧ map'.vaddr = map.vaddr ∧
      s'.Dirty ∧
      match err with
      | none => o.regions (xs .ctrl).length n = .ok map'.addrs ∧ s'.Dirty
      | some err => o.regions (xs .ctrl).length n = .error err := by
  have hold : ∀ pdevs, map.resources pdevs = [] := fun pdevs => by rw [Map.resources, hdata]
  rw [GpuOutcome.regions]
  by_cases hmem : o.region = false ∨ o.array = false
  · rw [Module.mapGpuMemory, if_pos hmem, if_pos hmem]
    exact ⟨s, _, map, rfl, h, hm, fun _ _ => rfl, rfl, rfl, rfl, hd, rfl⟩
  rw [if_neg hmem]
  cases hpages : o.pages with
  | error err =>
    set map' : Map := { map with pageSize := 65536, data := .gpuRegion none [] } with hmap'
    have hms : ∀ t ms, map'.data = .gpuRegion t ms → ms.length ≤ (xs .ctrl).length := by
      intro t ms heq
      injection heq with _ hms
      rw [← hms]
      exact Nat.zero_le _
    have hnew : ∀ d, Resource.dma d dmaMappingError ∉ [] := fun d => List.not_mem_nil
    have hinv := h.setMap hm hms hnew (n := 0) (fun _ => by
      rw [hold]
      show (List.zipWith Resource.gpuMapping (s.pdevsOf (xs .ctrl)) [] ++ []).Perm []
      rw [List.zipWith_nil_right]
      exact List.Perm.refl _)
    have hsame : { (s.setMap e map').get [] with dmaErrors := s.dmaErrors + 0 } =
        s.setMap e map' := by
      rw [Module.get, List.append_nil]
      rfl
    rw [hsame] at hinv
    have hcall : s.mapGpuMemory e map o = some (s.setMap e map', some err) := by
      rw [Module.mapGpuMemory, if_neg hmem, hpages]
    exact ⟨s.setMap e map', _, map', hcall, hinv, Function.update_self ..,
      fun a ha => Function.update_of_ne ha .., rfl, rfl, rfl, hd, rfl⟩
  | ok table =>
    obtain ⟨addrs, hcall, hnone, hfirst⟩ := h.mapGpuMemory_ok hmem hpages e map
    have hlen : (s.pdevsOf (xs .ctrl)).length = (xs .ctrl).length := h.pdevs_length
    set pdevs := s.pdevsOf (xs .ctrl) with hp
    set r := Module.gpuMapLoop o.dma pdevs 0 with hr
    set map' : Map := { map with
      pageSize := 65536, data := .gpuRegion (some table) r.1, addrs := addrs } with hmap'
    have hms : ∀ t ms, map'.data = .gpuRegion t ms → ms.length ≤ (xs .ctrl).length := by
      intro t ms heq
      injection heq with _ hms
      rw [← hms, ← hlen]
      exact gpuMapLoop_length ..
    have hnew : ∀ d, Resource.dma d dmaMappingError ∉
        Resource.pageTable table :: List.zipWith Resource.gpuMapping pdevs r.1 := by
      intro d hin
      rcases List.mem_cons.mp hin with heq | hin
      · cases heq
      · exact dma_notMem_gpuMappings _ _ _ _ hin
    have hinv := h.setMap hm hms hnew (n := 0) (fun _ => by
      rw [hold, List.nil_append, hmap', Map.resources]
      exact List.perm_append_singleton _ _)
    refine ⟨_, r.2, map', hcall, hinv, ?_, ?_, rfl, rfl, rfl, hd, ?_⟩
    · exact Function.update_self ..
    · exact fun a ha => Function.update_of_ne ha ..
    · have hloop := gpuMapLoop_eq o.dma pdevs 0
      rw [← List.range_eq_range', hlen] at hloop
      cases hms : (List.range (xs .ctrl).length).mapM o.dma with
      | error err =>
        rw [hms] at hloop
        have herr : r.2 = some err := hloop
        rw [herr]
      | ok ms =>
        rw [hms] at hloop
        have hok : r = (ms.map Prod.fst, none) := hloop
        rw [hok]
        refine ⟨?_, hd⟩
        show _ = Except.ok addrs
        -- without a controller the addresses are the zeros of `create_descriptor`
        cases hcs : (xs .ctrl).length with
        | zero =>
          have hnil : pdevs = [] := List.eq_nil_of_length_eq_zero (hlen.trans hcs)
          rw [hcs, List.range_zero, List.mapM_nil] at hms
          obtain rfl : [] = ms := Except.ok.inj hms
          rw [hnone hnil]
          exact congrArg Except.ok haddrs.symm
        | succ k =>
          obtain ⟨p, rest, hcons⟩ := List.exists_cons_of_ne_nil
            (List.ne_nil_of_length_pos (by omega : 0 < pdevs.length))
          rw [hcs, List.range_succ_eq_map, List.mapM_cons] at hms
          cases h0 : o.dma 0 with
          | error err =>
            rw [h0] at hms
            cases hms
          | ok m =>
            rw [h0] at hms
            cases hrest : ((List.range k).map Nat.succ).mapM o.dma with
            | error err =>
              rw [hrest] at hms
              cases hms
            | ok ms' =>
              rw [hrest] at hms
              obtain rfl : m :: ms' = ms := Except.ok.inj hms
              rw [hfirst p rest m hcons h0]

/-- `NVM_MAP_DEVICE_MEMORY`. -/
theorem mapDevice (h : Inv s xs []) (hd : s.Dirty) {o : GpuOutcome}
    (hf : s.fresh o.descriptor = true) (task pdev vaddr n : Nat) (copiedOut : Bool) :
    Serves ((s.registryOf xs).map .device task (gpuPageMask vaddr) copiedOut
        (o.result (xs .ctrl).length n))
      ((s.mapDeviceMemory task pdev vaddr n o).bind (Module.copyAddrs copiedOut)) := by
  rw [Module.mapDeviceMemory, GpuOutcome.result]
  by_cases hn : n < 1
  · rw [if_pos hn, if_pos hn]
    exact ⟨s, xs, rfl, h, hd, rfl⟩
  rw [if_neg hn, if_neg hn]
  cases hdesc : o.descriptor with
  | none => exact ⟨s, xs, rfl, h, hd, rfl⟩
  | some e =>
    set map : Map := ⟨task, gpuPageMask vaddr, pdev, 65536, .null, List.replicate n 0⟩ with hmap
    have hdata : map.data = .null := rfl
    have hcreate := h.create (hdesc ▸ hf) hdata task pdev (gpuPageMask vaddr) n
    set s1 := (s.createDescriptor e task pdev (gpuPageMask vaddr) n).setMap e map with hs1
    have hm1 : s1.maps e = some map := Function.update_self ..
    have hmaps1 : ∀ a, a ≠ e → s1.maps a = s.maps a := fun a ha =>
      (Function.update_of_ne ha ..).trans (Function.update_of_ne ha ..)
    obtain ⟨s2, err, map2, hs2, hinv, hm2, hmaps, hmax, howner, hvaddr, hdirty, hres⟩ :=
      hcreate.mapGpuMemory (show s1.Dirty from hd) hm1 rfl rfl o
    have hend := hinv.mapEnd (s := s) (l := .device) (by decide) hm2
      (fun a ha => (hmaps a ha).trans (hmaps1 a ha)) hmax (fun heq => by cases heq) (.inl hdirty)
      hres copiedOut
    rw [howner, hvaddr] at hend
    show Serves _ (((s1.mapGpuMemory e map o).bind _).bind _)
    rw [hs2]
    exact hend

/-! ## Unmap requests -/

/-- `map_find` is the search for the first mapping that is meant. -/
theorem mapFind (h : Inv s xs []) (task addr : Nat) (l : ListId) :
    s.mapFind task l addr = some ((xs l).find? fun e =>
      (s.maps e).any fun map => Entry.meant task addr (map.entry e)) := by
  rw [Module.mapFind, (h.lists.isList l).elems (h.room l)]
  show some _ = some _
  congr 2
  funext e
  cases s.maps e with
  | none => rfl
  | some map => rfl

/-- Taking the first mapping that is meant out of the list of descriptors. -/
theorem entries_find {es : List Nat} (hsome : ∀ e ∈ es, (s.maps e).isSome) (p : Entry → Bool) :
    match es.find? fun e => (s.maps e).any fun map => p (map.entry e) with
    | none => (s.entries es).any p = false
    | some e => ∃ pre post, es = pre ++ e :: post ∧ (s.entries es).any p = true ∧
        (s.entries es).eraseP p = s.entries (pre ++ post) := by
  -- by induction on the list: its head is the one, or stays
  induction es with
  | nil => rfl
  | cons a es ih =>
    obtain ⟨map, hm⟩ := Option.isSome_iff_exists.mp (hsome a List.mem_cons_self)
    have hcons : s.entries (a :: es) = map.entry a :: s.entries es := by
      rw [Module.entries, List.filterMap_cons, hm]
      rfl
    rw [List.find?_cons, hm, hcons]
    by_cases hp : p (map.entry a) = true
    · have htest : (some map).any (fun map => p (map.entry a)) = true := hp
      rw [htest]
      refine ⟨[], es, rfl, ?_, ?_⟩
      · rw [List.any_cons, hp, Bool.true_or]
      · rw [List.eraseP_cons_of_pos hp]
        rfl
    · have hp' : p (map.entry a) = false := Bool.not_eq_true _ ▸ hp
      have htest : (some map).any (fun map => p (map.entry a)) = false := hp'
      rw [htest]
      have hrest := ih fun e he => hsome e (List.mem_cons_of_mem a he)
      rw [List.any_cons, hp', Bool.false_or, List.eraseP_cons_of_neg hp]
      cases hfind : es.find? fun e => (s.maps e).any fun map => p (map.entry e) with
      | none =>
        rw [hfind] at hrest
        exact hrest
      | some e =>
        rw [hfind] at hrest
        obtain ⟨pre, post, heq, hany, herase⟩ := hrest
        refine ⟨a :: pre, post, congrArg (a :: ·) heq, hany, ?_⟩
        rw [herase, List.cons_append]
        exact (List.filterMap_cons_some (by rw [hm]; rfl)).symm

theorem map_isSome (h : Inv s xs us) {l : ListId} (hl : l ≠ .ctrl) {e : Nat} (he : e ∈ xs l) :
    (s.maps e).isSome := by
  rw [h.maps]
  cases l with
  | ctrl => exact absurd rfl hl
  | host => simp [he]
  | device => simp [he]

/-- The registry after a descriptor is taken off a list. -/
theorem registryOf_unmap (h : Inv s xs []) (hd : s.Dirty) {l : ListId} (hl : l ≠ .ctrl)
    {pre post : List Nat} (hsplit : xs l = pre ++ e :: post) :
    ∃ s', s.unmapAndRelease e = some s' ∧ Inv s' (Function.update xs l (pre ++ post)) [] ∧
      s'.Dirty ∧ s'.registryOf (Function.update xs l (pre ++ post)) =
        s.registryOf (Function.update xs l (pre ++ post)) := by
  obtain ⟨nodes, held, stray, map, -, hunmap, hinv, hkeep⟩ := h.unmapLinked hl hsplit
  refine ⟨_, hunmap, hinv, fun hne => hkeep (hd hne), registryOf_congr (e := e) ?_ rfl fun hmem => ?_⟩
  · exact fun a ha => Function.update_of_ne ha ..
  · have hsome := (hinv.maps e).mpr (by rwa [List.append_nil])
    have hnone : (freed s e nodes held stray).maps e = none := Function.update_self ..
    rw [hnone] at hsome
    exact Bool.false_ne_true hsome

/-- `NVM_UNMAP_MEMORY`. -/
theorem unmapMemory (h : Inv s xs []) (hd : s.Dirty) (task addr : Nat) :
    Serves ((s.registryOf xs).unmap task addr) (s.unmapMemory task addr) := by
  have hhost := entries_find (fun e he => h.map_isSome (l := .host) (by decide) he)
    (Entry.meant task addr)
  have hdevice := entries_find (fun e he => h.map_isSome (l := .device) (by decide) he)
    (Entry.meant task addr)
  -- both searches, and what the registry does, are decided by the first hit
  rw [Module.unmapMemory, h.mapFind task addr .host, h.mapFind task addr .device, Registry.unmap]
  cases hfind : (xs .host).find? fun e =>
      (s.maps e).any fun map => Entry.meant task addr (map.entry e) with
  | some e =>
    rw [hfind] at hhost
    obtain ⟨pre, post, hsplit, hany, herase⟩ := hhost
    obtain ⟨s', hunmap, hinv, hd', hreg⟩ := h.registryOf_unmap hd (l := .host) (by decide) hsplit
    have hany' : (s.registryOf xs).host.any (Entry.meant task addr) = true := hany
    rw [if_pos hany']
    refine ⟨s', _, ?_, hinv, hd', ?_⟩
    · show (s.unmapAndRelease e).bind _ = _
      rw [hunmap]
      rfl
    · rw [hreg, Module.registryOf, Function.update_self, Function.update_of_ne (by decide),
        Function.update_of_ne (by decide), ← herase]
      rfl
  | none =>
    rw [hfind] at hhost
    have hnone : (s.registryOf xs).host.any (Entry.meant task addr) = false := hhost
    rw [if_neg (by rw [hnone]; exact Bool.false_ne_true)]
    cases hfind' : (xs .device).find? fun e =>
        (s.maps e).any fun map => Entry.meant task addr (map.entry e) with
    | some e =>
      rw [hfind'] at hdevice
      obtain ⟨pre, post, hsplit, hany, herase⟩ := hdevice
      obtain ⟨s', hunmap, hinv, hd', hreg⟩ :=
        h.registryOf_unmap hd (l := .device) (by decide) hsplit
      have hany' : (s.registryOf xs).device.any (Entry.meant task addr) = true := hany
      rw [if_pos hany']
      refine ⟨s', _, ?_, hinv, hd', ?_⟩
      · show (s.unmapAndRelease e).bind _ = _
        rw [hunmap]
        rfl
      · rw [hreg, Module.registryOf, Function.update_self, Function.update_of_ne (by decide),
          Function.update_of_ne (by decide), ← herase]
        rfl
    | none =>
      rw [hfind'] at hdevice
      have hnone' : (s.registryOf xs).device.any (Entry.meant task addr) = false := hdevice
      rw [if_neg (by rw [hnone']; exact Bool.false_ne_true)]
      exact ⟨s, xs, rfl, h, hd, rfl⟩

/-! ## Other calls -/

/-- `force_release_gpu_memory` is `unmap_and_release`, except that it releases first. -/
theorem forceRelease_eq (h : Inv s xs []) {l : ListId} (hl : l ≠ .ctrl) {pre post : List Nat}
    (hsplit : xs l = pre ++ e :: post) :
    s.forceReleaseGpuMemory e = s.unmapAndRelease e := by
  obtain ⟨map, hm⟩ := Option.isSome_iff_exists.mp
    (h.map_isSome hl (hsplit ▸ List.mem_append_right _ List.mem_cons_self))
  obtain ⟨nodes, hn, hlists, -⟩ := h.lists.remove hsplit
  have hctrl : Function.update xs l (pre ++ post) .ctrl = xs .ctrl :=
    Function.update_of_ne hl.symm ..
  have hpdevs : Module.ctrlPdevs { s with nodes := nodes } = some (s.pdevsOf (xs .ctrl)) := by
    refine ctrlPdevs_of_elems (s := { s with nodes := nodes }) ?_ fun a ha => (h.ctrls a).mpr ha
    show listElems nodes s.inserted ListId.ctrl.addr = some (xs .ctrl)
    rw [← hctrl]
    exact (hlists.isList .ctrl).elems (by rw [hctrl]; exact h.room .ctrl)
  set rs := map.resources (s.pdevsOf (xs .ctrl)) with hrs
  obtain ⟨held, stray, hput, -⟩ := s.putAll_frame rs
  have hput' : Module.putAll { s with nodes := nodes } rs =
      { s with nodes := nodes, held := held, stray := stray } := by
    rw [Module.putAll_nodes, hput]
  have hleft : s.forceReleaseGpuMemory e = some (freed s e nodes held stray) := by
    rw [Module.forceReleaseGpuMemory, hm]
    show (s.release map).bind _ = _
    rw [release_eq h.ctrlPdevs, ← hrs, hput]
    show (listRemove s.nodes e).bind _ = _
    rw [hn]
    show (Function.update s.maps e (some { map with data := .null }) e).bind _ = _
    rw [Function.update_self]
    exact congrArg
      (fun maps => some { s with nodes := nodes, maps := maps, held := held, stray := stray })
      (Function.update_idem ..)
  have hright : s.unmapAndRelease e = some (freed s e nodes held stray) := by
    rw [Module.unmapAndRelease, hn]
    show (s.maps e).bind _ = _
    rw [hm]
    show (Module.release { s with nodes := nodes } map).bind _ = _
    rw [release_eq hpdevs, ← hrs, hput']
    rfl
  rw [hleft, hright]

/-- What the driver of the GPU takes back is on the list of device memory. -/
theorem mem_device_of_enabled (h : Inv s xs []) (hen : s.enabled (.reclaim e) = true) :
    e ∈ xs .device := by
  rw [Module.enabled] at hen
  split at hen
  · rename_i owner vaddr pdev size table ms addrs hm
    have hmem := (h.maps e).mp (by rw [hm]; rfl)
    rw [List.append_nil, List.mem_append] at hmem
    exact hmem.resolve_left fun hin => h.host e hin _ hm _ _ rfl
  · exact absurd hen Bool.false_ne_true

theorem reclaim (h : Inv s xs []) (hd : s.Dirty) (hen : s.enabled (.reclaim e) = true) :
    Serves ((s.registryOf xs).call (.reclaim e)) (s.call (.reclaim e)) := by
  obtain ⟨pre, post, hsplit⟩ := List.append_of_mem (h.mem_device_of_enabled hen)
  obtain ⟨s', hunmap, hinv, hd', hreg⟩ := h.registryOf_unmap hd (l := .device) (by decide) hsplit
  refine ⟨s', _, ?_, hinv, hd', ?_⟩
  · show (s.forceReleaseGpuMemory e).map _ = _
    rw [h.forceRelease_eq (l := .device) (by decide) hsplit, hunmap]
    rfl
  · have hnodup := (h.lists.isList .device).nodup
    rw [hsplit] at hnodup
    have hpre : e ∉ pre := fun hin =>
      (List.nodup_append.mp hnodup).2.2 e hin e List.mem_cons_self rfl
    obtain ⟨map, hm⟩ := Option.isSome_iff_exists.mp (h.map_isSome (l := .device) (by decide)
      (hsplit ▸ List.mem_append_right _ List.mem_cons_self : e ∈ xs .device))
    have herase : (s.entries (xs .device)).eraseP (fun x => decide (x.id = e)) =
        s.entries (pre ++ post) := by
      have hcons : s.entries (e :: post) = map.entry e :: s.entries post :=
        List.filterMap_cons_some (by rw [hm]; rfl)
      have hself : decide ((map.entry e).id = e) = true := decide_eq_true rfl
      rw [hsplit, entries_append, entries_append, hcons, List.eraseP_append_right,
        List.eraseP_cons_of_pos (p := fun x : Entry => decide (x.id = e)) hself]
      intro x hx
      obtain ⟨a, ha, hmap⟩ := List.mem_filterMap.mp hx
      obtain ⟨map', -, rfl⟩ := Option.map_eq_some_iff.mp hmap
      rw [decide_eq_true_eq]
      exact fun heq => hpre (heq ▸ ha)
    rw [hreg, Module.registryOf, Function.update_self, Function.update_of_ne (by decide),
      Function.update_of_ne (by decide), ← herase]
    rfl

theorem zipWith_append_left {α β γ : Type} (f : α → β → γ) {as : List α} (as' : List α)
    {bs : List β} (h : bs.length ≤ as.length) :
    List.zipWith f (as ++ as') bs = List.zipWith f as bs := by
  induction as generalizing bs with
  | nil =>
    rw [List.eq_nil_of_length_eq_zero (Nat.le_zero.mp h), List.zipWith_nil_right,
      List.zipWith_nil_right]
  | cons a as ih =>
    cases bs with
    | nil => rfl
    | cons b bs =>
      rw [List.cons_append, List.zipWith_cons_cons, List.zipWith_cons_cons,
        ih (Nat.le_of_succ_le_succ h)]

/-- A mapping holds nothing for a controller that was found later. -/
theorem owed_append_pdevs (h : Inv s xs us) (hr : s.removed = 0) (pdevs es : List Nat) :
    s.owed (s.pdevsOf (xs .ctrl) ++ pdevs) es = s.owed (s.pdevsOf (xs .ctrl)) es := by
  rw [Module.owed, Module.owed, List.flatMap_congr]
  intro e _
  cases hm : s.maps e with
  | none => rfl
  | some map =>
    show map.resources _ = map.resources _
    rw [Map.resources, Map.resources]
    split
    · rfl
    · rfl
    · rename_i t ms hdata
      rw [zipWith_append_left]
      exact (h.mappings hr e map t ms hm hdata).trans_eq h.pdevs_length.symm

/-- A new controller at the end of the list. -/
theorem addCtrl (h : Inv s xs []) {c : Nat} (hf : s.fresh (some c) = true) (pdev : Nat)
    {nodes : NodeMem}
    (hlists : Lists ListId.addr nodes (Function.update xs .ctrl (xs .ctrl ++ [c])))
    (hcount : (xs .ctrl).length < s.maxNumCtrls) :
    Inv { s with
        nodes := nodes, ctrls := Function.update s.ctrls c (some pdev),
        inserted := s.inserted + 1, currCtrls := s.currCtrls + 1 }
      (Function.update xs .ctrl (xs .ctrl ++ [c])) [] := by
  have hout := (h.outside hf).1
  have hhost : Function.update xs .ctrl (xs .ctrl ++ [c]) .host = xs .host :=
    Function.update_of_ne (by decide) ..
  have hdevice : Function.update xs .ctrl (xs .ctrl ++ [c]) .device = xs .device :=
    Function.update_of_ne (by decide) ..
  have hctrl : Function.update xs .ctrl (xs .ctrl ++ [c]) .ctrl = xs .ctrl ++ [c] :=
    Function.update_self ..
  have hlen : (xs .ctrl ++ [c]).length = (xs .ctrl).length + 1 := List.length_append
  refine ⟨hlists, fun e => ?_, fun e => ?_, fun _ he => absurd he List.not_mem_nil, fun l => ?_,
    ?_, fun e he => ?_, fun hr e map t ms hm hdata => ?_, ?_⟩
  · rw [hctrl, List.mem_append, List.mem_singleton, ← h.ctrls]
    show (Function.update s.ctrls c (some pdev) e).isSome ↔ _
    rw [Function.update_apply]
    by_cases he : e = c <;> simp [he]
  · rw [hhost, hdevice]
    exact h.maps e
  · show _ ≤ s.inserted + 1
    have hroom := h.room l
    cases l with
    | ctrl =>
      rw [hctrl]
      omega
    | host =>
      rw [hhost]
      omega
    | device =>
      rw [hdevice]
      omega
  · rw [hctrl, hlen]
    exact ⟨congrArg (· + 1) h.count.1, hcount⟩
  · rw [hhost] at he
    exact h.host e he
  · rw [hctrl, hlen]
    exact Nat.le_succ_of_le (h.mappings hr e map t ms hm hdata)
  · have hpdevs : Module.pdevsOf { s with
        nodes := nodes, ctrls := Function.update s.ctrls c (some pdev),
        inserted := s.inserted + 1, currCtrls := s.currCtrls + 1 } (xs .ctrl ++ [c]) =
        s.pdevsOf (xs .ctrl) ++ [pdev] := by
      show (xs .ctrl ++ [c]).filterMap (Function.update s.ctrls c (some pdev)) = _
      rw [List.filterMap_append, List.filterMap_cons_some (Function.update_self ..),
        List.filterMap_nil]
      refine congrArg (· ++ [pdev]) (List.filterMap_congr fun e he => ?_)
      refine Function.update_of_ne ?_ ..
      rintro rfl
      exact hout .ctrl (List.mem_cons_of_mem _ he)
    rw [hctrl, hhost, hdevice, hpdevs]
    refine ⟨h.books.valid, fun h0 => ?_⟩
    have howed := h.owed_append_pdevs h0.2 [pdev] (xs .host ++ xs .device ++ [])
    show s.stray = [] ∧ s.held.Perm (s.owed (s.pdevsOf (xs .ctrl) ++ [pdev]) _)
    rw [howed]
    exact h.books.clean h0

/-- The nodes changed outside of the lists. -/
theorem relink (h : Inv s xs []) {nodes : NodeMem} (hlists : Lists ListId.addr nodes xs) {n : Nat}
    (hn : s.inserted ≤ n) : Inv { s with nodes := nodes, inserted := n } xs [] :=
  ⟨hlists, h.ctrls, h.maps, fun _ he => absurd he List.not_mem_nil,
    fun l => (h.room l).trans hn, h.count, h.host, h.mappings, h.books.valid, h.books.clean⟩

/-- A device that is found. -/
theorem probe (h : Inv s xs []) (hd : s.Dirty) {pdev : Nat} {o : ProbeOutcome}
    (hf : s.fresh o.descriptor = true) :
    Serves ((s.registryOf xs).call (.probe pdev o)) (s.call (.probe pdev o)) := by
  show Serves (if (xs .ctrl).length ≥ s.maxNumCtrls then _ else _) ((s.addPciDev pdev o).map _)
  rw [Module.addPciDev, ← h.count.1]
  by_cases hfull : s.currCtrls ≥ s.maxNumCtrls
  · rw [if_pos hfull, if_pos hfull]
    exact ⟨s, xs, rfl, h, hd, rfl⟩
  have hcount : (xs .ctrl).length < s.maxNumCtrls := by
    rw [← h.count.1]
    omega
  rw [if_neg hfull, if_neg hfull]
  cases hdesc : o.descriptor with
  | none => exact ⟨s, xs, rfl, h, hd, rfl⟩
  | some c =>
    rw [hdesc] at hf
    have hout := (h.outside hf).1
    have hinit : Lists ListId.addr (listNodeInit s.nodes c) xs :=
      h.lists.congr fun l a ha => Function.update_of_ne (by rintro rfl; exact hout l ha) ..
    obtain ⟨nodes, hn, hlists, -⟩ := hinit.insert .ctrl hout
    have hhost : Function.update xs .ctrl (xs .ctrl ++ [c]) .host = xs .host :=
      Function.update_of_ne (by decide) ..
    have hdevice : Function.update xs .ctrl (xs .ctrl ++ [c]) .device = xs .device :=
      Function.update_of_ne (by decide) ..
    show Serves _ (((listInsert (listNodeInit s.nodes c) ListId.ctrl.addr c).bind _).map _)
    rw [hn]
    cases hdev : o.device with
    | none =>
      refine ⟨_, _, rfl, h.addCtrl hf pdev hlists hcount, hd, ?_⟩
      rw [Module.registryOf, Function.update_self, hhost, hdevice]
      rfl
    | some err =>
      -- `ctrl_put` takes it off the list again
      have hlast : Function.update xs .ctrl (xs .ctrl ++ [c]) .ctrl = xs .ctrl ++ c :: [] :=
        Function.update_self ..
      obtain ⟨nodes', hn', hlists', -⟩ := hlists.remove hlast
      have hsame : Function.update (Function.update xs .ctrl (xs .ctrl ++ [c])) .ctrl
          (xs .ctrl ++ []) = xs := by
        rw [Function.update_idem, List.append_nil, Function.update_eq_self]
      have hctrls : Function.update (Function.update s.ctrls c (some pdev)) c none = s.ctrls := by
        rw [Function.update_idem, Function.update_eq_self_iff]
        simp only [Module.fresh, Bool.and_eq_true, Option.isNone_iff_eq_none] at hf
        exact hf.2.symm
      rw [hsame] at hlists'
      have hinv := h.relink hlists' (Nat.le_succ s.inserted)
      refine ⟨_, xs, ?_, hinv, hd, rfl⟩
      show (((listRemove nodes c).bind _).bind _).map _ = _
      rw [hn']
      exact congrArg
        (fun ctrls => some ({ s with nodes := nodes', ctrls := ctrls, inserted := s.inserted + 1 },
          Except.error err))
        hctrls

/-- A controller that is removed; the mappings of device memory are then for other controllers. -/
theorem dropCtrl (h : Inv s xs []) {c : Nat} {pre post : List Nat}
    (hsplit : xs .ctrl = pre ++ c :: post) {nodes : NodeMem}
    (hlists : Lists ListId.addr nodes (Function.update xs .ctrl (pre ++ post))) :
    Inv { s with
        nodes := nodes, ctrls := Function.update s.ctrls c none, currCtrls := s.currCtrls - 1,
        removed := s.removed + (listNext s.nodes ListId.device.addr).toList.length }
      (Function.update xs .ctrl (pre ++ post)) [] := by
  have hhost : Function.update xs .ctrl (pre ++ post) .host = xs .host :=
    Function.update_of_ne (by decide) ..
  have hdevice : Function.update xs .ctrl (pre ++ post) .device = xs .device :=
    Function.update_of_ne (by decide) ..
  have hctrl : Function.update xs .ctrl (pre ++ post) .ctrl = pre ++ post :=
    Function.update_self ..
  have hlen : (xs .ctrl).length = (pre ++ post).length + 1 := by
    rw [hsplit, List.length_append, List.length_cons, List.length_append, Nat.add_assoc]
  have hnodup := (h.lists.isList .ctrl).nodup
  rw [hsplit] at hnodup
  have hc : c ∉ pre ++ post := (List.nodup_cons.mp (List.nodup_middle.mp hnodup)).1
  -- without device memory on the list nothing is mapped for a controller
  have hnone : s.removed + (listNext s.nodes ListId.device.addr).toList.length = 0 →
      ∀ e map t ms, s.maps e = some map → map.data ≠ .gpuRegion t ms := by
    intro h0 e map t ms hm hdata
    have hnil : xs .device = [] := by
      have hnext : listNext s.nodes ListId.device.addr = (xs .device).head? :=
        (h.lists.isList .device).next_head
      rw [hnext] at h0
      cases hdev : xs .device with
      | nil => rfl
      | cons d ds =>
        rw [hdev] at h0
        exact absurd h0 (Nat.succ_ne_zero _)
    have hmem := (h.maps e).mp (by rw [hm]; rfl)
    rw [hnil, List.append_nil, List.append_nil] at hmem
    exact h.host e hmem map hm t ms hdata
  refine ⟨hlists, fun e => ?_, fun e => ?_, fun _ he => absurd he List.not_mem_nil, fun l => ?_,
    ?_, fun e he => ?_, fun hr e map t ms hm hdata => absurd hdata (hnone hr e map t ms hm), ?_⟩
  · rw [hctrl]
    show (Function.update s.ctrls c none e).isSome ↔ _
    by_cases he : e = c
    · subst he
      rw [Function.update_self]
      exact iff_of_false Bool.false_ne_true hc
    · rw [Function.update_of_ne he, h.ctrls, hsplit, List.mem_append, List.mem_append,
        List.mem_cons, or_iff_right he]
  · rw [hhost, hdevice]
    exact h.maps e
  · have hroom := h.room l
    cases l with
    | ctrl =>
      rw [hctrl]
      exact Nat.le_of_succ_le (hlen.symm.le.trans hroom)
    | host => rwa [hhost]
    | device => rwa [hdevice]
  · rw [hctrl]
    show s.currCtrls - 1 = _ ∧ _ ≤ s.maxNumCtrls
    have hcount := h.count
    omega
  · rw [hhost] at he
    exact h.host e he
  · rw [hctrl, hhost, hdevice]
    refine ⟨h.books.valid, fun h0 => ?_⟩
    have hr : s.removed = 0 := Nat.eq_zero_of_add_eq_zero_right h0.2
    obtain ⟨hstray, hheld⟩ := h.books.clean ⟨h0.1, hr⟩
    refine ⟨hstray, hheld.trans (List.Perm.of_eq ?_)⟩
    rw [Module.owed, Module.owed, List.flatMap_congr]
    intro e _
    show (s.maps e).elim [] _ = (s.maps e).elim [] _
    cases hm : s.maps e with
    | none => rfl
    | some map =>
      show map.resources _ = map.resources _
      rw [Map.resources, Map.resources]
      split
      · rfl
      · rfl
      · rename_i t ms hdata
        exact absurd hdata (hnone h0.2 e map t ms hm)

/-- A controller whose device goes away. -/
theorem remove (h : Inv s xs []) (hd : s.Dirty) {c : Nat}
    (hen : s.enabled (.remove c) = true) :
    Serves ((s.registryOf xs).call (.remove c)) (s.call (.remove c)) := by
  obtain ⟨pdev, hpdev, hfound⟩ := (Option.any_eq_true _ _).mp hen
  have hfind : s.ctrlFindByPciDev pdev = some (some c) := of_decide_eq_true hfound
  obtain ⟨pre, post, hsplit⟩ := List.append_of_mem
    ((h.ctrls c).mp (by rw [hpdev]; rfl) : c ∈ xs .ctrl)
  obtain ⟨nodes, hn, hlists, -⟩ := h.lists.remove hsplit
  refine ⟨_, _, ?_, h.dropCtrl hsplit hlists, hd, ?_⟩
  · show (s.ctrls c).bind _ = _
    rw [hpdev]
    show (s.removePciDev pdev).map _ = _
    rw [Module.removePciDev, hfind]
    show (((listRemove s.nodes c).bind _).bind _).map _ = _
    rw [hn]
    rfl
  · have hnodup := (h.lists.isList .ctrl).nodup
    rw [hsplit] at hnodup
    have hpre : c ∉ pre := fun hin =>
      (List.nodup_append.mp hnodup).2.2 c hin c List.mem_cons_self rfl
    have herase : (xs .ctrl).erase c = pre ++ post := by
      rw [hsplit, List.erase_append_right _ hpre, List.erase_cons_head]
    rw [Module.registryOf, Function.update_self, Function.update_of_ne (by decide),
      Function.update_of_ne (by decide), ← herase]
    rfl

/-- Every call does what the registry says. -/
theorem call (h : Inv s xs []) (hd : s.Dirty) {a : ModAct} (ha : s.enabled a = true) :
    Serves ((s.registryOf xs).call a) (s.call a) := by
  cases a with
  | probe pdev o => exact h.probe hd ha
  | remove ctrl => exact h.remove hd ha
  | reclaim e => exact h.reclaim hd ha
  | ioctl task inode copiedIn copiedOut cmd =>
    have hfind : s.ctrlFindByInode inode =
        some ((xs .ctrl).find? fun c => decide (c = inode)) := by
      rw [Module.ctrlFindByInode, h.ctrlElems]
      rfl
    show Serves (if inode ∉ xs .ctrl then _ else _) (s.mapIoctl task inode copiedIn copiedOut cmd)
    rw [Module.mapIoctl, hfind]
    cases hc : (xs .ctrl).find? fun c => decide (c = inode) with
    | none =>
      have hnot : inode ∉ xs .ctrl := fun hmem => by
        have hfalse := List.find?_eq_none.mp hc inode hmem
        simp at hfalse
      rw [if_pos hnot]
      exact ⟨s, xs, rfl, h, hd, rfl⟩
    | some c =>
      have htest : decide (c = inode) = true :=
        List.find?_some (p := fun c => decide (c = inode)) hc
      obtain rfl : c = inode := of_decide_eq_true htest
      have hmem := List.mem_of_find?_eq_some hc
      rw [if_neg (not_not.mpr hmem)]
      cases copiedIn with
      | false => exact ⟨s, xs, rfl, h, hd, rfl⟩
      | true =>
        obtain ⟨pdev, hpdev⟩ := Option.isSome_iff_exists.mp ((h.ctrls c).mpr hmem)
        cases cmd with
        | mapHostMemory vaddr n o =>
          show Serves _ ((s.ctrls c).bind fun pdev => _)
          rw [hpdev]
          exact h.mapHost hd ha task pdev vaddr n copiedOut
        | mapDeviceMemory vaddr n o =>
          show Serves _ ((s.ctrls c).bind fun pdev => _)
          rw [hpdev]
          exact h.mapDevice hd ha task pdev vaddr n copiedOut
        | unmapMemory addr => exact h.unmapMemory hd task addr

end Inv

end GidsStack.Driver
