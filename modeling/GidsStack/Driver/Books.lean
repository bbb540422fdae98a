/-
  GidsStack.Driver.Books

  What holds between the calls of the kernel module, in every run: its three lists are rings
  through the descriptors that exist, and what it holds of the kernel is what the descriptors
  say.

  A failed `dma_map_page` leaves addresses in a descriptor that were never mapped, and they are
  given back with the others; device memory is given back for the controllers that there are by
  then.  The books say something of runs only in which no page failed to be mapped and no
  controller was removed while device memory was mapped.
-/

import GidsStack.Driver.Module
import GidsStack.Lib.Transition
import Mathlib.Data.List.Perm.Basic

namespace GidsStack.Driver

/-! ## Runs -/

/-- What can happen to the module, one at a time: a request of a process, a device that is found,
    the device of a controller that goes away, a page table that the driver of the GPU wants
    back. -/
inductive ModAct where
  | ioctl (task inode : Nat) (copiedIn copiedOut : Bool) (cmd : Cmd)
  | probe (pdev : Nat) (o : ProbeOutcome)
  | remove (ctrl : Nat)
  | reclaim (e : Nat)

namespace Module

def call (s : Module) : ModAct → Option (Module × Reply)
  | .ioctl task inode copiedIn copiedOut cmd => s.mapIoctl task inode copiedIn copiedOut cmd
  | .probe pdev o => (s.addPciDev pdev o).map fun r => (r.1, r.2.elim (.ok []) .error)
  | .remove ctrl => do
    let pdev ← s.ctrls ctrl
    (s.removePciDev pdev).map fun s => (s, .ok [])
  | .reclaim e => (s.forceReleaseGpuMemory e).map fun s => (s, .ok [])

/-- Memory that the allocator gives is not in use. -/
def fresh (s : Module) : Option Nat → Bool
  | none => true
  | some e => decide (3 < e) && (s.maps e).isNone && (s.ctrls e).isNone

/-- What the kernel may do: it gives memory that is not in use, a device that goes away is that of
    one controller, and the driver of the GPU asks for page tables that it has given. -/
def enabled (s : Module) : ModAct → Bool
  | .ioctl _ _ _ _ (.mapHostMemory _ _ o) => s.fresh o.descriptor
  | .ioctl _ _ _ _ (.mapDeviceMemory _ _ o) => s.fresh o.descriptor
  | .ioctl _ _ _ _ (.unmapMemory _) => true
  | .probe _ o => s.fresh o.descriptor
  | .remove ctrl =>
    (s.ctrls ctrl).any fun pdev => decide (s.ctrlFindByPciDev pdev = some (some ctrl))
  | .reclaim e =>
    match s.maps e with
    | some ⟨_, _, _, _, .gpuRegion (some _) _, _⟩ => true
    | _ => false

end Module

def modStep (s : Module) (a : ModAct) : Option Module := (s.call a).map Prod.fst

/-- `libnvm_helper_entry`, with `max_num_ctrls` as the module is loaded. -/
def helperEntry (maxNumCtrls : Nat) : Module where
  maxNumCtrls := maxNumCtrls
  nodes := listInit (listInit (listInit (fun _ => ⟨none, none, none⟩) ListId.ctrl.addr)
    ListId.host.addr) ListId.device.addr
  maps _ := none
  ctrls _ := none
  currCtrls := 0
  held := []
  stray := []
  inserted := 0
  dmaErrors := 0
  removed := 0

/-- The states of the module between the calls of a run; map.c has room for 64 controllers. -/
def ModReached : Module → Prop :=
  Lib.Reachable (fun s => ∃ n ≤ 64, s = helperEntry n)
    (Lib.Guarded modStep fun s a => s.enabled a = true)

namespace Module

/-- `clear_map_list`, for at most `fuel` elements; the number of mappings that were left. -/
def clearMapList (list : ListId) : Nat → Module → Option (Module × Nat)
  | fuel, s =>
    match listNext s.nodes list.addr with
    | none => some (s, 0)
    | some e =>
      match fuel with
      | 0 => none
      | fuel + 1 => do
        let s ← s.unmapAndRelease e
        let r ← clearMapList list fuel s
        return (r.1, r.2 + 1)

/-- `libnvm_helper_exit`, up to what it does with the controllers. -/
def helperExit (s : Module) : Option Module := do
  let r ← clearMapList .device s.inserted s
  let r ← clearMapList .host r.1.inserted r.1
  return r.1

end Module

/-! ## Books -/

/-- What a mapping holds of the kernel, when its addresses are mapped. -/
def Map.resources (pdevs : List Nat) (map : Map) : List Resource :=
  match map.data with
  | .null => []
  | .userPages pages => map.addrs.map (.dma map.pdev) ++ pages.map .userPage
  | .gpuRegion table mappings =>
    List.zipWith .gpuMapping pdevs mappings ++ table.toList.map .pageTable

/-- As long as no page failed to be mapped and no controller was removed too early, the kernel has
    given `rs` and was given nothing back that it had not given. -/
structure Books (s : Module) (rs : List Resource) : Prop where
  valid : ∀ d, Resource.dma d dmaMappingError ∉ s.held
  clean : s.dmaErrors = 0 ∧ s.removed = 0 → s.stray = [] ∧ s.held.Perm rs

namespace Books

variable {s : Module} {rs new : List Resource}

theorem perm (h : Books s rs) {rs' : List Resource} (hp : rs.Perm rs') : Books s rs' :=
  ⟨h.valid, fun h0 => ⟨(h.clean h0).1, (h.clean h0).2.trans hp⟩⟩

theorem get (h : Books s rs) (hnew : ∀ d, Resource.dma d dmaMappingError ∉ new) :
    Books (s.get new) (rs ++ new) where
  valid d hmem := (List.mem_append.mp hmem).elim (h.valid d) (hnew d)
  clean h0 := ⟨(h.clean h0).1, (h.clean h0).2.append_right new⟩

theorem put (h : Books s rs) {r : Resource} {rest : List Resource} (hp : rs.Perm (r :: rest)) :
    Books (s.put r) rest := by
  rw [Module.put]
  split
  · exact ⟨fun d hmem => h.valid d (List.mem_of_mem_erase hmem), fun h0 =>
      ⟨(h.clean h0).1, (((h.clean h0).2.trans hp).erase r).trans (by rw [List.erase_cons_head])⟩⟩
  · rename_i hnot
    refine ⟨h.valid, fun h0 => absurd ?_ hnot⟩
    exact (((h.clean h0).2.trans hp).mem_iff).mpr List.mem_cons_self

theorem putAll (h : Books s rs) {rest : List Resource} (hp : rs.Perm (new ++ rest)) :
    Books (s.putAll new) rest := by
  induction new generalizing s rs with
  | nil => exact h.perm hp
  | cons r new ih => exact ih (h.put hp) (List.Perm.refl _)

end Books

namespace Module

variable {s : Module}

theorem putAll_append (s : Module) (rs rs' : List Resource) :
    s.putAll (rs ++ rs') = (s.putAll rs).putAll rs' :=
  List.foldl_append ..

/-- Giving back does not depend on the lists. -/
theorem putAll_nodes (s : Module) (nodes : NodeMem) (rs : List Resource) :
    Module.putAll { s with nodes := nodes } rs = { s.putAll rs with nodes := nodes } := by
  induction rs generalizing s with
  | nil => rfl
  | cons r rs ih =>
    have hput : Module.put { s with nodes := nodes } r = { s.put r with nodes := nodes } := by
      rw [put, put]
      split <;> rfl
    show Module.putAll (Module.put { s with nodes := nodes } r) rs = _
    rw [hput, ih]
    rfl

/-- Giving back changes the books only. -/
theorem putAll_frame (s : Module) (rs : List Resource) :
    ∃ held stray, s.putAll rs = { s with held := held, stray := stray } ∧
      (s.stray ≠ [] → stray ≠ []) := by
  induction rs generalizing s with
  | nil => exact ⟨s.held, s.stray, rfl, id⟩
  | cons r rs ih =>
    obtain ⟨held, stray, heq, hne⟩ := ih (s.put r)
    have hput : ∃ held stray, s.put r = { s with held := held, stray := stray } ∧
        (s.stray ≠ [] → stray ≠ []) := by
      rw [put]
      split
      · exact ⟨_, _, rfl, id⟩
      · exact ⟨_, _, rfl, fun _ => by simp⟩
    obtain ⟨held', stray', heq', hne'⟩ := hput
    refine ⟨held, stray, ?_, fun h => hne ?_⟩
    · show (s.put r).putAll rs = _
      rw [heq, heq']
    · rw [heq']
      exact hne' h

/-- An address that was not mapped is stray. -/
theorem putAll_stray {rs : List Resource} {r : Resource} (hr : r ∈ rs) (hnot : r ∉ s.held) :
    (s.putAll rs).stray ≠ [] := by
  induction rs generalizing s with
  | nil => exact absurd hr List.not_mem_nil
  | cons q rs ih =>
    by_cases hq : q ∈ s.held
    · have hput : s.put q = { s with held := s.held.erase q } := if_pos hq
      rcases List.mem_cons.mp hr with rfl | hmem
      · exact absurd hq hnot
      · show ((s.put q).putAll rs).stray ≠ []
        rw [hput]
        exact ih hmem fun hin => hnot (List.mem_of_mem_erase hin)
    · have hput : s.put q = { s with stray := s.stray ++ [q] } := if_neg hq
      obtain ⟨held, stray, heq, hne⟩ := (s.put q).putAll_frame rs
      show ((s.put q).putAll rs).stray ≠ []
      rw [heq]
      apply hne
      rw [hput]
      simp

end Module

/-! ## Descriptors -/

namespace Module

/-- What the descriptors `es` hold. -/
def owed (s : Module) (pdevs es : List Nat) : List Resource :=
  es.flatMap fun e => (s.maps e).elim [] (Map.resources pdevs)

/-- `pdev` of the controllers `cs`. -/
def pdevsOf (s : Module) (cs : List Nat) : List Nat := cs.filterMap s.ctrls

end Module

/-- The lists of the module and `us`, the descriptor that is not on a list yet. -/
structure Inv (s : Module) (xs : ListId → List Nat) (us : List Nat) : Prop where
  lists : Lists ListId.addr s.nodes xs
  ctrls : ∀ e, (s.ctrls e).isSome ↔ e ∈ xs .ctrl
  maps : ∀ e, (s.maps e).isSome ↔ e ∈ xs .host ++ xs .device ++ us
  unlinked : ∀ e ∈ us, (s.nodes e).list = none ∧ ∀ l : ListId, e ∉ l.addr :: xs l
  room : ∀ l, (xs l).length ≤ s.inserted
  count : s.currCtrls = (xs .ctrl).length ∧ (xs .ctrl).length ≤ s.maxNumCtrls
  host : ∀ e ∈ xs .host, ∀ map, s.maps e = some map → ∀ t ms, map.data ≠ .gpuRegion t ms
  mappings : s.removed = 0 → ∀ e map t ms, s.maps e = some map → map.data = .gpuRegion t ms →
    ms.length ≤ (xs .ctrl).length
  books : Books s (s.owed (s.pdevsOf (xs .ctrl)) (xs .host ++ xs .device ++ us))

namespace Inv

variable {s : Module} {xs : ListId → List Nat} {us : List Nat} {e : Nat}

theorem ctrlElems (h : Inv s xs us) : s.ctrlElems = some (xs .ctrl) :=
  (h.lists.isList .ctrl).elems (h.room .ctrl)

theorem ctrlPdevs_of_elems {cs : List Nat} (hc : s.ctrlElems = some cs)
    (hall : ∀ e ∈ cs, (s.ctrls e).isSome) : s.ctrlPdevs = some (s.pdevsOf cs) := by
  have hmap : cs.mapM s.ctrls = some (cs.filterMap s.ctrls) := by
    clear hc
    induction cs with
    | nil => rfl
    | cons c cs ih =>
      obtain ⟨d, hd⟩ := Option.isSome_iff_exists.mp (hall c List.mem_cons_self)
      rw [List.mapM_cons, hd, List.filterMap_cons_some hd,
        ih fun e he => hall e (List.mem_cons_of_mem c he)]
      rfl
  rw [Module.ctrlPdevs, hc]
  exact hmap

theorem ctrlPdevs (h : Inv s xs us) : s.ctrlPdevs = some (s.pdevsOf (xs .ctrl)) :=
  ctrlPdevs_of_elems h.ctrlElems fun e he => (h.ctrls e).mpr he

theorem pdevs_length (h : Inv s xs us) : (s.pdevsOf (xs .ctrl)).length = (xs .ctrl).length := by
  rw [Module.pdevsOf, List.length_filterMap_eq_countP, List.countP_eq_length]
  exact fun e he => (h.ctrls e).mpr he

/-- Memory that is not in use is on no list. -/
theorem outside (h : Inv s xs us) (hf : s.fresh (some e) = true) :
    (∀ l : ListId, e ∉ l.addr :: xs l) ∧ s.maps e = none := by
  simp only [Module.fresh, Bool.and_eq_true, decide_eq_true_eq, Option.isNone_iff_eq_none] at hf
  obtain ⟨⟨habove, hmap⟩, hctrl⟩ := hf
  refine ⟨fun l hmem => ?_, hmap⟩
  rcases List.mem_cons.mp hmem with heq | hin
  · have hle : l.addr ≤ 3 := by cases l <;> decide
    omega
  · cases l with
    | ctrl =>
      have hsome := (h.ctrls e).mpr hin
      rw [hctrl] at hsome
      exact absurd hsome Bool.false_ne_true
    | host =>
      have hsome := (h.maps e).mpr (by simp [hin])
      rw [hmap] at hsome
      exact absurd hsome Bool.false_ne_true
    | device =>
      have hsome := (h.maps e).mpr (by simp [hin])
      rw [hmap] at hsome
      exact absurd hsome Bool.false_ne_true

end Inv

theorem owed_congr {s s' : Module} {pdevs es : List Nat} (h : ∀ e ∈ es, s'.maps e = s.maps e) :
    s'.owed pdevs es = s.owed pdevs es := by
  rw [Module.owed, Module.owed, List.flatMap_congr]
  intro e he
  rw [h e he]

theorem owed_append (s : Module) (pdevs es es' : List Nat) :
    s.owed pdevs (es ++ es') = s.owed pdevs es ++ s.owed pdevs es' :=
  List.flatMap_append

theorem owed_single {s : Module} {pdevs : List Nat} {e : Nat} {map : Map}
    (h : s.maps e = some map) : s.owed pdevs [e] = map.resources pdevs := by
  rw [Module.owed, List.flatMap_singleton, h]
  rfl

/-! ## Operations -/

namespace Inv

variable {s : Module} {xs : ListId → List Nat} {us : List Nat} {e : Nat}

/-- A new descriptor that holds nothing. -/
theorem create (h : Inv s xs []) (hf : s.fresh (some e) = true) {map : Map}
    (hdata : map.data = .null) (owner pdev vaddr n : Nat) :
    Inv ((s.createDescriptor e owner pdev vaddr n).setMap e map) xs [e] := by
  obtain ⟨hout, hnone⟩ := h.outside hf
  have hmaps : ∀ a, ((s.createDescriptor e owner pdev vaddr n).setMap e map).maps a =
      if a = e then some map else s.maps a := by
    intro a
    simp only [Module.setMap, Module.createDescriptor, Function.update_apply]
    split <;> rfl
  have hne : ∀ a ∈ xs .host ++ xs .device, a ≠ e := by
    rintro a ha rfl
    rcases List.mem_append.mp ha with ha | ha
    · exact hout .host (List.mem_cons_of_mem _ ha)
    · exact hout .device (List.mem_cons_of_mem _ ha)
  refine ⟨h.lists.congr fun l a ha => Function.update_of_ne ?_ .., h.ctrls, fun a => ?_,
    fun a ha => ?_, h.room, h.count, fun a ha map' hm => ?_, fun hr a map' t ms hm hd => ?_, ?_⟩
  · rintro rfl
    exact hout l ha
  · rw [hmaps]
    by_cases ha : a = e
    · simp [ha]
    · rw [if_neg ha, h.maps, List.append_nil]
      simp [ha]
  · obtain rfl := List.mem_singleton.mp ha
    have hnode : listNodeInit s.nodes a a = ⟨none, none, none⟩ := Function.update_self ..
    exact ⟨congrArg ListNode.list hnode, hout⟩
  · rw [hmaps, if_neg (hne a (List.mem_append_left _ ha))] at hm
    exact h.host a ha map' hm
  · rw [hmaps] at hm
    by_cases ha : a = e
    · rw [if_pos ha] at hm
      obtain rfl := Option.some.inj hm
      rw [hdata] at hd
      cases hd
    · rw [if_neg ha] at hm
      exact h.mappings hr a map' t ms hm hd
  · have hbooks := h.books
    have hmap : map.resources (s.pdevsOf (xs .ctrl)) = [] := by rw [Map.resources, hdata]
    rw [List.append_nil] at hbooks
    show Books _ (Module.owed _ (s.pdevsOf (xs .ctrl)) _)
    rw [owed_append, owed_single ((hmaps e).trans (if_pos rfl)), hmap, List.append_nil,
      owed_congr fun a ha => (hmaps a).trans (if_neg (hne a ha))]
    exact ⟨hbooks.valid, hbooks.clean⟩

/-- The descriptor that is not on a list changes, and holds `new` besides. -/
theorem setMap (h : Inv s xs [e]) {old map : Map} (hold : s.maps e = some old)
    (hms : ∀ t ms, map.data = .gpuRegion t ms → ms.length ≤ (xs .ctrl).length)
    {new : List Resource} (hnew : ∀ d, Resource.dma d dmaMappingError ∉ new) {n : Nat}
    (hres : s.dmaErrors + n = 0 → (map.resources (s.pdevsOf (xs .ctrl))).Perm
      (old.resources (s.pdevsOf (xs .ctrl)) ++ new)) :
    Inv { (s.setMap e map).get new with dmaErrors := s.dmaErrors + n } xs [e] := by
  obtain ⟨-, hout⟩ := h.unlinked e List.mem_cons_self
  have hmaps : ∀ a, (s.setMap e map).maps a = if a = e then some map else s.maps a := fun a =>
    Function.update_apply ..
  have hne : ∀ a ∈ xs .host ++ xs .device, a ≠ e := by
    rintro a ha rfl
    rcases List.mem_append.mp ha with ha | ha
    · exact hout .host (List.mem_cons_of_mem _ ha)
    · exact hout .device (List.mem_cons_of_mem _ ha)
  refine ⟨h.lists, h.ctrls, fun a => ?_, h.unlinked, h.room, h.count, fun a ha map' hm => ?_,
    fun hr a map' t ms hm hd => ?_, ?_⟩
  · show ((s.setMap e map).maps a).isSome ↔ _
    rw [hmaps]
    by_cases ha : a = e
    · simp [ha]
    · rw [if_neg ha]
      exact h.maps a
  · have hm' : (s.setMap e map).maps a = some map' := hm
    rw [hmaps, if_neg (hne a (List.mem_append_left _ ha))] at hm'
    exact h.host a ha map' hm'
  · have hm' : (s.setMap e map).maps a = some map' := hm
    rw [hmaps] at hm'
    by_cases ha : a = e
    · rw [if_pos ha] at hm'
      obtain rfl := Option.some.inj hm'
      exact hms t ms hd
    · rw [if_neg ha] at hm'
      exact h.mappings hr a map' t ms hm' hd
  · have hbooks := h.books.get hnew
    rw [owed_append, owed_single hold, List.append_assoc] at hbooks
    show Books _ (Module.owed (s.setMap e map) (s.pdevsOf (xs .ctrl)) _)
    rw [owed_append, owed_single ((hmaps e).trans (if_pos rfl)),
      owed_congr fun a ha => (hmaps a).trans (if_neg (hne a ha))]
    refine ⟨hbooks.valid, fun h0 => ?_⟩
    have h0' : s.dmaErrors + n = 0 := h0.1
    obtain ⟨hstray, hheld⟩ := hbooks.clean ⟨show s.dmaErrors = 0 by omega, h0.2⟩
    exact ⟨hstray, hheld.trans ((hres h0').symm.append_left _)⟩

/-- The descriptors of a change of one list. -/
theorem descs_perm {l : ListId} (hl : l ≠ .ctrl) {ys : List Nat}
    (hp : (xs l ++ us).Perm ys) :
    (xs .host ++ xs .device ++ us).Perm
      (Function.update xs l ys .host ++ Function.update xs l ys .device ++ []) := by
  rw [List.append_nil]
  cases l with
  | ctrl => exact absurd rfl hl
  | host =>
    rw [Function.update_self, Function.update_of_ne (by decide)]
    calc xs .host ++ xs .device ++ us
      _ = xs .host ++ (xs .device ++ us) := List.append_assoc ..
      _ |>.Perm (xs .host ++ (us ++ xs .device)) := List.perm_append_comm.append_left _
      _ = xs .host ++ us ++ xs .device := (List.append_assoc ..).symm
      _ |>.Perm (ys ++ xs .device) := hp.append_right _
  | device =>
    rw [Function.update_self, Function.update_of_ne (by decide), List.append_assoc]
    exact hp.append_left _

/-- `list_insert` of the descriptor. -/
theorem link (h : Inv s xs [e]) {l : ListId} (hl : l ≠ .ctrl)
    (hhost : l = .host → ∀ map, s.maps e = some map → ∀ t ms, map.data ≠ .gpuRegion t ms) :
    ∃ nodes, listInsert s.nodes l.addr e = some nodes ∧
      Inv { s with nodes := nodes, inserted := s.inserted + 1 }
        (Function.update xs l (xs l ++ [e])) [] := by
  obtain ⟨-, hout⟩ := h.unlinked e List.mem_cons_self
  obtain ⟨nodes, hn, hlists, -⟩ := h.lists.insert l hout
  have hctrl : Function.update xs l (xs l ++ [e]) .ctrl = xs .ctrl :=
    Function.update_of_ne hl.symm ..
  have hperm := descs_perm hl (List.Perm.refl (xs l ++ [e]))
  refine ⟨nodes, hn, hlists, fun a => ?_, fun a => ?_, fun a ha => absurd ha List.not_mem_nil,
    fun k => ?_, ?_, fun a ha => ?_, fun hr a map t ms hm hd => ?_, ?_⟩
  · rw [hctrl]
    exact h.ctrls a
  · rw [← hperm.mem_iff]
    exact h.maps a
  · show _ ≤ s.inserted + 1
    have hroom := h.room k
    rw [Function.update_apply]
    split
    · rename_i heq
      rw [heq] at hroom
      rw [List.length_append, List.length_singleton]
      omega
    · omega
  · rw [hctrl]
    exact h.count
  · by_cases hlh : l = .host
    · subst hlh
      rw [Function.update_self, List.mem_append, List.mem_singleton] at ha
      rcases ha with ha | rfl
      · exact h.host a ha
      · exact hhost rfl
    · rw [Function.update_of_ne (Ne.symm hlh)] at ha
      exact h.host a ha
  · rw [hctrl]
    exact h.mappings hr a map t ms hm hd
  · rw [hctrl]
    exact ⟨h.books.valid, (h.books.perm (hperm.flatMap_right _)).clean⟩

/-- What `release` gives back. -/
theorem release_eq {pdevs : List Nat} (hp : s.ctrlPdevs = some pdevs) (map : Map) :
    s.release map = some (s.putAll (map.resources pdevs)) := by
  rw [Module.release, Map.resources]
  cases map.data with
  | null => rfl
  | userPages pages => exact congrArg some (s.putAll_append _ _).symm
  | gpuRegion table mappings =>
    rw [hp]
    exact congrArg some (s.putAll_append _ _).symm

/-- The module after the descriptor `e` is freed. -/
def freed (s : Module) (e : Nat) (nodes : NodeMem) (held stray : List Resource) : Module :=
  { s with
    nodes := nodes
    maps := Function.update s.maps e none
    held := held
    stray := stray }

/-- A descriptor is taken off the lists, gives back what it holds and is gone. -/
theorem forget (h : Inv s xs us) {map : Map} (hm : s.maps e = some map) {nodes : NodeMem}
    {xs' : ListId → List Nat} (hlists : Lists ListId.addr nodes xs')
    (hctrl : xs' .ctrl = xs .ctrl) (hlen : ∀ l, (xs' l).length ≤ (xs l).length)
    (hperm : (xs .host ++ xs .device ++ us).Perm (e :: (xs' .host ++ xs' .device)))
    (hhost : ∀ a ∈ xs' .host, a ∈ xs .host) (he : e ∉ xs' .host ++ xs' .device) :
    ∃ held stray,
      Module.release { s with nodes := nodes } map =
        some { s with nodes := nodes, held := held, stray := stray } ∧
      Inv (freed s e nodes held stray) xs' [] ∧
      (s.stray ≠ [] → stray ≠ []) ∧
      ((∃ r ∈ map.resources (s.pdevsOf (xs .ctrl)), r ∉ s.held) → stray ≠ []) := by
  set rs := map.resources (s.pdevsOf (xs .ctrl)) with hrs
  -- the descriptor is off its list when it is released; the controllers are where they were
  have hpdevs : Module.ctrlPdevs { s with nodes := nodes } = some (s.pdevsOf (xs .ctrl)) := by
    refine ctrlPdevs_of_elems (s := { s with nodes := nodes }) ?_ fun a ha => (h.ctrls a).mpr ha
    show listElems nodes s.inserted ListId.ctrl.addr = some (xs .ctrl)
    rw [← hctrl]
    exact (hlists.isList .ctrl).elems ((hlen .ctrl).trans (h.room .ctrl))
  obtain ⟨held, stray, hput, hstray⟩ := Module.putAll_frame { s with nodes := nodes } rs
  have hbooks : Books { s with nodes := nodes, held := held, stray := stray }
      (s.owed (s.pdevsOf (xs .ctrl)) (xs' .host ++ xs' .device)) := by
    have hb : Books { s with nodes := nodes }
        (s.owed (s.pdevsOf (xs .ctrl)) (xs .host ++ xs .device ++ us)) :=
      ⟨h.books.valid, h.books.clean⟩
    have hsum : (s.owed (s.pdevsOf (xs .ctrl)) (xs .host ++ xs .device ++ us)).Perm
        (rs ++ s.owed (s.pdevsOf (xs .ctrl)) (xs' .host ++ xs' .device)) := by
      refine (hperm.flatMap_right _).trans ?_
      show (s.owed _ ([e] ++ _)).Perm _
      rw [owed_append, owed_single hm]
      exact List.Perm.refl _
    have hall := hb.putAll hsum
    rwa [hput] at hall
  refine ⟨held, stray, ?_, ⟨hlists, fun a => ?_, fun a => ?_,
    fun a ha => absurd ha List.not_mem_nil,
    fun l => (hlen l).trans (h.room l), ?_, fun a ha map' hm' => ?_, fun hr a map' t ms hm' hd => ?_,
    ?_⟩, hstray, ?_⟩
  · rw [release_eq hpdevs, ← hrs, hput]
  · rw [hctrl]
    exact h.ctrls a
  · show (Function.update s.maps e none a).isSome ↔ _
    rw [List.append_nil]
    by_cases ha : a = e
    · subst ha
      rw [Function.update_self]
      exact iff_of_false Bool.false_ne_true he
    · rw [Function.update_of_ne ha, h.maps, hperm.mem_iff, List.mem_cons, or_iff_right ha]
  · rw [hctrl]
    exact h.count
  · have hm'' : Function.update s.maps e none a = some map' := hm'
    by_cases hae : a = e
    · rw [hae, Function.update_self] at hm''
      cases hm''
    · rw [Function.update_of_ne hae] at hm''
      exact h.host a (hhost a ha) map' hm''
  · have hm'' : Function.update s.maps e none a = some map' := hm'
    rw [hctrl]
    by_cases hae : a = e
    · rw [hae, Function.update_self] at hm''
      cases hm''
    · rw [Function.update_of_ne hae] at hm''
      exact h.mappings hr a map' t ms hm'' hd
  · rw [hctrl, List.append_nil]
    show Books _ (Module.owed (freed s e nodes held stray) (s.pdevsOf (xs .ctrl)) _)
    rw [owed_congr (s := s)]
    · exact ⟨hbooks.valid, hbooks.clean⟩
    · intro a ha
      refine Function.update_of_ne ?_ ..
      rintro rfl
      exact he ha
  · rintro ⟨r, hr, hnot⟩
    have hne := Module.putAll_stray (s := { s with nodes := nodes }) hr hnot
    rwa [hput] at hne

/-- `unmap_and_release` of the descriptor that is not on a list. -/
theorem unmapUnlinked (h : Inv s xs [e]) {map : Map} (hm : s.maps e = some map) :
    ∃ held stray,
      s.unmapAndRelease e = some (freed s e s.nodes held stray) ∧
      Inv (freed s e s.nodes held stray) xs [] ∧
      (s.stray ≠ [] → stray ≠ []) ∧
      ((∃ r ∈ map.resources (s.pdevsOf (xs .ctrl)), r ∉ s.held) → stray ≠ []) := by
  obtain ⟨hnull, hout⟩ := h.unlinked e List.mem_cons_self
  have he : e ∉ xs .host ++ xs .device := by
    rw [List.mem_append, not_or]
    exact ⟨fun hmem => hout .host (List.mem_cons_of_mem _ hmem),
      fun hmem => hout .device (List.mem_cons_of_mem _ hmem)⟩
  obtain ⟨held, stray, hrel, hinv, hstray, hout'⟩ := h.forget hm h.lists rfl (fun _ => le_rfl)
    (List.perm_append_singleton e _) (fun a ha => ha) he
  refine ⟨held, stray, ?_, hinv, hstray, hout'⟩
  have hremove : listRemove s.nodes e = some s.nodes := by rw [listRemove, hnull]
  rw [Module.unmapAndRelease, hremove]
  show (s.maps e).bind _ = _
  rw [hm]
  show (Module.release { s with nodes := s.nodes } map).bind _ = _
  rw [hrel]
  rfl

/-- `unmap_and_release` of a descriptor on a list. -/
theorem unmapLinked (h : Inv s xs []) {l : ListId} (hl : l ≠ .ctrl) {pre post : List Nat}
    (hsplit : xs l = pre ++ e :: post) :
    ∃ nodes held stray map,
      s.maps e = some map ∧
      s.unmapAndRelease e = some (freed s e nodes held stray) ∧
      Inv (freed s e nodes held stray) (Function.update xs l (pre ++ post)) [] ∧
      (s.stray ≠ [] → stray ≠ []) := by
  have hin : e ∈ xs l := hsplit ▸ List.mem_append_right _ List.mem_cons_self
  have hsome : (s.maps e).isSome := by
    rw [h.maps]
    cases l with
    | ctrl => exact absurd rfl hl
    | host => simp [hin]
    | device => simp [hin]
  obtain ⟨map, hm⟩ := Option.isSome_iff_exists.mp hsome
  obtain ⟨nodes, hn, hlists, -⟩ := h.lists.remove hsplit
  have hsub : ∀ k, (Function.update xs l (pre ++ post) k).Sublist (xs k) := by
    intro k
    by_cases hk : k = l
    · subst hk
      rw [Function.update_self, hsplit]
      exact (List.sublist_cons_self e post).append_left pre
    · rw [Function.update_of_ne hk]
  have hctrl : Function.update xs l (pre ++ post) .ctrl = xs .ctrl :=
    Function.update_of_ne hl.symm ..
  have hdesc : (xs .host ++ xs .device ++ []).Perm
      (e :: (Function.update xs l (pre ++ post) .host ++
        Function.update xs l (pre ++ post) .device)) := by
    rw [List.append_nil]
    cases l with
    | ctrl => exact absurd rfl hl
    | host =>
      rw [Function.update_self, Function.update_of_ne (by decide), hsplit]
      exact List.perm_middle.append_right _
    | device =>
      rw [Function.update_self, Function.update_of_ne (by decide), hsplit]
      exact (List.perm_middle.append_left _).trans List.perm_middle
  have he : e ∉ Function.update xs l (pre ++ post) .host ++
      Function.update xs l (pre ++ post) .device := by
    have hnodup : (xs .host ++ xs .device ++ []).Nodup := by
      rw [List.append_nil]
      exact (h.lists.isList .host).nodup.append (h.lists.isList .device).nodup fun a ha ha' =>
        h.lists.apart .host .device (by decide) a ha ha'
    exact (List.nodup_cons.mp (hdesc.nodup_iff.mp hnodup)).1
  obtain ⟨held, stray, hrel, hinv, hstray, -⟩ := h.forget hm hlists hctrl
    (fun k => (hsub k).length_le) hdesc (fun a ha => (hsub .host).mem ha) he
  refine ⟨nodes, held, stray, map, hm, ?_, hinv, hstray⟩
  rw [Module.unmapAndRelease, hn]
  show (s.maps e).bind _ = _
  rw [hm]
  show (Module.release { s with nodes := nodes } map).bind _ = _
  rw [hrel]
  rfl

end Inv

end GidsStack.Driver
