/-
  GidsStack.Driver.Runs

  The runs of the kernel module: in every state they reach its calls are those of the registry
  (`module_refines`).

  A request to unmap an address takes away the first mapping of the process at the page or at the
  64 KiB of it; it is the one at the page exactly if no earlier one is at the start of the 64 KiB
  (`unmap_right_iff`).  If a page failed to be mapped something is given back that the kernel has
  not given; if none did, and no controller was removed while device memory was mapped, unloading
  leaves nothing behind (`books_balanced`).
-/

import GidsStack.Driver.Calls

namespace GidsStack.Driver

theorem helperEntry_inv (n : Nat) : Inv (helperEntry n) (fun _ => []) [] := by
  have hlist : ∀ l : ListId, IsList (helperEntry n).nodes l.addr [] := by
    intro l
    cases l with
    | device => exact listInit_isList ..
    | host =>
      refine (listInit_isList _ _).congr fun a ha => Function.update_of_ne ?_ ..
      rw [List.mem_singleton.mp ha]
      decide
    | ctrl =>
      refine (listInit_isList (fun _ => ⟨none, none, none⟩) _).congr fun a ha => ?_
      rw [List.mem_singleton.mp ha]
      rfl
  have hheads : Function.Injective ListId.addr := by
    intro l l'
    cases l <;> cases l' <;> decide
  refine ⟨⟨hlist, hheads, fun _ _ => List.not_mem_nil, fun _ _ _ _ _ => List.not_mem_nil⟩,
    fun e => ?_, fun e => ?_, fun e he => absurd he List.not_mem_nil, fun _ => Nat.zero_le _,
    ⟨rfl, Nat.zero_le _⟩, fun e he => absurd he List.not_mem_nil, fun _ e map t ms hm => ?_,
    fun d => List.not_mem_nil, fun _ => ⟨rfl, List.Perm.refl []⟩⟩
  · exact iff_of_false Bool.false_ne_true List.not_mem_nil
  · exact iff_of_false Bool.false_ne_true List.not_mem_nil
  · cases hm

theorem reached_inv {s : Module} (hs : ModReached s) :
    ∃ xs, Inv s xs [] ∧ s.Dirty ∧ (s.registryOf xs).Aligned := by
  refine Lib.Reachable.invariant
    (I := fun s => ∃ xs, Inv s xs [] ∧ s.Dirty ∧ (s.registryOf xs).Aligned) ?_ ?_ hs
  · rintro s ⟨n, -, rfl⟩
    exact ⟨_, helperEntry_inv n, fun hne => absurd rfl hne,
      fun x hx => absurd hx List.not_mem_nil, fun x hx => absurd hx List.not_mem_nil⟩
  · rintro s a s' ⟨xs, h, hd, halign⟩ ⟨ha, hstep⟩
    obtain ⟨t, xs', hcall, hinv, hd', hreg⟩ := h.call hd ha
    rw [modStep, hcall] at hstep
    obtain rfl : t = s' := Option.some.inj hstep
    refine ⟨xs', hinv, hd', ?_⟩
    rw [hreg]
    exact halign.call a

/-- Two pages that a process maps, the first at the start of 64 KiB. -/
def twoPages : List ModAct :=
  [.probe 5 ⟨some 10, none⟩,
    .ioctl 7 10 true true (.mapHostMemory 65536 1 ⟨some 11, true, .ok [1], fun _ => 4096⟩),
    .ioctl 7 10 true true (.mapHostMemory 69700 1 ⟨some 12, true, .ok [2], fun _ => 8192⟩)]

theorem twoPages_reached :
    ∃ s, Lib.runActs modStep (helperEntry 64) twoPages = some s ∧ ModReached s ∧
      s.registry = some ⟨64, [10], [⟨11, 7, 65536, [4096]⟩, ⟨12, 7, 69632, [8192]⟩], []⟩ := by
  have hok : Lib.runOk modStep (fun s a => s.enabled a = true) (helperEntry 64) twoPages := by decide
  exact ⟨_, rfl, Lib.reachable_of_runActs (.init ⟨64, le_rfl, rfl⟩) hok rfl, rfl⟩

theorem entries_nodup {s : Module} {es : List Nat} (h : es.Nodup) : (s.entries es).Nodup := by
  refine h.filterMap fun a a' x ha ha' => ?_
  obtain ⟨map, -, rfl⟩ := Option.map_eq_some_iff.mp ha
  obtain ⟨map', -, heq⟩ := Option.map_eq_some_iff.mp ha'
  exact (congrArg Entry.id heq).symm

/-- The first element with a property is the one in the middle exactly if none before has it. -/
theorem eraseP_middle_iff {α : Type} {p : α → Bool} {pre post : List α} {x : α}
    (hp : p x = true) (hnodup : (pre ++ x :: post).Nodup) :
    (pre ++ x :: post).eraseP p = pre ++ post ↔ ∀ y ∈ pre, ¬ p y = true := by
  constructor
  · intro heq y hy hpy
    rw [List.eraseP_append_left hpy _ hy] at heq
    have hmem : x ∈ pre.eraseP p ++ x :: post := List.mem_append_right _ List.mem_cons_self
    rw [heq] at hmem
    exact (List.nodup_cons.mp (List.nodup_middle.mp hnodup)).1 hmem
  · intro hpre
    rw [List.eraseP_append_right _ hpre, List.eraseP_cons_of_pos hp]

/-- A process that unmaps the address of a mapping of host memory, the first it made at that
    address, loses this mapping and no other exactly if it made none before at the start of the
    64 KiB around it. -/
theorem unmap_right_iff {s : Module} (hs : ModReached s) {g : Registry}
    (hg : s.registry = some g) {m : Entry} {pre post : List Entry}
    (hsplit : g.host = pre ++ m :: post)
    (hfirst : ∀ x ∈ pre, x.owner = m.owner → x.vaddr ≠ m.vaddr) :
    (∃ s', s.unmapMemory m.owner m.vaddr = some (s', .ok []) ∧
        s'.registry = some { g with host := pre ++ post }) ↔
      ∀ x ∈ pre, x.owner = m.owner → x.vaddr ≠ gpuPageMask m.vaddr := by
  obtain ⟨xs, h, hd, halign⟩ := reached_inv hs
  obtain rfl : s.registryOf xs = g := Option.some.inj (h.registry.symm.trans hg)
  have hpage : pageMask m.vaddr = m.vaddr :=
    halign.host m (hsplit ▸ List.mem_append_right _ List.mem_cons_self)
  have hmeant : Entry.meant m.owner m.vaddr m = true := decide_eq_true ⟨rfl, .inl hpage.symm⟩
  have hany : (s.registryOf xs).host.any (Entry.meant m.owner m.vaddr) = true := by
    rw [hsplit, List.any_append, List.any_cons, hmeant, Bool.true_or, Bool.or_true]
  have hnodup : (pre ++ m :: post).Nodup :=
    hsplit ▸ entries_nodup (h.lists.isList .host).nodup
  obtain ⟨s', xs', hcall, hinv, -, hreg⟩ := h.unmapMemory hd m.owner m.vaddr
  rw [Registry.unmap, if_pos hany] at hcall hreg
  have hiff := eraseP_middle_iff hmeant hnodup
  rw [← hsplit] at hiff
  have hcond : (∀ x ∈ pre, ¬ Entry.meant m.owner m.vaddr x = true) ↔
      ∀ x ∈ pre, x.owner = m.owner → x.vaddr ≠ gpuPageMask m.vaddr := by
    refine forall₂_congr fun x hx => ?_
    rw [Entry.meant, decide_eq_true_eq, hpage, not_and, not_or]
    exact forall_congr' fun howner => and_iff_right (hfirst x hx howner)
  rw [← hcond, ← hiff]
  -- what the module does is decided by the registry, and so by the list that is left
  constructor
  · rintro ⟨t, ht, hregt⟩
    rw [hcall] at ht
    obtain rfl : s' = t := congrArg Prod.fst (Option.some.inj ht)
    rw [hinv.registry, hreg] at hregt
    exact congrArg Registry.host (Option.some.inj hregt)
  · intro heq
    exact ⟨s', hcall, by rw [hinv.registry, hreg, heq]⟩

theorem twoPages_unmap :
    ∃ s, Lib.runActs modStep (helperEntry 64) twoPages = some s ∧
      ¬ ∃ s', s.unmapMemory 7 69632 = some (s', .ok []) ∧
        s'.registry = some ⟨64, [10], [⟨11, 7, 65536, [4096]⟩], []⟩ := by
  obtain ⟨s, hrun, hs, hg⟩ := twoPages_reached
  have hsplit : ([⟨11, 7, 65536, [4096]⟩, ⟨12, 7, 69632, [8192]⟩] : List Entry) =
      [⟨11, 7, 65536, [4096]⟩] ++ ⟨12, 7, 69632, [8192]⟩ :: [] := rfl
  refine ⟨s, hrun, (unmap_right_iff hs hg hsplit (by decide)).not.mpr ?_⟩
  decide

/-! ## Unloading -/

/-- `clear_map_list` ends with an empty list. -/
theorem clearMapList_inv {l : ListId} (hl : l ≠ .ctrl) {es : List Nat} {s : Module}
    {xs : ListId → List Nat} (h : Inv s xs []) (hes : xs l = es) {fuel : Nat}
    (hfuel : es.length ≤ fuel) :
    ∃ s', Module.clearMapList l fuel s = some (s', es.length) ∧
      Inv s' (Function.update xs l []) [] ∧ s'.dmaErrors = s.dmaErrors ∧
      s'.removed = s.removed := by
  have hnext : listNext s.nodes l.addr = es.head? := hes ▸ (h.lists.isList l).next_head
  -- every round takes the first element off, so that `fuel` bounds the elements left
  induction es generalizing s xs fuel with
  | nil =>
    refine ⟨s, ?_, ?_, rfl, rfl⟩
    · have hnone : listNext s.nodes l.addr = none := hnext
      rw [Module.clearMapList, hnone]
      rfl
    · have hsame : Function.update xs l [] = xs := by rw [← hes, Function.update_eq_self]
      rwa [hsame]
  | cons e es ih =>
    obtain ⟨fuel, rfl⟩ : ∃ f, fuel = f + 1 :=
      Nat.exists_eq_succ_of_ne_zero (by rw [List.length_cons] at hfuel; omega)
    obtain ⟨nodes, held, stray, map, -, hunmap, hinv, -⟩ := h.unmapLinked hl
      (show xs l = [] ++ e :: es from hes)
    have hself : Function.update xs l ([] ++ es) l = es := Function.update_self ..
    obtain ⟨s', hclear, hinv', hkept⟩ := ih hinv hself (Nat.le_of_succ_le_succ hfuel)
      (hself ▸ (hinv.lists.isList l).next_head)
    rw [Function.update_idem] at hinv'
    refine ⟨s', ?_, hinv', hkept⟩
    have hsome : listNext s.nodes l.addr = some e := hnext
    rw [Module.clearMapList, hsome]
    show (s.unmapAndRelease e).bind _ = _
    rw [hunmap]
    show (Module.clearMapList l fuel _).bind _ = _
    rw [hclear]
    rfl

/-- `libnvm_helper_exit` leaves no mapping. -/
theorem helperExit_inv {s : Module} {xs : ListId → List Nat} (h : Inv s xs []) :
    ∃ s', s.helperExit = some s' ∧
      Inv s' (Function.update (Function.update xs .device []) .host []) [] ∧
      s'.dmaErrors = s.dmaErrors ∧ s'.removed = s.removed := by
  obtain ⟨t, hdevice, hinv, herrors, hremoved⟩ :=
    clearMapList_inv (l := .device) (by decide) h rfl (h.room .device)
  obtain ⟨s', hhost, hinv', herrors', hremoved'⟩ :=
    clearMapList_inv (l := .host) (by decide) hinv rfl (hinv.room .host)
  refine ⟨s', ?_, hinv', herrors'.trans herrors, hremoved'.trans hremoved⟩
  rw [Module.helperExit, hdevice]
  show (Module.clearMapList .host t.inserted t).bind _ = _
  rw [hhost]
  rfl

/-- In every run in which a page failed to be mapped the module has given back something it did
    not have.  If none did, and no controller was removed while there was device memory on the
    list, it has given back what it had, holds what the descriptors on its lists say, and nothing
    after it is unloaded, which always ends and frees all descriptors. -/
theorem books_balanced {s : Module} (hs : ModReached s) :
    ∃ cs hs ds s',
      s.ctrlElems = some cs ∧
      listElems s.nodes s.inserted ListId.host.addr = some hs ∧
      listElems s.nodes s.inserted ListId.device.addr = some ds ∧
      (s.dmaErrors ≠ 0 → s.stray ≠ []) ∧
      (s.dmaErrors = 0 ∧ s.removed = 0 →
        s.stray = [] ∧ s.held.Perm (s.owed (s.pdevsOf cs) (hs ++ ds))) ∧
      s.helperExit = some s' ∧ (∀ e, s'.maps e = none) ∧
      (s.dmaErrors = 0 ∧ s.removed = 0 → s'.held = [] ∧ s'.stray = []) := by
  obtain ⟨xs, h, hd, -⟩ := reached_inv hs
  obtain ⟨s', hexit, hinv, herrors, hremoved⟩ := helperExit_inv h
  have hnil : Function.update (Function.update xs .device []) .host [] .host ++
      Function.update (Function.update xs .device []) .host [] .device ++ [] = ([] : List Nat) := by
    rw [Function.update_self, Function.update_of_ne (by decide), Function.update_self]
    rfl
  refine ⟨xs .ctrl, xs .host, xs .device, s', h.ctrlElems,
    (h.lists.isList .host).elems (h.room .host), (h.lists.isList .device).elems (h.room .device),
    hd, fun h0 => ?_, hexit, fun e => ?_, fun h0 => ?_⟩
  · have hclean := h.books.clean h0
    rwa [List.append_nil] at hclean
  · rw [← Option.not_isSome_iff_eq_none, hinv.maps, hnil]
    exact List.not_mem_nil
  · obtain ⟨hstray, hheld⟩ :=
      hinv.books.clean ⟨herrors.trans h0.1, hremoved.trans h0.2⟩
    rw [hnil] at hheld
    exact ⟨List.perm_nil.mp hheld, hstray⟩

theorem twoPages_unload :
    ∃ s s', Lib.runActs modStep (helperEntry 64) twoPages = some s ∧
      s.helperExit = some s' ∧ s'.held = [] ∧ s'.stray = [] := by
  obtain ⟨s, hrun, hs, -⟩ := twoPages_reached
  obtain ⟨-, -, -, s', -, -, -, -, -, hexit, -, hbooks⟩ := books_balanced hs
  have herrors : (Lib.runActs modStep (helperEntry 64) twoPages).map Module.dmaErrors = some 0 :=
    rfl
  have hremoved : (Lib.runActs modStep (helperEntry 64) twoPages).map Module.removed = some 0 :=
    rfl
  rw [hrun] at herrors hremoved
  exact ⟨s, s', hrun, hexit, hbooks ⟨Option.some.inj herrors, Option.some.inj hremoved⟩⟩

/-- Device memory is mapped for two controllers, and the first is removed before it is unmapped. -/
def removedEarly : List ModAct :=
  [.probe 5 ⟨some 10, none⟩, .probe 6 ⟨some 11, none⟩,
    .ioctl 7 10 true true (.mapDeviceMemory 65536 1
      ⟨some 12, true, true, .ok 3, fun j => .ok (20 + j, [4096])⟩),
    .remove 10, .ioctl 7 11 true true (.unmapMemory 65536)]

example : (Lib.runActs modStep (helperEntry 64) removedEarly).map (fun s => (s.stray, s.held)) =
    some ([.gpuMapping 6 20], [.gpuMapping 5 20, .gpuMapping 6 21]) := by decide

end GidsStack.Driver
