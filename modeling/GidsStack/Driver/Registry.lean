/-
  GidsStack.Driver.Registry

  What the kernel module is for: a registry of the mappings of every process, in the order in
  which they were made (`Registry`), and where the memory of the module has it.
-/

import GidsStack.Driver.Books

namespace GidsStack.Driver

/-! ## The registry -/

/-- A mapping, named by its descriptor. -/
structure Entry where
  id : Nat
  owner : Nat
  vaddr : Nat
  addrs : List Nat
  deriving DecidableEq

structure Registry where
  maxNumCtrls : Nat
  ctrls : List Nat
  host : List Entry
  device : List Entry
  deriving DecidableEq

/-- The mappings that a process means by an address. -/
def Entry.meant (task vaddr : Nat) (x : Entry) : Bool :=
  decide (x.owner = task ∧ (x.vaddr = pageMask vaddr ∨ x.vaddr = gpuPageMask vaddr))

/-- What pinning and mapping `n` pages comes to. -/
def UserOutcome.pages (o : UserOutcome) (n : Nat) : Except Errno (List Nat) :=
  if o.array = false then .error .nomem
  else
    match o.pinned with
    | .error err => .error err
    | .ok pages =>
      if pages = [] then .ok (List.replicate n 0)
      else if dmaMappingError ∈ (List.range pages.length).map o.dma then .error .nomem
      else .ok ((List.range pages.length).map o.dma)

/-- What mapping `n` pages of host memory comes to: a descriptor and addresses. -/
def UserOutcome.result (o : UserOutcome) (n : Nat) : Except Errno (Nat × List Nat) :=
  if n < 1 then .error .inval
  else
    match o.descriptor with
    | none => .error .nomem
    | some e => (o.pages n).map fun addrs => (e, addrs)

/-- What a page table mapped for controllers comes to. -/
def GpuOutcome.regions (o : GpuOutcome) (ctrls n : Nat) : Except Errno (List Nat) :=
  if o.region = false ∨ o.array = false then .error .nomem
  else
    match o.pages, (List.range ctrls).mapM o.dma with
    | .error err, _ => .error err
    | .ok _, .error err => .error err
    | .ok _, .ok [] => .ok (List.replicate n 0)
    | .ok _, .ok (m :: _) => .ok m.2

/-- What mapping `n` pages of device memory for controllers comes to. -/
def GpuOutcome.result (o : GpuOutcome) (ctrls n : Nat) : Except Errno (Nat × List Nat) :=
  if n < 1 then .error .inval
  else
    match o.descriptor with
    | none => .error .nomem
    | some e => (o.regions ctrls n).map fun addrs => (e, addrs)

namespace Registry

variable (g : Registry)

/-- A new mapping at the end of a list. -/
def add (list : ListId) (x : Entry) : Registry :=
  match list with
  | .ctrl => g
  | .host => { g with host := g.host ++ [x] }
  | .device => { g with device := g.device ++ [x] }

/-- A map request with its result. -/
def map (list : ListId) (task vaddr : Nat) (copiedOut : Bool)
    (r : Except Errno (Nat × List Nat)) : Registry × Reply :=
  match r with
  | .error err => (g, .error err)
  | .ok (e, addrs) =>
    (g.add list ⟨e, task, vaddr, addrs⟩, if copiedOut then .ok addrs else .error .fault)

/-- An unmap request. -/
def unmap (task addr : Nat) : Registry × Reply :=
  if g.host.any (Entry.meant task addr) then
    ({ g with host := g.host.eraseP (Entry.meant task addr) }, .ok [])
  else if g.device.any (Entry.meant task addr) then
    ({ g with device := g.device.eraseP (Entry.meant task addr) }, .ok [])
  else (g, .error .inval)

def call : ModAct → Registry × Reply
  | .ioctl task inode copiedIn copiedOut cmd =>
    if inode ∉ g.ctrls then (g, .error .badf)
    else if copiedIn = false then (g, .error .fault)
    else
      match cmd with
      | .mapHostMemory vaddr n o =>
        g.map .host task (pageMask vaddr) copiedOut (o.result n)
      | .mapDeviceMemory vaddr n o =>
        g.map .device task (gpuPageMask vaddr) copiedOut (o.result g.ctrls.length n)
      | .unmapMemory addr => g.unmap task addr
  | .probe _ o =>
    if g.ctrls.length ≥ g.maxNumCtrls then (g, .ok [])
    else
      match o.descriptor, o.device with
      | none, _ => (g, .error .nomem)
      | some _, some err => (g, .error err)
      | some ctrl, none => ({ g with ctrls := g.ctrls ++ [ctrl] }, .ok [])
  | .remove ctrl => ({ g with ctrls := g.ctrls.erase ctrl }, .ok [])
  | .reclaim e => ({ g with device := g.device.eraseP fun x => decide (x.id = e) }, .ok [])

/-! ### What requests keep -/

variable {g}

/-- Mappings are at the start of a page, of 64 KiB for device memory. -/
structure Aligned (g : Registry) : Prop where
  host : ∀ x ∈ g.host, pageMask x.vaddr = x.vaddr
  device : ∀ x ∈ g.device, gpuPageMask x.vaddr = x.vaddr

theorem pageMask_pageMask (vaddr : Nat) : pageMask (pageMask vaddr) = pageMask vaddr := by
  rw [pageMask, pageMask, Nat.mul_div_cancel _ (by decide)]

theorem gpuPageMask_gpuPageMask (vaddr : Nat) :
    gpuPageMask (gpuPageMask vaddr) = gpuPageMask vaddr := by
  rw [gpuPageMask, gpuPageMask, Nat.mul_div_cancel _ (by decide)]

/-- A map request masks its address before it makes the mapping. -/
theorem Aligned.map (h : g.Aligned) {list : ListId} {task vaddr : Nat} {copiedOut : Bool}
    {r : Except Errno (Nat × List Nat)} (hhost : list = .host → pageMask vaddr = vaddr)
    (hdevice : list = .device → gpuPageMask vaddr = vaddr) :
    (g.map list task vaddr copiedOut r).1.Aligned := by
  cases r with
  | error err => exact h
  | ok m =>
    cases list with
    | ctrl => exact h
    | host =>
      refine ⟨fun x hx => ?_, h.device⟩
      rcases List.mem_append.mp hx with hx | hx
      · exact h.host x hx
      · rw [List.mem_singleton.mp hx]
        exact hhost rfl
    | device =>
      refine ⟨h.host, fun x hx => ?_⟩
      rcases List.mem_append.mp hx with hx | hx
      · exact h.device x hx
      · rw [List.mem_singleton.mp hx]
        exact hdevice rfl

/-- An unmap request takes mappings away only. -/
theorem Aligned.unmap (h : g.Aligned) (task addr : Nat) : (g.unmap task addr).1.Aligned := by
  rw [Registry.unmap]
  split
  · exact ⟨fun x hx => h.host x (List.mem_of_mem_eraseP hx), h.device⟩
  · split
    · exact ⟨h.host, fun x hx => h.device x (List.mem_of_mem_eraseP hx)⟩
    · exact h

/-- Every call keeps the mappings aligned. -/
theorem Aligned.call (h : g.Aligned) (a : ModAct) : (g.call a).1.Aligned := by
  cases a with
  | reclaim e => exact ⟨h.host, fun x hx => h.device x (List.mem_of_mem_eraseP hx)⟩
  | probe pdev o =>
    rw [Registry.call]
    split
    · exact h
    · split
      · exact h
      · exact h
      · exact ⟨h.host, h.device⟩
  | remove ctrl => exact ⟨h.host, h.device⟩
  | ioctl task inode copiedIn copiedOut cmd =>
    show (if inode ∉ g.ctrls then _ else _ : Registry × Reply).1.Aligned
    split
    · exact h
    · split
      · exact h
      · cases cmd with
        | mapHostMemory vaddr n o =>
          exact h.map (fun _ => pageMask_pageMask vaddr) (fun heq => by cases heq)
        | mapDeviceMemory vaddr n o =>
          exact h.map (fun heq => by cases heq) (fun _ => gpuPageMask_gpuPageMask vaddr)
        | unmapMemory addr => exact h.unmap task addr

/-- The mappings of other processes. -/
def others (g : Registry) (task : Nat) : Registry where
  maxNumCtrls := g.maxNumCtrls
  ctrls := g.ctrls
  host := g.host.filter fun x => decide (x.owner ≠ task)
  device := g.device.filter fun x => decide (x.owner ≠ task)

end Registry

/-! ## The registry in the memory of the module -/

def Map.entry (e : Nat) (map : Map) : Entry := ⟨e, map.owner, map.vaddr, map.addrs⟩

namespace Module

/-- The mappings of the descriptors `es`. -/
def entries (s : Module) (es : List Nat) : List Entry :=
  es.filterMap fun e => (s.maps e).map (Map.entry e)

/-- The registry that loops over the lists find. -/
def registry (s : Module) : Option Registry := do
  let cs ← s.ctrlElems
  let hs ← listElems s.nodes s.inserted ListId.host.addr
  let ds ← listElems s.nodes s.inserted ListId.device.addr
  return ⟨s.maxNumCtrls, cs, s.entries hs, s.entries ds⟩

/-- The registry of lists. -/
def registryOf (s : Module) (xs : ListId → List Nat) : Registry :=
  ⟨s.maxNumCtrls, xs .ctrl, s.entries (xs .host), s.entries (xs .device)⟩

/-- After a page failed to be mapped something was given back that was not given. -/
def Dirty (s : Module) : Prop := s.dmaErrors ≠ 0 → s.stray ≠ []

end Module

/-- The mappings depend on the descriptors in the list only. -/
theorem entries_congr {s s' : Module} {es : List Nat} (h : ∀ e ∈ es, s'.maps e = s.maps e) :
    s'.entries es = s.entries es := by
  apply List.filterMap_congr
  intro e he
  rw [h e he]

theorem entries_append (s : Module) (es es' : List Nat) :
    s.entries (es ++ es') = s.entries es ++ s.entries es' :=
  List.filterMap_append

end GidsStack.Driver
