/-
  GidsStack.Driver.Module

  The kernel module (map.c, ctrl.c, pci.c): it pins and maps memory of processes for the
  controllers and keeps a descriptor of every mapping on a list of host or device memory.

  What the module asks the kernel for is an outcome of the call: descriptors, pinned pages, bus
  addresses, page tables.  The kernel's own books are `held`, what it has given and not got back,
  and `stray`, what it was given back without having given it.
-/

import GidsStack.Driver.NodeList

namespace GidsStack.Driver

inductive Errno where
  | badf
  | nomem
  | fault
  | inval
  | other (code : Nat)
  deriving DecidableEq

/-- What the kernel gives and wants back. -/
inductive Resource where
  | userPage (page : Nat)
  | dma (pdev addr : Nat)
  | pageTable (table : Nat)
  | gpuMapping (pdev mapping : Nat)
  deriving DecidableEq

/-- `data` of a mapping; `release` is set with it and is the function for its kind.  Of the
    `mappings` of a `gpu_region` those are listed that are not NULL. -/
inductive MapData where
  | null
  | userPages (pages : List Nat)
  | gpuRegion (table : Option Nat) (mappings : List Nat)
  deriving DecidableEq

/-- `struct map`; its node is its first member, and `addrs` has the `n_addrs` addresses. -/
structure Map where
  owner : Nat
  vaddr : Nat
  pdev : Nat
  pageSize : Nat
  data : MapData
  addrs : List Nat

/-- The state of the module.  A `struct ctrl` has the address of its node, too; of it `pdev` is
    used, and its `cdev` by its address. -/
structure Module where
  maxNumCtrls : Nat
  nodes : NodeMem
  maps : Nat → Option Map
  ctrls : Nat → Option Nat
  currCtrls : Nat
  held : List Resource
  stray : List Resource
  /-- the calls of `list_insert` so far, which bound the steps of every loop over a list -/
  inserted : Nat
  /-- the calls of `dma_map_page` that failed -/
  dmaErrors : Nat
  /-- the controllers that were removed while there was device memory on the list -/
  removed : Nat

/-- The static lists. -/
inductive ListId where
  | ctrl
  | host
  | device
  deriving DecidableEq

def ListId.addr : ListId → Nat
  | .ctrl => 1
  | .host => 2
  | .device => 3

/-- `vaddr & PAGE_MASK`. -/
def pageMask (vaddr : Nat) : Nat := vaddr / 4096 * 4096

/-- `vaddr & GPU_PAGE_MASK`. -/
def gpuPageMask (vaddr : Nat) : Nat := vaddr / 65536 * 65536

/-- The address that `dma_mapping_error` takes for an error. -/
def dmaMappingError : Nat := 18446744073709551615

/-! ## Outcomes -/

/-- What the kernel does in `map_userspace`: `pinned` are the pages of `get_user_pages` or its
    error, `dma` what `dma_map_page` returns for a page. -/
structure UserOutcome where
  descriptor : Option Nat
  array : Bool
  pinned : Except Errno (List Nat)
  dma : Nat → Nat

/-- What the kernel and the driver of the GPU do in `map_device_memory`: `dma` has the mapping for
    a controller and its addresses. -/
structure GpuOutcome where
  descriptor : Option Nat
  region : Bool
  array : Bool
  pages : Except Errno Nat
  dma : Nat → Except Errno (Nat × List Nat)

/-- What a probe gets: a descriptor, and the error of what sets up the device and its character
    device, if there is one. -/
structure ProbeOutcome where
  descriptor : Option Nat
  device : Option Errno

namespace Module

variable (s : Module)

/-! ## The kernel's books -/

def get (rs : List Resource) : Module := { s with held := s.held ++ rs }

def put (r : Resource) : Module :=
  if r ∈ s.held then { s with held := s.held.erase r } else { s with stray := s.stray ++ [r] }

def putAll (rs : List Resource) : Module := rs.foldl put s

/-! ## Controllers -/

/-- The controllers that a loop over their list visits. -/
def ctrlElems : Option (List Nat) := listElems s.nodes s.inserted ListId.ctrl.addr

/-- `pdev` of the controllers, in the order of the list. -/
def ctrlPdevs : Option (List Nat) := do
  let cs ← s.ctrlElems
  cs.mapM s.ctrls

/-- `ctrl_find_by_inode`; the `i_cdev` of the inode is that of the controller at `inode`. -/
def ctrlFindByInode (inode : Nat) : Option (Option Nat) :=
  s.ctrlElems.map fun cs => cs.find? fun c => decide (c = inode)

/-- `ctrl_find_by_pci_dev`. -/
def ctrlFindByPciDev (pdev : Nat) : Option (Option Nat) :=
  s.ctrlElems.map fun cs => cs.find? fun c => decide (s.ctrls c = some pdev)

/-- `ctrl_put`; the character device has no state here. -/
def ctrlPut : Option Nat → Option Module
  | none => some s
  | some ctrl => do
    let nodes ← listRemove s.nodes ctrl
    return { s with nodes := nodes, ctrls := Function.update s.ctrls ctrl none }

/-- `add_pci_dev` with `ctrl_get`, and its return value, `none` for `0`. -/
def addPciDev (pdev : Nat) (o : ProbeOutcome) : Option (Module × Option Errno) :=
  -- a device too many is not refused, it gets no controller
  if s.currCtrls ≥ s.maxNumCtrls then some (s, none)
  else
    match o.descriptor with
    | none => some (s, some .nomem)
    | some ctrl => do
      let nodes ← listInsert (listNodeInit s.nodes ctrl) ListId.ctrl.addr ctrl
      let s := { s with
        nodes := nodes
        ctrls := Function.update s.ctrls ctrl (some pdev)
        inserted := s.inserted + 1 }
      match o.device with
      | none => return ({ s with currCtrls := s.currCtrls + 1 }, none)
      | some err =>
        -- `ctrl_get` has put it on the list already
        let s ← s.ctrlPut (some ctrl)
        return (s, some err)

/-- `remove_pci_dev`. -/
def removePciDev (pdev : Nat) : Option Module := do
  let mapped := (listNext s.nodes ListId.device.addr).toList.length
  let ctrl ← s.ctrlFindByPciDev pdev
  let s ← Module.ctrlPut { s with currCtrls := s.currCtrls - 1 } ctrl
  return { s with removed := s.removed + mapped }

/-! ## Mappings -/

/-- `create_descriptor`. -/
def createDescriptor (e owner pdev vaddr nPages : Nat) : Module :=
  { s with
    nodes := listNodeInit s.nodes e
    maps := Function.update s.maps e
      (some ⟨owner, vaddr, pdev, 0, .null, List.replicate nPages 0⟩) }

def setMap (e : Nat) (map : Map) : Module :=
  { s with maps := Function.update s.maps e (some map) }

/-- `release_user_pages` and `release_gpu_memory`, without the last line `data = NULL`.  The loop
    of the latter goes to the next mapping only when it had one for the controller. -/
def release (map : Map) : Option Module :=
  match map.data with
  | .null => some s
  | .userPages pages =>
    some ((s.putAll (map.addrs.map (.dma map.pdev))).putAll (pages.map .userPage))
  | .gpuRegion table mappings => do
    let pdevs ← s.ctrlPdevs
    return (s.putAll (List.zipWith .gpuMapping pdevs mappings)).putAll
      (table.toList.map .pageTable)

/-- `unmap_and_release`; `none` when the descriptor is not there. -/
def unmapAndRelease (e : Nat) : Option Module := do
  let nodes ← listRemove s.nodes e
  let s := { s with nodes := nodes }
  let map ← s.maps e
  let s ← s.release map
  return { s with maps := Function.update s.maps e none }

/-- `map_find` for a process. -/
def mapFind (task : Nat) (list : ListId) (vaddr : Nat) : Option (Option Nat) := do
  let elements ← listElems s.nodes s.inserted list.addr
  let found := elements.find? fun e => match s.maps e with
    | none => false
    | some map => decide (map.owner = task ∧
        (map.vaddr = pageMask vaddr ∨ map.vaddr = gpuPageMask vaddr))
  return found

/-- What the loop of `map_user_pages` has done: the addresses of all pages, those that are mapped
    and the error that ended it. -/
structure DmaLoop where
  addrs : List Nat
  mapped : List Nat
  error : Option Errno

/-- The loop of `map_user_pages` for the `left` pages from the `i`-th on. -/
def dmaMapLoop (dma : Nat → Nat) : Nat → Nat → DmaLoop
  | 0, _ => ⟨[], [], none⟩
  | left + 1, i =>
    -- the error is stored like an address; those after it are still 0
    if dma i = dmaMappingError then ⟨dma i :: List.replicate left 0, [], some .nomem⟩
    else
      let r := dmaMapLoop dma left (i + 1)
      ⟨dma i :: r.addrs, dma i :: r.mapped, r.error⟩

/-- `map_user_pages` and its return value, `none` for `0`. -/
def mapUserPages (e : Nat) (map : Map) (o : UserOutcome) : Module × Option Errno :=
  if o.array = false then (s, some .nomem)
  else
    match o.pinned with
    | .error err => (s, some err)
    | .ok pages =>
      -- `retval <= 0` also returns when no page was pinned
      if pages = [] then (s, none)
      else
        let r := dmaMapLoop o.dma pages.length 0
        let s := s.setMap e
          { map with pageSize := 4096, data := .userPages pages, addrs := r.addrs }
        let s := s.get (pages.map .userPage ++ r.mapped.map (.dma map.pdev))
        ({ s with dmaErrors := s.dmaErrors + r.error.toList.length }, r.error)

/-- The end of `map_userspace` and `map_device_memory`, after the memory is mapped or was not. -/
def mapFinish (list : ListId) (e : Nat) (r : Module × Option Errno) :
    Option (Module × Except Errno Nat) :=
  match r with
  | (s, some err) => do
    let s ← s.unmapAndRelease e
    return (s, .error err)
  | (s, none) => do
    let nodes ← listInsert s.nodes list.addr e
    return ({ s with nodes := nodes, inserted := s.inserted + 1 }, .ok e)

/-- `map_userspace`. -/
def mapUserspace (task pdev vaddr nPages : Nat) (o : UserOutcome) :
    Option (Module × Except Errno Nat) :=
  if nPages < 1 then some (s, .error .inval)
  else
    match o.descriptor with
    | none => some (s, .error .nomem)
    | some e =>
      let map : Map := ⟨task, pageMask vaddr, pdev, 4096, .null, List.replicate nPages 0⟩
      let s := (s.createDescriptor e task pdev (pageMask vaddr) nPages).setMap e map
      mapFinish .host e (s.mapUserPages e map o)

/-- The loop of `map_gpu_memory` over the controllers from the `j`-th on: the mappings it got
    and the error that ended it. -/
def gpuMapLoop (dma : Nat → Except Errno (Nat × List Nat)) :
    List Nat → Nat → List Nat × Option Errno
  | [], _ => ([], none)
  | _ :: pdevs, j =>
    match dma j with
    | .error err => ([], some err)
    | .ok m =>
      let r := gpuMapLoop dma pdevs (j + 1)
      (m.1 :: r.1, r.2)

/-- `map_gpu_memory`; the addresses are those of the first controller of the list. -/
def mapGpuMemory (e : Nat) (map : Map) (o : GpuOutcome) : Option (Module × Option Errno) :=
  if o.region = false ∨ o.array = false then some (s, some .nomem)
  else
    -- `release` and `data` are set before the pages are asked for
    let map := { map with pageSize := 65536, data := .gpuRegion none [] }
    match o.pages with
    | .error err => some (s.setMap e map, some err)
    | .ok table => do
      let pdevs ← s.ctrlPdevs
      let r := gpuMapLoop o.dma pdevs 0
      let addrs := match pdevs, o.dma 0 with
        | _ :: _, .ok m => m.2
        | _, _ => map.addrs
      let s := s.setMap e { map with data := .gpuRegion (some table) r.1, addrs := addrs }
      let s := s.get (.pageTable table :: List.zipWith .gpuMapping pdevs r.1)
      return (s, r.2)

/-- `map_device_memory`. -/
def mapDeviceMemory (task pdev vaddr nPages : Nat) (o : GpuOutcome) :
    Option (Module × Except Errno Nat) :=
  if nPages < 1 then some (s, .error .inval)
  else
    match o.descriptor with
    | none => some (s, .error .nomem)
    | some e => do
      let map : Map := ⟨task, gpuPageMask vaddr, pdev, 65536, .null, List.replicate nPages 0⟩
      let s := (s.createDescriptor e task pdev (gpuPageMask vaddr) nPages).setMap e map
      mapFinish .device e (← s.mapGpuMemory e map o)

/-- `force_release_gpu_memory`, which the driver of the GPU calls for a mapping. -/
def forceReleaseGpuMemory (e : Nat) : Option Module := do
  let map ← s.maps e
  let s ← s.release map
  -- without `data` nothing is given back a second time
  let s := s.setMap e { map with data := .null }
  s.unmapAndRelease e

end Module

/-! ## Requests -/

/-- The commands of `map_ioctl`; a request is copied in and addresses are copied out if the memory
    of the process is there. -/
inductive Cmd where
  | mapHostMemory (vaddr nPages : Nat) (o : UserOutcome)
  | mapDeviceMemory (vaddr nPages : Nat) (o : GpuOutcome)
  | unmapMemory (addr : Nat)

/-- What a request returns: addresses that are copied out, or an error. -/
abbrev Reply := Except Errno (List Nat)

namespace Module

variable (s : Module)

/-- The end of a map request. -/
def copyAddrs (copiedOut : Bool) (r : Module × Except Errno Nat) : Option (Module × Reply) :=
  match r with
  | (s, .error err) => some (s, .error err)
  | (s, .ok e) => do
    let map ← s.maps e
    -- the mapping stays when its addresses cannot be copied out
    return (s, if copiedOut then .ok map.addrs else .error .fault)

/-- `map_ioctl` with `NVM_UNMAP_MEMORY`. -/
def unmapMemory (task addr : Nat) : Option (Module × Reply) := do
  -- device memory is searched only if no host memory is found
  match ← s.mapFind task .host addr with
  | some e =>
    let s ← s.unmapAndRelease e
    return (s, .ok [])
  | none =>
    match ← s.mapFind task .device addr with
    | some e =>
      let s ← s.unmapAndRelease e
      return (s, .ok [])
    | none => return (s, .error .inval)

/-- `map_ioctl`. -/
def mapIoctl (task inode : Nat) (copiedIn copiedOut : Bool) (cmd : Cmd) :
    Option (Module × Reply) := do
  match ← s.ctrlFindByInode inode with
  | none => return (s, .error .badf)
  | some ctrl =>
    if copiedIn = false then return (s, .error .fault)
    match cmd with
    | .mapHostMemory vaddr nPages o =>
      let pdev ← s.ctrls ctrl
      copyAddrs copiedOut (← s.mapUserspace task pdev vaddr nPages o)
    | .mapDeviceMemory vaddr nPages o =>
      let pdev ← s.ctrls ctrl
      copyAddrs copiedOut (← s.mapDeviceMemory task pdev vaddr nPages o)
    | .unmapMemory addr => s.unmapMemory task addr

end Module

end GidsStack.Driver
