/-
  GidsStack.Loader.IndexBuffers

  Which buffer the store reads when it dereferences an index pointer.

  `fetch_feature_submit_registered_rowctx` and `fetch_feature` (GIDS.py) give the store the
  address of `batch[0].to(gids_device)`.  For a batch on the device that is the batch's own
  tensor; otherwise it is a copy, which Python drops with the local variable `index`.  The
  store keeps the address: it is dereferenced by the poll and the get of the request, and by
  the merged read.

  An event carries the addresses that the allocator answers with, so that a list of events is
  one run of the calls in it, for one behaviour of the allocator.
-/

import GidsStack.Lib.Buffers
import GidsStack.Loader.Batch

namespace GidsStack.Loader

open GidsStack.Cuts

variable {R : Type}

/-! ## Tensors -/

/-- What a buffer of the device holds. -/
inductive Tensor (R : Type) where
  | indices (nodes : List R)
  | features

/-- An index tensor of the Python side.  `storage` is its buffer on the device, with the row at
    which it starts there; a tensor on the CPU or without rows has none. -/
structure View (R : Type) where
  nodes : List R
  storage : Option (Nat × Nat)

namespace View

def buffer (v : View R) : Option Nat := v.storage.map Prod.fst

/-- `t[start:end]`. -/
def slice (v : View R) (r : Nat × Nat) : View R where
  nodes := Cuts.slice v.nodes r
  storage := v.storage.map fun at_ => (at_.1, at_.2 + r.1)

end View

abbrev DeviceMemory (R : Type) : Type := Buffers (Tensor R)

/-- `v.to(gids_device)` and its `data_ptr()`; `a` is where a copy goes. -/
def toDevice (v : View R) (a : Nat) (m : DeviceMemory R) :
    Option (Option (Nat × Nat) × DeviceMemory R) :=
  match v.storage with
  | some (buffer, start) => some (some (buffer, start), m.retain (some buffer))
  | none =>
    if v.nodes.isEmpty then some (none, m)
    else (m.alloc a (.indices v.nodes)).map fun m => (some (a, 0), m)

/-- `torch.zeros` with a row for each of `nodes`. -/
def zeros (nodes : List R) (a : Nat) (m : DeviceMemory R) : Option (Option Nat × DeviceMemory R) :=
  if nodes.isEmpty then some (none, m)
  else (m.alloc a .features).map fun m => (some a, m)

/-- The indices that a kernel reads, if they are indices. -/
def readIndices (m : DeviceMemory R) (pointer : Option (Nat × Nat)) (numIndex : Nat) :
    Option (List R) :=
  match pointer with
  | none => some []
  | some (buffer, start) =>
    match m.contents buffer with
    | some (.indices nodes) => some ((nodes.drop start).take numIndex)
    | _ => none

/-! ## State -/

/-- A registered request: the (micro-)batch that its item holds, and the stored pointer. -/
structure IndexRequest (R : Type) where
  view : View R
  pointer : Option (Nat × Nat)

/-- A dereference: the rows that the request or batch has, and those that were read. -/
structure Deref (R : Type) where
  own : List R
  read : Option (List R)

/-- `window` are the batches that have been sampled and not returned yet, and `kept` the
    device tensors that the training loop has been given.  `derefs` lists the dereferences;
    no code reads it. -/
structure IndexState (R : Type) where
  memory : DeviceMemory R
  window : List (View R)
  outstanding : List (IndexRequest R)
  kept : List Nat
  derefs : List (Deref R)

namespace IndexState

def init : IndexState R where
  memory := .empty
  window := []
  outstanding := []
  kept := []
  derefs := []

/-! ## Calls -/

/-- `next(dataloader_it)`. -/
def arrive (nodes : List R) (onDevice : Bool) (a : Nat) (s : IndexState R) :
    Option (IndexState R) :=
  if onDevice ∧ ¬nodes.isEmpty then do
    let m ← s.memory.alloc a (.indices nodes)
    return { s with memory := m, window := s.window ++ [{ nodes, storage := some (a, 0) }] }
  else some { s with window := s.window ++ [{ nodes, storage := none }] }

/-- `fetch_feature_submit_registered_rowctx` with rows `r` of the `i`-th batch. -/
def submit (i : Nat) (r : Nat × Nat) (a : Nat) (s : IndexState R) : Option (IndexState R) :=
  match s.window[i]? with
  | none => some s
  | some batch => do
    let view := batch.slice r
    let (pointer, m) ← toDevice view a s.memory
    -- the item of the queue keeps the (micro-)batch, and `index` goes out of scope
    return { s with
      memory := (m.retain view.buffer).drop (pointer.map Prod.fst)
      outstanding := s.outstanding ++ [{ view, pointer }] }

/-- The kernel of a poll or get on the front request. -/
def readFront (m : DeviceMemory R) (p : IndexRequest R) : Deref R where
  own := p.view.nodes
  read := readIndices m p.pointer p.view.nodes.length

/-- The poll of the front request, which has its kernel read the indices when it blocks, and
    `fetch_feature_get_feature_light_registered_rowctx`. -/
def consume (blocking : Bool) (a b : Nat) (s : IndexState R) : Option (IndexState R) :=
  match s.outstanding with
  | [] => some s
  | p :: rest => do
    let polled := if blocking then [readFront s.memory p] else []
    let (index, m) ← toDevice p.view a s.memory
    let (returnTorch, m) ← zeros p.view.nodes b m
    let got := readFront m p
    return { s with
      memory := (m.drop (index.map Prod.fst)).drop p.view.buffer
      outstanding := rest
      kept := s.kept ++ returnTorch.toList
      derefs := s.derefs ++ polled ++ [got] }

/-- What the loop of `fetch_feature` over the merged batches builds: the pointers, the tensors
    for the features, and the buffer of the last `index`. -/
structure Gathered (R : Type) where
  pointers : List (Option (Nat × Nat))
  returns : List Nat
  index : Option Nat
  memory : DeviceMemory R

/-- The loop: the next `index` replaces the one before, which is dropped then. -/
def gather : List (View R) → List (Nat × Nat) → Option Nat → DeviceMemory R → Option (Gathered R)
  | [], _, index, m => some { pointers := [], returns := [], index, memory := m }
  | _ :: _, [], _, _ => none
  | v :: views, (a, b) :: answers, index, m => do
    let (pointer, m) ← toDevice v a m
    let (returnTorch, m) ← zeros v.nodes b (m.drop index)
    let g ← gather views answers (pointer.map Prod.fst) m
    return { g with
      pointers := pointer :: g.pointers
      returns := returnTorch.toList ++ g.returns }

/-- `read_feature_merged` reads all of them. -/
def readMerged (m : DeviceMemory R) (views : List (View R)) (pointers : List (Option (Nat × Nat))) :
    List (Deref R) :=
  List.zipWith (fun v pointer => { own := v.nodes, read := readIndices m pointer v.nodes.length })
    views pointers

/-- `fetch_feature` with the accumulator, over the first `n` batches of the window. -/
def merged (n : Nat) (answers : List (Nat × Nat)) (s : IndexState R) : Option (IndexState R) := do
  let g ← gather (s.window.take n) answers none s.memory
  return { s with
    memory := g.memory.drop g.index
    kept := s.kept ++ g.returns
    derefs := s.derefs ++ readMerged g.memory (s.window.take n) g.pointers }

/-- The front batch of the window goes to the training loop. -/
def giveBack (s : IndexState R) : IndexState R :=
  match s.window with
  | [] => s
  | v :: rest => { s with window := rest, kept := s.kept ++ v.buffer.toList }

/-- The training loop drops a tensor. -/
def discard (k : Nat) (s : IndexState R) : IndexState R :=
  { s with memory := s.memory.drop s.kept[k]?, kept := s.kept.eraseIdx k }

end IndexState

/-- A call, without the answers of the allocator. -/
inductive IndexCall (R : Type) where
  | arrive (nodes : List R) (onDevice : Bool)
  | submit (i : Nat) (r : Nat × Nat)
  | consume (blocking : Bool)
  | merged (n : Nat)
  | giveBack
  | discard (k : Nat)

/-- A call with the answers of the allocator. -/
inductive IndexEvent (R : Type) where
  | arrive (nodes : List R) (onDevice : Bool) (a : Nat)
  | submit (i : Nat) (r : Nat × Nat) (a : Nat)
  | consume (blocking : Bool) (a b : Nat)
  | merged (n : Nat) (answers : List (Nat × Nat))
  | giveBack
  | discard (k : Nat)

namespace IndexEvent

def call : IndexEvent R → IndexCall R
  | .arrive nodes onDevice _ => .arrive nodes onDevice
  | .submit i r _ => .submit i r
  | .consume blocking _ _ => .consume blocking
  | .merged n _ => .merged n
  | .giveBack => .giveBack
  | .discard k => .discard k

/-- `none` when the allocator may not answer so. -/
def step : IndexEvent R → IndexState R → Option (IndexState R)
  | .arrive nodes onDevice a, s => s.arrive nodes onDevice a
  | .submit i r a, s => s.submit i r a
  | .consume blocking a b, s => s.consume blocking a b
  | .merged n answers, s => s.merged n answers
  | .giveBack, s => some s.giveBack
  | .discard k, s => some (s.discard k)

def run : List (IndexEvent R) → IndexState R → Option (IndexState R)
  | [], s => some s
  | e :: events, s => (e.step s).bind (run events)

end IndexEvent

/-! ## Which calls are safe -/

/-- A tensor without its address: its nodes, and whether it is on the device. -/
structure Placed (R : Type) where
  nodes : List R
  onDevice : Bool

namespace Placed

/-- Its own tensor is what the store gets, or there is nothing to read. -/
def Held (p : Placed R) : Prop := p.nodes = [] ∨ p.onDevice = true

/-- Of a group, every tensor is held, or nothing is allocated after it has been dropped. -/
def GroupHeld : List (Placed R) → Prop
  | [] => True
  | p :: rest => (p.Held ∨ ∀ q ∈ rest, q.nodes = []) ∧ GroupHeld rest

end Placed

def View.placed (v : View R) : Placed R where
  nodes := v.nodes
  onDevice := v.storage.isSome

/-- A state without addresses. -/
@[ext] structure IndexShape (R : Type) where
  window : List (Placed R)
  outstanding : List (Placed R)

def IndexState.shape (s : IndexState R) : IndexShape R where
  window := s.window.map View.placed
  outstanding := s.outstanding.map fun p => p.view.placed

namespace IndexCall

/-- The call on the level of shapes. -/
def shape : IndexCall R → IndexShape R → IndexShape R
  | .arrive nodes onDevice, s =>
    { s with window := s.window ++ [{ nodes, onDevice := onDevice && !nodes.isEmpty }] }
  | .submit i r, s =>
    { s with outstanding := s.outstanding ++ (s.window[i]?.map fun p : Placed R =>
        ({ nodes := slice p.nodes r, onDevice := p.onDevice } : Placed R)).toList }
  | .consume _, s => { s with outstanding := s.outstanding.tail }
  | .merged _, s => s
  | .giveBack, s => { s with window := s.window.tail }
  | .discard _, s => s

/-- No dropped buffer is dereferenced after an allocation. -/
def Safe : IndexCall R → IndexShape R → Prop
  | .consume _, s => ∀ p ∈ s.outstanding.head?, p.Held
  | .merged n, s => Placed.GroupHeld (s.window.take n)
  | _, _ => True

/-- All calls of a list are safe, where they are made. -/
def AllSafe : List (IndexCall R) → IndexShape R → Prop
  | [], _ => True
  | c :: calls, s => c.Safe s ∧ AllSafe calls (c.shape s)

end IndexCall

end GidsStack.Loader
