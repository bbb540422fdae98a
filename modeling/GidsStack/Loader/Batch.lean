/-
  GidsStack.Loader.Batch

  The batches of a `CIDS` loader: how the registered iterator splits them, what a read
  makes of them, and how it merges the parts again.

  A batch is a tuple, a list or a mapping whose first field, or field `sample_ids`, names the
  samples. A read replaces that field by the images and keeps the others.
-/

import GidsStack.Lib.Cuts
import GidsStack.Lib.OrderedDict

namespace GidsStack.Loader

open GidsStack.Cuts

/-- The exceptions of the Python code; `runtime` comes from the store, and `stop` is
    `StopIteration`. -/
inductive PyError where
  | value (msg : String)
  | key (msg : String)
  | runtime (msg : String)
  | index
  | type
  | stop
  deriving DecidableEq, Repr

/-! ## Values -/

/-- A field of a batch. `info` is what all rows of a tensor or array share (dtype, device,
    the other dimensions); `other` is any object that is none of the four. -/
inductive Value (I A : Type) where
  | tensor (info : I) (rows : List A)
  | ndarray (info : I) (rows : List A)
  | list (items : List (Value I A))
  | tuple (items : List (Value I A))
  | other (object : A)

namespace Value

variable {I A : Type}

/-- `len` of the four sliced kinds. -/
def length? : Value I A → Option Nat
  | .tensor _ rows => some rows.length
  | .ndarray _ rows => some rows.length
  | .list items => some items.length
  | .tuple items => some items.length
  | .other _ => none

/-- What `_slice_batch` makes of a field. -/
def slice (v : Value I A) (r : Nat × Nat) : Value I A :=
  match v with
  | .tensor info rows => .tensor info (Cuts.slice rows r)
  | .ndarray info rows => .ndarray info (Cuts.slice rows r)
  | .list items => .list (Cuts.slice items r)
  | .tuple items => .tuple (Cuts.slice items r)
  | .other object => .other object

def scalar : Value I A → Except PyError A
  | .other object => .ok object
  | _ => .error .type

/-- The elements of `torch.as_tensor`; a lone number has no `len`. -/
def asTensor : Value I A → Except PyError (List A)
  | .tensor _ rows => .ok rows
  | .ndarray _ rows => .ok rows
  | .list items => items.mapM scalar
  | .tuple items => items.mapM scalar
  | .other _ => .error .type

/-- The rows that `torch.cat` and `np.concatenate` join. -/
def tensorRows : Value I A → Except PyError (List A)
  | .tensor _ rows => .ok rows
  | _ => .error .type

def ndarrayRows : Value I A → Except PyError (List A)
  | .ndarray _ rows => .ok rows
  | _ => .error .type

/-- What `merged.extend` takes from a list or a tuple. -/
def items : Value I A → Except PyError (List (Value I A))
  | .list items => .ok items
  | .tuple items => .ok items
  | _ => .error .type

end Value

/-! ## Batches -/

/-- A batch, or what a read returns for it; `value` is one that is no container. -/
inductive Batch (I A : Type) where
  | mapping (d : OrderedDict String (Value I A))
  | tuple (fields : List (Value I A))
  | list (fields : List (Value I A))
  | value (v : Value I A)

namespace Batch

variable {I A : Type}

def fields : Batch I A → List (Value I A)
  | .mapping d => d.values
  | .tuple fields => fields
  | .list fields => fields
  | .value v => [v]

/-- `_sample_ids_from_batch`. -/
def sampleIdsFromBatch : Batch I A → Except PyError (List A)
  | .mapping d =>
    match d.get? "sample_ids" with
    | none => .error (.key "CIDS batch 字典必须包含 sample_ids")
    | some sampleIds => sampleIds.asTensor
  | .tuple fields =>
    match fields with
    | [] => .error (.value "CIDS batch 不能为空")
    | sampleIds :: _ => sampleIds.asTensor
  | .list fields =>
    match fields with
    | [] => .error (.value "CIDS batch 不能为空")
    | sampleIds :: _ => sampleIds.asTensor
  | .value v => v.asTensor

/-- `_slice_batch`. -/
def sliceBatch (b : Batch I A) (r : Nat × Nat) : Batch I A :=
  match b with
  | .mapping d => .mapping (d.mapValues (Value.slice · r))
  | .tuple fields => .tuple (fields.map (Value.slice · r))
  | .list fields => .list (fields.map (Value.slice · r))
  | .value v => .value (v.slice r)

/-- `_split_batch`; `math.ceil` of the float quotient is exact for batches below `2 ^ 53`. -/
def splitBatch (registeredSplit : Nat) (b : Batch I A) : Except PyError (List (Batch I A)) := do
  let sampleIds ← b.sampleIdsFromBatch
  let batchSize := sampleIds.length
  if batchSize = 0 then
    return [b]
  let split := min registeredSplit batchSize
  if split ≤ 1 then
    return [b]
  let chunkSize := (batchSize + split - 1) / split
  return (stepRanges 0 batchSize chunkSize).map b.sliceBatch

/-- `_format_return_batch`. -/
def formatReturnBatch (b : Batch I A) (images : Value I A) : Batch I A :=
  match b with
  | .mapping d => .mapping ((d.erase "sample_ids").set "images" images)
  | .tuple fields => if fields.length ≤ 1 then .tuple [images] else .tuple (images :: fields.tail)
  | .list fields => if fields.length ≤ 1 then .list [images] else .list (images :: fields.tail)
  | .value _ => .value images

/-! ## Merging -/

/-- The parts of one field, merged. The branches for mappings, tuples and lists differ in
    what they make of the items of tuples. -/
def mergeValues (mergeTuple : List (Value I A) → Value I A) (values : List (Value I A)) :
    Except PyError (Value I A) :=
  match values with
  | [] => .error .index
  | .tensor info _ :: _ => do return .tensor info (← values.mapM Value.tensorRows).flatten
  | .ndarray info _ :: _ => do return .ndarray info (← values.mapM Value.ndarrayRows).flatten
  | .list _ :: _ => do return .list (← values.mapM Value.items).flatten
  | .tuple _ :: _ => do return mergeTuple (← values.mapM Value.items).flatten
  | .other _ :: _ => .ok (.list values)

/-- `item[key]`. -/
def getKey (key : String) : Batch I A → Except PyError (Value I A)
  | .mapping d =>
    match d.get? key with
    | none => .error (.key key)
    | some v => .ok v
  | _ => .error .type

/-- `item[field_idx]`. -/
def getField (fieldIdx : Nat) : Batch I A → Except PyError (Value I A)
  | .tuple fields =>
    match fields[fieldIdx]? with
    | none => .error .index
    | some v => .ok v
  | .list fields =>
    match fields[fieldIdx]? with
    | none => .error .index
    | some v => .ok v
  | _ => .error .type

def asValue : Batch I A → Except PyError (Value I A)
  | .value v => .ok v
  | _ => .error .type

/-- The fields of tuples and lists, merged one by one. -/
def mergeFields (mergeTuple : List (Value I A) → Value I A) (width : Nat)
    (mergedBatches : List (Batch I A)) : Except PyError (List (Value I A)) :=
  (List.range width).mapM fun fieldIdx => do
    mergeValues mergeTuple (← mergedBatches.mapM (getField fieldIdx))

/-- `_merge_return_batches`. -/
def mergeReturnBatches (mergedBatches : List (Batch I A)) : Except PyError (Batch I A) :=
  match mergedBatches with
  | [] => .error (.value "merge_return_batches 需要至少一个 sub-batch")
  | [only] => .ok only
  | .mapping first :: _ => do
    return .mapping (← first.fillFrom fun key => do
      mergeValues .tuple (← mergedBatches.mapM (getKey key)))
  | .tuple first :: _ => do return .tuple (← mergeFields .tuple first.length mergedBatches)
  -- the branch for lists appends the merged items of a tuple without making a tuple of them
  | .list first :: _ => do return .list (← mergeFields .list first.length mergedBatches)
  | .value (.tensor info _) :: _ => do
    return .value (.tensor info (← (← mergedBatches.mapM asValue).mapM Value.tensorRows).flatten)
  | .value (.ndarray info _) :: _ => do
    return .value (.ndarray info (← (← mergedBatches.mapM asValue).mapM Value.ndarrayRows).flatten)
  | .value _ :: _ => do return .list (← mergedBatches.mapM asValue)

end Batch

/-! ## Reads -/

/-- What the store holds for a sample, after `_images_to_training_tensor`, and what the
    images of a batch share. -/
structure ImageSource (I A : Type) where
  info : I
  image : A → A

variable {I A : Type}

/-- The images of the samples, one row each. -/
def ImageSource.images (src : ImageSource I A) (sampleIds : List A) : Value I A :=
  .tensor src.info (sampleIds.map src.image)

/-- `fetch_samples_sync`, and `fetch_samples_get_registered` for the sub-batch of the
    request at the front. -/
def fetchSamples (src : ImageSource I A) (b : Batch I A) : Except PyError (Batch I A) := do
  let sampleIds ← b.sampleIdsFromBatch
  return b.formatReturnBatch (src.images sampleIds)

/-- What the registered iterator returns for a batch: its sub-batches read one by one and
    merged. -/
def fetchRegistered (src : ImageSource I A) (registeredSplit : Nat) (b : Batch I A) :
    Except PyError (Batch I A) := do
  let splitBatches ← b.splitBatch registeredSplit
  Batch.mergeReturnBatches (← splitBatches.mapM (fetchSamples src))

end GidsStack.Loader
