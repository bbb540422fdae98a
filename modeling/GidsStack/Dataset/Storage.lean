/-
  GidsStack.Dataset.Storage

  How `CIDS` and `LLMIDS` lay prepared datasets out in the BaM array.

  A sample of `sample_dim` elements is stored as `sample_row_count` consecutive rows of
  `row_dim` elements (one page), the last of them filled up with zeros. Sample ids count
  samples, row indices count rows, offsets handed to `store_tensor` count bytes. The array is
  its flat contents, as element reads and writes through `bam_ptr` see them.

  Element values are those of an arbitrary type: numpy's conversions are a parameter
  (`ElementOps`), applied to one element at a time.
-/

import GidsStack.Lib.Kernel
import GidsStack.Lib.RowMajor

namespace GidsStack.Dataset

open GidsStack.RowMajor GidsStack.Kernel

/-! ## Row geometry (`CIDS.__init__`) -/

/-- What `CIDS.__init__` computes the geometry from. With no row to divide by it raises
    `ZeroDivisionError`. -/
structure Geometry where
  pageSize : Nat
  storageItemsize : Nat
  sampleShape : List Nat
  rowDim_pos : 0 < pageSize / storageItemsize

namespace Geometry

def rowDim (g : Geometry) : Nat := g.pageSize / g.storageItemsize

def cacheDim (g : Geometry) : Nat := g.rowDim

def sampleDim (g : Geometry) : Nat := g.sampleShape.prod

/-- `math.ceil(sample_dim / row_dim)`; below `2 ^ 53` the float quotient
    has the same ceiling. -/
def sampleRowCount (g : Geometry) : Nat := (g.sampleDim + g.rowDim - 1) / g.rowDim

def storageSampleDim (g : Geometry) : Nat := g.sampleRowCount * g.rowDim

theorem sampleDim_le_storageSampleDim (g : Geometry) : g.sampleDim ≤ g.storageSampleDim := by
  have hpos : 0 < g.rowDim := g.rowDim_pos
  have hdiv : g.rowDim * ((g.sampleDim + g.rowDim - 1) / g.rowDim) +
      (g.sampleDim + g.rowDim - 1) % g.rowDim = g.sampleDim + g.rowDim - 1 := Nat.div_add_mod _ _
  have hmod : (g.sampleDim + g.rowDim - 1) % g.rowDim < g.rowDim := Nat.mod_lt _ hpos
  rw [storageSampleDim, sampleRowCount, Nat.mul_comm]
  omega

end Geometry

/-! ## Prepared datasets -/

inductive Dtype where
  | float16
  | float32
  | uint8
  | int64
  deriving DecidableEq, Repr

/-- `meta.json` and the element file of a prepared dataset. The prepare scripts write
    `sample_dim` as the product of `shape`; the element file may have any length. -/
structure PreparedDataset (Raw : Type) where
  shape : List Nat
  dtype : Dtype
  sampleDim : Nat
  numSamples : Nat
  elements : List Raw
  sampleDim_eq : sampleDim = shape.prod

/-- The element conversions of numpy that the loaders use. -/
structure ElementOps (Raw E : Type) where
  same : Raw → E
  astypeUint8 : Raw → E
  astypeFloat32 : Raw → E
  astypeFloat32Over255 : Raw → E
  zero : E

variable {Raw E : Type}

def preparedArrayToTrainingFloat32 (ops : ElementOps Raw E) : Dtype → Raw → E
  | .uint8 => ops.astypeFloat32Over255
  | .float32 => ops.same
  | _ => ops.astypeFloat32

/-- The stored element, for a store of dtype `own`. -/
def storageElement (ops : ElementOps Raw E) (own given : Dtype) : Raw → E :=
  if own = .uint8 then
    if given = .uint8 then ops.same else ops.astypeUint8
  else preparedArrayToTrainingFloat32 ops given

/-- A tuple as Python prints it. -/
def pyTuple : List Nat → String
  | [n] => s!"({n},)"
  | ns => "(" ++ String.intercalate ", " (ns.map toString) ++ ")"

/-- The common part of the two `_load_prepared_storage_array`: check the shape and the
    number of elements, then lay every sample out in full rows. -/
def storageArray (g : Geometry) (loader kind : String) (element : Raw → E) (zero : E)
    (d : PreparedDataset Raw) : Except String (Rows E g.rowDim) :=
  if hshape : d.shape = g.sampleShape then
    if hsize : d.elements.length = d.numSamples * d.sampleDim then
      let hostArray : Rows E d.sampleDim :=
        ⟨d.numSamples, d.elements.map element, by rw [List.length_map, hsize]⟩
      if hdim : g.storageSampleDim = d.sampleDim then
        .ok (hostArray.view (d.numSamples * g.sampleRowCount) g.rowDim
          (by rw [Nat.mul_assoc, ← Geometry.storageSampleDim, hdim]))
      else
        .ok ((hostArray.pad g.storageSampleDim zero
            (by rw [d.sampleDim_eq, hshape]; exact g.sampleDim_le_storageSampleDim)).view
          (d.numSamples * g.sampleRowCount) g.rowDim
          (by rw [Nat.mul_assoc, ← Geometry.storageSampleDim]; rfl))
    else
      .error (s!"prepared {kind} 元素数不匹配: got={d.elements.length}, " ++
        s!"expected={d.numSamples * d.sampleDim}")
  else
    .error (s!"{loader} sample_shape={pyTuple g.sampleShape} 与 prepared dataset " ++
      s!"shape={pyTuple d.shape} 不一致")

/-- `CIDS._load_prepared_storage_array`. -/
def loadPreparedStorageArray (g : Geometry) (ops : ElementOps Raw E) (own : Dtype)
    (d : PreparedDataset Raw) : Except String (Rows E g.rowDim) :=
  storageArray g "CIDS" "images" (storageElement ops own d.dtype) ops.zero d

def Dtype.name : Dtype → String
  | .float16 => "float16"
  | .float32 => "float32"
  | .uint8 => "uint8"
  | .int64 => "int64"

/-- `LLMIDS._load_prepared_storage_array`: token datasets are `int64` and stored as they are. -/
def loadPreparedTokenArray (g : Geometry) (ops : ElementOps Raw E) (d : PreparedDataset Raw) :
    Except String (Rows E g.rowDim) :=
  if d.shape = g.sampleShape ∧ d.dtype ≠ .int64 then
    .error s!"LLMIDS 只支持 int64 token prepared dataset，当前为 {d.dtype.name}"
  else storageArray g "LLMIDS" "tokens" ops.same ops.zero d

/-! ## Combined loads -/

/-- What a combined load returns of one dataset. -/
structure Info where
  numSamples : Nat
  sampleIdOffset : Nat
  deriving DecidableEq, Repr

/-- The loop of `load_combined_prepared_images_to_bam`, from the sample id `sampleIdOffset`. -/
def combinedLoop {w : Nat} (load : PreparedDataset Raw → Except String (Rows E w)) :
    Nat → List (PreparedDataset Raw) → Except String (List (Rows E w) × List Info)
  | _, [] => .ok ([], [])
  | sampleIdOffset, d :: roots => do
    let storageArray ← load d
    let (storageArrays, infos) ← combinedLoop load (sampleIdOffset + d.numSamples) roots
    .ok (storageArray :: storageArrays, ⟨d.numSamples, sampleIdOffset⟩ :: infos)

/-- The combined storage array and the infos of `load_combined_prepared_images_to_bam`. -/
def combinedStorageArray (g : Geometry) (ops : ElementOps Raw E) (own : Dtype)
    (roots : List (PreparedDataset Raw)) : Except String (Rows E g.rowDim × List Info) :=
  if roots.isEmpty then
    .error "load_combined_prepared_images_to_bam 需要至少一个 prepared_root"
  else do
    let (storageArrays, infos) ← combinedLoop (loadPreparedStorageArray g ops own) 0 roots
    .ok (Rows.concat storageArrays, infos)

/-! ## `store_tensor` -/

/-- The cells of `write_feature_kernel2` with `num` blocks of `bSize` threads: block `row`,
    thread `t` visits `t`, `t + bSize`, ... below `dim`. -/
def writeCells (num bSize dim : Nat) : List (Nat × Nat) :=
  (List.range num).flatMap fun row =>
    (List.range bSize).flatMap fun t => (strided bSize dim t).map fun i => (row, i)

/-- `write_feature_kernel2` with the cells in any order. The offset is added to the index
    into the source tensor, not to the index into the array. -/
def writeFeatureKernel2 (cells : List (Nat × Nat)) (inTensor : Nat → E) (dim offset : Nat)
    (array : Nat → E) : Nat → E :=
  scatter array (fun c => c.1 * dim + c.2) (fun c => inTensor (c.1 * dim + c.2 + offset)) cells

theorem mem_writeCells_iff {num bSize dim row i : Nat} (h : 0 < bSize) :
    (row, i) ∈ writeCells num bSize dim ↔ row < num ∧ i < dim := by
  simp only [writeCells, List.mem_flatMap, List.mem_map, List.mem_range, Prod.mk.injEq]
  refine ⟨?_, ?_⟩
  · rintro ⟨row', hrow, t, -, i', hi, rfl, rfl⟩
    exact ⟨hrow, lt_of_mem_strided h hi⟩
  · rintro ⟨hrow, hi⟩
    exact ⟨row, hrow, i % bSize, Nat.mod_lt _ h, i, mem_strided_mod h hi, rfl, rfl⟩

/-! ## Reading samples back -/

/-- `_expand_sample_ids_to_row_indices`. -/
def expandSampleIdsToRowIndices (g : Geometry) (sampleIds : List Nat) : List Nat :=
  sampleIds.flatMap fun id => (List.range g.sampleRowCount).map fun o => id * g.sampleRowCount + o

theorem length_expandSampleIds (g : Geometry) (sampleIds : List Nat) :
    (expandSampleIdsToRowIndices g sampleIds).length = sampleIds.length * g.sampleRowCount :=
  length_flatMap_of_length fun _ _ => by rw [List.length_map, List.length_range]

/-- `images.view(batch_size, storage_sample_dim)[:, :sample_dim]`; the last
    `view(batch_size, *sample_shape)` keeps the elements in this order. -/
def cutSamples (g : Geometry) (batchSize : Nat) (images : Rows E g.rowDim)
    (h : images.rows = batchSize * g.sampleRowCount) : Rows E g.sampleDim :=
  (images.view batchSize g.storageSampleDim
    (by rw [h, Nat.mul_assoc, Geometry.storageSampleDim])).cut g.sampleDim
    g.sampleDim_le_storageSampleDim

theorem cutSamples_congr {g : Geometry} {batchSize : Nat} {images images' : Rows E g.rowDim}
    (heq : images = images') (h : images.rows = batchSize * g.sampleRowCount)
    (h' : images'.rows = batchSize * g.sampleRowCount) :
    cutSamples g batchSize images h = cutSamples g batchSize images' h' := by
  subst heq
  rfl

theorem cutSamples_at? (g : Geometry) {batchSize : Nat} {images : Rows E g.rowDim}
    (h : images.rows = batchSize * g.sampleRowCount) {b c : Nat} (hb : b < batchSize)
    (hc : c < g.sampleDim) :
    (cutSamples g batchSize images h).at? b c = images.data[b * g.storageSampleDim + c]? :=
  Rows.cut_at? _ g.sampleDim_le_storageSampleDim hb hc

/-- The samples `sampleIds` of an array: their rows gathered, viewed and cut. -/
def gatherSamples (g : Geometry) (sampleIds : List Nat) (array : Nat → E) : Rows E g.sampleDim :=
  cutSamples g sampleIds.length
    (Rows.gather array g.rowDim (expandSampleIdsToRowIndices g sampleIds))
    (by rw [Rows.gather_rows, length_expandSampleIds])

end GidsStack.Dataset
