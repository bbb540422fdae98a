/-
  GidsStack.Dataset.Placement

  Loading one prepared dataset at a sample id offset.

  `load_prepared_images_to_bam` and `load_prepared_tokens_to_bam` turn the sample id offset
  into a byte offset and pass it to `store_tensor`; the write kernel adds it to the index into
  the source tensor, so the samples always land at id 0 and come from behind the offset. Read
  back with `fetch_samples_sync`, the samples are where they were asked to be only for the
  offset 0, and then only if `read_feature` can deliver the rows of a sample
  (`placed_iff`).  The array is what the page cache and the SSDs have of it, before the load and
  after every run of `store_tensor` in which the pointers mark the pages they write.
-/

import GidsStack.Dataset.CacheStore
import GidsStack.Feature.SplitPhase

namespace GidsStack.Dataset

open GidsStack.RowMajor GidsStack.Kernel GidsStack.Feature
open GidsStack.PageCache (Config St Reached Marking smallConfig newCache newCache_init callFor
  oneCtrl_ok FlushSt flushStep flushCache)

variable {Raw E : Type}

/-! ## The store behind `CIDS` -/

/-- The array of `num_ele` elements that a `CIDS` or `LLMIDS` store reads and writes. -/
structure ImageStore where
  geometry : Geometry
  numEle : Nat
  numEle_le : numEle ≤ 2 ^ 63
  rowDim_lt : geometry.rowDim < 2147483648
  sampleRowCount_le : geometry.sampleRowCount ≤ 2147483648

namespace ImageStore

theorem rowDim_pos (st : ImageStore) : 0 < st.geometry.rowDim := st.geometry.rowDim_pos

theorem itemsize_pos (st : ImageStore) : 0 < st.geometry.storageItemsize := by
  by_contra h
  have hpos := st.geometry.rowDim_pos
  rw [Nat.eq_zero_of_not_pos h, Nat.div_zero] at hpos
  exact Nat.lt_irrefl 0 hpos

end ImageStore

/-! ## Loading -/

/-- The two loaders with a sample id offset. -/
inductive Loader where
  | images (own : Dtype)
  | tokens
  deriving DecidableEq, Repr

def Loader.load (ld : Loader) (g : Geometry) (ops : ElementOps Raw E) (d : PreparedDataset Raw) :
    Except String (Rows E g.rowDim) :=
  match ld with
  | .images own => loadPreparedStorageArray g ops own d
  | .tokens => loadPreparedTokenArray g ops d

/-- The stored element. -/
def Loader.element (ld : Loader) (ops : ElementOps Raw E) (d : PreparedDataset Raw) : Raw → E :=
  match ld with
  | .images own => storageElement ops own d.dtype
  | .tokens => ops.same

/-- The prepared datasets that the loader accepts. -/
def Loader.Accepts (ld : Loader) (g : Geometry) (d : PreparedDataset Raw) : Prop :=
  d.shape = g.sampleShape ∧ d.elements.length = d.numSamples * d.sampleDim ∧
    (ld = .tokens → d.dtype = .int64)

/-- What `store_tensor` with the cells of the launched rows makes of the array. The binding refuses
    an offset that is no `uint64_t`, and a write outside the array goes to a null address. -/
def storedArray (st : ImageStore) (cells : List (Nat × Nat)) (inTensor : Nat → E)
    (offset : Nat) (array : Nat → E) : Option (Nat → E) :=
  if offset < 18446744073709551616 ∧ ∀ c ∈ cells, c.1 * st.geometry.rowDim + c.2 < st.numEle then
    some (writeFeatureKernel2 cells inTensor st.geometry.rowDim
      (offset / st.geometry.storageItemsize) array)
  else none

/-- The launch of the write kernel for the array in a range of the cache. -/
def ImageStore.launch {R : Nat} (st : ImageStore) (r : Fin R) (inTensor : Nat → E)
    (offset : Nat) : WriteLaunch R E where
  range := r
  dim := st.geometry.rowDim
  inTensor := inTensor
  offset := offset / st.geometry.storageItemsize

section Leaves

variable {R : Nat} [NeZero R] (cfg : Config R) (A : Type) [DecidableEq A] [Fintype A]

/-- Every run of `store_tensor` on a cache that has `array` leaves `array'`, in the cache and on
    the SSDs. -/
def Leaves (r : Fin R) (st : ImageStore) (cells : List (Nat × Nat)) (inTensor : Nat → E)
    (offset : Nat) (array array' : Nat → E) : Prop :=
  ∀ s s' : St R A E, Reached cfg Marking s →
    (∀ n, readElement s r st.geometry.rowDim n = array n) →
    StoreTensor cfg (st.launch r inTensor offset) cells s s' →
    ∀ n, readElement s' r st.geometry.rowDim n = array' n ∧
      s'.ssd ⟨r, n / st.geometry.rowDim⟩ (n % st.geometry.rowDim) = array' n

theorem leaves_of_stored {r : Fin R} {st : ImageStore} {cells : List (Nat × Nat)}
    (hcells : ∀ c ∈ cells, c.2 < st.geometry.rowDim) {inTensor : Nat → E} {offset : Nat}
    {array array' : Nat → E} (h : storedArray st cells inTensor offset array = some array') :
    Leaves cfg A r st cells inTensor offset array array' := by
  intro s s' hs harray hstore n
  rw [storedArray] at h
  split at h
  case isFalse => cases h
  obtain rfl := Option.some.inj h
  obtain rfl : readElement s r st.geometry.rowDim = array := funext harray
  exact hstore.readElement hs hcells n

end Leaves

/-- `sample_id_offset * self.storage_sample_dim * tensor.element_size()`. -/
def offsetBytes (st : ImageStore) (sampleIdOffset : Nat) : Nat :=
  sampleIdOffset * st.geometry.storageSampleDim * st.geometry.storageItemsize

theorem offsetBytes_div (st : ImageStore) (k : Nat) :
    offsetBytes st k / st.geometry.storageItemsize = k * st.geometry.storageSampleDim :=
  Nat.mul_div_cancel _ st.itemsize_pos

/-- Where a loader puts element `c` of sample `j` of its storage array. -/
theorem Loader.load_ok {ld : Loader} {g : Geometry} (ops : ElementOps Raw E)
    {d : PreparedDataset Raw} (h : ld.Accepts g d) :
    ∃ a, ld.load g ops d = .ok a ∧ a.rows = d.numSamples * g.sampleRowCount ∧
      ∀ j < d.numSamples, ∀ c < g.sampleDim, a.data[j * g.storageSampleDim + c]? =
        (d.elements[j * g.sampleDim + c]?).map (ld.element ops d) := by
  cases ld with
  | images own => exact storageArray_sample _ _ _ _ h.1 h.2.1
  | tokens =>
    have hdtype : ¬ (d.shape = g.sampleShape ∧ d.dtype ≠ .int64) := fun hne => hne.2 (h.2.2 rfl)
    obtain ⟨a, ha, hrest⟩ := storageArray_sample "LLMIDS" "tokens" ops.same ops.zero h.1 h.2.1
    refine ⟨a, ?_, hrest⟩
    show (if _ then _ else _) = _
    rw [if_neg hdtype, ha]

/-! ## Fetching -/

/-- The call of `read_feature` for the rows of a batch. -/
def fetchCall (st : ImageStore) (sampleIds : List Nat)
    (h : sampleIds.length * st.geometry.sampleRowCount ≤ 2147483648) : ReadCall where
  launch :=
    { bSize := 128
      numIndex := sampleIds.length * st.geometry.sampleRowCount
      dim := st.geometry.rowDim
      bSize_ge := bSize128_ge
      bSize_le := bSize128_le
      dim_ge := by omega
      dim_lt := Int.ofNat_lt.mpr st.rowDim_lt
      grid_lt := by omega }
  index n := ((expandSampleIdsToRowIndices st.geometry sampleIds)[n]?.getD 0 : Nat)
  cacheDim := st.geometry.cacheDim
  keyOff := 0
  nElemsPerPage := st.geometry.rowDim
  count := st.numEle
  bSize_eq := rfl
  nElemsPerPage_pos := st.rowDim_pos
  count_le := st.numEle_le

/-- `fetch_samples_sync`, up to the conversion of the fetched elements for training. A grid
    that the rows do not fit into is not launched. -/
def fetchSamplesSync (st : ImageStore) (forceSync : Bool) (findSlot : Pages → Nat) (pages : Pages)
    (zero : E) (sampleIds : List Nat) (array : Nat → E) : Option (Rows E st.geometry.sampleDim) :=
  if h : sampleIds.length * st.geometry.sampleRowCount ≤ 2147483648 then
    (readFeature forceSync findSlot (fetchCall st sampleIds h) pages array fun _ => zero).map
      fun images => cutSamples st.geometry sampleIds.length
        ⟨sampleIds.length * st.geometry.sampleRowCount,
          (List.range (sampleIds.length * st.geometry.sampleRowCount * st.geometry.rowDim)).map
            images, by rw [List.length_map, List.length_range]⟩ rfl
  else none

/-- Element `tid` of row `n` of a batch, where the index does not overflow. -/
theorem fetchCall_elem {st : ImageStore} {sampleIds : List Nat}
    {h : sampleIds.length * st.geometry.sampleRowCount ≤ 2147483648} {n row : Nat} (tid : Nat)
    (hrow : (expandSampleIdsToRowIndices st.geometry sampleIds)[n]? = some row)
    (hlt : row * st.geometry.rowDim + tid < 18446744073709551616) :
    (fetchCall st sampleIds h).elem 0 n tid = row * st.geometry.rowDim + tid := by
  have hcast : (((row : Nat) : Int) + (0 : Nat)) * st.geometry.cacheDim + tid =
      (row * st.geometry.rowDim + tid : Nat) := by
    rw [Geometry.cacheDim]
    push_cast
    ring
  show (((((expandSampleIdsToRowIndices st.geometry sampleIds)[n]?.getD 0 : Nat) + (0 : Nat)) *
    (st.geometry.cacheDim : Int) + tid) % (18446744073709551616 : Int)).toNat = _
  rw [hrow, Option.getD_some, hcast]
  omega

section Fetch

variable {st : ImageStore} {sampleIds : List Nat}

/-- The rows of samples inside the array. -/
theorem row_of_range (hids : ∀ id ∈ sampleIds, (id + 1) * st.geometry.storageSampleDim ≤ st.numEle)
    {n : Nat} (hn : n < sampleIds.length * st.geometry.sampleRowCount) :
    ∃ row, (expandSampleIdsToRowIndices st.geometry sampleIds)[n]? = some row ∧
      ∀ tid < st.geometry.rowDim, row * st.geometry.rowDim + tid < st.numEle := by
  have hrow : 0 < st.geometry.rowDim := st.rowDim_pos
  have hlen := length_expandSampleIds st.geometry sampleIds
  obtain ⟨row, hget⟩ : ∃ row, (expandSampleIdsToRowIndices st.geometry sampleIds)[n]? = some row :=
    ⟨_, List.getElem?_eq_getElem (by omega)⟩
  refine ⟨row, hget, fun tid htid => ?_⟩
  obtain ⟨id, hid, hmem⟩ := List.mem_flatMap.mp (List.mem_of_getElem? hget)
  obtain ⟨o, ho, rfl⟩ := List.mem_map.mp hmem
  have ho' := List.mem_range.mp ho
  calc (id * st.geometry.sampleRowCount + o) * st.geometry.rowDim + tid
      < (id * st.geometry.sampleRowCount + o + 1) * st.geometry.rowDim := by
        rw [Nat.succ_mul]
        omega
    _ ≤ ((id + 1) * st.geometry.sampleRowCount) * st.geometry.rowDim := by
        refine Nat.mul_le_mul_right _ ?_
        rw [Nat.succ_mul]
        omega
    _ = (id + 1) * st.geometry.storageSampleDim := Nat.mul_assoc _ _ _
    _ ≤ st.numEle := hids id hid

theorem fetchCall_rowsOk (hids : ∀ id ∈ sampleIds,
      (id + 1) * st.geometry.storageSampleDim ≤ st.numEle)
    (h : sampleIds.length * st.geometry.sampleRowCount ≤ 2147483648) :
    RowsOk (fetchCall st sampleIds h) := by
  have hcount := st.numEle_le
  have hU : (fetchCall st sampleIds h).launch.dimU = st.geometry.rowDim :=
    Int.ofNat.inj ((fetchCall st sampleIds h).launch.dimU_of_nonneg (Int.natCast_nonneg _))
  intro n hn tid htid
  rw [hU] at htid
  obtain ⟨row, hrow, hlt⟩ := row_of_range hids hn
  have hpos := st.rowDim_pos
  have helem : ∀ t < st.geometry.rowDim, (fetchCall st sampleIds h).elem 0 n t =
      row * st.geometry.rowDim + t := by
    intro t ht
    have hbound := hlt t ht
    exact fetchCall_elem _ hrow (by omega)
  show (fetchCall st sampleIds h).elem 0 n tid < st.numEle ∧
    (fetchCall st sampleIds h).elem 0 n tid / st.geometry.rowDim =
      (fetchCall st sampleIds h).elem 0 n 0 / st.geometry.rowDim
  rw [helem tid htid, helem 0 hpos, Nat.add_zero]
  refine ⟨hlt tid htid, ?_⟩
  rw [add_div_eq_iff hpos, Nat.mul_mod_left, Nat.zero_add]
  exact htid

/-- The modes in which `read_feature` delivers the rows of a batch. -/
def Delivers (st : ImageStore) (forceSync : Bool) (batchSize : Nat) : Prop :=
  forceSync = true ∨ batchSize * st.geometry.sampleRowCount = 0 ∨
    (batchSize * st.geometry.sampleRowCount = 1 ∧ st.geometry.rowDim ≤ 128)

/-- A batch of samples inside the array, in a mode that delivers them. -/
theorem fetchSamplesSync_eq {forceSync : Bool} {findSlot : Pages → Nat} {pages : Pages}
    (hidle : Idle pages)
    (hids : ∀ id ∈ sampleIds, (id + 1) * st.geometry.storageSampleDim ≤ st.numEle)
    (hnum : sampleIds.length * st.geometry.sampleRowCount ≤ 2147483648)
    (hmode : Delivers st forceSync sampleIds.length) (zero : E) (array : Nat → E) :
    fetchSamplesSync st forceSync findSlot pages zero sampleIds array =
      some (gatherSamples st.geometry sampleIds array) := by
  have hrows := fetchCall_rowsOk hids hnum
  have hpos := st.rowDim_pos
  have hU : (fetchCall st sampleIds hnum).launch.dimU = st.geometry.rowDim :=
    Int.ofNat.inj ((fetchCall st sampleIds hnum).launch.dimU_of_nonneg (Int.natCast_nonneg _))
  obtain ⟨images, hsync, hvalue⟩ := sync_rows findSlot pages
    (r := fetchCall st sampleIds hnum) hnum (fun w hw tid htid => (hrows w hw tid htid).1) array
    fun _ => zero
  -- the default mode delivers the same
  have hread : readFeature forceSync findSlot (fetchCall st sampleIds hnum) pages array
      (fun _ => zero) = some images := by
    cases forceSync with
    | true => exact hsync
    | false =>
      have hagree : ModesAgree (fetchCall st sampleIds hnum) := by
        rcases hmode with hf | hzero | ⟨hone, hdim⟩
        · cases hf
        · exact .inl hzero
        · refine .inr (.inr ⟨hone, Int.ofNat_lt.mpr hpos, Int.ofNat_le.mpr hdim, ?_⟩)
          show ((0 : Nat) : Int) * _ % _ = 0
          rw [Int.natCast_zero, Int.zero_mul, Int.zero_emod]
      obtain ⟨result, hasync, hsync'⟩ := asyncEqSync_of_agree hrows hagree findSlot pages hidle array
        fun _ => zero
      rw [hasync, ← hsync', hsync]
  -- the output tensor is the gathered rows
  have hdata : (List.range (sampleIds.length * st.geometry.sampleRowCount * st.geometry.rowDim)).map
      images = (Rows.gather array st.geometry.rowDim
        (expandSampleIdsToRowIndices st.geometry sampleIds)).data := by
    refine List.ext_getElem? fun i => ?_
    by_cases hi : i < sampleIds.length * st.geometry.sampleRowCount * st.geometry.rowDim
    · obtain ⟨row, hrow, hlt⟩ := row_of_range hids ((Nat.div_lt_iff_lt_mul hpos).mpr hi)
      have hbound := hlt (i % st.geometry.rowDim) (Nat.mod_lt i hpos)
      have hcount := st.numEle_le
      have hgather := Rows.gather_at? array hrow (Nat.mod_lt i hpos)
      rw [Rows.at?, Nat.div_add_mod'] at hgather
      have hi' : i < (fetchCall st sampleIds hnum).launch.numIndex * st.geometry.rowDim := hi
      rw [List.getElem?_map, List.getElem?_range hi, Option.map_some, hgather, hvalue i, hU,
        if_pos hi']
      show some (array ((fetchCall st sampleIds hnum).elem 0 _ _)) = _
      rw [fetchCall_elem _ hrow (by omega)]
    · rw [List.getElem?_eq_none (by rw [List.length_map, List.length_range]; omega),
        List.getElem?_eq_none (by rw [Rows.size, Rows.gather_rows, length_expandSampleIds]; omega)]
  rw [fetchSamplesSync, dif_pos hnum, hread, Option.map_some, gatherSamples]
  exact congrArg some (cutSamples_congr (Rows.ext (length_expandSampleIds _ _).symm hdata) _ _)

end Fetch

/-! ## Placement -/

section Placed

variable {R : Nat} [NeZero R] (cfg : Config R) (r : Fin R) (A : Type) [DecidableEq A] [Fintype A]

/-- After a dataset of `numSamples` samples has been loaded at the sample id offset `k`, sample
    `k + j` reads back as sample `j`, and all other samples are unchanged. -/
def Placed (st : ImageStore) (ops : ElementOps Raw E) (ld : Loader) (forceSync : Bool)
    (k numSamples : Nat) : Prop :=
  ∀ d : PreparedDataset Raw, ld.Accepts st.geometry d → d.numSamples = numSamples →
  ∃ a, ld.load st.geometry ops d = .ok a ∧
    ∀ (cells : List (Nat × Nat)),
      (∀ row i, (row, i) ∈ cells ↔ row < a.rows ∧ i < st.geometry.rowDim) →
    ∀ (array behind : Nat → E), ∃ array',
      storedArray st cells (onDevice a behind) (offsetBytes st k) array = some array' ∧
      Leaves cfg A r st cells (onDevice a behind) (offsetBytes st k) array array' ∧
      (∀ (findSlot : Pages → Nat) (pages : Pages), Idle pages → ∀ j < numSamples, ∃ images,
        fetchSamplesSync st forceSync findSlot pages ops.zero [k + j] array' = some images ∧
          ∀ c < st.geometry.sampleDim, images.at? 0 c =
            (d.elements[j * st.geometry.sampleDim + c]?).map (ld.element ops d)) ∧
      ∀ id, ¬ (k ≤ id ∧ id < k + numSamples) → ∀ c < st.geometry.storageSampleDim,
        array' (id * st.geometry.storageSampleDim + c) = array (id * st.geometry.storageSampleDim + c)

end Placed

/-- When a load places its samples: there are none, or they have no elements, or the offset is
    0, they fit in the array and `read_feature` delivers a sample. -/
def PlacedWhen (st : ImageStore) (forceSync : Bool) (k numSamples : Nat) : Prop :=
  (numSamples = 0 ∧ offsetBytes st k < 18446744073709551616) ∨ st.geometry.sampleDim = 0 ∨
    (k = 0 ∧ numSamples * st.geometry.storageSampleDim ≤ st.numEle ∧
      (forceSync = true ∨ (st.geometry.sampleRowCount = 1 ∧ st.geometry.rowDim ≤ 128)))

theorem sampleRowCount_eq_zero {g : Geometry} (h : g.sampleDim = 0) : g.sampleRowCount = 0 := by
  have hpos : 0 < g.rowDim := g.rowDim_pos
  rw [Geometry.sampleRowCount, h, Nat.zero_add]
  exact Nat.div_eq_of_lt (by omega)

theorem sampleRowCount_pos {g : Geometry} (h : 0 < g.sampleDim) : 0 < g.sampleRowCount := by
  have hpos : 0 < g.rowDim := g.rowDim_pos
  rw [Geometry.sampleRowCount]
  exact Nat.div_pos (by omega) hpos

/-- What a store that does not fault leaves in the array. -/
theorem storedArray_apply {st : ImageStore} {cells : List (Nat × Nat)} {num k : Nat}
    (hcells : ∀ row i, (row, i) ∈ cells ↔ row < num ∧ i < st.geometry.rowDim)
    {inTensor array array' : Nat → E}
    (h : storedArray st cells inTensor (offsetBytes st k) array = some array') (n : Nat) :
    array' n = if n < num * st.geometry.rowDim then
      inTensor (n + k * st.geometry.storageSampleDim) else array n := by
  rw [storedArray, offsetBytes_div] at h
  split at h
  case isTrue =>
    rw [← Option.some.inj h]
    exact writeFeatureKernel2_apply hcells inTensor _ array n
  case isFalse => cases h

theorem placed_of_when {R : Nat} [NeZero R] {cfg : Config R} {r : Fin R} {A : Type} [DecidableEq A]
    [Fintype A] {st : ImageStore} {ops : ElementOps Raw E} {ld : Loader} {forceSync : Bool}
    {k numSamples : Nat} (h : PlacedWhen st forceSync k numSamples) :
    Placed cfg r A st ops ld forceSync k numSamples := by
  intro d hd hnum
  obtain ⟨a, hload, hrows, hsample⟩ := Loader.load_ok ops hd
  refine ⟨a, hload, fun cells hcells array behind => ?_⟩
  rw [hnum] at hrows hsample
  have hsize : a.rows * st.geometry.rowDim = numSamples * st.geometry.storageSampleDim := by
    rw [hrows, Nat.mul_assoc, Geometry.storageSampleDim]
  -- the store does not fault
  have hfits : offsetBytes st k < 18446744073709551616 ∧
      numSamples * st.geometry.storageSampleDim ≤ st.numEle := by
    rcases h with ⟨hzero, hoff⟩ | hdim | ⟨hk, hfit, -⟩
    · exact ⟨hoff, by rw [hzero, Nat.zero_mul]; exact Nat.zero_le _⟩
    · rw [offsetBytes, Geometry.storageSampleDim, sampleRowCount_eq_zero hdim, Nat.zero_mul,
        Nat.mul_zero, Nat.zero_mul, Nat.mul_zero]
      exact ⟨by decide, Nat.zero_le _⟩
    · exact ⟨by rw [offsetBytes, hk, Nat.zero_mul, Nat.zero_mul]; decide, hfit⟩
  have hbounds : ∀ c ∈ cells, c.1 * st.geometry.rowDim + c.2 < st.numEle := by
    intro c hc
    obtain ⟨hrow, hi⟩ := (hcells c.1 c.2).mp hc
    have hlt := Rows.cell_lt hrow hi
    omega
  have hstore : storedArray st cells (onDevice a behind) (offsetBytes st k) array = some _ :=
    if_pos ⟨hfits.1, hbounds⟩
  have hleaves := leaves_of_stored cfg A (r := r) (fun c hc => ((hcells c.1 c.2).mp hc).2) hstore
  refine ⟨_, hstore, hleaves, fun findSlot pages hidle j hj => ?_, fun id hid c hc => ?_⟩
  · by_cases hdim : st.geometry.sampleDim = 0
    · -- a sample without elements: nothing is read
      have hS : st.geometry.storageSampleDim = 0 := by
        rw [Geometry.storageSampleDim, sampleRowCount_eq_zero hdim, Nat.zero_mul]
      refine ⟨_, fetchSamplesSync_eq hidle (fun id _ => by rw [hS, Nat.mul_zero]; exact Nat.zero_le _)
        (by rw [sampleRowCount_eq_zero hdim, Nat.mul_zero]; exact Nat.zero_le _)
        (.inr (.inl (by rw [sampleRowCount_eq_zero hdim, Nat.mul_zero]))) ops.zero _,
        fun c hc => ?_⟩
      rw [hdim] at hc
      exact absurd hc (Nat.not_lt_zero c)
    · rcases h with ⟨hzero, -⟩ | hzero | ⟨hk, hfit, hmode⟩
      · omega
      · exact absurd hzero hdim
      have hid : ∀ id ∈ [k + j], (id + 1) * st.geometry.storageSampleDim ≤ st.numEle := by
        intro id hid
        rw [List.mem_singleton.mp hid, hk, Nat.zero_add]
        exact Nat.le_trans (Nat.mul_le_mul_right _ hj) hfit
      refine ⟨_, fetchSamplesSync_eq hidle hid
        (by rw [List.length_singleton, Nat.one_mul]; exact st.sampleRowCount_le)
        (hmode.imp_right fun hm => .inr ⟨by rw [hm.1]; rfl, hm.2⟩) ops.zero _, fun c hc => ?_⟩
      have hcS : c < st.geometry.storageSampleDim :=
        Nat.lt_of_lt_of_le hc st.geometry.sampleDim_le_storageSampleDim
      have hlt : j * st.geometry.storageSampleDim + c < a.rows * st.geometry.rowDim := by
        rw [hsize]
        exact Rows.cell_lt hj hcS
      have hlen : j * st.geometry.storageSampleDim + c < a.data.length := by
        rw [a.size]
        exact hlt
      rw [gatherSamples_at? st.geometry [k + j] _ List.getElem?_cons_zero hc,
        storedArray_apply hcells hstore, hk, Nat.zero_add, if_pos hlt, Nat.zero_mul,
        Nat.add_zero, onDevice, List.getElem?_eq_getElem hlen, Option.getD_some,
        ← List.getElem?_eq_getElem hlen]
      exact hsample j hj c hc
  · rw [storedArray_apply hcells hstore, if_neg]
    rw [hsize]
    intro hlt
    rcases h with ⟨hzero, -⟩ | hdim | ⟨hk, -, -⟩
    · rw [hzero, Nat.zero_mul] at hlt
      omega
    · rw [Geometry.storageSampleDim, sampleRowCount_eq_zero hdim, Nat.zero_mul] at hc
      omega
    · have hge : numSamples ≤ id := by omega
      have hmul := Nat.mul_le_mul_right st.geometry.storageSampleDim hge
      omega

/-! ## Misplacement -/

section First

variable {st : ImageStore} {id : Nat}
  (h : [id].length * st.geometry.sampleRowCount ≤ 2147483648)
  (hdim : 0 < st.geometry.sampleDim) (hid : id * st.geometry.storageSampleDim < 18446744073709551616)
include hdim hid

theorem fetchCall_elem_first :
    (fetchCall st [id] h).elem 0 0 0 = id * st.geometry.storageSampleDim := by
  have hrc := sampleRowCount_pos hdim
  have hget : (expandSampleIdsToRowIndices st.geometry [id])[0]? =
      some (id * st.geometry.sampleRowCount) := by
    rw [expandSampleIdsToRowIndices, List.flatMap_singleton, List.getElem?_map,
      List.getElem?_range hrc]
    rfl
  rw [Geometry.storageSampleDim, ← Nat.mul_assoc] at hid ⊢
  exact fetchCall_elem 0 hget hid

/-- The first element of a sample that the synchronous mode has fetched. -/
theorem sync_first {findSlot : Pages → Nat} {pages : Pages} {array out images : Nat → E}
    (hread : readFeature true findSlot (fetchCall st [id] h) pages array out = some images) :
    images 0 = array (id * st.geometry.storageSampleDim) := by
  have hrc := sampleRowCount_pos hdim
  have hpos := st.rowDim_pos
  have hU : (fetchCall st [id] h).launch.dimU = st.geometry.rowDim :=
    Int.ofNat.inj ((fetchCall st [id] h).launch.dimU_of_nonneg (Int.natCast_nonneg _))
  have hrange : ∀ w < (fetchCall st [id] h).launch.numIndex,
      ∀ tid < (fetchCall st [id] h).launch.dimU,
        (fetchCall st [id] h).elem (fetchCall st [id] h).keyOff w tid <
          (fetchCall st [id] h).count := by
    intro w hw tid htid
    have hkernel := hread
    rw [readFeature, if_pos rfl, readFeatureKernel] at hkernel
    split at hkernel
    case isTrue hall =>
      refine (hall (w, tid) (List.mem_flatMap.mpr ⟨w, (mem_warps_of_le h).mpr hw, ?_⟩)).2
      exact List.mem_map.mpr ⟨tid, List.mem_range.mpr htid, rfl⟩
    case isFalse => cases hkernel
  obtain ⟨result, hresult, hvalue⟩ := sync_rows findSlot pages h hrange
    array out
  have hsame : images = result := Option.some.inj (hread.symm.trans hresult)
  have hcells : 0 < (fetchCall st [id] h).launch.numIndex * (fetchCall st [id] h).launch.dimU := by
    rw [hU]
    exact Nat.mul_pos (Nat.mul_pos Nat.zero_lt_one hrc) hpos
  rw [hsame, hvalue 0, if_pos hcells, Nat.zero_div, Nat.zero_mod]
  exact congrArg array (fetchCall_elem_first h hdim hid)

/-- A default mode that gets through has one row to read, and reads it as the synchronous mode
    does. -/
theorem default_first {findSlot : Pages → Nat} {pages : Pages} (hidle : Idle pages)
    {array out images : Nat → E}
    (hread : readFeature false findSlot (fetchCall st [id] h) pages array out = some images) :
    (st.geometry.sampleRowCount = 1 ∧ st.geometry.rowDim ≤ 128) ∧
      readFeature true findSlot (fetchCall st [id] h) pages array out = some images := by
  have hrc := sampleRowCount_pos hdim
  have hpos := st.rowDim_pos
  have hcount := st.numEle_le
  have hU : (fetchCall st [id] h).launch.dimU = st.geometry.rowDim :=
    Int.ofNat.inj ((fetchCall st [id] h).launch.dimU_of_nonneg (Int.natCast_nonneg _))
  have hne : (fetchCall st [id] h).launch.numIndex ≠ 0 :=
    Nat.ne_of_gt (Nat.mul_pos Nat.zero_lt_one hrc)
  obtain ⟨hone, hdim', hle⟩ := one_row_of_async_some hread hne
    (Int.ne_of_gt (Int.ofNat_lt.mpr hpos))
  obtain ⟨s, s', -, hwait⟩ := async_some hread
  have hfirst := fetchCall_elem_first h hdim hid
  have hlanes : ∀ tid < (fetchCall st [id] h).launch.dimU,
      (fetchCall st [id] h).elem 0 0 tid < st.numEle :=
    fun tid htid => lane_lt_of_some hone hwait tid htid
  have helem : ∀ tid < (fetchCall st [id] h).launch.dimU,
      (fetchCall st [id] h).elem 0 0 tid = id * st.geometry.storageSampleDim + tid := by
    intro tid htid
    have hle' : st.geometry.rowDim ≤ 128 := Int.ofNat_le.mp hle
    rw [(fetchCall st [id] h).elem_add (hlanes 0 (by omega)) (by omega), hfirst]
  have hrows : RowsOk (fetchCall st [id] h) := by
    intro w hw tid htid
    have hw0 : w = 0 := by omega
    subst hw0
    refine ⟨hlanes tid htid, ?_⟩
    show (fetchCall st [id] h).elem 0 0 tid / st.geometry.rowDim =
      (fetchCall st [id] h).elem 0 0 0 / st.geometry.rowDim
    rw [helem tid htid, hfirst, add_div_eq_iff hpos, Geometry.storageSampleDim, ← Nat.mul_assoc,
      Nat.mul_mod_left, Nat.zero_add, ← hU]
    exact htid
  have hagree : ModesAgree (fetchCall st [id] h) := by
    refine .inr (.inr ⟨hone, hdim', hle, ?_⟩)
    show ((0 : Nat) : Int) * _ % _ = 0
    rw [Int.natCast_zero, Int.zero_mul, Int.zero_emod]
  obtain ⟨result, hasync, hsync⟩ := asyncEqSync_of_agree hrows hagree findSlot pages hidle array out
  refine ⟨⟨?_, Int.ofNat_le.mp hle⟩, ?_⟩
  · have hrc1 : 1 * st.geometry.sampleRowCount = 1 := hone
    omega
  · rw [hsync, ← hasync, hread]

/-- The first element of a sample that has been fetched, and the modes that fetch it. -/
theorem fetch_first {forceSync : Bool} {findSlot : Pages → Nat} {pages : Pages}
    (hidle : Idle pages) {zero : E} {array : Nat → E} {images : Rows E st.geometry.sampleDim}
    (hfetch : fetchSamplesSync st forceSync findSlot pages zero [id] array = some images) :
    images.at? 0 0 = some (array (id * st.geometry.storageSampleDim)) ∧
      (forceSync = true ∨ (st.geometry.sampleRowCount = 1 ∧ st.geometry.rowDim ≤ 128)) := by
  have hrc := sampleRowCount_pos hdim
  have hpos := st.rowDim_pos
  have h : [id].length * st.geometry.sampleRowCount ≤ 2147483648 := by
    rw [List.length_singleton, Nat.one_mul]
    exact st.sampleRowCount_le
  rw [fetchSamplesSync, dif_pos h] at hfetch
  obtain ⟨tensor, hread, rfl⟩ := Option.map_eq_some_iff.mp hfetch
  have hcells : 0 < [id].length * st.geometry.sampleRowCount * st.geometry.rowDim :=
    Nat.mul_pos (Nat.mul_pos Nat.zero_lt_one hrc) hpos
  have hget : (cutSamples st.geometry [id].length ⟨_, (List.range ([id].length *
      st.geometry.sampleRowCount * st.geometry.rowDim)).map tensor,
      by rw [List.length_map, List.length_range]⟩ rfl).at? 0 0 = some (tensor 0) := by
    refine (cutSamples_at? _ _ Nat.zero_lt_one hdim).trans ?_
    rw [Nat.zero_mul, List.getElem?_map, List.getElem?_range hcells]
    rfl
  rw [hget]
  cases forceSync with
  | true => exact ⟨congrArg some (sync_first h hdim hid hread), .inl rfl⟩
  | false =>
    obtain ⟨hmode, hsync⟩ := default_first h hdim hid hidle hread
    exact ⟨congrArg some (sync_first h hdim hid hsync), .inr hmode⟩

end First

/-- A dtype whose elements the loader stores as they are. -/
def Loader.plainDtype : Loader → Dtype
  | .images .uint8 => .uint8
  | .images _ => .float32
  | .tokens => .int64

theorem Loader.element_plain {ld : Loader} (ops : ElementOps Raw E) {d : PreparedDataset Raw}
    (h : d.dtype = ld.plainDtype) : ld.element ops d = ops.same := by
  cases ld with
  | images own => cases own <;> simp [element, storageElement, h, plainDtype,
      preparedArrayToTrainingFloat32]
  | tokens => rfl

/-- A dataset whose first element is `y` and whose other elements are `x`. -/
def markedDataset (st : ImageStore) (ld : Loader) (numSamples : Nat) (x y : Raw) :
    PreparedDataset Raw where
  shape := st.geometry.sampleShape
  dtype := ld.plainDtype
  sampleDim := st.geometry.sampleDim
  numSamples := numSamples
  elements := (List.range (numSamples * st.geometry.sampleDim)).map fun n => if n = 0 then y else x
  sampleDim_eq := rfl

theorem markedDataset_accepts (st : ImageStore) (ld : Loader) (numSamples : Nat) (x y : Raw) :
    ld.Accepts st.geometry (markedDataset st ld numSamples x y) := by
  refine ⟨rfl, ?_, fun h => ?_⟩
  · show ((List.range _).map _).length = _
    rw [List.length_map, List.length_range]
    rfl
  · subst h
    rfl

/-- Behind the first element, the storage array of the marked dataset and the memory behind it
    hold `x`, as far as samples begin there. -/
theorem markedDataset_onDevice {st : ImageStore} {ld : Loader} {ops : ElementOps Raw E}
    {numSamples : Nat} {x y : Raw} {a : Rows E st.geometry.rowDim}
    (hrows : a.rows = numSamples * st.geometry.sampleRowCount)
    (hsample : ∀ j < numSamples, ∀ c < st.geometry.sampleDim,
      a.data[j * st.geometry.storageSampleDim + c]? =
        ((markedDataset st ld numSamples x y).elements[j * st.geometry.sampleDim + c]?).map ops.same)
    (hdim : 0 < st.geometry.sampleDim) {m : Nat} (hm : 0 < m) :
    onDevice a (fun _ => ops.same x) (m * st.geometry.storageSampleDim) = ops.same x := by
  rw [onDevice]
  by_cases hlt : m < numSamples
  · have hcell : m * st.geometry.sampleDim < numSamples * st.geometry.sampleDim :=
      Nat.mul_lt_mul_of_pos_right hlt hdim
    have hne : m * st.geometry.sampleDim ≠ 0 := Nat.ne_of_gt (Nat.mul_pos hm hdim)
    have hget := hsample m hlt 0 hdim
    rw [Nat.add_zero, Nat.add_zero, markedDataset, List.getElem?_map, List.getElem?_range hcell,
      Option.map_some, Option.map_some, if_neg hne] at hget
    rw [hget, Option.getD_some]
  · have hsize : a.data.length = numSamples * st.geometry.storageSampleDim := by
      rw [a.size, hrows, Nat.mul_assoc, Geometry.storageSampleDim]
    have hle := Nat.mul_le_mul_right st.geometry.storageSampleDim (Nat.not_lt.mp hlt)
    rw [List.getElem?_eq_none (by omega), Option.getD_none]

theorem when_of_placed {R : Nat} [NeZero R] {cfg : Config R} {r : Fin R} {A : Type} [DecidableEq A]
    [Fintype A] {st : ImageStore} {ops : ElementOps Raw E} {ld : Loader} {forceSync : Bool}
    {k numSamples : Nat} {x y : Raw} (hxy : ops.same x ≠ ops.same y)
    (h : Placed cfg r A st ops ld forceSync k numSamples) : PlacedWhen st forceSync k numSamples := by
  have hd := markedDataset_accepts st ld numSamples x y
  have helement := ld.element_plain ops (d := markedDataset st ld numSamples x y) rfl
  obtain ⟨a, hload, hplaced⟩ := h _ hd rfl
  obtain ⟨a', hload', hrows, hsample⟩ := Loader.load_ok ops hd
  have haa : a' = a := Except.ok.inj (hload'.symm.trans hload)
  subst haa
  rw [helement] at hsample hplaced
  replace hrows : a'.rows = numSamples * st.geometry.sampleRowCount := hrows
  have hcells : ∀ row i, (row, i) ∈ writeCells a'.rows 128 st.geometry.rowDim ↔
      row < a'.rows ∧ i < st.geometry.rowDim := fun _ _ => mem_writeCells_iff (by decide)
  obtain ⟨array', hstore, -, hread, -⟩ := hplaced _ hcells (fun _ => ops.same x) fun _ => ops.same x
  -- the store has not faulted
  obtain ⟨hoff, hbounds⟩ : offsetBytes st k < 18446744073709551616 ∧
      ∀ c ∈ writeCells a'.rows 128 st.geometry.rowDim,
        c.1 * st.geometry.rowDim + c.2 < st.numEle := by
    have hstore' := hstore
    rw [storedArray] at hstore'
    by_contra hno
    rw [if_neg hno] at hstore'
    cases hstore'
  by_cases hdim0 : st.geometry.sampleDim = 0
  · exact .inr (.inl hdim0)
  by_cases hnum : numSamples = 0
  · exact .inl ⟨hnum, hoff⟩
  have hdim : 0 < st.geometry.sampleDim := Nat.pos_of_ne_zero hdim0
  have hpos := st.rowDim_pos
  have hrc := sampleRowCount_pos hdim
  have hkS : k * st.geometry.storageSampleDim < 18446744073709551616 :=
    Nat.lt_of_le_of_lt (Nat.le_mul_of_pos_right _ st.itemsize_pos) hoff
  -- sample `k` begins with the mark
  obtain ⟨images, hfetch, hvalue⟩ := hread (fun _ => 0) emptyPages emptyPages_idle 0
    (Nat.pos_of_ne_zero hnum)
  obtain ⟨hfirst, hmode⟩ := fetch_first hdim hkS emptyPages_idle hfetch
  have hmark : array' (k * st.geometry.storageSampleDim) = ops.same y := by
    have hcell : 0 < numSamples * st.geometry.sampleDim :=
      Nat.mul_pos (Nat.pos_of_ne_zero hnum) hdim
    have hzero := hvalue 0 hdim
    rw [hfirst, Nat.zero_mul, Nat.zero_add, markedDataset, List.getElem?_map,
      List.getElem?_range hcell, Option.map_some, Option.map_some, if_pos rfl] at hzero
    exact Option.some.inj hzero
  refine .inr (.inr ⟨?_, ?_, hmode⟩)
  · -- from any other offset something unmarked has been copied, or nothing at all
    by_contra hk
    rw [storedArray_apply hcells hstore, ← Nat.add_mul, markedDataset_onDevice hrows hsample hdim
      (by omega), ite_self] at hmark
    exact hxy hmark
  · have hlast : (a'.rows - 1, st.geometry.rowDim - 1) ∈ writeCells a'.rows 128 st.geometry.rowDim := by
      have hrows' : 0 < a'.rows := by
        rw [hrows]
        exact Nat.mul_pos (Nat.pos_of_ne_zero hnum) hrc
      exact (hcells _ _).mpr ⟨by omega, by omega⟩
    have hlt := hbounds _ hlast
    have hsize : numSamples * st.geometry.storageSampleDim = a'.rows * st.geometry.rowDim := by
      rw [hrows, Nat.mul_assoc, Geometry.storageSampleDim]
    have hsucc : (a'.rows - 1) * st.geometry.rowDim + st.geometry.rowDim =
        a'.rows * st.geometry.rowDim := by
      rw [← Nat.succ_mul, Nat.succ_eq_add_one, Nat.sub_add_cancel]
      rw [hrows]
      exact Nat.mul_pos (Nat.pos_of_ne_zero hnum) hrc
    simp only at hlt
    omega

/-- For every cache, store, loader, mode, offset and number of samples, provided that two values
    are stored differently: a load places its samples, in every run whose pointers mark the pages
    they write, exactly in the listed cases. -/
theorem placed_iff {R : Nat} [NeZero R] (cfg : Config R) (r : Fin R) (A : Type) [DecidableEq A]
    [Fintype A] (st : ImageStore) (ops : ElementOps Raw E) (ld : Loader) (forceSync : Bool)
    (k numSamples : Nat) (hvalues : ∃ x y, ops.same x ≠ ops.same y) :
    Placed cfg r A st ops ld forceSync k numSamples ↔ PlacedWhen st forceSync k numSamples := by
  obtain ⟨x, y, hxy⟩ := hvalues
  exact ⟨when_of_placed hxy, placed_of_when⟩

/-! ### Two samples in an array of two -/

open scoped GidsStack.PageCache

/-- Samples of three elements in rows of two, and room for two of them. -/
def smallStore : ImageStore where
  geometry := smallGeometry
  numEle := 8
  numEle_le := by decide
  rowDim_lt := by decide
  sampleRowCount_le := by decide

theorem fourSlots_ok : 0 < 4 ∧ 4 < PageCache.asyncPageTransPending := by decide

/-- A cache of four slots. -/
def fourSlots : Config 1 := smallConfig 4 1 fourSlots_ok oneCtrl_ok

/-- One pointer at a time writes the rows: it acquires a row's page, writes both elements and
    releases the page. -/
def rowActs (row : Nat) : List (WriteAct 1 (Fin 1)) :=
  .acquire 0 (callFor row false true) :: List.replicate 14 (.run 0) ++
    [.write 0 0, .write 0 1, .release 0 1] ++ List.replicate 4 (.run 0)

/-- Elements 1 to 6 in rows of two with a padding of 0. -/
def twoSamples : WriteLaunch 1 Nat :=
  smallStore.launch 0 (fun n => [1, 2, 3, 0, 4, 5, 6, 0].getD n 0) 0

def fourRows : List (Nat × Nat) := writeCells 4 128 2

def twoSamplesEnd : Option (Writing 1 (Fin 1) Nat) :=
  Lib.runActs (Writing.step fourSlots twoSamples) ⟨newCache (Fin 1) (fun _ _ => 9) 9, fourRows⟩
    ((List.range 4).flatMap rowActs)

theorem twoSamplesEnd_isSome : twoSamplesEnd.isSome = true := by decide +kernel

/-- The flush, one slot after the other. -/
def twoSamplesFlush : Option (FlushSt 1 (Fin 1) Nat) :=
  twoSamplesEnd.bind fun t =>
    Lib.runActs (flushStep fourSlots) (flushCache t.cache) ((List.range 4).flatMap (List.replicate 4))

theorem twoSamplesFlush_isSome : twoSamplesFlush.isSome = true := by decide +kernel

theorem twoSamples_stored :
    StoreTensor fourSlots twoSamples fourRows (newCache (Fin 1) (fun _ _ => 9) 9)
      (twoSamplesFlush.get twoSamplesFlush_isSome).st := by
  obtain ⟨t, ht, hrun⟩ := Option.bind_eq_some_iff.mp (Option.some_get twoSamplesFlush_isSome).symm
  obtain rfl : twoSamplesEnd.get twoSamplesEnd_isSome = t := Option.get_of_eq_some _ ht
  have htodo : (twoSamplesEnd.get twoSamplesEnd_isSome).todo = [] := by decide +kernel
  have hend : twoSamplesEnd = some ⟨(twoSamplesEnd.get twoSamplesEnd_isSome).cache, []⟩ :=
    (Option.some_get twoSamplesEnd_isSome).symm.trans (congrArg some (Writing.eq_of_done htodo))
  refine ⟨(twoSamplesEnd.get twoSamplesEnd_isSome).cache, _, ⟨fun _ => rfl, ?_, by decide +kernel,
    by decide +kernel, by decide +kernel⟩, Lib.reachable_of_steps (.init rfl) hrun,
    by decide +kernel, rfl⟩
  exact Lib.reachable_of_runActs (.init rfl) (l := (List.range 4).flatMap rowActs)
    (by decide +kernel) hend

theorem smallStore_placed :
    Placed fourSlots 0 (Fin 1) smallStore natOps (.images .float32) true 0 2 ∧
      StoreTensor fourSlots twoSamples fourRows (newCache (Fin 1) (fun _ _ => 9) 9)
        (twoSamplesFlush.get twoSamplesFlush_isSome).st :=
  ⟨(placed_iff fourSlots 0 (Fin 1) smallStore natOps (.images .float32) true 0 2
    ⟨0, 1, by decide⟩).mpr (.inr (.inr (by decide))), twoSamples_stored⟩

/-- At the sample id offset 1 the sample is copied from behind the tensor to id 0. -/
theorem smallStore_misplaced :
    ¬ ∀ k, Placed fourSlots 0 (Fin 1) smallStore natOps (.images .float32) true k 1 := by
  intro h
  have hwhen := when_of_placed (x := 0) (y := 1) (by decide) (h 1)
  revert hwhen
  unfold PlacedWhen
  decide

end GidsStack.Dataset
