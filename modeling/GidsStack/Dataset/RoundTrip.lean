/-
  GidsStack.Dataset.RoundTrip

  What is stored comes back.

  Three facts meet: where a loader puts element `c` of sample `j` (`storageArray_sample`), what
  the write kernel leaves in the array (`writeFeatureKernel2_apply`), and what gathering a
  sample id returns (`gatherSamples_at?`). All three speak of the flat position
  `id * storage_sample_dim + c`. A combined load then only has to say which sample ids a
  dataset has been given (`Laid`).
-/

import GidsStack.Dataset.Storage

namespace GidsStack.Dataset

open GidsStack.RowMajor GidsStack.Kernel

variable {Raw E : Type}

/-! ## Loading -/

/-- The flat position of element `c` of sample `j`. -/
theorem storageArray_sample {g : Geometry} (loader kind : String) (element : Raw → E) (zero : E)
    {d : PreparedDataset Raw} (hshape : d.shape = g.sampleShape)
    (hsize : d.elements.length = d.numSamples * d.sampleDim) :
    ∃ a, storageArray g loader kind element zero d = .ok a ∧
      a.rows = d.numSamples * g.sampleRowCount ∧
      ∀ j < d.numSamples, ∀ c < g.sampleDim, a.data[j * g.storageSampleDim + c]? =
        (d.elements[j * g.sampleDim + c]?).map element := by
  have hdim : d.sampleDim = g.sampleDim := by rw [d.sampleDim_eq, hshape, Geometry.sampleDim]
  rw [storageArray, dif_pos hshape, dif_pos hsize]
  by_cases hfull : g.storageSampleDim = d.sampleDim
  · refine ⟨_, dif_pos hfull, rfl, fun j _ c _ => ?_⟩
    -- every sample fills its rows: the file itself, element by element
    show (d.elements.map element)[j * g.storageSampleDim + c]? = _
    rw [List.getElem?_map, hfull, hdim]
  · refine ⟨_, dif_neg hfull, rfl, fun j hj c hc => ?_⟩
    let host : Rows E d.sampleDim :=
      ⟨d.numSamples, d.elements.map element, by rw [List.length_map, hsize]⟩
    have hle : d.sampleDim ≤ g.storageSampleDim := by
      rw [hdim]
      exact g.sampleDim_le_storageSampleDim
    show (host.pad g.storageSampleDim zero hle).at? j c = _
    rw [host.pad_at? zero hle hj (by rw [hdim]; exact hc)]
    show (d.elements.map element)[j * d.sampleDim + c]? = _
    rw [List.getElem?_map, hdim]

/-- The arrays and infos of a loop that starts at a sample id: every dataset loads, and its
    sample ids are those of the rows in front of it. -/
inductive Laid {w : Nat} (load : PreparedDataset Raw → Except String (Rows E w)) (rowCount : Nat) :
    Nat → List (PreparedDataset Raw) → List (Rows E w) → List Info → Prop
  | nil (sampleIdOffset : Nat) : Laid load rowCount sampleIdOffset [] [] []
  | cons {sampleIdOffset : Nat} {d : PreparedDataset Raw} {roots : List (PreparedDataset Raw)}
      {a : Rows E w} {arrays : List (Rows E w)} {infos : List Info} (hload : load d = .ok a)
      (hrows : a.rows = d.numSamples * rowCount)
      (hrest : Laid load rowCount (sampleIdOffset + d.numSamples) roots arrays infos) :
      Laid load rowCount sampleIdOffset (d :: roots) (a :: arrays)
        (⟨d.numSamples, sampleIdOffset⟩ :: infos)

theorem combinedLoop_laid {w rowCount : Nat}
    {load : PreparedDataset Raw → Except String (Rows E w)} {roots : List (PreparedDataset Raw)}
    (h : ∀ d ∈ roots, ∃ a, load d = .ok a ∧ a.rows = d.numSamples * rowCount)
    (sampleIdOffset : Nat) :
    ∃ arrays infos, combinedLoop load sampleIdOffset roots = .ok (arrays, infos) ∧
      Laid load rowCount sampleIdOffset roots arrays infos := by
  induction roots generalizing sampleIdOffset with
  | nil => exact ⟨[], [], rfl, .nil _⟩
  | cons d roots ih =>
    obtain ⟨a, hload, hrows⟩ := h d List.mem_cons_self
    obtain ⟨arrays, infos, hloop, hlaid⟩ :=
      ih (fun c hc => h c (List.mem_cons_of_mem d hc)) (sampleIdOffset + d.numSamples)
    refine ⟨a :: arrays, ⟨d.numSamples, sampleIdOffset⟩ :: infos, ?_, .cons hload hrows hlaid⟩
    rw [combinedLoop, hload]
    show (combinedLoop load (sampleIdOffset + d.numSamples) roots >>= _) = _
    rw [hloop]
    rfl

/-- Dataset number `k`: its array lies behind as many rows as its sample id offset says. -/
theorem Laid.dataset {w rowCount : Nat} {load : PreparedDataset Raw → Except String (Rows E w)}
    {sampleIdOffset : Nat} {roots : List (PreparedDataset Raw)} {arrays : List (Rows E w)}
    {infos : List Info} (h : Laid load rowCount sampleIdOffset roots arrays infos) {k : Nat}
    {d : PreparedDataset Raw} (hd : roots[k]? = some d) :
    ∃ front a back info, arrays = front ++ a :: back ∧ load d = .ok a ∧ infos[k]? = some info ∧
      info.numSamples = d.numSamples ∧
      info.sampleIdOffset * rowCount = sampleIdOffset * rowCount + Rows.totalRows front := by
  induction h generalizing k with
  | nil => exact absurd hd (by rw [List.getElem?_nil]; exact Option.some_ne_none d |>.symm)
  | @cons off d' roots a arrays infos hload hrows _ ih =>
    cases k with
    | zero =>
      rw [List.getElem?_cons_zero, Option.some.injEq] at hd
      subst hd
      exact ⟨[], a, arrays, _, rfl, hload, rfl, rfl, rfl⟩
    | succ k =>
      rw [List.getElem?_cons_succ] at hd
      obtain ⟨front, b, back, info, harrays, hb, hinfo, hnum, hoff⟩ := ih hd
      refine ⟨a :: front, b, back, info, by rw [harrays, List.cons_append], hb, ?_, hnum, ?_⟩
      · rw [List.getElem?_cons_succ, hinfo]
      · rw [hoff, Rows.totalRows_cons, hrows, Nat.add_mul, Nat.add_assoc]

/-! ## Writing -/

/-- What the cells of a launch, in any order, leave in the array. -/
theorem writeFeatureKernel2_apply {num dim : Nat} {cells : List (Nat × Nat)}
    (hcells : ∀ row i, (row, i) ∈ cells ↔ row < num ∧ i < dim) (inTensor : Nat → E) (offset : Nat)
    (array : Nat → E) (k : Nat) :
    writeFeatureKernel2 cells inTensor dim offset array k =
      if k < num * dim then inTensor (k + offset) else array k := by
  by_cases hk : k < num * dim
  · rw [if_pos hk]
    have hdim : 0 < dim := Nat.pos_of_ne_zero fun h => by
      rw [h, Nat.mul_zero] at hk
      omega
    refine scatter_eq (fun c _ hc => by rw [hc]) (.inr ⟨(k / dim, k % dim), ?_, ?_⟩)
    · exact (hcells _ _).mpr ⟨(Nat.div_lt_iff_lt_mul hdim).mpr hk, Nat.mod_lt k hdim⟩
    · exact Nat.div_add_mod' k dim
  · rw [if_neg hk]
    refine scatter_other fun c hc hkey => hk ?_
    obtain ⟨hrow, hi⟩ := (hcells c.1 c.2).mp hc
    rw [← hkey]
    exact Rows.cell_lt hrow hi

/-- A tensor on the device: its elements, and behind them whatever the memory holds. -/
def onDevice {w : Nat} (a : Rows E w) (behind : Nat → E) : Nat → E :=
  fun k => a.data[k]?.getD (behind k)

/-! ## Reading -/

/-- Element `c` of the sample with id `id`. -/
theorem gatherSamples_at? (g : Geometry) (sampleIds : List Nat) (array : Nat → E) {b id c : Nat}
    (hb : sampleIds[b]? = some id) (hc : c < g.sampleDim) :
    (gatherSamples g sampleIds array).at? b c = some (array (id * g.storageSampleDim + c)) := by
  have hrow : 0 < g.rowDim := g.rowDim_pos
  have hlt : b < sampleIds.length := (List.getElem?_eq_some_iff.mp hb).1
  have hcS : c < g.sampleRowCount * g.rowDim := Nat.lt_of_lt_of_le hc g.sampleDim_le_storageSampleDim
  -- `c` lies in row `c / row_dim` of the sample
  have hq : c / g.rowDim < g.sampleRowCount := (Nat.div_lt_iff_lt_mul hrow).mpr hcS
  have hcell : ∀ n, n * g.storageSampleDim + c =
      (n * g.sampleRowCount + c / g.rowDim) * g.rowDim + c % g.rowDim := by
    intro n
    rw [Nat.add_mul, Nat.add_assoc, Nat.div_add_mod', Geometry.storageSampleDim, Nat.mul_assoc]
  have hidx : (expandSampleIdsToRowIndices g sampleIds)[b * g.sampleRowCount + c / g.rowDim]? =
      some (id * g.sampleRowCount + c / g.rowDim) := by
    rw [expandSampleIdsToRowIndices, getElem?_flatMap_of_length
      (fun _ _ => by rw [List.length_map, List.length_range]) hq, hb, Option.bind_some,
      List.getElem?_map, List.getElem?_range hq, Option.map_some]
  rw [gatherSamples, cutSamples_at? g _ hlt hc, hcell b]
  exact (Rows.gather_at? array hidx (Nat.mod_lt c hrow)).trans (by rw [hcell id])

/-! ## Combined loads -/

/-- After the rows of `combined` have been written, in any order of the cells, over any prior
    contents, every list of sample ids reads back, at each place that asks for a sample of
    some dataset, the stored elements of that sample. -/
def ReadsBack (g : Geometry) (ops : ElementOps Raw E) (own : Dtype)
    (roots : List (PreparedDataset Raw)) (combined : Rows E g.rowDim) (infos : List Info) : Prop :=
  ∀ (array behind : Nat → E) (cells : List (Nat × Nat)),
    (∀ row i, (row, i) ∈ cells ↔ row < combined.rows ∧ i < g.rowDim) →
    ∀ (k : Nat) (d : PreparedDataset Raw), roots[k]? = some d →
    ∃ info, infos[k]? = some info ∧ ∀ j < d.numSamples,
      ∀ (sampleIds : List Nat) (b : Nat), sampleIds[b]? = some (info.sampleIdOffset + j) →
      ∀ c < g.sampleDim,
        (gatherSamples g sampleIds (writeFeatureKernel2 cells (onDevice combined behind)
          g.rowDim 0 array)).at? b c =
        (d.elements[j * g.sampleDim + c]?).map (storageElement ops own d.dtype)

theorem combined_load_reads_back (g : Geometry) (ops : ElementOps Raw E) (own : Dtype)
    (roots : List (PreparedDataset Raw)) (hne : roots ≠ [])
    (hroots : ∀ d ∈ roots, d.shape = g.sampleShape ∧
      d.elements.length = d.numSamples * d.sampleDim) :
    ∃ combined infos, combinedStorageArray g ops own roots = .ok (combined, infos) ∧
      ReadsBack g ops own roots combined infos := by
  have hload : ∀ d ∈ roots, ∃ a, loadPreparedStorageArray g ops own d = .ok a ∧
      a.rows = d.numSamples * g.sampleRowCount := by
    intro d hd
    obtain ⟨a, ha, hrows, -⟩ := storageArray_sample "CIDS" "images"
      (storageElement ops own d.dtype) ops.zero (hroots d hd).1 (hroots d hd).2
    exact ⟨a, ha, hrows⟩
  obtain ⟨arrays, infos, hloop, hlaid⟩ := combinedLoop_laid hload 0
  refine ⟨Rows.concat arrays, infos, ?_, ?_⟩
  · rw [combinedStorageArray, List.isEmpty_eq_false_iff.mpr hne]
    show (combinedLoop _ 0 roots >>= _) = _
    rw [hloop]
    rfl
  intro array behind cells hcells k d hd
  obtain ⟨front, a, back, info, harrays, hload, hinfo, -, hoff⟩ := hlaid.dataset hd
  rw [Nat.zero_mul, Nat.zero_add] at hoff
  have hd' : d ∈ roots := List.mem_of_getElem? hd
  obtain ⟨a', ha', hrows, hsample⟩ := storageArray_sample "CIDS" "images"
    (storageElement ops own d.dtype) ops.zero (hroots d hd').1 (hroots d hd').2
  have haa : a = a' := Except.ok.inj (hload.symm.trans ha')
  subst haa
  refine ⟨info, hinfo, fun j hj sampleIds b hb c hc => ?_⟩
  have hcS : c < g.storageSampleDim := Nat.lt_of_lt_of_le hc g.sampleDim_le_storageSampleDim
  have hn : j * g.storageSampleDim + c < a.data.length := by
    rw [a.size, hrows, Nat.mul_assoc, ← Geometry.storageSampleDim]
    exact Rows.cell_lt hj hcS
  -- the flat position asked for, in the combined array and in the dataset's own
  have hpos : (info.sampleIdOffset + j) * g.storageSampleDim + c =
      Rows.totalRows front * g.rowDim + (j * g.storageSampleDim + c) := by
    rw [← hoff, Nat.add_mul, Nat.add_assoc, Geometry.storageSampleDim, Nat.mul_assoc]
  have hcombined : (Rows.concat arrays).data[Rows.totalRows front * g.rowDim +
      (j * g.storageSampleDim + c)]? = a.data[j * g.storageSampleDim + c]? :=
    Rows.concat_getElem? harrays hn
  obtain ⟨x, hx⟩ : ∃ x, a.data[j * g.storageSampleDim + c]? = some x :=
    ⟨_, List.getElem?_eq_getElem hn⟩
  have hlt : Rows.totalRows front * g.rowDim + (j * g.storageSampleDim + c) <
      (Rows.concat arrays).rows * g.rowDim := by
    rw [← (Rows.concat arrays).size]
    exact (List.getElem?_eq_some_iff.mp (hcombined.trans hx)).1
  rw [gatherSamples_at? g sampleIds _ hb hc, writeFeatureKernel2_apply hcells, hpos, if_pos hlt,
    Nat.add_zero, onDevice, hcombined, hx, Option.getD_some, ← hx, hsample j hj c hc]

/-! ### Two datasets of samples that fill a row and a half -/

/-- Rows of two elements, samples of three. -/
def smallGeometry : Geometry where
  pageSize := 8
  storageItemsize := 4
  sampleShape := [3]
  rowDim_pos := by decide

def natOps : ElementOps Nat Nat where
  same := id
  astypeUint8 n := n % 256
  astypeFloat32 := id
  astypeFloat32Over255 n := n / 255
  zero := 0

def twoRoots : List (PreparedDataset Nat) :=
  [⟨[3], .float32, 3, 1, [1, 2, 3], rfl⟩, ⟨[3], .float32, 3, 2, [4, 5, 6, 7, 8, 9], rfl⟩]

theorem twoRoots_reads_back : ∃ combined infos,
    combinedStorageArray smallGeometry natOps .float32 twoRoots = .ok (combined, infos) ∧
      ReadsBack smallGeometry natOps .float32 twoRoots combined infos :=
  combined_load_reads_back smallGeometry natOps .float32 twoRoots (by decide) (by decide)

end GidsStack.Dataset
