/-
  GidsStack.Feature.CpuBuffer

  Reads that take the rows of pinned nodes from a buffer in host memory.

  `set_cpu_buffer` marks the page of each pinned id with its place in the buffer and copies
  that page, so places are one page apart; the read kernel looks a row's mark up under the
  row's number and takes places to be `cache_dim` elements apart, in 32 bits.  The two agree
  where a row fills a page; `cpuTransparent_iff` says when the output does.
-/

import Mathlib
import GidsStack.Feature.Read

namespace GidsStack.Feature

open GidsStack.Kernel

variable {E : Type}

/-! ## Calls -/

/-- A call of `read_feature` on a store with a buffer for `bufferLen` rows of `bufferDim`
    elements, for which `num` ids at `idxPtr` have been pinned.  `init_controllers` gives the
    range the pages that its elements fill. -/
structure CpuRead extends ReadCall where
  pageCount : Nat
  bufferDim : Nat
  bufferLen : Nat
  idxPtr : Nat → Nat
  num : Nat
  pageCount_le : pageCount * nElemsPerPage ≤ count
  num_lt : num < 2147483648
  idxPtr_lt : ∀ k < num, idxPtr k < pageCount

namespace CpuRead

/-- `row_index`. -/
def rowIndex (r : CpuRead) (w : Nat) : Nat :=
  ((r.index w + r.keyOff) % 18446744073709551616).toNat

/-- The elements that `cudaHostAlloc` has made room for. -/
def capacity (r : CpuRead) : Nat := r.bufferDim * r.bufferLen

end CpuRead

/-! ## The kernels -/

/-- What `set_cpu_buffer` sets up. -/
structure CpuBuffer (E : Type) where
  cpuFeatureOffset : Nat → Nat
  deviceCpuBuffer : Nat → E
  seqFlag : Bool

/-- `set_cpu_buffer_kernel`, whose threads store in some order; no page had a mark. -/
def setCpuBufferKernel (r : CpuRead) (order : List Nat) : Nat → Nat :=
  scatter (fun _ => 0) r.idxPtr (fun idx => idx <<< 1 ||| 1) order

/-- `set_cpu_buffer_data_kernel`, where `dim` is the number of elements of a page. -/
def setCpuBufferDataKernel (r : CpuRead) (array cpuBuffer : Nat → E) : Option (Nat → E) :=
  let cells := (List.range r.num).flatMap fun bid =>
    (List.range r.nElemsPerPage).map fun i => (bid, i)
  if ∀ c ∈ cells, c.1 * r.nElemsPerPage + c.2 < r.capacity then
    some (scatter cpuBuffer (fun c => c.1 * r.nElemsPerPage + c.2)
      (fun c => array (r.idxPtr c.1 * r.nElemsPerPage + c.2)) cells)
  else none

/-- `set_cpu_buffer`. -/
def setCpuBuffer (r : CpuRead) (order : List Nat) (array cpuBuffer : Nat → E) :
    Option (CpuBuffer E) :=
  (setCpuBufferDataKernel r array cpuBuffer).map fun deviceCpuBuffer =>
    { cpuFeatureOffset := setCpuBufferKernel r order, deviceCpuBuffer, seqFlag := false }

/-- Where the kernel takes the row of a warp from the buffer; `none` is a row it takes from the
    SSDs.  `(cpu_off >> 1) * cache_dim` is a `uint32_t`. -/
def CpuBuffer.rowStart (b : CpuBuffer E) (r : CpuRead) (w : Nat) : Option Nat :=
  if b.seqFlag then
    if r.rowIndex w < r.bufferLen then
      some (((r.rowIndex w : Int) * r.cacheDim) % 18446744073709551616).toNat
    else none
  else
    let cpuOff := b.cpuFeatureOffset (r.rowIndex w)
    if cpuOff &&& 1 = 1 then some ((((cpuOff >>> 1 : Nat) : Int) * r.cacheDim) % 4294967296).toNat
    else none

/-- The element that the kernel reads stays inside the buffer, or inside the range. -/
def CpuBuffer.InBounds (b : CpuBuffer E) (r : CpuRead) (c : Nat × Nat) : Prop :=
  match b.rowStart r c.1 with
  | some start => start + c.2 < r.capacity
  | none => r.elem r.keyOff c.1 c.2 < r.count

instance (b : CpuBuffer E) (r : CpuRead) (c : Nat × Nat) : Decidable (b.InBounds r c) :=
  match h : b.rowStart r c.1 with
  | some start => decidable_of_iff (start + c.2 < r.capacity) (by rw [CpuBuffer.InBounds, h])
  | none => decidable_of_iff (r.elem r.keyOff c.1 c.2 < r.count) (by rw [CpuBuffer.InBounds, h])

/-- `read_feature_kernel_with_cpu_backing_memory`; every row looks its mark up first. -/
def readFeatureKernelWithCpuBackingMemory (r : CpuRead) (b : CpuBuffer E) (array out : Nat → E) :
    Option (Nat → E) :=
  let cells := r.warps.flatMap fun w => (List.range r.launch.dimU).map fun tid => (w, tid)
  if (∀ w ∈ r.warps, 0 ≤ int32 w ∧ r.rowIndex w < r.pageCount) ∧ ∀ c ∈ cells, b.InBounds r c then
    some (scatter out (fun c => c.1 * r.launch.dimU + c.2)
      (fun c => match b.rowStart r c.1 with
        | some start => b.deviceCpuBuffer (start + c.2)
        | none => array (r.elem r.keyOff c.1 c.2)) cells)
  else none

/-! ## Transparency -/

/-- Wherever the plain kernel is defined, the kernel with the buffer writes what it writes: for
    all data, whatever was in the buffer before and in whatever order the marks were stored. -/
def CpuTransparent (r : CpuRead) : Prop :=
  ∀ (E : Type) (array stale out : Nat → E) (order : List Nat), order.Perm (List.range r.num) →
    ∃ b, setCpuBuffer r order array stale = some b ∧
      ∀ result, readFeatureKernel r.toReadCall array out = some result →
        readFeatureKernelWithCpuBackingMemory r b array out = some result

/-- All rows that the index list names are elements of the range. -/
def RowsInRange (r : ReadCall) : Prop :=
  ∀ w ∈ r.warps, ∀ tid < r.launch.dimU, 0 ≤ int32 w ∧ r.elem r.keyOff w tid < r.count

/-- Element `tid` of the row that the kernel finds at place `slot` has been copied there from
    element `tid` of the row it reads. -/
def SlotHolds (r : CpuRead) (slot w tid : Nat) : Prop :=
  let j := (((slot : Int) * r.cacheDim) % 4294967296).toNat + tid
  j / r.nElemsPerPage < r.num ∧
    r.idxPtr (j / r.nElemsPerPage) * r.nElemsPerPage + j % r.nElemsPerPage =
      r.elem r.keyOff w tid

/-- The buffer has room for a page for each pinned id; every row read has a page of its number;
    and every place of a row's number in the id list holds the row. -/
structure CpuFits (r : CpuRead) : Prop where
  room : r.num * r.nElemsPerPage ≤ r.capacity
  rows : RowsInRange r.toReadCall → ∀ w ∈ r.warps, 0 ≤ int32 w ∧ r.rowIndex w < r.pageCount
  slots : RowsInRange r.toReadCall → ∀ w ∈ r.warps, ∀ slot < r.num,
    r.idxPtr slot = r.rowIndex w → ∀ tid < r.launch.dimU, SlotHolds r slot w tid

/-! ## What `set_cpu_buffer` leaves -/

theorem mark_bits (slot : Nat) :
    (slot <<< 1 ||| 1) &&& 1 = 1 ∧ (slot <<< 1 ||| 1) >>> 1 = slot := by
  have hmark : slot <<< 1 ||| 1 = 2 * slot + 1 := by
    rw [Nat.shiftLeft_eq, Nat.mul_comm, ← Nat.two_pow_add_eq_or_of_lt (by decide)]
  rw [hmark, Nat.and_one_is_mod, Nat.shiftRight_eq_div_pow]
  omega

/-- A page has no mark, or that of one of the places of its number. -/
theorem setCpuBufferKernel_cases (r : CpuRead) {order : List Nat}
    (horder : order.Perm (List.range r.num)) (page : Nat) :
    ((∀ slot < r.num, r.idxPtr slot ≠ page) ∧ setCpuBufferKernel r order page = 0) ∨
      ∃ slot < r.num, r.idxPtr slot = page ∧
        setCpuBufferKernel r order page = slot <<< 1 ||| 1 := by
  rcases scatter_cases (fun _ => 0) r.idxPtr (fun idx => idx <<< 1 ||| 1) order page with
    ⟨hnone, heq⟩ | ⟨slot, hslot, hpage, heq⟩
  · refine .inl ⟨fun slot hslot => hnone slot ?_, heq⟩
    exact horder.mem_iff.mpr (List.mem_range.mpr hslot)
  · exact .inr ⟨slot, List.mem_range.mp (horder.mem_iff.mp hslot), hpage, heq⟩

theorem mem_cells {l : List Nat} {m : Nat} {c : Nat × Nat} :
    (c ∈ l.flatMap fun a => (List.range m).map fun b => (a, b)) ↔ c.1 ∈ l ∧ c.2 < m := by
  simp only [List.mem_flatMap, List.mem_map, List.mem_range]
  constructor
  · rintro ⟨a, ha, b, hb, rfl⟩
    exact ⟨ha, hb⟩
  · rintro ⟨h1, h2⟩
    exact ⟨c.1, h1, c.2, h2, rfl⟩

/-- With room for all pages, element `j` of the buffer is the element of its page. -/
theorem setCpuBufferDataKernel_eq (r : CpuRead) (array stale : Nat → E)
    (hroom : r.num * r.nElemsPerPage ≤ r.capacity) :
    ∃ data, setCpuBufferDataKernel r array stale = some data ∧
      (∀ j, j / r.nElemsPerPage < r.num →
        data j = array (r.idxPtr (j / r.nElemsPerPage) * r.nElemsPerPage + j % r.nElemsPerPage)) ∧
      ∀ j, r.num ≤ j / r.nElemsPerPage → data j = stale j := by
  have hpos := r.nElemsPerPage_pos
  have hkey : ∀ bid i j, i < r.nElemsPerPage → bid * r.nElemsPerPage + i = j →
      j / r.nElemsPerPage = bid ∧ j % r.nElemsPerPage = i := by
    rintro bid i j hi rfl
    rw [Nat.mul_comm]
    exact ⟨by rw [Nat.mul_add_div hpos, Nat.div_eq_of_lt hi, Nat.add_zero],
      by rw [Nat.mul_add_mod, Nat.mod_eq_of_lt hi]⟩
  refine ⟨_, if_pos ?_, ?_, ?_⟩
  · intro c hc
    obtain ⟨h1, h2⟩ := mem_cells.mp hc
    replace h1 := List.mem_range.mp h1
    have hle : (c.1 + 1) * r.nElemsPerPage ≤ r.num * r.nElemsPerPage :=
      Nat.mul_le_mul_right _ h1
    rw [Nat.succ_mul] at hle
    omega
  · intro j hj
    apply scatter_eq
    · intro c hc hcj
      obtain ⟨-, h2⟩ := mem_cells.mp hc
      obtain ⟨hdiv, hmod⟩ := hkey c.1 c.2 j h2 hcj
      rw [hdiv, hmod]
    · exact .inr ⟨(j / r.nElemsPerPage, j % r.nElemsPerPage),
        mem_cells.mpr ⟨List.mem_range.mpr hj, Nat.mod_lt _ hpos⟩, Nat.div_add_mod' _ _⟩
  · intro j hj
    apply scatter_other
    intro c hc hcj
    obtain ⟨h1, h2⟩ := mem_cells.mp hc
    replace h1 := List.mem_range.mp h1
    have hdiv := (hkey c.1 c.2 j h2 hcj).1
    omega

/-- Without, the copy leaves the buffer. -/
theorem room_of_some {r : CpuRead} {array stale data : Nat → E}
    (h : setCpuBufferDataKernel r array stale = some data) :
    r.num * r.nElemsPerPage ≤ r.capacity := by
  have hpos := r.nElemsPerPage_pos
  rw [setCpuBufferDataKernel] at h
  split at h
  · rename_i hall
    rcases Nat.eq_zero_or_pos r.num with hzero | hnum
    · rw [hzero, Nat.zero_mul]
      exact Nat.zero_le _
    · have hlast : (r.num - 1) * r.nElemsPerPage + (r.nElemsPerPage - 1) < r.capacity :=
        hall (r.num - 1, r.nElemsPerPage - 1) (mem_cells.mpr
          ⟨List.mem_range.mpr (Nat.sub_one_lt_of_lt hnum), Nat.sub_one_lt_of_lt hpos⟩)
      have hmul : (r.num - 1) * r.nElemsPerPage + r.nElemsPerPage = r.num * r.nElemsPerPage := by
        rw [← Nat.succ_mul, Nat.succ_eq_add_one, Nat.sub_add_cancel hnum]
      omega
  · cases h

/-! ## The output -/

/-- The plain kernel on rows of the range. -/
theorem readFeatureKernel_some_iff {r : ReadCall} {array out result : Nat → E} :
    readFeatureKernel r array out = some result ↔ RowsInRange r ∧
      result = scatter out (fun c => c.1 * r.launch.dimU + c.2)
        (fun c => array (r.elem r.keyOff c.1 c.2))
        (r.warps.flatMap fun w => (List.range r.launch.dimU).map fun tid => (w, tid)) := by
  have hrows : (∀ c ∈ r.warps.flatMap fun w => (List.range r.launch.dimU).map fun tid => (w, tid),
      0 ≤ int32 (c : Nat × Nat).1 ∧ r.elem r.keyOff c.1 c.2 < r.count) ↔ RowsInRange r := by
    constructor
    · exact fun h w hw tid htid => h (w, tid) (mem_cells.mpr ⟨hw, htid⟩)
    · intro h c hc
      obtain ⟨h1, h2⟩ := mem_cells.mp hc
      exact h c.1 h1 c.2 h2
  rw [readFeatureKernel, Option.ite_none_right_eq_some, hrows, Option.some_inj, eq_comm (a := result)]

/-- A row without a place is read from the SSDs, one with a place from one of its places. -/
theorem rowStart_cases (r : CpuRead) {order : List Nat} (horder : order.Perm (List.range r.num))
    (data : Nat → E) (w : Nat) :
    let b : CpuBuffer E := ⟨setCpuBufferKernel r order, data, false⟩
    ((∀ slot < r.num, r.idxPtr slot ≠ r.rowIndex w) ∧ b.rowStart r w = none) ∨
      ∃ slot < r.num, r.idxPtr slot = r.rowIndex w ∧
        b.rowStart r w = some (((slot : Int) * r.cacheDim) % 4294967296).toNat := by
  intro b
  rw [CpuBuffer.rowStart]
  dsimp only [b]
  rw [if_neg Bool.false_ne_true]
  rcases setCpuBufferKernel_cases r horder (r.rowIndex w) with ⟨hnone, heq⟩ | ⟨slot, hslot, hrow, heq⟩
  · refine .inl ⟨hnone, ?_⟩
    rw [heq, if_neg (by decide)]
  · refine .inr ⟨slot, hslot, hrow, ?_⟩
    obtain ⟨hbit, hshift⟩ := mark_bits slot
    rw [heq, if_pos hbit, hshift]

/-- Each element of the output is written once. -/
theorem scatter_cell {l : List Nat} {m : Nat} (out : Nat → E) (val : Nat × Nat → E) {w tid : Nat}
    (hw : w ∈ l) (htid : tid < m) :
    scatter out (fun c => c.1 * m + c.2) val
      (l.flatMap fun w => (List.range m).map fun tid => (w, tid)) (w * m + tid) = val (w, tid) := by
  have hpos : 0 < m := Nat.lt_of_le_of_lt (Nat.zero_le _) htid
  apply scatter_eq
  · rintro ⟨w', tid'⟩ hc hkey
    have htid' : tid' < m := (mem_cells.mp hc).2
    replace hkey : w' * m + tid' = w * m + tid := hkey
    have hrow : w' = w := by
      have hdiv := congrArg (· / m) hkey
      simp only [Nat.mul_comm _ m, Nat.mul_add_div hpos, Nat.div_eq_of_lt htid',
        Nat.div_eq_of_lt htid, Nat.add_zero] at hdiv
      exact hdiv
    have hcol : tid' = tid := by
      rw [hrow] at hkey
      exact Nat.add_left_cancel hkey
    rw [hrow, hcol]
  · exact .inr ⟨(w, tid), mem_cells.mpr ⟨hw, htid⟩, rfl⟩

/-- Where the places hold the rows, the buffer does not show. -/
theorem CpuFits.transparent {r : CpuRead} (h : CpuFits r) : CpuTransparent r := by
  intro E array stale out order horder
  obtain ⟨data, hdata, hcopied, -⟩ := setCpuBufferDataKernel_eq r array stale h.room
  refine ⟨⟨setCpuBufferKernel r order, data, false⟩, ?_, fun result hresult => ?_⟩
  · rw [setCpuBuffer, hdata]
    rfl
  obtain ⟨hrange, rfl⟩ := readFeatureKernel_some_iff.mp hresult
  rw [readFeatureKernelWithCpuBackingMemory]
  dsimp only
  rw [if_pos]
  · congr 1
    apply scatter_congr
    intro c hc
    obtain ⟨hw, htid⟩ := mem_cells.mp hc
    rcases rowStart_cases r horder data c.1 with ⟨-, hstart⟩ | ⟨slot, hslot, hrow, hstart⟩
    · rw [hstart]
    · obtain ⟨hj, helem⟩ := h.slots hrange c.1 hw slot hslot hrow c.2 htid
      rw [hstart]
      dsimp only
      rw [hcopied _ hj, helem]
  · refine ⟨h.rows hrange, fun c hc => ?_⟩
    obtain ⟨hw, htid⟩ := mem_cells.mp hc
    rcases rowStart_cases r horder data c.1 with ⟨-, hstart⟩ | ⟨slot, hslot, hrow, hstart⟩
    · rw [CpuBuffer.InBounds, hstart]
      exact (hrange c.1 hw c.2 htid).2
    · obtain ⟨hj, -⟩ := h.slots hrange c.1 hw slot hslot hrow c.2 htid
      rw [CpuBuffer.InBounds, hstart]
      -- the page of the element is one of those copied
      have hlt := (Nat.div_lt_iff_lt_mul r.nElemsPerPage_pos).mp hj
      exact Nat.lt_of_lt_of_le hlt h.room

/-- Conversely the output shows where a place does not hold its row: the array's elements are
    taken to be their own numbers, and the buffer to have held none of them. -/
theorem CpuTransparent.fits {r : CpuRead} (h : CpuTransparent r) : CpuFits r := by
  have hroom : r.num * r.nElemsPerPage ≤ r.capacity := by
    obtain ⟨b, hb, -⟩ := h Nat id id id (List.range r.num) (List.Perm.refl _)
    rw [setCpuBuffer, Option.map_eq_some_iff] at hb
    obtain ⟨data, hdata, -⟩ := hb
    exact room_of_some hdata
  -- the run for an order of the marks, on an array whose rows are in range
  have hrun : RowsInRange r.toReadCall → ∀ order, order.Perm (List.range r.num) →
      ∃ data, (∀ j, j / r.nElemsPerPage < r.num → data j =
          r.idxPtr (j / r.nElemsPerPage) * r.nElemsPerPage + j % r.nElemsPerPage) ∧
        (∀ j, r.num ≤ j / r.nElemsPerPage → data j = r.count) ∧
        readFeatureKernelWithCpuBackingMemory r ⟨setCpuBufferKernel r order, data, false⟩ id id =
          some (scatter id (fun c => c.1 * r.launch.dimU + c.2)
            (fun c => r.elem r.keyOff c.1 c.2)
            (r.warps.flatMap fun w => (List.range r.launch.dimU).map fun tid => (w, tid))) := by
    intro hrange order horder
    obtain ⟨data, hdata, hcopied, hstale⟩ :=
      setCpuBufferDataKernel_eq r id (fun _ => r.count) hroom
    obtain ⟨b, hb, hout⟩ := h Nat id (fun _ => r.count) id order horder
    rw [setCpuBuffer, hdata] at hb
    cases hb
    exact ⟨data, hcopied, hstale, hout _ (readFeatureKernel_some_iff.mpr ⟨hrange, rfl⟩)⟩
  refine ⟨hroom, fun hrange => ?_, fun hrange w hw slot hslot hrow tid htid => ?_⟩
  · obtain ⟨data, -, -, hout⟩ := hrun hrange _ (List.Perm.refl _)
    rw [readFeatureKernelWithCpuBackingMemory] at hout
    dsimp only at hout
    split at hout
    · rename_i hguard
      exact hguard.1
    · cases hout
  · -- the mark of this place is stored last
    have hmem : slot ∈ List.range r.num := List.mem_range.mpr hslot
    have horder : ((List.range r.num).erase slot ++ [slot]).Perm (List.range r.num) :=
      (List.perm_append_singleton slot _).trans (List.perm_cons_erase hmem).symm
    obtain ⟨data, hcopied, hstale, hout⟩ := hrun hrange _ horder
    have hmark : setCpuBufferKernel r ((List.range r.num).erase slot ++ [slot]) (r.rowIndex w) =
        slot <<< 1 ||| 1 := by
      rw [← hrow]
      exact scatter_concat _ _ _ _ _
    have hstart : (CpuBuffer.mk (setCpuBufferKernel r ((List.range r.num).erase slot ++ [slot]))
        data false).rowStart r w = some (((slot : Int) * r.cacheDim) % 4294967296).toNat := by
      obtain ⟨hbit, hshift⟩ := mark_bits slot
      rw [CpuBuffer.rowStart]
      dsimp only
      rw [if_neg Bool.false_ne_true, hmark, if_pos hbit, hshift]
    rw [readFeatureKernelWithCpuBackingMemory] at hout
    dsimp only at hout
    split at hout
    · have hcell := congrFun (Option.some.inj hout) (w * r.launch.dimU + tid)
      rw [scatter_cell _ _ hw htid, scatter_cell _ _ hw htid, hstart] at hcell
      dsimp only at hcell
      rw [SlotHolds]
      by_cases hj : ((((slot : Int) * r.cacheDim) % 4294967296).toNat + tid) / r.nElemsPerPage <
          r.num
      · exact ⟨hj, by rw [← hcopied _ hj, hcell]⟩
      · rw [hstale _ (Nat.le_of_not_lt hj)] at hcell
        have hlt := (hrange w hw tid htid).2
        omega
    · cases hout

/-- The kernel with the buffer writes what the plain one writes, for all data, exactly if the
    buffer has room for the pinned pages, every row has a page of its number, and every place
    with a row's number holds the row. -/
theorem cpuTransparent_iff (r : CpuRead) : CpuTransparent r ↔ CpuFits r :=
  ⟨CpuTransparent.fits, CpuFits.transparent⟩

/-! ### Rows that fill a page, and rows that do not -/

/-- An element of a row that has a page of its number, where rows are one page apart. -/
theorem elem_of_fullPages {r : CpuRead} (hdim : r.cacheDim = r.nElemsPerPage) {w tid : Nat}
    (hrow : r.rowIndex w < r.pageCount) (htid : tid < r.nElemsPerPage) :
    r.elem r.keyOff w tid = r.rowIndex w * r.nElemsPerPage + tid := by
  have hnext : (r.rowIndex w + 1) * r.nElemsPerPage ≤ r.pageCount * r.nElemsPerPage :=
    Nat.mul_le_mul_right _ hrow
  rw [Nat.succ_mul] at hnext
  have hsmall : r.rowIndex w * r.nElemsPerPage + tid < 18446744073709551616 := by
    have hcount := r.pageCount_le
    have hlt := r.count_le
    omega
  have hmod : ((r.index w + r.keyOff) % 18446744073709551616 : Int) = r.rowIndex w := by
    rw [CpuRead.rowIndex]
    omega
  have hsplit : (r.index w + r.keyOff) * r.cacheDim + tid =
      ((r.rowIndex w * r.nElemsPerPage + tid : Nat) : Int) +
        18446744073709551616 * ((r.index w + r.keyOff) / 18446744073709551616 * r.cacheDim) := by
    have hdiv := Int.emod_add_mul_ediv (r.index w + r.keyOff) 18446744073709551616
    rw [hmod] at hdiv
    calc (r.index w + r.keyOff) * r.cacheDim + tid
        = (r.rowIndex w + 18446744073709551616 *
            ((r.index w + r.keyOff) / 18446744073709551616)) * r.cacheDim + tid := by rw [hdiv]
      _ = _ := by
          rw [Int.natCast_add, Int.natCast_mul, ← hdim]
          ring
  rw [ReadCall.elem, hsplit, Int.add_mul_emod_self_left]
  omega

/-- Where rows are one page apart, reads of pinned and other rows are what they are without the
    buffer, as long as it has fewer than `2 ^ 32` elements. -/
theorem transparent_of_fullPages {r : CpuRead} (hdim : r.cacheDim = r.nElemsPerPage)
    (hle : r.launch.dimU ≤ r.nElemsPerPage) (hroom : r.num * r.nElemsPerPage ≤ r.capacity)
    (hsmall : r.num * r.nElemsPerPage ≤ 4294967296)
    (hrows : ∀ w ∈ r.warps, 0 ≤ int32 w ∧ r.rowIndex w < r.pageCount) : CpuTransparent r := by
  refine CpuFits.transparent ⟨hroom, fun _ => hrows, fun hrange w hw slot hslot hrow tid htid => ?_⟩
  have hpos := r.nElemsPerPage_pos
  have hlt : tid < r.nElemsPerPage := Nat.lt_of_lt_of_le htid hle
  have hnext : (slot + 1) * r.nElemsPerPage ≤ r.num * r.nElemsPerPage :=
    Nat.mul_le_mul_right _ hslot
  rw [Nat.succ_mul] at hnext
  have hstart : (((slot : Int) * r.cacheDim) % 4294967296).toNat = slot * r.nElemsPerPage := by
    rw [hdim, ← Int.natCast_mul]
    omega
  rw [SlotHolds, hstart, Nat.mul_comm slot, Nat.mul_add_div hpos, Nat.mul_add_mod,
    Nat.div_eq_of_lt hlt, Nat.mod_eq_of_lt hlt, Nat.add_zero]
  exact ⟨hslot, by rw [elem_of_fullPages hdim (hrows w hw).2 hlt, hrow]⟩

/-- Rows of 512 elements, two in a page; row 3 is pinned and read. -/
def halfPageRow : CpuRead where
  launch :=
    { bSize := 128
      numIndex := 1
      dim := 1
      bSize_ge := bSize128_ge
      bSize_le := bSize128_le
      dim_ge := by decide
      dim_lt := by decide
      grid_lt := oneRow_grid }
  index _ := 3
  cacheDim := 512
  keyOff := 0
  nElemsPerPage := 1024
  count := 8192
  bSize_eq := rfl
  nElemsPerPage_pos := by decide
  count_le := by decide
  pageCount := 8
  bufferDim := 1024
  bufferLen := 1
  idxPtr _ := 3
  num := 1
  pageCount_le := by decide
  num_lt := by decide
  idxPtr_lt _ _ := by decide

/-- The buffer holds page 3, whose elements are those of rows 6 and 7. -/
theorem halfPageRow_not_transparent :
    ¬ ∀ r : CpuRead, r.launch.dim ≤ r.cacheDim → CpuTransparent r := by
  intro hall
  have hfits := (hall halfPageRow (by decide)).fits
  have hrange : RowsInRange halfPageRow.toReadCall := by
    intro w hw tid htid
    revert w tid
    decide
  have hslot := hfits.slots hrange 0 (by decide) 0 (by decide) rfl 0 (by decide)
  exact absurd hslot.2 (by decide)

end GidsStack.Feature
