/-
  GidsStack.Addressing.PrpTables

  The data pointers of the cache's slots (page_cache.h, the constructor of `page_cache_t`): a
  slot inside one controller page, on two of them, or on a list of them.

  The constructor computes the size of the lists in 32 bits. The tables name the controller
  pages of every slot exactly as long as the byte sizes of the cache and, where lists are
  used, of the lists fit their variables (`slots_covered_iff`).
-/

import GidsStack.Addressing.GlobalAddress
import GidsStack.Lib.Kernel
import GidsStack.Lib.RowMajor

namespace GidsStack.Addressing

/-! ## Sizes -/

/-- The arguments of the constructor and the page and block size of the controller: the page
    size is the host's, and within the controller's four-bit MPS. -/
structure CacheGeometry where
  ctrlPageLog : Nat
  psLog : Nat
  np : Nat
  lbaDataSize : Nat
  ctrlPageLog_ge : 12 ≤ ctrlPageLog
  ctrlPageLog_le : ctrlPageLog ≤ 27
  psLog_lt : psLog < 64
  np_lt : np < 18446744073709551616

/-- `NVM_PAGE_ALIGN(size, 1UL << 16)`. -/
def pageAlign (size : Nat) : Nat := wrap64 (size + 65535) / 65536 * 65536

namespace CacheGeometry

variable (g : CacheGeometry)

def ctrlPageSize : Nat := 2 ^ g.ctrlPageLog

def ps : Nat := 2 ^ g.psLog

def cacheSize : Nat := wrap64 (g.ps * g.np)

/-- `uint32_t uints_per_page`. -/
def uintsPerPage : Nat := g.ctrlPageSize / 8 % 4294967296

/-- `uint32_t prp_list_size`. -/
def prpListSize : Nat := wrap64 (g.ctrlPageSize * g.np) % 4294967296

/-- `n_ioaddrs` of a mapping of `size` bytes; `none` when the memory cannot be mapped. -/
def nIoaddrs (size : Nat) : Option Nat :=
  if pageAlign size = 0 ∨ pageAlign size % g.ctrlPageSize ≠ 0 then none
  else some (pageAlign size / g.ctrlPageSize)

/-- The constructor throws neither by its own check nor by `createDma`. -/
def accepts : Bool :=
  decide (g.ps ≤ g.ctrlPageSize * g.uintsPerPage) && decide (g.np ≠ 0) &&
    decide (g.lbaDataSize ≤ g.ps) && (g.nIoaddrs g.cacheSize).isSome &&
    (decide (g.ps ≤ g.ctrlPageSize * 2) || (g.nIoaddrs g.prpListSize).isSome)

end CacheGeometry

/-! ## The tables -/

/-- `prps`, `prp1`, `prp2` and the memory of the lists, in words of 64 bits. -/
structure PrpTables where
  prps : Bool
  prp1 : Nat → Nat
  prp2 : Nat → Nat
  prpList : Nat → Nat

/-- The bus addresses of the controller pages of the cache and of the list memory. -/
structure BusAddresses where
  pages : Nat → Nat
  lists : Nat → Nat

namespace CacheGeometry

variable (g : CacheGeometry) (bus : BusAddresses)

/-- The host's table for slots inside controller pages. -/
def subPages (nIoaddrs : Nat) : List Nat :=
  (List.range nIoaddrs).flatMap fun i =>
    (List.range (g.ctrlPageSize / g.ps)).map fun j => bus.pages i + j * g.ps

/-- The host's copy of the lists: the pages of slot `i` from the second on, from word
    `i * uints_per_page` on. -/
def temp3 (howManyInOne : Nat) : Nat → Nat :=
  let cells := (List.range g.np).flatMap fun i =>
    (List.range (howManyInOne - 1)).map fun j => (i, j)
  Kernel.scatter (fun _ => 0) (fun c => c.1 * g.uintsPerPage + c.2)
    (fun c => bus.pages (c.1 * howManyInOne + c.2 + 1)) cells

/-- The tables as the constructor fills them; `none` when it leaves a table. -/
def prpTables : Option PrpTables := do
  let nPages ← g.nIoaddrs g.cacheSize
  if g.ps ≤ g.ctrlPageSize then
    let temp := g.subPages bus nPages
    if g.np ≤ temp.length then
      some ⟨false, fun i => temp.getD i 0, fun _ => 0, fun _ => 0⟩
    else none
  else if g.ps ≤ g.ctrlPageSize * 2 then
    if ∀ i < g.np, i * 2 + 1 < nPages then
      some ⟨true, fun i => bus.pages (i * 2), fun i => bus.pages (i * 2 + 1), fun _ => 0⟩
    else none
  else
    let nLists ← g.nIoaddrs g.prpListSize
    let howManyInOne := g.ps / g.ctrlPageSize % 4294967296
    if ∀ i < g.np, i * howManyInOne < nPages ∧ i < nLists ∧
        ∀ j < howManyInOne - 1, i * howManyInOne + j + 1 < nPages ∧
          i * g.uintsPerPage + j < g.prpListSize then
      some
        { prps := true
          prp1 := fun i => bus.pages (i * howManyInOne)
          prp2 := fun i => bus.lists i
          prpList := fun k =>
            -- `prp_list_size` bytes of `temp3` are copied
            if k < g.prpListSize / 8 then g.temp3 bus howManyInOne k else 0 }
    else none

/-- The controller pages that hold the bytes of slot `i`, or the part of a page that does. -/
def slotPages (i : Nat) : List Nat :=
  if g.ps ≤ g.ctrlPageSize then
    [bus.pages (i * g.ps / g.ctrlPageSize) + i * g.ps % g.ctrlPageSize]
  else (List.range (g.ps / g.ctrlPageSize)).map fun j => bus.pages (i * g.ps / g.ctrlPageSize + j)

/-- The pages that a controller finds for a command of `ps` bytes with the data pointers of slot
    `i`: `prp2` is not used, a page, or a list in page `i` of the list memory. -/
def namedPages (t : PrpTables) (i : Nat) : List Nat :=
  if g.ps ≤ g.ctrlPageSize then [t.prp1 i]
  else if g.ps ≤ g.ctrlPageSize * 2 then [t.prp1 i, t.prp2 i]
  else t.prp1 i :: (List.range (g.ps / g.ctrlPageSize - 1)).map fun j =>
    t.prpList (i * (g.ctrlPageSize / 8) + j)

/-- The constructor stays inside its tables, and the data pointers of every slot name exactly
    the slot's pages, in order. -/
def SlotsCovered : Prop :=
  ∀ bus : BusAddresses, ∃ t, g.prpTables bus = some t ∧
    (t.prps = true ↔ g.ctrlPageSize < g.ps) ∧
    ∀ i < g.np, g.namedPages t i = g.slotPages bus i ∧
      (g.ctrlPageSize * 2 < g.ps → t.prp2 i = bus.lists i)

end CacheGeometry

/-! ## Mapped memory -/

theorem pageAlign_ge {size : Nat} (h : size + 65535 < 18446744073709551616) :
    size ≤ pageAlign size := by
  rw [pageAlign, wrap64_of_lt h]
  omega

theorem pageAlign_le (size : Nat) : pageAlign size ≤ wrap64 (size + 65535) :=
  Nat.div_mul_le_self _ _

namespace CacheGeometry

variable {g : CacheGeometry}

theorem ps_pos (g : CacheGeometry) : 0 < g.ps := Nat.two_pow_pos _

theorem ctrlPageSize_pos (g : CacheGeometry) : 0 < g.ctrlPageSize := Nat.two_pow_pos _

theorem ctrlPageSize_le (g : CacheGeometry) : g.ctrlPageSize ≤ 134217728 :=
  Nat.pow_le_pow_right (show 0 < 2 by decide) g.ctrlPageLog_le

theorem uintsPerPage_eq (g : CacheGeometry) : g.uintsPerPage = g.ctrlPageSize / 8 := by
  have hle := g.ctrlPageSize_le
  exact Nat.mod_eq_of_lt (by omega)

theorem eight_dvd (g : CacheGeometry) : 8 ∣ g.ctrlPageSize :=
  Nat.pow_dvd_pow 2 (Nat.le_trans (show 3 ≤ 12 by decide) g.ctrlPageLog_ge)

/-- A mapping has the pages of its aligned size. -/
theorem nIoaddrs_some {size n : Nat} (h : g.nIoaddrs size = some n) :
    n * g.ctrlPageSize = pageAlign size := by
  rw [nIoaddrs] at h
  split at h
  · exact absurd h (by simp)
  · rename_i hok
    rw [← Option.some.inj h]
    exact Nat.div_mul_cancel (Nat.dvd_of_mod_eq_zero (by_contra fun hne => hok (.inr hne)))

theorem dvd_of_le (h : g.ps ≤ g.ctrlPageSize) : g.ps ∣ g.ctrlPageSize :=
  Nat.pow_dvd_pow 2 ((Nat.pow_le_pow_iff_right (by decide)).mp h)

theorem dvd_of_ge (h : g.ctrlPageSize ≤ g.ps) : g.ctrlPageSize ∣ g.ps :=
  Nat.pow_dvd_pow 2 ((Nat.pow_le_pow_iff_right (by decide)).mp h)

/-- Between one and two pages there is no power of two. -/
theorem ps_eq_of_two (h1 : g.ctrlPageSize < g.ps) (h2 : g.ps ≤ g.ctrlPageSize * 2) :
    g.ps = g.ctrlPageSize * 2 := by
  have hlog : g.ctrlPageLog < g.psLog := (Nat.pow_lt_pow_iff_right (by decide)).mp h1
  apply Nat.le_antisymm h2
  show 2 ^ g.ctrlPageLog * 2 ≤ 2 ^ g.psLog
  rw [← Nat.pow_succ]
  exact Nat.pow_le_pow_right (by decide) hlog

/-! ## The sizes fit -/

/-- A mapping of a size that fits has pages for all of it. -/
theorem nIoaddrs_ge {size n : Nat} (h : g.nIoaddrs (wrap64 size) = some n)
    (hfit : size + 65535 < 18446744073709551616) : size ≤ n * g.ctrlPageSize := by
  rw [nIoaddrs_some h, wrap64_of_lt (by omega)]
  exact pageAlign_ge hfit

/-- A mapping of a size that does not fit lacks pages. -/
theorem nIoaddrs_lt {size n : Nat} (h : g.nIoaddrs (wrap64 size) = some n)
    (hfit : 18446744073709551616 ≤ size + 65535) : n * g.ctrlPageSize < size := by
  rw [nIoaddrs_some h]
  have hle := pageAlign_le (wrap64 size)
  rw [wrap64, wrap64] at hle
  rw [wrap64]
  omega

theorem cacheSize_fits {n : Nat} (h : g.nIoaddrs g.cacheSize = some n) :
    g.ps * g.np ≤ n * g.ctrlPageSize ↔ g.ps * g.np + 65535 < 18446744073709551616 := by
  constructor
  · intro hle
    by_contra hcon
    have hlt := nIoaddrs_lt h (Nat.le_of_not_lt hcon)
    omega
  · exact nIoaddrs_ge h

/-- The lists get a page for every slot if and only if their size fits `uint32_t`. -/
theorem prpListSize_fits {n : Nat} (h : g.nIoaddrs g.prpListSize = some n)
    (hbig : g.ctrlPageSize * g.np < 18446744073709551616) :
    g.np ≤ n ↔ g.ctrlPageSize * g.np < 4294967296 := by
  have hpages := nIoaddrs_some h
  have hsize : g.prpListSize = g.ctrlPageSize * g.np % 4294967296 := by
    rw [prpListSize, wrap64_of_lt hbig]
  have hlt32 : g.prpListSize < 4294967296 := by
    rw [hsize]
    exact Nat.mod_lt _ (by decide)
  have hge := pageAlign_ge (show g.prpListSize + 65535 < 18446744073709551616 by omega)
  have hle := pageAlign_le g.prpListSize
  rw [wrap64_of_lt (show g.prpListSize + 65535 < 18446744073709551616 by omega)] at hle
  constructor
  · intro hn
    by_contra hcon
    have hmul : g.np * g.ctrlPageSize ≤ n * g.ctrlPageSize := Nat.mul_le_mul_right _ hn
    rw [Nat.mul_comm g.np] at hmul
    omega
  · intro hfit
    rw [Nat.mod_eq_of_lt hfit] at hsize
    apply Nat.le_of_mul_le_mul_right _ g.ctrlPageSize_pos
    rw [Nat.mul_comm g.np]
    omega

/-! ## Slots inside controller pages -/

section SubPages

variable {bus : BusAddresses} {n : Nat}

theorem subPages_length (g : CacheGeometry) (bus : BusAddresses) (n : Nat) :
    (g.subPages bus n).length = n * (g.ctrlPageSize / g.ps) := by
  rw [subPages, RowMajor.length_flatMap_of_length (fun i _ => by rw [List.length_map,
    List.length_range]), List.length_range]

theorem subPages_getD (h : g.ps ≤ g.ctrlPageSize) {i : Nat}
    (hi : i < n * (g.ctrlPageSize / g.ps)) :
    (g.subPages bus n).getD i 0 =
      bus.pages (i * g.ps / g.ctrlPageSize) + i * g.ps % g.ctrlPageSize := by
  obtain ⟨w, hw⟩ := dvd_of_le h
  have hq : g.ctrlPageSize / g.ps = w := by rw [hw, Nat.mul_div_cancel_left _ g.ps_pos]
  rw [hq] at hi
  have hwpos : 0 < w := Nat.pos_of_ne_zero fun h0 => by simp [h0] at hi
  have hdiv : i * g.ps / g.ctrlPageSize = i / w := by
    rw [hw, Nat.mul_comm, Nat.mul_div_mul_left _ _ g.ps_pos]
  have hmod : i * g.ps % g.ctrlPageSize = i % w * g.ps := by
    rw [hw, Nat.mul_comm g.ps w, Nat.mul_mod_mul_right]
  have hrow : i / w < n := (Nat.div_lt_iff_lt_mul hwpos).mpr hi
  have hget := RowMajor.getElem?_flatMap_of_length (l := List.range n)
    (f := fun i => (List.range w).map fun j => bus.pages i + j * g.ps) (w := w)
    (fun i _ => by rw [List.length_map, List.length_range]) (i := i / w) (j := i % w)
    (Nat.mod_lt i hwpos)
  rw [Nat.div_add_mod', List.getElem?_range hrow, Option.bind_some, List.getElem?_map,
    List.getElem?_range (Nat.mod_lt i hwpos)] at hget
  rw [subPages, hq, List.getD_eq_getElem?_getD, hget, hdiv, hmod]
  rfl

/-- There is an entry for every slot if and only if the cache has pages for all slots. -/
theorem subPages_fits (h : g.ps ≤ g.ctrlPageSize) :
    g.np ≤ n * (g.ctrlPageSize / g.ps) ↔ g.ps * g.np ≤ n * g.ctrlPageSize := by
  obtain ⟨w, hw⟩ := dvd_of_le h
  have hq : g.ctrlPageSize / g.ps = w := by rw [hw, Nat.mul_div_cancel_left _ g.ps_pos]
  have hmul : n * g.ctrlPageSize = g.ps * (n * w) := by
    rw [hw, Nat.mul_left_comm]
  rw [hq, hmul]
  exact (Nat.mul_le_mul_left_iff g.ps_pos).symm

end SubPages

/-! ## Lists -/

section Lists

/-- The pages of a slot, in 32 bits. -/
theorem howManyInOne_eq (h : g.ps ≤ g.ctrlPageSize * g.uintsPerPage) :
    g.ps / g.ctrlPageSize % 4294967296 = g.ps / g.ctrlPageSize ∧
      g.ps / g.ctrlPageSize ≤ g.uintsPerPage := by
  have hle : g.ps / g.ctrlPageSize ≤ g.uintsPerPage :=
    Nat.div_le_of_le_mul h
  have hlt : g.uintsPerPage < 4294967296 := Nat.mod_lt _ (by decide)
  exact ⟨Nat.mod_eq_of_lt (by omega), hle⟩

/-- No two entries of the lists share a word. -/
theorem temp3_eq (bus : BusAddresses) {howMany i j : Nat} (hw : howMany ≤ g.uintsPerPage)
    (hi : i < g.np) (hj : j < howMany - 1) :
    g.temp3 bus howMany (i * g.uintsPerPage + j) = bus.pages (i * howMany + j + 1) := by
  rw [temp3]
  apply Kernel.scatter_eq
  · rintro ⟨i', j'⟩ hmem hkey
    obtain ⟨a, -, ha⟩ := List.mem_flatMap.mp hmem
    obtain ⟨b, hb, hab⟩ := List.mem_map.mp ha
    obtain ⟨rfl, rfl⟩ := Prod.mk.inj hab
    have hb' : b < howMany - 1 := List.mem_range.mp hb
    have hpos : 0 < g.uintsPerPage := by omega
    have hrow : a = i := by
      have hdiv := congrArg (· / g.uintsPerPage) hkey
      simpa [Nat.mul_comm _ g.uintsPerPage, Nat.mul_add_div hpos,
        Nat.div_eq_of_lt (show b < g.uintsPerPage by omega),
        Nat.div_eq_of_lt (show j < g.uintsPerPage by omega)] using hdiv
    subst hrow
    have hcol : b = j := Nat.add_left_cancel hkey
    rw [hcol]
  · refine .inr ⟨(i, j), ?_, rfl⟩
    exact List.mem_flatMap.mpr ⟨i, List.mem_range.mpr hi,
      List.mem_map.mpr ⟨j, List.mem_range.mpr hj, rfl⟩⟩

end Lists

/-! ## The constructor -/

section Constructor

variable {n m : Nat}

/-- What `accepts` says of the mappings. -/
theorem accepts_spec (h : g.accepts = true) :
    g.ps ≤ g.ctrlPageSize * g.uintsPerPage ∧ g.np ≠ 0 ∧
      (∃ n, g.nIoaddrs g.cacheSize = some n) ∧
      (¬g.ps ≤ g.ctrlPageSize * 2 → ∃ m, g.nIoaddrs g.prpListSize = some m) := by
  simp only [accepts, Bool.and_eq_true, Bool.or_eq_true, decide_eq_true_eq] at h
  obtain ⟨⟨⟨⟨hps, hnp⟩, -⟩, hcache⟩, hlists⟩ := h
  refine ⟨hps, hnp, Option.isSome_iff_exists.mp hcache, fun hbig => ?_⟩
  exact Option.isSome_iff_exists.mp (hlists.resolve_left hbig)

theorem covered_of_le (hn : g.nIoaddrs g.cacheSize = some n) (h : g.ps ≤ g.ctrlPageSize) :
    g.SlotsCovered ↔ g.ps * g.np ≤ n * g.ctrlPageSize := by
  have htables : ∀ bus, g.prpTables bus = if g.np ≤ (g.subPages bus n).length then
      some ⟨false, fun i => (g.subPages bus n).getD i 0, fun _ => 0, fun _ => 0⟩ else none := by
    intro bus
    rw [prpTables, hn]
    show (if g.ps ≤ g.ctrlPageSize then _ else _) = _
    rw [if_pos h]
  rw [← subPages_fits h]
  constructor
  · intro hcov
    obtain ⟨t, ht, -⟩ := hcov ⟨fun _ => 0, fun _ => 0⟩
    rw [htables, subPages_length] at ht
    by_contra hcon
    rw [if_neg hcon] at ht
    exact absurd ht (by simp)
  · intro hfit bus
    rw [htables, subPages_length, if_pos hfit]
    refine ⟨_, rfl, ⟨fun hf => absurd hf Bool.false_ne_true, fun hlt => by omega⟩, ?_⟩
    intro i hi
    refine ⟨?_, fun hbig => absurd h (by have := g.ctrlPageSize_pos; omega)⟩
    rw [namedPages, if_pos h, slotPages, if_pos h]
    show [(g.subPages bus n).getD i 0] = _
    rw [subPages_getD h (Nat.lt_of_lt_of_le hi hfit)]

theorem covered_of_two (hn : g.nIoaddrs g.cacheSize = some n) (h1 : ¬g.ps ≤ g.ctrlPageSize)
    (h2 : g.ps ≤ g.ctrlPageSize * 2) (hnp : g.np ≠ 0) :
    g.SlotsCovered ↔ g.ps * g.np ≤ n * g.ctrlPageSize := by
  have hpos := g.ctrlPageSize_pos
  have htwo := ps_eq_of_two (Nat.lt_of_not_le h1) h2
  have htables : ∀ bus, g.prpTables bus = if ∀ i < g.np, i * 2 + 1 < n then
      some ⟨true, fun i => bus.pages (i * 2), fun i => bus.pages (i * 2 + 1), fun _ => 0⟩
      else none := by
    intro bus
    rw [prpTables, hn]
    show (if g.ps ≤ g.ctrlPageSize then _ else _) = _
    rw [if_neg h1, if_pos h2]
  have hfits : (∀ i < g.np, i * 2 + 1 < n) ↔ g.ps * g.np ≤ n * g.ctrlPageSize := by
    have hmul : g.ps * g.np = 2 * g.np * g.ctrlPageSize := by
      rw [htwo, Nat.mul_assoc, Nat.mul_comm]
    rw [hmul, Nat.mul_le_mul_right_iff hpos]
    constructor
    · intro hall
      have hlast := hall (g.np - 1) (by omega)
      omega
    · intro hle i hi
      omega
  rw [← hfits]
  constructor
  · intro hcov
    obtain ⟨t, ht, -⟩ := hcov ⟨fun _ => 0, fun _ => 0⟩
    rw [htables] at ht
    by_contra hcon
    rw [if_neg hcon] at ht
    exact absurd ht (by simp)
  · intro hfit bus
    rw [htables, if_pos hfit]
    refine ⟨_, rfl, ⟨fun _ => Nat.lt_of_not_le h1, fun _ => rfl⟩, ?_⟩
    intro i hi
    refine ⟨?_, fun hbig => absurd h2 (Nat.not_le_of_lt hbig)⟩
    have hq : g.ps / g.ctrlPageSize = 2 := by rw [htwo, Nat.mul_div_cancel_left _ hpos]
    have hfirst : i * g.ps / g.ctrlPageSize = i * 2 := by
      rw [htwo, Nat.mul_left_comm, Nat.mul_div_cancel_left _ hpos]
    rw [namedPages, if_neg h1, if_pos h2, slotPages, if_neg h1, hq, hfirst]
    rfl

theorem covered_of_list (hn : g.nIoaddrs g.cacheSize = some n)
    (hm : g.nIoaddrs g.prpListSize = some m) (h2 : ¬g.ps ≤ g.ctrlPageSize * 2)
    (hps : g.ps ≤ g.ctrlPageSize * g.uintsPerPage) (hnp : g.np ≠ 0) :
    g.SlotsCovered ↔ g.ps * g.np ≤ n * g.ctrlPageSize ∧ g.ctrlPageSize * g.np < 4294967296 := by
  have hpos := g.ctrlPageSize_pos
  have h1 : ¬g.ps ≤ g.ctrlPageSize := by omega
  obtain ⟨hmany, hle⟩ := howManyInOne_eq hps
  obtain ⟨w, hw⟩ := dvd_of_ge (Nat.le_of_lt (Nat.lt_of_not_le h1))
  have hq : g.ps / g.ctrlPageSize = w := by rw [hw, Nat.mul_div_cancel_left _ hpos]
  rw [hq] at hmany hle
  have hw2 : 2 < w := by
    by_contra hcon
    exact h2 (by rw [hw]; exact Nat.mul_le_mul_left _ (Nat.le_of_not_lt hcon))
  have hmul : g.ps * g.np = w * g.np * g.ctrlPageSize := by
    rw [hw, Nat.mul_assoc, Nat.mul_comm]
  have hbytes : g.uintsPerPage * 8 = g.ctrlPageSize := by
    rw [uintsPerPage_eq]
    exact Nat.div_mul_cancel g.eight_dvd
  have htables : ∀ bus, g.prpTables bus = if ∀ i < g.np, i * w < n ∧ i < m ∧
      ∀ j < w - 1, i * w + j + 1 < n ∧ i * g.uintsPerPage + j < g.prpListSize then
      some ⟨true, fun i => bus.pages (i * w), fun i => bus.lists i,
        fun k => if k < g.prpListSize / 8 then g.temp3 bus w k else 0⟩
      else none := by
    intro bus
    rw [prpTables, hn]
    show (if g.ps ≤ g.ctrlPageSize then _ else _) = _
    rw [if_neg h1, if_neg h2, hm]
    show (if ∀ i < g.np, i * (g.ps / g.ctrlPageSize % 4294967296) < n ∧ _ then _ else _) = _
    rw [hq, hmany]
  have hcell : ∀ {i}, i < g.np → i * w + w ≤ w * g.np := by
    intro i hi
    rw [← Nat.succ_mul, Nat.mul_comm]
    exact Nat.mul_le_mul_left w hi
  have hlistSize : g.ctrlPageSize * g.np < 4294967296 →
      g.prpListSize = g.uintsPerPage * g.np * 8 := by
    intro h32
    rw [prpListSize, wrap64_of_lt (by omega), Nat.mod_eq_of_lt h32, Nat.mul_right_comm, hbytes]
  rw [hmul, Nat.mul_le_mul_right_iff hpos]
  constructor
  · intro hcov
    obtain ⟨t, ht, -⟩ := hcov ⟨fun _ => 0, fun _ => 0⟩
    rw [htables] at ht
    by_cases hall : ∀ i < g.np, i * w < n ∧ i < m ∧
        ∀ j < w - 1, i * w + j + 1 < n ∧ i * g.uintsPerPage + j < g.prpListSize
    · obtain ⟨-, hlist, hlast⟩ := hall (g.np - 1) (by omega)
      have hpage := (hlast (w - 2) (by omega)).1
      have hpages : w * g.np ≤ n := by
        have hnp1 : w * g.np = (g.np - 1) * w + w := by
          rw [← Nat.succ_mul, Nat.succ_eq_add_one, Nat.sub_add_cancel (Nat.pos_of_ne_zero hnp),
            Nat.mul_comm]
        omega
      refine ⟨hpages, ?_⟩
      have hfit : g.ps * g.np ≤ n * g.ctrlPageSize := by
        rw [hmul]
        exact Nat.mul_le_mul_right _ hpages
      have h64 := (cacheSize_fits hn).mp hfit
      have hsmall : g.ctrlPageSize * g.np ≤ g.ps * g.np :=
        Nat.mul_le_mul_right _ (Nat.le_of_lt (Nat.lt_of_not_le h1))
      exact (prpListSize_fits hm (by omega)).mp (by omega)
    · rw [if_neg hall] at ht
      exact absurd ht (by simp)
  · rintro ⟨hpages, h32⟩ bus
    have hlists : g.np ≤ m := (prpListSize_fits hm (by omega)).mpr h32
    have hword : ∀ {i j}, i < g.np → j < w - 1 →
        i * g.uintsPerPage + j < g.uintsPerPage * g.np := by
      intro i j hi hj
      have hrow : i * g.uintsPerPage + g.uintsPerPage ≤ g.uintsPerPage * g.np := by
        rw [← Nat.succ_mul, Nat.mul_comm]
        exact Nat.mul_le_mul_left _ hi
      omega
    rw [htables, if_pos]
    · refine ⟨_, rfl, ⟨fun _ => Nat.lt_of_not_le h1, fun _ => rfl⟩, ?_⟩
      intro i hi
      refine ⟨?_, fun _ => rfl⟩
      have hfirst : i * g.ps / g.ctrlPageSize = i * w := by
        rw [hw, Nat.mul_left_comm, Nat.mul_div_cancel_left _ hpos]
      have hrange : List.range w = 0 :: (List.range (w - 1)).map Nat.succ := by
        rw [← List.range_succ_eq_map, Nat.sub_add_cancel (by omega)]
      rw [namedPages, if_neg h1, if_neg h2, slotPages, if_neg h1, hq, hfirst, hrange,
        List.map_cons, List.map_map]
      congr 1
      apply List.map_congr_left
      intro j hmem
      have hj : j < w - 1 := List.mem_range.mp hmem
      show (if i * (g.ctrlPageSize / 8) + j < g.prpListSize / 8 then
        g.temp3 bus w (i * (g.ctrlPageSize / 8) + j) else 0) = bus.pages (i * w + (j + 1))
      rw [← uintsPerPage_eq, hlistSize h32, Nat.mul_div_cancel _ (by decide),
        if_pos (hword hi hj), temp3_eq bus hle hi hj, Nat.add_assoc]
    · intro i hi
      have hc := hcell hi
      refine ⟨by omega, by omega, ?_⟩
      intro j hj
      have hwd := hword hi hj
      rw [hlistSize h32]
      omega

end Constructor

/-- The tables of an accepted cache cover its slots if and only if the sizes fit. -/
theorem slots_covered_iff (g : CacheGeometry) (h : g.accepts = true) :
    g.SlotsCovered ↔ g.ps * g.np + 65535 < 18446744073709551616 ∧
      (g.ps ≤ g.ctrlPageSize * 2 ∨ g.ctrlPageSize * g.np < 4294967296) := by
  obtain ⟨hps, hnp, ⟨n, hn⟩, hlists⟩ := accepts_spec h
  rw [← cacheSize_fits hn]
  by_cases h2 : g.ps ≤ g.ctrlPageSize * 2
  · have hor : g.ps ≤ g.ctrlPageSize * 2 ∨ g.ctrlPageSize * g.np < 4294967296 := .inl h2
    rw [and_iff_left hor]
    by_cases h1 : g.ps ≤ g.ctrlPageSize
    · exact covered_of_le hn h1
    · exact covered_of_two hn h1 h2 hnp
  · obtain ⟨m, hm⟩ := hlists h2
    rw [or_iff_right h2]
    exact covered_of_list hn hm h2 hps hnp

/-- A cache of slots of 16 KiB on a controller with pages of 4 KiB. -/
def slots16K (np : Nat) (h : np < 18446744073709551616) : CacheGeometry where
  ctrlPageLog := 12
  psLog := 14
  np := np
  lbaDataSize := 512
  ctrlPageLog_ge := by decide
  ctrlPageLog_le := by decide
  psLog_lt := by decide
  np_lt := h

theorem smallCache_covered : (slots16K 65536 (by decide)).SlotsCovered :=
  (slots_covered_iff (slots16K 65536 (by decide)) (by decide +kernel)).mpr (by decide +kernel)

/-- The lists of 1048577 such slots are given the memory of one. -/
theorem largeCache_not_covered :
    (slots16K 1048577 (by decide)).accepts = true ∧
      ¬(slots16K 1048577 (by decide)).SlotsCovered := by
  refine ⟨by decide +kernel, fun h => ?_⟩
  have hlists : (slots16K 1048577 (by decide)).nIoaddrs
      (slots16K 1048577 (by decide)).prpListSize = some 16 := by decide +kernel
  have hcheck := (covered_of_list (g := slots16K 1048577 (by decide)) (n := 4194320) (m := 16)
    (by decide +kernel) hlists (by decide +kernel) (by decide +kernel) (by decide)).mp h
  exact absurd hcheck.2 (by decide +kernel)

end CacheGeometry

end GidsStack.Addressing
