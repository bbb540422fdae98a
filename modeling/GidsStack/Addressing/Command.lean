/-
  GidsStack.Addressing.Command

  The read and write commands of the cache and the helpers that build commands (nvm_cmd.h), and
  what a controller makes of the words: it follows the two data pointers, and lists of pointers
  from page to page, as the NVMe specification has it.

  A command of the cache transfers exactly the blocks it was asked for to exactly the pages of
  its slot as long as their number fits the sixteen bits of the field (`slotCommand_iff`).
  `nvm_cmd_data` chains as many lists as it is given; they are enough for all but one entry of
  each list, the entry of the last one and the first pointer (`cmdData_walk`).
-/

import GidsStack.Addressing.PrpTables
import Mathlib.Logic.Function.Basic

namespace GidsStack.Addressing

/-! ## The words of a command -/

/-- `dword` of `nvm_cmd_t`. -/
abbrev NvmCmd := Nat → Nat

/-- `nvm_cmd_header`. -/
def cmdHeader (cmd : NvmCmd) (cid opcode nsId : Nat) : NvmCmd :=
  Function.update (Function.update cmd 0 (cid <<< 16 ||| (opcode &&& 127))) 1 nsId

/-- `nvm_cmd_data_ptr`. -/
def cmdDataPtr (cmd : NvmCmd) (prp1 prp2 : Nat) : NvmCmd :=
  let cmd := Function.update cmd 0 (cmd 0 &&& 4294917375)
  let cmd := Function.update cmd 6 (prp1 % 4294967296)
  let cmd := Function.update cmd 7 (prp1 >>> 32 % 4294967296)
  let cmd := Function.update cmd 8 (prp2 % 4294967296)
  Function.update cmd 9 (prp2 >>> 32 % 4294967296)

/-- `nvm_cmd_rw_blks`, whose `n_blks` has sixteen bits. -/
def cmdRwBlks (cmd : NvmCmd) (startLba nBlks : Nat) : NvmCmd :=
  let cmd := Function.update cmd 10 (startLba % 4294967296)
  let cmd := Function.update cmd 11 (startLba >>> 32 % 4294967296)
  Function.update cmd 12
    ((cmd 12 &&& 4294901760) ||| ((nBlks % 65536 + 4294967295) % 4294967296 &&& 65535))

/-- The command of `read_data`, `write_data` and `read_data_submit_async` for slot `i`; the
    words that are not set have what was there before. -/
def ioCommand (t : PrpTables) (cmd : NvmCmd) (cid opcode nsId startLba nBlocks i : Nat) : NvmCmd :=
  let prp1 := t.prp1 i
  let prp2 := if t.prps then t.prp2 i else 0
  cmdRwBlks (cmdDataPtr (cmdHeader cmd cid opcode nsId) prp1 prp2) startLba nBlocks

/-! ## What a controller does with it -/

/-- The entries of a list from an address to the end of its page. -/
def entriesLeft (mps addr : Nat) : Nat := (mps - addr % mps) / 8

/-- The `n` pages of a list: when they do not fit into what is left of its page, the last entry
    is the address of the rest. -/
def prpWalk (mps : Nat) (mem : Nat → Nat) : Nat → Nat → Nat → List Nat
  | 0, _, _ => []
  | fuel + 1, addr, n =>
    if n ≤ entriesLeft mps addr then (List.range n).map fun j => mem (addr + 8 * j)
    else
      ((List.range (entriesLeft mps addr - 1)).map fun j => mem (addr + 8 * j)) ++
        prpWalk mps mem fuel (mem (addr + 8 * (entriesLeft mps addr - 1)))
          (n - (entriesLeft mps addr - 1))

/-- The pages of the data pointers. -/
def dataPages (mps : Nat) (mem : Nat → Nat) (prp1 prp2 bytes : Nat) : List Nat :=
  let n := (prp1 % mps + bytes + mps - 1) / mps
  if n ≤ 1 then [prp1]
  else if n = 2 then [prp1, prp2]
  else prp1 :: prpWalk mps mem n prp2 (n - 1)

/-- The first data pointer of a command. -/
def dptr1 (cmd : NvmCmd) : Nat := cmd 6 + cmd 7 <<< 32

/-- The second data pointer of a command. -/
def dptr2 (cmd : NvmCmd) : Nat := cmd 8 + cmd 9 <<< 32

/-- What a command asks for. -/
structure Transfer where
  opcode : Nat
  cid : Nat
  nsId : Nat
  startLba : Nat
  nBlocks : Nat
  pages : List Nat
  deriving DecidableEq

/-- The transfer of a command, on a controller with pages of `mps` bytes and blocks of `blk`. -/
def decode (mps blk : Nat) (mem : Nat → Nat) (cmd : NvmCmd) : Transfer where
  opcode := cmd 0 % 256
  cid := cmd 0 >>> 16
  nsId := cmd 1
  startLba := cmd 10 + cmd 11 <<< 32
  nBlocks := cmd 12 % 65536 + 1
  pages := dataPages mps mem (dptr1 cmd) (dptr2 cmd) ((cmd 12 % 65536 + 1) * blk)

/-! ## Fields -/

theorem halves {x : Nat} (h : x < 18446744073709551616) :
    x % 4294967296 + (x >>> 32 % 4294967296) <<< 32 = x := by
  rw [Nat.shiftRight_eq_div_pow, Nat.shiftLeft_eq]
  omega

/-- The opcodes of the I/O commands have seven bits. -/
theorem header_opcode (cid : Nat) {opcode : Nat} (h : opcode < 128) :
    ((cid <<< 16 ||| (opcode &&& 127)) &&& 4294917375) % 256 = opcode := by
  have hcid : cid <<< 16 % 2 ^ 8 = 0 := by
    rw [Nat.shiftLeft_eq]
    omega
  have hop : opcode &&& 127 = opcode := by
    rw [show 127 = 2 ^ 7 - 1 from rfl, Nat.and_two_pow_sub_one_eq_mod, Nat.mod_eq_of_lt h]
  rw [show 256 = 2 ^ 8 from rfl, Nat.and_mod_two_pow, Nat.or_mod_two_pow, hcid, hop,
    Nat.zero_or, show 4294917375 % 2 ^ 8 = 2 ^ 8 - 1 from rfl, Nat.and_two_pow_sub_one_eq_mod]
  omega

theorem header_cid {cid opcode : Nat} (hcid : cid < 65536) (h : opcode < 128) :
    ((cid <<< 16 ||| (opcode &&& 127)) &&& 4294917375) >>> 16 = cid := by
  have hop : (opcode &&& 127) >>> 16 = 0 := by
    rw [Nat.shiftRight_eq_div_pow]
    have hle := Nat.and_le_left (n := opcode) (m := 127)
    omega
  rw [Nat.shiftRight_and_distrib, Nat.shiftRight_or_distrib, Nat.shiftLeft_shiftRight, hop,
    Nat.or_zero, show 4294917375 >>> 16 = 2 ^ 16 - 1 from rfl, Nat.and_two_pow_sub_one_eq_mod,
    Nat.mod_eq_of_lt hcid]

/-- The field has the number of blocks less one, and nothing of what stood beside it. -/
theorem rwBlks_field (old nBlks : Nat) :
    ((old &&& 4294901760) ||| ((nBlks % 65536 + 4294967295) % 4294967296 &&& 65535)) % 65536 =
      (nBlks + 65535) % 65536 := by
  rw [show 65535 = 2 ^ 16 - 1 from rfl, Nat.and_two_pow_sub_one_eq_mod,
    show 65536 = 2 ^ 16 from rfl, Nat.or_mod_two_pow, Nat.and_mod_two_pow,
    show 4294901760 % 2 ^ 16 = 0 from rfl, Nat.and_zero, Nat.zero_or]
  omega

/-- The pages of whole pages from the start of one on. -/
theorem dataPages_aligned {mps : Nat} (hpos : 0 < mps) {prp1 : Nat} (h : mps ∣ prp1)
    (mem : Nat → Nat) (prp2 n : Nat) :
    dataPages mps mem prp1 prp2 (n * mps) =
      if n ≤ 1 then [prp1]
      else if n = 2 then [prp1, prp2]
      else prp1 :: prpWalk mps mem n prp2 (n - 1) := by
  have hn : (prp1 % mps + n * mps + mps - 1) / mps = n := by
    rw [Nat.mod_eq_zero_of_dvd h, Nat.zero_add, Nat.add_sub_assoc hpos, Nat.mul_comm,
      Nat.mul_add_div hpos, Nat.div_eq_of_lt (by omega), Nat.add_zero]
  rw [dataPages, hn]

section IoCommand

variable {t : PrpTables} {cmd : NvmCmd} {cid opcode nsId startLba nBlocks i : Nat}

theorem ioCommand_word0 : ioCommand t cmd cid opcode nsId startLba nBlocks i 0 =
    (cid <<< 16 ||| (opcode &&& 127)) &&& 4294917375 := rfl

theorem ioCommand_word1 : ioCommand t cmd cid opcode nsId startLba nBlocks i 1 = nsId := rfl

theorem ioCommand_lba (h : startLba < 18446744073709551616) :
    ioCommand t cmd cid opcode nsId startLba nBlocks i 10 +
      ioCommand t cmd cid opcode nsId startLba nBlocks i 11 <<< 32 = startLba :=
  halves h

theorem ioCommand_nBlocks : ioCommand t cmd cid opcode nsId startLba nBlocks i 12 % 65536 =
    (nBlocks + 65535) % 65536 :=
  rwBlks_field (cmd 12) nBlocks

theorem dptr1_cmdDataPtr {prp1 : Nat} (h : prp1 < 18446744073709551616) (prp2 : Nat) :
    dptr1 (cmdDataPtr cmd prp1 prp2) = prp1 :=
  halves h

theorem dptr2_cmdDataPtr {prp2 : Nat} (h : prp2 < 18446744073709551616) (prp1 : Nat) :
    dptr2 (cmdDataPtr cmd prp1 prp2) = prp2 :=
  halves h

theorem ioCommand_dptr1 (h : t.prp1 i < 18446744073709551616) :
    dptr1 (ioCommand t cmd cid opcode nsId startLba nBlocks i) = t.prp1 i :=
  halves h

theorem ioCommand_dptr2 (h : (if t.prps then t.prp2 i else 0) < 18446744073709551616) :
    dptr2 (ioCommand t cmd cid opcode nsId startLba nBlocks i) =
      if t.prps then t.prp2 i else 0 :=
  halves h

end IoCommand

/-- What is decoded of a command of the cache, whatever its words were before. -/
theorem decode_ioCommand (t : PrpTables) (mem : Nat → Nat) (cmd : NvmCmd) (mps blk : Nat)
    {cid opcode nsId startLba nBlocks i : Nat} (hcid : cid < 65536) (hop : opcode < 128)
    (hlba : startLba < 18446744073709551616) (h1 : t.prp1 i < 18446744073709551616)
    (h2 : (if t.prps then t.prp2 i else 0) < 18446744073709551616) :
    decode mps blk mem (ioCommand t cmd cid opcode nsId startLba nBlocks i) =
      ⟨opcode, cid, nsId, startLba, (nBlocks + 65535) % 65536 + 1,
        dataPages mps mem (t.prp1 i) (if t.prps then t.prp2 i else 0)
          (((nBlocks + 65535) % 65536 + 1) * blk)⟩ := by
  rw [decode, ioCommand_word0, header_opcode cid hop, header_cid hcid hop, ioCommand_word1,
    ioCommand_lba hlba, ioCommand_nBlocks, ioCommand_dptr1 h1, ioCommand_dptr2 h2]

/-! ## The commands of the cache -/

namespace CacheGeometry

variable {g : CacheGeometry} {bus : BusAddresses}

/-- The bus addresses are those of controller pages. -/
structure Mapped (g : CacheGeometry) (bus : BusAddresses) : Prop where
  pages_aligned : ∀ k, g.ctrlPageSize ∣ bus.pages k
  pages_lt : ∀ k, bus.pages k < 18446744073709551616
  lists_aligned : ∀ k, g.ctrlPageSize ∣ bus.lists k
  lists_lt : ∀ k, bus.lists k < 18446744073709551616

theorem covered_of_fits (h : g.accepts = true)
    (hsize : g.ps * g.np + 65535 < 18446744073709551616)
    (hlist : g.ps ≤ g.ctrlPageSize * 2 ∨ g.ctrlPageSize * g.np < 4294967296) :
    g.SlotsCovered := by
  obtain ⟨hps, hnp, ⟨n, hn⟩, hlists⟩ := accepts_spec h
  have hcache := (cacheSize_fits hn).mpr hsize
  by_cases h1 : g.ps ≤ g.ctrlPageSize
  · exact (covered_of_le hn h1).mpr hcache
  · by_cases h2 : g.ps ≤ g.ctrlPageSize * 2
    · exact (covered_of_two hn h1 h2 hnp).mpr hcache
    · obtain ⟨m, hm⟩ := hlists h2
      exact (covered_of_list hn hm h2 hps hnp).mpr ⟨hcache, hlist.resolve_left h2⟩

/-- A part of a page does not leave its page. -/
theorem part_le (h : g.ps ≤ g.ctrlPageSize) (i : Nat) :
    i * g.ps % g.ctrlPageSize + g.ps ≤ g.ctrlPageSize := by
  obtain ⟨w, hw⟩ := dvd_of_le h
  have hwpos : 0 < w := Nat.pos_of_ne_zero fun h0 => by
    have hpos := g.ctrlPageSize_pos
    rw [hw, h0] at hpos
    exact absurd hpos (by omega)
  have hlt : i % w < w := Nat.mod_lt i hwpos
  rw [hw, Nat.mul_comm i, Nat.mul_mod_mul_left, ← Nat.mul_succ]
  exact Nat.mul_le_mul_left _ hlt

theorem page_add_lt (hbus : g.Mapped bus) (k : Nat) {d : Nat} (hd : d < g.ctrlPageSize) :
    bus.pages k + d < 18446744073709551616 := by
  have hdvd : g.ctrlPageSize ∣ 2 ^ 64 :=
    Nat.pow_dvd_pow 2 (Nat.le_trans g.ctrlPageLog_le (by decide))
  obtain ⟨a, ha⟩ := hbus.pages_aligned k
  obtain ⟨b, hb⟩ := hdvd
  have hlt := hbus.pages_lt k
  rw [show 18446744073709551616 = 2 ^ 64 from rfl, hb, ha] at hlt
  have hab : a + 1 ≤ b := Nat.lt_of_mul_lt_mul_left hlt
  have hmul : g.ctrlPageSize * (a + 1) ≤ 2 ^ 64 := hb ▸ Nat.mul_le_mul_left _ hab
  rw [Nat.mul_succ, ← ha] at hmul
  omega

section Slot

variable {t : PrpTables} {mem : Nat → Nat} {i : Nat}

/-- The controller finds the pages of a slot: the part of a page ends in it, a list of pages
    ends in the page that it starts. -/
theorem dataPages_slot (hbus : g.Mapped bus) (hps : g.ps ≤ g.ctrlPageSize * g.uintsPerPage)
    (hprps : t.prps = true ↔ g.ctrlPageSize < g.ps) (hi : i < g.np)
    (hpages : g.namedPages t i = g.slotPages bus i)
    (hprp2 : g.ctrlPageSize * 2 < g.ps → t.prp2 i = bus.lists i)
    (hmem : ∀ i < g.np, ∀ j < g.ctrlPageSize / 8,
      mem (bus.lists i + 8 * j) = t.prpList (i * (g.ctrlPageSize / 8) + j)) :
    dataPages g.ctrlPageSize mem (t.prp1 i) (if t.prps then t.prp2 i else 0) g.ps =
        g.slotPages bus i ∧ t.prp1 i < 18446744073709551616 ∧
      (if t.prps then t.prp2 i else 0) < 18446744073709551616 := by
  have hpos := g.ctrlPageSize_pos
  by_cases h1 : g.ps ≤ g.ctrlPageSize
  · have hf : ¬t.prps = true := fun h => absurd (hprps.mp h) (Nat.not_lt_of_le h1)
    have hpart := part_le h1 i
    have hpspos := g.ps_pos
    rw [namedPages, if_pos h1, slotPages, if_pos h1] at hpages
    have hprp1 := (List.cons.inj hpages).1
    rw [if_neg hf, slotPages, if_pos h1, hprp1]
    refine ⟨?_, page_add_lt hbus _ (by omega), by decide⟩
    have hoff : (bus.pages (i * g.ps / g.ctrlPageSize) + i * g.ps % g.ctrlPageSize) %
        g.ctrlPageSize = i * g.ps % g.ctrlPageSize := by
      obtain ⟨a, ha⟩ := hbus.pages_aligned (i * g.ps / g.ctrlPageSize)
      rw [ha, Nat.mul_add_mod, Nat.mod_mod]
    rw [dataPages, hoff, if_pos]
    apply Nat.lt_succ_iff.mp
    rw [Nat.div_lt_iff_lt_mul hpos]
    omega
  · have hlt := Nat.lt_of_not_le h1
    obtain ⟨w, hw⟩ := dvd_of_ge (Nat.le_of_lt hlt)
    have hq : g.ps / g.ctrlPageSize = w := by rw [hw, Nat.mul_div_cancel_left _ hpos]
    have hw1 : ¬w ≤ 1 := fun hle => h1 (by
      rw [hw]
      exact (Nat.mul_le_mul_left _ hle).trans_eq (Nat.mul_one _))
    have hslot : g.slotPages bus i =
        (List.range w).map fun j => bus.pages (i * g.ps / g.ctrlPageSize + j) := by
      rw [slotPages, if_neg h1, hq]
    have hhead : ∃ rest, g.slotPages bus i = bus.pages (i * g.ps / g.ctrlPageSize) :: rest := by
      obtain ⟨v, rfl⟩ := Nat.exists_eq_succ_of_ne_zero (show w ≠ 0 by omega)
      rw [hslot, List.range_succ_eq_map]
      exact ⟨_, rfl⟩
    obtain ⟨rest, hrest⟩ := hhead
    have hwhole := dataPages_aligned hpos (hbus.pages_aligned (i * g.ps / g.ctrlPageSize)) mem
      (t.prp2 i) w
    rw [Nat.mul_comm w, ← hw, if_neg hw1] at hwhole
    rw [if_pos (hprps.mpr hlt)]
    by_cases h2 : g.ps ≤ g.ctrlPageSize * 2
    · have hw2 : w = 2 := by
        rw [← hq, ps_eq_of_two hlt h2, Nat.mul_div_cancel_left _ hpos]
      rw [namedPages, if_neg h1, if_pos h2] at hpages
      have hprp1 : t.prp1 i = bus.pages (i * g.ps / g.ctrlPageSize) :=
        (List.cons.inj (hpages.trans hrest)).1
      have hsnd : t.prp2 i = bus.pages (i * g.ps / g.ctrlPageSize + 1) := by
        rw [hslot, hw2] at hpages
        exact (List.cons.inj (List.cons.inj hpages).2).1
      refine ⟨?_, hprp1 ▸ hbus.pages_lt _, hsnd ▸ hbus.pages_lt _⟩
      rw [← hpages, hprp1, hwhole, if_pos hw2]
    · have hlist := hprp2 (Nat.lt_of_not_le h2)
      have hw2 : ¬w = 2 := fun h => h2 (by rw [hw, h])
      rw [namedPages, if_neg h1, if_neg h2, hq] at hpages
      have hprp1 : t.prp1 i = bus.pages (i * g.ps / g.ctrlPageSize) :=
        (List.cons.inj (hpages.trans hrest)).1
      have hfit : w - 1 ≤ entriesLeft g.ctrlPageSize (bus.lists i) := by
        have hle : w ≤ g.uintsPerPage := hq ▸ Nat.div_le_of_le_mul hps
        rw [entriesLeft, Nat.mod_eq_zero_of_dvd (hbus.lists_aligned i), Nat.sub_zero,
          ← uintsPerPage_eq]
        omega
      refine ⟨?_, hprp1 ▸ hbus.pages_lt _, hlist ▸ hbus.lists_lt _⟩
      rw [← hpages, hprp1, hwhole, if_neg hw2, hlist]
      obtain ⟨fuel, hfuel⟩ := Nat.exists_eq_succ_of_ne_zero (show w ≠ 0 by omega)
      rw [hfuel, prpWalk, ← hfuel, if_pos hfit]
      congr 1
      apply List.map_congr_left
      intro j hj
      have hjw := List.mem_range.mp hj
      have hle : w ≤ g.ctrlPageSize / 8 := by
        rw [← uintsPerPage_eq]
        exact hq ▸ Nat.div_le_of_le_mul hps
      exact hmem i hi j (by omega)

end Slot

/-- A command of the cache for a slot asks for the blocks and the pages of the slot if and only
    if the number of blocks is at most the 65536 of its field. -/
theorem slotCommand_iff (h : g.accepts = true)
    (hsize : g.ps * g.np + 65535 < 18446744073709551616)
    (hlist : g.ps ≤ g.ctrlPageSize * 2 ∨ g.ctrlPageSize * g.np < 4294967296)
    (hblk : g.lbaDataSize ∣ g.ps) (hbus : g.Mapped bus) {t : PrpTables}
    (ht : g.prpTables bus = some t) {mem : Nat → Nat}
    (hmem : ∀ i < g.np, ∀ j < g.ctrlPageSize / 8,
      mem (bus.lists i + 8 * j) = t.prpList (i * (g.ctrlPageSize / 8) + j))
    (cmd : NvmCmd) {cid opcode nsId startLba i : Nat} (hcid : cid < 65536) (hop : opcode < 128)
    (hlba : startLba < 18446744073709551616) (hi : i < g.np) :
    decode g.ctrlPageSize g.lbaDataSize mem
        (ioCommand t cmd cid opcode nsId startLba (g.ps / g.lbaDataSize) i) =
      ⟨opcode, cid, nsId, startLba, g.ps / g.lbaDataSize, g.slotPages bus i⟩ ↔
    g.ps / g.lbaDataSize ≤ 65536 := by
  obtain ⟨t', ht', hprps, hcov⟩ := covered_of_fits h hsize hlist bus
  obtain rfl : t = t' := Option.some.inj (ht.symm.trans ht')
  obtain ⟨hpages, hprp2⟩ := hcov i hi
  obtain ⟨hps, -⟩ := accepts_spec h
  obtain ⟨hdata, h1, h2⟩ := dataPages_slot hbus hps hprps hi hpages hprp2 hmem
  have hpos : 0 < g.ps / g.lbaDataSize :=
    Nat.div_pos (Nat.le_of_dvd g.ps_pos hblk) (Nat.pos_of_dvd_of_pos hblk g.ps_pos)
  rw [decode_ioCommand t mem cmd _ _ hcid hop hlba h1 h2]
  constructor
  · intro heq
    have hn := congrArg Transfer.nBlocks heq
    have hfield : (g.ps / g.lbaDataSize + 65535) % 65536 + 1 = g.ps / g.lbaDataSize := hn
    omega
  · intro hle
    have hfield : (g.ps / g.lbaDataSize + 65535) % 65536 + 1 = g.ps / g.lbaDataSize := by omega
    rw [hfield, Nat.div_mul_cancel hblk, hdata]

/-- Pages of 4 KiB, the lists above the cache. -/
def evenBus : BusAddresses where
  pages k := k % 1048576 * 4096
  lists k := 4294967296 + k % 1048576 * 4096

theorem evenBus_mapped (np : Nat) (h : np < 18446744073709551616) :
    (slots16K np h).Mapped evenBus where
  pages_aligned _ := Nat.dvd_mul_left _ _
  pages_lt k := by
    show k % 1048576 * 4096 < 18446744073709551616
    omega
  lists_aligned k := by
    show 4096 ∣ 4294967296 + k % 1048576 * 4096
    omega
  lists_lt k := by
    show 4294967296 + k % 1048576 * 4096 < 18446744073709551616
    omega

/-- The memory of the lists as the controller sees it. -/
def listMemory (t : PrpTables) (addr : Nat) : Nat := t.prpList ((addr - 4294967296) / 8)

/-- A read of the fourth of four slots. -/
theorem fourthSlot_read : ∃ t, (slots16K 4 (by decide)).prpTables evenBus = some t ∧
    decode (slots16K 4 (by decide)).ctrlPageSize 512 (listMemory t)
        (ioCommand t (fun _ => 5) 7 2 1 96 ((slots16K 4 (by decide)).ps / 512) 3) =
      ⟨2, 7, 1, 96, (slots16K 4 (by decide)).ps / 512,
        (slots16K 4 (by decide)).slotPages evenBus 3⟩ := by
  have haccept : (slots16K 4 (by decide)).accepts = true := by decide +kernel
  have hsize : (slots16K 4 (by decide)).ps * (slots16K 4 (by decide)).np + 65535 <
      18446744073709551616 := by decide +kernel
  have hlist : (slots16K 4 (by decide)).ctrlPageSize * (slots16K 4 (by decide)).np <
      4294967296 := by decide +kernel
  obtain ⟨t, ht, -⟩ := covered_of_fits haccept hsize (.inr hlist) evenBus
  have hmem : ∀ i < (slots16K 4 (by decide)).np, ∀ j < (slots16K 4 (by decide)).ctrlPageSize / 8,
      listMemory t (evenBus.lists i + 8 * j) =
        t.prpList (i * ((slots16K 4 (by decide)).ctrlPageSize / 8) + j) := by
    intro i hi j hj
    have hi4 : i < 4 := hi
    have haddr : (4294967296 + i % 1048576 * 4096 + 8 * j - 4294967296) / 8 = i * 512 + j := by
      omega
    exact congrArg t.prpList haddr
  exact ⟨t, ht, (slotCommand_iff haccept hsize (.inr hlist) (by decide +kernel)
    (evenBus_mapped 4 _) ht hmem (fun _ => 5) (by decide) (by decide) (by decide)
    (by decide)).mpr (by decide +kernel)⟩

end CacheGeometry

/-! ## Chains of lists -/

/-- `nvm_prp_list_t`: where the host and the controller find a list. -/
structure PrpList where
  vaddr : Nat
  pageSize : Nat
  ioaddr : Nat

/-- `nvm_prp_list`; the number of entries used and the memory of the host. -/
def prpList (list : PrpList) (nPages : Nat) (ioaddrs : Nat → Nat) (mem : Nat → Nat) :
    Nat × (Nat → Nat) :=
  -- the last entry is kept for the next list when the pages do not fit
  let nPrps := if nPages > list.pageSize / 8 then list.pageSize / 8 - 1 else nPages
  (nPrps, Kernel.scatter mem (fun i => list.vaddr + 8 * i) ioaddrs (List.range nPrps))

/-- The loop of `nvm_prp_list_chain` over the lists that are left, after one with `listPrps`
    entries. -/
def prpListChainLoop (nPages : Nat) (ioaddrs : Nat → Nat) :
    PrpList → Nat → Nat → List PrpList → (Nat → Nat) → Nat × (Nat → Nat)
  | _, _, nPrps, [], mem => (nPrps, mem)
  | prev, listPrps, nPrps, list :: lists, mem =>
    if nPrps < nPages then
      let mem := Function.update mem (prev.vaddr + 8 * listPrps) list.ioaddr
      let r := prpList list (nPages - nPrps) (fun i => ioaddrs (nPrps + i)) mem
      prpListChainLoop nPages ioaddrs list r.1 (nPrps + r.1) lists r.2
    else (nPrps, mem)

/-- `nvm_prp_list_chain`. -/
def prpListChain (lists : List PrpList) (nPages : Nat) (ioaddrs : Nat → Nat) (mem : Nat → Nat) :
    Nat × (Nat → Nat) :=
  match lists with
  | [] => (0, mem)
  | list :: lists =>
    let r := prpList list nPages ioaddrs mem
    prpListChainLoop nPages ioaddrs list r.1 r.1 lists r.2

/-- `nvm_cmd_data` on the host: the number of pages that the command has, the command and the
    memory. -/
def cmdData (cmd : NvmCmd) (lists : List PrpList) (nPages : Nat) (ioaddrs : Nat → Nat)
    (mem : Nat → Nat) : Nat × NvmCmd × (Nat → Nat) :=
  if nPages = 0 then (0, cmd, mem)
  else
    match lists, decide (nPages > 2) with
    | list :: lists, true =>
      let r := prpListChain (list :: lists) (nPages - 1) (fun i => ioaddrs (1 + i)) mem
      (1 + r.1, cmdDataPtr cmd (ioaddrs 0) list.ioaddr, r.2)
    | _, _ =>
      if nPages ≥ 2 then (2, cmdDataPtr cmd (ioaddrs 0) (ioaddrs 1), mem)
      else (1, cmdDataPtr cmd (ioaddrs 0) 0, mem)

/-- Lists that fill controller pages of their own. -/
structure Chained (mps : Nat) (lists : List PrpList) : Prop where
  pageSize : ∀ l ∈ lists, l.pageSize = mps
  aligned : ∀ l ∈ lists, mps ∣ l.ioaddr
  lt : ∀ l ∈ lists, l.ioaddr < 18446744073709551616
  apart : lists.Pairwise fun l l' => l.vaddr + mps ≤ l'.vaddr ∨ l'.vaddr + mps ≤ l.vaddr

/-- The controller sees the lists as the host wrote them. -/
def Seen (mps : Nat) (mem busMem : Nat → Nat) (lists : List PrpList) : Prop :=
  ∀ l ∈ lists, ∀ j < mps / 8, busMem (l.ioaddr + 8 * j) = mem (l.vaddr + 8 * j)

/-- Outside the lists the memory is as it was. -/
def KeepsRest (mps : Nat) (mem mem' : Nat → Nat) (lists : List PrpList) : Prop :=
  ∀ a, (∀ l ∈ lists, a < l.vaddr ∨ l.vaddr + mps ≤ a) → mem' a = mem a

/-- Entries from `off` on, in a list and those after it. -/
def chainAt (nPages : Nat) (ioaddrs : Nat → Nat) (off : Nat) (list : PrpList)
    (lists : List PrpList) (mem : Nat → Nat) : Nat × (Nat → Nat) :=
  let r := prpList list (nPages - off) (fun i => ioaddrs (off + i)) mem
  prpListChainLoop nPages ioaddrs list r.1 (off + r.1) lists r.2

section Chain

variable {mps nPages off : Nat} {ioaddrs mem : Nat → Nat} {l : PrpList} {ls : List PrpList}

theorem Chained.tail (h : Chained mps (l :: ls)) : Chained mps ls where
  pageSize x hx := h.pageSize x (List.mem_cons_of_mem l hx)
  aligned x hx := h.aligned x (List.mem_cons_of_mem l hx)
  lt x hx := h.lt x (List.mem_cons_of_mem l hx)
  apart := h.apart.of_cons

theorem prpList_count_fits {n : Nat} (h : n ≤ l.pageSize / 8) :
    (prpList l n ioaddrs mem).1 = n :=
  if_neg (Nat.not_lt_of_le h)

theorem prpList_count_more {n : Nat} (h : l.pageSize / 8 < n) :
    (prpList l n ioaddrs mem).1 = l.pageSize / 8 - 1 :=
  if_pos h

theorem prpList_word {n j : Nat} (hj : j < (prpList l n ioaddrs mem).1) :
    (prpList l n ioaddrs mem).2 (l.vaddr + 8 * j) = ioaddrs j := by
  apply Kernel.scatter_eq
  · intro i _ hi
    rw [show i = j by omega]
  · exact .inr ⟨j, List.mem_range.mpr hj, rfl⟩

theorem prpList_count_le (n : Nat) : (prpList l n ioaddrs mem).1 ≤ l.pageSize / 8 := by
  show (if n > l.pageSize / 8 then l.pageSize / 8 - 1 else n) ≤ l.pageSize / 8
  split <;> omega

theorem prpList_other {n a : Nat} (h : a < l.vaddr ∨ l.vaddr + l.pageSize ≤ a) :
    (prpList l n ioaddrs mem).2 a = mem a := by
  apply Kernel.scatter_other
  intro i hi
  have hle : (prpList l n ioaddrs mem).1 ≤ l.pageSize / 8 := prpList_count_le n
  have hlt : i < (prpList l n ioaddrs mem).1 := List.mem_range.mp hi
  omega

/-- The pages that are left fit into the list. -/
theorem chainAt_fits (hfit : nPages - off ≤ l.pageSize / 8) (hoff : off ≤ nPages) :
    chainAt nPages ioaddrs off l ls mem =
      (nPages, (prpList l (nPages - off) (fun i => ioaddrs (off + i)) mem).2) := by
  rw [chainAt]
  simp only [prpList_count_fits hfit, Nat.add_sub_of_le hoff]
  cases ls with
  | nil => rfl
  | cons l' ls' => exact if_neg (Nat.lt_irrefl nPages)

/-- They do not, and there is no next list. -/
theorem chainAt_last (hfit : l.pageSize / 8 < nPages - off) :
    chainAt nPages ioaddrs off l [] mem =
      (off + (l.pageSize / 8 - 1),
        (prpList l (nPages - off) (fun i => ioaddrs (off + i)) mem).2) := by
  rw [chainAt]
  simp only [prpList_count_more hfit]
  rfl

/-- They do not, and there is a next list. -/
theorem chainAt_next {l' : PrpList} (hfit : l.pageSize / 8 < nPages - off) :
    chainAt nPages ioaddrs off l (l' :: ls) mem =
      chainAt nPages ioaddrs (off + (l.pageSize / 8 - 1)) l' ls
        (Function.update (prpList l (nPages - off) (fun i => ioaddrs (off + i)) mem).2
          (l.vaddr + 8 * (l.pageSize / 8 - 1)) l'.ioaddr) := by
  rw [chainAt]
  simp only [prpList_count_more hfit]
  exact if_pos (by omega)

/-- The entries of the lists that are left. -/
def room (mps : Nat) (ls : List PrpList) : Nat := (ls.length + 1) * (mps / 8 - 1)

theorem room_cons (l' : PrpList) : room mps (l' :: ls) = room mps ls + (mps / 8 - 1) :=
  Nat.succ_mul _ _

theorem room_nil : room mps [] = mps / 8 - 1 := Nat.one_mul _

theorem Chained.vaddr_apart (h : Chained mps (l :: ls)) {a : Nat} (ha : l.vaddr ≤ a)
    (ha' : a < l.vaddr + mps) : ∀ x ∈ ls, a < x.vaddr ∨ x.vaddr + mps ≤ a := by
  intro x hx
  have hapart := List.rel_of_pairwise_cons h.apart hx
  omega

theorem entriesLeft_aligned (h : Chained mps (l :: ls)) :
    entriesLeft mps l.ioaddr = mps / 8 := by
  rw [entriesLeft, Nat.mod_eq_zero_of_dvd (h.aligned l List.mem_cons_self), Nat.sub_zero]

/-- The list has all pages that are left. -/
theorem chainAt_spec_fits (h : Chained mps (l :: ls)) (hoff : off < nPages)
    (hfit : nPages - off ≤ mps / 8) :
    KeepsRest mps mem (chainAt nPages ioaddrs off l ls mem).2 (l :: ls) ∧
    (chainAt nPages ioaddrs off l ls mem).1 = nPages ∧
    ∀ busMem, Seen mps (chainAt nPages ioaddrs off l ls mem).2 busMem (l :: ls) →
      ∀ fuel, nPages - off ≤ fuel → prpWalk mps busMem fuel l.ioaddr (nPages - off) =
        (List.range (nPages - off)).map fun j => ioaddrs (off + j) := by
  have hsize := h.pageSize l List.mem_cons_self
  rw [chainAt_fits (hsize.symm ▸ hfit) (Nat.le_of_lt hoff)]
  refine ⟨fun a ha => prpList_other (hsize.symm ▸ ha l List.mem_cons_self), rfl, ?_⟩
  intro busMem hseen fuel hfuel
  obtain ⟨fuel, rfl⟩ := Nat.exists_eq_succ_of_ne_zero (show fuel ≠ 0 by omega)
  rw [prpWalk, entriesLeft_aligned h, if_pos hfit]
  apply List.map_congr_left
  intro j hj
  have hj' := List.mem_range.mp hj
  rw [hseen l List.mem_cons_self j (by omega)]
  apply prpList_word
  rwa [prpList_count_fits (hsize.symm ▸ hfit)]

/-- What the lists from one on have after they are filled: by induction on the lists after it,
    with the entry that links to the next one written before that is filled. -/
theorem chainAt_spec (hmps : 16 ≤ mps) (h : Chained mps (l :: ls)) (hoff : off < nPages) :
    KeepsRest mps mem (chainAt nPages ioaddrs off l ls mem).2 (l :: ls) ∧
    (chainAt nPages ioaddrs off l ls mem).1 =
      (if nPages - off ≤ room mps ls + 1 then nPages else off + room mps ls) ∧
    (nPages - off ≤ room mps ls + 1 → ∀ busMem,
      Seen mps (chainAt nPages ioaddrs off l ls mem).2 busMem (l :: ls) →
      ∀ fuel, nPages - off ≤ fuel → prpWalk mps busMem fuel l.ioaddr (nPages - off) =
        (List.range (nPages - off)).map fun j => ioaddrs (off + j)) := by
  induction ls generalizing l off mem with
  | nil =>
    by_cases hfit : nPages - off ≤ mps / 8
    · obtain ⟨hrest, hcount, hwalk⟩ := chainAt_spec_fits h hoff hfit
      rw [room_nil, if_pos (by omega)]
      exact ⟨hrest, hcount, fun _ => hwalk⟩
    · have hsize := h.pageSize l List.mem_cons_self
      rw [chainAt_last (by omega), hsize, room_nil, if_neg (by omega)]
      exact ⟨fun a ha => prpList_other (hsize.symm ▸ ha l List.mem_cons_self), rfl,
        fun hle => absurd hle (by omega)⟩
  | cons l' ls ih =>
    have hroom : room mps (l' :: ls) = room mps ls + (mps / 8 - 1) := room_cons l'
    by_cases hfit : nPages - off ≤ mps / 8
    · obtain ⟨hrest, hcount, hwalk⟩ := chainAt_spec_fits h hoff hfit
      rw [if_pos (by omega)]
      exact ⟨hrest, hcount, fun _ => hwalk⟩
    · have hsize := h.pageSize l List.mem_cons_self
      have hmore : l.pageSize / 8 < nPages - off := by omega
      rw [chainAt_next hmore, hsize]
      set mem1 := (prpList l (nPages - off) (fun i => ioaddrs (off + i)) mem).2 with hmem1
      set mem2 := Function.update mem1 (l.vaddr + 8 * (mps / 8 - 1)) l'.ioaddr with hmem2
      obtain ⟨hrest, hcount, hwalk⟩ := @ih (off + (mps / 8 - 1)) mem2 l' h.tail (by omega)
      have hleft : nPages - (off + (mps / 8 - 1)) = nPages - off - (mps / 8 - 1) := by omega
      rw [hleft] at hcount hwalk
      refine ⟨?_, ?_, ?_⟩
      · intro a ha
        have hl := ha l List.mem_cons_self
        rw [hrest a fun x hx => ha x (List.mem_cons_of_mem l hx), hmem2,
          Function.update_of_ne (by omega)]
        exact prpList_other (hsize.symm ▸ hl)
      · rw [hcount, hroom]
        split <;> split <;> omega
      · intro hle busMem hseen fuel hfuel
        -- the next lists do not touch the words of this one
        have hword : ∀ j < mps / 8, busMem (l.ioaddr + 8 * j) = mem2 (l.vaddr + 8 * j) := by
          intro j hj
          rw [hseen l List.mem_cons_self j hj]
          exact hrest _ (h.vaddr_apart (by omega) (by omega))
        have hlink : busMem (l.ioaddr + 8 * (mps / 8 - 1)) = l'.ioaddr := by
          rw [hword _ (by omega), hmem2, Function.update_self]
        have hentry : ∀ j < mps / 8 - 1, busMem (l.ioaddr + 8 * j) = ioaddrs (off + j) := by
          intro j hj
          rw [hword j (by omega), hmem2, Function.update_of_ne (by omega), hmem1]
          apply prpList_word
          rwa [prpList_count_more hmore, hsize]
        obtain ⟨fuel, rfl⟩ := Nat.exists_eq_succ_of_ne_zero (show fuel ≠ 0 by omega)
        rw [prpWalk, entriesLeft_aligned h, if_neg hfit, hlink,
          hwalk (by omega) busMem (fun x hx => hseen x (List.mem_cons_of_mem l hx)) fuel (by omega)]
        have hsplit : nPages - off = (mps / 8 - 1) + (nPages - off - (mps / 8 - 1)) := by omega
        conv_rhs => rw [hsplit, List.range_add, List.map_append, List.map_map]
        congr 1
        · exact List.map_congr_left fun j hj => hentry j (List.mem_range.mp hj)
        · exact List.map_congr_left fun j _ => congrArg ioaddrs (Nat.add_assoc _ _ _)

theorem prpListChain_eq (n : Nat) :
    prpListChain (l :: ls) n ioaddrs mem = chainAt n ioaddrs 0 l ls mem := by
  simp only [prpListChain, chainAt, Nat.zero_add, Nat.sub_zero]

theorem cmdData_lists (cmd : NvmCmd) (h : 2 < nPages) :
    cmdData cmd (l :: ls) nPages ioaddrs mem =
      (1 + (chainAt (nPages - 1) (fun i => ioaddrs (1 + i)) 0 l ls mem).1,
        cmdDataPtr cmd (ioaddrs 0) l.ioaddr,
        (chainAt (nPages - 1) (fun i => ioaddrs (1 + i)) 0 l ls mem).2) := by
  rw [← prpListChain_eq]
  unfold cmdData
  rw [if_neg (by omega), decide_eq_true h]

theorem cmdData_plain (cmd : NvmCmd) {lists : List PrpList} (hn : 0 < nPages)
    (h : nPages ≤ 2 ∨ lists = []) :
    cmdData cmd lists nPages ioaddrs mem =
      (min 2 nPages, cmdDataPtr cmd (ioaddrs 0) (if 2 ≤ nPages then ioaddrs 1 else 0), mem) := by
  have hif : cmdData cmd lists nPages ioaddrs mem =
      if nPages ≥ 2 then (2, cmdDataPtr cmd (ioaddrs 0) (ioaddrs 1), mem)
      else (1, cmdDataPtr cmd (ioaddrs 0) 0, mem) := by
    unfold cmdData
    rw [if_neg (by omega)]
    rcases h with hle | rfl
    · rw [decide_eq_false (by omega)]
      cases lists <;> rfl
    · rfl
  rw [hif]
  by_cases h2 : 2 ≤ nPages
  · rw [if_pos h2, if_pos h2, Nat.min_eq_left h2]
  · rw [if_neg h2, if_neg h2, show nPages = 1 by omega]
    rfl

/-- Up to two pages need no list. -/
theorem dataPages_two {busMem : Nat → Nat} (hpos : 0 < mps) (h : mps ∣ ioaddrs 0)
    (hle : nPages ≤ 2) (hn : 0 < nPages) (prp2 : Nat) (hprp2 : nPages = 2 → prp2 = ioaddrs 1) :
    dataPages mps busMem (ioaddrs 0) prp2 (nPages * mps) = (List.range nPages).map ioaddrs := by
  rw [dataPages_aligned hpos h]
  by_cases h1 : nPages ≤ 1
  · obtain rfl : nPages = 1 := by omega
    rfl
  · obtain rfl : nPages = 2 := by omega
    rw [hprp2 rfl]
    rfl

/-- `nvm_cmd_data` uses as many pages as its lists have room for; when that is all of them, a
    controller finds them in their order. -/
theorem cmdData_walk (hmps : 16 ≤ mps) {lists : List PrpList} (h : Chained mps lists)
    (cmd : NvmCmd) (hn : 0 < nPages) (haligned : mps ∣ ioaddrs 0)
    (hlt : ∀ i < nPages, ioaddrs i < 18446744073709551616) :
    KeepsRest mps mem (cmdData cmd lists nPages ioaddrs mem).2.2 lists ∧
    (cmdData cmd lists nPages ioaddrs mem).1 =
      (if nPages ≤ lists.length * (mps / 8 - 1) + 2 then nPages
        else max 2 (lists.length * (mps / 8 - 1) + 1)) ∧
    (nPages ≤ lists.length * (mps / 8 - 1) + 2 → ∀ busMem,
      Seen mps (cmdData cmd lists nPages ioaddrs mem).2.2 busMem lists →
      dataPages mps busMem (dptr1 (cmdData cmd lists nPages ioaddrs mem).2.1)
          (dptr2 (cmdData cmd lists nPages ioaddrs mem).2.1) (nPages * mps) =
        (List.range nPages).map ioaddrs) := by
  have hpos : 0 < mps := by omega
  have h0 := hlt 0 hn
  by_cases hlist : 2 < nPages ∧ lists ≠ []
  · obtain ⟨l, ls, rfl⟩ := List.exists_cons_of_ne_nil hlist.2
    obtain ⟨hrest, hcount, hwalk⟩ := @chainAt_spec mps (nPages - 1) 0
      (fun i => ioaddrs (1 + i)) mem l ls hmps h (by omega)
    have hroom : room mps ls = (l :: ls).length * (mps / 8 - 1) := rfl
    have hone : mps / 8 - 1 ≤ room mps ls := Nat.le_mul_of_pos_left _ (Nat.succ_pos _)
    rw [cmdData_lists cmd hlist.1, ← hroom]
    refine ⟨hrest, ?_, ?_⟩
    · show 1 + _ = _
      rw [hcount]
      split <;> split <;> omega
    · intro hle busMem hseen
      rw [dptr1_cmdDataPtr h0, dptr2_cmdDataPtr (h.lt l List.mem_cons_self),
        dataPages_aligned hpos haligned, if_neg (by omega), if_neg (by omega)]
      have hw := hwalk (by omega) busMem hseen nPages (by omega)
      rw [Nat.sub_zero] at hw
      have hsplit : nPages = 1 + (nPages - 1) := by omega
      rw [hw]
      conv_rhs => rw [hsplit, List.range_add, List.map_append, List.map_map]
      refine congrArg (ioaddrs 0 :: ·) (List.map_congr_left fun j _ => ?_)
      exact congrArg (fun k => ioaddrs (1 + k)) (Nat.zero_add j)
  · have hsmall : nPages ≤ 2 ∨ lists = [] := by
      by_contra hcon
      rw [not_or] at hcon
      exact hlist ⟨Nat.lt_of_not_le hcon.1, hcon.2⟩
    rw [cmdData_plain cmd hn hsmall]
    refine ⟨fun a _ => rfl, ?_, ?_⟩
    · rcases hsmall with hle | rfl
      · rw [if_pos (Nat.le_trans hle (Nat.le_add_left _ _))]
        exact Nat.min_eq_right hle
      · rw [List.length_nil, Nat.zero_mul]
        show min 2 nPages = _
        split <;> omega
    · intro hle busMem _
      have hle2 : nPages ≤ 2 := by
        rcases hsmall with hle2 | rfl
        · exact hle2
        · rwa [List.length_nil, Nat.zero_mul] at hle
      have hprp2 : (if 2 ≤ nPages then ioaddrs 1 else 0) < 18446744073709551616 := by
        split
        · exact hlt 1 (by omega)
        · decide
      rw [dptr1_cmdDataPtr h0, dptr2_cmdDataPtr hprp2]
      exact dataPages_two hpos haligned hle2 hn _ fun heq2 => if_pos (Nat.le_of_eq heq2.symm)

end Chain

/-- Three lists of two entries, which the controller sees from `1024` on. -/
def threeLists : List PrpList := [⟨32, 16, 1056⟩, ⟨0, 16, 1024⟩, ⟨16, 16, 1040⟩]

theorem threeLists_chained : Chained 16 threeLists where
  pageSize := by decide
  aligned := by decide
  lt := by decide
  apart := by decide

theorem threeLists_seen (mem : Nat → Nat) :
    Seen 16 mem (fun addr => mem (addr - 1024)) threeLists := by
  intro l hl j _
  have hshift : l.ioaddr = l.vaddr + 1024 := by
    revert l
    decide
  show mem (l.ioaddr + 8 * j - 1024) = _
  rw [hshift, Nat.add_right_comm, Nat.add_sub_cancel]

/-- The command and the memory for five pages. -/
def fivePages : Nat × NvmCmd × (Nat → Nat) :=
  cmdData (fun _ => 0) threeLists 5 (fun i => 4096 + 16 * i) (fun _ => 0)

theorem fivePages_walk : fivePages.1 = 5 ∧
    dataPages 16 (fun addr => fivePages.2.2 (addr - 1024)) (dptr1 fivePages.2.1)
      (dptr2 fivePages.2.1) 80 = [4096, 4112, 4128, 4144, 4160] := by
  obtain ⟨-, hcount, hwalk⟩ := @cmdData_walk 16 5 (fun i => 4096 + 16 * i) (fun _ => 0)
    (by decide) threeLists threeLists_chained (fun _ => 0) (by decide) (by decide) (by omega)
  exact ⟨hcount, hwalk (by decide) _ (threeLists_seen _)⟩

end GidsStack.Addressing
