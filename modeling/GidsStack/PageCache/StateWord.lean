/-
  GidsStack.PageCache.StateWord

  The 32-bit `state` word of a page (page_cache.h): VALID, BUSY and DIRTY in
  the top three bits, the reference count CNT below them, and what the atomic
  operations of the page cache do to each of the four.
-/

import Mathlib.Data.Nat.Bitwise

namespace GidsStack.PageCache

/-- The word of a `simt::atomic<uint32_t>`. -/
abbrev Word := BitVec 32

namespace Word

def VALID : Word := 0x80000000#32
def BUSY : Word := 0x40000000#32
def DIRTY : Word := 0x20000000#32
def cntMask : Word := 0x1fffffff#32
def disableBusyEnableValid : Word := 0xc0000000#32
def disableBusyMask : Word := 0xbfffffff#32

/-- The first value the CNT field does not hold. -/
def cntLimit : Nat := 2 ^ 29

/-- The four cases the acquire loops switch on. -/
inductive St
  | nvNb
  | nvB
  | vNb
  | vB
  deriving DecidableEq, Repr

/-- `(read_state >> (CNT_SHIFT + 1)) & 0x03`. -/
def st (w : Word) : St :=
  match ((w >>> 30) &&& 3#32).toNat with
  | 0 => .nvNb
  | 1 => .nvB
  | 2 => .vNb
  | _ => .vB

def isValid (w : Word) : Bool := w &&& VALID != 0#32
def isBusy (w : Word) : Bool := w &&& BUSY != 0#32
def isDirty (w : Word) : Bool := w &&& DIRTY != 0#32
def cnt (w : Word) : Nat := (w &&& cntMask).toNat

/-! ## The fields as bits -/

theorem isValid_eq (w : Word) : isValid w = w.getLsbD 31 := by
  have h : w &&& VALID = if w.getLsbD 31 then BitVec.twoPow 32 31 else 0#32 :=
    BitVec.and_twoPow w 31
  rw [isValid, h]
  cases w.getLsbD 31 <;> decide

theorem isBusy_eq (w : Word) : isBusy w = w.getLsbD 30 := by
  have h : w &&& BUSY = if w.getLsbD 30 then BitVec.twoPow 32 30 else 0#32 :=
    BitVec.and_twoPow w 30
  rw [isBusy, h]
  cases w.getLsbD 30 <;> decide

theorem isDirty_eq (w : Word) : isDirty w = w.getLsbD 29 := by
  have h : w &&& DIRTY = if w.getLsbD 29 then BitVec.twoPow 32 29 else 0#32 :=
    BitVec.and_twoPow w 29
  rw [isDirty, h]
  cases w.getLsbD 29 <;> decide

theorem cnt_eq (w : Word) : cnt w = w.toNat % cntLimit := by
  rw [cnt, BitVec.toNat_and]
  exact Nat.and_two_pow_sub_one_eq_mod w.toNat 29

theorem isValid_iff (w : Word) : isValid w = true ↔ w.toNat / 2 ^ 31 % 2 = 1 := by
  rw [isValid_eq, BitVec.getLsbD, Nat.testBit_eq_decide_div_mod_eq, decide_eq_true_eq]

theorem isBusy_iff (w : Word) : isBusy w = true ↔ w.toNat / 2 ^ 30 % 2 = 1 := by
  rw [isBusy_eq, BitVec.getLsbD, Nat.testBit_eq_decide_div_mod_eq, decide_eq_true_eq]

theorem isDirty_iff (w : Word) : isDirty w = true ↔ w.toNat / 2 ^ 29 % 2 = 1 := by
  rw [isDirty_eq, BitVec.getLsbD, Nat.testBit_eq_decide_div_mod_eq, decide_eq_true_eq]

/-- The switch of the acquire loops reads VALID and BUSY. -/
theorem st_eq (w : Word) : st w =
    if isValid w then (if isBusy w then .vB else .vNb)
    else (if isBusy w then .nvB else .nvNb) := by
  have hw : ((w >>> 30) &&& 3#32).toNat = w.toNat / 2 ^ 30 % 4 := by
    rw [BitVec.toNat_and, BitVec.toNat_ushiftRight, Nat.shiftRight_eq_div_pow]
    exact Nat.and_two_pow_sub_one_eq_mod _ 2
  have hv : isValid w = decide (w.toNat / 2 ^ 30 / 2 % 2 = 1) := by
    rw [Bool.eq_iff_iff, isValid_iff, decide_eq_true_eq, Nat.div_div_eq_div_mul,
      ← Nat.pow_succ]
  have hb : isBusy w = decide (w.toNat / 2 ^ 30 % 2 = 1) := by
    rw [Bool.eq_iff_iff, isBusy_iff, decide_eq_true_eq]
  rw [st, hw, hv, hb]
  generalize w.toNat / 2 ^ 30 = x
  have hx : x % 4 = 0 ∨ x % 4 = 1 ∨ x % 4 = 2 ∨ x % 4 = 3 := by omega
  rcases hx with h | h | h | h
  · have h2 : x / 2 % 2 = 0 ∧ x % 2 = 0 := by omega
    simp [h, h2]
  · have h2 : x / 2 % 2 = 0 ∧ x % 2 = 1 := by omega
    simp [h, h2]
  · have h2 : x / 2 % 2 = 1 ∧ x % 2 = 0 := by omega
    simp [h, h2]
  · have h2 : x / 2 % 2 = 1 ∧ x % 2 = 1 := by omega
    simp [h, h2]

theorem st_nvNb {w : Word} (h : st w = .nvNb) : isValid w = false ∧ isBusy w = false := by
  rw [st_eq] at h
  split at h <;> split at h <;> simp_all

theorem st_nvB {w : Word} (h : st w = .nvB) : isValid w = false ∧ isBusy w = true := by
  rw [st_eq] at h
  split at h <;> split at h <;> simp_all

theorem st_vNb {w : Word} (h : st w = .vNb) : isValid w = true ∧ isBusy w = false := by
  rw [st_eq] at h
  split at h <;> split at h <;> simp_all

theorem st_eq_vNb {w : Word} (hv : isValid w = true) (hb : isBusy w = false) : st w = .vNb := by
  rw [st_eq, hv, hb]
  rfl

theorem st_eq_vB {w : Word} (hv : isValid w = true) (hb : isBusy w = true) : st w = .vB := by
  rw [st_eq, hv, hb]
  rfl

/-! ## `fetch_or(BUSY)` -/

@[simp] theorem isValid_or_BUSY (w : Word) : isValid (w ||| BUSY) = isValid w := by
  simp [isValid_eq, BUSY]

@[simp] theorem isBusy_or_BUSY (w : Word) : isBusy (w ||| BUSY) = true := by
  simp [isBusy_eq, BUSY]

@[simp] theorem isDirty_or_BUSY (w : Word) : isDirty (w ||| BUSY) = isDirty w := by
  simp [isDirty_eq, BUSY]

@[simp] theorem cnt_or_BUSY (w : Word) : cnt (w ||| BUSY) = cnt w := by
  have h : (w ||| BUSY) &&& cntMask = w &&& cntMask := by
    rw [BitVec.and_or_distrib_right]
    simp [BUSY, cntMask]
  rw [cnt, h, cnt]

/-! ## `fetch_or(DIRTY)` -/

@[simp] theorem isValid_or_DIRTY (w : Word) : isValid (w ||| DIRTY) = isValid w := by
  simp [isValid_eq, DIRTY]

@[simp] theorem isBusy_or_DIRTY (w : Word) : isBusy (w ||| DIRTY) = isBusy w := by
  simp [isBusy_eq, DIRTY]

@[simp] theorem isDirty_or_DIRTY (w : Word) : isDirty (w ||| DIRTY) = true := by
  simp [isDirty_eq, DIRTY]

@[simp] theorem cnt_or_DIRTY (w : Word) : cnt (w ||| DIRTY) = cnt w := by
  have h : (w ||| DIRTY) &&& cntMask = w &&& cntMask := by
    rw [BitVec.and_or_distrib_right]
    simp [DIRTY, cntMask]
  rw [cnt, h, cnt]

/-! ## `fetch_xor(DISABLE_BUSY_ENABLE_VALID)`, the publication -/

@[simp] theorem isValid_xor (w : Word) : isValid (w ^^^ disableBusyEnableValid) = !isValid w := by
  simp [isValid_eq, disableBusyEnableValid]

@[simp] theorem isBusy_xor (w : Word) : isBusy (w ^^^ disableBusyEnableValid) = !isBusy w := by
  simp [isBusy_eq, disableBusyEnableValid]

@[simp] theorem isDirty_xor (w : Word) : isDirty (w ^^^ disableBusyEnableValid) = isDirty w := by
  simp [isDirty_eq, disableBusyEnableValid]

@[simp] theorem cnt_xor (w : Word) : cnt (w ^^^ disableBusyEnableValid) = cnt w := by
  have h : (w ^^^ disableBusyEnableValid) &&& cntMask = w &&& cntMask := by
    have hmask : disableBusyEnableValid &&& cntMask = 0#32 := by decide
    refine BitVec.eq_of_getLsbD_eq fun i _ => ?_
    have hbit := congrArg (BitVec.getLsbD · i) hmask
    simp only [BitVec.getLsbD_and, BitVec.getLsbD_zero] at hbit
    simp only [BitVec.getLsbD_and, BitVec.getLsbD_xor]
    revert hbit
    cases w.getLsbD i <;> cases disableBusyEnableValid.getLsbD i <;>
      cases cntMask.getLsbD i <;> decide
  rw [cnt, h, cnt]

/-! ## `fetch_and(CNT_MASK)`, the eviction, and `fetch_and(DISABLE_BUSY_MASK)` -/

@[simp] theorem isValid_and_cntMask (w : Word) : isValid (w &&& cntMask) = false := by
  simp [isValid_eq, cntMask]

@[simp] theorem isBusy_and_cntMask (w : Word) : isBusy (w &&& cntMask) = false := by
  simp [isBusy_eq, cntMask]

@[simp] theorem isDirty_and_cntMask (w : Word) : isDirty (w &&& cntMask) = false := by
  simp [isDirty_eq, cntMask]

@[simp] theorem cnt_and_cntMask (w : Word) : cnt (w &&& cntMask) = cnt w := by
  rw [cnt, BitVec.and_assoc, BitVec.and_self, cnt]

@[simp] theorem isValid_and_disableBusy (w : Word) :
    isValid (w &&& disableBusyMask) = isValid w := by
  simp [isValid_eq, disableBusyMask]

@[simp] theorem isBusy_and_disableBusy (w : Word) : isBusy (w &&& disableBusyMask) = false := by
  simp [isBusy_eq, disableBusyMask]

@[simp] theorem isDirty_and_disableBusy (w : Word) :
    isDirty (w &&& disableBusyMask) = isDirty w := by
  simp [isDirty_eq, disableBusyMask]

@[simp] theorem cnt_and_disableBusy (w : Word) : cnt (w &&& disableBusyMask) = cnt w := by
  have h : disableBusyMask &&& cntMask = cntMask := by decide
  rw [cnt, BitVec.and_assoc, h, cnt]

/-! ## `fetch_and(~DIRTY)`, the end of a flush -/

@[simp] theorem isValid_and_not_DIRTY (w : Word) : isValid (w &&& ~~~DIRTY) = isValid w := by
  simp [isValid_eq, DIRTY]

@[simp] theorem isBusy_and_not_DIRTY (w : Word) : isBusy (w &&& ~~~DIRTY) = isBusy w := by
  simp [isBusy_eq, DIRTY]

@[simp] theorem isDirty_and_not_DIRTY (w : Word) : isDirty (w &&& ~~~DIRTY) = false := by
  simp [isDirty_eq, DIRTY]

/-! ## `fetch_add` and `fetch_sub` on the count

    The count shares the word with the flags: additions must stay below
    `cntLimit` and subtractions within the count for the flags to survive. -/

section Count

variable {w : Word} {n : Nat}

theorem toNat_add (h : cnt w + n < cntLimit) :
    (w + BitVec.ofNat 32 n).toNat = w.toNat + n := by
  have hw := w.isLt
  rw [cnt_eq, cntLimit] at h
  rw [BitVec.toNat_add, BitVec.toNat_ofNat]
  omega

theorem toNat_sub (h : n ≤ cnt w) : (w - BitVec.ofNat 32 n).toNat = w.toNat - n := by
  have hw := w.isLt
  rw [cnt_eq, cntLimit] at h
  rw [BitVec.toNat_sub, BitVec.toNat_ofNat]
  omega

theorem cnt_add (h : cnt w + n < cntLimit) : cnt (w + BitVec.ofNat 32 n) = cnt w + n := by
  rw [cnt_eq, toNat_add h, cnt_eq]
  rw [cnt_eq] at h
  simp only [cntLimit] at h ⊢
  omega

theorem cnt_sub (h : n ≤ cnt w) : cnt (w - BitVec.ofNat 32 n) = cnt w - n := by
  rw [cnt_eq, toNat_sub h, cnt_eq]
  rw [cnt_eq] at h
  simp only [cntLimit] at h ⊢
  omega

theorem isValid_add (h : cnt w + n < cntLimit) :
    isValid (w + BitVec.ofNat 32 n) = isValid w := by
  rw [Bool.eq_iff_iff, isValid_iff, isValid_iff, toNat_add h]
  rw [cnt_eq, cntLimit] at h
  omega

theorem isBusy_add (h : cnt w + n < cntLimit) : isBusy (w + BitVec.ofNat 32 n) = isBusy w := by
  rw [Bool.eq_iff_iff, isBusy_iff, isBusy_iff, toNat_add h]
  rw [cnt_eq, cntLimit] at h
  omega

theorem isDirty_add (h : cnt w + n < cntLimit) :
    isDirty (w + BitVec.ofNat 32 n) = isDirty w := by
  rw [Bool.eq_iff_iff, isDirty_iff, isDirty_iff, toNat_add h]
  rw [cnt_eq, cntLimit] at h
  omega

theorem isValid_sub (h : n ≤ cnt w) : isValid (w - BitVec.ofNat 32 n) = isValid w := by
  rw [Bool.eq_iff_iff, isValid_iff, isValid_iff, toNat_sub h]
  rw [cnt_eq, cntLimit] at h
  omega

theorem isBusy_sub (h : n ≤ cnt w) : isBusy (w - BitVec.ofNat 32 n) = isBusy w := by
  rw [Bool.eq_iff_iff, isBusy_iff, isBusy_iff, toNat_sub h]
  rw [cnt_eq, cntLimit] at h
  omega

theorem isDirty_sub (h : n ≤ cnt w) : isDirty (w - BitVec.ofNat 32 n) = isDirty w := by
  rw [Bool.eq_iff_iff, isDirty_iff, isDirty_iff, toNat_sub h]
  rw [cnt_eq, cntLimit] at h
  omega

end Count

end Word

end GidsStack.PageCache
