/-
  GidsStack.PageCache.WindowPins

  Window buffering (page_cache.h): `set_window_buffer_counter` records in the low seven bits of
  a page's `prefetch_counter` how often the page is about to be used, an `acquire_page` that
  finds more than one use recorded sets bit 7 and takes one reference more, and the releases
  count the uses down and give that reference back with the last one.

  The counter is loaded and then stored or changed, so the steps of two threads may come in
  between.  The balance of pins and references is kept by the runs in which they never do so
  at the wrong place, and by no others.
-/

import GidsStack.PageCache.Frame
import GidsStack.Lib.Ledger

namespace GidsStack.PageCache

open Function (update)
open Lib (Ledger)
open Lib.PinCache (Ref)

variable {R : Nat} {A V : Type*}

/-! ## The byte of a page -/

theorem byteCount_eq (w : BitVec 8) : byteCount w = w.toNat % 128 := by
  rw [byteCount, BitVec.toNat_and]
  exact Nat.and_two_pow_sub_one_eq_mod w.toNat 7

theorem shift_eq (w : BitVec 8) : (w >>> 7).toNat = w.toNat / 128 := by
  rw [BitVec.toNat_ushiftRight, Nat.shiftRight_eq_div_pow]

theorem byteStarted_iff (w : BitVec 8) : byteStarted w = true ↔ 128 ≤ w.toNat := by
  have hw := w.isLt
  have hs := shift_eq w
  rw [byteStarted, beq_iff_eq, ← BitVec.toNat_inj, hs, show (1#8).toNat = 1 from rfl]
  omega

/-- What is recorded of a byte and whether bit 7 of it is set make up its value. -/
theorem byte_toNat (w : BitVec 8) : w.toNat = byteCount w + 128 * (byteStarted w).toNat := by
  have hw := w.isLt
  have hc := byteCount_eq w
  cases hs : byteStarted w with
  | true =>
    have hle := (byteStarted_iff w).mp hs
    rw [Bool.toNat_true]
    omega
  | false =>
    have hlt : ¬ 128 ≤ w.toNat := fun h => by
      rw [(byteStarted_iff w).mpr h] at hs
      cases hs
    rw [Bool.toNat_false]
    omega

/-- The two parts of a byte whose value is known. -/
theorem byte_parts {w : BitVec 8} {n : Nat} {b : Bool} (hn : n < 128)
    (h : w.toNat = n + 128 * b.toNat) : byteCount w = n ∧ byteStarted w = b := by
  have hw := byte_toNat w
  have hlt : byteCount w < 128 := by
    rw [byteCount_eq]
    omega
  cases b <;> cases hs : byteStarted w <;> rw [hs] at hw <;>
    simp only [Bool.toNat_true, Bool.toNat_false] at h hw <;> (try omega) <;>
    exact ⟨by omega, rfl⟩

theorem byteCount_lt (w : BitVec 8) : byteCount w < 128 := by
  rw [byteCount_eq]
  omega

theorem windowPlanned_iff (w : BitVec 8) :
    windowPlanned w = true ↔ 1 < byteCount w ∧ byteStarted w = false := by
  have hw := byte_toNat w
  have hs := shift_eq w
  have hlt := byteCount_lt w
  rw [windowPlanned, Bool.and_eq_true, decide_eq_true_eq, beq_iff_eq, ← BitVec.toNat_inj, hs,
    show (0#8).toNat = 0 from rfl]
  cases hb : byteStarted w <;> rw [hb] at hw <;>
    simp only [Bool.toNat_true, Bool.toNat_false] at hw
  · simp only [and_true]
    omega
  · simp only [Bool.true_eq_false, and_false, iff_false]
    omega

/-- Setting bit 7. -/
theorem byte_start {w : BitVec 8} (h : byteStarted w = false) :
    byteCount (w ||| 0x80#8) = byteCount w ∧ byteStarted (w ||| 0x80#8) = true := by
  have hw := byte_toNat w
  have hlt := byteCount_lt w
  rw [h, Bool.toNat_false] at hw
  apply byte_parts hlt
  have hor : w ||| 0x80#8 = w + 0x80#8 := by
    rw [BitVec.add_eq_or_of_and_eq_zero]
    apply BitVec.eq_of_toNat_eq
    rw [BitVec.toNat_and, show (0x80#8).toNat = 2 ^ 7 from rfl, Nat.and_two_pow,
      Nat.testBit_eq_decide_div_mod_eq, show w.toNat / 2 ^ 7 % 2 = 0 by omega]
    rfl
  rw [hor, BitVec.toNat_add, show (0x80#8).toNat = 128 from rfl, Bool.toNat_true]
  omega

/-- Recording uses for which there is room. -/
theorem byte_add {w : BitVec 8} {n : Nat} (h : byteCount w + n < 128) :
    byteCount (w + BitVec.ofNat 8 n) = byteCount w + n ∧
      byteStarted (w + BitVec.ofNat 8 n) = byteStarted w := by
  have hw := byte_toNat w
  have hlt := w.isLt
  apply byte_parts h
  rw [BitVec.toNat_add, BitVec.toNat_ofNat]
  omega

/-- Counting down a use that is recorded. -/
theorem byte_sub {w : BitVec 8} (h : 0 < byteCount w) :
    byteCount (w - 1#8) = byteCount w - 1 ∧ byteStarted (w - 1#8) = byteStarted w := by
  have hw := byte_toNat w
  have hlt := byteCount_lt w
  apply byte_parts (by omega)
  rw [BitVec.toNat_sub, show (1#8).toNat = 1 from rfl]
  omega

/-- Counting down a use that is not. -/
theorem byteCount_wrap {w : BitVec 8} (h : byteCount w = 0) : byteCount (w - 1#8) = 127 := by
  have hw := byte_toNat w
  have hlt := w.isLt
  rw [byteCount_eq, BitVec.toNat_sub, show (1#8).toNat = 1 from rfl]
  omega

/-! ## The machine of the three operations

    A state of the cache with, for every page, the uses that were recorded and that no release
    has counted down yet; no code reads these. -/

structure WindowSt (R : Nat) (A V : Type*) where
  cache : St R A V
  uses : PageId R → Nat

/-- `set_window_buffer_counter`, and what threads do in `acquire_page` and `release_page`. -/
inductive WindowAct (R : Nat) (A : Type*)
  | setWindowBufferCounter (p : PageId R) (count : Nat)
  | acquire (a : A) (c : Call R)
  | release (a : A) (m : Nat)
  | run (a : A)
  | spurious (a : A)

/-- What an action is for the cache; the first is a `fetch_add`. -/
def WindowAct.act (s : St R A V) : WindowAct R A → Act R A V
  | .setWindowBufferCounter p count =>
    .setWindow p ((s.pages p).prefetchCounter + BitVec.ofNat 8 count)
  | .acquire a c => .acquire a c
  | .release a m => .release a m
  | .run a => .run a
  | .spurious a => .spurious a

/-- What the next step of a thread does to the pins of page `p`: setting bit 7 of the byte it
    has loaded, raising the count, clearing the byte, counting down a use, lowering the count. -/
inductive PinStep
  | none
  | pin (w : BitVec 8)
  | add (n : Nat)
  | unpin
  | use
  | sub (n : Nat)

def pinStep (p : PageId R) : Pc R → PinStep
  | .acquire c (.prologue (.storeWindow w)) => if c.page = p then .pin w else .none
  | .acquire c (.fetchAdd pin) => if c.page = p then .add (c.count + pin.toNat) else .none
  | .release c _ _ _ _ .storeWindow => if c.page = p then .unpin else .none
  | .release c _ _ _ _ (.subWindow _) => if c.page = p then .use else .none
  | .release c _ _ m _ (.subState tc) => if c.page = p then .sub (m + tc.toNat) else .none
  | _ => .none

/-- A release that counts a use down or clears the byte consumes one of those recorded. -/
def PinStep.usesAfter (n : Nat) : PinStep → Nat
  | .unpin | .use => n - 1
  | _ => n

def WindowAct.usesAfter (s : WindowSt R A V) (q : PageId R) : WindowAct R A → Nat
  | .setWindowBufferCounter p count => if p = q then s.uses q + count else s.uses q
  | .run a => (pinStep q (s.cache.pc a)).usesAfter (s.uses q)
  | _ => s.uses q

def WindowSt.step [NeZero R] [DecidableEq A] (cfg : Config R) (s : WindowSt R A V)
    (act : WindowAct R A) : Option (WindowSt R A V) :=
  (PageCache.step cfg s.cache (act.act s.cache)).map fun t => ⟨t, fun q => act.usesAfter s q⟩

structure WindowSt.Init (s : WindowSt R A V) : Prop where
  cache : PageCache.Init s.cache
  uses : ∀ p, s.uses p = 0

/-! ## The balance of pins and references -/

/-- The page a thread is acquiring, holding or releasing. -/
def Pc.onPage : Pc R → Option (PageId R)
  | .idle => none
  | .acquire c _ | .submit c _ _ | .submitted c _ | .wait c _ _ _ | .mark c _ | .holding c _ _
  | .release c _ _ _ _ _ => some c.page

/-- The references of threads, and the extra reference of bit 7: a thread that has set the bit
    owes it until it has raised the count, and one that has cleared the bit has it left until
    it has lowered the count. -/
def pinLedger : Ledger (Pc R) (PageId R) where
  page := Pc.onPage
  held k := match k.ref with
    | some r => r.count
    | none => 0
  owed
    | .acquire _ (.fetchAdd pin) => pin.toNat
    | _ => 0
  left
    | .release _ _ _ _ _ (.subState tc) => tc.toNat
    | _ => 0

/-- The uses recorded are those in the low bits of the counter, and CNT is the references held
    and one more while bit 7 is set, up to the threads that have changed the bit and not yet
    the count. -/
structure WindowSt.Kept [Fintype A] (s : WindowSt R A V) (p : PageId R) : Prop where
  uses : byteCount (s.cache.pages p).prefetchCounter = s.uses p
  pins : (s.cache.pages p).state.cnt + pinLedger.total pinLedger.owed s.cache.pc p =
    (byteStarted (s.cache.pages p).prefetchCounter).toNat +
      pinLedger.total pinLedger.held s.cache.pc p + pinLedger.total pinLedger.left s.cache.pc p

/-- Where nobody is between the bit and the count, CNT is what the references and the bit
    make it. -/
theorem WindowSt.Kept.settled [Fintype A] {s : WindowSt R A V} {p : PageId R} (h : s.Kept p)
    (ho : ∀ a, pinLedger.on pinLedger.owed p (s.cache.pc a) = 0)
    (hl : ∀ a, pinLedger.on pinLedger.left p (s.cache.pc a) = 0) :
    (s.cache.pages p).state.cnt = pinLedger.total pinLedger.held s.cache.pc p +
      (byteStarted (s.cache.pages p).prefetchCounter).toNat := by
  have h1 : pinLedger.total pinLedger.owed s.cache.pc p = 0 :=
    Finset.sum_eq_zero fun a _ => ho a
  have h2 : pinLedger.total pinLedger.left s.cache.pc p = 0 :=
    Finset.sum_eq_zero fun a _ => hl a
  have hp := h.pins
  omega

/-- What the balance rests on: a thread finds the byte as it loaded it when it sets bit 7, finds
    the bit set and at most one use recorded when it clears the byte, and a use recorded when
    it counts one down; the count has room when it is raised, and is there when it is
    lowered. -/
def PinStep.Ok (d : DataPage) : PinStep → Prop
  | .none => True
  | .pin w => d.prefetchCounter = w
  | .add n => d.state.cnt + n < Word.cntLimit
  | .unpin => byteStarted d.prefetchCounter = true ∧ byteCount d.prefetchCounter ≤ 1
  | .use => 0 < byteCount d.prefetchCounter
  | .sub n => n ≤ d.state.cnt

instance (d : DataPage) : (st : PinStep) → Decidable (st.Ok d)
  | .none => inferInstanceAs (Decidable True)
  | .pin w => inferInstanceAs (Decidable (d.prefetchCounter = w))
  | .add n => inferInstanceAs (Decidable (d.state.cnt + n < Word.cntLimit))
  | .unpin => inferInstanceAs (Decidable (_ ∧ byteCount d.prefetchCounter ≤ 1))
  | .use => inferInstanceAs (Decidable (0 < byteCount d.prefetchCounter))
  | .sub n => inferInstanceAs (Decidable (n ≤ d.state.cnt))

/-- The uses recorded stay below 128 as well. -/
def WindowAct.Ok (p : PageId R) (s : WindowSt R A V) : WindowAct R A → Prop
  | .setWindowBufferCounter q count =>
    q = p → byteCount (s.cache.pages p).prefetchCounter + count < 128
  | .run a => (pinStep p (s.cache.pc a)).Ok (s.cache.pages p)
  | _ => True

instance (p : PageId R) (s : WindowSt R A V) : (act : WindowAct R A) → Decidable (act.Ok p s)
  | .setWindowBufferCounter q _ => inferInstanceAs (Decidable (q = p → _ < 128))
  | .run a => inferInstanceAs (Decidable ((pinStep p (s.cache.pc a)).Ok (s.cache.pages p)))
  | .acquire _ _ => inferInstanceAs (Decidable True)
  | .release _ _ => inferInstanceAs (Decidable True)
  | .spurious _ => inferInstanceAs (Decidable True)

/-! ## What one step does to a page

    Without prefetches planned, `prefetch_count` stays 0 and the branches that change it are
    never entered. -/

/-- Where a thread can stand while no prefetch is planned, with the byte it has loaded. -/
def Unplanned : Pc R → Prop
  | .acquire _ (.prologue (.storePrefetch _)) => False
  | .acquire _ (.prologue (.loadWindow pin)) => pin = false
  | .acquire _ (.prologue (.storeWindow w)) => windowPlanned w = true
  | .release _ _ _ _ _ .storePrefetch | .release _ _ _ _ _ .subPrefetch => False
  | .release _ _ _ _ _ (.loadWindow tc) | .release _ _ _ _ _ (.subWindow tc) => tc = false
  | .submit _ _ _ | .submitted _ _ | .wait _ _ _ _ => False
  | _ => True

def PinStep.cntAfter (w : Word) : PinStep → Nat
  | .add n => (w + BitVec.ofNat 32 n).cnt
  | .sub n => (w - BitVec.ofNat 32 n).cnt
  | _ => w.cnt

def PinStep.counterAfter (w : BitVec 8) : PinStep → BitVec 8
  | .pin v => v ||| 0x80#8
  | .unpin => 0#8
  | .use => w - 1#8
  | _ => w

/-- By how much a step raises what is held and left over, or pays what is owed. -/
def PinStep.raises : PinStep → Nat
  | .add n => n
  | .unpin => 1
  | _ => 0

/-- By how much a step lowers what is held and left over, or raises what is owed. -/
def PinStep.lowers : PinStep → Nat
  | .pin _ => 1
  | .sub n => n
  | _ => 0

/-- A step of a thread from `k` to `k'` that takes page `p` from `d` to `d'`. -/
structure Moves (p : PageId R) (d : DataPage) (k : Pc R) (d' : DataPage) (k' : Pc R) : Prop where
  cnt : d'.state.cnt = (pinStep p k).cntAfter d.state
  counter : d'.prefetchCounter = (pinStep p k).counterAfter d.prefetchCounter
  own : pinLedger.on pinLedger.held p k' + pinLedger.on pinLedger.left p k' +
      pinLedger.on pinLedger.owed p k + (pinStep p k).lowers =
    pinLedger.on pinLedger.held p k + pinLedger.on pinLedger.left p k +
      pinLedger.on pinLedger.owed p k' + (pinStep p k).raises

/-- The amounts of a thread that owes nothing and has nothing left over. -/
theorem on_zero (f : Pc R → Nat) (p : PageId R) {k : Pc R} (h : f k = 0) :
    pinLedger.on f p k = 0 := by
  rw [Ledger.on, h, ite_self]

/-- The references of a thread on the page of its call. -/
theorem on_page (f : Pc R → Nat) (p : PageId R) {k : Pc R} {q : PageId R}
    (h : k.onPage = some q) : pinLedger.on f p k = if q = p then f k else 0 := by
  rw [Ledger.on, show pinLedger.page k = some q from h]
  simp only [Option.some.injEq]

/-- A step that no page's pins take part in. -/
theorem Moves.quiet {p q : PageId R} {d d' : DataPage} {k k' : Pc R}
    (hnone : pinStep p k = .none) (hcnt : d'.state.cnt = d.state.cnt)
    (hcounter : d'.prefetchCounter = d.prefetchCounter)
    (hk : k.onPage = some q) (hk' : k'.onPage = some q)
    (hheld : pinLedger.held k' = pinLedger.held k) (howed : pinLedger.owed k' = pinLedger.owed k)
    (hleft : pinLedger.left k' = pinLedger.left k) : Moves p d k d' k' where
  cnt := by rw [hnone, hcnt]; rfl
  counter := by rw [hnone, hcounter]; rfl
  own := by
    rw [hnone]
    simp only [on_page _ p hk, on_page _ p hk', hheld, howed, hleft]
    rfl

/-- Where an acquire stands that has raised the count. -/
def AcquirePc.Raised : AcquirePc R → Prop
  | .prologue _ | .fetchAdd _ => False
  | _ => True

/-- A thread that holds the references of a call. -/
def Holds (c : Call R) (k : Pc R) : Prop :=
  (∃ k', k = .acquire c k' ∧ k'.Raised) ∨ (∃ i, k = .mark c i) ∨ ∃ i marked, k = .holding c i marked

theorem raised_dispatch (c : Call R) (w : Word) : (acquireDispatch c w).Raised := by
  rw [acquireDispatch]
  cases w.st with
  | vNb =>
    show (if c.write && !w.isDirty then AcquirePc.markDirty else .loadOffset).Raised
    split <;> trivial
  | _ => trivial

theorem holds_acquired (c : Call R) (i : Nat) : Holds c (acquired c i) := by
  rw [acquired]
  split
  · exact .inr (.inl ⟨i, rfl⟩)
  · exact .inr (.inr ⟨i, false, rfl⟩)

section Holds

variable {c : Call R} {k : Pc R} (h : Holds c k)
include h

theorem Holds.onPage : k.onPage = some c.page := by
  obtain ⟨k', rfl, -⟩ | ⟨i, rfl⟩ | ⟨i, marked, rfl⟩ := h <;> rfl

theorem Holds.pinStep (p : PageId R) : pinStep p k = .none := by
  obtain ⟨k', rfl, hk⟩ | ⟨i, rfl⟩ | ⟨i, marked, rfl⟩ := h
  · cases k' <;> first | rfl | exact hk.elim
  · rfl
  · rfl

theorem Holds.unplanned : Unplanned k := by
  obtain ⟨k', rfl, hk⟩ | ⟨i, rfl⟩ | ⟨i, marked, rfl⟩ := h
  · cases k' <;> trivial
  · trivial
  · trivial

theorem Holds.held : pinLedger.held k = c.count := by
  obtain ⟨k', rfl, hk⟩ | ⟨i, rfl⟩ | ⟨i, marked, rfl⟩ := h
  · cases k' <;> first | rfl | exact hk.elim
  · rfl
  · rfl

theorem Holds.owed : pinLedger.owed k = 0 := by
  obtain ⟨k', rfl, hk⟩ | ⟨i, rfl⟩ | ⟨i, marked, rfl⟩ := h
  · cases k' <;> first | rfl | exact hk.elim
  · rfl
  · rfl

theorem Holds.left : pinLedger.left k = 0 := by
  obtain ⟨k', rfl, -⟩ | ⟨i, rfl⟩ | ⟨i, marked, rfl⟩ := h <;> rfl

end Holds

/-- A thread that goes on holding its references. -/
theorem Moves.holds {p : PageId R} {d d' : DataPage} {c : Call R} {k k' : Pc R}
    (h : Holds c k) (h' : Holds c k') (hcnt : d'.state.cnt = d.state.cnt)
    (hcounter : d'.prefetchCounter = d.prefetchCounter) : Moves p d k d' k' :=
  .quiet (h.pinStep p) hcnt hcounter h.onPage h'.onPage (h'.held.trans h.held.symm)
    (h'.owed.trans h.owed.symm) (h'.left.trans h.left.symm)

theorem held_subRefCount (c : Call R) (i m : Nat) (marked : Bool) (hm : m ≤ c.count) (tc : Bool) :
    pinLedger.held (.release c i marked m hm (.subRefCount tc)) = c.count - m := by
  show (match (if m < c.count then some (⟨c.page, c.count - m, .fixed i⟩ : Ref (PageId R) Nat)
    else none) with | some r => r.count | none => 0) = _
  split
  · rename_i r hr
    split at hr
    · cases hr
      rfl
    · cases hr
  · rename_i hr
    split at hr
    · cases hr
    · omega

theorem held_released (c : Call R) (i m : Nat) (marked : Bool) (p : PageId R) :
    pinLedger.on pinLedger.held p (released c i marked m) =
      if c.page = p then c.count - m else 0 := by
  rw [released]
  split
  · exact on_page _ p rfl
  · rw [on_zero _ p rfl, show c.count - m = 0 by omega, ite_self]

theorem owed_released (c : Call R) (i m : Nat) (marked : Bool) :
    pinLedger.owed (released c i marked m) = 0 := by
  rw [released]
  split <;> rfl

theorem left_released (c : Call R) (i m : Nat) (marked : Bool) :
    pinLedger.left (released c i marked m) = 0 := by
  rw [released]
  split <;> rfl

section Steps

variable [NeZero R] [DecidableEq A] (cfg : Config R) (s : St R A V) (a : A)

theorem setState_cnt {R : Nat} {A V : Type*} (s : St R A V)
    (p q : PageId R) {w : Word} (h : w.cnt = (s.pages p).state.cnt) :
    ((s.setState p w).pages q).state.cnt = (s.pages q).state.cnt := by
  rw [setState_state]
  split
  · rename_i hq
    rw [h, hq]
  · rfl

theorem setPrefetchCounter_counter {R : Nat} {A V : Type*} (s : St R A V)
    (p q : PageId R) (w : BitVec 8) :
    ((s.setPrefetchCounter p w).pages q).prefetchCounter =
      if p = q then w else (s.pages q).prefetchCounter := by
  rw [St.setPrefetchCounter, setPage_apply]
  by_cases h : q = p
  · rw [if_pos h, if_pos h.symm]
  · rw [if_neg h, if_neg fun e => h e.symm]

/-- A store to one field of a page leaves the others. -/
theorem setPage_keeps {R : Nat} {A V : Type*} (s : St R A V)
    {β : Type*} (f : DataPage → β) (p q : PageId R) {d : DataPage}
    (h : f d = f (s.pages p)) : f ((s.setPage p d).pages q) = f (s.pages q) := by
  rw [setPage_apply]
  split
  · rename_i hq
    rw [h, hq]
  · rfl

theorem setPrefetchCounter_prefetchCount {R : Nat} {A V : Type*} (s : St R A V)
    (p q : PageId R) (w : BitVec 8) :
    ((s.setPrefetchCounter p w).pages q).prefetchCount = (s.pages q).prefetchCount :=
  setPage_keeps s DataPage.prefetchCount p q (d := { s.pages p with prefetchCounter := w }) rfl

theorem setRefCount_prefetchCount {R : Nat} {A V : Type*} (s : St R A V)
    (p q : PageId R) (w : Word) :
    ((s.setRefCount p w).pages q).prefetchCount = (s.pages q).prefetchCount :=
  setPage_keeps s DataPage.prefetchCount p q (d := { s.pages p with refCount := w }) rfl

theorem setRefCount_counter {R : Nat} {A V : Type*} (s : St R A V) (p q : PageId R) (w : Word) :
    ((s.setRefCount p w).pages q).prefetchCounter = (s.pages q).prefetchCounter :=
  setPage_keeps s DataPage.prefetchCounter p q (d := { s.pages p with refCount := w }) rfl

theorem counter_of_side {d e : DataPage} (h : d.side = e.side) :
    d.prefetchCounter = e.prefetchCounter := congrArg (·.2.2.2) h

theorem prefetchCount_of_side {d e : DataPage} (h : d.side = e.side) :
    d.prefetchCount = e.prefetchCount := congrArg (·.2.2.1) h

theorem findStep_cnt (ver : FindVersion) (p q : PageId R) (emb : FindPc R → Pc R)
    (ret : Nat → Pc R) (k : FindPc R) :
    ((findStep cfg ver s a p emb ret k).pages q).state.cnt = (s.pages q).state.cnt := by
  cases k <;> simp only [findStep, findTest] <;> (repeat' split) <;>
    first
      | rfl
      | exact setState_cnt s _ q (Word.cnt_or_BUSY _)
      | exact setState_cnt s _ q (Word.cnt_and_cntMask _)
      | exact setState_cnt s _ q (Word.cnt_and_disableBusy _)

/-- The steps of an acquire after it has raised the count leave every count as it is. -/
theorem acquireStep_cnt (c : Call R) (q : PageId R) {k : AcquirePc R}
    (hpro : ∀ k', k ≠ .prologue k') (hadd : ∀ pin, k ≠ .fetchAdd pin) :
    ((acquireStep cfg s a c k).pages q).state.cnt = (s.pages q).state.cnt := by
  cases k with
  | prologue k => exact absurd rfl (hpro k)
  | fetchAdd pin => exact absurd rfl (hadd pin)
  | find k => exact findStep_cnt ..
  | setBusy =>
    rw [acquireStep]
    split
    · exact setState_cnt s _ q (Word.cnt_or_BUSY _)
    · exact setState_cnt s _ q (Word.cnt_or_BUSY _)
  | chooseCtrl i =>
    rw [acquireStep]
    split <;> rfl
  | storeOffset i => exact congrArg Word.cnt (setOffset_state s _ q _)
  | setDirty i => exact setState_cnt s _ q (Word.cnt_or_DIRTY _)
  | publish i => exact setState_cnt s _ q (Word.cnt_xor _)
  | markDirty => exact setState_cnt s _ q (Word.cnt_or_DIRTY _)
  | readData i => rfl
  | loadOffset => rfl
  | reload => rfl

/-- They leave the counters for prefetching and for window buffering as they are. -/
theorem acquireStep_side (c : Call R) (q : PageId R) {k : AcquirePc R}
    (hpro : ∀ k', k ≠ .prologue k') :
    ((acquireStep cfg s a c k).pages q).side = (s.pages q).side := by
  cases k with
  | prologue k => exact absurd rfl (hpro k)
  | find k => exact findStep_side ..
  | _ =>
    simp only [acquireStep]
    (repeat' split) <;> simp

theorem acquireStep_holds (c : Call R) {k : AcquirePc R} (hk : k.Raised) :
    Holds c ((acquireStep cfg s a c k).pc a) := by
  cases k with
  | prologue k => exact hk.elim
  | fetchAdd pin => exact hk.elim
  | find k =>
    cases k <;> simp only [acquireStep, findStep, findTest] <;> (repeat' split) <;>
      exact .inl ⟨_, goto_pc_self _ _ _, trivial⟩
  | reload => exact .inl ⟨_, goto_pc_self _ _ _, raised_dispatch c _⟩
  | publish i =>
    rw [acquireStep, goto_pc_self]
    exact holds_acquired c i
  | loadOffset =>
    rw [acquireStep, goto_pc_self]
    exact holds_acquired c _
  | _ =>
    simp only [acquireStep]
    (repeat' split) <;> exact .inl ⟨_, goto_pc_self _ _ _, trivial⟩

/-- An acquire that has raised the count does nothing more to the pins. -/
theorem acquireStep_moves_raised (c : Call R) {k : AcquirePc R} (p : PageId R)
    (hk : k.Raised) (h0 : ∀ q, (s.pages q).prefetchCount = 0#8) :
    Moves p (s.pages p) (.acquire c k) ((acquireStep cfg s a c k).pages p)
        ((acquireStep cfg s a c k).pc a) ∧
      Unplanned ((acquireStep cfg s a c k).pc a) ∧
      ∀ q, ((acquireStep cfg s a c k).pages q).prefetchCount = 0#8 := by
  have hpro : ∀ k', k ≠ .prologue k' := by
    rintro k' rfl
    exact hk
  have hadd : ∀ pin, k ≠ .fetchAdd pin := by
    rintro pin rfl
    exact hk
  have hside := fun q => acquireStep_side cfg s a c q hpro
  have hh := acquireStep_holds cfg s a c hk
  refine ⟨.holds (.inl ⟨k, rfl, hk⟩) hh ?_ ?_, hh.unplanned, fun q => ?_⟩
  · exact acquireStep_cnt cfg s a c p hpro hadd
  · exact counter_of_side (hside p)
  · exact (prefetchCount_of_side (hside q)).trans (h0 q)

theorem acquireStep_moves (c : Call R) (k : AcquirePc R) (p : PageId R)
    (hu : Unplanned (.acquire c k)) (h0 : ∀ q, (s.pages q).prefetchCount = 0#8) :
    Moves p (s.pages p) (.acquire c k) ((acquireStep cfg s a c k).pages p)
        ((acquireStep cfg s a c k).pc a) ∧
      Unplanned ((acquireStep cfg s a c k).pc a) ∧
      ∀ q, ((acquireStep cfg s a c k).pages q).prefetchCount = 0#8 := by
  cases k with
  | prologue k =>
    cases k with
    | loadPrefetch =>
      have hno : prefetchPlanned (s.pages c.page).prefetchCount = false := by
        rw [h0]
        rfl
      rw [acquireStep, prologueStep, hno, if_neg (by decide), goto_pc_self]
      exact ⟨.quiet rfl rfl rfl rfl rfl rfl rfl rfl, rfl, h0⟩
    | storePrefetch w => exact hu.elim
    | loadWindow pin =>
      obtain rfl : pin = false := hu
      rw [acquireStep, prologueStep]
      split
      · rename_i hw
        rw [goto_pc_self]
        exact ⟨.quiet rfl rfl rfl rfl rfl rfl rfl rfl, hw, h0⟩
      · rw [goto_pc_self]
        exact ⟨.quiet rfl rfl rfl rfl rfl rfl rfl rfl, trivial, h0⟩
    | storeWindow w =>
      rw [acquireStep, prologueStep, goto_pc_self]
      refine ⟨?_, trivial, fun q => ?_⟩
      · constructor
        · rw [goto_pages, setPrefetchCounter_state, pinStep]
          split <;> rfl
        · rw [goto_pages, setPrefetchCounter_counter, pinStep]
          split <;> rfl
        · rw [on_page _ p rfl, on_page _ p rfl, on_page _ p rfl, on_page _ p rfl, on_page _ p rfl,
            on_page _ p rfl, pinStep]
          split <;> rfl
      · exact (setPrefetchCounter_prefetchCount s c.page q _).trans (h0 q)
  | fetchAdd pin =>
    rw [acquireStep, goto_pc_self]
    have hk : Holds c (.acquire c (acquireDispatch c (s.pages c.page).state)) :=
      .inl ⟨_, rfl, raised_dispatch c _⟩
    refine ⟨?_, hk.unplanned, fun q => ?_⟩
    · constructor
      · rw [goto_pages, setState_state, pinStep]
        by_cases h : c.page = p
        · rw [if_pos h, if_pos h.symm, h]
          rfl
        · rw [if_neg h, if_neg fun e => h e.symm]
          rfl
      · rw [goto_pages, counter_of_side (setState_side ..), pinStep]
        split <;> rfl
      · rw [on_page _ p hk.onPage, on_page _ p hk.onPage, on_page _ p hk.onPage,
          on_page _ p rfl, on_page _ p rfl, on_page _ p rfl, hk.held, hk.owed, hk.left, pinStep]
        -- the thread did not hold its references before, and paid what it owed
        show _ = (if c.page = p then 0 else 0) + (if c.page = p then 0 else 0) + _ + _
        split
        · show c.count + 0 + pin.toNat + 0 = 0 + 0 + 0 + (c.count + pin.toNat)
          omega
        · rfl
    · rw [goto_pages, prefetchCount_of_side (setState_side ..), h0]
  | _ => exact acquireStep_moves_raised cfg s a c p trivial h0

theorem releaseStep_moves {R : Nat} {A V : Type*} [DecidableEq A] (s : St R A V) (a : A)
    (c : Call R) (i m : Nat) (marked : Bool) (hm : m ≤ c.count)
    (k : ReleasePc) (p : PageId R) (hu : Unplanned (.release c i marked m hm k))
    (h0 : ∀ q, (s.pages q).prefetchCount = 0#8) :
    Moves p (s.pages p) (.release c i marked m hm k)
        ((releaseStep s a c i marked m hm k).pages p)
        ((releaseStep s a c i marked m hm k).pc a) ∧
      Unplanned ((releaseStep s a c i marked m hm k).pc a) ∧
      ∀ q, ((releaseStep s a c i marked m hm k).pages q).prefetchCount = 0#8 := by
  cases k with
  | loadPrefetch =>
    have hno : ¬ 0 < byteCount (s.pages c.page).prefetchCount := by
      rw [h0]
      decide
    rw [releaseStep, goto_pc_self, if_neg hno]
    exact ⟨.quiet rfl rfl rfl rfl rfl rfl rfl rfl, rfl, h0⟩
  | storePrefetch => exact hu.elim
  | subPrefetch => exact hu.elim
  | loadWindow tc =>
    obtain rfl : tc = false := hu
    rw [releaseStep, goto_pc_self]
    split
    · split
      · exact ⟨.quiet rfl rfl rfl rfl rfl rfl rfl rfl, trivial, h0⟩
      · exact ⟨.quiet rfl rfl rfl rfl rfl rfl rfl rfl, rfl, h0⟩
    · exact ⟨.quiet rfl rfl rfl rfl rfl rfl rfl rfl, trivial, h0⟩
  | storeWindow =>
    rw [releaseStep, goto_pc_self]
    refine ⟨?_, trivial, fun q => ?_⟩
    · constructor
      · rw [goto_pages, setPrefetchCounter_state, pinStep]
        split <;> rfl
      · rw [goto_pages, setPrefetchCounter_counter, pinStep]
        split <;> rfl
      · rw [on_page _ p rfl, on_page _ p rfl, on_page _ p rfl, on_page _ p rfl, on_page _ p rfl,
          on_page _ p rfl, pinStep]
        split <;> rfl
    · exact (setPrefetchCounter_prefetchCount s c.page q _).trans (h0 q)
  | subWindow tc =>
    obtain rfl : tc = false := hu
    rw [releaseStep, goto_pc_self]
    refine ⟨?_, trivial, fun q => ?_⟩
    · constructor
      · rw [goto_pages, setPrefetchCounter_state, pinStep]
        split <;> rfl
      · rw [goto_pages, setPrefetchCounter_counter, pinStep]
        by_cases h : c.page = p
        · rw [if_pos h, if_pos h, h]
          rfl
        · rw [if_neg h, if_neg h]
          rfl
      · rw [on_page _ p rfl, on_page _ p rfl, on_page _ p rfl, on_page _ p rfl, on_page _ p rfl,
          on_page _ p rfl, pinStep]
        split <;> rfl
    · exact (setPrefetchCounter_prefetchCount s c.page q _).trans (h0 q)
  | subState tc =>
    rw [releaseStep, goto_pc_self]
    refine ⟨?_, trivial, fun q => ?_⟩
    · constructor
      · rw [goto_pages, setState_state, pinStep]
        by_cases h : c.page = p
        · rw [if_pos h, if_pos h.symm, h]
          rfl
        · rw [if_neg h, if_neg fun e => h e.symm]
          rfl
      · rw [goto_pages, counter_of_side (setState_side ..), pinStep]
        split <;> rfl
      · -- the references given back and the extra one are both taken off the count
        rw [on_page _ p rfl, on_page _ p rfl, on_page _ p rfl, on_page _ p rfl, on_page _ p rfl,
          on_page _ p rfl, held_subRefCount, pinStep]
        show _ + (if c.page = p then 0 else 0) + (if c.page = p then 0 else 0) + _ =
          _ + _ + (if c.page = p then 0 else 0) + _
        split
        · show c.count - m + 0 + 0 + (m + tc.toNat) = c.count + tc.toNat + 0 + 0
          omega
        · rfl
    · rw [goto_pages, prefetchCount_of_side (setState_side ..), h0]
  | subRefCount tc =>
    rw [releaseStep, goto_pc_self]
    refine ⟨?_, ?_, fun q => ?_⟩
    · constructor
      · rw [goto_pages, setRefCount_state]
        rfl
      · exact setRefCount_counter s c.page p _
      · rw [held_released, on_zero _ p (left_released c i m marked),
          on_zero _ p (owed_released c i m marked), on_page _ p rfl, on_page _ p rfl,
          on_page _ p rfl, held_subRefCount]
        rfl
    · rw [released]
      split <;> trivial
    · exact (setRefCount_prefetchCount s c.page q _).trans (h0 q)

/-- The invariant of the runs: no prefetch is planned, and nobody is in a branch that needs
    one. -/
structure St.NoPrefetch (s : St R A V) : Prop where
  prefetchCount : ∀ q, (s.pages q).prefetchCount = 0#8
  unplanned : ∀ a, Unplanned (s.pc a)

variable {cfg s a} {t : St R A V}

theorem runStep_moves (hs : runStep cfg s a = some t) (h : s.NoPrefetch) (p : PageId R) :
    Moves p (s.pages p) (s.pc a) (t.pages p) (t.pc a) ∧ Unplanned (t.pc a) ∧
      ∀ q, (t.pages q).prefetchCount = 0#8 := by
  have hu := h.unplanned a
  rw [runStep] at hs
  split at hs
  · rename_i c k hpc
    cases hs
    rw [hpc] at hu ⊢
    exact acquireStep_moves cfg s a c k p hu h.prefetchCount
  · rename_i c x k hpc
    rw [hpc] at hu
    exact hu.elim
  · rename_i c x blocking k hpc
    rw [hpc] at hu
    exact hu.elim
  · rename_i c i hpc
    cases hs
    rw [hpc, goto_pc_self]
    refine ⟨?_, trivial, fun q => ?_⟩
    · apply Moves.holds (.inr (.inl ⟨i, rfl⟩)) (.inr (.inr ⟨i, true, rfl⟩))
      · exact setState_cnt s _ p (Word.cnt_or_DIRTY _)
      · exact counter_of_side (setState_side s _ p _)
    · exact (prefetchCount_of_side (setState_side s _ q _)).trans (h.prefetchCount q)
  · rename_i c i marked m hm k hpc
    cases hs
    rw [hpc] at hu ⊢
    exact releaseStep_moves s a c i m marked hm k p hu h.prefetchCount
  all_goals cases hs

theorem runStep_noPrefetch (hs : runStep cfg s a = some t) (h : s.NoPrefetch) :
    t.NoPrefetch := by
  obtain ⟨-, hu, hc⟩ := runStep_moves hs h ⟨0, 0⟩
  refine ⟨hc, fun b => ?_⟩
  by_cases hb : b = a
  · rw [hb]
    exact hu
  · rw [runStep_pc_ne hs hb]
    exact h.unplanned b

end Steps

/-! ## When a step keeps the balance -/

/-- What a step does to the count and the byte is what it does to the thread's own amounts and
    to the uses, exactly if the step is one the balance rests on.  `h`, `l`, `o` are what the
    thread holds, has left over and owes. -/
theorem PinStep.ok_iff {st : PinStep} {d d' : DataPage} {u h l o h' l' o' : Nat}
    (hpin : ∀ w, st = .pin w → windowPlanned w = true)
    (hcnt : d'.state.cnt = st.cntAfter d.state)
    (hcounter : d'.prefetchCounter = st.counterAfter d.prefetchCounter)
    (hown : h' + l' + o + st.lowers = h + l + o' + st.raises)
    (hu : byteCount d.prefetchCounter = u) :
    (byteCount d'.prefetchCounter = st.usesAfter u ∧
      d'.state.cnt + o' + (byteStarted d.prefetchCounter).toNat + h + l =
        d.state.cnt + o + (byteStarted d'.prefetchCounter).toNat + h' + l') ↔ st.Ok d := by
  rw [hcnt, hcounter, ← hu]
  cases st with
  | none =>
    simp only [PinStep.lowers, PinStep.raises] at hown
    simp only [PinStep.counterAfter, PinStep.cntAfter, PinStep.usesAfter, PinStep.Ok, true_and,
      iff_true]
    omega
  | pin w =>
    obtain ⟨-, hw⟩ := (windowPlanned_iff w).mp (hpin w rfl)
    obtain ⟨hc, hb⟩ := byte_start hw
    have hd := byte_toNat d.prefetchCounter
    have hv := byte_toNat w
    simp only [PinStep.lowers, PinStep.raises] at hown
    simp only [PinStep.counterAfter, PinStep.cntAfter, PinStep.usesAfter, PinStep.Ok, hc, hb,
      Bool.toNat_true]
    rw [hw, Bool.toNat_false] at hv
    constructor
    · rintro ⟨huse, hbal⟩
      apply BitVec.eq_of_toNat_eq
      omega
    · intro he
      rw [he, hw, Bool.toNat_false]
      exact ⟨rfl, by omega⟩
  | add n =>
    simp only [PinStep.lowers, PinStep.raises] at hown
    simp only [PinStep.counterAfter, PinStep.cntAfter, PinStep.usesAfter, PinStep.Ok, true_and]
    constructor
    · intro hbal
      have hlt : (d.state + BitVec.ofNat 32 n).cnt < Word.cntLimit := by
        rw [Word.cnt_eq]
        exact Nat.mod_lt _ (by decide)
      omega
    · intro hfit
      rw [Word.cnt_add hfit]
      omega
  | unpin =>
    have hz : byteCount 0#8 = 0 ∧ byteStarted 0#8 = false := by decide
    simp only [PinStep.lowers, PinStep.raises] at hown
    simp only [PinStep.counterAfter, PinStep.cntAfter, PinStep.usesAfter, PinStep.Ok, hz.1, hz.2,
      Bool.toNat_false]
    cases hb : byteStarted d.prefetchCounter with
    | true =>
      rw [Bool.toNat_true]
      simp only [true_and]
      omega
    | false =>
      rw [Bool.toNat_false]
      simp only [Bool.false_eq_true, false_and, iff_false]
      omega
  | use =>
    simp only [PinStep.lowers, PinStep.raises] at hown
    simp only [PinStep.counterAfter, PinStep.cntAfter, PinStep.usesAfter, PinStep.Ok]
    constructor
    · rintro ⟨huse, -⟩
      apply Nat.pos_of_ne_zero
      intro hz
      rw [byteCount_wrap hz] at huse
      omega
    · intro hpos
      obtain ⟨hc, hb⟩ := byte_sub hpos
      rw [hc, hb]
      exact ⟨rfl, by omega⟩
  | sub n =>
    simp only [PinStep.lowers, PinStep.raises] at hown
    simp only [PinStep.counterAfter, PinStep.cntAfter, PinStep.usesAfter, PinStep.Ok, true_and]
    constructor
    · intro hbal
      omega
    · intro hle
      rw [Word.cnt_sub hle]
      omega

/-- A thread sets bit 7 only of a byte that had it clear when it was loaded. -/
theorem pinStep_planned {p : PageId R} {k : Pc R} {w : BitVec 8} (hu : Unplanned k)
    (h : pinStep p k = .pin w) : windowPlanned w = true := by
  unfold pinStep at h
  split at h
  · split at h
    · cases h
      exact hu
    · cases h
  all_goals (repeat' split at h) <;> cases h

theorem pc_eq_update [DecidableEq A] {f g : A → Pc R} {a : A} (h : ∀ b, b ≠ a → g b = f b) :
    g = update f a (g a) := by
  funext b
  by_cases hb : b = a
  · rw [hb, Function.update_self]
  · rw [Function.update_of_ne hb, h b hb]

namespace WindowSt

variable [DecidableEq A] [Fintype A] [NeZero R] {cfg : Config R} {s : WindowSt R A V}
  {p : PageId R}

/-- A step of one thread that moves its own amounts by what it does to the page. -/
theorem kept_iff_of_moves {R : Nat} {A V : Type*} [DecidableEq A] [Fintype A] {s : WindowSt R A V}
    {p : PageId R} {a : A} {u : Nat} {c : St R A V} (h : s.Kept p)
    (hpc : ∀ b, b ≠ a → c.pc b = s.cache.pc b)
    (hm : Moves p (s.cache.pages p) (s.cache.pc a) (c.pages p) (c.pc a))
    (hpin : ∀ w, pinStep p (s.cache.pc a) = .pin w → windowPlanned w = true)
    (hu : u = (pinStep p (s.cache.pc a)).usesAfter (s.uses p)) {uses : PageId R → Nat}
    (huses : uses p = u) :
    (WindowSt.mk c uses).Kept p ↔ (pinStep p (s.cache.pc a)).Ok (s.cache.pages p) := by
  have hbal := pinLedger.balanced_update_iff s.cache.pc a (c.pc a) p h.pins
    (c.pages p).state.cnt (byteStarted (c.pages p).prefetchCounter).toNat
  rw [← pc_eq_update hpc] at hbal
  rw [← PinStep.ok_iff hpin hm.cnt hm.counter hm.own h.uses]
  constructor
  · intro hk
    refine ⟨?_, hbal.mp hk.pins⟩
    rw [← hu, ← huses]
    exact hk.uses
  · rintro ⟨hcount, hpins⟩
    refine ⟨?_, hbal.mpr hpins⟩
    show byteCount (c.pages p).prefetchCounter = uses p
    rw [hcount, huses, hu]

/-- A thread that only goes somewhere else, with the same amounts of its own. -/
theorem kept_goto {R : Nat} {A V : Type*} [DecidableEq A] [Fintype A] {s : WindowSt R A V}
    {p : PageId R} {a : A} {k : Pc R} (h : s.Kept p)
    (hheld : pinLedger.on pinLedger.held p k =
      pinLedger.on pinLedger.held p (s.cache.pc a))
    (howed : pinLedger.on pinLedger.owed p k = pinLedger.on pinLedger.owed p (s.cache.pc a))
    (hleft : pinLedger.on pinLedger.left p k = pinLedger.on pinLedger.left p (s.cache.pc a)) :
    (WindowSt.mk (s.cache.goto a k) s.uses).Kept p := by
  refine ⟨h.uses, ?_⟩
  apply (pinLedger.balanced_update_iff s.cache.pc a k p h.pins _ _).mpr
  rw [hheld, howed, hleft]
  rfl

/-- Recording uses keeps the balance exactly where there is room for them. -/
theorem record_kept_iff {R : Nat} {A V : Type*} [Fintype A] {s : WindowSt R A V} {p : PageId R}
    (h : s.Kept p) (q : PageId R) (n : Nat) :
    (WindowSt.mk (s.cache.setPrefetchCounter q
        ((s.cache.pages q).prefetchCounter + BitVec.ofNat 8 n))
      fun r => (WindowAct.setWindowBufferCounter q n).usesAfter s r).Kept p ↔
    (WindowAct.setWindowBufferCounter q n : WindowAct R A).Ok p s := by
  have hcounter := setPrefetchCounter_counter s.cache q p
    ((s.cache.pages q).prefetchCounter + BitVec.ofNat 8 n)
  have hstate := setPrefetchCounter_state s.cache q p
    ((s.cache.pages q).prefetchCounter + BitVec.ofNat 8 n)
  by_cases hq : q = p
  · subst hq
    rw [if_pos rfl] at hcounter
    constructor
    · intro hk _
      have huse : _ = (WindowAct.setWindowBufferCounter q n).usesAfter s q := hk.uses
      rw [hcounter, WindowAct.usesAfter, if_pos rfl, ← h.uses] at huse
      rw [← huse]
      exact byteCount_lt _
    · intro hroom
      obtain ⟨hc, hb⟩ := byte_add (hroom rfl)
      refine ⟨?_, ?_⟩
      · rw [hcounter, hc, h.uses]
        exact (if_pos rfl).symm
      · rw [hcounter, hb, hstate]
        exact h.pins
  · rw [if_neg hq] at hcounter
    refine ⟨fun _ he => absurd he hq, fun _ => ⟨?_, ?_⟩⟩
    · rw [hcounter, h.uses]
      exact (if_neg hq).symm
    · rw [hcounter, hstate]
      exact h.pins

/-- What an action that is not a step of an operation does: a thread begins one, or
    `compare_exchange_weak` fails although it need not. -/
theorem goes_of_step {R : Nat} {A V : Type*} [DecidableEq A] [NeZero R] {cfg : Config R}
    {s : WindowSt R A V} {p : PageId R} {act : WindowAct R A} {c : St R A V}
    (hs : PageCache.step cfg s.cache (act.act s.cache) = some c)
    (hrun : ∀ a, act ≠ .run a) (hset : ∀ q n, act ≠ .setWindowBufferCounter q n)
    (h : s.cache.NoPrefetch) :
    ∃ a k, c = s.cache.goto a k ∧ Unplanned k ∧ ∀ f ∈ [pinLedger.held, pinLedger.owed,
      pinLedger.left], pinLedger.on f p k = pinLedger.on f p (s.cache.pc a) := by
  cases act with
  | run a => exact absurd rfl (hrun a)
  | setWindowBufferCounter q n => exact absurd rfl (hset q n)
  | acquire a call =>
    rw [WindowAct.act, PageCache.step] at hs
    split at hs
    · rename_i hpc
      cases hs
      refine ⟨a, _, rfl, trivial, fun f hf => ?_⟩
      rw [hpc]
      simp only [List.mem_cons, List.not_mem_nil, or_false] at hf
      rcases hf with rfl | rfl | rfl <;> rw [on_zero _ p rfl, on_zero _ p rfl]
    · cases hs
  | release a m =>
    rw [WindowAct.act, PageCache.step] at hs
    split at hs
    · rename_i call i marked hpc
      split at hs
      · cases hs
        refine ⟨a, _, rfl, trivial, fun f hf => ?_⟩
        rw [hpc]
        simp only [List.mem_cons, List.not_mem_nil, or_false] at hf
        rcases hf with rfl | rfl | rfl <;> rw [on_page _ p rfl, on_page _ p rfl] <;> rfl
      · cases hs
    · cases hs
  | spurious a =>
    rw [WindowAct.act, PageCache.step] at hs
    split at hs
    · rename_i call k hpc
      have hgo : c = s.cache.goto a (.acquire call (.find .ticket)) := by
        cases k <;> cases hs <;> rfl
      refine ⟨a, _, hgo, trivial, fun f hf => ?_⟩
      rw [hpc]
      simp only [List.mem_cons, List.not_mem_nil, or_false] at hf
      rcases hf with rfl | rfl | rfl <;> rw [on_page _ p rfl, on_page _ p rfl] <;> rfl
    · rename_i call x k hpc
      have hu := h.unplanned a
      rw [hpc] at hu
      exact hu.elim
    · cases hs

variable {t : WindowSt R A V}

theorem step_noPrefetch {R : Nat} {A V : Type*} [DecidableEq A] [NeZero R] {cfg : Config R}
    {s t : WindowSt R A V} {act : WindowAct R A} (h : s.cache.NoPrefetch)
    (hs : s.step cfg act = some t) : t.cache.NoPrefetch := by
  obtain ⟨c, hc, rfl⟩ := Option.map_eq_some_iff.mp hs
  have hother (hrun : ∀ a, act ≠ .run a) (hset : ∀ q n, act ≠ .setWindowBufferCounter q n) :
      c.NoPrefetch := by
    obtain ⟨a, k, rfl, hk, -⟩ := goes_of_step (p := ⟨0, 0⟩) hc hrun hset h
    refine ⟨h.prefetchCount, fun b => ?_⟩
    by_cases hb : b = a
    · subst hb
      rw [goto_pc_self]
      exact hk
    · rw [goto_pc_ne _ _ hb]
      exact h.unplanned b
  cases act with
  | setWindowBufferCounter q count =>
    cases hc
    exact ⟨fun r => (setPrefetchCounter_prefetchCount s.cache q r _).trans (h.prefetchCount r),
      h.unplanned⟩
  | run a => exact runStep_noPrefetch hc h
  | _ => exact hother (fun _ => nofun) fun _ _ => nofun

theorem step_kept_iff {act : WindowAct R A} (h : s.cache.NoPrefetch) (hk : s.Kept p)
    (hs : s.step cfg act = some t) : t.Kept p ↔ act.Ok p s := by
  obtain ⟨c, hc, rfl⟩ := Option.map_eq_some_iff.mp hs
  have hother (hrun : ∀ a, act ≠ .run a) (hset : ∀ q n, act ≠ .setWindowBufferCounter q n) :
      (WindowSt.mk c s.uses).Kept p := by
    obtain ⟨a, k, rfl, -, hon⟩ := goes_of_step (p := p) hc hrun hset h
    exact kept_goto hk (hon _ (.head _)) (hon _ (.tail _ (.head _)))
      (hon _ (.tail _ (.tail _ (.head _))))
  cases act with
  | run a =>
    exact kept_iff_of_moves hk (fun b hb => runStep_pc_ne hc hb) (runStep_moves hc h p).1
      (fun w => pinStep_planned (h.unplanned a)) rfl rfl
  | setWindowBufferCounter q count =>
    cases hc
    exact record_kept_iff hk q count
  | _ => exact ⟨fun _ => trivial, fun _ => hother (fun _ => nofun) fun _ _ => nofun⟩

/-! ## Runs -/

theorem Init.noPrefetch {R : Nat} {A V : Type*} {s : WindowSt R A V}
    (h : s.Init) : s.cache.NoPrefetch where
  prefetchCount := h.cache.prefetchCount
  unplanned a := by
    rw [h.cache.pc a]
    trivial

theorem Init.kept {R : Nat} {A V : Type*} [Fintype A] {s : WindowSt R A V}
    (h : s.Init) (p : PageId R) : s.Kept p := by
  have hzero (f : Pc R → Nat) (hf : f .idle = 0) : pinLedger.total f s.cache.pc p = 0 := by
    apply Finset.sum_eq_zero
    intro a _
    rw [h.cache.pc a]
    exact on_zero f p hf
  refine ⟨?_, ?_⟩
  · rw [h.cache.prefetchCounter, h.uses]
    rfl
  · rw [hzero _ rfl, hzero _ rfl, hzero _ rfl, h.cache.state, h.cache.prefetchCounter]
    rfl

/-- An action that is not enabled is a step of nobody. -/
theorem ok_of_none {R : Nat} {A V : Type*} [DecidableEq A] [NeZero R] {cfg : Config R}
    {s : WindowSt R A V} {p : PageId R}
    {act : WindowAct R A} (hs : s.step cfg act = none) : act.Ok p s := by
  have hc := Option.map_eq_none_iff.mp hs
  cases act with
  | run a =>
    show (pinStep p (s.cache.pc a)).Ok _
    replace hc : runStep cfg s.cache a = none := hc
    unfold pinStep
    split
    case h_6 => trivial
    all_goals
      rename_i hpc
      rw [runStep, hpc] at hc
      cases hc
  | setWindowBufferCounter q n => cases hc
  | _ => trivial

/-- Whatever the threads do and in whatever order, the balance of a page holds in every state
    of a run exactly if every step of the run finds the page as it rests on. -/
theorem run_kept_iff (cfg : Config R) (h : s.Init) (p : PageId R) (l : List (WindowAct R A)) :
    (∀ k t, Lib.runActs (WindowSt.step cfg) s (l.take k) = some t → t.Kept p) ↔
      Lib.runOk (WindowSt.step cfg) (fun s act => act.Ok p s) s l := by
  have hgood : ∀ s : WindowSt R A V, s.cache.NoPrefetch ∧ s.Kept p → s.Kept p :=
    fun s hs => hs.2
  apply Lib.runActs_good_iff hgood
  · intro s act _ hnone
    exact ok_of_none hnone
  · intro s act t hs hstep hok
    exact ⟨step_noPrefetch hs.1 hstep, (step_kept_iff hs.1 hs.2 hstep).mpr hok⟩
  · intro s act t hs hstep hno hk
    exact hno ((step_kept_iff hs.1 hs.2 hstep).mp hk)
  · exact ⟨h.noPrefetch, h.kept p⟩

/-! ### A page used twice -/

/-- The cache of the two runs: one page of a store, two slots, two threads. -/
def twoThreads : WindowSt 1 (Fin 2) Nat := ⟨newCache (Fin 2) (fun p e => 10 * p + e) 0, fun _ => 0⟩

theorem twoThreads_init : twoThreads.Init where
  cache := newCache_init (Fin 2) (fun p e => 10 * p + e) 0
  uses _ := rfl

/-- Two uses are recorded; a thread acquires the page, another one does so after it, and both
    release it. -/
def usedTwice : List (WindowAct 1 (Fin 2)) :=
  [.setWindowBufferCounter ⟨0, 0⟩ 1, .setWindowBufferCounter ⟨0, 0⟩ 1]
    ++ .acquire 0 (callFor 0 false false) :: List.replicate 14 (.run 0)
    ++ .acquire 1 (callFor 0 false false) :: List.replicate 4 (.run 1)
    ++ .release 0 1 :: List.replicate 5 (.run 0)
    ++ .release 1 1 :: List.replicate 5 (.run 1)

theorem usedTwice_kept :
    (Lib.runActs (step (smallConfig 2 1 (by decide) (by decide))) twoThreads usedTwice).isSome ∧
    ∀ k t, Lib.runActs (step (smallConfig 2 1 (by decide) (by decide))) twoThreads
      (usedTwice.take k) = some t → t.Kept ⟨0, 0⟩ :=
  ⟨by decide +kernel, (run_kept_iff _ twoThreads_init _ usedTwice).mpr (by decide +kernel)⟩

/-! ### Two threads that set bit 7 -/

/-- Both threads load the byte before one of them sets bit 7. -/
def bothPin : List (WindowAct 1 (Fin 2)) :=
  [.setWindowBufferCounter ⟨0, 0⟩ 1, .setWindowBufferCounter ⟨0, 0⟩ 1,
    .acquire 0 (callFor 0 false false), .run 0, .run 0,
    .acquire 1 (callFor 0 false false), .run 1, .run 1,
    .run 0, .run 1, .run 0, .run 1]

/-- Two references are held and the bit is set, but the count has been raised by four. -/
theorem bothPin_not_kept :
    ¬ ∀ (l : List (WindowAct 1 (Fin 2))) (k : Nat) (t : WindowSt 1 (Fin 2) Nat),
      Lib.runActs (step (smallConfig 2 1 (by decide) (by decide))) twoThreads (l.take k) = some t →
        t.Kept ⟨0, 0⟩ := by
  intro hall
  have hk := hall bothPin 12 _ rfl
  have hcnt := hk.settled (by decide +kernel) (by decide +kernel)
  revert hcnt
  decide +kernel

end WindowSt

end GidsStack.PageCache
