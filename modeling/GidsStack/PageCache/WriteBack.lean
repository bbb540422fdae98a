/-
  GidsStack.PageCache.WriteBack

  What becomes of the elements written through `bam_ptr::operator[]`.  A pointer that enters a
  page's window marks a page DIRTY, `find_slot` writes a dirty page back before it gives the
  slot away, and `__flush` writes what is dirty in the end.

  `acquire_page` makes the pointer's page from the number of the slot it returns.  The page
  that is marked is the page written only when the two numbers are the same; a page that is
  written and not marked is dropped with its slot.
-/

import GidsStack.PageCache.Flush
import GidsStack.PageCache.Frame

namespace GidsStack.PageCache

open Function (update)
open Lib (Reachable Guarded runActs runOk reachable_of_runActs reachable_of_steps)
open Lib.PinCache (Referenced Owned Slotted Placed)

variable {R : Nat} [NeZero R] {A V : Type*} [DecidableEq A]

/-! ## Runs whose pointers mark their pages -/

/-- The page whose window a pointer has just entered, and the number of the page it marks. -/
def marksPage (s : St R A V) (a : A) : Option (PageId R × Nat) :=
  match s.pc a with
  | .mark c i => some (c.page, i)
  | _ => none

/-- The pointer has entered its window by `operator[]`. -/
def Pc.entered : Pc R → Bool
  | .holding _ _ marked => marked
  | _ => false

/-- A pointer that enters a window marks the window's page, or that page is dirty already. -/
def MarksOwn (s : St R A V) (act : Act R A V) : Prop :=
  ∀ a ∈ act.agent, ∀ m ∈ marksPage s a,
    m.2 = m.1.index ∨ (s.pages m.1).state.isDirty = true

/-- Who writes an element, if the action is to write one. -/
def Act.writer : Act R A V → Option A
  | .write a _ _ => some a
  | _ => none

/-- Elements are written in windows that were entered by `operator[]`. -/
def WritesEntered (s : St R A V) (act : Act R A V) : Prop :=
  ∀ a ∈ act.writer, (s.pc a).entered = true

instance (s : St R A V) (act : Act R A V) : Decidable (MarksOwn s act) :=
  inferInstanceAs (Decidable (∀ a ∈ act.agent, ∀ m ∈ marksPage s a, _ ∨ _))

instance (s : St R A V) (act : Act R A V) : Decidable (WritesEntered s act) :=
  inferInstanceAs (Decidable (∀ a ∈ act.writer, _))

/-- A synchronous run in which every page written is marked. -/
structure Marking [Fintype A] (s : St R A V) (act : Act R A V) : Prop extends SyncRun s act where
  marks : MarksOwn s act
  writes : WritesEntered s act

instance [Fintype A] (s : St R A V) (act : Act R A V) : Decidable (Marking s act) :=
  decidable_of_iff (SyncRun s act ∧ MarksOwn s act ∧ WritesEntered s act)
    ⟨fun ⟨h1, h2, h3⟩ => ⟨h1, h2, h3⟩, fun h => ⟨h.toSyncRun, h.marks, h.writes⟩⟩

/-! ## Where the data is -/

/-- The page whose state the agent is about to clear, its data being in the store. -/
def Pc.clearing : Pc R → Option (PageId R)
  | .acquire _ (.find (.clearState _ q)) => some q
  | _ => none

/-- The page the agent has read into a slot and not yet published. -/
def Pc.loaded : Pc R → Option (PageId R × Nat)
  | .acquire c (.storeOffset i) | .acquire c (.setDirty i) | .acquire c (.publish i) =>
    some (c.page, i)
  | _ => none

/-- The page a pointer has entered by `operator[]` and still holds. -/
def Pc.marked : Pc R → Option (PageId R)
  | .holding c _ true => some c.page
  | .release c _ true m _ (.subRefCount _) => if m < c.count then some c.page else none
  | .release c _ true _ _ _ => some c.page
  | _ => none

/-- What an agent at `k` relies on. -/
structure Knows (s : St R A V) (k : Pc R) : Prop where
  clearing : ∀ q, k.clearing = some q → s.ssd q = s.written q
  loaded : ∀ p i, k.loaded = some (p, i) → s.slotData i = s.written p
  marked : ∀ p, k.marked = some p → (s.pages p).state.isDirty = true

/-- Where the last values written to a page are: in its slot while it is valid, and in the
    store too unless it is valid and dirty. -/
structure Backed (s : St R A V) : Prop where
  store : ∀ p, ((s.pages p).state.isValid = true → (s.pages p).state.isDirty = false) →
    s.ssd p = s.written p
  cached : ∀ p, (s.pages p).state.isValid = true → s.slotData (s.pages p).offset = s.written p
  knows : ∀ a, Knows s (s.pc a)

section Backed

variable {R : Nat} {A V : Type*} {s t : St R A V} {a : A} {p : PageId R}

/-- A place where nothing needs to be known. -/
theorem knows_of_none {k : Pc R} (hc : k.clearing = none) (hl : k.loaded = none)
    (hm : k.marked = none) : Knows s k where
  clearing q h := by
    rw [hc] at h
    cases h
  loaded p i h := by
    rw [hl] at h
    cases h
  marked p h := by
    rw [hm] at h
    cases h

/-- An evictor about to clear the state of page `p`. -/
theorem knows_clearing {k : Pc R} (hk : k.clearing = some p) (hp : s.ssd p = s.written p)
    (hl : k.loaded = none) (hm : k.marked = none) : Knows s k where
  clearing q h := by
    rw [hk] at h
    rw [← Option.some.inj h]
    exact hp
  loaded q i h := by
    rw [hl] at h
    cases h
  marked q h := by
    rw [hm] at h
    cases h

/-- A leader with the data of its page in a slot. -/
theorem knows_loaded {k : Pc R} {i : Nat} (hk : k.loaded = some (p, i))
    (hp : s.slotData i = s.written p) (hc : k.clearing = none) (hm : k.marked = none) :
    Knows s k where
  clearing q h := by
    rw [hc] at h
    cases h
  loaded q j h := by
    rw [hk] at h
    obtain ⟨rfl, rfl⟩ := Prod.mk.inj (Option.some.inj h)
    exact hp
  marked q h := by
    rw [hm] at h
    cases h

/-- A pointer with its page marked. -/
theorem knows_marked {k : Pc R}
    (hp : ∀ q, k.marked = some q → (s.pages q).state.isDirty = true)
    (hc : k.clearing = none) (hl : k.loaded = none) : Knows s k where
  clearing q h := by
    rw [hc] at h
    cases h
  loaded q i h := by
    rw [hl] at h
    cases h
  marked := hp

theorem Backed.init (h : Init s) : Backed s := by
  refine ⟨fun p _ => by rw [h.written], fun p hv => ?_, fun a => ?_⟩
  · rw [h.state p] at hv
    exact absurd hv (by decide)
  · rw [h.pc a]
    exact knows_of_none rfl rfl rfl

/-- The agent goes on where it knows what it needs. -/
theorem Backed.goto [DecidableEq A]
    (h : Backed s) {k : Pc R} (hk : Knows s k) : Backed (s.goto a k) := by
  refine ⟨h.store, h.cached, fun b => ?_⟩
  have hb : Knows s ((s.goto a k).pc b) := by
    by_cases hba : b = a
    · rw [hba, goto_pc_self]
      exact hk
    · rw [goto_pc_ne s a hba]
      exact h.knows b
  exact ⟨hb.clearing, hb.loaded, hb.marked⟩

/-- Changes of anything else. -/
theorem Backed.of_eq (h : Backed s) (hp : t.pages = s.pages) (hpc : t.pc = s.pc)
    (hssd : t.ssd = s.ssd) (hdata : t.slotData = s.slotData) (hw : t.written = s.written) :
    Backed t := by
  refine ⟨fun p hp' => ?_, fun p hv => ?_, fun b => ?_⟩
  · rw [hssd, hw]
    rw [hp] at hp'
    exact h.store p hp'
  · rw [hdata, hw, hp]
    rw [hp] at hv
    exact h.cached p hv
  · have hb := h.knows b
    rw [← hpc] at hb
    refine ⟨fun q hq => ?_, fun q i hq => ?_, fun q hq => ?_⟩
    · rw [hssd, hw]
      exact hb.clearing q hq
    · rw [hdata, hw]
      exact hb.loaded q i hq
    · rw [hp]
      exact hb.marked q hq

/-- A store to a page that leaves VALID, keeps DIRTY if it is set, and leaves the offset of a
    valid page. -/
theorem Backed.setPage (h : Backed s) {d : DataPage}
    (hv : d.state.isValid = (s.pages p).state.isValid)
    (hd : (s.pages p).state.isDirty = true → d.state.isDirty = true)
    (ho : d.state.isValid = true → d.offset = (s.pages p).offset) : Backed (s.setPage p d) := by
  refine ⟨fun q hq => ?_, fun q hq => ?_, fun b => ?_⟩
  · rw [setPage_apply] at hq
    split at hq
    · rename_i hqp
      rw [hqp]
      refine h.store p fun hvalid => ?_
      have hclean := hq (hv.trans hvalid)
      cases hdirty : (s.pages p).state.isDirty with
      | false => rfl
      | true =>
        rw [hd hdirty] at hclean
        cases hclean
    · exact h.store q hq
  · rw [setPage_apply] at hq ⊢
    split at hq
    · rename_i hqp
      rw [if_pos hqp, ho hq, hqp]
      exact h.cached p (hv.symm.trans hq)
    · rename_i hqp
      rw [if_neg hqp]
      exact h.cached q hq
  · have hb := h.knows b
    refine ⟨hb.clearing, hb.loaded, fun q hq => ?_⟩
    rw [setPage_apply]
    split
    · rename_i hqp
      rw [hqp] at hq
      exact hd (hb.marked p hq)
    · exact hb.marked q hq

theorem Backed.setState (h : Backed s) {w : Word} (hv : w.isValid = (s.pages p).state.isValid)
    (hd : (s.pages p).state.isDirty = true → w.isDirty = true) : Backed (s.setState p w) :=
  h.setPage hv hd fun _ => rfl

/-- `find_slot` writes a slot back. -/
theorem Backed.writeData (h : Backed s) {i : Nat} (hi : s.slotData i = s.written p) :
    Backed { s with ssd := update s.ssd p (s.slotData i) } := by
  have hssd : ∀ q, s.ssd q = s.written q ∨ q = p →
      update s.ssd p (s.slotData i) q = s.written q := by
    intro q hq
    by_cases hqp : q = p
    · rw [hqp, Function.update_self, hi]
    · rw [Function.update_of_ne hqp]
      exact hq.resolve_right hqp
  refine ⟨fun q hq => hssd q (.inl (h.store q hq)), h.cached, fun b => ?_⟩
  have hb := h.knows b
  exact ⟨fun q hq => hssd q (.inl (hb.clearing q hq)), hb.loaded, hb.marked⟩

/-- `find_slot` clears the state of a page whose data is in the store. -/
theorem Backed.clearState (h : Backed s) (hp : s.ssd p = s.written p)
    (hm : ∀ b q, (s.pc b).marked = some q → q ≠ p) :
    Backed (s.setState p ((s.pages p).state &&& Word.cntMask)) := by
  refine ⟨fun q hq => ?_, fun q hq => ?_, fun b => ?_⟩
  · by_cases hqp : q = p
    · rw [hqp]
      exact hp
    · rw [setState_state, if_neg hqp] at hq
      exact h.store q hq
  · have hqp : q ≠ p := by
      rintro rfl
      rw [setState_state, if_pos rfl, Word.isValid_and_cntMask] at hq
      cases hq
    rw [setState_state, if_neg hqp] at hq
    have hpage : (s.setState p ((s.pages p).state &&& Word.cntMask)).pages q = s.pages q :=
      Function.update_of_ne hqp ..
    rw [hpage]
    exact h.cached q hq
  · have hb := h.knows b
    refine ⟨hb.clearing, hb.loaded, fun q hq => ?_⟩
    rw [setState_state, if_neg (hm b q hq)]
    exact hb.marked q hq

/-- A page is read into a slot in which no other page is. -/
theorem Backed.readData (h : Backed s) {i : Nat}
    (hv : ∀ q, (s.pages q).state.isValid = true → (s.pages q).offset ≠ i)
    (hl : ∀ b q j, (s.pc b).loaded = some (q, j) → j ≠ i) :
    Backed { s with slotData := update s.slotData i (s.ssd p) } := by
  refine ⟨h.store, fun q hq => ?_, fun b => ?_⟩
  · show update s.slotData i (s.ssd p) (s.pages q).offset = _
    rw [Function.update_of_ne (hv q hq)]
    exact h.cached q hq
  · have hb := h.knows b
    refine ⟨hb.clearing, fun q j hq => ?_, hb.marked⟩
    show update s.slotData i (s.ssd p) j = _
    rw [Function.update_of_ne (hl b q j hq)]
    exact hb.loaded q j hq

/-- A page whose slot has its data is published. -/
theorem Backed.publish (h : Backed s) (hv : (s.pages p).state.isValid = false)
    (hdata : s.slotData (s.pages p).offset = s.written p) :
    Backed (s.setState p ((s.pages p).state ^^^ Word.disableBusyEnableValid)) := by
  refine ⟨fun q hq => ?_, fun q hq => ?_, fun b => ?_⟩
  · by_cases hqp : q = p
    · rw [hqp]
      refine h.store p fun hvalid => ?_
      rw [hv] at hvalid
      cases hvalid
    · rw [setState_state, if_neg hqp] at hq
      exact h.store q hq
  · by_cases hqp : q = p
    · subst hqp
      rw [show ((s.setState q _).pages q).offset = (s.pages q).offset by
        rw [St.setState, setPage_apply, if_pos rfl]]
      exact hdata
    · rw [setState_state, if_neg hqp] at hq
      rw [show ((s.setState p _).pages q).offset = (s.pages q).offset by
        rw [St.setState, setPage_apply, if_neg hqp]]
      exact h.cached q hq
  · have hb := h.knows b
    refine ⟨hb.clearing, hb.loaded, fun q hq => ?_⟩
    rw [setState_state]
    split
    · rename_i hqp
      rw [Word.isDirty_xor, ← hqp]
      exact hb.marked q hq
    · exact hb.marked q hq

/-- An element of a dirty page is written. -/
theorem Backed.write (h : Backed s) {i e : Nat} {v : V} (hd : (s.pages p).state.isDirty = true)
    (hv : (s.pages p).state.isValid = true) (ho : (s.pages p).offset = i)
    (hother : ∀ q, (s.pages q).state.isValid = true → q ≠ p → (s.pages q).offset ≠ i)
    (hl : ∀ b q j, (s.pc b).loaded = some (q, j) → q ≠ p ∧ j ≠ i)
    (hc : ∀ b, (s.pc b).clearing ≠ some p) :
    Backed { s with
      slotData := update s.slotData i (update (s.slotData i) e v)
      written := update s.written p (update (s.written p) e v) } := by
  have hslot : s.slotData i = s.written p := by
    rw [← ho]
    exact h.cached p hv
  refine ⟨fun q hq => ?_, fun q hq => ?_, fun b => ?_⟩
  · have hqp : q ≠ p := by
      rintro rfl
      rw [hq hv] at hd
      cases hd
    show s.ssd q = update s.written p _ q
    rw [Function.update_of_ne hqp]
    exact h.store q hq
  · show update s.slotData i _ (s.pages q).offset = update s.written p _ q
    by_cases hqp : q = p
    · rw [hqp, ho, Function.update_self, Function.update_self, hslot]
    · rw [Function.update_of_ne (hother q hq hqp), Function.update_of_ne hqp]
      exact h.cached q hq
  · have hb := h.knows b
    refine ⟨fun q hq => ?_, fun q j hq => ?_, hb.marked⟩
    · show s.ssd q = update s.written p _ q
      have hqp : q ≠ p := by
        rintro rfl
        exact hc b hq
      rw [Function.update_of_ne hqp]
      exact hb.clearing q hq
    · show update s.slotData i _ j = update s.written p _ q
      obtain ⟨hqp, hji⟩ := hl b q j hq
      rw [Function.update_of_ne hji, Function.update_of_ne hqp]
      exact hb.loaded q j hq

end Backed

/-! ## What the protocol says of the agents -/

theorem Pc.clearing_taking {R : Nat} {k : Pc R} {q : PageId R} (h : k.clearing = some q) :
    k.taking = some ⟨q, true⟩ := by
  simp only [Pc.clearing] at h
  split at h
  · rw [← Option.some.inj h]
    rfl
  · cases h

theorem Pc.loaded_serving {R : Nat}
    {k : Pc R} {p : PageId R} {i : Nat} (h : k.loaded = some (p, i)) :
    ∃ st, k.serving = some ⟨p, i, st⟩ := by
  simp only [Pc.loaded] at h
  split at h
  · obtain ⟨rfl, rfl⟩ := Prod.mk.inj (Option.some.inj h)
    exact ⟨false, rfl⟩
  · obtain ⟨rfl, rfl⟩ := Prod.mk.inj (Option.some.inj h)
    exact ⟨true, rfl⟩
  · obtain ⟨rfl, rfl⟩ := Prod.mk.inj (Option.some.inj h)
    exact ⟨true, rfl⟩
  · cases h

theorem Pc.marked_ref {R : Nat} {k : Pc R} {p : PageId R} (h : k.marked = some p) :
    ∃ n i, k.ref = some ⟨p, n, .fixed i⟩ := by
  simp only [Pc.marked] at h
  split at h
  case h_1 c i =>
    obtain rfl := Option.some.inj h
    exact ⟨c.count, i, rfl⟩
  case h_2 c i m hm tc =>
    split at h
    case isTrue hlt =>
      obtain rfl := Option.some.inj h
      exact ⟨c.count - m, i, if_pos hlt⟩
    case isFalse => cases h
  case h_3 c i m hm k hk =>
    obtain rfl := Option.some.inj h
    cases k with
    | subRefCount tc => exact absurd rfl (hk tc)
    | _ => exact ⟨c.count, i, rfl⟩
  case h_4 => cases h

section Agents

variable {R : Nat} {A V : Type*} {s : St R A V} {a b : A} {p q : PageId R} {i j : Nat}

/-- A page that is read into a slot is not valid, and lives in it. -/
theorem served_home [NeZero R] [Fintype A]
    (hi : Referenced (abs s)) {st : Bool} (h : (s.pc a).serving = some ⟨p, i, st⟩) :
    (s.pages p).state.isValid = false ∧ (abs s).Home p i ∧ (abs s).leader p = some a := by
  obtain ⟨hl, hg, -⟩ := hi.owned.serve a ⟨p, i, st⟩ h
  have hne : (abs s).leader p ≠ none := by
    rw [hl]
    exact Option.some_ne_none a
  exact ⟨(hi.owned.opened hne).2, ⟨hg, .inr hne⟩, hl⟩

theorem valid_home [NeZero R] [Fintype A]
    (hi : Referenced (abs s)) (hv : (s.pages p).state.isValid = true) :
    (abs s).Home p (s.pages p).offset :=
  ⟨hi.placed.valid p hv, .inl hv⟩

/-- A slot is the home of one page. -/
theorem home_unique [NeZero R] [Fintype A]
    (hi : Referenced (abs s)) (hp : (abs s).Home p i) (hq : (abs s).Home q i) :
    p = q := by
  have htp := (hi.slotted.home p i hp).1
  have htq := (hi.slotted.home q i hq).1
  rw [htp] at htq
  exact Option.some.inj htq

/-- No other page is in a slot into which a page is read. -/
theorem served_alone [NeZero R] [Fintype A] (hi : Referenced (abs s)) {st : Bool}
    (h : (s.pc a).serving = some ⟨p, i, st⟩) (hv : (s.pages q).state.isValid = true) :
    (s.pages q).offset ≠ i := by
  rintro rfl
  obtain ⟨hinv, hhome, -⟩ := served_home hi h
  rw [home_unique hi hhome (valid_home hi hv), hv] at hinv
  cases hinv

/-- Two agents do not read into one slot. -/
theorem served_once [NeZero R] [Fintype A] (hi : Referenced (abs s)) {st st' : Bool}
    (h : (s.pc a).serving = some ⟨p, i, st⟩) (h' : (s.pc b).serving = some ⟨q, i, st'⟩) :
    a = b := by
  obtain ⟨-, hhome, hl⟩ := served_home hi h
  obtain ⟨-, hhome', hl'⟩ := served_home hi h'
  rw [home_unique hi hhome hhome', hl'] at hl
  exact (Option.some.inj hl).symm

/-- An evictor has its page in the slot it has locked. -/
theorem taken_slot [NeZero R] [Fintype A]
    (hi : Referenced (abs s)) (ht : (s.pc a).taking = some ⟨q, true⟩)
    (hown : (s.pc a).own = some ⟨i, .looked q⟩) :
    (s.pages q).state.isValid = true ∧ (s.pages q).offset = i := by
  have hv := (hi.owned.evict a ⟨q, true⟩ ht).1
  have hgiven := (hi.slotted.looking a i q hown).1
  rw [hi.placed.valid q hv] at hgiven
  exact ⟨hv, Option.some.inj hgiven⟩

/-- A page that somebody holds is not evicted. -/
theorem held_not_taken [NeZero R] [Fintype A] (hi : Referenced (abs s)) {n : Nat}
    (hr : (s.pc b).ref = some ⟨p, n, .fixed i⟩) (ht : (s.pc a).taking = some ⟨q, true⟩) :
    p ≠ q := by
  rintro rfl
  have hev := hi.counted.safe b a ⟨p, n, .fixed i⟩ ⟨p, true⟩ hr (by simp) ht rfl
  cases hev

end Agents

/-! ## Every step keeps the data -/

section Steps

variable [Fintype A] {s s' : St R A V} {a : A} {cfg : Config R}

theorem Backed.findStep (h : Backed s) (hi : Referenced (abs s)) {c : Call R} {k : FindPc R}
    (hpc : s.pc a = .acquire c (.find k)) :
    Backed (findStep cfg .state s a c.page (fun k => .acquire c (.find k))
      (fun i => .acquire c (.chooseCtrl i)) k) := by
  have hknow := h.knows a
  rw [hpc] at hknow
  have hnone : ∀ k : FindPc R, Pc.clearing (.acquire c (.find k)) = none →
      ∀ t : St R A V, Knows t (.acquire c (.find k)) :=
    fun k hk t => knows_of_none hk rfl rfl
  cases k with
  | ticket =>
    exact (h.of_eq (t := { s with pageTicket := s.pageTicket + 1 }) rfl rfl rfl rfl rfl).goto
      (hnone _ rfl _)
  | loadLock i =>
    simp only [PageCache.findStep]
    split <;> exact h.goto (hnone _ rfl _)
  | casFree i =>
    simp only [PageCache.findStep]
    split
    · exact (h.of_eq (t := s.setLock i .locked) rfl rfl rfl rfl rfl).goto (hnone _ rfl _)
    · exact h.goto (hnone _ rfl _)
  | casUnlocked i =>
    simp only [PageCache.findStep]
    split
    · exact (h.of_eq (t := s.setLock i .locked) rfl rfl rfl rfl rfl).goto (hnone _ rfl _)
    · exact h.goto (hnone _ rfl _)
  | loadTrans i => exact h.goto (hnone _ rfl _)
  | loadState i q =>
    simp only [PageCache.findStep, findTest]
    split <;> exact h.goto (hnone _ rfl _)
  | loadRefCount i q =>
    simp only [PageCache.findStep, findTest]
    split <;> exact h.goto (hnone _ rfl _)
  | setBusy i q =>
    have hset : Backed (s.setState q ((s.pages q).state ||| Word.BUSY)) :=
      h.setState (Word.isValid_or_BUSY _) fun hd => (Word.isDirty_or_BUSY _).trans hd
    simp only [PageCache.findStep]
    split
    · exact hset.goto (hnone _ rfl _)
    · split
      · split
        case isTrue => exact hset.goto (hnone _ rfl _)
        case isFalse hclean =>
          -- a page that is not dirty has its data in the store
          refine hset.goto (knows_clearing (p := q) rfl ?_ rfl rfl)
          exact h.store q fun _ => Bool.eq_false_iff.mpr hclean
      · exact hset.goto (hnone _ rfl _)
  | writeData i q =>
    have htake : (s.pc a).taking = some ⟨q, true⟩ := by rw [hpc]; rfl
    have hown : (s.pc a).own = some ⟨i, .looked q⟩ := by rw [hpc]; rfl
    obtain ⟨hv, hoff⟩ := taken_slot hi htake hown
    have hdata : s.slotData i = s.written q := by
      rw [← hoff]
      exact h.cached q hv
    refine (h.writeData hdata).goto (knows_clearing (p := q) rfl ?_ rfl rfl)
    show update s.ssd q (s.slotData i) q = s.written q
    rw [Function.update_self]
    exact hdata
  | clearState i q =>
    have htake : (s.pc a).taking = some ⟨q, true⟩ := by rw [hpc]; rfl
    refine (h.clearState (hknow.clearing q rfl) fun b r hb => ?_).goto (hnone _ rfl _)
    obtain ⟨n, j, href⟩ := Pc.marked_ref hb
    exact held_not_taken hi href htake
  | undoBusy i q =>
    exact (h.setState (Word.isValid_and_disableBusy _) fun hd =>
      (Word.isDirty_and_disableBusy _).trans hd).goto (hnone _ rfl _)
  | unlockFail i q =>
    exact (h.of_eq (t := s.setLock i .unlocked) rfl rfl rfl rfl rfl).goto (hnone _ rfl _)
  | storeTrans i =>
    exact (h.of_eq (t := s.setTrans i _) rfl rfl rfl rfl rfl).goto (hnone _ rfl _)
  | unlockDone i =>
    exact (h.of_eq (t := (s.setLock i .unlocked).assigned c.page i) rfl rfl rfl rfl rfl).goto
      (knows_of_none rfl rfl rfl)

theorem knows_dispatch {R : Nat} [NeZero R] {A V : Type*} [DecidableEq A]
    (t : St R A V) (c : Call R) (w : Word) :
    Knows t (.acquire c (acquireDispatch c w)) := by
  rw [acquireDispatch]
  split
  case h_2 => split <;> exact knows_of_none rfl rfl rfl
  all_goals exact knows_of_none rfl rfl rfl

theorem knows_acquired {R : Nat} [NeZero R] {A V : Type*} [DecidableEq A]
    (t : St R A V) (c : Call R) (i : Nat) : Knows t (acquired c i) := by
  rw [acquired]
  split <;> exact knows_of_none rfl rfl rfl

theorem Backed.prologueStep {R : Nat} [NeZero R] {A V : Type*} [DecidableEq A] {s : St R A V}
    {a : A} (h : Backed s) {c : Call R} (k : ProloguePc) :
    Backed (prologueStep s a c.page (fun k => .acquire c (.prologue k))
      (fun pin => .acquire c (.fetchAdd pin)) k) := by
  have hgo : ∀ (t : St R A V) (k : ProloguePc), Knows t (.acquire c (.prologue k)) :=
    fun t k => knows_of_none rfl rfl rfl
  have hret : ∀ (t : St R A V) (pin : Bool), Knows t (.acquire c (.fetchAdd pin)) :=
    fun t pin => knows_of_none rfl rfl rfl
  cases k with
  | loadPrefetch =>
    simp only [PageCache.prologueStep]
    split <;> exact h.goto (hgo _ _)
  | storePrefetch w =>
    exact (h.setPage (p := c.page)
      (d := { s.pages c.page with prefetchCount := w ||| 0x80#8 }) rfl id fun _ => rfl).goto
        (hgo _ _)
  | loadWindow pin =>
    simp only [PageCache.prologueStep]
    split
    · exact h.goto (hgo _ _)
    · exact h.goto (hret _ _)
  | storeWindow w =>
    exact (h.setPage (p := c.page)
      (d := { s.pages c.page with prefetchCounter := w ||| 0x80#8 }) rfl id fun _ => rfl).goto
        (hret _ _)

theorem Backed.acquireStep (h : Backed s) (hi : Referenced (abs s)) {c : Call R}
    {k : AcquirePc R} (hpc : s.pc a = .acquire c k)
    (hadd : ∀ d ∈ addsCount s a, (s.pages d.1).state.cnt + d.2 < Word.cntLimit) :
    Backed (acquireStep cfg s a c k) := by
  have hknow := h.knows a
  rw [hpc] at hknow
  cases k with
  | prologue k => exact h.prologueStep k
  | fetchAdd pin =>
    have hfit := hadd (c.page, c.count + pin.toNat) (by rw [addsCount, hpc]; rfl)
    exact (h.setState (Word.isValid_add hfit) fun hd => (Word.isDirty_add hfit).trans hd).goto
      (knows_dispatch _ c _)
  | setBusy =>
    have hset : Backed (s.setState c.page ((s.pages c.page).state ||| Word.BUSY)) :=
      h.setState (Word.isValid_or_BUSY _) fun hd => (Word.isDirty_or_BUSY _).trans hd
    simp only [PageCache.acquireStep]
    split
    · exact hset.goto (knows_of_none rfl rfl rfl)
    · exact (hset.of_eq (t := (s.setState c.page _).led c.page a false) rfl rfl rfl rfl rfl).goto
        (knows_of_none rfl rfl rfl)
  | find k => exact h.findStep hi hpc
  | chooseCtrl i =>
    simp only [PageCache.acquireStep]
    split
    · exact h.goto (knows_of_none rfl rfl rfl)
    · exact (h.of_eq (t := { s with ctrlCounter := s.ctrlCounter + 1 }) rfl rfl rfl rfl rfl).goto
        (knows_of_none rfl rfl rfl)
  | readData i =>
    have hserve : (s.pc a).serving = some ⟨c.page, i, false⟩ := by rw [hpc]; rfl
    have hinv := (served_home hi hserve).1
    refine (h.readData (p := c.page) (fun q hq => served_alone hi hserve hq)
      fun b q j hb => ?_).goto (knows_loaded (p := c.page) (i := i) rfl ?_ rfl rfl)
    · obtain ⟨st, hst⟩ := Pc.loaded_serving hb
      rintro rfl
      obtain rfl := served_once hi hst hserve
      rw [hpc] at hb
      cases hb
    · show update s.slotData i (s.ssd c.page) i = s.written c.page
      rw [Function.update_self]
      refine h.store c.page fun hv => ?_
      rw [hinv] at hv
      cases hv
  | storeOffset i =>
    have hserve : (s.pc a).serving = some ⟨c.page, i, false⟩ := by rw [hpc]; rfl
    have hset : Backed (s.setOffset c.page i) := h.setPage rfl id fun hv => by
      rw [(served_home hi hserve).1] at hv
      cases hv
    have hdata : s.slotData i = s.written c.page := hknow.loaded c.page i rfl
    simp only [PageCache.acquireStep]
    split <;> exact hset.goto (knows_loaded (p := c.page) (i := i) rfl hdata rfl rfl)
  | setDirty i =>
    exact (h.setState (Word.isValid_or_DIRTY _) fun _ => Word.isDirty_or_DIRTY _).goto
      (knows_loaded (p := c.page) (i := i) rfl (hknow.loaded c.page i rfl) rfl rfl)
  | publish i =>
    have hserve : (s.pc a).serving = some ⟨c.page, i, true⟩ := by rw [hpc]; rfl
    have hoff : (s.pages c.page).offset = i := hi.placed.served a _ hserve rfl
    have hset := h.publish (p := c.page) (served_home hi hserve).1 (by
      rw [hoff]
      exact hknow.loaded c.page i rfl)
    exact (hset.of_eq (t := (s.setState c.page _).published c.page) rfl rfl rfl rfl rfl).goto
      (knows_acquired _ c i)
  | markDirty =>
    exact (h.setState (Word.isValid_or_DIRTY _) fun _ => Word.isDirty_or_DIRTY _).goto
      (knows_of_none rfl rfl rfl)
  | loadOffset => exact h.goto (knows_acquired s c _)
  | reload => exact h.goto (knows_dispatch s c _)

theorem Backed.mark {R : Nat} [NeZero R] {A V : Type*} [DecidableEq A] {s : St R A V} {a : A}
    (h : Backed s) {c : Call R} {i : Nat} (hpc : s.pc a = .mark c i)
    (hok : MarksOwn s (.run a)) :
    Backed ((s.setState ⟨c.page.range, i⟩
      ((s.pages ⟨c.page.range, i⟩).state ||| Word.DIRTY)).goto a (.holding c i true)) := by
  have hown := hok a rfl (c.page, i) (by rw [marksPage, hpc]; rfl)
  refine (h.setState (Word.isValid_or_DIRTY _) fun _ => Word.isDirty_or_DIRTY _).goto
    (knows_marked (fun q hq => ?_) rfl rfl)
  obtain rfl := Option.some.inj hq
  rw [setState_state]
  split
  case isTrue => exact Word.isDirty_or_DIRTY _
  case isFalse hne =>
    refine hown.resolve_left fun hidx => hne ?_
    rw [show i = c.page.index from hidx]

theorem marked_holding {R : Nat} (c : Call R) (i : Nat) (marked : Bool) :
    (Pc.holding c i marked).marked = if marked then some c.page else none := by
  cases marked <;> rfl

theorem marked_release {R : Nat} (c : Call R) (i : Nat) (marked : Bool) {m : Nat} (hm : m ≤ c.count)
    {k : ReleasePc} (hk : ∀ tc, k ≠ .subRefCount tc) :
    (Pc.release c i marked m hm k).marked = if marked then some c.page else none := by
  cases marked with
  | false => cases k <;> rfl
  | true =>
    cases k with
    | subRefCount tc => exact absurd rfl (hk tc)
    | _ => rfl

theorem marked_subRefCount {R : Nat}
    (c : Call R) (i : Nat) (marked : Bool) {m : Nat} (hm : m ≤ c.count)
    (tc : Bool) : (Pc.release c i marked m hm (.subRefCount tc)).marked =
      if marked ∧ m < c.count then some c.page else none := by
  cases marked with
  | false => rfl
  | true =>
    rw [Pc.marked]
    simp

/-- A pointer that goes on with no page that it had not marked. -/
theorem Backed.keeps {R : Nat} [NeZero R] {A V : Type*} [DecidableEq A] {s : St R A V} {a : A}
    (h : Backed s) {k : Pc R} (hm : ∀ q, k.marked = some q →
    (s.pc a).marked = some q) (hc : k.clearing = none) (hl : k.loaded = none) : Knows s k :=
  knows_marked (fun q hq => (h.knows a).marked q (hm q hq)) hc hl

theorem Backed.releaseStep {R : Nat} [NeZero R] {A V : Type*} [DecidableEq A] {s : St R A V} {a : A}
    (h : Backed s) {c : Call R} {i m : Nat} {marked : Bool}
    {hm : m ≤ c.count} {k : ReleasePc} (hpc : s.pc a = .release c i marked m hm k)
    (hsub : ∀ d ∈ subsCount s a, d.2 ≤ (s.pages d.1).state.cnt) :
    Backed (releaseStep s a c i marked m hm k) := by
  -- on its way to the end of a release the pointer has the page that it had
  have hgo : ∀ t : St R A V, Backed t → t.pc = s.pc → (∀ tc, k ≠ .subRefCount tc) →
      ∀ k' : ReleasePc, Knows t (.release c i marked m hm k') := by
    intro t ht hpct hk k'
    refine ht.keeps (a := a) (fun q hq => ?_) (by cases k' <;> rfl) (by cases k' <;> rfl)
    rw [hpct, hpc, marked_release c i marked hm hk]
    cases k' with
    | subRefCount tc =>
      rw [marked_subRefCount] at hq
      split at hq
      case isTrue hlt => rw [if_pos hlt.1]; exact hq
      case isFalse => cases hq
    | _ => rwa [marked_release c i marked hm (by intro tc; exact ReleasePc.noConfusion)] at hq
  cases k with
  | loadPrefetch => exact h.goto (hgo s h rfl (by intro tc; exact ReleasePc.noConfusion) _)
  | storePrefetch =>
    have hset : Backed (s.setPrefetchCount c.page 0#8) := h.setPage rfl id fun _ => rfl
    exact hset.goto (hgo _ hset rfl (by intro tc; exact ReleasePc.noConfusion) _)
  | subPrefetch =>
    have hset : Backed (s.setPrefetchCount c.page ((s.pages c.page).prefetchCount - 1#8)) :=
      h.setPage rfl id fun _ => rfl
    exact hset.goto (hgo _ hset rfl (by intro tc; exact ReleasePc.noConfusion) _)
  | loadWindow tc => exact h.goto (hgo s h rfl (by intro tc; exact ReleasePc.noConfusion) _)
  | storeWindow =>
    have hset : Backed (s.setPrefetchCounter c.page 0#8) := h.setPage rfl id fun _ => rfl
    exact hset.goto (hgo _ hset rfl (by intro tc; exact ReleasePc.noConfusion) _)
  | subWindow tc =>
    have hset : Backed (s.setPrefetchCounter c.page ((s.pages c.page).prefetchCounter - 1#8)) :=
      h.setPage rfl id fun _ => rfl
    exact hset.goto (hgo _ hset rfl (by intro tc; exact ReleasePc.noConfusion) _)
  | subState tc =>
    have hn := hsub (c.page, m + tc.toNat) (by rw [subsCount, hpc]; rfl)
    have hset : Backed (s.setState c.page
        ((s.pages c.page).state - BitVec.ofNat 32 (m + tc.toNat))) :=
      h.setState (Word.isValid_sub hn) fun hd => (Word.isDirty_sub hn).trans hd
    exact hset.goto (hgo _ hset rfl (by intro tc; exact ReleasePc.noConfusion) _)
  | subRefCount tc =>
    have hset : Backed (s.setRefCount c.page
        ((s.pages c.page).refCount - BitVec.ofNat 32 (m + tc.toNat))) :=
      h.setPage rfl id fun _ => rfl
    show Backed ((s.setRefCount c.page _).goto a (released c i marked m))
    rw [released]
    split
    case isTrue hlt =>
      refine hset.goto (hset.keeps (a := a) (fun q hq => ?_) rfl rfl)
      rw [marked_holding] at hq
      rw [show (s.setRefCount c.page _).pc a = s.pc a from rfl, hpc, marked_subRefCount]
      split at hq
      case isTrue hmark => rwa [if_pos ⟨hmark, hlt⟩]
      case isFalse => cases hq
    case isFalse => exact hset.goto (knows_of_none rfl rfl rfl)

/-- A pointer that holds its window, entered by `operator[]`, writes an element. -/
theorem Backed.writeElement {R : Nat} [NeZero R] {A V : Type*} [Fintype A] {s : St R A V} {a : A}
    (h : Backed s) (hi : Referenced (abs s)) {c : Call R} {i : Nat}
    (hpc : s.pc a = .holding c i true) (e : Nat) (v : V) :
    Backed { s with
      slotData := update s.slotData i (update (s.slotData i) e v)
      written := update s.written c.page (update (s.written c.page) e v) } := by
  have href : (s.pc a).ref = some ⟨c.page, c.count, .fixed i⟩ := by rw [hpc]; rfl
  obtain ⟨hv, hoff⟩ := hi.counted.fixed a _ i href rfl
  have hhome := valid_home hi hv
  rw [show (s.pages c.page).offset = i from hoff] at hhome
  refine h.write ((h.knows a).marked c.page (by rw [hpc]; rfl)) hv hoff (fun q hq hne => ?_)
    (fun b q j hb => ?_) fun b hb => ?_
  · rintro rfl
    exact hne (home_unique hi (valid_home hi hq) hhome)
  · obtain ⟨st, hst⟩ := Pc.loaded_serving hb
    obtain ⟨hinv, hq, -⟩ := served_home hi hst
    refine ⟨?_, ?_⟩
    · rintro rfl
      rw [show (s.pages c.page).state.isValid = true from hv] at hinv
      cases hinv
    · rintro rfl
      exact served_alone hi hst hv hoff
  · exact held_not_taken hi href (Pc.clearing_taking hb) rfl

/-- No command has been sent to a queue. -/
def Unsent (s : St R A V) : Prop := ∀ ctrl queue, (s.qps ctrl queue).sq = []

theorem Unsent.of_eq {R : Nat} {A V : Type*} {s : St R A V}
    {t : St R A V} (h : Unsent s) (hq : t.qps = s.qps) : Unsent t := by
  intro ctrl queue
  rw [hq]
  exact h ctrl queue

/-- Synchronous operations send no command. -/
theorem Unsent.step {R : Nat} [NeZero R] {A V : Type*} [DecidableEq A] {s s' : St R A V}
    {cfg : Config R} {act : Act R A V} (h : Unsent s) (ho : SyncOnly s) (hact : act.isSync = true)
    (hs : step cfg s act = some s') : Unsent s' := by
  cases act with
  | run a =>
    have hpc := ho.pc a
    simp only [PageCache.step, runStep] at hs
    split at hs <;> rename_i hk <;> rw [hk] at hpc
    · cases hs
      exact h.of_eq (acquireStep_qps ..)
    · cases hpc
    · cases hpc
    · cases hs
      exact h.of_eq rfl
    · cases hs
      exact h.of_eq (releaseStep_qps ..)
    all_goals cases hs
  | post ctrl queue n =>
    simp only [PageCache.step, postStep, h ctrl queue] at hs
    cases hs
  | acquire a c =>
    simp only [PageCache.step] at hs
    split at hs <;> cases hs
    exact h.of_eq rfl
  | release a m =>
    simp only [PageCache.step] at hs
    split at hs
    · split at hs <;> cases hs
      exact h.of_eq rfl
    · cases hs
  | spurious a =>
    simp only [PageCache.step] at hs
    split at hs
    · rename_i c k hk
      cases k <;> cases hs <;> exact h.of_eq rfl
    · rename_i c x k hk
      cases k <;> cases hs <;> exact h.of_eq rfl
    · cases hs
  | write a e v =>
    simp only [PageCache.step] at hs
    split at hs <;> cases hs
    exact h.of_eq rfl
  | _ => cases hact

/-- Synchronous operations that write no element leave what was last written. -/
theorem step_written {R : Nat} [NeZero R] {A V : Type*} [DecidableEq A] {s s' : St R A V}
    {cfg : Config R} {act : Act R A V} (ho : SyncOnly s) (hact : act.isSync = true)
    (hw : act.writer = none) (hs : step cfg s act = some s') : s'.written = s.written := by
  cases act with
  | run a =>
    have hpc := ho.pc a
    simp only [PageCache.step, runStep] at hs
    split at hs <;> rename_i hk <;> rw [hk] at hpc
    · cases hs
      exact acquireStep_written ..
    · cases hpc
    · cases hpc
    · cases hs
      rfl
    · cases hs
      exact releaseStep_written ..
    all_goals cases hs
  | acquire a c =>
    simp only [PageCache.step] at hs
    split at hs <;> cases hs
    rfl
  | release a m =>
    simp only [PageCache.step] at hs
    split at hs
    · split at hs <;> cases hs
      rfl
    · cases hs
  | post ctrl queue n =>
    simp only [PageCache.step, postStep] at hs
    split at hs <;> cases hs
    rfl
  | spurious a =>
    simp only [PageCache.step] at hs
    split at hs
    · rename_i c k hk
      cases k <;> cases hs <;> rfl
    · rename_i c x k hk
      cases k <;> cases hs <;> rfl
    · cases hs
  | write a e v => cases hw
  | _ => cases hact

theorem Backed.run (h : Backed s) (hi : Referenced (abs s)) (ho : SyncOnly s)
    (hok : Marking s (.run a)) (hs : runStep cfg s a = some s') : Backed s' := by
  have hpca := ho.pc a
  rw [runStep] at hs
  split at hs <;> rename_i hpc <;> rw [hpc] at hpca
  · cases hs
    exact h.acquireStep hi hpc (hok.adds a rfl)
  · cases hpca
  · cases hpca
  · cases hs
    exact h.mark hpc hok.marks
  · cases hs
    exact h.releaseStep hpc fun d hd => subs_fit hi.counted (ho.pinsCounted _) hd
  all_goals cases hs

/-- What a step of a run whose pointers mark their pages keeps. -/
theorem Backed.step {act : Act R A V} (h : Backed s) (hi : Referenced (abs s)) (ho : SyncOnly s)
    (hq : Unsent s) (hok : Marking s act) (hs : step cfg s act = some s') : Backed s' := by
  cases act with
  | run a => exact h.run hi ho hok hs
  | post ctrl queue n =>
    -- nothing has been sent that could be completed
    simp only [PageCache.step, postStep, hq ctrl queue] at hs
    cases hs
  | acquire a c =>
    simp only [PageCache.step] at hs
    split at hs <;> cases hs
    exact h.goto (knows_of_none rfl rfl rfl)
  | release a m =>
    simp only [PageCache.step] at hs
    split at hs
    · rename_i c i marked hpc
      split at hs <;> cases hs
      refine h.goto (h.keeps (a := a) (fun q hm => ?_) rfl rfl)
      rw [hpc, marked_holding]
      rwa [marked_release _ _ _ _ (by intro tc; exact ReleasePc.noConfusion)] at hm
    · cases hs
  | spurious a =>
    simp only [PageCache.step] at hs
    split at hs
    · rename_i c k hk
      cases k <;> cases hs <;> exact h.goto (knows_of_none rfl rfl rfl)
    · rename_i c x k hk
      have hpc := ho.pc a
      rw [hk] at hpc
      cases hpc
    · cases hs
  | write a e v =>
    simp only [PageCache.step] at hs
    split at hs <;> cases hs
    rename_i c i marked hpc
    -- only a window entered by `operator[]` is written to, and its page is marked
    have hentered := hok.writes a rfl
    rw [hpc] at hentered
    obtain rfl : marked = true := hentered
    exact h.writeElement hi hpc e v
  | _ => cases hok.sync

theorem marking_sync (h : Reached cfg Marking s) : Reached cfg SyncRun s := by
  refine h.mono ?_
  rintro t act t' ⟨hok, hs⟩
  exact ⟨hok.toSyncRun, hs⟩

/-- In every run whose pointers mark their pages, every page's last values are in its slot or in
    the store. -/
theorem backed_reached (h : Reached cfg Marking s) : Backed s := by
  have hall : Backed s ∧ Unsent s := by
    induction h with
    | init h0 => exact ⟨.init h0, fun ctrl queue => (h0.queues ctrl queue).1⟩
    | step hr hstep ih =>
      obtain ⟨⟨hi, -⟩, ho⟩ := sync_reached (marking_sync hr)
      exact ⟨ih.1.step hi ho ih.2 hstep.1 hstep.2, ih.2.step ho hstep.1.sync hstep.2⟩
  exact hall.1

end Steps

/-! ## The slots that are given out -/

/-- The slot whose lock `find_slot` is about to load or to take from FREE. -/
def FindPc.trying : FindPc R → Option Nat
  | .loadLock i | .casFree i => some i
  | _ => none

def Pc.trying : Pc R → Option Nat
  | .acquire _ (.find k) | .submit _ _ (.find k) => k.trying
  | _ => none

/-- `find_slot` gives out no slot that the cache does not have. -/
structure SlotsFit (cfg : Config R) (s : St R A V) : Prop where
  tried : ∀ a i, (s.pc a).trying = some i → i < cfg.nPages
  given : ∀ i, (s.cachePages i).pageTakeLock ≠ .free → i < cfg.nPages

section Slots

variable {R : Nat} {A V : Type*} {cfg : Config R} {s s' t : St R A V} {a : A}

theorem SlotsFit.init (h : Init s) : SlotsFit cfg s where
  tried a i ha := by
    rw [h.pc a] at ha
    cases ha
  given i hi := absurd (h.lock i) hi

theorem SlotsFit.of_eq (h : SlotsFit cfg s) (hpc : t.pc = s.pc)
    (hl : ∀ i, (t.cachePages i).pageTakeLock = (s.cachePages i).pageTakeLock) :
    SlotsFit cfg t where
  tried a i ha := by
    rw [hpc] at ha
    exact h.tried a i ha
  given i hi := by
    rw [hl i] at hi
    exact h.given i hi

theorem SlotsFit.goto [DecidableEq A] (h : SlotsFit cfg s) {k : Pc R}
    (hk : ∀ i, k.trying = some i → i < cfg.nPages) :
    SlotsFit cfg (s.goto a k) where
  tried b i hb := by
    by_cases hba : b = a
    · rw [hba, goto_pc_self] at hb
      exact hk i hb
    · rw [goto_pc_ne s a hba] at hb
      exact h.tried b i hb
  given := h.given

/-- The agent goes on where it tries no slot. -/
theorem SlotsFit.leave [DecidableEq A] (h : SlotsFit cfg s) {k : Pc R} (hk : k.trying = none) :
    SlotsFit cfg (s.goto a k) := by
  refine h.goto fun i hi => ?_
  rw [hk] at hi
  cases hi

/-- A step that leaves the locks and goes on where it tries no slot. -/
theorem SlotsFit.moves [DecidableEq A]
    (h : SlotsFit cfg s) {k : Pc R} (hpc : t.pc = update s.pc a k)
    (hl : ∀ i, (t.cachePages i).pageTakeLock = (s.cachePages i).pageTakeLock)
    (hk : k.trying = none) : SlotsFit cfg t :=
  (h.leave (a := a) hk).of_eq hpc hl

theorem SlotsFit.setLock (h : SlotsFit cfg s) {i : Nat} (l : TakeLock) (hi : i < cfg.nPages) :
    SlotsFit cfg (s.setLock i l) where
  tried := h.tried
  given j hj := by
    by_cases hji : j = i
    · rw [hji]
      exact hi
    · rw [show (s.setLock i l).cachePages j = s.cachePages j from
        Function.update_of_ne hji ..] at hj
      exact h.given j hj

/-- Whoever has the lock of a slot has one of the cache's. -/
theorem SlotsFit.owned [NeZero R] [Fintype A] (h : SlotsFit cfg s) (hi : Referenced (abs s))
    {i : Nat} {st : Lib.PinCache.Stage (PageId R)} (ha : (s.pc a).own = some ⟨i, st⟩) : i < cfg.nPages := by
  refine h.given i fun hfree => ?_
  have htaken : (s.cachePages i).pageTakeLock.abs = .taken := hi.slotted.ownTaken a _ ha
  rw [hfree] at htaken
  cases htaken

theorem SlotsFit.findStep [NeZero R] [DecidableEq A]
    [Fintype A] (h : SlotsFit cfg s) (hi : Referenced (abs s)) {ver : FindVersion} {p : PageId R}
    {emb : FindPc R → Pc R} {ret : Nat → Pc R} {k : FindPc R} (hpc : s.pc a = emb k)
    (hemb : ∀ k, (emb k).trying = k.trying) (hown' : ∀ k, (emb k).own = k.own)
    (hret : ∀ i, (ret i).trying = none) :
    SlotsFit cfg (findStep cfg ver s a p emb ret k) := by
  have hown : ∀ o, k.own = some o → (s.pc a).own = some o := by
    intro o ho
    rw [hpc, hown']
    exact ho
  have htry : ∀ i, k.trying = some i → i < cfg.nPages := by
    intro i hk
    rw [← hemb, ← hpc] at hk
    exact h.tried a i hk
  have hleave : ∀ {t : St R A V} {k' : FindPc R}, SlotsFit cfg t → k'.trying = none →
      SlotsFit cfg (t.goto a (emb k')) := fun ht hk' => ht.leave ((hemb _).trans hk')
  cases k with
  | ticket =>
    -- a ticket is taken modulo the number of slots
    refine (h.of_eq (t := { s with pageTicket := s.pageTicket + 1 }) rfl fun _ => rfl).goto
      fun i hk => ?_
    rw [hemb] at hk
    obtain rfl := Option.some.inj hk
    exact Nat.mod_lt _ cfg.nPages_pos
  | loadLock i =>
    have hlt := htry i rfl
    simp only [PageCache.findStep]
    split
    · refine h.goto fun j hj => ?_
      rw [hemb] at hj
      obtain rfl := Option.some.inj hj
      exact hlt
    · exact hleave h rfl
    · exact hleave h rfl
  | casFree i =>
    simp only [PageCache.findStep]
    split
    · exact hleave (h.setLock .locked (htry i rfl)) rfl
    · exact hleave h rfl
  | casUnlocked i =>
    simp only [PageCache.findStep]
    split
    case isTrue hl =>
      -- UNLOCKED is not FREE: the slot was given out before
      refine hleave (h.setLock .locked (h.given i ?_)) rfl
      rw [hl]
      exact TakeLock.noConfusion
    case isFalse => exact hleave h rfl
  | unlockFail i q => exact hleave (h.setLock .unlocked (h.owned hi (hown _ rfl))) rfl
  | unlockDone i =>
    have hset := h.setLock .unlocked (h.owned hi (hown _ rfl))
    exact (hset.of_eq (t := (s.setLock i .unlocked).assigned p i) rfl fun _ => rfl).leave (hret i)
  | storeTrans i =>
    refine hleave (h.of_eq (t := s.setTrans i _) rfl fun j => ?_) rfl
    simp only [St.setTrans, Function.update_apply]
    split
    case isTrue hji => rw [hji]
    case isFalse => rfl
  | _ =>
    simp only [PageCache.findStep, findTest]
    (repeat' split) <;> exact h.moves rfl (fun _ => rfl) (hemb _)

theorem trying_dispatch (c : Call R) (w : Word) :
    Pc.trying (.acquire c (acquireDispatch c w)) = none := by
  rw [acquireDispatch]
  split
  case h_2 => split <;> rfl
  all_goals rfl

theorem trying_acquired (c : Call R) (i : Nat) : (acquired c i).trying = none := by
  rw [acquired]
  split <;> rfl

theorem SlotsFit.acquireStep [NeZero R] [DecidableEq A]
    [Fintype A] (h : SlotsFit cfg s) (hi : Referenced (abs s))
    {c : Call R} {k : AcquirePc R} (hpc : s.pc a = .acquire c k) :
    SlotsFit cfg (acquireStep cfg s a c k) := by
  cases k with
  | prologue k =>
    cases k <;> simp only [PageCache.acquireStep, prologueStep] <;> (repeat' split) <;>
      exact h.moves rfl (fun _ => rfl) rfl
  | find k =>
    rw [PageCache.acquireStep]
    exact h.findStep hi hpc (fun _ => rfl) (fun _ => rfl) fun _ => rfl
  | fetchAdd pin => exact h.moves rfl (fun _ => rfl) (trying_dispatch c _)
  | reload => exact h.leave (trying_dispatch c _)
  | loadOffset => exact h.leave (trying_acquired c _)
  | publish i => exact h.moves rfl (fun _ => rfl) (trying_acquired c i)
  | _ =>
    simp only [PageCache.acquireStep]
    (repeat' split) <;> exact h.moves rfl (fun _ => rfl) rfl

theorem SlotsFit.step [NeZero R] [DecidableEq A]
    [Fintype A] {act : Act R A V} (h : SlotsFit cfg s) (hi : Referenced (abs s))
    (ho : SyncOnly s) (hact : act.isSync = true) (hs : step cfg s act = some s') :
    SlotsFit cfg s' := by
  cases act with
  | run a =>
    have hpca := ho.pc a
    simp only [PageCache.step, runStep] at hs
    split at hs <;> rename_i hpc <;> rw [hpc] at hpca
    · cases hs
      exact h.acquireStep hi hpc
    · cases hpca
    · cases hpca
    · cases hs
      exact h.moves rfl (fun _ => rfl) rfl
    · rename_i c i marked m hm k
      cases hs
      cases k with
      | subRefCount tc =>
        refine h.moves rfl (fun _ => rfl) ?_
        rw [released]
        split <;> rfl
      | _ => exact h.moves rfl (fun _ => rfl) rfl
    all_goals cases hs
  | post ctrl queue n =>
    simp only [PageCache.step, postStep] at hs
    split at hs <;> cases hs
    exact h.of_eq rfl fun _ => rfl
  | acquire a c =>
    simp only [PageCache.step] at hs
    split at hs <;> cases hs
    exact h.leave rfl
  | release a m =>
    simp only [PageCache.step] at hs
    split at hs
    · split at hs <;> cases hs
      exact h.leave rfl
    · cases hs
  | spurious a =>
    simp only [PageCache.step] at hs
    split at hs
    · rename_i c k hk
      cases k <;> cases hs <;> exact h.leave rfl
    · rename_i c x k hk
      cases k <;> cases hs <;> exact h.leave rfl
    · cases hs
  | write a e v =>
    simp only [PageCache.step] at hs
    split at hs <;> cases hs
    exact h.of_eq rfl fun _ => rfl
  | _ => cases hact

/-- In a synchronous run only slots of the cache are given out. -/
theorem slotsFit_reached [NeZero R] [DecidableEq A]
    [Fintype A] (h : Reached cfg SyncRun s) : SlotsFit cfg s := by
  induction h with
  | init h0 => exact .init h0
  | step hr hstep ih =>
    obtain ⟨⟨hi, -⟩, ho⟩ := sync_reached hr
    exact ih.step hi ho hstep.1.sync hstep.2

end Slots

/-! ## No write is lost -/

/-- What a run keeps of the elements written, and what a flush then leaves in the store. -/
structure WritesKept (cfg : Config R) (s : St R A V) : Prop where
  marked : ∀ p, s.ssd p ≠ s.written p →
    (s.pages p).state.isValid = true ∧ (s.pages p).state.isDirty = true
  flushed : ∀ f, Flushes cfg s f → (∀ i < cfg.nPages, f.pc i = .done) → f.st.ssd = s.written

section Kept

variable {cfg : Config R} {s : St R A V}

theorem Backed.marked {R : Nat} {A V : Type*} {s : St R A V}
    (h : Backed s) {p : PageId R} (hp : s.ssd p ≠ s.written p) :
    (s.pages p).state.isValid = true ∧ (s.pages p).state.isDirty = true := by
  refine ⟨?_, ?_⟩
  · by_contra hv
    exact hp (h.store p fun hvalid => absurd hvalid hv)
  · by_contra hd
    exact hp (h.store p fun _ => Bool.eq_false_iff.mpr hd)

/-- The slot of a valid page is one of the cache's, and its translation names the page. -/
theorem valid_slot {R : Nat} [NeZero R] {A V : Type*} {cfg : Config R} {s : St R A V}
    [Fintype A] (hi : Referenced (abs s)) (hf : SlotsFit cfg s) {p : PageId R}
    (hv : (s.pages p).state.isValid = true) :
    (s.pages p).offset < cfg.nPages ∧ slotPage s (s.pages p).offset = p := by
  refine ⟨hf.given _ fun hfree => ?_, ?_⟩
  · exact (hi.slotted.home p _ (valid_home hi hv)).2 (congrArg TakeLock.abs hfree)
  · rw [slotPage, valid_translation hi hv, pageOfAddress_getGlobalAddress cfg.maxRange_pow]

/-- A flush that is right stores what has not been written back. -/
theorem Backed.flush {R : Nat} [NeZero R] {A V : Type*} {cfg : Config R} {s : St R A V}
    [Fintype A] (h : Backed s) (hi : Referenced (abs s)) (hf : SlotsFit cfg s)
    (hright : FlushRight cfg s) {f : FlushSt R A V} (hflush : Flushes cfg s f)
    (hdone : ∀ i < cfg.nPages, f.pc i = .done) : f.st.ssd = s.written := by
  have hflushing := flushing_reached hflush
  have hwrote : ∀ p, f.Wrote cfg s p → f.st.ssd p = s.written p := by
    rintro p ⟨j, hj, rfl, hd, hw⟩
    obtain ⟨hv, hoff⟩ := flushRight_iff_slots.mp hright j hj hd
    rw [hw, ← h.cached _ hv, hoff]
  funext p
  rcases hflushing.ssd p with hkept | hw
  · by_cases hp : s.ssd p = s.written p
    · rw [hkept, hp]
    · -- what the store does not have is dirty, so the thread of its slot has written it
      obtain ⟨hv, hd⟩ := h.marked hp
      obtain ⟨hlt, hslot⟩ := valid_slot hi hf hv
      refine hwrote p ?_
      rw [← hslot] at hd ⊢
      exact hflushing.done _ (hdone _ hlt) hd
  · exact hwrote p hw

end Kept

/-- In every run whose pointers mark the pages they write, no write is lost, neither in an
    eviction nor in a flush between two kernels that is right. -/
theorem writes_kept [Fintype A] (cfg : Config R) {s : St R A V} (h : Reached cfg Marking s)
    (hquiet : ∀ i < cfg.nPages, (s.cachePages i).pageTakeLock ≠ .locked)
    (hnamed : ∀ i < cfg.nPages,
      (s.cachePages i).pageTakeLock = .free ∨ (s.pages (slotPage s i)).state.st = .nvB →
        (s.pages (slotPage s i)).state.isDirty = false) : WritesKept cfg s := by
  have hi := (sync_reached (marking_sync h)).1.1
  have hb := backed_reached h
  have hright := (flushRight_of_referenced hi hquiet).mpr hnamed
  exact ⟨fun p hp => hb.marked hp, fun f hf hdone =>
    hb.flush hi (slotsFit_reached (marking_sync h)) hright hf hdone⟩

/-- Coherence: in every run whose pointers mark the pages they write, whoever holds a page has in
    its slot the last values that anybody wrote to the page, before evictions or after, and two
    threads have one slot exactly if they hold one page. -/
theorem holders_coherent [Fintype A] (cfg : Config R) {s : St R A V} (h : Reached cfg Marking s)
    {a : A} {c : Call R} {i : Nat} {marked : Bool} (hpc : s.pc a = .holding c i marked) :
    s.slotData i = s.written c.page ∧
      ∀ b d j marked', s.pc b = .holding d j marked' → (d.page = c.page ↔ j = i) := by
  have hi := (sync_reached (marking_sync h)).1.1
  -- a holder's page is valid in the slot it holds
  have hheld : ∀ b d j marked', s.pc b = .holding d j marked' →
      (s.pages d.page).state.isValid = true ∧ (s.pages d.page).offset = j := by
    intro b d j marked' hb
    exact hi.counted.fixed b ⟨d.page, d.count, .fixed j⟩ j (by
      show (s.pc b).ref = _
      rw [hb]
      rfl) rfl
  obtain ⟨hv, hoff⟩ := hheld a c i marked hpc
  refine ⟨?_, fun b d j marked' hb => ?_⟩
  · rw [← hoff]
    exact (backed_reached h).cached c.page hv
  · obtain ⟨hv', hoff'⟩ := hheld b d j marked' hb
    constructor
    · intro hpage
      rw [← hoff', hpage, hoff]
    · intro hj
      have hhome := valid_home hi hv
      have hhome' := valid_home hi hv'
      rw [hoff] at hhome
      rw [hoff', hj] at hhome'
      exact home_unique hi hhome' hhome

/-! ### A cache of one slot

    Page 0 is in the slot of its number.  It is written, and page 1 is read into its slot. -/

def writeThenRead : List (Act 1 (Fin 2) Nat) :=
  [.acquire 0 (callFor 0 false true)] ++ runs 0 14 ++ [.write 0 0 7, .release 0 1] ++ runs 0 4 ++
    [.acquire 1 (callFor 1 false false)] ++ runs 1 16

def writeThenReadEnd : Option (St 1 (Fin 2) Nat) :=
  runActs (step (smallConfig 1 1 oneSlot_ok oneCtrl_ok))
    (newCache (Fin 2) (fun p e => 10 * p + e) 0) writeThenRead

theorem writeThenReadEnd_isSome : writeThenReadEnd.isSome = true := by decide +kernel

theorem writeThenReadEnd_kept :
    WritesKept (smallConfig 1 1 (by decide) (by decide))
      (writeThenReadEnd.get writeThenReadEnd_isSome) :=
  writes_kept _ (reachable_of_runActs (.init (newCache_init _ _ _)) (l := writeThenRead)
    (by decide +kernel) (Option.some_get _).symm) (by decide +kernel) (by decide +kernel)

/-- Page 0 is written, leaves the slot for page 1 and comes back. -/
def writeAndReturn : List (Act 1 (Fin 2) Nat) :=
  writeThenRead ++ runs 1 2 ++ [.release 1 1] ++ runs 1 4 ++
    [.acquire 0 (callFor 0 false false)] ++ runs 0 17

def writeAndReturnEnd : Option (St 1 (Fin 2) Nat) :=
  runActs (step (smallConfig 1 1 oneSlot_ok oneCtrl_ok))
    (newCache (Fin 2) (fun p e => 10 * p + e) 0) writeAndReturn

theorem writeAndReturnEnd_isSome : writeAndReturnEnd.isSome = true := by decide +kernel

theorem writeAndReturnEnd_coherent :
    (writeAndReturnEnd.get writeAndReturnEnd_isSome).slotData 0 =
        (writeAndReturnEnd.get writeAndReturnEnd_isSome).written ⟨0, 0⟩ ∧
      ∀ b d j marked', (writeAndReturnEnd.get writeAndReturnEnd_isSome).pc b =
        .holding d j marked' → (d.page = ⟨0, 0⟩ ↔ j = 0) :=
  holders_coherent (smallConfig 1 1 (by decide) (by decide)) (a := 0) (c := callFor 0 false false)
    (reachable_of_runActs (.init (newCache_init _ _ _)) (l := writeAndReturn) (by decide +kernel)
      (Option.some_get _).symm) (by decide +kernel : _ = Pc.holding _ 0 false)

/-- Page 1 is written in slot 0. -/
def writeMoved : List (Act 1 (Fin 2) Nat) :=
  [.acquire 0 (callFor 1 false true)] ++ runs 0 14 ++ [.write 0 0 7, .release 0 1] ++ runs 0 4

def writeMovedEnd : Option (St 1 (Fin 2) Nat) :=
  runActs (step (smallConfig 1 1 oneSlot_ok oneCtrl_ok))
    (newCache (Fin 2) (fun p e => 10 * p + e) 0) writeMoved

theorem writeMovedEnd_isSome : writeMovedEnd.isSome = true := by decide +kernel

/-- The flush of the only slot. -/
def writeMovedFlush : Option (FlushSt 1 (Fin 2) Nat) :=
  writeMovedEnd.bind fun s =>
    runActs (flushStep (smallConfig 1 1 oneSlot_ok oneCtrl_ok)) (flushCache s) [0, 0]

theorem writeMovedFlush_isSome : writeMovedFlush.isSome = true := by decide +kernel

/-- The pointer has marked page 0 for page 1, whose flush then leaves the old value. -/
theorem movedWrite_lost :
    ¬ ∀ s : St 1 (Fin 2) Nat, Reached (smallConfig 1 1 (by decide) (by decide)) SyncRun s →
      (∀ a, s.pc a = .idle) → WritesKept (smallConfig 1 1 (by decide) (by decide)) s := by
  intro hall
  obtain ⟨s, hs, hrun⟩ := Option.bind_eq_some_iff.mp (Option.some_get writeMovedFlush_isSome).symm
  obtain rfl : writeMovedEnd.get writeMovedEnd_isSome = s := Option.get_of_eq_some _ hs
  have hreached : Reached (smallConfig 1 1 (by decide) (by decide)) SyncRun
      (writeMovedEnd.get writeMovedEnd_isSome) :=
    reachable_of_runActs (.init (newCache_init _ _ _)) (l := writeMoved) (by decide +kernel)
      (Option.some_get _).symm
  have hkept := hall _ hreached (by decide +kernel)
  have hstored := hkept.flushed _ (reachable_of_steps (.init rfl) hrun) (by decide +kernel)
  have helem := congrFun (congrFun hstored ⟨0, 1⟩) 0
  revert helem
  decide +kernel

end GidsStack.PageCache
