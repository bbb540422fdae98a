/-
  GidsStack.Lib.PinCache.Runs

  The invariants of the protocol put together, and along whole runs.  Three
  kinds of guard keep three bundles of them: one that only knows who owns the
  flags, one under which no miss is shared and references are counted, and one
  under which misses are shared, references counted and no page is led while
  its offset names a slot that still has it.
-/

import GidsStack.Lib.PinCache.Joined

namespace GidsStack.Lib.PinCache

variable {P S A : Type*}

/-- A cache nobody has used yet. -/
structure Cache.Unused (v : Cache P S A) : Prop where
  flags : ∀ p, v.valid p = false ∧ v.busy p = false
  history : ∀ p, v.leader p = none ∧ v.given p = none ∧ v.consumed p = 0 ∧ v.published p = 0
  lock : ∀ s, v.lock s = .free
  roles : ∀ a, v.leading a = none ∧ v.own a = none ∧ v.taking a = none ∧ v.assigned a = none ∧
    v.serving a = none ∧ v.polling a = none
  ref : ∀ a, v.ref a = none

/-- Flags, slots and publications are in order. -/
structure Orderly (v : Cache P S A) : Prop where
  owned : Owned v
  slotted : Slotted v
  tallied : Tallied v

/-- And so are offsets and counts. -/
structure Referenced [DecidableEq P] [Fintype A] (v : Cache P S A) : Prop extends Orderly v where
  placed : Placed v
  counted : Counted v

/-! ## The start of a run -/

/-- Where nothing is valid, busy or held, everything is in order. -/
theorem Cache.Unused.orderly {v : Cache P S A} (h : v.Unused) : Orderly v := by
  obtain ⟨hf, hh, hl, hr, -⟩ := h
  refine ⟨?_, ?_, ?_⟩
  · constructor <;> grind
  · constructor <;> grind [Cache.Home]
  · constructor <;> grind

/-- Where nobody refers to a page, no count is needed. -/
theorem Cache.Unused.referenced [DecidableEq P] [Fintype A] {v : Cache P S A} (h : v.Unused) :
    Referenced v := by
  refine ⟨h.orderly, ?_, ?_⟩
  · obtain ⟨hf, hh, hl, hr, -⟩ := h
    constructor <;> grind
  · obtain ⟨hf, hh, hl, hr, href⟩ := h
    refine ⟨fun p => ?_, ?_, ?_, ?_, ?_, ?_⟩
    · simp [href, Ref.on]
    all_goals grind

/-- Where nobody leads a miss, none is shared. -/
theorem Cache.Unused.unshared {v : Cache P S A} (h : v.Unused) : Unshared v := by
  obtain ⟨-, -, -, hr, -⟩ := h
  constructor <;> grind

/-- Where nobody refers to a page, every reference knows its slot. -/
theorem Cache.Unused.joined {v : Cache P S A} (g : Guard P S A) (h : v.Unused) : Joined g v := by
  obtain ⟨hf, hh, hl, hr, href⟩ := h
  constructor <;> grind

/-! ## Runs -/

variable [DecidableEq P] [DecidableEq S] [DecidableEq A] {g : Guard P S A} {v w : Cache P S A}

open Relation (ReflTransGen)

/-- Every step keeps flags, slots and publications in order. -/
theorem Step.orderly (hg : g.Owning) (hi : Orderly v) (h : Step g v w) : Orderly w where
  owned := h.owned hg hi.owned fun _ _ _ => hi.slotted.looked_valid hi.owned
  slotted := h.slotted hg hi.owned hi.slotted
  tallied := h.tallied hg hi.owned hi.tallied

/-- Under a guard that places and covers, a step keeps offsets and counts in order. -/
theorem Step.referenced [Fintype A] (hg : g.Placing) (hc : g.Covering)
    (ha : ∀ a p s, v.assigned a = some (p, s) → v.given p = some s) (hi : Referenced v)
    (h : Step g v w) : Referenced w where
  toOrderly := h.orderly hg.toOwning hi.toOrderly
  placed := h.placed hg hi.owned ha hi.placed
  counted := h.counted hc hi.owned hi.placed ha hi.counted

/-- What `Step.orderly` says of a step, of whole runs. -/
theorem run_orderly (hg : g.Owning) (hi : Orderly v) (h : ReflTransGen (Step g) v w) :
    Orderly w := by
  induction h with
  | refl => exact hi
  | tail _ h ih => exact h.orderly hg ih

/-- Runs whose guard lets no miss be shared. -/
theorem run_unshared [Fintype A] (hg : g.Placing) (hc : g.Covering) (hp : g.Private)
    (hi : Referenced v) (hu : Unshared v) (h : ReflTransGen (Step g) v w) :
    Referenced w ∧ Unshared w := by
  induction h with
  | refl => exact ⟨hi, hu⟩
  | tail _ h ih =>
    obtain ⟨hi, hu⟩ := ih
    exact ⟨h.referenced hg hc (fun a p s h => by simp [hu.assigned a] at h) hi, h.unshared hp hu⟩

/-- Runs whose guard lets misses be shared, and pages be led while their offset is stale
    only where it names no slot of theirs. -/
theorem run_joined [Fintype A] (hg : g.Placing) (hc : g.Covering) (ha : g.Aiming)
    (hi : Referenced v) (hj : Joined g v) (h : ReflTransGen (Step g) v w) :
    Referenced w ∧ Joined g w := by
  induction h with
  | refl => exact ⟨hi, hj⟩
  | tail _ h ih =>
    obtain ⟨hi, hj⟩ := ih
    exact ⟨h.referenced hg hc (fun a p s h => (hj.assigned a p s h).1) hi,
      h.joined ha hi.owned hi.counted hj⟩

end GidsStack.Lib.PinCache
