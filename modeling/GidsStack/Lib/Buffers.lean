/-
  GidsStack.Lib.Buffers

  Buffers with reference counts.

  `refs` lists a buffer once for each reference to it.  A buffer without a reference keeps its
  contents until an allocation takes it, and an allocation may take any such buffer: its
  address is an argument, and only the addresses of referenced buffers are refused.

  Who holds the references is a list of owners, of which `refs` is a permutation.  What an
  owner holds, no allocation changes; and whatever nobody holds, some allocation may take.
-/

import Mathlib

namespace GidsStack

structure Buffers (V : Type) where
  contents : Nat → Option V
  refs : List Nat

namespace Buffers

variable {V : Type}

def empty : Buffers V where
  contents := fun _ => none
  refs := []

/-- An allocation that is given the buffer `a`, into which `v` is then written. -/
def alloc (a : Nat) (v : V) (m : Buffers V) : Option (Buffers V) :=
  if a ∈ m.refs then none
  else some { contents := Function.update m.contents a (some v), refs := a :: m.refs }

/-- A new reference to a buffer, if there is one. -/
def retain (o : Option Nat) (m : Buffers V) : Buffers V := { m with refs := o.toList ++ m.refs }

/-- One reference less. -/
def drop (o : Option Nat) (m : Buffers V) : Buffers V :=
  { m with refs := m.refs.diff o.toList }

/-- The references are those of `owners`. -/
def OwnedBy (owners : List Nat) (m : Buffers V) : Prop := m.refs.Perm owners

variable {m n : Buffers V} {a b : Nat} {v : V} {owners owners' : List Nat} {o : Option Nat}

theorem alloc_eq_some_iff : m.alloc a v = some n ↔ a ∉ m.refs ∧
    n = { contents := Function.update m.contents a (some v), refs := a :: m.refs } := by
  rw [alloc]
  split
  · rename_i h
    exact iff_of_false (fun hnone => by cases hnone) fun hn => hn.1 h
  · rename_i h
    rw [Option.some.injEq, eq_comm]
    exact (and_iff_right h).symm

/-- Some buffer is free, and is none of `avoid`. -/
theorem exists_fresh (m : Buffers V) (avoid : List Nat) (v : V) :
    ∃ a n, a ∉ m.refs ∧ a ∉ avoid ∧ m.alloc a v = some n := by
  obtain ⟨a, ha⟩ := Infinite.exists_notMem_finset (m.refs ++ avoid).toFinset
  rw [List.mem_toFinset, List.mem_append, not_or] at ha
  exact ⟨a, _, ha.1, ha.2, alloc_eq_some_iff.mpr ⟨ha.1, rfl⟩⟩

theorem contents_alloc (h : m.alloc a v = some n) : n.contents a = some v := by
  rw [(alloc_eq_some_iff.mp h).2]
  exact Function.update_self _ _ _

theorem contents_alloc_of_ne (h : m.alloc a v = some n) (hne : b ≠ a) :
    n.contents b = m.contents b := by
  rw [(alloc_eq_some_iff.mp h).2]
  exact Function.update_of_ne hne _ _

@[simp] theorem contents_retain (o : Option Nat) (m : Buffers V) :
    (m.retain o).contents = m.contents := rfl

@[simp] theorem contents_drop (o : Option Nat) (m : Buffers V) :
    (m.drop o).contents = m.contents := rfl

/-! ## Owners -/

theorem ownedBy_empty : (empty : Buffers V).OwnedBy [] := List.Perm.refl _

namespace OwnedBy

theorem mem_refs (h : m.OwnedBy owners) : a ∈ m.refs ↔ a ∈ owners := h.mem_iff

theorem perm (h : m.OwnedBy owners) (hperm : owners.Perm owners') : m.OwnedBy owners' :=
  List.Perm.trans h hperm

theorem alloc (h : m.OwnedBy owners) (halloc : m.alloc a v = some n) :
    n.OwnedBy (a :: owners) := by
  rw [(alloc_eq_some_iff.mp halloc).2]
  exact List.Perm.cons a h

theorem retain (h : m.OwnedBy owners) (o : Option Nat) :
    (m.retain o).OwnedBy (o.toList ++ owners) :=
  List.Perm.append_left _ h

theorem drop (h : m.OwnedBy (o.toList ++ owners)) : (m.drop o).OwnedBy owners := by
  show (m.refs.diff o.toList).Perm owners
  have hdiff := List.Perm.diff_right o.toList h
  cases o with
  | none => exact hdiff
  | some a => simpa using hdiff

/-- What is owned, no allocation changes. -/
theorem contents_alloc (h : m.OwnedBy owners) (halloc : m.alloc a v = some n) (hb : b ∈ owners) :
    n.contents b = m.contents b := by
  apply contents_alloc_of_ne halloc
  rintro rfl
  exact (alloc_eq_some_iff.mp halloc).1 (h.mem_refs.mpr hb)

/-- What nobody owns, an allocation may take. -/
theorem alloc_of_notMem (h : m.OwnedBy owners) (ha : a ∉ owners) (v : V) :
    ∃ n, m.alloc a v = some n :=
  ⟨_, alloc_eq_some_iff.mpr ⟨fun hmem => ha (h.mem_refs.mp hmem), rfl⟩⟩

/-- Some allocation takes a buffer that is none of `avoid`. -/
theorem exists_alloc (h : m.OwnedBy owners) (avoid : List Nat) (v : V) :
    ∃ a n, a ∉ owners ∧ a ∉ avoid ∧ m.alloc a v = some n := by
  obtain ⟨a, n, hfree, havoid, halloc⟩ := m.exists_fresh avoid v
  exact ⟨a, n, fun hmem => hfree (h.mem_refs.mpr hmem), havoid, halloc⟩

end OwnedBy

end Buffers

end GidsStack
