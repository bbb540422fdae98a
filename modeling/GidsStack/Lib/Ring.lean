/-
  GidsStack.Lib.Ring

  Doubly linked rings through nodes in memory.

  The nodes of a ring are a head and a list: `next` goes from the head through the list and back
  to the head, `prev` the other way round (`IsRing`).  Linking a node in before the head and
  taking one out keep the ring and change nothing of other rings.
-/

import Mathlib.Data.List.Chain
import Mathlib.Data.List.Nodup
import Mathlib.Logic.Function.Basic

namespace GidsStack

variable {α : Type}

/-- The links of the nodes; `none` is no link. -/
structure Links (α : Type) where
  next : α → Option α
  prev : α → Option α

namespace Links

/-- `b` comes after `a`. -/
structure Edge (m : Links α) (a b : α) : Prop where
  next : m.next a = some b
  prev : m.prev b = some a

/-- A ring of a head and, in this order, other nodes. -/
structure IsRing (m : Links α) (head : α) (xs : List α) : Prop where
  nodup : (head :: xs).Nodup
  chain : (head :: (xs ++ [head])).IsChain m.Edge

variable {m m' : Links α} {head x : α} {xs ys : List α}

namespace IsRing

theorem single (hnext : m.next head = some head) (hprev : m.prev head = some head) :
    m.IsRing head [] where
  nodup := List.nodup_singleton head
  chain := List.isChain_pair.mpr ⟨hnext, hprev⟩

/-- The next node, or the head after the last. -/
theorem next_eq (h : m.IsRing head xs) {pre post : List α} {a : α}
    (hsplit : head :: xs = pre ++ a :: post) : m.next a = (post ++ [head]).head? := by
  have hchain := h.chain
  rw [← List.cons_append, hsplit, List.append_assoc] at hchain
  have hfrom := hchain.right_of_append
  cases post with
  | nil => exact (List.isChain_pair.mp hfrom).next
  | cons b post => exact (List.isChain_cons_cons.mp hfrom).1.next

/-- A ring depends on the links of its nodes only. -/
theorem congr (h : m.IsRing head xs) (hnext : ∀ a ∈ head :: xs, m'.next a = m.next a)
    (hprev : ∀ a ∈ head :: xs, m'.prev a = m.prev a) : m'.IsRing head xs where
  nodup := h.nodup
  chain := by
    have hmem : ∀ a ∈ head :: (xs ++ [head]), a ∈ head :: xs := by
      intro a ha
      simpa [or_comm, or_assoc] using ha
    exact h.chain.imp_of_mem_imp fun a b ha hb hedge =>
      ⟨(hnext a (hmem a ha)).trans hedge.next, (hprev b (hmem b hb)).trans hedge.prev⟩

/-- The node before the head. -/
theorem last (h : m.IsRing head xs) : ∃ last ∈ head :: xs, m.Edge last head ∧
    (head :: xs).IsChain m.Edge ∧ (head :: xs).getLast? = some last := by
  have hchain := h.chain
  rw [← List.cons_append, List.isChain_append] at hchain
  obtain ⟨hleft, -, hlast⟩ := hchain
  have hne := List.cons_ne_nil head xs
  refine ⟨(head :: xs).getLast hne, List.getLast_mem hne, ?_, hleft,
    List.getLast?_eq_getLast_of_ne_nil hne⟩
  exact hlast _ (List.getLast?_eq_getLast_of_ne_nil hne) head rfl

end IsRing

variable [DecidableEq α]

/-- Links `x` in between the last node and the head. -/
def insertLast (m : Links α) (head last x : α) : Links α where
  next := Function.update (Function.update m.next last (some x)) x (some head)
  prev := Function.update (Function.update m.prev x (some last)) head (some x)

/-- Takes out `x` from between `p` and `n`. -/
def unlink (m : Links α) (p x n : α) : Links α where
  next := Function.update (Function.update m.next p (some n)) x none
  prev := Function.update (Function.update m.prev n (some p)) x none

namespace IsRing

theorem insertLast (h : m.IsRing head xs) (hx : x ∉ head :: xs) :
    ∃ last ∈ head :: xs, m.prev head = some last ∧
      (m.insertLast head last x).IsRing head (xs ++ [x]) := by
  obtain ⟨last, hmem, hlast, hchain, hget⟩ := h.last
  have hxlast : x ≠ last := fun heq => hx (heq ▸ hmem)
  have hxhead : x ≠ head := fun heq => hx (heq ▸ List.mem_cons_self)
  refine ⟨last, hmem, hlast.prev, ?_, ?_⟩
  · rw [← List.cons_append, List.nodup_append]
    refine ⟨h.nodup, List.nodup_singleton x, fun a ha b hb heq => ?_⟩
    rw [List.mem_singleton.mp hb] at heq
    exact hx (heq ▸ ha)
  · have hkeep : (head :: xs).IsChain (m.insertLast head last x).Edge := by
      refine hchain.imp_of_mem_tail_imp fun a b ha hb hedge => ?_
      have hbhead : b ≠ head := fun heq => (List.nodup_cons.mp h.nodup).1 (heq ▸ hb)
      -- the next of the last node is the head
      have halast : a ≠ last := by
        rintro rfl
        exact hbhead (Option.some.inj (hedge.next.symm.trans hlast.next))
      have hax : a ≠ x := fun heq => hx (heq ▸ ha)
      have hbx : b ≠ x := fun heq => hx (heq ▸ List.mem_cons_of_mem head hb)
      constructor
      · show Function.update (Function.update m.next last (some x)) x (some head) a = some b
        rw [Function.update_of_ne hax, Function.update_of_ne halast, hedge.next]
      · show Function.update (Function.update m.prev x (some last)) head (some x) b = some a
        rw [Function.update_of_ne hbhead, Function.update_of_ne hbx, hedge.prev]
    rw [List.append_assoc, ← List.cons_append, List.isChain_append]
    refine ⟨hkeep, List.isChain_pair.mpr ⟨?_, ?_⟩, ?_⟩
    · exact Function.update_self ..
    · exact Function.update_self ..
    · intro a ha b hb
      obtain rfl : a = last := Option.some.inj (ha.symm.trans hget)
      obtain rfl : x = b := Option.some.inj hb
      constructor
      · show Function.update (Function.update m.next a (some x)) x (some head) a = some x
        rw [Function.update_of_ne hxlast.symm, Function.update_self]
      · show Function.update (Function.update m.prev x (some a)) head (some x) x = some a
        rw [Function.update_of_ne hxhead, Function.update_self]

theorem unlink (h : m.IsRing head (xs ++ x :: ys)) :
    ∃ p ∈ head :: xs, ∃ n ∈ ys ++ [head], m.prev x = some p ∧ m.next x = some n ∧
      (m.unlink p x n).IsRing head (xs ++ ys) := by
  have hnodup := h.nodup
  have hchain := h.chain
  rw [List.append_assoc, ← List.cons_append, List.isChain_append] at hchain
  obtain ⟨hleft, hright, hjoin⟩ := hchain
  rw [← List.cons_append, List.nodup_append] at hnodup
  obtain ⟨hnl, hnr, hdisj⟩ := hnodup
  have hne := List.cons_ne_nil head xs
  have hne' : ys ++ [head] ≠ [] := by simp
  have hlast := List.getLast?_eq_getLast_of_ne_nil hne
  have hp := List.getLast_mem hne
  have hn := List.head_mem hne'
  have hfirst := List.head?_eq_some_head hne'
  set p := (head :: xs).getLast hne
  set n := (ys ++ [head]).head hne'
  have hpx : m.Edge p x := hjoin p hlast x rfl
  obtain ⟨hxn, hrest⟩ := List.isChain_cons.mp hright
  have hxn := hxn n hfirst
  have hxl : x ∉ head :: xs := fun hmem => hdisj x hmem x List.mem_cons_self rfl
  have hxhead : x ≠ head := fun heq => hxl (heq ▸ List.mem_cons_self)
  have hxr : x ∉ ys ++ [head] := by
    rw [List.mem_append, List.mem_singleton, not_or]
    exact ⟨(List.nodup_cons.mp hnr).1, hxhead⟩
  have hpne : p ≠ x := fun heq => hxl (heq ▸ hp)
  have hnne : n ≠ x := fun heq => hxr (heq ▸ hn)
  -- no other edge starts at the node before or ends at the node after
  have hkeep : ∀ a b, a ≠ x → b ≠ x → m.Edge a b → (m.unlink p x n).Edge a b := by
    intro a b ha hb hedge
    have hap : a ≠ p := by
      rintro rfl
      exact hb (Option.some.inj (hedge.next.symm.trans hpx.next))
    have hbn : b ≠ n := by
      rintro rfl
      exact ha (Option.some.inj (hedge.prev.symm.trans hxn.prev))
    constructor
    · show Function.update (Function.update m.next p (some n)) x none a = some b
      rw [Function.update_of_ne ha, Function.update_of_ne hap, hedge.next]
    · show Function.update (Function.update m.prev n (some p)) x none b = some a
      rw [Function.update_of_ne hb, Function.update_of_ne hbn, hedge.prev]
  refine ⟨p, hp, n, hn, hpx.prev, hxn.next, ?_, ?_⟩
  · rw [← List.cons_append, List.nodup_append]
    exact ⟨hnl, (List.nodup_cons.mp hnr).2,
      fun a ha b hb => hdisj a ha b (List.mem_cons_of_mem x hb)⟩
  · rw [List.append_assoc, ← List.cons_append, List.isChain_append]
    refine ⟨hleft.imp_of_mem_imp fun a b ha hb => hkeep a b ?_ ?_,
      hrest.imp_of_mem_imp fun a b ha hb => hkeep a b ?_ ?_, ?_⟩
    · exact fun heq => hxl (heq ▸ ha)
    · exact fun heq => hxl (heq ▸ hb)
    · exact fun heq => hxr (heq ▸ ha)
    · exact fun heq => hxr (heq ▸ hb)
    · intro a ha b hb
      rw [Option.some.inj (ha.symm.trans hlast), Option.some.inj (hb.symm.trans hfirst)]
      constructor
      · show Function.update (Function.update m.next p (some n)) x none p = some n
        rw [Function.update_of_ne hpne, Function.update_self]
      · show Function.update (Function.update m.prev n (some p)) x none n = some p
        rw [Function.update_of_ne hnne, Function.update_self]

end IsRing

end Links

end GidsStack
