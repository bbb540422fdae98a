/-
  GidsStack.Driver.NodeList

  The lists of the kernel module (list.h, list.c): rings through the nodes in their elements,
  with an empty node as the head.

  On a list of other elements `list_insert` appends and `list_remove` takes out, neither follows
  a NULL pointer, and other nodes stay as they are.  A loop with `list_next` visits the elements
  in order and ends.
-/

import GidsStack.Lib.Ring

namespace GidsStack.Driver

/-- `struct list_node`; `none` is NULL, and a list has the address of its head. -/
structure ListNode where
  list : Option Nat
  next : Option Nat
  prev : Option Nat

abbrev NodeMem := Nat → ListNode

/-- `list_node_init`. -/
def listNodeInit (m : NodeMem) (element : Nat) : NodeMem :=
  Function.update m element ⟨none, none, none⟩

/-- `list_init`. -/
def listInit (m : NodeMem) (list : Nat) : NodeMem :=
  Function.update m list ⟨some list, some list, some list⟩

/-- `list_remove`; `none` when a pointer that is followed is NULL. -/
def listRemove (m : NodeMem) (element : Nat) : Option NodeMem :=
  match (m element).list with
  | none => some m
  | some list =>
    if element = list then some m
    else do
      let prev ← (m element).prev
      let m := Function.update m prev { m prev with next := (m element).next }
      let next ← (m element).next
      let m := Function.update m next { m next with prev := (m element).prev }
      return Function.update m element ⟨none, none, none⟩

/-- `list_insert`. -/
def listInsert (m : NodeMem) (list element : Nat) : Option NodeMem := do
  let last ← (m list).prev
  let m := Function.update m last { m last with next := some element }
  let m := Function.update m element ⟨some list, some list, some last⟩
  return Function.update m list { m list with prev := some element }

/-- `list_next`. -/
def listNext (m : NodeMem) (current : Nat) : Option Nat :=
  if (m current).next ≠ (m current).list then (m current).next else none

/-- The elements that a loop with `list_next` visits from `element` on; `none` when it takes more
    than `fuel` steps. -/
def listElemsFrom (m : NodeMem) : Nat → Option Nat → Option (List Nat)
  | _, none => some []
  | 0, some _ => none
  | fuel + 1, some element =>
    (listElemsFrom m fuel (listNext m element)).map (element :: ·)

/-- The elements that a loop over a list visits. -/
def listElems (m : NodeMem) (fuel list : Nat) : Option (List Nat) :=
  listElemsFrom m fuel (listNext m list)

/-! ## Lists in memory -/

def links (m : NodeMem) : Links Nat where
  next a := (m a).next
  prev a := (m a).prev

/-- The elements of a list, in order. -/
structure IsList (m : NodeMem) (list : Nat) (xs : List Nat) : Prop where
  ring : (links m).IsRing list xs
  member : ∀ a ∈ list :: xs, (m a).list = some list

variable {m : NodeMem} {list e : Nat} {xs ys : List Nat}

theorem listInit_isList (m : NodeMem) (list : Nat) : IsList (listInit m list) list [] := by
  have hself : listInit m list list = ⟨some list, some list, some list⟩ := Function.update_self ..
  refine ⟨.single (congrArg ListNode.next hself) (congrArg ListNode.prev hself), fun a ha => ?_⟩
  rw [List.mem_singleton.mp ha, hself]

namespace IsList

/-- A list depends on its own nodes only. -/
theorem congr {m' : NodeMem} (h : IsList m list xs) (heq : ∀ a ∈ list :: xs, m' a = m a) :
    IsList m' list xs where
  ring := h.ring.congr (fun a ha => congrArg ListNode.next (heq a ha))
    (fun a ha => congrArg ListNode.prev (heq a ha))
  member a ha := (congrArg ListNode.list (heq a ha)).trans (h.member a ha)

theorem head_notMem (h : IsList m list xs) : list ∉ xs := (List.nodup_cons.mp h.ring.nodup).1

theorem nodup (h : IsList m list xs) : xs.Nodup := (List.nodup_cons.mp h.ring.nodup).2

theorem insert (h : IsList m list xs) (he : e ∉ list :: xs) :
    ∃ m', listInsert m list e = some m' ∧ IsList m' list (xs ++ [e]) ∧
      ∀ a ∉ list :: xs, a ≠ e → m' a = m a := by
  obtain ⟨last, hlast, hprev, hring⟩ := h.ring.insertLast he
  have helist : e ≠ list := fun heq => he (heq ▸ List.mem_cons_self)
  have helast : e ≠ last := fun heq => he (heq ▸ hlast)
  have hget : (m list).prev = some last := hprev
  obtain ⟨m', hm', hnode⟩ : ∃ m', listInsert m list e = some m' ∧ ∀ a, m' a =
      ⟨if a = e then some list else (m a).list,
        if a = e then some list else if a = last then some e else (m a).next,
        if a = list then some e else if a = e then some last else (m a).prev⟩ := by
    refine ⟨_, by rw [listInsert, hget]; rfl, fun a => ?_⟩
    simp only [Function.update_apply]
    by_cases ha : a = list <;> by_cases hae : a = e <;> by_cases hal : a = last <;>
      simp_all
  refine ⟨m', hm', ⟨hring.congr ?_ ?_, ?_⟩, ?_⟩
  · intro a _
    show (m' a).next = Function.update (Function.update (links m).next last (some e)) e
      (some list) a
    rw [hnode, Function.update_apply, Function.update_apply]
    rfl
  · intro a _
    show (m' a).prev = Function.update (Function.update (links m).prev e (some last)) list
      (some e) a
    rw [hnode, Function.update_apply, Function.update_apply]
    rfl
  · intro a ha
    rw [hnode]
    by_cases hae : a = e
    · exact if_pos hae
    · rw [← List.cons_append, List.mem_append, List.mem_singleton, or_iff_left hae] at ha
      exact (if_neg hae).trans (h.member a ha)
  · intro a ha hae
    have hal : a ≠ last := fun heq => ha (heq ▸ hlast)
    have halist : a ≠ list := fun heq => ha (heq ▸ List.mem_cons_self)
    rw [hnode, if_neg hae, if_neg hae, if_neg hal, if_neg halist, if_neg hae]

theorem remove (h : IsList m list (xs ++ e :: ys)) :
    ∃ m', listRemove m e = some m' ∧ IsList m' list (xs ++ ys) ∧
      ∀ a ∉ list :: (xs ++ e :: ys), m' a = m a := by
  obtain ⟨p, hp, n, hn, hprev, hnext, hring⟩ := h.ring.unlink
  have hmem : ∀ a ∈ list :: (xs ++ ys), a ∈ list :: (xs ++ e :: ys) := by
    intro a ha
    simp only [List.mem_cons, List.mem_append] at ha ⊢
    tauto
  have hin : e ∈ list :: (xs ++ e :: ys) := by simp
  have hnodup := h.ring.nodup
  rw [List.nodup_cons, List.nodup_middle, List.nodup_cons] at hnodup
  obtain ⟨hlist, he, -⟩ := hnodup
  have helist : e ≠ list := fun heq => hlist (heq ▸ by simp)
  have hep : e ≠ p := by
    rintro rfl
    rcases List.mem_cons.mp hp with heq | hmem
    · exact helist heq
    · exact he (List.mem_append_left _ hmem)
  have hen : e ≠ n := by
    rintro rfl
    rcases List.mem_append.mp hn with hmem | heq
    · exact he (List.mem_append_right _ hmem)
    · exact helist (List.mem_singleton.mp heq)
  have hgetp : (m e).prev = some p := hprev
  have hgetn : (m e).next = some n := hnext
  obtain ⟨m', hm', hnode⟩ : ∃ m', listRemove m e = some m' ∧ ∀ a, m' a =
      if a = e then ⟨none, none, none⟩
      else ⟨(m a).list, if a = p then some n else (m a).next,
        if a = n then some p else (m a).prev⟩ := by
    let m1 := Function.update m p { m p with next := some n }
    let m2 := Function.update m1 n { m1 n with prev := (m1 e).prev }
    have hm1 : m1 e = m e := Function.update_of_ne hep ..
    refine ⟨Function.update m2 e ⟨none, none, none⟩, ?_, fun a => ?_⟩
    · rw [listRemove, h.member e hin]
      show (if e = list then _ else (m e).prev.bind _) = _
      rw [if_neg helist, hgetp, hgetn]
      show (m1 e).next.bind _ = _
      rw [hm1, hgetn]
      rfl
    · simp only [m2, m1, Function.update_apply, hgetp, if_neg hep]
      by_cases hae : a = e <;> by_cases hap : a = p <;> by_cases han : a = n <;> simp_all
  refine ⟨m', hm', ⟨hring.congr ?_ ?_, ?_⟩, ?_⟩
  · intro a ha
    show (m' a).next = Function.update (Function.update (links m).next p (some n)) e none a
    rw [hnode, Function.update_apply, Function.update_apply]
    split <;> rfl
  · intro a ha
    show (m' a).prev = Function.update (Function.update (links m).prev n (some p)) e none a
    rw [hnode, Function.update_apply, Function.update_apply]
    split <;> rfl
  · intro a ha
    have hae : a ≠ e := by
      rintro rfl
      rcases List.mem_cons.mp ha with heq | hmem
      · exact helist heq
      · exact he hmem
    rw [hnode, if_neg hae]
    exact h.member a (hmem a ha)
  · intro a ha
    have hae : a ≠ e := fun heq => ha (heq ▸ hin)
    have hap : a ≠ p := by
      rintro rfl
      exact ha (by rw [List.mem_cons] at hp ⊢; exact hp.imp_right (List.mem_append_left _))
    have han : a ≠ n := by
      rintro rfl
      rw [List.mem_append, List.mem_singleton] at hn
      rw [List.mem_cons] at ha
      exact ha (hn.elim (fun hy => .inr (List.mem_append_right _ (List.mem_cons_of_mem e hy))) .inl)
    rw [hnode, if_neg hae, if_neg hap, if_neg han]

/-- A loop from an element visits the elements after it. -/
theorem elemsFrom (h : IsList m list xs) {pre post : List Nat} {a : Nat}
    (hsplit : list :: xs = pre ++ a :: post) {fuel : Nat} (hfuel : post.length ≤ fuel) :
    listElemsFrom m fuel (listNext m a) = some post := by
  induction post generalizing pre a fuel with
  | nil =>
    have hnext : (m a).next = some list := h.ring.next_eq hsplit
    have hown := h.member a (hsplit ▸ by simp)
    rw [listNext, hnext, hown, if_neg (fun hne => hne rfl), listElemsFrom]
  | cons b post ih =>
    have hnext : (m a).next = some b := h.ring.next_eq hsplit
    have hown := h.member a (hsplit ▸ by simp)
    have hb : some b ≠ some list := by
      rintro heq
      obtain rfl := Option.some.inj heq
      have hnodup := h.ring.nodup
      cases pre with
      | nil =>
        rw [List.nil_append, List.cons.injEq] at hsplit
        exact h.head_notMem (hsplit.2 ▸ List.mem_cons_self)
      | cons c pre =>
        rw [List.cons_append, List.cons.injEq] at hsplit
        exact h.head_notMem (hsplit.2 ▸ by simp)
    obtain ⟨fuel, rfl⟩ : ∃ f, fuel = f + 1 :=
      Nat.exists_eq_succ_of_ne_zero (by rw [List.length_cons] at hfuel; omega)
    rw [listNext, hnext, hown, if_pos hb, listElemsFrom,
      ih (hsplit.trans (List.append_cons pre a (b :: post))) (Nat.le_of_succ_le_succ hfuel)]
    rfl

/-- The first element. -/
theorem next_head (h : IsList m list xs) : listNext m list = xs.head? := by
  have hown : (m list).list = some list := h.member list List.mem_cons_self
  have hnext : (m list).next = (xs ++ [list]).head? :=
    h.ring.next_eq (show list :: xs = [] ++ list :: xs from rfl)
  cases xs with
  | nil =>
    have hself : (m list).next = some list := hnext
    rw [listNext, hself, hown, if_neg (fun hne => hne rfl)]
    rfl
  | cons e xs =>
    have hfirst : (m list).next = some e := hnext
    have hne : some e ≠ some list := fun heq =>
      h.head_notMem (Option.some.inj heq ▸ List.mem_cons_self)
    rw [listNext, hfirst, hown, if_pos hne]
    rfl

theorem elems (h : IsList m list xs) {fuel : Nat} (hfuel : xs.length ≤ fuel) :
    listElems m fuel list = some xs :=
  h.elemsFrom (show list :: xs = [] ++ list :: xs from rfl) hfuel

end IsList

/-! ## Several lists -/

/-- Lists without common elements, none of which is a head. -/
structure Lists {ι : Type} (addr : ι → Nat) (m : NodeMem) (xs : ι → List Nat) : Prop where
  isList : ∀ l, IsList m (addr l) (xs l)
  heads : Function.Injective addr
  elem : ∀ l l', addr l ∉ xs l'
  apart : ∀ l l', l ≠ l' → ∀ a ∈ xs l, a ∉ xs l'

namespace Lists

variable {ι : Type} {addr : ι → Nat} {xs : ι → List Nat}

/-- Nodes outside of the lists do not matter. -/
theorem congr {m' : NodeMem} (h : Lists addr m xs)
    (heq : ∀ l, ∀ a ∈ addr l :: xs l, m' a = m a) : Lists addr m' xs :=
  { h with isList := fun l => (h.isList l).congr (heq l) }

theorem notMem_other (h : Lists addr m xs) {l l' : ι} (hne : l ≠ l') {a : Nat}
    (ha : a ∈ addr l :: xs l) : a ∉ addr l' :: xs l' := by
  rw [List.mem_cons, not_or]
  rcases List.mem_cons.mp ha with rfl | hmem
  · exact ⟨fun heq => hne (h.heads heq), h.elem l l'⟩
  · exact ⟨fun heq => h.elem l' l (heq ▸ hmem), h.apart l l' hne a hmem⟩

variable [DecidableEq ι]

theorem insert (h : Lists addr m xs) (l : ι) (he : ∀ l', e ∉ addr l' :: xs l') :
    ∃ m', listInsert m (addr l) e = some m' ∧
      Lists addr m' (Function.update xs l (xs l ++ [e])) ∧
      ∀ a, (∀ l', a ∉ addr l' :: xs l') → a ≠ e → m' a = m a := by
  obtain ⟨m', hm', hlist, hframe⟩ := (h.isList l).insert (he l)
  refine ⟨m', hm', ⟨fun l' => ?_, h.heads, fun l' k => ?_, fun l' k hne a ha => ?_⟩,
    fun a ha hae => hframe a (ha l) hae⟩
  · by_cases hl : l' = l
    · subst hl
      rwa [Function.update_self]
    · rw [Function.update_of_ne hl]
      refine (h.isList l').congr fun a ha => hframe a (h.notMem_other hl ha) ?_
      rintro rfl
      exact he l' ha
  · have hhead : addr l' ≠ e := fun heq => he l' (heq ▸ List.mem_cons_self)
    by_cases hk : k = l
    · subst hk
      rw [Function.update_self, List.mem_append, List.mem_singleton, not_or]
      exact ⟨h.elem l' k, hhead⟩
    · rw [Function.update_of_ne hk]
      exact h.elem l' k
  · have hout : ∀ k, e ∉ xs k := fun k hmem => he k (List.mem_cons_of_mem _ hmem)
    by_cases hl : l' = l
    · subst hl
      rw [Function.update_self, List.mem_append, List.mem_singleton] at ha
      rw [Function.update_of_ne hne.symm]
      rcases ha with ha | rfl
      · exact h.apart l' k hne a ha
      · exact hout k
    · rw [Function.update_of_ne hl] at ha
      by_cases hk : k = l
      · subst hk
        rw [Function.update_self, List.mem_append, List.mem_singleton, not_or]
        exact ⟨h.apart l' k hne a ha, fun heq => hout l' (heq ▸ ha)⟩
      · rw [Function.update_of_ne hk]
        exact h.apart l' k hne a ha

theorem remove (h : Lists addr m xs) {l : ι} {pre post : List Nat}
    (hsplit : xs l = pre ++ e :: post) :
    ∃ m', listRemove m e = some m' ∧ Lists addr m' (Function.update xs l (pre ++ post)) ∧
      ∀ a, (∀ l', a ∉ addr l' :: xs l') → m' a = m a := by
  obtain ⟨m', hm', hlist, hframe⟩ := (hsplit ▸ h.isList l).remove
  rw [← hsplit] at hframe
  have hsub : ∀ k, ∀ a ∈ Function.update xs l (pre ++ post) k, a ∈ xs k := by
    intro k a ha
    by_cases hk : k = l
    · subst hk
      rw [Function.update_self] at ha
      rw [hsplit]
      simp only [List.mem_append, List.mem_cons] at ha ⊢
      tauto
    · rwa [Function.update_of_ne hk] at ha
  refine ⟨m', hm', ⟨fun l' => ?_, h.heads, fun l' k hmem => h.elem l' k (hsub k _ hmem),
    fun l' k hne a ha hmem => h.apart l' k hne a (hsub l' a ha) (hsub k a hmem)⟩,
    fun a ha => hframe a (ha l)⟩
  by_cases hl : l' = l
  · subst hl
    rwa [Function.update_self]
  · rw [Function.update_of_ne hl]
    exact (h.isList l').congr fun a ha => hframe a (h.notMem_other hl ha)

end Lists

end GidsStack.Driver
