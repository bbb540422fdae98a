/-
  GidsStack.Loader.Sequence

  Iterators created one after another on one loader.

  Each has its own queue, and all share the requests of the loader's store.  The caller takes
  some batches from an iterator, drops it, and creates the next one; what the dropped one had
  in flight stays in the store.  `sequence_returns_iff` says of any kind of iterator that
  keeps its own requests in order (`Laws`): all is well exactly when no iterator is asked for
  a batch while requests of earlier ones are outstanding.
-/

import GidsStack.Loader.Store

namespace GidsStack.Loader

/-! ## Epochs -/

/-- A kind of iterator that takes batches from a dataloader, with its warm-up and its
    `__next__`. -/
structure RegisteredIterator (R It B A : Type) where
  new : List B → It
  warmup : Nat → Program R It Unit
  next : Nat → Program R It A

/-- What is done with one iterator: the batches of its dataloader, and how many of them are
    taken before it is abandoned; more than there are run it to its end. -/
structure Epoch (B : Type) where
  batches : List B
  taken : Nat

namespace Epoch

variable {B : Type}

/-- The batches that are asked for. -/
def asked (e : Epoch B) : List B := e.batches.take e.taken

/-- All batches are taken. -/
def Finished (e : Epoch B) : Prop := e.batches.length ≤ e.taken

end Epoch

/-- What an epoch returns.  `firstRequest` is the first request of its iterator, and `gets`
    lists the gets that happen in it. -/
structure Outcome (R A : Type) where
  firstRequest : Nat
  results : List A
  gets : List (Get R)

namespace RegisteredIterator

variable {R It B A : Type} (it : RegisteredIterator R It B A) (fuel : Nat)

/-- A new iterator, on what others have left in the store. -/
def start (store : RegisteredStore R) (batches : List B) : Session R It where
  store := store.fresh
  iter := it.new batches

/-- `for batch in loader`, with a break. -/
def epoch (e : Epoch B) : Prog PyError (RegisteredStore R) (Outcome R A) := do
  let store ← Prog.get
  Prog.within (it.start · e.batches) Session.store
    (do
      it.warmup fuel
      Prog.takeUpTo (· == .stop) (it.next fuel) e.taken)
    fun results t => { firstRequest := store.nextRequestId, results, gets := t.store.gets }

/-- One iterator after another. -/
def sequence (epochs : List (Epoch B)) : Prog PyError (RegisteredStore R) (List (Outcome R A)) :=
  Prog.forEach (it.epoch fuel) epochs

/-- What is owed to an epoch: its own results, and gets that take requests of its own
    iterator, each with the rows that the get has allocated. -/
structure Isolated (own : B → A → Prop) (e : Epoch B) (o : Outcome R A) : Prop where
  results : List.Forall₂ own e.asked o.results
  requests : ∀ g ∈ o.gets, o.firstRequest ≤ g.requestId
  rows : ∀ g ∈ o.gets, g.rows = g.own

/-- All epochs run to their ends, and get what is owed to them. -/
def Isolates (own : B → A → Prop) (epochs : List (Epoch B)) (store : RegisteredStore R) : Prop :=
  (it.sequence fuel epochs).Returns store fun outcomes _ =>
    List.Forall₂ (Isolated own) epochs outcomes

/-- Whenever a batch is asked for, nothing was outstanding when its iterator was created, and
    it is a `good` one. -/
def Clean (good : B → Prop) : List (Epoch B) → RegisteredStore R → Prop
  | [], _ => True
  | e :: epochs, store => (∀ b ∈ e.asked, store.outstanding = [] ∧ good b) ∧
      ∀ o t, it.epoch fuel e store = some (.ok o, t) → Clean good epochs t

/-! ## Laws -/

/-- What an iterator with enough fuel does to a store.  `Inv` holds between calls: of the
    first request of the iterator, a bound of its requests, what was outstanding before, and
    the batches still to be returned. -/
structure Laws (own : B → A → Prop) (wellFormed good : B → Prop) (cost : B → Nat)
    (bound : Nat) where
  Inv : Nat → Nat → List (Nat × List R) → List B → Session R It → Prop
  ordered : ∀ {first limit foreign left s}, Inv first limit foreign left s →
    s.store.Ordered first foreign ∧ s.store.nextRequestId ≤ limit
  warmup : ∀ {store : RegisteredStore R} {batches limit}, store.Leftover →
    (∀ b ∈ batches, wellFormed b) → limit = store.nextRequestId + (batches.map cost).sum →
      limit ≤ bound → (it.warmup fuel).Returns (it.start store batches) fun _ t =>
        Inv store.nextRequestId limit (store.outstanding.map Pending.request) batches t
  next_own : ∀ {first limit b left s}, limit ≤ bound → good b →
    Inv first limit [] (b :: left) s →
      (it.next fuel).Returns s fun a t => own b a ∧ Inv first limit [] left t
  next_stop : ∀ {first limit foreign s}, Inv first limit foreign [] s →
    (it.next fuel).Raises s .stop (Inv first limit foreign [])
  next_stuck : ∀ {first limit foreign b left s}, limit ≤ bound → foreign ≠ [] ∨ ¬good b →
    Inv first limit foreign (b :: left) s → (it.next fuel).Fails (· == .stop) s

namespace Laws

variable {it fuel} {own : B → A → Prop} {wellFormed good : B → Prop} {cost : B → Nat}
  {bound : Nat} {store : RegisteredStore R} {e : Epoch B}

/-- The requests that an epoch makes at most. -/
def epochCost (cost : B → Nat) (e : Epoch B) : Nat := (e.batches.map cost).sum

/-- `next` serves the batches to come, while nothing is foreign and they are good. -/
theorem next_returns (laws : it.Laws fuel own wellFormed good cost bound) {first limit : Nat}
    (hlimit : limit ≤ bound) {foreign : List (Nat × List R)} (b : B) (left : List B)
    (s : Session R It) (hP : foreign = [] ∧ good b)
    (h : laws.Inv first limit foreign (b :: left) s) :
    (it.next fuel).Returns s fun a t => own b a ∧ laws.Inv first limit foreign left t := by
  obtain ⟨rfl, hgood⟩ := hP
  exact laws.next_own hlimit hgood h

/-- An epoch that is asked only for good batches, on nothing outstanding, or for none. -/
theorem epoch_returns (laws : it.Laws fuel own wellFormed good cost bound)
    (hstore : store.Leftover) (hwell : ∀ b ∈ e.batches, wellFormed b)
    (hbound : store.nextRequestId + epochCost cost e ≤ bound)
    (hclean : ∀ b ∈ e.asked, store.outstanding = [] ∧ good b) :
    (it.epoch fuel e).Returns store fun o t => Isolated own e o ∧ ∃ s,
      t = s.store ∧ laws.Inv store.nextRequestId (store.nextRequestId + epochCost cost e)
        (store.outstanding.map Pending.request) (e.batches.drop e.taken) s := by
  rw [epoch]
  apply Prog.returns_get_bind
  apply Prog.Returns.within
  apply (laws.warmup hstore hwell rfl hbound).bind
  intro _ s hs
  apply (Prog.Returns.takeUpTo (e := .stop)
    (laws.Inv store.nextRequestId (store.nextRequestId + epochCost cost e)
      (store.outstanding.map Pending.request))
    rfl (laws.next_returns hbound) (fun _ => laws.next_stop) e.taken ?_ hs).mono
  · rintro results t ⟨hresults, ht⟩
    have hordered := (laws.ordered ht).1
    exact ⟨⟨hresults, hordered.own_gets, hordered.paired⟩, t, rfl, ht⟩
  · intro b hb
    obtain ⟨hnil, hgood⟩ := hclean b hb
    rw [hnil]
    exact ⟨rfl, hgood⟩

/-- An epoch that is asked for another batch never ends. -/
theorem epoch_fails (laws : it.Laws fuel own wellFormed good cost bound)
    (hstore : store.Leftover) (hwell : ∀ b ∈ e.batches, wellFormed b)
    (hbound : store.nextRequestId + epochCost cost e ≤ bound)
    (hunclean : ¬∀ b ∈ e.asked, store.outstanding = [] ∧ good b) :
    (it.epoch fuel e).Fails (· == .stop) store := by
  rw [epoch]
  apply Prog.fails_get_bind
  apply Prog.Fails.within
  apply (laws.warmup hstore hwell rfl hbound).bind_fails
  intro _ s hs
  apply Prog.Fails.takeUpTo
    (laws.Inv store.nextRequestId (store.nextRequestId + epochCost cost e)
      (store.outstanding.map Pending.request))
    (laws.next_returns hbound) ?_ e.taken ?_ hs
  · intro b left t hP ht
    refine laws.next_stuck hbound ?_ ht
    by_contra hnot
    rw [not_or, not_not, not_not] at hnot
    exact hP hnot
  · intro hall
    refine hunclean fun b hb => ?_
    obtain ⟨hnil, hgood⟩ := hall b hb
    exact ⟨List.map_eq_nil_iff.mp hnil, hgood⟩

/-- The requests that a sequence makes at most. -/
def sequenceCost (cost : B → Nat) (epochs : List (Epoch B)) : Nat :=
  (epochs.map (epochCost cost)).sum

/-- After an epoch comes the rest of the sequence. -/
theorem isolates_cons_iff {epochs : List (Epoch B)} {o : Outcome R A} {t : RegisteredStore R}
    (hrun : it.epoch fuel e store = some (.ok o, t)) (ho : Isolated own e o) :
    it.Isolates fuel own (e :: epochs) store ↔ it.Isolates fuel own epochs t := by
  rw [Isolates, Isolates, sequence, sequence, Prog.forEach, Prog.returns_bind_iff hrun,
    Prog.returns_map_iff]
  simp only [List.forall₂_cons, and_iff_right ho]

theorem isolates_iff_clean (laws : it.Laws fuel own wellFormed good cost bound)
    (epochs : List (Epoch B)) (hstore : store.Leftover)
    (hwell : ∀ e ∈ epochs, ∀ b ∈ e.batches, wellFormed b)
    (hbound : store.nextRequestId + sequenceCost cost epochs ≤ bound) :
    it.Isolates fuel own epochs store ↔ it.Clean fuel good epochs store := by
  induction epochs generalizing store with
  | nil => exact iff_of_true (Prog.returns_pure .nil) trivial
  | cons e epochs ih =>
    have hcost : sequenceCost cost (e :: epochs) = epochCost cost e + sequenceCost cost epochs := by
      rw [sequenceCost, List.map_cons, List.sum_cons, sequenceCost]
    have hwell' := hwell e List.mem_cons_self
    by_cases hclean : ∀ b ∈ e.asked, store.outstanding = [] ∧ good b
    · obtain ⟨o, t, hrun, ho, s, rfl, hs⟩ := laws.epoch_returns hstore hwell' (by omega) hclean
      obtain ⟨hordered, hnext⟩ := laws.ordered hs
      have hrest := ih hordered.leftover (fun e' he => hwell e' (List.mem_cons_of_mem _ he))
        (by omega)
      rw [isolates_cons_iff hrun ho, hrest, Clean]
      apply Iff.intro
      · intro h
        refine ⟨hclean, fun o' t' hrun' => ?_⟩
        rw [hrun] at hrun'
        cases hrun'
        exact h
      · intro h
        exact h.2 o _ hrun
    · have hfails := laws.epoch_fails hstore hwell' (by omega) hclean
      apply iff_of_false
      · exact (hfails.forEach_head epochs).not_returns
      · exact fun h => hclean h.1

/-! ## Iterators that always have the next batch in flight -/

/-- Between calls the requests of an iterator are outstanding as long as it has batches to
    return. -/
def Eager (laws : it.Laws fuel own wellFormed good cost bound) : Prop :=
  ∀ {first limit left s}, laws.Inv first limit [] left s → (s.store.outstanding = [] ↔ left = [])

/-- For these it is enough to look at how many batches are taken. -/
theorem clean_iff (laws : it.Laws fuel own wellFormed good cost bound) (heager : laws.Eager)
    (epochs : List (Epoch B)) (hstore : store.Leftover)
    (hwell : ∀ e ∈ epochs, ∀ b ∈ e.batches, wellFormed b)
    (hbound : store.nextRequestId + sequenceCost cost epochs ≤ bound) :
    it.Clean fuel good epochs store ↔
      (∀ e ∈ epochs, ∀ b ∈ e.asked, store.outstanding = [] ∧ good b) ∧
        epochs.Pairwise fun e later => later.asked ≠ [] → e.Finished := by
  induction epochs generalizing store with
  | nil => exact iff_of_true trivial ⟨fun _ he => absurd he List.not_mem_nil, .nil⟩
  | cons e epochs ih =>
    have hcost : sequenceCost cost (e :: epochs) = epochCost cost e + sequenceCost cost epochs := by
      rw [sequenceCost, List.map_cons, List.sum_cons, sequenceCost]
    have hwell' := hwell e List.mem_cons_self
    rw [Clean, List.forall_mem_cons, List.pairwise_cons]
    by_cases hclean : ∀ b ∈ e.asked, store.outstanding = [] ∧ good b
    · obtain ⟨o, t, hrun, -, s, rfl, hs⟩ := laws.epoch_returns hstore hwell' (by omega) hclean
      obtain ⟨hordered, hnext⟩ := laws.ordered hs
      -- the store is empty afterwards when it was before and all batches have been taken
      have hempty : s.store.outstanding = [] ↔ store.outstanding = [] ∧ e.Finished := by
        by_cases hnil : store.outstanding = []
        · rw [hnil] at hs
          rw [heager hs, List.drop_eq_nil_iff]
          exact (and_iff_right hnil).symm
        · refine iff_of_false ?_ fun h => hnil h.1
          exact hordered.outstanding_ne_nil fun h => hnil (List.map_eq_nil_iff.mp h)
      have hrest := ih hordered.leftover (fun e' he => hwell e' (List.mem_cons_of_mem _ he))
        (by omega)
      have honly : (∀ o' t', it.epoch fuel e store = some (.ok o', t') →
          it.Clean fuel good epochs t') ↔ it.Clean fuel good epochs s.store := by
        apply Iff.intro
        · intro h
          exact h o _ hrun
        · intro h o' t' hrun'
          rw [hrun] at hrun'
          cases hrun'
          exact h
      rw [honly, hrest]
      apply Iff.intro
      · rintro ⟨-, hall, hpairs⟩
        refine ⟨⟨hclean, fun e' he b hb => ?_⟩, fun e' he hasked => ?_, hpairs⟩
        · obtain ⟨hnil, hgood⟩ := hall e' he b hb
          exact ⟨(hempty.mp hnil).1, hgood⟩
        · obtain ⟨b, hb⟩ := List.exists_mem_of_ne_nil _ hasked
          exact (hempty.mp (hall e' he b hb).1).2
      · rintro ⟨⟨-, hall⟩, hfirst, hpairs⟩
        refine ⟨hclean, fun e' he b hb => ?_, hpairs⟩
        obtain ⟨hnil, hgood⟩ := hall e' he b hb
        exact ⟨hempty.mpr ⟨hnil, hfirst e' he (List.ne_nil_of_mem hb)⟩, hgood⟩
    · exact iff_of_false (fun h => hclean h.1) fun h => hclean h.1.1

/-- On a store without leftovers. -/
theorem isolates_idle_iff (laws : it.Laws fuel own wellFormed good cost bound)
    (heager : laws.Eager) (requests calls : Nat) (epochs : List (Epoch B))
    (hwell : ∀ e ∈ epochs, ∀ b ∈ e.batches, wellFormed b)
    (hbound : requests + 1 + sequenceCost cost epochs ≤ bound) :
    it.Isolates fuel own epochs (.idle requests calls) ↔
      (∀ e ∈ epochs, ∀ b ∈ e.asked, good b) ∧
        epochs.Pairwise fun e later => later.asked ≠ [] → e.Finished := by
  have hstore : (RegisteredStore.idle requests calls : RegisteredStore R).Leftover :=
    RegisteredStore.leftover_idle requests calls
  have hnil : (RegisteredStore.idle requests calls : RegisteredStore R).outstanding = [] := rfl
  rw [laws.isolates_iff_clean epochs hstore hwell hbound,
    laws.clean_iff heager epochs hstore hwell hbound]
  simp only [hnil, true_and]

end Laws

end RegisteredIterator

end GidsStack.Loader
