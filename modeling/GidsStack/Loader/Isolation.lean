/-
  GidsStack.Loader.Isolation

  The iterators of GIDS.py and CIDS.py, one after another on one loader.

  A loop that breaks leaves what was in flight in the store, and nothing takes it from there.
  The next iterator then never comes to its own requests.  In single mode and in CIDS.py a
  request is in flight as long as there are batches, so every early break is followed by this
  hang; in split mode the requests may all have been copied by then.
-/

import GidsStack.Loader.CidsIterator
import GidsStack.Loader.GidsSplitRun
import GidsStack.Loader.GidsSingle
import GidsStack.Loader.Sequence

namespace GidsStack.Loader

variable {I A R T F : Type}

/-! ## The kinds of iterators -/

/-- `_PrefetchingIter_async_registered_try_service_cids`. -/
def cidsIterator (loader : CidsLoader I A) :
    RegisteredIterator A (CidsIter I A) (Batch I A) (Batch I A) where
  new batches := { dataloaderIt := batches, prefetchQueue := [], exhausted := false, maxQueued := 0 }
  warmup := CidsIter.fillPrefetchQueue loader
  next := CidsIter.next loader

/-- `_PrefetchingIter_async_registered_try_service`, not in split mode. -/
def singleIterator (loader : GidsLoader R F) :
    RegisteredIterator R (SingleIter R T) (Sampled R T) (Attached R T F) where
  new := .new
  warmup _ := SingleIter.warmup loader
  next := SingleIter.next loader

/-- `_PrefetchingIter_async_registered_try_service` in split mode. -/
def splitIterator (loader : GidsLoader R F) :
    RegisteredIterator R (SplitIter R T F) (Sampled R T) (Attached R T F) where
  new := .new
  warmup := SplitIter.warmup loader
  next := SplitIter.next loader

/-- The batch that a synchronous read would have returned. -/
def CidsLoader.Own (loader : CidsLoader I A) (b r : Batch I A) : Prop :=
  fetchRegistered loader.src loader.split b = .ok r

/-- The batch with the features of its input nodes. -/
def GidsLoader.Own (loader : GidsLoader R F) (b : Sampled R T) (r : Attached R T F) : Prop :=
  r = { batch := b, features := b.inputNodes.map loader.feature }

/-- Batches that split mode can submit: they have nodes, and fit the budget. -/
def GidsLoader.Submittable (loader : GidsLoader R F) (b : Sampled R T) : Prop :=
  b.inputNodes ≠ [] ∧
    (loader.maxOutstandingIos = 0 ∨ b.inputNodes.length ≤ loader.maxOutstandingIos)

/-! ## Their laws -/

section Laws

variable {fuel bound : Nat}

def cidsLaws {loader : CidsLoader I A} (hfuel : loader.depth < fuel) :
    (cidsIterator loader).Laws fuel loader.Own Batch.Readable (·.ids ≠ []) loader.parts bound where
  Inv first limit foreign left s := Queued loader first limit foreign [] left s ∧ Filled s
  ordered := fun ⟨h, _⟩ => ⟨h.ordered, by
    have := h.remaining
    omega⟩
  warmup := fun hstore hread hlimit _ => by
    rw [hlimit]
    exact CidsIter.fillPrefetchQueue_returns (CidsIter.queued_start hstore hread) hfuel
  next_own := fun _ hids ⟨h, hfilled⟩ => CidsIter.next_returns h hfilled hids hfuel
  next_stop := fun ⟨h, hfilled⟩ => by
    obtain ⟨t, hraise, rfl⟩ := CidsIter.next_stops h hfilled
    exact ⟨_, hraise, h, hfilled⟩
  next_stuck := fun {first limit foreign b left s} _ hbad ⟨h, hfilled⟩ => by
    by_cases hne : foreign = []
    · subst hne
      have hids := not_not.mp (hbad.resolve_left fun hnil => hnil rfl)
      exact (CidsIter.next_raises h hfilled hids hfuel).fails rfl
    · exact CidsIter.next_stuck h hfilled hne

theorem cidsLaws_eager {loader : CidsLoader I A} (hfuel : loader.depth < fuel) :
    (cidsLaws hfuel : (cidsIterator loader).Laws fuel _ _ _ _ bound).Eager := by
  rintro first limit left s ⟨h, hfilled⟩
  have hbatches := h.batches
  have hrequests := h.requests
  cases left with
  | nil =>
    rw [List.map_eq_nil_iff.mp (List.append_eq_nil_iff.mp hbatches).1] at hrequests
    exact iff_of_true (List.map_eq_nil_iff.mp hrequests) rfl
  | cons b left =>
    refine iff_of_false (fun hnil => ?_) (List.cons_ne_nil b left)
    obtain ⟨item, t, -, hbatch, hitem, ht⟩ := CidsIter.popFront_returns h hfilled
    cases hqueue : s.iter.prefetchQueue with
    | nil =>
      rw [hqueue, h.ended (hfilled.resolve_left fun hne => hne hqueue)] at hbatches
      cases hbatches
    | cons item rest =>
      have hsubs := (h.submitted item (by rw [hqueue]; exact List.mem_cons_self)).subs_ne_nil
        (h.readable item.batch (by
          rw [← hbatches, hqueue]
          exact List.mem_cons_self))
      rw [hnil, hqueue, List.nil_append, List.nil_append, List.flatMap_cons, List.map_append]
        at hrequests
      exact hsubs (List.map_eq_nil_iff.mp (List.append_eq_nil_iff.mp hrequests.symm).1)

def singleLaws {loader : GidsLoader R F} {served : Nat}
    (hlive : ∀ id, id < bound → LiveFrom loader.device served id) (hdepth : loader.depth < fuel)
    (hserved : served < fuel) :
    (singleIterator loader : RegisteredIterator R _ (Sampled R T) _).Laws fuel loader.Own
      (fun _ => True) (·.inputNodes ≠ []) (fun _ => 1) bound where
  Inv first limit foreign left s := SingleQueued first limit foreign left s ∧ SingleFilled s
  ordered := fun ⟨h, _⟩ => ⟨h.ordered, by
    have := h.remaining
    omega⟩
  warmup := fun hstore _ hlimit _ => by
    rw [List.map_const', List.sum_replicate_nat, Nat.mul_one] at hlimit
    rw [hlimit]
    exact SingleIter.warmup_returns (SingleIter.queued_start hstore _) rfl
  next_own := fun hlimit hne ⟨h, hfilled⟩ => SingleIter.next_returns h hfilled hne
    (fun id hid => hlive id (Nat.lt_of_lt_of_le hid hlimit)) hdepth hserved
  next_stop := fun ⟨h, hfilled⟩ => by
    obtain ⟨t, hraise, rfl⟩ := SingleIter.next_stops h hfilled
    exact ⟨_, hraise, h, hfilled⟩
  next_stuck := fun _ hbad ⟨h, hfilled⟩ => SingleIter.next_stuck h hfilled (hbad.imp id not_not.mp)

theorem singleLaws_eager {loader : GidsLoader R F} {served : Nat}
    (hlive : ∀ id, id < bound → LiveFrom loader.device served id) (hdepth : loader.depth < fuel)
    (hserved : served < fuel) :
    (singleLaws hlive hdepth hserved :
      (singleIterator loader : RegisteredIterator R _ (Sampled R T) _).Laws fuel _ _ _ _ _).Eager := by
  rintro first limit left s ⟨h, hfilled⟩
  have hrequests := h.requests
  cases left with
  | nil =>
    have hbatches := (List.append_eq_nil_iff.mp (List.append_eq_nil_iff.mp h.batches).1).1
    rw [List.map_eq_nil_iff.mp hbatches] at hrequests
    exact iff_of_true (List.map_eq_nil_iff.mp hrequests) rfl
  | cons b left =>
    refine iff_of_false (fun hnil => ?_) (List.cons_ne_nil b left)
    obtain ⟨item, rest, hqueue, -⟩ := SingleIter.front_exists h hfilled
    rw [hnil, hqueue] at hrequests
    cases hrequests

def splitLaws {loader : GidsLoader R F} {served : Nat}
    (hlive : ∀ id, id < bound → LiveFrom loader.device served id) (hbound : bound < fuel)
    (hserved : served < fuel) :
    (splitIterator loader : RegisteredIterator R _ (Sampled R T) _).Laws fuel loader.Own
      loader.Submittable (fun _ => True) loader.micros bound where
  Inv first limit foreign left s :=
    SplitQueued loader first limit foreign none left s ∧ SplitIter.SplitFilled s
  ordered := fun ⟨h, _⟩ => ⟨h.ordered, SplitIter.nextRequestId_le h⟩
  warmup := fun hstore hwell hlimit hle => by
    subst hlimit
    exact SplitIter.warmup_returns
      (SplitIter.queued_start hstore (fun b hb => (hwell b hb).1) fun b hb => (hwell b hb).2)
      (Nat.lt_of_le_of_lt hle hbound)
  next_own := fun hlimit _ ⟨h, _⟩ => SplitIter.next_returns h
    (fun id hid => hlive id (Nat.lt_of_lt_of_le hid hlimit)) (Nat.lt_of_le_of_lt hlimit hbound)
    hserved
  next_stop := fun ⟨h, hfilled⟩ => by
    obtain ⟨t, hraise, rfl⟩ := SplitIter.next_stops h hfilled
    exact ⟨_, hraise, h, hfilled⟩
  next_stuck := fun hlimit hbad ⟨h, _⟩ => SplitIter.next_stuck h
    (hbad.resolve_right fun hnot => hnot trivial) (Nat.lt_of_le_of_lt hlimit hbound)

end Laws

/-! ## Isolation -/

open RegisteredIterator

/-- Every batch that is asked for is `good`, and no iterator is asked for one after another
    has been abandoned before its last batch. -/
def Unbroken {B : Type} (good : B → Prop) (epochs : List (Epoch B)) : Prop :=
  (∀ e ∈ epochs, ∀ b ∈ e.asked, good b) ∧
    epochs.Pairwise fun e later => later.asked ≠ [] → e.Finished

theorem cids_isolates_iff (loader : CidsLoader I A) (requests calls : Nat)
    (epochs : List (Epoch (Batch I A))) (hread : ∀ e ∈ epochs, ∀ b ∈ e.batches, b.Readable) :
    ∃ N, ∀ fuel, N ≤ fuel →
      ((cidsIterator loader).Isolates fuel loader.Own epochs (.idle requests calls) ↔
        Unbroken (fun b : Batch I A => b.ids ≠ []) epochs) := by
  refine ⟨loader.depth + 1, fun fuel hfuel => ?_⟩
  exact (cidsLaws hfuel).isolates_idle_iff (cidsLaws_eager hfuel) requests calls epochs hread
    (Nat.le_refl _)

theorem single_isolates_iff (loader : GidsLoader R F)
    (hlive : ∀ id, ∃ n, LiveFrom loader.device n id) (requests calls : Nat)
    (epochs : List (Epoch (Sampled R T))) :
    ∃ N, ∀ fuel, N ≤ fuel →
      ((singleIterator loader).Isolates fuel loader.Own epochs (.idle requests calls) ↔
        Unbroken (fun b : Sampled R T => b.inputNodes ≠ []) epochs) := by
  obtain ⟨served, hserved⟩ := SplitIter.live_bound hlive
    (requests + 1 + Laws.sequenceCost (fun _ => 1) epochs)
  refine ⟨max loader.depth served + 1, fun fuel hfuel => ?_⟩
  have hdepth : loader.depth < fuel := by omega
  have hlarge : served < fuel := by omega
  exact (singleLaws hserved hdepth hlarge).isolates_idle_iff
    (singleLaws_eager hserved hdepth hlarge) requests calls epochs (fun _ _ _ _ => trivial)
    (Nat.le_refl _)

theorem split_isolates_iff (loader : GidsLoader R F)
    (hlive : ∀ id, ∃ n, LiveFrom loader.device n id) (requests calls : Nat)
    (epochs : List (Epoch (Sampled R T)))
    (hbatches : ∀ e ∈ epochs, ∀ b ∈ e.batches, loader.Submittable b) :
    ∃ N, ∀ fuel, N ≤ fuel →
      ((splitIterator loader).Isolates fuel loader.Own epochs (.idle requests calls) ↔
        (splitIterator loader).Clean fuel (fun _ => True) epochs (.idle requests calls)) := by
  obtain ⟨served, hserved⟩ := SplitIter.live_bound hlive
    (requests + 1 + Laws.sequenceCost loader.micros epochs)
  refine ⟨max (requests + 1 + Laws.sequenceCost loader.micros epochs) served + 1,
    fun fuel hfuel => ?_⟩
  have hbound : requests + 1 + Laws.sequenceCost loader.micros epochs < fuel := by omega
  have hlarge : served < fuel := by omega
  exact (splitLaws hserved hbound hlarge).isolates_iff_clean epochs
    (RegisteredStore.leftover_idle requests calls) hbatches (Nat.le_refl _)

/-- With enough fuel, and whatever the settings, the kind of iterator and the times at which
    requests become ready: iterators stay out of each other's way exactly when none is asked
    for a batch while requests of earlier ones are outstanding.  In CIDS.py and in single mode
    that is when none before it has been abandoned with batches left. -/
theorem isolates_iff_unbroken (cids : CidsLoader I A) (gids : GidsLoader R F)
    (hlive : ∀ id, ∃ n, LiveFrom gids.device n id) (requests calls : Nat)
    (images : List (Epoch (Batch I A))) (hread : ∀ e ∈ images, ∀ b ∈ e.batches, b.Readable)
    (nodes : List (Epoch (Sampled R T))) (splits : List (Epoch (Sampled R T)))
    (hsplits : ∀ e ∈ splits, ∀ b ∈ e.batches, gids.Submittable b) :
    ∃ N, ∀ fuel, N ≤ fuel →
      ((cidsIterator cids).Isolates fuel cids.Own images (.idle requests calls) ↔
        Unbroken (fun b : Batch I A => b.ids ≠ []) images) ∧
      ((singleIterator gids).Isolates fuel gids.Own nodes (.idle requests calls) ↔
        Unbroken (fun b : Sampled R T => b.inputNodes ≠ []) nodes) ∧
      ((splitIterator gids).Isolates fuel gids.Own splits (.idle requests calls) ↔
        (splitIterator gids).Clean fuel (fun _ => True) splits (.idle requests calls)) := by
  obtain ⟨N, hcids⟩ := cids_isolates_iff cids requests calls images hread
  obtain ⟨M, hsingle⟩ := single_isolates_iff gids hlive requests calls nodes
  obtain ⟨K, hsplit⟩ := split_isolates_iff gids hlive requests calls splits hsplits
  refine ⟨max N (max M K), fun fuel hfuel => ⟨?_, ?_, ?_⟩⟩
  · exact hcids fuel (by omega)
  · exact hsingle fuel (by omega)
  · exact hsplit fuel (by omega)

/-! ## A loop that breaks -/

/-- Two batches each time: the first loop breaks after one, the second would take both. -/
def brokenEpochs : List (Epoch (Sampled Nat Unit)) :=
  [{ batches := twoBatches, taken := 1 }, { batches := twoBatches, taken := 2 }]

/-- Without a split and with all rows there from the third service call on. -/
def singleLoader : GidsLoader Nat Nat :=
  { tightLoader with maxOutstandingIos := 0, submitCommandsPerBatch := 1, device := fun n _ => 3 ≤ n }

theorem singleLoader_live (id : Nat) : ∃ n, LiveFrom singleLoader.device n id :=
  ⟨3, fun _ hn => decide_eq_true hn⟩

theorem isolates_iff_unbroken_twoBatches :
    (∀ e ∈ [(⟨[labelledBatch, labelledBatch], 1⟩ : Epoch (Batch Unit Nat))], ∀ b ∈ e.batches,
        b.Readable) ∧
      ∃ N, ∀ fuel, N ≤ fuel →
        ((cidsIterator plainLoader).Isolates fuel plainLoader.Own
          [⟨[labelledBatch, labelledBatch], 1⟩] (.idle 0 0) ↔
            Unbroken (fun b : Batch Unit Nat => b.ids ≠ [])
              [⟨[labelledBatch, labelledBatch], 1⟩]) ∧
        ((singleIterator tightLoader).Isolates fuel tightLoader.Own brokenEpochs (.idle 0 0) ↔
          Unbroken (fun b : Sampled Nat Unit => b.inputNodes ≠ []) brokenEpochs) ∧
        ((splitIterator tightLoader).Isolates fuel tightLoader.Own brokenEpochs (.idle 0 0) ↔
          (splitIterator tightLoader).Clean fuel (fun _ => True) brokenEpochs (.idle 0 0)) := by
  have hread : ∀ e ∈ [(⟨[labelledBatch, labelledBatch], 1⟩ : Epoch (Batch Unit Nat))],
      ∀ b ∈ e.batches, b.Readable := by
    intro e he b hb
    rw [List.mem_singleton.mp he] at hb
    rcases List.mem_pair.mp hb with rfl | rfl <;> rfl
  have hlive : ∀ id, ∃ n, LiveFrom tightLoader.device n id :=
    fun id => ⟨id, fun n hn => decide_eq_true hn⟩
  have hsplits : ∀ e ∈ brokenEpochs, ∀ b ∈ e.batches, tightLoader.Submittable b := by
    have hbatches : ∀ b ∈ twoBatches, tightLoader.Submittable b := by
      rintro b hb
      rcases List.mem_pair.mp hb with rfl | rfl
      · exact ⟨List.cons_ne_nil _ _, Or.inr (by decide)⟩
      · exact ⟨List.cons_ne_nil _ _, Or.inr (by decide)⟩
    intro e he
    rcases List.mem_pair.mp he with rfl | rfl
    · exact hbatches
    · exact hbatches
  exact ⟨hread, isolates_iff_unbroken plainLoader tightLoader hlive 0 0 _ hread brokenEpochs
    brokenEpochs hsplits⟩

/-- After the break the second loop gets nothing, however long it runs. -/
theorem broken_not_isolated :
    ∃ N, ∀ fuel, N ≤ fuel →
      ¬(singleIterator singleLoader).Isolates fuel singleLoader.Own brokenEpochs (.idle 0 0) := by
  obtain ⟨N, hN⟩ := single_isolates_iff singleLoader singleLoader_live 0 0 brokenEpochs
  refine ⟨N, fun fuel hfuel hisolates => ?_⟩
  obtain ⟨-, hpairs⟩ := (hN fuel hfuel).mp hisolates
  have hfinished : twoBatches.length ≤ 1 :=
    (List.pairwise_cons.mp hpairs).1 _ List.mem_cons_self (List.cons_ne_nil _ _)
  exact absurd hfinished (by decide)

end GidsStack.Loader
