/-
  GidsStack.Lib.PinCache.Exclusive

  BUSY as a lock.  Whatever the page is when somebody sets BUSY on it, the flag
  has one owner until it is cleared: the leader of the page's miss, or one
  evictor.  Unlike `Owned` this says nothing of the page being valid, and does
  not need leaders to find it invalid; it does need misses to be published by
  nobody but their leaders.
-/

import GidsStack.Lib.PinCache.Protocol

namespace GidsStack.Lib.PinCache

variable {P S A : Type*}

/-- Every page has at most one owner of its BUSY flag. -/
structure Exclusive (v : Cache P S A) : Prop where
  busy : ∀ p, v.leader p ≠ none → v.busy p = true
  lead : ∀ a p t, v.leading a = some (p, t) →
    v.leader p = some a ∧ v.given p = none ∧ v.shared p = t
  serve : ∀ a k, v.serving a = some k →
    v.leader k.page = some a ∧ v.given k.page ≠ none ∧ v.shared k.page = false
  poll : ∀ a k, v.polling a = some k →
    v.leader k.page = some a ∧ v.given k.page ≠ none ∧ v.shared k.page = true
  evict : ∀ a k, v.taking a = some k → v.leader k.page = none ∧ v.busy k.page = true
  evictUnique : ∀ a b k l, v.taking a = some k → v.taking b = some l → k.page = l.page → a = b

/-- Shared misses are published by their leaders, once they have their slot. -/
def Guard.Leading (g : Guard P S A) : Prop :=
  ∀ v a p s, g.win v a p s → v.leader p = some a ∧ v.given p ≠ none ∧ v.shared p = true

variable [DecidableEq P] [DecidableEq S] [DecidableEq A]

open Function (update)

section Preservation

variable {P S A : Type*} {v : Cache P S A}

/-- A page that is not busy has no open miss. -/
theorem Exclusive.closed (hi : Exclusive v) {p : P} (hb : v.busy p = false) :
    v.leader p = none := by
  by_contra hl
  rw [hi.busy p hl] at hb
  cases hb

theorem Exclusive.leadStep [DecidableEq P] [DecidableEq A]
    (hi : Exclusive v) {a : A} {p : P} (t : Bool) (hb : v.busy p = false)
    (con pub : P → Nat) :
    Exclusive { v with
      busy := update v.busy p true
      leader := update v.leader p (some a)
      shared := update v.shared p t
      given := update v.given p none
      consumed := con
      published := pub
      leading := update v.leading a (some (p, t)) } := by
  have hl := hi.closed hb
  -- who has a leader already is not `p`
  have hother : ∀ {q b}, v.leader q = some b → q ≠ p := by
    rintro q b h rfl
    cases hl.symm.trans h
  refine ⟨fun q h => ?_, fun b q u h => ?_, fun b k h => ?_, fun b k h => ?_, fun b k h => ?_,
    hi.evictUnique⟩
  · show update v.busy p true q = true
    by_cases hqp : q = p
    · rw [hqp, Function.update_self]
    · rw [Function.update_of_ne hqp]
      exact hi.busy q ((Function.update_of_ne hqp _ v.leader).symm.trans_ne h)
  · rcases of_update_some h with ⟨rfl, hpair⟩ | ⟨-, h⟩
    · obtain ⟨rfl, rfl⟩ := Prod.mk.inj (Option.some.inj hpair)
      exact ⟨Function.update_self .., Function.update_self .., Function.update_self ..⟩
    · have hold := hi.lead b q u h
      simpa only [Function.update_of_ne (hother hold.1)] using hold
  · have hold := hi.serve b k h
    simpa only [Function.update_of_ne (hother hold.1)] using hold
  · have hold := hi.poll b k h
    simpa only [Function.update_of_ne (hother hold.1)] using hold
  · have hold := hi.evict b k h
    have hkp : k.page ≠ p := by
      intro hkp
      rw [hkp, hb] at hold
      cases hold.2
    simpa only [Function.update_of_ne hkp] using hold

/-- BUSY taken on a page that is not busy. -/
theorem Exclusive.take [DecidableEq P] [DecidableEq A]
    (hi : Exclusive v) {a : A} (k : Take P) (hb : v.busy k.page = false) :
    Exclusive { v with
      busy := update v.busy k.page true
      taking := update v.taking a (some k) } := by
  have hother : ∀ {b l}, v.taking b = some l → l.page ≠ k.page := by
    intro b l h hpage
    have hbusy := (hi.evict b l h).2
    rw [hpage, hb] at hbusy
    cases hbusy
  refine { hi with
    busy := fun q h => ?_, evict := fun b l h => ?_, evictUnique := fun b c l m hl hm hp => ?_ }
  · show update v.busy k.page true q = true
    by_cases hqk : q = k.page
    · rw [hqk, Function.update_self]
    · rw [Function.update_of_ne hqk]
      exact hi.busy q h
  · rcases of_update_some h with ⟨-, hkl⟩ | ⟨-, h⟩
    · obtain rfl := Option.some.inj hkl
      exact ⟨hi.closed hb, Function.update_self ..⟩
    · have hold := hi.evict b l h
      exact ⟨hold.1, (Function.update_of_ne (hother h) _ v.busy).trans hold.2⟩
  · rcases of_update_some hl with ⟨hba, hkl⟩ | ⟨-, hl⟩
    · rcases of_update_some hm with ⟨hca, -⟩ | ⟨-, hm⟩
      · exact hba.trans hca.symm
      · obtain rfl := Option.some.inj hkl
        exact absurd hp.symm (hother hm)
    · rcases of_update_some hm with ⟨-, hkm⟩ | ⟨-, hm⟩
      · obtain rfl := Option.some.inj hkm
        exact absurd hp (hother hl)
      · exact hi.evictUnique b c l m hl hm hp

/-- BUSY given back. -/
theorem Exclusive.untake [DecidableEq P] [DecidableEq A]
    (hi : Exclusive v) {a : A} {k : Take P} (ht : v.taking a = some k)
    (valid : P → Bool) (own : A → Option (Own P S)) :
    Exclusive { v with
      valid := valid
      busy := update v.busy k.page false
      own := own
      taking := update v.taking a none } := by
  obtain ⟨hl, -⟩ := hi.evict a k ht
  refine { hi with
    busy := fun q h => ?_, evict := fun b l h => ?_, evictUnique := fun b c l m hl hm hp => ?_ }
  · have hqk : q ≠ k.page := fun hqk => h (hqk ▸ hl)
    exact (Function.update_of_ne hqk _ v.busy).trans (hi.busy q h)
  · obtain ⟨hba, h⟩ := of_update_none h
    have hlk : l.page ≠ k.page := fun hlk => hba (hi.evictUnique b a l k h ht hlk)
    have hold := hi.evict b l h
    exact ⟨hold.1, (Function.update_of_ne hlk _ v.busy).trans hold.2⟩
  · exact hi.evictUnique b c l m (of_update_none hl).2 (of_update_none hm).2 hp

/-- A slot for a miss; the leader goes on to publish it only if it is not shared. -/
theorem Exclusive.assign [DecidableEq P] [DecidableEq A]
    (hi : Exclusive v) {a : A} {p : P} {t : Bool} (s : S)
    (hr : v.leading a = some (p, t)) (lock : S → SlotLock) (own : A → Option (Own P S))
    (asg : A → Option (P × S)) :
    Exclusive { v with
      lock := lock
      given := update v.given p (some s)
      own := own
      leading := update v.leading a none
      assigned := asg
      serving := update v.serving a (if t then none else some ⟨p, s, false⟩) } := by
  obtain ⟨hl, -, hsh⟩ := hi.lead a p t hr
  have hgiven : ∀ q, v.given q ≠ none → update v.given p (some s) q ≠ none := by
    intro q hq
    by_cases hqp : q = p
    · rw [hqp, Function.update_self]
      exact Option.some_ne_none s
    · rwa [Function.update_of_ne hqp]
  refine { hi with
    lead := fun b q u h => ?_, serve := fun b k h => ?_, poll := fun b k h => ?_ }
  · obtain ⟨hba, h⟩ := of_update_none h
    have hold := hi.lead b q u h
    have hqp : q ≠ p := by
      rintro rfl
      exact hba (Option.some.inj (hold.1.symm.trans hl))
    exact ⟨hold.1, (Function.update_of_ne hqp _ v.given).trans hold.2.1, hold.2.2⟩
  · rcases of_update_some h with ⟨rfl, hk⟩ | ⟨-, h⟩
    · cases t with
      | true => cases hk
      | false =>
        obtain rfl := Option.some.inj hk
        exact ⟨hl, (Function.update_self ..).trans_ne (Option.some_ne_none s), hsh⟩
    · have hold := hi.serve b k h
      exact ⟨hold.1, hgiven k.page hold.2.1, hold.2.2⟩
  · have hold := hi.poll b k h
    exact ⟨hold.1, hgiven k.page hold.2.1, hold.2.2⟩

/-- A leader that has stored the slot still serves the same miss. -/
theorem Exclusive.storeServed [DecidableEq A] (hi : Exclusive v) {a : A} {p : P} {s : S} {b : Bool}
    (hr : v.serving a = some ⟨p, s, b⟩) (off : P → S) (c : Bool) :
    Exclusive { v with offset := off, serving := update v.serving a (some ⟨p, s, c⟩) } := by
  refine { hi with serve := fun d k h => ?_ }
  rcases of_update_some h with ⟨rfl, hk⟩ | ⟨-, h⟩
  · obtain rfl := Option.some.inj hk
    exact hi.serve d ⟨p, s, b⟩ hr
  · exact hi.serve d k h

/-- An open miss that is published, by its leader. -/
theorem Exclusive.publish [DecidableEq P] (hi : Exclusive v) {p : P} (hl : v.leader p ≠ none)
    (hg : v.given p ≠ none) (valid : P → Bool) (pub : P → Nat) (sv : A → Option (Serve P S))
    (pl : A → Option (Poll P S)) (hsv : ∀ b k, sv b = some k → v.serving b = some k ∧ k.page ≠ p)
    (hpl : ∀ b k, pl b = some k → v.polling b = some k ∧ k.page ≠ p) :
    Exclusive { v with
      valid := valid
      busy := update v.busy p (!v.busy p)
      leader := update v.leader p none
      published := pub
      serving := sv
      polling := pl } := by
  refine ⟨fun q h => ?_, fun b q u h => ?_, fun b k h => ?_, fun b k h => ?_, fun b k h => ?_,
    hi.evictUnique⟩
  · have hqp : q ≠ p := by
      rintro rfl
      exact h (Function.update_self ..)
    exact (Function.update_of_ne hqp _ v.busy).trans
      (hi.busy q ((Function.update_of_ne hqp _ v.leader).symm.trans_ne h))
  · have hold := hi.lead b q u h
    have hqp : q ≠ p := by
      rintro rfl
      exact hg hold.2.1
    exact ⟨(Function.update_of_ne hqp _ v.leader).trans hold.1, hold.2⟩
  · obtain ⟨h, hkp⟩ := hsv b k h
    have hold := hi.serve b k h
    exact ⟨(Function.update_of_ne hkp _ v.leader).trans hold.1, hold.2⟩
  · obtain ⟨h, hkp⟩ := hpl b k h
    have hold := hi.poll b k h
    exact ⟨(Function.update_of_ne hkp _ v.leader).trans hold.1, hold.2⟩
  · have hold := hi.evict b k h
    have hkp : k.page ≠ p := fun hkp => hl (hkp ▸ hold.1)
    exact ⟨(Function.update_of_ne hkp _ v.leader).trans hold.1,
      (Function.update_of_ne hkp _ v.busy).trans hold.2⟩

/-- An agent that publishes an open shared miss that has its slot leads it. -/
theorem Exclusive.repoll [DecidableEq A]
    (hi : Exclusive v) {a : A} {p : P} (hl : v.leader p = some a)
    (hg : v.given p ≠ none) (hsh : v.shared p = true) (x : Option (S × Waiting)) (con : P → Nat)
    (off : P → S) :
    Exclusive { v with
      consumed := con
      offset := off
      polling := update v.polling a (x.map fun y => ⟨p, y.1, y.2⟩) } := by
  refine { hi with poll := fun b k h => ?_ }
  rcases of_update_some h with ⟨rfl, hk⟩ | ⟨-, h⟩
  · obtain ⟨y, -, rfl⟩ := Option.map_eq_some_iff.mp hk
    exact ⟨hl, hg, hsh⟩
  · exact hi.poll b k h

end Preservation

theorem Step.exclusive {g : Guard P S A} (hg : g.Leading) {v w : Cache P S A} (hi : Exclusive v)
    (h : Step g v w) : Exclusive w := by
  cases h with
  | lead a p t hr ho hb hok => exact hi.leadStep t hb _ _
  | markBusy a q s ho ht hb => exact hi.take ⟨q, _⟩ hb
  | evicted a q s ho ht => exact hi.untake ht _ _
  | undone a q ht => exact hi.untake ht _ _
  | assign a p t s hr ho hj => exact hi.assign s hr _ _ _
  | storeServed a p s hr => exact hi.storeServed hr _ true
  | publishServed a p s hr =>
    obtain ⟨hl, hgv, hsh⟩ := hi.serve a _ hr
    refine hi.publish (hl.trans_ne (Option.some_ne_none a)) hgv _ _ _ _ ?_ ?_
    · intro b k h
      obtain ⟨hba, h⟩ := of_update_none h
      refine ⟨h, fun hkp => hba ?_⟩
      have hlead := (hi.serve b k h).1
      rw [hkp] at hlead
      exact Option.some.inj (hlead.symm.trans hl)
    · intro b k h
      refine ⟨h, fun hkp => ?_⟩
      have hshared := (hi.poll b k h).2.2
      rw [hkp] at hshared
      cases hshared.symm.trans hsh
  | win a p s hr hok =>
    obtain ⟨hl, hgv, hsh⟩ := hg v a p s hok
    exact hi.repoll hl hgv hsh (some (s, .waits)) _ _
  | lose a p s hr =>
    obtain ⟨hl, hgv, hsh⟩ := hi.poll a _ hr
    exact hi.repoll hl hgv hsh none _ _
  | consume a p s hr =>
    obtain ⟨hl, hgv, hsh⟩ := hi.poll a _ hr
    exact hi.repoll hl hgv hsh (some (s, .got)) _ _
  | storePolled a p s hr =>
    obtain ⟨hl, hgv, hsh⟩ := hi.poll a _ hr
    exact hi.repoll hl hgv hsh (some (s, .stored)) _ _
  | publishPolled a p s hr =>
    obtain ⟨hl, hgv, hsh⟩ := hi.poll a _ hr
    refine hi.publish (hl.trans_ne (Option.some_ne_none a)) hgv _ _ _ _ ?_ ?_
    · intro b k h
      refine ⟨h, fun hkp => ?_⟩
      have hshared := (hi.serve b k h).2.2
      rw [hkp] at hshared
      cases hshared.symm.trans hsh
    · intro b k h
      obtain ⟨hba, h⟩ := of_update_none h
      refine ⟨h, fun hkp => hba ?_⟩
      have hlead := (hi.poll b k h).1
      rw [hkp] at hlead
      exact Option.some.inj (hlead.symm.trans hl)
  | _ => exact { hi with }

theorem run_exclusive {g : Guard P S A} (hg : g.Leading) {v w : Cache P S A} (hi : Exclusive v)
    (h : Relation.ReflTransGen (Step g) v w) : Exclusive w := by
  induction h with
  | refl => exact hi
  | tail _ h ih => exact h.exclusive hg ih

end GidsStack.Lib.PinCache
