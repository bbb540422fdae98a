/-
  GidsStack.Lib.PinCache.Owned

  Who owns the BUSY flag of a page.  BUSY on an invalid page belongs to its
  open miss, BUSY on a valid page to the one agent evicting it; a miss that is
  not shared is published by its leader, a shared one by the one agent that
  polls for it.  From this follow the counts of completions and publications:
  one of each for every miss.

  Neither slots nor reference counts enter here.
-/

import GidsStack.Lib.PinCache.Protocol

namespace GidsStack.Lib.PinCache

variable {P S A : Type*}

/-- The ownership of the page flags. -/
structure Owned (v : Cache P S A) : Prop where
  openIff : ∀ p, v.leader p = none ↔ v.busy p = false ∨ v.valid p = true
  lead : ∀ a p t, v.leading a = some (p, t) →
    v.leader p = some a ∧ v.given p = none ∧ v.shared p = t
  serve : ∀ a k, v.serving a = some k →
    v.leader k.page = some a ∧ v.given k.page = some k.slot ∧ v.shared k.page = false
  poll : ∀ a k, v.polling a = some k →
    v.leader k.page ≠ none ∧ v.given k.page ≠ none ∧ v.shared k.page = true
  pollUnique : ∀ a b k l, v.polling a = some k → v.polling b = some l → k.page = l.page → a = b
  evict : ∀ a k, v.taking a = some k → v.valid k.page = true ∧ v.busy k.page = true
  evictUnique : ∀ a b k l, v.taking a = some k → v.taking b = some l → k.page = l.page → a = b
  evictor : ∀ q, v.valid q = true → v.busy q = true →
    ∃ a k, v.taking a = some k ∧ k.page = q

/-- What the steps of a program must meet to keep the flags owned: nobody leads
    a miss of a valid page, and whoever takes on a publication takes it for an
    open shared miss that has its slot and that nobody else is publishing. -/
structure Guard.Owning (g : Guard P S A) : Prop where
  lead : ∀ v p t, g.lead v p t → v.valid p = false
  win : ∀ v a p s, g.win v a p s →
    v.leader p ≠ none ∧ v.given p ≠ none ∧ v.shared p = true ∧
      ∀ b k, v.polling b = some k → k.page ≠ p

/-- A page that is not busy has no open miss. -/
theorem Owned.closed {v : Cache P S A} (hi : Owned v) {p : P} (hb : v.busy p = false) :
    v.leader p = none :=
  (hi.openIff p).mpr (.inl hb)

/-- An open miss is of a busy page that is not valid. -/
theorem Owned.opened {v : Cache P S A} (hi : Owned v) {p : P} (hl : v.leader p ≠ none) :
    v.busy p = true ∧ v.valid p = false := by
  have hnot := mt (hi.openIff p).mpr hl
  rw [not_or] at hnot
  exact ⟨Bool.not_eq_false _ ▸ hnot.1, Bool.not_eq_true _ ▸ hnot.2⟩

variable [DecidableEq P] [DecidableEq S] [DecidableEq A]

open Function (update)

/-! ## Every step keeps the flags owned -/

section Preservation

variable {P S A : Type*} {v : Cache P S A}

theorem Owned.leadStep [DecidableEq P] [DecidableEq A]
    (hi : Owned v) {a : A} {p : P} (t : Bool) (hb : v.busy p = false)
    (hv : v.valid p = false) (con pub : P → Nat) :
    Owned { v with
      busy := update v.busy p true
      leader := update v.leader p (some a)
      shared := update v.shared p t
      given := update v.given p none
      consumed := con
      published := pub
      leading := update v.leading a (some (p, t)) } := by
  have hl := hi.closed hb
  refine { hi with
    openIff := fun q => ?_, lead := fun b q u h => ?_, serve := fun b k h => ?_,
    poll := fun b k h => ?_, evict := fun b k h => ?_, evictor := fun q hq hbusy => ?_ }
  · show update v.leader p (some a) q = none ↔ update v.busy p true q = false ∨ v.valid q = true
    by_cases hqp : q = p
    · rw [hqp, Function.update_self, Function.update_self, hv]
      simp
    · rw [Function.update_of_ne hqp, Function.update_of_ne hqp]
      exact hi.openIff q
  · rcases of_update_some h with ⟨rfl, hpair⟩ | ⟨-, h⟩
    · obtain ⟨rfl, rfl⟩ := Prod.mk.inj (Option.some.inj hpair)
      exact ⟨Function.update_self .., Function.update_self .., Function.update_self ..⟩
    · have hold := hi.lead b q u h
      have hqp : q ≠ p := by
        rintro rfl
        rw [hl] at hold
        cases hold.1
      simpa only [Function.update_of_ne hqp] using hold
  · have hold := hi.serve b k h
    have hkp : k.page ≠ p := by
      intro hkp
      rw [hkp, hl] at hold
      cases hold.1
    simpa only [Function.update_of_ne hkp] using hold
  · have hold := hi.poll b k h
    have hkp : k.page ≠ p := fun hkp => hold.1 (hkp ▸ hl)
    simpa only [Function.update_of_ne hkp] using hold
  · have hold := hi.evict b k h
    have hkp : k.page ≠ p := by
      intro hkp
      rw [hkp, hv] at hold
      cases hold.1
    simpa only [Function.update_of_ne hkp] using hold
  · have hqp : q ≠ p := by
      rintro rfl
      rw [show v.valid q = true from hq] at hv
      cases hv
    exact hi.evictor q hq ((Function.update_of_ne hqp _ v.busy).symm.trans hbusy)

/-- BUSY taken on a valid page that is not busy. -/
theorem Owned.take [DecidableEq P] [DecidableEq A]
    (hi : Owned v) {a : A} (k : Take P) (ht : v.taking a = none)
    (hb : v.busy k.page = false) (hv : v.valid k.page = true) :
    Owned { v with
      busy := update v.busy k.page true
      taking := update v.taking a (some k) } := by
  -- whoever has taken a page has taken another one
  have hother : ∀ {b l}, v.taking b = some l → b ≠ a ∧ l.page ≠ k.page := by
    intro b l h
    refine ⟨?_, fun hpage => ?_⟩
    · rintro rfl
      rw [ht] at h
      cases h
    · have hbusy := (hi.evict b l h).2
      rw [hpage, hb] at hbusy
      cases hbusy
  refine { hi with
    openIff := fun q => ?_, evict := fun b l h => ?_, evictUnique := fun b c l m hl hm hp => ?_,
    evictor := fun q hq hbusy => ?_ }
  · show v.leader q = none ↔ update v.busy k.page true q = false ∨ v.valid q = true
    by_cases hqk : q = k.page
    · rw [hqk, hv, hi.closed hb]
      simp
    · rw [Function.update_of_ne hqk]
      exact hi.openIff q
  · show v.valid l.page = true ∧ update v.busy k.page true l.page = true
    rcases of_update_some h with ⟨-, hk⟩ | ⟨-, h⟩
    · obtain rfl := Option.some.inj hk
      exact ⟨hv, Function.update_self ..⟩
    · rw [Function.update_of_ne (hother h).2]
      exact hi.evict b l h
  · rcases of_update_some hl with ⟨hba, hk⟩ | ⟨-, hl⟩
    · rcases of_update_some hm with ⟨hca, -⟩ | ⟨-, hm⟩
      · exact hba.trans hca.symm
      · obtain rfl := Option.some.inj hk
        exact absurd hp.symm (hother hm).2
    · rcases of_update_some hm with ⟨-, hk⟩ | ⟨-, hm⟩
      · obtain rfl := Option.some.inj hk
        exact absurd hp (hother hl).2
      · exact hi.evictUnique b c l m hl hm hp
  · by_cases hqk : q = k.page
    · exact ⟨a, k, Function.update_self .., hqk.symm⟩
    · obtain ⟨b, l, hl, hpage⟩ :=
        hi.evictor q hq ((Function.update_of_ne hqk _ v.busy).symm.trans hbusy)
      exact ⟨b, l, (Function.update_of_ne (hother hl).1 _ v.taking).trans hl, hpage⟩

/-- BUSY given back, with VALID or without it. -/
theorem Owned.untake [DecidableEq P] [DecidableEq A]
    (hi : Owned v) {a : A} {k : Take P} (ht : v.taking a = some k) (b : Bool)
    (own : A → Option (Own P S)) :
    Owned { v with
      valid := update v.valid k.page b
      busy := update v.busy k.page false
      own := own
      taking := update v.taking a none } := by
  have hl : v.leader k.page = none := (hi.openIff k.page).mpr (.inr (hi.evict a k ht).1)
  have hcases : ∀ {c l}, update v.taking a none c = some l → v.taking c = some l ∧
      l.page ≠ k.page := by
    intro c l h
    obtain ⟨hca, h⟩ := of_update_none h
    exact ⟨h, fun hpage => hca (hi.evictUnique c a l k h ht hpage)⟩
  refine { hi with
    openIff := fun q => ?_, evict := fun c l h => ?_, evictUnique := fun c d l m hc hd => ?_,
    evictor := fun q hq hbusy => ?_ }
  · show v.leader q = none ↔
      update v.busy k.page false q = false ∨ update v.valid k.page b q = true
    by_cases hqk : q = k.page
    · rw [hqk, hl, Function.update_self]
      simp
    · rw [Function.update_of_ne hqk, Function.update_of_ne hqk]
      exact hi.openIff q
  · show update v.valid k.page b l.page = true ∧ update v.busy k.page false l.page = true
    rw [Function.update_of_ne (hcases h).2, Function.update_of_ne (hcases h).2]
    exact hi.evict c l (hcases h).1
  · exact hi.evictUnique c d l m (hcases hc).1 (hcases hd).1
  · have hqk : q ≠ k.page := by
      intro hqk
      have hfalse := (hqk ▸ hbusy : update v.busy k.page false k.page = true)
      rw [Function.update_self] at hfalse
      cases hfalse
    obtain ⟨c, l, hc, hpage⟩ := hi.evictor q ((Function.update_of_ne hqk _ v.valid).symm.trans hq)
      ((Function.update_of_ne hqk _ v.busy).symm.trans hbusy)
    have hca : c ≠ a := by
      rintro rfl
      rw [ht] at hc
      exact hqk (hpage ▸ congrArg Take.page (Option.some.inj hc).symm)
    exact ⟨c, l, (Function.update_of_ne hca _ v.taking).trans hc, hpage⟩

/-- A slot for a miss; the leader goes on to publish it only if it is not shared. -/
theorem Owned.assign [DecidableEq P] [DecidableEq A]
    (hi : Owned v) {a : A} {p : P} {t : Bool} (s : S)
    (hr : v.leading a = some (p, t)) (lock : S → SlotLock) (own : A → Option (Own P S))
    (asg : A → Option (P × S)) :
    Owned { v with
      lock := lock
      given := update v.given p (some s)
      own := own
      leading := update v.leading a none
      assigned := asg
      serving := update v.serving a (if t then none else some ⟨p, s, false⟩) } := by
  obtain ⟨hl, hg, hsh⟩ := hi.lead a p t hr
  refine { hi with
    lead := fun b q u h => ?_, serve := fun b k h => ?_, poll := fun b k h => ?_ }
  · obtain ⟨hba, h⟩ := of_update_none h
    have hold := hi.lead b q u h
    have hqp : q ≠ p := by
      rintro rfl
      exact hba (Option.some.inj (hold.1.symm.trans hl))
    exact ⟨hold.1, (Function.update_of_ne hqp _ v.given).trans hold.2.1, hold.2.2⟩
  · rcases of_update_some h with ⟨rfl, hk⟩ | ⟨hba, h⟩
    · cases t with
      | true => cases hk
      | false =>
        obtain rfl := Option.some.inj hk
        exact ⟨hl, Function.update_self .., hsh⟩
    · have hold := hi.serve b k h
      have hkp : k.page ≠ p := by
        intro hkp
        rw [hkp] at hold
        exact hba (Option.some.inj (hold.1.symm.trans hl))
      exact ⟨hold.1, (Function.update_of_ne hkp _ v.given).trans hold.2.1, hold.2.2⟩
  · have hold := hi.poll b k h
    have hkp : k.page ≠ p := fun hkp => hold.2.1 (hkp ▸ hg)
    exact ⟨hold.1, (Function.update_of_ne hkp _ v.given).trans_ne hold.2.1, hold.2.2⟩

/-- A leader that has stored the slot still serves the same miss. -/
theorem Owned.storeServed [DecidableEq A] (hi : Owned v) {a : A} {p : P} {s : S} {b : Bool}
    (hr : v.serving a = some ⟨p, s, b⟩) (off : P → S) (c : Bool) :
    Owned { v with offset := off, serving := update v.serving a (some ⟨p, s, c⟩) } := by
  refine { hi with serve := fun d k h => ?_ }
  rcases of_update_some h with ⟨rfl, hk⟩ | ⟨-, h⟩
  · obtain rfl := Option.some.inj hk
    exact hi.serve d ⟨p, s, b⟩ hr
  · exact hi.serve d k h

/-- An open miss that is published, by the one agent that had it. -/
theorem Owned.publish [DecidableEq P]
    (hi : Owned v) {p : P} (hl : v.leader p ≠ none) (hg : v.given p ≠ none)
    (pub : P → Nat) (sv : A → Option (Serve P S)) (pl : A → Option (Poll P S))
    (hsv : ∀ b k, sv b = some k → v.serving b = some k ∧ k.page ≠ p)
    (hpl : ∀ b k, pl b = some k → v.polling b = some k ∧ k.page ≠ p) :
    Owned { v with
      valid := update v.valid p (!v.valid p)
      busy := update v.busy p (!v.busy p)
      leader := update v.leader p none
      published := pub
      serving := sv
      polling := pl } := by
  obtain ⟨hb, hv⟩ := hi.opened hl
  -- nobody has taken the page
  have htake : ∀ b k, v.taking b = some k → k.page ≠ p := by
    intro b k h hkp
    have hval := (hi.evict b k h).1
    rw [hkp, hv] at hval
    cases hval
  refine { hi with
    openIff := fun q => ?_, lead := fun b q u h => ?_, serve := fun b k h => ?_,
    poll := fun b k h => ?_, pollUnique := fun b c k l hk hl => ?_, evict := fun b k h => ?_,
    evictor := fun q hq hbusy => ?_ }
  · show update v.leader p none q = none ↔
      update v.busy p (!v.busy p) q = false ∨ update v.valid p (!v.valid p) q = true
    by_cases hqp : q = p
    · rw [hqp, Function.update_self, Function.update_self, hb]
      simp
    · rw [Function.update_of_ne hqp, Function.update_of_ne hqp, Function.update_of_ne hqp]
      exact hi.openIff q
  · have hold := hi.lead b q u h
    have hqp : q ≠ p := by
      rintro rfl
      exact hg hold.2.1
    exact ⟨(Function.update_of_ne hqp _ v.leader).trans hold.1, hold.2⟩
  · obtain ⟨hk, hkp⟩ := hsv b k h
    have hold := hi.serve b k hk
    exact ⟨(Function.update_of_ne hkp _ v.leader).trans hold.1, hold.2⟩
  · obtain ⟨hk, hkp⟩ := hpl b k h
    have hold := hi.poll b k hk
    exact ⟨(Function.update_of_ne hkp _ v.leader).trans_ne hold.1, hold.2⟩
  · exact hi.pollUnique b c k l (hpl b k hk).1 (hpl c l hl).1
  · have hkp := htake b k h
    have hold := hi.evict b k h
    simpa only [Function.update_of_ne hkp] using hold
  · have hqp : q ≠ p := by
      rintro rfl
      have hfalse : (!v.busy q) = true := (Function.update_self ..).symm.trans hbusy
      rw [hb] at hfalse
      cases hfalse
    exact hi.evictor q ((Function.update_of_ne hqp _ v.valid).symm.trans hq)
      ((Function.update_of_ne hqp _ v.busy).symm.trans hbusy)

/-- An agent that takes on the publication of an open shared miss, which nobody else has. -/
theorem Owned.win [DecidableEq A] (hi : Owned v) {a : A} {p : P} (s : S) (hl : v.leader p ≠ none)
    (hg : v.given p ≠ none) (hsh : v.shared p = true)
    (hone : ∀ b k, v.polling b = some k → k.page ≠ p) :
    Owned { v with polling := update v.polling a (some ⟨p, s, .waits⟩) } := by
  have hcases : ∀ {b k}, update v.polling a (some ⟨p, s, .waits⟩) b = some k →
      b = a ∧ k.page = p ∨ v.polling b = some k ∧ k.page ≠ p := by
    intro b k h
    rcases of_update_some h with ⟨hba, hk⟩ | ⟨-, h⟩
    · obtain rfl := Option.some.inj hk
      exact .inl ⟨hba, rfl⟩
    · exact .inr ⟨h, hone b k h⟩
  refine { hi with poll := fun b k h => ?_, pollUnique := fun b c k l hb hc hp => ?_ }
  · rcases hcases h with ⟨-, hk⟩ | ⟨h, -⟩
    · rw [hk]
      exact ⟨hl, hg, hsh⟩
    · exact hi.poll b k h
  · rcases hcases hb with ⟨rfl, hk⟩ | ⟨hb, hk⟩
    · rcases hcases hc with ⟨rfl, -⟩ | ⟨-, hl⟩
      · rfl
      · exact absurd (hp.symm.trans hk) hl
    · rcases hcases hc with ⟨-, hl⟩ | ⟨hc, -⟩
      · exact absurd (hp.trans hl) hk
      · exact hi.pollUnique b c k l hb hc hp

/-- Agents that publish stop, or go on publishing the same page. -/
theorem Owned.repoll [DecidableEq A] (hi : Owned v) {a : A} {p : P} {s : S} {w : Waiting}
    (hr : v.polling a = some ⟨p, s, w⟩) (x : Option Waiting) (con : P → Nat) (off : P → S) :
    Owned { v with
      consumed := con
      offset := off
      polling := update v.polling a (x.map fun w' => ⟨p, s, w'⟩) } := by
  have hcases : ∀ {b k}, update v.polling a (x.map fun w' => (⟨p, s, w'⟩ : Poll P S)) b = some k →
      ∃ l, v.polling b = some l ∧ l.page = k.page := by
    intro b k h
    rcases of_update_some h with ⟨rfl, hk⟩ | ⟨-, h⟩
    · obtain ⟨w', -, rfl⟩ := Option.map_eq_some_iff.mp hk
      exact ⟨⟨p, s, w⟩, hr, rfl⟩
    · exact ⟨k, h, rfl⟩
  refine { hi with poll := fun b k h => ?_, pollUnique := fun b c k l hb hc hp => ?_ }
  · obtain ⟨l, hl, hpage⟩ := hcases h
    rw [← hpage]
    exact hi.poll b l hl
  · obtain ⟨k', hk, hkp⟩ := hcases hb
    obtain ⟨l', hl, hlp⟩ := hcases hc
    exact hi.pollUnique b c k' l' hk hl (hkp.trans (hp.trans hlp.symm))

end Preservation

theorem Step.owned {g : Guard P S A} (hg : g.Owning) {v w : Cache P S A} (hi : Owned v)
    (hv : ∀ a q s, v.own a = some ⟨s, .looked q⟩ → v.busy q = false → v.valid q = true)
    (h : Step g v w) : Owned w := by
  cases h with
  | lead a p t hr ho hb hok => exact hi.leadStep t hb (hg.lead v p t hok) _ _
  | markBusy a q s ho ht hb => exact hi.take ⟨q, _⟩ ht hb (hv a q s ho hb)
  | evicted a q s ho ht => exact hi.untake ht false _
  | undone a q ht =>
    have hval := (hi.evict a _ ht).1
    have hsame := hi.untake ht true v.own
    rwa [show update v.valid q true = v.valid from
      (congrArg (update v.valid q) hval.symm).trans (Function.update_eq_self q v.valid)] at hsame
  | assign a p t s hr ho hj => exact hi.assign s hr _ _ _
  | storeServed a p s hr => exact hi.storeServed hr _ true
  | publishServed a p s hr =>
    obtain ⟨hl, hgv, hsh⟩ := hi.serve a _ hr
    refine hi.publish (hl.trans_ne (Option.some_ne_none a))
      (hgv.trans_ne (Option.some_ne_none _)) _ _ _ ?_ ?_
    · intro b k h
      obtain ⟨hba, h⟩ := of_update_none h
      refine ⟨h, fun hkp => hba ?_⟩
      have hlead := (hi.serve b k h).1
      rw [hkp] at hlead
      exact Option.some.inj (hlead.symm.trans hl)
    · intro b k h
      refine ⟨h, fun hkp => ?_⟩
      have hshared := (hi.poll b k h).2.2
      rw [hkp] at hshared
      cases hshared.symm.trans hsh
  | win a p s hr hok =>
    obtain ⟨hl, hgv, hsh, hone⟩ := hg.win v a p s hok
    exact hi.win s hl hgv hsh hone
  | lose a p s hr => exact hi.repoll hr none _ _
  | consume a p s hr => exact hi.repoll hr (some .got) _ _
  | storePolled a p s hr => exact hi.repoll hr (some .stored) _ _
  | publishPolled a p s hr =>
    obtain ⟨hl, hgv, hsh⟩ := hi.poll a _ hr
    refine hi.publish hl hgv _ _ _ ?_ ?_
    · intro b k h
      refine ⟨h, fun hkp => ?_⟩
      have hshared := (hi.serve b k h).2.2
      rw [hkp] at hshared
      cases hshared.symm.trans hsh
    · intro b k h
      obtain ⟨hba, h⟩ := of_update_none h
      exact ⟨h, fun hkp => hba (hi.pollUnique b a k _ h hr hkp)⟩
  | _ => exact { hi with }

/-! ## One publication for every miss -/

/-- The completions consumed and the publications made for the last miss of
    every page. -/
structure Tallied (v : Cache P S A) : Prop where
  once : ∀ p, v.published p ≤ 1 ∧ v.consumed p ≤ 1
  openOnce : ∀ p, v.leader p ≠ none → v.published p = 0
  validOnce : ∀ p, v.valid p = true → v.published p = 1
  polled : ∀ a k, v.polling a = some k →
    v.consumed k.page = if k.progress = .waits then 0 else 1
  unpolled : ∀ p, v.leader p ≠ none → (∀ a k, v.polling a = some k → k.page ≠ p) →
    v.consumed p = 0
  validConsumed : ∀ p, v.valid p = true → v.consumed p = if v.shared p then 1 else 0

section Tally

variable {P S A : Type*} {v : Cache P S A}

/-- A page that is not busy has no open miss, so nobody publishes one. -/
theorem Owned.unpolled (ho : Owned v) {p : P} (hl : v.leader p = none) :
    ∀ a k, v.polling a = some k → k.page ≠ p :=
  fun a k h hkp => (ho.poll a k h).1 (hkp ▸ hl)

theorem Tallied.leadStep [DecidableEq P] [DecidableEq A]
    (hi : Tallied v) (ho : Owned v) {a : A} {p : P} (t : Bool)
    (hb : v.busy p = false) (hv : v.valid p = false) :
    Tallied { v with
      busy := update v.busy p true
      leader := update v.leader p (some a)
      shared := update v.shared p t
      given := update v.given p none
      consumed := update v.consumed p 0
      published := update v.published p 0
      leading := update v.leading a (some (p, t)) } := by
  have hother : ∀ {q}, v.valid q = true → q ≠ p := by
    rintro q hq rfl
    rw [hv] at hq
    cases hq
  refine ⟨fun q => ?_, fun q h => ?_, fun q h => ?_, fun b k h => ?_, fun q h hnone => ?_,
    fun q h => ?_⟩
  · show update v.published p 0 q ≤ 1 ∧ update v.consumed p 0 q ≤ 1
    by_cases hqp : q = p
    · rw [hqp, Function.update_self, Function.update_self]
      exact ⟨Nat.zero_le 1, Nat.zero_le 1⟩
    · rw [Function.update_of_ne hqp, Function.update_of_ne hqp]
      exact hi.once q
  · show update v.published p 0 q = 0
    by_cases hqp : q = p
    · rw [hqp, Function.update_self]
    · rw [Function.update_of_ne hqp]
      exact hi.openOnce q ((Function.update_of_ne hqp _ v.leader).symm.trans_ne h)
  · exact (Function.update_of_ne (hother h) _ v.published).trans (hi.validOnce q h)
  · have hkp := ho.unpolled (ho.closed hb) b k h
    exact (Function.update_of_ne hkp _ v.consumed).trans (hi.polled b k h)
  · show update v.consumed p 0 q = 0
    by_cases hqp : q = p
    · rw [hqp, Function.update_self]
    · rw [Function.update_of_ne hqp]
      exact hi.unpolled q ((Function.update_of_ne hqp _ v.leader).symm.trans_ne h) hnone
  · show update v.consumed p 0 q = if update v.shared p t q then 1 else 0
    rw [Function.update_of_ne (hother h), Function.update_of_ne (hother h)]
    exact hi.validConsumed q h

/-- The publication of an open miss, of which so much as it takes has been consumed. -/
theorem Tallied.publish [DecidableEq P] (hi : Tallied v) {p : P} (hl : v.leader p ≠ none)
    (hc : v.consumed p = if v.shared p then 1 else 0) (busy : P → Bool)
    (sv : A → Option (Serve P S)) (pl : A → Option (Poll P S))
    (hpl : ∀ b k, k.page ≠ p → (pl b = some k ↔ v.polling b = some k))
    (hno : ∀ b k, pl b = some k → k.page ≠ p) :
    Tallied { v with
      valid := update v.valid p (!v.valid p)
      busy := busy
      leader := update v.leader p none
      published := update v.published p (v.published p + 1)
      serving := sv
      polling := pl } := by
  have hzero := hi.openOnce p hl
  have hother : ∀ {q}, update v.leader p none q ≠ none → q ≠ p := by
    rintro q hq rfl
    exact hq (Function.update_self ..)
  refine ⟨fun q => ?_, fun q h => ?_, fun q h => ?_, fun b k h => ?_, fun q h hnone => ?_,
    fun q h => ?_⟩
  · refine ⟨?_, (hi.once q).2⟩
    show update v.published p (v.published p + 1) q ≤ 1
    by_cases hqp : q = p
    · rw [hqp, Function.update_self, hzero]
    · rw [Function.update_of_ne hqp]
      exact (hi.once q).1
  · have hqp := hother h
    exact (Function.update_of_ne hqp _ v.published).trans
      (hi.openOnce q ((Function.update_of_ne hqp _ v.leader).symm.trans_ne h))
  · show update v.published p (v.published p + 1) q = 1
    by_cases hqp : q = p
    · rw [hqp, Function.update_self, hzero]
    · rw [Function.update_of_ne hqp]
      exact hi.validOnce q ((Function.update_of_ne hqp _ v.valid).symm.trans h)
  · exact hi.polled b k ((hpl b k (hno b k h)).mp h)
  · have hqp := hother h
    refine hi.unpolled q ((Function.update_of_ne hqp _ v.leader).symm.trans_ne h) ?_
    intro b k hk hkq
    exact hnone b k ((hpl b k (hkq.trans_ne hqp)).mpr hk) hkq
  · by_cases hqp : q = p
    · rw [hqp]
      exact hc
    · exact hi.validConsumed q ((Function.update_of_ne hqp _ v.valid).symm.trans h)

/-- Whoever publishes an open miss has consumed one completion for it, once it has. -/
theorem Tallied.repoll [DecidableEq P] [DecidableEq A]
    (hi : Tallied v) (ho : Owned v) {a : A} {p : P} {s : S} {w w' : Waiting}
    (hr : v.polling a = some ⟨p, s, w⟩) (con : Nat) (off : P → S)
    (hcon : con = if w' = .waits then 0 else 1) :
    Tallied { v with
      consumed := update v.consumed p con
      offset := off
      polling := update v.polling a (some ⟨p, s, w'⟩) } := by
  obtain ⟨hl, -, -⟩ := ho.poll a _ hr
  have hv := (ho.opened hl).2
  have hle : con ≤ 1 := by
    rw [hcon]
    split <;> decide
  refine ⟨fun q => ⟨(hi.once q).1, ?_⟩, hi.openOnce, hi.validOnce, fun b k h => ?_,
    fun q h hnone => ?_, fun q h => ?_⟩
  · show update v.consumed p con q ≤ 1
    by_cases hqp : q = p
    · rwa [hqp, Function.update_self]
    · rw [Function.update_of_ne hqp]
      exact (hi.once q).2
  · show update v.consumed p con k.page = if k.progress = .waits then 0 else 1
    rcases of_update_some h with ⟨-, hk⟩ | ⟨hba, h⟩
    · obtain rfl := Option.some.inj hk
      exact (Function.update_self ..).trans hcon
    · have hkp : k.page ≠ p := fun hkp => hba (ho.pollUnique b a k _ h hr hkp)
      rw [Function.update_of_ne hkp]
      exact hi.polled b k h
  · have hqp : q ≠ p := by
      rintro rfl
      exact hnone a _ (Function.update_self ..) rfl
    refine (Function.update_of_ne hqp _ v.consumed).trans (hi.unpolled q h ?_)
    intro b k hk hkq
    have hba : b ≠ a := by
      rintro rfl
      rw [hr] at hk
      exact hqp (hkq ▸ congrArg Poll.page (Option.some.inj hk).symm)
    exact hnone b k ((Function.update_of_ne hba _ v.polling).trans hk) hkq
  · have hqp : q ≠ p := by
      rintro rfl
      rw [hv] at h
      cases h
    exact (Function.update_of_ne hqp _ v.consumed).trans (hi.validConsumed q h)

end Tally

theorem Step.tallied {g : Guard P S A} (hg : g.Owning) {v w : Cache P S A} (ho : Owned v)
    (hi : Tallied v) (h : Step g v w) : Tallied w := by
  cases h with
  | lead a p t hr hown hb hok => exact hi.leadStep ho t hb (hg.lead v p t hok)
  | evicted a q s hown ht =>
    refine { hi with validOnce := fun p h => ?_, validConsumed := fun p h => ?_ }
    all_goals
      have hpq : p ≠ q := by
        rintro rfl
        cases (Function.update_self ..).symm.trans h
      have hval := (Function.update_of_ne hpq _ v.valid).symm.trans h
    · exact hi.validOnce p hval
    · exact hi.validConsumed p hval
  | publishServed a p s hr =>
    obtain ⟨hl, -, hsh⟩ := ho.serve a _ hr
    have hl' := hl.trans_ne (Option.some_ne_none a)
    have hnone : ∀ b k, v.polling b = some k → k.page ≠ p := by
      intro b k h hkp
      have hshared := (ho.poll b k h).2.2
      rw [hkp] at hshared
      cases hshared.symm.trans hsh
    refine hi.publish hl' ?_ _ _ _ (fun _ _ _ => Iff.rfl) hnone
    rw [hi.unpolled p hl' hnone, show v.shared p = false from hsh]
    rfl
  | win a p s hr hok =>
    obtain ⟨hl, -, -, hone⟩ := hg.win v a p s hok
    refine { hi with polled := fun b k h => ?_, unpolled := fun q h hnone => ?_ }
    · rcases of_update_some h with ⟨-, hk⟩ | ⟨-, h⟩
      · obtain rfl := Option.some.inj hk
        exact hi.unpolled p hl hone
      · exact hi.polled b k h
    · refine hi.unpolled q h fun b k hk hkq => ?_
      have hba : b ≠ a := by
        rintro rfl
        rw [hr] at hk
        cases hk
      exact hnone b k ((Function.update_of_ne hba _ v.polling).trans hk) hkq
  | lose a p s hr =>
    refine { hi with polled := fun b k h => ?_, unpolled := fun q h hnone => ?_ }
    · exact hi.polled b k (of_update_none h).2
    · by_cases hqp : q = p
      · rw [hqp]
        exact hi.polled a _ hr
      · refine hi.unpolled q h fun b k hk hkq => ?_
        have hba : b ≠ a := by
          rintro rfl
          rw [hr] at hk
          exact hqp (hkq ▸ congrArg Poll.page (Option.some.inj hk).symm)
        exact hnone b k ((Function.update_of_ne hba _ v.polling).trans hk) hkq
  | consume a p s hr =>
    have hzero := hi.polled a _ hr
    exact hi.repoll ho hr _ _ (congrArg (· + 1) hzero)
  | storePolled a p s hr =>
    have hone := hi.polled a _ hr
    have hsame : Tallied { v with
        consumed := update v.consumed p (v.consumed p)
        offset := update v.offset p s
        polling := update v.polling a (some ⟨p, s, .stored⟩) } := hi.repoll ho hr _ _ hone
    rwa [Function.update_eq_self] at hsame
  | publishPolled a p s hr =>
    obtain ⟨hl, -, hsh⟩ := ho.poll a _ hr
    refine hi.publish hl ?_ _ _ _
      (fun b k hkp => ⟨fun h => (of_update_none h).2, fun h => ?_⟩) ?_
    · rw [show v.consumed p = _ from hi.polled a _ hr, show v.shared p = true from hsh]
      rfl
    · have hba : b ≠ a := by
        rintro rfl
        rw [hr] at h
        exact hkp (congrArg Poll.page (Option.some.inj h).symm)
      exact (Function.update_of_ne hba _ v.polling).trans h
    · intro b k h hkp
      obtain ⟨hba, hk⟩ := of_update_none h
      exact hba (ho.pollUnique b a k _ hk hr hkp)
  | _ => exact { hi with }

end GidsStack.Lib.PinCache
