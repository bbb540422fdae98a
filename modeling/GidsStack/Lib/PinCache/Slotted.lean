/-
  GidsStack.Lib.PinCache.Slotted

  Where pages live.  A page that is valid, or open with its slot already given,
  lives in that slot, and the slot's tenant is that page.  The lock of a slot
  is held by one agent at a time; an open slot is somebody's home, and the
  agent that emptied one has it to itself until it has written the new tenant.
-/

import GidsStack.Lib.PinCache.Owned

namespace GidsStack.Lib.PinCache

variable {P S A : Type*}

/-- Page `p` lives in slot `s`. -/
def Cache.Home (v : Cache P S A) (p : P) (s : S) : Prop :=
  v.given p = some s ∧ (v.valid p = true ∨ v.leader p ≠ none)

/-- Slot `s` is the home of its tenant. -/
def Cache.Housed (v : Cache P S A) (s : S) : Prop :=
  v.tenant s ≠ none ∧ ∀ p, v.tenant s = some p → v.Home p s

/-- The ownership of the slots. -/
structure Slotted (v : Cache P S A) : Prop where
  ownLead : ∀ a k, v.own a = some k → v.leading a ≠ none
  takeOwn : ∀ a k, v.taking a = some k → ∃ s, v.own a = some ⟨s, .looked k.page⟩
  ownTaken : ∀ a k, v.own a = some k → v.lock k.slot = .taken
  ownUnique : ∀ a b k l, v.own a = some k → v.own b = some l → k.slot = l.slot → a = b
  validGiven : ∀ p, v.valid p = true → v.given p ≠ none
  home : ∀ p s, v.Home p s → v.tenant s = some p ∧ v.lock s ≠ .free
  live : ∀ s, v.lock s = .opened → v.Housed s
  probing : ∀ a s, v.own a = some ⟨s, .probe⟩ → v.Housed s
  looking : ∀ a s q, v.own a = some ⟨s, .looked q⟩ → v.Home q s
  fresh : ∀ a s, v.own a = some ⟨s, .fresh⟩ → ∀ p, ¬ v.Home p s
  written : ∀ a s, v.own a = some ⟨s, .written⟩ → ∀ p, ¬ v.Home p s
  settled : ∀ a s p t, v.own a = some ⟨s, .written⟩ → v.leading a = some (p, t) →
    v.tenant s = some p

/-- The page an owner is about to mark is valid when it is not busy. -/
theorem Slotted.looked_valid {v : Cache P S A} (hs : Slotted v) (ho : Owned v) {a : A} {q : P}
    {s : S} (h : v.own a = some ⟨s, .looked q⟩) (hb : v.busy q = false) : v.valid q = true := by
  obtain ⟨-, hv | hl⟩ := hs.looking a s q h
  · exact hv
  · exact absurd ((ho.openIff q).mpr (.inl hb)) hl

variable [DecidableEq P] [DecidableEq S] [DecidableEq A]

open Function (update)

/-! ## Steps that leave every page at home -/

section Preservation

variable {P S A : Type*} {v w : Cache P S A}

/-- Changes of the pages that move nobody keep the slots owned. -/
theorem Slotted.of_home (hi : Slotted v) (hhome : w.Home = v.Home) (hown : w.own = v.own)
    (htake : w.taking = v.taking) (hlock : w.lock = v.lock) (hten : w.tenant = v.tenant)
    (hlead : ∀ a k, v.own a = some k → w.leading a = v.leading a)
    (hval : ∀ p, w.valid p = true → w.given p ≠ none) : Slotted w := by
  have hhoused : w.Housed = v.Housed := by
    funext s
    rw [Cache.Housed, Cache.Housed, hten, hhome]
  constructor
  case validGiven => exact hval
  case ownLead =>
    intro a k h
    rw [hown] at h
    exact (hlead a k h).trans_ne (hi.ownLead a k h)
  case settled =>
    intro a s p t h hl
    rw [hown] at h
    rw [hten]
    exact hi.settled a s p t h ((hlead a _ h).symm.trans hl)
  all_goals simp only [hhoused, hhome, hown, htake, hlock, hten]
  · exact hi.takeOwn
  · exact hi.ownTaken
  · exact hi.ownUnique
  · exact hi.home
  · exact hi.live
  · exact hi.probing
  · exact hi.looking
  · exact hi.fresh
  · exact hi.written

theorem Slotted.lead [DecidableEq P] [DecidableEq A]
    (hi : Slotted v) (a : A) (p : P) (t : Bool) (ho : v.own a = none)
    (hl : v.leader p = none) (hv : v.valid p = false) :
    Slotted { v with
      busy := update v.busy p true
      leader := update v.leader p (some a)
      shared := update v.shared p t
      given := update v.given p none
      consumed := update v.consumed p 0
      published := update v.published p 0
      leading := update v.leading a (some (p, t)) } := by
  refine hi.of_home ?_ rfl rfl rfl rfl ?_ ?_
  · funext q s
    show (update v.given p none q = some s ∧
      (v.valid q = true ∨ update v.leader p (some a) q ≠ none)) = v.Home q s
    by_cases hqp : q = p
    · -- the page was at home nowhere, and is not yet
      rw [hqp, Function.update_self, Cache.Home, hv, hl]
      simp
    · rw [Function.update_of_ne hqp, Function.update_of_ne hqp, Cache.Home]
  · intro b k hk
    exact Function.update_of_ne (by rintro rfl; simp [ho] at hk) ..
  · intro q hq
    have hqp : q ≠ p := by
      rintro rfl
      cases hv.symm.trans hq
    exact (Function.update_of_ne hqp _ v.given).trans_ne (hi.validGiven q hq)

/-- Publishing a miss that has its slot leaves the page where it is. -/
theorem Slotted.publish [DecidableEq P] (hi : Slotted v) {p : P} (hl : v.leader p ≠ none)
    (hg : v.given p ≠ none) (hv : v.valid p = false) (b : P → Bool) (pub : P → Nat)
    (sv : A → Option (Serve P S)) (pl : A → Option (Poll P S)) :
    Slotted { v with
      valid := update v.valid p (!v.valid p)
      busy := b
      leader := update v.leader p none
      published := pub
      serving := sv
      polling := pl } := by
  refine hi.of_home ?_ rfl rfl rfl rfl (fun _ _ _ => rfl) ?_
  · funext q s
    show (v.given q = some s ∧
      (update v.valid p (!v.valid p) q = true ∨ update v.leader p none q ≠ none)) = v.Home q s
    by_cases hqp : q = p
    · rw [hqp, Function.update_self, Function.update_self, Cache.Home, hv]
      simp [hl]
    · rw [Function.update_of_ne hqp, Function.update_of_ne hqp, Cache.Home]
  · intro q hq
    by_cases hqp : q = p
    · rw [hqp]
      exact hg
    · exact hi.validGiven q ((Function.update_of_ne hqp _ v.valid).symm.trans hq)

theorem Slotted.markBusy [DecidableEq A]
    (hi : Slotted v) (a : A) (k : Take P) (s : S) (b : P → Bool)
    (ho : v.own a = some ⟨s, .looked k.page⟩) :
    Slotted { v with busy := b, taking := update v.taking a (some k) } := by
  refine { hi with takeOwn := fun c l h => ?_ }
  rcases of_update_some h with ⟨rfl, hk⟩ | ⟨-, h⟩
  · obtain rfl := Option.some.inj hk
    exact ⟨s, ho⟩
  · exact hi.takeOwn c l h

theorem Slotted.undone [DecidableEq A] (hi : Slotted v) (a : A) (b : P → Bool) :
    Slotted { v with busy := b, taking := update v.taking a none } :=
  { hi with takeOwn := fun c l h => hi.takeOwn c l (of_update_none h).2 }

/-! ## Steps of a slot owner -/

/-- What the ownership of the slots says of agent `a` and slot `s`. -/
structure SlotOk (v : Cache P S A) (a : A) (s : S) : Prop where
  own : ∀ k, v.own a = some k → k.slot = s ∧ v.leading a ≠ none ∧ v.lock s = .taken
  take : ∀ k, v.taking a = some k → v.own a = some ⟨s, .looked k.page⟩
  home : ∀ p, v.Home p s → v.tenant s = some p ∧ v.lock s ≠ .free
  live : v.lock s = .opened ∨ v.own a = some ⟨s, .probe⟩ → v.Housed s
  looking : ∀ q, v.own a = some ⟨s, .looked q⟩ → v.Home q s
  vacant : v.own a = some ⟨s, .fresh⟩ ∨ v.own a = some ⟨s, .written⟩ → ∀ p, ¬ v.Home p s
  settled : ∀ p t, v.own a = some ⟨s, .written⟩ → v.leading a = some (p, t) →
    v.tenant s = some p

/-- What agent `a` does to slot `s`, which nobody else owns, is all that has to be looked at. -/
theorem Slotted.of_slot [DecidableEq S] [DecidableEq A] (hi : Slotted v) {a : A} {s : S}
    (howner : ∀ b k, v.own b = some k → k.slot = s → b = a)
    (hown : ∀ b, b ≠ a → w.own b = v.own b) (hlead : ∀ b, b ≠ a → w.leading b = v.leading b)
    (htake : ∀ b, b ≠ a → w.taking b = v.taking b) (hlock : ∀ r, r ≠ s → w.lock r = v.lock r)
    (hten : ∀ r, r ≠ s → w.tenant r = v.tenant r)
    (hhome : ∀ p r, r ≠ s → (w.Home p r ↔ v.Home p r))
    (hval : ∀ p, w.valid p = true → w.given p ≠ none) (hok : SlotOk w a s) : Slotted w := by
  -- another agent's slot is another slot, with the same state
  have hother : ∀ {b k}, b ≠ a → w.own b = some k → v.own b = some k ∧ k.slot ≠ s := by
    intro b k hba h
    rw [hown b hba] at h
    exact ⟨h, fun hks => hba (howner b k h hks)⟩
  have hhoused : ∀ r, r ≠ s → v.Housed r → w.Housed r := by
    rintro r hr ⟨hne, hall⟩
    refine ⟨(hten r hr).trans_ne hne, fun p hp => ?_⟩
    exact (hhome p r hr).mpr (hall p ((hten r hr).symm.trans hp))
  have hvacant : ∀ b r st, st = Stage.fresh ∨ st = Stage.written →
      w.own b = some ⟨r, st⟩ → ∀ p, ¬ w.Home p r := by
    intro b r st hst h p hp
    by_cases hba : b = a
    · subst hba
      obtain rfl := (hok.own _ h).1
      refine hok.vacant ?_ p hp
      rcases hst with rfl | rfl
      · exact .inl h
      · exact .inr h
    · obtain ⟨h, hr⟩ := hother hba h
      have hp' := (hhome p r hr).mp hp
      rcases hst with rfl | rfl
      · exact hi.fresh b r h p hp'
      · exact hi.written b r h p hp'
  constructor
  case validGiven => exact hval
  case fresh => exact fun b r h => hvacant b r .fresh (.inl rfl) h
  case written => exact fun b r h => hvacant b r .written (.inr rfl) h
  case ownLead =>
    intro b k h
    by_cases hba : b = a
    · subst hba
      exact (hok.own k h).2.1
    · exact (hlead b hba).trans_ne (hi.ownLead b k (hother hba h).1)
  case takeOwn =>
    intro b k h
    by_cases hba : b = a
    · subst hba
      exact ⟨s, hok.take k h⟩
    · obtain ⟨r, hr⟩ := hi.takeOwn b k ((htake b hba).symm.trans h)
      exact ⟨r, (hown b hba).trans hr⟩
  case ownTaken =>
    intro b k h
    by_cases hba : b = a
    · subst hba
      obtain ⟨hks, -, hl⟩ := hok.own k h
      rwa [hks]
    · obtain ⟨h, hks⟩ := hother hba h
      exact (hlock k.slot hks).trans (hi.ownTaken b k h)
  case ownUnique =>
    intro b c k l hb hc hkl
    by_cases hba : b = a
    · by_cases hca : c = a
      · rw [hba, hca]
      · rw [hba] at hb
        exact absurd (hkl.symm.trans (hok.own k hb).1) (hother hca hc).2
    · by_cases hca : c = a
      · rw [hca] at hc
        exact absurd (hkl.trans (hok.own l hc).1) (hother hba hb).2
      · exact hi.ownUnique b c k l (hother hba hb).1 (hother hca hc).1 hkl
  case home =>
    intro p r hp
    by_cases hr : r = s
    · subst hr
      exact hok.home p hp
    · rw [hten r hr, hlock r hr]
      exact hi.home p r ((hhome p r hr).mp hp)
  case live =>
    intro r hl
    by_cases hr : r = s
    · subst hr
      exact hok.live (.inl hl)
    · exact hhoused r hr (hi.live r ((hlock r hr).symm.trans hl))
  case probing =>
    intro b r h
    by_cases hba : b = a
    · subst hba
      obtain rfl := (hok.own _ h).1
      exact hok.live (.inr h)
    · obtain ⟨h, hr⟩ := hother hba h
      exact hhoused r hr (hi.probing b r h)
  case looking =>
    intro b r q h
    by_cases hba : b = a
    · subst hba
      obtain rfl := (hok.own _ h).1
      exact hok.looking q h
    · obtain ⟨h, hr⟩ := hother hba h
      exact (hhome q r hr).mpr (hi.looking b r q h)
  case settled =>
    intro b r p t h hl
    by_cases hba : b = a
    · subst hba
      obtain rfl := (hok.own _ h).1
      exact hok.settled p t h hl
    · obtain ⟨h, hr⟩ := hother hba h
      exact (hten r hr).trans (hi.settled b r p t h ((hlead b hba).symm.trans hl))

/-- Nobody else owns a slot that an agent owns. -/
theorem Slotted.sole (hi : Slotted v) {a : A} {s : S} {st : Stage P}
    (ho : v.own a = some ⟨s, st⟩) : ∀ b k, v.own b = some k → k.slot = s → b = a :=
  fun b k h hks => hi.ownUnique b a k _ h ho hks

/-- Only an owner that has looked at a slot's tenant has taken a page. -/
theorem Slotted.untaken (hi : Slotted v) {a : A} (ho : ∀ s q, v.own a ≠ some ⟨s, .looked q⟩)
    (k : Take P) : v.taking a ≠ some k := by
  intro h
  obtain ⟨s, hs⟩ := hi.takeOwn a k h
  exact ho s k.page hs

theorem Slotted.grab [DecidableEq S] [DecidableEq A]
    (hi : Slotted v) (a : A) (s : S) (st : Stage P) (hr : v.leading a ≠ none)
    (ho : v.own a = none)
    (hl : st = .fresh ∧ v.lock s = .free ∨ st = .probe ∧ v.lock s = .opened) :
    Slotted { v with
      lock := update v.lock s .taken
      own := update v.own a (some ⟨s, st⟩) } := by
  have hself : update v.own a (some ⟨s, st⟩) a = some ⟨s, st⟩ := Function.update_self ..
  have htaken : update v.lock s .taken s = .taken := Function.update_self ..
  have hstage : ∀ {r st'}, update v.own a (some ⟨s, st⟩) a = some ⟨r, st'⟩ → st' = st :=
    fun h => congrArg Own.stage (Option.some.inj (h.symm.trans hself))
  refine hi.of_slot (a := a) (s := s) (fun b k h hks => ?_)
    (fun b hba => Function.update_of_ne hba _ _) (fun _ _ => rfl) (fun _ _ => rfl)
    (fun r hrs => Function.update_of_ne hrs _ _) (fun _ _ => rfl) (fun _ _ _ => Iff.rfl)
    hi.validGiven ⟨fun k h => ?_, fun k h => ?_, fun p h => ?_, fun h => ?_, fun q h => ?_,
      fun h p hp => ?_, fun p t h => ?_⟩
  · have htk := hi.ownTaken b k h
    rw [hks] at htk
    rcases hl with ⟨-, hl⟩ | ⟨-, hl⟩
    all_goals cases hl.symm.trans htk
  · obtain rfl := Option.some.inj (hself.symm.trans h)
    exact ⟨rfl, hr, htaken⟩
  · exact absurd h (hi.untaken (fun _ _ hown => by cases ho.symm.trans hown) k)
  · exact ⟨(hi.home p s h).1, htaken.trans_ne SlotLock.noConfusion⟩
  · rcases h with h | h
    · cases htaken.symm.trans h
    · rcases hl with ⟨rfl, -⟩ | ⟨-, hl⟩
      · cases hstage h
      · exact hi.live s hl
  · rcases hl with ⟨rfl, -⟩ | ⟨rfl, -⟩
    all_goals cases hstage h
  · rcases hl with ⟨-, hl⟩ | ⟨rfl, -⟩
    · exact (hi.home p s hp).2 hl
    · rcases h with h | h
      all_goals cases hstage h
  · rcases hl with ⟨rfl, -⟩ | ⟨rfl, -⟩
    all_goals cases hstage h

theorem Slotted.look [DecidableEq S] [DecidableEq A]
    (hi : Slotted v) (a : A) (q : P) (s : S) (ho : v.own a = some ⟨s, .probe⟩)
    (ht : v.tenant s = none ∨ v.tenant s = some q) :
    Slotted { v with own := update v.own a (some ⟨s, .looked q⟩) } := by
  have hself : update v.own a (some ⟨s, .looked q⟩) a = some ⟨s, .looked q⟩ :=
    Function.update_self ..
  have hstage : ∀ {r st}, update v.own a (some ⟨s, .looked q⟩) a = some ⟨r, st⟩ → st = .looked q :=
    fun h => congrArg Own.stage (Option.some.inj (h.symm.trans hself))
  have hhoused := hi.probing a s ho
  have hq : v.Home q s := hhoused.2 q (ht.resolve_left hhoused.1)
  refine hi.of_slot (a := a) (s := s) (hi.sole ho)
    (fun b hba => Function.update_of_ne hba _ _) (fun _ _ => rfl) (fun _ _ => rfl)
    (fun _ _ => rfl) (fun _ _ => rfl) (fun _ _ _ => Iff.rfl) hi.validGiven
    ⟨fun k h => ?_, fun k h => ?_, fun p h => hi.home p s h, fun h => ?_, fun q' h => ?_,
      fun h p hp => ?_, fun p t h => ?_⟩
  · obtain rfl := Option.some.inj (hself.symm.trans h)
    exact ⟨rfl, hi.ownLead a _ ho, hi.ownTaken a _ ho⟩
  · exact absurd h (hi.untaken (fun _ _ hown => by cases ho.symm.trans hown) k)
  · rcases h with h | h
    · exact hi.live s h
    · cases hstage h
  · obtain rfl := Stage.looked.inj (hstage h)
    exact hq
  · rcases h with h | h
    all_goals cases hstage h
  · cases hstage h

theorem Slotted.evicted [DecidableEq P] [DecidableEq S] [DecidableEq A]
    (hi : Slotted v) (a : A) (q : P) (s : S) (b : P → Bool)
    (ho : v.own a = some ⟨s, .looked q⟩) (hl : v.leader q = none) :
    Slotted { v with
      valid := update v.valid q false
      busy := b
      own := update v.own a (some ⟨s, .fresh⟩)
      taking := update v.taking a none } := by
  have hself : update v.own a (some ⟨s, .fresh⟩) a = some (⟨s, .fresh⟩ : Own P S) :=
    Function.update_self ..
  have hstage : ∀ {r st}, update v.own a (some ⟨s, .fresh⟩) a = some ⟨r, st⟩ → st = .fresh :=
    fun h => congrArg Own.stage (Option.some.inj (h.symm.trans hself))
  have hq := hi.looking a s q ho
  -- the page has left its home, every other page is where it was
  have hleft : ∀ p r, v.given p = some r ∧ (update v.valid q false p = true ∨ v.leader p ≠ none) →
      p ≠ q ∧ v.Home p r := by
    rintro p r ⟨hg, hlive⟩
    have hpq : p ≠ q := by
      rintro rfl
      rw [Function.update_self, hl] at hlive
      rcases hlive with h | h
      · cases h
      · exact h rfl
    rw [Function.update_of_ne hpq] at hlive
    exact ⟨hpq, hg, hlive⟩
  have hstay : ∀ p r, p ≠ q → v.Home p r →
      v.given p = some r ∧ (update v.valid q false p = true ∨ v.leader p ≠ none) := by
    rintro p r hpq ⟨hg, hlive⟩
    rw [Function.update_of_ne hpq]
    exact ⟨hg, hlive⟩
  have hempty : ∀ p, ¬ (v.given p = some s ∧
      (update v.valid q false p = true ∨ v.leader p ≠ none)) := by
    intro p hp
    obtain ⟨hpq, hp⟩ := hleft p s hp
    exact hpq (Option.some.inj ((hi.home p s hp).1.symm.trans (hi.home q s hq).1))
  refine hi.of_slot (a := a) (s := s) (hi.sole ho)
    (fun b hba => Function.update_of_ne hba _ _) (fun _ _ => rfl)
    (fun b hba => Function.update_of_ne hba _ _) (fun _ _ => rfl) (fun _ _ => rfl)
    (fun p r hr => ⟨fun h => (hleft p r h).2, fun h => hstay p r ?_ h⟩) (fun p h => ?_)
    ⟨fun k h => ?_, fun k h => absurd rfl (of_update_none h).1, fun p h => absurd h (hempty p),
      fun h => ?_, fun q' h => ?_, fun _ => hempty, fun p t h => ?_⟩
  · rintro rfl
    exact hr (Option.some.inj (h.1.symm.trans hq.1))
  · have hpq : p ≠ q := by
      rintro rfl
      cases (Function.update_self ..).symm.trans h
    exact hi.validGiven p ((Function.update_of_ne hpq _ v.valid).symm.trans h)
  · obtain rfl := Option.some.inj (hself.symm.trans h)
    exact ⟨rfl, hi.ownLead a _ ho, hi.ownTaken a _ ho⟩
  · rcases h with h | h
    · cases (hi.ownTaken a _ ho).symm.trans h
    · cases hstage h
  · cases hstage h
  · cases hstage h

theorem Slotted.giveUp [DecidableEq S] [DecidableEq A] (hi : Slotted v) (a : A) (q : P) (s : S)
    (ho : v.own a = some ⟨s, .looked q⟩) (ht : v.taking a = none) :
    Slotted { v with
      lock := update v.lock s .opened
      own := update v.own a none } := by
  have hself : ∀ {k}, update v.own a none a ≠ some k := fun h => (of_update_none h).1 rfl
  have hopen : update v.lock s .opened s = .opened := Function.update_self ..
  have hq := hi.looking a s q ho
  have hten := (hi.home q s hq).1
  refine hi.of_slot (a := a) (s := s) (hi.sole ho)
    (fun b hba => Function.update_of_ne hba _ _) (fun _ _ => rfl) (fun _ _ => rfl)
    (fun r hrs => Function.update_of_ne hrs _ _) (fun _ _ => rfl) (fun _ _ _ => Iff.rfl)
    hi.validGiven ⟨fun k h => absurd h hself, fun k h => ?_, fun p h => ?_,
      fun _ => ⟨hten.trans_ne (Option.some_ne_none q), fun p hp => ?_⟩,
      fun q' h => absurd h hself, fun h => ?_, fun p t h => absurd h hself⟩
  · cases ht.symm.trans h
  · exact ⟨(hi.home p s h).1, hopen.trans_ne SlotLock.noConfusion⟩
  · obtain rfl := Option.some.inj (hten.symm.trans hp)
    exact hq
  · rcases h with h | h
    all_goals exact absurd h hself

theorem Slotted.settle [DecidableEq S] [DecidableEq A]
    (hi : Slotted v) (a : A) (p : P) (t : Bool) (s : S)
    (hr : v.leading a = some (p, t)) (ho : v.own a = some ⟨s, .fresh⟩) :
    Slotted { v with
      tenant := update v.tenant s (some p)
      own := update v.own a (some ⟨s, .written⟩) } := by
  have hself : update v.own a (some ⟨s, .written⟩) a = some (⟨s, .written⟩ : Own P S) :=
    Function.update_self ..
  have hstage : ∀ {r st}, update v.own a (some ⟨s, .written⟩) a = some ⟨r, st⟩ → st = .written :=
    fun h => congrArg Own.stage (Option.some.inj (h.symm.trans hself))
  have hempty := hi.fresh a s ho
  refine hi.of_slot (a := a) (s := s) (hi.sole ho)
    (fun b hba => Function.update_of_ne hba _ _) (fun _ _ => rfl) (fun _ _ => rfl)
    (fun _ _ => rfl) (fun r hrs => Function.update_of_ne hrs _ _) (fun _ _ _ => Iff.rfl)
    hi.validGiven ⟨fun k h => ?_, fun k h => ?_, fun q h => absurd h (hempty q), fun h => ?_,
      fun q h => ?_, fun _ => hempty, fun q u _ h => ?_⟩
  · obtain rfl := Option.some.inj (hself.symm.trans h)
    exact ⟨rfl, hi.ownLead a _ ho, hi.ownTaken a _ ho⟩
  · exact absurd h (hi.untaken (fun _ _ hown => by cases ho.symm.trans hown) k)
  · rcases h with h | h
    · cases (hi.ownTaken a _ ho).symm.trans h
    · cases hstage h
  · cases hstage h
  · obtain ⟨rfl, -⟩ := Prod.mk.inj (Option.some.inj (hr.symm.trans h))
    exact Function.update_self ..

theorem Slotted.assign [DecidableEq P] [DecidableEq S] [DecidableEq A]
    (hi : Slotted v) (hown : Owned v) (a : A) (p : P) (t : Bool) (s : S)
    (hr : v.leading a = some (p, t)) (ho : v.own a = some ⟨s, .written⟩)
    (asg : A → Option (P × S)) (sv : A → Option (Serve P S)) :
    Slotted { v with
      lock := update v.lock s .opened
      given := update v.given p (some s)
      own := update v.own a none
      leading := update v.leading a none
      assigned := asg
      serving := sv } := by
  obtain ⟨hl, hg, -⟩ := hown.lead a p t hr
  have hten := hi.settled a s p t ho hr
  have hself : ∀ {k}, update v.own a none a ≠ some k := fun h => (of_update_none h).1 rfl
  have hopen : update v.lock s .opened s = .opened := Function.update_self ..
  -- the page moves in, every other page is where it was
  have hin : update v.given p (some s) p = some s ∧ (v.valid p = true ∨ v.leader p ≠ none) :=
    ⟨Function.update_self .., .inr (hl.trans_ne (Option.some_ne_none a))⟩
  have hother : ∀ {q}, q ≠ p → ∀ r, (update v.given p (some s) q = some r ∧
      (v.valid q = true ∨ v.leader q ≠ none)) = v.Home q r := by
    intro q hqp r
    rw [Function.update_of_ne hqp, Cache.Home]
  have hempty := hi.written a s ho
  refine hi.of_slot (a := a) (s := s) (hi.sole ho)
    (fun b hba => Function.update_of_ne hba _ _) (fun b hba => Function.update_of_ne hba _ _)
    (fun _ _ => rfl) (fun r hrs => Function.update_of_ne hrs _ _) (fun _ _ => rfl)
    (fun q r hrs => ?_) (fun q h => ?_)
    ⟨fun k h => absurd h hself, fun k h => ?_, fun q h => ?_,
      fun _ => ⟨hten.trans_ne (Option.some_ne_none p), fun q hq => ?_⟩,
      fun q h => absurd h hself, fun h => ?_, fun q u h => absurd h hself⟩
  · by_cases hqp : q = p
    · subst hqp
      constructor
      · exact fun h => absurd (Option.some.inj (hin.1.symm.trans h.1)).symm hrs
      · exact fun h => by cases hg.symm.trans h.1
    · exact iff_of_eq (hother hqp r)
  · by_cases hqp : q = p
    · rw [hqp]
      exact hin.1.trans_ne (Option.some_ne_none s)
    · exact (Function.update_of_ne hqp _ v.given).trans_ne (hi.validGiven q h)
  · exact absurd h (hi.untaken (fun _ _ hown' => by cases ho.symm.trans hown') k)
  · refine ⟨?_, hopen.trans_ne SlotLock.noConfusion⟩
    by_cases hqp : q = p
    · exact hqp ▸ hten
    · exact absurd ((hother hqp s).mp h) (hempty q)
  · obtain rfl := Option.some.inj (hten.symm.trans hq)
    exact hin
  · rcases h with h | h
    all_goals exact absurd h hself

end Preservation

/-- The step lemma: every change of the protocol keeps the slots owned. -/
theorem Step.slotted {g : Guard P S A} (hg : g.Owning) {v w : Cache P S A} (ho : Owned v)
    (hi : Slotted v) (h : Step g v w) : Slotted w := by
  cases h with
  | lead a p t hr hown hb hok =>
    exact hi.lead a p t hown ((ho.openIff p).mpr (.inl hb)) (hg.lead v p t hok)
  | grabFree a s hr hown hl => exact hi.grab a s .fresh hr hown (.inl ⟨rfl, hl⟩)
  | grabUsed a s hr hown hl => exact hi.grab a s .probe hr hown (.inr ⟨rfl, hl⟩)
  | look a q s hown ht => exact hi.look a q s hown ht
  | markBusy a q s hown ht hb => exact hi.markBusy a ⟨q, _⟩ s _ hown
  | evicted a q s hown ht =>
    exact hi.evicted a q s _ hown ((ho.openIff q).mpr (.inr (ho.evict a _ ht).1))
  | undone a q ht => exact hi.undone a _
  | giveUp a q s hown ht => exact hi.giveUp a q s hown ht
  | settle a p t s hr hown => exact hi.settle a p t s hr hown
  | assign a p t s hr hown hj => exact hi.assign ho a p t s hr hown _ _
  | publishServed a p s hr =>
    obtain ⟨hl, hgv, -⟩ := ho.serve a _ hr
    have hl' := hl.trans_ne (Option.some_ne_none a)
    exact hi.publish hl' (hgv.trans_ne (Option.some_ne_none _)) (ho.opened hl').2 _ _ _ _
  | publishPolled a p s hr =>
    obtain ⟨hl, hgv, -⟩ := ho.poll a _ hr
    exact hi.publish hl hgv (ho.opened hl).2 _ _ _ _
  | reset tenant hp hown =>
    have hnone : ∀ p s, ¬ v.Home p s := by
      rintro p s ⟨-, hval | hl⟩
      · cases (hp p).1.symm.trans hval
      · exact hl (hp p).2
    have hnobody : ∀ {a k}, v.own a ≠ some k := fun h => by cases (hown _).symm.trans h
    exact ⟨hi.ownLead, hi.takeOwn, fun a k h => absurd h hnobody, hi.ownUnique, hi.validGiven,
      fun p s h => absurd h (hnone p s), fun s h => SlotLock.noConfusion h,
      fun a s h => absurd h hnobody, fun a s q h => absurd h hnobody,
      fun a s h => absurd h hnobody, fun a s h => absurd h hnobody,
      fun a s p t h => absurd h hnobody⟩
  | _ => exact { hi with }

end GidsStack.Lib.PinCache
