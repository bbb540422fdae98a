/-
  GidsStack.Lib.PinCache.Counted

  What a reader of the cache relies on.  The offset of a valid page is the slot
  it lives in; the count of a page is the number of references to it; and a
  page an agent has seen valid while it held a reference stays valid, in its
  slot, until the agent lets go.
-/

import GidsStack.Lib.PinCache.Slotted

namespace GidsStack.Lib.PinCache

variable {P S A : Type*}

/-! ## The offset of a valid page -/

/-- The offsets of the pages agree with the slots they live in. -/
structure Placed (v : Cache P S A) : Prop where
  valid : ∀ p, v.valid p = true → v.given p = some (v.offset p)
  served : ∀ a k, v.serving a = some k → k.stored = true → v.offset k.page = k.slot
  polled : ∀ a k, v.polling a = some k → v.given k.page = some k.slot
  stored : ∀ a k, v.polling a = some k → k.progress = .stored → v.offset k.page = k.slot

/-- Whoever takes on a publication knows the slot the miss was given. -/
structure Guard.Placing (g : Guard P S A) : Prop extends g.Owning where
  place : ∀ v a p s, g.win v a p s → v.given p = some s

/-- No miss is shared: nobody publishes for another agent. -/
structure Unshared (v : Cache P S A) : Prop where
  leading : ∀ a p t, v.leading a = some (p, t) → t = false
  assigned : ∀ a, v.assigned a = none

/-- Only misses that are not shared are led. -/
def Guard.Private (g : Guard P S A) : Prop := ∀ v p t, g.lead v p t → t = false

variable [DecidableEq P] [DecidableEq S] [DecidableEq A]

open Function (update)

theorem Step.unshared {g : Guard P S A} (hg : g.Private) {v w : Cache P S A}
    (hi : Unshared v) (h : Step g v w) : Unshared w := by
  cases h with
  | lead a p t hr hown hb hok =>
    refine ⟨fun b q u h => ?_, hi.assigned⟩
    rcases of_update_some h with ⟨-, hpair⟩ | ⟨-, h⟩
    · obtain ⟨-, rfl⟩ := Prod.mk.inj (Option.some.inj hpair)
      exact hg v p t hok
    · exact hi.leading b q u h
  | assign a p t s hr hown hj =>
    refine ⟨fun b q u h => hi.leading b q u (of_update_none h).2, fun b => ?_⟩
    show update v.assigned a (if t then some (p, s) else none) b = none
    rw [hi.leading a p t hr]
    by_cases hba : b = a
    · rw [hba, Function.update_self]
      rfl
    · rw [Function.update_of_ne hba]
      exact hi.assigned b
  | storeAssigned a p s hr => exact absurd ((hi.assigned a).symm.trans hr) (Option.some_ne_none _).symm
  | _ => exact { hi with }

section Preservation

variable {v : Cache P S A}

/-- The slot the page was given, stored into its offset. -/
theorem Placed.store {P S A : Type*} [DecidableEq P] {v : Cache P S A}
    (hi : Placed v) {p : P} {s : S} (hg : v.given p = some s)
    (asg : A → Option (P × S)) (sv : A → Option (Serve P S)) (pl : A → Option (Poll P S))
    (hsv : ∀ a k, sv a = some k → k.stored = true →
      v.given k.page = some k.slot ∧ (k.page ≠ p → v.offset k.page = k.slot))
    (hpl : ∀ a k, pl a = some k → v.given k.page = some k.slot ∧
      (k.progress = .stored → k.page ≠ p → v.offset k.page = k.slot)) :
    Placed { v with
      offset := update v.offset p s, assigned := asg, serving := sv, polling := pl } := by
  have hstore : ∀ {q s'}, v.given q = some s' → (q ≠ p → v.offset q = s') →
      update v.offset p s q = s' := by
    intro q s' hgq hoff
    by_cases hqp : q = p
    · rw [hqp, Function.update_self]
      exact Option.some.inj (hg.symm.trans (hqp ▸ hgq))
    · rw [Function.update_of_ne hqp]
      exact hoff hqp
  refine ⟨fun q h => ?_, fun a k h hs => ?_, fun a k h => (hpl a k h).1, fun a k h hs => ?_⟩
  · show v.given q = some (update v.offset p s q)
    have hgq := hi.valid q h
    rw [hstore hgq fun _ => rfl, hgq]
  · exact hstore (hsv a k h hs).1 (hsv a k h hs).2
  · exact hstore (hpl a k h).1 ((hpl a k h).2 hs)

/-- A page that was given the slot in its offset may become valid. -/
theorem Placed.publish {P S A : Type*} [DecidableEq P] {v : Cache P S A}
    (hi : Placed v) {p : P} (h : v.given p = some (v.offset p)) (b : Bool)
    (busy : P → Bool) (leader : P → Option A) (pub : P → Nat) (sv : A → Option (Serve P S))
    (pl : A → Option (Poll P S)) (hsv : ∀ a k, sv a = some k → v.serving a = some k)
    (hpl : ∀ a k, pl a = some k → v.polling a = some k) :
    Placed { v with
      valid := update v.valid p b
      busy := busy
      leader := leader
      published := pub
      serving := sv
      polling := pl } := by
  refine ⟨fun q hq => ?_, fun a k hk => hi.served a k (hsv a k hk),
    fun a k hk => hi.polled a k (hpl a k hk), fun a k hk => hi.stored a k (hpl a k hk)⟩
  by_cases hqp : q = p
  · rw [hqp]
    exact h
  · exact hi.valid q ((Function.update_of_ne hqp _ v.valid).symm.trans hq)

/-- Agents that publish stop, or go on with the same slot, which they have not stored. -/
theorem Placed.repoll {P S A : Type*} [DecidableEq A] {v : Cache P S A}
    (hi : Placed v) {a : A} {p : P} {s : S} (hg : v.given p = some s)
    (x : Option Waiting) (hx : x ≠ some .stored) (con : P → Nat) :
    Placed { v with
      consumed := con
      polling := update v.polling a (x.map fun w => ⟨p, s, w⟩) } := by
  refine { hi with polled := fun b k h => ?_, stored := fun b k h hs => ?_ }
  · rcases of_update_some h with ⟨-, hk⟩ | ⟨-, h⟩
    · obtain ⟨w, -, rfl⟩ := Option.map_eq_some_iff.mp hk
      exact hg
    · exact hi.polled b k h
  · rcases of_update_some h with ⟨-, hk⟩ | ⟨-, h⟩
    · obtain ⟨w, hw, rfl⟩ := Option.map_eq_some_iff.mp hk
      exact absurd (hw.trans (congrArg some hs)) hx
    · exact hi.stored b k h hs

end Preservation

/-- The step lemma, in a state where a leader that has yet to store its slot is
    about to store the one the page was given. -/
theorem Step.placed {g : Guard P S A} (hg : g.Placing) {v w : Cache P S A} (ho : Owned v)
    (ha : ∀ a p s, v.assigned a = some (p, s) → v.given p = some s) (hi : Placed v)
    (h : Step g v w) : Placed w := by
  -- whoever publishes knows the slot
  have hserved : ∀ a k, v.serving a = some k → k.stored = true → v.given k.page = some k.slot ∧
      v.offset k.page = k.slot :=
    fun a k h hst => ⟨(ho.serve a k h).2.1, hi.served a k h hst⟩
  have hpolled : ∀ a k, v.polling a = some k → v.given k.page = some k.slot ∧
      (k.progress = .stored → v.offset k.page = k.slot) :=
    fun a k h => ⟨hi.polled a k h, hi.stored a k h⟩
  cases h with
  | lead a p t hr hown hb hok =>
    have hl := ho.closed hb
    refine { hi with valid := fun q h => ?_, polled := fun b k h => ?_ }
    · have hqp : q ≠ p := by
        rintro rfl
        rw [hg.lead v q t hok] at h
        cases h
      exact (Function.update_of_ne hqp _ v.given).trans (hi.valid q h)
    · have hkp : k.page ≠ p := fun hkp => (ho.poll b k h).1 (hkp ▸ hl)
      exact (Function.update_of_ne hkp _ v.given).trans (hi.polled b k h)
  | unset a p t hr =>
    obtain ⟨-, hnone, -⟩ := ho.lead a p t hr
    have hother : ∀ {q s}, v.given q = some s → q ≠ p := by
      rintro q s h rfl
      cases hnone.symm.trans h
    refine { hi with
      valid := fun q h => ?_, served := fun b k h hst => ?_, stored := fun b k h hst => ?_ }
    · have hgq := hi.valid q h
      exact hgq.trans (congrArg some (Function.update_of_ne (hother hgq) _ v.offset).symm)
    · exact (Function.update_of_ne (hother (hserved b k h hst).1) _ v.offset).trans
        (hi.served b k h hst)
    · exact (Function.update_of_ne (hother (hi.polled b k h)) _ v.offset).trans
        (hi.stored b k h hst)
  | evicted a q s hown ht =>
    refine { hi with valid := fun p h => ?_ }
    have hpq : p ≠ q := by
      rintro rfl
      cases (Function.update_self ..).symm.trans h
    exact hi.valid p ((Function.update_of_ne hpq _ v.valid).symm.trans h)
  | assign a p t s hr hown hj =>
    obtain ⟨hl, hnone, -⟩ := ho.lead a p t hr
    have hother : ∀ {q s'}, v.given q = some s' → q ≠ p := by
      rintro q s' h rfl
      cases hnone.symm.trans h
    refine { hi with
      valid := fun q h => ?_, served := fun b k h hst => ?_, polled := fun b k h => ?_ }
    · have hgq := hi.valid q h
      exact (Function.update_of_ne (hother hgq) _ v.given).trans hgq
    · rcases of_update_some h with ⟨-, hk⟩ | ⟨-, h⟩
      · cases t with
        | true => cases hk
        | false =>
          obtain rfl := Option.some.inj hk
          cases hst
      · exact hi.served b k h hst
    · have hgk := hi.polled b k h
      exact (Function.update_of_ne (hother hgk) _ v.given).trans hgk
  | storeAssigned a p s hr =>
    exact hi.store (ha a p s hr) _ _ _
      (fun b k h hst => ⟨(hserved b k h hst).1, fun _ => (hserved b k h hst).2⟩)
      (fun b k h => ⟨(hpolled b k h).1, fun hst _ => (hpolled b k h).2 hst⟩)
  | storeServed a p s hr =>
    have hgv := (ho.serve a _ hr).2.1
    refine hi.store hgv _ _ _ (fun b k h hst => ?_)
      (fun b k h => ⟨(hpolled b k h).1, fun hst _ => (hpolled b k h).2 hst⟩)
    rcases of_update_some h with ⟨-, hk⟩ | ⟨-, h⟩
    · obtain rfl := Option.some.inj hk
      exact ⟨hgv, fun hne => absurd rfl hne⟩
    · exact ⟨(hserved b k h hst).1, fun _ => (hserved b k h hst).2⟩
  | publishServed a p s hr =>
    obtain ⟨hgv, hoff⟩ := hserved a _ hr rfl
    exact hi.publish (hgv.trans (congrArg some hoff.symm)) _ _ _ _ _ _
      (fun _ _ h => (of_update_none h).2) (fun _ _ h => h)
  | win a p s hr hok =>
    exact hi.repoll (hg.place v a p s hok) (some .waits) (by simp) v.consumed
  | lose a p s hr => exact hi.repoll (hi.polled a _ hr) none (by simp) v.consumed
  | consume a p s hr => exact hi.repoll (hi.polled a _ hr) (some .got) (by simp) _
  | storePolled a p s hr =>
    have hgv := hi.polled a _ hr
    refine hi.store hgv _ _ _
      (fun b k h hst => ⟨(hserved b k h hst).1, fun _ => (hserved b k h hst).2⟩) fun b k h => ?_
    rcases of_update_some h with ⟨-, hk⟩ | ⟨-, h⟩
    · obtain rfl := Option.some.inj hk
      exact ⟨hgv, fun _ hne => absurd rfl hne⟩
    · exact ⟨(hpolled b k h).1, fun hst _ => (hpolled b k h).2 hst⟩
  | publishPolled a p s hr =>
    obtain ⟨hgv, hoff⟩ := hpolled a _ hr
    exact hi.publish (hgv.trans (congrArg some (hoff rfl).symm)) _ _ _ _ _ _ (fun _ _ h => h)
      (fun _ _ h => (of_update_none h).2)
  | _ => exact { hi with }

/-! ## References -/

/-- The count of a page covers the references to it, a page whose miss was seen
    open under a reference stays open or valid, and a page seen valid under one
    stays where it is. -/
structure Counted [Fintype A] (v : Cache P S A) : Prop where
  refCount : ∀ p, ∑ a, Ref.on (v.ref a) p ≤ v.cnt p
  refPos : ∀ a r, v.ref a = some r → 0 < r.count
  joined : ∀ a r, v.ref a = some r → r.grip ≠ .raised →
    v.valid r.page = true ∨ v.leader r.page ≠ none
  pinned : ∀ a r, v.ref a = some r → r.grip = .pinned → v.valid r.page = true
  fixed : ∀ a r s, v.ref a = some r → r.grip = .fixed s →
    v.valid r.page = true ∧ v.offset r.page = s
  safe : ∀ a b r k, v.ref a = some r → r.grip ≠ .raised → v.taking b = some k →
    k.page = r.page → k.evict = false

/-- A count that stands for no reference is taken off only where it is there. -/
structure Guard.Covering [Fintype A] [DecidableEq P] (g : Guard P S A) : Prop where
  exact : ¬ g.recount
  cover : ∀ v p n, g.unpad v p n → (∑ a, Ref.on (v.ref a) p) + n ≤ v.cnt p

section Counting

variable {P S A : Type*}

theorem Ref.on_some [DecidableEq P] (r : Ref P S) (p : P) :
    Ref.on (some r) p = if r.page = p then r.count else 0 := rfl

theorem count_takeRef [DecidableEq P] [DecidableEq A] [Fintype A]
    {ref : A → Option (Ref P S)} {a : A} (h : ref a = none) (r : Ref P S)
    (p : P) :
    (∑ b, Ref.on (update ref a (some r) b) p)
      = (∑ b, Ref.on (ref b) p) + if r.page = p then r.count else 0 := by
  have hsum := sum_update_swap ref a (some r) (fun x => Ref.on x p)
  simpa [h, Ref.on] using hsum

theorem count_dropRef [DecidableEq P] [DecidableEq A] [Fintype A]
    {ref : A → Option (Ref P S)} {a : A} {r : Ref P S} (h : ref a = some r)
    (p : P) :
    (∑ b, Ref.on (update ref a none b) p) + (if r.page = p then r.count else 0)
      = ∑ b, Ref.on (ref b) p := by
  have hsum := sum_update_swap ref a none (fun x => Ref.on x p)
  simpa [h, Ref.on] using hsum

/-- A new grip does not change what a reference counts for. -/
theorem count_grip [DecidableEq P] [DecidableEq A] [Fintype A]
    {ref : A → Option (Ref P S)} {a : A} {q : P} {n m : Nat} {gr : Grip S}
    (h : ref a = some ⟨q, n + m, gr⟩) (gr' : Grip S) (p : P) :
    (∑ b, Ref.on (update ref a (some ⟨q, n, gr'⟩) b) p) + (if q = p then m else 0)
      = ∑ b, Ref.on (ref b) p := by
  have hsum := sum_update_swap ref a (some ⟨q, n, gr'⟩) (fun x => Ref.on x p)
  simp only [h, Ref.on_some] at hsum
  by_cases hq : q = p
  · simp only [hq, if_true] at hsum ⊢
    omega
  · simpa only [hq, if_false, Nat.add_zero] using hsum

theorem count_ge [DecidableEq P] [Fintype A]
    {ref : A → Option (Ref P S)} {a : A} {r : Ref P S} (h : ref a = some r) :
    r.count ≤ ∑ b, Ref.on (ref b) r.page := by
  calc r.count = Ref.on (ref a) r.page := by simp [h, Ref.on]
    _ ≤ ∑ b, Ref.on (ref b) r.page :=
      Finset.single_le_sum (f := fun b => Ref.on (ref b) r.page) (fun _ _ => Nat.zero_le _)
        (Finset.mem_univ a)

/-- A page whose count is zero is referenced by nobody. -/
theorem Counted.unreferenced [DecidableEq P] [Fintype A]
    {v : Cache P S A} (hi : Counted v) {q : P} (h0 : v.cnt q = 0)
    {a : A} {r : Ref P S} (h : v.ref a = some r) : r.page ≠ q := by
  rintro rfl
  have hge := count_ge h
  have hcnt := hi.refCount r.page
  have hpos := hi.refPos a r h
  omega

/-- A new grip, under which the agent may rely on what it has just seen. -/
theorem Counted.regrip [DecidableEq P] [DecidableEq S] [DecidableEq A] [Fintype A]
    {v : Cache P S A} (hi : Counted v) {a : A} {p : P} {n : Nat}
    {gr : Grip S} (gr' : Grip S) (hr : v.ref a = some ⟨p, n, gr⟩)
    (hj : v.valid p = true ∨ v.leader p ≠ none)
    (hp : gr' = .pinned → v.valid p = true)
    (hf : ∀ s, gr' = .fixed s → v.valid p = true ∧ v.offset p = s)
    (hs : gr = .raised → ∀ b k, v.taking b = some k → k.page = p → k.evict = false) :
    Counted { v with ref := update v.ref a (some ⟨p, n, gr'⟩) } := by
  refine ⟨fun q => ?_, fun b r h => ?_, fun b r h hg => ?_, fun b r h hg => ?_,
    fun b r s h hg => ?_, fun b c r k h hg => ?_⟩
  · have hc := count_grip (m := 0) hr gr' q
    simp only [ite_self, Nat.add_zero] at hc
    rw [hc]
    exact hi.refCount q
  · rcases of_update_some h with ⟨-, hk⟩ | ⟨-, h⟩
    · obtain rfl := Option.some.inj hk
      exact hi.refPos a ⟨p, n, gr⟩ hr
    · exact hi.refPos b r h
  · rcases of_update_some h with ⟨-, hk⟩ | ⟨-, h⟩
    · obtain rfl := Option.some.inj hk
      exact hj
    · exact hi.joined b r h hg
  · rcases of_update_some h with ⟨-, hk⟩ | ⟨-, h⟩
    · obtain rfl := Option.some.inj hk
      exact hp hg
    · exact hi.pinned b r h hg
  · rcases of_update_some h with ⟨-, hk⟩ | ⟨-, h⟩
    · obtain rfl := Option.some.inj hk
      exact hf s hg
    · exact hi.fixed b r s h hg
  · rcases of_update_some h with ⟨-, hk⟩ | ⟨-, h⟩
    · obtain rfl := Option.some.inj hk
      by_cases hraised : gr = .raised
      · exact hs hraised c k
      · exact hi.safe a c ⟨p, n, gr⟩ k hr hraised
    · exact hi.safe b c r k h hg

/-- Counts and references that change so that the counts still cover the references; what
    is relied on under a reference was relied on before. -/
theorem Counted.recount [DecidableEq P] [DecidableEq A] [Fintype A]
    {v : Cache P S A} (hi : Counted v) {a : A} (cnt : P → Nat)
    (x : Option (Ref P S)) (hcount : ∀ p, ∑ b, Ref.on (update v.ref a x b) p ≤ cnt p)
    (hx : ∀ r, x = some r → 0 < r.count ∧ (r.grip = .raised ∨
      ∃ r', v.ref a = some r' ∧ r'.page = r.page ∧ r'.grip = r.grip)) :
    Counted { v with cnt := cnt, ref := update v.ref a x } := by
  have hold : ∀ {b r}, update v.ref a x b = some r → r.grip ≠ .raised →
      ∃ r', v.ref b = some r' ∧ r'.page = r.page ∧ r'.grip = r.grip := by
    intro b r h hg
    rcases of_update_some h with ⟨rfl, hk⟩ | ⟨-, h⟩
    · exact (hx r hk).2.resolve_left hg
    · exact ⟨r, h, rfl, rfl⟩
  refine ⟨hcount, fun b r h => ?_, fun b r h hg => ?_, fun b r h hg => ?_,
    fun b r s h hg => ?_, fun b c r k h hg => ?_⟩
  · rcases of_update_some h with ⟨-, hk⟩ | ⟨-, h⟩
    · exact (hx r hk).1
    · exact hi.refPos b r h
  · obtain ⟨r', hr', hpage, hgrip⟩ := hold h hg
    exact hpage ▸ hi.joined b r' hr' (hgrip ▸ hg)
  · obtain ⟨r', hr', hpage, hgrip⟩ := hold h (by simp [hg])
    exact hpage ▸ hi.pinned b r' hr' (hgrip.trans hg)
  · obtain ⟨r', hr', hpage, hgrip⟩ := hold h (by simp [hg])
    exact hpage ▸ hi.fixed b r' s hr' (hgrip.trans hg)
  · obtain ⟨r', hr', hpage, hgrip⟩ := hold h hg
    exact hpage ▸ hi.safe b c r' k hr' (hgrip ▸ hg)

/-- Changes of the pages that take from no agent what it relies on. -/
theorem Counted.of_kept [DecidableEq P] [Fintype A]
    {v w : Cache P S A} (hi : Counted v) (href : w.ref = v.ref)
    (hcnt : w.cnt = v.cnt)
    (hjoin : ∀ a r, v.ref a = some r → r.grip ≠ .raised →
      w.valid r.page = true ∨ w.leader r.page ≠ none)
    (hkeep : ∀ a r, v.ref a = some r → r.grip ≠ .raised → v.valid r.page = true →
      w.valid r.page = true ∧ w.offset r.page = v.offset r.page)
    (htake : ∀ b k, w.taking b = some k → v.taking b = some k ∨
      ∀ a r, v.ref a = some r → k.page = r.page → k.evict = false) : Counted w := by
  refine ⟨fun p => ?_, fun a r h => ?_, fun a r h => ?_, fun a r h hg => ?_,
    fun a r s h hg => ?_, fun a b r k h hg hk hp => ?_⟩
  all_goals rw [href] at *
  · rw [hcnt]
    exact hi.refCount p
  · exact hi.refPos a r h
  · exact hjoin a r h
  · exact (hkeep a r h (by simp [hg]) (hi.pinned a r h hg)).1
  · obtain ⟨hv, hoff⟩ := hi.fixed a r s h hg
    obtain ⟨hv', hoff'⟩ := hkeep a r h (by simp [hg]) hv
    exact ⟨hv', hoff'.trans hoff⟩
  · rcases htake b k hk with hk | hfalse
    · exact hi.safe a b r k h hg hk hp
    · exact hfalse a r h hp

/-- A miss that is open keeps its page invalid, so its offset may change. -/
theorem Counted.store [DecidableEq P] [Fintype A] {v : Cache P S A} (hi : Counted v) {p : P} {s : S}
    (h : v.valid p = true → v.offset p = s) (leading : A → Option (P × Bool))
    (asg : A → Option (P × S)) (sv : A → Option (Serve P S)) (pl : A → Option (Poll P S)) :
    Counted { v with
      offset := update v.offset p s, leading := leading, assigned := asg, serving := sv,
      polling := pl } := by
  refine hi.of_kept rfl rfl hi.joined (fun a r hr hg hv => ⟨hv, ?_⟩) fun _ _ hk => .inl hk
  show update v.offset p s r.page = v.offset r.page
  by_cases hrp : r.page = p
  · rw [hrp, Function.update_self]
    exact (h (hrp ▸ hv)).symm
  · exact Function.update_of_ne hrp _ _

/-- The publication of a page that was not valid. -/
theorem Counted.publish [DecidableEq P] [Fintype A]
    {v : Cache P S A} (hi : Counted v) {p : P} (hv : v.valid p = false)
    (busy : P → Bool) (pub : P → Nat) (sv : A → Option (Serve P S)) (pl : A → Option (Poll P S)) :
    Counted { v with
      valid := update v.valid p (!v.valid p)
      busy := busy
      leader := update v.leader p none
      published := pub
      serving := sv
      polling := pl } := by
  have hp : update v.valid p (!v.valid p) p = true := by rw [Function.update_self, hv]; rfl
  refine hi.of_kept rfl rfl (fun a r hr hg => ?_) (fun a r hr hg hval => ⟨?_, rfl⟩)
    fun _ _ hk => .inl hk
  · by_cases hrp : r.page = p
    · exact .inl (hrp ▸ hp)
    · rcases hi.joined a r hr hg with hval | hl
      · exact .inl ((Function.update_of_ne hrp _ v.valid).trans hval)
      · exact .inr ((Function.update_of_ne hrp _ v.leader).trans_ne hl)
  · by_cases hrp : r.page = p
    · exact hrp ▸ hp
    · exact (Function.update_of_ne hrp _ v.valid).trans hval

theorem Step.counted [DecidableEq P] [DecidableEq S] [DecidableEq A] [Fintype A]
    {g : Guard P S A} (hc : g.Covering) {v w : Cache P S A}
    (ho : Owned v) (hp : Placed v)
    (ha : ∀ a p s, v.assigned a = some (p, s) → v.given p = some s)
    (hi : Counted v) (h : Step g v w) : Counted w := by
  have hinvalid : ∀ {p}, v.leader p ≠ none → ∀ {s : S}, v.valid p = true → v.offset p = s := by
    intro p hl s hv
    rw [(ho.opened hl).2] at hv
    cases hv
  cases h with
  | lead a p t hr hown hb hok =>
    refine hi.of_kept rfl rfl (fun b r h hg => ?_) (fun _ _ _ _ hv => ⟨hv, rfl⟩)
      fun _ _ hk => .inl hk
    refine (hi.joined b r h hg).imp_right fun hl => ?_
    by_cases hrp : r.page = p
    · rw [hrp]
      exact (Function.update_self ..).trans_ne (Option.some_ne_none a)
    · exact (Function.update_of_ne hrp _ v.leader).trans_ne hl
  | unset a p t hr =>
    have hl := (ho.lead a p t hr).1.trans_ne (Option.some_ne_none a)
    exact hi.store (hinvalid hl) _ _ _ _
  | markBusy a q s hown ht hb =>
    refine hi.of_kept rfl rfl hi.joined (fun _ _ _ _ hv => ⟨hv, rfl⟩) fun b k hk => ?_
    rcases of_update_some hk with ⟨-, hk⟩ | ⟨-, hk⟩
    · obtain rfl := Option.some.inj hk
      refine .inr fun c r hr hpage => decide_eq_false fun hzero => ?_
      -- the page is evicted only if nobody refers to it
      exact hi.unreferenced hzero hr hpage.symm
    · exact .inl hk
  | evicted a q s hown ht =>
    have hother : ∀ b r, v.ref b = some r → r.grip ≠ .raised → r.page ≠ q := by
      intro b r hr hg hrq
      cases hi.safe b a r _ hr hg ht hrq.symm
    refine hi.of_kept rfl rfl (fun b r hr hg => ?_) (fun b r hr hg hv => ⟨?_, rfl⟩)
      fun _ _ hk => .inl (of_update_none hk).2
    · exact (hi.joined b r hr hg).imp_left
        (Function.update_of_ne (hother b r hr hg) _ v.valid).trans
    · exact (Function.update_of_ne (hother b r hr hg) _ v.valid).trans hv
  | undone a q ht =>
    exact hi.of_kept rfl rfl hi.joined (fun _ _ _ _ hv => ⟨hv, rfl⟩)
      fun _ _ hk => .inl (of_update_none hk).2
  | storeAssigned a p s hr =>
    refine hi.store (fun hv => ?_) _ _ _ _
    exact Option.some.inj ((hp.valid p hv).symm.trans (ha a p s hr))
  | storeServed a p s hr =>
    have hl := (ho.serve a _ hr).1.trans_ne (Option.some_ne_none a)
    exact hi.store (hinvalid hl) _ _ _ _
  | publishServed a p s hr =>
    have hl := (ho.serve a _ hr).1.trans_ne (Option.some_ne_none a)
    exact hi.publish (ho.opened hl).2 _ _ _ _
  | storePolled a p s hr => exact hi.store (hinvalid (ho.poll a _ hr).1) _ _ _ _
  | publishPolled a p s hr => exact hi.publish (ho.opened (ho.poll a _ hr).1).2 _ _ _ _
  | takeRef a p n hn hr =>
    refine hi.recount _ _ (fun q => ?_) ?_
    · rw [count_takeRef hr]
      have hq := hi.refCount q
      by_cases hqp : q = p
      · subst hqp; simpa using hq
      · simpa [hqp, Ne.symm hqp] using hq
    · rintro r hr'
      obtain rfl := Option.some.inj hr'
      exact ⟨hn, .inl rfl⟩
  | join a p n hr hl =>
    refine hi.regrip .joined hr (.inr hl) (by simp) (by simp) fun _ b k hk hkp => ?_
    -- nobody has taken a page whose miss is open
    have hv := (ho.evict b k hk).1
    rw [hkp, (ho.opened hl).2] at hv
    cases hv
  | aim a p n s hr has hof hs =>
    exact hi.regrip (.aimed s) hr (hi.joined a _ hr (by simp)) (by simp) (by simp) (by simp)
  | unaim a p n s hr =>
    exact hi.regrip .joined hr (hi.joined a _ hr (by simp)) (by simp) (by simp) (by simp)
  | check a p n s hr ht =>
    exact hi.regrip (.named s) hr (hi.joined a _ hr (by simp)) (by simp) (by simp) (by simp)
  | receive a p n s hr hgv =>
    exact hi.regrip (.named s) hr (hi.joined a _ hr (by simp)) (by simp) (by simp) (by simp)
  | pin a p n gr hr has hpl hv hb =>
    refine hi.regrip .pinned hr (.inl hv) (fun _ => hv) (by simp) fun _ b k hk hkp => ?_
    have hbusy := (ho.evict b k hk).2
    rw [hkp, hb] at hbusy
    cases hbusy
  | fix a p n s hr hof =>
    have hv := hi.pinned a _ hr rfl
    exact hi.regrip (.fixed s) hr (.inl hv) (by simp)
      (fun s' hs' => ⟨hv, by simpa [hof] using hs'⟩) (by simp)
  | shrinkRef a p n m s hn hr =>
    refine hi.recount _ _ (fun q => ?_) ?_
    · have hq := count_grip hr (.fixed s) q
      have hq' := hi.refCount q
      by_cases hqp : q = p
      · subst hqp
        rw [Function.update_self]
        rw [if_pos rfl] at hq
        omega
      · rw [Function.update_of_ne hqp]
        rw [if_neg (Ne.symm hqp)] at hq
        omega
    · rintro r hr'
      obtain rfl := Option.some.inj hr'
      exact ⟨hn, .inr ⟨_, hr, rfl, rfl⟩⟩
  | dropRef a p n s hr =>
    refine hi.recount _ _ (fun q => ?_) (fun r hr' => absurd hr' (Option.some_ne_none r).symm)
    have hq : _ + (if p = q then n else 0) = _ := count_dropRef hr q
    have hq' := hi.refCount q
    by_cases hqp : q = p
    · subst hqp
      rw [Function.update_self]
      rw [if_pos rfl] at hq
      omega
    · rw [Function.update_of_ne hqp]
      rw [if_neg (Ne.symm hqp)] at hq
      omega
  | pad p n =>
    refine { hi with refCount := fun q => Nat.le_trans (hi.refCount q) ?_ }
    show v.cnt q ≤ update v.cnt p (v.cnt p + n) q
    by_cases hqp : q = p
    · subst hqp
      rw [Function.update_self]
      omega
    · rw [Function.update_of_ne hqp]
  | unpad p n hok =>
    refine { hi with refCount := fun q => ?_ }
    show _ ≤ update v.cnt p (v.cnt p - n) q
    by_cases hqp : q = p
    · subst hqp
      rw [Function.update_self]
      exact Nat.le_sub_of_add_le (hc.cover v q n hok)
    · rw [Function.update_of_ne hqp]
      exact hi.refCount q
  | recount cnt ref hok => exact absurd hok hc.exact
  | reset tenant hp' hown => exact { hi with }
  | _ => exact { hi with }

end Counting

end GidsStack.Lib.PinCache
