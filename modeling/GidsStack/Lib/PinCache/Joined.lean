/-
  GidsStack.Lib.PinCache.Joined

  What an agent that joins an open miss finds out.  It reads a slot from the
  offset of the page and takes it for the page's slot when the slot's tenant is
  the page.  The offset may still be the one of an earlier stay; but as long as
  no page is led whose offset names a slot that still has it as its tenant, a
  slot that passes the test is the one given to the page in this very miss.
-/

import GidsStack.Lib.PinCache.Counted

namespace GidsStack.Lib.PinCache

variable {P S A : Type*}

/-- The current miss of page `p` was given slot `s`, or its leader has just
    written the page into it. -/
def Cache.Named (v : Cache P S A) (p : P) (s : S) : Prop :=
  v.given p = some s ∨
    ∃ b t, v.leading b = some (p, t) ∧ v.own b = some ⟨s, .written⟩

/-- If slot `s` has page `p` as its tenant then in the current miss. -/
def Cache.Current (v : Cache P S A) (p : P) (s : S) : Prop := v.tenant s = some p → v.Named p s

/-- What an agent has read of a page's slot, and what it is about to store, belongs
    to the page's current miss. -/
structure Joined (g : Guard P S A) (v : Cache P S A) : Prop where
  offset : ∀ p, v.leader p ≠ none ∨ v.valid p = true →
    v.offset p = g.nowhere ∨ v.Current p (v.offset p)
  aimed : ∀ a r s, v.ref a = some r → r.grip = .aimed s → v.Current r.page s
  named : ∀ a r s, v.ref a = some r → r.grip = .named s → v.Named r.page s
  assigned : ∀ a p s, v.assigned a = some (p, s) → v.given p = some s ∧
    ∃ n gr, v.ref a = some ⟨p, n, gr⟩ ∧ (gr = .joined ∨ gr = .named s)
  polled : ∀ a k, v.polling a = some k → ∃ n, v.ref a = some ⟨k.page, n, .named k.slot⟩

/-- Nobody leads a page whose offset names a slot that has it as its tenant, and
    whoever takes on a publication found out the slot before. -/
structure Guard.Aiming (g : Guard P S A) : Prop extends g.Owning where
  exact : ¬ g.recount
  stale : ∀ v p t, g.lead v p t → v.offset p = g.nowhere ∨ v.tenant (v.offset p) ≠ some p
  hold : ∀ v a p s, g.win v a p s → ∃ n, v.ref a = some ⟨p, n, .named s⟩

/-- A slot an agent has found out, of a miss that has its slot, is that slot. -/
theorem Cache.Named.given_eq {v : Cache P S A} (ho : Owned v) {p : P} {s : S} (h : v.Named p s)
    (hg : v.given p ≠ none) : v.given p = some s := by
  obtain h | ⟨b, t, hb, -⟩ := h
  · exact h
  · exact absurd (ho.lead b p t hb).2.1 hg

variable [DecidableEq P] [DecidableEq S] [DecidableEq A]

open Function (update)

section Preservation

variable {P S A : Type*} {g : Guard P S A} {v w : Cache P S A}

/-- Changes that leave the slots and the agents' knowledge of them alone. -/
theorem Joined.of_named (hi : Joined g v) (hn : ∀ p s, v.Named p s → w.Named p s)
    (ht : w.tenant = v.tenant) (hoff : w.offset = v.offset)
    (hlive : ∀ p, w.leader p ≠ none ∨ w.valid p = true → v.leader p ≠ none ∨ v.valid p = true)
    (href : w.ref = v.ref) (ha : w.assigned = v.assigned)
    (hg : ∀ p s, v.given p = some s → w.given p = some s)
    (hp : ∀ a k, w.polling a = some k → ∃ l, v.polling a = some l ∧ l.page = k.page ∧
      l.slot = k.slot) : Joined g w := by
  have hcur : ∀ {p s}, v.Current p s → w.Current p s := by
    intro p s h htw
    rw [ht] at htw
    exact hn p s (h htw)
  refine ⟨fun p h => ?_, fun a r s hr hgr => ?_, fun a r s hr hgr => ?_, fun a p s has => ?_,
    fun a k hk => ?_⟩
  · rw [hoff]
    exact (hi.offset p (hlive p h)).imp_right hcur
  · rw [href] at hr
    exact hcur (hi.aimed a r s hr hgr)
  · rw [href] at hr
    exact hn _ _ (hi.named a r s hr hgr)
  · rw [ha] at has
    rw [href]
    exact (hi.assigned a p s has).imp_left (hg p s)
  · obtain ⟨l, hl, hpage, hslot⟩ := hp a k hk
    rw [href, ← hpage, ← hslot]
    exact hi.polled a l hl

/-- A new grip of agent `a`. -/
theorem Joined.regrip [DecidableEq A]
    (hi : Joined g v) {a : A} {p : P} {n : Nat} {gr : Grip S} (gr' : Grip S)
    (hr : v.ref a = some ⟨p, n, gr⟩)
    (hassigned : ∀ q s, v.assigned a = some (q, s) → gr' = .named s)
    (hpoll : v.polling a = none) (haim : ∀ s, gr' = .aimed s → v.Current p s)
    (hname : ∀ s, gr' = .named s → v.Named p s) :
    Joined g { v with ref := update v.ref a (some ⟨p, n, gr'⟩) } := by
  refine { hi with
    aimed := fun b r s h hgr => ?_, named := fun b r s h hgr => ?_,
    assigned := fun b q s h => ?_, polled := fun b k h => ?_ }
  · rcases of_update_some h with ⟨-, hk⟩ | ⟨-, h⟩
    · obtain rfl := Option.some.inj hk
      exact haim s hgr
    · exact hi.aimed b r s h hgr
  · rcases of_update_some h with ⟨-, hk⟩ | ⟨-, h⟩
    · obtain rfl := Option.some.inj hk
      exact hname s hgr
    · exact hi.named b r s h hgr
  · obtain ⟨hgv, m, gr'', hb, hgr⟩ := hi.assigned b q s h
    refine ⟨hgv, ?_⟩
    by_cases hba : b = a
    · subst hba
      obtain rfl : p = q := congrArg Ref.page (Option.some.inj (hr.symm.trans hb))
      exact ⟨n, gr', Function.update_self .., .inr (hassigned p s h)⟩
    · exact ⟨m, gr'', (Function.update_of_ne hba _ v.ref).trans hb, hgr⟩
  · have hba : b ≠ a := by
      rintro rfl
      cases hpoll.symm.trans h
    obtain ⟨m, hm⟩ := hi.polled b k h
    exact ⟨m, (Function.update_of_ne hba _ v.ref).trans hm⟩

/-- An agent that does not know a slot yet is not publishing. -/
theorem Joined.unpolled (hi : Joined g v) {a : A} {r : Ref P S} (hr : v.ref a = some r)
    (hg : ∀ s, r.grip ≠ .named s) : v.polling a = none := by
  rw [Option.eq_none_iff_forall_ne_some]
  rintro k h
  obtain ⟨n, hn⟩ := hi.polled a k h
  exact hg k.slot (by rw [hr] at hn; cases hn; rfl)

/-- An agent that has not joined, or has read a slot without finding it out, is
    not the leader of its page. -/
theorem Joined.unassigned (hi : Joined g v) {a : A} {r : Ref P S} (hr : v.ref a = some r)
    (hg : r.grip ≠ .joined) (hg' : ∀ s, r.grip ≠ .named s) (q : P) (s : S) :
    v.assigned a ≠ some (q, s) := by
  intro h
  obtain ⟨-, n, gr, hn, rfl | rfl⟩ := hi.assigned a q s h
  · exact hg (by rw [hr] at hn; cases hn; rfl)
  · exact hg' s (by rw [hr] at hn; cases hn; rfl)

/-- A new reference, or the end of one whose agent knows the page's slot for good. -/
theorem Joined.recount [DecidableEq A]
    (hi : Joined g v) {a : A} (cnt : P → Nat) (r : Option (Ref P S))
    (hold : ∀ r, v.ref a = some r → r.grip ≠ .joined ∧ ∀ s, r.grip ≠ .named s)
    (hnew : ∀ r', r = some r' → ∀ s, r'.grip ≠ .aimed s ∧ r'.grip ≠ .named s) :
    Joined g { v with cnt := cnt, ref := update v.ref a r } := by
  refine { hi with
    aimed := fun b r' s h hgr => ?_, named := fun b r' s h hgr => ?_,
    assigned := fun b q s h => ?_, polled := fun b k h => ?_ }
  · rcases of_update_some h with ⟨-, hk⟩ | ⟨-, h⟩
    · exact absurd hgr (hnew r' hk s).1
    · exact hi.aimed b r' s h hgr
  · rcases of_update_some h with ⟨-, hk⟩ | ⟨-, h⟩
    · exact absurd hgr (hnew r' hk s).2
    · exact hi.named b r' s h hgr
  · obtain ⟨hgv, m, gr, hb, hgr⟩ := hi.assigned b q s h
    have hba : b ≠ a := by
      rintro rfl
      rcases hgr with rfl | rfl
      · exact (hold _ hb).1 rfl
      · exact (hold _ hb).2 s rfl
    exact ⟨hgv, m, gr, (Function.update_of_ne hba _ v.ref).trans hb, hgr⟩
  · obtain ⟨m, hm⟩ := hi.polled b k h
    have hba : b ≠ a := by
      rintro rfl
      exact (hold _ hm).2 k.slot rfl
    exact ⟨m, (Function.update_of_ne hba _ v.ref).trans hm⟩

/-- A page that is being led has no agent that joined an earlier miss of it. -/
theorem Joined.lead [DecidableEq P] [DecidableEq A]
    (hi : Joined g v) (ho : Owned v) (hj : ∀ a r, v.ref a = some r →
      r.grip ≠ .raised → v.valid r.page = true ∨ v.leader r.page ≠ none)
    {a : A} {p : P} (t : Bool) (hr : v.leading a = none)
    (hb : v.busy p = false) (hv : v.valid p = false)
    (hs : v.offset p = g.nowhere ∨ v.tenant (v.offset p) ≠ some p) (c d : P → Nat) (sh : P → Bool) :
    Joined g { v with
      busy := update v.busy p true
      leader := update v.leader p (some a)
      shared := sh
      given := update v.given p none
      consumed := c
      published := d
      leading := update v.leading a (some (p, t)) } := by
  have hl : v.leader p = none := (ho.openIff p).mpr (.inl hb)
  have hfree : ∀ b r, v.ref b = some r → r.grip ≠ .raised → r.page ≠ p := by
    rintro b r hbr hgr rfl
    have h := hj b r hbr hgr
    simp [hl, hv] at h
  -- of another page the same is known
  have hnamed : ∀ {q s}, q ≠ p → v.Named q s → update v.given p none q = some s ∨
      ∃ b u, update v.leading a (some (p, t)) b = some (q, u) ∧
        v.own b = some ⟨s, .written⟩ := by
    intro q s hqp h
    rcases h with hgv | ⟨b, u, hb, hown⟩
    · exact .inl ((Function.update_of_ne hqp _ v.given).trans hgv)
    · have hba : b ≠ a := by
        rintro rfl
        cases hr.symm.trans hb
      exact .inr ⟨b, u, (Function.update_of_ne hba _ v.leading).trans hb, hown⟩
  refine { hi with
    offset := fun q h => ?_, aimed := fun b r s h hgr htq => ?_,
    named := fun b r s h hgr => ?_, assigned := fun b q s h => ?_ }
  · by_cases hqp : q = p
    · rw [hqp]
      exact hs.imp_right fun hne htp => absurd htp hne
    · have hold := hi.offset q (h.imp_left (Function.update_of_ne hqp _ v.leader).symm.trans_ne)
      exact hold.imp_right fun hcur htq => hnamed hqp (hcur htq)
  · exact hnamed (hfree b r h (by simp [hgr])) (hi.aimed b r s h hgr htq)
  · exact hnamed (hfree b r h (by simp [hgr])) (hi.named b r s h hgr)
  · obtain ⟨hgv, m, gr, hb, hgr⟩ := hi.assigned b q s h
    have hqp : q ≠ p := hfree b _ hb (by rcases hgr with rfl | rfl <;> simp)
    exact ⟨(Function.update_of_ne hqp _ v.given).trans hgv, m, gr, hb, hgr⟩

/-- An owner that has not written the tenant may go on without a page losing its slot. -/
theorem Cache.Named.of_own [DecidableEq A]
    {p : P} {s : S} (h : v.Named p s) {a : A} (o : Option (Own P S))
    (ha : ∀ r, v.own a ≠ some ⟨r, .written⟩) : v.given p = some s ∨
      ∃ b t, v.leading b = some (p, t) ∧ update v.own a o b = some ⟨s, .written⟩ := by
  rcases h with hgv | ⟨b, t, hb, hown⟩
  · exact .inl hgv
  · have hba : b ≠ a := by
      rintro rfl
      exact ha s hown
    exact .inr ⟨b, t, hb, (Function.update_of_ne hba _ v.own).trans hown⟩

/-- A slot stored into the offset of a page that it was found out to be the slot of. -/
theorem Joined.store [DecidableEq P] (hi : Joined g v) {p : P} {s : S} (hn : v.Named p s)
    (asg : A → Option (P × S)) (sv : A → Option (Serve P S)) (pl : A → Option (Poll P S))
    (hasg : ∀ b k, asg b = some k → v.assigned b = some k)
    (hpl : ∀ b k, pl b = some k → ∃ l, v.polling b = some l ∧ l.page = k.page ∧
      l.slot = k.slot) :
    Joined g { v with
      offset := update v.offset p s, assigned := asg, serving := sv, polling := pl } := by
  refine { hi with
    offset := fun q h => ?_, assigned := fun b q r h => hi.assigned b q r (hasg b _ h),
    polled := fun b k h => ?_ }
  · show update v.offset p s q = g.nowhere ∨ v.Current q (update v.offset p s q)
    by_cases hqp : q = p
    · rw [hqp, Function.update_self]
      exact .inr fun _ => hn
    · rw [Function.update_of_ne hqp]
      exact hi.offset q h
  · obtain ⟨l, hl, hpage, hslot⟩ := hpl b k h
    rw [← hpage, ← hslot]
    exact hi.polled b l hl

/-- The publication of an open miss. -/
theorem Joined.publish [DecidableEq P]
    (hi : Joined g v) {p : P} (hl : v.leader p ≠ none) (busy : P → Bool)
    (pub : P → Nat) (sv : A → Option (Serve P S)) (pl : A → Option (Poll P S))
    (hpl : ∀ b k, pl b = some k → v.polling b = some k) :
    Joined g { v with
      valid := update v.valid p (!v.valid p)
      busy := busy
      leader := update v.leader p none
      published := pub
      serving := sv
      polling := pl } := by
  refine hi.of_named (fun _ _ h => h) rfl rfl (fun q h => ?_) rfl rfl (fun _ _ h => h)
    fun b k h => ⟨k, hpl b k h, rfl, rfl⟩
  by_cases hqp : q = p
  · rw [hqp]
    exact .inl hl
  · exact h.imp (Function.update_of_ne hqp _ v.leader).symm.trans_ne
      (Function.update_of_ne hqp _ v.valid).symm.trans

theorem Joined.settle [DecidableEq S] [DecidableEq A]
    (hi : Joined g v) {a : A} {p : P} {t : Bool} {s : S}
    (hr : v.leading a = some (p, t)) (hown : v.own a = some ⟨s, .fresh⟩) :
    Joined g { v with
      tenant := update v.tenant s (some p)
      own := update v.own a (some ⟨s, .written⟩) } := by
  have hown' : ∀ r, v.own a ≠ some ⟨r, .written⟩ := fun _ h => by cases hown.symm.trans h
  have hcur : ∀ {q r}, v.Current q r → update v.tenant s (some p) r = some q →
      v.given q = some r ∨ ∃ b u, v.leading b = some (q, u) ∧
        update v.own a (some ⟨s, .written⟩) b = some ⟨r, .written⟩ := by
    intro q r h htq
    by_cases hrs : r = s
    · subst hrs
      obtain rfl := Option.some.inj ((Function.update_self r _ v.tenant).symm.trans htq)
      exact .inr ⟨a, t, hr, Function.update_self ..⟩
    · exact (h ((Function.update_of_ne hrs _ v.tenant).symm.trans htq)).of_own _ hown'
  refine { hi with
    offset := fun q h => ?_, aimed := fun b r s' h hgr htq => ?_,
    named := fun b r s' h hgr => ?_ }
  · exact (hi.offset q h).imp_right fun h => hcur h
  · exact hcur (hi.aimed b r s' h hgr) htq
  · exact (hi.named b r s' h hgr).of_own _ hown'

/-- A slot for a miss, which its leader knew already. -/
theorem Joined.assign [DecidableEq P] [DecidableEq A]
    (hi : Joined g v) {a : A} {p : P} {t : Bool} {s : S}
    (hr : v.leading a = some (p, t)) (hown : v.own a = some ⟨s, .written⟩)
    (hgv : v.given p = none) (hj : t = true → ∃ n, v.ref a = some ⟨p, n, .joined⟩)
    (lock : S → SlotLock) (sv : A → Option (Serve P S)) :
    Joined g { v with
      lock := lock
      given := update v.given p (some s)
      own := update v.own a none
      leading := update v.leading a none
      assigned := update v.assigned a (if t then some (p, s) else none)
      serving := sv } := by
  have hgiven : ∀ {q r}, v.given q = some r → update v.given p (some s) q = some r := by
    intro q r h
    have hqp : q ≠ p := by
      rintro rfl
      cases hgv.symm.trans h
    exact (Function.update_of_ne hqp _ v.given).trans h
  have hnamed : ∀ {q r}, v.Named q r → update v.given p (some s) q = some r ∨
      ∃ b u, update v.leading a none b = some (q, u) ∧
        update v.own a none b = some ⟨r, .written⟩ := by
    intro q r h
    rcases h with h | ⟨b, u, hb, ho⟩
    · exact .inl (hgiven h)
    · by_cases hba : b = a
      · subst hba
        obtain ⟨rfl, -⟩ := Prod.mk.inj (Option.some.inj (hr.symm.trans hb))
        obtain rfl := congrArg Own.slot (Option.some.inj (hown.symm.trans ho))
        exact .inl (Function.update_self ..)
      · exact .inr ⟨b, u, (Function.update_of_ne hba _ v.leading).trans hb,
          (Function.update_of_ne hba _ v.own).trans ho⟩
  refine { hi with
    offset := fun q h => ?_, aimed := fun b r s' h hgr htq => ?_,
    named := fun b r s' h hgr => ?_, assigned := fun b q s' h => ?_ }
  · exact (hi.offset q h).imp_right fun hcur htq => hnamed (hcur htq)
  · exact hnamed (hi.aimed b r s' h hgr htq)
  · exact hnamed (hi.named b r s' h hgr)
  · rcases of_update_some h with ⟨rfl, hk⟩ | ⟨-, h⟩
    · cases t with
      | false => cases hk
      | true =>
        obtain ⟨rfl, rfl⟩ := Prod.mk.inj (Option.some.inj hk)
        obtain ⟨n, hn⟩ := hj rfl
        exact ⟨Function.update_self .., n, .joined, hn, .inl rfl⟩
    · exact (hi.assigned b q s' h).imp_left hgiven

end Preservation

/-- The step lemma: nobody takes the slot of an earlier stay of a page for the one
    of its current miss. -/
theorem Step.joined [Fintype A] {g : Guard P S A} (hg : g.Aiming) {v w : Cache P S A}
    (ho : Owned v) (hc : Counted v) (hi : Joined g v) (h : Step g v w) : Joined g w := by
  have hsame : ∀ (b : A) (k : Poll P S), v.polling b = some k →
      ∃ l, v.polling b = some l ∧ l.page = k.page ∧ l.slot = k.slot :=
    fun _ k h => ⟨k, h, rfl, rfl⟩
  cases h with
  | lead a p t hr hown hb hok =>
    exact hi.lead ho hc.joined t hr hb (hg.lead v p t hok) (hg.stale v p t hok) _ _ _
  | unset a p t hr =>
    refine { hi with offset := fun q h => ?_ }
    by_cases hqp : q = p
    · rw [hqp]
      exact .inl (Function.update_self ..)
    · show update v.offset p g.nowhere q = g.nowhere ∨
        v.Current q (update v.offset p g.nowhere q)
      rw [Function.update_of_ne hqp]
      exact hi.offset q h
  | grabFree a s hr hown hl =>
    exact hi.of_named (fun _ _ h => h.of_own _ fun _ ho => by cases hown.symm.trans ho) rfl rfl
      (fun _ h => h) rfl rfl (fun _ _ h => h) hsame
  | grabUsed a s hr hown hl =>
    exact hi.of_named (fun _ _ h => h.of_own _ fun _ ho => by cases hown.symm.trans ho) rfl rfl
      (fun _ h => h) rfl rfl (fun _ _ h => h) hsame
  | look a q s hown ht =>
    exact hi.of_named (fun _ _ h => h.of_own _ fun _ ho => by cases hown.symm.trans ho) rfl rfl
      (fun _ h => h) rfl rfl (fun _ _ h => h) hsame
  | evicted a q s hown ht =>
    refine hi.of_named (fun _ _ h => h.of_own _ fun _ ho => by cases hown.symm.trans ho) rfl rfl
      (fun p h => ?_) rfl rfl (fun _ _ h => h) hsame
    refine h.imp_right fun hv => ?_
    have hpq : p ≠ q := by
      rintro rfl
      cases (Function.update_self ..).symm.trans hv
    exact (Function.update_of_ne hpq _ v.valid).symm.trans hv
  | giveUp a q s hown ht =>
    exact hi.of_named (fun _ _ h => h.of_own _ fun _ ho => by cases hown.symm.trans ho) rfl rfl
      (fun _ h => h) rfl rfl (fun _ _ h => h) hsame
  | settle a p t s hr hown => exact hi.settle hr hown
  | assign a p t s hr hown hj => exact hi.assign hr hown (ho.lead a p t hr).2.1 hj _ _
  | storeAssigned a p s hr =>
    exact hi.store (.inl (hi.assigned a p s hr).1) _ _ _ (fun _ _ h => (of_update_none h).2) hsame
  | storeServed a p s hr =>
    exact hi.store (.inl (ho.serve a _ hr).2.1) _ _ _ (fun _ _ h => h) hsame
  | publishServed a p s hr =>
    have hl := (ho.serve a _ hr).1.trans_ne (Option.some_ne_none a)
    exact hi.publish hl _ _ _ _ fun _ _ h => h
  | win a p s hr hok =>
    refine { hi with polled := fun b k h => ?_ }
    rcases of_update_some h with ⟨rfl, hk⟩ | ⟨-, h⟩
    · obtain rfl := Option.some.inj hk
      exact hg.hold v b p s hok
    · exact hi.polled b k h
  | lose a p s hr =>
    exact { hi with polled := fun b k h => hi.polled b k (of_update_none h).2 }
  | consume a p s hr =>
    refine { hi with polled := fun b k h => ?_ }
    rcases of_update_some h with ⟨rfl, hk⟩ | ⟨-, h⟩
    · obtain rfl := Option.some.inj hk
      exact hi.polled b ⟨p, s, .waits⟩ hr
    · exact hi.polled b k h
  | storePolled a p s hr =>
    obtain ⟨n, hn⟩ := hi.polled a _ hr
    refine hi.store (hi.named a _ s hn rfl) _ _ _ (fun _ _ h => h) fun b k h => ?_
    rcases of_update_some h with ⟨rfl, hk⟩ | ⟨-, h⟩
    · obtain rfl := Option.some.inj hk
      exact ⟨_, hr, rfl, rfl⟩
    · exact hsame b k h
  | publishPolled a p s hr =>
    exact hi.publish (ho.poll a _ hr).1 _ _ _ _ fun _ _ h => (of_update_none h).2
  | takeRef a p n hn hr =>
    exact hi.recount _ _ (by simp [hr]) (by rintro r' ⟨⟩ s; simp)
  | join a p n hr hl =>
    have hna := hi.unassigned hr (by simp) (by simp)
    exact hi.regrip .joined hr (fun q s h => absurd h (hna q s)) (hi.unpolled hr (by simp))
      (by simp) (by simp)
  | aim a p n s hr has hof hs =>
    refine hi.regrip (.aimed s) hr (by simp [has]) (hi.unpolled hr (by simp)) ?_ (by simp)
    rintro s' ⟨⟩
    subst hof
    exact (hi.offset p (hc.joined a _ hr (by simp)).symm).resolve_left hs
  | unaim a p n s hr =>
    have hna := hi.unassigned hr (by simp) (by simp)
    exact hi.regrip .joined hr (fun q s h => absurd h (hna q s)) (hi.unpolled hr (by simp))
      (by simp) (by simp)
  | check a p n s hr ht =>
    have hna := hi.unassigned hr (by simp) (by simp)
    refine hi.regrip (.named s) hr (fun q s h => absurd h (hna q s)) (hi.unpolled hr (by simp))
      (by simp) ?_
    rintro s' ⟨⟩
    exact hi.aimed a _ s hr rfl ht
  | receive a p n s hr hgv =>
    refine hi.regrip (.named s) hr ?_ (hi.unpolled hr (by simp)) (by simp)
      (by rintro s' ⟨⟩; exact .inl hgv)
    intro q s' h
    obtain ⟨hgv', n', gr, hr', -⟩ := hi.assigned a q s' h
    obtain rfl : p = q := congrArg Ref.page (Option.some.inj (hr.symm.trans hr'))
    exact congrArg Grip.named (Option.some.inj (hgv.symm.trans hgv'))
  | pin a p n gr hr has hpl hv hb =>
    exact hi.regrip .pinned hr (by simp [has]) hpl (by simp) (by simp)
  | fix a p n s hr hof =>
    have hna := hi.unassigned hr (by simp) (by simp)
    exact hi.regrip (.fixed s) hr (fun q s h => absurd h (hna q s)) (hi.unpolled hr (by simp))
      (by simp) (by simp)
  | shrinkRef a p n m s hn hr =>
    exact hi.recount _ _ (by simp [hr]) (by rintro r' ⟨⟩ s'; simp)
  | dropRef a p n s hr => exact hi.recount _ _ (by simp [hr]) (by simp)
  | recount cnt ref hok => exact absurd hok hg.exact
  | reset tenant hp hown =>
    have hnone : ∀ a r, v.ref a = some r → r.grip = .raised := by
      intro a r hr
      by_contra hgr
      have h := hc.joined a r hr hgr
      simp [hp] at h
    have hclosed : ∀ p, ¬ (v.leader p ≠ none ∨ v.valid p = true) := by
      rintro p (hl | hv)
      · exact hl (hp p).2
      · cases (hp p).1.symm.trans hv
    exact { hi with
      offset := fun p h => absurd h (hclosed p)
      aimed := fun a r s h hgr => by cases (hnone a r h).symm.trans hgr
      named := fun a r s h hgr => by cases (hnone a r h).symm.trans hgr }
  | _ => exact { hi with }

end GidsStack.Lib.PinCache
