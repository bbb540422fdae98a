/-
  GidsStack.Lib.PinCache.Assigned

  A leader that has its slot and has not stored it in the page yet.  It keeps its
  reference to the page, so that the page stays open or valid with the slot it was
  given; nothing is asked of the offsets that other agents read.
-/

import GidsStack.Lib.PinCache.Runs

namespace GidsStack.Lib.PinCache

variable {P S A : Type*}

/-- What a leader is about to store is the slot that its page was given. -/
def Assigned (v : Cache P S A) : Prop :=
  ∀ a p s, v.assigned a = some (p, s) → v.given p = some s ∧
    ∃ n gr, v.ref a = some ⟨p, n, gr⟩ ∧ (gr = .joined ∨ gr = .named s)

theorem Cache.Unused.assigned {v : Cache P S A} (h : v.Unused) : Assigned v := by
  intro a p s ha
  rw [(h.roles a).2.2.2.1] at ha
  cases ha

variable [DecidableEq P] [DecidableEq S] [DecidableEq A] {g : Guard P S A} {v w : Cache P S A}

open Function (update)

section Preservation

variable {P S A : Type*} {v w : Cache P S A}

/-- Changes by which nobody is assigned a slot, and the slots that were given and the
    references of those who were stay. -/
theorem Assigned.of_kept (hi : Assigned v)
    (ha : ∀ a p s, w.assigned a = some (p, s) → v.assigned a = some (p, s))
    (hg : ∀ a p s, v.assigned a = some (p, s) → w.given p = v.given p)
    (hr : ∀ a p s, v.assigned a = some (p, s) → w.ref a = v.ref a) : Assigned w := by
  intro a p s h
  have hold := ha a p s h
  rw [hg a p s hold, hr a p s hold]
  exact hi a p s hold

/-- A new reference of an agent that was assigned nothing. -/
theorem Assigned.regrip [DecidableEq A] (hi : Assigned v) {a : A} (r : Option (Ref P S))
    (ha : ∀ q s, v.assigned a ≠ some (q, s)) (cnt : P → Nat) :
    Assigned { v with cnt := cnt, ref := update v.ref a r } := by
  refine hi.of_kept (fun _ _ _ h => h) (fun _ _ _ _ => rfl) fun b q s h => ?_
  have hba : b ≠ a := by
    rintro rfl
    exact ha q s h
  exact Function.update_of_ne hba ..

/-- An agent with another grip than a leader's is assigned nothing. -/
theorem Assigned.unassigned (hi : Assigned v) {a : A} {r : Ref P S} (hr : v.ref a = some r)
    (hj : r.grip ≠ .joined) (hn : ∀ s, r.grip ≠ .named s) (q : P) (s : S) :
    v.assigned a ≠ some (q, s) := by
  intro h
  obtain ⟨-, n, gr, hr', hgr⟩ := hi a q s h
  obtain rfl := Option.some.inj (hr.symm.trans hr')
  rcases hgr with hgr | hgr
  · exact hj hgr
  · exact hn s hgr

end Preservation

/-- The step lemma. -/
theorem Step.assignedSlot [Fintype A] (hg : g.Owning) (he : ¬ g.recount) (ho : Owned v)
    (hc : Counted v) (hi : Assigned v) (h : Step g v w) : Assigned w := by
  cases h with
  | lead a p t hr hown hb hok =>
    -- no page that somebody was assigned a slot for can be led
    refine hi.of_kept (fun _ _ _ h => h) (fun b q s h => ?_) fun _ _ _ _ => rfl
    have hqp : q ≠ p := by
      rintro rfl
      obtain ⟨-, n, gr, hr', hgr⟩ := hi b q s h
      have hopen := hc.joined b _ hr' (by rcases hgr with rfl | rfl <;> simp)
      simp [ho.closed hb, hg.lead v q t hok] at hopen
    exact Function.update_of_ne hqp ..
  | assign a p t s hr hown hj =>
    have hnone := (ho.lead a p t hr).2.1
    intro b q r h
    rcases of_update_some h with ⟨rfl, hk⟩ | ⟨-, h⟩
    · cases t with
      | false => cases hk
      | true =>
        obtain ⟨rfl, rfl⟩ := Prod.mk.inj (Option.some.inj hk)
        obtain ⟨n, hn⟩ := hj rfl
        exact ⟨Function.update_self .., n, .joined, hn, .inl rfl⟩
    · obtain ⟨hgv, hrest⟩ := hi b q r h
      have hqp : q ≠ p := by
        rintro rfl
        cases hnone.symm.trans hgv
      exact ⟨(Function.update_of_ne hqp ..).trans hgv, hrest⟩
  | storeAssigned a p s hr =>
    exact hi.of_kept (fun _ _ _ h => (of_update_none h).2) (fun _ _ _ _ => rfl) fun _ _ _ _ => rfl
  | takeRef a p n hn hr =>
    refine hi.regrip _ (fun q s h => ?_) _
    obtain ⟨-, m, gr, hr', -⟩ := hi a q s h
    cases hr.symm.trans hr'
  | join a p n hr hl =>
    exact hi.regrip _ (hi.unassigned hr (by simp) (by simp)) v.cnt
  | aim a p n s hr has hof hs => exact hi.regrip _ (by simp [has]) v.cnt
  | unaim a p n s hr => exact hi.regrip _ (hi.unassigned hr (by simp) (by simp)) v.cnt
  | check a p n s hr ht => exact hi.regrip _ (hi.unassigned hr (by simp) (by simp)) v.cnt
  | receive a p n s hr hgv =>
    intro b q r h
    obtain ⟨hgv', m, gr, hr', hgr⟩ := hi b q r h
    refine ⟨hgv', ?_⟩
    by_cases hba : b = a
    · subst hba
      obtain ⟨rfl, rfl⟩ : p = q ∧ n = m := by
        have href := Option.some.inj (hr.symm.trans hr')
        exact ⟨congrArg Ref.page href, congrArg Ref.count href⟩
      refine ⟨n, .named s, Function.update_self .., .inr ?_⟩
      rw [Option.some.inj (hgv.symm.trans hgv')]
    · exact ⟨m, gr, (Function.update_of_ne hba ..).trans hr', hgr⟩
  | pin a p n gr hr has hpl hv hb => exact hi.regrip _ (by simp [has]) v.cnt
  | fix a p n s hr hof => exact hi.regrip _ (hi.unassigned hr (by simp) (by simp)) v.cnt
  | shrinkRef a p n m s hn hr => exact hi.regrip _ (hi.unassigned hr (by simp) (by simp)) _
  | dropRef a p n s hr => exact hi.regrip _ (hi.unassigned hr (by simp) (by simp)) _
  | recount cnt ref hok => exact absurd hok he
  | _ => exact fun a p s h => hi a p s h

/-- Runs whose guard places and covers, in which a leader stores its slot itself. -/
theorem run_assigned [Fintype A] (hg : g.Placing) (hc : g.Covering) (hi : Referenced v)
    (ha : Assigned v) (h : Relation.ReflTransGen (Step g) v w) : Referenced w ∧ Assigned w := by
  induction h with
  | refl => exact ⟨hi, ha⟩
  | tail _ h ih =>
    obtain ⟨hi, ha⟩ := ih
    exact ⟨h.referenced hg hc (fun a p s h => (ha a p s h).1) hi,
      h.assignedSlot hg.toOwning hc.exact hi.owned hi.counted ha⟩

end GidsStack.Lib.PinCache
