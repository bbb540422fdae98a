/-
  GidsStack.Lib.Ledger

  A counter per page that many agents raise and lower in several steps each.
  An agent in some local state holds units that are counted, may owe units that
  exist but that it has yet to count, and may have yet to stop counting units
  that no longer exist.  The ledger is balanced when the counter and what is owed
  make up what is held, what is left over, and the units that belong to nobody.
-/

import GidsStack.Lib.Transition

namespace GidsStack.Lib

variable {A K P : Type*}

/-- What an agent in a local state has to do with the counter of its page. -/
structure Ledger (K P : Type*) where
  page : K → Option P
  held : K → Nat
  owed : K → Nat
  left : K → Nat

open Function (update)

variable [Fintype A] [DecidableEq P]

namespace Ledger

/-- An amount of local state `k`, if it is on page `p`. -/
def on (l : Ledger K P) (f : K → Nat) (p : P) (k : K) : Nat := if l.page k = some p then f k else 0

/-- The amounts of all agents on page `p`. -/
def total (l : Ledger K P) (f : K → Nat) (loc : A → K) (p : P) : Nat := ∑ a, l.on f p (loc a)

theorem on_le_total (l : Ledger K P) (f : K → Nat) (loc : A → K) (a : A) (p : P) :
    l.on f p (loc a) ≤ l.total f loc p :=
  Finset.single_le_sum (f := fun b => l.on f p (loc b)) (fun _ _ => Nat.zero_le _)
    (Finset.mem_univ a)

variable [DecidableEq A]

theorem total_update (l : Ledger K P) (f : K → Nat) (loc : A → K) (a : A) (k : K) (p : P) :
    l.total f (update loc a k) p + l.on f p (loc a) = l.total f loc p + l.on f p k :=
  sum_update_swap loc a k (l.on f p)

/-- On one page, a step of agent `a` to `k` leaves the ledger balanced exactly if it changes
    the counter and the free units by what it changes of the agent's own amounts. -/
theorem balanced_update_iff (l : Ledger K P) (loc : A → K) (a : A) (k : K) (p : P) {n f : Nat}
    (h : n + l.total l.owed loc p = f + l.total l.held loc p + l.total l.left loc p)
    (n' f' : Nat) :
    n' + l.total l.owed (update loc a k) p = f' + l.total l.held (update loc a k) p +
        l.total l.left (update loc a k) p ↔
      n' + l.on l.owed p k + f + l.on l.held p (loc a) + l.on l.left p (loc a) =
        n + l.on l.owed p (loc a) + f' + l.on l.held p k + l.on l.left p k := by
  have h1 := l.total_update l.owed loc a k p
  have h2 := l.total_update l.held loc a k p
  have h3 := l.total_update l.left loc a k p
  omega

end Ledger

end GidsStack.Lib
