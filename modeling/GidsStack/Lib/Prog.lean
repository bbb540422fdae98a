/-
  GidsStack.Lib.Prog

  Programs with a state, exceptions and loops, and rules for what they do.

  A program maps a state to an outcome and a state; an exception keeps the state reached
  when it was raised.  Loops carry fuel, and `none` is a loop that has used it up, so
  `Returns` is total correctness: the program ends, raises nothing, and its result and final
  state are as stated.  `Returns.loop` asks for an invariant and a measure that fuel has to
  exceed; a loop whose body always goes on comes to no end (`Fails.loop`).
-/

import Mathlib

namespace GidsStack

def Prog (E S A : Type) : Type := S → Option (Except E A × S)

namespace Prog

variable {E S A B : Type}

/-! ## Programs -/

protected def pure (a : A) : Prog E S A := fun s => some (.ok a, s)

protected def bind (p : Prog E S A) (f : A → Prog E S B) : Prog E S B := fun s =>
  match p s with
  | none => none
  | some (.error e, s) => some (.error e, s)
  | some (.ok a, s) => f a s

instance : Monad (Prog E S) where
  pure := Prog.pure
  bind := Prog.bind

def get : Prog E S S := fun s => some (.ok s, s)

def modify (f : S → S) : Prog E S Unit := fun s => some (.ok (), f s)

def throw (e : E) : Prog E S A := fun s => some (.error e, s)

/-- A value computed before, or the exception that came instead. -/
def lift (x : Except E A) : Prog E S A := fun s => some (x, s)

/-- `while True`: `body` gives the local state of the next round, or breaks with a value. -/
def loop {X : Type} (body : X → Prog E S (X ⊕ A)) : Nat → X → Prog E S A
  | 0, _ => fun _ => none
  | fuel + 1, x => do
    match ← body x with
    | .inl y => loop body fuel y
    | .inr a => pure a

/-- `for x in l`, with the results collected. -/
def forEach {X : Type} (body : X → Prog E S A) : List X → Prog E S (List A)
  | [] => pure []
  | x :: l => do
    let a ← body x
    let rest ← forEach body l
    pure (a :: rest)

/-- `for a in it`: what `next` returns until it raises an exception that means the end. -/
def collect (isStop : E → Bool) : Nat → Prog E S A → Prog E S (List A)
  | 0, _ => fun _ => none
  | fuel + 1, next => fun s =>
    match next s with
    | none => none
    | some (.error e, s) => if isStop e then some (.ok [], s) else some (.error e, s)
    | some (.ok a, s) => (do
        let rest ← collect isStop fuel next
        pure (a :: rest)) s

/-- `for a in it` with a break after `n` elements. -/
def takeUpTo (isStop : E → Bool) (next : Prog E S A) : Nat → Prog E S (List A)
  | 0 => pure []
  | n + 1 => fun s =>
    match next s with
    | none => none
    | some (.error e, s) => if isStop e then some (.ok [], s) else some (.error e, s)
    | some (.ok a, s) => (do
        let rest ← takeUpTo isStop next n
        pure (a :: rest)) s

/-- A program over a state that is made for it, and of which `leave` stays behind. -/
def within {S' : Type} (enter : S → S') (leave : S' → S) (p : Prog E S' A) (result : A → S' → B) :
    Prog E S B := fun s =>
  match p (enter s) with
  | none => none
  | some (.error e, t) => some (.error e, leave t)
  | some (.ok a, t) => some (.ok (result a t), leave t)

/-! ## Returning -/

/-- From `s` the program returns, and what it returns and leaves behind satisfies `Q`. -/
def Returns (p : Prog E S A) (s : S) (Q : A → S → Prop) : Prop :=
  ∃ a t, p s = some (.ok a, t) ∧ Q a t

theorem Returns.mono {p : Prog E S A} {s : S} {Q R : A → S → Prop} (h : p.Returns s Q)
    (hQR : ∀ a t, Q a t → R a t) : p.Returns s R := by
  obtain ⟨a, t, hp, hq⟩ := h
  exact ⟨a, t, hp, hQR a t hq⟩

theorem returns_pure {a : A} {s : S} {Q : A → S → Prop} (h : Q a s) :
    Returns (pure a : Prog E S A) s Q :=
  ⟨a, s, rfl, h⟩

theorem bind_of_ok {p : Prog E S A} {f : A → Prog E S B} {s t : S} {a : A}
    (h : p s = some (.ok a, t)) : (p >>= f) s = f a t := by
  show Prog.bind p f s = _
  rw [Prog.bind, h]

theorem Returns.bind {p : Prog E S A} {f : A → Prog E S B} {s : S} {Q : A → S → Prop}
    {R : B → S → Prop} (hp : p.Returns s Q) (hf : ∀ a t, Q a t → (f a).Returns t R) :
    (p >>= f).Returns s R := by
  obtain ⟨a, t, hpa, hq⟩ := hp
  obtain ⟨b, u, hfb, hr⟩ := hf a t hq
  exact ⟨b, u, by rw [bind_of_ok hpa, hfb], hr⟩

/-- After a program that returns, a run is that of the rest. -/
theorem returns_bind_iff {p : Prog E S A} {f : A → Prog E S B} {s t : S} {a : A}
    {Q : B → S → Prop} (h : p s = some (.ok a, t)) :
    (p >>= f).Returns s Q ↔ (f a).Returns t Q := by
  rw [Returns, Returns, bind_of_ok h]

theorem returns_map_iff {p : Prog E S A} {f : A → B} {s : S} {Q : B → S → Prop} :
    (p >>= fun a => pure (f a)).Returns s Q ↔ p.Returns s fun a t => Q (f a) t := by
  apply Iff.intro
  · rintro ⟨b, u, hrun, hq⟩
    replace hrun : Prog.bind p (fun a => Prog.pure (f a)) s = some (.ok b, u) := hrun
    rw [Prog.bind] at hrun
    cases hp : p s with
    | none =>
      rw [hp] at hrun
      cases hrun
    | some r =>
      obtain ⟨x, t⟩ := r
      rw [hp] at hrun
      cases x with
      | error e => cases hrun
      | ok a =>
        cases hrun
        exact ⟨a, _, hp, hq⟩
  · intro h
    apply h.bind
    intro a t hq
    exact returns_pure hq

theorem Returns.within {S' : Type} {enter : S → S'} {leave : S' → S} {p : Prog E S' A} {s : S}
    {result : A → S' → B} {Q : B → S → Prop}
    (h : p.Returns (enter s) fun a t => Q (result a t) (leave t)) :
    (within enter leave p result).Returns s Q := by
  obtain ⟨a, t, hp, hq⟩ := h
  exact ⟨result a t, leave t, by rw [Prog.within, hp], hq⟩

theorem returns_get_bind {f : S → Prog E S B} {s : S} {Q : B → S → Prop}
    (h : (f s).Returns s Q) : (get >>= f).Returns s Q := by
  obtain ⟨b, t, hb, hq⟩ := h
  exact ⟨b, t, hb, hq⟩

theorem returns_modify {f : S → S} {s : S} {Q : Unit → S → Prop} (h : Q () (f s)) :
    Returns (modify f : Prog E S Unit) s Q :=
  ⟨(), f s, rfl, h⟩

theorem returns_modify_bind {f : S → S} {g : Unit → Prog E S B} {s : S} {Q : B → S → Prop}
    (h : (g ()).Returns (f s) Q) : (modify f >>= g).Returns s Q := by
  obtain ⟨b, t, hb, hq⟩ := h
  exact ⟨b, t, hb, hq⟩

theorem returns_lift_bind {x : Except E A} {f : A → Prog E S B} {a : A} {s : S}
    {Q : B → S → Prop} (hx : x = .ok a) (h : (f a).Returns s Q) : (lift x >>= f).Returns s Q := by
  subst hx
  obtain ⟨b, t, hb, hq⟩ := h
  exact ⟨b, t, hb, hq⟩

/-- A loop whose body keeps `Inv` and lowers `measure` until it breaks. -/
theorem Returns.loop {X : Type} {body : X → Prog E S (X ⊕ A)} {Q : A → S → Prop}
    (Inv : X → S → Prop) (measure : X → S → Nat)
    (hbody : ∀ x s, Inv x s → (body x).Returns s fun o t =>
      match o with
      | .inl y => Inv y t ∧ measure y t < measure x s
      | .inr a => Q a t)
    (fuel : Nat) {x : X} {s : S} (hinv : Inv x s) (hfuel : measure x s < fuel) :
    (loop body fuel x).Returns s Q := by
  induction fuel generalizing x s with
  | zero => omega
  | succ fuel ih =>
    rw [Prog.loop]
    apply (hbody x s hinv).bind
    intro o t ho
    cases o with
    | inl y => exact ih ho.1 (by omega)
    | inr a => exact returns_pure ho

/-- `Inv l as` is what holds when the elements of `l` remain and `as` are the results. -/
theorem Returns.forEach {X : Type} {body : X → Prog E S A} (Inv : List X → List A → S → Prop)
    (l : List X)
    (hbody : ∀ x rest as s, Inv (x :: rest) as s →
      (body x).Returns s fun a t => Inv rest (as ++ [a]) t)
    {a : List A} {s : S} (hinv : Inv l a s) :
    (forEach body l).Returns s fun bs t => Inv [] (a ++ bs) t := by
  induction l generalizing a s with
  | nil => exact returns_pure (by rw [List.append_nil]; exact hinv)
  | cons x l ih =>
    rw [Prog.forEach]
    apply (hbody x l a s hinv).bind
    intro b t ht
    apply (ih ht).bind
    intro bs u hu
    apply returns_pure
    rw [List.append_assoc] at hu
    exact hu

/-! ## Raising -/

/-- From `s` the program raises `e`, and what it leaves behind satisfies `Q`. -/
def Raises (p : Prog E S A) (s : S) (e : E) (Q : S → Prop) : Prop :=
  ∃ t, p s = some (.error e, t) ∧ Q t

theorem raises_throw {e : E} {s : S} {Q : S → Prop} (h : Q s) :
    Raises (throw e : Prog E S A) s e Q :=
  ⟨s, rfl, h⟩

theorem Raises.bind {p : Prog E S A} (f : A → Prog E S B) {s : S} {e : E} {Q : S → Prop}
    (h : p.Raises s e Q) : (p >>= f).Raises s e Q := by
  obtain ⟨t, hp, hq⟩ := h
  refine ⟨t, ?_, hq⟩
  show Prog.bind p f s = _
  rw [Prog.bind, hp]

theorem Returns.bind_raises {p : Prog E S A} {f : A → Prog E S B} {s : S} {Q : A → S → Prop}
    {e : E} {R : S → Prop} (hp : p.Returns s Q) (hf : ∀ a t, Q a t → (f a).Raises t e R) :
    (p >>= f).Raises s e R := by
  obtain ⟨a, t, hpa, hq⟩ := hp
  obtain ⟨u, hfe, hr⟩ := hf a t hq
  exact ⟨u, by rw [bind_of_ok hpa, hfe], hr⟩

theorem raises_get_bind {f : S → Prog E S B} {s : S} {e : E} {Q : S → Prop}
    (h : (f s).Raises s e Q) : (get >>= f).Raises s e Q := by
  obtain ⟨t, hf, hq⟩ := h
  exact ⟨t, hf, hq⟩

theorem Raises.loop {X : Type} {body : X → Prog E S (X ⊕ A)} {fuel : Nat} {x : X} {s : S} {e : E}
    {Q : S → Prop} (h : (body x).Raises s e Q) : (loop body (fuel + 1) x).Raises s e Q :=
  h.bind _

theorem Raises.forEach_head {X : Type} {body : X → Prog E S A} {x : X} (l : List X) {s : S} {e : E}
    {Q : S → Prop} (h : (body x).Raises s e Q) : (forEach body (x :: l)).Raises s e Q :=
  h.bind _

/-! ## Failing -/

/-- From `s` the program does not come to an end, or ends with an exception that means no
    regular end. -/
def Fails (isStop : E → Bool) (p : Prog E S A) (s : S) : Prop :=
  ∀ r t, p s = some (r, t) → ∃ e, r = .error e ∧ isStop e = false

section Failing

variable {isStop : E → Bool} {p : Prog E S A} {f : A → Prog E S B} {s : S}

theorem Raises.fails {e : E} {Q : S → Prop} (h : p.Raises s e Q) (he : isStop e = false) :
    p.Fails isStop s := by
  obtain ⟨u, hp, -⟩ := h
  intro r t hr
  rw [hp] at hr
  cases hr
  exact ⟨e, rfl, he⟩

theorem Fails.bind (h : p.Fails isStop s) (f : A → Prog E S B) : (p >>= f).Fails isStop s := by
  intro r t hr
  replace hr : Prog.bind p f s = some (r, t) := hr
  rw [Prog.bind] at hr
  cases hp : p s with
  | none =>
    rw [hp] at hr
    cases hr
  | some o =>
    obtain ⟨r', t'⟩ := o
    obtain ⟨e, rfl, he⟩ := h r' t' hp
    rw [hp] at hr
    cases hr
    exact ⟨e, rfl, he⟩

theorem Returns.bind_fails {Q : A → S → Prop} (hp : p.Returns s Q)
    (hf : ∀ a t, Q a t → (f a).Fails isStop t) : (p >>= f).Fails isStop s := by
  obtain ⟨a, t, hpa, hq⟩ := hp
  intro r u hr
  rw [bind_of_ok hpa] at hr
  exact hf a t hq r u hr

theorem Fails.forEach_head {X : Type} {body : X → Prog E S A} {x : X} (l : List X)
    (h : (body x).Fails isStop s) : (forEach body (x :: l)).Fails isStop s :=
  h.bind _

theorem Fails.within {S' : Type} {enter : S → S'} {leave : S' → S} {q : Prog E S' A}
    {result : A → S' → B} (h : q.Fails isStop (enter s)) :
    (within enter leave q result).Fails isStop s := by
  intro r t hr
  rw [Prog.within] at hr
  cases hq : q (enter s) with
  | none =>
    rw [hq] at hr
    cases hr
  | some o =>
    obtain ⟨r', t'⟩ := o
    obtain ⟨e, rfl, he⟩ := h r' t' hq
    rw [hq] at hr
    cases hr
    exact ⟨e, rfl, he⟩

theorem fails_get_bind {f : S → Prog E S B} (h : (f s).Fails isStop s) :
    (get >>= f).Fails isStop s := h

theorem fails_lift_bind {x : Except E A} {a : A} (hx : x = .ok a) (h : (f a).Fails isStop s) :
    (lift x >>= f).Fails isStop s := by
  subst hx
  exact h

/-- A loop whose body keeps `Inv` and never breaks. -/
theorem Fails.loop {X : Type} {body : X → Prog E S (X ⊕ A)} (Inv : X → S → Prop)
    (hbody : ∀ x s, Inv x s →
      ((body x).Returns s fun o t => ∃ y, o = .inl y ∧ Inv y t) ∨ (body x).Fails isStop s)
    (fuel : Nat) {x : X} (hinv : Inv x s) : (loop body fuel x).Fails isStop s := by
  induction fuel generalizing x s with
  | zero =>
    intro r t hr
    cases hr
  | succ fuel ih =>
    rw [Prog.loop]
    rcases hbody x s hinv with hreturns | hfails
    · apply hreturns.bind_fails
      rintro o t ⟨y, rfl, ht⟩
      exact ih ht
    · exact hfails.bind _

theorem Fails.not_returns {R : A → S → Prop} (h : p.Fails isStop s) : ¬p.Returns s R := by
  rintro ⟨a, t, hp, -⟩
  obtain ⟨e, he, -⟩ := h _ _ hp
  cases he

end Failing

/-! ## Collecting what an iterator returns -/

/-- `Inv as` is what holds when exactly `as` are still to come. -/
theorem Returns.collect {isStop : E → Bool} {next : Prog E S A} (Inv : List A → S → Prop)
    {Q : S → Prop} {e : E} (hstop : isStop e = true)
    (hnext : ∀ a as s, Inv (a :: as) s → next.Returns s fun b t => b = a ∧ Inv as t)
    (hlast : ∀ s, Inv [] s → next.Raises s e Q) (as : List A) {fuel : Nat} {s : S}
    (hinv : Inv as s) (hfuel : as.length < fuel) :
    (collect isStop fuel next).Returns s fun bs t => bs = as ∧ Q t := by
  induction as generalizing fuel s with
  | nil =>
    obtain ⟨fuel, rfl⟩ := Nat.exists_eq_succ_of_ne_zero (Nat.ne_of_gt hfuel)
    obtain ⟨t, hraise, hq⟩ := hlast s hinv
    refine ⟨[], t, ?_, rfl, hq⟩
    show (match next s with | none => none | some (.error e, s) => _ | some (.ok a, s) => _) = _
    rw [hraise]
    exact if_pos hstop
  | cons a as ih =>
    obtain ⟨fuel, rfl⟩ := Nat.exists_eq_succ_of_ne_zero (Nat.ne_of_gt (Nat.zero_lt_of_lt hfuel))
    rw [List.length_cons] at hfuel
    obtain ⟨b, t, hret, hba, ht⟩ := hnext a as s hinv
    obtain ⟨bs, u, hcollect, hbs, hq⟩ := ih ht (Nat.lt_of_succ_lt_succ hfuel)
    refine ⟨b :: bs, u, ?_, by rw [hba, hbs], hq⟩
    show (match next s with | none => none | some (.error e, s) => _ | some (.ok a, s) => _) = _
    rw [hret]
    exact bind_of_ok hcollect

/-- An iterator that raises another exception after `as`. -/
theorem Raises.collect {isStop : E → Bool} {next : Prog E S A} (Inv : List A → S → Prop)
    {Q : S → Prop} {e : E} (he : isStop e = false)
    (hnext : ∀ a as s, Inv (a :: as) s → next.Returns s fun b t => b = a ∧ Inv as t)
    (hlast : ∀ s, Inv [] s → next.Raises s e Q) (as : List A) {fuel : Nat} {s : S}
    (hinv : Inv as s) (hfuel : as.length < fuel) : (collect isStop fuel next).Raises s e Q := by
  induction as generalizing fuel s with
  | nil =>
    obtain ⟨fuel, rfl⟩ := Nat.exists_eq_succ_of_ne_zero (Nat.ne_of_gt hfuel)
    obtain ⟨t, hraise, hq⟩ := hlast s hinv
    refine ⟨t, ?_, hq⟩
    show (match next s with | none => none | some (.error e, s) => _ | some (.ok a, s) => _) = _
    rw [hraise]
    show (if isStop e then _ else _) = _
    rw [he]
    rfl
  | cons a as ih =>
    obtain ⟨fuel, rfl⟩ := Nat.exists_eq_succ_of_ne_zero (Nat.ne_of_gt (Nat.zero_lt_of_lt hfuel))
    rw [List.length_cons] at hfuel
    obtain ⟨b, t, hret, hba, ht⟩ := hnext a as s hinv
    obtain ⟨u, hcollect, hq⟩ := (ih ht (Nat.lt_of_succ_lt_succ hfuel)).bind
      (fun rest => pure (b :: rest))
    refine ⟨u, ?_, hq⟩
    show (match next s with | none => none | some (.error e, s) => _ | some (.ok a, s) => _) = _
    rw [hret]
    exact hcollect

/-- `Inv xs` is what holds when `xs` are still to come.  Those that are asked for come when
    they satisfy `P`. -/
theorem Returns.takeUpTo {X : Type} {isStop : E → Bool} {next : Prog E S A}
    (Inv : List X → S → Prop) {P : X → Prop} {R : X → A → Prop} {e : E}
    (hstop : isStop e = true)
    (hnext : ∀ x xs s, P x → Inv (x :: xs) s → next.Returns s fun a t => R x a ∧ Inv xs t)
    (hlast : ∀ s, Inv [] s → next.Raises s e (Inv [])) (n : Nat) {xs : List X} {s : S}
    (hP : ∀ x ∈ xs.take n, P x) (hinv : Inv xs s) :
    (takeUpTo isStop next n).Returns s fun as t =>
      List.Forall₂ R (xs.take n) as ∧ Inv (xs.drop n) t := by
  induction n generalizing xs s with
  | zero => exact returns_pure ⟨.nil, hinv⟩
  | succ n ih =>
    cases xs with
    | nil =>
      obtain ⟨t, hraise, ht⟩ := hlast s hinv
      refine ⟨[], t, ?_, .nil, ht⟩
      show (match next s with | none => none | some (.error e, s) => _ | some (.ok a, s) => _) = _
      rw [hraise]
      exact if_pos hstop
    | cons x xs =>
      obtain ⟨a, t, hret, ha, ht⟩ := hnext x xs s (hP x List.mem_cons_self) hinv
      obtain ⟨as, u, htake, has, hu⟩ := ih (fun y hy => hP y (List.mem_cons_of_mem _ hy)) ht
      refine ⟨a :: as, u, ?_, .cons ha has, hu⟩
      show (match next s with | none => none | some (.error e, s) => _ | some (.ok a, s) => _) = _
      rw [hret]
      exact bind_of_ok htake

/-- One that is asked for and does not satisfy `P` does not come. -/
theorem Fails.takeUpTo {X : Type} {isStop : E → Bool} {next : Prog E S A}
    (Inv : List X → S → Prop) {P : X → Prop} {R : X → A → Prop}
    (hnext : ∀ x xs s, P x → Inv (x :: xs) s → next.Returns s fun a t => R x a ∧ Inv xs t)
    (hstuck : ∀ x xs s, ¬P x → Inv (x :: xs) s → next.Fails isStop s) (n : Nat) {xs : List X}
    {s : S} (hP : ¬∀ x ∈ xs.take n, P x) (hinv : Inv xs s) :
    (takeUpTo isStop next n).Fails isStop s := by
  induction n generalizing xs s with
  | zero => exact absurd (fun x hx => absurd hx List.not_mem_nil) hP
  | succ n ih =>
    cases xs with
    | nil => exact absurd (fun x hx => absurd hx List.not_mem_nil) hP
    | cons x xs =>
      intro r u hr
      replace hr : (match next s with
        | none => none
        | some (.error e, s) => if isStop e then some (.ok [], s) else some (.error e, s)
        | some (.ok a, s) => (Prog.takeUpTo isStop next n >>= fun rest => pure (a :: rest)) s) =
          some (r, u) := hr
      by_cases hx : P x
      · obtain ⟨a, t, hret, -, ht⟩ := hnext x xs s hx hinv
        have hrest : ¬∀ y ∈ xs.take n, P y := fun hall => hP fun y hy => by
          rcases List.mem_cons.mp hy with rfl | hy
          · exact hx
          · exact hall y hy
        rw [hret] at hr
        exact (ih hrest ht).bind _ r u hr
      · have hfails := hstuck x xs s hx hinv
        cases hn : next s with
        | none =>
          rw [hn] at hr
          cases hr
        | some o =>
          obtain ⟨r', t⟩ := o
          obtain ⟨e, rfl, he⟩ := hfails r' t hn
          rw [hn] at hr
          replace hr : (if isStop e then some (.ok [], t) else some (.error e, t)) = some (r, u) := hr
          rw [he] at hr
          cases hr
          exact ⟨e, rfl, he⟩

/-- A program that raises does not return. -/
theorem Raises.not_returns {p : Prog E S A} {s : S} {e : E} {Q : S → Prop} {R : A → S → Prop}
    (h : p.Raises s e Q) : ¬p.Returns s R := by
  rintro ⟨a, u, hret, -⟩
  obtain ⟨t, hraise, -⟩ := h
  rw [hret] at hraise
  cases hraise

end Prog

end GidsStack
