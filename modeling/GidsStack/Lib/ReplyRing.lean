/-
  GidsStack.Lib.ReplyRing

  A ring of replies, written by one party in any order and taken by the callers that asked.

  A caller asks under an id that nobody else holds, reads how far the replies have been passed
  on and looks from there for a reply that carries its id.  It marks what it found; whoever
  sweeps takes the marks away in the order of the replies, tells the writer how far it may
  write again, and then passes the swept replies on.  The caller gives its id back when its own
  reply has been passed.

  `Ring.Inv` says why an id that comes back is not mistaken: replies from `passed` on belong to
  callers that still hold their id, so a caller that looks only from there on finds nobody
  else's, whatever old replies stand in the ring.
-/

import GidsStack.Lib.Laps
import Mathlib.Logic.Function.Basic
import Mathlib.Tactic.Basic

namespace GidsStack.ReplyRing

open Laps

/-- How far a caller is, and the reply it has found. -/
inductive Stage
  | idle
  | asked
  /-- looks for its reply from `base` on -/
  | looking (base : Nat)
  | found (n : Nat)
  | marked (n : Nat)
  /-- has seen its reply passed -/
  | passed (n : Nat)
  | done (n : Nat)
  deriving DecidableEq

namespace Stage

/-- The caller holds its id. -/
def holds : Stage → Bool
  | .idle | .done _ => false
  | _ => true

/-- The caller has asked and not seen its reply passed. -/
def pending : Stage → Bool
  | .asked | .looking _ | .found _ | .marked _ => true
  | _ => false

/-- The caller has not found its reply yet. -/
def searching : Stage → Bool
  | .asked | .looking _ => true
  | _ => false

/-- The reply the caller has marked is swept or about to be. -/
def marks : Stage → Bool
  | .marked _ | .passed _ | .done _ => true
  | _ => false

/-- The reply a caller has found. -/
def reply : Stage → Option Nat
  | .found n | .marked n | .passed n | .done n => some n
  | _ => none

theorem holds_of_pending {s : Stage} (h : s.pending = true) : s.holds = true := by
  cases s <;> first | rfl | cases h

theorem pending_of_searching {s : Stage} (h : s.searching = true) : s.pending = true := by
  cases s <;> first | rfl | cases h

end Stage

structure Ring (κ : Type*) where
  posted : Nat
  /-- whose reply is the `n`-th -/
  owner : Nat → κ
  id : κ → Nat
  stage : κ → Stage
  mark : Nat → Bool
  swept : Nat
  /-- how far the writer has been told -/
  rung : Nat
  passed : Nat

variable {κ : Type*} {q : Nat} {r r' : Ring κ} {j k : κ} {n : Nat}

/-! ## Steps -/

section Steps

variable [DecidableEq κ]

/-- A caller moves on. -/
def Ring.goto (r : Ring κ) (k : κ) (t : Stage) : Ring κ :=
  { r with stage := Function.update r.stage k t }

/-- What callers, the sweeper and the producer do. -/
inductive Step (q : Nat) (r : Ring κ) : Ring κ → Prop
  | ask {k : κ} {c : Nat} (hk : r.stage k = .idle)
      (hfree : ∀ j, (r.stage j).holds = true → r.id j ≠ c) :
      Step q r ({ r with id := Function.update r.id k c }.goto k .asked)
  | look {k : κ} (hk : r.stage k = .asked) : Step q r (r.goto k (.looking r.passed))
  | miss {k : κ} {b : Nat} (hk : r.stage k = .looking b) : Step q r (r.goto k .asked)
  | find {k : κ} {b n : Nat} (hk : r.stage k = .looking b) (hb : b ≤ n) (hn : n < r.posted)
      (hid : r.id (r.owner n) = r.id k) : Step q r (r.goto k (.found n))
  | mark {k : κ} {n : Nat} (hk : r.stage k = .found n) :
      Step q r ({ r with mark := Function.update r.mark (n % q) true }.goto k (.marked n))
  | leave {k : κ} {n : Nat} (hk : r.stage k = .marked n) (hpassed : n < r.passed) :
      Step q r (r.goto k (.passed n))
  | close {k : κ} {n : Nat} (hk : r.stage k = .passed n) : Step q r (r.goto k (.done n))
  | sweep (hmark : r.mark (r.swept % q) = true) :
      Step q r
        { r with mark := Function.update r.mark (r.swept % q) false, swept := r.swept + 1 }
  | ring : Step q r { r with rung := r.swept }
  | pass : Step q r { r with passed := r.rung }
  | post {k : κ} (hk : (r.stage k).searching = true) (hnew : ∀ n < r.posted, r.owner n ≠ k)
      (hroom : r.posted + 1 < r.rung + q) :
      Step q r { r with owner := Function.update r.owner r.posted k, posted := r.posted + 1 }

end Steps

/-! ## The invariant -/

structure Ring.Inv (q : Nat) (r : Ring κ) : Prop where
  passed_le : r.passed ≤ r.rung
  rung_le : r.rung ≤ r.swept
  swept_le : r.swept ≤ r.posted
  room : r.posted < r.rung + q
  id_unique : ∀ j k, (r.stage j).holds = true → (r.stage k).holds = true → r.id j = r.id k → j = k
  owner_inj : ∀ m < r.posted, ∀ n < r.posted, r.owner m = r.owner n → m = n
  asked : ∀ n < r.posted, r.stage (r.owner n) ≠ .idle
  /-- who has a reply that has not been passed still waits for that -/
  pending : ∀ n < r.posted, r.passed ≤ n → (r.stage (r.owner n)).pending = true
  /-- from `base` on, only a caller's own reply carries its id -/
  looking : ∀ k b, r.stage k = .looking b →
    b ≤ r.passed ∧ ∀ m, b ≤ m → m < r.posted → r.id (r.owner m) = r.id k → r.owner m = k
  reply : ∀ k n, (r.stage k).reply = some n → n < r.posted ∧ r.owner n = k
  unmarked : ∀ k n, r.stage k = .found n → r.swept ≤ n
  mark_iff : ∀ i, r.mark i = true ↔ ∃ k n, r.stage k = .marked n ∧ n % q = i ∧ r.swept ≤ n
  left : ∀ k n, r.stage k = .passed n ∨ r.stage k = .done n → n < r.passed
  answered : ∀ n < r.swept, (r.stage (r.owner n)).marks = true

namespace Ring.Inv

/-- The mark of the next reply to sweep is that of its caller. -/
theorem marked_of_mark (h : r.Inv q) (hmark : r.mark (r.swept % q) = true) :
    r.swept < r.posted ∧ r.stage (r.owner r.swept) = .marked r.swept := by
  obtain ⟨k, n, hk, hmod, hle⟩ := (h.mark_iff _).mp hmark
  obtain ⟨hn, hown⟩ := h.reply k n (by rw [hk]; rfl)
  have hrung := h.rung_le
  have hroom := h.room
  -- a mark that is not the next one would be a lap ahead
  obtain rfl : n = r.swept := eq_of_mod_eq hmod (by omega) (by omega)
  rw [hown]
  exact ⟨hn, hk⟩

/-- What a caller finds under its id is its own reply, and not swept. -/
theorem own_of_find (h : r.Inv q) {b : Nat} (hk : r.stage k = .looking b) (hb : b ≤ n)
    (hn : n < r.posted) (hid : r.id (r.owner n) = r.id k) : r.owner n = k ∧ r.swept ≤ n := by
  have hown := (h.looking k b hk).2 n hb hn hid
  refine ⟨hown, ?_⟩
  by_contra hlt
  have hm := h.answered n (by omega)
  rw [hown, hk] at hm
  cases hm

/-- A reply that has not been passed is under an id that its caller alone holds. -/
theorem owner_of_id (h : r.Inv q) (hn : n < r.posted) (hp : r.passed ≤ n)
    (hk : (r.stage k).holds = true) (hid : r.id (r.owner n) = r.id k) : r.owner n = k :=
  h.id_unique _ _ (Stage.holds_of_pending (h.pending n hn hp)) hk hid

/-- Nobody else holds the id of a caller that holds it. -/
theorem alone (h : r.Inv q) (hk : (r.stage k).holds = true) :
    ∀ j, (r.stage j).holds = true → r.id j = r.id k → j = k :=
  fun j hj hid => h.id_unique j k hj hk hid

/-! ### One lemma for each step -/

variable [DecidableEq κ]

/-- A caller moves on under the id it has, and may set or clear marks. -/
theorem move (h : r.Inv q) {t : Stage} {m : Nat → Bool}
    (hholds : t.holds = true → ∀ j, (r.stage j).holds = true → r.id j = r.id k → j = k)
    (hidle : t ≠ .idle)
    (hpend : ∀ n < r.posted, r.owner n = k → r.passed ≤ n → t.pending = true)
    (hlook : ∀ b, t = .looking b →
      b ≤ r.passed ∧ ∀ m, b ≤ m → m < r.posted → r.id (r.owner m) = r.id k → r.owner m = k)
    (hreply : ∀ n, t.reply = some n → n < r.posted ∧ r.owner n = k)
    (hfound : ∀ n, t = .found n → r.swept ≤ n)
    (hmark : ∀ i, m i = true ↔ ∃ j n, (r.goto k t).stage j = .marked n ∧ n % q = i ∧ r.swept ≤ n)
    (hleft : ∀ n, t = .passed n ∨ t = .done n → n < r.passed)
    (hmarks : (r.stage k).marks = true → t.marks = true) :
    Ring.Inv q ({ r with mark := m }.goto k t) := by
  have hself : (r.goto k t).stage k = t := Function.update_self ..
  have hne : ∀ j, j ≠ k → (r.goto k t).stage j = r.stage j :=
    fun j hj => Function.update_of_ne hj _ _
  -- what every stage has and `t` has
  have hall : ∀ {P : κ → Stage → Prop}, (∀ j, P j (r.stage j)) → P k t →
      ∀ j, P j ((r.goto k t).stage j) := by
    intro P hP hPt j
    by_cases hj : j = k
    · rw [hj, hself]
      exact hPt
    · rw [hne j hj]
      exact hP j
  refine
    { passed_le := h.passed_le
      rung_le := h.rung_le
      swept_le := h.swept_le
      room := h.room
      id_unique := fun i j hi hj hid => ?_
      owner_inj := h.owner_inj
      asked := fun n hn => ?_
      pending := fun n hn hp => ?_
      looking := hall (P := fun j s => ∀ b, s = .looking b → b ≤ r.passed ∧ ∀ m, b ≤ m →
        m < r.posted → r.id (r.owner m) = r.id j → r.owner m = j) h.looking hlook
      reply := hall (P := fun j s => ∀ n, s.reply = some n → n < r.posted ∧ r.owner n = j)
        h.reply hreply
      unmarked := hall (P := fun _ s => ∀ n, s = .found n → r.swept ≤ n) h.unmarked hfound
      mark_iff := hmark
      left := hall (P := fun _ s => ∀ n, s = .passed n ∨ s = .done n → n < r.passed) h.left hleft
      answered := fun n hn => ?_ }
  · replace hi : ((r.goto k t).stage i).holds = true := hi
    replace hj : ((r.goto k t).stage j).holds = true := hj
    replace hid : r.id i = r.id j := hid
    by_cases hik : i = k
    · by_cases hjk : j = k
      · rw [hik, hjk]
      · rw [hne j hjk] at hj
        rw [hik, hself] at hi
        rw [hik] at hid
        exact hik.trans (hholds hi j hj hid.symm).symm
    · rw [hne i hik] at hi
      by_cases hjk : j = k
      · rw [hjk, hself] at hj
        rw [hjk] at hid
        exact (hholds hj i hi hid).trans hjk.symm
      · rw [hne j hjk] at hj
        exact h.id_unique i j hi hj hid
  · exact hall (P := fun j s => j = r.owner n → s ≠ .idle)
      (fun j hj => hj ▸ h.asked n hn) (fun _ => hidle) _ rfl
  · exact hall (P := fun j s => j = r.owner n → s.pending = true)
      (fun j hj => hj ▸ h.pending n hn hp) (fun hj => hpend n hn hj.symm hp) _ rfl
  · exact hall (P := fun j s => j = r.owner n → s.marks = true)
      (fun j hj => hj ▸ h.answered n hn) (fun hj => hmarks (hj ▸ h.answered n hn)) _ rfl

/-- A caller moves on, without touching its mark. -/
theorem goto (h : r.Inv q) {t : Stage}
    (hholds : t.holds = true → ∀ j, (r.stage j).holds = true → r.id j = r.id k → j = k)
    (hidle : t ≠ .idle)
    (hpend : ∀ n < r.posted, r.owner n = k → r.passed ≤ n → t.pending = true)
    (hlook : ∀ b, t = .looking b →
      b ≤ r.passed ∧ ∀ m, b ≤ m → m < r.posted → r.id (r.owner m) = r.id k → r.owner m = k)
    (hreply : ∀ n, t.reply = some n → n < r.posted ∧ r.owner n = k)
    (hfound : ∀ n, t = .found n → r.swept ≤ n)
    (hmark : ∀ n, r.swept ≤ n → (t = .marked n ↔ r.stage k = .marked n))
    (hleft : ∀ n, t = .passed n ∨ t = .done n → n < r.passed)
    (hmarks : (r.stage k).marks = true → t.marks = true) : (r.goto k t).Inv q := by
  refine h.move hholds hidle hpend hlook hreply hfound (fun i => (h.mark_iff i).trans ?_) hleft
    hmarks
  refine exists_congr fun j => exists_congr fun n => ?_
  by_cases hj : j = k
  · subst hj
    rw [show (r.goto j t).stage j = t from Function.update_self ..]
    exact ⟨fun ⟨hs, hmod, hle⟩ => ⟨(hmark n hle).mpr hs, hmod, hle⟩,
      fun ⟨ht, hmod, hle⟩ => ⟨(hmark n hle).mp ht, hmod, hle⟩⟩
  · rw [show (r.goto k t).stage j = r.stage j from Function.update_of_ne hj _ _]

/-- A caller that has not asked yet may take any id. -/
theorem setId (h : r.Inv q) (c : Nat) (hk : r.stage k = .idle) :
    Ring.Inv q { r with id := Function.update r.id k c } := by
  have hother : ∀ n < r.posted, r.owner n ≠ k := fun n hn heq => h.asked n hn (heq ▸ hk)
  have hholder : ∀ j, (r.stage j).holds = true → j ≠ k := by
    rintro j hj rfl
    rw [hk] at hj
    cases hj
  refine
    { h with
      id_unique := fun i j hi hj hid => ?_
      looking := fun i b hi => ⟨(h.looking i b hi).1, fun m hb hm hid => ?_⟩ }
  · replace hid : Function.update r.id k c i = Function.update r.id k c j := hid
    rw [Function.update_of_ne (hholder i hi), Function.update_of_ne (hholder j hj)] at hid
    exact h.id_unique i j hi hj hid
  · replace hid : Function.update r.id k c (r.owner m) = Function.update r.id k c i := hid
    have hik : i ≠ k := hholder i (by
      replace hi : r.stage i = .looking b := hi
      rw [hi]
      rfl)
    rw [Function.update_of_ne (hother m hm), Function.update_of_ne hik] at hid
    exact (h.looking i b hi).2 m hb hm hid

theorem ask (h : r.Inv q) {c : Nat} (hk : r.stage k = .idle)
    (hfree : ∀ j, (r.stage j).holds = true → r.id j ≠ c) :
    Ring.Inv q ({ r with id := Function.update r.id k c }.goto k .asked) := by
  have hother : ∀ n < r.posted, r.owner n ≠ k := fun n hn heq => h.asked n hn (heq ▸ hk)
  refine (h.setId c hk).goto (fun _ j hj hid => ?_) (nofun) (fun n hn hown _ => ?_) (nofun) (nofun)
    (nofun) (fun n _ => ?_) (nofun) (fun hm => ?_)
  · by_contra hjk
    replace hid : Function.update r.id k c j = Function.update r.id k c k := hid
    rw [Function.update_of_ne hjk, Function.update_self] at hid
    exact hfree j hj hid
  · exact absurd hown (hother n hn)
  · show Stage.asked = .marked n ↔ r.stage k = .marked n
    rw [hk]
    exact ⟨nofun, nofun⟩
  · replace hm : (r.stage k).marks = true := hm
    rw [hk] at hm
    cases hm

theorem look (h : r.Inv q) (hk : r.stage k = .asked) : (r.goto k (.looking r.passed)).Inv q := by
  have hholds : (r.stage k).holds = true := by
    rw [hk]
    rfl
  refine h.goto (fun _ => h.alone hholds) (nofun) (fun _ _ _ _ => rfl) ?_ (nofun) (nofun)
    (fun n _ => ?_) (nofun) (fun hm => ?_)
  · rintro b hb
    cases hb
    exact ⟨Nat.le_refl _, fun m hp hm hid => h.owner_of_id hm hp hholds hid⟩
  · rw [hk]
    exact ⟨nofun, nofun⟩
  · rw [hk] at hm
    cases hm

theorem miss (h : r.Inv q) {b : Nat} (hk : r.stage k = .looking b) : (r.goto k .asked).Inv q := by
  refine h.goto (fun _ => h.alone (by rw [hk]; rfl)) (nofun) (fun _ _ _ _ => rfl) (nofun) (nofun)
    (nofun) (fun n _ => ?_) (nofun) (fun hm => ?_)
  · rw [hk]
    exact ⟨nofun, nofun⟩
  · rw [hk] at hm
    cases hm

theorem find (h : r.Inv q) {b : Nat} (hk : r.stage k = .looking b) (hb : b ≤ n)
    (hn : n < r.posted) (hid : r.id (r.owner n) = r.id k) : (r.goto k (.found n)).Inv q := by
  obtain ⟨hown, hswept⟩ := h.own_of_find hk hb hn hid
  refine h.goto (fun _ => h.alone (by rw [hk]; rfl)) (nofun) (fun _ _ _ _ => rfl) (nofun) ?_ ?_
    (fun m _ => ?_) (nofun) (fun hm => ?_)
  · intro m hm
    cases hm
    exact ⟨hn, hown⟩
  · intro m hm
    cases hm
    exact hswept
  · rw [hk]
    exact ⟨nofun, nofun⟩
  · rw [hk] at hm
    cases hm

theorem mark (h : r.Inv q) (hk : r.stage k = .found n) :
    Ring.Inv q ({ r with mark := Function.update r.mark (n % q) true }.goto k (.marked n)) := by
  have hself : (r.goto k (.marked n)).stage k = .marked n := Function.update_self ..
  have hne : ∀ j, j ≠ k → (r.goto k (.marked n)).stage j = r.stage j :=
    fun j hj => Function.update_of_ne hj _ _
  refine h.move (fun _ => h.alone (by rw [hk]; rfl)) (nofun) (fun _ _ _ _ => rfl) (nofun) ?_ (nofun)
    (fun i => ?_) (nofun) (fun _ => rfl)
  · intro m hm
    cases hm
    exact h.reply k n (by rw [hk]; rfl)
  · by_cases hi : i = n % q
    · rw [hi, Function.update_self]
      exact ⟨fun _ => ⟨k, n, hself, rfl, h.unmarked k n hk⟩, fun _ => rfl⟩
    · rw [Function.update_of_ne hi, h.mark_iff]
      refine exists_congr fun j => exists_congr fun m => ?_
      by_cases hj : j = k
      · subst hj
        rw [hself, hk]
        refine ⟨fun hm => (nomatch hm.1), ?_⟩
        rintro ⟨hm, hmod, -⟩
        cases hm
        exact absurd hmod.symm hi
      · rw [hne j hj]

theorem leave (h : r.Inv q) (hk : r.stage k = .marked n) (hpassed : n < r.passed) :
    (r.goto k (.passed n)).Inv q := by
  have hown := h.reply k n (by rw [hk]; rfl)
  have hrung := h.passed_le
  have hswept := h.rung_le
  refine h.goto (fun _ => h.alone (by rw [hk]; rfl)) (nofun) (fun m hm hom hp => ?_) (nofun) ?_
    (nofun) (fun m hm => ?_) ?_ (fun _ => rfl)
  · -- the reply of `k` has been passed
    obtain rfl := h.owner_inj m hm n hown.1 (hom.trans hown.2.symm)
    omega
  · intro m hm
    cases hm
    exact hown
  · rw [hk]
    refine ⟨nofun, fun he => ?_⟩
    cases he
    omega
  · rintro m (hm | hm)
    · cases hm
      exact hpassed
    · cases hm

theorem close (h : r.Inv q) (hk : r.stage k = .passed n) : (r.goto k (.done n)).Inv q := by
  have hown := h.reply k n (by rw [hk]; rfl)
  have hpassed := h.left k n (.inl hk)
  refine h.goto (nofun) (nofun) (fun m hm hom hp => ?_) (nofun) ?_ (nofun) (fun m _ => ?_) ?_
    (fun _ => rfl)
  · obtain rfl := h.owner_inj m hm n hown.1 (hom.trans hown.2.symm)
    omega
  · intro m hm
    cases hm
    exact hown
  · rw [hk]
    exact ⟨nofun, nofun⟩
  · rintro m (hm | hm)
    · cases hm
    · cases hm
      exact hpassed

omit [DecidableEq κ] in
theorem sweep (h : r.Inv q) (hmark : r.mark (r.swept % q) = true) :
    Ring.Inv q
      { r with mark := Function.update r.mark (r.swept % q) false, swept := r.swept + 1 } := by
  obtain ⟨hlt, hstage⟩ := h.marked_of_mark hmark
  have hrung := h.rung_le
  have hroom := h.room
  refine
    { h with
      rung_le := Nat.le_succ_of_le hrung
      swept_le := hlt
      unmarked := fun k n hk => ?_
      mark_iff := fun i => ?_
      answered := fun n hn => ?_ }
  · refine Nat.lt_of_le_of_ne (h.unmarked k n hk) ?_
    rintro rfl
    rw [(h.reply k _ (by rw [show r.stage k = _ from hk]; rfl)).2,
      show r.stage k = _ from hk] at hstage
    cases hstage
  · show Function.update r.mark (r.swept % q) false i = true ↔
      ∃ k n, r.stage k = .marked n ∧ n % q = i ∧ r.swept + 1 ≤ n
    by_cases hi : i = r.swept % q
    · subst hi
      rw [Function.update_self]
      refine ⟨fun he => (nomatch he), ?_⟩
      rintro ⟨k, n, hk, hmod, hle⟩
      -- a second mark at the place would be a lap ahead of what has been written
      have hn := (h.reply k n (by rw [hk]; rfl)).1
      have hlap := add_le_of_mod_eq hmod.symm hle
      omega
    · rw [Function.update_of_ne hi, h.mark_iff]
      refine exists_congr fun k => exists_congr fun n => and_congr_right fun _ =>
        and_congr_right fun hmod => ?_
      refine ⟨fun hle => Nat.lt_of_le_of_ne hle ?_, Nat.le_of_succ_le⟩
      rintro rfl
      exact hi hmod.symm
  · rcases Nat.lt_succ_iff_lt_or_eq.mp hn with hlt' | rfl
    · exact h.answered n hlt'
    · show (r.stage (r.owner r.swept)).marks = true
      rw [hstage]
      rfl

omit [DecidableEq κ] in
theorem ring (h : r.Inv q) : Ring.Inv q { r with rung := r.swept } := by
  have hrung := h.rung_le
  have hpassed := h.passed_le
  have hroom := h.room
  exact
    { h with
      passed_le := Nat.le_trans hpassed hrung
      rung_le := Nat.le_refl _
      room := by
        show r.posted < r.swept + q
        omega }

omit [DecidableEq κ] in
theorem pass (h : r.Inv q) : Ring.Inv q { r with passed := r.rung } := by
  have hle := h.passed_le
  exact
    { h with
      passed_le := Nat.le_refl _
      pending := fun n hn hp => h.pending n hn (Nat.le_trans hle hp)
      looking := fun k b hk =>
        ⟨Nat.le_trans (h.looking k b hk).1 hle, (h.looking k b hk).2⟩
      left := fun k n hk => Nat.lt_of_lt_of_le (h.left k n hk) hle }

omit [DecidableEq κ] in
theorem post (h : r.Inv q) (hk : (r.stage k).searching = true)
    (hnew : ∀ n < r.posted, r.owner n ≠ k) (hroom : r.posted + 1 < r.rung + q) :
    Ring.Inv q { r with owner := Function.update r.owner r.posted k, posted := r.posted + 1 } := by
  have hswept := h.swept_le
  have hself : Function.update r.owner r.posted k r.posted = k := Function.update_self ..
  have hne : ∀ n, n < r.posted → Function.update r.owner r.posted k n = r.owner n :=
    fun n hn => Function.update_of_ne (Nat.ne_of_lt hn) _ _
  have hpend := Stage.pending_of_searching hk
  -- what is said of every reply written so far
  have hall : ∀ {P : Nat → κ → Prop}, (∀ n < r.posted, P n (r.owner n)) → P r.posted k →
      ∀ n < r.posted + 1, P n (Function.update r.owner r.posted k n) := by
    intro P hP hPk n hn
    rcases Nat.lt_succ_iff_lt_or_eq.mp hn with hlt | rfl
    · rw [hne n hlt]
      exact hP n hlt
    · rw [hself]
      exact hPk
  refine
    { h with
      swept_le := Nat.le_succ_of_le hswept
      room := hroom
      owner_inj := fun m hm n hn heq => ?_
      asked := hall (P := fun _ j => r.stage j ≠ .idle) h.asked (fun he => by
        rw [he] at hk
        cases hk)
      pending := hall (P := fun n j => r.passed ≤ n → (r.stage j).pending = true) h.pending
        fun _ => hpend
      looking := fun j b hj => ⟨(h.looking j b hj).1, fun m hb hm => ?_⟩
      reply := fun j n hj => ?_
      answered := fun n hn => ?_ }
  · replace heq : Function.update r.owner r.posted k m = Function.update r.owner r.posted k n := heq
    rcases Nat.lt_succ_iff_lt_or_eq.mp hm with hm | rfl
    · rcases Nat.lt_succ_iff_lt_or_eq.mp hn with hn | rfl
      · rw [hne m hm, hne n hn] at heq
        exact h.owner_inj m hm n hn heq
      · rw [hne m hm, hself] at heq
        exact absurd heq (hnew m hm)
    · rcases Nat.lt_succ_iff_lt_or_eq.mp hn with hn | rfl
      · rw [hne n hn, hself] at heq
        exact absurd heq.symm (hnew n hn)
      · rfl
  · have hholds : (r.stage j).holds = true := by
      rw [show r.stage j = _ from hj]
      rfl
    exact hall (P := fun m i => b ≤ m → r.id i = r.id j → i = j)
      (fun m hm hb hid => (h.looking j b hj).2 m hb hm hid)
      (fun _ hid => h.alone hholds k (Stage.holds_of_pending hpend) hid) m hm hb
  · obtain ⟨hn, hown⟩ := h.reply j n hj
    exact ⟨Nat.lt_succ_of_lt hn, (hne n hn).trans hown⟩
  · show (r.stage (Function.update r.owner r.posted k n)).marks = true
    rw [hne n (Nat.lt_of_lt_of_le hn hswept)]
    exact h.answered n hn

/-- Every step of the ring keeps the invariant. -/
theorem step (h : r.Inv q) (hs : Step q r r') : r'.Inv q := by
  cases hs with
  | ask hk hfree => exact h.ask hk hfree
  | look hk => exact h.look hk
  | miss hk => exact h.miss hk
  | find hk hb hn hid => exact h.find hk hb hn hid
  | mark hk => exact h.mark hk
  | leave hk hpassed => exact h.leave hk hpassed
  | close hk => exact h.close hk
  | sweep hmark => exact h.sweep hmark
  | ring => exact h.ring
  | pass => exact h.pass
  | post hk hnew hroom => exact h.post hk hnew hroom

end Ring.Inv

end GidsStack.ReplyRing
