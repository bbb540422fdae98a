/-
  GidsStack.Lib.PinCache.Protocol

  A cache of pages in slots, shared by agents that pin the pages they use.
  Each page carries a VALID and a BUSY flag, a count of references and the slot
  it was last given; each slot carries a lock and the page it was last given
  to (its tenant).  An agent that sets BUSY on a page that was not busy leads a
  miss of it: it looks for a slot, evicting the tenant of one whose count is
  zero, and the page becomes valid when somebody publishes the miss.  A miss
  is published by its leader or, when the leader marked it as shared, by an
  agent that waited for the data.

  The module states the protocol over arbitrary pages, slots and agents: one
  constructor for every change an agent can make to the shared words.  The
  changes check what such a program checks and no more; what else must hold at
  the two steps that can go wrong (leading a miss, and taking on its
  publication) is a parameter, the `Guard`.
-/

import GidsStack.Lib.Transition

namespace GidsStack.Lib.PinCache

variable {P S A : Type*}

/-- The lock word of a slot: never given out, open, or taken. -/
inductive SlotLock
  | free
  | opened
  | taken
  deriving DecidableEq, Repr

/-- What an agent may rely on while it holds a reference: only that it is
    counted; that it has seen the page's miss open since, and then that it has
    read a slot from the page's offset, or a slot it found to be the page's; that
    it has seen the page valid since, and then also the page's slot. -/
inductive Grip (S : Type*)
  | raised
  | joined
  | aimed (s : S)
  | named (s : S)
  | pinned
  | fixed (s : S)
  deriving DecidableEq

/-- A reference an agent holds on a page, and how many counts it stands for. -/
structure Ref (P S : Type*) where
  page : P
  count : Nat
  grip : Grip S
  deriving DecidableEq

/-- How far the owner of a slot lock has come: it has only the lock, it has read
    the slot's tenant, it has the slot to itself, or it has written the new
    tenant. -/
inductive Stage (P : Type*)
  | probe
  | looked (q : P)
  | fresh
  | written
  deriving DecidableEq

/-- A slot lock in an agent's hands. -/
structure Own (P S : Type*) where
  slot : S
  stage : Stage P
  deriving DecidableEq

/-- BUSY set on a valid page: to evict it, or only to take it back because the
    page is referenced. -/
structure Take (P : Type*) where
  page : P
  evict : Bool
  deriving DecidableEq

/-- An agent about to publish the miss it led for slot `slot`, and whether it has
    stored the slot in the page. -/
structure Serve (P S : Type*) where
  page : P
  slot : S
  stored : Bool
  deriving DecidableEq

/-- How far an agent that publishes for a waiting page has come: it waits for
    the data, has it, or has stored the page's slot as well. -/
inductive Waiting
  | waits
  | got
  | stored
  deriving DecidableEq

/-- An agent that publishes a shared miss. -/
structure Poll (P S : Type*) where
  page : P
  slot : S
  progress : Waiting
  deriving DecidableEq

/-- What the protocol sees of a cache: the words of the pages, the history of
    every page's last miss (its leader while it is open, whether a waiter
    publishes it, the slot it was given, and how many completions were
    consumed and publications made for it), the words of the slots, and what
    every agent is doing. -/
structure Cache (P S A : Type*) where
  valid : P → Bool
  busy : P → Bool
  cnt : P → Nat
  offset : P → S
  leader : P → Option A
  shared : P → Bool
  given : P → Option S
  consumed : P → Nat
  published : P → Nat
  lock : S → SlotLock
  tenant : S → Option P
  leading : A → Option (P × Bool)
  own : A → Option (Own P S)
  taking : A → Option (Take P)
  assigned : A → Option (P × S)
  serving : A → Option (Serve P S)
  polling : A → Option (Poll P S)
  ref : A → Option (Ref P S)

/-- What a program adds to the protocol: the offset that names no slot, what is
    known beyond the agent's own checks when an agent becomes the leader of a
    miss (shared or not), when it takes on the publication of one for a slot and when a count
    that stands for no reference is taken off a page, and whether counts and
    references may be anything. -/
structure Guard (P S A : Type*) where
  nowhere : S
  lead : Cache P S A → P → Bool → Prop
  win : Cache P S A → A → P → S → Prop
  unpad : Cache P S A → P → Nat → Prop
  recount : Prop

/-- The counts an agent contributes to a page. -/
def Ref.on [DecidableEq P] (r : Option (Ref P S)) (p : P) : Nat :=
  match r with
  | some r => if r.page = p then r.count else 0
  | none => 0

open Function (update)

variable [DecidableEq P] [DecidableEq S] [DecidableEq A]

/-- One change to the shared words, made by agent `a`. -/
inductive Step (g : Guard P S A) : Cache P S A → Cache P S A → Prop
  | lead {v} (a : A) (p : P) (t : Bool) (hr : v.leading a = none) (ho : v.own a = none)
      (hb : v.busy p = false) (hg : g.lead v p t) :
      Step g v { v with
        busy := update v.busy p true
        leader := update v.leader p (some a)
        shared := update v.shared p t
        given := update v.given p none
        consumed := update v.consumed p 0
        published := update v.published p 0
        leading := update v.leading a (some (p, t)) }
  | unset {v} (a : A) (p : P) (t : Bool) (hr : v.leading a = some (p, t)) :
      Step g v { v with offset := update v.offset p g.nowhere }
  | grabFree {v} (a : A) (s : S) (hr : v.leading a ≠ none) (ho : v.own a = none)
      (hl : v.lock s = .free) :
      Step g v { v with
        lock := update v.lock s .taken
        own := update v.own a (some ⟨s, .fresh⟩) }
  | grabUsed {v} (a : A) (s : S) (hr : v.leading a ≠ none) (ho : v.own a = none)
      (hl : v.lock s = .opened) :
      Step g v { v with
        lock := update v.lock s .taken
        own := update v.own a (some ⟨s, .probe⟩) }
  | look {v} (a : A) (q : P) (s : S) (ho : v.own a = some ⟨s, .probe⟩)
      (ht : v.tenant s = none ∨ v.tenant s = some q) :
      Step g v { v with own := update v.own a (some ⟨s, .looked q⟩) }
  | markBusy {v} (a : A) (q : P) (s : S) (ho : v.own a = some ⟨s, .looked q⟩)
      (ht : v.taking a = none) (hb : v.busy q = false) :
      Step g v { v with
        busy := update v.busy q true
        taking := update v.taking a (some ⟨q, decide (v.cnt q = 0)⟩) }
  | evicted {v} (a : A) (q : P) (s : S) (ho : v.own a = some ⟨s, .looked q⟩)
      (ht : v.taking a = some ⟨q, true⟩) :
      Step g v { v with
        valid := update v.valid q false
        busy := update v.busy q false
        own := update v.own a (some ⟨s, .fresh⟩)
        taking := update v.taking a none }
  | undone {v} (a : A) (q : P) (ht : v.taking a = some ⟨q, false⟩) :
      Step g v { v with
        busy := update v.busy q false
        taking := update v.taking a none }
  | giveUp {v} (a : A) (q : P) (s : S) (ho : v.own a = some ⟨s, .looked q⟩)
      (ht : v.taking a = none) :
      Step g v { v with
        lock := update v.lock s .opened
        own := update v.own a none }
  | settle {v} (a : A) (p : P) (t : Bool) (s : S) (hr : v.leading a = some (p, t))
      (ho : v.own a = some ⟨s, .fresh⟩) :
      Step g v { v with
        tenant := update v.tenant s (some p)
        own := update v.own a (some ⟨s, .written⟩) }
  | assign {v} (a : A) (p : P) (t : Bool) (s : S) (hr : v.leading a = some (p, t))
      (ho : v.own a = some ⟨s, .written⟩)
      (hj : t = true → ∃ n, v.ref a = some ⟨p, n, .joined⟩) :
      Step g v { v with
        lock := update v.lock s .opened
        given := update v.given p (some s)
        own := update v.own a none
        leading := update v.leading a none
        assigned := update v.assigned a (if t then some (p, s) else none)
        serving := update v.serving a (if t then none else some ⟨p, s, false⟩) }
  | storeAssigned {v} (a : A) (p : P) (s : S) (hr : v.assigned a = some (p, s)) :
      Step g v { v with
        offset := update v.offset p s
        assigned := update v.assigned a none }
  | storeServed {v} (a : A) (p : P) (s : S) (hr : v.serving a = some ⟨p, s, false⟩) :
      Step g v { v with
        offset := update v.offset p s
        serving := update v.serving a (some ⟨p, s, true⟩) }
  | publishServed {v} (a : A) (p : P) (s : S) (hr : v.serving a = some ⟨p, s, true⟩) :
      Step g v { v with
        valid := update v.valid p (!v.valid p)
        busy := update v.busy p (!v.busy p)
        leader := update v.leader p none
        published := update v.published p (v.published p + 1)
        serving := update v.serving a none }
  | win {v} (a : A) (p : P) (s : S) (hr : v.polling a = none) (hg : g.win v a p s) :
      Step g v { v with polling := update v.polling a (some ⟨p, s, .waits⟩) }
  | lose {v} (a : A) (p : P) (s : S) (hr : v.polling a = some ⟨p, s, .waits⟩) :
      Step g v { v with polling := update v.polling a none }
  | consume {v} (a : A) (p : P) (s : S) (hr : v.polling a = some ⟨p, s, .waits⟩) :
      Step g v { v with
        consumed := update v.consumed p (v.consumed p + 1)
        polling := update v.polling a (some ⟨p, s, .got⟩) }
  | storePolled {v} (a : A) (p : P) (s : S) (hr : v.polling a = some ⟨p, s, .got⟩) :
      Step g v { v with
        offset := update v.offset p s
        polling := update v.polling a (some ⟨p, s, .stored⟩) }
  | publishPolled {v} (a : A) (p : P) (s : S) (hr : v.polling a = some ⟨p, s, .stored⟩) :
      Step g v { v with
        valid := update v.valid p (!v.valid p)
        busy := update v.busy p (!v.busy p)
        leader := update v.leader p none
        published := update v.published p (v.published p + 1)
        polling := update v.polling a none }
  | takeRef {v} (a : A) (p : P) (n : Nat) (hn : 0 < n) (hr : v.ref a = none) :
      Step g v { v with
        cnt := update v.cnt p (v.cnt p + n)
        ref := update v.ref a (some ⟨p, n, .raised⟩) }
  | join {v} (a : A) (p : P) (n : Nat) (hr : v.ref a = some ⟨p, n, .raised⟩)
      (hl : v.leader p ≠ none) :
      Step g v { v with ref := update v.ref a (some ⟨p, n, .joined⟩) }
  | aim {v} (a : A) (p : P) (n : Nat) (s : S) (hr : v.ref a = some ⟨p, n, .joined⟩)
      (ha : v.assigned a = none) (ho : v.offset p = s) (hs : s ≠ g.nowhere) :
      Step g v { v with ref := update v.ref a (some ⟨p, n, .aimed s⟩) }
  | unaim {v} (a : A) (p : P) (n : Nat) (s : S) (hr : v.ref a = some ⟨p, n, .aimed s⟩) :
      Step g v { v with ref := update v.ref a (some ⟨p, n, .joined⟩) }
  | check {v} (a : A) (p : P) (n : Nat) (s : S) (hr : v.ref a = some ⟨p, n, .aimed s⟩)
      (ht : v.tenant s = some p) :
      Step g v { v with ref := update v.ref a (some ⟨p, n, .named s⟩) }
  | receive {v} (a : A) (p : P) (n : Nat) (s : S) (hr : v.ref a = some ⟨p, n, .joined⟩)
      (hg : v.given p = some s) :
      Step g v { v with ref := update v.ref a (some ⟨p, n, .named s⟩) }
  | pin {v} (a : A) (p : P) (n : Nat) (gr : Grip S) (hr : v.ref a = some ⟨p, n, gr⟩)
      (ha : v.assigned a = none) (hp : v.polling a = none)
      (hv : v.valid p = true) (hb : v.busy p = false) :
      Step g v { v with ref := update v.ref a (some ⟨p, n, .pinned⟩) }
  | fix {v} (a : A) (p : P) (n : Nat) (s : S) (hr : v.ref a = some ⟨p, n, .pinned⟩)
      (ho : v.offset p = s) :
      Step g v { v with ref := update v.ref a (some ⟨p, n, .fixed s⟩) }
  | shrinkRef {v} (a : A) (p : P) (n m : Nat) (s : S) (hn : 0 < n)
      (hr : v.ref a = some ⟨p, n + m, .fixed s⟩) :
      Step g v { v with
        cnt := update v.cnt p (v.cnt p - m)
        ref := update v.ref a (some ⟨p, n, .fixed s⟩) }
  | dropRef {v} (a : A) (p : P) (n : Nat) (s : S) (hr : v.ref a = some ⟨p, n, .fixed s⟩) :
      Step g v { v with
        cnt := update v.cnt p (v.cnt p - n)
        ref := update v.ref a none }
  | pad {v} (p : P) (n : Nat) :
      Step g v { v with cnt := update v.cnt p (v.cnt p + n) }
  | unpad {v} (p : P) (n : Nat) (hg : g.unpad v p n) :
      Step g v { v with cnt := update v.cnt p (v.cnt p - n) }
  | recount {v} (cnt : P → Nat) (ref : A → Option (Ref P S)) (hg : g.recount) :
      Step g v { v with cnt := cnt, ref := ref }
  | reset {v} (tenant : S → Option P) (hp : ∀ p, v.valid p = false ∧ v.leader p = none)
      (ho : ∀ a, v.own a = none) :
      Step g v { v with lock := fun _ => .free, tenant := tenant }

end GidsStack.Lib.PinCache
