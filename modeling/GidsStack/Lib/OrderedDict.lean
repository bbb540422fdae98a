/-
  GidsStack.Lib.OrderedDict

  Dictionaries that remember the order of insertion, as Python's do.  Keys are distinct by
  construction: setting a key that is there keeps its place.
-/

import Mathlib

namespace GidsStack

structure OrderedDict (K V : Type) where
  entries : List (K × V)
  nodup : (entries.map Prod.fst).Nodup

namespace OrderedDict

variable {K V W : Type} [DecidableEq K]

/-! ## Operations -/

def empty : OrderedDict K V := ⟨[], List.nodup_nil⟩

def keys (d : OrderedDict K V) : List K := d.entries.map Prod.fst

def values (d : OrderedDict K V) : List V := d.entries.map Prod.snd

def get? (d : OrderedDict K V) (k : K) : Option V :=
  (d.entries.find? fun e => e.1 = k).map Prod.snd

/-- `d.pop(k, None)`. -/
def erase (d : OrderedDict K V) (k : K) : OrderedDict K V where
  entries := d.entries.filter fun e => e.1 ≠ k
  nodup := (List.filter_sublist.map _).nodup d.nodup

theorem keys_replace (l : List (K × V)) (k : K) (v : V) :
    (l.map fun e => if e.1 = k then (k, v) else e).map Prod.fst = l.map Prod.fst := by
  rw [List.map_map]
  apply List.map_congr_left
  intro e _
  show (if e.1 = k then (k, v) else e).1 = e.1
  split
  · rename_i h
    exact h.symm
  · rfl

/-- `d[k] = v`. -/
def set (d : OrderedDict K V) (k : K) (v : V) : OrderedDict K V :=
  if h : k ∈ d.keys then
    { entries := d.entries.map fun e => if e.1 = k then (k, v) else e
      nodup := by rw [keys_replace]; exact d.nodup }
  else
    { entries := d.entries ++ [(k, v)]
      nodup := by
        rw [List.map_append, List.nodup_append']
        exact ⟨d.nodup, List.nodup_singleton _, by
          rw [List.map_singleton, List.disjoint_singleton]
          exact h⟩ }

def mapValues (f : V → W) (d : OrderedDict K V) : OrderedDict K W where
  entries := d.entries.map fun e => (e.1, f e.2)
  nodup := by
    rw [List.map_map]
    exact d.nodup

/-! ## Laws -/

omit [DecidableEq K] in
theorem ext {d d' : OrderedDict K V} (h : d.entries = d'.entries) : d = d' := by
  cases d
  cases d'
  cases h
  rfl

omit [DecidableEq K] in
@[simp] theorem keys_mapValues (f : V → W) (d : OrderedDict K V) : (d.mapValues f).keys = d.keys := by
  simp only [keys, mapValues, List.map_map]
  rfl

omit [DecidableEq K] in
@[simp] theorem values_mapValues (f : V → W) (d : OrderedDict K V) :
    (d.mapValues f).values = d.values.map f := by
  simp only [values, mapValues, List.map_map]
  rfl

@[simp] theorem get?_mapValues (f : V → W) (d : OrderedDict K V) (k : K) :
    (d.mapValues f).get? k = (d.get? k).map f := by
  simp only [get?, mapValues, List.find?_map, Option.map_map]
  rfl

theorem mapValues_erase (f : V → W) (d : OrderedDict K V) (k : K) :
    (d.erase k).mapValues f = (d.mapValues f).erase k := by
  apply ext
  simp only [erase, mapValues, List.filter_map]
  rfl

theorem set_of_mem {d : OrderedDict K V} {k : K} (h : k ∈ d.keys) (v : V) :
    (d.set k v).entries = d.entries.map fun e => if e.1 = k then (k, v) else e := by
  rw [set, dif_pos h]

theorem set_of_not_mem {d : OrderedDict K V} {k : K} (h : k ∉ d.keys) (v : V) :
    (d.set k v).entries = d.entries ++ [(k, v)] := by
  rw [set, dif_neg h]

theorem mapValues_set (f : V → W) (d : OrderedDict K V) (k : K) (v : V) :
    (d.set k v).mapValues f = (d.mapValues f).set k (f v) := by
  apply ext
  by_cases hk : k ∈ d.keys
  · rw [set_of_mem (by rw [keys_mapValues]; exact hk)]
    simp only [mapValues, set_of_mem hk, List.map_map]
    apply List.map_congr_left
    intro e _
    show ((if e.1 = k then (k, v) else e).1, f (if e.1 = k then (k, v) else e).2) =
      if e.1 = k then (k, f v) else (e.1, f e.2)
    split <;> rfl
  · rw [set_of_not_mem (by rw [keys_mapValues]; exact hk)]
    simp only [mapValues, set_of_not_mem hk, List.map_append, List.map_singleton]

omit [DecidableEq K] in
theorem mapValues_congr {f g : V → W} {d : OrderedDict K V} (h : ∀ v ∈ d.values, f v = g v) :
    d.mapValues f = d.mapValues g := by
  apply ext
  apply List.map_congr_left
  intro e he
  rw [h e.2 (List.mem_map_of_mem he)]

omit [DecidableEq K] in
theorem mapValues_eq_self_iff {f : V → V} {d : OrderedDict K V} :
    d.mapValues f = d ↔ ∀ v ∈ d.values, f v = v := by
  apply Iff.intro
  · intro h v hv
    have hvalues := congrArg values h
    rw [values_mapValues] at hvalues
    exact (List.map_eq_map_iff.mp (hvalues.trans (List.map_id _).symm)) v hv
  · intro h
    apply ext
    rw [mapValues]
    conv_rhs => rw [← List.map_id d.entries]
    apply List.map_congr_left
    intro e he
    rw [h e.2 (List.mem_map_of_mem he)]
    rfl

/-- The value of an entry is what its key gives. -/
theorem get?_of_mem {d : OrderedDict K V} {e : K × V} (h : e ∈ d.entries) :
    d.get? e.1 = some e.2 := by
  obtain ⟨entries, hnodup⟩ := d
  simp only [get?]
  induction entries with
  | nil => cases h
  | cons a l ih =>
    rw [List.map_cons, List.nodup_cons] at hnodup
    rcases List.mem_cons.mp h with rfl | h
    · have hfirst : decide (e.1 = e.1) = true := decide_eq_true rfl
      rw [List.find?_cons, hfirst]
      rfl
    · have hne : a.1 ≠ e.1 := by
        intro heq
        exact hnodup.1 (heq ▸ List.mem_map_of_mem h)
      rw [List.find?_cons_of_neg (by rw [decide_eq_true_eq]; exact hne)]
      exact ih hnodup.2 h

theorem mem_erase {d : OrderedDict K V} {k : K} {e : K × V} :
    e ∈ (d.erase k).entries ↔ e ∈ d.entries ∧ e.1 ≠ k := by
  simp only [erase, List.mem_filter, decide_eq_true_eq]

theorem mem_set {d : OrderedDict K V} {k : K} {v : V} {e : K × V} :
    e ∈ (d.set k v).entries ↔ e = (k, v) ∨ e ∈ d.entries ∧ e.1 ≠ k := by
  by_cases hk : k ∈ d.keys
  · rw [set_of_mem hk, List.mem_map]
    apply Iff.intro
    · rintro ⟨a, ha, rfl⟩
      split
      · exact Or.inl rfl
      · rename_i hne
        exact Or.inr ⟨ha, hne⟩
    · rintro (rfl | ⟨he, hne⟩)
      · obtain ⟨a, ha, hak⟩ := List.mem_map.mp hk
        exact ⟨a, ha, if_pos hak⟩
      · exact ⟨e, he, if_neg hne⟩
  · rw [set_of_not_mem hk, List.mem_append, List.mem_singleton]
    apply Iff.intro
    · rintro (he | rfl)
      · exact Or.inr ⟨he, fun heq => hk (heq ▸ List.mem_map_of_mem he)⟩
      · exact Or.inl rfl
    · rintro (rfl | ⟨he, -⟩)
      · exact Or.inr rfl
      · exact Or.inl he

/-! ## Filling a dictionary key by key -/

/-- `result = {}; for key in d: result[key] = f(key)`, for an `f` that can fail. -/
def fillFrom {E : Type} (d : OrderedDict K V) (f : K → Except E W) : Except E (OrderedDict K W) :=
  d.keys.foldlM (fun result key => do
    let value ← f key
    pure (result.set key value)) empty

theorem foldlM_set {E : Type} {f : K → Except E W} {g : V → W} (l : List (K × V))
    (hf : ∀ e ∈ l, f e.1 = .ok (g e.2)) (result : OrderedDict K W)
    (hnodup : (result.keys ++ l.map Prod.fst).Nodup) :
    ∃ d, (l.map Prod.fst).foldlM (fun result key => do
        let value ← f key
        pure (result.set key value)) result = Except.ok d ∧
      d.entries = result.entries ++ l.map fun e => (e.1, g e.2) := by
  induction l generalizing result with
  | nil => exact ⟨result, rfl, (List.append_nil _).symm⟩
  | cons e l ih =>
    have hnew : e.1 ∉ result.keys := by
      rw [List.map_cons, List.nodup_append'] at hnodup
      intro hmem
      exact hnodup.2.2 hmem List.mem_cons_self
    have hentries := set_of_not_mem hnew (g e.2)
    obtain ⟨d, hd, hde⟩ := ih (fun a ha => hf a (List.mem_cons_of_mem _ ha))
      (result.set e.1 (g e.2)) (by
        have hkeys : (result.set e.1 (g e.2)).keys = result.keys ++ [e.1] := by
          rw [keys, hentries, List.map_append, List.map_singleton]
          rfl
        rw [hkeys, List.append_assoc]
        exact hnodup)
    refine ⟨d, ?_, ?_⟩
    · rw [List.map_cons, List.foldlM_cons, hf e List.mem_cons_self]
      exact hd
    · rw [hde, hentries, List.append_assoc]
      rfl

/-- Filling with what `f` makes of each value is `mapValues`. -/
theorem fillFrom_eq {E : Type} {d : OrderedDict K V} {f : K → Except E W} {g : V → W}
    (hf : ∀ e ∈ d.entries, f e.1 = .ok (g e.2)) : d.fillFrom f = .ok (d.mapValues g) := by
  obtain ⟨d', hd', hentries⟩ := foldlM_set d.entries hf empty d.nodup
  rw [fillFrom, keys, hd']
  exact congrArg Except.ok (ext hentries)

end OrderedDict

end GidsStack
