/-
  GidsStack.Loader.Merge

  A registered `CIDS` batch against the synchronous one.

  Formatting commutes with slicing, so the results that the iterator merges are the slices of
  the synchronous result (`fetchSamples_slice`).  Merging puts rows and items together
  again, but makes a list of the copies of a field that is not sliced, and a list of a
  tuple inside a list; where there is neither, and only there, the two results are the same
  (`registered_eq_sync_iff`).
-/

import GidsStack.Loader.Batch

namespace GidsStack.Loader

open GidsStack.Cuts

/-! ## Fallible maps -/

theorem mapM_eq_ok_iff {E X Y : Type} {f : X → Except E Y} {l : List X} {ys : List Y} :
    l.mapM f = .ok ys ↔ l.map f = ys.map .ok := by
  induction l generalizing ys with
  | nil => cases ys <;> simp [pure, Except.pure]
  | cons x l ih =>
    rw [List.mapM_cons, List.map_cons]
    cases hx : f x with
    | error e => cases ys <;> simp [bind, Except.bind]
    | ok y =>
      cases hl : l.mapM f with
      | error e =>
        cases ys with
        | nil => simp [bind, Except.bind]
        | cons z zs =>
          have hne : l.map f ≠ zs.map .ok := fun h => by
            rw [ih.mpr h] at hl
            cases hl
          simp [bind, Except.bind, hne]
      | ok tail =>
        have htail := ih.mp hl
        cases ys with
        | nil => simp [bind, Except.bind, pure, Except.pure]
        | cons z zs =>
          have hinj : Function.Injective (Except.ok : Y → Except E Y) := fun _ _ h => by
            cases h
            rfl
          simp [bind, Except.bind, pure, Except.pure, htail, (List.map_injective_iff.mpr hinj).eq_iff]

theorem mapM_eq_ok {E X Y : Type} {f : X → Except E Y} {g : X → Y} {l : List X}
    (h : ∀ x ∈ l, f x = .ok (g x)) : l.mapM f = .ok (l.map g) := by
  rw [mapM_eq_ok_iff, List.map_map]
  exact List.map_congr_left h

theorem mapM_slice {E X Y : Type} {f : X → Except E Y} {l : List X} {ys : List Y}
    (h : l.mapM f = .ok ys) (r : Nat × Nat) : (slice l r).mapM f = .ok (slice ys r) := by
  rw [mapM_eq_ok_iff] at h ⊢
  rw [map_slice, h, map_slice]

theorem map_eq_self_iff {X : Type} {f : X → X} {l : List X} : l.map f = l ↔ ∀ x ∈ l, f x = x := by
  conv_lhs => rhs; rw [← List.map_id l]
  exact List.map_eq_map_iff

variable {I A : Type}

/-! ## One field -/

namespace Value

theorem asTensor_slice {v : Value I A} {ids : List A} (h : v.asTensor = .ok ids) (r : Nat × Nat) :
    (v.slice r).asTensor = .ok (Cuts.slice ids r) := by
  cases v with
  | tensor info rows =>
    cases h
    rfl
  | ndarray info rows =>
    cases h
    rfl
  | list items => exact mapM_slice h r
  | tuple items => exact mapM_slice h r
  | other object => cases h

/-- What merging makes of the `n` slices of a field. -/
def merged (mergeTuple : List (Value I A) → Value I A) (n : Nat) : Value I A → Value I A
  | .tuple items => mergeTuple items
  | .other object => .list (List.replicate n (.other object))
  | v => v

/-- What merging makes of the slices `rs` of a field. -/
def joined (mergeTuple : List (Value I A) → Value I A) (rs : List (Nat × Nat)) :
    Value I A → Value I A
  | .tensor info rows => .tensor info (rs.flatMap (Cuts.slice rows))
  | .ndarray info rows => .ndarray info (rs.flatMap (Cuts.slice rows))
  | .list items => .list (rs.flatMap (Cuts.slice items))
  | .tuple items => mergeTuple (rs.flatMap (Cuts.slice items))
  | .other object => .list (List.replicate rs.length (.other object))

/-- The slices of a cut make up the field. -/
theorem joined_eq_merged (mergeTuple : List (Value I A) → Value I A) {rs : List (Nat × Nat)}
    {v : Value I A} (hcut : ∀ n, v.length? = some n → Cut 0 n rs) :
    v.joined mergeTuple rs = v.merged mergeTuple rs.length := by
  cases v with
  | tensor info rows => rw [joined, (hcut _ rfl).flatMap_slice_all, merged] <;> simp
  | ndarray info rows => rw [joined, (hcut _ rfl).flatMap_slice_all, merged] <;> simp
  | list items => rw [joined, (hcut _ rfl).flatMap_slice_all, merged] <;> simp
  | tuple items => rw [joined, (hcut _ rfl).flatMap_slice_all, merged]
  | other object => rfl

/-- The fields that merging gives back; `inList` tells the fields of lists. -/
def joins (inList : Bool) : Value I A → Bool
  | .tuple _ => !inList
  | .other _ => false
  | _ => true

theorem merged_tuple_eq_iff (n : Nat) (v : Value I A) :
    v.merged .tuple n = v ↔ v.joins false = true := by
  cases v <;> simp [merged, joins]

theorem merged_list_eq_iff (n : Nat) (v : Value I A) :
    v.merged .list n = v ↔ v.joins true = true := by
  cases v <;> simp [merged, joins]

end Value

/-- The slices of the rows of a field, joined. -/
theorem joined_slices {X Y : Type} {f : Value I A → Except PyError (List X)} {v : Value I A}
    {l : List X} {rs : List (Nat × Nat)} (hf : ∀ r, f (v.slice r) = .ok (slice l r))
    (make : List X → Y) :
    ((rs.map v.slice).mapM f >>= fun parts => pure (make parts.flatten)) =
      Except.ok (make (rs.flatMap (slice l))) := by
  have hparts : (rs.map v.slice).mapM f = .ok (rs.map (slice l)) := by
    rw [List.mapM_map]
    exact mapM_eq_ok fun r _ => hf r
  rw [hparts]
  show Except.ok (make (rs.map (slice l)).flatten) = _
  rw [← List.flatMap_def]

namespace Batch

theorem mergeValues_slices (mergeTuple : List (Value I A) → Value I A) (v : Value I A)
    {rs : List (Nat × Nat)} (hne : rs ≠ []) :
    mergeValues mergeTuple (rs.map v.slice) = .ok (v.joined mergeTuple rs) := by
  obtain ⟨r, rest, rfl⟩ := List.exists_cons_of_ne_nil hne
  cases v with
  | tensor info rows => exact joined_slices (fun _ => rfl) (Value.tensor info)
  | ndarray info rows => exact joined_slices (fun _ => rfl) (Value.ndarray info)
  | list items => exact joined_slices (fun _ => rfl) Value.list
  | tuple items => exact joined_slices (fun _ => rfl) mergeTuple
  | other object =>
    show Except.ok (Value.list _) = Except.ok (Value.list _)
    congr 2
    exact List.map_const'

/-! ## One batch -/

theorem sampleIds_slice {b : Batch I A} {ids : List A} (h : b.sampleIdsFromBatch = .ok ids)
    (r : Nat × Nat) : (b.sliceBatch r).sampleIdsFromBatch = .ok (slice ids r) := by
  cases b with
  | mapping d =>
    simp only [sampleIdsFromBatch, sliceBatch, OrderedDict.get?_mapValues] at h ⊢
    cases hget : d.get? "sample_ids" with
    | none =>
      rw [hget] at h
      cases h
    | some v =>
      rw [hget] at h
      exact Value.asTensor_slice h r
  | tuple fields =>
    cases fields with
    | nil => cases h
    | cons v rest => exact Value.asTensor_slice h r
  | list fields =>
    cases fields with
    | nil => cases h
    | cons v rest => exact Value.asTensor_slice h r
  | value v => exact Value.asTensor_slice h r

/-- Formatting commutes with slicing. -/
theorem format_slice (b : Batch I A) (images : Value I A) (r : Nat × Nat) :
    (b.sliceBatch r).formatReturnBatch (images.slice r) =
      (b.formatReturnBatch images).sliceBatch r := by
  cases b with
  | mapping d =>
    simp only [sliceBatch, formatReturnBatch, OrderedDict.mapValues_set,
      OrderedDict.mapValues_erase]
  | tuple fields =>
    simp only [sliceBatch, formatReturnBatch, List.length_map]
    split <;> simp only [List.map_cons, List.map_nil, List.map_tail]
  | list fields =>
    simp only [sliceBatch, formatReturnBatch, List.length_map]
    split <;> simp only [List.map_cons, List.map_nil, List.map_tail]
  | value v => rfl

def isList : Batch I A → Bool
  | .list _ => true
  | _ => false

/-- The fields that the returned batch keeps of the given one. -/
def carried : Batch I A → List (Value I A)
  | .mapping d => ((d.erase "sample_ids").erase "images").values
  | .tuple fields => fields.tail
  | .list fields => fields.tail
  | .value _ => []

/-- Merging gives every kept field back. -/
def Joins (b : Batch I A) : Prop := ∀ v ∈ b.carried, v.joins b.isList = true

instance (b : Batch I A) : Decidable b.Joins := inferInstanceAs (Decidable (∀ v ∈ b.carried, _))

theorem mem_fields_format {b : Batch I A} {images v : Value I A} :
    v ∈ (b.formatReturnBatch images).fields ↔ v = images ∨ v ∈ b.carried := by
  cases b with
  | mapping d =>
    simp only [formatReturnBatch, fields, carried, OrderedDict.values, List.mem_map,
      OrderedDict.mem_set, OrderedDict.mem_erase, Prod.exists, exists_eq_right, Prod.mk.injEq]
    apply Iff.intro
    · rintro ⟨key, ⟨rfl, rfl⟩ | h⟩
      · exact Or.inl rfl
      · exact Or.inr ⟨key, h⟩
    · rintro (rfl | ⟨key, h⟩)
      · exact ⟨"images", Or.inl ⟨rfl, rfl⟩⟩
      · exact ⟨key, Or.inr h⟩
  | tuple fields =>
    rw [formatReturnBatch, carried]
    split
    · rename_i hone
      have htail : fields.tail = [] := List.eq_nil_of_length_eq_zero (by
        rw [List.length_tail]
        omega)
      simp only [htail, Batch.fields, List.mem_singleton, List.not_mem_nil, or_false]
    · simp only [Batch.fields, List.mem_cons]
  | list fields =>
    rw [formatReturnBatch, carried]
    split
    · rename_i hone
      have htail : fields.tail = [] := List.eq_nil_of_length_eq_zero (by
        rw [List.length_tail]
        omega)
      simp only [htail, Batch.fields, List.mem_singleton, List.not_mem_nil, or_false]
    · simp only [Batch.fields, List.mem_cons]
  | value v =>
    simp only [formatReturnBatch, fields, carried, List.mem_singleton, List.not_mem_nil, or_false]

theorem mem_fields_of_carried {b : Batch I A} {v : Value I A} (h : v ∈ b.carried) :
    v ∈ b.fields := by
  cases b with
  | mapping d =>
    obtain ⟨e, he, rfl⟩ := List.mem_map.mp h
    exact List.mem_map_of_mem (OrderedDict.mem_erase.mp (OrderedDict.mem_erase.mp he).1).1
  | tuple fields => exact List.mem_of_mem_tail h
  | list fields => exact List.mem_of_mem_tail h
  | value v => cases h

theorem isList_format (b : Batch I A) (images : Value I A) :
    (b.formatReturnBatch images).isList = b.isList := by
  cases b with
  | mapping d => rfl
  | tuple fields =>
    rw [formatReturnBatch]
    split <;> rfl
  | list fields =>
    rw [formatReturnBatch]
    split <;> rfl
  | value v => rfl

/-- The images are rows of a tensor, so the kept fields decide. -/
theorem joins_format_iff (b : Batch I A) (info : I) (rows : List A) :
    (∀ v ∈ (b.formatReturnBatch (.tensor info rows)).fields,
      v.joins (b.formatReturnBatch (.tensor info rows)).isList = true) ↔ b.Joins := by
  simp only [isList_format, mem_fields_format]
  apply Iff.intro
  · intro h v hv
    exact h v (Or.inr hv)
  · rintro h v (rfl | hv)
    · rfl
    · exact h v hv

theorem format_eq_value {b : Batch I A} {images v : Value I A}
    (h : b.formatReturnBatch images = .value v) : v = images ∧ b.carried = [] := by
  cases b with
  | mapping d => cases h
  | tuple fields =>
    rw [formatReturnBatch] at h
    split at h <;> cases h
  | list fields =>
    rw [formatReturnBatch] at h
    split at h <;> cases h
  | value w =>
    cases h
    exact ⟨rfl, rfl⟩

/-! ## Merging the slices of a batch -/

/-- What merging makes of the slices `rs` of a batch. -/
def joined (rs : List (Nat × Nat)) : Batch I A → Batch I A
  | .mapping d => .mapping (d.mapValues (Value.joined .tuple rs))
  | .tuple fields => .tuple (fields.map (Value.joined .tuple rs))
  | .list fields => .list (fields.map (Value.joined .list rs))
  | .value v => .value (v.joined .tuple rs)

/-- What merging makes of `n` slices of a batch. -/
def merged (n : Nat) : Batch I A → Batch I A
  | .mapping d => .mapping (d.mapValues (Value.merged .tuple n))
  | .tuple fields => .tuple (fields.map (Value.merged .tuple n))
  | .list fields => .list (fields.map (Value.merged .list n))
  | .value v => .value v

theorem mergeFields_slices (mergeTuple : List (Value I A) → Value I A)
    (make : List (Value I A) → Batch I A) (fields : List (Value I A)) {rs : List (Nat × Nat)}
    (hget : ∀ i l v, l[i]? = some v → (make l).getField i = .ok v) (hne : rs ≠ []) :
    mergeFields mergeTuple fields.length (rs.map fun r => make (fields.map (Value.slice · r))) =
      .ok (fields.map (Value.joined mergeTuple rs)) := by
  rw [mergeFields, mapM_eq_ok_iff]
  apply List.ext_getElem
  · simp only [List.length_map, List.length_range]
  · intro i h1 _
    have hi : i < fields.length := by simpa only [List.length_map, List.length_range] using h1
    have hvalues : (rs.map fun r => make (fields.map (Value.slice · r))).mapM (getField i) =
        .ok (rs.map fields[i].slice) := by
      rw [List.mapM_map]
      apply mapM_eq_ok
      intro r _
      apply hget
      rw [List.getElem?_map, List.getElem?_eq_getElem hi]
      rfl
    rw [List.getElem_map, List.getElem_map, List.getElem_map, List.getElem_range, hvalues]
    exact mergeValues_slices mergeTuple _ hne

theorem getKey_slice {d : OrderedDict String (Value I A)} {e : String × Value I A}
    (he : e ∈ d.entries) (r : Nat × Nat) :
    ((Batch.mapping d).sliceBatch r).getKey e.1 = .ok (e.2.slice r) := by
  have hget : (d.mapValues (Value.slice · r)).get? e.1 = some (e.2.slice r) := by
    rw [OrderedDict.get?_mapValues, OrderedDict.get?_of_mem he]
    rfl
  simp only [sliceBatch, getKey, hget]

theorem mergeMapping_slices (d : OrderedDict String (Value I A)) {rs : List (Nat × Nat)}
    (hne : rs ≠ []) (first : OrderedDict String (Value I A)) (hkeys : first.keys = d.keys) :
    first.fillFrom (fun key => do
        mergeValues .tuple (← (rs.map (Batch.mapping d).sliceBatch).mapM (getKey key))) =
      .ok (d.mapValues (Value.joined .tuple rs)) := by
  have hfill : d.fillFrom (fun key => do
      mergeValues .tuple (← (rs.map (Batch.mapping d).sliceBatch).mapM (getKey key))) =
      .ok (d.mapValues (Value.joined .tuple rs)) := by
    apply OrderedDict.fillFrom_eq
    intro e he
    have hvalues : (rs.map (Batch.mapping d).sliceBatch).mapM (getKey e.1) =
        .ok (rs.map e.2.slice) := by
      rw [List.mapM_map]
      apply mapM_eq_ok
      intro r _
      exact getKey_slice he r
    rw [hvalues]
    exact mergeValues_slices _ _ hne
  rw [OrderedDict.fillFrom, hkeys]
  exact hfill

/-- Merging at least two slices of a container. -/
theorem mergeReturnBatches_slices (b : Batch I A) {rs : List (Nat × Nat)} (htwo : 2 ≤ rs.length)
    (hvalue : ∀ v, b = .value v → ∃ info rows, v = .tensor info rows) :
    mergeReturnBatches (rs.map b.sliceBatch) = .ok (b.joined rs) := by
  obtain ⟨r, s, rest, rfl⟩ : ∃ r s rest, rs = r :: s :: rest := by
    match rs, htwo with
    | r :: s :: rest, _ => exact ⟨r, s, rest, rfl⟩
  have hne : r :: s :: rest ≠ [] := List.cons_ne_nil _ _
  cases b with
  | mapping d =>
    show (do return Batch.mapping (← _)) = _
    rw [mergeMapping_slices d hne _ (OrderedDict.keys_mapValues _ _)]
    rfl
  | tuple fields =>
    have hfields := mergeFields_slices .tuple .tuple fields (fun i l v h => by
      simp only [getField, h]) hne
    show (do return Batch.tuple (← mergeFields .tuple (fields.map _).length _)) = _
    rw [List.length_map]
    show (do return Batch.tuple (← mergeFields .tuple fields.length
      ((r :: s :: rest).map fun r => Batch.tuple (fields.map (Value.slice · r))))) = _
    rw [hfields]
    rfl
  | list fields =>
    have hfields := mergeFields_slices .list .list fields (fun i l v h => by
      simp only [getField, h]) hne
    show (do return Batch.list (← mergeFields .list (fields.map _).length _)) = _
    rw [List.length_map]
    show (do return Batch.list (← mergeFields .list fields.length
      ((r :: s :: rest).map fun r => Batch.list (fields.map (Value.slice · r))))) = _
    rw [hfields]
    rfl
  | value v =>
    obtain ⟨info, rows, rfl⟩ := hvalue v rfl
    have hvalues : ((r :: s :: rest).map (Batch.value (.tensor info rows)).sliceBatch).mapM asValue =
        .ok ((r :: s :: rest).map (Value.tensor info rows).slice) := by
      rw [List.mapM_map]
      exact mapM_eq_ok fun r _ => rfl
    show (List.mapM _ ((r :: s :: rest).map (Batch.value (.tensor info rows)).sliceBatch) >>= _) = _
    rw [hvalues]
    exact joined_slices (fun _ => rfl) (fun rows => Batch.value (.tensor info rows))

/-- The slices of a cut make up the batch. -/
theorem joined_eq_merged {b : Batch I A} {rs : List (Nat × Nat)}
    (hcut : ∀ v ∈ b.fields, ∀ n, v.length? = some n → Cut 0 n rs)
    (hvalue : ∀ v, b = .value v → ∃ info rows, v = .tensor info rows) :
    b.joined rs = b.merged rs.length := by
  cases b with
  | mapping d =>
    rw [joined, merged]
    congr 1
    apply OrderedDict.mapValues_congr
    intro v hv
    exact Value.joined_eq_merged _ (hcut v hv)
  | tuple fields =>
    rw [joined, merged]
    congr 1
    exact List.map_congr_left fun v hv => Value.joined_eq_merged _ (hcut v hv)
  | list fields =>
    rw [joined, merged]
    congr 1
    exact List.map_congr_left fun v hv => Value.joined_eq_merged _ (hcut v hv)
  | value v =>
    obtain ⟨info, rows, rfl⟩ := hvalue v rfl
    rw [joined, merged, Value.joined_eq_merged _ (hcut _ (List.mem_singleton_self _)),
      Value.merged] <;> simp

/-- A merged batch is the batch itself if every field is. -/
theorem merged_eq_iff (n : Nat) (b : Batch I A) :
    b.merged n = b ↔ (∀ v ∈ b.fields, v.joins b.isList = true) ∨ ∃ v, b = .value v := by
  cases b with
  | mapping d =>
    simp only [merged, mapping.injEq, OrderedDict.mapValues_eq_self_iff, fields, isList,
      Value.merged_tuple_eq_iff, reduceCtorEq, exists_false, or_false]
  | tuple fields =>
    simp only [merged, tuple.injEq, Batch.fields, isList, reduceCtorEq, exists_false, or_false,
      ← Value.merged_tuple_eq_iff n]
    exact map_eq_self_iff
  | list fields =>
    simp only [merged, list.injEq, Batch.fields, isList, reduceCtorEq, exists_false, or_false,
      ← Value.merged_list_eq_iff n]
    exact map_eq_self_iff
  | value v => simp only [merged, value.injEq, exists_eq', or_true]

end Batch

/-! ## Registered and synchronous reads -/

/-- The batches that `CIDS` takes: `sampleIds` samples, and as many elements in every field
    that is sliced. -/
structure Batch.Accepted (b : Batch I A) (sampleIds : List A) : Prop where
  sampleIds_eq : b.sampleIdsFromBatch = .ok sampleIds
  length_eq : ∀ v ∈ b.fields, ∀ n, v.length? = some n → n = sampleIds.length

section Reads

variable (src : ImageSource I A) {b : Batch I A} {sampleIds : List A}

theorem fetchSamples_eq (h : b.sampleIdsFromBatch = .ok sampleIds) :
    fetchSamples src b = .ok (b.formatReturnBatch (src.images sampleIds)) := by
  rw [fetchSamples, h]
  rfl

/-- The read of a sub-batch is a slice of the read of the batch. -/
theorem fetchSamples_slice (h : b.sampleIdsFromBatch = .ok sampleIds) (r : Nat × Nat) :
    fetchSamples src (b.sliceBatch r) =
      .ok ((b.formatReturnBatch (src.images sampleIds)).sliceBatch r) := by
  rw [fetchSamples_eq src (Batch.sampleIds_slice h r), ← Batch.format_slice]
  congr 2
  exact congrArg (Value.tensor src.info) (map_slice src.image sampleIds r)

theorem splitBatch_of_le (h : b.sampleIdsFromBatch = .ok sampleIds) {registeredSplit : Nat}
    (hle : min registeredSplit sampleIds.length ≤ 1) :
    b.splitBatch registeredSplit = .ok [b] := by
  rw [Batch.splitBatch, h]
  show (if sampleIds.length = 0 then pure [b] else
    if min registeredSplit sampleIds.length ≤ 1 then pure [b] else _) = _
  rw [if_pos hle]
  split <;> rfl

theorem splitBatch_of_lt (h : b.sampleIdsFromBatch = .ok sampleIds) {registeredSplit : Nat}
    (hlt : 1 < min registeredSplit sampleIds.length) :
    ∃ rs, b.splitBatch registeredSplit = .ok (rs.map b.sliceBatch) ∧
      Cut 0 sampleIds.length rs ∧ 2 ≤ rs.length := by
  obtain ⟨split, hsplit⟩ : ∃ split, min registeredSplit sampleIds.length = split := ⟨_, rfl⟩
  have hle : split ≤ sampleIds.length := hsplit ▸ Nat.min_le_right _ _
  rw [hsplit] at hlt
  have hchunk : 0 < (sampleIds.length + split - 1) / split := Nat.div_pos (by omega) (by omega)
  -- at least two chunks: each is shorter than the batch
  have hshort : (sampleIds.length + split - 1) / split < sampleIds.length := by
    apply Nat.div_lt_of_lt_mul
    have htwo : 2 * sampleIds.length ≤ split * sampleIds.length := Nat.mul_le_mul_right _ hlt
    omega
  have hcut := stepRanges_cut_zero (n := sampleIds.length) hchunk
  refine ⟨_, ?_, hcut, hcut.two_le_length (by omega) fun r hr => ?_⟩
  · rw [Batch.splitBatch, h]
    show (if sampleIds.length = 0 then _ else if min registeredSplit sampleIds.length ≤ 1 then _
      else _) = _
    rw [hsplit, if_neg (by omega), if_neg (by omega)]
    rfl
  · have := stepRanges_le hr
    omega

/-- The samples of the sub-batches. -/
theorem splitBatch_ok (h : b.sampleIdsFromBatch = .ok sampleIds) (registeredSplit : Nat) :
    ∃ splitBatches, b.splitBatch registeredSplit = .ok splitBatches ∧
      splitBatches ≠ [] ∧ (sampleIds = [] → splitBatches = [b]) ∧
      ∀ split ∈ splitBatches, ∃ part, split.sampleIdsFromBatch = .ok part ∧
        (sampleIds ≠ [] → part ≠ []) := by
  rcases Nat.lt_or_ge 1 (min registeredSplit sampleIds.length) with hmany | hone
  · obtain ⟨rs, hsplit, hcut, htwo⟩ := splitBatch_of_lt h hmany
    refine ⟨_, hsplit, ?_, fun hnil => ?_, fun split hmem => ?_⟩
    · rw [← List.length_pos_iff_ne_nil, List.length_map]
      omega
    · rw [hnil, List.length_nil] at hmany
      omega
    · obtain ⟨r, hr, rfl⟩ := List.mem_map.mp hmem
      refine ⟨_, Batch.sampleIds_slice h r, fun _ => ?_⟩
      obtain ⟨-, hlt, hle⟩ := hcut.mem_bounds hr
      rw [← List.length_pos_iff_ne_nil, length_slice hle]
      omega
  · refine ⟨_, splitBatch_of_le h hone, List.cons_ne_nil _ _, fun _ => rfl, fun split hmem => ?_⟩
    rw [List.mem_singleton.mp hmem]
    exact ⟨_, h, id⟩

theorem fetchRegistered_of_le (h : b.sampleIdsFromBatch = .ok sampleIds) {registeredSplit : Nat}
    (hle : min registeredSplit sampleIds.length ≤ 1) :
    fetchRegistered src registeredSplit b = fetchSamples src b := by
  rw [fetchRegistered, splitBatch_of_le h hle]
  show (do Batch.mergeReturnBatches (← List.mapM _ _)) = _
  rw [List.mapM_cons, fetchSamples_eq src h]
  rfl

/-- A batch read in several pieces: the slices of the synchronous result, merged. -/
theorem fetchRegistered_of_lt (h : b.sampleIdsFromBatch = .ok sampleIds) {registeredSplit : Nat}
    (hlt : 1 < min registeredSplit sampleIds.length) :
    ∃ rs, Cut 0 sampleIds.length rs ∧ fetchRegistered src registeredSplit b =
      .ok ((b.formatReturnBatch (src.images sampleIds)).joined rs) := by
  obtain ⟨rs, hsplit, hcut, htwo⟩ := splitBatch_of_lt h hlt
  have hreads : (rs.map b.sliceBatch).mapM (fetchSamples src) =
      .ok (rs.map (b.formatReturnBatch (src.images sampleIds)).sliceBatch) := by
    rw [List.mapM_map]
    exact mapM_eq_ok fun r _ => fetchSamples_slice src h r
  refine ⟨rs, hcut, ?_⟩
  rw [fetchRegistered, hsplit]
  show (do Batch.mergeReturnBatches (← List.mapM _ _)) = _
  rw [hreads]
  exact Batch.mergeReturnBatches_slices _ htwo fun v hv => ⟨_, _, (Batch.format_eq_value hv).1⟩

/-- A registered read of a batch whose samples can be told never fails. -/
theorem fetchRegistered_ok (h : b.sampleIdsFromBatch = .ok sampleIds) (registeredSplit : Nat) :
    ∃ r, fetchRegistered src registeredSplit b = .ok r := by
  rcases Nat.lt_or_ge 1 (min registeredSplit sampleIds.length) with hmany | hone
  · obtain ⟨rs, _, hread⟩ := fetchRegistered_of_lt src h hmany
    exact ⟨_, hread⟩
  · exact ⟨_, (fetchRegistered_of_le src h hone).trans (fetchSamples_eq src h)⟩

/-- A registered batch is the synchronous one exactly when it is read in one piece, or all
    the fields it keeps are sliced and no tuple stands in a list. -/
theorem registered_eq_sync_iff (registeredSplit : Nat) (h : b.Accepted sampleIds) :
    fetchRegistered src registeredSplit b = fetchSamples src b ↔
      min registeredSplit sampleIds.length ≤ 1 ∨ b.Joins := by
  have hids := h.sampleIds_eq
  rcases Nat.lt_or_ge 1 (min registeredSplit sampleIds.length) with hmany | hone
  · obtain ⟨rs, hcut, hread⟩ := fetchRegistered_of_lt src hids hmany
    have hlength : ∀ v ∈ (b.formatReturnBatch (src.images sampleIds)).fields,
        ∀ n, v.length? = some n → Cut 0 n rs := by
      intro v hv n hn
      have : n = sampleIds.length := by
        rcases Batch.mem_fields_format.mp hv with rfl | hv
        · rw [ImageSource.images, Value.length?, List.length_map, Option.some.injEq] at hn
          exact hn.symm
        · exact h.length_eq v (Batch.mem_fields_of_carried hv) n hn
      rw [this]
      exact hcut
    have hregistered : fetchRegistered src registeredSplit b =
        .ok ((b.formatReturnBatch (src.images sampleIds)).merged rs.length) := by
      rw [hread, Batch.joined_eq_merged hlength fun v hv =>
        ⟨_, _, (Batch.format_eq_value hv).1⟩]
    rw [hregistered, fetchSamples_eq src hids, Except.ok.injEq, Batch.merged_eq_iff,
      ImageSource.images, b.joins_format_iff]
    apply Iff.intro
    · rintro (hjoins | ⟨v, hv⟩)
      · exact Or.inr hjoins
      · right
        intro w hw
        rw [(Batch.format_eq_value hv).2] at hw
        cases hw
    · intro hor
      exact Or.inl (hor.resolve_left (by omega))
  · exact ⟨fun _ => Or.inl hone, fun _ => fetchRegistered_of_le src hids hone⟩

end Reads

/-! ## Fields that do not come back -/

/-- A source whose image of a sample is its id. -/
def plainSource : ImageSource Unit Nat := ⟨(), id⟩

/-- Two samples with a tensor of labels. -/
def labelledBatch : Batch Unit Nat := .tuple [.tensor () [4, 7], .tensor () [0, 1]]

theorem labelledBatch_eq : fetchRegistered plainSource 2 labelledBatch =
    fetchSamples plainSource labelledBatch :=
  (registered_eq_sync_iff plainSource 2
    (⟨rfl, by decide⟩ : labelledBatch.Accepted [4, 7])).mpr (Or.inr (by decide))

/-- Two samples in a list, with a tuple of names. -/
def namedBatch : Batch Unit Nat := .list [.tensor () [4, 7], .tuple [.other 20, .other 21]]

/-- The tuple comes back as a list. -/
theorem namedBatch_ne : namedBatch.Accepted [4, 7] ∧
    fetchRegistered plainSource 2 namedBatch ≠ fetchSamples plainSource namedBatch := by
  apply And.intro
  · exact ⟨rfl, by decide⟩
  · intro h
    have hregistered : fetchRegistered plainSource 2 namedBatch =
        .ok (.list [.tensor () [4, 7], .list [.other 20, .other 21]]) := rfl
    have hsync : fetchSamples plainSource namedBatch =
        .ok (.list [.tensor () [4, 7], .tuple [.other 20, .other 21]]) := rfl
    rw [hregistered, hsync] at h
    simp only [Except.ok.injEq, Batch.list.injEq, List.cons.injEq, reduceCtorEq, false_and,
      and_false] at h

end GidsStack.Loader
