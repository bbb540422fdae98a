/-
  GidsStack.Loader.Epoch

  `fetch_feature` on homogeneous graphs: one call for each batch that `_PrefetchingIter`
  returns, over all epochs of a loader.

  Two buffers live as long as the loader.  The window buffer holds sampled batches that
  have not been returned, the other one the features of its first batches.  Whatever is in
  the window buffer when the sampler stops is not returned in that epoch; since a call
  never takes more out than it puts in, an epoch is complete only if no call ever looks
  ahead (`epochsComplete_iff`).
-/

import Mathlib

namespace GidsStack.Loader

/-! ## The loader -/

/-- A sampled batch: the input nodes, and the fields that only the caller reads. -/
structure SampledBatch (N R : Type) where
  inputNodes : List N
  rest : R
  deriving DecidableEq

/-- The settings of `GIDS`. -/
structure WindowConfig where
  windowBufferingFlag : Bool
  wbSize : Nat
  accumulatorFlag : Bool
  requiredAccesses : ℚ

/-- What the store answers: the feature of a node, and the CPU accesses that
    `get_cpu_access_count` reports after each merged read. -/
structure FeatureSource (N F : Type) where
  feature : N → F
  cpuAccessCount : Nat → Nat

/-- The buffers of a loader. `mergedReads` only numbers the merged reads. -/
structure WindowState (N R F : Type) where
  windowBuffer : List (SampledBatch N R)
  returnTorchBuffer : List (List F)
  wbInit : Bool
  prevCpuAccess : Nat
  mergedReads : Nat

variable {N R F : Type}

/-- A new loader. -/
def WindowState.init : WindowState N R F where
  windowBuffer := []
  returnTorchBuffer := []
  wbInit := false
  prevCpuAccess := 0
  mergedReads := 0

/-- A batch with its feature tensor appended. -/
abbrev Returned (N R F : Type) := SampledBatch N R × List F

/-- The features of the batch's own nodes. -/
def FeatureSource.features (src : FeatureSource N F) (b : SampledBatch N R) : List F :=
  b.inputNodes.map src.feature

/-! ## One call -/

/-- `fill_wb`: whether the sampler had `num` batches, the window buffer, and what is left of
    the sampler. -/
def fillWb : Nat → List (SampledBatch N R) → List (SampledBatch N R) →
    Bool × List (SampledBatch N R) × List (SampledBatch N R)
  | 0, windowBuffer, it => (true, windowBuffer, it)
  | _ + 1, windowBuffer, [] => (false, windowBuffer, [])
  | num + 1, windowBuffer, batch :: it => fillWb num (windowBuffer ++ [batch]) it

/-- The accumulator loop once it has used up the window buffer: it samples until the accesses
    suffice. `none` is `StopIteration`. -/
def accumulateSampled (prevCpuAccess : Nat) :
    List (SampledBatch N R) → List (SampledBatch N R) → Nat → ℚ → Nat →
      Option Nat × List (SampledBatch N R) × List (SampledBatch N R)
  | [], windowBuffer, _, _, _ => (none, windowBuffer, [])
  | batch :: it, windowBuffer, currentAccess, requiredAccesses, numIter =>
    let currentAccess := currentAccess + batch.inputNodes.length
    let requiredAccesses := requiredAccesses + prevCpuAccess
    if requiredAccesses < currentAccess then (some (numIter + 1), windowBuffer ++ [batch], it)
    else accumulateSampled prevCpuAccess it (windowBuffer ++ [batch]) currentAccess
      requiredAccesses (numIter + 1)

/-- The accumulator loop over the batches of the window buffer. -/
def accumulateBuffered (prevCpuAccess : Nat) (windowBuffer it : List (SampledBatch N R)) :
    List (SampledBatch N R) → Nat → ℚ → Nat →
      Option Nat × List (SampledBatch N R) × List (SampledBatch N R)
  | [], currentAccess, requiredAccesses, numIter =>
    accumulateSampled prevCpuAccess it windowBuffer currentAccess requiredAccesses numIter
  | batch :: buffered, currentAccess, requiredAccesses, numIter =>
    let currentAccess := currentAccess + batch.inputNodes.length
    let requiredAccesses := requiredAccesses + prevCpuAccess
    if requiredAccesses < currentAccess then (some (numIter + 1), windowBuffer, it)
    else accumulateBuffered prevCpuAccess windowBuffer it buffered currentAccess
      requiredAccesses (numIter + 1)

section Fetch

variable (cfg : WindowConfig) (src : FeatureSource N F)

/-- The accumulator branch, with the sampled batch already in the window buffer: neither of
    the two `pop(0)` ever finds it empty. -/
def fetchAccumulated (s : WindowState N R F) (it : List (SampledBatch N R)) :
    Option (Returned N R F) × WindowState N R F × List (SampledBatch N R) :=
  match s.returnTorchBuffer, s.windowBuffer with
  | returnTen :: tens, returnBatch :: batches =>
    (some (returnBatch, returnTen), { s with returnTorchBuffer := tens, windowBuffer := batches }, it)
  | tens, _ =>
    match accumulateBuffered s.prevCpuAccess s.windowBuffer it s.windowBuffer 0
        cfg.requiredAccesses 0 with
    | (none, windowBuffer, it) => (none, { s with windowBuffer }, it)
    | (some numIter, windowBuffer, it) =>
      -- `read_feature_merged` of the first `num_iter` batches
      let read := (windowBuffer.take numIter).map src.features
      let s := { s with
        prevCpuAccess := src.cpuAccessCount s.mergedReads / numIter
        mergedReads := s.mergedReads + 1 }
      match tens ++ read, windowBuffer with
      | returnTen :: tens, returnB :: batches =>
        (some (returnB, returnTen),
          { s with returnTorchBuffer := tens, windowBuffer := batches }, it)
      | tens, windowBuffer =>
        (none, { s with returnTorchBuffer := tens, windowBuffer }, it)

/-- `fetch_feature`; `none` is `StopIteration`. -/
def fetchFeature (s : WindowState N R F) (it : List (SampledBatch N R)) :
    Option (Returned N R F) × WindowState N R F × List (SampledBatch N R) :=
  let (filled, windowBuffer, it) :=
    if cfg.windowBufferingFlag && !s.wbInit then fillWb cfg.wbSize s.windowBuffer it
    else (true, s.windowBuffer, it)
  if filled then
    let s := { s with windowBuffer, wbInit := s.wbInit || cfg.windowBufferingFlag }
    match it with
    | [] => (none, s, [])
    | nextBatch :: it =>
      let s := { s with windowBuffer := s.windowBuffer ++ [nextBatch] }
      if cfg.accumulatorFlag then fetchAccumulated cfg src s it
      else
        match s.windowBuffer with
        | [] => (none, s, it)
        | batch :: batches =>
          (some (batch, src.features batch), { s with windowBuffer := batches }, it)
  else (none, { s with windowBuffer }, it)

/-! ## Epochs -/

/-- An epoch: calls until `StopIteration`. Every call that returns takes a batch from the
    sampler, so `it.length + 1` calls are enough. -/
def runEpoch : Nat → WindowState N R F → List (SampledBatch N R) →
    List (Returned N R F) × WindowState N R F
  | 0, s, _ => ([], s)
  | calls + 1, s, it =>
    match fetchFeature cfg src s it with
    | (none, s, _) => ([], s)
    | (some returned, s, it) =>
      let (later, s) := runEpoch calls s it
      (returned :: later, s)

/-- Every epoch returns its own batches in order, each with its features, and leaves none
    behind. -/
def EpochsComplete (s : WindowState N R F) : List (List (SampledBatch N R)) → Prop
  | [] => True
  | epoch :: epochs =>
    let (returned, s') := runEpoch cfg src (epoch.length + 1) s epoch
    returned = epoch.map (fun b => (b, src.features b)) ∧ s'.windowBuffer = [] ∧
      EpochsComplete s' epochs

end Fetch

/-! ## The window buffer never shrinks -/

theorem length_fillWb_le (num : Nat) (windowBuffer it : List (SampledBatch N R)) :
    windowBuffer.length ≤ (fillWb num windowBuffer it).2.1.length := by
  induction num generalizing windowBuffer it with
  | zero => exact Nat.le_refl _
  | succ num ih =>
    cases it with
    | nil => exact Nat.le_refl _
    | cons batch it =>
      have h := ih (windowBuffer ++ [batch]) it
      rw [List.length_append] at h
      rw [fillWb]
      omega

theorem length_accumulateSampled_le (prev : Nat) (it windowBuffer : List (SampledBatch N R))
    (current : Nat) (required : ℚ) (numIter : Nat) :
    windowBuffer.length ≤
      (accumulateSampled prev it windowBuffer current required numIter).2.1.length := by
  induction it generalizing windowBuffer current required numIter with
  | nil => exact Nat.le_refl _
  | cons batch it ih =>
    rw [accumulateSampled]
    split
    · rw [List.length_append]
      omega
    · have h := ih (windowBuffer ++ [batch]) (current + batch.inputNodes.length)
        (required + prev) (numIter + 1)
      rw [List.length_append] at h
      omega

theorem length_accumulateBuffered_le (prev : Nat) (windowBuffer it buffered : List (SampledBatch N R))
    (current : Nat) (required : ℚ) (numIter : Nat) :
    windowBuffer.length ≤
      (accumulateBuffered prev windowBuffer it buffered current required numIter).2.1.length := by
  induction buffered generalizing current required numIter with
  | nil => exact length_accumulateSampled_le prev it windowBuffer current required numIter
  | cons batch buffered ih =>
    rw [accumulateBuffered]
    split
    · exact Nat.le_refl _
    · exact ih _ _ _

section Shrink

variable (cfg : WindowConfig) (src : FeatureSource N F)

/-- The accumulator returns at most the batch that the call has put in. -/
theorem length_fetchAccumulated_le (s : WindowState N R F) (it : List (SampledBatch N R)) :
    s.windowBuffer.length ≤ (fetchAccumulated cfg src s it).2.1.windowBuffer.length + 1 := by
  have hacc := length_accumulateBuffered_le s.prevCpuAccess s.windowBuffer it s.windowBuffer 0
    cfg.requiredAccesses 0
  rw [fetchAccumulated]
  split
  · rename_i hwb
    rw [hwb, List.length_cons]
  · split
    · rename_i heq
      rw [heq] at hacc
      exact Nat.le_succ_of_le hacc
    · rename_i heq
      rw [heq] at hacc
      simp only at hacc ⊢
      split <;> rename_i hwb
      · rw [List.length_cons] at hacc
        exact hacc
      · exact Nat.le_succ_of_le hacc

theorem length_fetchFeature_le (s : WindowState N R F) (it : List (SampledBatch N R)) :
    s.windowBuffer.length ≤ (fetchFeature cfg src s it).2.1.windowBuffer.length := by
  have hfill : s.windowBuffer.length ≤
      (if cfg.windowBufferingFlag && !s.wbInit then fillWb cfg.wbSize s.windowBuffer it
        else (true, s.windowBuffer, it)).2.1.length := by
    split
    · exact length_fillWb_le _ _ _
    · exact Nat.le_refl _
  rw [fetchFeature]
  generalize (if cfg.windowBufferingFlag && !s.wbInit then fillWb cfg.wbSize s.windowBuffer it
    else (true, s.windowBuffer, it)) = filled at hfill
  obtain ⟨ok, windowBuffer, it'⟩ := filled
  simp only at hfill ⊢
  split
  · cases it' with
    | nil => exact hfill
    | cons nextBatch it' =>
      simp only
      split
      · have h := length_fetchAccumulated_le cfg src
          { s with windowBuffer := windowBuffer ++ [nextBatch],
                   wbInit := s.wbInit || cfg.windowBufferingFlag } it'
        simp only [List.length_append, List.length_singleton] at h
        omega
      · split
        · rename_i hwb
          simp at hwb
        · rename_i hwb
          have h := congrArg List.length hwb
          simp only [List.length_append, List.length_cons] at h
          simp only
          omega
  · exact hfill

/-- A batch that is left in the window buffer stays behind to the end of the epoch. -/
theorem windowBuffer_ne_nil_of_runEpoch (calls : Nat) (s : WindowState N R F)
    (it : List (SampledBatch N R)) (h : s.windowBuffer ≠ []) :
    (runEpoch cfg src calls s it).2.windowBuffer ≠ [] := by
  induction calls generalizing s it with
  | zero => exact h
  | succ calls ih =>
    have hle := length_fetchFeature_le cfg src s it
    have hnext : (fetchFeature cfg src s it).2.1.windowBuffer ≠ [] := by
      rw [← List.length_pos_iff] at h ⊢
      omega
    rw [runEpoch]
    split
    · rename_i heq
      rw [heq] at hnext
      exact hnext
    · rename_i heq
      rw [heq] at hnext
      exact ih _ _ hnext

end Shrink

/-! ## Calls that do not look ahead -/

section Clean

variable (cfg : WindowConfig) (src : FeatureSource N F)

/-- No batches are sampled ahead for the window. -/
def WindowConfig.Idle : Prop := cfg.windowBufferingFlag = false ∨ cfg.wbSize = 0

/-- `prev_cpu_access` at merged read `j`, when each merged read so far was of one batch. -/
def FeatureSource.cpuFeedback : Nat → Nat
  | 0 => 0
  | j + 1 => src.cpuAccessCount j

/-- Batch `j` of all epochs makes enough storage accesses by itself. -/
def Enough (j : Nat) (b : SampledBatch N R) : Prop :=
  cfg.requiredAccesses + src.cpuFeedback j < b.inputNodes.length

/-- The buffers are as after `j` batches, each returned by the call that sampled it. -/
structure Clean (j : Nat) (s : WindowState N R F) : Prop where
  windowBuffer_eq : s.windowBuffer = []
  returnTorchBuffer_eq : s.returnTorchBuffer = []
  feedback : cfg.accumulatorFlag = true →
    s.mergedReads = j ∧ s.prevCpuAccess = src.cpuFeedback j
  wbInit_eq : ¬ cfg.Idle → s.wbInit = false

variable {cfg src}

theorem clean_init : Clean cfg src 0 (WindowState.init : WindowState N R F) :=
  ⟨rfl, rfl, fun _ => ⟨rfl, rfl⟩, fun _ => rfl⟩

theorem fill_of_idle (hidle : cfg.Idle) {wbInit : Bool} (it : List (SampledBatch N R)) :
    (if cfg.windowBufferingFlag && !wbInit then fillWb cfg.wbSize [] it else (true, [], it)) =
      (true, [], it) := by
  rcases hidle with hflag | hsize
  · rw [hflag, Bool.false_and, if_neg Bool.false_ne_true]
  · rw [hsize]
    split <;> rfl

/-- A call that samples nothing leaves the buffers as they are. -/
theorem Clean.fetch_nil {j : Nat} {s : WindowState N R F} (h : Clean cfg src j s) :
    (fetchFeature cfg src s []).1 = none ∧ Clean cfg src j (fetchFeature cfg src s []).2.1 := by
  rw [fetchFeature, h.windowBuffer_eq]
  by_cases hidle : cfg.Idle
  · rw [fill_of_idle hidle]
    exact ⟨rfl, rfl, h.returnTorchBuffer_eq, h.feedback, fun hn => absurd hidle hn⟩
  · have hflag : cfg.windowBufferingFlag = true := by
      cases hb : cfg.windowBufferingFlag with
      | false => exact absurd (Or.inl hb) hidle
      | true => rfl
    obtain ⟨size, hsize⟩ : ∃ size, cfg.wbSize = size + 1 :=
      Nat.exists_eq_succ_of_ne_zero fun hz => hidle (Or.inr hz)
    rw [hflag, h.wbInit_eq hidle, hsize]
    exact ⟨rfl, rfl, h.returnTorchBuffer_eq, h.feedback, fun _ => rfl⟩

/-- Without lookahead a call returns the batch it samples. -/
theorem Clean.fetch_cons {j : Nat} {s : WindowState N R F} (h : Clean cfg src j s)
    (hidle : cfg.Idle) {b : SampledBatch N R} {l : List (SampledBatch N R)}
    (hb : cfg.accumulatorFlag = true → Enough cfg src j b) :
    ∃ s', fetchFeature cfg src s (b :: l) = (some (b, src.features b), s', l) ∧
      Clean cfg src (j + 1) s' := by
  rw [fetchFeature, h.windowBuffer_eq, fill_of_idle hidle]
  cases hacc : cfg.accumulatorFlag with
  | false =>
    have hclean : Clean (R := R) cfg src (j + 1) { s with
        windowBuffer := [], wbInit := s.wbInit || cfg.windowBufferingFlag } :=
      { windowBuffer_eq := rfl
        returnTorchBuffer_eq := h.returnTorchBuffer_eq
        feedback := fun ht => absurd ht (by rw [hacc]; decide)
        wbInit_eq := fun hn => absurd hidle hn }
    exact ⟨_, rfl, hclean⟩
  | true =>
    obtain ⟨hreads, hprev⟩ := h.feedback hacc
    have henough := hb hacc
    rw [Enough, ← hprev] at henough
    have hloop : accumulateBuffered s.prevCpuAccess [b] l [b] 0 cfg.requiredAccesses 0 =
        (some 1, [b], l) := by
      rw [accumulateBuffered, Nat.zero_add]
      exact if_pos henough
    refine ⟨{ s with windowBuffer := [], wbInit := s.wbInit || cfg.windowBufferingFlag,
                     returnTorchBuffer := [], prevCpuAccess := src.cpuAccessCount j,
                     mergedReads := j + 1 }, ?_, rfl, rfl, fun _ => ⟨rfl, rfl⟩,
      fun hn => absurd hidle hn⟩
    simp only [if_true, List.nil_append, fetchAccumulated, h.returnTorchBuffer_eq]
    rw [hloop]
    simp only [hreads, Nat.div_one, List.take_succ_cons, List.take_zero, List.map_cons, List.map_nil]

/-- With window buffering the first call of a loader looks ahead. -/
theorem Clean.fetch_window {j : Nat} {s : WindowState N R F} (h : Clean cfg src j s)
    (hidle : ¬ cfg.Idle) (b : SampledBatch N R) (it : List (SampledBatch N R)) :
    (fetchFeature cfg src s (b :: it)).2.1.windowBuffer ≠ [] := by
  have hflag : cfg.windowBufferingFlag = true := by
    cases hb : cfg.windowBufferingFlag with
    | false => exact absurd (Or.inl hb) hidle
    | true => rfl
  obtain ⟨size, hsize⟩ : ∃ size, cfg.wbSize = size + 1 :=
    Nat.exists_eq_succ_of_ne_zero fun hz => hidle (Or.inr hz)
  have hfill := length_fillWb_le size ([] ++ [b]) it
  rw [fetchFeature, h.windowBuffer_eq, hflag, h.wbInit_eq hidle, hsize]
  simp only [Bool.not_false, Bool.and_self, if_true, fillWb]
  generalize fillWb size ([] ++ [b]) it = filled at hfill ⊢
  obtain ⟨ok, windowBuffer, it'⟩ := filled
  simp only [List.nil_append, List.length_singleton] at hfill ⊢
  have hne : windowBuffer ≠ [] := List.length_pos_iff.mp (by omega)
  split
  · cases it' with
    | nil => exact hne
    | cons nextBatch it' =>
      simp only
      split
      · have hle := length_fetchAccumulated_le cfg src
          { s with windowBuffer := windowBuffer ++ [nextBatch], wbInit := true } it'
        simp only [List.length_append, List.length_singleton] at hle
        rw [← List.length_pos_iff]
        simp only [Bool.false_or]
        omega
      · obtain ⟨first, rest, rfl⟩ := List.exists_cons_of_ne_nil hne
        exact List.append_ne_nil_of_right_ne_nil _ (List.cons_ne_nil _ _)
  · exact hne

theorem length_accumulateSampled_lt {prev : Nat} {it windowBuffer : List (SampledBatch N R)}
    {current : Nat} {required : ℚ} {numIter n : Nat}
    (h : (accumulateSampled prev it windowBuffer current required numIter).1 = some n) :
    windowBuffer.length <
      (accumulateSampled prev it windowBuffer current required numIter).2.1.length := by
  cases it with
  | nil => cases h
  | cons batch it =>
    rw [accumulateSampled] at h ⊢
    split
    · rw [List.length_append]
      exact Nat.lt_succ_self _
    · have hle := length_accumulateSampled_le prev it (windowBuffer ++ [batch])
        (current + batch.inputNodes.length) (required + prev) (numIter + 1)
      rw [List.length_append] at hle
      exact hle

/-- A batch that is too small makes the accumulator look ahead. -/
theorem Clean.fetch_short {j : Nat} {s : WindowState N R F} (h : Clean cfg src j s)
    (hidle : cfg.Idle) (hacc : cfg.accumulatorFlag = true) {b : SampledBatch N R}
    (hb : ¬ Enough cfg src j b) (it : List (SampledBatch N R)) :
    (fetchFeature cfg src s (b :: it)).2.1.windowBuffer ≠ [] := by
  obtain ⟨-, hprev⟩ := h.feedback hacc
  rw [Enough, ← hprev] at hb
  have hloop : accumulateBuffered s.prevCpuAccess [b] it [b] 0 cfg.requiredAccesses 0 =
      accumulateSampled s.prevCpuAccess it [b] b.inputNodes.length
        (cfg.requiredAccesses + s.prevCpuAccess) 1 := by
    rw [accumulateBuffered, Nat.zero_add]
    exact if_neg hb
  have hle := length_accumulateSampled_le s.prevCpuAccess it [b] b.inputNodes.length
    (cfg.requiredAccesses + s.prevCpuAccess) 1
  rw [fetchFeature, h.windowBuffer_eq, fill_of_idle hidle, hacc]
  simp only [if_true, List.nil_append, fetchAccumulated, h.returnTorchBuffer_eq]
  rw [hloop]
  split
  · rename_i heq
    rw [heq] at hle
    exact List.length_pos_iff.mp hle
  · rename_i numIter windowBuffer it' heq
    have hlt := length_accumulateSampled_lt (congrArg Prod.fst heq)
    rw [heq, List.length_singleton] at hlt
    split
    · rw [List.length_cons] at hlt
      exact List.length_pos_iff.mp (Nat.lt_of_succ_lt_succ hlt)
    · exact List.length_pos_iff.mp (Nat.lt_trans Nat.zero_lt_one hlt)

/-! ## Whole epochs -/

theorem Clean.runEpoch_idle (hidle : cfg.Idle) (epoch : List (SampledBatch N R)) {j : Nat}
    {s : WindowState N R F} (h : Clean cfg src j s)
    (hall : cfg.accumulatorFlag = true →
      ∀ i b, epoch[i]? = some b → Enough cfg src (j + i) b) :
    ∃ s', runEpoch cfg src (epoch.length + 1) s epoch =
        (epoch.map (fun b => (b, src.features b)), s') ∧ Clean cfg src (j + epoch.length) s' := by
  induction epoch generalizing j s with
  | nil =>
    obtain ⟨hnone, hclean⟩ := h.fetch_nil
    refine ⟨(fetchFeature cfg src s []).2.1, ?_, hclean⟩
    rw [runEpoch]
    split
    · rename_i heq
      rw [heq]
      rfl
    · rename_i heq
      rw [heq] at hnone
      cases hnone
  | cons b epoch ih =>
    obtain ⟨s1, hfetch, hclean⟩ := h.fetch_cons hidle (l := epoch) fun hacc =>
      hall hacc 0 b rfl
    obtain ⟨s2, hrun, hclean2⟩ := ih hclean fun hacc i c hc => by
      rw [show j + 1 + i = j + (i + 1) by omega]
      exact hall hacc (i + 1) c hc
    refine ⟨s2, ?_, ?_⟩
    · rw [List.length_cons, runEpoch, hfetch]
      simp only [hrun, List.map_cons]
    · rw [List.length_cons, show j + (epoch.length + 1) = j + 1 + epoch.length by omega]
      exact hclean2

theorem Clean.runEpoch_short (hidle : cfg.Idle) (hacc : cfg.accumulatorFlag = true)
    (epoch : List (SampledBatch N R)) {j : Nat} {s : WindowState N R F} (h : Clean cfg src j s)
    {i : Nat} {c : SampledBatch N R} (hc : epoch[i]? = some c)
    (hshort : ¬ Enough cfg src (j + i) c) :
    (runEpoch cfg src (epoch.length + 1) s epoch).2.windowBuffer ≠ [] := by
  induction epoch generalizing j s i with
  | nil => cases hc
  | cons b epoch ih =>
    rw [List.length_cons, runEpoch]
    by_cases hb : Enough cfg src j b
    · obtain ⟨s1, hfetch, hclean⟩ := h.fetch_cons hidle (l := epoch) fun _ => hb
      rw [hfetch]
      cases i with
      | zero =>
        cases hc
        exact absurd hb hshort
      | succ i =>
        rw [show j + (i + 1) = j + 1 + i by omega] at hshort
        exact ih hclean hc hshort
    · have hne := h.fetch_short hidle hacc hb epoch
      split
      · rename_i heq
        rw [heq] at hne
        exact hne
      · rename_i heq
        rw [heq] at hne
        exact windowBuffer_ne_nil_of_runEpoch cfg src _ _ _ hne

theorem Clean.runEpoch_window (hidle : ¬ cfg.Idle) {epoch : List (SampledBatch N R)}
    (hne : epoch ≠ []) {j : Nat} {s : WindowState N R F} (h : Clean cfg src j s) :
    (runEpoch cfg src (epoch.length + 1) s epoch).2.windowBuffer ≠ [] := by
  obtain ⟨b, rest, rfl⟩ := List.exists_cons_of_ne_nil hne
  have hfirst := h.fetch_window hidle b rest
  rw [runEpoch]
  split
  · rename_i heq
    rw [heq] at hfirst
    exact hfirst
  · rename_i heq
    rw [heq] at hfirst
    exact windowBuffer_ne_nil_of_runEpoch cfg src _ _ _ hfirst

/-- From clean buffers on. -/
theorem Clean.complete_iff (epochs : List (List (SampledBatch N R))) {j : Nat}
    {s : WindowState N R F} (h : Clean cfg src j s) :
    EpochsComplete cfg src s epochs ↔ epochs.flatten = [] ∨ cfg.Idle ∧
      (cfg.accumulatorFlag = true →
        ∀ i b, epochs.flatten[i]? = some b → Enough cfg src (j + i) b) := by
  induction epochs generalizing j s with
  | nil => simp only [EpochsComplete, List.flatten_nil, true_or]
  | cons epoch epochs ih =>
    rw [EpochsComplete, List.flatten_cons]
    by_cases hidle : cfg.Idle
    · by_cases hall : cfg.accumulatorFlag = true →
          ∀ i b, epoch[i]? = some b → Enough cfg src (j + i) b
      · obtain ⟨s', hrun, hclean⟩ := h.runEpoch_idle hidle epoch hall
        rw [hrun]
        simp only [hclean.windowBuffer_eq, true_and, ih hclean, hidle]
        apply Iff.intro
        · rintro (hnil | hlater)
          · right
            intro hacc i b hb
            rw [hnil, List.append_nil] at hb
            exact hall hacc i b hb
          · right
            intro hacc i b hb
            rcases Nat.lt_or_ge i epoch.length with hi | hi
            · rw [List.getElem?_append_left hi] at hb
              exact hall hacc i b hb
            · rw [List.getElem?_append_right hi] at hb
              have := hlater hacc _ b hb
              rwa [show j + epoch.length + (i - epoch.length) = j + i by omega] at this
        · rintro (hnil | hboth)
          · exact Or.inl (List.append_eq_nil_iff.mp hnil).2
          · right
            intro hacc i b hb
            rw [show j + epoch.length + i = j + (epoch.length + i) by omega]
            apply hboth hacc
            rw [List.getElem?_append_right (by omega)]
            rwa [show epoch.length + i - epoch.length = i by omega]
      · push Not at hall
        obtain ⟨hacc, i, c, hc, hshort⟩ := hall
        have hne := h.runEpoch_short hidle hacc epoch hc hshort
        apply iff_of_false
        · intro hcomplete
          exact hne hcomplete.2.1
        · rintro (hnil | ⟨-, hlater⟩)
          · rw [(List.append_eq_nil_iff.mp hnil).1] at hc
            cases hc
          · apply hshort
            apply hlater hacc i c
            obtain ⟨hi, -⟩ := List.getElem?_eq_some_iff.mp hc
            rw [List.getElem?_append_left hi]
            exact hc
    · rcases Classical.em (epoch = []) with rfl | hne
      · obtain ⟨hnone, hclean⟩ := h.fetch_nil
        have hrun : runEpoch cfg src (([] : List (SampledBatch N R)).length + 1) s [] =
            ([], (fetchFeature cfg src s []).2.1) := by
          rw [runEpoch]
          split
          · rename_i heq
            rw [heq]
          · rename_i heq
            rw [heq] at hnone
            cases hnone
        rw [hrun]
        simp only [List.map_nil, hclean.windowBuffer_eq, true_and, List.nil_append]
        exact ih hclean
      · apply iff_of_false
        · intro hcomplete
          exact h.runEpoch_window hidle hne hcomplete.2.1
        · rintro (hnil | ⟨hi, -⟩)
          · exact hne (List.append_eq_nil_iff.mp hnil).1
          · exact hidle hi

end Clean

/-- The epochs of a loader are complete exactly when they sample nothing, or no batch is
    sampled for the window and the accumulator finds every batch large enough by
    itself. -/
theorem epochsComplete_iff (cfg : WindowConfig) (src : FeatureSource N F)
    (epochs : List (List (SampledBatch N R))) :
    EpochsComplete cfg src WindowState.init epochs ↔ epochs.flatten = [] ∨ cfg.Idle ∧
      (cfg.accumulatorFlag = true →
        ∀ i b, epochs.flatten[i]? = some b → Enough cfg src i b) := by
  rw [clean_init.complete_iff]
  simp only [Nat.zero_add]

/-- A window of one batch over an epoch of two: the second is not returned. -/
theorem window_drops_last : ¬ EpochsComplete ⟨true, 1, false, 0⟩ (⟨id, fun _ => 0⟩ : FeatureSource Nat Nat)
    WindowState.init [[(⟨[3], ()⟩ : SampledBatch Nat Unit), ⟨[5], ()⟩]] := by
  intro h
  have hleft := h.2.1
  exact absurd hleft (List.cons_ne_nil _ _)

end GidsStack.Loader
