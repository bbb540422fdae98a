/-
  GidsStack.Dataset.TokenBatch

  The batches that `LLMIDS` returns: `input_ids`, the attention mask and the labels.

  The mask comes from the batch itself, from its lengths, from the pad token or is all ones,
  in this order; the labels come from the batch or are the input ids where the mask is not 0.
  `input_ids` is as wide as a stored sample, a mask made of lengths is as wide as
  `sequence_length` says. The three tensors belong together exactly when these widths are
  equal and what the batch brings along fits (`batch_consistent_iff`).

  `none` is torch's error for shapes that do not broadcast.
-/

import GidsStack.Dataset.Storage

namespace GidsStack.Dataset

open GidsStack.RowMajor

/-! ## Tensors -/

/-- A two-dimensional tensor; `get` means something inside the shape only. -/
structure Tensor2 where
  rows : Nat
  cols : Nat
  get : Nat → Nat → Int

namespace Tensor2

def SameShape (a b : Tensor2) : Prop := a.rows = b.rows ∧ a.cols = b.cols

def ofRows {w : Nat} (a : Rows Int w) : Tensor2 := ⟨a.rows, w, fun b t => (a.at? b t).getD 0⟩

def onesLike (a : Tensor2) : Tensor2 := ⟨a.rows, a.cols, fun _ _ => 1⟩

/-- `input_ids.ne(value).to(torch.long)`. -/
def ne (a : Tensor2) (value : Int) : Tensor2 :=
  ⟨a.rows, a.cols, fun b t => if a.get b t ≠ value then 1 else 0⟩

/-- One dimension of a broadcast. -/
def broadcastDim (m n : Nat) : Option Nat :=
  if m = n then some m else if m = 1 then some n else if n = 1 then some m else none

/-- The index into a dimension of size `n` that index `i` of the broadcast stands for. -/
def broadcastIndex (n i : Nat) : Nat := if n = 1 then 0 else i

/-- `labels.masked_fill(mask == 0, value)`. -/
def maskedFill (a mask : Tensor2) (value : Int) : Option Tensor2 := do
  let rows ← broadcastDim a.rows mask.rows
  let cols ← broadcastDim a.cols mask.cols
  some ⟨rows, cols, fun b t =>
    if mask.get (broadcastIndex mask.rows b) (broadcastIndex mask.cols t) = 0 then value
    else a.get (broadcastIndex a.rows b) (broadcastIndex a.cols t)⟩

end Tensor2

/-! ## `LLMIDS` -/

/-- The entries of `meta.json` that `LLMIDS.__init__` reads; a key may be missing, and the pad
    token may be `null`. -/
structure TokenMeta where
  shape : List Nat
  dtype : Dtype
  sequenceLength : Option Nat
  padTokenId : Option (Option Int)
  returnLabels : Option Bool
  deriving DecidableEq

/-- What `LLMIDS.__init__` sets up. -/
structure TokenStore where
  pageSize : Nat
  storageSequenceLength : Nat
  sequenceLength : Nat
  padTokenId : Option Int
  ignoreIndex : Int
  defaultReturnLabels : Bool
  rowDim_pos : 0 < pageSize / 8

/-- `LLMIDS.__init__` on a prepared dataset. -/
def TokenStore.init (pageSize : Nat) (h : 0 < pageSize / 8) (info : TokenMeta)
    (padTokenId : Option Int) (ignoreIndex : Int) : Except String TokenStore :=
  match info.shape with
  | [length] =>
    if info.dtype = .int64 then
      .ok
        { pageSize := pageSize
          storageSequenceLength := length
          sequenceLength := info.sequenceLength.getD length
          padTokenId := info.padTokenId.getD padTokenId
          ignoreIndex := ignoreIndex
          defaultReturnLabels := info.returnLabels.getD true
          rowDim_pos := h }
    else .error "LLMIDS 当前只支持 int64 token 存储"
  | _ => .error "LLMIDS 只支持一维固定长度 token 序列"

/-- The row geometry of the store; a token has 8 bytes. -/
def TokenStore.geometry (st : TokenStore) : Geometry where
  pageSize := st.pageSize
  storageItemsize := 8
  sampleShape := [st.storageSequenceLength]
  rowDim_pos := st.rowDim_pos

/-- The entries of a mapping batch that matter here; all others are passed on. -/
structure BatchFields where
  lengths : Option (List Int)
  attentionMask : Option Tensor2
  labels : Option Tensor2

/-- A batch: the number of its sample ids, and its other entries if it is a mapping. -/
structure TokenBatch where
  batchSize : Nat
  fields : Option BatchFields

namespace TokenBatch

variable (batch : TokenBatch)

/-- `_lengths_from_batch`. -/
def lengths : Option (List Int) := batch.fields.bind (·.lengths)

def givenMask : Option Tensor2 := batch.fields.bind (·.attentionMask)

def givenLabels : Option Tensor2 := batch.fields.bind (·.labels)

end TokenBatch

/-- What `_format_return_batch` returns. -/
structure TokenOut where
  inputIds : Tensor2
  attentionMask : Tensor2
  labels : Option Tensor2

namespace TokenStore

variable (st : TokenStore)

/-- `_attention_mask_from_batch_or_tokens`. -/
def attentionMask (batch : TokenBatch) (inputIds : Tensor2) : Tensor2 :=
  match batch.givenMask with
  | some mask => mask
  | none =>
    match batch.lengths with
    | some lengths =>
      ⟨lengths.length, st.sequenceLength, fun b t =>
        if (t : Int) < lengths.getD b 0 then 1 else 0⟩
    | none =>
      match st.padTokenId with
      | none => inputIds.onesLike
      | some pad => inputIds.ne pad

/-- `_labels_from_batch_or_tokens`. -/
def labels (batch : TokenBatch) (inputIds mask : Tensor2) : Option (Option Tensor2) :=
  match batch.givenLabels with
  | some labels => some (some labels)
  | none =>
    if st.defaultReturnLabels then (inputIds.maskedFill mask st.ignoreIndex).map some
    else some none

/-- `_format_return_batch`. -/
def formatReturnBatch (batch : TokenBatch) (inputIds : Tensor2) : Option TokenOut :=
  let mask := st.attentionMask batch inputIds
  (st.labels batch inputIds mask).map fun labels => ⟨inputIds, mask, labels⟩

/-- The input ids of the rows read for a batch. -/
def inputIds (batchSize : Nat) (rows : Rows Int st.geometry.rowDim)
    (h : rows.rows = batchSize * st.geometry.sampleRowCount) : Tensor2 :=
  .ofRows (cutSamples st.geometry batchSize rows h)

/-- `fetch_samples_sync` and `fetch_samples_get_registered`, from the rows they read on. -/
def fetchSamples (batch : TokenBatch) (rows : Rows Int st.geometry.rowDim)
    (h : rows.rows = batch.batchSize * st.geometry.sampleRowCount) : Option TokenOut :=
  st.formatReturnBatch batch (st.inputIds batch.batchSize rows h)

end TokenStore

/-! ## Consistent batches -/

/-- The labels are the ids where the mask is 1 and `ignore_index` where it is 0. -/
def LabelsFit (ids : Tensor2) (mask : Nat → Nat → Int) (ignoreIndex : Int) (labels : Tensor2) :
    Prop :=
  labels.SameShape ids ∧ ∀ b < ids.rows, ∀ t < ids.cols,
    (mask b t = 1 → labels.get b t = ids.get b t) ∧ (mask b t = 0 → labels.get b t = ignoreIndex)

/-- The mask is 1 on the first `lengths[b]` tokens of sample `b`, and on no others. -/
def MaskFits (ids : Tensor2) (lengths : List Int) (mask : Nat → Nat → Int) : Prop :=
  ∀ b < ids.rows, ∀ t < ids.cols, (mask b t = 1 ↔ (t : Int) < lengths.getD b 0)

/-- A returned batch in which everything fits. -/
structure TokenOut.Consistent (st : TokenStore) (batch : TokenBatch) (out : TokenOut) : Prop where
  rows_eq : out.inputIds.rows = batch.batchSize
  cols_eq : out.inputIds.cols = st.storageSequenceLength
  mask_shape : out.attentionMask.SameShape out.inputIds
  mask_fits : ∀ lengths, batch.lengths = some lengths →
    MaskFits out.inputIds lengths out.attentionMask.get
  labels_fit : ∀ labels, out.labels = some labels →
    LabelsFit out.inputIds out.attentionMask.get st.ignoreIndex labels

/-- The mask that a batch asks for: its own, or that of its lengths, or that of the tokens. -/
def TokenStore.wantedMask (st : TokenStore) (batch : TokenBatch) (ids : Tensor2) (b t : Nat) : Int :=
  match batch.givenMask, batch.lengths, st.padTokenId with
  | some mask, _, _ => mask.get b t
  | none, some lengths, _ => if (t : Int) < lengths.getD b 0 then 1 else 0
  | none, none, some pad => if ids.get b t ≠ pad then 1 else 0
  | none, none, none => 1

/-- What a batch brings along fits: its own mask has the shape of the ids and goes with its
    lengths; without one its lengths are one a sample and `sequence_length` is the stored
    length; its own labels go with the mask it asks for. -/
def SourcesFit (st : TokenStore) (batch : TokenBatch) (ids : Tensor2) : Prop :=
  (∀ mask, batch.givenMask = some mask → mask.SameShape ids ∧
    ∀ lengths, batch.lengths = some lengths → MaskFits ids lengths mask.get) ∧
  (batch.givenMask = none → ∀ lengths, batch.lengths = some lengths →
    lengths.length = batch.batchSize ∧ st.sequenceLength = st.storageSequenceLength) ∧
  ∀ labels, batch.givenLabels = some labels →
    LabelsFit ids (st.wantedMask batch ids) st.ignoreIndex labels

/-! ## Masks and labels -/

theorem Tensor2.maskedFill_sameShape {a mask : Tensor2} (h : mask.SameShape a) (value : Int) :
    ∃ t, a.maskedFill mask value = some t ∧ t.SameShape a ∧ ∀ i < a.rows, ∀ j < a.cols,
      t.get i j = if mask.get i j = 0 then value else a.get i j := by
  have hindex : ∀ {n i : Nat}, i < n → broadcastIndex n i = i := by
    intro n i hi
    rw [broadcastIndex]
    split
    · omega
    · rfl
  have hrun : a.maskedFill mask value = some ⟨a.rows, a.cols, fun b t =>
      if mask.get (broadcastIndex mask.rows b) (broadcastIndex mask.cols t) = 0 then value
      else a.get (broadcastIndex a.rows b) (broadcastIndex a.cols t)⟩ := by
    rw [maskedFill, h.1, h.2, broadcastDim, broadcastDim, if_pos rfl, if_pos rfl]
    rfl
  refine ⟨_, hrun, ⟨rfl, rfl⟩, ?_⟩
  intro i hi j hj
  show (if mask.get (broadcastIndex mask.rows i) (broadcastIndex mask.cols j) = 0 then _ else _) = _
  rw [h.1, h.2, hindex hi, hindex hj]

variable {st : TokenStore} {batch : TokenBatch} {ids : Tensor2}

/-- The mask is the one the batch asks for. -/
theorem attentionMask_get (st : TokenStore) (batch : TokenBatch) (ids : Tensor2) (b t : Nat) :
    (st.attentionMask batch ids).get b t = st.wantedMask batch ids b t := by
  rw [TokenStore.attentionMask, TokenStore.wantedMask]
  cases batch.givenMask with
  | some mask => rfl
  | none =>
    cases batch.lengths with
    | some lengths => rfl
    | none =>
      cases st.padTokenId with
      | none => rfl
      | some pad => rfl

/-- The mask has the shape of the ids if and only if its source gives it that shape. -/
theorem attentionMask_shape (hrows : ids.rows = batch.batchSize)
    (hcols : ids.cols = st.storageSequenceLength) :
    (st.attentionMask batch ids).SameShape ids ↔
      (∀ mask, batch.givenMask = some mask → mask.SameShape ids) ∧
      (batch.givenMask = none → ∀ lengths, batch.lengths = some lengths →
        lengths.length = batch.batchSize ∧ st.sequenceLength = st.storageSequenceLength) := by
  rw [TokenStore.attentionMask]
  cases batch.givenMask with
  | some mask => simp
  | none =>
    cases batch.lengths with
    | some lengths => simp [Tensor2.SameShape, hrows, hcols]
    | none =>
      cases st.padTokenId with
      | none => simp [Tensor2.SameShape, Tensor2.onesLike]
      | some pad => simp [Tensor2.SameShape, Tensor2.ne]

/-- The mask goes with the lengths if and only if a mask that the batch brings along does. -/
theorem attentionMask_fits :
    (∀ lengths, batch.lengths = some lengths →
      MaskFits ids lengths (st.attentionMask batch ids).get) ↔
    ∀ mask, batch.givenMask = some mask → ∀ lengths, batch.lengths = some lengths →
      MaskFits ids lengths mask.get := by
  rw [TokenStore.attentionMask]
  cases batch.givenMask with
  | some mask => simp
  | none =>
    cases batch.lengths with
    | some lengths =>
      simp only [Option.some.injEq, forall_eq', reduceCtorEq, false_implies, implies_true, iff_true]
      intro b _ t _
      show (if (t : Int) < lengths.getD b 0 then (1 : Int) else 0) = 1 ↔ _
      split
      · rename_i hlt
        exact iff_of_true rfl hlt
      · rename_i hge
        exact iff_of_false (by decide) hge
    | none => simp

/-- Labels made of the ids and a mask of their shape fit. -/
theorem labels_derived (hnone : batch.givenLabels = none) {mask : Tensor2}
    (hshape : mask.SameShape ids) :
    ∃ labels, st.labels batch ids mask = some labels ∧
      ∀ l, labels = some l → LabelsFit ids mask.get st.ignoreIndex l := by
  rw [TokenStore.labels, hnone]
  by_cases hret : st.defaultReturnLabels = true
  · obtain ⟨l, hfill, hsame, hget⟩ := Tensor2.maskedFill_sameShape hshape st.ignoreIndex
    refine ⟨some l, by simp [hret, hfill], ?_⟩
    rintro l' hl'
    obtain rfl := Option.some.inj hl'
    refine ⟨hsame, ?_⟩
    intro b hb t ht
    rw [hget b hb t ht]
    refine ⟨fun h1 => ?_, fun h0 => by rw [if_pos h0]⟩
    rw [if_neg (by rw [h1]; decide)]
  · exact ⟨none, by simp [hret], fun l hl => absurd hl (by simp)⟩

/-! ## The returned batch -/

theorem formatReturnBatch_consistent (hrows : ids.rows = batch.batchSize)
    (hcols : ids.cols = st.storageSequenceLength) :
    (∃ out, st.formatReturnBatch batch ids = some out ∧ out.inputIds = ids ∧
      out.Consistent st batch) ↔ SourcesFit st batch ids := by
  constructor
  · rintro ⟨out, hout, -, hcons⟩
    obtain ⟨labels, hlabels, rfl⟩ := Option.map_eq_some_iff.mp hout
    have hshape := (attentionMask_shape hrows hcols).mp hcons.mask_shape
    have hfits := attentionMask_fits.mp hcons.mask_fits
    refine ⟨fun mask hmask => ⟨hshape.1 mask hmask, hfits mask hmask⟩, hshape.2, ?_⟩
    intro given hgiven
    have heq : labels = some given := by
      rw [TokenStore.labels, hgiven] at hlabels
      exact (Option.some.inj hlabels).symm
    have hfit := hcons.labels_fit given heq
    simpa only [LabelsFit, attentionMask_get] using hfit
  · rintro ⟨hmask, hlengths, hgiven⟩
    have hshape : (st.attentionMask batch ids).SameShape ids :=
      (attentionMask_shape hrows hcols).mpr ⟨fun mask h => (hmask mask h).1, hlengths⟩
    have hfits : ∀ lengths, batch.lengths = some lengths →
        MaskFits ids lengths (st.attentionMask batch ids).get :=
      attentionMask_fits.mpr fun mask h => (hmask mask h).2
    obtain ⟨labels, hlabels, hlabelsFit⟩ : ∃ labels,
        st.labels batch ids (st.attentionMask batch ids) = some labels ∧
        ∀ l, labels = some l → LabelsFit ids (st.attentionMask batch ids).get st.ignoreIndex l := by
      cases hl : batch.givenLabels with
      | none => exact labels_derived hl hshape
      | some given =>
        refine ⟨some given, by rw [TokenStore.labels, hl], ?_⟩
        rintro l hl'
        obtain rfl := Option.some.inj hl'
        simpa only [LabelsFit, attentionMask_get] using hgiven given hl
    have hrun : st.formatReturnBatch batch ids =
        some ⟨ids, st.attentionMask batch ids, labels⟩ := by
      rw [TokenStore.formatReturnBatch, hlabels]
      rfl
    exact ⟨_, hrun, rfl, ⟨hrows, hcols, hshape, hfits, hlabelsFit⟩⟩

/-- The batch that is returned for any rows is consistent if and only if what it is made of
    fits. -/
theorem batch_consistent_iff (st : TokenStore) (batch : TokenBatch)
    (rows : Rows Int st.geometry.rowDim)
    (h : rows.rows = batch.batchSize * st.geometry.sampleRowCount) :
    (∃ out, st.fetchSamples batch rows h = some out ∧
      out.inputIds = st.inputIds batch.batchSize rows h ∧ out.Consistent st batch) ↔
    SourcesFit st batch (st.inputIds batch.batchSize rows h) :=
  formatReturnBatch_consistent rfl (Nat.mul_one _)

/-- A store of samples of two tokens, of which one counts. -/
def shortSequences : TokenStore where
  pageSize := 16
  storageSequenceLength := 2
  sequenceLength := 1
  padTokenId := none
  ignoreIndex := -100
  defaultReturnLabels := true
  rowDim_pos := by decide

/-- One sample of length 1. -/
def oneLength : TokenBatch := ⟨1, some ⟨some [1], none, none⟩⟩

/-- The mask of the sample is one token wide, the sample two. -/
theorem shortSequences_inconsistent :
    ¬∃ out, shortSequences.fetchSamples oneLength ⟨1, [5, 6], rfl⟩ rfl = some out ∧
      out.inputIds = shortSequences.inputIds 1 ⟨1, [5, 6], rfl⟩ rfl ∧
      out.Consistent shortSequences oneLength := by
  rintro ⟨out, hout, -, hcons⟩
  have hcols : (shortSequences.fetchSamples oneLength ⟨1, [5, 6], rfl⟩ rfl).map
      (fun out => out.attentionMask.cols) = some 1 := by decide
  rw [hout] at hcols
  have hone : out.attentionMask.cols = 1 := Option.some.inj hcols
  have hshape := hcons.mask_shape.2
  rw [hcons.cols_eq, hone] at hshape
  exact absurd hshape (by decide)

/-- A store of whole samples, and a batch with lengths. -/
def wholeSequences : TokenStore := { shortSequences with sequenceLength := 2 }

theorem wholeSequences_consistent :
    ∃ out, wholeSequences.fetchSamples oneLength ⟨1, [5, 6], rfl⟩ rfl = some out ∧
      out.inputIds = wholeSequences.inputIds 1 ⟨1, [5, 6], rfl⟩ rfl ∧
      out.Consistent wholeSequences oneLength :=
  (batch_consistent_iff wholeSequences oneLength ⟨1, [5, 6], rfl⟩ rfl).mpr
    ⟨fun _ h => (nomatch h), fun _ _ h => by cases h; exact ⟨rfl, rfl⟩, fun _ h => (nomatch h)⟩

end GidsStack.Dataset
