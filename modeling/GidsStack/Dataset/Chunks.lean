/-
  GidsStack.Dataset.Chunks

  `_tokenize_to_chunks` (prepare_cluecorpus2020_bert_mlm_dataset.py): the token ids of each
  text are cut into pieces of `seq_len - 2`, and each piece becomes a row that starts with cls,
  ends with sep and is filled up with pad.

  Without the special tokens, without any token and with an id that an int64 does not hold the
  function raises; otherwise the rows, without what was put around them, are the texts
  (`tokenizeToChunks_roundTrip`).
-/

import GidsStack.Lib.Cuts

namespace GidsStack.Dataset

open GidsStack.Cuts

/-! ## The function -/

/-- What is used of a tokenizer; `encode` is without special tokens. -/
structure Tokenizer (X : Type) where
  clsTokenId : Option Int
  sepTokenId : Option Int
  padTokenId : Option Int
  encode : X → List Int

/-- `ValueError` with its text, and numpy's `OverflowError`. -/
inductive ChunkError where
  | value (msg : String)
  | overflow
  deriving DecidableEq

/-- `range(0, n, step)`. -/
def pyRange (n : Nat) (step : Int) : Except ChunkError (List Nat) :=
  if step = 0 then .error (.value "range() arg 3 must not be zero")
  else if step < 0 then .ok []
  else .ok (List.range' 0 ((n + step.toNat - 1) / step.toNat) step.toNat)

/-- A row for one piece, and its length without the padding. -/
def chunkSample (clsId sepId padId seqLen : Int) (piece : List Int) : List Int × Nat :=
  let sample := [clsId] ++ piece ++ [sepId]
  let length := sample.length
  (if (length : Int) < seqLen then sample ++ List.replicate (seqLen - length).toNat padId
    else sample, length)

/-- The rows of one text. -/
def textChunks (clsId sepId padId seqLen : Int) (tokenIds : List Int) :
    Except ChunkError (List (List Int × Nat)) :=
  let usableLen := seqLen - 2
  if tokenIds.isEmpty then .ok []
  else do
    let starts ← pyRange tokenIds.length usableLen
    return starts.map fun start =>
      chunkSample clsId sepId padId seqLen ((tokenIds.drop start).take usableLen.toNat)

def fitsInt64 (x : Int) : Bool :=
  decide (-9223372036854775808 ≤ x) && decide (x < 9223372036854775808)

/-- `np.asarray(chunks, dtype=np.int64)`. -/
def asInt64 (chunks : List (List Int)) : Except ChunkError (List (List Int)) :=
  if chunks.all fun row => row.all fitsInt64 then .ok chunks else .error .overflow

/-- `_tokenize_to_chunks`. -/
def tokenizeToChunks {X : Type} (textIter : List X) (tokenizer : Tokenizer X) (seqLen : Int) :
    Except ChunkError (List (List Int) × List Nat) :=
  match tokenizer.clsTokenId, tokenizer.sepTokenId, tokenizer.padTokenId with
  | some clsId, some sepId, some padId => do
    let samples ← textIter.mapM fun text =>
      textChunks clsId sepId padId seqLen (tokenizer.encode text)
    let samples := samples.flatten
    if samples.isEmpty then .error (.value "没有从输入目录中解析出任何文本 chunk")
    else
      let chunks ← asInt64 (samples.map Prod.fst)
      return (chunks, samples.map Prod.snd)
  | _, _, _ => .error (.value "tokenizer 需要同时提供 cls/sep/pad token")

/-! ## What the rows promise -/

/-- `row[1 : length - 1]`. -/
def body (r : List Int × Nat) : List Int := (r.1.take (r.2 - 1)).drop 1

/-- One row with its length. -/
structure RowOk (clsId sepId padId : Int) (seqLen : Nat) (r : List Int × Nat) : Prop where
  width : r.1.length = seqLen
  bounds : 3 ≤ r.2 ∧ r.2 ≤ seqLen
  first : r.1[0]? = some clsId
  last : r.1[r.2 - 1]? = some sepId
  padded : ∀ i, r.2 ≤ i → i < seqLen → r.1[i]? = some padId

/-- The rows together: one length for each, and nothing of the texts lost, repeated or moved. -/
structure RoundTrip (clsId sepId padId : Int) (seqLen : Nat) (texts : List (List Int))
    (rows : List (List Int)) (lengths : List Nat) : Prop where
  paired : rows.length = lengths.length
  row : ∀ r ∈ rows.zip lengths, RowOk clsId sepId padId seqLen r
  round : (rows.zip lengths).flatMap body = texts.flatten

/-! ## One piece -/

section Piece

variable (clsId sepId padId : Int) {seqLen : Nat} {piece : List Int}

/-- A piece that leaves room for the special tokens, with the padding written out. -/
theorem chunkSample_eq (h : piece.length + 2 ≤ seqLen) :
    chunkSample clsId sepId padId seqLen piece =
      (clsId :: (piece ++ (sepId :: List.replicate (seqLen - (piece.length + 2)) padId)),
        piece.length + 2) := by
  have hlength : ([clsId] ++ piece ++ [sepId]).length = piece.length + 2 := by
    rw [List.length_append, List.length_append, List.length_singleton, List.length_singleton]
    omega
  rw [chunkSample, hlength]
  split
  · have hpad : ((seqLen : Int) - ((piece.length + 2 : Nat) : Int)).toNat =
        seqLen - (piece.length + 2) := by omega
    rw [hpad]
    simp
  · -- a full row
    have hzero : seqLen - (piece.length + 2) = 0 := by omega
    rw [hzero]
    simp

theorem body_chunkSample (h : piece.length + 2 ≤ seqLen) :
    body (chunkSample clsId sepId padId seqLen piece) = piece := by
  rw [chunkSample_eq _ _ _ h, body]
  show List.drop 1 (List.take (piece.length + 1) (clsId :: _)) = piece
  rw [List.take_succ_cons, List.drop_succ_cons, List.drop_zero, List.take_left]

theorem chunkSample_ok (hpos : 0 < piece.length) (h : piece.length + 2 ≤ seqLen) :
    RowOk clsId sepId padId seqLen (chunkSample clsId sepId padId seqLen piece) := by
  rw [chunkSample_eq _ _ _ h]
  refine ⟨?_, ⟨?_, h⟩, rfl, ?_, fun i hi hlt => ?_⟩
  · simp
    omega
  · show 3 ≤ piece.length + 2
    omega
  · show (clsId :: _)[piece.length + 1]? = some sepId
    rw [List.getElem?_cons_succ, List.getElem?_append_right (Nat.le_refl _), Nat.sub_self]
    rfl
  · replace hi : piece.length + 2 ≤ i := hi
    obtain ⟨j, rfl⟩ := Nat.exists_eq_add_of_le hi
    show (clsId :: _)[piece.length + 2 + j]? = some padId
    rw [show piece.length + 2 + j = (piece.length + (j + 1)) + 1 by omega,
      List.getElem?_cons_succ, List.getElem?_append_right (by omega),
      Nat.add_sub_cancel_left, List.getElem?_cons_succ, List.getElem?_replicate, if_pos]
    omega

end Piece

/-! ## The rows of the texts -/

section Texts

variable {clsId sepId padId : Int} {seqLen : Nat}

/-- The rows of a text are those of the slices of a cut. -/
theorem textChunks_eq (h : 3 ≤ seqLen) (tokenIds : List Int) :
    textChunks clsId sepId padId seqLen tokenIds =
      .ok ((stepRanges 0 tokenIds.length (seqLen - 2)).map fun r =>
        chunkSample clsId sepId padId seqLen (slice tokenIds r)) := by
  have husable : ((seqLen : Int) - 2).toNat = seqLen - 2 := by omega
  rw [textChunks, husable]
  split
  · rename_i hempty
    rw [List.isEmpty_iff.mp hempty, stepRanges, List.length_nil, Nat.sub_zero, Nat.zero_add,
      Nat.div_eq_of_lt (by omega)]
    rfl
  · have hrange : pyRange tokenIds.length ((seqLen : Int) - 2) =
        .ok (List.range' 0 ((tokenIds.length + (seqLen - 2) - 1) / (seqLen - 2)) (seqLen - 2)) := by
      rw [pyRange, if_neg (by omega), if_neg (by omega), husable]
    rw [hrange]
    show Except.ok _ = _
    rw [stepRanges, List.map_map, Nat.sub_zero]
    congr 1
    apply List.map_congr_left
    intro start _
    show chunkSample clsId sepId padId seqLen _ = chunkSample clsId sepId padId seqLen _
    congr 1
    rw [slice]
    dsimp only
    -- past the end of the text there is nothing to take
    rw [List.take_eq_take_iff, List.length_drop]
    omega

/-- The pieces of a text. -/
theorem piece_bounds (h : 3 ≤ seqLen) {tokenIds : List Int} {r : Nat × Nat}
    (hr : r ∈ stepRanges 0 tokenIds.length (seqLen - 2)) :
    0 < (slice tokenIds r).length ∧ (slice tokenIds r).length + 2 ≤ seqLen := by
  have hle := stepRanges_le hr
  obtain ⟨-, hlt, hend⟩ := (stepRanges_cut_zero (show 0 < seqLen - 2 by omega)).mem_bounds hr
  rw [length_slice hend]
  omega

/-- All rows, of all texts. -/
def allSamples (clsId sepId padId : Int) (seqLen : Nat) (texts : List (List Int)) :
    List (List Int × Nat) :=
  texts.flatMap fun tokenIds => (stepRanges 0 tokenIds.length (seqLen - 2)).map fun r =>
    chunkSample clsId sepId padId seqLen (slice tokenIds r)

theorem allSamples_ok (h : 3 ≤ seqLen) (texts : List (List Int)) :
    ∀ r ∈ allSamples clsId sepId padId seqLen texts, RowOk clsId sepId padId seqLen r := by
  intro r hr
  obtain ⟨tokenIds, -, hr⟩ := List.mem_flatMap.mp hr
  obtain ⟨range, hrange, rfl⟩ := List.mem_map.mp hr
  obtain ⟨hpos, hle⟩ := piece_bounds h hrange
  exact chunkSample_ok clsId sepId padId hpos hle

theorem allSamples_body (h : 3 ≤ seqLen) (texts : List (List Int)) :
    (allSamples clsId sepId padId seqLen texts).flatMap body = texts.flatten := by
  induction texts with
  | nil => rfl
  | cons tokenIds texts ih =>
    rw [allSamples, List.flatMap_cons, List.flatMap_append, List.flatten_cons]
    apply congr
    · have hpieces : ((stepRanges 0 tokenIds.length (seqLen - 2)).map fun r =>
          chunkSample clsId sepId padId seqLen (slice tokenIds r)).flatMap body =
          (stepRanges 0 tokenIds.length (seqLen - 2)).flatMap (slice tokenIds) := by
        rw [List.flatMap_map]
        apply List.flatMap_congr
        intro r hr
        exact body_chunkSample clsId sepId padId (piece_bounds h hr).2
      rw [hpieces, (stepRanges_cut_zero (show 0 < seqLen - 2 by omega)).flatMap_slice_all]
    · exact ih

/-- There are rows exactly if there are tokens. -/
theorem allSamples_eq_nil_iff (h : 3 ≤ seqLen) (texts : List (List Int)) :
    allSamples clsId sepId padId seqLen texts = [] ↔ texts.flatten = [] := by
  have hbody := @allSamples_body clsId sepId padId seqLen h texts
  constructor
  · intro hnil
    rw [← hbody, hnil, List.flatMap_nil]
  · intro hnil
    rw [hnil] at hbody
    apply List.eq_nil_iff_forall_not_mem.mpr
    intro r hr
    have hempty := List.flatMap_eq_nil_iff.mp hbody r hr
    have hok := allSamples_ok h texts r hr
    have hlength := congrArg List.length hempty
    rw [body, List.length_drop, List.length_take, hok.width, List.length_nil] at hlength
    have hbounds := hok.bounds
    omega

/-- What stands in the rows. -/
theorem mem_allSamples (h : 3 ≤ seqLen) (texts : List (List Int)) {r : List Int × Nat}
    (hr : r ∈ allSamples clsId sepId padId seqLen texts) {x : Int} (hx : x ∈ r.1) :
    x ∈ clsId :: sepId :: padId :: texts.flatten := by
  obtain ⟨tokenIds, htext, hr⟩ := List.mem_flatMap.mp hr
  obtain ⟨range, hrange, rfl⟩ := List.mem_map.mp hr
  rw [chunkSample_eq _ _ _ (piece_bounds h hrange).2] at hx
  have hpiece : x ∈ slice tokenIds range → x ∈ texts.flatten := fun hp =>
    List.mem_flatten.mpr ⟨tokenIds, htext, List.mem_of_mem_drop (List.mem_of_mem_take hp)⟩
  rcases List.mem_cons.mp hx with rfl | hx
  · exact List.mem_cons_self
  · rcases List.mem_append.mp hx with hp | hx
    · simp [hpiece hp]
    · rcases List.mem_cons.mp hx with rfl | hx
      · simp
      · simp [(List.mem_replicate.mp hx).2]

end Texts

/-! ## The round trip -/

section RoundTrip

variable {X : Type} {tokenizer : Tokenizer X} {clsId sepId padId : Int}

/-- The function on the rows of all texts. -/
theorem tokenizeToChunks_eq (hcls : tokenizer.clsTokenId = some clsId)
    (hsep : tokenizer.sepTokenId = some sepId) (hpad : tokenizer.padTokenId = some padId)
    {seqLen : Nat} (h : 3 ≤ seqLen) (textIter : List X) :
    tokenizeToChunks textIter tokenizer seqLen =
      let samples := allSamples clsId sepId padId seqLen (textIter.map tokenizer.encode)
      if samples.isEmpty then .error (.value "没有从输入目录中解析出任何文本 chunk")
      else (asInt64 (samples.map Prod.fst)).map fun chunks => (chunks, samples.map Prod.snd) := by
  have hrows : textIter.mapM (fun text =>
      textChunks clsId sepId padId seqLen (tokenizer.encode text)) =
      .ok (textIter.map fun text => (stepRanges 0 (tokenizer.encode text).length
        (seqLen - 2)).map fun r =>
          chunkSample clsId sepId padId seqLen (slice (tokenizer.encode text) r)) := by
    induction textIter with
    | nil => rfl
    | cons text textIter ih =>
      rw [List.mapM_cons, ih, textChunks_eq h]
      rfl
  have hflat : (textIter.map fun text => (stepRanges 0 (tokenizer.encode text).length
      (seqLen - 2)).map fun r =>
        chunkSample clsId sepId padId seqLen (slice (tokenizer.encode text) r)).flatten =
      allSamples clsId sepId padId seqLen (textIter.map tokenizer.encode) := by
    rw [allSamples, List.flatMap_map, List.flatMap_def]
  rw [tokenizeToChunks, hcls, hsep, hpad]
  show (do
    let samples ← textIter.mapM fun text =>
      textChunks clsId sepId padId seqLen (tokenizer.encode text)
    _) = _
  rw [hrows]
  show (if (List.flatten _).isEmpty = true then _ else _) = _
  rw [hflat]
  dsimp only
  split
  · rfl
  · cases asInt64 _ <;> rfl

/-- With the three special tokens and rows of at least three ids: without a token there is an
    error, with tokens that fit there are rows, and whatever rows there are give the texts
    back. -/
theorem tokenizeToChunks_roundTrip (hcls : tokenizer.clsTokenId = some clsId)
    (hsep : tokenizer.sepTokenId = some sepId) (hpad : tokenizer.padTokenId = some padId)
    {seqLen : Int} (h : 3 ≤ seqLen) (textIter : List X) :
    (textIter.flatMap tokenizer.encode = [] → tokenizeToChunks textIter tokenizer seqLen =
      .error (.value "没有从输入目录中解析出任何文本 chunk")) ∧
    (textIter.flatMap tokenizer.encode ≠ [] →
      (∀ x ∈ clsId :: sepId :: padId :: textIter.flatMap tokenizer.encode, fitsInt64 x = true) →
      ∃ rows lengths, tokenizeToChunks textIter tokenizer seqLen = .ok (rows, lengths)) ∧
    ∀ rows lengths, tokenizeToChunks textIter tokenizer seqLen = .ok (rows, lengths) →
      RoundTrip clsId sepId padId seqLen.toNat (textIter.map tokenizer.encode) rows lengths := by
  obtain ⟨n, rfl⟩ := Int.eq_ofNat_of_zero_le (show 0 ≤ seqLen by omega)
  have hn : 3 ≤ n := by omega
  have heq := tokenizeToChunks_eq hcls hsep hpad hn textIter
  dsimp only at heq
  have hnil := @allSamples_eq_nil_iff clsId sepId padId n hn (textIter.map tokenizer.encode)
  rw [← List.flatMap_def] at hnil
  refine ⟨fun hempty => ?_, fun hne hfits => ?_, fun rows lengths hok => ?_⟩
  · rw [heq, if_pos (List.isEmpty_iff.mpr (hnil.mpr hempty))]
  · have hall : ((allSamples clsId sepId padId n (textIter.map tokenizer.encode)).map
        Prod.fst).all (fun row => row.all fitsInt64) = true := by
      rw [List.all_eq_true]
      intro row hrow
      obtain ⟨r, hr, rfl⟩ := List.mem_map.mp hrow
      rw [List.all_eq_true]
      intro x hx
      have hmem := mem_allSamples hn _ hr hx
      rw [← List.flatMap_def] at hmem
      exact hfits x hmem
    rw [heq, if_neg (fun he => hne (hnil.mp (List.isEmpty_iff.mp he))), asInt64, if_pos hall]
    exact ⟨_, _, rfl⟩
  · rw [heq] at hok
    split at hok
    · cases hok
    · rw [asInt64] at hok
      split at hok
      · cases hok
        have hzip : ((allSamples clsId sepId padId n (textIter.map tokenizer.encode)).map
            Prod.fst).zip ((allSamples clsId sepId padId n
              (textIter.map tokenizer.encode)).map Prod.snd) =
            allSamples clsId sepId padId n (textIter.map tokenizer.encode) := by
          rw [List.zip_map']
          exact List.map_id _
        refine ⟨by rw [List.length_map, List.length_map], ?_, ?_⟩
        · rw [hzip]
          exact allSamples_ok hn _
        · rw [hzip]
          exact allSamples_body hn _
      · cases hok

end RoundTrip

/-- A tokenizer that has the ids of the texts given. -/
def plainTokenizer : Tokenizer (List Int) := ⟨some 101, some 102, some 0, id⟩

/-- A text of one piece and a bit, no text, and a text that fills a row. -/
theorem plain_roundTrip :
    ∃ rows lengths,
      tokenizeToChunks [[7, 8, 9], [], [5, 6]] plainTokenizer 4 = .ok (rows, lengths) ∧
      RoundTrip 101 102 0 4 [[7, 8, 9], [], [5, 6]] rows lengths := by
  obtain ⟨-, hreturns, hrows⟩ := @tokenizeToChunks_roundTrip _ plainTokenizer 101 102 0 rfl rfl
    rfl 4 (by decide) [[7, 8, 9], [], [5, 6]]
  obtain ⟨rows, lengths, hok⟩ := hreturns (by decide) (by decide)
  exact ⟨rows, lengths, hok, hrows rows lengths hok⟩

/-- Texts without tokens have no rows, and no int64 holds `2 ^ 63`. -/
theorem plain_raises :
    tokenizeToChunks [[], []] plainTokenizer 4 =
      .error (.value "没有从输入目录中解析出任何文本 chunk") ∧
    tokenizeToChunks [[9223372036854775808]] plainTokenizer 4 = .error .overflow := by
  decide +kernel

end GidsStack.Dataset
