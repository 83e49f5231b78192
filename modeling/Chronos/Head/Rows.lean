import Chronos.Head.Columns

/-!
What a mutable head shows its readers.

* `Covers`: a boundary that the head has published.
* `Retains`: what is read at a covered boundary of one head is read in another.
* `Retains.published`, `rows_published`: publishing an append leaves everything that
  is read at a covered boundary as it was, and at the new boundary shows the old rows
  followed by the rows of the batch.
* `ControlOnly`: the other operations of a head change nothing that is read.
-/

namespace Chronos.Head

open Schema Columnar MutableHeadState List

/-! ### Boundaries -/

/-- A boundary that a head has published: no later than its current one. -/
structure Covers (head : MutableHeadState) (publication : HeadPublication) : Prop where
  rowCount : publication.rowCount ≤ head.publication.rowCount
  frontiers : List.Forall₂ (· ≤ ·) publication.variableFrontiers
    head.publication.variableFrontiers

lemma Covers.current (head : MutableHeadState) : Covers head head.publication :=
  ⟨le_rfl, forall₂_refl _⟩

/-- Whatever a reader sees at a boundary of the first head, it sees in the second one. -/
structure Retains (head head' : MutableHeadState) : Prop where
  schema : head'.schema = head.schema
  tabletId : head'.tabletId = head.tabletId
  generation : head'.generation = head.generation
  covers : ∀ publication, Covers head publication → Covers head' publication
  views : ∀ publication, Covers head publication → head'.views publication = head.views publication
  metadata : ∀ publication, Covers head publication →
    head'.rowMetadata.take publication.rowCount = head.rowMetadata.take publication.rowCount

lemma Retains.refl (head : MutableHeadState) : Retains head head :=
  ⟨rfl, rfl, rfl, fun _ h => h, fun _ _ => rfl, fun _ _ => rfl⟩

variable {head head' : MutableHeadState}

lemma Retains.trans {head'' : MutableHeadState} (h : Retains head head')
    (h' : Retains head' head'') : Retains head head'' where
  schema := h'.schema.trans h.schema
  tabletId := h'.tabletId.trans h.tabletId
  generation := h'.generation.trans h.generation
  covers p hp := h'.covers p (h.covers p hp)
  views p hp := (h'.views p (h.covers p hp)).trans (h.views p hp)
  metadata p hp := (h'.metadata p (h.covers p hp)).trans (h.metadata p hp)

/-- A change of the control fields only is not seen by any reader. -/
lemma Retains.of_buffers (hschema : head'.schema = head.schema)
    (htablet : head'.tabletId = head.tabletId) (hgeneration : head'.generation = head.generation)
    (hcolumns : head'.columns = head.columns) (hmetadata : head'.rowMetadata = head.rowMetadata)
    (hpublication : head'.publication = head.publication) : Retains head head' where
  schema := hschema
  tabletId := htablet
  generation := hgeneration
  covers p hp := ⟨hpublication ▸ hp.rowCount, hpublication ▸ hp.frontiers⟩
  views p _ := by rw [MutableHeadState.views, MutableHeadState.views, hcolumns]
  metadata p _ := by rw [hmetadata]

variable {publication : HeadPublication}

section

variable (h : Retains head head') (hp : Covers head publication)
include h hp

lemma Retains.metadataOf (row : ℕ) :
    head'.metadataOf publication row = head.metadataOf publication row := by
  simp only [MutableHeadState.metadataOf]
  split
  · rfl
  · rename_i hrow
    rw [← getD_take (not_le.1 hrow), h.metadata publication hp, getD_take (not_le.1 hrow)]

lemma Retains.columnView (ordinal : ℕ) :
    head'.columnView publication ordinal = head.columnView publication ordinal := by
  rw [MutableHeadState.columnView, h.views publication hp]
  rfl

lemma Retains.rows : head'.rows publication = head.rows publication := by
  simp only [MutableHeadState.rows, h.views publication hp]
  refine map_congr_left fun row hrow => ?_
  rw [← getD_take (mem_range.1 hrow), h.metadata publication hp,
    getD_take (mem_range.1 hrow)]

end

lemma HeadSound.of_buffers (hsound : HeadSound head) (hschema : head'.schema = head.schema)
    (hcapacity : head'.rowCapacity = head.rowCapacity) (hcolumns : head'.columns = head.columns)
    (hmetadata : head'.rowMetadata = head.rowMetadata)
    (hpublication : head'.publication = head.publication) : HeadSound head' where
  definitions := by rw [hcolumns, hschema]; exact hsound.definitions
  storage := by rw [hcolumns, hcapacity, hpublication]; exact hsound.storage
  metadata := by rw [hmetadata, hcapacity]; exact hsound.metadata
  rows_le := by rw [hpublication, hcapacity]; exact hsound.rows_le

/-! ### Prepared appends -/

/-- The rows of a batch at a position. -/
def batchRows (batch : ColumnarBatch) (position : HeadCommitPosition) : List HeadRow :=
  (List.range batch.rowCount).map fun row => ⟨⟨position, row, .appendRows⟩, batch.row row⟩

/-- A prepared append was reserved at the boundary the head still publishes. -/
structure PreparedSound (head : MutableHeadState) (prepared : PreparedHeadAppend) : Prop where
  base : prepared.base = head.publication
  fit : ColumnsFit head.rowCapacity head.publication.rowCount prepared.batch.rowCount head.columns
    head.publication.variableFrontiers prepared.batch.columns
  rows_le : head.publication.rowCount + prepared.batch.rowCount ≤ head.rowCapacity
  nextRowCount : prepared.nextRowCount = head.publication.rowCount + prepared.batch.rowCount
  nextFrontiers : prepared.nextFrontiers =
    List.zipWith nextFrontier head.publication.variableFrontiers prepared.batch.columns
  schema : prepared.batch.schema = head.schema

lemma PreparedSound.of_buffers {prepared : PreparedHeadAppend}
    (hsound : PreparedSound head prepared) (hschema : head'.schema = head.schema)
    (hcapacity : head'.rowCapacity = head.rowCapacity) (hcolumns : head'.columns = head.columns)
    (hpublication : head'.publication = head.publication) : PreparedSound head' prepared where
  base := hpublication ▸ hsound.base
  fit := by rw [hcolumns, hcapacity, hpublication]; exact hsound.fit
  rows_le := by rw [hcapacity, hpublication]; exact hsound.rows_le
  nextRowCount := by rw [hpublication]; exact hsound.nextRowCount
  nextFrontiers := by rw [hpublication]; exact hsound.nextFrontiers
  schema := hschema ▸ hsound.schema

/-- The checks of `validate_append`. -/
structure AppendChecked (head : MutableHeadState) (batch : ColumnarBatch) : Prop where
  failed : head.failed = false
  unsealed : head.isSealed = false
  inactive : head.appendActive = false
  schema : batch.schema = head.schema
  rows_le : head.publication.rowCount + batch.rowCount ≤ head.rowCapacity
  frontiers : validateFrontiers head.columns head.publication.variableFrontiers batch.columns
    = .ok ()

variable {batch : ColumnarBatch}

lemma AppendChecked.of_checkAppend (hok : head.checkAppend batch = .ok ()) :
    AppendChecked head batch := by
  rw [checkAppend, validateAppend] at hok
  iterate 4
    split at hok
    · cases hok
  rename_i hfailed hsealed hactive hschema
  split at hok
  · cases hok
  rename_i endRow hend
  split at hok
  · cases hok
  rename_i hle
  rw [checkedAddU32] at hend
  split at hend
  · cases hend
  cases hend
  exact ⟨by simpa using hfailed, by simpa using hsealed, by simpa using hactive,
    not_not.1 hschema, not_lt.1 hle, hok⟩

/-- An append that passes the checks fits. -/
lemma AppendChecked.columnsFit (hchecked : AppendChecked head batch) (hsound : HeadSound head) :
    ColumnsFit head.rowCapacity head.publication.rowCount batch.rowCount head.columns
      head.publication.variableFrontiers batch.columns := by
  refine columnsFit_of_validate hsound.storage ?_ hchecked.rows_le hchecked.frontiers
  rw [hsound.definitions, ← hchecked.schema]
  exact batch.shape

/-- The state of a head that has reserved an append. -/
def MutableHeadState.reserved (head : MutableHeadState) : MutableHeadState :=
  { head with
    nextToken := head.nextToken + 1
    appendActive := true
    activeToken := head.nextToken
    activePhase := .preWal }

/-- The append that a head reserves for a batch. -/
def MutableHeadState.reservation (head : MutableHeadState) (batch : ColumnarBatch) :
    PreparedHeadAppend :=
  ⟨batch, head.nextToken, head.publication, head.publication.rowCount + batch.rowCount,
    List.zipWith nextFrontier head.publication.variableFrontiers batch.columns⟩

/-- What `prepare` can do. -/
lemma prepare_cases (head : MutableHeadState) (batch : ColumnarBatch) :
    (∃ status, head.prepare batch = (.error status, head)) ∨
      head.checkAppend batch = .ok () ∧ head.nextToken ≠ u64Max ∧
        head.prepare batch = (.ok (head.reservation batch), head.reserved) := by
  rw [prepare, checkAppend]
  split
  · exact .inl ⟨_, rfl⟩
  · rename_i hok
    split
    · exact .inl ⟨_, rfl⟩
    · rename_i htoken
      exact .inr ⟨hok, htoken, rfl⟩

lemma HeadSound.reservation (hsound : HeadSound head) (hok : head.checkAppend batch = .ok ()) :
    PreparedSound head (head.reservation batch) :=
  have hchecked := AppendChecked.of_checkAppend hok
  ⟨rfl, hchecked.columnsFit hsound, hchecked.rows_le, rfl, rfl, hchecked.schema⟩

/-- The head after a publication. -/
def MutableHeadState.published (head : MutableHeadState) (prepared : PreparedHeadAppend)
    (position : HeadCommitPosition) : MutableHeadState :=
  { head.materialize prepared.batch prepared.base position with
    publication := ⟨prepared.nextRowCount, some position, prepared.nextFrontiers⟩
    appendActive := false }

/-- What `publish` can do. -/
lemma publish_cases (head : MutableHeadState) (prepared : PreparedHeadAppend)
    (position : HeadCommitPosition) :
    (∃ status, head.publish prepared position = (.error status, head) ∨
        head.publish prepared position = (.error status, head.fail)) ∨
      (head.appendActive = true ∧ head.activeToken = prepared.token ∧
        head.activePhase = .walStarted ∧ head.failed = false ∧ head.isSealed = false ∧
        head.publication = prepared.base ∧ validatePosition position prepared.base = .ok ()) ∧
      head.publish prepared position =
        (.ok ⟨prepared.nextRowCount, some position, prepared.nextFrontiers⟩,
          head.published prepared position) := by
  rw [publish]
  split
  · exact .inl ⟨_, .inl rfl⟩
  split
  · exact .inl ⟨_, .inl rfl⟩
  split
  · exact .inl ⟨_, .inl rfl⟩
  split
  · exact .inl ⟨_, .inr rfl⟩
  rename_i howner hphase hstate hbase
  split
  · exact .inl ⟨_, .inr rfl⟩
  rename_i hposition
  split
  · exact .inl ⟨_, .inr rfl⟩
  simp only [not_or, Bool.not_eq_true, Bool.not_eq_true', not_not] at howner hphase hstate hbase
  exact .inr ⟨⟨by simpa using howner.1, howner.2, hphase, hstate.1, hstate.2, hbase, hposition⟩,
    rfl⟩

section Published

variable {head : MutableHeadState} {prepared : PreparedHeadAppend} {position : HeadCommitPosition}

lemma published_columns (hprepared : PreparedSound head prepared) :
    (head.published prepared position).columns
      = materializeColumns head.publication.rowCount head.columns
          head.publication.variableFrontiers prepared.batch.columns := by
  rw [← hprepared.base]
  rfl

lemma published_rowMetadata (hprepared : PreparedSound head prepared) :
    (head.published prepared position).rowMetadata
      = writeAt head.rowMetadata head.publication.rowCount
          (batchMetadata prepared.batch position) := by
  rw [← hprepared.base]
  rfl

lemma batchMetadata_length (batch : ColumnarBatch) :
    (batchMetadata batch position).length = batch.rowCount := by
  simp [batchMetadata]

section

variable (hsound : HeadSound head) (hprepared : PreparedSound head prepared)
include hsound hprepared

/-- A head stays sound when an append is published. -/
lemma HeadSound.published : HeadSound (head.published prepared position) where
  definitions := by
    rw [published_columns hprepared, materializeColumns_definitions hprepared.fit]
    exact hsound.definitions
  storage := by
    rw [published_columns hprepared]
    have hstorage := materializeColumns_sound hprepared.fit
    rw [← hprepared.nextRowCount, ← hprepared.nextFrontiers] at hstorage
    exact hstorage
  metadata := by
    have hle := hprepared.rows_le
    rw [published_rowMetadata hprepared, writeAt_length]
    · exact hsound.metadata
    · rw [batchMetadata_length, hsound.metadata]
      exact hle
  rows_le := by
    have hle := hprepared.rows_le
    rw [← hprepared.nextRowCount] at hle
    exact hle

/-- **Frame of a publication.**  What is read at a boundary published before is not touched. -/
lemma Retains.published : Retains head (head.published prepared position) where
  schema := rfl
  tabletId := rfl
  generation := rfl
  covers p hp := by
    refine ⟨?_, ?_⟩
    · refine hp.rowCount.trans (le_of_le_of_eq (Nat.le_add_right _ prepared.batch.rowCount) ?_)
      exact hprepared.nextRowCount.symm
    · have hnext := frontiers_le_next hprepared.fit
      rw [← hprepared.nextFrontiers] at hnext
      exact frontiers_le_trans hp.frontiers hnext
  views p hp := by
    have hviews := columnViews_materialize hprepared.fit hp.rowCount hp.frontiers
    rw [← published_columns hprepared] at hviews
    exact hviews
  metadata p hp := by
    rw [published_rowMetadata hprepared, take_writeAt hp.rowCount]
    rw [hsound.metadata]
    exact hsound.rows_le

/-- **A publication adds the rows of its batch**, behind the rows that were there. -/
lemma rows_published :
    (head.published prepared position).rows (head.published prepared position).publication
      = head.rows head.publication ++ batchRows prepared.batch position := by
  have hcapacity : head.publication.rowCount ≤ head.rowMetadata.length := by
    rw [hsound.metadata]
    exact hsound.rows_le
  have hviews : (head.published prepared position).views
      (head.published prepared position).publication
        = columnViews (head.publication.rowCount + prepared.batch.rowCount)
          (materializeColumns head.publication.rowCount head.columns
            head.publication.variableFrontiers prepared.batch.columns)
          (zipWith nextFrontier head.publication.variableFrontiers
            prepared.batch.columns) := by
    rw [← published_columns hprepared, ← hprepared.nextRowCount, ← hprepared.nextFrontiers]
    rfl
  have hcount : (head.published prepared position).publication.rowCount
      = head.publication.rowCount + prepared.batch.rowCount := hprepared.nextRowCount
  rw [MutableHeadState.rows, hviews, hcount, range_add, map_append, map_map,
    published_rowMetadata hprepared]
  congr 1
  · refine map_congr_left fun row hrow => ?_
    rw [getD_writeAt_of_lt (mem_range.1 hrow) hcapacity,
      values_retained hprepared.fit (mem_range.1 hrow)]
    rfl
  · refine map_congr_left fun row hrow => ?_
    rw [Function.comp_apply, getD_writeAt_of_ge (by
        rw [batchMetadata_length]; exact mem_range.1 hrow) hcapacity,
      values_appended hprepared.fit (mem_range.1 hrow), batchMetadata,
      getD_map_range (mem_range.1 hrow)]
    rfl

end

end Published

/-! ### Changes that no reader sees -/

/-- Only the control fields changed, and a sealed head stayed sealed. -/
structure ControlOnly (head head' : MutableHeadState) : Prop where
  schema : head'.schema = head.schema
  tabletId : head'.tabletId = head.tabletId
  generation : head'.generation = head.generation
  rowCapacity : head'.rowCapacity = head.rowCapacity
  columns : head'.columns = head.columns
  rowMetadata : head'.rowMetadata = head.rowMetadata
  publication : head'.publication = head.publication
  sealed_mono : head.isSealed = true → head'.isSealed = true

namespace ControlOnly

variable {head head' : MutableHeadState}

lemma refl (head : MutableHeadState) : ControlOnly head head :=
  ⟨rfl, rfl, rfl, rfl, rfl, rfl, rfl, id⟩

section

variable (h : ControlOnly head head')
include h

lemma retains : Retains head head' :=
  .of_buffers h.schema h.tabletId h.generation h.columns h.rowMetadata h.publication

lemma headSound (hsound : HeadSound head) : HeadSound head' :=
  hsound.of_buffers h.schema h.rowCapacity h.columns h.rowMetadata h.publication

lemma preparedSound {prepared : PreparedHeadAppend} (hsound : PreparedSound head prepared) :
    PreparedSound head' prepared :=
  hsound.of_buffers h.schema h.rowCapacity h.columns h.publication

lemma snapshot (address : ℕ) : head'.snapshot address = head.snapshot address := by
  rw [MutableHeadState.snapshot, h.schema, h.tabletId, h.generation, h.publication]
  rfl

lemma views (publication : HeadPublication) : head'.views publication = head.views publication := by
  rw [MutableHeadState.views, h.columns]
  rfl

lemma rows (publication : HeadPublication) : head'.rows publication = head.rows publication := by
  rw [MutableHeadState.rows, h.views, h.rowMetadata]
  rfl

end

section

variable (head : MutableHeadState)

lemma reserved : ControlOnly head head.reserved :=
  ⟨rfl, rfl, rfl, rfl, rfl, rfl, rfl, id⟩

lemma fail : ControlOnly head head.fail :=
  ⟨rfl, rfl, rfl, rfl, rfl, rfl, rfl, id⟩

lemma markWalStarted (token : ℕ) : ControlOnly head (head.markWalStarted token).2 := by
  rw [MutableHeadState.markWalStarted]
  split_ifs <;> exact ⟨rfl, rfl, rfl, rfl, rfl, rfl, rfl, id⟩

lemma cancelBeforeWal (token : ℕ) : ControlOnly head (head.cancelBeforeWal token).2 := by
  rw [MutableHeadState.cancelBeforeWal]
  split_ifs <;> exact ⟨rfl, rfl, rfl, rfl, rfl, rfl, rfl, id⟩

lemma abandon (token : ℕ) : ControlOnly head (head.abandon token) := by
  rw [MutableHeadState.abandon]
  split_ifs <;> exact ⟨rfl, rfl, rfl, rfl, rfl, rfl, rfl, id⟩

end

end ControlOnly

/-- What `mark_wal_started` can do. -/
lemma markWalStarted_cases (head : MutableHeadState) (token : ℕ) :
    (∃ status, head.markWalStarted token = (.error status, head)) ∨
      (head.appendActive = true ∧ head.activeToken = token ∧ head.activePhase = .preWal) ∧
        head.markWalStarted token = (.ok (), { head with activePhase := .walStarted }) := by
  rw [MutableHeadState.markWalStarted]
  iterate 3
    split
    · exact .inl ⟨_, rfl⟩
  rename_i howner hphase _
  simp only [not_or, Bool.not_eq_true', Bool.not_eq_false, not_not] at howner hphase
  exact .inr ⟨⟨howner.1, howner.2, hphase⟩, rfl⟩

/-- What `cancel_before_wal` can do. -/
lemma cancelBeforeWal_cases (head : MutableHeadState) (token : ℕ) :
    (∃ status, head.cancelBeforeWal token = (.error status, head)) ∨
      head.cancelBeforeWal token = (.ok (), { head with appendActive := false }) := by
  rw [MutableHeadState.cancelBeforeWal]
  split
  · exact .inl ⟨_, rfl⟩
  split
  · exact .inl ⟨_, rfl⟩
  exact .inr rfl

/-- What `seal` can do. -/
lemma seal_cases (head : MutableHeadState) :
    (∃ status, head.seal = (.error status, head)) ∨
      head.failed = false ∧ head.appendActive = false ∧
        head.seal = (.ok head.publication, { head with isSealed := true }) := by
  rw [MutableHeadState.seal]
  split
  · exact .inl ⟨_, rfl⟩
  split
  · exact .inl ⟨_, rfl⟩
  rename_i hfailed hactive
  exact .inr ⟨by simpa using hfailed, by simpa using hactive, rfl⟩

/-- An empty boundary shows no row. -/
lemma rows_of_empty (h : publication.rowCount = 0) : head.rows publication = [] := by
  rw [MutableHeadState.rows, h]
  rfl

end Chronos.Head
