import Chronos.Head.Rows
import Chronos.Ingest.Deduplication
import Chronos.Schema.Lineage

/-!
What the deduplication checks of an append decide.

* `uniqueBatchKeys`: a batch that passes the first check has no two rows with the
  same key.
* `validateGenerationConflicts_ok`: the second check passes exactly if no row of
  the batch has the key of a row that the generation shows.
-/

namespace Chronos.Ingest

open Schema Columnar Head List

/-! ### The columns of the key -/

/-- A column of a batch is the column of an identity. -/
structure IsKeyColumn (batch : ColumnarBatch) (id : ColumnId) (column : ColumnVector) :
    Prop where
  found : ∃ ordinal definition, batch.schema.columnOrdinal id = some ordinal ∧
    batch.schema.columns[ordinal]? = some definition ∧ batch.columns[ordinal]? = some column ∧
    column.metadata.type = definition.type
  nonnull : column.metadata.nullable = false
  rowCount : column.metadata.rowCount = batch.rowCount

variable {id : ColumnId}

/-- Every column of the deduplication key is a column of the batch. -/
lemma keyColumn_exists (batch : ColumnarBatch) (hid : id ∈ batch.schema.roles.deduplicationKey) :
    ∃ ordinal column, batch.schema.columnOrdinal id = some ordinal ∧
      batch.columns[ordinal]? = some column ∧ IsKeyColumn batch id column := by
  obtain ⟨ordinal, _, hordinal, hdefinition, -, hnullable⟩ :=
    batch.schema.deduplication_column hid
  obtain ⟨hlt, rfl⟩ := List.getElem?_eq_some_iff.1 hdefinition
  have hcolumns : ordinal < batch.columns.length := batch.columns_length ▸ hlt
  obtain ⟨⟨-, htype, hsame⟩, hcount⟩ := batch.fits ordinal hcolumns hlt
  exact ⟨ordinal, _, hordinal, getElem?_eq_getElem hcolumns,
    ⟨ordinal, _, hordinal, hdefinition, getElem?_eq_getElem hcolumns, htype⟩,
    hsame.trans hnullable, hcount⟩

/-- `batch_key_columns` succeeds with the columns of the key. -/
lemma batchKeyColumns_ok (batch : ColumnarBatch) :
    ∃ columns, batchKeyColumns batch = .ok columns ∧
      List.Forall₂ (IsKeyColumn batch) batch.schema.roles.deduplicationKey columns := by
  suffices h : ∀ ids : List ColumnId, (∀ id ∈ ids, id ∈ batch.schema.roles.deduplicationKey) →
      ∃ columns, batchKeyColumnsOf batch ids = .ok columns ∧
        List.Forall₂ (IsKeyColumn batch) ids columns from h _ fun _ h => h
  intro ids
  induction ids with
  | nil => exact fun _ => ⟨[], rfl, .nil⟩
  | cons id _ ih =>
    intro hmem
    obtain ⟨_, column, hordinal, hcolumn, hkey⟩ := keyColumn_exists batch (hmem id (by simp))
    obtain ⟨columns, hcolumns, hkeys⟩ := ih fun i hi => hmem i (by simp [hi])
    refine ⟨column :: columns, ?_, .cons hkey hkeys⟩
    simp [batchKeyColumnsOf, hordinal, hcolumn, hkey.nonnull, hcolumns, bind, Except.bind, pure,
      Except.pure]

variable {batch : ColumnarBatch}

/-- The value of a row of a batch in a column of the key. -/
lemma keyValue_batch {column : ColumnVector} (hkey : IsKeyColumn batch id column) (row : ℕ) :
    keyValue batch.schema (batch.row row) id
      = some (column.metadata.type.kind, column.value row) := by
  obtain ⟨_, _, hordinal, hdefinition, hcolumn, htype⟩ := hkey.found
  simp [keyValue, hordinal, hdefinition, ColumnarBatch.row, hcolumn, htype]

section Batch

variable {batch : ColumnarBatch} {columns : List ColumnVector}
  (hkeys : List.Forall₂ (IsKeyColumn batch) batch.schema.roles.deduplicationKey columns)

include hkeys

lemma keyColumns_of_isKeyColumn : KeyColumns batch.rowCount columns := by
  intro _ hmem
  obtain ⟨_, hi, rfl⟩ := getElem_of_mem hmem
  have hkey := hkeys.get (by rw [hkeys.length_eq]; exact hi) hi
  exact ⟨hkey.nonnull, hkey.rowCount⟩

/-- The first check passes exactly if the keys of the rows differ. -/
lemma validateUniqueBatchKeys_ok :
    validateUniqueBatchKeys batch columns = .ok () ↔
      (List.range batch.rowCount).Pairwise fun a b => rowKey columns a ≠ rowKey columns b :=
  Sort.checkAdjacent_sort fun _ ha _ hb =>
    compareBatchRows_ok (mem_range.1 ha) (mem_range.1 hb)
      (keyColumns_of_isKeyColumn hkeys)

variable {a b : ℕ}

/-- Rows with logically equal keys have the same sort key. -/
lemma rowKey_of_keysEqual
    (hequal : KeysEqual batch.schema batch.schema (batch.row a) (batch.row b)) :
    rowKey columns a = rowKey columns b := by
  refine map_congr_left fun _ hmem => ?_
  obtain ⟨i, hi, rfl⟩ := getElem_of_mem hmem
  have hi' : i < batch.schema.roles.deduplicationKey.length := by rw [hkeys.length_eq]; exact hi
  have hkey := hkeys.get hi' hi
  have h := hequal _ (getElem_mem hi')
  rw [get_eq_getElem, get_eq_getElem] at hkey
  rw [keyValue_batch hkey, keyValue_batch hkey] at h
  simp only [keyValuesEqual, Bool.and_eq_true] at h
  exact cellKey_of_logicallyEqual h.2 a b

/-- No two rows of a batch that passes the first check have the same key. -/
lemma uniqueBatchKeys (hok : validateUniqueBatchKeys batch columns = .ok ())
    (ha : a < batch.rowCount) (hb : b < batch.rowCount) (hne : a ≠ b) :
    ¬ KeysEqual batch.schema batch.schema (batch.row a) (batch.row b) := by
  intro hequal
  have hkey := rowKey_of_keysEqual hkeys hequal
  have hpairwise := (validateUniqueBatchKeys_ok hkeys).1 hok
  rcases Nat.lt_or_gt_of_ne hne with hlt | hlt
  · exact (pairwise_iff_getElem.1 hpairwise a b (by simpa) (by simpa) hlt) (by simpa)
  · exact (pairwise_iff_getElem.1 hpairwise b a (by simpa) (by simpa) hlt)
      (by simpa using hkey.symm)

end Batch

/-! ### Generations -/

/-- The cells of a row have the types of the columns of a schema. -/
def RowTyped (schema : TableSchema) (cells : List Cell) : Prop :=
  List.Forall₂ (fun definition cell =>
    CellTyped definition.type definition.nullable cell) schema.columns cells

lemma batch_row_typed (batch : ColumnarBatch) {row : ℕ} (hrow : row < batch.rowCount) :
    RowTyped batch.schema (batch.row row) := by
  refine forall₂_iff_get.2 ⟨by simp [ColumnarBatch.row, batch.columns_length], ?_⟩
  intro i hi _
  have hcolumns : i < batch.columns.length := by rw [batch.columns_length]; exact hi
  obtain ⟨⟨-, htype, hnullable⟩, hcount⟩ := batch.fits i hcolumns hi
  have htyped := value_typed batch.columns[i] (hcount ▸ hrow)
  rw [htype, hnullable] at htyped
  simpa [ColumnarBatch.row] using htyped

variable {head : MutableHeadState} {publication : HeadPublication}

/-- The column of a generation at an ordinal of its schema. -/
lemma columnView_ok {ordinal : ℕ} {definition : ColumnDefinition} (hsound : HeadSound head)
    (hcovers : Covers head publication)
    (hdefinition : head.schema.columns[ordinal]? = some definition) :
    ∃ view, head.columnView publication ordinal = .ok view ∧
      (head.views publication)[ordinal]? = some view ∧ view.columnId = definition.id ∧
      view.type = definition.type ∧ view.nullable = definition.nullable ∧
      view.rowCount = publication.rowCount := by
  have hlength : publication.variableFrontiers.length = head.columns.length :=
    hcovers.frontiers.length_eq.trans hsound.storage.length_eq.symm
  obtain ⟨storage, hstorage, rfl⟩ : ∃ storage, head.columns[ordinal]? = some storage ∧
      storage.definition = definition := by
    rw [← hsound.definitions, getElem?_map, Option.map_eq_some_iff] at hdefinition
    exact hdefinition
  have hlt : ordinal < head.columns.length := (List.getElem?_eq_some_iff.1 hstorage).1
  have hview : (head.views publication)[ordinal]? = some (storage.view publication.rowCount
      (publication.variableFrontiers.get ⟨ordinal, hlength ▸ hlt⟩)) := by
    rw [MutableHeadState.views, getElem?_zipWith, hstorage, getElem?_eq_getElem (hlength ▸ hlt)]
    rfl
  exact ⟨_, by rw [MutableHeadState.columnView, hview], hview, rfl, rfl, rfl, rfl⟩

/-- A view of a generation is the column of an identity. -/
structure IsKeyView (head : MutableHeadState) (publication : HeadPublication) (id : ColumnId)
    (view : HeadColumnView) : Prop where
  found : ∃ ordinal definition, head.schema.columnOrdinal id = some ordinal ∧
    head.schema.columns[ordinal]? = some definition ∧
    (head.views publication)[ordinal]? = some view ∧ view.type = definition.type ∧
    view.nullable = definition.nullable
  nonnull : view.nullable = false
  rowCount : view.rowCount = publication.rowCount

/-- The cells of a row that a generation shows. -/
def shownCells (head : MutableHeadState) (publication : HeadPublication) (row : ℕ) : List Cell :=
  (head.views publication).map (·.value row)

/-- The value of a shown row in a column of the key. -/
lemma keyValue_head {view : HeadColumnView} (hkey : IsKeyView head publication id view) (row : ℕ) :
    keyValue head.schema (shownCells head publication row) id
      = some (view.type.kind, view.value row) := by
  obtain ⟨_, _, hordinal, hdefinition, hview, htype, -⟩ := hkey.found
  simp [keyValue, hordinal, hdefinition, shownCells, hview, htype]

section Generation

variable {batch : ColumnarBatch} {head : MutableHeadState} {publication : HeadPublication}

variable {ids : List ColumnId} {columns : List ColumnVector}

/-- The key columns of a generation whose schema the batch extends. -/
lemma headKeyColumns_ok (hsound : HeadSound head) (hcovers : Covers head publication)
    (hextends : SchemaExtends head.schema batch.schema)
    (hids : ∀ id ∈ ids, id ∈ batch.schema.roles.deduplicationKey)
    (hkeys : List.Forall₂ (IsKeyColumn batch) ids columns) :
    ∃ views, headKeyColumns batch head publication ids = .ok views ∧
      List.Forall₂ (IsKeyView head publication) ids views ∧
      List.Forall₂ (fun column view => column.metadata.type = view.type) columns views := by
  induction hkeys with
  | nil => exact ⟨[], rfl, .nil, .nil⟩
  | @cons id column _ columns hkey _ ih =>
    obtain ⟨views, hviews, hheads, htypes⟩ := ih fun i hi => hids i (by simp [hi])
    have hmem := hids id (by simp)
    rw [hextends.roles] at hmem
    obtain ⟨ordinal, definition, hordinal, hdefinition, hid, hnullable⟩ :=
      head.schema.deduplication_column hmem
    obtain ⟨view, hview, hget, hviewId, hviewType, hviewNullable, hviewRows⟩ :=
      columnView_ok hsound hcovers hdefinition
    have hordinal' := hextends.columnOrdinal hordinal
    obtain ⟨definition', hdefinition', -, htype', -⟩ := hextends.columns ordinal _ hdefinition
    obtain ⟨ordinal'', definition'', hordinal'', hdefinition'', hcolumn, htype''⟩ := hkey.found
    obtain rfl : ordinal = ordinal'' := Option.some_inj.1 (hordinal'.symm.trans hordinal'')
    obtain rfl : definition' = definition'' :=
      Option.some_inj.1 (hdefinition'.symm.trans hdefinition'')
    have htype : column.metadata.type = view.type := by rw [htype'', htype', hviewType]
    refine ⟨view :: views, ?_, .cons ⟨⟨ordinal, definition, hordinal, hdefinition, hget, hviewType,
      hviewNullable⟩, hviewNullable.trans hnullable, hviewRows⟩ hheads, .cons htype htypes⟩
    simp [headKeyColumns, hordinal', hview, hviewId, hid, hcolumn, htype, hviewNullable, hnullable,
      hviews, bind, Except.bind, pure, Except.pure]

variable {id : ColumnId} {view : HeadColumnView} {row : ℕ}

/-- A shown cell of a typed row is typed. -/
lemma IsKeyView.typed (hkey : IsKeyView head publication id view)
    (htyped : RowTyped head.schema (shownCells head publication row)) :
    CellTyped view.type false (view.value row) := by
  obtain ⟨_, _, -, hdefinition, hview, htype, hnullable⟩ := hkey.found
  obtain ⟨hlt, rfl⟩ := List.getElem?_eq_some_iff.1 hdefinition
  obtain ⟨hlt', rfl⟩ := List.getElem?_eq_some_iff.1 hview
  have hcell := htyped.get hlt (by simpa [shownCells] using hlt')
  rw [htype, ← hkey.nonnull, hnullable]
  simpa [shownCells] using hcell

lemma headCell_ok (hkey : IsKeyView head publication id view) (hrow : row < publication.rowCount)
    (htyped : RowTyped head.schema (shownCells head publication row)) :
    headCell view row = .ok (toKeyCell (view.value row)) := by
  rw [headCell, HeadColumnView.cell, if_neg (by rw [hkey.rowCount]; omega)]
  exact keyCell_ok (hkey.typed htyped) _ _ _ _

variable {views : List HeadColumnView}

/-- `batch_head_rows_equal` decides whether the keys of the two rows are logically equal. -/
lemma keyColumnsEqual_ok {batchRow headRow : ℕ} (hbatchRow : batchRow < batch.rowCount)
    (hheadRow : headRow < publication.rowCount)
    (htyped : RowTyped head.schema (shownCells head publication headRow))
    (hkeys : List.Forall₂ (IsKeyColumn batch) ids columns)
    (hheads : List.Forall₂ (IsKeyView head publication) ids views)
    (htypes : List.Forall₂ (fun column view => column.metadata.type = view.type) columns views) :
    keyColumnsEqual batchRow headRow columns views
      = .ok (decide (∀ id ∈ ids, keyValuesEqual (keyValue batch.schema (batch.row batchRow) id)
          (keyValue head.schema (shownCells head publication headRow) id) = true)) := by
  induction hkeys generalizing views with
  | nil =>
    cases hheads
    rfl
  | @cons _ column _ _ hkey _ ih =>
    cases hheads with
    | @cons _ view _ _ hhead hheads =>
      cases htypes with
      | cons htype htypes =>
        have hleft : CellTyped view.type false (column.value batchRow) := by
          rw [← hkey.nonnull, ← htype]
          exact value_typed column (by rw [hkey.rowCount]; exact hbatchRow)
        have hcells := cellsEqual_ok hleft (hhead.typed htyped)
        rw [keyColumnsEqual, batchCell_ok hkey.nonnull (by rw [hkey.rowCount]; exact hbatchRow),
          headCell_ok hhead hheadRow htyped]
        simp only [bind, Except.bind, htype, hcells, pure, Except.pure, forall_mem_cons,
          keyValue_batch hkey, keyValue_head hhead, keyValuesEqual]
        cases hequal : logicallyEqual view.type.kind (column.value batchRow)
          (view.value headRow) with
        | false => simp
        | true =>
          simp only [beq_self_eq_true, Bool.and_self, if_true, true_and]
          exact ih hheads htypes

lemma checkConflicts_ok {rows : List (ℕ × ℕ)} (equal : ℕ × ℕ → Bool)
    (hrows : ∀ row ∈ rows, batchHeadRowsEqual columns views row.1 row.2 = .ok (equal row)) :
    checkConflicts columns views rows = .ok () ↔ ∀ row ∈ rows, equal row = false := by
  induction rows with
  | nil => exact ⟨fun _ _ h => absurd h (not_mem_nil), fun _ => rfl⟩
  | cons row _ ih =>
    have hrest := ih fun r hr => hrows r (by simp [hr])
    rw [checkConflicts, hrows row (by simp), forall_mem_cons]
    simp only [bind, Except.bind]
    cases hequal : equal row with
    | true => simp [invalid]
    | false => simpa using hrest

section

variable (hsound : HeadSound head) (hcovers : Covers head publication)
  (hextends : SchemaExtends head.schema batch.schema)
  (hkeys : List.Forall₂ (IsKeyColumn batch) batch.schema.roles.deduplicationKey columns)
include hsound hcovers hextends hkeys

/-- **The conflict check of one generation** passes exactly if no row of the batch has the key of
a row that the generation shows. -/
lemma validateGenerationConflicts_ok (htyped : ∀ row < publication.rowCount,
      RowTyped head.schema (shownCells head publication row)) :
    validateGenerationConflicts batch columns head publication = .ok () ↔
      ∀ batchRow < batch.rowCount, ∀ headRow < publication.rowCount,
        ¬ KeysEqual batch.schema head.schema (batch.row batchRow)
          (shownCells head publication headRow) := by
  rw [validateGenerationConflicts]
  split
  · rename_i hempty
    exact ⟨fun _ _ _ _ h => absurd h (by omega), fun _ => rfl⟩
  · obtain ⟨_, hviews, hheads, htypes⟩ :=
      headKeyColumns_ok hsound hcovers hextends (fun _ h => h) hkeys
    simp only [hviews, bind, Except.bind]
    rw [checkConflicts_ok fun row => decide (KeysEqual batch.schema head.schema
      (batch.row row.1) (shownCells head publication row.2))]
    · simp only [mem_flatMap, mem_range, mem_map, decide_eq_false_iff_not]
      constructor
      · intro h batchRow hbatchRow headRow hheadRow
        exact h (batchRow, headRow) ⟨batchRow, hbatchRow, headRow, hheadRow, rfl⟩
      · rintro h _ ⟨batchRow, hbatchRow, headRow, hheadRow, rfl⟩
        exact h batchRow hbatchRow headRow hheadRow
    · intro _ hrow
      simp only [mem_flatMap, mem_range, mem_map] at hrow
      obtain ⟨_, hbatchRow, headRow, hheadRow, rfl⟩ := hrow
      rw [batchHeadRowsEqual, if_neg (by rw [htypes.length_eq]; exact not_not.2 rfl),
        keyColumnsEqual_ok hbatchRow hheadRow (htyped headRow hheadRow) hkeys hheads htypes]
      rfl

/-- The same, over the rows that the generation shows. -/
lemma generationConflicts_rows
    (htyped : ∀ row ∈ head.rows publication, RowTyped head.schema row.cells) :
    validateGenerationConflicts batch columns head publication = .ok () ↔
      ∀ row ∈ head.rows publication, ∀ batchRow < batch.rowCount,
        ¬ KeysEqual batch.schema head.schema (batch.row batchRow) row.cells := by
  simp only [MutableHeadState.rows, forall_mem_map, mem_range] at htyped ⊢
  rw [validateGenerationConflicts_ok hsound hcovers hextends hkeys htyped]
  exact ⟨fun h i hi b hb => h b hb i hi, fun h b hb i hi => h i hi b hb⟩

end

end Generation

/-! ### The whole check -/

/-- The check of a batch against itself. -/
def uniqueKeys (batch : ColumnarBatch) : Result Unit :=
  batchKeyColumns batch >>= validateUniqueBatchKeys batch

/-- No row of a batch has the key of one of the shown rows, each with its schema. -/
def NoConflict (batch : ColumnarBatch) (shown : List (TableSchema × HeadRow)) : Prop :=
  ∀ row ∈ shown, ∀ batchRow < batch.rowCount,
    ¬ KeysEqual batch.schema row.1 (batch.row batchRow) row.2.cells

/-- The rows of some generations, each with the schema of its generation. -/
def shownRows (generations : List (MutableHeadState × HeadPublication)) :
    List (TableSchema × HeadRow) :=
  generations.flatMap fun generation =>
    (generation.1.rows generation.2).map fun row => (generation.1.schema, row)

/-- A generation that the check can read: sound, typed, and of a schema that the batch extends. -/
structure Readable (batch : ColumnarBatch) (generation : MutableHeadState × HeadPublication) :
    Prop where
  sound : HeadSound generation.1
  covers : Covers generation.1 generation.2
  extends_schema : SchemaExtends generation.1.schema batch.schema
  typed : ∀ row ∈ generation.1.rows generation.2, RowTyped generation.1.schema row.cells

variable {generations : List (MutableHeadState × HeadPublication)}

lemma validateConflicts_ok {columns : List ColumnVector}
    (hkeys : List.Forall₂ (IsKeyColumn batch) batch.schema.roles.deduplicationKey columns)
    (hreadable : ∀ generation ∈ generations, Readable batch generation) :
    validateConflicts batch columns generations = .ok () ↔
      NoConflict batch (shownRows generations) := by
  induction generations with
  | nil => exact ⟨fun _ _ h => absurd h (not_mem_nil), fun _ => rfl⟩
  | cons generation _ ih =>
    obtain ⟨hsound, hcovers, hextends, htyped⟩ := hreadable generation (by simp)
    have hfirst := generationConflicts_rows hsound hcovers hextends hkeys htyped
    have hrest := ih fun g hg => hreadable g (by simp [hg])
    rw [validateConflicts]
    constructor
    · intro hok
      obtain ⟨⟨⟩, hhead, htail⟩ := Result.bind_eq_ok.1 hok
      intro row hrow
      rw [shownRows, flatMap_cons, mem_append, mem_map] at hrow
      rcases hrow with ⟨row, hmem, rfl⟩ | hmem
      · exact hfirst.1 hhead row hmem
      · exact hrest.1 htail row hmem
    · intro hno
      refine Result.bind_eq_ok.2 ⟨(), hfirst.2 fun row hmem => ?_, hrest.2 fun row hmem => ?_⟩
      · exact hno (generation.1.schema, row) (mem_append_left _ (mem_map_of_mem hmem))
      · exact hno row (mem_append_right _ hmem)

/-- **The deduplication check** passes exactly if the key is empty, or the batch has no duplicate
of its own and no row of it conflicts with a shown row. -/
lemma validateAppendDeduplication_ok
    (hreadable : ∀ generation ∈ generations, Readable batch generation) :
    validateAppendDeduplication batch generations = .ok () ↔
      batch.schema.roles.deduplicationKey = [] ∨
        uniqueKeys batch = .ok () ∧ NoConflict batch (shownRows generations) := by
  rw [validateAppendDeduplication]
  split
  · rename_i hempty
    exact ⟨fun _ => .inl hempty, fun _ => rfl⟩
  · rename_i hnonempty
    obtain ⟨columns, hcolumns, hkeys⟩ := batchKeyColumns_ok batch
    have hconflicts := validateConflicts_ok hkeys hreadable
    have hunique : uniqueKeys batch = validateUniqueBatchKeys batch columns := by
      rw [uniqueKeys, hcolumns]
      rfl
    rw [hunique, hcolumns]
    simp only [Result.bind_eq_ok, Except.ok.injEq, exists_eq_left']
    constructor
    · rintro ⟨⟨⟩, hself, hothers⟩
      exact .inr ⟨hself, hconflicts.1 hothers⟩
    · rintro (hempty | ⟨hself, hothers⟩)
      · exact absurd hempty hnonempty
      · exact ⟨(), hself, hconflicts.2 hothers⟩

/-- No two rows of a batch that passes have the same key. -/
lemma uniqueKeys_distinct (hok : uniqueKeys batch = .ok ()) {a b : ℕ} (ha : a < batch.rowCount)
    (hb : b < batch.rowCount) (hne : a ≠ b) :
    ¬ KeysEqual batch.schema batch.schema (batch.row a) (batch.row b) := by
  obtain ⟨_, hcolumns, hkeys⟩ := batchKeyColumns_ok batch
  rw [uniqueKeys, hcolumns] at hok
  exact uniqueBatchKeys hkeys hok ha hb hne

end Chronos.Ingest
