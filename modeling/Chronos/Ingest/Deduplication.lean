import Chronos.Head.Mutable
import Chronos.Sort.BottomUp

/-!
`src/ingest/deduplication_key.cpp`: the logical deduplication key of an append.

* `validateUniqueBatchKeys`: no two rows of a batch have the same key, found by a
  merge sort of the row numbers and a look at neighbours.
* `validateGenerationConflicts`: no row of a batch has the key of a row that a
  generation shows.
* `validateAppendDeduplication`: both, over all generations of a tablet.
* `logicallyEqual`, `KeysEqual`: what the two checks are about, stated over cells.
  A NaN is equal to nothing and the two floating zeros are equal.
-/

namespace Chronos.Ingest

open Schema Columnar Head Bool

/-! ### Cells -/

/-- `KeyCell`. -/
structure KeyCell where
  isBoolean : Bool
  boolean : Bool
  bytes : List UInt8
  deriving DecidableEq

/-- `batch_cell` and `head_cell`, with the texts of their four errors. -/
def keyCell (inaccessible null malformedBoolean malformedBytes : String) (type : LogicalType)
    (cell : Result Cell) : Result KeyCell :=
  match cell with
  | .error status => internal (inaccessible ++ status.message)
  | .ok .null => internal null
  | .ok (.boolean value) =>
    if type.kind = .bool then .ok ⟨true, value, []⟩ else internal malformedBytes
  | .ok (.bytes value) =>
    if type.kind = .bool then internal malformedBoolean else .ok ⟨false, false, value⟩

/-- `batch_cell`. -/
def batchCell (column : ColumnVector) (row : ℕ) : Result KeyCell :=
  keyCell "validated batch deduplication cell became inaccessible: "
    "validated non-null batch deduplication key contains NULL"
    "batch deduplication BOOL cell is malformed" "batch deduplication byte cell is malformed"
    column.metadata.type (column.cell row)

/-- `head_cell`. -/
def headCell (view : HeadColumnView) (row : ℕ) : Result KeyCell :=
  keyCell "published head deduplication cell became inaccessible: "
    "published non-null head deduplication key contains NULL"
    "head deduplication BOOL cell is malformed" "head deduplication byte cell is malformed"
    view.type (view.cell row)

/-- The width and the masks of a floating type. -/
structure FloatFormat where
  width : ℕ
  exponentMask : ℕ
  fractionMask : ℕ
  magnitudeMask : ℕ

/-- The format of the floating kinds. -/
def floatFormat : LogicalTypeKind → Option FloatFormat
  | .float32 => some ⟨4, 0x7f800000, 0x007fffff, 0x7fffffff⟩
  | .float64 => some ⟨8, 0x7ff0000000000000, 0x000fffffffffffff, 0x7fffffffffffffff⟩
  | _ => none

/-- `load_little_endian`. -/
def loadLittleEndian (format : FloatFormat) (bytes : List UInt8) : Result ℕ :=
  if bytes.length ≠ format.width then internal "floating deduplication cell has the wrong width"
  else .ok (ofLe bytes)

/-- `floating_nan`. -/
def floatingNan (format : FloatFormat) (bits : ℕ) : Bool :=
  bits &&& format.exponentMask = format.exponentMask && bits &&& format.fractionMask ≠ 0

/-- `normalize_floating_zero`. -/
def normalizeFloatingZero (format : FloatFormat) (bits : ℕ) : ℕ :=
  if bits &&& format.magnitudeMask = 0 then 0 else bits

/-- `compare_bytes`. -/
def compareBytes : List UInt8 → List UInt8 → Ordering
  | [], [] => .eq
  | [], _ :: _ => .lt
  | _ :: _, [] => .gt
  | left :: lefts, right :: rights =>
    if left ≠ right then if left < right then .lt else .gt else compareBytes lefts rights

/-- `compare_floating_cells`; a NaN is ordered by its row. -/
def compareFloatingCells (format : FloatFormat) (left right : List UInt8) (leftRow rightRow : ℕ) :
    Result Ordering := do
  let leftBits ← loadLittleEndian format left
  let rightBits ← loadLittleEndian format right
  let normalizedLeft := normalizeFloatingZero format leftBits
  let normalizedRight := normalizeFloatingZero format rightBits
  if normalizedLeft ≠ normalizedRight then
    return if normalizedLeft < normalizedRight then .lt else .gt
  else if floatingNan format leftBits || floatingNan format rightBits then
    return if leftRow = rightRow then .eq else if leftRow < rightRow then .lt else .gt
  else return .eq

/-- One round of the loop of `compare_batch_rows`. -/
def compareCells (kind : LogicalTypeKind) (left right : KeyCell) (leftRow rightRow : ℕ) :
    Result Ordering :=
  if left.isBoolean then
    .ok (if left.boolean ≠ right.boolean then if left.boolean then .gt else .lt else .eq)
  else
    match floatFormat kind with
    | some format => compareFloatingCells format left.bytes right.bytes leftRow rightRow
    | none => .ok (compareBytes left.bytes right.bytes)

/-- `compare_batch_rows`. -/
def compareBatchRows : List ColumnVector → ℕ → ℕ → Result Ordering
  | [], _, _ => .ok .eq
  | column :: columns, leftRow, rightRow => do
    let left ← batchCell column leftRow
    let right ← batchCell column rightRow
    let compared ← compareCells column.metadata.type.kind left right leftRow rightRow
    if compared ≠ .eq then return compared else compareBatchRows columns leftRow rightRow

/-- `floating_cells_equal`. -/
def floatingCellsEqual (format : FloatFormat) (left right : List UInt8) : Result Bool := do
  let leftBits ← loadLittleEndian format left
  let rightBits ← loadLittleEndian format right
  if floatingNan format leftBits || floatingNan format rightBits then return false
  else return normalizeFloatingZero format leftBits = normalizeFloatingZero format rightBits

/-- One round of the loop of `batch_head_rows_equal`. -/
def cellsEqual (kind : LogicalTypeKind) (batchValue headValue : KeyCell) : Result Bool :=
  if batchValue.isBoolean then .ok (batchValue.boolean == headValue.boolean)
  else
    match floatFormat kind with
    | some format => floatingCellsEqual format batchValue.bytes headValue.bytes
    | none => .ok (compareBytes batchValue.bytes headValue.bytes == .eq)

/-- The loop of `batch_head_rows_equal` over the key columns. -/
def keyColumnsEqual (batchRow headRow : ℕ) :
    List ColumnVector → List HeadColumnView → Result Bool
  | column :: columns, view :: views => do
    let batchValue ← batchCell column batchRow
    let headValue ← headCell view headRow
    let equal ← cellsEqual column.metadata.type.kind batchValue headValue
    if equal then keyColumnsEqual batchRow headRow columns views else return false
  | _, _ => .ok true

/-- `batch_head_rows_equal`. -/
def batchHeadRowsEqual (columns : List ColumnVector) (views : List HeadColumnView)
    (batchRow headRow : ℕ) : Result Bool :=
  if columns.length ≠ views.length then internal "deduplication key column counts diverged"
  else keyColumnsEqual batchRow headRow columns views

/-! ### The checks -/

/-- The loop of `batch_key_columns`. -/
def batchKeyColumnsOf (batch : ColumnarBatch) : List ColumnId → Result (List ColumnVector)
  | [] => .ok []
  | id :: ids =>
    match batch.schema.columnOrdinal id with
    | none => internal "batch schema lost a deduplication key column"
    | some ordinal =>
      match batch.columns[ordinal]? with
      | none => internal "batch deduplication key column violates schema invariants"
      | some column =>
        if column.metadata.nullable then
          internal "batch deduplication key column violates schema invariants"
        else do return column :: (← batchKeyColumnsOf batch ids)

/-- `batch_key_columns`. -/
def batchKeyColumns (batch : ColumnarBatch) : Result (List ColumnVector) :=
  batchKeyColumnsOf batch batch.schema.roles.deduplicationKey

/-- `validate_unique_batch_keys`. -/
def validateUniqueBatchKeys (batch : ColumnarBatch) (columns : List ColumnVector) : Result Unit :=
  Sort.sort (compareBatchRows columns) (List.range batch.rowCount) >>=
    Sort.checkAdjacent (compareBatchRows columns)
      ⟨.invalidArgument, "APPEND_ROWS batch contains a duplicate logical deduplication key"⟩

/-- The first loop of `validate_generation_conflicts`: the key columns of a generation. -/
def headKeyColumns (batch : ColumnarBatch) (head : MutableHeadState)
    (publication : HeadPublication) : List ColumnId → Result (List HeadColumnView)
  | [] => .ok []
  | id :: ids =>
    match batch.schema.columnOrdinal id with
    | none => internal "batch schema lost a deduplication key column"
    | some ordinal =>
      match head.columnView publication ordinal with
      | .error _ => internal "published generation lost a deduplication key column"
      | .ok view =>
        if view.columnId ≠ id ∨ batch.columns[ordinal]?.map (·.metadata.type) ≠ some view.type
            ∨ view.nullable then
          internal "published generation deduplication key diverged from the schema lineage"
        else do return view :: (← headKeyColumns batch head publication ids)

/-- The second loop of `validate_generation_conflicts`, over pairs of a row of the batch and a row
of the generation. -/
def checkConflicts (columns : List ColumnVector) (views : List HeadColumnView) :
    List (ℕ × ℕ) → Result Unit
  | [] => .ok ()
  | (batchRow, headRow) :: rows => do
    if ← batchHeadRowsEqual columns views batchRow headRow then
      invalid "APPEND_ROWS logical deduplication key conflicts with a visible tablet row"
    else checkConflicts columns views rows

/-- `validate_generation_conflicts`. -/
def validateGenerationConflicts (batch : ColumnarBatch) (columns : List ColumnVector)
    (head : MutableHeadState) (publication : HeadPublication) : Result Unit :=
  if publication.rowCount = 0 then .ok ()
  else do
    let views ← headKeyColumns batch head publication batch.schema.roles.deduplicationKey
    checkConflicts columns views
      ((List.range batch.rowCount).flatMap fun batchRow =>
        (List.range publication.rowCount).map fun headRow => (batchRow, headRow))

/-- The loop of `validate_append_deduplication` over generations. -/
def validateConflicts (batch : ColumnarBatch) (columns : List ColumnVector) :
    List (MutableHeadState × HeadPublication) → Result Unit
  | [] => .ok ()
  | (head, publication) :: generations => do
    validateGenerationConflicts batch columns head publication
    validateConflicts batch columns generations

/-- `validate_append_deduplication`, over the sealed generations and then the active one. -/
def validateAppendDeduplication (batch : ColumnarBatch)
    (generations : List (MutableHeadState × HeadPublication)) : Result Unit :=
  if batch.schema.roles.deduplicationKey = [] then .ok ()
  else do
    let columns ← batchKeyColumns batch
    validateUniqueBatchKeys batch columns
    validateConflicts batch columns generations

/-! ### Logical equality -/

/-- Two cells of one kind are logically equal. -/
def logicallyEqual (kind : LogicalTypeKind) : Cell → Cell → Bool
  | .boolean left, .boolean right => left == right
  | .bytes left, .bytes right =>
    match floatFormat kind with
    | some format =>
      !floatingNan format (ofLe left) && !floatingNan format (ofLe right) &&
        normalizeFloatingZero format (ofLe left) == normalizeFloatingZero format (ofLe right)
    | none => left == right
  | _, _ => false

/-- The kind and the cell of a column of a row of a schema. -/
def keyValue (schema : TableSchema) (cells : List Cell) (id : ColumnId) :
    Option (LogicalTypeKind × Cell) := do
  let ordinal ← schema.columnOrdinal id
  let definition ← schema.columns[ordinal]?
  let cell ← cells[ordinal]?
  return (definition.type.kind, cell)

/-- Two key values of one column are logically equal. -/
def keyValuesEqual : Option (LogicalTypeKind × Cell) → Option (LogicalTypeKind × Cell) → Bool
  | some (kind, left), some (kind', right) => kind == kind' && logicallyEqual kind left right
  | _, _ => false

/-- Two rows, each of its own schema, have logically equal values in all columns of the
deduplication key. -/
def KeysEqual (schema schema' : TableSchema) (cells cells' : List Cell) : Prop :=
  ∀ id ∈ schema.roles.deduplicationKey,
    keyValuesEqual (keyValue schema cells id) (keyValue schema' cells' id) = true

instance (schema schema' : TableSchema) (cells cells' : List Cell) :
    Decidable (KeysEqual schema schema' cells cells') :=
  inferInstanceAs (Decidable (∀ id ∈ schema.roles.deduplicationKey, _))

/-! ### The comparison is that of a key -/

/-- A cell has the type of its column. -/
def CellTyped (type : LogicalType) (nullable : Bool) : Cell → Prop
  | .null => nullable = true
  | .boolean _ => type.kind = .bool
  | .bytes value =>
    type.kind ≠ .bool ∧ (type.isVariableWidth = false → value.length = fixedWidth type.kind)

variable {row : ℕ}

/-- The cells of a batch have the types of their columns. -/
lemma value_typed (column : ColumnVector) (hrow : row < column.metadata.rowCount) :
    CellTyped column.metadata.type column.metadata.nullable (column.value row) := by
  rw [ColumnVector.value]
  split
  · rename_i hnull
    simp only [rowNull, and_eq_true] at hnull
    exact hnull.1
  split
  · assumption
  rename_i hbool
  split
  · rename_i hvariable
    exact ⟨hbool, fun h => absurd hvariable (by rw [h]; decide)⟩
  · rename_i hfixed
    refine ⟨hbool, fun h => ?_⟩
    have hlength := column.fixed_length h hbool
    have hslot : (row + 1) * fixedWidth column.metadata.type.kind
        ≤ column.metadata.rowCount * fixedWidth column.metadata.type.kind :=
      Nat.mul_le_mul_right _ hrow
    rw [Nat.add_mul, Nat.one_mul] at hslot
    simp only [List.length_take, List.length_drop]
    omega

/-- What `batch_cell` and `head_cell` return for a typed cell that is not null. -/
def toKeyCell : Cell → KeyCell
  | .null => ⟨false, false, []⟩
  | .boolean value => ⟨true, value, []⟩
  | .bytes value => ⟨false, false, value⟩

variable {type : LogicalType}

lemma keyCell_ok {cell : Cell} (htyped : CellTyped type false cell) (e₁ e₂ e₃ e₄ : String) :
    keyCell e₁ e₂ e₃ e₄ type (.ok cell) = .ok (toKeyCell cell) := by
  cases cell with
  | null => cases htyped
  | boolean value => exact if_pos htyped
  | bytes value => exact if_neg htyped.1

lemma batchCell_ok {column : ColumnVector} (hnonnull : column.metadata.nullable = false)
    (hrow : row < column.metadata.rowCount) :
    batchCell column row = .ok (toKeyCell (column.value row)) := by
  rw [batchCell, ColumnVector.cell, if_neg (by omega)]
  exact keyCell_ok (hnonnull ▸ value_typed column hrow) _ _ _ _

/-- The key of a cell in a row: numbers whose lexicographic order is the order of the source. -/
def cellKey (kind : LogicalTypeKind) (cell : Cell) (row : ℕ) : List ℕ :=
  match cell with
  | .null => []
  | .boolean value => [if value then 1 else 0]
  | .bytes value =>
    match floatFormat kind with
    | some format =>
      [normalizeFloatingZero format (ofLe value),
        if floatingNan format (ofLe value) then row + 1 else 0]
    | none => value.map UInt8.toNat

/-- The key of a row of a batch. -/
def rowKey (columns : List ColumnVector) (row : ℕ) : List (List ℕ) :=
  columns.map fun column => cellKey column.metadata.type.kind (column.value row) row

lemma rowKey_cons (column : ColumnVector) (columns : List ColumnVector) (row : ℕ) :
    rowKey (column :: columns) row
      = cellKey column.metadata.type.kind (column.value row) row :: rowKey columns row := rfl

/-- The source's way to write a comparison. -/
lemma compare_eq_ite (a b : ℕ) :
    compare a b = if a ≠ b then if a < b then .lt else .gt else .eq := by
  rcases Nat.lt_trichotomy a b with h | rfl | h
  · rw [Nat.compare_eq_lt.2 h, if_pos h.ne, if_pos h]
  · simp
  · rw [Nat.compare_eq_gt.2 h, if_pos h.ne', if_neg (by omega)]

lemma then_eq_ite (first second : Ordering) :
    first.then second = if first ≠ .eq then first else second := by
  cases first <;> rfl

lemma compareBytes_eq : ∀ left right : List UInt8,
    compareBytes left right = compare (left.map UInt8.toNat) (right.map UInt8.toNat) := by
  intro left
  induction left with
  | nil =>
    intro right
    cases right with
    | nil => rfl
    | cons _ _ => exact (List.compare_nil_cons).symm
  | cons first left ih =>
    intro right
    cases right with
    | nil => exact (List.compare_cons_nil).symm
    | cons second right =>
      rw [compareBytes, List.map_cons, List.map_cons, List.compare_cons_cons, compare_eq_ite, ← ih]
      by_cases heq : first = second
      · subst heq
        simp
      · have hne : first.toNat ≠ second.toNat := fun h => heq (UInt8.toNat_inj.1 h)
        simp only [if_pos heq, if_pos hne, UInt8.lt_iff_toNat_lt]
        split <;> rfl

variable {left right : List UInt8}

lemma compareBytes_eq_eq : compareBytes left right = .eq ↔ left = right := by
  rw [compareBytes_eq, Std.compare_eq_iff_eq]
  exact (List.map_injective_iff.2 fun _ _ h => UInt8.toNat_inj.1 h).eq_iff

variable {kind : LogicalTypeKind} {format : FloatFormat}

/-- The masks of the formats: a NaN is not a zero. -/
lemma floatFormat_masks (h : floatFormat kind = some format) :
    format.magnitudeMask &&& format.exponentMask = format.exponentMask ∧
      format.exponentMask ≠ 0 ∧ format.width = fixedWidth kind := by
  cases kind <;> cases h <;> decide

lemma floatingNan_normalize (h : floatFormat kind = some format) (bits : ℕ) :
    floatingNan format (normalizeFloatingZero format bits) = floatingNan format bits := by
  obtain ⟨hmask, hne, -⟩ := floatFormat_masks h
  rw [normalizeFloatingZero]
  split
  · rename_i hzero
    have hexponent : bits &&& format.exponentMask = 0 := by
      rw [← hmask, ← Nat.land_assoc, hzero, Nat.zero_and]
    simp only [floatingNan, Nat.zero_and, hexponent, hne.symm, decide_false, Bool.false_and]
  · rfl

lemma loadLittleEndian_ok {bytes : List UInt8} (h : floatFormat type.kind = some format)
    (htyped : CellTyped type false (.bytes bytes)) :
    loadLittleEndian format bytes = .ok (ofLe bytes) := by
  have hfixed : type.isVariableWidth = false := by
    rw [LogicalType.isVariableWidth]
    revert h
    cases type.kind <;> intro h <;> first | rfl | cases h
  rw [loadLittleEndian, if_neg]
  rw [htyped.2 hfixed, (floatFormat_masks h).2.2]
  exact not_not.2 rfl

lemma compareFloatingCells_ok (h : floatFormat type.kind = some format)
    (hleft : CellTyped type false (.bytes left)) (hright : CellTyped type false (.bytes right))
    (leftRow rightRow : ℕ) : compareFloatingCells format left right leftRow rightRow
      = .ok (compare (cellKey type.kind (.bytes left) leftRow)
          (cellKey type.kind (.bytes right) rightRow)) := by
  rw [compareFloatingCells, loadLittleEndian_ok h hleft, loadLittleEndian_ok h hright]
  simp only [bind, Except.bind, pure, Except.pure, cellKey, h]
  rw [List.compare_cons_cons, List.compare_cons_cons, compare_eq_ite]
  by_cases hne : normalizeFloatingZero format (ofLe left)
      ≠ normalizeFloatingZero format (ofLe right)
  · rw [if_pos hne, if_pos hne]
    split <;> rfl
  · have hnan : floatingNan format (ofLe left) = floatingNan format (ofLe right) := by
      rw [← floatingNan_normalize h, not_not.1 hne, floatingNan_normalize h]
    rw [if_neg hne, if_neg hne, hnan]
    by_cases hright : floatingNan format (ofLe right) = true
    · rw [hright]
      simp only [Bool.or_self, if_true]
      rw [compare_eq_ite (leftRow + 1)]
      by_cases hrow : leftRow = rightRow
      · subst hrow
        simp
      · have hrow' : leftRow + 1 ≠ rightRow + 1 := by omega
        rw [if_neg hrow, if_pos hrow']
        by_cases hlt : leftRow < rightRow
        · simp [hlt]
        · simp [hlt]
    · simp only [not_eq_true] at hright
      rw [hright]
      simp

variable {left right : Cell}

section

variable (hleft : CellTyped type false left) (hright : CellTyped type false right)
include hleft hright

/-- Cells of one type that are not null are both flags or both bytes. -/
lemma CellTyped.shapes :
    (∃ l r, left = .boolean l ∧ right = .boolean r) ∨
      ∃ l r, left = .bytes l ∧ right = .bytes r := by
  match left, right with
  | .null, _ => cases hleft
  | _, .null => cases hright
  | .boolean _, .bytes _ => exact absurd hleft hright.1
  | .bytes _, .boolean _ => exact absurd hright hleft.1
  | .boolean l, .boolean r => exact .inl ⟨l, r, rfl, rfl⟩
  | .bytes l, .bytes r => exact .inr ⟨l, r, rfl, rfl⟩

/-- The comparison of two cells is that of their keys. -/
lemma compareCells_ok (leftRow rightRow : ℕ) :
    compareCells type.kind (toKeyCell left) (toKeyCell right) leftRow rightRow
      = .ok (compare (cellKey type.kind left leftRow) (cellKey type.kind right rightRow)) := by
  obtain ⟨l, r, rfl, rfl⟩ | ⟨l, r, rfl, rfl⟩ := hleft.shapes hright
  · cases l <;> cases r <;> simp [compareCells, toKeyCell, cellKey, compare_eq_ite]
  · simp only [compareCells, toKeyCell, false_eq_true, if_false]
    cases hformat : floatFormat type.kind with
    | none => simp only [cellKey, hformat, compareBytes_eq]
    | some format => exact compareFloatingCells_ok hformat hleft hright leftRow rightRow

/-- `logicallyEqual` is what `batch_head_rows_equal` tests. -/
lemma cellsEqual_ok :
    cellsEqual type.kind (toKeyCell left) (toKeyCell right)
      = .ok (logicallyEqual type.kind left right) := by
  obtain ⟨l, r, rfl, rfl⟩ | ⟨l, r, rfl, rfl⟩ := hleft.shapes hright
  · rfl
  · simp only [cellsEqual, toKeyCell, false_eq_true, if_false, logicallyEqual]
    cases hformat : floatFormat type.kind with
    | none =>
      by_cases heq : l = r
      · simp [heq, compareBytes_eq_eq.2 rfl]
      · simp [mt compareBytes_eq_eq.1 heq, heq]
    | some format =>
      simp only [floatingCellsEqual, loadLittleEndian_ok hformat hleft,
        loadLittleEndian_ok hformat hright, bind, Except.bind, pure, Except.pure]
      cases floatingNan format (ofLe l) <;> cases floatingNan format (ofLe r) <;> rfl

end

/-- The columns of a key: none is null and all have the rows of the batch. -/
def KeyColumns (rowCount : ℕ) (columns : List ColumnVector) : Prop :=
  ∀ column ∈ columns, column.metadata.nullable = false ∧ column.metadata.rowCount = rowCount

variable {rowCount : ℕ}

lemma KeyColumns.typed {columns : List ColumnVector} (hcolumns : KeyColumns rowCount columns)
    (column : ColumnVector) (hmem : column ∈ columns) (hrow : row < rowCount) :
    CellTyped column.metadata.type false (column.value row) := by
  obtain ⟨hnonnull, hcount⟩ := hcolumns column hmem
  rw [← hnonnull]
  exact value_typed column (by omega)

/-- `compare_batch_rows` is the lexicographic comparison of the keys of the rows. -/
lemma compareBatchRows_ok {leftRow rightRow : ℕ} (hleft : leftRow < rowCount)
    (hright : rightRow < rowCount) : ∀ {columns : List ColumnVector},
      KeyColumns rowCount columns →
      compareBatchRows columns leftRow rightRow
        = .ok (compare (rowKey columns leftRow) (rowKey columns rightRow)) := by
  intro columns
  induction columns with
  | nil => exact fun _ => congrArg Except.ok (Std.compare_eq_iff_eq.2 rfl).symm
  | cons column columns ih =>
    intro hcolumns
    obtain ⟨hnonnull, hcount⟩ := hcolumns column (by simp)
    have hrest := ih fun c hc => hcolumns c (by simp [hc])
    have hcells := compareCells_ok (hcolumns.typed column (by simp) hleft)
      (hcolumns.typed column (by simp) hright) leftRow rightRow
    rw [compareBatchRows, batchCell_ok hnonnull (by omega), batchCell_ok hnonnull (by omega)]
    simp only [bind, Except.bind, hcells, hrest, pure, Except.pure]
    rw [rowKey_cons, rowKey_cons, List.compare_cons_cons, then_eq_ite]
    split_ifs <;> rfl

/-- Logically equal cells have equal keys, whatever their rows. -/
lemma cellKey_of_logicallyEqual (h : logicallyEqual kind left right = true) (row row' : ℕ) :
    cellKey kind left row = cellKey kind right row' := by
  cases left <;> cases right <;> simp only [logicallyEqual, false_eq_true] at h
  · simp [cellKey, beq_iff_eq.1 h]
  · simp only [cellKey]
    cases hformat : floatFormat kind with
    | none =>
      rw [hformat] at h
      simp only [beq_iff_eq] at h
      rw [h]
    | some format =>
      rw [hformat] at h
      simp only [and_eq_true, not_eq_true', beq_iff_eq] at h
      simp [h]

end Chronos.Ingest
