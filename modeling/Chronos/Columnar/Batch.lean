import Chronos.Schema.Table

/-!
`src/columnar`: column vectors and the batches made of them.

* `ColumnVector`: one column of a batch in its three canonical buffers; the checks
  of `PhysicalColumnView::create` are a field.
* `ColumnVector.cell`: the value of one row.
* `ColumnarBatch`: the columns of one batch, in the order and of the types of its
  schema, all of the same number of rows.

The capacities of the vectors that hold the buffers are not modelled, so the two
checks on retained bytes are left out.
-/

namespace Chronos.Columnar

open Schema

/-- The maximal `uint32`. -/
def maximumU32 : ℕ := 2 ^ 32 - 1

/-- The error of an exceeded limit. -/
def exhausted {α : Type} (message : String) : Result α :=
  .error ⟨.resourceExhausted, message⟩

/-! ### Bits and text -/

/-- `bit_at`. -/
def bitAt (bytes : List UInt8) (row : ℕ) : Bool := (bytes.getD (row / 8) 0).toNat.testBit (row % 8)

/-- `bitmap_size`. -/
def bitmapSize (rowCount : ℕ) : ℕ := rowCount / 8 + if rowCount % 8 = 0 then 0 else 1

/-- `validate_unused_bits`. -/
def validateUnusedBits (bitmap : List UInt8) (rowCount : ℕ) (label : String) : Result Unit :=
  if rowCount % 8 = 0 then .ok ()
  else if (bitmap.getLastD 0).toNat >>> (rowCount % 8) ≠ 0 then
    invalid (label ++ " has nonzero unused high bits")
  else .ok ()

/-- `is_continuation`. -/
def isContinuation (value : UInt8) : Bool := 0x80 ≤ value && value ≤ 0xbf

/-- `is_valid_utf8`. -/
def isValidUtf8 : List UInt8 → Bool
  | [] => true
  | first :: rest =>
    if first ≤ 0x7f then isValidUtf8 rest
    else if 0xc2 ≤ first ∧ first ≤ 0xdf then
      match rest with
      | second :: rest => isContinuation second && isValidUtf8 rest
      | [] => false
    else if 0xe0 ≤ first ∧ first ≤ 0xef then
      match rest with
      | second :: third :: rest =>
        isContinuation second && (first ≠ 0xe0 || 0xa0 ≤ second) &&
          (first ≠ 0xed || second ≤ 0x9f) && isContinuation third && isValidUtf8 rest
      | _ => false
    else if 0xf0 ≤ first ∧ first ≤ 0xf4 then
      match rest with
      | second :: third :: fourth :: rest =>
        isContinuation second && (first ≠ 0xf0 || 0x90 ≤ second) &&
          (first ≠ 0xf4 || second ≤ 0x8f) && isContinuation third && isContinuation fourth &&
          isValidUtf8 rest
      | _ => false
    else false

/-- `decimal_in_domain`: the magnitude of the two's-complement value is below the power of ten. -/
def decimalInDomain (bytes : List UInt8) (precision : ℕ) : Bool :=
  let value := ofLe bytes
  let magnitude := if 2 ^ 127 ≤ value then 2 ^ 128 - value else value
  magnitude < 10 ^ precision % 2 ^ 128

/-! ### Column vectors -/

/-- `ColumnVectorMetadata`. -/
structure ColumnMetadata where
  columnId : ColumnId
  type : LogicalType
  nullable : Bool
  rowCount : ℕ
  nullCount : ℕ
  deriving DecidableEq

/-- `ColumnVectorBuffers`. -/
structure ColumnBuffers where
  validity : List UInt8
  offsets : List UInt8
  values : List UInt8
  deriving DecidableEq

/-- `ColumnCellView` and `HeadCellView`: the value of one row of one column. -/
inductive Cell where
  | null
  | boolean (value : Bool)
  | bytes (value : List UInt8)
  deriving DecidableEq, Repr

/-- `read_u32_le` at the entry of a row in the offsets buffer. -/
def ColumnBuffers.offset (buffers : ColumnBuffers) (row : ℕ) : ℕ :=
  loadLe buffers.offsets (row * 4) 4

/-- Whether a row is null. -/
def rowNull (metadata : ColumnMetadata) (buffers : ColumnBuffers) (row : ℕ) : Bool :=
  metadata.nullable && !bitAt buffers.validity row

/-- `validate_buffer_accounting`. -/
def validateBufferAccounting (buffers : ColumnBuffers) : Result Unit :=
  match checkedAdd buffers.validity.length buffers.offsets.length with
  | none => invalid "column vector buffer-byte accounting overflows this platform"
  | some sum =>
    match checkedAdd sum buffers.values.length with
    | none => invalid "column vector buffer-byte accounting overflows this platform"
    | some _ => .ok ()

/-- `validate_validity`. -/
def validateValidity (metadata : ColumnMetadata) (buffers : ColumnBuffers) : Result Unit :=
  if !metadata.nullable then
    if buffers.validity ≠ [] ∨ metadata.nullCount ≠ 0 then
      invalid "non-nullable column must have no validity bytes and zero null count"
    else .ok ()
  else if buffers.validity.length ≠ bitmapSize metadata.rowCount then
    invalid "nullable column validity length is not ceil(row_count / 8)"
  else do
    validateUnusedBits buffers.validity metadata.rowCount "validity bitmap"
    if ((List.range metadata.rowCount).filter fun row => !bitAt buffers.validity row).length
        ≠ metadata.nullCount then
      invalid "validity bitmap does not match the declared null count"
    else .ok ()

/-- The loop of `validate_variable` from a row on, with the offset where that row begins; the
value is the last offset. -/
def validateOffsets (metadata : ColumnMetadata) (buffers : ColumnBuffers) :
    (remaining row previous : ℕ) → Result ℕ
  | 0, _, previous => .ok previous
  | remaining + 1, row, previous =>
    let next := buffers.offset (row + 1)
    if next < previous ∨ next > buffers.values.length then
      invalid "variable offsets must be nondecreasing and within the values buffer"
    else if rowNull metadata buffers row ∧ next ≠ previous then
      invalid "null variable-width row must have equal adjacent offsets"
    else if rowNull metadata buffers row = false ∧
        (metadata.type.kind = .string ∨ metadata.type.kind = .symbol) ∧
        isValidUtf8 ((buffers.values.drop previous).take (next - previous)) = false then
      invalid "STRING and SYMBOL rows must contain valid UTF-8"
    else validateOffsets metadata buffers remaining (row + 1) next

/-- `validate_variable`. -/
def validateVariable (metadata : ColumnMetadata) (buffers : ColumnBuffers) : Result Unit :=
  if buffers.offsets.length ≠ (metadata.rowCount + 1) * 4 then
    invalid "variable offsets length is not (row_count + 1) * 4"
  else if buffers.values.length > maximumU32 then
    invalid "variable values exceed the UINT32 offset domain"
  else if buffers.offset 0 ≠ 0 then invalid "first variable offset must be zero"
  else do
    let last ← validateOffsets metadata buffers metadata.rowCount 0 0
    if last ≠ buffers.values.length then invalid "last variable offset must equal values length"
    else .ok ()

/-- The loop of `validate_fixed` over the value slots. -/
def validateSlots (metadata : ColumnMetadata) (buffers : ColumnBuffers) (width : ℕ) :
    (remaining row : ℕ) → Result Unit
  | 0, _ => .ok ()
  | remaining + 1, row =>
    let slot := (buffers.values.drop (row * width)).take width
    if rowNull metadata buffers row ∧ ¬ ∀ byte ∈ slot, byte = 0 then
      invalid "null fixed-width value slot must be all zero"
    else if rowNull metadata buffers row = false ∧ metadata.type.kind = .decimal ∧
        decimalInDomain slot metadata.type.parameter0 = false then
      invalid "DECIMAL value exceeds its declared precision"
    else validateSlots metadata buffers width remaining (row + 1)

/-- `validate_fixed`. -/
def validateFixed (metadata : ColumnMetadata) (buffers : ColumnBuffers) : Result Unit :=
  if buffers.offsets ≠ [] then invalid "fixed-width column must not have offsets"
  else if metadata.type.kind = .bool then
    if buffers.values.length ≠ bitmapSize metadata.rowCount then
      invalid "BOOL values length is not ceil(row_count / 8)"
    else do
      validateUnusedBits buffers.values metadata.rowCount "BOOL bitmap"
      if ∃ row ∈ List.range metadata.rowCount,
          rowNull metadata buffers row ∧ bitAt buffers.values row then
        invalid "null BOOL value bit must be zero"
      else .ok ()
  else if buffers.values.length ≠ metadata.rowCount * fixedWidth metadata.type.kind then
    invalid "fixed-width values length does not match row_count and logical type"
  else validateSlots metadata buffers (fixedWidth metadata.type.kind) metadata.rowCount 0

/-- `PhysicalColumnView::create`, its checks. -/
def validateColumn (metadata : ColumnMetadata) (buffers : ColumnBuffers) : Result Unit :=
  if metadata.rowCount = 0 then invalid "physical column row count must be nonzero"
  else do
    validateBufferAccounting buffers
    validateValidity metadata buffers
    if metadata.type.isVariableWidth then validateVariable metadata buffers
    else validateFixed metadata buffers

/-- `OwnedColumnVector`. -/
structure ColumnVector where
  metadata : ColumnMetadata
  buffers : ColumnBuffers
  valid : validateColumn metadata buffers = .ok ()
  deriving DecidableEq

/-- `PhysicalColumnView::cell`, for a row that is in range. -/
def ColumnVector.value (column : ColumnVector) (row : ℕ) : Cell :=
  if rowNull column.metadata column.buffers row then .null
  else if column.metadata.type.kind = .bool then .boolean (bitAt column.buffers.values row)
  else if column.metadata.type.isVariableWidth then
    let first := column.buffers.offset row
    let last := column.buffers.offset (row + 1)
    .bytes ((column.buffers.values.drop first).take (last - first))
  else
    let width := fixedWidth column.metadata.type.kind
    .bytes ((column.buffers.values.drop (row * width)).take width)

/-- `PhysicalColumnView::cell`. -/
def ColumnVector.cell (column : ColumnVector) (row : ℕ) : Result Cell :=
  if row ≥ column.metadata.rowCount then .error ⟨.outOfRange, "column row is out of range"⟩
  else .ok (column.value row)

/-! ### What the checks ensure -/

variable {buffers : ColumnBuffers}

/-- Every offset of a checked variable column is at most the next one, and the last one is what
the loop returns. -/
lemma validateOffsets_spec {metadata : ColumnMetadata} :
    ∀ {remaining row previous last : ℕ}, previous = buffers.offset row →
      validateOffsets metadata buffers remaining row previous = .ok last →
      last = buffers.offset (row + remaining) ∧
        ∀ i, row ≤ i → i < row + remaining →
          buffers.offset i ≤ buffers.offset (i + 1) ∧
            buffers.offset (i + 1) ≤ buffers.values.length := by
  intro remaining
  induction remaining with
  | zero =>
    intro row previous last hprevious hok
    cases hok
    exact ⟨hprevious, fun i hi hlt => absurd hlt (by omega)⟩
  | succ remaining ih =>
    intro row previous last hprevious hok
    rw [validateOffsets] at hok
    iterate 3
      split at hok
      · cases hok
    rename_i hrange _ _
    obtain ⟨hlast, hbetween⟩ := ih rfl hok
    refine ⟨by rw [hlast]; congr 1; omega, fun i hi hlt => ?_⟩
    rcases Nat.eq_or_lt_of_le hi with rfl | hi
    · rw [← hprevious]
      omega
    · exact hbetween i hi (by omega)

/-- What the checks of a column say of its rows and of its values. -/
lemma ColumnVector.checks (column : ColumnVector) :
    0 < column.metadata.rowCount ∧
      (if column.metadata.type.isVariableWidth then
        validateVariable column.metadata column.buffers
      else validateFixed column.metadata column.buffers) = .ok () := by
  have hvalid := column.valid
  rw [validateColumn] at hvalid
  split at hvalid
  · cases hvalid
  · obtain ⟨_, _, hvalid⟩ := Result.bind_eq_ok.1 hvalid
    obtain ⟨_, _, hvalid⟩ := Result.bind_eq_ok.1 hvalid
    exact ⟨by omega, hvalid⟩

/-- The checks of a variable column. -/
lemma ColumnVector.variable_valid (column : ColumnVector)
    (hvariable : column.metadata.type.isVariableWidth = true) :
    validateVariable column.metadata column.buffers = .ok () := by
  have hvalid := column.checks.2
  rwa [if_pos hvariable] at hvalid

/-- The checks of a column of fixed slots or of bits. -/
lemma ColumnVector.fixed_valid (column : ColumnVector)
    (hfixed : column.metadata.type.isVariableWidth = false) :
    validateFixed column.metadata column.buffers = .ok () := by
  have hvalid := column.checks.2
  rwa [if_neg (by simp [hfixed])] at hvalid

/-- What the offsets of a variable column satisfy. -/
structure OffsetsSound (buffers : ColumnBuffers) (rowCount : ℕ) : Prop where
  first : buffers.offset 0 = 0
  last : buffers.offset rowCount = buffers.values.length
  step : ∀ i < rowCount, buffers.offset i ≤ buffers.offset (i + 1)
  bound : buffers.values.length ≤ maximumU32

lemma ColumnVector.offsets_sound (column : ColumnVector)
    (hvariable : column.metadata.type.isVariableWidth = true) :
    OffsetsSound column.buffers column.metadata.rowCount := by
  have hvalid := column.variable_valid hvariable
  rw [validateVariable] at hvalid
  iterate 3
    split at hvalid
    · cases hvalid
  rename_i _ hbound hfirst
  obtain ⟨last, hlast, hvalid⟩ := Result.bind_eq_ok.1 hvalid
  split at hvalid
  · cases hvalid
  rename_i hend
  obtain ⟨heq, hstep⟩ := validateOffsets_spec (not_not.1 hfirst).symm hlast
  rw [Nat.zero_add] at heq hstep
  exact ⟨not_not.1 hfirst, heq ▸ not_not.1 hend, fun i hi => (hstep i (Nat.zero_le i) hi).1,
    by omega⟩

/-- The offsets of a sound column grow with the row. -/
lemma OffsetsSound.mono {rowCount : ℕ} (hsound : OffsetsSound buffers rowCount) {i j : ℕ}
    (hij : i ≤ j) (hj : j ≤ rowCount) : buffers.offset i ≤ buffers.offset j := by
  induction j, hij using Nat.le_induction with
  | base => exact le_rfl
  | succ j _ ih => exact (ih (by omega)).trans (hsound.step j (by omega))

lemma ColumnVector.fixed_length (column : ColumnVector)
    (hfixed : column.metadata.type.isVariableWidth = false)
    (hbool : column.metadata.type.kind ≠ .bool) :
    column.buffers.values.length
      = column.metadata.rowCount * fixedWidth column.metadata.type.kind := by
  have hvalid := column.fixed_valid hfixed
  rw [validateFixed] at hvalid
  split at hvalid
  · cases hvalid
  split at hvalid
  · cases hvalid
  · rename_i hlength
    exact not_not.1 hlength

/-! ### Batches -/

/-- A column has the identity, the type and the nullability of its definition. -/
def ColumnVector.Fits (column : ColumnVector) (definition : ColumnDefinition) : Prop :=
  column.metadata.columnId = definition.id ∧ column.metadata.type = definition.type ∧
    column.metadata.nullable = definition.nullable

instance (column : ColumnVector) (definition : ColumnDefinition) :
    Decidable (column.Fits definition) :=
  inferInstanceAs (Decidable (_ ∧ _ ∧ _))

/-- `OwnedColumnarBatch`: columns in the shape of a schema. -/
structure ColumnarBatch where
  schema : TableSchema
  columns : List ColumnVector
  rowCount : ℕ
  shape : List.Forall₂ (fun column definition =>
    column.Fits definition ∧ column.metadata.rowCount = rowCount) columns schema.columns
  deriving DecidableEq

/-- The row of a batch, one cell a column. -/
def ColumnarBatch.row (batch : ColumnarBatch) (row : ℕ) : List Cell :=
  batch.columns.map (·.value row)

lemma ColumnarBatch.columns_length (batch : ColumnarBatch) :
    batch.columns.length = batch.schema.columns.length :=
  batch.shape.length_eq

/-- The column of a batch at an ordinal fits the definition at that ordinal. -/
lemma ColumnarBatch.fits (batch : ColumnarBatch) (ordinal : ℕ)
    (hc : ordinal < batch.columns.length) (hd : ordinal < batch.schema.columns.length) :
    batch.columns[ordinal].Fits batch.schema.columns[ordinal] ∧
      batch.columns[ordinal].metadata.rowCount = batch.rowCount :=
  batch.shape.get hc hd

lemma ColumnarBatch.rowCount_pos (batch : ColumnarBatch) : 0 < batch.rowCount := by
  have hpos := batch.schema.columns_length_pos
  have hlength := batch.columns_length
  have hfits := batch.fits 0 (by omega) hpos
  exact hfits.2 ▸ (ColumnVector.checks _).1

end Chronos.Columnar
