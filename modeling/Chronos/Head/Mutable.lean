import Chronos.Columnar.Batch
import Chronos.Wal.Types

/-!
`src/head/mutable_head.cpp`: one generation of a tablet's mutable rows.

* `MutableHeadState`: fixed buffers for every column, the row metadata and the
  published boundary.  A prepared append reserves the rows behind the boundary;
  publishing it writes them and moves the boundary.
* `HeadColumnView`, `MutableHeadState.rows`: what a reader sees at a boundary.

A function of the source that changes the state returns the new state beside its
result.  Storage accounting is left out: with at most 4096 columns, `uint32` rows
and `uint32` variable bytes it cannot overflow.  Allocation failures are left out
too.
-/

namespace Chronos.Head

open Schema Columnar

/-- `CommitSource`. -/
inductive CommitSource where
  | wal | raft
  deriving DecidableEq, Repr

/-- `HeadCommitPosition`. -/
structure HeadCommitPosition where
  source : CommitSource
  walId : Wal.WalId
  raftGroupId : Uuid
  recordSequence : ℕ
  deriving DecidableEq

/-- The `WalId` of sixteen zero bytes. -/
def nilWalId : Wal.WalId := ⟨Vector.replicate 16 0⟩

/-- `HeadCommitPosition::wal`. -/
def HeadCommitPosition.wal (id : Wal.WalId) (sequence : ℕ) : HeadCommitPosition :=
  ⟨.wal, id, 0, sequence⟩

/-- `HeadCommitPosition::is_valid`. -/
def HeadCommitPosition.isValid (position : HeadCommitPosition) : Bool :=
  position.recordSequence ≠ 0 &&
    match position.source with
    | .wal => position.walId.isValid && position.raftGroupId = 0
    | .raft => position.raftGroupId ≠ 0 && !position.walId.isValid

/-- `HeadCommitPosition::same_log`. -/
def HeadCommitPosition.sameLog (position other : HeadCommitPosition) : Bool :=
  position.source = other.source &&
    match position.source with
    | .wal => position.walId = other.walId
    | .raft => position.raftGroupId = other.raftGroupId

/-- `HeadOperationKind`. -/
inductive HeadOperationKind where
  | appendRows
  deriving DecidableEq, Repr

/-- `HeadRowMetadata`. -/
structure HeadRowMetadata where
  commitPosition : HeadCommitPosition
  rowOrdinal : ℕ
  operation : HeadOperationKind
  deriving DecidableEq

/-- `MutableHeadCapacity`. -/
structure MutableHeadCapacity where
  rowCapacity : ℕ
  variableValueBytes : List ℕ
  deriving DecidableEq

/-- An error of this module. -/
def unavailable {α : Type} (message : String) : Result α := .error ⟨.unavailable, message⟩

/-- An error of this module. -/
def internal {α : Type} (message : String) : Result α := .error ⟨.internal, message⟩

/-! ### State -/

/-- `ColumnStorage`, with the definition of its column beside it. -/
structure ColumnStorage where
  definition : ColumnDefinition
  validity : List UInt8
  booleanValues : List UInt8
  fixedValues : List UInt8
  variableOffsets : List ℕ
  variableValues : List UInt8
  fixedWidth : ℕ
  deriving DecidableEq

/-- `HeadPublication`: one published boundary. -/
structure HeadPublication where
  rowCount : ℕ
  appliedPosition : Option HeadCommitPosition
  variableFrontiers : List ℕ
  deriving DecidableEq

/-- `PreparedPhase`. -/
inductive PreparedPhase where
  | preWal | walStarted
  deriving DecidableEq, Repr

/-- `MutableHeadState`. -/
structure MutableHeadState where
  schema : TableSchema
  tabletId : TabletId
  generation : ℕ
  rowCapacity : ℕ
  columns : List ColumnStorage
  rowMetadata : List HeadRowMetadata
  publication : HeadPublication
  appendActive : Bool
  activeToken : ℕ
  activePhase : PreparedPhase
  nextToken : ℕ
  isSealed : Bool
  failed : Bool

/-- `PreparedHeadAppend::Impl`: the owner of a reserved range of rows. -/
structure PreparedHeadAppend where
  batch : ColumnarBatch
  token : ℕ
  base : HeadPublication
  nextRowCount : ℕ
  nextFrontiers : List ℕ

/-- The metadata that `std::vector<HeadRowMetadata>(rows)` holds before any append. -/
def blankMetadata : HeadRowMetadata := ⟨⟨.wal, nilWalId, 0, 0⟩, 0, .appendRows⟩

/-- The buffers of one column of an empty head. -/
def ColumnStorage.empty (definition : ColumnDefinition) (rows variableCapacity : ℕ) :
    ColumnStorage where
  definition := definition
  validity := if definition.nullable then List.replicate rows 0 else []
  booleanValues := if definition.type.kind = .bool then List.replicate rows 0 else []
  fixedValues :=
    if definition.type.kind = .bool || definition.type.isVariableWidth then []
    else List.replicate (rows * Schema.fixedWidth definition.type.kind) 0
  variableOffsets :=
    if definition.type.isVariableWidth then List.replicate (rows + 1) 0 else []
  variableValues :=
    if definition.type.isVariableWidth then List.replicate variableCapacity 0 else []
  fixedWidth :=
    if definition.type.kind = .bool || definition.type.isVariableWidth then 0
    else Schema.fixedWidth definition.type.kind

/-- The loop of `MutableHead::create` over the variable capacities. -/
def validateCapacities : List ColumnDefinition → List ℕ → Result Unit
  | definition :: definitions, capacity :: capacities =>
    if !definition.type.isVariableWidth ∧ capacity ≠ 0 then
      invalid "fixed-width mutable-head columns must have zero variable-byte capacity"
    else if definition.type.isVariableWidth ∧ capacity > maximumU32 then
      invalid "mutable-head variable capacity exceeds the uint32 offset domain"
    else validateCapacities definitions capacities
  | _, _ => .ok ()

/-- The checks of `MutableHead::create`. -/
def validateHead (schema : TableSchema) (generation : ℕ) (capacity : MutableHeadCapacity) :
    Result Unit :=
  if generation = 0 ∨ capacity.rowCapacity = 0 then
    invalid "mutable-head generation and row capacity must be nonzero"
  else if capacity.variableValueBytes.length ≠ schema.columns.length then
    invalid "mutable-head variable capacities must match schema ordinal count"
  else validateCapacities schema.columns capacity.variableValueBytes

/-- The head that `MutableHead::create` builds. -/
def MutableHeadState.empty (schema : TableSchema) (tabletId : TabletId) (generation : ℕ)
    (capacity : MutableHeadCapacity) : MutableHeadState where
  schema := schema
  tabletId := tabletId
  generation := generation
  rowCapacity := capacity.rowCapacity
  columns := List.zipWith (fun definition bytes =>
    ColumnStorage.empty definition capacity.rowCapacity bytes)
    schema.columns capacity.variableValueBytes
  rowMetadata := List.replicate capacity.rowCapacity blankMetadata
  publication := ⟨0, none, List.replicate schema.columns.length 0⟩
  appendActive := false
  activeToken := 0
  activePhase := .preWal
  nextToken := 1
  isSealed := false
  failed := false

/-- `MutableHead::create`. -/
def MutableHeadState.create (schema : TableSchema) (tabletId : TabletId) (generation : ℕ)
    (capacity : MutableHeadCapacity) : Result MutableHeadState := do
  validateHead schema generation capacity
  return MutableHeadState.empty schema tabletId generation capacity

/-! ### Appending -/

/-- `common::checked_add<std::uint32_t>`. -/
def checkedAddU32 (left right : ℕ) : Option ℕ :=
  if right > maximumU32 - left then none else some (left + right)

/-- The loop of `validate_append` over the columns, the published frontiers and the batch. -/
def validateFrontiers : List ColumnStorage → List ℕ → List ColumnVector → Result Unit
  | [], _, _ => .ok ()
  | _ :: _, _, [] => internal "validated batch lost a schema column"
  | storage :: columns, frontiers, source :: sources =>
    if !source.metadata.type.isVariableWidth then
      validateFrontiers columns frontiers.tail sources
    else
      match checkedAdd (frontiers.headD 0) source.buffers.values.length with
      | none => exhausted "mutable-head append exceeds a variable-column byte capacity"
      | some next =>
        if next > storage.variableValues.length then
          exhausted "mutable-head append exceeds a variable-column byte capacity"
        else validateFrontiers columns frontiers.tail sources

/-- `MutableHeadState::validate_append`. -/
def MutableHeadState.validateAppend (head : MutableHeadState) (batch : ColumnarBatch)
    (current : HeadPublication) : Result Unit :=
  if head.failed then unavailable "mutable head is failed and requires fresh recovery"
  else if head.isSealed then unavailable "mutable head is sealed"
  else if head.appendActive then unavailable "mutable head already has a prepared append"
  else if batch.schema ≠ head.schema then
    invalid "mutable-head append batch does not match the bound schema"
  else
    match checkedAddU32 current.rowCount batch.rowCount with
    | none => exhausted "mutable-head append does not fit the remaining row capacity"
    | some endRow =>
      if endRow > head.rowCapacity then
        exhausted "mutable-head append does not fit the remaining row capacity"
      else validateFrontiers head.columns current.variableFrontiers batch.columns

/-- `MutableHeadState::check_append`. -/
def MutableHeadState.checkAppend (head : MutableHeadState) (batch : ColumnarBatch) :
    Result Unit :=
  head.validateAppend batch head.publication

/-- `MutableHeadState::validate_position`. -/
def validatePosition (position : HeadCommitPosition) (base : HeadPublication) : Result Unit :=
  if !position.isValid then
    invalid "mutable-head append requires a valid commit-log identity and position"
  else
    match base.appliedPosition with
    | none => .ok ()
    | some applied =>
      if !position.sameLog applied ∨ position.recordSequence ≤ applied.recordSequence then
        invalid "mutable-head append position must advance within one commit-log history"
      else .ok ()

/-- The frontier of a column after the values of a batch. -/
def nextFrontier (frontier : ℕ) (source : ColumnVector) : ℕ :=
  if source.metadata.type.isVariableWidth then frontier + source.buffers.values.length
  else frontier

/-- `MutableHeadState::prepare`. -/
def MutableHeadState.prepare (head : MutableHeadState) (batch : ColumnarBatch) :
    Result PreparedHeadAppend × MutableHeadState :=
  match head.validateAppend batch head.publication with
  | .error status => (.error status, head)
  | .ok () =>
    if head.nextToken = u64Max then
      (exhausted "mutable head exhausted its append token space", head)
    else
      (.ok ⟨batch, head.nextToken, head.publication,
          head.publication.rowCount + batch.rowCount,
          List.zipWith nextFrontier head.publication.variableFrontiers batch.columns⟩,
        { head with
          nextToken := head.nextToken + 1
          appendActive := true
          activeToken := head.nextToken
          activePhase := .preWal })

/-- `MutableHeadState::mark_wal_started`. -/
def MutableHeadState.markWalStarted (head : MutableHeadState) (token : ℕ) :
    Result Unit × MutableHeadState :=
  if !head.appendActive ∨ head.activeToken ≠ token then
    (internal "prepared mutable-head append ownership was lost", head)
  else if head.activePhase ≠ .preWal then
    (invalid "prepared mutable-head append has already crossed its pre-WAL boundary", head)
  else if head.failed ∨ head.isSealed then
    (unavailable "mutable head cannot start WAL work in its current state", head)
  else (.ok (), { head with activePhase := .walStarted })

/-- `MutableHeadState::validate_unpublished_boundaries`. -/
def validateBoundaries (rowCount : ℕ) : List ColumnStorage → List ℕ → Result Unit
  | [], _ => .ok ()
  | storage :: columns, frontiers =>
    if storage.definition.type.isVariableWidth ∧
        storage.variableOffsets.getD rowCount 0 ≠ frontiers.headD 0 then
      internal "mutable-head variable offset boundary is inconsistent"
    else validateBoundaries rowCount columns frontiers.tail

/-- The buffer with the values written from an offset on. -/
def writeAt {α : Type} (buffer : List α) (offset : ℕ) (values : List α) : List α :=
  buffer.take offset ++ values ++ buffer.drop (offset + values.length)

/-- One column of `materialize`. -/
def ColumnStorage.materialize (storage : ColumnStorage) (startRow frontier : ℕ)
    (source : ColumnVector) : ColumnStorage :=
  let rows := source.metadata.rowCount
  let storage :=
    if source.metadata.nullable then
      { storage with
        validity := writeAt storage.validity startRow
          ((List.range rows).map fun row => if bitAt source.buffers.validity row then 1 else 0) }
    else storage
  if source.metadata.type.kind = .bool then
    { storage with
      booleanValues := writeAt storage.booleanValues startRow
        ((List.range rows).map fun row => if bitAt source.buffers.values row then 1 else 0) }
  else if source.metadata.type.isVariableWidth then
    { storage with
      variableValues := writeAt storage.variableValues frontier source.buffers.values
      variableOffsets := writeAt storage.variableOffsets (startRow + 1)
        ((List.range rows).map fun row => (frontier + source.buffers.offset (row + 1)) % 2 ^ 32) }
  else
    { storage with
      fixedValues := writeAt storage.fixedValues (startRow * storage.fixedWidth)
        source.buffers.values }

/-- The metadata of the rows of a batch at a position. -/
def batchMetadata (batch : ColumnarBatch) (position : HeadCommitPosition) :
    List HeadRowMetadata :=
  (List.range batch.rowCount).map fun row => ⟨position, row, .appendRows⟩

/-- `MutableHeadState::materialize`. -/
def MutableHeadState.materialize (head : MutableHeadState) (batch : ColumnarBatch)
    (base : HeadPublication) (position : HeadCommitPosition) : MutableHeadState :=
  { head with
    columns := List.zipWith (fun (storage, frontier) source =>
      ColumnStorage.materialize storage base.rowCount frontier source)
      (head.columns.zip base.variableFrontiers) batch.columns
    rowMetadata := writeAt head.rowMetadata base.rowCount (batchMetadata batch position) }

/-- The state after a failed publication: no append is active and the head is failed. -/
def MutableHeadState.fail (head : MutableHeadState) : MutableHeadState :=
  { head with failed := true, appendActive := false }

/-- `MutableHeadState::publish`.  The source compares publications by address; a head never
publishes two equal ones. -/
def MutableHeadState.publish (head : MutableHeadState) (prepared : PreparedHeadAppend)
    (position : HeadCommitPosition) : Result HeadPublication × MutableHeadState :=
  if !head.appendActive ∨ head.activeToken ≠ prepared.token then
    (internal "prepared mutable-head append ownership was lost", head)
  else if head.activePhase ≠ .walStarted then
    (invalid "mutable-head append cannot publish before WAL submission begins", head)
  else if head.failed ∨ head.isSealed then
    (unavailable "mutable head cannot publish in its current state", head)
  else if head.publication ≠ prepared.base then
    (internal "mutable-head publication base changed unexpectedly", head.fail)
  else
    match validatePosition position prepared.base with
    | .error status => (.error status, head.fail)
    | .ok () =>
      match validateBoundaries prepared.base.rowCount head.columns
          prepared.base.variableFrontiers with
      | .error status => (.error status, head.fail)
      | .ok () =>
        let next : HeadPublication :=
          ⟨prepared.nextRowCount, some position, prepared.nextFrontiers⟩
        (.ok next,
          { head.materialize prepared.batch prepared.base position with
            publication := next, appendActive := false })

/-- `MutableHeadState::cancel_before_wal`. -/
def MutableHeadState.cancelBeforeWal (head : MutableHeadState) (token : ℕ) :
    Result Unit × MutableHeadState :=
  if !head.appendActive ∨ head.activeToken ≠ token then
    (internal "prepared mutable-head append ownership was lost", head)
  else if head.activePhase ≠ .preWal then
    (invalid "prepared mutable-head append cannot cancel after WAL submission begins", head)
  else (.ok (), { head with appendActive := false })

/-- `MutableHeadState::abandon`. -/
def MutableHeadState.abandon (head : MutableHeadState) (token : ℕ) : MutableHeadState :=
  if !head.appendActive ∨ head.activeToken ≠ token then head
  else if head.activePhase = .walStarted then head.fail
  else { head with appendActive := false }

/-- `MutableHeadState::seal`; the snapshot of the source is the state's own publication. -/
def MutableHeadState.seal (head : MutableHeadState) :
    Result HeadPublication × MutableHeadState :=
  if head.failed then (unavailable "failed mutable head cannot be sealed for handoff", head)
  else if head.appendActive then
    (unavailable "mutable head cannot seal while an append is prepared", head)
  else (.ok head.publication, { head with isSealed := true })

/-! ### Reading -/

/-- `HeadColumnView`: the buffers of one column up to a boundary. -/
structure HeadColumnView where
  columnId : ColumnId
  type : LogicalType
  nullable : Bool
  rowCount : ℕ
  validity : List UInt8
  booleanValues : List UInt8
  fixedValues : List UInt8
  variableOffsets : List ℕ
  variableValues : List UInt8
  fixedWidth : ℕ
  deriving DecidableEq

/-- `MutableHeadState::column_view`, for a column at a boundary. -/
def ColumnStorage.view (storage : ColumnStorage) (rows frontier : ℕ) : HeadColumnView where
  columnId := storage.definition.id
  type := storage.definition.type
  nullable := storage.definition.nullable
  rowCount := rows
  validity := if storage.definition.nullable then storage.validity.take rows else []
  booleanValues :=
    if storage.definition.type.kind = .bool then storage.booleanValues.take rows else []
  fixedValues :=
    if storage.fixedWidth = 0 then [] else storage.fixedValues.take (rows * storage.fixedWidth)
  variableOffsets :=
    if storage.definition.type.isVariableWidth then storage.variableOffsets.take (rows + 1)
    else []
  variableValues :=
    if storage.definition.type.isVariableWidth then storage.variableValues.take frontier else []
  fixedWidth := storage.fixedWidth

/-- `HeadColumnView::cell`, for a row that is in range. -/
def HeadColumnView.value (view : HeadColumnView) (row : ℕ) : Cell :=
  if view.nullable && view.validity.getD row 0 = 0 then .null
  else if view.type.kind = .bool then .boolean (view.booleanValues.getD row 0 ≠ 0)
  else if view.type.isVariableWidth then
    let first := view.variableOffsets.getD row 0
    let last := view.variableOffsets.getD (row + 1) 0
    .bytes ((view.variableValues.drop first).take (last - first))
  else .bytes ((view.fixedValues.drop (row * view.fixedWidth)).take view.fixedWidth)

/-- `HeadColumnView::cell`. -/
def HeadColumnView.cell (view : HeadColumnView) (row : ℕ) : Result Cell :=
  if row ≥ view.rowCount then .error ⟨.outOfRange, "mutable-head column row is out of range"⟩
  else .ok (view.value row)

/-- The views of all columns at a boundary, in schema order. -/
def MutableHeadState.views (head : MutableHeadState) (publication : HeadPublication) :
    List HeadColumnView :=
  List.zipWith (fun storage frontier => ColumnStorage.view storage publication.rowCount frontier)
    head.columns publication.variableFrontiers

/-- `MutableHeadState::column_view`. -/
def MutableHeadState.columnView (head : MutableHeadState) (publication : HeadPublication)
    (ordinal : ℕ) : Result HeadColumnView :=
  match (head.views publication)[ordinal]? with
  | none => .error ⟨.outOfRange, "mutable-head snapshot column ordinal is out of range"⟩
  | some view => .ok view

/-- `MutableHeadState::row_metadata`. -/
def MutableHeadState.metadataOf (head : MutableHeadState) (publication : HeadPublication)
    (row : ℕ) : Result HeadRowMetadata :=
  if row ≥ publication.rowCount then
    .error ⟨.outOfRange, "mutable-head snapshot row is out of range"⟩
  else .ok (head.rowMetadata.getD row blankMetadata)

/-- One visible row: its hidden metadata and its cells in schema order. -/
structure HeadRow where
  metadata : HeadRowMetadata
  cells : List Cell
  deriving DecidableEq

/-- The rows that a reader sees at a boundary. -/
def MutableHeadState.rows (head : MutableHeadState) (publication : HeadPublication) :
    List HeadRow :=
  (List.range publication.rowCount).map fun row =>
    ⟨head.rowMetadata.getD row blankMetadata,
      (head.views publication).map fun view => view.value row⟩

/-- `HeadSnapshot`: one head, here its address, and one boundary of it.  The schema, the tablet
and the generation of a head never change, so a snapshot holds copies. -/
structure HeadSnapshot where
  head : ℕ
  schema : TableSchema
  tabletId : TabletId
  generation : ℕ
  publication : HeadPublication
  deriving DecidableEq

/-- `HeadSnapshot::row_count`. -/
def HeadSnapshot.rowCount (snapshot : HeadSnapshot) : ℕ := snapshot.publication.rowCount

/-- `MutableHead::snapshot` of the head at an address. -/
def MutableHeadState.snapshot (head : MutableHeadState) (address : ℕ) : HeadSnapshot :=
  ⟨address, head.schema, head.tabletId, head.generation, head.publication⟩

end Chronos.Head
