import Chronos.Common.Basic

/-!
`src/schema`: table schemas and their lineages.

* `TableSchema`: a schema that has passed the checks of `TableSchema::create`; the
  checks are a field, so that every schema of the model is a valid one.
* `validateV1Successor`, `SchemaLineage`: which schema may follow which, and the
  append-only list of the schemas of one table.

A `common::Uuid` is the number its sixteen bytes spell, most significant byte
first, so that the order of the source, which compares bytes from the left, is the
order of numbers.
-/

namespace Chronos

/-- `common::Uuid`; the nil value is `0`. -/
abbrev Uuid := ℕ

/-- `schema::Identifier` and `ingest::RequestIdentifier`: a UUID that is not nil. -/
abbrev Identifier := {value : Uuid // value ≠ 0}

instance {n : ℕ} : OfNat Identifier (n + 1) := ⟨n + 1, n.succ_ne_zero⟩

namespace Schema

/-- `TableId`. -/
abbrev TableId := Identifier

/-- `ColumnId`. -/
abbrev ColumnId := Identifier

/-- `SchemaId`. -/
abbrev SchemaId := Identifier

/-- `TabletId`. -/
abbrev TabletId := Identifier

/-- `kMaximumSchemaColumnCount`. -/
def maximumSchemaColumnCount : ℕ := 4096

/-- The error that the checks of this module report. -/
def invalid {α : Type} (message : String) : Result α :=
  .error ⟨.invalidArgument, message⟩

/-! ### Columns -/

/-- `LogicalTypeKind`. -/
inductive LogicalTypeKind where
  | bool | int8 | int16 | int32 | int64 | uint8 | uint16 | uint32 | uint64 | float32 | float64
  | decimal | timestampNs | date | symbol | string | binary | uuid
  deriving DecidableEq, Repr

/-- `LogicalType`: the kind and, for a decimal, its precision and scale. -/
structure LogicalType where
  kind : LogicalTypeKind
  parameter0 : ℕ
  parameter1 : ℕ
  deriving DecidableEq, Repr

/-- `LogicalType::is_variable_width`. -/
def LogicalType.isVariableWidth (type : LogicalType) : Bool :=
  type.kind = .symbol || type.kind = .string || type.kind = .binary

/-- `fixed_width`: the bytes of one value, `0` for a kind that is not stored in fixed slots. -/
def fixedWidth : LogicalTypeKind → ℕ
  | .int8 | .uint8 => 1
  | .int16 | .uint16 => 2
  | .int32 | .uint32 | .float32 | .date => 4
  | .int64 | .uint64 | .float64 | .timestampNs => 8
  | .decimal | .uuid => 16
  | .bool | .symbol | .string | .binary => 0

/-- The checks of `ColumnDefinition::create`; a Lean string is valid UTF-8. -/
def validateColumnName (name : String) : Result Unit :=
  if name = "" then invalid "column name must not be empty"
  else if '\x00' ∈ name.toList then invalid "column name must not contain U+0000"
  else .ok ()

/-- `ColumnDefinition`. -/
structure ColumnDefinition where
  id : ColumnId
  name : String
  type : LogicalType
  nullable : Bool
  named : validateColumnName name = .ok ()
  deriving DecidableEq

/-- `find_column_by_id`. -/
def findColumnById (columns : List ColumnDefinition) (id : ColumnId) : Option ColumnDefinition :=
  columns.find? fun column => column.id = id

/-! ### Schemas -/

/-- `TableSchemaRoles`. -/
structure TableSchemaRoles where
  eventTimeColumn : ColumnId
  physicalOrderingKey : List ColumnId
  partitionColumns : List ColumnId
  shardKey : List ColumnId
  deduplicationKey : List ColumnId
  deriving DecidableEq

/-- The loop of `validate_role_list`, after the identities `seen`. -/
def validateRoleIds (columns : List ColumnDefinition) (requireNonnull : Bool) (label : String)
    (seen : List ColumnId) : List ColumnId → Result Unit
  | [] => .ok ()
  | id :: ids =>
    match findColumnById columns id with
    | none => invalid (label ++ " references an unknown column")
    | some column =>
      if requireNonnull && column.nullable then invalid (label ++ " columns must be non-null")
      else if id ∈ seen then invalid (label ++ " contains a duplicate column")
      else validateRoleIds columns requireNonnull label (seen ++ [id]) ids

/-- `validate_role_list`. -/
def validateRoleList (columns : List ColumnDefinition) (ids : List ColumnId)
    (requireNonempty requireNonnull : Bool) (label : String) : Result Unit :=
  if requireNonempty && ids.isEmpty then invalid (label ++ " must not be empty")
  else validateRoleIds columns requireNonnull label [] ids

/-- The loop of `TableSchema::create` over pairs of columns, after the columns `seen`. -/
def validateDistinctColumns (seen : List ColumnDefinition) : List ColumnDefinition → Result Unit
  | [] => .ok ()
  | column :: columns =>
    -- the inner loop reports whichever clash the first clashing earlier column has
    match seen.find? fun previous => previous.id = column.id ∨ previous.name = column.name with
    | some previous =>
      if previous.id = column.id then invalid "schema contains a duplicate column identity"
      else invalid "schema contains a duplicate column name"
    | none => validateDistinctColumns (seen ++ [column]) columns

/-- The checks of `TableSchema::create`. -/
def validateTableSchema (schemaId : SchemaId) (version : ℕ) (parentSchemaId : Option SchemaId)
    (columns : List ColumnDefinition) (roles : TableSchemaRoles) : Result Unit :=
  if version = 1 ∧ parentSchemaId.isSome then invalid "schema version 1 must not have a parent"
  else if version ≠ 1 ∧ parentSchemaId.isNone then
    invalid "schema version greater than 1 must have a parent"
  else if parentSchemaId = some schemaId then invalid "schema cannot name itself as parent"
  else if columns = [] then invalid "schema must contain at least one column"
  else if columns.length > maximumSchemaColumnCount then
    invalid "schema exceeds the v1 column-count limit"
  else do
    validateDistinctColumns [] columns
    match findColumnById columns roles.eventTimeColumn with
    | none => invalid "event-time role references an unknown column"
    | some eventTime =>
      if eventTime.type.kind ≠ .timestampNs then
        invalid "event-time column must have type TIMESTAMP_NS"
      else if eventTime.nullable then invalid "event-time column must be non-null"
      else do
        validateRoleList columns roles.physicalOrderingKey true false "physical ordering key"
        validateRoleList columns roles.partitionColumns true false "partition declaration"
        validateRoleList columns roles.shardKey true true "shard key"
        validateRoleList columns roles.deduplicationKey false true "deduplication key"
        if roles.eventTimeColumn ∉ roles.physicalOrderingKey then
          invalid "physical ordering key must contain event time"
        else if roles.eventTimeColumn ∉ roles.partitionColumns then
          invalid "partition declaration must reference event time"
        else if roles.deduplicationKey ≠ [] ∧ ¬ ∀ id ∈ roles.shardKey, id ∈ roles.deduplicationKey
        then invalid "shard key must be a subset of the deduplication key"
        else .ok ()

/-- `TableSchema`; the version is a positive `uint64`. -/
structure TableSchema where
  tableId : TableId
  schemaId : SchemaId
  version : ℕ
  parentSchemaId : Option SchemaId
  columns : List ColumnDefinition
  roles : TableSchemaRoles
  valid : validateTableSchema schemaId version parentSchemaId columns roles = .ok ()
  deriving DecidableEq

/-- `TableSchema::column_ordinal`. -/
def TableSchema.columnOrdinal (schema : TableSchema) (id : ColumnId) : Option ℕ :=
  schema.columns.findIdx? fun column => column.id = id

lemma TableSchema.columns_ne_nil (schema : TableSchema) : schema.columns ≠ [] := by
  intro hnil
  have hvalid := schema.valid
  simp only [validateTableSchema, hnil] at hvalid
  repeat (first | cases hvalid | split at hvalid)

lemma TableSchema.columns_length_pos (schema : TableSchema) : 0 < schema.columns.length :=
  List.length_pos_iff.2 schema.columns_ne_nil

/-! ### Lineages -/

/-- The loop of `validate_v1_successor` over the retained columns. -/
def validateRetainedColumns :
    List ColumnDefinition → List ColumnDefinition → Result Unit
  | before :: predecessor, after :: successor =>
    if before.id ≠ after.id then
      invalid "v1 evolution cannot reorder or replace column identities"
    else if before.type ≠ after.type then
      invalid "v1 evolution cannot change column types or parameters"
    else if before.nullable ≠ after.nullable then
      invalid "v1 evolution cannot change column nullability"
    else validateRetainedColumns predecessor successor
  | _, _ => .ok ()

/-- `validate_v1_successor`. -/
def validateV1Successor (predecessor successor : TableSchema) : Result Unit :=
  if predecessor.tableId ≠ successor.tableId then
    invalid "successor must preserve table identity"
  else if successor.parentSchemaId ≠ some predecessor.schemaId then
    invalid "successor must name the current schema as its parent"
  else if predecessor.version = u64Max then
    .error ⟨.outOfRange, "schema version is exhausted"⟩
  else if successor.version ≠ predecessor.version + 1 then
    invalid "successor schema version must increment by one"
  else if successor.columns.length < predecessor.columns.length then
    invalid "v1 evolution cannot drop columns"
  else do
    validateRetainedColumns predecessor.columns successor.columns
    if ∃ candidate ∈ successor.columns, ∃ historical ∈ predecessor.columns,
        candidate.name = historical.name ∧ candidate.id ≠ historical.id then
      invalid "a predecessor column name cannot be reassigned to another identity"
    else if ∃ column ∈ successor.columns.drop predecessor.columns.length,
        column.nullable = false then
      invalid "new v1 columns must be nullable and have no default"
    else if predecessor.roles ≠ successor.roles then
      invalid "v1 evolution cannot change roles or keys"
    else .ok ()

/-- `SchemaLineage`: the first schema and its successors, in order. -/
structure SchemaLineage where
  initial : TableSchema
  successors : List TableSchema
  deriving DecidableEq

/-- The schemas of a lineage, oldest first. -/
def SchemaLineage.schemas (lineage : SchemaLineage) : List TableSchema :=
  lineage.initial :: lineage.successors

/-- `SchemaLineage::create`. -/
def SchemaLineage.create (initial : TableSchema) : Result SchemaLineage :=
  if initial.version ≠ 1 ∨ initial.parentSchemaId.isSome then
    invalid "lineage must begin with parentless schema version 1"
  else .ok ⟨initial, []⟩

/-- The newest schema, `schemas_.back()`. -/
def SchemaLineage.current (lineage : SchemaLineage) : TableSchema :=
  lineage.successors.getLastD lineage.initial

/-- `SchemaLineage::append`. -/
def SchemaLineage.append (lineage : SchemaLineage) (successor : TableSchema) :
    Result SchemaLineage := do
  validateV1Successor lineage.current successor
  if ∃ schema ∈ lineage.schemas, schema.schemaId = successor.schemaId then
    invalid "schema identity was already used in this lineage"
  else if ∃ candidate ∈ successor.columns, ∃ schema ∈ lineage.schemas,
      ∃ historical ∈ schema.columns,
        historical.name = candidate.name ∧ historical.id ≠ candidate.id then
    invalid "historical column name cannot be reassigned to another identity"
  else if ∃ column ∈ successor.columns.drop lineage.current.columns.length,
      ∃ schema ∈ lineage.schemas, (findColumnById schema.columns column.id).isSome then
    invalid "historical column identity cannot be reused"
  else .ok { lineage with successors := lineage.successors ++ [successor] }

end Schema

end Chronos
