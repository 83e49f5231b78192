import Chronos.Common.OrderedMap
import Chronos.Columnar.Batch
import Chronos.Raft.Membership

/-!
`raft/metadata.cpp`: the application state of the metadata group.

* `MetadataStateMachine`: the cluster nodes, schemas, table definitions, tablet
  placements, group bindings and policies that the committed commands have built,
  and the index of the last entry applied.
* `applyCommitted`, `applyCommittedSchemaDefinition`,
  `applyCommittedTabletGroupBinding`, `applyInternalNoop`: one committed entry.
* `MetadataCall`, `perform`: the four of them as one step.

Names and endpoints are the bytes of their strings.  An identity of a table, a
schema or a tablet is never nil, which its type carries, so the tests of the
source for nil identities have no counterpart here.  Failed allocations, after
which the source undoes what it had done, are left out.
-/

namespace Chronos.Metadata

open Schema (TableId SchemaId TabletId TableSchema validateV1Successor)
open Raft (NodeId invalid)

/-- `GroupId`; the nil group is `0`. -/
abbrev GroupId := Uuid

/-! ### Commands -/

/-- `ClusterNodeMetadata`. -/
structure ClusterNodeMetadata where
  nodeId : NodeId
  endpoint : List UInt8
  deriving DecidableEq

/-- `SchemaMetadata`. -/
structure SchemaMetadata where
  tableId : TableId
  schemaId : SchemaId
  schemaVersion : ℕ
  deriving DecidableEq

/-- `CatalogTableDefinition` with its schema in place of the pointer to it. -/
structure CatalogTableDefinition where
  name : List UInt8
  quoted : Bool
  schema : TableSchema
  deriving DecidableEq

/-- `TabletPlacementMetadata`. -/
structure TabletPlacementMetadata where
  tableId : TableId
  tabletId : TabletId
  placementEpoch : ℕ
  replicas : List NodeId
  leaderHint : Option NodeId
  deriving DecidableEq

/-- `RetentionMetadata`. -/
structure RetentionMetadata where
  tableId : TableId
  systemHistoryNs : ℤ
  retryRetentionPositions : ℕ
  deriving DecidableEq

/-- `TablePolicyMetadata`. -/
structure TablePolicyMetadata where
  tableId : TableId
  partitionIntervalNs : ℤ
  retentionNs : ℤ
  systemHistoryNs : ℤ
  allowedLatenessNs : ℤ
  retryRetentionPositions : ℕ
  deriving DecidableEq

/-- `TabletGroupBindingMetadata`. -/
structure TabletGroupBindingMetadata where
  tabletId : TabletId
  groupId : GroupId
  deriving DecidableEq

/-- `MetadataCommand`. -/
inductive MetadataCommand where
  | node (value : ClusterNodeMetadata)
  | schema (value : SchemaMetadata)
  | tablet (value : TabletPlacementMetadata)
  | retention (value : RetentionMetadata)
  | policy (value : TablePolicyMetadata)
  deriving DecidableEq

/-! ### The state -/

/-- `MetadataLimits`. -/
structure MetadataLimits where
  maximumNodes : ℕ := 1024
  maximumSchemas : ℕ := 65536
  maximumTablets : ℕ := 2 ^ 20
  maximumReplicasPerTablet : ℕ := 9
  maximumEndpointBytes : ℕ := 4096
  maximumTableNameBytes : ℕ := 1024
  maximumColumnNameBytes : ℕ := 1024
  deriving DecidableEq

/-- `MetadataStateMachine::Impl`. -/
structure MetadataStateMachine where
  limits : MetadataLimits
  applied : ℕ := 0
  nodes : OrderedMap NodeId ClusterNodeMetadata := .empty
  schemas : OrderedMap SchemaId SchemaMetadata := .empty
  definitions : OrderedMap SchemaId CatalogTableDefinition := .empty
  activeSchemas : OrderedMap TableId SchemaId := .empty
  tablets : OrderedMap TabletId TabletPlacementMetadata := .empty
  tabletGroups : OrderedMap TabletId TabletGroupBindingMetadata := .empty
  groupTablets : OrderedMap GroupId TabletId := .empty
  retention : OrderedMap TableId RetentionMetadata := .empty
  policies : OrderedMap TableId TablePolicyMetadata := .empty
  deriving DecidableEq

/-- `valid_unquoted_name`. -/
def validUnquotedName (name : List UInt8) : Bool :=
  let first := fun value : UInt8 => (0x61 ≤ value && value ≤ 0x7a) || value = 0x5f
  match name with
  | [] => false
  | value :: rest =>
    first value && rest.all fun value => first value || (0x30 ≤ value && value ≤ 0x39)

namespace MetadataStateMachine

/-- `MetadataStateMachine::create`. -/
def create (limits : MetadataLimits) : Result MetadataStateMachine :=
  if limits.maximumNodes = 0 ∨ limits.maximumSchemas = 0 ∨ limits.maximumTablets = 0 ∨
      limits.maximumReplicasPerTablet = 0 ∨ limits.maximumEndpointBytes = 0 ∨
      limits.maximumTableNameBytes = 0 ∨ limits.maximumColumnNameBytes = 0 then
    .error (invalid "metadata state limits must be nonzero")
  else .ok { limits := limits }

/-- The test of every call that its index is the next one; the sum is one of `uint64`. -/
def follows (s : MetadataStateMachine) (index : ℕ) : Bool :=
  index ≠ 0 && index = (s.applied + 1) % 2 ^ 64

/-! ### Table definitions -/

/-- The test of a definition on its own. -/
def namesTable (limits : MetadataLimits) (definition : CatalogTableDefinition) : Bool :=
  !definition.name.isEmpty && definition.name.length ≤ limits.maximumTableNameBytes &&
    Columnar.isValidUtf8 definition.name && (0 : UInt8) ∉ definition.name &&
    (definition.quoted || validUnquotedName definition.name)

/-- The test of a new definition against the active one of its table. -/
def succeedsActive (s : MetadataStateMachine) (definition : CatalogTableDefinition) :
    Result Unit :=
  match s.activeSchemas.find? definition.schema.tableId with
  | none =>
    if definition.schema.version ≠ 1 then
      .error (invalid "first catalog schema definition must be version one")
    else .ok ()
  | some active =>
    match s.definitions.find? active with
    -- `std::map::at` throws; an active schema always has its definition
    | none => .error ⟨.internal, "map::at"⟩
    | some predecessor =>
      if predecessor.name ≠ definition.name ∨ predecessor.quoted ≠ definition.quoted then
        .error (invalid "catalog table rename requires a dedicated metadata command")
      else if Result.isOk (validateV1Successor predecessor.schema definition.schema) = false then
        .error (invalid "catalog schema definition is not the direct v1 successor")
      else .ok ()

/-- The tests of a definition of a schema that has none yet. -/
def admitsDefinition (s : MetadataStateMachine) (definition : CatalogTableDefinition) :
    Result Unit :=
  if s.definitions.size ≥ s.limits.maximumSchemas then
    .error (invalid "catalog schema definition state is full")
  else if s.schemas.contains definition.schema.schemaId = false ∧
      s.schemas.size ≥ s.limits.maximumSchemas then
    .error (invalid "catalog schema identity state is full")
  else do
    s.succeedsActive definition
    if ∃ entry ∈ s.definitions.entries, entry.2.schema.tableId ≠ definition.schema.tableId ∧
        entry.2.name = definition.name ∧ entry.2.quoted = definition.quoted then
      .error (invalid "catalog table name is already owned by another table")
    else .ok ()

/-- The state with a new definition, active for its table. -/
def define (s : MetadataStateMachine) (definition : CatalogTableDefinition) :
    MetadataStateMachine :=
  let schema := definition.schema
  { s with
    definitions := s.definitions.emplace schema.schemaId definition
    activeSchemas := s.activeSchemas.insert schema.tableId schema.schemaId
    schemas :=
      if s.schemas.contains schema.schemaId then s.schemas
      else s.schemas.emplace schema.schemaId ⟨schema.tableId, schema.schemaId, schema.version⟩ }

/-- `apply_committed_schema_definition`; `none` is a definition without a schema. -/
def applyCommittedSchemaDefinition (s : MetadataStateMachine) (index : ℕ)
    (definition : Option CatalogTableDefinition) : Result Unit × MetadataStateMachine :=
  if s.follows index = false then
    (.error (invalid "schema definition must follow committed Raft log order"), s)
  else match definition with
  | none => (.error (invalid "catalog schema definition has an invalid name or schema"), s)
  | some definition =>
    let schema := definition.schema
    if namesTable s.limits definition = false then
      (.error (invalid "catalog schema definition has an invalid name or schema"), s)
    else if ∃ column ∈ schema.columns,
        column.name.utf8ByteSize > s.limits.maximumColumnNameBytes then
      (.error (invalid "catalog schema definition has an oversized column name"), s)
    else if ∃ identity ∈ s.schemas.find? schema.schemaId,
        identity.tableId ≠ schema.tableId ∨ identity.schemaVersion ≠ schema.version then
      (.error (invalid "catalog schema definition disagrees with schema identity metadata"), s)
    else match s.definitions.find? schema.schemaId with
    | some existing =>
      if existing ≠ definition then
        (.error (invalid "catalog schema identity cannot be redefined"), s)
      else (.ok (), { s with applied := index })
    | none =>
      match s.admitsDefinition definition with
      | .error status => (.error status, s)
      | .ok () => (.ok (), { s.define definition with applied := index })

/-! ### Commands -/

/-- The placement with its replicas sorted. -/
def sortReplicas (value : TabletPlacementMetadata) : TabletPlacementMetadata :=
  { value with replicas := value.replicas.insertionSort (· ≤ ·) }

/-- The test of a placement with sorted replicas on its own. -/
def validPlacement (maximumReplicas : ℕ) (value : TabletPlacementMetadata) : Bool :=
  value.placementEpoch ≠ 0 && !value.replicas.isEmpty &&
    value.replicas.length ≤ maximumReplicas && value.replicas.head? ≠ some 0 &&
    value.replicas.Pairwise (· < ·) &&
    (match value.leaderHint with
    | none => true
    | some hint => hint ∈ value.replicas)

/-- The branch of `apply_committed` for a cluster node. -/
def applyNode (s : MetadataStateMachine) (value : ClusterNodeMetadata) :
    Result MetadataStateMachine :=
  if value.nodeId = 0 ∨ value.endpoint = [] ∨
      value.endpoint.length > s.limits.maximumEndpointBytes ∨
      (s.nodes.contains value.nodeId = false ∧ s.nodes.size ≥ s.limits.maximumNodes) then
    .error (invalid "cluster node metadata is invalid or full")
  else .ok { s with nodes := s.nodes.insert value.nodeId value }

/-- The branch of `apply_committed` for a schema identity. -/
def applySchema (s : MetadataStateMachine) (value : SchemaMetadata) :
    Result MetadataStateMachine :=
  if s.schemas.contains value.schemaId = false ∧ s.schemas.size ≥ s.limits.maximumSchemas then
    .error (invalid "schema metadata is invalid or full")
  else if ∃ existing ∈ s.schemas.find? value.schemaId, existing.tableId ≠ value.tableId then
    .error (invalid "schema identity cannot move between tables")
  else .ok { s with schemas := s.schemas.insert value.schemaId value }

/-- The branch of `apply_committed` for a placement. -/
def applyTablet (s : MetadataStateMachine) (value : TabletPlacementMetadata) :
    Result MetadataStateMachine :=
  let value := sortReplicas value
  if validPlacement s.limits.maximumReplicasPerTablet value = false ∨
      (s.tablets.contains value.tabletId = false ∧ s.tablets.size ≥ s.limits.maximumTablets) then
    .error (invalid "tablet placement metadata is invalid or full")
  else if ∃ existing ∈ s.tablets.find? value.tabletId,
      existing.tableId ≠ value.tableId ∨ value.placementEpoch ≤ existing.placementEpoch then
    .error (invalid "tablet placement must preserve table and advance epoch")
  else .ok { s with tablets := s.tablets.insert value.tabletId value }

/-- The branch of `apply_committed` for the retention of a table. -/
def applyRetention (s : MetadataStateMachine) (value : RetentionMetadata) :
    Result MetadataStateMachine :=
  if value.systemHistoryNs < 0 ∨ value.retryRetentionPositions = 0 then
    .error (invalid "retention metadata is invalid")
  else if ∃ complete ∈ s.policies.find? value.tableId,
      complete.systemHistoryNs ≠ value.systemHistoryNs ∨
        complete.retryRetentionPositions ≠ value.retryRetentionPositions then
    .error (invalid "legacy retention metadata conflicts with complete table policy")
  else .ok { s with retention := s.retention.insert value.tableId value }

/-- The branch of `apply_committed` for the policy of a table. -/
def applyPolicy (s : MetadataStateMachine) (value : TablePolicyMetadata) :
    Result MetadataStateMachine :=
  if value.partitionIntervalNs ≤ 0 ∨ value.retentionNs ≤ 0 ∨ value.systemHistoryNs ≤ 0 ∨
      value.allowedLatenessNs < 0 ∨ value.retryRetentionPositions = 0 ∨
      s.activeSchemas.contains value.tableId = false then
    .error (invalid "complete table policy metadata is invalid or has no table schema")
  else
    .ok { s with
      policies := s.policies.insert value.tableId value
      retention := s.retention.insert value.tableId
        ⟨value.tableId, value.systemHistoryNs, value.retryRetentionPositions⟩ }

/-- The visitor of `apply_committed`. -/
def applyCommand (s : MetadataStateMachine) : MetadataCommand → Result MetadataStateMachine
  | .node value => s.applyNode value
  | .schema value => s.applySchema value
  | .tablet value => s.applyTablet value
  | .retention value => s.applyRetention value
  | .policy value => s.applyPolicy value

/-- `apply_committed`. -/
def applyCommitted (s : MetadataStateMachine) (index : ℕ) (command : MetadataCommand) :
    Result Unit × MetadataStateMachine :=
  if s.follows index = false then
    (.error (invalid "metadata command must follow committed Raft log order"), s)
  else match s.applyCommand command with
  | .error status => (.error status, s)
  | .ok s' => (.ok (), { s' with applied := index })

/-! ### Group bindings and internal entries -/

/-- `apply_committed_tablet_group_binding`. -/
def applyCommittedTabletGroupBinding (s : MetadataStateMachine) (index : ℕ)
    (binding : TabletGroupBindingMetadata) : Result Unit × MetadataStateMachine :=
  if s.follows index = false then
    (.error (invalid "tablet group binding must follow committed Raft log order"), s)
  else if binding.groupId = 0 ∨ s.tablets.contains binding.tabletId = false then
    (.error (invalid "tablet group binding is invalid or has no committed placement"), s)
  else if ∃ existing ∈ s.tabletGroups.find? binding.tabletId,
      existing.groupId ≠ binding.groupId then
    (.error (invalid "tablet group binding is immutable"), s)
  else if ∃ owner ∈ s.groupTablets.find? binding.groupId, owner ≠ binding.tabletId then
    (.error (invalid "Raft group identity is already bound to another tablet"), s)
  else if s.tabletGroups.contains binding.tabletId then (.ok (), { s with applied := index })
  else if s.groupTablets.contains binding.groupId then
    (.error (invalid "Raft group identity is already bound"), s)
  else
    (.ok (), { s with
      groupTablets := s.groupTablets.emplace binding.groupId binding.tabletId
      tabletGroups := s.tabletGroups.emplace binding.tabletId binding
      applied := index })

/-- `apply_internal_noop`. -/
def applyInternalNoop (s : MetadataStateMachine) (index : ℕ) :
    Result Unit × MetadataStateMachine :=
  if s.follows index = false then
    (.error (invalid "metadata internal entry must follow committed Raft log order"), s)
  else (.ok (), { s with applied := index })

end MetadataStateMachine

/-! ### Calls -/

/-- A call that applies one committed entry. -/
inductive MetadataCall where
  | command (index : ℕ) (command : MetadataCommand)
  | definition (index : ℕ) (definition : Option CatalogTableDefinition)
  | binding (index : ℕ) (binding : TabletGroupBindingMetadata)
  | noop (index : ℕ)
  deriving DecidableEq

/-- What a call returns, and the state after it. -/
def MetadataStateMachine.perform (s : MetadataStateMachine) :
    MetadataCall → Result Unit × MetadataStateMachine
  | .command index command => s.applyCommitted index command
  | .definition index definition => s.applyCommittedSchemaDefinition index definition
  | .binding index binding => s.applyCommittedTabletGroupBinding index binding
  | .noop index => s.applyInternalNoop index

end Chronos.Metadata
