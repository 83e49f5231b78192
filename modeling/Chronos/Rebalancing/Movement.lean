import Chronos.Schema.Table
import Chronos.Raft.Membership

/-!
`raft/rebalancing.cpp`: the movement of a tablet from one node to another.

* `TabletMovement`: the record of a movement and the bytes of the snapshot that its
  target has received.
* `begin`, `beginSnapshot`, `acceptSnapshotChunk`, `finishSnapshot`, `markCaughtUp`,
  `promoteTarget`, `removeSource`, `restartSnapshotTransfer`: the calls, each with
  its status and the movement after it.
* `validateTabletMovementState`, `recover`: what a restart accepts.

Epochs are `uint64`, so that the successor of the last one is `0`.  A binary search
in a sorted list of replicas is membership.
-/

namespace Chronos.Rebalancing

open Schema (TabletId)
open Raft (NodeId invalid corruption unavailable)

/-- `TabletMovementPhase`. -/
inductive TabletMovementPhase where
  | addingTarget | transferringSnapshot | catchingUp | ready | targetPromoted | complete
  deriving DecidableEq, Repr

/-- `TabletMovementLimits`. -/
structure TabletMovementLimits where
  maximumSnapshotBytes : ℕ := 2 ^ 30
  maximumChunkBytes : ℕ := 4 * 1024 * 1024
  maximumReplicas : ℕ := 9
  deriving DecidableEq, Repr

/-- `valid_limits`. -/
def TabletMovementLimits.valid (limits : TabletMovementLimits) : Bool :=
  0 < limits.maximumSnapshotBytes && 0 < limits.maximumChunkBytes &&
    limits.maximumChunkBytes ≤ limits.maximumSnapshotBytes && 2 ≤ limits.maximumReplicas

/-- `SnapshotTransferMetadata`. -/
structure SnapshotTransferMetadata where
  manifestGeneration : ℕ := 0
  appliedIndex : ℕ := 0
  appliedTerm : ℕ := 0
  totalBytes : ℕ := 0
  contentCrc32c : ℕ := 0
  deriving DecidableEq, Repr

/-- `TabletMovementRecord`. -/
structure TabletMovementRecord where
  tabletId : TabletId
  placementEpoch : ℕ
  sourceNode : NodeId
  targetNode : NodeId
  votingReplicas : List NodeId
  learners : List NodeId
  phase : TabletMovementPhase
  snapshot : SnapshotTransferMetadata
  receivedBytes : ℕ
  deriving DecidableEq, Repr

/-- `TabletMovement::Impl`. -/
structure TabletMovement where
  state : TabletMovementRecord
  limits : TabletMovementLimits
  snapshotBytes : List UInt8
  deriving DecidableEq, Repr

/-- `std::uint64_t` addition of one. -/
def nextEpoch (epoch : ℕ) : ℕ := (epoch + 1) % 2 ^ 64

/-! ### Validation -/

/-- The first test of `validate_tablet_movement_record`. -/
def canonicalRecord (record : TabletMovementRecord) (limits : TabletMovementLimits) : Prop :=
  limits.valid = true ∧ record.placementEpoch ≠ 0 ∧ record.sourceNode ≠ 0 ∧
    record.targetNode ≠ 0 ∧ record.sourceNode ≠ record.targetNode ∧ record.votingReplicas ≠ [] ∧
    record.votingReplicas.length ≤ limits.maximumReplicas ∧
    record.votingReplicas.head? ≠ some 0 ∧ record.votingReplicas.Pairwise (· < ·) ∧
    record.learners.Pairwise (· < ·) ∧ record.snapshot.totalBytes ≤ limits.maximumSnapshotBytes

instance (record : TabletMovementRecord) (limits : TabletMovementLimits) :
    Decidable (canonicalRecord record limits) := inferInstanceAs (Decidable (_ ∧ _))

/-- `empty_snapshot`. -/
def emptySnapshot (record : TabletMovementRecord) : Bool :=
  record.snapshot = {} && record.receivedBytes = 0

/-- `valid_snapshot`. -/
def validSnapshot (record : TabletMovementRecord) : Bool :=
  record.snapshot.manifestGeneration ≠ 0 && record.snapshot.appliedIndex ≠ 0 &&
    record.snapshot.appliedTerm ≠ 0 && record.snapshot.totalBytes ≠ 0 &&
    record.receivedBytes ≤ record.snapshot.totalBytes

/-- The target is the only learner and no voter yet, the source is a voter. -/
def targetLearns (record : TabletMovementRecord) (limits : TabletMovementLimits) : Bool :=
  record.sourceNode ∈ record.votingReplicas && record.targetNode ∉ record.votingReplicas &&
    record.learners = [record.targetNode] &&
    record.votingReplicas.length < limits.maximumReplicas

/-- What the switch of `validate_tablet_movement_record` asks of each phase. -/
def phaseConsistent (record : TabletMovementRecord) (limits : TabletMovementLimits) : Bool :=
  match record.phase with
  | .addingTarget => targetLearns record limits && emptySnapshot record
  | .transferringSnapshot => targetLearns record limits && validSnapshot record
  | .catchingUp | .ready =>
    targetLearns record limits && validSnapshot record &&
      record.receivedBytes = record.snapshot.totalBytes
  | .targetPromoted =>
    record.sourceNode ∈ record.votingReplicas && record.targetNode ∈ record.votingReplicas &&
      record.learners.isEmpty && validSnapshot record &&
      record.receivedBytes = record.snapshot.totalBytes
  | .complete =>
    record.sourceNode ∉ record.votingReplicas && record.targetNode ∈ record.votingReplicas &&
      record.learners.isEmpty && validSnapshot record &&
      record.receivedBytes = record.snapshot.totalBytes

/-- The message of the switch for each phase. -/
def phaseMessage : TabletMovementPhase → String
  | .addingTarget => "adding-target movement checkpoint is inconsistent"
  | .transferringSnapshot => "transferring movement checkpoint is inconsistent"
  | .catchingUp | .ready => "caught-up movement checkpoint is inconsistent"
  | .targetPromoted => "promoted movement checkpoint is inconsistent"
  | .complete => "complete movement checkpoint is inconsistent"

/-- `validate_tablet_movement_record`. -/
def validateTabletMovementRecord (record : TabletMovementRecord) (limits : TabletMovementLimits) :
    Result Unit :=
  if ¬ canonicalRecord record limits then
    .error (invalid "tablet movement checkpoint identity, bounds, or canonical order is invalid")
  else if phaseConsistent record limits then .ok ()
  else .error (invalid (phaseMessage record.phase))

/-- `validate_tablet_movement_state`. -/
def validateTabletMovementState (record : TabletMovementRecord) (receivedSnapshot : List UInt8)
    (limits : TabletMovementLimits) : Result Unit := do
  validateTabletMovementRecord record limits
  if record.receivedBytes ≠ receivedSnapshot.length then
    .error (invalid "tablet movement checkpoint received length differs from owned bytes")
  else if record.phase = .addingTarget ∨ record.phase = .transferringSnapshot then .ok ()
  else if crc32c receivedSnapshot = record.snapshot.contentCrc32c then .ok ()
  else .error (corruption "tablet movement checkpoint snapshot checksum differs")

namespace TabletMovement

/-! ### Creation and recovery -/

/-- `TabletMovement::begin`. -/
def begin (tabletId : TabletId) (placementEpoch : ℕ) (sourceNode targetNode : NodeId)
    (votingReplicas : List NodeId) (limits : TabletMovementLimits) : Result TabletMovement :=
  let votingReplicas := votingReplicas.insertionSort (· ≤ ·)
  if placementEpoch = 0 ∨ sourceNode = 0 ∨ targetNode = 0 ∨ sourceNode = targetNode ∨
      limits.valid = false ∨ votingReplicas = [] ∨
      votingReplicas.length ≥ limits.maximumReplicas ∨ sourceNode ∉ votingReplicas ∨
      targetNode ∈ votingReplicas ∨ votingReplicas.head? = some 0 ∨
      ¬ votingReplicas.Pairwise (· < ·) then
    .error (invalid "tablet movement identity, membership, or limits invalid")
  else
    .ok ⟨⟨tabletId, placementEpoch, sourceNode, targetNode, votingReplicas, [targetNode],
      .addingTarget, {}, 0⟩, limits, []⟩

/-- `TabletMovement::recover`. -/
def recover (record : TabletMovementRecord) (receivedSnapshot : List UInt8)
    (limits : TabletMovementLimits) : Result TabletMovement := do
  validateTabletMovementState record receivedSnapshot limits
  .ok ⟨record, limits, receivedSnapshot⟩

/-! ### The transfer -/

/-- `begin_snapshot`. -/
def beginSnapshot (m : TabletMovement) (metadata : SnapshotTransferMetadata) :
    Result Unit × TabletMovement :=
  if m.state.phase ≠ .addingTarget ∨ metadata.manifestGeneration = 0 ∨
      metadata.appliedIndex = 0 ∨ metadata.appliedTerm = 0 ∨ metadata.totalBytes = 0 ∨
      metadata.totalBytes > m.limits.maximumSnapshotBytes then
    (.error (invalid "snapshot transfer metadata or movement phase is invalid"), m)
  else
    (.ok (), { m with
      state := { m.state with
        snapshot := metadata, phase := .transferringSnapshot, receivedBytes := 0 }
      snapshotBytes := [] })

/-- `accept_snapshot_chunk`. -/
def acceptSnapshotChunk (m : TabletMovement) (offset : ℕ) (bytes : List UInt8)
    (chunkCrc32c : ℕ) : Result Unit × TabletMovement :=
  if m.state.phase ≠ .transferringSnapshot ∨ bytes = [] ∨
      bytes.length > m.limits.maximumChunkBytes ∨ offset > m.state.snapshot.totalBytes ∨
      bytes.length > m.state.snapshot.totalBytes - offset ∨ crc32c bytes ≠ chunkCrc32c then
    (.error (invalid "snapshot chunk phase, bounds, or checksum is invalid"), m)
  else if offset < m.state.receivedBytes then
    if bytes.length > m.state.receivedBytes - offset ∨
        (m.snapshotBytes.drop offset).take bytes.length ≠ bytes then
      (.error (corruption "snapshot chunk retry differs from retained bytes"), m)
    else (.ok (), m)
  else if offset ≠ m.state.receivedBytes then
    (.error (unavailable "snapshot chunk creates a transfer gap"), m)
  else
    let snapshotBytes := m.snapshotBytes ++ bytes
    (.ok (), { m with
      state := { m.state with receivedBytes := snapshotBytes.length }
      snapshotBytes := snapshotBytes })

/-- `finish_snapshot`. -/
def finishSnapshot (m : TabletMovement) : Result Unit × TabletMovement :=
  if m.state.phase ≠ .transferringSnapshot ∨
      m.snapshotBytes.length ≠ m.state.snapshot.totalBytes then
    (.error (unavailable "snapshot transfer is not complete"), m)
  else if crc32c m.snapshotBytes ≠ m.state.snapshot.contentCrc32c then
    (.error (corruption "snapshot content checksum does not match metadata"), m)
  else (.ok (), { m with state := { m.state with phase := .catchingUp } })

/-- `mark_caught_up`. -/
def markCaughtUp (m : TabletMovement) (targetAppliedIndex : ℕ) : Result Unit × TabletMovement :=
  if m.state.phase ≠ .catchingUp ∨ targetAppliedIndex < m.state.snapshot.appliedIndex then
    (.error (unavailable "target has not caught up through the snapshot boundary"), m)
  else (.ok (), { m with state := { m.state with phase := .ready } })

/-- `restart_snapshot_transfer`. -/
def restartSnapshotTransfer (m : TabletMovement) : Result Unit × TabletMovement :=
  if m.state.phase ≠ .transferringSnapshot then
    (.error (invalid "only an active snapshot transfer can restart"), m)
  else
    (.ok (), { m with state := { m.state with receivedBytes := 0 }, snapshotBytes := [] })

/-! ### The two changes of the voters -/

/-- `promote_target`. -/
def promoteTarget (m : TabletMovement) (expectedEpoch newEpoch : ℕ) :
    Result Unit × TabletMovement :=
  if m.state.phase ≠ .ready ∨ expectedEpoch ≠ m.state.placementEpoch ∨
      newEpoch ≠ nextEpoch expectedEpoch then
    (.error (invalid "target promotion phase or placement epoch is stale"), m)
  else
    (.ok (), { m with
      state := { m.state with
        votingReplicas := (m.state.votingReplicas ++ [m.state.targetNode]).insertionSort (· ≤ ·)
        learners := []
        placementEpoch := newEpoch
        phase := .targetPromoted } })

/-- `remove_source`. -/
def removeSource (m : TabletMovement) (expectedEpoch newEpoch : ℕ) :
    Result Unit × TabletMovement :=
  if m.state.phase ≠ .targetPromoted ∨ expectedEpoch ≠ m.state.placementEpoch ∨
      newEpoch ≠ nextEpoch expectedEpoch then
    (.error (invalid "source removal phase or placement epoch is stale"), m)
  else if m.state.sourceNode ∉ m.state.votingReplicas ∨
      m.state.targetNode ∉ m.state.votingReplicas then
    (.error ⟨.internal, "tablet movement membership lost source or target"⟩, m)
  else
    (.ok (), { m with
      state := { m.state with
        votingReplicas := m.state.votingReplicas.erase m.state.sourceNode
        placementEpoch := newEpoch
        phase := .complete } })

end TabletMovement

/-! ### Calls -/

/-- A call on a movement, or a restart from its record and its bytes. -/
inductive MovementCall where
  | beginSnapshot (metadata : SnapshotTransferMetadata)
  | acceptSnapshotChunk (offset : ℕ) (bytes : List UInt8) (chunkCrc32c : ℕ)
  | finishSnapshot
  | markCaughtUp (targetAppliedIndex : ℕ)
  | promoteTarget (expectedEpoch newEpoch : ℕ)
  | removeSource (expectedEpoch newEpoch : ℕ)
  | restartSnapshotTransfer
  | restart
  deriving DecidableEq, Repr

/-- What a call returns, and the movement after it. -/
def TabletMovement.perform (m : TabletMovement) : MovementCall → Result Unit × TabletMovement
  | .beginSnapshot metadata => m.beginSnapshot metadata
  | .acceptSnapshotChunk offset bytes chunkCrc32c => m.acceptSnapshotChunk offset bytes chunkCrc32c
  | .finishSnapshot => m.finishSnapshot
  | .markCaughtUp targetAppliedIndex => m.markCaughtUp targetAppliedIndex
  | .promoteTarget expectedEpoch newEpoch => m.promoteTarget expectedEpoch newEpoch
  | .removeSource expectedEpoch newEpoch => m.removeSource expectedEpoch newEpoch
  | .restartSnapshotTransfer => m.restartSnapshotTransfer
  | .restart =>
    match recover m.state m.snapshotBytes m.limits with
    | .ok recovered => (.ok (), recovered)
    | .error status => (.error status, m)

end Chronos.Rebalancing
