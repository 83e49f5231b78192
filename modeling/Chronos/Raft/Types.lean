import Chronos.Common.Basic

/-!
The data of `raft/types.hpp`: log entries, snapshot metadata, persistent state,
the eight message kinds, and the transition that a public call returns.  Terms and
log indexes are `uint64` in the source and naturals here.
-/

namespace Chronos.Raft

/-- A `uint64` node identity; zero is never a node. -/
abbrev NodeId := ℕ

/-- `Role`. -/
inductive Role where
  | follower | candidate | leader
  deriving DecidableEq, Repr

/-- `LogEntry`. -/
structure LogEntry where
  index : ℕ := 0
  term : ℕ := 0
  type : UInt8 := 1
  payload : List UInt8 := []
  deriving DecidableEq, Repr

/-- `SnapshotMetadata`. -/
structure SnapshotMetadata where
  lastIncludedIndex : ℕ := 0
  lastIncludedTerm : ℕ := 0
  manifestGeneration : ℕ := 0
  partSetChecksum : Vector UInt8 32 := Vector.replicate 32 0
  configurationIndex : ℕ := 0
  voters : List NodeId := []
  deriving DecidableEq, Repr

/-- `PersistentState`. -/
structure PersistentState where
  currentTerm : ℕ := 0
  votedFor : Option NodeId := none
  log : List LogEntry := []
  commitIndex : ℕ := 0
  appliedIndex : ℕ := 0
  snapshot : SnapshotMetadata := {}
  deriving DecidableEq, Repr

/-! ### Messages -/

/-- `RequestVoteRequest`. -/
structure RequestVoteRequest where
  term : ℕ
  candidateId : NodeId
  lastLogIndex : ℕ
  lastLogTerm : ℕ
  deriving DecidableEq, Repr

/-- `RequestVoteResponse`. -/
structure RequestVoteResponse where
  term : ℕ
  granted : Bool
  deriving DecidableEq, Repr

/-- `AppendEntriesRequest`. -/
structure AppendEntriesRequest where
  term : ℕ
  leaderId : NodeId
  previousLogIndex : ℕ
  previousLogTerm : ℕ
  entries : List LogEntry
  leaderCommit : ℕ
  deriving DecidableEq, Repr

/-- `AppendEntriesResponse`. -/
structure AppendEntriesResponse where
  term : ℕ
  success : Bool
  matchIndex : ℕ
  conflictTerm : Option ℕ := none
  conflictIndex : ℕ := 0
  deriving DecidableEq, Repr

/-- `InstallSnapshotRequest`. -/
structure InstallSnapshotRequest where
  term : ℕ
  leaderId : NodeId
  snapshot : SnapshotMetadata
  deriving DecidableEq, Repr

/-- `InstallSnapshotResponse`. -/
structure InstallSnapshotResponse where
  term : ℕ
  success : Bool
  lastIncludedIndex : ℕ
  deriving DecidableEq, Repr

/-- `ReadBarrierRequest`. -/
structure ReadBarrierRequest where
  term : ℕ
  leaderId : NodeId
  context : ℕ
  deriving DecidableEq, Repr

/-- `ReadBarrierResponse`. -/
structure ReadBarrierResponse where
  term : ℕ
  context : ℕ
  accepted : Bool
  deriving DecidableEq, Repr

/-- `Message`, the variant of the eight kinds. -/
inductive Message where
  | requestVoteRequest (value : RequestVoteRequest)
  | requestVoteResponse (value : RequestVoteResponse)
  | appendEntriesRequest (value : AppendEntriesRequest)
  | appendEntriesResponse (value : AppendEntriesResponse)
  | installSnapshotRequest (value : InstallSnapshotRequest)
  | installSnapshotResponse (value : InstallSnapshotResponse)
  | readBarrierRequest (value : ReadBarrierRequest)
  | readBarrierResponse (value : ReadBarrierResponse)
  deriving DecidableEq, Repr

/-- The term a message carries, whatever its kind. -/
def Message.term : Message → ℕ
  | .requestVoteRequest value => value.term
  | .requestVoteResponse value => value.term
  | .appendEntriesRequest value => value.term
  | .appendEntriesResponse value => value.term
  | .installSnapshotRequest value => value.term
  | .installSnapshotResponse value => value.term
  | .readBarrierRequest value => value.term
  | .readBarrierResponse value => value.term

/-- `OutboundMessage`. -/
structure OutboundMessage where
  destination : NodeId
  message : Message
  deriving DecidableEq, Repr

/-- `PendingSnapshotInstall`. -/
structure PendingSnapshotInstall where
  source : NodeId
  snapshot : SnapshotMetadata
  deriving DecidableEq, Repr

/-- `ReadBarrier`. -/
structure ReadBarrier where
  term : ℕ
  context : ℕ
  readIndex : ℕ
  deriving DecidableEq, Repr

/-- `Transition`: what a public call hands to the runtime.  A present
`persistentState` is stored before any of `outbound` is sent. -/
structure Transition where
  persistentState : Option PersistentState := none
  outbound : List OutboundMessage := []
  advancedCommitIndex : Option ℕ := none
  snapshotInstall : Option PendingSnapshotInstall := none
  readBarrierReady : Option ReadBarrier := none
  deriving DecidableEq, Repr

/-! ### The log of a persistent state -/

namespace PersistentState

/-- `last_index`. -/
def lastIndex (state : PersistentState) : ℕ :=
  match state.log.getLast? with
  | none => state.snapshot.lastIncludedIndex
  | some entry => entry.index

/-- `last_term`. -/
def lastTerm (state : PersistentState) : ℕ :=
  match state.log.getLast? with
  | none => state.snapshot.lastIncludedTerm
  | some entry => entry.term

/-- `offset_for`. -/
def offsetFor (state : PersistentState) (index : ℕ) : ℕ :=
  index - state.snapshot.lastIncludedIndex - 1

/-- `term_at`. -/
def termAt (state : PersistentState) (index : ℕ) : Option ℕ :=
  if index = 0 then some 0
  else if index = state.snapshot.lastIncludedIndex then some state.snapshot.lastIncludedTerm
  else if index ≤ state.snapshot.lastIncludedIndex ∨ index > state.lastIndex then none
  else state.log[state.offsetFor index]?.map LogEntry.term

/-- `append_predecessor_term`: index zero counts as retained only while no snapshot has compacted
it away. -/
def appendPredecessorTerm (state : PersistentState) (index : ℕ) : Option ℕ :=
  if index < state.snapshot.lastIncludedIndex then none else state.termAt index

end PersistentState

end Chronos.Raft
