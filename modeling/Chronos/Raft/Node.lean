import Chronos.Raft.Membership

/-!
`raft/node.cpp`: the state of a `RaftNode` (its `Impl`), the private helpers of
`Impl`, and `RaftNode::create`.

The containers of the source are modelled by their meaning: a `std::set` is a
`Finset`, a `std::map` from peers to indexes is the function `Progress`, and a
binary search in a sorted voter vector is membership.
-/

namespace Chronos.Raft

/-! ### Limits and the byte budget -/

/-- `kMaximumRaftPersistentStatePayloadSize`. -/
def maximumRaftPersistentStatePayloadSize : ℕ := 16 * 1024 * 1024 - 64 - 4

/-- `RaftLimits`. -/
structure RaftLimits where
  maximumVoters : ℕ := 31
  maximumLogEntries : ℕ := 2 ^ 20
  maximumEntryBytes : ℕ := 16 * 1024 * 1024
  maximumAppendEntries : ℕ := 1024
  maximumPersistentStateBytes : ℕ := maximumRaftPersistentStatePayloadSize
  deriving DecidableEq, Repr

/-- `kRaftPersistentStateFixedSizeV1`. -/
def raftPersistentStateFixedSize : ℕ := 112

/-- `kRaftPersistentLogEntryFixedSizeV1`. -/
def raftPersistentLogEntryFixedSize : ℕ := 32

/-- One round of the loop of `raft_persistent_state_payload_size`. -/
def addEntrySize (size : ℕ) (entry : LogEntry) : Option ℕ := do
  let size ← checkedAdd size raftPersistentLogEntryFixedSize
  checkedAdd size entry.payload.length

/-- `raft_persistent_state_payload_size`; an overflow is `none`. -/
def raftPersistentStatePayloadSize (snapshotVoterCount : ℕ) (log : List LogEntry) : Option ℕ := do
  let voterBytes ← checkedMultiply snapshotVoterCount 8
  let size ← checkedAdd raftPersistentStateFixedSize voterBytes
  log.foldlM addEntrySize size

/-- `persistent_state_fits`. -/
def persistentStateFits (snapshotVoterCount : ℕ) (log : List LogEntry) (limits : RaftLimits) :
    Result Unit :=
  match raftPersistentStatePayloadSize snapshotVoterCount log with
  | some size =>
      if size ≤ limits.maximumPersistentStateBytes then .ok ()
      else .error (exhausted "Raft persistent state exceeds its byte bound")
  | none => .error (exhausted "Raft persistent state exceeds its byte bound")

/-- `appended_entry_fits`. -/
def appendedEntryFits (state : PersistentState) (payloadSize : ℕ) (limits : RaftLimits) :
    Result Unit :=
  match (do
    let size ← raftPersistentStatePayloadSize state.snapshot.voters.length state.log
    let appended ← checkedAdd size raftPersistentLogEntryFixedSize
    checkedAdd appended payloadSize : Option ℕ) with
  | some appended =>
      if appended ≤ limits.maximumPersistentStateBytes then .ok ()
      else .error (exhausted "Raft persistent state exceeds its byte bound")
  | none => .error (exhausted "Raft persistent state exceeds its byte bound")

/-- `valid_snapshot`. -/
def validSnapshot (snapshot : SnapshotMetadata) (maximumVoters : ℕ) : Bool :=
  decide (snapshot.lastIncludedIndex ≠ 0) && decide (snapshot.lastIncludedIndex ≠ u64Max) &&
    decide (snapshot.lastIncludedTerm ≠ 0) && decide (snapshot.manifestGeneration ≠ 0) &&
    decide (snapshot.configurationIndex ≤ snapshot.lastIncludedIndex) &&
    validVoters snapshot.voters maximumVoters

/-! ### The node state -/

/-- `PendingReadBarrier`. -/
structure PendingReadBarrier where
  term : ℕ
  context : ℕ
  readIndex : ℕ
  oldVoters : List NodeId
  newVoters : List NodeId
  acknowledgements : Finset NodeId
  deriving DecidableEq

/-- `std::map<NodeId, ℕ>`: the index tracked for each peer. -/
abbrev Progress := NodeId → Option ℕ

/-- `RaftNode::Impl`. -/
structure RaftNode where
  id : NodeId
  baseVoters : List NodeId
  committedVoters : List NodeId
  voters : List NodeId
  joint : Option JointConfiguration
  state : PersistentState
  limits : RaftLimits
  role : Role := .follower
  leaderId : Option NodeId := none
  votes : Finset NodeId := ∅
  nextIndex : Progress := fun _ => none
  matchIndex : Progress := fun _ => none
  pendingSnapshot : Option InstallSnapshotRequest := none
  pendingReadBarrier : Option PendingReadBarrier := none
  nextReadContext : ℕ := 1

/-- `has_majority`. -/
def hasMajority (members : List NodeId) (predicate : NodeId → Bool) : Bool :=
  decide (members.countP predicate ≥ members.length / 2 + 1)

/-- The quorum test that elections, replication and `prepare` of an append response spell out: a
majority of both voter lists of a joint configuration, else of the committed voters. -/
def configurationQuorum (joint : Option JointConfiguration) (committedVoters : List NodeId)
    (predicate : NodeId → Bool) : Bool :=
  match joint with
  | some joint => hasMajority joint.oldVoters predicate && hasMajority joint.newVoters predicate
  | none => hasMajority committedVoters predicate

/-- The predicate `replicated`: the peer is tracked at `index` or above. -/
def replicated (matchIndex : Progress) (index : ℕ) (node : NodeId) : Bool :=
  match matchIndex node with
  | some found => decide (found ≥ index)
  | none => false

/-- `read_barrier_quorum`. -/
def readBarrierQuorum (pending : PendingReadBarrier) : Bool :=
  hasMajority pending.oldVoters (fun node => decide (node ∈ pending.acknowledgements)) &&
    (pending.newVoters.isEmpty ||
      hasMajority pending.newVoters (fun node => decide (node ∈ pending.acknowledgements)))

/-- The next indexes after a membership change of a leader: peers that are no voters are dropped,
new ones start at `1`, the leader itself behind its last entry. -/
def retrackNext (id : NodeId) (voters : List NodeId) (lastIndex : ℕ)
    (nextIndex : Progress) : Progress := fun peer =>
  if peer ∈ voters then some ((nextIndex peer).getD (if peer = id then lastIndex + 1 else 1))
  else none

/-- The match indexes after a membership change of a leader, see `retrackNext`. -/
def retrackMatch (id : NodeId) (voters : List NodeId) (lastIndex : ℕ)
    (nextIndex matchIndex : Progress) : Progress := fun peer =>
  if peer ∈ voters then
    if nextIndex peer = none then
      some ((matchIndex peer).getD (if peer = id then lastIndex else 0))
    else matchIndex peer
  else if nextIndex peer = none then matchIndex peer else none

/-- The indexes that the commit loops try, the highest first: from `lastIndex` down to above
`commitIndex`. -/
def commitCandidates (lastIndex commitIndex : ℕ) : List ℕ :=
  (List.range (lastIndex - commitIndex)).map fun offset => lastIndex - offset

/-- The commit loop of `advance_commit` and of the append response: the highest index above the
commit index that carries the current term and is replicated on a quorum. -/
def commitCandidate (state : PersistentState) (joint : Option JointConfiguration)
    (committedVoters : List NodeId) (matchIndex : Progress) : Option ℕ :=
  (commitCandidates state.lastIndex state.commitIndex).find? fun candidate =>
    decide (state.termAt candidate = some state.currentTerm) &&
      configurationQuorum joint committedVoters (replicated matchIndex candidate)

/-- `replication_for` on prepared progress.  Every caller tracks the peer, so the failure of
`std::map::at` does not occur; an untracked peer reads as `0` here. -/
def replicationFor (id : NodeId) (state : PersistentState) (limits : RaftLimits) (peer : NodeId)
    (preparedNextIndex : Progress) (leaderCommit : ℕ) : Message :=
  let next := (preparedNextIndex peer).getD 0
  if next ≤ state.snapshot.lastIncludedIndex then
    .installSnapshotRequest ⟨state.currentTerm, id, state.snapshot⟩
  else
    let entries :=
      if next ≤ state.lastIndex then
        (state.log.drop (state.offsetFor next)).take limits.maximumAppendEntries
      else []
    .appendEntriesRequest
      ⟨state.currentTerm, id, next - 1, (state.termAt (next - 1)).getD 0, entries, leaderCommit⟩

/-- `candidate_log_is_current`. -/
def candidateLogIsCurrent (state : PersistentState) (index : ℕ) (term : ℕ) : Bool :=
  decide (term > state.lastTerm ∨ (term = state.lastTerm ∧ index ≥ state.lastIndex))

namespace RaftNode

/-- `voter`. -/
def voter (n : RaftNode) (node : NodeId) : Bool := decide (node ∈ n.voters)

/-- `become_follower`. -/
def becomeFollower (n : RaftNode) (term : ℕ) (leader : Option NodeId) : RaftNode :=
  { n with
    role := .follower
    leaderId := leader
    votes := ∅
    nextIndex := fun _ => none
    matchIndex := fun _ => none
    pendingReadBarrier := none
    state :=
      if term > n.state.currentTerm then { n.state with currentTerm := term, votedFor := none }
      else n.state }

/-- `install_membership`. -/
def installMembership (n : RaftNode) (membership : DerivedMembership) : RaftNode :=
  let installed :=
    { n with
      committedVoters := membership.committedVoters
      voters := membership.activeVoters
      joint := membership.joint }
  if n.role ≠ .leader then installed
  else
    { installed with
      nextIndex := retrackNext n.id membership.activeVoters n.state.lastIndex n.nextIndex
      matchIndex :=
        retrackMatch n.id membership.activeVoters n.state.lastIndex n.nextIndex n.matchIndex }

/-- `step_down_if_removed`. -/
def stepDownIfRemoved (n : RaftNode) : RaftNode :=
  if n.role = .leader ∧ n.voter n.id = false then n.becomeFollower n.state.currentTerm none else n

/-- `replication_for` on the node's own progress. -/
def replicationForPeer (n : RaftNode) (peer : NodeId) : Message :=
  replicationFor n.id n.state n.limits peer n.nextIndex n.state.commitIndex

/-- `append_to_all`: the messages to every other voter. -/
def appendToAll (n : RaftNode) : List OutboundMessage :=
  (n.voters.filter (· ≠ n.id)).map fun peer => ⟨peer, n.replicationForPeer peer⟩

/-- `advance_commit`: the node after the loop and the index it advanced to. -/
def advanceCommit (n : RaftNode) : Result (RaftNode × Option ℕ) :=
  match commitCandidate n.state n.joint n.committedVoters n.matchIndex with
  | none => .ok (n, none)
  | some candidate => do
      let membership ← deriveMembership n.baseVoters n.state.log candidate n.limits.maximumVoters
      .ok (({ n with state := { n.state with commitIndex := candidate } }).installMembership
        membership, some candidate)

/-- The log push that opens both append functions. -/
def pushEntry (n : RaftNode) (type : UInt8) (payload : List UInt8) : RaftNode :=
  { n with
    state :=
      { n.state with
        log := n.state.log ++ [⟨n.state.lastIndex + 1, n.state.currentTerm, type, payload⟩] } }

/-- The leader's own progress moves to its new last entry; it fails when the leader does not track
itself. -/
def trackSelf (n : RaftNode) : Result RaftNode :=
  match n.matchIndex n.id, n.nextIndex n.id with
  | some _, some _ =>
      .ok { n with
        matchIndex := Function.update n.matchIndex n.id (some n.state.lastIndex)
        nextIndex := Function.update n.nextIndex n.id (some (n.state.lastIndex + 1)) }
  | _, _ => .error (corruption "Raft leader self progress is unavailable")

/-- `append_local_entry`, on the copy that the public calls prepare. -/
def appendLocalEntry (n : RaftNode) (type : UInt8) (payload : List UInt8) :
    Result (RaftNode × Transition) := do
  let tracked ← (n.pushEntry type payload).trackSelf
  let (advanced, commit) ← tracked.advanceCommit
  .ok (advanced, { persistentState := some advanced.state
                   outbound := advanced.appendToAll
                   advancedCommitIndex := commit })

/-- `append_membership_entry`, on the copy that the public calls prepare. -/
def appendMembershipEntry (n : RaftNode) (type : UInt8) (payload : List UInt8) :
    Result (RaftNode × Transition) := do
  let pushed := n.pushEntry type payload
  let membership ← deriveMembership pushed.baseVoters pushed.state.log pushed.state.commitIndex
    pushed.limits.maximumVoters
  let tracked ← (pushed.installMembership membership).trackSelf
  let (advanced, commit) ← tracked.advanceCommit
  let final := advanced.stepDownIfRemoved
  .ok (final, { persistentState := some final.state
                outbound := advanced.appendToAll
                advancedCommitIndex := commit })

/-! ### Creation -/

/-- The test of one entry in the loop of `create`, at the expected index. -/
def persistentEntryValid (limits : RaftLimits) (currentTerm : ℕ) (expected : ℕ)
    (entry : LogEntry) : Result Unit :=
  if entry.index ≠ expected ∨ entry.index = u64Max ∨ entry.term = 0 ∨
      entry.term > currentTerm ∨ entry.type = 0 ∨
      entry.payload.length > limits.maximumEntryBytes then
    .error (invalid "Raft persistent log is not contiguous or bounded")
  else if entry.type = leaderNoopEntryType ∧ entry.payload ≠ [] then
    .error (invalid "Raft leader no-op entry has a payload")
  else .ok ()

/-- The loop of `create` over the persistent log.  The overflow test of the source cannot fire,
since an entry at the maximal index is rejected first. -/
def persistentLogValid (limits : RaftLimits) (currentTerm : ℕ) :
    ℕ → List LogEntry → Result Unit
  | _, [] => .ok ()
  | expected, entry :: log => do
      persistentEntryValid limits currentTerm expected entry
      persistentLogValid limits currentTerm (expected + 1) log

/-- Whether empty snapshot metadata is not the canonical default. -/
def noncanonicalEmptySnapshot (snapshot : SnapshotMetadata) : Bool :=
  decide (snapshot.lastIncludedTerm ≠ 0) || decide (snapshot.manifestGeneration ≠ 0) ||
    snapshot.partSetChecksum.toList.any (· ≠ 0) ||
    decide (snapshot.configurationIndex ≠ 0) || !snapshot.voters.isEmpty

/-- The voters that `create` derives the membership from: those of the snapshot, if it has any. -/
def createBase (voters : List NodeId) (persistent : PersistentState) : List NodeId :=
  if persistent.snapshot.lastIncludedIndex ≠ 0 ∧ persistent.snapshot.voters ≠ [] then
    persistent.snapshot.voters
  else voters.insertionSort (· ≤ ·)

/-- The state that `create` keeps: a snapshot without voters gets the bootstrap voters. -/
def createState (voters : List NodeId) (persistent : PersistentState) : PersistentState :=
  if persistent.snapshot.lastIncludedIndex ≠ 0 ∧ persistent.snapshot.voters = [] then
    { persistent with
      snapshot := { persistent.snapshot with voters := voters.insertionSort (· ≤ ·) } }
  else persistent

/-- The end of `create`, on the state it keeps: the capacity, the snapshot, the membership and the
index tests. -/
def createChecked (nodeId : NodeId) (baseVoters : List NodeId) (state : PersistentState)
    (limits : RaftLimits) : Result RaftNode :=
  if state.log.length > limits.maximumLogEntries then
    .error (invalid "Raft persistent log exceeds configured capacity")
  else if state.snapshot.lastIncludedIndex ≠ 0 ∧
      validSnapshot state.snapshot limits.maximumVoters = false then
    .error (invalid "Raft snapshot membership checkpoint is invalid")
  else if Result.isOk (persistentStateFits state.snapshot.voters.length state.log limits) =
      false then
    .error (invalid "Raft persistent state exceeds configured capacity")
  else do
    let membership ← deriveMembership baseVoters state.log state.commitIndex limits.maximumVoters
    if state.commitIndex < state.snapshot.lastIncludedIndex ∨
        state.commitIndex > state.lastIndex ∨
        state.appliedIndex < state.snapshot.lastIncludedIndex ∨
        state.appliedIndex > state.commitIndex ∨ state.votedFor = some 0 then
      .error (invalid "Raft persistent commit, apply, or vote state invalid")
    else
      .ok { id := nodeId
            baseVoters := baseVoters
            committedVoters := membership.committedVoters
            voters := membership.activeVoters
            joint := membership.joint
            state := state
            limits := limits }

/-- `RaftNode::create`. -/
def create (nodeId : NodeId) (voters : List NodeId) (persistent : PersistentState)
    (limits : RaftLimits) : Result RaftNode :=
  if nodeId = 0 ∨ voters = [] ∨ voters.length > limits.maximumVoters ∨ limits.maximumVoters = 0 ∨
      limits.maximumVoters > maximumMembershipVoters ∨ limits.maximumLogEntries = 0 ∨
      limits.maximumEntryBytes = 0 ∨ limits.maximumAppendEntries = 0 ∨
      limits.maximumPersistentStateBytes = 0 ∨
      limits.maximumPersistentStateBytes > maximumRaftPersistentStatePayloadSize then
    .error (invalid "Raft identity, membership, or limits are invalid")
  else if (voters.insertionSort (· ≤ ·)).head? = some 0 ∨
      ¬ (voters.insertionSort (· ≤ ·)).Pairwise (· < ·) then
    .error (invalid "Raft voters must be unique and nonzero")
  else if persistent.currentTerm = 0 ∧ persistent.votedFor ≠ none then
    .error (invalid "Raft term-zero state cannot contain a vote")
  else if persistent.snapshot.lastIncludedIndex = 0 ∧
      noncanonicalEmptySnapshot persistent.snapshot then
    .error (invalid "Raft empty snapshot metadata is noncanonical")
  else if persistent.snapshot.lastIncludedIndex = u64Max then
    .error (invalid "Raft maximum log index is reserved for exhaustion detection")
  else if persistent.snapshot.lastIncludedTerm > persistent.currentTerm then
    .error (invalid "Raft snapshot term exceeds the current term")
  else do
    persistentLogValid limits persistent.currentTerm
      (persistent.snapshot.lastIncludedIndex + 1) persistent.log
    createChecked nodeId (createBase voters persistent) (createState voters persistent) limits

end RaftNode

end Chronos.Raft
