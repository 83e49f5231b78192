import Chronos.Raft.Receive

/-!
The other public calls of `RaftNode` in `raft/node.cpp`, and the type `Call` of
all mutating public calls with `RaftNode.perform`, which runs one.
-/

namespace Chronos.Raft

namespace RaftNode

/-- `start_election`. -/
def startElection (n : RaftNode) : RaftNode × Result Transition :=
  if n.voter n.id = false then
    (n, .error (unavailable "nonvoting Raft member cannot start an election"))
  else if n.state.currentTerm = u64Max ∨ n.state.lastIndex = u64Max then
    (n, .error ⟨.outOfRange, "Raft term or log index is exhausted"⟩)
  else
    let state :=
      { n.state with currentTerm := n.state.currentTerm + 1, votedFor := some n.id }
    let campaigning :=
      { n with state := state, votes := {n.id}, pendingReadBarrier := none }
    if configurationQuorum n.joint n.committedVoters fun node => decide (node = n.id) then
      ({ campaigning with
          role := .leader
          leaderId := some n.id
          nextIndex := initialNext n.voters n.state.lastIndex
          matchIndex := initialMatch n.id n.voters n.state.lastIndex },
        .ok { persistentState := some state
              outbound := announcements n.id n.voters n.state state.currentTerm })
    else
      ({ campaigning with role := .candidate, leaderId := none },
        .ok { persistentState := some state
              outbound := (n.voters.filter (· ≠ n.id)).map fun peer =>
                ⟨peer, .requestVoteRequest
                  ⟨state.currentTerm, n.id, n.state.lastIndex, n.state.lastTerm⟩⟩ })

/-- The end of every call that works on a copy: the copy is installed if it succeeded. -/
def installPrepared (n : RaftNode) (appended : Result (RaftNode × Transition)) :
    RaftNode × Result Transition :=
  match appended with
  | .error status => (n, .error status)
  | .ok (prepared, transition) => (prepared, .ok transition)

/-- `propose`. -/
def propose (n : RaftNode) (type : UInt8) (payload : List UInt8) : RaftNode × Result Transition :=
  if n.role ≠ .leader then
    (n, .error (unavailable "Raft proposal requires current leader"))
  else if type = 0 ∨ isInternalRaftEntryType type ∨
      payload.length > n.limits.maximumEntryBytes ∨
      n.state.log.length ≥ n.limits.maximumLogEntries ∨ n.state.lastIndex ≥ u64Max - 1 then
    (n, .error (invalid "Raft proposal type, size, or log bound invalid"))
  else match appendedEntryFits n.state payload.length n.limits with
    | .error status => (n, .error status)
    | .ok () => n.installPrepared (n.appendLocalEntry type payload)

/-- `commit_current_term`. -/
def commitCurrentTerm (n : RaftNode) : RaftNode × Result Transition :=
  if n.role ≠ .leader then
    (n, .error (unavailable "current-term progress requires current Raft leader"))
  else if n.state.log.any (·.term = n.state.currentTerm) then (n, .ok {})
  else if n.state.log.length ≥ n.limits.maximumLogEntries ∨
      n.state.lastIndex ≥ u64Max - 1 then
    (n, .error (invalid "Raft current-term no-op exceeds log bounds"))
  else match appendedEntryFits n.state 0 n.limits with
    | .error status => (n, .error status)
    | .ok () => n.installPrepared (n.appendLocalEntry leaderNoopEntryType [])

/-- `propose_exact_retained`.  Among the entries with the same type and payload, a committed one
or one of the current term settles the call; an older uncommitted one asks for progress. -/
def proposeExactRetained (n : RaftNode) (type : UInt8) (payload : List UInt8) :
    RaftNode × Result Transition :=
  let retained := n.state.log.filter fun entry => entry.type = type ∧ entry.payload = payload
  if n.role ≠ .leader then
    (n, .error (unavailable "Raft proposal requires current leader"))
  else if type = 0 ∨ isInternalRaftEntryType type ∨
      payload.length > n.limits.maximumEntryBytes then
    (n, .error (invalid "Raft proposal type or size invalid"))
  else if retained.any fun entry =>
      entry.index ≤ n.state.commitIndex ∨ entry.term = n.state.currentTerm then
    (n, .ok {})
  else if retained ≠ [] then n.commitCurrentTerm
  else n.propose type payload

/-- `begin_membership_change`. -/
def beginMembershipChange (n : RaftNode) (voters : List NodeId) : RaftNode × Result Transition :=
  let newVoters := voters.insertionSort (· ≤ ·)
  if n.role ≠ .leader then
    (n, .error (unavailable "membership change requires current Raft leader"))
  else if n.pendingReadBarrier.isSome then
    (n, .error (unavailable "membership change cannot start while a Raft read barrier is pending"))
  else match n.joint with
    | some joint =>
        if joint.oldVoters = n.committedVoters ∧ joint.newVoters = newVoters then
          if joint.jointIndex ≤ n.state.commitIndex ∨
              n.state.termAt joint.jointIndex = some n.state.currentTerm then
            (n, .ok {})
          else n.commitCurrentTerm
        else (n, .error (invalid "Raft membership change is invalid or another change is active"))
    | none =>
        if validVoters newVoters n.limits.maximumVoters = false ∨ newVoters = n.committedVoters ∨
            (voterUnion n.committedVoters newVoters).length > n.limits.maximumVoters ∨
            n.state.log.length ≥ n.limits.maximumLogEntries ∨
            n.state.lastIndex ≥ u64Max - 1 then
          (n, .error (invalid "Raft membership change is invalid or another change is active"))
        else match encodeMembershipCommand (.joint n.committedVoters newVoters)
            n.limits.maximumVoters with
          | .error status => (n, .error status)
          | .ok payload =>
              if payload.length > n.limits.maximumEntryBytes then
                (n, .error (invalid "Raft membership command exceeds entry size limit"))
              else match appendedEntryFits n.state payload.length n.limits with
                | .error status => (n, .error status)
                | .ok () =>
                    n.installPrepared (n.appendMembershipEntry jointMembershipEntryType payload)

/-- `finalize_membership_change`. -/
def finalizeMembershipChange (n : RaftNode) : RaftNode × Result Transition :=
  if n.role ≠ .leader then
    (n, .error (unavailable "membership change requires current Raft leader"))
  else if n.pendingReadBarrier.isSome then
    (n, .error
      (unavailable "membership change cannot finalize while a Raft read barrier is pending"))
  else match n.joint with
    | none => (n, .error (invalid "joint membership must commit before it can be finalized"))
    | some joint =>
        if joint.finalPending then
          if (n.state.log.reverse.find? (·.type = finalMembershipEntryType)).any fun final =>
              final.index ≤ n.state.commitIndex ∨ final.term = n.state.currentTerm then
            (n, .ok {})
          else n.commitCurrentTerm
        else if joint.jointIndex > n.state.commitIndex ∨
            n.state.log.length ≥ n.limits.maximumLogEntries ∨
            n.state.lastIndex ≥ u64Max - 1 then
          (n, .error (invalid "joint membership must commit before it can be finalized"))
        else match encodeMembershipCommand (.final joint.jointIndex joint.newVoters)
            n.limits.maximumVoters with
          | .error status => (n, .error status)
          | .ok payload =>
              if payload.length > n.limits.maximumEntryBytes then
                (n, .error (invalid "Raft membership command exceeds entry size limit"))
              else match appendedEntryFits n.state payload.length n.limits with
                | .error status => (n, .error status)
                | .ok () =>
                    n.installPrepared (n.appendMembershipEntry finalMembershipEntryType payload)

/-! ### Snapshots -/

/-- The entries that survive the installation of a snapshot: those behind it, if the local log
agrees with it at its boundary. -/
def retainedAfter (state : PersistentState) (snapshot : SnapshotMetadata) : List LogEntry :=
  if state.termAt snapshot.lastIncludedIndex = some snapshot.lastIncludedTerm ∧
      snapshot.lastIncludedIndex < state.lastIndex then
    state.log.drop (state.offsetFor snapshot.lastIncludedIndex + 1)
  else []

/-- The persistent state after the installation of a snapshot. -/
def installedState (state : PersistentState) (snapshot : SnapshotMetadata) : PersistentState :=
  { state with
    snapshot := snapshot
    log := retainedAfter state snapshot
    commitIndex := max state.commitIndex snapshot.lastIncludedIndex
    appliedIndex := max state.appliedIndex snapshot.lastIncludedIndex }

/-- `complete_snapshot_install`. -/
def completeSnapshotInstall (n : RaftNode) (source : NodeId) (snapshot : SnapshotMetadata)
    (installed : Bool) : RaftNode × Result Transition :=
  match n.pendingSnapshot with
  | none => (n, .error (invalid "snapshot completion does not match pending install"))
  | some pending =>
      if source ≠ pending.leaderId ∨ snapshot ≠ pending.snapshot then
        (n, .error (invalid "snapshot completion does not match pending install"))
      else if installed = false ∨ pending.term ≠ n.state.currentTerm then
        ({ n with pendingSnapshot := none },
          .ok { outbound := [⟨source, .installSnapshotResponse
            ⟨n.state.currentTerm, false, n.state.snapshot.lastIncludedIndex⟩⟩] })
      else if snapshot.lastIncludedIndex < n.state.commitIndex ∧
          n.state.termAt snapshot.lastIncludedIndex ≠ some snapshot.lastIncludedTerm then
        (n, .error (corruption "installed snapshot conflicts with the local committed prefix"))
      else
        let state := installedState n.state snapshot
        match deriveMembership snapshot.voters state.log state.commitIndex
            n.limits.maximumVoters with
        | .error status => (n, .error status)
        | .ok membership =>
            match persistentStateFits snapshot.voters.length state.log n.limits with
            | .error status => (n, .error status)
            | .ok () =>
                ({ n with
                    pendingSnapshot := none
                    state := state
                    baseVoters := snapshot.voters
                    committedVoters := membership.committedVoters
                    voters := membership.activeVoters
                    joint := membership.joint },
                  .ok { persistentState := some state
                        advancedCommitIndex := some state.commitIndex
                        outbound := [⟨source, .installSnapshotResponse
                          ⟨state.currentTerm, true, snapshot.lastIncludedIndex⟩⟩] })

/-- The index of the last final entry that a snapshot covers, or that of the earlier snapshot. -/
def coveredConfiguration (covered : List LogEntry) (earlier : ℕ) : ℕ :=
  match covered.reverse.find? (·.type = finalMembershipEntryType) with
  | some entry => entry.index
  | none => earlier

/-- `prepare_snapshot_metadata`. -/
def prepareSnapshotMetadata (n : RaftNode) (snapshot : SnapshotMetadata) :
    Result SnapshotMetadata :=
  if n.pendingSnapshot.isSome then
    .error (unavailable "local Raft compaction cannot race a pending snapshot installation")
  else if n.joint.isSome ∨
      snapshot.lastIncludedIndex ≤ n.state.snapshot.lastIncludedIndex ∨
      snapshot.lastIncludedIndex > n.state.appliedIndex ∨ snapshot.lastIncludedTerm = 0 ∨
      snapshot.manifestGeneration = 0 ∨
      n.state.termAt snapshot.lastIncludedIndex ≠ some snapshot.lastIncludedTerm then
    .error (invalid "Raft snapshot must cover an applied stable-configuration prefix")
  else do
    let retainedOffset := n.state.offsetFor snapshot.lastIncludedIndex + 1
    let covered := n.state.log.take retainedOffset
    let checkpoint ← deriveMembership n.baseVoters covered snapshot.lastIncludedIndex
      n.limits.maximumVoters
    if checkpoint.joint.isSome then
      .error (invalid "Raft snapshot must cover an applied stable-configuration prefix")
    else
      let prepared :=
        { snapshot with
          voters := checkpoint.committedVoters
          configurationIndex := coveredConfiguration covered n.state.snapshot.configurationIndex }
      if validSnapshot prepared n.limits.maximumVoters = false then
        .error (invalid "Raft snapshot metadata is invalid")
      else do
        persistentStateFits prepared.voters.length (n.state.log.drop retainedOffset) n.limits
        .ok prepared

/-- `compact_snapshot`. -/
def compactSnapshot (n : RaftNode) (snapshot : SnapshotMetadata) :
    RaftNode × Result Transition :=
  match n.prepareSnapshotMetadata snapshot with
  | .error status => (n, .error status)
  | .ok prepared =>
      let state :=
        { n.state with
          log := n.state.log.drop (n.state.offsetFor prepared.lastIncludedIndex + 1)
          snapshot := prepared }
      ({ n with state := state, baseVoters := prepared.voters },
        .ok { persistentState := some state })

/-! ### Leadership and application -/

/-- `heartbeat`. -/
def heartbeat (n : RaftNode) : RaftNode × Result Transition :=
  if n.role ≠ .leader then
    (n, .error (unavailable "Raft heartbeat requires current leader"))
  else (n, .ok { outbound := n.appendToAll })

/-- The barrier that `begin_read_barrier` opens. -/
def openBarrier (n : RaftNode) : PendingReadBarrier where
  term := n.state.currentTerm
  context := n.nextReadContext
  readIndex := n.state.commitIndex
  oldVoters := match n.joint with | some joint => joint.oldVoters | none => n.committedVoters
  newVoters := match n.joint with | some joint => joint.newVoters | none => []
  acknowledgements := {n.id}

/-- `begin_read_barrier`.  An exhausted context counter stays at zero. -/
def beginReadBarrier (n : RaftNode) : RaftNode × Result Transition :=
  if n.role ≠ .leader then
    (n, .error (unavailable "Raft read barrier requires current leader"))
  else if n.pendingReadBarrier.isSome then
    (n, .error (unavailable "a Raft read barrier is already pending"))
  else if n.state.commitIndex = 0 ∨
      n.state.termAt n.state.commitIndex ≠ some n.state.currentTerm then
    (n, .error
      (unavailable "Raft leader must commit a current-term entry before confirming reads"))
  else if n.nextReadContext = 0 then
    (n, .error ⟨.outOfRange, "Raft read-barrier context is exhausted"⟩)
  else
    let pending := n.openBarrier
    let advanced :=
      { n with
        nextReadContext := if n.nextReadContext = u64Max then 0 else n.nextReadContext + 1 }
    if readBarrierQuorum pending then
      (advanced, .ok
        { readBarrierReady := some ⟨pending.term, pending.context, pending.readIndex⟩ })
    else
      ({ advanced with pendingReadBarrier := some pending }, .ok
        { outbound := (n.voters.filter (· ≠ n.id)).map fun peer =>
            ⟨peer, .readBarrierRequest ⟨n.state.currentTerm, n.id, n.nextReadContext⟩⟩ })

/-- `mark_applied`. -/
def markApplied (n : RaftNode) (index : ℕ) : RaftNode × Result Transition :=
  if index < n.state.appliedIndex ∨ index > n.state.commitIndex then
    (n, .error (invalid "Raft applied index must advance within the committed prefix"))
  else if index = n.state.appliedIndex then (n, .ok {})
  else
    let state := { n.state with appliedIndex := index }
    ({ n with state := state }, .ok { persistentState := some state })

end RaftNode

/-! ### All public calls -/

/-- The mutating public calls of `RaftNode`. -/
inductive Call where
  | startElection
  | receive (source : NodeId) (message : Message)
  | propose (type : UInt8) (payload : List UInt8)
  | proposeExactRetained (type : UInt8) (payload : List UInt8)
  | commitCurrentTerm
  | beginMembershipChange (voters : List NodeId)
  | finalizeMembershipChange
  | completeSnapshotInstall (source : NodeId) (snapshot : SnapshotMetadata) (installed : Bool)
  | compactSnapshot (snapshot : SnapshotMetadata)
  | heartbeat
  | beginReadBarrier
  | markApplied (index : ℕ)
  deriving DecidableEq

/-- One public call: the node afterwards and the result. -/
def RaftNode.perform (n : RaftNode) : Call → RaftNode × Result Transition
  | .startElection => n.startElection
  | .receive source message => n.receive source message
  | .propose type payload => n.propose type payload
  | .proposeExactRetained type payload => n.proposeExactRetained type payload
  | .commitCurrentTerm => n.commitCurrentTerm
  | .beginMembershipChange voters => n.beginMembershipChange voters
  | .finalizeMembershipChange => n.finalizeMembershipChange
  | .completeSnapshotInstall source snapshot installed =>
      n.completeSnapshotInstall source snapshot installed
  | .compactSnapshot snapshot => n.compactSnapshot snapshot
  | .heartbeat => n.heartbeat
  | .beginReadBarrier => n.beginReadBarrier
  | .markApplied index => n.markApplied index

end Chronos.Raft
