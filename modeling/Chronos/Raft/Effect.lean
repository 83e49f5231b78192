import Chronos.Raft.Operations

/-!
What a public call can do to a node, said once.

`Effect n call n' transition` lists, one constructor for each path through the
source, the node and the transition that a successful call leaves, with the
guards the path has passed.  `Chronos.Raft.Inversion` derives it from `perform`;
everything later that is proved about calls is proved by cases on `Effect`.
-/

namespace Chronos.Raft

namespace RaftNode

/-! ### The nodes a call can leave -/

/-- The node after the term of a message has been observed. -/
def observe (n : RaftNode) (term : ℕ) : RaftNode :=
  if term > n.state.currentTerm then n.becomeFollower term none else n

/-- The node after it has started an election. -/
def campaign (n : RaftNode) : RaftNode :=
  { n with
    state := { n.state with currentTerm := n.state.currentTerm + 1, votedFor := some n.id }
    votes := {n.id}
    role := .candidate
    leaderId := none
    pendingReadBarrier := none }

/-- The node that has just won an election with the votes `votes`. -/
def elected (n : RaftNode) (votes : Finset NodeId) : RaftNode :=
  { n with
    votes := votes
    role := .leader
    leaderId := some n.id
    nextIndex := initialNext n.voters n.state.lastIndex
    matchIndex := initialMatch n.id n.voters n.state.lastIndex
    pendingReadBarrier := none }

/-- The node that has granted its vote. -/
def grant (n : RaftNode) (source : NodeId) : RaftNode :=
  { n with
    state := { n.state with votedFor := some source }
    role := .follower
    leaderId := none }

/-- The persistent state after an accepted append request. -/
def acceptedState (n : RaftNode) (request : AppendEntriesRequest) (validated : ValidatedAppend) :
    PersistentState :=
  { n.state with
    currentTerm := request.term
    votedFor := if request.term > n.state.currentTerm then none else n.state.votedFor
    log := validated.log
    commitIndex := validated.commit }

/-- The node after an accepted append request. -/
def accept (n : RaftNode) (source : NodeId) (request : AppendEntriesRequest)
    (validated : ValidatedAppend) : RaftNode :=
  { n.becomeFollower request.term (some source) with
    state := n.acceptedState request validated
    committedVoters := validated.membership.committedVoters
    voters := validated.membership.activeVoters
    joint := validated.membership.joint }

/-- The leader after a peer has confirmed its log up to `index`. -/
def progress (n : RaftNode) (peer : NodeId) (matched : ℕ) : RaftNode :=
  { n with
    matchIndex := Function.update n.matchIndex peer (some matched)
    nextIndex := Function.update n.nextIndex peer (some (matched + 1)) }

/-- The leader after a peer has rejected an append. -/
def backOff (n : RaftNode) (peer : NodeId) (next : ℕ) : RaftNode :=
  { n with nextIndex := Function.update n.nextIndex peer (some next) }

/-- The leader after its commit index has moved under a new membership. -/
def commitTo (n : RaftNode) (commit : ℕ) (membership : DerivedMembership) : RaftNode :=
  ({ n with state := { n.state with commitIndex := commit } }).installMembership membership

/-- The leader after its own progress has moved to its last entry. -/
def selfTracked (n : RaftNode) : RaftNode :=
  { n with
    matchIndex := Function.update n.matchIndex n.id (some n.state.lastIndex)
    nextIndex := Function.update n.nextIndex n.id (some (n.state.lastIndex + 1)) }

/-- The node after a snapshot has been installed. -/
def installed (n : RaftNode) (snapshot : SnapshotMetadata) (membership : DerivedMembership) :
    RaftNode :=
  { n with
    pendingSnapshot := none
    state := installedState n.state snapshot
    baseVoters := snapshot.voters
    committedVoters := membership.committedVoters
    voters := membership.activeVoters
    joint := membership.joint }

/-- The node after its log has been compacted. -/
def compacted (n : RaftNode) (snapshot : SnapshotMetadata) : RaftNode :=
  { n with
    state :=
      { n.state with
        log := n.state.log.drop (n.state.offsetFor snapshot.lastIncludedIndex + 1)
        snapshot := snapshot }
    baseVoters := snapshot.voters }

/-- The context counter after a barrier has been opened. -/
def nextContext (n : RaftNode) : RaftNode :=
  { n with nextReadContext := if n.nextReadContext = u64Max then 0 else n.nextReadContext + 1 }

/-- The state a call reports after observing a term: only a newer one. -/
def observedState (n : RaftNode) (term : ℕ) : Option PersistentState :=
  if term > n.state.currentTerm then some (n.observe term).state else none

end RaftNode

/-- `advance_commit`: nothing to commit, or a move of the commit index under the membership that is
derived for it. -/
inductive Advanced (n : RaftNode) : RaftNode → Option ℕ → Prop where
  | none : Advanced n n none
  | some (commit : ℕ) (membership : DerivedMembership)
      (candidate : commitCandidate n.state n.joint n.committedVoters n.matchIndex = .some commit)
      (derived : deriveMembership n.baseVoters n.state.log commit n.limits.maximumVoters =
        .ok membership) :
      Advanced n (n.commitTo commit membership) (.some commit)

/-- The answers to a message that is only observed. -/
def refusal (n : RaftNode) (source : NodeId) : Message → List OutboundMessage
  | .requestVoteRequest request =>
      [⟨source, .requestVoteResponse ⟨max n.state.currentTerm request.term, false⟩⟩]
  | .appendEntriesRequest _ =>
      [⟨source, .appendEntriesResponse
        ⟨n.state.currentTerm, false, n.state.lastIndex, none, n.state.lastIndex + 1⟩⟩]
  | .installSnapshotRequest _ =>
      [⟨source, .installSnapshotResponse
        ⟨n.state.currentTerm, false, n.state.snapshot.lastIncludedIndex⟩⟩]
  | .readBarrierRequest request =>
      [⟨source, .readBarrierResponse ⟨n.state.currentTerm, request.context, false⟩⟩]
  | _ => []

/-- The calls by which a leader may append to its log. -/
def Call.appends : Call → Bool
  | .propose _ _ => true
  | .proposeExactRetained _ _ => true
  | .commitCurrentTerm => true
  | .beginMembershipChange _ => true
  | .finalizeMembershipChange => true
  | _ => false

/-- The guards that every received message has passed. -/
structure Received (n : RaftNode) (source : NodeId) (message : Message)
    (validated : Option ValidatedAppend) : Prop where
  source_ne_zero : source ≠ 0
  source_ne_self : source ≠ n.id
  active : n.voter source = true ∨ message.isLearnerReplicationRequest = true
  valid : validateMessage n source message = .ok validated

/-- A leader waits for this acknowledgement of its pending read barrier. -/
structure Awaits (n : RaftNode) (response : ReadBarrierResponse) (pending : PendingReadBarrier) :
    Prop where
  isPending : n.pendingReadBarrier = some pending
  term : response.term = n.state.currentTerm
  leader : n.role = .leader
  accepted : response.accepted = true
  context : response.context = pending.context
  barrierTerm : response.term = pending.term

/-- A leader gets a response of its term from a peer that it tracks. -/
structure Answered (n : RaftNode) (source : NodeId) (answer : ℕ) : Prop where
  term : answer = n.state.currentTerm
  leader : n.role = .leader
  trackedNext : n.nextIndex source ≠ none

/-- A leader that `begin_read_barrier` lets open a barrier. -/
structure MayOpen (n : RaftNode) : Prop where
  leader : n.role = .leader
  none : n.pendingReadBarrier = none
  commit : n.state.commitIndex ≠ 0
  term : n.state.termAt n.state.commitIndex = some n.state.currentTerm
  context : n.nextReadContext ≠ 0

/-- A leader with room for one more entry. -/
structure Appendable (n : RaftNode) (payload : List UInt8) : Prop where
  leader : n.role = .leader
  bytes : payload.length ≤ n.limits.maximumEntryBytes
  entries : n.state.log.length < n.limits.maximumLogEntries
  index : n.state.lastIndex < u64Max - 1
  fits : appendedEntryFits n.state payload.length n.limits = .ok ()

/-- An entry that is no membership command; a no-op has no payload. -/
structure PlainEntry (type : UInt8) (payload : List UInt8) : Prop where
  type_ne : type ≠ 0
  plain : isMembershipEntryType type = false
  noop : type = leaderNoopEntryType → payload = []

/-- A membership entry that a leader appends, with the membership of the log it gives. -/
structure MembershipEntry (n : RaftNode) (type : UInt8) (payload : List UInt8)
    (membership : DerivedMembership) : Prop extends Appendable n payload where
  type_mem : isMembershipEntryType type = true
  derived : deriveMembership n.baseVoters (n.pushEntry type payload).state.log
    n.state.commitIndex n.limits.maximumVoters = .ok membership
  tracked : ((n.pushEntry type payload).installMembership membership).matchIndex n.id ≠ none
  trackedNext : ((n.pushEntry type payload).installMembership membership).nextIndex n.id ≠ none

/-- The pending snapshot that a node installs, with the membership of the log it leaves. -/
structure Installs (n : RaftNode) (pending : InstallSnapshotRequest)
    (membership : DerivedMembership) : Prop where
  isPending : n.pendingSnapshot = some pending
  term : pending.term = n.state.currentTerm
  agrees : pending.snapshot.lastIncludedIndex < n.state.commitIndex →
    n.state.termAt pending.snapshot.lastIncludedIndex = some pending.snapshot.lastIncludedTerm
  derived : deriveMembership pending.snapshot.voters
    (RaftNode.installedState n.state pending.snapshot).log
    (RaftNode.installedState n.state pending.snapshot).commitIndex
    n.limits.maximumVoters = .ok membership
  fits : persistentStateFits pending.snapshot.voters.length
    (RaftNode.installedState n.state pending.snapshot).log n.limits = .ok ()

/-- A granted vote that a candidate counts. -/
structure Counts (n : RaftNode) (response : RequestVoteResponse) : Prop where
  term : response.term = n.state.currentTerm
  candidate : n.role = .candidate
  grants : response.granted = true

/-- A message that changes nothing beyond the term it carries: a refused or stale request, or a
response that the node is no longer waiting for. -/
def OnlyObserved (n : RaftNode) (source : NodeId) : Message → Prop
  | .requestVoteRequest request => voteGranted n source request = false
  | .requestVoteResponse response =>
      ¬ (response.term = n.state.currentTerm ∧ n.role = .candidate ∧ response.granted = true)
  | .appendEntriesRequest request => request.term < n.state.currentTerm
  | .appendEntriesResponse response =>
      ¬ (response.term = n.state.currentTerm ∧ n.role = .leader)
  | .installSnapshotRequest request => request.term < n.state.currentTerm
  | .installSnapshotResponse response =>
      ¬ (response.term = n.state.currentTerm ∧ n.role = .leader)
  | .readBarrierRequest request => request.term < n.state.currentTerm
  | .readBarrierResponse response => ¬ ∃ pending, Awaits n response pending

/-- **The effect of a successful public call**, one constructor for each path of the source. -/
inductive Effect (n : RaftNode) : Call → RaftNode → Transition → Prop where
  /-- A call that finds its work already done. -/
  | unchanged (call : Call) : Effect n call n {}
  /-- `start_election` of a node that needs other votes. -/
  | campaigned (voter : n.voter n.id = true) (term : n.state.currentTerm ≠ u64Max)
      (quorum : configurationQuorum n.joint n.committedVoters (fun node => decide (node = n.id))
        = false) :
      Effect n .startElection n.campaign
        { persistentState := some n.campaign.state
          outbound := (n.voters.filter (· ≠ n.id)).map fun peer =>
            ⟨peer, .requestVoteRequest
              ⟨n.state.currentTerm + 1, n.id, n.state.lastIndex, n.state.lastTerm⟩⟩ }
  /-- `start_election` of a node whose own vote is a quorum. -/
  | campaignWon (voter : n.voter n.id = true) (term : n.state.currentTerm ≠ u64Max)
      (quorum : configurationQuorum n.joint n.committedVoters (fun node => decide (node = n.id))
        = true) :
      Effect n .startElection (n.campaign.elected {n.id})
        { persistentState := some n.campaign.state
          outbound := announcements n.id n.voters n.state (n.state.currentTerm + 1) }
  /-- A leader appends a proposal or a no-op. -/
  | appendedLocal {call type payload next commit} (appends : call.appends = true)
      (entry : PlainEntry type payload) (room : Appendable n payload)
      (tracked : n.matchIndex n.id ≠ none) (trackedNext : n.nextIndex n.id ≠ none)
      (advanced : Advanced (n.pushEntry type payload).selfTracked next commit) :
      Effect n call next
        { persistentState := some next.state
          outbound := next.appendToAll
          advancedCommitIndex := commit }
  /-- A leader appends a membership command. -/
  | appendedMembership {call type payload membership next commit}
      (change : call = .finalizeMembershipChange ∨ ∃ voters, call = .beginMembershipChange voters)
      (barrier : n.pendingReadBarrier = none) (entry : MembershipEntry n type payload membership)
      (advanced : Advanced
        ((n.pushEntry type payload).installMembership membership).selfTracked next commit) :
      Effect n call next.stepDownIfRemoved
        { persistentState := some next.stepDownIfRemoved.state
          outbound := next.appendToAll
          advancedCommitIndex := commit }
  /-- `complete_snapshot_install` that gives up the pending snapshot. -/
  | installAborted (source : NodeId) (snapshot : SnapshotMetadata) (flag : Bool)
      (pending : InstallSnapshotRequest) (isPending : n.pendingSnapshot = some pending) :
      Effect n (.completeSnapshotInstall source snapshot flag) { n with pendingSnapshot := none }
        { outbound := [⟨source, .installSnapshotResponse
            ⟨n.state.currentTerm, false, n.state.snapshot.lastIncludedIndex⟩⟩] }
  /-- `complete_snapshot_install` that installs the pending snapshot. -/
  | installCompleted {source pending membership} (leader : source = pending.leaderId)
      (installs : Installs n pending membership) :
      Effect n (.completeSnapshotInstall source pending.snapshot true)
        (n.installed pending.snapshot membership)
        { persistentState := some (RaftNode.installedState n.state pending.snapshot)
          advancedCommitIndex := some
            (RaftNode.installedState n.state pending.snapshot).commitIndex
          outbound := [⟨source, .installSnapshotResponse
            ⟨n.state.currentTerm, true, pending.snapshot.lastIncludedIndex⟩⟩] }
  /-- `compact_snapshot`. -/
  | compacted (snapshot prepared : SnapshotMetadata)
      (metadata : n.prepareSnapshotMetadata snapshot = .ok prepared) :
      Effect n (.compactSnapshot snapshot) (n.compacted prepared)
        { persistentState := some (n.compacted prepared).state }
  /-- `heartbeat`. -/
  | heartbeat (leader : n.role = .leader) :
      Effect n .heartbeat n { outbound := n.appendToAll }
  /-- `begin_read_barrier` of a leader whose own acknowledgement is a quorum. -/
  | barrierReady (opens : MayOpen n) (quorum : readBarrierQuorum n.openBarrier = true) :
      Effect n .beginReadBarrier n.nextContext
        { readBarrierReady := some
            ⟨n.state.currentTerm, n.nextReadContext, n.state.commitIndex⟩ }
  /-- `begin_read_barrier` of a leader that asks its peers. -/
  | barrierOpened (opens : MayOpen n) (quorum : readBarrierQuorum n.openBarrier = false) :
      Effect n .beginReadBarrier { n.nextContext with pendingReadBarrier := some n.openBarrier }
        { outbound := (n.voters.filter (· ≠ n.id)).map fun peer =>
            ⟨peer, .readBarrierRequest ⟨n.state.currentTerm, n.id, n.nextReadContext⟩⟩ }
  /-- `mark_applied`. -/
  | applied (index : ℕ) (lower : n.state.appliedIndex < index)
      (upper : index ≤ n.state.commitIndex) :
      Effect n (.markApplied index) { n with state := { n.state with appliedIndex := index } }
        { persistentState := some { n.state with appliedIndex := index } }
  /-- A message that is only observed. -/
  | observed (source : NodeId) (message : Message) {validated}
      (received : Received n source message validated) (only : OnlyObserved n source message) :
      Effect n (.receive source message) (n.observe message.term)
        { persistentState := n.observedState message.term
          outbound := refusal n source message }
  /-- A granted vote. -/
  | granted (source : NodeId) (request : RequestVoteRequest) {validated}
      (received : Received n source (.requestVoteRequest request) validated)
      (voter : n.voter n.id = true) (term : n.state.currentTerm ≤ request.term)
      (vote : request.term > n.state.currentTerm ∨ n.state.votedFor = none ∨
        n.state.votedFor = some source)
      (current : candidateLogIsCurrent n.state request.lastLogIndex request.lastLogTerm = true) :
      Effect n (.receive source (.requestVoteRequest request))
        ((n.observe request.term).grant source)
        { persistentState := some ((n.observe request.term).grant source).state
          outbound := [⟨source, .requestVoteResponse ⟨request.term, true⟩⟩] }
  /-- A vote that is counted without a quorum. -/
  | voteCounted (source : NodeId) (response : RequestVoteResponse) {validated}
      (received : Received n source (.requestVoteResponse response) validated)
      (counts : Counts n response)
      (quorum : configurationQuorum n.joint n.committedVoters
        (fun node => decide (node ∈ insert source n.votes)) = false) :
      Effect n (.receive source (.requestVoteResponse response))
        { n with votes := insert source n.votes } {}
  /-- The vote that wins the election. -/
  | voteWon (source : NodeId) (response : RequestVoteResponse) {validated}
      (received : Received n source (.requestVoteResponse response) validated)
      (counts : Counts n response)
      (quorum : configurationQuorum n.joint n.committedVoters
        (fun node => decide (node ∈ insert source n.votes)) = true) :
      Effect n (.receive source (.requestVoteResponse response))
        (n.elected (insert source n.votes))
        { outbound := announcements n.id n.voters n.state n.state.currentTerm }
  /-- An append request whose previous position does not match. -/
  | appendRejected (source : NodeId) (request : AppendEntriesRequest) {validated}
      (received : Received n source (.appendEntriesRequest request) validated)
      (term : n.state.currentTerm ≤ request.term)
      (mismatch : n.state.appendPredecessorTerm request.previousLogIndex ≠
        some request.previousLogTerm) :
      Effect n (.receive source (.appendEntriesRequest request))
        (n.becomeFollower request.term (some source))
        { persistentState := n.observedState request.term
          outbound := [⟨source, .appendEntriesResponse (rejection n.state request)⟩] }
  /-- An accepted append request. -/
  | appendAccepted (source : NodeId) (request : AppendEntriesRequest)
      (validated : ValidatedAppend) {persistent advanced}
      (received : Received n source (.appendEntriesRequest request) (some validated))
      (term : n.state.currentTerm ≤ request.term)
      (persisted : persistent = some (n.acceptedState request validated) ∨
        persistent = none ∧ n.acceptedState request validated = n.state) :
      Effect n (.receive source (.appendEntriesRequest request))
        (n.accept source request validated)
        { persistentState := persistent
          outbound := [⟨source, .appendEntriesResponse
            ⟨request.term, true, request.accepted, none, 0⟩⟩]
          advancedCommitIndex := advanced }
  /-- A confirmed append that commits nothing. -/
  | appendConfirmed (source : NodeId) (response : AppendEntriesResponse) {validated found}
      (received : Received n source (.appendEntriesResponse response) validated)
      (answered : Answered n source response.term) (success : response.success = true)
      (tracked : n.matchIndex source = some found) :
      Effect n (.receive source (.appendEntriesResponse response))
        (n.progress source (max found response.matchIndex))
        { outbound :=
            if max found response.matchIndex + 1 ≤ n.state.lastIndex then
              [⟨source, (n.progress source
                (max found response.matchIndex)).replicationForPeer source⟩]
            else [] }
  /-- A confirmed append that moves the commit index. -/
  | appendCommitted (source : NodeId) (response : AppendEntriesResponse)
      {validated found} {commit : ℕ} {next}
      (received : Received n source (.appendEntriesResponse response) validated)
      (answered : Answered n source response.term) (success : response.success = true)
      (tracked : n.matchIndex source = some found)
      (advanced : Advanced (n.progress source (max found response.matchIndex)) next commit) :
      Effect n (.receive source (.appendEntriesResponse response)) next.stepDownIfRemoved
        { persistentState := some next.state
          outbound := next.appendToAll
          advancedCommitIndex := some commit }
  /-- A rejected append makes the leader back off. -/
  | appendBackedOff (source : NodeId) (response : AppendEntriesResponse) {validated}
      (received : Received n source (.appendEntriesResponse response) validated)
      (answered : Answered n source response.term) (failure : response.success = false)
      (tracked : n.matchIndex source ≠ none) :
      Effect n (.receive source (.appendEntriesResponse response))
        (n.backOff source (conflictNext n.state response))
        { outbound := [⟨source, (n.backOff source
            (conflictNext n.state response)).replicationForPeer source⟩] }
  /-- A snapshot request that the local snapshot already covers. -/
  | installCovered (source : NodeId) (request : InstallSnapshotRequest) {validated}
      (received : Received n source (.installSnapshotRequest request) validated)
      (term : n.state.currentTerm ≤ request.term)
      (covered : request.snapshot.lastIncludedIndex ≤ n.state.snapshot.lastIncludedIndex) :
      Effect n (.receive source (.installSnapshotRequest request))
        (n.becomeFollower request.term (some source))
        { persistentState := n.observedState request.term
          outbound := [⟨source, .installSnapshotResponse
            ⟨request.term, true, n.state.snapshot.lastIncludedIndex⟩⟩] }
  /-- A snapshot request while another installation, or the same, is pending. -/
  | installCompeting (source : NodeId) (request : InstallSnapshotRequest)
      {pending validated outbound}
      (received : Received n source (.installSnapshotRequest request) validated)
      (term : n.state.currentTerm ≤ request.term) (isPending : n.pendingSnapshot = some pending)
      (answers : outbound = [] ∨ outbound = [⟨source, .installSnapshotResponse
        ⟨request.term, false, n.state.snapshot.lastIncludedIndex⟩⟩]) :
      Effect n (.receive source (.installSnapshotRequest request))
        (n.becomeFollower request.term (some source))
        { persistentState := n.observedState request.term
          outbound := outbound }
  /-- A snapshot request that becomes the pending installation. -/
  | installPending (source : NodeId) (request : InstallSnapshotRequest) {validated}
      (received : Received n source (.installSnapshotRequest request) validated)
      (term : n.state.currentTerm ≤ request.term) (isPending : n.pendingSnapshot = none)
      (newer : n.state.snapshot.lastIncludedIndex < request.snapshot.lastIncludedIndex) :
      Effect n (.receive source (.installSnapshotRequest request))
        { n.becomeFollower request.term (some source) with pendingSnapshot := some request }
        { persistentState := n.observedState request.term
          snapshotInstall := some ⟨source, request.snapshot⟩ }
  /-- A confirmed snapshot. -/
  | installConfirmed (source : NodeId) (response : InstallSnapshotResponse) {validated found}
      (received : Received n source (.installSnapshotResponse response) validated)
      (answered : Answered n source response.term) (success : response.success = true)
      (tracked : n.matchIndex source = some found) :
      Effect n (.receive source (.installSnapshotResponse response))
        (n.progress source (max found response.lastIncludedIndex))
        { outbound := [⟨source, (n.progress source
            (max found response.lastIncludedIndex)).replicationForPeer source⟩] }
  /-- A failed snapshot: the leader tries again. -/
  | installFailed (source : NodeId) (response : InstallSnapshotResponse) {validated}
      (received : Received n source (.installSnapshotResponse response) validated)
      (answered : Answered n source response.term) (failure : response.success = false) :
      Effect n (.receive source (.installSnapshotResponse response)) n
        { outbound := [⟨source, n.replicationForPeer source⟩] }
  /-- A read-barrier request of the current or a newer term. -/
  | barrierAcknowledged (source : NodeId) (request : ReadBarrierRequest) {validated}
      (received : Received n source (.readBarrierRequest request) validated)
      (term : n.state.currentTerm ≤ request.term) :
      Effect n (.receive source (.readBarrierRequest request))
        (n.becomeFollower request.term (some source))
        { persistentState := n.observedState request.term
          outbound := [⟨source, .readBarrierResponse ⟨request.term, request.context, true⟩⟩] }
  /-- An acknowledgement of the pending barrier. -/
  | barrierCounted (source : NodeId) (response : ReadBarrierResponse)
      {validated} (pending pending' : PendingReadBarrier)
      (received : Received n source (.readBarrierResponse response) validated)
      (awaits : Awaits n response pending)
      (pending_eq : pending' =
        { pending with acknowledgements := insert source pending.acknowledgements })
      (quorum : readBarrierQuorum pending' = false) :
      Effect n (.receive source (.readBarrierResponse response))
        { n with pendingReadBarrier := some pending' } {}
  /-- The acknowledgement that completes the pending barrier. -/
  | barrierCompleted (source : NodeId) (response : ReadBarrierResponse)
      {validated} (pending : PendingReadBarrier)
      (received : Received n source (.readBarrierResponse response) validated)
      (awaits : Awaits n response pending)
      (quorum : readBarrierQuorum
        { pending with acknowledgements := insert source pending.acknowledgements } = true) :
      Effect n (.receive source (.readBarrierResponse response))
        { n with pendingReadBarrier := none }
        { readBarrierReady := some ⟨pending.term, pending.context, pending.readIndex⟩ }

namespace RaftNode

/-! ### Observing a term -/

section

variable (n : RaftNode) (term : ℕ) (leader : Option NodeId)

@[simp] lemma becomeFollower_role : (n.becomeFollower term leader).role = .follower := rfl

@[simp] lemma becomeFollower_pendingReadBarrier :
    (n.becomeFollower term leader).pendingReadBarrier = none := rfl

lemma becomeFollower_state : (n.becomeFollower term leader).state =
      if term > n.state.currentTerm then n.state.advanceTerm term else n.state := rfl

end

variable {n : RaftNode} {term : ℕ}

lemma becomeFollower_currentTerm (h : n.state.currentTerm ≤ term) (leader : Option NodeId) :
    (n.becomeFollower term leader).state.currentTerm = term := by
  rw [becomeFollower_state]
  split
  · rfl
  · omega

lemma observe_of_newer (h : term > n.state.currentTerm) :
    n.observe term = n.becomeFollower term none := if_pos h

lemma observe_of_not_newer (h : ¬ term > n.state.currentTerm) :
    n.observe term = n := if_neg h

lemma observe_state (n : RaftNode) (term : ℕ) :
    (n.observe term).state =
      if term > n.state.currentTerm then n.state.advanceTerm term else n.state := by
  unfold observe
  split
  · rw [becomeFollower_state, if_pos ‹_›]
  · rfl

lemma observe_currentTerm (n : RaftNode) (term : ℕ) :
    (n.observe term).state.currentTerm = max n.state.currentTerm term := by
  rw [observe_state]
  split
  · simp only [PersistentState.advanceTerm]; omega
  · omega

/-- Following a leader subsumes observing its term. -/
lemma becomeFollower_observe (n : RaftNode) (term : ℕ) (leader : Option NodeId) :
    (n.observe term).becomeFollower term leader = n.becomeFollower term leader := by
  unfold observe
  split
  · simp only [becomeFollower]
    split
    · simp
    · contradiction
  · rfl

end RaftNode

end Chronos.Raft
