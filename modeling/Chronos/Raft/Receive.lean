import Chronos.Raft.Node

/-!
`RaftNode::receive` of `raft/node.cpp`, in the three phases of the source.

* `validateMessage`: every fallible, message-local condition, tested before a
  newer term is observed.  An acceptable append request leaves its spliced log,
  commit index and membership behind (`ValidatedAppend`).
* `prepareMessage`: everything that allocates, collected in `Prepared`; the node
  is read and not written.
* `commitMessage`: the writes, taken from `Prepared`.  A late error returns the
  node as it stands then.
-/

namespace Chronos.Raft

/-! ### Validation -/

/-- The values that the validation of an append request leaves behind. -/
structure ValidatedAppend where
  log : List LogEntry
  commit : ℕ
  membership : DerivedMembership

/-- The loop over the entries of an append request; `expected` is the index before the next
entry. -/
def validateEntries (limits : RaftLimits) (term : ℕ) : ℕ → List LogEntry → Result Unit
  | _, [] => .ok ()
  | expected, entry :: entries =>
      if expected = u64Max then .error (invalid "AppendEntries log index overflows")
      else if entry.index ≠ expected + 1 ∨ entry.index = u64Max ∨ entry.term = 0 ∨
          entry.term > term ∨ entry.type = 0 ∨
          entry.payload.length > limits.maximumEntryBytes then
        .error (invalid "AppendEntries contains an invalid log entry")
      else if entry.type = leaderNoopEntryType ∧ entry.payload ≠ [] then
        .error (invalid "AppendEntries leader no-op entry has a payload")
      else validateEntries limits term (expected + 1) entries

/-- The search for the first entry that the local log does not hold: its position. -/
def firstConflict (state : PersistentState) : ℕ → List LogEntry → Result (Option ℕ)
  | _, [] => .ok none
  | position, entry :: entries =>
      if state.termAt entry.index = some entry.term then
        if state.log[state.offsetFor entry.index]? ≠ some entry then
          .error (corruption "matching Raft term and index have different entry bytes")
        else firstConflict state (position + 1) entries
      else if state.termAt entry.index ≠ none ∧ entry.index ≤ state.commitIndex then
        .error (corruption "leader attempted to overwrite a committed Raft entry")
      else .ok (some position)

/-- The length of the log after the conflicting suffix is replaced. -/
def splicedLength (state : PersistentState) (entries : List LogEntry) (position : ℕ) : ℕ :=
  let conflictIndex := (entries[position]?.map LogEntry.index).getD 0
  let retained :=
    if conflictIndex ≤ state.lastIndex then state.offsetFor conflictIndex else state.log.length
  retained + (entries.length - position)

/-- The log without the suffix that conflicts with an entry: its index with another term. -/
def eraseConflict (log : List LogEntry) (entry : LogEntry) : List LogEntry :=
  match log.find? (·.index = entry.index) with
  | some found => if found.term ≠ entry.term then log.takeWhile (·.index ≠ entry.index) else log
  | none => log

/-- One round of the loop that builds `candidate_log`. -/
def spliceEntry (log : List LogEntry) (entry : LogEntry) : List LogEntry :=
  let kept := eraseConflict log entry
  if kept.any (·.index = entry.index) then kept else kept ++ [entry]

/-- `candidate_log`. -/
def candidateLog (log entries : List LogEntry) : List LogEntry := entries.foldl spliceEntry log

/-- The validation of an append request. -/
def validateAppend (n : RaftNode) (source : NodeId) (value : AppendEntriesRequest) :
    Result (Option ValidatedAppend) :=
  let activeSource := n.voter source
  if value.leaderId ≠ source ∨
      (decide (value.previousLogIndex = 0) ≠ decide (value.previousLogTerm = 0)) ∨
      value.previousLogTerm > value.term ∨ value.leaderCommit = u64Max ∨
      value.entries.length > n.limits.maximumAppendEntries then
    .error (invalid "AppendEntries identity, previous position, or batch bound is invalid")
  else if value.previousLogIndex = u64Max then
    .error (invalid "AppendEntries log index overflows")
  else do
    validateEntries n.limits value.term value.previousLogIndex value.entries
    if value.term < n.state.currentTerm then
      if activeSource then .ok none
      else .error (invalid "stale AppendEntries source is not an active voter")
    else if n.state.appendPredecessorTerm value.previousLogIndex ≠ some value.previousLogTerm then
      if activeSource then .ok none
      else .error (invalid "AppendEntries suffix cannot establish nonvoter leader authority")
    else do
      let conflict ← firstConflict n.state 0 value.entries
      if (conflict.any fun position =>
          splicedLength n.state value.entries position > n.limits.maximumLogEntries) then
        .error (exhausted "Raft log capacity is exhausted")
      else do
        let log := candidateLog n.state.log value.entries
        let last := ({ n.state with log := log } : PersistentState).lastIndex
        let commit := max n.state.commitIndex (min value.leaderCommit last)
        let membership ← deriveMembership n.baseVoters log commit n.limits.maximumVoters
        if activeSource = false ∧ source ∉ membership.activeVoters then
          .error (invalid "AppendEntries suffix does not establish active leader membership")
        else do
          persistentStateFits n.state.snapshot.voters.length log n.limits
          .ok (some ⟨log, commit, membership⟩)

/-- The validation of every message kind. -/
def validateMessage (n : RaftNode) (source : NodeId) (message : Message) :
    Result (Option ValidatedAppend) :=
  if message.term = 0 then .error (invalid "Raft message term must be nonzero")
  else match message with
    | .requestVoteRequest value =>
        if value.candidateId ≠ source ∨
            (decide (value.lastLogIndex = 0) ≠ decide (value.lastLogTerm = 0)) ∨
            value.lastLogIndex = u64Max ∨ value.lastLogTerm > value.term then
          .error (invalid "RequestVote identity or last-log position is invalid")
        else .ok none
    | .requestVoteResponse _ => .ok none
    | .appendEntriesRequest value => validateAppend n source value
    | .appendEntriesResponse value =>
        if value.matchIndex = u64Max ∨
            (value.success = true ∧ (value.matchIndex > n.state.lastIndex ∨
              value.conflictTerm ≠ none ∨ value.conflictIndex ≠ 0)) ∨
            (value.success = false ∧ value.conflictIndex = 0) ∨
            (value.conflictTerm.any fun term => term = 0 ∨ term > value.term) then
          .error (invalid "AppendEntries response state is invalid")
        else .ok none
    | .installSnapshotRequest value =>
        if value.leaderId ≠ source ∨ value.snapshot.lastIncludedTerm > value.term ∨
            validSnapshot value.snapshot n.limits.maximumVoters = false then
          .error (invalid "InstallSnapshot identity or metadata is invalid")
        else .ok none
    | .installSnapshotResponse value =>
        if value.lastIncludedIndex = u64Max ∨
            (value.success = true ∧ (value.lastIncludedIndex = 0 ∨
              value.lastIncludedIndex > n.state.lastIndex)) then
          .error (invalid "InstallSnapshot response state is invalid")
        else .ok none
    | .readBarrierRequest value =>
        if value.leaderId ≠ source ∨ value.context = 0 then
          .error (invalid "read-barrier request identity or context is invalid")
        else .ok none
    | .readBarrierResponse value =>
        if value.context = 0 then .error (invalid "read-barrier response context is invalid")
        else .ok none

/-! ### Preparation -/

/-- The `prepared_*` variables of `receive`. -/
structure Prepared where
  transition : Transition := {}
  voteGranted : Bool := false
  voteResponse : Bool := false
  voteQuorum : Bool := false
  responseVotes : Finset NodeId := ∅
  responseNextIndex : Progress := fun _ => none
  responseMatchIndex : Progress := fun _ => none
  appendResponse : Bool := false
  appendCommit : Bool := false
  appendStepDown : Bool := false
  appendState : Option PersistentState := none
  appendCommittedVoters : List NodeId := []
  appendVoters : List NodeId := []
  appendJoint : Option JointConfiguration := none
  appendNextIndex : Progress := fun _ => none
  appendMatchIndex : Progress := fun _ => none
  snapshotResponse : Bool := false
  snapshotNextIndex : Progress := fun _ => none
  snapshotMatchIndex : Progress := fun _ => none
  appendRequest : Bool := false
  appendRequestAccepted : Bool := false
  appendRequestPersistence : Bool := false
  appendRequestState : Option PersistentState := none
  installRequest : Bool := false
  installRequestNew : Bool := false
  installRequestPersistence : Bool := false
  installRequestState : Option PersistentState := none
  pendingSnapshot : Option InstallSnapshotRequest := none

/-- The persistent state with a newer term and no vote. -/
def PersistentState.advanceTerm (state : PersistentState) (term : ℕ) : PersistentState :=
  { state with currentTerm := term, votedFor := none }

/-- The progress of a fresh leader: every voter is tried behind the leader's last entry. -/
def initialNext (voters : List NodeId) (lastIndex : ℕ) : Progress := fun peer =>
  if peer ∈ voters then some (lastIndex + 1) else none

/-- The match indexes of a fresh leader: only its own log is known to match. -/
def initialMatch (id : NodeId) (voters : List NodeId) (lastIndex : ℕ) : Progress :=
  fun peer => if peer ∈ voters then some (if peer = id then lastIndex else 0) else none

/-- The empty append requests by which a fresh leader of `term` announces itself. -/
def announcements (id : NodeId) (voters : List NodeId) (state : PersistentState) (term : ℕ) :
    List OutboundMessage :=
  (voters.filter (· ≠ id)).map fun peer =>
    ⟨peer, .appendEntriesRequest
      ⟨term, id, state.lastIndex, state.lastTerm, [], state.commitIndex⟩⟩

/-- The block that reports a newer term, or a vote, for every kind but the two replication
requests. -/
def withTermPersistence (n : RaftNode) (source : NodeId) (messageTerm : ℕ)
    (prepared : Prepared) : Prepared :=
  if messageTerm > n.state.currentTerm ∨ prepared.voteGranted then
    let state :=
      if messageTerm > n.state.currentTerm then n.state.advanceTerm messageTerm else n.state
    let state := if prepared.voteGranted then { state with votedFor := some source } else state
    { prepared with transition := { prepared.transition with persistentState := some state } }
  else prepared

/-- `prepared_vote_granted`. -/
def voteGranted (n : RaftNode) (source : NodeId) (request : RequestVoteRequest) : Bool :=
  let prospectiveTerm := max n.state.currentTerm request.term
  let prospectiveVote :=
    if request.term > n.state.currentTerm then none else n.state.votedFor
  n.voter n.id && decide (request.term = prospectiveTerm) &&
    decide (prospectiveVote = none ∨ prospectiveVote = some source) &&
    candidateLogIsCurrent n.state request.lastLogIndex request.lastLogTerm

/-- The preparation of a vote request. -/
def prepareVoteRequest (n : RaftNode) (source : NodeId) (request : RequestVoteRequest) :
    Prepared where
  transition :=
    { outbound := [⟨source, .requestVoteResponse
        ⟨max n.state.currentTerm request.term, voteGranted n source request⟩⟩] }
  voteGranted := voteGranted n source request

/-- The preparation of a vote response. -/
def prepareVoteResponse (n : RaftNode) (source : NodeId) (response : RequestVoteResponse) :
    Prepared :=
  if response.term = n.state.currentTerm ∧ n.role = .candidate ∧ response.granted then
    let votes := insert source n.votes
    let quorum := configurationQuorum n.joint n.committedVoters fun node => decide (node ∈ votes)
    if quorum then
      { transition :=
          { outbound := announcements n.id n.voters n.state n.state.currentTerm }
        voteResponse := true
        voteQuorum := true
        responseVotes := votes
        responseNextIndex := initialNext n.voters n.state.lastIndex
        responseMatchIndex := initialMatch n.id n.voters n.state.lastIndex }
    else { voteResponse := true, responseVotes := votes }
  else {}

/-- The loop that walks back to the first entry of the conflicting term. -/
def conflictStart (state : PersistentState) (conflictTerm : ℕ) : ℕ → ℕ
  | 0 => 0
  | index + 1 =>
      if index + 1 > state.snapshot.lastIncludedIndex + 1 ∧
          state.termAt index = some conflictTerm then
        conflictStart state conflictTerm index
      else index + 1

/-- The answer to an append request whose previous position does not match. -/
def rejection (state : PersistentState) (request : AppendEntriesRequest) :
    AppendEntriesResponse :=
  match state.appendPredecessorTerm request.previousLogIndex with
  | none => ⟨request.term, false, state.lastIndex, none, state.lastIndex + 1⟩
  | some previousTerm =>
      ⟨request.term, false, state.lastIndex, some previousTerm,
        conflictStart state previousTerm request.previousLogIndex⟩

/-- The last index that an append request covers. -/
def AppendEntriesRequest.accepted (request : AppendEntriesRequest) : ℕ :=
  match request.entries.getLast? with
  | none => request.previousLogIndex
  | some entry => entry.index

/-- The preparation of an append request. -/
def prepareAppendRequest (n : RaftNode) (source : NodeId) (request : AppendEntriesRequest)
    (validated : Option ValidatedAppend) : Result Prepared :=
  if request.term < n.state.currentTerm then
    .ok { transition :=
            { outbound := [⟨source, .appendEntriesResponse
                ⟨n.state.currentTerm, false, n.state.lastIndex, none, n.state.lastIndex + 1⟩⟩] }
          appendRequest := true }
  else
    let termChanged := decide (request.term > n.state.currentTerm)
    if n.state.appendPredecessorTerm request.previousLogIndex ≠ some request.previousLogTerm then
      let response : List OutboundMessage :=
        [⟨source, .appendEntriesResponse (rejection n.state request)⟩]
      if termChanged then
        .ok { transition :=
                { outbound := response
                  persistentState := some (n.state.advanceTerm request.term) }
              appendRequest := true
              appendRequestPersistence := true
              appendRequestState := some (n.state.advanceTerm request.term) }
      else .ok { transition := { outbound := response }, appendRequest := true }
    else match validated with
      | none => .error (corruption "validated Raft append request state is unavailable")
      | some validated =>
          let logChanged := decide (validated.log ≠ n.state.log)
          let commitChanged := decide (validated.commit > n.state.commitIndex)
          let persistence := termChanged || logChanged || commitChanged
          let state : PersistentState :=
            { n.state with
              currentTerm := request.term
              votedFor := if termChanged then none else n.state.votedFor
              log := validated.log
              commitIndex := validated.commit }
          .ok { transition :=
                  { persistentState := if persistence then some state else none
                    outbound := [⟨source, .appendEntriesResponse
                      ⟨request.term, true, request.accepted, none, 0⟩⟩]
                    advancedCommitIndex :=
                      if commitChanged then some validated.commit else none }
                appendRequest := true
                appendRequestAccepted := true
                appendRequestPersistence := persistence
                appendRequestState := if persistence then some state else none }

/-- The preparation of a snapshot request. -/
def prepareInstallRequest (n : RaftNode) (source : NodeId) (request : InstallSnapshotRequest) :
    Prepared :=
  let last := n.state.snapshot.lastIncludedIndex
  if request.term < n.state.currentTerm then
    { transition :=
        { outbound := [⟨source, .installSnapshotResponse ⟨n.state.currentTerm, false, last⟩⟩] }
      installRequest := true }
  else
    let persistence := decide (request.term > n.state.currentTerm)
    let state := if persistence then some (n.state.advanceTerm request.term) else none
    if request.snapshot.lastIncludedIndex ≤ last then
      { transition :=
          { persistentState := state
            outbound := [⟨source, .installSnapshotResponse ⟨request.term, true, last⟩⟩] }
        installRequest := true
        installRequestPersistence := persistence
        installRequestState := state }
    else match n.pendingSnapshot with
      | some pending =>
          { transition :=
              { persistentState := state
                outbound :=
                  if pending ≠ request then
                    [⟨source, .installSnapshotResponse ⟨request.term, false, last⟩⟩]
                  else [] }
            installRequest := true
            installRequestPersistence := persistence
            installRequestState := state }
      | none =>
          { transition :=
              { persistentState := state
                snapshotInstall := some ⟨source, request.snapshot⟩ }
            installRequest := true
            installRequestNew := true
            installRequestPersistence := persistence
            installRequestState := state
            pendingSnapshot := some request }

/-- The next index after a rejected append: behind the last retained entry of the conflicting
term if there is one, else at the reported conflict, within the leader's own log. -/
def conflictNext (state : PersistentState) (response : AppendEntriesResponse) : ℕ :=
  let reported := if response.conflictIndex = 0 then 1 else response.conflictIndex
  let next :=
    match response.conflictTerm with
    | none => reported
    | some conflictTerm =>
        match state.log.reverse.find? (·.term = conflictTerm) with
        | some entry => entry.index + 1
        | none => reported
  max 1 (min next (state.lastIndex + 1))

/-- The preparation of an append response that advances the commit index to `commit`. -/
def prepareAppendCommit (n : RaftNode) (nextIndex matchIndex : Progress) (commit : ℕ) :
    Result Prepared := do
  let membership ← deriveMembership n.baseVoters n.state.log commit n.limits.maximumVoters
  let state := { n.state with commitIndex := commit }
  let voters := membership.activeVoters
  let next := retrackNext n.id voters n.state.lastIndex nextIndex
  .ok { transition :=
          { persistentState := some state
            outbound := (voters.filter (· ≠ n.id)).map fun peer =>
              ⟨peer, replicationFor n.id n.state n.limits peer next commit⟩
            advancedCommitIndex := some commit }
        appendResponse := true
        appendCommit := true
        appendStepDown := decide (n.id ∉ voters)
        appendState := some state
        appendCommittedVoters := membership.committedVoters
        appendVoters := voters
        appendJoint := membership.joint
        appendNextIndex := next
        appendMatchIndex := retrackMatch n.id voters n.state.lastIndex nextIndex matchIndex }

/-- The preparation of an append response. -/
def prepareAppendResponse (n : RaftNode) (source : NodeId) (response : AppendEntriesResponse) :
    Result Prepared :=
  if response.term = n.state.currentTerm ∧ n.role = .leader then
    match n.nextIndex source, n.matchIndex source with
    | some _, some found =>
        if response.success then
          let matched := max found response.matchIndex
          let matchIndex := Function.update n.matchIndex source (some matched)
          let nextIndex := Function.update n.nextIndex source (some (matched + 1))
          match commitCandidate n.state n.joint n.committedVoters matchIndex with
          | some commit => prepareAppendCommit n nextIndex matchIndex commit
          | none =>
              .ok { transition :=
                      { outbound :=
                          if matched + 1 ≤ n.state.lastIndex then
                            [⟨source, replicationFor n.id n.state n.limits source nextIndex
                              n.state.commitIndex⟩]
                          else [] }
                    appendResponse := true
                    appendNextIndex := nextIndex
                    appendMatchIndex := matchIndex }
        else
          let nextIndex :=
            Function.update n.nextIndex source (some (conflictNext n.state response))
          .ok { transition :=
                  { outbound := [⟨source, replicationFor n.id n.state n.limits source nextIndex
                      n.state.commitIndex⟩] }
                appendResponse := true
                appendNextIndex := nextIndex
                appendMatchIndex := n.matchIndex }
    | _, _ => .error (corruption "prepared Raft replication progress is unavailable")
  else .ok {}

/-- The preparation of a snapshot response. -/
def prepareInstallResponse (n : RaftNode) (source : NodeId) (response : InstallSnapshotResponse) :
    Result Prepared :=
  if response.term = n.state.currentTerm ∧ n.role = .leader then
    match n.nextIndex source, n.matchIndex source with
    | some _, some found =>
        if response.success then
          let matched := max found response.lastIncludedIndex
          let matchIndex := Function.update n.matchIndex source (some matched)
          let nextIndex := Function.update n.nextIndex source (some (matched + 1))
          .ok { transition :=
                  { outbound := [⟨source, replicationFor n.id n.state n.limits source nextIndex
                      n.state.commitIndex⟩] }
                snapshotResponse := true
                snapshotNextIndex := nextIndex
                snapshotMatchIndex := matchIndex }
        else
          .ok { transition :=
                  { outbound := [⟨source, replicationFor n.id n.state n.limits source n.nextIndex
                      n.state.commitIndex⟩] }
                snapshotResponse := true }
    | _, _ => .error (corruption "prepared Raft snapshot progress is unavailable")
  else .ok {}

/-- The preparation of every message kind. -/
def prepareMessage (n : RaftNode) (source : NodeId) (message : Message)
    (validated : Option ValidatedAppend) : Result Prepared :=
  match message with
  | .requestVoteRequest request =>
      .ok (withTermPersistence n source request.term (prepareVoteRequest n source request))
  | .requestVoteResponse response =>
      .ok (withTermPersistence n source response.term (prepareVoteResponse n source response))
  | .appendEntriesRequest request => prepareAppendRequest n source request validated
  | .appendEntriesResponse response => do
      let prepared ← prepareAppendResponse n source response
      .ok (withTermPersistence n source response.term prepared)
  | .installSnapshotRequest request => .ok (prepareInstallRequest n source request)
  | .installSnapshotResponse response => do
      let prepared ← prepareInstallResponse n source response
      .ok (withTermPersistence n source response.term prepared)
  | .readBarrierRequest request => .ok (withTermPersistence n source request.term {})
  | .readBarrierResponse response => .ok (withTermPersistence n source response.term {})

/-! ### Commit -/

/-- `finish_read_barrier` on a transition. -/
def RaftNode.finishReadBarrier (n : RaftNode) (transition : Transition) :
    RaftNode × Transition :=
  match n.pendingReadBarrier with
  | none => (n, transition)
  | some pending =>
      if readBarrierQuorum pending then
        ({ n with pendingReadBarrier := none },
          { transition with
            readBarrierReady := some ⟨pending.term, pending.context, pending.readIndex⟩ })
      else (n, transition)

/-- What the commit visitor leaves: the node, whether the persistent state was written, and the
status with the transition. -/
structure Committed where
  node : RaftNode
  persistenceChanged : Bool
  status : Result Transition

/-- The writes of a vote request. -/
def commitVoteRequest (n : RaftNode) (source : NodeId) (prepared : Prepared) (changed : Bool) :
    Committed :=
  if prepared.voteGranted then
    ⟨{ n with
        state := { n.state with votedFor := some source }
        role := .follower
        leaderId := none }, true, .ok prepared.transition⟩
  else ⟨n, changed, .ok prepared.transition⟩

/-- The writes of a vote response. -/
def commitVoteResponse (n : RaftNode) (value : RequestVoteResponse) (prepared : Prepared)
    (changed : Bool) : Committed :=
  if value.term < n.state.currentTerm ∨ n.role ≠ .candidate ∨
      value.term ≠ n.state.currentTerm then
    ⟨n, changed, .ok prepared.transition⟩
  else if value.granted then
    if prepared.voteResponse = false then
      ⟨n, changed, .error (corruption "prepared Raft vote response state is unavailable")⟩
    else if prepared.voteQuorum then
      ⟨{ n with
          votes := prepared.responseVotes
          role := .leader
          leaderId := some n.id
          nextIndex := prepared.responseNextIndex
          matchIndex := prepared.responseMatchIndex
          pendingReadBarrier := none }, changed, .ok prepared.transition⟩
    else ⟨{ n with votes := prepared.responseVotes }, changed, .ok prepared.transition⟩
  else ⟨n, changed, .ok prepared.transition⟩

/-- The writes of an append request. -/
def commitAppendRequest (n : RaftNode) (source : NodeId) (value : AppendEntriesRequest)
    (validated : Option ValidatedAppend) (prepared : Prepared) (changed : Bool) : Committed :=
  if prepared.appendRequest = false then
    ⟨n, changed, .error (corruption "prepared Raft append request state is unavailable")⟩
  else if value.term < n.state.currentTerm then ⟨n, changed, .ok prepared.transition⟩
  else
    let written :=
      if prepared.appendRequestPersistence then
        { n with state := prepared.appendRequestState.getD n.state }
      else n
    let followed := written.becomeFollower value.term (some source)
    let installed :=
      match prepared.appendRequestAccepted, validated with
      | true, some validated => followed.installMembership validated.membership
      | _, _ => followed
    ⟨installed, changed || prepared.appendRequestPersistence, .ok prepared.transition⟩

/-- The writes of an append response. -/
def commitAppendResponse (n : RaftNode) (value : AppendEntriesResponse) (prepared : Prepared)
    (changed : Bool) : Committed :=
  if value.term < n.state.currentTerm ∨ n.role ≠ .leader ∨ value.term ≠ n.state.currentTerm then
    ⟨n, changed, .ok prepared.transition⟩
  else if prepared.appendResponse = false then
    ⟨n, changed, .error (corruption "prepared Raft append response state is unavailable")⟩
  else
    let progressed :=
      { n with nextIndex := prepared.appendNextIndex, matchIndex := prepared.appendMatchIndex }
    if prepared.appendCommit then
      let written :=
        { progressed with
          state := prepared.appendState.getD n.state
          committedVoters := prepared.appendCommittedVoters
          voters := prepared.appendVoters
          joint := prepared.appendJoint }
      ⟨if prepared.appendStepDown then written.becomeFollower written.state.currentTerm none
        else written, true, .ok prepared.transition⟩
    else ⟨progressed, changed, .ok prepared.transition⟩

/-- The writes of a snapshot request. -/
def commitInstallRequest (n : RaftNode) (source : NodeId) (value : InstallSnapshotRequest)
    (prepared : Prepared) (changed : Bool) : Committed :=
  if prepared.installRequest = false then
    ⟨n, changed, .error (corruption "prepared Raft snapshot request state is unavailable")⟩
  else if value.term < n.state.currentTerm then ⟨n, changed, .ok prepared.transition⟩
  else
    let written :=
      if prepared.installRequestPersistence then
        { n with state := prepared.installRequestState.getD n.state }
      else n
    let followed := written.becomeFollower value.term (some source)
    ⟨if prepared.installRequestNew then
        { followed with pendingSnapshot := prepared.pendingSnapshot }
      else followed, changed || prepared.installRequestPersistence, .ok prepared.transition⟩

/-- The writes of a snapshot response. -/
def commitInstallResponse (n : RaftNode) (value : InstallSnapshotResponse) (prepared : Prepared)
    (changed : Bool) : Committed :=
  if value.term < n.state.currentTerm ∨ n.role ≠ .leader ∨ value.term ≠ n.state.currentTerm then
    ⟨n, changed, .ok prepared.transition⟩
  else if prepared.snapshotResponse = false then
    ⟨n, changed, .error (corruption "prepared Raft snapshot response state is unavailable")⟩
  else if value.success then
    ⟨{ n with
        nextIndex := prepared.snapshotNextIndex
        matchIndex := prepared.snapshotMatchIndex }, changed, .ok prepared.transition⟩
  else ⟨n, changed, .ok prepared.transition⟩

/-- The writes of a read-barrier request, which also appends its own answer. -/
def commitReadBarrierRequest (n : RaftNode) (source : NodeId) (value : ReadBarrierRequest)
    (prepared : Prepared) (changed : Bool) : Committed :=
  let accepted := decide (value.term = n.state.currentTerm)
  let followed := if accepted then n.becomeFollower value.term (some source) else n
  ⟨followed, changed, .ok { prepared.transition with
    outbound := prepared.transition.outbound ++
      [⟨source, .readBarrierResponse ⟨followed.state.currentTerm, value.context, accepted⟩⟩] }⟩

/-- The writes of a read-barrier response. -/
def commitReadBarrierResponse (n : RaftNode) (source : NodeId) (value : ReadBarrierResponse)
    (prepared : Prepared) (changed : Bool) : Committed :=
  match n.pendingReadBarrier with
  | none => ⟨n, changed, .ok prepared.transition⟩
  | some pending =>
      if value.term < n.state.currentTerm ∨ n.role ≠ .leader ∨
          value.term ≠ n.state.currentTerm ∨ value.accepted = false ∨
          value.context ≠ pending.context ∨ value.term ≠ pending.term then
        ⟨n, changed, .ok prepared.transition⟩
      else
        let acknowledged :=
          { n with
            pendingReadBarrier := some
              { pending with acknowledgements := insert source pending.acknowledgements } }
        let finished := acknowledged.finishReadBarrier prepared.transition
        ⟨finished.1, changed, .ok finished.2⟩

/-- The commit visitor. -/
def commitMessage (n : RaftNode) (source : NodeId) (message : Message)
    (validated : Option ValidatedAppend) (prepared : Prepared) (changed : Bool) : Committed :=
  match message with
  | .requestVoteRequest _ => commitVoteRequest n source prepared changed
  | .requestVoteResponse value => commitVoteResponse n value prepared changed
  | .appendEntriesRequest value => commitAppendRequest n source value validated prepared changed
  | .appendEntriesResponse value => commitAppendResponse n value prepared changed
  | .installSnapshotRequest value => commitInstallRequest n source value prepared changed
  | .installSnapshotResponse value => commitInstallResponse n value prepared changed
  | .readBarrierRequest value => commitReadBarrierRequest n source value prepared changed
  | .readBarrierResponse value => commitReadBarrierResponse n source value prepared changed

/-! ### The call -/

/-- Whether a message is one that a learner accepts before it becomes a voter. -/
def Message.isLearnerReplicationRequest : Message → Bool
  | .appendEntriesRequest _ => true
  | .installSnapshotRequest _ => true
  | _ => false

/-- `RaftNode::receive`: the node afterwards and the result. -/
def RaftNode.receive (n : RaftNode) (source : NodeId) (message : Message) :
    RaftNode × Result Transition :=
  if source = 0 ∨ source = n.id ∨
      (n.voter source = false ∧ message.isLearnerReplicationRequest = false) then
    (n, .error (invalid "Raft message source is invalid or not an active voter"))
  else match validateMessage n source message with
    | .error status => (n, .error status)
    | .ok validated =>
        match prepareMessage n source message validated with
        | .error status => (n, .error status)
        | .ok prepared =>
            let newer := decide (message.term > n.state.currentTerm)
            let observed := if newer then n.becomeFollower message.term none else n
            let committed := commitMessage observed source message validated prepared newer
            match committed.status with
            | .error status => (committed.node, .error status)
            | .ok transition =>
                (committed.node, .ok
                  (if committed.persistenceChanged ∧ transition.persistentState = none then
                    { transition with persistentState := some committed.node.state }
                  else transition))

end Chronos.Raft
