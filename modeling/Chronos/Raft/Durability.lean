import Chronos.Raft.Structure

/-!
Error atomicity and the persist-before-send contract of a node.

* `effect_persistent`: a successful call that changes the persistent state
  reports the new one.
* `Covered`: what an outbound message promises (its term, a vote, log entries, a
  commit index, a match index, a snapshot) is within a persistent state.
* `effect_covered`: every outbound message is covered by the state that the call
  leaves.
* `failed_call_unchanged_and_sent_within_reported`: the contract.
-/

namespace Chronos.Raft

open List RaftNode PersistentState

section Persistent

variable {n n' : RaftNode} {call : Call} {transition : Transition}

/-- The state after following a leader is reported when its term is newer. -/
lemma observedState_spec (n : RaftNode) (term : ℕ) (leader : Option NodeId) :
    n.observedState term = some (n.becomeFollower term leader).state ∨
      n.observedState term = none ∧ (n.becomeFollower term leader).state = n.state := by
  unfold observedState
  rw [becomeFollower_state, observe_state]
  split
  · exact .inl rfl
  · exact .inr ⟨rfl, rfl⟩

/-- **A changed persistent state is reported**, and what is reported is the state that the call
leaves. -/
lemma effect_persistent (heff : Effect n call n' transition) :
    transition.persistentState = some n'.state ∨
      transition.persistentState = none ∧ n'.state = n.state := by
  cases heff with
  | campaigned | campaignWon | appendedLocal | appendedMembership | installCompleted | compacted
  | applied | granted => exact .inl rfl
  | observed source message =>
    have := observedState_spec n message.term none
    rw [becomeFollower_state, ← observe_state] at this
    exact this
  | appendRejected source request | installCovered source request
  | installCompeting source request | installPending source request
  | barrierAcknowledged source request => exact observedState_spec n request.term (some source)
  | appendAccepted _ _ _ _ _ persisted =>
    exact persisted
  | appendCommitted => exact .inl (by rw [stepDownIfRemoved_state])
  | _ => exact .inr ⟨rfl, rfl⟩

end Persistent

/-! ### What a message promises -/

/-- The promises of an outbound message stay within a persistent state. -/
def Covered (state : PersistentState) (outbound : OutboundMessage) : Prop :=
  outbound.message.term ≤ state.currentTerm ∧
  match outbound.message with
  | .requestVoteRequest request =>
      -- the candidate's own vote, and its log position
      request.term = state.currentTerm ∧ state.votedFor = some request.candidateId ∧
        request.lastLogIndex = state.lastIndex ∧ request.lastLogTerm = state.lastTerm
  | .requestVoteResponse response =>
      response.granted = true →
        response.term = state.currentTerm ∧ state.votedFor = some outbound.destination
  | .appendEntriesRequest request =>
      state.snapshot.lastIncludedIndex ≤ request.previousLogIndex ∧
        state.termAt request.previousLogIndex = some request.previousLogTerm ∧
        Holds state.log (request.previousLogIndex - state.snapshot.lastIncludedIndex)
          request.entries ∧
        request.leaderCommit ≤ state.commitIndex
  | .appendEntriesResponse response =>
      response.success = true → response.matchIndex ≤ state.lastIndex
  | .installSnapshotRequest request => request.snapshot = state.snapshot
  | .installSnapshotResponse response =>
      response.success = true → response.lastIncludedIndex ≤ state.snapshot.lastIncludedIndex
  | .readBarrierRequest _ => True
  | .readBarrierResponse _ => True

section Coverage

variable {boot : List NodeId} {n n' : RaftNode} {call : Call} {transition : Transition}

variable {state : PersistentState}

/-- The last entry carries the last term. -/
lemma termAt_lastIndex {limits : RaftLimits} (h : StateWellFormed limits state) :
    state.termAt state.lastIndex = some state.lastTerm := by
  have hlast := lastIndex_eq h.contiguous
  cases hlog : state.log.getLast? with
  | none =>
    have hnil : state.log = [] := getLast?_eq_none_iff.mp hlog
    rw [hnil, length_nil, Nat.add_zero] at hlast
    have hterm : state.lastTerm = state.snapshot.lastIncludedTerm := by
      rw [lastTerm, hlog]
    rw [hlast, hterm]
    by_cases h0 : state.snapshot.lastIncludedIndex = 0
    · rw [h.snapshot_empty h0]
      simp
    · exact state.termAt_snapshot h0
  | some entry =>
    have hne : state.log ≠ [] := by
      rintro hnil
      rw [hnil] at hlog
      cases hlog
    have hpos := length_pos_iff.mpr hne
    have hterm : state.lastTerm = entry.term := by rw [lastTerm, hlog]
    rw [hterm, state.termAt_of_gt h.contiguous _ (by omega), hlast,
      show state.snapshot.lastIncludedIndex + state.log.length -
        state.snapshot.lastIncludedIndex - 1 = state.log.length - 1 by omega,
      ← getLast?_eq_getElem?, hlog]
    rfl

variable {outbound : OutboundMessage}

/-- The announcements of a fresh leader are within its state. -/
lemma covered_announcement (h : StateWellFormed n.limits n.state) {term : ℕ} {id : NodeId}
    (hterm : term ≤ state.currentTerm) (hlog : state.log = n.state.log)
    (hsnapshot : state.snapshot = n.state.snapshot)
    (hcommit : state.commitIndex = n.state.commitIndex)
    (ho : outbound ∈ announcements id n.voters n.state term) : Covered state outbound := by
  simp only [announcements, mem_map] at ho
  obtain ⟨_, -, rfl⟩ := ho
  have htermAt : state.termAt n.state.lastIndex = n.state.termAt n.state.lastIndex := by
    unfold termAt lastIndex offsetFor
    rw [hlog, hsnapshot]
  exact ⟨hterm, by rw [hsnapshot]; exact h.snapshot_le_last,
    by rw [htermAt, termAt_lastIndex h], fun _ _ he => by simp at he, hcommit.ge⟩

/-- What a leader sends to a tracked peer is within its state. -/
lemma covered_replication (h : n.WellFormed boot) (hrole : n.role = .leader) {peer : NodeId}
    (hpeer : n.nextIndex peer ≠ none) : Covered n.state ⟨peer, n.replicationForPeer peer⟩ := by
  obtain ⟨next, hnext⟩ := Option.ne_none_iff_exists'.mp hpeer
  obtain ⟨_, _⟩ := (h.tracked hrole).next_bounds peer next hnext
  unfold replicationForPeer
  rcases Nat.lt_or_ge n.state.snapshot.lastIncludedIndex next with hgt | hge
  · rw [replicationFor_append h.state.contiguous hnext hgt]
    have hsome := (n.state.termAt_isSome_iff h.state.contiguous (next - 1)).mpr
      (.inr ⟨by omega, by omega⟩)
    obtain ⟨_, hterm⟩ := Option.isSome_iff_exists.mp hsome
    refine ⟨le_rfl, by simp only; omega, by simp only [hterm, Option.getD_some], ?_, le_rfl⟩
    intro _ _ he
    rw [getElem?_take] at he
    split at he
    · rwa [getElem?_drop] at he
    · cases he
  · rw [replicationFor_snapshot hnext hge]
    exact ⟨le_rfl, rfl⟩

lemma covered_appendToAll (h : n.WellFormed boot) (hrole : n.role = .leader)
    (ho : outbound ∈ n.appendToAll) : Covered n.state outbound := by
  simp only [appendToAll, mem_map, mem_filter] at ho
  obtain ⟨peer, ⟨hpeer, -⟩, rfl⟩ := ho
  refine covered_replication h hrole fun hnone => ?_
  have := ((h.tracked hrole).next_iff peer).mpr hpeer
  rw [hnone] at this
  cases this

lemma rejection_term (state : PersistentState) (request : AppendEntriesRequest) :
    (rejection state request).term = request.term ∧
      (rejection state request).success = false := by
  unfold rejection
  split <;> exact ⟨rfl, rfl⟩

/-- The answers to a message that is only observed promise nothing beyond the observed term. -/
lemma covered_refusal (n : RaftNode) (source : NodeId) (message : Message)
    (ho : outbound ∈ refusal n source message) :
    Covered (n.observe message.term).state outbound := by
  have hterm := observe_currentTerm n message.term
  cases message with
  | requestVoteRequest request =>
    obtain rfl := mem_singleton.mp ho
    exact ⟨hterm.ge, by simp⟩
  | appendEntriesRequest request | installSnapshotRequest request =>
    obtain rfl := mem_singleton.mp ho
    exact ⟨by rw [hterm]; exact le_max_left _ _, by simp⟩
  | readBarrierRequest request =>
    obtain rfl := mem_singleton.mp ho
    exact ⟨by rw [hterm]; exact le_max_left _ _, trivial⟩
  | _ => cases ho

/-- **Every outbound message is covered by the state that the call leaves.** -/
theorem effect_covered (h : n.WellFormed boot) (heff : Effect n call n' transition) :
    ∀ outbound ∈ transition.outbound, Covered n'.state outbound := by
  have hwf := h.effect heff
  intro _ ho
  cases heff with
  | campaigned =>
    obtain ⟨peer, -, rfl⟩ := mem_map.mp ho
    exact ⟨le_rfl, rfl, rfl, rfl, rfl⟩
  | campaignWon =>
    have hterm : n.state.currentTerm + 1 ≤ (n.campaign.elected {n.id}).state.currentTerm := le_rfl
    exact covered_announcement h.state hterm rfl rfl rfl ho
  | appendedLocal _ entry room tracked trackedNext advanced =>
    obtain ⟨hnext, hrole⟩ := h.localNext entry room tracked trackedNext advanced
    exact covered_appendToAll hnext hrole ho
  | appendedMembership _ _ entry advanced =>
    obtain ⟨hnext, hrole⟩ := h.membershipNext entry advanced
    rw [stepDownIfRemoved_state]
    exact covered_appendToAll hnext hrole ho
  | installAborted =>
    obtain rfl := mem_singleton.mp ho
    exact ⟨le_rfl, by simp⟩
  | installCompleted =>
    obtain rfl := mem_singleton.mp ho
    exact ⟨le_rfl, fun _ => le_rfl⟩
  | heartbeat leader => exact covered_appendToAll h leader ho
  | barrierOpened =>
    obtain ⟨_, -, rfl⟩ := mem_map.mp ho
    exact ⟨le_rfl, trivial⟩
  | observed source message => exact covered_refusal n source message ho
  | granted source request _ _ term =>
    obtain rfl := mem_singleton.mp ho
    have hterm : ((n.observe request.term).grant source).state.currentTerm = request.term := by
      have := observe_currentTerm n request.term
      rw [Nat.max_eq_right term] at this
      exact this
    exact ⟨hterm.ge, fun _ => ⟨hterm.symm, rfl⟩⟩
  | voteWon => exact covered_announcement h.state le_rfl rfl rfl rfl ho
  | appendRejected _ request _ term =>
    obtain rfl := mem_singleton.mp ho
    obtain ⟨hterm, hfailure⟩ := rejection_term n.state request
    refine ⟨?_, by simp [hfailure]⟩
    rw [becomeFollower_currentTerm term]
    exact hterm.le
  | appendAccepted _ _ _ received =>
    obtain rfl := mem_singleton.mp ho
    obtain ⟨_, hk⟩ := received.acceptable.spliced h.state
    refine ⟨le_rfl, fun _ => ?_⟩
    have hlast := received.acceptable.lastIndex h.state
    exact hk.accepted_le.trans hlast.ge
  | appendConfirmed _ _ _ answered =>
    split at ho
    · obtain rfl := mem_singleton.mp ho
      exact covered_replication hwf answered.leader (by simp [progress])
    · cases ho
  | appendCommitted _ _ received answered success tracked advanced =>
    have hconfirmed := h.confirmed answered tracked (received.appendResponse success)
    rw [stepDownIfRemoved_state]
    exact covered_appendToAll (hconfirmed.advanced advanced)
      (advanced.role_eq.trans answered.leader) ho
  | appendBackedOff _ _ _ answered =>
    obtain rfl := mem_singleton.mp ho
    exact covered_replication hwf answered.leader (by simp [backOff])
  | installCovered _ _ _ term =>
    obtain rfl := mem_singleton.mp ho
    refine ⟨(becomeFollower_currentTerm term _).ge, fun _ => ?_⟩
    rw [becomeFollower_state]
    split <;> exact le_rfl
  | installCompeting _ _ _ term _ answers =>
    rcases answers with rfl | rfl
    · cases ho
    · obtain rfl := mem_singleton.mp ho
      exact ⟨(becomeFollower_currentTerm term _).ge, by simp⟩
  | installConfirmed _ _ _ answered =>
    obtain rfl := mem_singleton.mp ho
    exact covered_replication hwf answered.leader (by simp [progress])
  | installFailed _ _ _ answered =>
    obtain rfl := mem_singleton.mp ho
    exact covered_replication h answered.leader answered.trackedNext
  | barrierAcknowledged _ _ _ term =>
    obtain rfl := mem_singleton.mp ho
    exact ⟨(becomeFollower_currentTerm term _).ge, trivial⟩
  | _ => cases ho

/-- An acknowledged append request is in the log that the call leaves. -/
lemma effect_acknowledged (h : n.WellFormed boot) {source : NodeId}
    {request : AppendEntriesRequest}
    (heff : Effect n (.receive source (.appendEntriesRequest request)) n' transition)
    {response : AppendEntriesResponse}
    (ho : ⟨source, .appendEntriesResponse response⟩ ∈ transition.outbound)
    (hs : response.success = true) : ∀ entry ∈ request.entries, entry ∈ n'.state.log := by
  cases heff with
  | observed =>
    obtain rfl : response = _ := by simpa using mem_singleton.mp ho
    cases hs
  | appendRejected =>
    obtain rfl : response = _ := by simpa using mem_singleton.mp ho
    rw [(rejection_term n.state request).2] at hs
    cases hs
  | appendAccepted _ _ _ received =>
    obtain ⟨_, hk⟩ := received.acceptable.spliced h.state
    intro _ he
    obtain ⟨j, hj, rfl⟩ := getElem_of_mem he
    exact mem_of_getElem? (hk.holds j _ (getElem?_eq_getElem hj))
  | appendedLocal appends => cases appends
  | appendedMembership change =>
    rcases change with hcall | ⟨_, hcall⟩ <;> cases hcall
  | unchanged => cases ho

end Coverage

/-! ### The contract -/

/-- **Error atomicity and persist before send.** In every state that a node reaches from any
accepted persistent state by any calls, a failing call leaves the whole node as it was.  A
successful call that changes the persistent state reports the new state, and its outbound messages
promise no term, vote, log entry or commit index beyond the state it leaves: beyond the old state,
if that has not changed.  Where it acknowledges an append request, the log holds its entries. -/
theorem failed_call_unchanged_and_sent_within_reported {nodeId : NodeId} {voters : List NodeId}
    {persistent : PersistentState} {limits : RaftLimits} {n₀ : RaftNode}
    (h : RaftNode.create nodeId voters persistent limits = .ok n₀) (calls : List Call)
    (call : Call) (n' : RaftNode) :
    (∀ status, (n₀.run calls).perform call = (n', .error status) → n' = n₀.run calls) ∧
      ∀ transition, (n₀.run calls).perform call = (n', .ok transition) →
        (n'.state ≠ (n₀.run calls).state → transition.persistentState = some n'.state) ∧
        (n'.state = (n₀.run calls).state →
          ∀ outbound ∈ transition.outbound, Covered (n₀.run calls).state outbound) ∧
        (∀ outbound ∈ transition.outbound, Covered n'.state outbound) ∧
        ∀ source request response, call = .receive source (.appendEntriesRequest request) →
          ⟨source, .appendEntriesResponse response⟩ ∈ transition.outbound →
          response.success = true → ∀ entry ∈ request.entries, entry ∈ n'.state.log := by
  have hwf := (run_wellFormed h calls).1
  refine ⟨fun status herror => perform_error herror, fun transition hok => ?_⟩
  have heff := perform_effect hok
  have hcovered := effect_covered hwf heff
  refine ⟨fun hne => ?_, fun heq => heq ▸ hcovered, hcovered, ?_⟩
  · rcases effect_persistent heff with hp | ⟨-, heq⟩
    · exact hp
    · exact absurd heq hne
  · rintro _ _ _ rfl ho hs
    exact effect_acknowledged hwf heff ho hs

/-- The contract at the start of an election: the new term and vote are reported before the two
vote requests that promise them. -/
theorem failed_call_unchanged_and_sent_within_reported_campaign :
    ∃ n₀ n' transition, RaftNode.create 1 [1, 2, 3] {} {} = .ok n₀ ∧
      n₀.perform .startElection = (n', .ok transition) ∧ n'.state ≠ n₀.state ∧
      transition.persistentState = some n'.state ∧ transition.outbound.length = 2 := by
  refine ⟨_, _, _, rfl, rfl, by decide, ?_, by decide⟩
  exact ((@failed_call_unchanged_and_sent_within_reported 1 [1, 2, 3] {} {} _ rfl []
    .startElection _).2 _ rfl).1 (by decide)

end Chronos.Raft
