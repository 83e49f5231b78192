import Chronos.Raft.Effect

/-!
From `perform` to `Effect`.

* `receive_cases`: a message fails before it is committed, or is validated,
  prepared and committed.
* `lands_voteRequest` and its companions, one for each message kind: a prepared
  message is committed without error and has one of the listed effects.
* `perform_effect`, `perform_error`: the same for all public calls.
-/

namespace Chronos.Raft

open RaftNode Result Except

/-! ### Successful messages -/

section Receive

variable {n n' : RaftNode} {source : NodeId} {transition : Transition}

/-- The persistent state that the last lines of `receive` add. -/
def reported (committed : Committed) (transition : Transition) : Transition :=
  if committed.persistenceChanged ∧ transition.persistentState = none then
    { transition with persistentState := some committed.node.state }
  else transition

/-- A received message either fails without touching the node, or has been validated and prepared
and is committed. -/
lemma receive_cases (n : RaftNode) (source : NodeId) (message : Message) :
    (∃ status, n.receive source message = (n, .error status)) ∨
      ∃ validated prepared, Received n source message validated ∧
        prepareMessage n source message validated = .ok prepared ∧
        n.receive source message =
          (let committed := commitMessage (n.observe message.term) source message validated
            prepared (decide (message.term > n.state.currentTerm))
          (committed.node, committed.status.map (reported committed))) := by
  unfold receive
  by_cases hguard : source = 0 ∨ source = n.id ∨
      (n.voter source = false ∧ message.isLearnerReplicationRequest = false)
  · rw [if_pos hguard]
    exact .inl ⟨_, rfl⟩
  · rw [if_neg hguard]
    cases hvalid : validateMessage n source message with
    | error status => exact .inl ⟨status, rfl⟩
    | ok validated =>
      cases hprep : prepareMessage n source message validated with
      | error status => exact .inl ⟨status, by simp only [hprep]⟩
      | ok prepared =>
        refine .inr ⟨validated, prepared, ⟨?_, ?_, ?_, hvalid⟩, hprep, ?_⟩
        · exact fun h => hguard (.inl h)
        · exact fun h => hguard (.inr (.inl h))
        · by_contra hne
          simp only [not_or, Bool.not_eq_true] at hne
          exact hguard (.inr (.inr hne))
        · simp only [hprep, decide_eq_true_eq]
          rw [← observe]
          cases (commitMessage (n.observe message.term) source message validated prepared
            (decide (message.term > n.state.currentTerm))).status <;> rfl

end Receive

/-- A committed message succeeds with one of the listed effects, and reports the persistent state
whenever it was written. -/
def Lands (n : RaftNode) (source : NodeId) (message : Message) (committed : Committed) : Prop :=
  ∃ node changed transition, committed = ⟨node, changed, .ok transition⟩ ∧
    (changed = true → transition.persistentState ≠ none) ∧
    Effect n (.receive source message) node transition

section Commit

variable {n : RaftNode} {source : NodeId} {validated : Option ValidatedAppend}

/-- The persistent state that the block for newer terms adds when no vote is granted. -/
lemma withTermPersistence_transition (n : RaftNode) (source : NodeId) (term : ℕ)
    {prepared : Prepared} (h : prepared.voteGranted = false)
    (hp : prepared.transition.persistentState = none) :
    (withTermPersistence n source term prepared).transition =
      { prepared.transition with persistentState := n.observedState term } := by
  unfold withTermPersistence observedState
  by_cases hn : term > n.state.currentTerm
  · simp [h, hn, observe_state]
  · simp only [h, hn, Bool.false_eq_true, or_self, if_false]
    cases hq : prepared.transition
    simp_all

variable {term : ℕ}

/-- The block for newer terms does nothing for a message of the node's own term. -/
lemma withTermPersistence_of_eq {prepared : Prepared} (hn : ¬ term > n.state.currentTerm)
    (h : prepared.voteGranted = false) : withTermPersistence n source term prepared = prepared := by
  rw [withTermPersistence, if_neg (by simp [hn, h])]

/-- A newer term is always reported. -/
lemma observedState_ne_none (h : decide (term > n.state.currentTerm) = true) :
    n.observedState term ≠ none := by
  rw [observedState, if_pos (by simpa using h)]
  simp

lemma observedState_of_not_newer (h : ¬ term > n.state.currentTerm) :
    n.observedState term = none := if_neg h

/-- A message that is only observed leaves the observed node and reports a newer term. -/
lemma lands_observed (message : Message) {prepared : Prepared}
    (received : Received n source message validated) (only : OnlyObserved n source message)
    (outbound : prepared.transition =
      { persistentState := n.observedState message.term, outbound := refusal n source message }) :
    Lands n source message ⟨n.observe message.term, decide (message.term > n.state.currentTerm),
      .ok prepared.transition⟩ := by
  refine ⟨_, _, _, rfl, fun h => ?_, ?_⟩
  · rw [outbound]
    exact observedState_ne_none h
  · rw [outbound]
    exact Effect.observed source message received only

/-- A response that no node of its term and role waits for leaves the observed node. -/
lemma commitResponse_observed {role : Role} (hactive : role ≠ .follower)
    (hc : ¬ (term = n.state.currentTerm ∧ n.role = role)) :
    term < (n.observe term).state.currentTerm ∨ (n.observe term).role ≠ role ∨
      term ≠ (n.observe term).state.currentTerm := by
  by_cases hn : term > n.state.currentTerm
  · rw [observe_of_newer hn]
    exact .inr (.inl hactive.symm)
  · rw [observe_of_not_newer hn]
    by_contra hno
    simp only [not_or, not_not] at hno
    exact hc ⟨hno.2.2, hno.2.1⟩

/-! ### Votes -/

variable {request : RequestVoteRequest}

/-- The guards behind a granted vote. -/
lemma voteGranted_eq_true (h : voteGranted n source request = true) :
    n.voter n.id = true ∧ n.state.currentTerm ≤ request.term ∧
      (request.term > n.state.currentTerm ∨ n.state.votedFor = none ∨
        n.state.votedFor = some source) ∧
      candidateLogIsCurrent n.state request.lastLogIndex request.lastLogTerm = true := by
  simp only [voteGranted, Bool.and_eq_true, decide_eq_true_eq] at h
  obtain ⟨⟨⟨hvoter, _⟩, hvote⟩, hcurrent⟩ := h
  refine ⟨hvoter, by omega, ?_, hcurrent⟩
  by_cases hn : request.term > n.state.currentTerm
  · exact .inl hn
  · rw [if_neg hn] at hvote
    exact .inr hvote

lemma withTermPersistence_voteGranted (n : RaftNode) (source : NodeId) (term : ℕ)
    (prepared : Prepared) :
    (withTermPersistence n source term prepared).voteGranted = prepared.voteGranted := by
  unfold withTermPersistence
  split <;> rfl

lemma lands_voteRequest (received : Received n source (.requestVoteRequest request) validated) :
    Lands n source (.requestVoteRequest request)
      (commitVoteRequest (n.observe request.term) source
        (withTermPersistence n source request.term (prepareVoteRequest n source request))
        (decide (request.term > n.state.currentTerm))) := by
  cases hg : voteGranted n source request with
  | false =>
    rw [commitVoteRequest, if_neg
      (by rw [withTermPersistence_voteGranted, prepareVoteRequest, hg]; simp)]
    refine lands_observed (.requestVoteRequest request) received hg ?_
    rw [withTermPersistence_transition n source request.term hg rfl]
    simp only [prepareVoteRequest, hg]
    rfl
  | true =>
    obtain ⟨hvoter, hle, hvote, hcurrent⟩ := voteGranted_eq_true hg
    have htr : (withTermPersistence n source request.term
        (prepareVoteRequest n source request)).transition =
        { persistentState := some ((n.observe request.term).grant source).state
          outbound := [⟨source, .requestVoteResponse ⟨request.term, true⟩⟩] } := by
      unfold withTermPersistence
      rw [if_pos (.inr hg)]
      simp only [prepareVoteRequest, hg, grant, observe_state, if_true, Nat.max_eq_right hle]
    rw [commitVoteRequest, if_pos
      (by rw [withTermPersistence_voteGranted, prepareVoteRequest, hg]), htr]
    exact ⟨_, _, _, rfl, by simp,
      .granted source request received hvoter hle hvote hcurrent⟩

lemma lands_voteResponse {response : RequestVoteResponse}
    (received : Received n source (.requestVoteResponse response) validated) :
    Lands n source (.requestVoteResponse response)
      (commitVoteResponse (n.observe response.term) response
        (withTermPersistence n source response.term (prepareVoteResponse n source response))
        (decide (response.term > n.state.currentTerm))) := by
  by_cases hc : response.term = n.state.currentTerm ∧ n.role = .candidate ∧
      response.granted = true
  · obtain ⟨hterm, hrole, hgranted⟩ := hc
    have hnot : ¬ response.term > n.state.currentTerm := by omega
    rw [observe_of_not_newer hnot, commitVoteResponse,
      if_neg (by simp [hterm, hrole]), if_pos hgranted]
    cases hq : configurationQuorum n.joint n.committedVoters
        (fun node => decide (node ∈ insert source n.votes)) with
    | false =>
      have hprep : prepareVoteResponse n source response =
          { voteResponse := true, responseVotes := insert source n.votes } := by
        simp only [prepareVoteResponse, hterm, hrole, hgranted, hq, and_self, if_true,
          Bool.false_eq_true, if_false]
      rw [hprep, withTermPersistence_of_eq hnot rfl, if_neg (by simp), if_neg (by simp)]
      exact ⟨_, _, _, rfl, by simp [hnot],
        .voteCounted source response received ⟨hterm, hrole, hgranted⟩ hq⟩
    | true =>
      have hprep : prepareVoteResponse n source response =
          { transition :=
              { outbound := announcements n.id n.voters n.state n.state.currentTerm }
            voteResponse := true
            voteQuorum := true
            responseVotes := insert source n.votes
            responseNextIndex := initialNext n.voters n.state.lastIndex
            responseMatchIndex := initialMatch n.id n.voters n.state.lastIndex } := by
        simp only [prepareVoteResponse, hterm, hrole, hgranted, hq, and_self, if_true]
      rw [hprep, withTermPersistence_of_eq hnot rfl, if_neg (by simp), if_pos rfl]
      exact ⟨_, _, _, rfl, by simp [hnot],
        .voteWon source response received ⟨hterm, hrole, hgranted⟩ hq⟩
  · have hprep : prepareVoteResponse n source response = {} := by
      rw [prepareVoteResponse, if_neg hc]
    have hlands : Lands n source (.requestVoteResponse response)
        ⟨n.observe response.term, decide (response.term > n.state.currentTerm),
          .ok (withTermPersistence n source response.term {}).transition⟩ := by
      refine lands_observed (.requestVoteResponse response) received hc ?_
      rw [withTermPersistence_transition n source response.term rfl rfl]
      rfl
    rw [hprep, commitVoteResponse]
    split
    · exact hlands
    · -- a candidate of the term gets a refusal
      rename_i hno
      obtain ⟨hterm, hrole⟩ := not_imp_comm.mp (commitResponse_observed (by decide)) hno
      rwa [if_neg (fun hgranted => hc ⟨hterm, hrole, hgranted⟩)]

/-! ### Append requests -/

/-- What the validation of an append request has established when it leaves a log behind. -/
structure Acceptable (n : RaftNode) (source : NodeId) (request : AppendEntriesRequest)
    (v : ValidatedAppend) : Prop where
  term_ne_zero : request.term ≠ 0
  leader : request.leaderId = source
  previous_zero : request.previousLogIndex = 0 ↔ request.previousLogTerm = 0
  entries : validateEntries n.limits request.term request.previousLogIndex request.entries = .ok ()
  term : n.state.currentTerm ≤ request.term
  previous : n.state.appendPredecessorTerm request.previousLogIndex = some request.previousLogTerm
  conflict : ∃ conflict, firstConflict n.state 0 request.entries = .ok conflict ∧
    ∀ position, conflict = some position →
      splicedLength n.state request.entries position ≤ n.limits.maximumLogEntries
  log : v.log = candidateLog n.state.log request.entries
  commit : v.commit = max n.state.commitIndex (min request.leaderCommit
    ({ n.state with log := v.log } : PersistentState).lastIndex)
  membership : deriveMembership n.baseVoters v.log v.commit n.limits.maximumVoters =
    .ok v.membership
  fits : persistentStateFits n.state.snapshot.voters.length v.log n.limits = .ok ()

variable {request : AppendEntriesRequest} {v : ValidatedAppend}

lemma validateAppend_eq_some (hterm : request.term ≠ 0)
    (h : validateAppend n source request = .ok (some v)) : Acceptable n source request v := by
  unfold validateAppend at h
  split at h
  · cases h
  rename_i hguard
  split at h
  · cases h
  obtain ⟨_, hentries, h⟩ := bind_eq_ok.mp h
  split at h
  · split at h <;> cases h
  split at h
  · split at h <;> cases h
  rename_i hstale hprev
  obtain ⟨conflict, hconflict, h⟩ := bind_eq_ok.mp h
  split_ifs at h with hcapacity
  obtain ⟨_, hderive, h⟩ := bind_eq_ok.mp h
  split at h
  · cases h
  obtain ⟨_, hfits, h⟩ := bind_eq_ok.mp h
  cases h
  simp only [not_or, not_not] at hguard
  refine ⟨hterm, hguard.1, by simpa using hguard.2.1, hentries, by omega, by simpa using hprev,
    ⟨conflict, hconflict, ?_⟩, rfl, rfl, hderive, hfits⟩
  rintro _ rfl
  simpa using hcapacity

lemma Received.acceptable (received : Received n source (.appendEntriesRequest request) (some v)) :
    Acceptable n source request v := by
  have h := received.valid
  rw [validateMessage] at h
  split_ifs at h with hterm
  exact validateAppend_eq_some hterm h

/-- The node that an accepted request leaves, from the observed node. -/
lemma accept_eq (n : RaftNode) (source : NodeId) (request : AppendEntriesRequest)
    (v : ValidatedAppend) :
    (({ n.observe request.term with state := n.acceptedState request v }).becomeFollower
      request.term (some source)).installMembership v.membership = n.accept source request v := by
  rw [installMembership, if_pos (by simp)]
  by_cases hn : request.term > n.state.currentTerm
  · rw [observe_of_newer hn]
    simp [accept, becomeFollower, acceptedState]
  · rw [observe_of_not_newer hn]
    simp [accept, becomeFollower, acceptedState]

/-- An accepted request of the node's own term that changes neither log nor commit index leaves
the persistent state as it is. -/
lemma acceptedState_eq_self (hle : n.state.currentTerm ≤ request.term)
    (hn : ¬ request.term > n.state.currentTerm) (hlog : v.log = n.state.log)
    (hcommit : v.commit = n.state.commitIndex) : n.acceptedState request v = n.state := by
  have hterm : request.term = n.state.currentTerm := by omega
  rw [acceptedState, if_neg hn, hlog, hcommit, hterm]

/-- The node that follows a leader after the new term has been written from the preparation. -/
lemma becomeFollower_advanceTerm (hn : term > n.state.currentTerm) (leader : Option NodeId) :
    ({ n.observe term with state := n.state.advanceTerm term }).becomeFollower term leader =
      n.becomeFollower term leader := by
  rw [observe_of_newer hn]
  simp [becomeFollower, hn, PersistentState.advanceTerm]

lemma lands_appendRequest {prepared : Prepared}
    (received : Received n source (.appendEntriesRequest request) validated)
    (hprep : prepareAppendRequest n source request validated = .ok prepared) :
    Lands n source (.appendEntriesRequest request)
      (commitAppendRequest (n.observe request.term) source request validated prepared
        (decide (request.term > n.state.currentTerm))) := by
  unfold prepareAppendRequest at hprep
  by_cases hstale : request.term < n.state.currentTerm
  · -- a stale request is answered and changes nothing
    rw [if_pos hstale] at hprep
    cases hprep
    have hnot : ¬ request.term > n.state.currentTerm := by omega
    rw [commitAppendRequest, if_neg (by simp), if_pos
      (by rw [observe_of_not_newer hnot]; exact hstale)]
    refine lands_observed (.appendEntriesRequest request) received hstale ?_
    simp only [observedState, Message.term, hnot, if_false]
    rfl
  rw [if_neg hstale] at hprep
  have hle : n.state.currentTerm ≤ request.term := by omega
  have hcur : ¬ request.term < (n.observe request.term).state.currentTerm := by
    rw [observe_currentTerm]; omega
  by_cases hmatch : n.state.appendPredecessorTerm request.previousLogIndex ≠
      some request.previousLogTerm
  · -- the previous position does not match: only the term can be new
    rw [if_pos hmatch] at hprep
    have heff := Effect.appendRejected source request received hle hmatch
    by_cases hn : request.term > n.state.currentTerm
    · simp only [hn, decide_true, if_true, ok.injEq] at hprep
      subst hprep
      rw [commitAppendRequest, if_neg (by simp), if_neg hcur]
      simp only [if_true, Option.getD_some, becomeFollower_advanceTerm hn]
      rw [observedState, if_pos hn, observe_state, if_pos hn] at heff
      exact ⟨_, _, _, rfl, by simp, heff⟩
    · simp only [hn, decide_false, Bool.false_eq_true, if_false, ok.injEq] at hprep
      subst hprep
      rw [commitAppendRequest, if_neg (by simp), if_neg hcur]
      simp only [Bool.false_eq_true, if_false, becomeFollower_observe]
      rw [observedState_of_not_newer hn] at heff
      exact ⟨_, _, _, rfl, by simp [hn], heff⟩
  · -- the request is accepted with the validated log, commit index and membership
    rw [if_neg hmatch] at hprep
    cases validated with
    | none => cases hprep
    | some v =>
      simp only [ok.injEq] at hprep
      subst hprep
      rw [commitAppendRequest, if_neg (by simp), if_neg hcur]
      have hstate : n.acceptedState request v = { n.state with
            currentTerm := request.term
            votedFor := if decide (request.term > n.state.currentTerm) = true then none
              else n.state.votedFor
            log := v.log
            commitIndex := v.commit } := by
        simp only [acceptedState, decide_eq_true_eq]
      simp only [← hstate]
      cases hpersist : (decide (request.term > n.state.currentTerm) ||
          decide (v.log ≠ n.state.log) || decide (v.commit > n.state.commitIndex)) with
      | true =>
        simp only [if_true, Option.getD_some, accept_eq]
        exact ⟨_, _, _, rfl, by simp, .appendAccepted source request v received hle (.inl rfl)⟩
      | false =>
        simp only [Bool.or_eq_false_iff, decide_eq_false_iff_not, not_not] at hpersist
        obtain ⟨⟨hn, hlog⟩, _⟩ := hpersist
        have hmax := received.acceptable.commit
        have hself := acceptedState_eq_self hle hn hlog (by omega : v.commit = _)
        have hnode := accept_eq n source request v
        rw [hself, observe_of_not_newer hn] at hnode
        simp only [Bool.false_eq_true, if_false, observe_of_not_newer hn, hnode]
        exact ⟨_, _, _, rfl, by simp [hn],
          .appendAccepted source request v received hle (.inr ⟨rfl, hself⟩)⟩

/-! ### Append responses -/

/-- A leader prepares a response of its term only from a peer whose progress it tracks. -/
lemma answered_of_prepared {prepared : Prepared} {status : Status}
    {respond : ℕ → Result Prepared}
    (hc : term = n.state.currentTerm ∧ n.role = .leader)
    (hprep : (match n.nextIndex source, n.matchIndex source with
      | some _, some found => respond found
      | _, _ => .error status) = .ok prepared) :
    ∃ found, n.matchIndex source = some found ∧ Answered n source term ∧
      respond found = .ok prepared := by
  cases hnext : n.nextIndex source with
  | none => simp [hnext] at hprep
  | some next =>
  cases hmatch : n.matchIndex source with
  | none => simp [hnext, hmatch] at hprep
  | some found =>
  simp only [hnext, hmatch] at hprep
  exact ⟨found, rfl, ⟨hc.1, hc.2, by simp [hnext]⟩, hprep⟩

/-- The outcome of an append response that moves the commit index. -/
lemma commitAppendResponse_commit {response : AppendEntriesResponse} {prepared : Prepared}
    {found commit : ℕ} (changed : Bool) (answered : Answered n source response.term)
    (hcommit : commitCandidate n.state n.joint n.committedVoters
      (n.progress source (max found response.matchIndex)).matchIndex = some commit)
    (hprep : prepareAppendCommit n (n.progress source (max found response.matchIndex)).nextIndex
      (n.progress source (max found response.matchIndex)).matchIndex commit = .ok prepared) :
    prepared.voteGranted = false ∧ ∃ next,
      Advanced (n.progress source (max found response.matchIndex)) next commit ∧
      commitAppendResponse n response prepared changed =
        ⟨next.stepDownIfRemoved, true, .ok { persistentState := some next.state
                                             outbound := next.appendToAll
                                             advancedCommitIndex := some commit }⟩ := by
  obtain ⟨membership, hderive, h⟩ := bind_eq_ok.mp hprep
  simp only [ok.injEq] at h
  subst h
  refine ⟨rfl, _, .some commit membership hcommit hderive, ?_⟩
  rw [commitAppendResponse, if_neg (by simp [answered.term, answered.leader]), if_neg (by simp)]
  simp only [if_true, Option.getD_some, stepDownIfRemoved, commitTo,
    installMembership, progress, answered.leader, voter, appendToAll,
    ne_eq, not_true_eq_false, if_false, true_and, decide_eq_true_eq, decide_eq_false_iff_not]
  rfl

lemma lands_appendResponse {response : AppendEntriesResponse} {prepared : Prepared}
    (received : Received n source (.appendEntriesResponse response) validated)
    (hprep : prepareAppendResponse n source response = .ok prepared) :
    Lands n source (.appendEntriesResponse response)
      (commitAppendResponse (n.observe response.term) response
        (withTermPersistence n source response.term prepared)
        (decide (response.term > n.state.currentTerm))) := by
  unfold prepareAppendResponse at hprep
  by_cases hc : response.term = n.state.currentTerm ∧ n.role = .leader
  · rw [if_pos hc] at hprep
    obtain ⟨found, hmatch, hanswered, hprep⟩ := answered_of_prepared hc hprep
    obtain ⟨hterm, hrole⟩ := hc
    have hnot : ¬ response.term > n.state.currentTerm := by omega
    rw [observe_of_not_newer hnot]
    cases hs : response.success with
    | false =>
      simp only [hs, Bool.false_eq_true, if_false, ok.injEq] at hprep
      subst hprep
      rw [withTermPersistence_of_eq hnot rfl, commitAppendResponse,
        if_neg (by simp [hterm, hrole]), if_neg (by simp), if_neg (by simp)]
      exact ⟨_, _, _, rfl, by simp [hnot],
        .appendBackedOff source response received hanswered hs (by simp [hmatch])⟩
    | true =>
      simp only [hs, if_true] at hprep
      split at hprep
      · rename_i commit hcommit
        obtain ⟨hvote, _, hadvanced, heq⟩ := commitAppendResponse_commit
          (decide (response.term > n.state.currentTerm)) hanswered hcommit hprep
        rw [withTermPersistence_of_eq hnot hvote, heq]
        exact ⟨_, _, _, rfl, by simp,
          .appendCommitted source response received hanswered hs hmatch hadvanced⟩
      · simp only [ok.injEq] at hprep
        subst hprep
        rw [withTermPersistence_of_eq hnot rfl, commitAppendResponse,
          if_neg (by simp [hterm, hrole]), if_neg (by simp), if_neg (by simp)]
        exact ⟨_, _, _, rfl, by simp [hnot],
          .appendConfirmed source response received hanswered hs hmatch⟩
  · rw [if_neg hc] at hprep
    cases hprep
    rw [commitAppendResponse, if_pos (commitResponse_observed (by decide) hc)]
    refine lands_observed (.appendEntriesResponse response) received hc ?_
    rw [withTermPersistence_transition n source response.term rfl rfl]
    rfl

/-! ### Snapshots -/

variable {request : InstallSnapshotRequest}

/-- The node that a snapshot request of the current or a newer term leaves. -/
lemma commitInstallRequest_eq {prepared : Prepared} {changed : Bool}
    (hle : n.state.currentTerm ≤ request.term) (hreq : prepared.installRequest = true)
    (hpersist : prepared.installRequestPersistence = decide (request.term > n.state.currentTerm))
    (hstate : prepared.installRequestState = n.observedState request.term) :
    commitInstallRequest (n.observe request.term) source request prepared changed =
      ⟨if prepared.installRequestNew then
          { n.becomeFollower request.term (some source) with
            pendingSnapshot := prepared.pendingSnapshot }
        else n.becomeFollower request.term (some source),
        changed || decide (request.term > n.state.currentTerm), .ok prepared.transition⟩ := by
  have hcur : ¬ request.term < (n.observe request.term).state.currentTerm := by
    rw [observe_currentTerm]; omega
  rw [commitInstallRequest, if_neg (by simp [hreq]), if_neg hcur, hpersist, hstate]
  by_cases hn : request.term > n.state.currentTerm
  · rw [observedState, if_pos hn, observe_state, if_pos hn]
    simp only [hn, decide_true, if_true, Option.getD_some, becomeFollower_advanceTerm hn]
  · simp only [hn, decide_false, Bool.false_eq_true, if_false, becomeFollower_observe]

lemma lands_installRequest
    (received : Received n source (.installSnapshotRequest request) validated) :
    Lands n source (.installSnapshotRequest request)
      (commitInstallRequest (n.observe request.term) source request
        (prepareInstallRequest n source request)
        (decide (request.term > n.state.currentTerm))) := by
  by_cases hstale : request.term < n.state.currentTerm
  · have hnot : ¬ request.term > n.state.currentTerm := by omega
    have hprep : (prepareInstallRequest n source request).transition =
        { persistentState := n.observedState request.term
          outbound := refusal n source (.installSnapshotRequest request) } := by
      rw [prepareInstallRequest, if_pos hstale, observedState_of_not_newer hnot]
      rfl
    have hreq : (prepareInstallRequest n source request).installRequest = true := by
      rw [prepareInstallRequest, if_pos hstale]
    rw [commitInstallRequest, if_neg (by simp [hreq]), if_pos
      (by rw [observe_of_not_newer hnot]; exact hstale)]
    exact lands_observed (.installSnapshotRequest request) received hstale hprep
  · have hle : n.state.currentTerm ≤ request.term := by omega
    have hstate : (if decide (request.term > n.state.currentTerm) = true then
        some (n.state.advanceTerm request.term) else none) = n.observedState request.term := by
      simp only [observedState, decide_eq_true_eq]
      split
      · rw [observe_state, if_pos ‹_›]
      · rfl
    have hchanged : ((decide (request.term > n.state.currentTerm) ||
        decide (request.term > n.state.currentTerm)) = true →
          n.observedState request.term ≠ none) := by
      rw [Bool.or_self]
      exact observedState_ne_none
    simp only [prepareInstallRequest, if_neg hstale, hstate]
    by_cases hcovered : request.snapshot.lastIncludedIndex ≤ n.state.snapshot.lastIncludedIndex
    · rw [if_pos hcovered, commitInstallRequest_eq hle rfl rfl rfl]
      exact ⟨_, _, _, rfl, hchanged, .installCovered source request received hle hcovered⟩
    · rw [if_neg hcovered]
      cases hpending : n.pendingSnapshot with
      | some pending =>
        rw [commitInstallRequest_eq hle rfl rfl rfl]
        refine ⟨_, _, _, rfl, hchanged,
          .installCompeting source request received hle hpending ?_⟩
        split
        · exact .inr rfl
        · exact .inl rfl
      | none =>
        rw [commitInstallRequest_eq hle rfl rfl rfl]
        exact ⟨_, _, _, rfl, hchanged,
          .installPending source request received hle hpending (by omega)⟩

lemma lands_installResponse {response : InstallSnapshotResponse} {prepared : Prepared}
    (received : Received n source (.installSnapshotResponse response) validated)
    (hprep : prepareInstallResponse n source response = .ok prepared) :
    Lands n source (.installSnapshotResponse response)
      (commitInstallResponse (n.observe response.term) response
        (withTermPersistence n source response.term prepared)
        (decide (response.term > n.state.currentTerm))) := by
  unfold prepareInstallResponse at hprep
  by_cases hc : response.term = n.state.currentTerm ∧ n.role = .leader
  · rw [if_pos hc] at hprep
    obtain ⟨found, hmatch, hanswered, hprep⟩ := answered_of_prepared hc hprep
    obtain ⟨hterm, hrole⟩ := hc
    have hnot : ¬ response.term > n.state.currentTerm := by omega
    rw [observe_of_not_newer hnot]
    cases hs : response.success with
    | false =>
      simp only [hs, Bool.false_eq_true, if_false, ok.injEq] at hprep
      subst hprep
      rw [withTermPersistence_of_eq hnot rfl, commitInstallResponse,
        if_neg (by simp [hterm, hrole]), if_neg (by simp), if_neg (by simp [hs])]
      exact ⟨_, _, _, rfl, by simp [hnot], .installFailed source response received hanswered hs⟩
    | true =>
      simp only [hs, if_true, ok.injEq] at hprep
      subst hprep
      rw [withTermPersistence_of_eq hnot rfl, commitInstallResponse,
        if_neg (by simp [hterm, hrole]), if_neg (by simp), if_pos hs]
      exact ⟨_, _, _, rfl, by simp [hnot],
        .installConfirmed source response received hanswered hs hmatch⟩
  · rw [if_neg hc] at hprep
    cases hprep
    rw [commitInstallResponse, if_pos (commitResponse_observed (by decide) hc)]
    refine lands_observed (.installSnapshotResponse response) received hc ?_
    rw [withTermPersistence_transition n source response.term rfl rfl]
    rfl

/-! ### Read barriers -/

lemma lands_readBarrierRequest {request : ReadBarrierRequest}
    (received : Received n source (.readBarrierRequest request) validated) :
    Lands n source (.readBarrierRequest request)
      (commitReadBarrierRequest (n.observe request.term) source request
        (withTermPersistence n source request.term {})
        (decide (request.term > n.state.currentTerm))) := by
  have htr := @withTermPersistence_transition n source request.term {} rfl rfl
  rw [commitReadBarrierRequest, htr]
  by_cases hstale : request.term < n.state.currentTerm
  · have hnot : ¬ request.term > n.state.currentTerm := by omega
    have hne : ¬ request.term = n.state.currentTerm := by omega
    rw [observe_of_not_newer hnot]
    simp only [hne, decide_false, Bool.false_eq_true, if_false, List.nil_append]
    have heff := Effect.observed source (.readBarrierRequest request) received hstale
    rw [Message.term, observe_of_not_newer hnot] at heff
    exact ⟨_, _, _, rfl, by simp [hnot], heff⟩
  · have hle : n.state.currentTerm ≤ request.term := by omega
    have hcur : request.term = (n.observe request.term).state.currentTerm := by
      rw [observe_currentTerm]; omega
    simp only [← hcur, decide_true, if_true, becomeFollower_observe, List.nil_append,
      becomeFollower_currentTerm hle]
    exact ⟨_, _, _, rfl, observedState_ne_none,
      .barrierAcknowledged source request received hle⟩

lemma lands_readBarrierResponse {response : ReadBarrierResponse}
    (received : Received n source (.readBarrierResponse response) validated) :
    Lands n source (.readBarrierResponse response)
      (commitReadBarrierResponse (n.observe response.term) source response
        (withTermPersistence n source response.term {})
        (decide (response.term > n.state.currentTerm))) := by
  have htr := @withTermPersistence_transition n source response.term {} rfl rfl
  by_cases hc : ∃ pending, Awaits n response pending
  · obtain ⟨pending, hawaits⟩ := hc
    have ⟨hpending, hterm, hrole, haccepted, hcontext, hbarrier⟩ := hawaits
    have hnot : ¬ response.term > n.state.currentTerm := by omega
    rw [observe_of_not_newer hnot, commitReadBarrierResponse, hpending]
    simp only
    rw [if_neg (by
      simp only [not_or, not_not, hrole, haccepted, hcontext, hbarrier]
      refine ⟨by omega, trivial, by omega, by simp, trivial, trivial⟩),
      withTermPersistence_of_eq hnot rfl]
    cases hq : readBarrierQuorum
        { pending with acknowledgements := insert source pending.acknowledgements } with
    | false =>
      simp only [finishReadBarrier, hq, Bool.false_eq_true, if_false]
      exact ⟨_, _, _, rfl, by simp [hnot],
        .barrierCounted source response pending _ received hawaits rfl hq⟩
    | true =>
      simp only [finishReadBarrier, hq, if_true]
      exact ⟨_, _, _, rfl, by simp [hnot],
        .barrierCompleted source response pending received hawaits hq⟩
  · have hcommit : commitReadBarrierResponse (n.observe response.term) source response
        (withTermPersistence n source response.term {})
        (decide (response.term > n.state.currentTerm)) =
        ⟨n.observe response.term, decide (response.term > n.state.currentTerm),
          .ok (withTermPersistence n source response.term {}).transition⟩ := by
      rw [commitReadBarrierResponse]
      by_cases hn : response.term > n.state.currentTerm
      · rw [observe_of_newer hn]
        rfl
      · rw [observe_of_not_newer hn]
        cases hpending : n.pendingReadBarrier with
        | none => rfl
        | some pending =>
          simp only
          rw [if_pos]
          by_contra hno
          simp only [not_or, not_not, Bool.not_eq_false] at hno
          exact hc ⟨pending, hpending, hno.2.2.1, hno.2.1, hno.2.2.2.1, hno.2.2.2.2.1,
            hno.2.2.2.2.2⟩
    rw [hcommit]
    refine lands_observed (.readBarrierResponse response) received hc ?_
    rw [htr]
    rfl

/-- **Every message that passes preparation is committed**, with one of the listed effects. -/
lemma lands_message {message : Message} {prepared : Prepared}
    (received : Received n source message validated)
    (hprep : prepareMessage n source message validated = .ok prepared) :
    Lands n source message (commitMessage (n.observe message.term) source message validated
      prepared (decide (message.term > n.state.currentTerm))) := by
  cases message with
  | requestVoteRequest request =>
    cases hprep
    exact lands_voteRequest received
  | requestVoteResponse response =>
    cases hprep
    exact lands_voteResponse received
  | appendEntriesRequest request => exact lands_appendRequest received hprep
  | appendEntriesResponse response =>
    obtain ⟨p, hp, h⟩ := bind_eq_ok.mp hprep
    cases h
    exact lands_appendResponse received hp
  | installSnapshotRequest request =>
    cases hprep
    exact lands_installRequest received
  | installSnapshotResponse response =>
    obtain ⟨_, hp, h⟩ := bind_eq_ok.mp hprep
    cases h
    exact lands_installResponse received hp
  | readBarrierRequest request =>
    cases hprep
    exact lands_readBarrierRequest received
  | readBarrierResponse response =>
    cases hprep
    exact lands_readBarrierResponse received

/-- A received message fails and leaves the node as it was, or has one of the listed effects. -/
lemma receive_spec (n : RaftNode) (source : NodeId) (message : Message) :
    (∃ status, n.receive source message = (n, .error status)) ∨
      ∃ n' transition, n.receive source message = (n', .ok transition) ∧
        Effect n (.receive source message) n' transition := by
  obtain h | ⟨_, _, received, hprep, h⟩ := receive_cases n source message
  · exact .inl h
  · obtain ⟨node, _, transition, hcommitted, hchanged, heff⟩ := lands_message received hprep
    refine .inr ⟨node, transition, ?_, heff⟩
    simp only [h, hcommitted, Except.map, reported]
    rw [if_neg (fun hpair => hchanged hpair.1 hpair.2)]

end Commit

/-! ### The other calls -/

section Calls

variable {n n' : RaftNode} {call : Call} {transition : Transition}

/-- A call either fails without touching the node or has one of the listed effects. -/
def Performs (n : RaftNode) (call : Call) (outcome : RaftNode × Result Transition) : Prop :=
  (∃ status, outcome = (n, .error status)) ∨
    ∃ n' transition, outcome = (n', .ok transition) ∧ Effect n call n' transition

lemma Performs.error (status : Status) : Performs n call (n, .error status) := .inl ⟨status, rfl⟩

lemma Performs.ok (h : Effect n call n' transition) : Performs n call (n', .ok transition) :=
  .inr ⟨n', transition, rfl, h⟩

lemma performs_startElection (n : RaftNode) : Performs n .startElection n.startElection := by
  unfold startElection
  split
  · exact .error _
  rename_i hvoter
  have hvoter : n.voter n.id = true := by simpa using hvoter
  split
  · exact .error _
  rename_i hmax
  simp only [not_or] at hmax
  split
  · rename_i hq
    exact .ok (.campaignWon hvoter hmax.1 hq)
  · rename_i hq
    exact .ok (.campaigned hvoter hmax.1 (by simpa using hq))

lemma trackSelf_eq_ok (h : n.trackSelf = .ok n') :
    n.matchIndex n.id ≠ none ∧ n.nextIndex n.id ≠ none ∧ n' = n.selfTracked := by
  unfold trackSelf at h
  split at h
  · rename_i hm hn
    cases h
    exact ⟨by simp [hm], by simp [hn], rfl⟩
  · cases h

lemma advanceCommit_eq_ok {commit : Option ℕ} (h : n.advanceCommit = .ok (n', commit)) :
    Advanced n n' commit := by
  unfold advanceCommit at h
  split at h
  · cases h
    exact .none
  · rename_i candidate hcandidate
    obtain ⟨membership, hderive, hok⟩ := bind_eq_ok.mp h
    cases hok
    exact .some candidate membership hcandidate hderive

@[simp] lemma installMembership_id (n : RaftNode) (membership : DerivedMembership) :
    (n.installMembership membership).id = n.id := by
  unfold installMembership
  split <;> rfl

variable {payload : List UInt8}

/-- A plain entry is appended to the copy that the call prepares. -/
lemma performs_appendLocal {type : UInt8} (appends : call.appends = true)
    (entry : PlainEntry type payload) (room : Appendable n payload) :
    Performs n call (n.installPrepared (n.appendLocalEntry type payload)) := by
  cases h : n.appendLocalEntry type payload with
  | error status => exact .error status
  | ok pair =>
    obtain ⟨_, htracked, happended⟩ := bind_eq_ok.mp h
    obtain ⟨⟨advanced, commit⟩, hadvanced, hok⟩ := bind_eq_ok.mp happended
    obtain ⟨hm, hn, rfl⟩ := trackSelf_eq_ok htracked
    cases hok
    exact .ok (.appendedLocal appends entry room hm hn (advanceCommit_eq_ok hadvanced))

lemma performs_appendMembership {type : UInt8}
    (change : call = .finalizeMembershipChange ∨ ∃ voters, call = .beginMembershipChange voters)
    (barrier : n.pendingReadBarrier = none) (type_mem : isMembershipEntryType type = true)
    (room : Appendable n payload) :
    Performs n call (n.installPrepared (n.appendMembershipEntry type payload)) := by
  cases h : n.appendMembershipEntry type payload with
  | error status => exact .error status
  | ok pair =>
    obtain ⟨membership, hderive, happended⟩ := bind_eq_ok.mp h
    obtain ⟨_, htracked, happended⟩ := bind_eq_ok.mp happended
    obtain ⟨⟨advanced, commit⟩, hadvanced, hok⟩ := bind_eq_ok.mp happended
    obtain ⟨hm, hn, rfl⟩ := trackSelf_eq_ok htracked
    rw [installMembership_id] at hm hn
    cases hok
    exact .ok (.appendedMembership change barrier ⟨room, type_mem, hderive, hm, hn⟩
      (advanceCommit_eq_ok hadvanced))

lemma performs_propose (appends : call.appends = true) (type : UInt8) (payload : List UInt8) :
    Performs n call (n.propose type payload) := by
  unfold propose
  split
  · exact .error _
  rename_i hrole
  split
  · exact .error _
  rename_i hguard
  simp only [not_or, isInternalRaftEntryType, Bool.or_eq_true, decide_eq_true_eq] at hguard
  obtain ⟨htype, ⟨hnoop, hmem⟩, _, _, _⟩ := hguard
  split
  · exact .error _
  · rename_i hfits
    exact performs_appendLocal appends ⟨htype, by simpa using hmem, fun h => absurd h hnoop⟩
      ⟨by simpa using hrole, by omega, by omega, by omega, hfits⟩

section

variable (n : RaftNode)

lemma performs_commitCurrentTerm (appends : call.appends = true) :
    Performs n call n.commitCurrentTerm := by
  unfold commitCurrentTerm
  split
  · exact .error _
  rename_i hrole
  split
  · exact .ok (.unchanged call)
  split
  · exact .error _
  rename_i hguard
  split
  · exact .error _
  · rename_i hfits
    exact performs_appendLocal appends ⟨by decide, by decide, fun _ => rfl⟩
      ⟨by simpa using hrole, by simp, by omega, by omega, hfits⟩

lemma performs_proposeExactRetained (type : UInt8) (payload : List UInt8) :
    Performs n (.proposeExactRetained type payload) (n.proposeExactRetained type payload) := by
  unfold proposeExactRetained
  simp only
  split
  · exact .error _
  split
  · exact .error _
  split
  · exact .ok (.unchanged _)
  split
  · exact performs_commitCurrentTerm n rfl
  · exact performs_propose rfl type payload

lemma performs_beginMembershipChange (voters : List NodeId) :
    Performs n (.beginMembershipChange voters) (n.beginMembershipChange voters) := by
  unfold beginMembershipChange
  simp only
  split
  · exact .error _
  rename_i hrole
  split
  · exact .error _
  rename_i hbarrier
  split
  · split
    · split
      · exact .ok (.unchanged _)
      · exact performs_commitCurrentTerm n rfl
    · exact .error _
  · split
    · exact .error _
    rename_i hguard
    split
    · exact .error _
    split
    · exact .error _
    rename_i hbytes
    split
    · exact .error _
    · rename_i hfits
      exact performs_appendMembership (.inr ⟨voters, rfl⟩) (by simpa using hbarrier) (by decide)
        ⟨by simpa using hrole, by omega, by omega, by omega, hfits⟩

lemma performs_finalizeMembershipChange :
    Performs n .finalizeMembershipChange n.finalizeMembershipChange := by
  unfold finalizeMembershipChange
  split
  · exact .error _
  rename_i hrole
  split
  · exact .error _
  rename_i hbarrier
  split
  · exact .error _
  split
  · split
    · exact .ok (.unchanged _)
    · exact performs_commitCurrentTerm n rfl
  split
  · exact .error _
  rename_i hguard
  split
  · exact .error _
  split
  · exact .error _
  rename_i hbytes
  split
  · exact .error _
  · rename_i hfits
    exact performs_appendMembership (.inl rfl) (by simpa using hbarrier) (by decide)
      ⟨by simpa using hrole, by omega, by omega, by omega, hfits⟩

lemma performs_completeSnapshotInstall (source : NodeId) (snapshot : SnapshotMetadata)
    (flag : Bool) : Performs n (.completeSnapshotInstall source snapshot flag)
      (n.completeSnapshotInstall source snapshot flag) := by
  unfold completeSnapshotInstall
  cases hpending : n.pendingSnapshot with
  | none => exact .error _
  | some pending =>
    simp only
    split
    · exact .error _
    rename_i hmatch
    simp only [not_or, not_not] at hmatch
    obtain ⟨hsource, rfl⟩ := hmatch
    split
    · exact .ok (.installAborted source _ flag pending hpending)
    rename_i hterm
    simp only [not_or, not_not, Bool.not_eq_false] at hterm
    obtain ⟨rfl, hterm⟩ := hterm
    split
    · exact .error _
    rename_i hagrees
    simp only [not_and, not_not] at hagrees
    split
    · exact .error _
    rename_i membership hderive
    split
    · exact .error _
    · rename_i hfits
      exact .ok (.installCompleted hsource ⟨hpending, hterm, hagrees, hderive, hfits⟩)

lemma performs_compactSnapshot (snapshot : SnapshotMetadata) :
    Performs n (.compactSnapshot snapshot) (n.compactSnapshot snapshot) := by
  unfold compactSnapshot
  split
  · exact .error _
  · rename_i prepared hprep
    exact .ok (.compacted snapshot prepared hprep)

lemma performs_beginReadBarrier : Performs n .beginReadBarrier n.beginReadBarrier := by
  unfold beginReadBarrier
  split
  · exact .error _
  rename_i hrole
  split
  · exact .error _
  rename_i hbarrier
  split
  · exact .error _
  rename_i hcommit
  simp only [not_or, not_not] at hcommit
  split
  · exact .error _
  rename_i hcontext
  have hopens : MayOpen n :=
    ⟨by simpa using hrole, by simpa using hbarrier, hcommit.1, hcommit.2, hcontext⟩
  simp only
  split
  · rename_i hq
    exact .ok (.barrierReady hopens hq)
  · rename_i hq
    exact .ok (.barrierOpened hopens (by simpa using hq))

lemma performs_markApplied (index : ℕ) : Performs n (.markApplied index) (n.markApplied index) := by
  unfold markApplied
  split
  · exact .error _
  split
  · exact .ok (.unchanged _)
  · exact .ok (.applied index (by omega) (by omega))

lemma performs_heartbeat : Performs n .heartbeat n.heartbeat := by
  unfold heartbeat
  split
  · exact .error _
  · rename_i hrole
    exact .ok (.heartbeat (by simpa using hrole))

lemma performs_perform (call : Call) : Performs n call (n.perform call) := by
  cases call with
  | startElection => exact performs_startElection n
  | receive source message => exact receive_spec n source message
  | propose type payload => exact performs_propose rfl type payload
  | proposeExactRetained type payload => exact performs_proposeExactRetained n type payload
  | commitCurrentTerm => exact performs_commitCurrentTerm n rfl
  | beginMembershipChange voters => exact performs_beginMembershipChange n voters
  | finalizeMembershipChange => exact performs_finalizeMembershipChange n
  | completeSnapshotInstall source snapshot flag =>
    exact performs_completeSnapshotInstall n source snapshot flag
  | compactSnapshot snapshot => exact performs_compactSnapshot n snapshot
  | heartbeat => exact performs_heartbeat n
  | beginReadBarrier => exact performs_beginReadBarrier n
  | markApplied index => exact performs_markApplied n index

end

/-- **A successful call has one of the listed effects.** -/
theorem perform_effect (h : n.perform call = (n', .ok transition)) :
    Effect n call n' transition := by
  obtain ⟨_, herror⟩ | ⟨_, _, hok, heff⟩ := performs_perform n call
  · rw [herror] at h
    cases h
  · rw [hok] at h
    cases h
    exact heff

/-- **A failed call leaves the node as it was.** -/
theorem perform_error {status : Status} (h : n.perform call = (n', .error status)) : n' = n := by
  obtain ⟨_, herror⟩ | ⟨_, _, hok, -⟩ := performs_perform n call
  · rw [herror] at h
    cases h
    rfl
  · rw [hok] at h
    cases h

end Calls

end Chronos.Raft
