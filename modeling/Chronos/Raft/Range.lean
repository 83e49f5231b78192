import Chronos.Common.Bytes
import Chronos.Raft.Structure

/-!
The numbers of a node stay within their machine type.

Terms, indexes and identities are `uint64` in the source and naturals in the model.
* `Representable`: every number of a state, a message or a call is a `uint64`.
* `run_representable`: a node that is created from representable arguments and is called
  with representable arguments keeps a representable state, so that the naturals
  of the model never leave the type of the source.
-/

namespace Chronos.Raft

open RaftNode List

/-! ### Representable data -/

/-- The numbers of an entry are `uint64`. -/
structure LogEntry.Representable (entry : LogEntry) : Prop where
  index : IsWord entry.index
  term : IsWord entry.term

/-- The numbers of a snapshot are `uint64`. -/
structure SnapshotMetadata.Representable (snapshot : SnapshotMetadata) : Prop where
  lastIncludedIndex : IsWord snapshot.lastIncludedIndex
  lastIncludedTerm : IsWord snapshot.lastIncludedTerm
  manifestGeneration : IsWord snapshot.manifestGeneration
  configurationIndex : IsWord snapshot.configurationIndex
  voters : ∀ voter ∈ snapshot.voters, IsWord voter

/-- The numbers of a persistent state are `uint64`. -/
structure PersistentState.Representable (state : PersistentState) : Prop where
  currentTerm : IsWord state.currentTerm
  votedFor : ∀ candidate, state.votedFor = some candidate → IsWord candidate
  log : ∀ entry ∈ state.log, entry.Representable
  commitIndex : IsWord state.commitIndex
  appliedIndex : IsWord state.appliedIndex
  snapshot : state.snapshot.Representable

/-- The numbers of a message are `uint64`. -/
def Message.Representable : Message → Prop
  | .requestVoteRequest value =>
      IsWord value.term ∧ IsWord value.candidateId ∧ IsWord value.lastLogIndex ∧
        IsWord value.lastLogTerm
  | .requestVoteResponse value => IsWord value.term
  | .appendEntriesRequest value =>
      IsWord value.term ∧ IsWord value.leaderId ∧ IsWord value.previousLogIndex ∧
        IsWord value.previousLogTerm ∧ (∀ entry ∈ value.entries, entry.Representable) ∧
        IsWord value.leaderCommit
  | .appendEntriesResponse value =>
      IsWord value.term ∧ IsWord value.matchIndex ∧
        (∀ term, value.conflictTerm = some term → IsWord term) ∧ IsWord value.conflictIndex
  | .installSnapshotRequest value =>
      IsWord value.term ∧ IsWord value.leaderId ∧ value.snapshot.Representable
  | .installSnapshotResponse value => IsWord value.term ∧ IsWord value.lastIncludedIndex
  | .readBarrierRequest value =>
      IsWord value.term ∧ IsWord value.leaderId ∧ IsWord value.context
  | .readBarrierResponse value => IsWord value.term ∧ IsWord value.context

lemma Message.Representable.term {message : Message} (h : message.Representable) :
    IsWord message.term := by
  cases message with
  | requestVoteResponse value => exact h
  | _ => exact h.1

/-- The numbers among the arguments of a call are `uint64`. -/
def Call.Representable : Call → Prop
  | .receive source message => IsWord source ∧ message.Representable
  | .beginMembershipChange voters => ∀ voter ∈ voters, IsWord voter
  | .completeSnapshotInstall source snapshot _ => IsWord source ∧ snapshot.Representable
  | .compactSnapshot snapshot => snapshot.Representable
  | .markApplied index => IsWord index
  | _ => True

/-! ### Voters that are read from a log -/

variable {m : ℕ}

lemma isWord_decoded {bytes : List UInt8} {jointIndex : ℕ} {newVoters : List NodeId}
    (h : decodeMembershipCommand bytes m = .ok (.final jointIndex newVoters)) :
    ∀ voter ∈ newVoters, IsWord voter := by
  unfold decodeMembershipCommand at h
  dsimp only at h
  split_ifs at h <;> cases h
  intro _ hvoter
  obtain ⟨_, -, rfl⟩ := mem_map.1 hvoter
  exact loadLe_lt _ _ _

/-- A log changes the committed voters only to voters that one of its commands names. -/
lemma isWord_derived {base : List NodeId} {log : List LogEntry} {c : ℕ} {d : DerivedMembership}
    (h : deriveMembership base log c m = .ok d) (hbase : ∀ voter ∈ base, IsWord voter) :
    ∀ voter ∈ d.committedVoters, IsWord voter := by
  rw [deriveMembership_eq] at h
  refine deriveFrom_induction (fun d => ∀ voter ∈ d.committedVoters, IsWord voter) h hbase ?_
  intro _ _ _ _ hd hstep
  cases hstep with
  | plain => exact hd
  | joint => exact hd
  | finalCommitted _ _ decoded => exact isWord_decoded decoded
  | finalPending => exact hd

/-! ### The range of a state -/

/-- The part of representability that does not follow from the structural invariant. -/
structure StateInRange (state : PersistentState) : Prop where
  term : IsWord state.currentTerm
  vote : ∀ candidate, state.votedFor = some candidate → IsWord candidate
  entries : ∀ entry ∈ state.log, IsWord entry.index
  index : IsWord state.snapshot.lastIncludedIndex
  generation : IsWord state.snapshot.manifestGeneration
  voters : ∀ voter ∈ state.snapshot.voters, IsWord voter

namespace StateInRange

variable {state : PersistentState}

lemma lastIndex (h : StateInRange state) : IsWord state.lastIndex := by
  rw [PersistentState.lastIndex]
  rcases hlast : state.log.getLast? with _ | entry
  · exact h.index
  · exact h.entries entry (mem_of_getLast? hlast)

variable {term : ℕ}

lemma advanceTerm (h : StateInRange state) (hterm : IsWord term) :
    StateInRange (state.advanceTerm term) :=
  { h with term := hterm, vote := fun _ hvote => nomatch hvote }

lemma observed (h : StateInRange state) (hterm : IsWord term) :
    StateInRange (if term > state.currentTerm then state.advanceTerm term else state) := by
  split
  · exact h.advanceTerm hterm
  · exact h

/-- A state whose indexes are ordered and whose terms are bounded is representable. -/
lemma representable (h : StateInRange state) {limits : RaftLimits}
    (hstate : StateWellFormed limits state) : state.Representable where
  currentTerm := h.term
  votedFor := h.vote
  log entry hentry :=
    ⟨h.entries entry hentry, lt_of_le_of_lt (hstate.entries entry hentry).term_le h.term⟩
  commitIndex := lt_of_le_of_lt hstate.commit_le_last h.lastIndex
  appliedIndex :=
    lt_of_le_of_lt (hstate.applied_le_commit.trans hstate.commit_le_last) h.lastIndex
  snapshot := by
    refine ⟨h.index, lt_of_le_of_lt hstate.snapshot_term h.term, h.generation, ?_, h.voters⟩
    by_cases hzero : state.snapshot.lastIncludedIndex = 0
    · rw [hstate.snapshot_empty hzero]
      exact Nat.pow_pos (by decide)
    · have hvalid := hstate.snapshot_valid hzero
      simp only [validSnapshot, Bool.and_eq_true, decide_eq_true_eq] at hvalid
      exact lt_of_le_of_lt hvalid.1.2 h.index

end StateInRange

/-! ### Calls -/

section Calls

variable {n n' : RaftNode} {call : Call} {transition : Transition}

/-- The state and the pending snapshot of a node are representable. -/
structure RaftNode.InRange (n : RaftNode) : Prop where
  id : IsWord n.id
  state : StateInRange n.state
  pending : ∀ request, n.pendingSnapshot = some request → request.snapshot.Representable

/-- The entry that a leader appends has a representable index. -/
lemma StateInRange.pushEntry (h : StateInRange n.state) {type : UInt8} {payload : List UInt8}
    (hindex : n.state.lastIndex < u64Max - 1) : StateInRange (n.pushEntry type payload).state := by
  refine { h with entries := fun entry hentry => ?_ }
  rcases mem_append.1 hentry with hold | hnew
  · exact h.entries entry hold
  · rw [mem_singleton.1 hnew]
    exact isWord_of_le_u64Max (by simp only; omega)

/-- Moving the commit index changes nothing that is measured. -/
lemma StateInRange.of_advanced {commit : Option ℕ} (h : StateInRange n.state)
    (ha : Advanced n n' commit) : StateInRange n'.state := by
  rw [ha.state_eq]
  exact { h with }

/-- The log that an acceptable request leaves holds old entries and entries of the request. -/
lemma Acceptable.isWord_entries {source : NodeId} {request : AppendEntriesRequest}
    {v : ValidatedAppend} (h : Acceptable n source request v)
    (hstate : StateWellFormed n.limits n.state) (hrange : StateInRange n.state)
    (hrequest : ∀ entry ∈ request.entries, entry.Representable) :
    ∀ entry ∈ v.log, IsWord entry.index := by
  obtain ⟨_, hk⟩ := h.spliced hstate
  intro entry hentry
  obtain ⟨-, heq⟩ | ⟨_, -, heq⟩ := hk.outcome
  · exact hrange.entries entry (heq ▸ hentry)
  · rw [heq] at hentry
    rcases mem_append.1 hentry with hold | hnew
    · exact hrange.entries entry (mem_of_mem_take hold)
    · exact (hrequest entry hnew).index

variable {boot : List NodeId}

/-- The snapshot that a compaction stores takes its generation from the caller and its voters from
the log. -/
lemma prepareSnapshotMetadata_inRange (hwf : n.WellFormed boot)
    (hboot : ∀ voter ∈ boot, IsWord voter) (hrange : StateInRange n.state)
    {snapshot prepared : SnapshotMetadata} (hsnapshot : snapshot.Representable)
    (h : n.prepareSnapshotMetadata snapshot = .ok prepared) :
    IsWord prepared.lastIncludedIndex ∧ IsWord prepared.manifestGeneration ∧
      ∀ voter ∈ prepared.voters, IsWord voter := by
  obtain ⟨checkpoint, hcompactable⟩ := prepareSnapshotMetadata_eq_ok h
  have hgeneration : prepared.manifestGeneration = snapshot.manifestGeneration := by
    unfold prepareSnapshotMetadata at h
    split_ifs at h
    obtain ⟨_, -, h⟩ := Result.bind_eq_ok.1 h
    dsimp only at h
    split_ifs at h
    obtain ⟨_, -, h⟩ := Result.bind_eq_ok.1 h
    cases h
    rfl
  refine ⟨?_, by rw [hgeneration]; exact hsnapshot.manifestGeneration, ?_⟩
  · exact lt_of_le_of_lt (hcompactable.applied.trans
      (hwf.state.applied_le_commit.trans hwf.state.commit_le_last)) hrange.lastIndex
  · rw [hcompactable.voters]
    refine isWord_derived hcompactable.derived ?_
    rw [hwf.base, startVoters]
    split
    · exact hrange.voters
    · exact fun voter hvoter => hboot voter ((mem_insertionSort _).1 hvoter)

lemma StateInRange.campaign (hid : IsWord n.id) (h : StateInRange n.state)
    (hterm : n.state.currentTerm ≠ u64Max) : StateInRange n.campaign.state := by
  refine { h with term := ?_, vote := ?_ }
  · have hword := h.term
    simp only [RaftNode.campaign, u64Max] at hterm ⊢
    omega
  · rintro _ ⟨⟩
    exact hid

/-- **Every successful call with representable arguments keeps the range.** -/
theorem RaftNode.InRange.effect (hwf : n.WellFormed boot) (hboot : ∀ voter ∈ boot, IsWord voter)
    (h : n.InRange) (hcall : call.Representable) (heff : Effect n call n' transition) :
    n'.InRange := by
  have hid : IsWord n'.id := by
    have hidentity : n'.id = n.id := congrArg Prod.fst (effect_identity heff)
    rw [hidentity]
    exact h.id
  refine ⟨hid, ?_, ?_⟩
  · cases heff with
    | campaigned voter term | campaignWon voter term => exact h.state.campaign h.id term
    | appendedLocal _ _ room _ _ advanced =>
      refine StateInRange.of_advanced ?_ advanced
      exact h.state.pushEntry room.index
    | appendedMembership _ _ entry advanced =>
      rw [stepDownIfRemoved_state]
      refine StateInRange.of_advanced ?_ advanced
      rw [selfTracked, installMembership_state]
      exact h.state.pushEntry entry.index
    | installCompleted _ installs =>
      have hpending := h.pending _ installs.isPending
      refine { h.state with entries := fun entry hentry => ?_
                            index := hpending.lastIncludedIndex
                            generation := hpending.manifestGeneration
                            voters := hpending.voters }
      simp only [installed, installedState, retainedAfter] at hentry
      split at hentry
      · exact h.state.entries entry (mem_of_mem_drop hentry)
      · cases hentry
    | compacted _ _ metadata =>
      obtain ⟨hindex, hgeneration, hvoters⟩ :=
        prepareSnapshotMetadata_inRange hwf hboot h.state hcall metadata
      exact { h.state with
        entries := fun entry hentry => h.state.entries entry (mem_of_mem_drop hentry)
        index := hindex
        generation := hgeneration
        voters := hvoters }
    | applied => exact { h.state with }
    | observed source message =>
      rw [observe_state]
      exact h.state.observed hcall.2.term
    | granted source request =>
      have hobserved := h.state.observed hcall.2.term
      rw [← observe_state] at hobserved
      exact { hobserved with vote := by rintro candidate ⟨⟩; exact hcall.1 }
    | appendRejected | installCovered | installCompeting | installPending | barrierAcknowledged =>
      exact h.state.observed hcall.2.term
    | appendAccepted _ _ _ received term =>
      have hentries := received.acceptable.isWord_entries hwf.state h.state hcall.2.2.2.2.2.1
      refine { h.state with term := hcall.2.term, vote := ?_, entries := hentries }
      intro candidate hvote
      simp only [accept, acceptedState] at hvote
      split_ifs at hvote
      exact h.state.vote candidate hvote
    | appendCommitted _ _ _ _ _ _ advanced =>
      rw [stepDownIfRemoved_state]
      refine StateInRange.of_advanced ?_ advanced
      exact h.state
    | _ => exact h.state
  · cases heff with
    | appendedLocal _ _ _ _ _ advanced =>
      rw [advanced.pendingSnapshot]
      exact h.pending
    | appendedMembership _ _ _ advanced =>
      rw [stepDownIfRemoved_pendingSnapshot, advanced.pendingSnapshot, selfTracked,
        installMembership_pendingSnapshot]
      exact h.pending
    | installAborted | installCompleted => rintro _ ⟨⟩
    | observed source message =>
      rw [observe_pendingSnapshot]
      exact h.pending
    | granted source request =>
      rw [grant, observe_pendingSnapshot]
      exact h.pending
    | appendCommitted _ _ _ _ _ _ advanced =>
      rw [stepDownIfRemoved_pendingSnapshot, advanced.pendingSnapshot]
      exact h.pending
    | installPending source request =>
      rintro _ ⟨⟩
      exact hcall.2.2.2
    | _ => exact h.pending

end Calls

/-! ### Runs -/

variable {nodeId : NodeId} {voters : List NodeId} {persistent : PersistentState}
  {limits : RaftLimits} {n : RaftNode}

section

variable (h : RaftNode.create nodeId voters persistent limits = .ok n) (hid : IsWord nodeId)
  (hvoters : ∀ voter ∈ voters, IsWord voter) (hpersistent : persistent.Representable)
include h hid hvoters hpersistent

/-- A node starts in range if its arguments are. -/
lemma create_inRange :
    n.InRange := by
  obtain ⟨-, -, hfresh, hnode, -, hstate⟩ := create_wellFormed h
  refine ⟨hnode ▸ hid, ?_, ?_⟩
  · have hrange : StateInRange persistent :=
      ⟨hpersistent.currentTerm, hpersistent.votedFor,
        fun entry hentry => (hpersistent.log entry hentry).index,
        hpersistent.snapshot.lastIncludedIndex, hpersistent.snapshot.manifestGeneration,
        hpersistent.snapshot.voters⟩
    rw [hstate, createState]
    split
    · exact { hrange with
        voters := fun voter hvoter => hvoters voter ((mem_insertionSort _).1 hvoter) }
    · exact hrange
  · rw [← hfresh]
    rintro _ ⟨⟩

/-- **Runs keep the range**: every state that a node reaches by representable calls is
representable. -/
theorem run_representable (calls : List Call) (hcalls : ∀ call ∈ calls, call.Representable) :
    (n.run calls).state.Representable := by
  suffices hrun : (n.run calls).InRange from
    hrun.state.representable (run_wellFormed h calls).1.state
  have hstart := create_inRange h hid hvoters hpersistent
  have hwf : n.WellFormed voters := (run_wellFormed h []).1
  clear h
  induction calls generalizing n with
  | nil => exact hstart
  | cons call calls ih =>
    have hlater := fun later hmem => hcalls later (mem_cons_of_mem call hmem)
    change ((n.perform call).1.run calls).InRange
    rcases hperform : n.perform call with ⟨_, _ | _⟩
    · rw [perform_error hperform]
      exact ih hlater hstart hwf
    · have heff := perform_effect hperform
      exact ih hlater (hstart.effect hwf hvoters (hcalls call mem_cons_self) heff)
        (hwf.effect heff)

end

end Chronos.Raft
