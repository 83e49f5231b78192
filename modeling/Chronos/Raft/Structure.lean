import Chronos.Raft.Restart

/-!
The structural invariant along runs of one node, and restartability.

* `RaftNode.WellFormed.effect`: every call preserves the invariant.
* `RaftNode.run`: a node after a list of public calls, with arbitrary messages.
* `Advances`: what a call can do to term and vote; it composes.
* `structural_and_restartable`: the invariant of every reachable state, and the
  restart from it.
-/

namespace Chronos.Raft

open RaftNode

/-! ### Facts from validation -/

section Received

variable {n : RaftNode} {source : NodeId} {validated : Option ValidatedAppend}

lemma Received.term_ne_zero {message : Message} (h : Received n source message validated) :
    message.term ≠ 0 := by
  intro h0
  have hvalid := h.valid
  unfold validateMessage at hvalid
  rw [if_pos h0] at hvalid
  cases hvalid

lemma Received.appendResponse {response : AppendEntriesResponse}
    (h : Received n source (.appendEntriesResponse response) validated)
    (hs : response.success = true) : response.matchIndex ≤ n.state.lastIndex := by
  have hvalid := h.valid
  rw [validateMessage, if_neg h.term_ne_zero] at hvalid
  split_ifs at hvalid with hguard
  by_contra hlt
  exact hguard (.inr (.inl ⟨hs, .inl (by omega)⟩))

lemma Received.installResponse {response : InstallSnapshotResponse}
    (h : Received n source (.installSnapshotResponse response) validated)
    (hs : response.success = true) : response.lastIncludedIndex ≤ n.state.lastIndex := by
  have hvalid := h.valid
  rw [validateMessage, if_neg h.term_ne_zero] at hvalid
  split_ifs at hvalid with hguard
  by_contra hlt
  exact hguard (.inr ⟨hs, .inr (by omega)⟩)

lemma Received.installRequest {request : InstallSnapshotRequest}
    (h : Received n source (.installSnapshotRequest request) validated) :
    request.leaderId = source ∧ request.snapshot.lastIncludedTerm ≤ request.term ∧
      validSnapshot request.snapshot n.limits.maximumVoters = true := by
  have hvalid := h.valid
  rw [validateMessage, if_neg h.term_ne_zero] at hvalid
  split_ifs at hvalid with hguard
  simp only [not_or, not_not, not_lt, Bool.not_eq_false] at hguard
  exact hguard

end Received

/-! ### Every call -/

lemma conflictNext_bounds (state : PersistentState) (response : AppendEntriesResponse) :
    1 ≤ conflictNext state response ∧ conflictNext state response ≤ state.lastIndex + 1 := by
  unfold conflictNext
  constructor
  · exact le_max_left _ _
  · dsimp only
    omega

namespace RaftNode.WellFormed

variable {boot : List NodeId} {n n' : RaftNode} {call : Call} {transition : Transition}

/-- **Every successful call preserves the structural invariant.** -/
theorem effect (h : n.WellFormed boot) (heff : Effect n call n' transition) :
    n'.WellFormed boot := by
  cases heff with
  | unchanged => exact h
  | campaigned => exact h.campaign
  | campaignWon => exact h.campaign.elected rfl _
  | appendedLocal _ entry room tracked trackedNext advanced =>
    exact (h.localNext entry room tracked trackedNext advanced).1
  | appendedMembership _ _ entry advanced =>
    exact (h.membershipNext entry advanced).1.stepDownIfRemoved
  | installAborted =>
    exact ⟨h.id_ne_zero, h.state, h.base, h.derived, by simp, h.term_ne_zero, h.tracked⟩
  | installCompleted _ installs => exact h.installed installs
  | compacted _ _ metadata =>
    obtain ⟨_, hc⟩ := prepareSnapshotMetadata_eq_ok metadata
    exact h.compacted hc
  | heartbeat => exact h
  | barrierReady | barrierOpened =>
    exact { h with pending := fun r hp => { h.pending r hp with } }
  | applied _ lower upper =>
    exact ⟨h.id_ne_zero, h.state.withApplied lower.le upper, h.base, h.derived,
      fun r hp => { h.pending r hp with }, h.term_ne_zero, h.tracked⟩
  | observed source message => exact h.observe message.term
  | granted _ request received _ term =>
    refine (h.observe request.term).grant received.source_ne_zero ?_
    rw [observe_currentTerm]
    have := received.term_ne_zero
    simp only [Message.term] at this
    omega
  | voteCounted | barrierCounted | barrierCompleted =>
    exact { h with pending := fun r hp => { h.pending r hp with } }
  | voteWon _ _ _ counts => exact h.elected counts.candidate _
  | appendRejected _ _ _ term | installCovered _ _ _ term | barrierAcknowledged _ _ _ term =>
    exact h.becomeFollower term _
  | appendAccepted _ _ _ received =>
    exact h.accept received.acceptable
  | appendConfirmed _ _ received answered success tracked =>
    exact h.confirmed answered tracked (received.appendResponse success)
  | appendCommitted _ _ received answered success tracked advanced =>
    have hconfirmed := h.confirmed answered tracked (received.appendResponse success)
    exact (hconfirmed.advanced advanced).stepDownIfRemoved
  | appendBackedOff _ response _ answered =>
    obtain ⟨h1, hle⟩ := conflictNext_bounds n.state response
    exact h.backOff answered h1 hle
  | installCompeting _ _ _ term =>
    exact h.becomeFollower term _
  | installPending source _ received term _ newer =>
    have hfollow := h.becomeFollower term (some source)
    obtain ⟨-, hterm, hvalid⟩ := received.installRequest
    refine { hfollow with pending := fun r hp => ?_ }
    cases hp
    refine ⟨?_, hvalid, hterm, (becomeFollower_currentTerm term (some source)).ge, fun _ => rfl⟩
    rw [becomeFollower_state]
    split <;> exact newer
  | installConfirmed _ _ received answered success tracked =>
    exact h.confirmed answered tracked (received.installResponse success)
  | installFailed => exact h

end RaftNode.WellFormed

/-! ### Runs of one node -/

/-- The node after a list of public calls; a failed call changes nothing. -/
def RaftNode.run (n : RaftNode) (calls : List Call) : RaftNode :=
  calls.foldl (fun n call => (n.perform call).1) n

variable {n : RaftNode}

/-- **The induction over runs**: what every successful call preserves holds after any run. -/
lemma run_induction {P : RaftNode → Prop} (start : P n)
    (step : ∀ n call n' transition, P n → Effect n call n' transition → P n') (calls : List Call) :
    P (n.run calls) := by
  induction calls generalizing n with
  | nil => exact start
  | cons call _ ih =>
    refine ih (n := (n.perform call).1) ?_
    rcases hperform : n.perform call with ⟨n', _ | transition⟩
    · rw [perform_error hperform]
      exact start
    · exact step n call n' transition start (perform_effect hperform)

/-- Terms only grow, and a vote stays for as long as its term. -/
structure Advances (old new : PersistentState) : Prop where
  term_le : old.currentTerm ≤ new.currentTerm
  vote : new.currentTerm = old.currentTerm → ∀ candidate, old.votedFor = some candidate →
    new.votedFor = some candidate

namespace Advances

variable {a b c : PersistentState}

lemma of_eq (hterm : b.currentTerm = a.currentTerm) (hvote : b.votedFor = a.votedFor) :
    Advances a b :=
  ⟨hterm.ge, fun _ _ h => hvote.trans h⟩

lemma refl (a : PersistentState) : Advances a a := .of_eq rfl rfl

lemma trans (hab : Advances a b) (hbc : Advances b c) : Advances a c where
  term_le := hab.term_le.trans hbc.term_le
  vote h candidate hc := by
    have h1 := hab.term_le
    have h2 := hbc.term_le
    exact hbc.vote (by omega) candidate (hab.vote (by omega) candidate hc)

lemma of_lt (h : a.currentTerm < b.currentTerm) : Advances a b :=
  ⟨h.le, fun _ => by omega⟩

end Advances

section Effects

variable {n n' : RaftNode} {call : Call} {transition : Transition}

lemma advances_becomeFollower (n : RaftNode) (term : ℕ) (leader : Option NodeId) :
    Advances n.state (n.becomeFollower term leader).state := by
  rw [becomeFollower_state]
  split
  · exact .of_lt ‹_›
  · exact .refl _

lemma advances_observe (n : RaftNode) (term : ℕ) : Advances n.state (n.observe term).state := by
  unfold observe
  split
  · exact advances_becomeFollower n term none
  · exact .refl _

@[simp] lemma installMembership_state (n : RaftNode) (membership : DerivedMembership) :
    (n.installMembership membership).state = n.state := by
  unfold installMembership
  split <;> rfl

@[simp] lemma stepDownIfRemoved_state (n : RaftNode) : n.stepDownIfRemoved.state = n.state := by
  unfold stepDownIfRemoved
  split
  · rw [becomeFollower_state, if_neg (by omega)]
  · rfl

lemma commitTo_state (n : RaftNode) (commit : ℕ) (membership : DerivedMembership) :
    (n.commitTo commit membership).state = { n.state with commitIndex := commit } :=
  installMembership_state _ _

variable {commit : Option ℕ}

/-- The state that `advance_commit` leaves. -/
lemma Advanced.state_eq (h : Advanced n n' commit) :
    n'.state = { n.state with commitIndex := n'.state.commitIndex } := by
  cases h with
  | none => rfl
  | some commit membership => rw [commitTo_state]

/-- Every call advances term and vote. -/
lemma effect_advances (heff : Effect n call n' transition) : Advances n.state n'.state := by
  cases heff with
  | campaigned | campaignWon => exact .of_lt (Nat.lt_succ_self _)
  | appendedLocal _ _ _ _ _ advanced =>
    rw [advanced.state_eq]
    exact .of_eq rfl rfl
  | appendedMembership _ _ _ advanced =>
    rw [stepDownIfRemoved_state, advanced.state_eq]
    simp only [selfTracked, installMembership_state]
    exact .of_eq rfl rfl
  | observed source message => exact advances_observe n message.term
  | granted _ request _ _ term vote =>
    refine (advances_observe n request.term).trans ⟨le_rfl, fun _ candidate hc => ?_⟩
    rw [observe_state] at hc
    split at hc
    · cases hc
    · rcases vote with h | h | h
      · omega
      · rw [h] at hc
        cases hc
      · exact h.symm.trans hc
  | appendRejected | installCovered | installCompeting | barrierAcknowledged =>
    exact advances_becomeFollower _ _ _
  | appendAccepted _ request _ _ term =>
    rcases Nat.lt_or_ge n.state.currentTerm request.term with hlt | hge
    · exact .of_lt hlt
    · refine .of_eq (le_antisymm hge term) ?_
      simp only [accept, acceptedState]
      rw [if_neg (by omega)]
  | appendCommitted _ _ _ _ _ _ advanced =>
    rw [stepDownIfRemoved_state, advanced.state_eq]
    exact .of_eq rfl rfl
  | installPending source request => exact advances_becomeFollower n request.term (some source)
  | _ => exact .of_eq rfl rfl

/-- The identity and the limits of a node. -/
def RaftNode.identity (n : RaftNode) : NodeId × RaftLimits := (n.id, n.limits)

lemma identity_observe (n : RaftNode) (term : ℕ) : (n.observe term).identity = n.identity := by
  unfold observe
  split <;> rfl

lemma identity_installMembership (n : RaftNode) (membership : DerivedMembership) :
    (n.installMembership membership).identity = n.identity := by
  unfold installMembership
  split <;> rfl

lemma identity_stepDownIfRemoved (n : RaftNode) : n.stepDownIfRemoved.identity = n.identity := by
  unfold stepDownIfRemoved
  split <;> rfl

lemma identity_advanced (h : Advanced n n' commit) :
    n'.identity = n.identity := by
  cases h with
  | none => rfl
  | some commit membership => exact identity_installMembership _ _

/-- No call changes identity or limits. -/
lemma effect_identity (heff : Effect n call n' transition) : n'.identity = n.identity := by
  cases heff with
  | appendedLocal _ _ _ _ _ advanced =>
    exact (identity_advanced advanced).trans rfl
  | appendedMembership _ _ _ advanced =>
    rw [identity_stepDownIfRemoved, identity_advanced advanced]
    exact identity_installMembership _ _
  | observed source message => exact identity_observe n message.term
  | granted source request => exact identity_observe n request.term
  | appendCommitted _ _ _ _ _ _ advanced =>
    exact (identity_stepDownIfRemoved _).trans ((identity_advanced advanced).trans rfl)
  | _ => rfl

end Effects

/-! ### The result -/

/-- **The structure of a reachable node**: contiguous log, ordered indexes, bounded terms, and the
progress of a leader within its log. -/
structure Structural (n : RaftNode) : Prop where
  indexes : n.state.log.map LogEntry.index =
    List.range' (n.state.snapshot.lastIncludedIndex + 1) n.state.log.length
  last : n.state.lastIndex = n.state.snapshot.lastIncludedIndex + n.state.log.length
  snapshot_le_applied : n.state.snapshot.lastIncludedIndex ≤ n.state.appliedIndex
  applied_le_commit : n.state.appliedIndex ≤ n.state.commitIndex
  commit_le_last : n.state.commitIndex ≤ n.state.lastIndex
  terms : ∀ entry ∈ n.state.log, 1 ≤ entry.term ∧ entry.term ≤ n.state.currentTerm
  next : n.role = .leader → ∀ peer next, n.nextIndex peer = some next →
    1 ≤ next ∧ next ≤ n.state.lastIndex + 1
  matched : n.role = .leader → ∀ peer found, n.matchIndex peer = some found →
    found ≤ n.state.lastIndex

lemma Contiguous.map_index {s : ℕ} {log : List LogEntry} (h : Contiguous s log) :
    log.map LogEntry.index = List.range' (s + 1) log.length := by
  induction log generalizing s with
  | nil => rfl
  | cons _ _ ih =>
    obtain ⟨hentry, hrest⟩ := Contiguous.cons_iff.mp h
    rw [List.map_cons, List.length_cons, List.range'_succ, hentry, ih hrest]

lemma RaftNode.WellFormed.structural {boot : List NodeId} (h : n.WellFormed boot) :
    Structural n where
  __ := h.state
  indexes := h.state.contiguous.map_index
  last := PersistentState.lastIndex_eq h.state.contiguous
  terms entry he := by
    have hentry := h.state.entries entry he
    exact ⟨Nat.one_le_iff_ne_zero.mpr hentry.term_pos, hentry.term_le⟩
  next hrole := (h.tracked hrole).next_bounds
  matched hrole := (h.tracked hrole).match_le

section Runs

variable {nodeId : NodeId} {voters : List NodeId} {limits : RaftLimits} {n : RaftNode}

/-- Every state of a run is well formed and keeps its identity. -/
lemma run_wellFormed {persistent : PersistentState}
    (h : RaftNode.create nodeId voters persistent limits = .ok n) (calls : List Call) :
    (n.run calls).WellFormed voters ∧ (n.run calls).identity = (nodeId, limits) := by
  obtain ⟨-, hwf, -, hid, hlimits, -⟩ := create_wellFormed h
  refine run_induction (P := fun m => m.WellFormed voters ∧ m.identity = (nodeId, limits))
    ⟨hwf, by rw [identity, hid, hlimits]⟩ ?_ calls
  rintro _ _ _ _ ⟨hm, hidentity⟩ heff
  exact ⟨hm.effect heff, (effect_identity heff).trans hidentity⟩

lemma run_advances (n : RaftNode) (calls : List Call) : Advances n.state (n.run calls).state :=
  run_induction (P := fun m => Advances n.state m.state) (.refl _)
    (fun _ _ _ _ hm heff => hm.trans (effect_advances heff)) calls

/-- **Structure and restart of a node.** After any public calls with arbitrary messages, the state
is structural; along any further calls the term does not decrease, and a vote moves to another
node only with a larger term; and `create` accepts the persistent state and derives the committed
voters, the active voters and the joint configuration that the node has. -/
theorem structural_and_restartable
    (h : RaftNode.create nodeId voters {} limits = .ok n) (calls later : List Call) :
    Structural (n.run calls) ∧
      (n.run calls).state.currentTerm ≤ ((n.run calls).run later).state.currentTerm ∧
      (∀ a b, (n.run calls).state.votedFor = some a →
        ((n.run calls).run later).state.votedFor = some b → a ≠ b →
        (n.run calls).state.currentTerm < ((n.run calls).run later).state.currentTerm) ∧
      ∃ restarted, RaftNode.create nodeId voters (n.run calls).state limits = .ok restarted ∧
        restarted.state = (n.run calls).state ∧
        restarted.committedVoters = (n.run calls).committedVoters ∧
        restarted.voters = (n.run calls).voters ∧
        restarted.joint = (n.run calls).joint := by
  obtain ⟨hwf, hidentity⟩ := run_wellFormed h calls
  have hargs := (create_wellFormed h).1
  have hadv := run_advances (n.run calls) later
  obtain ⟨hid, hlimits⟩ : (n.run calls).id = nodeId ∧ (n.run calls).limits = limits := by
    simpa [identity] using hidentity
  refine ⟨hwf.structural, hadv.term_le, fun a b ha hb hne => ?_, (n.run calls).restarted, ?_, rfl,
    rfl, rfl, rfl⟩
  · refine lt_of_le_of_ne hadv.term_le fun heq => hne ?_
    have hkept := hadv.vote heq.symm a ha
    rw [hb, Option.some.injEq] at hkept
    exact hkept.symm
  · rw [← hid, ← hlimits] at hargs ⊢
    exact create_of_wellFormed hargs hwf

/-- A node is elected, appends an entry and begins to leave node 3. -/
def jointCalls : List Call :=
  [.startElection, .receive 2 (.requestVoteResponse ⟨1, true⟩), .propose 1 [42],
    .beginMembershipChange [1, 2]]

/-- Restarted, it has the log of two entries and the joint configuration it had. -/
theorem structural_and_restartable_joint :
    ∃ n restarted, RaftNode.create 1 [1, 2, 3] {} {} = .ok n ∧ Structural (n.run jointCalls) ∧
      RaftNode.create 1 [1, 2, 3] (n.run jointCalls).state {} = .ok restarted ∧
      restarted.state.log.length = 2 ∧ restarted.joint = (n.run jointCalls).joint ∧
      restarted.joint.isSome := by
  obtain ⟨hstructural, -, -, restarted, hcreate, hstate, -, -, hjoint⟩ :=
    @structural_and_restartable 1 [1, 2, 3] {} _ rfl jointCalls []
  refine ⟨_, restarted, rfl, hstructural, hcreate, ?_, hjoint, ?_⟩
  · rw [hstate]
    decide +kernel
  · rw [hjoint]
    decide +kernel

end Runs

end Chronos.Raft
