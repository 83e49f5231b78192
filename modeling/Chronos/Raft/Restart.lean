import Chronos.Raft.WellFormed

/-!
`RaftNode::create` and the structural invariant.

* `persistentLogValid_iff`: the loop of `create` accepts exactly the contiguous
  logs of valid entries.
* `create_wellFormed`: a created node is well formed and fresh.
* `create_of_wellFormed`: from the persistent state of a well-formed node,
  `create` succeeds and derives the membership that the node had.
-/

namespace Chronos.Raft

open RaftNode

/-- The loop of `create` accepts exactly the contiguous logs of valid entries. -/
lemma persistentLogValid_iff {limits : RaftLimits} {currentTerm s : ℕ} {log : List LogEntry} :
    persistentLogValid limits currentTerm (s + 1) log = .ok () ↔
      Contiguous s log ∧ ∀ entry ∈ log, EntryValid limits currentTerm entry := by
  induction log generalizing s with
  | nil => simp [persistentLogValid, Contiguous.nil]
  | cons entry log ih =>
    rw [persistentLogValid, Result.bind_eq_ok, Contiguous.cons_iff]
    simp only [ih, List.forall_mem_cons]
    constructor
    · rintro ⟨_, hentry, hcont, hvalid⟩
      unfold persistentEntryValid at hentry
      split_ifs at hentry with hguard hnoop
      simp only [not_or, not_not, not_lt] at hguard
      simp only [not_and, not_not] at hnoop
      obtain ⟨h1, h2, h3, h4, h5, h6⟩ := hguard
      exact ⟨⟨h1, hcont⟩, ⟨h2, h3, h4, h5, h6, hnoop⟩, hvalid⟩
    · rintro ⟨⟨hindex, hcont⟩, hentry, hvalid⟩
      refine ⟨(), ?_, hcont, hvalid⟩
      unfold persistentEntryValid
      rw [if_neg, if_neg]
      · rintro ⟨htype, hpayload⟩
        exact hpayload (hentry.noop htype)
      · simp only [not_or, not_not, not_lt]
        exact ⟨hindex, hentry.index, hentry.term_pos, hentry.term_le, hentry.type, hentry.payload⟩

/-- The arguments that `create` accepts. -/
structure ValidArguments (nodeId : NodeId) (voters : List NodeId) (limits : RaftLimits) :
    Prop where
  bounds : ¬ (nodeId = 0 ∨ voters = [] ∨ voters.length > limits.maximumVoters ∨
    limits.maximumVoters = 0 ∨ limits.maximumVoters > maximumMembershipVoters ∨
    limits.maximumLogEntries = 0 ∨ limits.maximumEntryBytes = 0 ∨
    limits.maximumAppendEntries = 0 ∨ limits.maximumPersistentStateBytes = 0 ∨
    limits.maximumPersistentStateBytes > maximumRaftPersistentStatePayloadSize)
  voters : ¬ ((voters.insertionSort (· ≤ ·)).head? = some 0 ∨
    ¬ (voters.insertionSort (· ≤ ·)).Pairwise (· < ·))

/-- The node that `create` builds from a persistent state: the durable part of a node, everything
else as at the start. -/
def RaftNode.restarted (n : RaftNode) : RaftNode :=
  { id := n.id
    baseVoters := n.baseVoters
    committedVoters := n.committedVoters
    voters := n.voters
    joint := n.joint
    state := n.state
    limits := n.limits }

/-- Canonical empty snapshot metadata is the default. -/
lemma eq_default_of_canonical {snapshot : SnapshotMetadata} (h0 : snapshot.lastIncludedIndex = 0)
    (h : noncanonicalEmptySnapshot snapshot = false) : snapshot = {} := by
  obtain ⟨_, _, _, checksum, _, _⟩ := snapshot
  simp only [noncanonicalEmptySnapshot, Bool.or_eq_false_iff, decide_eq_false_iff_not,
    not_not, Bool.not_eq_false', List.isEmpty_iff, List.any_eq_false] at h h0
  obtain ⟨⟨⟨⟨hterm, hgen⟩, hsum⟩, hconf⟩, hvoters⟩ := h
  have hchecksum : checksum = Vector.replicate 32 0 := by
    ext i hi
    have hzero : checksum[i] = 0 := by simpa using hsum checksum[i] (by simp)
    simp [hzero]
  simp [h0, hterm, hgen, hchecksum, hconf, hvoters]

section Create

variable {nodeId : NodeId} {voters : List NodeId} {persistent : PersistentState}
  {limits : RaftLimits} {n : RaftNode}

lemma createState_eq
    (h : persistent.snapshot.lastIncludedIndex = 0 ∨ persistent.snapshot.voters ≠ []) :
    createState voters persistent = persistent := by
  rw [createState, if_neg]
  rintro ⟨h0, hnil⟩
  exact h.elim h0 fun hne => hne hnil

/-- The voters and the state that `create` keeps fit together. -/
lemma createBase_eq :
    createBase voters persistent =
      startVoters voters (createState voters persistent).snapshot := by
  unfold createBase createState startVoters
  by_cases h0 : persistent.snapshot.lastIncludedIndex = 0
  · simp [h0]
  · by_cases hv : persistent.snapshot.voters = [] <;> simp [h0, hv]

/-- What the end of `create` has established. -/
lemma createChecked_eq_ok {base : List NodeId} {state : PersistentState}
    (h : createChecked nodeId base state limits = .ok n) :
    state.log.length ≤ limits.maximumLogEntries ∧
      (state.snapshot.lastIncludedIndex ≠ 0 →
        validSnapshot state.snapshot limits.maximumVoters = true) ∧
      persistentStateFits state.snapshot.voters.length state.log limits = .ok () ∧
      (state.snapshot.lastIncludedIndex ≤ state.appliedIndex ∧
        state.appliedIndex ≤ state.commitIndex ∧ state.commitIndex ≤ state.lastIndex ∧
        state.votedFor ≠ some 0) ∧
      ∃ membership, deriveMembership base state.log state.commitIndex limits.maximumVoters =
          .ok membership ∧
        n = { id := nodeId
              baseVoters := base
              committedVoters := membership.committedVoters
              voters := membership.activeVoters
              joint := membership.joint
              state := state
              limits := limits } := by
  unfold createChecked at h
  split at h
  · cases h
  rename_i hcapacity
  split at h
  · cases h
  rename_i hvalid
  split at h
  · cases h
  rename_i hfits
  obtain ⟨membership, hderive, h⟩ := Result.bind_eq_ok.mp h
  split_ifs at h with hindexes
  cases h
  simp only [not_or, not_lt] at hindexes
  obtain ⟨-, hlast, happlied, hcommit, hvote⟩ := hindexes
  simp only [not_and, Bool.not_eq_false] at hvalid
  obtain ⟨_, hfits⟩ := Result.isOk_iff.mp (by simpa using hfits)
  exact ⟨by omega, hvalid, hfits, ⟨happlied, hcommit, hlast, hvote⟩, membership, hderive, rfl⟩

/-- **A created node** has accepted arguments, is well formed and fresh, and holds the given
state, except that a snapshot without voters gets the bootstrap voters. -/
theorem create_wellFormed (h : create nodeId voters persistent limits = .ok n) :
    ValidArguments nodeId voters limits ∧ n.WellFormed voters ∧ n.restarted = n ∧
      n.id = nodeId ∧ n.limits = limits ∧ n.state = createState voters persistent := by
  unfold create at h
  split_ifs at h with hbounds hvoters hvote hempty _ hterm
  obtain ⟨_, hlog, h⟩ := Result.bind_eq_ok.mp h
  obtain ⟨hcont, hentries⟩ := persistentLogValid_iff.mp hlog
  obtain ⟨hcapacity, hvalid, hfits, ⟨hsa, hac, hcl, hv⟩, _, hderive, rfl⟩ :=
    createChecked_eq_ok h
  -- the state differs from the given one at most in the voters of its snapshot
  have hsame : (createState voters persistent).snapshot.lastIncludedIndex =
        persistent.snapshot.lastIncludedIndex ∧
      (createState voters persistent).snapshot.lastIncludedTerm =
        persistent.snapshot.lastIncludedTerm ∧
      (createState voters persistent).log = persistent.log ∧
      (createState voters persistent).currentTerm = persistent.currentTerm ∧
      (createState voters persistent).votedFor = persistent.votedFor := by
    unfold createState
    split <;> simp
  obtain ⟨hindex, hsnapterm, hlogs, hterms, hvotes⟩ := hsame
  refine ⟨⟨hbounds, hvoters⟩, ?_, rfl, rfl, rfl, rfl⟩
  refine ⟨fun h0 => hbounds (.inl h0), ?_, createBase_eq, hderive, by simp, by simp, by simp⟩
  refine
    { contiguous := by rw [PersistentState.LogContiguous, hindex, hlogs]; exact hcont
      snapshot_le_applied := hsa
      applied_le_commit := hac
      commit_le_last := hcl
      entries := by rw [hlogs, hterms]; exact hentries
      capacity := hcapacity
      fits := hfits
      vote_of_term_zero := ?_
      vote_ne_zero := hv
      snapshot_empty := ?_
      snapshot_valid := hvalid
      snapshot_term := by rw [hsnapterm, hterms]; omega }
  · rw [hterms, hvotes]
    intro h0
    by_contra hne
    exact hvote ⟨h0, hne⟩
  · rw [hindex]
    intro h0
    rw [createState_eq (.inl h0)]
    exact eq_default_of_canonical h0 (by simpa [h0] using hempty)

/-- **Restart**: from the persistent state of a well-formed node `create` builds the same node,
fresh but for its durable part. -/
theorem create_of_wellFormed (hargs : ValidArguments n.id voters n.limits)
    (h : n.WellFormed voters) : create n.id voters n.state n.limits = .ok n.restarted := by
  have hstate : createState voters n.state = n.state := by
    by_cases h0 : n.state.snapshot.lastIncludedIndex = 0
    · exact createState_eq (.inl h0)
    · exact createState_eq (.inr (validSnapshot_index (h.state.snapshot_valid h0)).2.1)
  have hbase : createBase voters n.state = n.baseVoters := by
    rw [createBase_eq, hstate, h.base]
  have hlog : persistentLogValid n.limits n.state.currentTerm
      (n.state.snapshot.lastIncludedIndex + 1) n.state.log = .ok () :=
    persistentLogValid_iff.mpr ⟨h.state.contiguous, h.state.entries⟩
  have hmax : n.state.snapshot.lastIncludedIndex ≠ u64Max := by
    by_cases h0 : n.state.snapshot.lastIncludedIndex = 0
    · rw [h0]; decide
    · exact (validSnapshot_index (h.state.snapshot_valid h0)).2.2
  have hempty : ¬ (n.state.snapshot.lastIncludedIndex = 0 ∧
      noncanonicalEmptySnapshot n.state.snapshot = true) := by
    rintro ⟨h0, hbad⟩
    rw [h.state.snapshot_empty h0] at hbad
    revert hbad
    decide
  have happlied := h.state.snapshot_le_applied
  have hcommit := h.state.applied_le_commit
  have hlast := h.state.commit_le_last
  have hterm := h.state.snapshot_term
  rw [create, if_neg hargs.bounds, if_neg hargs.voters,
    if_neg (fun hbad => hbad.2 (h.state.vote_of_term_zero hbad.1)), if_neg hempty, if_neg hmax,
    if_neg (by omega), hlog, hstate, hbase]
  change createChecked n.id n.baseVoters n.state n.limits = _
  rw [createChecked, if_neg (by have := h.state.capacity; omega),
    if_neg (fun hbad => by simp [h.state.snapshot_valid hbad.1] at hbad),
    if_neg (by simp [h.state.fits, Result.isOk]), h.derived]
  change (if _ then _ else _) = _
  rw [if_neg]
  · rfl
  · simp only [not_or, not_lt]
    exact ⟨by omega, hlast, happlied, hcommit, h.state.vote_ne_zero⟩

end Create

end Chronos.Raft
