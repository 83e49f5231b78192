import Chronos.Common.Runs
import Chronos.Raft.Structure

/-!
The committed prefix of one node under arbitrary messages.

* `Keeps`: commit, applied and snapshot index do not decrease, and committed
  entries that stay in the log stay the same; every call does this
  (`effect_keeps`).
* `KeepsTerm`: the term reported for a committed index stays the same.  A snapshot
  that is installed exactly at the commit index is not compared with the local
  log, so a call keeps the reported terms only if it is no such installation
  with another term (`BoundaryConflict`).
* `committed_prefix_kept`: the two statements along runs;
  `boundary_install_changes_committed_term`: the installation that breaks the
  second.
-/

namespace Chronos.Raft

open PersistentState RaftNode

/-- The committed entries that stay in the log stay the same, and no index decreases. -/
structure Keeps (old new : PersistentState) : Prop where
  commit_le : old.commitIndex ≤ new.commitIndex
  applied_le : old.appliedIndex ≤ new.appliedIndex
  snapshot_le : old.snapshot.lastIncludedIndex ≤ new.snapshot.lastIncludedIndex
  entry : ∀ index, new.snapshot.lastIncludedIndex < index → index ≤ old.commitIndex →
    new.entryAt index = old.entryAt index

/-- The terms reported for committed indexes stay the same. -/
def KeepsTerm (old new : PersistentState) : Prop :=
  ∀ index, new.snapshot.lastIncludedIndex ≤ index → index ≤ old.commitIndex →
    new.termAt index = old.termAt index

section Keeps

variable {a b c : PersistentState}

lemma Keeps.trans (hab : Keeps a b) (hbc : Keeps b c) : Keeps a c where
  commit_le := hab.commit_le.trans hbc.commit_le
  applied_le := hab.applied_le.trans hbc.applied_le
  snapshot_le := hab.snapshot_le.trans hbc.snapshot_le
  entry index hlow hhigh := by
    rw [hbc.entry index hlow (hhigh.trans hab.commit_le),
      hab.entry index (hbc.snapshot_le.trans_lt hlow) hhigh]

lemma KeepsTerm.trans (hab : Keeps a b) (hbc : Keeps b c) (h : KeepsTerm a b)
    (h' : KeepsTerm b c) : KeepsTerm a c := fun index hlow hhigh =>
  (h' index hlow (hhigh.trans hab.commit_le)).trans (h index (hbc.snapshot_le.trans hlow) hhigh)

/-- The same snapshot over a log with the same committed part. -/
lemma Keeps.of_take (hsnapshot : b.snapshot = a.snapshot)
    (hlog : b.log.take (a.commitIndex - a.snapshot.lastIncludedIndex) =
      a.log.take (a.commitIndex - a.snapshot.lastIncludedIndex))
    (hcommit : a.commitIndex ≤ b.commitIndex) (happlied : a.appliedIndex ≤ b.appliedIndex) :
    Keeps a b where
  commit_le := hcommit
  applied_le := happlied
  snapshot_le := by rw [hsnapshot]
  entry index hlow hhigh := by
    rw [hsnapshot] at hlow
    rw [entryAt, entryAt, hsnapshot, if_pos hlow, if_pos hlow]
    have hlt : index - a.snapshot.lastIncludedIndex - 1 <
        a.commitIndex - a.snapshot.lastIncludedIndex := by omega
    rw [← List.getElem?_take_of_lt hlt, hlog, List.getElem?_take_of_lt hlt]

lemma Keeps.refl (a : PersistentState) : Keeps a a := .of_take rfl rfl le_rfl le_rfl

/-- Kept entries have kept terms, so only the boundary of a new snapshot is left to compare. -/
lemma KeepsTerm.of_boundary (ha : a.LogContiguous) (hb : b.LogContiguous) (h : Keeps a b)
    (hboundary : b.snapshot.lastIncludedIndex ≤ a.commitIndex → b.termAt
      b.snapshot.lastIncludedIndex = a.termAt b.snapshot.lastIncludedIndex) : KeepsTerm a b := by
  intro index hlow hhigh
  rcases hlow.eq_or_lt with heq | hlt
  · rw [← heq]
    exact hboundary (heq ▸ hhigh)
  · rw [termAt_eq_entryAt hb hlt,
      termAt_eq_entryAt ha (h.snapshot_le.trans_lt hlt), h.entry index hlt hhigh]

/-- Without a new snapshot there is no new boundary. -/
lemma KeepsTerm.of_same_snapshot (ha : a.LogContiguous) (hb : b.LogContiguous) (h : Keeps a b)
    (hsnapshot : b.snapshot = a.snapshot) : KeepsTerm a b :=
  KeepsTerm.of_boundary ha hb h fun _ => by
    unfold termAt
    rw [hsnapshot]
    simp

end Keeps

/-! ### Calls -/

/-- The installation of a snapshot exactly at the commit index, with a term other than the one the
node reports there. -/
def BoundaryConflict (n : RaftNode) (call : Call) : Prop :=
  ∃ pending ∈ n.pendingSnapshot,
    call = .completeSnapshotInstall pending.leaderId pending.snapshot true ∧
    pending.term = n.state.currentTerm ∧
    pending.snapshot.lastIncludedIndex = n.state.commitIndex ∧
    n.state.termAt n.state.commitIndex ≠ some pending.snapshot.lastIncludedTerm

section Calls

variable {boot : List NodeId} {n n' : RaftNode} {call : Call} {transition : Transition}

variable {snapshot : SnapshotMetadata}

/-- A snapshot behind a suffix of the log keeps the entries behind it. -/
lemma keeps_of_drop {a : PersistentState} {log : List LogEntry} {commit applied : ℕ}
    (hnewer : a.snapshot.lastIncludedIndex < snapshot.lastIncludedIndex)
    (hcommit : a.commitIndex ≤ commit) (happlied : a.appliedIndex ≤ applied)
    (hlog : snapshot.lastIncludedIndex < a.commitIndex →
      log = a.log.drop (a.offsetFor snapshot.lastIncludedIndex + 1)) :
    Keeps a { a with
      snapshot := snapshot, log := log, commitIndex := commit, appliedIndex := applied } where
  commit_le := hcommit
  applied_le := happlied
  snapshot_le := hnewer.le
  entry index hlow hhigh := by
    dsimp only at hlow
    have hposition : a.offsetFor snapshot.lastIncludedIndex + 1 +
        (index - snapshot.lastIncludedIndex - 1) = index - a.snapshot.lastIncludedIndex - 1 := by
      unfold offsetFor
      omega
    rw [entryAt, entryAt, if_pos hlow,
      if_pos (hnewer.trans hlow), hlog (by omega), List.getElem?_drop, hposition]

lemma keeps_compacted {checkpoint : DerivedMembership} (hc : Compactable n snapshot checkpoint) :
    Keeps n.state (n.compacted snapshot).state :=
  keeps_of_drop hc.newer le_rfl le_rfl fun _ => rfl

lemma keeps_installed (h : StateWellFormed n.limits n.state)
    (hnewer : n.state.snapshot.lastIncludedIndex < snapshot.lastIncludedIndex)
    (hagrees : snapshot.lastIncludedIndex < n.state.commitIndex →
      n.state.termAt snapshot.lastIncludedIndex = some snapshot.lastIncludedTerm) :
    Keeps n.state (RaftNode.installedState n.state snapshot) := by
  refine keeps_of_drop hnewer (le_max_left _ _) (le_max_left _ _) fun hlt => ?_
  rw [retainedAfter, if_pos ⟨hagrees hlt, hlt.trans_le h.commit_le_last⟩]

lemma Advanced.commit_le {commit : Option ℕ} (h : Advanced n n' commit) :
    n.state.commitIndex ≤ n'.state.commitIndex := by
  cases h with
  | none => exact le_rfl
  | some _ _ candidate =>
    rw [commitTo_state]
    exact (commitCandidate_bounds candidate).1.le

/-- What both append calls of a leader do to its state: one more entry, and perhaps a larger commit
index. -/
lemma keeps_pushed {m : RaftNode} {commit : Option ℕ} {type : UInt8} {payload : List UInt8}
    (ha : Advanced m n' commit) (hm : m.state = (n.pushEntry type payload).state)
    (h : StateWellFormed n.limits n.state) :
    Keeps n.state n'.state ∧ n'.state.snapshot = n.state.snapshot := by
  have hle := ha.commit_le
  rw [hm] at hle
  have hlast := h.commit_le_last
  rw [lastIndex_eq h.contiguous] at hlast
  rw [ha.state_eq, hm]
  refine ⟨.of_take rfl ?_ hle le_rfl, rfl⟩
  simp only [pushEntry]
  rw [List.take_append_of_le_length (by omega)]

/-- **Every call keeps the committed entries**, and keeps the committed terms unless it is a
boundary conflict. -/
lemma effect_keeps (h : n.WellFormed boot) (heff : Effect n call n' transition) :
    Keeps n.state n'.state ∧ (¬ BoundaryConflict n call → KeepsTerm n.state n'.state) := by
  have hb := (h.effect heff).state.contiguous
  have ha := h.state.contiguous
  -- all calls but the two that install a snapshot leave the snapshot as it is
  have same : Keeps n.state n'.state ∧ n'.state.snapshot = n.state.snapshot →
      Keeps n.state n'.state ∧ (¬ BoundaryConflict n call → KeepsTerm n.state n'.state) :=
    fun hk => ⟨hk.1, fun _ => .of_same_snapshot ha hb hk.1 hk.2⟩
  have follow : ∀ term leader, Keeps n.state (n.becomeFollower term leader).state ∧
      (n.becomeFollower term leader).state.snapshot = n.state.snapshot := by
    intro term leader
    rw [becomeFollower_state]
    split
    · exact ⟨.of_take rfl rfl le_rfl le_rfl, rfl⟩
    · exact ⟨.refl _, rfl⟩
  have observe : ∀ term, Keeps n.state (n.observe term).state ∧
      (n.observe term).state.snapshot = n.state.snapshot := by
    intro term
    rw [observe_state, ← becomeFollower_state n term none]
    exact follow term none
  cases heff with
  | appendedLocal _ _ _ _ _ advanced =>
    exact same (keeps_pushed advanced rfl h.state)
  | appendedMembership _ _ _ advanced =>
    refine same ?_
    rw [stepDownIfRemoved_state]
    exact keeps_pushed advanced (installMembership_state _ _) h.state
  | @installCompleted _ pending _ leader installs =>
    obtain ⟨isPending, term, agrees, -, -⟩ := installs
    have hreq := h.pending pending isPending
    have hkeeps := keeps_installed h.state hreq.newer agrees
    refine ⟨hkeeps, fun hno => KeepsTerm.of_boundary ha hb hkeeps fun hle => ?_⟩
    -- the boundary: below the commit index the guard compares, at it the hypothesis does
    have hterm : n.state.termAt pending.snapshot.lastIncludedIndex =
        some pending.snapshot.lastIncludedTerm := by
      rcases (show pending.snapshot.lastIncludedIndex ≤ n.state.commitIndex from hle).eq_or_lt
        with heq | hlt
      · by_contra hne
        exact hno ⟨pending, isPending, by rw [leader], term, heq, by rwa [← heq]⟩
      · exact agrees hlt
    exact ((installedState n.state pending.snapshot).termAt_snapshot
      (validSnapshot_index hreq.valid).1).trans hterm.symm
  | compacted _ prepared metadata =>
    obtain ⟨_, hc⟩ := prepareSnapshotMetadata_eq_ok metadata
    have hkeeps := keeps_compacted hc
    refine ⟨hkeeps, fun _ => KeepsTerm.of_boundary ha hb hkeeps fun _ => ?_⟩
    exact ((n.compacted prepared).state.termAt_snapshot (validSnapshot_index hc.valid).1).trans
      hc.term.symm
  | applied _ lower => exact same ⟨.of_take rfl rfl le_rfl lower.le, rfl⟩
  | observed source message => exact same (observe message.term)
  | granted source request =>
    refine same ⟨(observe request.term).1.trans (.of_take rfl rfl le_rfl le_rfl), ?_⟩
    exact (observe request.term).2
  | appendRejected source request | installCovered source request
  | installCompeting source request | installPending source request
  | barrierAcknowledged source request => exact same (follow request.term (some source))
  | appendAccepted _ _ _ received =>
    obtain ⟨_, hk⟩ := received.acceptable.spliced h.state
    have hlast := h.state.commit_le_last
    rw [lastIndex_eq ha] at hlast
    have hsnap := h.state.snapshot_le_applied.trans h.state.applied_le_commit
    refine same ⟨.of_take rfl (hk.take_eq (by omega) hlast) ?_ le_rfl, rfl⟩
    exact (le_max_left _ _).trans received.acceptable.commit.ge
  | appendCommitted _ _ _ _ _ _ advanced =>
    refine same ?_
    have hle := advanced.commit_le
    rw [stepDownIfRemoved_state, advanced.state_eq]
    exact ⟨.of_take rfl rfl hle le_rfl, rfl⟩
  | _ => exact same ⟨.of_take rfl rfl le_rfl le_rfl, rfl⟩

end Calls

/-! ### Runs -/

instance (n : RaftNode) (call : Call) : Decidable (BoundaryConflict n call) :=
  inferInstanceAs (Decidable (∃ pending ∈ n.pendingSnapshot, _))

/-- No call of the run is a boundary conflict in the state it meets. -/
abbrev NoBoundaryConflict : RaftNode → List Call → Prop :=
  Runs.Along (fun n call => (n.perform call).1) fun n call => ¬ BoundaryConflict n call

variable {boot : List NodeId} {n : RaftNode}

/-- The step lemma, over failing calls too. -/
lemma perform_keeps (h : n.WellFormed boot) (call : Call) :
    (n.perform call).1.WellFormed boot ∧ Keeps n.state (n.perform call).1.state ∧
      (¬ BoundaryConflict n call → KeepsTerm n.state (n.perform call).1.state) := by
  rcases hperform : n.perform call with ⟨_, _ | _⟩
  · rw [perform_error hperform]
    exact ⟨h, .refl _, fun _ _ _ _ => rfl⟩
  · have heff := perform_effect hperform
    exact ⟨h.effect heff, effect_keeps h heff⟩

/-- The run lemma. -/
lemma run_keeps (h : n.WellFormed boot) (calls : List Call) :
    Keeps n.state (n.run calls).state ∧
      (NoBoundaryConflict n calls → KeepsTerm n.state (n.run calls).state) := by
  induction calls generalizing n with
  | nil => exact ⟨.refl _, fun _ _ _ _ => rfl⟩
  | cons call _ ih =>
    obtain ⟨hwf, hkeeps, hterm⟩ := perform_keeps h call
    obtain ⟨hrest, hrestTerm⟩ := ih hwf
    exact ⟨hkeeps.trans hrest, fun hno =>
      .trans hkeeps hrest (hterm hno.1) (hrestTerm hno.2)⟩

/-- **The committed prefix of a node under arbitrary messages.** From any state of a run on,
commit, applied and snapshot index never decrease, and a committed entry that stays in the log
stays the same.  If no call of the rest of the run installs a snapshot exactly at the commit index
with a term other than the one reported there, the term reported for a committed index stays the
same too, for as long as one is reported. -/
theorem committed_prefix_kept {nodeId : NodeId} {voters : List NodeId} {limits : RaftLimits}
    {n₀ : RaftNode} (h : RaftNode.create nodeId voters {} limits = .ok n₀)
    (calls later : List Call) :
    (n₀.run calls).state.commitIndex ≤ ((n₀.run calls).run later).state.commitIndex ∧
      (n₀.run calls).state.appliedIndex ≤ ((n₀.run calls).run later).state.appliedIndex ∧
      (n₀.run calls).state.snapshot.lastIncludedIndex ≤
        ((n₀.run calls).run later).state.snapshot.lastIncludedIndex ∧
      ∀ index ≤ (n₀.run calls).state.commitIndex,
        (NoBoundaryConflict (n₀.run calls) later →
          ∀ term term', (n₀.run calls).state.termAt index = some term →
            ((n₀.run calls).run later).state.termAt index = some term' → term' = term) ∧
        ∀ entry entry', (n₀.run calls).state.entryAt index = some entry →
          ((n₀.run calls).run later).state.entryAt index = some entry' → entry' = entry := by
  have hwf := (run_wellFormed h calls).1
  have hlater : ((n₀.run calls).run later).WellFormed voters :=
    run_induction hwf (fun _ _ _ _ hm heff => hm.effect heff) later
  obtain ⟨hkeeps, hterm⟩ := run_keeps hwf later
  refine ⟨hkeeps.commit_le, hkeeps.applied_le, hkeeps.snapshot_le, fun index hi => ⟨?_, ?_⟩⟩
  · intro hno term term' hold hnew
    have hsome := (termAt_isSome_iff hlater.state.contiguous index).mp (by rw [hnew]; rfl)
    rcases hsome with rfl | ⟨hlow, -⟩
    · rw [termAt_zero] at hold hnew
      exact (Option.some.inj hnew).symm.trans (Option.some.inj hold)
    · rw [hterm hno index hlow hi, hold, Option.some.injEq] at hnew
      exact hnew.symm
  · intro entry entry' hold hnew
    have hlow : ((n₀.run calls).run later).state.snapshot.lastIncludedIndex < index := by
      by_contra hle
      rw [entryAt, if_neg hle] at hnew
      cases hnew
    rw [hkeeps.entry index hlow hi, hold, Option.some.injEq] at hnew
    exact hnew.symm

/-! ### The boundary -/

/-- A snapshot at index one, of term two. -/
def boundarySnapshot : SnapshotMetadata :=
  { lastIncludedIndex := 1, lastIncludedTerm := 2, manifestGeneration := 1, voters := [1, 2, 3] }

/-- The calls that commit an entry of term one at index one. -/
def boundaryCommit : List Call :=
  [.receive 2 (.appendEntriesRequest ⟨1, 2, 0, 0, [⟨1, 1, 1, []⟩], 1⟩)]

/-- The calls that install a snapshot of term two at index one. -/
def boundaryInstall : List Call :=
  [.receive 2 (.installSnapshotRequest ⟨2, 2, boundarySnapshot⟩),
    .completeSnapshotInstall 2 boundarySnapshot true]

/-- **A committed term changes.** Node 1 commits an entry of term one at index one, takes a
snapshot of index one and term two from a hostile leader, and then reports term two for the
committed index one. -/
theorem boundary_install_changes_committed_term :
    ∃ n₀, RaftNode.create 1 [1, 2, 3] {} {} = .ok n₀ ∧
      (n₀.run boundaryCommit).state.commitIndex = 1 ∧
      (n₀.run boundaryCommit).state.termAt 1 = some 1 ∧
      ((n₀.run boundaryCommit).run boundaryInstall).state.termAt 1 = some 2 :=
  ⟨_, rfl, by decide +kernel, by decide +kernel, by decide +kernel⟩

/-- The calls that commit a second entry and install a snapshot of the first. -/
def boundaryLater : List Call :=
  let snapshot := { boundarySnapshot with lastIncludedTerm := 1 }
  [.receive 2 (.appendEntriesRequest ⟨2, 2, 1, 1, [⟨2, 2, 1, []⟩], 2⟩),
    .receive 2 (.installSnapshotRequest ⟨2, 2, snapshot⟩),
    .completeSnapshotInstall 2 snapshot true]

/-- A snapshot of the committed entry, with its term, keeps the committed term. -/
theorem committed_prefix_kept_installed :
    ∃ n₀, RaftNode.create 1 [1, 2, 3] {} {} = .ok n₀ ∧
      (n₀.run boundaryCommit).state.commitIndex = 1 ∧
      ((n₀.run boundaryCommit).run boundaryLater).state.snapshot.lastIncludedIndex = 1 ∧
      ∀ term, ((n₀.run boundaryCommit).run boundaryLater).state.termAt 1 = some term →
        term = 1 := by
  refine ⟨_, rfl, by decide +kernel, by decide +kernel, fun term hterm => ?_⟩
  have hkept := (@committed_prefix_kept 1 [1, 2, 3] {} _ rfl boundaryCommit boundaryLater).2.2.2 1
    (by decide +kernel)
  exact hkept.1 (by decide +kernel) 1 term (by decide +kernel) hterm

end Chronos.Raft
