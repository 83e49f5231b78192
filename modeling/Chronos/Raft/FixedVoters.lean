import Chronos.Raft.Safety

/-!
Groups whose voters never change.

* `Action.keepsVoters`: an action that does not begin or finalize a membership
  change.
* `FixedVoters`: no stored log and no append request holds a membership command,
  and every snapshot names the bootstrap voters; `FixedVoters.event`.
* `FixedVoters.voters`: all nodes have the bootstrap voters.
-/

namespace Chronos.Raft

open List RaftNode

/-- Whether a call leaves the membership alone. -/
def Call.keepsVoters : Call → Bool
  | .beginMembershipChange _ => false
  | .finalizeMembershipChange => false
  | _ => true

/-- Whether an action leaves the membership alone. -/
def Action.keepsVoters : Action → Bool
  | .start _ _ => true
  | .call _ performed => performed.keepsVoters

/-- A state without membership commands, over the bootstrap voters. -/
structure PlainState (boot : List NodeId) (state : PersistentState) : Prop where
  entries : ∀ entry ∈ state.log, ¬ IsMember entry
  base : startVoters boot state.snapshot = boot.insertionSort (· ≤ ·)

/-- A message without membership commands, over the bootstrap voters. -/
def PlainMessage (boot : List NodeId) : Message → Prop
  | .appendEntriesRequest request => ∀ entry ∈ request.entries, ¬ IsMember entry
  | .installSnapshotRequest request => request.snapshot.lastIncludedIndex ≠ 0 →
      request.snapshot.voters = boot.insertionSort (· ≤ ·)
  | _ => True

/-- A group without membership commands. -/
structure FixedVoters (boot : List NodeId) (c : Cluster) : Prop where
  stored : ∀ v, PlainState boot (c.stored v)
  packet : ∀ packet ∈ c.sent, PlainMessage boot packet.message

section Plain

variable {boot : List NodeId} {n n' : RaftNode} {call : Call} {transition : Transition}

variable {state : PersistentState}

lemma PlainState.congr {state' : PersistentState} (h : PlainState boot state)
    (hlog : state'.log = state.log) (hsnapshot : state'.snapshot = state.snapshot) :
    PlainState boot state' :=
  ⟨hlog ▸ h.entries, hsnapshot ▸ h.base⟩

/-- Without membership commands the membership is that of the bootstrap voters. -/
lemma PlainState.derived (h : PlainState boot n.state)
    (hbase : n.baseVoters = startVoters boot n.state.snapshot) {log : List LogEntry}
    (hlog : ∀ entry ∈ log, entry ∈ n.state.log) {commit : ℕ} {d : DerivedMembership}
    (hd : deriveMembership n.baseVoters log commit n.limits.maximumVoters = .ok d) :
    d = .base (boot.insertionSort (· ≤ ·)) := by
  rw [hbase, h.base] at hd
  exact deriveFrom_of_not_isMember hd fun entry he => h.entries entry (hlog entry he)

lemma PlainState.membership (h : PlainState boot n.state) (hwell : n.WellFormed boot) :
    n.membership = .base (boot.insertionSort (· ≤ ·)) :=
  h.derived hwell.base (fun _ he => he) hwell.derived

lemma PlainState.pushEntry (h : PlainState boot n.state) {type : UInt8} {payload : List UInt8}
    (plain : isMembershipEntryType type = false) :
    PlainState boot (n.pushEntry type payload).state := by
  refine ⟨fun entry he => ?_, h.base⟩
  rcases mem_append.mp he with hold | hnew
  · exact h.entries entry hold
  · obtain rfl := mem_singleton.mp hnew
    simp [IsMember, plain]

/-- No other call appends a membership command. -/
lemma effect_plain (hwell : n.WellFormed boot) (hplain : PlainState boot n.state)
    (hreceived : ∀ source message, call = .receive source message → PlainMessage boot message)
    (hpending : ∀ request, n.pendingSnapshot = some request → PlainMessage boot
      (.installSnapshotRequest request)) (hkeeps : call.keepsVoters = true)
    (heff : Effect n call n' transition) : PlainState boot n'.state := by
  have hfollow : ∀ (term : ℕ) (leader : Option NodeId),
      PlainState boot (n.becomeFollower term leader).state := by
    intro term leader
    rw [becomeFollower_state]
    split
    · exact hplain.congr rfl rfl
    · exact hplain
  have hobserve : ∀ term : ℕ, PlainState boot (n.observe term).state := by
    intro term
    rw [observe_state]
    split
    · exact hplain.congr rfl rfl
    · exact hplain
  cases heff with
  | campaigned | campaignWon | applied => exact hplain.congr rfl rfl
  | appendedLocal _ entry _ _ _ advanced =>
    rw [advanced.state_eq]
    exact (hplain.pushEntry entry.plain).congr rfl rfl
  | appendedMembership change =>
    rcases change with rfl | ⟨voters, rfl⟩
    · cases hkeeps
    · cases hkeeps
  | @installCompleted _ pending _ _ installs =>
    have hvalid := (hwell.pending pending installs.isPending).valid
    have hnewer := (hwell.pending pending installs.isPending).newer
    refine ⟨fun entry he => hplain.entries entry ?_, ?_⟩
    · simp only [installed, installedState, retainedAfter] at he
      split at he
      · exact mem_of_mem_drop he
      · cases he
    · exact (startVoters_of_valid hvalid).trans (hpending pending installs.isPending (by omega))
  | compacted _ _ metadata =>
    obtain ⟨checkpoint, hc⟩ := prepareSnapshotMetadata_eq_ok metadata
    refine ⟨fun entry he => hplain.entries entry (mem_of_mem_drop he), ?_⟩
    have hbase := hplain.derived hwell.base (fun _ he => mem_of_mem_take he) hc.derived
    refine (startVoters_of_valid hc.valid).trans (hc.voters.trans ?_)
    rw [hbase]
    rfl
  | observed source message => exact hobserve message.term
  | granted source request => exact (hobserve request.term).congr rfl rfl
  | appendRejected source request | installCovered source request
  | installCompeting source request | installPending source request
  | barrierAcknowledged source request => exact hfollow request.term (some source)
  | appendAccepted source _ validated received =>
    obtain ⟨k, hspliced⟩ := received.acceptable.spliced hwell.state
    refine ⟨fun entry he => ?_, hplain.base⟩
    change entry ∈ validated.log at he
    rcases hspliced.outcome with ⟨-, heq⟩ | ⟨j, -, heq⟩
    · exact hplain.entries entry (heq ▸ he)
    · rw [heq] at he
      rcases mem_append.mp he with hold | hnew
      · exact hplain.entries entry (mem_of_mem_take hold)
      · exact hreceived source _ rfl entry hnew
  | appendCommitted _ _ _ _ _ _ advanced =>
    rw [stepDownIfRemoved_state, advanced.state_eq]
    exact hplain.congr rfl rfl
  | _ => exact hplain

/-- What a plain state covers is plain. -/
lemma PlainState.message (h : PlainState boot state) {outbound : OutboundMessage}
    (hcovered : Covered state outbound) : PlainMessage boot outbound.message := by
  obtain ⟨destination, message⟩ := outbound
  cases message with
  | appendEntriesRequest request =>
    intro entry he
    obtain ⟨j, hj⟩ := mem_iff_getElem?.mp he
    exact h.entries entry (mem_of_getElem? (hcovered.2.2.2.1 j entry hj))
  | installSnapshotRequest request =>
    intro hne
    have heq : request.snapshot = state.snapshot := hcovered.2
    rw [heq] at hne ⊢
    have hbase := h.base
    rwa [startVoters, if_pos hne] at hbase
  | _ => trivial

end Plain

section Fixed

variable {boot : List NodeId} {certain : Prop} {c c' : Cluster} {s : History} {action : Action}

lemma fixedVoters_initial (boot : List NodeId) : FixedVoters boot .initial where
  stored _ := ⟨by simp [Cluster.initial], rfl⟩
  packet _ hp := by cases hp

/-- The nodes of a group with fixed voters. -/
lemma FixedVoters.plain (h : FixedVoters boot c) (hr : Refines boot certain c s) {v : NodeId}
    {n : RaftNode} (hn : c.node v = some n) : PlainState boot n.state :=
  (hr.node v n hn).stored ▸ h.stored v

/-- **Every other event keeps the voters fixed.** -/
lemma FixedVoters.event (h : FixedVoters boot c) (hr : Refines boot certain c s)
    (hevent : Event boot c action c') (hkeeps : action.keepsVoters = true) :
    FixedVoters boot c' := by
  cases hevent with
  | idle => exact h
  | started => exact ⟨h.stored, h.packet⟩
  | called v _ n _ _ node deliverable performed =>
    have heff := perform_effect performed
    have hok := hr.node v n node
    have hplain := effect_plain hok.wellFormed (h.plain hr node)
      (fun source message hcall => by
        subst hcall
        exact h.packet _ (by simpa [Call.deliverable] using deliverable))
      (fun request hp => h.packet _ (hok.pending request hp)) hkeeps heff
    refine ⟨fun w => ?_, fun packet hp => ?_⟩
    · by_cases hw : w = v
      · subst hw
        rw [stored_called hok.stored heff]
        exact hplain
      · simp only [Cluster.called, Function.update_of_ne hw]
        exact h.stored w
    · rcases mem_append.mp hp with hold | hnew
      · exact h.packet packet hold
      · obtain ⟨out, hout, rfl⟩ := mem_map.mp hnew
        exact hplain.message (effect_covered hok.wellFormed heff out hout)

end Fixed

end Chronos.Raft
