import Chronos.Raft.CallSimulation

/-!
State-machine safety and election safety of a group.

* `Refines.event`, `refines_run`: along every run whose steps are justified, the
  group refines a growing history.
* `CommitCovered`: an append request reports a commit index that moves the receiver's
  only over entries that the request covers, or the receiver's last entry has the
  request's term.  The source bounds the new commit index by the last index of the
  whole local log instead, so a step may fail this.
* `committed_entries_agree`: state-machine safety of the runs that keep it;
  `uncovered_commit_diverges`: a run that does not.
* `at_most_one_leader`: election safety, without any such condition.
-/

namespace Chronos.Raft

open Consensus (Agree Knows KnowsLog Step Steps ByNode Grows)

section Run

variable {boot : List NodeId} {certain : Prop} {c c' : Cluster} {s : History} {action : Action}

/-- Every call of the action is justified. -/
def JustifiedAction (certain : Prop) (c : Cluster) (s : History) (action : Action) : Prop :=
  ∀ v call n n' transition, action = .call v call → c.node v = some n →
    call.deliverable c.sent v = true → n.perform call = (n', .ok transition) →
      Justified certain s n call n'

/-- **Every event keeps the refinement.** -/
lemma Refines.event (h : Refines boot certain c s) (hevent : Event boot c action c')
    (hj : JustifiedAction certain c s action) :
    ∃ s' v, Refines boot certain c' s' ∧ Steps (group boot) v s s' := by
  cases hevent with
  | idle => exact ⟨s, 0, h, .refl _ _⟩
  | started v limits n created => exact ⟨s, 0, h.started created, .refl _ _⟩
  | called v call n n' transition node deliverable performed =>
    have heff := perform_effect performed
    obtain ⟨s', hsim⟩ := effect_simulates h node deliverable heff
      (hj v call n n' transition rfl node deliverable performed)
    exact ⟨s', v, h.called node deliverable heff hsim, hsim.steps⟩

/-- Along every justified run the group refines a growing history. -/
lemma refines_run {condition : Cluster → Action → Prop}
    (hj : ∀ {c s action}, Refines boot certain c s → condition c action →
      JustifiedAction certain c s action)
    {actions : List Action} (h : Refines boot certain c s)
    (hrun : Throughout boot condition c actions) :
    ∃ s', Refines boot certain (c.run boot actions) s' ∧ Grows s s' := by
  induction actions generalizing c s with
  | nil => exact ⟨s, h, .refl s⟩
  | cons action actions ih =>
    obtain ⟨_, _, h₁, hsteps⟩ := h.event (c.step_event boot action) (hj h hrun.1)
    obtain ⟨s', h', g⟩ := ih h₁ hrun.2
    exact ⟨s', h', (hsteps.spec h.inv).2.grows.trans g⟩

end Run

/-! ### New commits -/

/-- A request that the receiver does not refuse for its term or previous position covers the commit
index that it reports, as far as the spliced log reaches, or the receiver's last entry has the term
of the request. -/
def CommitCovered (c : Cluster) : Action → Prop
  | .call v (.receive _ (.appendEntriesRequest request)) =>
      ∀ n ∈ c.node v, n.state.currentTerm ≤ request.term →
        n.state.appendPredecessorTerm request.previousLogIndex = some request.previousLogTerm →
        min request.leaderCommit ({ n.state with
            log := candidateLog n.state.log request.entries } : PersistentState).lastIndex ≤
          max n.state.commitIndex (request.previousLogIndex + request.entries.length) ∨
        n.state.lastTerm = request.term
  | _ => True

instance (c : Cluster) (action : Action) : Decidable (CommitCovered c action) := by
  unfold CommitCovered
  split <;> infer_instance

section Commit

variable {boot : List NodeId} {c : Cluster} {s : History} {action : Action}

variable {n : RaftNode} {source : NodeId} {request : AppendEntriesRequest} {v : ValidatedAppend}

/-- A commit that an accepted request moves is justified where the receiver's log, if the request
keeps it, agrees with the leader's up to there. -/
lemma Local.accept_covered (h : Local boot True s n) (hacc : Acceptable n source request v)
    (hpacket : PacketOk boot True s ⟨source, n.id, .appendEntriesRequest request⟩)
    (hkept : Agree request.accepted (s.lead request.term) (s.log n.id) →
      n.state.commitIndex < v.commit →
      v.commit = min request.leaderCommit (s.log n.id).length →
      Agree v.commit (s.lead request.term) (s.log n.id)) :
    KnowsLog s request.term v.commit (s.adopted n.id request.term request.accepted) := by
  obtain ⟨hleads, hslice, hknows⟩ := hpacket
  obtain ⟨haccepted, hrep⟩ := h.accept_represents hacc hleads.isSome hslice
  rcases Nat.lt_or_ge n.state.commitIndex v.commit with hlt | hge
  · refine (KnowsLog.of_knows h.inv hleads.isSome (h.accept_knows hacc hknows)).of_agree ?_
    have hcommit := hacc.commit
    have hlast : ({ n.state with log := v.log } : PersistentState).lastIndex =
        (s.adopted n.id request.term request.accepted).length := hrep.lastIndex
    rw [hlast] at hcommit
    rcases adopts_adopted s n.id request.term request.accepted with ⟨hagree, heq⟩ | ⟨-, heq⟩
    · rw [heq] at hcommit ⊢
      exact hkept hagree hlt (by omega)
    · rw [heq] at hcommit ⊢
      have := hslice.within
      rw [List.length_take] at hcommit
      exact (Agree.refl (by omega)).take_right (by omega)
  · exact (((h.durable.knowsLog trivial).mono hacc.term le_rfl).adopted h.inv
      hleads.isSome).mono le_rfl hge

/-- A log whose last entry has the term of a leader agrees with that leader's. -/
lemma Local.agree_lead (h : Local boot True s n) (hterm : n.state.lastTerm = request.term) :
    Agree (s.log n.id).length (s.lead request.term) (s.log n.id) := by
  have hlast := h.durable.represents.termAt_eq_some (termAt_lastIndex h.wellFormed.state)
  rw [h.durable.represents.lastIndex, hterm] at hlast
  cases hlength : (s.log n.id).length with
  | zero => exact Agree.zero _ _
  | succ i =>
    rw [hlength, termOf_succ, Option.map_eq_some_iff] at hlast
    obtain ⟨entry, hentry, hterm⟩ := hlast
    exact hterm ▸ (h.inv.log_sound n.id i entry hentry).2.symm

/-- A covered commit is justified. -/
lemma CommitCovered.justified (h : Refines boot True c s) (hc : CommitCovered c action) :
    JustifiedAction True c s action := by
  rintro v _ n _ transition rfl hnode hdeliver -
  refine ⟨.inl trivial, ?_⟩
  rintro source request validated rfl hacc - -
  have hl := h.toLocal hnode
  have hpacket : PacketOk boot True s ⟨source, v, .appendEntriesRequest request⟩ :=
    h.packet _ (by simpa [Call.deliverable] using hdeliver)
  obtain rfl := (h.node v n hnode).id
  have haccepted := (hl.accept_represents hacc hpacket.1.isSome hpacket.2.1).1
  refine hl.accept_covered hacc hpacket fun hagree hlt hcommit => ?_
  rcases hc n hnode hacc.term hacc.previous with hcover | hterm
  · have hvalidated := hacc.commit
    rw [hacc.log] at hvalidated
    exact hagree.mono (by omega)
  · exact (hl.agree_lead hterm).mono (hcommit ▸ min_le_right _ _)

end Commit

/-! ### State-machine safety -/

variable {boot : List NodeId}

/-- The entries that a state retains are those of its whole log. -/
lemma Represents.entryAt {full : List LogEntry} {state : PersistentState}
    (h : Represents boot full state) {index : ℕ} (hsome : (state.entryAt index).isSome) :
    0 < index ∧ state.entryAt index = full[index - 1]? := by
  unfold PersistentState.entryAt at hsome ⊢
  split at hsome
  · rename_i hlt
    rw [if_pos hlt, h.log, List.getElem?_drop]
    exact ⟨by omega, congrArg (full[·]?) (by omega)⟩
  · cases hsome

/-- **State-machine safety**: in every run whose new commits are covered, two nodes hold the same
entry at every index that both have committed and retain. -/
theorem committed_entries_agree (boot : List NodeId) (actions : List Action)
    (hrun : Throughout boot CommitCovered .initial actions) (v w : NodeId) (n m : RaftNode)
    (hn : (Cluster.run boot .initial actions).node v = some n)
    (hm : (Cluster.run boot .initial actions).node w = some m) (index : ℕ)
    (hcommit : index ≤ n.state.commitIndex) (hcommit' : index ≤ m.state.commitIndex)
    (hretained : (n.state.entryAt index).isSome) (hretained' : (m.state.entryAt index).isSome) :
    n.state.entryAt index = m.state.entryAt index := by
  obtain ⟨_, h, -⟩ := refines_run (fun h hc => hc.justified h) (refines_initial boot True) hrun
  have hln := h.toLocal hn
  have hlm := h.toLocal hm
  have hagree := (hln.durable.knowsLog trivial).agree h.inv (hlm.durable.knowsLog trivial)
    hcommit hcommit'
  obtain ⟨_, heq⟩ := hln.durable.represents.entryAt hretained
  obtain ⟨-, heq'⟩ := hlm.durable.represents.entryAt hretained'
  rw [heq, heq', hagree.getElem_eq (by omega)]

/-- Two nodes elect node 1, replicate an entry and commit it on both. -/
def pairRun : List Action :=
  [.start 1 {}, .start 2 {}, .call 1 .startElection,
    .call 2 (.receive 1 (.requestVoteRequest ⟨1, 1, 0, 0⟩)),
    .call 1 (.receive 2 (.requestVoteResponse ⟨1, true⟩)),
    .call 1 (.propose 1 []),
    .call 2 (.receive 1 (.appendEntriesRequest ⟨1, 1, 0, 0, [⟨1, 1, 1, []⟩], 0⟩)),
    .call 1 (.receive 2 (.appendEntriesResponse ⟨1, true, 1, none, 0⟩)),
    .call 2 (.receive 1 (.appendEntriesRequest ⟨1, 1, 1, 1, [], 1⟩))]

/-- A node of a run that has started it. -/
def nodeAfter (boot : List NodeId) (actions : List Action) (v : NodeId)
    (h : ((Cluster.run boot .initial actions).node v).isSome) : RaftNode :=
  ((Cluster.run boot .initial actions).node v).get h

lemma nodeAfter_eq {actions : List Action} {v : NodeId}
    (h : ((Cluster.run boot .initial actions).node v).isSome) :
    (Cluster.run boot .initial actions).node v = some (nodeAfter boot actions v h) :=
  (Option.some_get h).symm

/-- Both nodes of `pairRun` commit the entry and hold the same one. -/
theorem committed_entries_agree_pair :
    (nodeAfter [1, 2] pairRun 1 (by decide +kernel)).state.commitIndex = 1 ∧
      (nodeAfter [1, 2] pairRun 2 (by decide +kernel)).state.commitIndex = 1 ∧
      (nodeAfter [1, 2] pairRun 1 (by decide +kernel)).state.entryAt 1 =
        (nodeAfter [1, 2] pairRun 2 (by decide +kernel)).state.entryAt 1 :=
  ⟨by decide +kernel, by decide +kernel,
    committed_entries_agree [1, 2] pairRun (by decide +kernel) 1 2 _ _ (nodeAfter_eq _)
      (nodeAfter_eq _) 1 (by decide +kernel) (by decide +kernel) (by decide +kernel)
      (by decide +kernel)⟩

/-! ### A commit that is not covered -/

/-- The joint command that adds node 4. -/
def additionCommand : List UInt8 := membershipFrame 1 0 [1, 2, 3] [1, 2, 3, 4]

/-- One entry in a request. -/
def singleEntryLimits : RaftLimits := { maximumAppendEntries := 1 }

/-- Node 1 replicates the joint entry of term one at index two to node 4 alone.  Node 2 is elected
in term two and commits another entry at index two with node 3.  When it adds node 4, it starts
from index one with one entry in a request, and reports commit index two. -/
def uncoveredRun : List Action :=
  [.start 1 singleEntryLimits, .start 2 singleEntryLimits, .start 3 singleEntryLimits,
    .start 4 singleEntryLimits,
    .call 1 .startElection,
    .call 2 (.receive 1 (.requestVoteRequest ⟨1, 1, 0, 0⟩)),
    .call 1 (.receive 2 (.requestVoteResponse ⟨1, true⟩)),
    .call 1 (.propose 1 []),
    .call 2 (.receive 1 (.appendEntriesRequest ⟨1, 1, 0, 0, [⟨1, 1, 1, []⟩], 0⟩)),
    .call 3 (.receive 1 (.appendEntriesRequest ⟨1, 1, 0, 0, [⟨1, 1, 1, []⟩], 0⟩)),
    .call 1 (.receive 2 (.appendEntriesResponse ⟨1, true, 1, none, 0⟩)),
    .call 1 (.beginMembershipChange [1, 2, 3, 4]),
    .call 4 (.receive 1 (.appendEntriesRequest ⟨1, 1, 0, 0, [⟨1, 1, 1, []⟩], 1⟩)),
    .call 1 (.receive 4 (.appendEntriesResponse ⟨1, true, 1, none, 0⟩)),
    .call 4 (.receive 1 (.appendEntriesRequest
      ⟨1, 1, 1, 1, [⟨2, 1, jointMembershipEntryType, additionCommand⟩], 1⟩)),
    .call 2 .startElection,
    .call 3 (.receive 2 (.requestVoteRequest ⟨2, 2, 1, 1⟩)),
    .call 2 (.receive 3 (.requestVoteResponse ⟨2, true⟩)),
    .call 2 (.propose 1 []),
    .call 3 (.receive 2 (.appendEntriesRequest ⟨2, 2, 1, 1, [⟨2, 2, 1, []⟩], 0⟩)),
    .call 2 (.receive 3 (.appendEntriesResponse ⟨2, true, 2, none, 0⟩)),
    .call 2 (.beginMembershipChange [1, 2, 3, 4]),
    .call 4 (.receive 2 (.appendEntriesRequest ⟨2, 2, 0, 0, [⟨1, 1, 1, []⟩], 2⟩))]

/-- The commit index of a node and the entry it holds at index two. -/
def commitAndSecond (n : RaftNode) : ℕ × Option LogEntry :=
  (n.state.commitIndex, n.state.entryAt 2)

/-- **Two nodes commit different entries.** The request covers index one, but node 4 moves its
commit index to the end of its own log, over the joint entry that was never committed. -/
theorem uncovered_commit_diverges :
    ((Cluster.run [1, 2, 3] .initial uncoveredRun).node 2).map commitAndSecond =
        some (2, some ⟨2, 2, 1, []⟩) ∧
      ((Cluster.run [1, 2, 3] .initial uncoveredRun).node 4).map commitAndSecond =
        some (2, some ⟨2, 1, jointMembershipEntryType, additionCommand⟩) := by
  decide +kernel

/-! ### Election safety -/

/-- Whether a node compacts its log. -/
def Action.compacts : Action → Bool
  | .call _ (.compactSnapshot _) => true
  | _ => false

/-- No node compacts its log. -/
def SnapshotFree (_ : Cluster) (action : Action) : Prop := action.compacts = false

instance (c : Cluster) (action : Action) : Decidable (SnapshotFree c action) :=
  inferInstanceAs (Decidable (_ = _))

/-- **Election safety**: two nodes that are leaders of one term, at any two times of a run, are the
same node. -/
theorem at_most_one_leader (boot : List NodeId) (actions later : List Action)
    (hrun : Throughout boot SnapshotFree .initial (actions ++ later)) (v w : NodeId)
    (n m : RaftNode) (hn : (Cluster.run boot .initial actions).node v = some n)
    (hm : (Cluster.run boot .initial (actions ++ later)).node w = some m)
    (hrole : n.role = .leader) (hrole' : m.role = .leader)
    (hterm : n.state.currentTerm = m.state.currentTerm) : v = w := by
  have hj : ∀ {c s action}, Refines boot False c s → SnapshotFree c action →
      JustifiedAction False c s action := by
    rintro _ s _ - hfree v _ n _ _ rfl - - -
    refine ⟨.inr fun snapshot hcall => ?_, fun _ _ _ _ _ _ hcertain => hcertain.elim⟩
    subst hcall
    cases hfree
  obtain ⟨hfirst, hsecond⟩ := hrun.append
  obtain ⟨_, h, -⟩ := refines_run hj (refines_initial boot False) hfirst
  obtain ⟨_, h', g⟩ := refines_run hj h hsecond
  rw [← Cluster.run_append] at h'
  have hleads := ((h.toLocal hn).leadership hrole).leads.grow g
  have hleads' := ((h'.toLocal hm).leadership hrole').leads
  rw [hterm] at hleads
  rw [← (h.node v n hn).id, ← (h'.node w m hm).id]
  exact hleads.unique hleads'

/-- Node 1 leads term one before the membership change of `uncoveredRun`; after it, and after the
election of node 2, every leader of term one is still node 1. -/
theorem at_most_one_leader_changed :
    (nodeAfter [1, 2, 3] (uncoveredRun.take 8) 1 (by decide +kernel)).role = .leader ∧
      (nodeAfter [1, 2, 3] uncoveredRun 2 (by decide +kernel)).role = .leader ∧
      ∀ w m, (Cluster.run [1, 2, 3] .initial uncoveredRun).node w = some m →
        m.role = .leader → m.state.currentTerm = 1 → 1 = w := by
  refine ⟨by decide +kernel, by decide +kernel, fun w m hm hrole hterm => ?_⟩
  rw [← List.take_append_drop 8 uncoveredRun] at hm
  have hfirst : (nodeAfter [1, 2, 3] (uncoveredRun.take 8) 1
      (by decide +kernel)).state.currentTerm = 1 := by decide +kernel
  exact at_most_one_leader [1, 2, 3] _ _ (by decide +kernel) 1 w _ m (nodeAfter_eq _) hm
    (by decide +kernel) hrole (hfirst.trans hterm.symm)

end Chronos.Raft
