import Chronos.Raft.Refinement

/-!
Every call of a node is a step, or a few steps, of the history.

* `Local`: what is known of one node and the history before its call.
* `Local.follow`, `Local.campaign`, `Local.win`, `Local.push`, `Local.advance`, ...:
  one lemma for each update of a node, with the history after it.
* `Local.leader_packet`: what a leader sends is a slice of its log, or describes a
  prefix of it.
-/

namespace Chronos.Raft

open RaftNode List

open Consensus (Agree Knows KnowsLog Step Steps ByNode Grows)

/-- What is known of a node and the history before a call. -/
structure Local (boot : List NodeId) (certain : Prop) (s : History) (n : RaftNode) : Prop where
  inv : HistoryInv boot s
  durable : Durable boot certain s n.id n.state
  wellFormed : n.WellFormed boot
  limit : n.limits.maximumVoters ≤ maximumMembershipVoters
  volatile : Volatile s n

variable {boot : List NodeId} {certain : Prop} {s : History} {v : NodeId} {n : RaftNode}

lemma Refines.toLocal {c : Cluster} (h : Refines boot certain c s) (hn : c.node v = some n) :
    Local boot certain s n := by
  have hnode := h.node v n hn
  refine ⟨h.inv, ?_, hnode.wellFormed, hnode.limit, hnode.volatile⟩
  rw [hnode.id, ← hnode.stored]
  exact h.durable v

variable {state : PersistentState}

/-- What a state retains behind its snapshot is a slice of the whole log. -/
lemma Represents.slice {full : List LogEntry} (h : Represents boot full state) {next : ℕ}
    (hlow : state.snapshot.lastIncludedIndex < next) (hhigh : next ≤ full.length + 1)
    (term leader count commit : ℕ) :
    AppendSlice full ⟨term, leader, next - 1, (state.termAt (next - 1)).getD 0,
      (state.log.drop (next - 1 - state.snapshot.lastIncludedIndex)).take count, commit⟩ := by
  have hdrop : state.log.drop (next - 1 - state.snapshot.lastIncludedIndex) =
      full.drop (next - 1) := by
    rw [h.log, drop_drop]
    congr 1
    omega
  refine ⟨?_, ?_, ?_⟩
  · simp only [hdrop, length_take, length_drop]
    omega
  · simp only [hdrop, length_take, length_drop]
    rw [take_eq_take_iff, length_drop]
    omega
  · simp only
    rw [h.termAt (by omega)]
    have := termOf_isSome_iff.mpr (show next - 1 ≤ full.length by omega)
    obtain ⟨t, ht⟩ := Option.isSome_iff_exists.mp this
    rw [ht]
    rfl

/-- A later term without a vote. -/
lemma Durable.tick {t : ℕ} (hinv : HistoryInv boot s) (h : Durable boot certain s v state)
    (ht : state.currentTerm < t) :
    Durable boot certain (s.tick v t) v (state.advanceTerm t) where
  represents := h.represents.congr rfl rfl
  term := by simp [Consensus.System.tick, PersistentState.advanceTerm]
  vote := by
    have hnone : s.vote v t = none := Consensus.vote_eq_none hinv (by rw [h.term]; exact ht)
    simp [Consensus.System.tick, PersistentState.advanceTerm, hnone]
  knows := h.knows.mono ht.le le_rfl
  knowsLog hc := (h.knowsLog hc).mono ht.le le_rfl
  whole := h.whole

/-- A follower says nothing of the history. -/
lemma Volatile.follower (h : n.role = .follower) : Volatile s n where
  candidate hrole := by rw [h] at hrole; cases hrole
  leader hrole := by rw [h] at hrole; cases hrole

namespace Local

variable {boot : List NodeId} {certain : Prop} {s : History} {n n' : RaftNode}

/-! ### Reading the log -/

section Read

variable (h : Local boot certain s n)
include h

lemma length_eq : n.state.lastIndex = (s.log n.id).length := h.durable.represents.lastIndex

lemma snapshot_le_commit : n.state.snapshot.lastIncludedIndex ≤ n.state.commitIndex :=
  h.wellFormed.state.snapshot_le_applied.trans h.wellFormed.state.applied_le_commit

lemma commit_le : n.state.commitIndex ≤ (s.log n.id).length :=
  h.length_eq ▸ h.wellFormed.state.commit_le_last

/-- The membership of a node is derived from its whole log. -/
lemma derived : deriveMembership (boot.insertionSort (· ≤ ·)) (s.log n.id) n.state.commitIndex
    maximumMembershipVoters = .ok n.membership :=
  h.durable.represents.derived h.limit h.snapshot_le_commit
    (h.wellFormed.base ▸ h.wellFormed.derived)

lemma valid : (group boot).Valid (s.log n.id) n.state.commitIndex :=
  ⟨h.durable.represents.contiguous, _, h.derived⟩

/-- The quorum tests of a node are about the quorums of its log. -/
lemma quorum {p : NodeId → Bool} (hq : configurationQuorum n.joint n.committedVoters p = true) :
    (group boot).Quorum (s.log n.id) n.state.commitIndex {w | p w = true} :=
  ⟨_, p, h.derived, hq, fun _ hw => hw⟩

lemma term_eq : s.term n.id = n.state.currentTerm := h.durable.term

lemma leadership (hrole : n.role = .leader) : Leadership s n := h.volatile.leader hrole

end Read

/-! ### What a leader sends -/

/-- What a leader sends to a tracked peer. -/
lemma leader_packet (h : Local boot certain s n) (hrole : n.role = .leader) {peer : NodeId}
    (hpeer : n.nextIndex peer ≠ none) :
    PacketOk boot certain s ⟨n.id, peer, n.replicationForPeer peer⟩ := by
  have hleader := h.leadership hrole
  obtain ⟨next, hnext⟩ := Option.ne_none_iff_exists'.mp hpeer
  obtain ⟨hlow, hhigh⟩ := (h.wellFormed.tracked hrole).next_bounds peer next hnext
  rw [h.length_eq] at hhigh
  have hrep := h.durable.represents
  unfold replicationForPeer
  rcases Nat.lt_or_ge n.state.snapshot.lastIncludedIndex next with hlt | hge
  · rw [replicationFor_append hrep.logContiguous hnext hlt]
    refine ⟨hleader.leads, ?_, h.durable.knows⟩
    rw [← hleader.log]
    exact hrep.slice hlt hhigh _ _ _ _
  · rw [replicationFor_snapshot hnext hge]
    have hne : n.state.snapshot.lastIncludedIndex ≠ 0 := by omega
    refine ⟨?_, hleader.leads, ?_, h.durable.knows.mono le_rfl h.snapshot_le_commit⟩
    · by_contra hnot
      exact hne (h.durable.whole hnot)
    · rw [← hleader.log]
      refine ⟨hrep.contiguous.take _, hrep.within, hrep.snapshotTerm, ?_⟩
      rw [hrep.base, startVoters, if_pos hne]

lemma appendToAll_packets (h : Local boot certain s n) (hrole : n.role = .leader) :
    ∀ out ∈ n.appendToAll, PacketOk boot certain s ⟨n.id, out.destination, out.message⟩ := by
  intro out hout
  obtain ⟨peer, hpeer, rfl⟩ := mem_map.mp hout
  refine h.leader_packet hrole ?_
  have := ((h.wellFormed.tracked hrole).next_iff peer).mpr (mem_of_mem_filter hpeer)
  exact Option.isSome_iff_ne_none.mp this

/-! ### Moving to a later term -/

lemma tick_self (h : Local boot certain s n) : s.tick n.id n.state.currentTerm = s := by
  have : Function.update s.term n.id n.state.currentTerm = s.term := by
    rw [← h.term_eq, Function.update_eq_self]
  rw [Consensus.System.tick, this]

variable {t : ℕ}

section

variable (h : Local boot certain s n)
include h

/-- A node follows a leader of its own or a later term. -/
lemma follow (ht : n.state.currentTerm ≤ t) (leader : Option NodeId) :
    Local boot certain (s.tick n.id t) (n.becomeFollower t leader) where
  inv := h.inv.tick (by rw [h.term_eq]; exact ht)
  durable := by
    rw [becomeFollower_state]
    split
    · exact h.durable.tick h.inv ‹_›
    · obtain rfl : t = n.state.currentTerm := by omega
      rw [h.tick_self]
      exact h.durable
  wellFormed := h.wellFormed.becomeFollower ht leader
  limit := h.limit
  volatile := .follower rfl

lemma follow_steps (ht : n.state.currentTerm ≤ t) :
    Steps (group boot) n.id s (s.tick n.id t) :=
  (Steps.refl _ _).tail (.tick t (by rw [h.term_eq]; exact ht))

/-- A node observes a term. -/
lemma observe (t : ℕ) :
    Local boot certain (s.tick n.id (max n.state.currentTerm t)) (n.observe t) := by
  by_cases ht : t > n.state.currentTerm
  · rw [observe_of_newer ht, max_eq_right ht.le]
    exact h.follow ht.le none
  · rw [observe_of_not_newer ht, max_eq_left (by omega), h.tick_self]
    exact h

/-! ### Elections -/

lemma campaign_steps :
    Steps (group boot) n.id s (s.campaign n.id (n.state.currentTerm + 1)) :=
  (Steps.refl _ _).tail (.campaign _ (by rw [h.term_eq]; exact Nat.lt_succ_self _))

/-- A node starts an election. -/
lemma campaign :
    Local boot certain (s.campaign n.id (n.state.currentTerm + 1)) n.campaign where
  inv := (h.campaign_steps.spec h.inv).1
  durable :=
    { represents := h.durable.represents.congr rfl rfl
      term := by simp [Consensus.System.campaign, RaftNode.campaign]
      vote := by simp [Consensus.System.campaign, RaftNode.campaign]
      knows := h.durable.knows.mono (Nat.le_succ _) le_rfl
      knowsLog := fun hc => (h.durable.knowsLog hc).mono (Nat.le_succ _) le_rfl
      whole := h.durable.whole }
  wellFormed := h.wellFormed.campaign
  limit := h.limit
  volatile := by
    refine ⟨fun _ => ⟨?_, fun w hw => ?_, fun b hb hwin => ?_⟩, fun hrole => by cases hrole⟩
    · simp [Consensus.System.campaign, RaftNode.campaign]
    · obtain rfl : w = n.id := by simpa [RaftNode.campaign] using hw
      exact ⟨s.log n.id, by simp [Consensus.System.campaign, RaftNode.campaign]⟩
    · -- a leader of the new term has campaigned in it
      have hterm := h.inv.winner_term (show s.elect (n.state.currentTerm + 1) = some b from hb)
      rw [hwin, show n.campaign.id = n.id from rfl, h.term_eq] at hterm
      omega

/-- The vote requests of a candidate. -/
lemma campaign_packet (peer : NodeId) :
    PacketOk boot certain (s.campaign n.id (n.state.currentTerm + 1))
      ⟨n.id, peer, .requestVoteRequest
        ⟨n.state.currentTerm + 1, n.id, n.state.lastIndex, n.state.lastTerm⟩⟩ :=
  ⟨s.log n.id, by simp [Consensus.System.campaign], h.length_eq, h.durable.represents.lastTerm _⟩

end

end Local

/-- The election that a candidate wins with the given votes. -/
def ballotOf (s : History) (n : RaftNode) (votes : Finset NodeId) :
    Consensus.Ballot NodeId LogEntry where
  winner := n.id
  log := s.log n.id
  commit := n.state.commitIndex
  voters := {w | w ∈ votes}

/-- The history after a candidate has won: it also acknowledges its own log. -/
noncomputable def wonBy (s : History) (n : RaftNode) (votes : Finset NodeId) : History :=
  (s.win n.state.currentTerm (ballotOf s n votes)).adopt n.id n.state.currentTerm
    (s.log n.id).length

namespace Local

variable {boot : List NodeId} {certain : Prop} {s : History} {n n' : RaftNode}

section Win

variable (h : Local boot certain s n) (hrole : n.role = .candidate) {votes : Finset NodeId}
  (hvotes : ∀ w ∈ votes, ∃ log, s.vote w n.state.currentTerm = some (n.id, log))
  (hquorum : configurationQuorum n.joint n.committedVoters (fun w => decide (w ∈ votes)) = true)
include h hrole hvotes hquorum

/-- The term of a candidate with a quorum has no leader yet. -/
lemma elect_eq_none : s.elect n.state.currentTerm = none := by
  have hcandidate := h.volatile.candidate hrole
  cases hb : s.elect n.state.currentTerm with
  | none => rfl
  | some b =>
    have hq := h.quorum hquorum
    simp only [decide_eq_true_eq] at hq
    have hballot := @Consensus.Inv.isBallot _ _ _ _ h.inv n.state.currentTerm
      (ballotOf s n votes) hcandidate.camp h.valid hq fun w hw => hvotes w hw
    exact absurd (h.inv.election_safety hb hballot) (hcandidate.undecided b hb)

lemma win_steps : Steps (group boot) n.id s (wonBy s n votes) := by
  have hcandidate := h.volatile.candidate hrole
  have hq := h.quorum hquorum
  simp only [decide_eq_true_eq] at hq
  refine ((Steps.refl _ _).tail (.win n.state.currentTerm (ballotOf s n votes) rfl
    (h.elect_eq_none hrole hvotes hquorum) hcandidate.camp h.valid hq
    fun w hw => hvotes w hw)).tail (.adopt _ _ ?_ h.term_eq ?_)
  · simp [Consensus.System.win]
  · simp [Consensus.System.win, ballotOf]

section

variable (s : History) (n : RaftNode) (votes : Finset NodeId)

omit h hrole hvotes hquorum in
lemma wonBy_lead : (wonBy s n votes).lead n.state.currentTerm = s.log n.id :=
  Function.update_self _ _ _

omit h hrole hvotes hquorum in
lemma wonBy_log (w : NodeId) : (wonBy s n votes).log w = s.log w := by
  have hadopted : (s.win n.state.currentTerm (ballotOf s n votes)).adopted n.id
      n.state.currentTerm (s.log n.id).length = s.log n.id := by
    rw [Consensus.System.adopted, if_pos]
    · rfl
    · simp only [Consensus.System.win, Function.update_self]
      exact Agree.refl le_rfl
  simp only [wonBy, Consensus.System.adopt, hadopted]
  exact congrFun (Function.update_eq_self n.id s.log) w

omit h hrole hvotes hquorum in
lemma wonBy_leads : Leads (wonBy s n votes) n.id n.state.currentTerm :=
  ⟨ballotOf s n votes, Function.update_self _ _ _, rfl⟩

end

/-- A candidate wins its election. -/
lemma win : Local boot certain (wonBy s n votes) (n.elected votes) where
  inv := ((h.win_steps hrole hvotes hquorum).spec h.inv).1
  durable := h.durable.frame h.inv ((h.win_steps hrole hvotes hquorum).spec h.inv).2.grows
    (wonBy_log s n votes n.id) rfl rfl
  wellFormed := h.wellFormed.elected hrole votes
  limit := h.limit
  volatile := by
    refine ⟨fun hrole' => (by cases hrole'), fun _ => ⟨wonBy_leads s n votes, ?_, ?_, ?_, ?_⟩⟩
    · exact (wonBy_log s n votes n.id).trans (wonBy_lead s n votes).symm
    · -- nothing was committed in a term without a leader
      intro k hk
      have hnone := h.elect_eq_none hrole hvotes hquorum
      have := (h.inv.commit_elected (show s.committed n.state.currentTerm k from hk)).1
      rw [hnone] at this
      cases this
    · intro k hk
      rw [show (n.elected votes).id = n.id from rfl, wonBy_log] at hk
      exact .inr ⟨rfl, rfl, hk⟩
    · intro peer m hm
      simp only [elected, initialMatch] at hm
      split at hm
      · rw [Option.some.injEq] at hm
        split at hm
        · rename_i hself
          subst hself
          rw [h.length_eq] at hm
          exact .inr fun k hk => .inr ⟨rfl, rfl, hm ▸ hk⟩
        · exact .inl hm.symm
      · cases hm

/-- The empty append requests of a new leader. -/
lemma win_packet (peer : NodeId) :
    PacketOk boot certain (wonBy s n votes) ⟨n.id, peer, .appendEntriesRequest
      ⟨n.state.currentTerm, n.id, n.state.lastIndex, n.state.lastTerm, [],
        n.state.commitIndex⟩⟩ := by
  have hgrows := ((h.win_steps hrole hvotes hquorum).spec h.inv).2.grows
  refine ⟨wonBy_leads s n votes, ?_, h.durable.knows.grow hgrows⟩
  simp only [wonBy_lead]
  have hlast := h.length_eq
  refine ⟨by simp [hlast], by simp, ?_⟩
  rw [← h.durable.represents.termAt h.wellFormed.state.snapshot_le_last]
  exact termAt_lastIndex h.wellFormed.state

end Win

/-! ### Votes -/

lemma grant_free (h : Local boot certain s n) (hvote : n.state.votedFor = none) :
    s.vote n.id n.state.currentTerm = none := by
  have := h.durable.vote
  rwa [hvote, Option.map_eq_none_iff] at this

variable {source : NodeId} {log : List LogEntry}

section

variable (h : Local boot certain s n) (hvote : n.state.votedFor = none)
  (hcamp : s.camp source n.state.currentTerm = some log)
  (hup : Consensus.UpToDate (group boot) log (s.log n.id))
include h hvote hcamp hup

lemma grant_steps : Steps (group boot) n.id s (s.grant n.id n.state.currentTerm source) :=
  (Steps.refl _ _).tail (.grant _ source log h.term_eq (h.grant_free hvote) hcamp hup)

/-- A node grants its vote. -/
lemma grant (hsource : source ≠ 0) (hterm : n.state.currentTerm ≠ 0) :
    Local boot certain (s.grant n.id n.state.currentTerm source) (n.grant source) where
  inv := ((h.grant_steps hvote hcamp hup).spec h.inv).1
  durable :=
    { h.durable with
      represents := h.durable.represents.congr rfl rfl
      vote := by simp [Consensus.System.grant, RaftNode.grant] }
  wellFormed := h.wellFormed.grant hsource hterm
  limit := h.limit
  volatile := .follower rfl

end

/-- The vote test of the source is the comparison of whole logs. -/
lemma upToDate (h : Local boot certain s n)
    (hcurrent : candidateLogIsCurrent n.state log.length (Consensus.lastTerm (group boot) log) =
      true) :
    Consensus.UpToDate (group boot) log (s.log n.id) := by
  simp only [candidateLogIsCurrent, decide_eq_true_eq] at hcurrent
  rw [h.durable.represents.lastTerm (boot.insertionSort (· ≤ ·)), h.length_eq] at hcurrent
  exact hcurrent

end Local

end Chronos.Raft
