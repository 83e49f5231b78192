import Chronos.Raft.Replication

/-!
Every successful call is simulated by steps of the history.

* `effect_simulates`: one case for each path of the source.  An accepted append
  request needs a reason why the entries it commits are committed; without
  certainty about that, a node must not compact its log.
* `Refines.event`: every event of a group keeps the refinement.
-/

namespace Chronos.Raft

open List RaftNode

open Consensus (Agree Knows KnowsLog Step Steps ByNode Grows)

variable {s : History}

/-- A node that keeps what the history knows of it. -/
lemma Volatile.congr {n n' : RaftNode} (h : Volatile s n) (hid : n'.id = n.id)
    (hterm : n'.state.currentTerm = n.state.currentTerm)
    (hcommit : n'.state.commitIndex = n.state.commitIndex) (hrole : n'.role = n.role)
    (hvotes : n'.votes = n.votes) (hmatch : n'.matchIndex = n.matchIndex) : Volatile s n' where
  candidate hr := by
    obtain ⟨h1, h2, h3⟩ := h.candidate (hrole ▸ hr)
    exact ⟨by rw [hid, hterm]; exact h1, by rw [hid, hterm, hvotes]; exact h2,
      by rw [hid, hterm]; exact h3⟩
  leader hr := by
    obtain ⟨h1, h2, h3, h4, h5⟩ := h.leader (hrole ▸ hr)
    exact ⟨by rw [hid, hterm]; exact h1, by rw [hid, hterm]; exact h2,
      by rw [hterm, hcommit]; exact h3, by rw [hid, hterm]; exact h4,
      by rw [hterm, hmatch]; exact h5⟩

/-- A state that keeps what the history knows of it. -/
lemma Durable.congr {boot : List NodeId} {certain : Prop} {v : NodeId}
    {state state' : PersistentState} (h : Durable boot certain s v state)
    (hlog : state'.log = state.log) (hsnapshot : state'.snapshot = state.snapshot)
    (hterm : state'.currentTerm = state.currentTerm) (hvote : state'.votedFor = state.votedFor)
    (hcommit : state'.commitIndex = state.commitIndex) : Durable boot certain s v state' where
  represents := h.represents.congr hlog hsnapshot
  term := h.term.trans hterm.symm
  vote := by rw [hterm, hvote]; exact h.vote
  knows := by rw [hterm, hcommit]; exact h.knows
  knowsLog hc := by rw [hterm, hcommit]; exact h.knowsLog hc
  whole hc := by rw [hsnapshot]; exact h.whole hc

namespace Local

variable {boot : List NodeId} {certain : Prop} {s : History} {n n' : RaftNode}
  {transition : Transition}

/-- A call that the history does not notice. -/
lemma quiet (h : Local boot certain s n) (hstate : n'.state = n.state) (hvolatile : Volatile s n')
    (hpackets : ∀ out ∈ transition.outbound,
      PacketOk boot certain s ⟨n.id, out.destination, out.message⟩) :
    Simulates boot certain s s n.id n' transition :=
  ⟨.refl _ _, hstate ▸ h.durable, hvolatile, hpackets⟩

/-- A node that follows a leader and answers without a promise. -/
lemma followed (h : Local boot certain s n) {t : ℕ} (ht : n.state.currentTerm ≤ t)
    {leader : Option NodeId} (hstate : n'.state = (n.becomeFollower t leader).state)
    (hrole : n'.role = .follower)
    (hpackets : ∀ out ∈ transition.outbound,
      PacketOk boot certain (s.tick n.id t) ⟨n.id, out.destination, out.message⟩) :
    Simulates boot certain s (s.tick n.id t) n.id n' transition :=
  ⟨h.follow_steps ht, hstate ▸ (h.follow ht leader).durable, .follower hrole, hpackets⟩

variable {source : NodeId}

/-- A counted vote. -/
lemma counted (h : Local boot certain s n) {response : RequestVoteResponse}
    (counts : Counts n response)
    (hpacket : PacketOk boot certain s ⟨source, n.id, .requestVoteResponse response⟩) :
    ∀ w ∈ insert source n.votes, ∃ log, s.vote w n.state.currentTerm = some (n.id, log) := by
  intro w hw
  rcases Finset.mem_insert.mp hw with rfl | hold
  · rw [← counts.term]
    exact hpacket counts.grants
  · exact (h.volatile.candidate counts.candidate).votes w hold

/-- A confirmed peer. -/
lemma confirm (h : Local boot certain s n) {peer : NodeId} {term found m : ℕ}
    (answered : Answered n peer term) (hfound : n.matchIndex peer = some found)
    (hacked : Acked s peer term m) (hm : m ≤ n.state.lastIndex) :
    Local boot certain s (n.progress peer (max found m)) := by
  have hrole := answered.leader
  have hleader := h.leadership hrole
  obtain rfl := answered.term
  refine ⟨h.inv, h.durable, h.wellFormed.confirmed answered hfound hm, h.limit, fun hr => ?_,
    fun _ => ?_⟩
  · exact absurd (hrole.symm.trans hr) (by decide)
  · refine ⟨hleader.leads, hleader.log, hleader.committed, hleader.own, fun p x hx => ?_⟩
    by_cases hp : p = peer
    · subst hp
      simp only [progress, Function.update_self, Option.some.injEq] at hx
      subst hx
      exact max_rec' (fun k => k = 0 ∨ Acked s p _ k) (hleader.matched p found hfound)
        (.inr hacked)
    · simp only [progress, Function.update_of_ne hp] at hx
      exact hleader.matched p x hx

/-- The answers that promise nothing. -/
lemma refusal_packets (source v : NodeId) (message : Message) :
    ∀ out ∈ refusal n source message,
      PacketOk boot certain s ⟨v, out.destination, out.message⟩ := by
  intro out hout
  cases message with
  | requestVoteRequest request =>
    obtain rfl := mem_singleton.mp hout
    exact fun hgranted => by cases hgranted
  | appendEntriesRequest request | installSnapshotRequest request =>
    obtain rfl := mem_singleton.mp hout
    exact fun hsuccess => by cases hsuccess
  | readBarrierRequest request =>
    obtain rfl := mem_singleton.mp hout
    trivial
  | requestVoteResponse | appendEntriesResponse | installSnapshotResponse | readBarrierResponse =>
    cases hout

/-- A compacted log. -/
lemma compact (h : Local boot certain s n) (hcertain : certain) {snapshot : SnapshotMetadata}
    {checkpoint : DerivedMembership} (hc : Compactable n snapshot checkpoint) :
    Durable boot certain s n.id (n.compacted snapshot).state where
  __ := h.durable
  represents := by
    refine h.durable.represents.compact rfl h.wellFormed.base h.limit ?_ hc
    exact (hc.applied.trans h.wellFormed.state.applied_le_commit).trans h.commit_le
  whole hnot := absurd hcertain hnot

/-- A granted vote. -/
lemma voted (h : Local boot certain s n) {request : RequestVoteRequest} (hsource : source ≠ 0)
    (hpos : request.term ≠ 0) (hterm : n.state.currentTerm ≤ request.term)
    (hvote : request.term > n.state.currentTerm ∨ n.state.votedFor = none ∨
      n.state.votedFor = some source)
    (hcurrent : candidateLogIsCurrent n.state request.lastLogIndex request.lastLogTerm = true)
    (hpacket : PacketOk boot certain s ⟨source, n.id, .requestVoteRequest request⟩)
    (hout : transition.outbound = [⟨source, .requestVoteResponse ⟨request.term, true⟩⟩]) :
    ∃ s', Simulates boot certain s s' n.id ((n.observe request.term).grant source) transition := by
  obtain ⟨log, hcamp, hindex, hlast⟩ := hpacket
  have h' := h.observe request.term
  have hid : (n.observe request.term).id = n.id :=
    congrArg Prod.fst (identity_observe n request.term)
  have hcur : (n.observe request.term).state.currentTerm = request.term := by
    rw [observe_currentTerm, max_eq_right hterm]
  rw [max_eq_right hterm] at h'
  have hsteps := h.follow_steps hterm
  have hvoted : (n.observe request.term).state.votedFor = none ∨
      (n.observe request.term).state.votedFor = some source := by
    rw [observe_state]
    split
    · exact .inl rfl
    · rcases hvote with hnewer | hvote
      · contradiction
      · exact hvote
  have hpackets : ∀ {s' : History}, (∃ log, s'.vote n.id request.term = some (source, log)) →
      ∀ out ∈ transition.outbound,
        PacketOk boot certain s' ⟨n.id, out.destination, out.message⟩ := by
    intro _ hv _ hmem
    rw [hout, mem_singleton] at hmem
    subst hmem
    exact fun _ => hv
  rcases hvoted with hnone | hsome
  · -- the vote is new
    have hup : Consensus.UpToDate (group boot) log ((s.tick n.id request.term).log
        (n.observe request.term).id) := by
      rw [hid]
      rw [hindex, hlast] at hcurrent
      exact h.upToDate hcurrent
    have hcamp' : (s.tick n.id request.term).camp source
        (n.observe request.term).state.currentTerm = some log := by
      rw [hcur]
      exact hcamp
    have hgrant := h'.grant hnone hcamp' hup hsource (by rw [hcur]; exact hpos)
    have hgsteps := h'.grant_steps hnone hcamp' hup
    rw [hid, hcur] at hgrant hgsteps
    have hdurable := hgrant.durable
    rw [show ((n.observe request.term).grant source).id = n.id from hid] at hdurable
    refine ⟨_, hsteps.trans hgsteps, hdurable, .follower rfl, hpackets ⟨s.log n.id, ?_⟩⟩
    simp [Consensus.System.grant, Consensus.System.tick]
  · -- the node has voted for this candidate before
    have hdurable := h'.durable
    rw [hid] at hdurable
    refine ⟨_, hsteps, hdurable.congr rfl rfl rfl hsome.symm rfl, .follower rfl, hpackets ?_⟩
    have hv := hdurable.vote
    rw [hcur, hsome, Option.map_eq_some_iff] at hv
    obtain ⟨⟨c, l⟩, hv, rfl⟩ := hv
    exact ⟨l, hv⟩

end Local

/-! ### All calls -/

section Effect

variable {boot : List NodeId} {certain : Prop} {c c' : Cluster} {s : History} {v : NodeId}
  {n n' : RaftNode} {call : Call} {transition : Transition}

/-- The appends of a leader: it writes, commits, and steps down if it is no longer a voter. -/
lemma Local.appended {s₁ : History} {tracked next : RaftNode} {commit : Option ℕ}
    (hsteps : Steps (group boot) n.id s s₁) (h : Local boot certain s₁ tracked)
    (hid : tracked.id = n.id) (hrole : tracked.role = .leader)
    (ha : Advanced tracked next commit) (hout : transition.outbound = next.appendToAll)
    (hn' : n' = next ∨ n' = next.stepDownIfRemoved) :
    ∃ s', Simulates boot certain s s' n.id n' transition := by
  obtain ⟨hnext, hrole', hid'⟩ := h.advance hrole ha
  have hlast : Local boot certain (advancedBy s₁ tracked.state.currentTerm commit) n' := by
    rcases hn' with rfl | rfl
    · exact hnext
    · exact hnext.stepDown
  have hid'' : n'.id = n.id := by
    rcases hn' with rfl | rfl
    · exact hid'.trans hid
    · exact (congrArg Prod.fst (identity_stepDownIfRemoved next)).trans (hid'.trans hid)
  have hadvance := h.advance_steps hrole ha
  rw [hid] at hadvance
  refine ⟨_, hsteps.trans hadvance, hid'' ▸ hlast.durable, hlast.volatile, ?_⟩
  rw [hout, ← hid, ← hid']
  exact hnext.appendToAll_packets hrole'

/-- The guard on compaction and the reason for new commits that a simulated call needs. -/
structure Justified (certain : Prop) (s : History) (n : RaftNode) (call : Call) (n' : RaftNode) :
    Prop where
  snapshot : certain ∨ ∀ snapshot, call ≠ .compactSnapshot snapshot
  commit : ∀ source request validated, call = .receive source (.appendEntriesRequest request) →
    Acceptable n source request validated → n' = n.accept source request validated → certain →
    KnowsLog s request.term validated.commit (s.adopted n.id request.term request.accepted)

/-- **Every call is simulated.** -/
theorem effect_simulates (h : Refines boot certain c s) (hnode : c.node v = some n)
    (hdeliver : call.deliverable c.sent v = true) (heff : Effect n call n' transition)
    (hj : Justified certain s n call n') : ∃ s', Simulates boot certain s s' v n' transition := by
  have hok := h.node v n hnode
  obtain rfl := hok.id
  have hl := h.toLocal hnode
  -- a received message was sent
  have hpacket : ∀ {source message}, call = .receive source message →
      PacketOk boot certain s ⟨source, n.id, message⟩ := by
    rintro source message rfl
    exact h.packet _ (by simpa [Call.deliverable] using hdeliver)
  have hnil : ∀ (s' : History), ∀ out ∈ ([] : List OutboundMessage),
      PacketOk boot certain s' ⟨n.id, out.destination, out.message⟩ := by simp
  cases heff with
  | unchanged => exact ⟨s, hl.quiet rfl hl.volatile (hnil s)⟩
  | campaigned =>
    refine ⟨_, hl.campaign_steps, hl.campaign.durable, hl.campaign.volatile, ?_⟩
    intro out hout
    obtain ⟨peer, -, rfl⟩ := mem_map.mp hout
    exact hl.campaign_packet peer
  | campaignWon _ _ quorum =>
    have hvotes : ∀ w ∈ ({n.id} : Finset NodeId), ∃ log,
        (s.campaign n.id (n.state.currentTerm + 1)).vote w n.campaign.state.currentTerm =
          some (n.campaign.id, log) :=
      (hl.campaign.volatile.candidate rfl).votes
    have hquorum : configurationQuorum n.campaign.joint n.campaign.committedVoters
        (fun w => decide (w ∈ ({n.id} : Finset NodeId))) = true := by
      simp only [Finset.mem_singleton]
      exact quorum
    have hwin := hl.campaign.win rfl hvotes hquorum
    refine ⟨_, hl.campaign_steps.trans (hl.campaign.win_steps rfl hvotes hquorum),
      hwin.durable, hwin.volatile, ?_⟩
    intro out hout
    obtain ⟨peer, -, rfl⟩ := mem_map.mp hout
    exact hl.campaign.win_packet rfl hvotes hquorum peer
  | appendedLocal _ entry room tracked trackedNext advanced =>
    have hpush := hl.wellFormed.pushEntry entry room
    obtain ⟨hsteps, hpushed⟩ := hl.pushPlain room.leader
      (hpush.selfTracked room.leader tracked trackedNext) entry.plain
    exact Local.appended hsteps hpushed rfl room.leader advanced rfl (.inl rfl)
  | @appendedMembership _ type payload membership _ _ _ _ entry advanced =>
    obtain ⟨hpush, hrole⟩ := hl.wellFormed.pushMembership entry
    have hid := installMembership_id (n.pushEntry type payload) membership
    obtain ⟨hsteps, hpushed⟩ := hl.pushMembership entry.leader
      (hpush.selfTracked hrole (hid ▸ entry.tracked) (hid ▸ entry.trackedNext)) entry.derived
    exact Local.appended hsteps hpushed hid hrole advanced rfl (.inr rfl)
  | installAborted =>
    refine ⟨s, hl.quiet rfl (hl.volatile.congr rfl rfl rfl rfl rfl rfl) fun out hout => ?_⟩
    obtain rfl := mem_singleton.mp hout
    exact fun hsuccess => by cases hsuccess
  | installCompleted _ installs =>
    have hsent := h.packet _ (hok.pending _ installs.isPending)
    exact ⟨_, hl.install installs hsent rfl⟩
  | compacted snapshot _ metadata =>
    obtain ⟨checkpoint, hc⟩ := prepareSnapshotMetadata_eq_ok metadata
    have hcertain : certain := hj.snapshot.resolve_right fun hne => hne snapshot rfl
    exact ⟨s, .refl _ _, hl.compact hcertain hc, hl.volatile.congr rfl rfl rfl rfl rfl rfl, hnil s⟩
  | heartbeat leader => exact ⟨s, hl.quiet rfl hl.volatile (hl.appendToAll_packets leader)⟩
  | barrierReady => exact ⟨s, hl.quiet rfl (hl.volatile.congr rfl rfl rfl rfl rfl rfl) (hnil s)⟩
  | barrierOpened opens =>
    refine ⟨s, hl.quiet rfl (hl.volatile.congr rfl rfl rfl rfl rfl rfl) fun out hout => ?_⟩
    obtain ⟨peer, -, rfl⟩ := mem_map.mp hout
    exact (hl.leadership opens.leader).leads
  | applied index =>
    exact ⟨s, .refl _ _, hl.durable.congr rfl rfl rfl rfl rfl,
      hl.volatile.congr rfl rfl rfl rfl rfl rfl, hnil s⟩
  | observed source message =>
    have hobserve := hl.observe message.term
    have hid : (n.observe message.term).id = n.id :=
      congrArg Prod.fst (identity_observe n message.term)
    exact ⟨_, hl.follow_steps (le_max_left _ _), hid ▸ hobserve.durable, hobserve.volatile,
      Local.refusal_packets source n.id message⟩
  | granted _ _ received _ term vote current =>
    exact hl.voted received.source_ne_zero received.term_ne_zero term vote current (hpacket rfl) rfl
  | voteCounted _ _ _ counts =>
    have hvotes := hl.counted counts (hpacket rfl)
    have hcandidate := hl.volatile.candidate counts.candidate
    refine ⟨s, hl.quiet rfl ⟨fun _ => ?_, fun hr => ?_⟩ (hnil s)⟩
    · exact ⟨hcandidate.camp, hvotes, hcandidate.undecided⟩
    · exact absurd (counts.candidate.symm.trans hr) (by decide)
  | voteWon _ _ _ counts quorum =>
    have hvotes := hl.counted counts (hpacket rfl)
    have hwin := hl.win counts.candidate hvotes quorum
    refine ⟨_, hl.win_steps counts.candidate hvotes quorum, hwin.durable, hwin.volatile, ?_⟩
    intro out hout
    obtain ⟨peer, -, rfl⟩ := mem_map.mp hout
    exact hl.win_packet counts.candidate hvotes quorum peer
  | appendRejected _ _ _ term =>
    refine ⟨_, hl.followed term rfl rfl fun out hout => ?_⟩
    obtain rfl := mem_singleton.mp hout
    intro hsuccess
    simp only [rejection] at hsuccess
    split at hsuccess <;> cases hsuccess
  | appendAccepted source request validated received =>
    have hacc := received.acceptable
    exact ⟨_, hl.accept hacc (hpacket rfl) (hj.commit source request validated rfl hacc rfl) rfl⟩
  | appendConfirmed _ _ received answered success tracked =>
    have hconfirm := hl.confirm answered tracked (hpacket rfl success)
      (received.appendResponse success)
    refine ⟨s, hl.quiet rfl hconfirm.volatile fun out hout => ?_⟩
    split at hout
    · obtain rfl := mem_singleton.mp hout
      exact hconfirm.leader_packet answered.leader (by simp [progress])
    · cases hout
  | appendCommitted _ _ received answered success tracked advanced =>
    have hconfirm := hl.confirm answered tracked (hpacket rfl success)
      (received.appendResponse success)
    exact Local.appended (.refl _ _) hconfirm rfl answered.leader advanced rfl (.inr rfl)
  | appendBackedOff source response _ answered =>
    have hback : Local boot certain s (n.backOff source (conflictNext n.state response)) := by
      obtain ⟨h1, h2⟩ := conflictNext_bounds n.state response
      exact ⟨hl.inv, hl.durable, hl.wellFormed.backOff answered h1 h2, hl.limit,
        hl.volatile.congr rfl rfl rfl rfl rfl rfl⟩
    refine ⟨s, hl.quiet rfl hback.volatile fun out hout => ?_⟩
    obtain rfl := mem_singleton.mp hout
    exact hback.leader_packet answered.leader (by simp [backOff])
  | installCovered _ _ _ term =>
    exact ⟨_, hl.cover term (hpacket rfl) rfl⟩
  | installCompeting _ _ _ term _ answers =>
    refine ⟨_, hl.followed term rfl rfl fun out hout => ?_⟩
    rcases answers with rfl | rfl
    · cases hout
    · obtain rfl := mem_singleton.mp hout
      exact fun hsuccess => by cases hsuccess
  | installPending source request _ term =>
    exact ⟨_, hl.followed term
      (show _ = (n.becomeFollower request.term (some source)).state from rfl) rfl (hnil _)⟩
  | installConfirmed _ _ received answered success tracked =>
    have hconfirm := hl.confirm answered tracked (hpacket rfl success)
      (received.installResponse success)
    refine ⟨s, hl.quiet rfl hconfirm.volatile fun out hout => ?_⟩
    obtain rfl := mem_singleton.mp hout
    exact hconfirm.leader_packet answered.leader (by simp [progress])
  | installFailed _ _ _ answered =>
    refine ⟨s, hl.quiet rfl hl.volatile fun out hout => ?_⟩
    obtain rfl := mem_singleton.mp hout
    exact hl.leader_packet answered.leader answered.trackedNext
  | barrierAcknowledged _ _ _ term =>
    refine ⟨_, hl.followed term rfl rfl fun out hout => ?_⟩
    obtain rfl := mem_singleton.mp hout
    trivial
  | barrierCounted | barrierCompleted =>
    exact ⟨s, hl.quiet rfl (hl.volatile.congr rfl rfl rfl rfl rfl rfl) (hnil s)⟩

end Effect

end Chronos.Raft
