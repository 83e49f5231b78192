import Chronos.Raft.Cluster
import Chronos.Raft.Represents

/-!
When a group of nodes refines a system of replicated logs.

* `Durable`: what the stored state of a node says of the history: its whole log,
  its term and vote, and that its commit index is known to be committed.  With
  `certain`, the committed entries are the ones in its own log.
* `Volatile`: what the role of a node says of the history.
* `PacketOk`: what a message says of the history.
* `Refines`: all of them together; `Refines.called` puts the parts together again
  after the call of one node, `Refines.started` after a start.
-/

namespace Chronos.Raft

open Consensus (Agree Knows KnowsLog Steps ByNode Grows)

/-- Histories of a group of nodes. -/
abbrev History := Consensus.System NodeId LogEntry

/-- The quorums of the group with the given bootstrap voters. -/
def group (boot : List NodeId) : Consensus.Configuration NodeId LogEntry :=
  membership (boot.insertionSort (· ≤ ·))

/-- The invariant of the history of a group. -/
abbrev HistoryInv (boot : List NodeId) (s : History) : Prop := Consensus.Inv (group boot) s

/-! ### What states and messages say of the history -/

/-- What the stored state of node `v` says of the history. -/
structure Durable (boot : List NodeId) (certain : Prop) (s : History) (v : NodeId)
    (state : PersistentState) : Prop where
  represents : Represents boot (s.log v) state
  term : s.term v = state.currentTerm
  vote : (s.vote v state.currentTerm).map Prod.fst = state.votedFor
  knows : Knows s state.currentTerm state.commitIndex
  knowsLog : certain → KnowsLog s state.currentTerm state.commitIndex (s.log v)
  whole : ¬ certain → state.snapshot.lastIncludedIndex = 0

/-- Node `v` was elected in term `u`. -/
def Leads (s : History) (v : NodeId) (u : ℕ) : Prop := ∃ b, s.elect u = some b ∧ b.winner = v

/-- Node `v` has acknowledged the first `m` entries of the leader of term `u`. -/
def Acked (s : History) (v : NodeId) (u m : ℕ) : Prop := ∀ k ≤ m, s.ack v u k

/-- What a candidate says of the history. -/
structure Candidacy (s : History) (n : RaftNode) : Prop where
  camp : s.camp n.id n.state.currentTerm = some (s.log n.id)
  votes : ∀ w ∈ n.votes, ∃ log, s.vote w n.state.currentTerm = some (n.id, log)
  undecided : ∀ b, s.elect n.state.currentTerm = some b → b.winner ≠ n.id

/-- What a leader says of the history. -/
structure Leadership (s : History) (n : RaftNode) : Prop where
  leads : Leads s n.id n.state.currentTerm
  log : s.log n.id = s.lead n.state.currentTerm
  committed : ∀ k, s.committed n.state.currentTerm k → k ≤ n.state.commitIndex
  own : Acked s n.id n.state.currentTerm (s.log n.id).length
  matched : ∀ peer m, n.matchIndex peer = some m → m = 0 ∨ Acked s peer n.state.currentTerm m

/-- What the role of a node says of the history. -/
structure Volatile (s : History) (n : RaftNode) : Prop where
  candidate : n.role = .candidate → Candidacy s n
  leader : n.role = .leader → Leadership s n

/-- An append request carries a slice of a log. -/
structure AppendSlice (log : List LogEntry) (request : AppendEntriesRequest) : Prop where
  within : request.previousLogIndex + request.entries.length ≤ log.length
  entries : request.entries = (log.drop request.previousLogIndex).take request.entries.length
  term : termOf log request.previousLogIndex = some request.previousLogTerm

/-- A snapshot describes a prefix of a log. -/
structure SnapshotOf (boot : List NodeId) (log : List LogEntry) (snapshot : SnapshotMetadata) :
    Prop where
  contiguous : Contiguous 0 (log.take snapshot.lastIncludedIndex)
  within : snapshot.lastIncludedIndex ≤ log.length
  term : termOf log snapshot.lastIncludedIndex = some snapshot.lastIncludedTerm
  base : deriveMembership (boot.insertionSort (· ≤ ·)) (log.take snapshot.lastIncludedIndex)
    snapshot.lastIncludedIndex maximumMembershipVoters = .ok (.base snapshot.voters)

/-- What a message says of the history. -/
def PacketOk (boot : List NodeId) (certain : Prop) (s : History) (packet : Packet) : Prop :=
  match packet.message with
  | .requestVoteRequest request => ∃ log, s.camp packet.source request.term = some log ∧
      request.lastLogIndex = log.length ∧
      request.lastLogTerm = Consensus.lastTerm (group boot) log
  | .requestVoteResponse response => response.granted = true →
      ∃ log, s.vote packet.source response.term = some (packet.destination, log)
  | .appendEntriesRequest request => Leads s packet.source request.term ∧
      AppendSlice (s.lead request.term) request ∧ Knows s request.term request.leaderCommit
  | .appendEntriesResponse response => response.success = true →
      Acked s packet.source response.term response.matchIndex
  | .installSnapshotRequest request => certain ∧ Leads s packet.source request.term ∧
      SnapshotOf boot (s.lead request.term) request.snapshot ∧
      Knows s request.term request.snapshot.lastIncludedIndex
  | .installSnapshotResponse response => response.success = true →
      Acked s packet.source response.term response.lastIncludedIndex
  | .readBarrierRequest request => Leads s packet.source request.term
  | .readBarrierResponse _ => True

/-- What a running node says of the group and the history. -/
structure NodeOk (boot : List NodeId) (c : Cluster) (s : History) (v : NodeId) (n : RaftNode) :
    Prop where
  id : n.id = v
  stored : c.stored v = n.state
  wellFormed : n.WellFormed boot
  limit : n.limits.maximumVoters ≤ maximumMembershipVoters
  batch : n.limits.maximumAppendEntries ≠ 0
  volatile : Volatile s n
  pending : ∀ request, n.pendingSnapshot = some request →
    ⟨request.leaderId, v, .installSnapshotRequest request⟩ ∈ c.sent

/-- **A group refines a history.** -/
structure Refines (boot : List NodeId) (certain : Prop) (c : Cluster) (s : History) : Prop where
  inv : HistoryInv boot s
  durable : ∀ v, Durable boot certain s v (c.stored v)
  node : ∀ v n, c.node v = some n → NodeOk boot c s v n
  packet : ∀ packet ∈ c.sent, PacketOk boot certain s packet

/-! ### Growth -/

section Grow

variable {boot : List NodeId} {certain : Prop} {s s' : History} {u : ℕ} {v : NodeId}

lemma Leads.isSome (h : Leads s v u) : (s.elect u).isSome := by
  obtain ⟨b, hb, -⟩ := h
  exact Option.isSome_iff_exists.mpr ⟨b, hb⟩

variable {w : NodeId}

lemma Leads.unique (h : Leads s v u) (h' : Leads s w u) : v = w := by
  obtain ⟨b, hb, rfl⟩ := h
  obtain ⟨b', hb', rfl⟩ := h'
  rw [hb, Option.some.injEq] at hb'
  rw [hb']

lemma Leads.grow (g : Grows s s') (h : Leads s v u) : Leads s' v u := by
  obtain ⟨b, hb, hw⟩ := h
  exact ⟨b, g.elect hb, hw⟩

lemma Acked.grow (g : Grows s s') {m : ℕ} (h : Acked s v u m) : Acked s' v u m :=
  fun k hk => g.ack (h k hk)

variable {log log' : List LogEntry}

/-- A slice of a log is one of every longer log. -/
lemma AppendSlice.mono {request : AppendEntriesRequest} (h : AppendSlice log request)
    (hlog : log <+: log') : AppendSlice log' request := by
  have hagree := Agree.of_extends hlog
  have hwithin := h.within
  refine ⟨hwithin.trans hlog.length_le, ?_, ?_⟩
  · have htake := (hagree.mono hwithin).take_eq
    rw [← Nat.add_sub_cancel_left request.previousLogIndex request.entries.length,
      ← List.drop_take, ← htake, List.drop_take, Nat.add_sub_cancel_left]
    exact h.entries
  · rw [← termOf_eq_of_agree hagree (by omega)]
    exact h.term

lemma SnapshotOf.mono {snapshot : SnapshotMetadata} (h : SnapshotOf boot log snapshot)
    (hlog : log <+: log') : SnapshotOf boot log' snapshot := by
  have hagree := Agree.of_extends hlog
  have htake := (hagree.mono h.within).take_eq
  refine ⟨htake ▸ h.contiguous, h.within.trans hlog.length_le, ?_, htake ▸ h.base⟩
  rw [← termOf_eq_of_agree hagree h.within]
  exact h.term

lemma PacketOk.grow (g : Grows s s') {packet : Packet} (h : PacketOk boot certain s packet) :
    PacketOk boot certain s' packet := by
  obtain ⟨source, destination, message⟩ := packet
  cases message with
  | requestVoteRequest request =>
    obtain ⟨log, hcamp, hindex, hterm⟩ := h
    exact ⟨log, g.camp hcamp, hindex, hterm⟩
  | requestVoteResponse response =>
    intro hgranted
    obtain ⟨log, hvote⟩ := h hgranted
    exact ⟨log, g.vote hvote⟩
  | appendEntriesRequest request =>
    exact ⟨h.1.grow g, h.2.1.mono (g.lead h.1.isSome), h.2.2.grow g⟩
  | appendEntriesResponse response | installSnapshotResponse response =>
    exact fun hs => (h hs).grow g
  | installSnapshotRequest request =>
    exact ⟨h.1, h.2.1.grow g, h.2.2.1.mono (g.lead h.2.1.isSome), h.2.2.2.grow g⟩
  | readBarrierRequest request => exact Leads.grow g h
  | readBarrierResponse response => trivial

/-! ### The steps of one node leave the others alone -/

variable {state : PersistentState}

/-- A state stays durable while the history of its node stays as it is. -/
lemma Durable.frame (hinv : HistoryInv boot s) (g : Grows s s')
    (h : Durable boot certain s v state) (hlog : s'.log v = s.log v)
    (hterm : s'.term v = s.term v)
    (hvote : s'.vote v state.currentTerm = s.vote v state.currentTerm) :
    Durable boot certain s' v state where
  represents := hlog ▸ h.represents
  term := hterm.trans h.term
  vote := by rw [hvote]; exact h.vote
  knows := h.knows.grow g
  knowsLog hc := hlog ▸ (h.knowsLog hc).grow hinv g
  whole := h.whole

variable {v : NodeId} (hstep : ByNode v s s')
include hstep

lemma Durable.byNode (hinv : HistoryInv boot s) (hw : w ≠ v) (h : Durable boot certain s w state) :
    Durable boot certain s' w state :=
  h.frame hinv hstep.grows (hstep.log w hw) (hstep.term w hw) (by rw [hstep.vote w hw])

lemma Volatile.byNode {n : RaftNode} (hn : n.id ≠ v) (h : Volatile s n) : Volatile s' n where
  candidate hrole := by
    have hc := h.candidate hrole
    refine ⟨?_, fun w hw => ?_, fun b hb => ?_⟩
    · rw [hstep.log _ hn]
      exact hstep.grows.camp hc.camp
    · obtain ⟨log, hvote⟩ := hc.votes w hw
      exact ⟨log, hstep.grows.vote hvote⟩
    · rcases hstep.elect hb with hold | hwin
      · exact hc.undecided b hold
      · rw [hwin]
        exact fun heq => hn heq.symm
  leader hrole := by
    have hl := h.leader hrole
    obtain ⟨b, hb, hwin⟩ := hl.leads
    have hne : b.winner ≠ v := hwin ▸ hn
    refine ⟨hl.leads.grow hstep.grows, ?_, fun k hk => ?_, ?_, fun peer m hm => ?_⟩
    · rw [hstep.log _ hn, hstep.lead hb hne]
      exact hl.log
    · exact hl.committed k (hstep.committed hb hne hk)
    · rw [hstep.log _ hn]
      exact hl.own.grow hstep.grows
    · exact (hl.matched peer m hm).imp_right fun ha => ha.grow hstep.grows

end Grow

/-! ### Putting the parts together -/

section Assemble

variable {boot : List NodeId} {certain : Prop} {c : Cluster} {s s' : History} {v : NodeId}
  {n n' : RaftNode} {call : Call} {transition : Transition}

/-- What the steps of the history have to provide for a call of node `v` that leaves `n'`. -/
structure Simulates (boot : List NodeId) (certain : Prop) (s s' : History) (v : NodeId)
    (n' : RaftNode) (transition : Transition) : Prop where
  steps : Steps (group boot) v s s'
  durable : Durable boot certain s' v n'.state
  volatile : Volatile s' n'
  packets : ∀ out ∈ transition.outbound,
    PacketOk boot certain s' ⟨v, out.destination, out.message⟩

/-- A pending installation is an old one or the request just received. -/
lemma effect_pending (heff : Effect n call n' transition) {request : InstallSnapshotRequest}
    (h : n'.pendingSnapshot = some request) :
    n.pendingSnapshot = some request ∨
      call = .receive request.leaderId (.installSnapshotRequest request) := by
  cases heff with
  | appendedLocal _ _ _ _ _ advanced =>
    rw [advanced.pendingSnapshot] at h
    exact .inl h
  | appendedMembership _ _ _ advanced =>
    rw [stepDownIfRemoved_pendingSnapshot, advanced.pendingSnapshot, RaftNode.selfTracked,
      installMembership_pendingSnapshot] at h
    exact .inl h
  | appendCommitted _ _ _ _ _ _ advanced =>
    rw [stepDownIfRemoved_pendingSnapshot, advanced.pendingSnapshot] at h
    exact .inl h
  | installAborted => cases h
  | installCompleted => cases h
  | observed source message =>
    rw [observe_pendingSnapshot] at h
    exact .inl h
  | granted source request' =>
    exact .inl ((observe_pendingSnapshot n request'.term).symm.trans h)
  | installPending _ _ received =>
    cases h
    rw [(received.installRequest).1]
    exact .inr rfl
  | _ => exact .inl h

/-- The stored state after a call is the state of the node. -/
lemma stored_called (hstored : c.stored v = n.state) (heff : Effect n call n' transition) :
    (c.called v n' transition).stored v = n'.state := by
  simp only [Cluster.called, Function.update_self]
  rcases effect_persistent heff with hsome | ⟨hnone, heq⟩
  · rw [hsome]
    rfl
  · rw [hnone, heq]
    exact hstored

/-- **A simulated call keeps the refinement.** -/
lemma Refines.called (h : Refines boot certain c s) (hnode : c.node v = some n)
    (hdeliver : call.deliverable c.sent v = true) (heff : Effect n call n' transition)
    (hsim : Simulates boot certain s s' v n' transition) :
    Refines boot certain (c.called v n' transition) s' := by
  obtain ⟨hinv, hby⟩ := hsim.steps.spec h.inv
  have hn := h.node v n hnode
  have hstored := stored_called hn.stored heff
  have hmono : ∀ {packet}, packet ∈ c.sent → packet ∈ (c.called v n' transition).sent :=
    fun hp => List.mem_append_left _ hp
  refine ⟨hinv, fun w => ?_, fun w m hm => ?_, fun packet hp => ?_⟩
  · by_cases hw : w = v
    · subst hw
      rw [hstored]
      exact hsim.durable
    · simp only [Cluster.called, Function.update_of_ne hw]
      exact (h.durable w).byNode hby h.inv hw
  · by_cases hw : w = v
    · subst hw
      simp only [Cluster.called, Function.update_self, Option.some.injEq] at hm
      subst hm
      have hid := effect_identity heff
      simp only [RaftNode.identity, Prod.mk.injEq] at hid
      refine ⟨hid.1.trans hn.id, hstored, hn.wellFormed.effect heff, ?_, ?_, hsim.volatile,
        fun request hp => hmono ?_⟩
      · rw [hid.2]
        exact hn.limit
      · rw [hid.2]
        exact hn.batch
      · rcases effect_pending heff hp with hold | hcall
        · exact hn.pending request hold
        · subst hcall
          simpa [Call.deliverable] using hdeliver
    · simp only [Cluster.called, Function.update_of_ne hw] at hm
      have hm' := h.node w m hm
      refine ⟨hm'.id, ?_, hm'.wellFormed, hm'.limit, hm'.batch,
        hm'.volatile.byNode hby (hm'.id ▸ hw),
        fun request hp => hmono (hm'.pending request hp)⟩
      simp only [Cluster.called, Function.update_of_ne hw]
      exact hm'.stored
  · rcases List.mem_append.mp hp with hold | hnew
    · exact (h.packet packet hold).grow hby.grows
    · obtain ⟨out, hout, rfl⟩ := List.mem_map.mp hnew
      exact hsim.packets out hout

/-- A node that is started holds its stored state and is a follower. -/
lemma Refines.started (h : Refines boot certain c s) {limits : RaftLimits}
    (hcreated : RaftNode.create v boot (c.stored v) limits = .ok n) :
    Refines boot certain { c with node := Function.update c.node v (some n) } s := by
  obtain ⟨hargs, hwell, hfresh, hid, hlimits, hstate⟩ := create_wellFormed hcreated
  have hsame : RaftNode.createState boot (c.stored v) = c.stored v := by
    by_cases h0 : (c.stored v).snapshot.lastIncludedIndex = 0
    · exact createState_eq (.inl h0)
    · exact createState_eq (.inr ((h.durable v).represents.voters h0))
  have hrole : n.role = .follower := by rw [← hfresh]; rfl
  have hpending : n.pendingSnapshot = none := by rw [← hfresh]; rfl
  refine ⟨h.inv, h.durable, fun w m hm => ?_, h.packet⟩
  by_cases hw : w = v
  · subst hw
    simp only [Function.update_self, Option.some.injEq] at hm
    subst hm
    refine ⟨hid, ?_, hwell, ?_, ?_, ⟨fun hr => ?_, fun hr => ?_⟩, fun request hp => ?_⟩
    · rw [hstate, hsame]
    · have := hargs.bounds
      rw [hlimits]
      omega
    · have := hargs.bounds
      rw [hlimits]
      omega
    · rw [hrole] at hr
      cases hr
    · rw [hrole] at hr
      cases hr
    · rw [hpending] at hp
      cases hp
  · simp only [Function.update_of_ne hw] at hm
    exact { h.node w m hm with }

/-- The empty group refines the empty history. -/
lemma refines_initial (boot : List NodeId) (certain : Prop) :
    Refines boot certain .initial .empty where
  inv := Consensus.inv_empty
  durable v :=
    { represents := .empty boot
      term := rfl
      vote := rfl
      knows := .inl rfl
      knowsLog := fun _ => .inl rfl
      whole := fun _ => rfl }
  node v n hn := by cases hn
  packet packet hp := by cases hp

end Assemble

end Chronos.Raft
