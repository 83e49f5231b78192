import Chronos.Raft.Simulation

/-!
The log updates of a node as steps of the history.

* `Local.accept`, `Local.install`, `Local.cover`: a node takes over entries of its
  leader, from an append request or a snapshot, and acknowledges them.
* `Local.push`: a leader writes an entry.
* `Local.advance`: a leader commits what a quorum has acknowledged.
-/

namespace Chronos.Raft

open RaftNode

open Consensus (Agree Knows KnowsLog Step Steps ByNode Grows Sound)

/-! ### Taking over entries -/

/-- Sound logs match. -/
lemma matches_of_sound {boot : List NodeId} {s : History} {a b : List LogEntry}
    (ha : Sound (group boot) s a) (hb : Sound (group boot) s b) : Matches a b := by
  intro index _ hterm hterm'
  cases index with
  | zero => exact Agree.zero a b
  | succ i =>
    rw [termOf_succ, Option.map_eq_some_iff] at hterm hterm'
    obtain ⟨x, hx, hxt⟩ := hterm
    obtain ⟨y, hy, hyt⟩ := hterm'
    exact ha.matching hb hx hy (hxt.trans hyt.symm)

lemma adopts_adopted (s : History) (v : NodeId) (t p : ℕ) :
    Adopts (s.lead t) (s.log v) p (s.adopted v t p) := by
  unfold Consensus.System.adopted
  split
  · exact .inl ⟨‹_›, rfl⟩
  · exact .inr ⟨‹_›, rfl⟩

namespace Local

variable {boot : List NodeId} {certain : Prop} {s : History} {n n' : RaftNode}

lemma lead_matches (h : Local boot certain s n) {t : ℕ} (ht : (s.elect t).isSome) :
    Matches (s.lead t) (s.log n.id) :=
  matches_of_sound (h.inv.lead_sound ht) (h.inv.log_sound n.id)

lemma adopt_steps (h : Local boot certain s n) {p : ℕ}
    (helect : (s.elect n.state.currentTerm).isSome) (hp : p ≤ (s.lead n.state.currentTerm).length) :
    Steps (group boot) n.id s (s.adopt n.id n.state.currentTerm p) :=
  (Steps.refl _ _).tail (.adopt _ p helect h.term_eq hp)

/-- The stored state of a node that has taken over entries of its leader. -/
lemma adopt_durable (h : Local boot certain s n) {p : ℕ} {state : PersistentState}
    (hterm : state.currentTerm = n.state.currentTerm) (hvote : state.votedFor = n.state.votedFor)
    (hrep : Represents boot (s.adopted n.id n.state.currentTerm p) state)
    (hknows : Knows s n.state.currentTerm state.commitIndex)
    (hlog : certain →
      KnowsLog s n.state.currentTerm state.commitIndex (s.adopted n.id n.state.currentTerm p))
    (hwhole : ¬ certain → state.snapshot.lastIncludedIndex = 0) :
    Durable boot certain (s.adopt n.id n.state.currentTerm p) n.id state := by
  have hself : (s.adopt n.id n.state.currentTerm p).log n.id =
      s.adopted n.id n.state.currentTerm p := Function.update_self _ _ _
  refine
    { represents := hself ▸ hrep
      term := h.term_eq.trans hterm.symm
      vote := ?_
      knows := hterm ▸ hknows
      knowsLog := fun hc => ?_
      whole := hwhole }
  · rw [hterm, hvote]
    exact h.durable.vote
  · rw [hself, hterm]
    exact hlog hc

lemma adopt_acked (s : History) (v : NodeId) (t p : ℕ) : Acked (s.adopt v t p) v t p :=
  fun _ hk => .inr ⟨rfl, rfl, hk⟩

/-- The state after an accepted append request, and the log it represents. -/
lemma accept_represents (h : Local boot certain s n) {source : NodeId}
    {request : AppendEntriesRequest} {v : ValidatedAppend} (hacc : Acceptable n source request v)
    (helect : (s.elect request.term).isSome) (hslice : AppendSlice (s.lead request.term) request) :
    request.accepted = request.previousLogIndex + request.entries.length ∧
      Represents boot (s.adopted n.id request.term request.accepted)
        (n.acceptedState request v) := by
  obtain ⟨k, hspliced⟩ := hacc.spliced h.wellFormed.state
  have haccepted := accepted_eq (hspliced.previous ▸ hspliced.contiguous)
  have hrep : Represents boot (s.adopted n.id request.term request.accepted)
      { n.state with log := v.log } := by
    refine h.durable.represents.accept (h.lead_matches helect) hslice.within
      hslice.entries hslice.term hacc.previous hspliced ?_
    rw [← haccepted]
    exact adopts_adopted _ _ _ _
  exact ⟨haccepted, hrep.congr rfl rfl⟩

/-- The commit index of an accepted request is known to be committed. -/
lemma accept_knows (h : Local boot certain s n) {source : NodeId} {request : AppendEntriesRequest}
    {v : ValidatedAppend} (hacc : Acceptable n source request v)
    (hknows : Knows s request.term request.leaderCommit) : Knows s request.term v.commit := by
  rw [hacc.commit]
  exact max_rec' (Knows s request.term) (h.durable.knows.mono hacc.term le_rfl)
    (hknows.mono le_rfl (min_le_left _ _))

/-- A node accepts an append request. -/
lemma accept (h : Local boot certain s n) {source : NodeId} {request : AppendEntriesRequest}
    {v : ValidatedAppend} (hacc : Acceptable n source request v)
    (hpacket : PacketOk boot certain s ⟨source, n.id, .appendEntriesRequest request⟩)
    (hcommit : certain →
      KnowsLog s request.term v.commit (s.adopted n.id request.term request.accepted))
    {transition : Transition}
    (hout : transition.outbound =
      [⟨source, .appendEntriesResponse ⟨request.term, true, request.accepted, none, 0⟩⟩]) :
    Simulates boot certain s
      ((s.tick n.id request.term).adopt n.id request.term request.accepted) n.id
      (n.accept source request v) transition := by
  obtain ⟨hleads, hslice, hknows⟩ := hpacket
  obtain ⟨haccepted, hrep⟩ := h.accept_represents hacc hleads.isSome hslice
  -- the node first follows the leader, then takes over its entries
  have h' := h.follow hacc.term (some source)
  have hcur : (n.becomeFollower request.term (some source)).state.currentTerm = request.term :=
    becomeFollower_currentTerm hacc.term _
  have hstate : n.acceptedState request v =
      { (n.becomeFollower request.term (some source)).state with
        log := v.log, commitIndex := v.commit } := by
    have := hacc.term
    rw [becomeFollower_state, acceptedState]
    split
    · rfl
    · rw [show request.term = n.state.currentTerm by omega]
  have hsteps := h'.adopt_steps (p := request.accepted) (by rw [hcur]; exact hleads.isSome)
    (by rw [hcur, haccepted]; exact hslice.within)
  rw [hcur] at hsteps
  refine
    { steps := (h.follow_steps hacc.term).trans hsteps
      durable := ?_
      volatile := .follower rfl
      packets := ?_ }
  · have hdurable := @adopt_durable _ _ _ _ h' request.accepted (n.acceptedState request v)
    rw [hcur] at hdurable
    refine hdurable rfl ?_ ?_ ?_ hcommit ?_
    · rw [hstate]
    · exact hrep
    · exact h.accept_knows hacc hknows
    · exact h.durable.whole
  · intro _ hmem
    rw [hout, List.mem_singleton] at hmem
    subst hmem
    exact fun _ => adopt_acked _ _ _ _

/-- A node whose snapshot covers the leader's acknowledges its own. -/
lemma cover (h : Local boot certain s n) {source : NodeId} {request : InstallSnapshotRequest}
    (hterm : n.state.currentTerm ≤ request.term)
    (hpacket : PacketOk boot certain s ⟨source, n.id, .installSnapshotRequest request⟩)
    {transition : Transition}
    (hout : transition.outbound = [⟨source, .installSnapshotResponse
      ⟨request.term, true, n.state.snapshot.lastIncludedIndex⟩⟩]) :
    Simulates boot certain s ((s.tick n.id request.term).adopt n.id request.term
      n.state.snapshot.lastIncludedIndex) n.id (n.becomeFollower request.term (some source))
      transition := by
  obtain ⟨hcertain, hleads, hsnapshot, hknows⟩ := hpacket
  have h' := h.follow hterm (some source)
  have hcur : (n.becomeFollower request.term (some source)).state.currentTerm = request.term :=
    becomeFollower_currentTerm hterm _
  -- what is committed in the node is in the leader's log
  have hagree : Agree n.state.snapshot.lastIncludedIndex (s.lead request.term) (s.log n.id) := by
    rcases ((h.durable.knowsLog hcertain).mono hterm h.snapshot_le_commit).agree_lead h.inv
      hleads.isSome with h0 | hagree
    · rw [h0]
      exact Agree.zero _ _
    · exact hagree
  have hadopted : s.adopted n.id request.term n.state.snapshot.lastIncludedIndex = s.log n.id :=
    if_pos hagree
  have hsteps := h'.adopt_steps (p := n.state.snapshot.lastIncludedIndex)
    (by rw [hcur]; exact hleads.isSome) (by rw [hcur]; exact hagree.left_le)
  rw [hcur] at hsteps
  refine
    { steps := (h.follow_steps hterm).trans hsteps
      durable := ?_
      volatile := .follower rfl
      packets := ?_ }
  · refine h'.durable.frame h'.inv (hsteps.spec h'.inv).2.grows ?_ rfl rfl
    exact (Function.update_self _ _ _).trans hadopted
  · intro _ hmem
    rw [hout, List.mem_singleton] at hmem
    subst hmem
    exact fun _ => adopt_acked _ _ _ _

/-- A node installs a snapshot of its leader. -/
lemma install (h : Local boot certain s n) {pending : InstallSnapshotRequest}
    {membership : DerivedMembership} (installs : Installs n pending membership) {source : NodeId}
    (hpacket : PacketOk boot certain s ⟨source, n.id, .installSnapshotRequest pending⟩)
    {transition : Transition} {leader : NodeId}
    (hout : transition.outbound = [⟨leader, .installSnapshotResponse
      ⟨n.state.currentTerm, true, pending.snapshot.lastIncludedIndex⟩⟩]) :
    Simulates boot certain s
      (s.adopt n.id n.state.currentTerm pending.snapshot.lastIncludedIndex) n.id
      (n.installed pending.snapshot membership) transition := by
  obtain ⟨hcertain, hleads, hsnapshot, hknows⟩ := hpacket
  rw [installs.term] at hleads hsnapshot hknows
  have hvalid := h.wellFormed.pending pending installs.isPending
  have hrole : n.role = .follower := hvalid.follows installs.term
  have hmatch := h.lead_matches hleads.isSome
  have hadopts := adopts_adopted s n.id n.state.currentTerm pending.snapshot.lastIncludedIndex
  refine
    { steps := h.adopt_steps hleads.isSome hsnapshot.within
      durable := h.adopt_durable rfl rfl ?_ ?_ (fun _ => ?_) (absurd hcertain)
      volatile := .follower hrole
      packets := ?_ }
  · exact h.durable.represents.install hsnapshot.contiguous hmatch hvalid.newer hsnapshot.within
      hsnapshot.term hsnapshot.base hvalid.valid hadopts
  · exact max_rec' (Knows s _) h.durable.knows hknows
  · refine max_rec' (KnowsLog s _ · _) ((h.durable.knowsLog hcertain).adopted h.inv hleads.isSome)
      ((KnowsLog.of_knows h.inv hleads.isSome hknows).of_agree ?_)
    rcases hadopts with ⟨hagree, heq⟩ | ⟨-, heq⟩
    · rw [heq]
      exact hagree
    · rw [heq]
      exact (Agree.refl hsnapshot.within).take_right le_rfl
  · intro _ hmem
    rw [hout, List.mem_singleton] at hmem
    subst hmem
    exact fun _ => adopt_acked _ _ _ _

end Local

/-! ### Writing -/

/-- The history after a leader has written an entry: it also acknowledges its own log. -/
noncomputable def wroteBy (s : History) (n : RaftNode) (entry : LogEntry) : History :=
  (s.write n.state.currentTerm n.id entry).adopt n.id n.state.currentTerm
    ((s.log n.id).length + 1)

namespace Local

variable {boot : List NodeId} {certain : Prop} {s : History} {n n' : RaftNode}

section Push

variable (h : Local boot certain s n) (hrole : n.role = .leader) {entry : LogEntry}
include h hrole

lemma wroteBy_lead :
    (wroteBy s n entry).lead n.state.currentTerm = s.log n.id ++ [entry] := by
  rw [(h.leadership hrole).log]
  exact Function.update_self _ _ _

lemma wroteBy_log : (wroteBy s n entry).log n.id = s.log n.id ++ [entry] := by
  have hlead : (s.write n.state.currentTerm n.id entry).lead n.state.currentTerm =
      s.log n.id ++ [entry] := h.wroteBy_lead hrole
  have hlog : (s.write n.state.currentTerm n.id entry).log n.id = s.log n.id ++ [entry] := by
    rw [(h.leadership hrole).log]
    exact Function.update_self _ _ _
  refine (Function.update_self _ _ _).trans ?_
  rw [Consensus.System.adopted, hlead, hlog, if_pos]
  exact Agree.refl (by simp)

variable (hterm : entry.term = n.state.currentTerm)
  (hindex : entry.index = (s.log n.id).length + 1)
  (hmember : IsMember entry → ∃ m, deriveMembership n.baseVoters (n.state.log ++ [entry])
    n.state.commitIndex n.limits.maximumVoters = .ok m)
include hterm hindex hmember

lemma write_steps : Steps (group boot) n.id s (wroteBy s n entry) := by
  have hleader := h.leadership hrole
  obtain ⟨b, hb, hwin⟩ := hleader.leads
  have hrep := h.durable.represents.append entry hindex
  refine ((Steps.refl _ _).tail (.write n.state.currentTerm b entry hb hwin h.term_eq hleader.log
    hterm fun hentry => ?_)).tail (.adopt _ _ ?_ h.term_eq ?_)
  · obtain ⟨m, hm⟩ := hmember hentry
    refine ⟨n.state.commitIndex, ?_, h.durable.knows⟩
    rw [← hleader.log]
    refine ⟨hrep.contiguous, m, hrep.derived h.limit h.snapshot_le_commit ?_⟩
    rw [h.wellFormed.base] at hm
    exact hm
  · exact hleader.leads.isSome
  · have hlead : (s.write n.state.currentTerm n.id entry).lead n.state.currentTerm =
        s.log n.id ++ [entry] := h.wroteBy_lead hrole
    rw [hlead]
    simp

/-- A leader writes an entry. -/
lemma push (hid : n'.id = n.id) (hlimits : n'.limits = n.limits) (hwell : n'.WellFormed boot)
    (hstate : n'.state = { n.state with log := n.state.log ++ [entry] })
    (hrole' : n'.role = .leader)
    (hmatch : ∀ peer m, n'.matchIndex peer = some m → m = 0 ∨ n.matchIndex peer = some m ∨
      peer = n.id ∧ m ≤ (s.log n.id).length + 1) :
    Local boot certain (wroteBy s n entry) n' := by
  have hleader := h.leadership hrole
  obtain ⟨hinv, hby⟩ := (h.write_steps hrole hterm hindex hmember).spec h.inv
  have hlog : (wroteBy s n entry).log n.id = s.log n.id ++ [entry] := h.wroteBy_log hrole
  have hown : Acked (wroteBy s n entry) n.id n.state.currentTerm ((s.log n.id).length + 1) :=
    adopt_acked _ _ _ _
  refine ⟨hinv, ?_, hwell, hlimits ▸ h.limit, fun hrole'' => ?_, fun _ => ?_⟩
  · rw [hid, hstate]
    refine
      { h.durable with
        represents := ?_
        knows := h.durable.knows.grow hby.grows
        knowsLog := fun hc => ?_ }
    · rw [hlog]
      exact h.durable.represents.append entry hindex
    · rw [hlog]
      exact ((h.durable.knowsLog hc).grow h.inv hby.grows).of_agree
        ((Agree.of_extends (List.prefix_append _ _)).mono h.commit_le)
  · rw [hrole'] at hrole''
    cases hrole''
  · have hcur : n'.state.currentTerm = n.state.currentTerm := by rw [hstate]
    have hcommit : n'.state.commitIndex = n.state.commitIndex := by rw [hstate]
    refine ⟨?_, ?_, fun k hk => ?_, ?_, fun peer m hm => ?_⟩
    · rw [hid, hcur]
      exact hleader.leads.grow hby.grows
    · rw [hid, hcur, hlog, h.wroteBy_lead hrole]
    · rw [hcur] at hk
      rw [hcommit]
      exact hleader.committed k hk
    · rw [hid, hcur, hlog, List.length_append]
      exact hown
    · rw [hcur]
      rcases hmatch peer m hm with h0 | hold | ⟨rfl, hle⟩
      · exact .inl h0
      · exact (hleader.matched peer m hold).imp_right fun ha => ha.grow hby.grows
      · exact .inr fun k hk => hown k (hk.trans hle)

end Push

/-- The match indexes of a leader after a change of its membership. -/
lemma retrackMatch_eq_some {id : NodeId} {voters : List NodeId} {last : ℕ} {next found : Progress}
    {peer : NodeId} {m : ℕ} (h : retrackMatch id voters last next found peer = some m) :
    m = 0 ∨ found peer = some m ∨ peer = id ∧ m = last := by
  unfold retrackMatch at h
  split at h
  · split at h
    · rw [Option.some.injEq] at h
      cases hfound : found peer with
      | none =>
        rw [hfound, Option.getD_none] at h
        split at h
        · exact .inr (.inr ⟨‹_›, h.symm⟩)
        · exact .inl h.symm
      | some x =>
        rw [hfound, Option.getD_some] at h
        exact .inr (.inl (congrArg some h))
    · exact .inr (.inl h)
  · split at h
    · exact .inr (.inl h)
    · cases h

lemma installMembership_matchIndex {n : RaftNode} (membership : DerivedMembership)
    (hrole : n.role = .leader) : (n.installMembership membership).matchIndex =
      retrackMatch n.id membership.activeVoters n.state.lastIndex n.nextIndex n.matchIndex := by
  rw [installMembership, if_neg (by simpa using hrole)]

/-! ### Committing -/

/-- The history after `advance_commit`. -/
def advancedBy (s : History) (term : ℕ) : Option ℕ → History
  | none => s
  | some commit => s.commit term commit

section Advance

variable (h : Local boot certain s n) (hrole : n.role = .leader)
include h hrole

/-- The commit rule: an entry of the current term that a quorum has acknowledged. -/
lemma isCommit {commit : ℕ}
    (hcandidate : commitCandidate n.state n.joint n.committedVoters n.matchIndex = some commit) :
    Consensus.IsCommit (group boot) s n.state.currentTerm commit (s.log n.id).length
      n.state.commitIndex {w | replicated n.matchIndex commit w = true} := by
  have hleader := h.leadership hrole
  obtain ⟨hlow, hhigh, hterm, hquorum⟩ := commitCandidate_bounds hcandidate
  rw [h.length_eq] at hhigh
  have htake : (s.lead n.state.currentTerm).take (s.log n.id).length = s.log n.id := by
    rw [← hleader.log, List.take_length]
  refine
    { elected := hleader.leads.isSome
      le := hhigh
      within := hleader.log ▸ le_rfl
      pos := by omega
      current := ?_
      valid := htake.symm ▸ h.valid
      quorum := htake.symm ▸ h.quorum hquorum
      acks := fun w hw => ?_
      before := ?_ }
  · have hat := h.durable.represents.termAt_eq_some hterm
    rw [termOf_of_ne_zero (by omega), Option.map_eq_some_iff, hleader.log] at hat
    exact hat
  · change replicated n.matchIndex commit w = true at hw
    unfold replicated at hw
    split at hw
    · rename_i found hfound
      rw [decide_eq_true_eq] at hw
      rcases hleader.matched w found hfound with h0 | hacked
      · omega
      · exact hacked commit hw
    · cases hw
  · rcases h.inv.knows_agree hleader.leads.isSome h.durable.knows with
      h0 | ⟨t, k, hcommit, ht, hk, hagree⟩
    · exact .inl h0
    · refine .inr ⟨t, k, hcommit, ?_, hk, hagree⟩
      rcases ht.eq_or_lt with rfl | hlt
      · have := hleader.committed k hcommit
        exact .inr ⟨rfl, by omega⟩
      · exact .inl hlt

variable {commit : Option ℕ}

lemma advance_steps (ha : Advanced n n' commit) :
    Steps (group boot) n.id s (advancedBy s n.state.currentTerm commit) := by
  cases ha with
  | none => exact .refl _ _
  | some commit membership candidate =>
    obtain ⟨b, hb, hwin⟩ := (h.leadership hrole).leads
    exact (Steps.refl _ _).tail (.commit _ _ _ _ _ b hb hwin (h.isCommit hrole candidate))

/-- A leader advances its commit index. -/
lemma advance (ha : Advanced n n' commit) :
    Local boot certain (advancedBy s n.state.currentTerm commit) n' ∧ n'.role = .leader ∧
      n'.id = n.id := by
  have hsteps := h.advance_steps hrole ha
  cases ha with
  | none => exact ⟨h, hrole, rfl⟩
  | some commit membership candidate derived =>
    obtain ⟨hlow, hhigh, -, -⟩ := commitCandidate_bounds candidate
    rw [h.length_eq] at hhigh
    obtain ⟨hinv, hby⟩ := hsteps.spec h.inv
    have hleader := h.leadership hrole
    have hid : (n.commitTo commit membership).id = n.id := installMembership_id _ _
    have hstate : (n.commitTo commit membership).state =
        { n.state with commitIndex := commit } := commitTo_state _ _ _
    have hrole' : (n.commitTo commit membership).role = .leader :=
      (installMembership_role _ _).trans hrole
    have hlimits : (n.commitTo commit membership).limits = n.limits :=
      congrArg Prod.snd (identity_installMembership
        { n with state := { n.state with commitIndex := commit } } membership)
    have hknows : Knows (s.commit n.state.currentTerm commit) n.state.currentTerm commit :=
      .inr ⟨n.state.currentTerm, commit, .inr ⟨rfl, rfl⟩, le_rfl, le_rfl⟩
    refine ⟨⟨hinv, ?_, h.wellFormed.advanced (.some commit membership candidate derived),
      hlimits ▸ h.limit, fun hrole'' => ?_, fun _ => ?_⟩, hrole', hid⟩
    · rw [hid, hstate]
      refine
        { h.durable with
          represents := h.durable.represents.congr rfl rfl
          knows := hknows
          knowsLog := fun _ => ?_ }
      have hlog := KnowsLog.of_knows hinv (u := n.state.currentTerm) hleader.leads.isSome hknows
      change KnowsLog _ _ commit (s.lead n.state.currentTerm) at hlog
      rw [← hleader.log] at hlog
      exact hlog
    · rw [hrole'] at hrole''
      cases hrole''
    · refine ⟨?_, ?_, fun k hk => ?_, ?_, fun peer m hm => ?_⟩
      · rw [hid, hstate]
        exact hleader.leads
      · rw [hid, hstate]
        exact hleader.log
      · rw [hstate] at hk ⊢
        rcases hk with hold | ⟨-, rfl⟩
        · exact (hleader.committed k hold).trans hlow.le
        · exact le_rfl
      · rw [hid, hstate]
        exact hleader.own
      · rw [hstate]
        rw [commitTo, installMembership_matchIndex _ (by exact hrole)] at hm
        rcases retrackMatch_eq_some hm with h0 | hold | ⟨rfl, rfl⟩
        · exact .inl h0
        · exact hleader.matched peer m hold
        · refine .inr ?_
          change Acked s n.id n.state.currentTerm n.state.lastIndex
          rw [h.length_eq]
          exact hleader.own

end Advance

/-- A leader that is no longer a voter follows. -/
lemma stepDown (h : Local boot certain s n) : Local boot certain s n.stepDownIfRemoved := by
  unfold stepDownIfRemoved
  split
  · have := h.follow le_rfl none
    rwa [h.tick_self] at this
  · exact h

/-! ### The appends of a leader -/

end Local

/-- The entry that `pushEntry` appends. -/
def RaftNode.pushedEntry (n : RaftNode) (type : UInt8) (payload : List UInt8) : LogEntry :=
  ⟨n.state.lastIndex + 1, n.state.currentTerm, type, payload⟩

lemma pushEntry_lastIndex (n : RaftNode) (type : UInt8) (payload : List UInt8) :
    (n.pushEntry type payload).state.lastIndex = n.state.lastIndex + 1 := by
  rw [PersistentState.lastIndex]
  simp [pushEntry]

namespace Local

variable {boot : List NodeId} {certain : Prop} {s : History} {n n' : RaftNode}

section Appends

variable (h : Local boot certain s n) (hrole : n.role = .leader) {type : UInt8}
  {payload : List UInt8}
include h hrole

omit hrole in
lemma pushedEntry_index :
    (n.pushedEntry type payload).index = (s.log n.id).length + 1 := by
  rw [← h.length_eq]
  rfl

omit h hrole in
lemma selfTracked_match {n : RaftNode} {peer : NodeId} {m : ℕ}
    (hm : n.selfTracked.matchIndex peer = some m) :
    n.matchIndex peer = some m ∨ peer = n.id ∧ m = n.state.lastIndex := by
  simp only [RaftNode.selfTracked] at hm
  by_cases hpeer : peer = n.id
  · subst hpeer
    rw [Function.update_self, Option.some.injEq] at hm
    exact .inr ⟨rfl, hm.symm⟩
  · rw [Function.update_of_ne hpeer] at hm
    exact .inl hm

/-- A leader appends a proposal or a no-op. -/
lemma pushPlain (hwell : (n.pushEntry type payload).selfTracked.WellFormed boot)
    (plain : isMembershipEntryType type = false) :
    Steps (group boot) n.id s (wroteBy s n (n.pushedEntry type payload)) ∧
      Local boot certain (wroteBy s n (n.pushedEntry type payload))
        (n.pushEntry type payload).selfTracked := by
  have hmember : IsMember (n.pushedEntry type payload) → ∃ m, deriveMembership n.baseVoters
      (n.state.log ++ [n.pushedEntry type payload]) n.state.commitIndex
      n.limits.maximumVoters = .ok m := fun hentry =>
    absurd (plain.symm.trans hentry) (by decide)
  refine ⟨h.write_steps hrole rfl h.pushedEntry_index hmember,
    h.push hrole rfl h.pushedEntry_index hmember rfl rfl hwell rfl hrole fun peer m hm => ?_⟩
  rcases selfTracked_match hm with hold | ⟨rfl, rfl⟩
  · exact .inr (.inl hold)
  · refine .inr (.inr ⟨rfl, ?_⟩)
    rw [pushEntry_lastIndex, h.length_eq]

/-- A leader appends a membership command. -/
lemma pushMembership {membership : DerivedMembership}
    (hwell : ((n.pushEntry type payload).installMembership membership).selfTracked.WellFormed boot)
    (derived : deriveMembership n.baseVoters (n.pushEntry type payload).state.log
      n.state.commitIndex n.limits.maximumVoters = .ok membership) :
    Steps (group boot) n.id s (wroteBy s n (n.pushedEntry type payload)) ∧
      Local boot certain (wroteBy s n (n.pushedEntry type payload))
        ((n.pushEntry type payload).installMembership membership).selfTracked := by
  have hid := installMembership_id (n.pushEntry type payload) membership
  have hstate := installMembership_state (n.pushEntry type payload) membership
  have hlimits : ((n.pushEntry type payload).installMembership membership).limits = n.limits :=
    congrArg Prod.snd (identity_installMembership (n.pushEntry type payload) membership)
  have hmatch := @installMembership_matchIndex (n.pushEntry type payload) membership hrole
  refine ⟨h.write_steps hrole rfl h.pushedEntry_index fun _ => ⟨_, derived⟩,
    h.push hrole rfl h.pushedEntry_index (fun _ => ⟨_, derived⟩) hid hlimits hwell hstate
      ((installMembership_role _ _).trans hrole) fun peer m hm => ?_⟩
  rcases selfTracked_match hm with hold | ⟨hpeer, hm'⟩
  · rw [hmatch] at hold
    rcases retrackMatch_eq_some hold with h0 | hold | ⟨rfl, rfl⟩
    · exact .inl h0
    · exact .inr (.inl hold)
    · refine .inr (.inr ⟨rfl, ?_⟩)
      rw [pushEntry_lastIndex, h.length_eq]
  · refine .inr (.inr ⟨hpeer.trans hid, ?_⟩)
    rw [hm', hstate, pushEntry_lastIndex, h.length_eq]

end Appends

end Local

end Chronos.Raft
