import Chronos.Consensus.Probe
import Chronos.Raft.FixedVoters

/-!
What the leaders of a group with fixed voters know of their followers.

The commit rule of append requests is safe as long as a leader never sends
entries, or a commit index, from below the point where the receiver's log leaves
its own.  With fixed voters this holds: a leader starts behind its last entry, and
its back-off never passes that point.

* `ProbeOk`, `LeaderOk`: the invariant for messages and for leaders.
* `conflictStart_spec`, `reaches_conflictNext`: the back-off.
* `WithinReach`: the invariant of a group; `WithinReach.event`.
* `WithinReach.justified`: hence every new commit is justified.
-/

namespace Chronos.Raft

open List RaftNode Function Option

open Consensus (Agree At Knows KnowsLog Steps Diverges Reaches Rejected reaches_lead)

/-- A message keeps within the reach of the leader. -/
def ProbeOk (boot : List NodeId) (s : History) (packet : Packet) : Prop :=
  match packet.message with
  | .appendEntriesRequest request =>
      Reaches s packet.destination request.term request.previousLogIndex ∧
        (request.entries = [] → request.leaderCommit ≤ request.previousLogIndex)
  | .appendEntriesResponse response =>
      (response.success = true → Reaches s packet.source response.term response.matchIndex) ∧
        (response.success = false → Rejected (group boot) s packet.source response.term
          response.conflictTerm response.conflictIndex)
  | .installSnapshotRequest request =>
      Reaches s packet.destination request.term request.snapshot.lastIncludedIndex
  | .installSnapshotResponse response =>
      response.success = true → Reaches s packet.source response.term response.lastIncludedIndex
  | _ => True

/-- The next index of a leader, or its snapshot, keeps within its reach. -/
def LeaderOk (s : History) (n : RaftNode) : Prop :=
  n.role = .leader → ∀ peer next, n.nextIndex peer = some next →
    Reaches s peer n.state.currentTerm (max (next - 1) n.state.snapshot.lastIncludedIndex)

/-- The invariant of a group with fixed voters. -/
structure WithinReach (boot : List NodeId) (c : Cluster) (s : History) : Prop where
  fixed : FixedVoters boot c
  leader : ∀ v n, c.node v = some n → LeaderOk s n
  packet : ∀ packet ∈ c.sent, ProbeOk boot s packet

/-! ### The back-off -/

section BackOff

/-- The conflict walk stays within the entries of the conflicting term. -/
lemma conflictStart_spec {state : PersistentState} {term : ℕ} :
    ∀ {index : ℕ}, index ≠ 0 → state.termAt index = some term →
      0 < conflictStart state term index ∧ conflictStart state term index ≤ index ∧
        ∀ i, conflictStart state term index ≤ i → i ≤ index → state.termAt i = some term
  | 0, h, _ => absurd rfl h
  | index + 1, _, hterm => by
      unfold conflictStart
      split
      · rename_i hstep
        obtain ⟨hpos, hle, hrun⟩ := conflictStart_spec (by omega) hstep.2
        refine ⟨hpos, by omega, fun i hlow hhigh => ?_⟩
        rcases hhigh.eq_or_lt with rfl | _
        · exact hterm
        · exact hrun i hlow (by omega)
      · refine ⟨by omega, le_rfl, fun i hlow hhigh => ?_⟩
        obtain rfl : i = index + 1 := by omega
        exact hterm

/-- The last entry with a property. -/
lemma find_reverse_eq_some {log : List LogEntry} {p : LogEntry → Bool} {entry : LogEntry}
    (h : log.reverse.find? p = some entry) :
    p entry = true ∧ ∃ j, log[j]? = some entry ∧
      ∀ (i : ℕ) (e : LogEntry), j < i → log[i]? = some e → p e = false := by
  obtain ⟨hp, first, last, heq, hfirst⟩ := find?_eq_some_iff_append.mp h
  have hlog : log = last.reverse ++ entry :: first.reverse := by
    rw [← reverse_reverse log, heq]
    simp
  refine ⟨hp, last.length, by simp [hlog], fun i e hi he => ?_⟩
  rw [hlog, getElem?_append_right (by simp; omega)] at he
  obtain ⟨j, _⟩ := Nat.exists_eq_add_of_lt hi
  have hindex : i - last.reverse.length = j + 1 := by simp; omega
  rw [hindex, getElem?_cons_succ] at he
  have hmem : e ∈ first := mem_reverse.mp (mem_of_getElem? he)
  simpa using hfirst e hmem

variable {boot : List NodeId} {certain : Prop} {s : History} {n : RaftNode}

/-- **A leader that backs off by a rejection stays in reach.** -/
lemma Local.reaches_conflictNext (h : Local boot certain s n) (hrole : n.role = .leader)
    {source : NodeId} {response : AppendEntriesResponse}
    (hterm : response.term = n.state.currentTerm)
    (hrejected : Rejected (group boot) s source response.term response.conflictTerm
      response.conflictIndex) :
    Reaches s source n.state.currentTerm
      (max (conflictNext n.state response - 1) n.state.snapshot.lastIncludedIndex) := by
  have hleader := h.leadership hrole
  have hrep := h.durable.represents
  rw [hleader.log] at hrep
  rw [hterm] at hrejected
  have hlast := hrep.lastIndex
  refine ⟨fun hlt => absurd hrejected.le (by omega), fun hcur k hk => ?_⟩
  have hk_le := hk.1.left_le
  rcases hrejected.reason hcur with ⟨-, hprefix⟩ | ⟨hnone, hindex⟩ |
    ⟨u, q, hsome, helect, hpos, hcq, hrun, hdiverge⟩
  · exact absurd ((Agree.of_extends hprefix).symm.mono hk.2.2) hk.2.1
  · have hk_lt := hk.2.2
    simp only [conflictNext, hnone, hindex]
    rw [if_neg (Nat.succ_ne_zero _)]
    omega
  · have hkq := hdiverge k hk
    cases hfind : n.state.log.reverse.find? (·.term = u) with
    | some entry =>
      -- the leader has entries of the reported term: it goes behind the last of them
      obtain ⟨hu, j, hj, hafter⟩ := find_reverse_eq_some hfind
      have hentry : entry.index = n.state.snapshot.lastIncludedIndex + j + 1 :=
        hrep.logContiguous j entry hj
      have hfull : ∀ i, n.state.log[i]? =
          (s.lead n.state.currentTerm)[n.state.snapshot.lastIncludedIndex + i]? := by
        intro i
        rw [hrep.log, getElem?_drop]
      have hle := Consensus.diverges_le_last hk hkq hrun h.inv helect hcq
        (j := n.state.snapshot.lastIncludedIndex + j)
        ⟨entry, by rw [← hfull]; exact hj, of_decide_eq_true hu⟩
        (by
          rintro i _ ⟨e, he, heu⟩
          have hat := hfull (i - n.state.snapshot.lastIncludedIndex)
          rw [show n.state.snapshot.lastIncludedIndex +
            (i - n.state.snapshot.lastIncludedIndex) = i by omega, he] at hat
          have := hafter _ e (by omega) hat
          simp only [decide_eq_false_iff_not] at this
          exact this heu)
      have hlen := (List.getElem?_eq_some_iff.mp hj).1
      have := hrep.length_eq
      simp only [conflictNext, hsome, hfind, hentry]
      omega
    | none =>
      simp only [conflictNext, hsome, hfind]
      rw [if_neg (by omega)]
      rcases Nat.lt_or_ge k response.conflictIndex with _ | hge
      · omega
      · -- the entries of that term are compacted, so the snapshot is sent
        obtain ⟨e, he, heu⟩ := Consensus.at_of_le_diverges hk hkq hrun hpos hge
        have hsnap : k - 1 < n.state.snapshot.lastIncludedIndex := by
          by_contra hge'
          have hmem : e ∈ n.state.log := by
            refine mem_of_getElem? (i := k - 1 - n.state.snapshot.lastIncludedIndex) ?_
            rw [hrep.log, getElem?_drop, ← he]
            congr 1
            omega
          have := find?_eq_none.mp hfind e (mem_reverse.mpr hmem)
          simp only [decide_eq_true_eq] at this
          exact this heu
        omega

end BackOff

/-! ### What leaders send -/

section Send

variable {boot : List NodeId} {s s' : History} {n : RaftNode} {v : NodeId}

section

variable (h : LeaderOk s n) (hwell : n.WellFormed boot) (hbatch : n.limits.maximumAppendEntries ≠ 0)
  (hrole : n.role = .leader)
include h hwell hbatch hrole

/-- What a leader in reach sends to a tracked peer is in reach. -/
lemma LeaderOk.replication {peer : NodeId} (hpeer : n.nextIndex peer ≠ none) :
    ProbeOk boot s ⟨v, peer, n.replicationForPeer peer⟩ := by
  obtain ⟨next, hnext⟩ := ne_none_iff_exists'.mp hpeer
  have hreach := h hrole peer next hnext
  have hlast := PersistentState.lastIndex_eq hwell.state.contiguous
  have hcommit := hwell.state.commit_le_last
  unfold replicationForPeer
  rcases Nat.lt_or_ge n.state.snapshot.lastIncludedIndex next with hlt | hge
  · rw [replicationFor_append hwell.state.contiguous hnext hlt]
    rw [max_eq_left (by omega)] at hreach
    refine ⟨hreach, fun hnil => ?_⟩
    have hempty := take_eq_nil_iff.mp hnil
    rcases hempty with h0 | hdrop
    · exact absurd h0 hbatch
    · have := drop_eq_nil_iff.mp hdrop
      dsimp only
      omega
  · rw [replicationFor_snapshot hnext hge]
    rw [max_eq_right (by omega)] at hreach
    exact hreach

lemma LeaderOk.appendToAll :
    ∀ out ∈ n.appendToAll, ProbeOk boot s ⟨v, out.destination, out.message⟩ := by
  intro _ hout
  obtain ⟨peer, hpeer, rfl⟩ := mem_map.mp hout
  refine h.replication hwell hbatch hrole ?_
  have := ((hwell.tracked hrole).next_iff peer).mpr (mem_of_mem_filter hpeer)
  exact isSome_iff_ne_none.mp this

end

/-- The tracked positions of a leader that did not move back stay in reach. -/
lemma LeaderOk.of_next {n' : RaftNode} (h : LeaderOk s n) (hinv : HistoryInv boot s)
    (hrole : n'.role = .leader → n.role = .leader)
    (hterm : n'.state.currentTerm = n.state.currentTerm)
    (hsnapshot : n.state.snapshot.lastIncludedIndex ≤ n'.state.snapshot.lastIncludedIndex)
    (hnext : n'.role = .leader → ∀ peer next, n'.nextIndex peer = some next → n.nextIndex peer =
      some next ∨ (s.lead n.state.currentTerm).length ≤ next - 1) : LeaderOk s n' := by
  intro hleader peer next hpeer
  rw [hterm]
  rcases hnext hleader peer next hpeer with hold | hend
  · exact (h (hrole hleader) peer next hold).mono (max_le_max le_rfl hsnapshot)
  · exact (reaches_lead hinv peer _).mono (hend.trans (le_max_left _ _))

end Send

/-! ### What a call does to a leader -/

section Leader

variable {boot : List NodeId} {s s' : History} {v : NodeId} {n n' : RaftNode} {call : Call}
  {transition : Transition}

/-- A new leader starts behind its last entry. -/
lemma Local.leaderOk_fresh (h : Local boot True s n)
    (hnext : n.nextIndex = initialNext n.voters n.state.lastIndex) : LeaderOk s n := by
  intro hrole peer _ hpeer
  rw [hnext, initialNext] at hpeer
  split at hpeer
  · rw [some.injEq] at hpeer
    subst hpeer
    refine (reaches_lead h.inv peer _).mono ?_
    rw [← (h.leadership hrole).log, ← h.length_eq]
    exact le_max_left _ _
  · cases hpeer

/-- A confirmed peer is probed behind what it confirmed. -/
lemma LeaderOk.progress (h : LeaderOk s n) {peer : NodeId} {found m : ℕ}
    (hreach : Reaches s peer n.state.currentTerm m) :
    LeaderOk s (n.progress peer (max found m)) := by
  intro hrole p next hp
  by_cases hpeer : p = peer
  · subst hpeer
    simp only [RaftNode.progress, update_self, some.injEq] at hp
    subst hp
    exact hreach.mono (by simp only [Nat.add_sub_cancel]; omega)
  · simp only [RaftNode.progress, update_of_ne hpeer] at hp
    exact h hrole p next hp

variable {commit : ℕ} {membership : DerivedMembership}

/-- With fixed voters a commit does not change what a leader tracks. -/
lemma commitTo_nextIndex (hwell : n.WellFormed boot) (hplain : PlainState boot n.state)
    (hrole : n.role = .leader)
    (derived : deriveMembership n.baseVoters n.state.log commit n.limits.maximumVoters =
      .ok membership) : (n.commitTo commit membership).nextIndex = n.nextIndex := by
  have hbase := hplain.derived hwell.base (fun _ he => he) derived
  have hvoters : n.voters = boot.insertionSort (· ≤ ·) :=
    congrArg DerivedMembership.activeVoters (hplain.membership hwell)
  have hactive : membership.activeVoters = n.voters := by rw [hbase, hvoters]; rfl
  rw [commitTo, installMembership, if_neg (by simpa using hrole)]
  funext peer
  simp only [retrackNext, hactive]
  have htracked := (hwell.tracked hrole).next_iff peer
  split
  · rename_i hpeer
    obtain ⟨next, hnext⟩ := isSome_iff_exists.mp (htracked.mpr hpeer)
    rw [hnext, getD_some]
  · rename_i hpeer
    cases hnext : n.nextIndex peer with
    | none => rfl
    | some next => exact absurd (htracked.mp (by rw [hnext]; rfl)) hpeer

lemma LeaderOk.stepDown (h : LeaderOk s n) : LeaderOk s n.stepDownIfRemoved := by
  unfold stepDownIfRemoved
  split
  · intro hrole
    cases hrole
  · exact h

/-- The tracking of a leader after it has appended a plain entry. -/
lemma Advanced.nextIndex_eq (hwell : n.WellFormed boot) (hplain : PlainState boot n.state)
    (hrole : n.role = .leader) {commit : Option ℕ} (h : Advanced n n' commit) :
    n'.nextIndex = n.nextIndex := by
  cases h with
  | none => rfl
  | some _ _ _ derived =>
    exact commitTo_nextIndex hwell hplain hrole derived

lemma LeaderOk.advanced (h : LeaderOk s n) (hwell : n.WellFormed boot)
    (hplain : PlainState boot n.state) (hrole : n.role = .leader) {commit : Option ℕ}
    (ha : Advanced n n' commit) : LeaderOk s n' := by
  intro _ peer next hnext
  rw [ha.nextIndex_eq hwell hplain hrole] at hnext
  rw [ha.state_eq]
  exact h hrole peer next hnext

/-- The facts about a call that the invariant is derived from: the node before and after it in
their histories, and that the messages it may have received are in reach. -/
structure Reach (boot : List NodeId) (s s' : History) (n : RaftNode) (call : Call)
    (n' : RaftNode) : Prop where
  before : Local boot True s n
  after : Local boot True s' n'
  steps : ∃ v, Steps (group boot) v s s'
  batch : n.limits.maximumAppendEntries ≠ 0
  plain : PlainState boot n.state
  keeps : call.keepsVoters = true
  leader : LeaderOk s n
  received : ∀ source message, call = .receive source message →
    PacketOk boot True s ⟨source, n.id, message⟩ ∧ ProbeOk boot s ⟨source, n.id, message⟩
  pending : ∀ request, n.pendingSnapshot = some request → ∃ source,
    PacketOk boot True s ⟨source, n.id, .installSnapshotRequest request⟩ ∧
      ProbeOk boot s ⟨source, n.id, .installSnapshotRequest request⟩

namespace Reach

lemma reaches (h : Reach boot s s' n call n') {t i : ℕ} {w : NodeId}
    (helect : (s.elect t).isSome) (hr : Reaches s w t i) : Reaches s' w t i := by
  obtain ⟨_, hsteps⟩ := h.steps
  exact hr.steps h.before.inv hsteps helect

/-- The leader before the call, in the history after it. -/
lemma leader' (h : Reach boot s s' n call n') : LeaderOk s' n := fun hrole peer next hnext =>
  h.reaches (h.before.leadership hrole).leads.isSome (h.leader hrole peer next hnext)

variable {found : ℕ}

/-- A confirmation that is in reach. -/
lemma confirmed (h : Reach boot s s' n call n') {peer : NodeId} {m : ℕ} (hrole : n.role = .leader)
    (hr : Reaches s peer n.state.currentTerm m) :
    LeaderOk s' (n.progress peer (max found m)) :=
  h.leader'.progress (h.reaches (h.before.leadership hrole).leads.isSome hr)

variable {source : NodeId}

section

variable (h : Reach boot s s' n call n')
include h

/-- The leader that a confirmation lets commit, before it may step down. -/
lemma committed {response : AppendEntriesResponse} {validated : Option ValidatedAppend}
    {commit : Option ℕ} {next : RaftNode}
    (received : Received n source (.appendEntriesResponse response) validated)
    (answered : Answered n source response.term) (success : response.success = true)
    (tracked : n.matchIndex source = some found)
    (hr : Reaches s source n.state.currentTerm response.matchIndex)
    (advanced : Advanced (n.progress source (max found response.matchIndex)) next commit) :
    LeaderOk s' next ∧ next.WellFormed boot := by
  have hwell := h.before.wellFormed.confirmed answered tracked (received.appendResponse success)
  exact ⟨(h.confirmed answered.leader hr).advanced hwell h.plain answered.leader advanced,
    hwell.advanced advanced⟩

/-- **A call keeps the leader in reach.** -/
lemma leaderOk (heff : Effect n call n' transition) :
    LeaderOk s' n' := by
  have hwell := h.before.wellFormed
  have hfollower : ∀ {m : RaftNode}, m.role = .follower → LeaderOk s' m := by
    intro _ hm hrole
    rw [hm] at hrole
    cases hrole
  cases heff with
  | campaigned => exact fun hrole => by cases hrole
  | campaignWon | voteWon => exact h.after.leaderOk_fresh rfl
  | @appendedLocal _ type payload _ _ _ entry room tracked trackedNext advanced =>
    have hpush := hwell.pushEntry entry room
    have hself := hpush.selfTracked room.leader tracked trackedNext
    have hnext := advanced.nextIndex_eq hself (h.plain.pushEntry entry.plain) room.leader
    have hstate := advanced.state_eq
    refine h.leader'.of_next h.after.inv (fun _ => room.leader) (by rw [hstate]; rfl)
      (by rw [hstate]; exact le_rfl) fun hrole peer x hx => ?_
    rw [hnext] at hx
    simp only [selfTracked] at hx
    by_cases hpeer : peer = (n.pushEntry type payload).id
    · subst hpeer
      rw [update_self, some.injEq] at hx
      have hlog := (h.after.leadership hrole).log
      have hlen := h.after.length_eq
      have hcur : n'.state.currentTerm = n.state.currentTerm := by rw [hstate]; rfl
      have hlast : n'.state.lastIndex = (n.pushEntry type payload).state.lastIndex := by
        rw [hstate]
        rfl
      rw [hlog, hcur] at hlen
      exact .inr (by omega)
    · rw [update_of_ne hpeer] at hx
      exact .inl hx
  | appendedMembership change =>
    rcases change with rfl | ⟨_, rfl⟩
    · cases h.keeps
    · cases h.keeps
  | installCompleted _ installs =>
    exact hfollower ((hwell.pending _ installs.isPending).follows installs.term)
  | compacted _ _ metadata =>
    obtain ⟨_, hc⟩ := prepareSnapshotMetadata_eq_ok metadata
    exact h.leader'.of_next h.after.inv id rfl hc.newer.le fun _ peer x hx => .inl hx
  | observed source message =>
    by_cases hterm : message.term > n.state.currentTerm
    · rw [observe_of_newer hterm]
      exact hfollower rfl
    · rw [observe_of_not_newer hterm]
      exact h.leader'
  | granted | appendRejected | appendAccepted | installCovered | installCompeting
  | installPending | barrierAcknowledged => exact hfollower rfl
  | voteCounted _ _ _ counts =>
    intro hrole
    exact absurd (counts.candidate.symm.trans hrole) (by decide)
  | appendConfirmed source _ received answered success =>
    exact h.confirmed answered.leader (answered.term ▸ (h.received source _ rfl).2.1 success)
  | appendCommitted source _ received answered success tracked advanced =>
    exact (h.committed received answered success tracked
      (answered.term ▸ (h.received source _ rfl).2.1 success) advanced).1.stepDown
  | appendBackedOff source _ received answered failure =>
    have hback := h.reaches (h.before.leadership answered.leader).leads.isSome
      (h.before.reaches_conflictNext answered.leader answered.term
        ((h.received source _ rfl).2.2 failure))
    intro _ peer x hx
    by_cases hpeer : peer = source
    · subst hpeer
      simp only [backOff, update_self, some.injEq] at hx
      subst hx
      exact hback
    · simp only [backOff, update_of_ne hpeer] at hx
      exact h.leader' answered.leader peer x hx
  | installConfirmed source _ received answered success =>
    exact h.confirmed answered.leader (answered.term ▸ (h.received source _ rfl).2 success)
  | _ => exact h.leader'

/-- The requests by which a new leader announces itself. -/
lemma announcement (hrole : n'.role = .leader) (peer : NodeId) :
    ProbeOk boot s' ⟨n.id, peer, .appendEntriesRequest
      ⟨n'.state.currentTerm, n.id, n'.state.lastIndex, n'.state.lastTerm, [],
        n'.state.commitIndex⟩⟩ := by
  refine ⟨(reaches_lead h.after.inv peer _).mono ?_, fun _ => ?_⟩
  · rw [← (h.after.leadership hrole).log, ← h.after.length_eq]
  · exact h.after.wellFormed.state.commit_le_last

/-- A rejection tells how the log of the node goes on. -/
lemma rejected {request : AppendEntriesRequest}
    (hcall : call = .receive source (.appendEntriesRequest request))
    (hn' : n' = n.becomeFollower request.term (some source))
    (hterm : n.state.currentTerm ≤ request.term)
    (hmismatch : n.state.appendPredecessorTerm request.previousLogIndex ≠
      some request.previousLogTerm) :
    Rejected (group boot) s' n.id request.term (rejection n.state request).conflictTerm
      (rejection n.state request).conflictIndex := by
  subst hn'
  obtain ⟨⟨hleads, hslice, -⟩, hreach, -⟩ := h.received source _ hcall
  obtain ⟨_, hsteps⟩ := h.steps
  have hby := (hsteps.spec h.before.inv).2
  have hcur : s'.term n.id = request.term :=
    h.after.term_eq.trans (becomeFollower_currentTerm hterm _)
  have hrep : Represents boot (s'.log n.id) n.state := by
    have := h.after.durable.represents
    rw [becomeFollower_state] at this
    split at this
    · exact this.congr rfl rfl
    · exact this
  refine ⟨hcur.ge, fun _ => ?_⟩
  unfold rejection
  cases hpred : n.state.appendPredecessorTerm request.previousLogIndex with
  | none => exact .inr (.inl ⟨rfl, by rw [← hrep.lastIndex]⟩)
  | some u =>
    rw [hpred, Ne, some.injEq] at hmismatch
    have hterm' := (PersistentState.appendPredecessorTerm_eq_some hpred).2
    have hfull := hrep.termAt_eq_some hterm'
    have hlead := (hslice.mono (hby.grows.lead hleads.isSome)).term
    have hne : request.previousLogIndex ≠ 0 := by
      intro h0
      rw [h0, termOf_zero, some.injEq] at hfull hlead
      exact hmismatch (hfull.symm.trans hlead)
    obtain ⟨hpos, hle, hrun⟩ := conflictStart_spec hne hterm'
    refine .inr (.inr ⟨u, request.previousLogIndex, rfl,
      hby.grows.elect_isSome hleads.isSome, hpos, hle, fun i hlow hhigh => ?_, fun k hk => ?_⟩)
    · have hat := hrep.termAt_eq_some (hrun (i + 1) hlow (by omega))
      rw [termOf_succ, map_eq_some_iff] at hat
      exact hat
    · refine lt_of_le_of_ne ((h.reaches hleads.isSome hreach).current hcur k hk) ?_
      rintro rfl
      rw [termOf_eq_of_agree hk.1 le_rfl, hfull, some.injEq] at hlead
      exact hmismatch hlead

/-- **What a call sends is in reach.** -/
lemma packets (heff : Effect n call n' transition) :
    ∀ out ∈ transition.outbound, ProbeOk boot s' ⟨n.id, out.destination, out.message⟩ := by
  have hleaderOk := h.leaderOk heff
  have hwell := h.before.wellFormed
  have hbatch' : n'.limits.maximumAppendEntries ≠ 0 := by
    rw [show n'.limits = n.limits from congrArg Prod.snd (effect_identity heff)]
    exact h.batch
  intro out hout
  cases heff with
  | campaigned | barrierOpened =>
    obtain ⟨peer, -, rfl⟩ := mem_map.mp hout
    trivial
  | campaignWon | voteWon =>
    obtain ⟨peer, -, rfl⟩ := mem_map.mp hout
    exact h.announcement rfl peer
  | appendedLocal _ _ room _ _ advanced =>
    exact hleaderOk.appendToAll h.after.wellFormed hbatch' (advanced.role_eq.trans room.leader) out
      hout
  | appendedMembership change =>
    rcases change with rfl | ⟨_, rfl⟩
    · cases h.keeps
    · cases h.keeps
  | installAborted =>
    obtain rfl := mem_singleton.mp hout
    exact fun hsuccess => by cases hsuccess
  | installCompleted _ installs =>
    obtain rfl := mem_singleton.mp hout
    obtain ⟨source, ⟨-, hleads, -, -⟩, hreach⟩ := h.pending _ installs.isPending
    rw [← installs.term]
    exact fun _ => h.reaches hleads.isSome hreach
  | heartbeat leader => exact h.leader'.appendToAll hwell h.batch leader out hout
  | observed _ message _ only =>
    cases message with
    | appendEntriesRequest request =>
      obtain rfl := mem_singleton.mp hout
      have hlt : request.term < n.state.currentTerm := only
      have hsame : n.observe request.term = n := observe_of_not_newer (by omega)
      have hafter := h.after
      rw [show Message.term (.appendEntriesRequest request) = request.term from rfl,
        hsame] at hafter
      refine ⟨fun hsuccess => (by cases hsuccess), fun _ => ⟨hafter.term_eq.ge, fun _ => ?_⟩⟩
      exact .inr (.inl ⟨rfl, by rw [← hafter.length_eq]⟩)
    | installSnapshotRequest request =>
      obtain rfl := mem_singleton.mp hout
      exact fun hsuccess => by cases hsuccess
    | requestVoteRequest request | readBarrierRequest request =>
      obtain rfl := mem_singleton.mp hout
      trivial
    | requestVoteResponse | appendEntriesResponse | installSnapshotResponse
    | readBarrierResponse => cases hout
  | granted | barrierAcknowledged =>
    obtain rfl := mem_singleton.mp hout
    trivial
  | appendRejected _ request _ term mismatch =>
    obtain rfl := mem_singleton.mp hout
    obtain ⟨hterm, hfails⟩ := rejection_term n.state request
    refine ⟨fun hsuccess => ?_, fun _ => ?_⟩
    · rw [hfails] at hsuccess
      cases hsuccess
    · rw [hterm]
      exact h.rejected rfl rfl term mismatch
  | appendAccepted source _ _ received =>
    obtain rfl := mem_singleton.mp hout
    obtain ⟨⟨hleads, hslice, -⟩, hreach, -⟩ := h.received source _ rfl
    refine ⟨fun _ => (h.reaches hleads.isSome hreach).mono ?_, fun hfails => by cases hfails⟩
    have := (h.before.accept_represents received.acceptable hleads.isSome hslice).1
    dsimp only
    omega
  | appendConfirmed _ _ _ answered =>
    dsimp only at hout
    split at hout
    · obtain rfl := mem_singleton.mp hout
      exact hleaderOk.replication h.after.wellFormed hbatch' answered.leader
        (by simp [RaftNode.progress])
    · cases hout
  | @appendCommitted source _ _ _ _ next received answered success tracked advanced =>
    obtain ⟨hok, hwell'⟩ := h.committed received answered success tracked
      (answered.term ▸ (h.received source _ rfl).2.1 success) advanced
    refine hok.appendToAll hwell' ?_ (advanced.role_eq.trans answered.leader) out hout
    rw [show next.limits = n.limits from congrArg Prod.snd (identity_advanced advanced)]
    exact h.batch
  | appendBackedOff _ _ _ answered =>
    obtain rfl := mem_singleton.mp hout
    exact hleaderOk.replication h.after.wellFormed hbatch' answered.leader (by simp [backOff])
  | installCovered source _ received _ covered =>
    obtain rfl := mem_singleton.mp hout
    obtain ⟨⟨-, hleads, -, -⟩, hreach⟩ := h.received source _ rfl
    exact fun _ => (h.reaches hleads.isSome hreach).mono covered
  | installCompeting _ _ _ _ _ answers =>
    dsimp only at hout
    rcases answers with rfl | rfl
    · cases hout
    · obtain rfl := mem_singleton.mp hout
      exact fun hsuccess => by cases hsuccess
  | installConfirmed _ _ _ answered =>
    obtain rfl := mem_singleton.mp hout
    exact hleaderOk.replication h.after.wellFormed hbatch' answered.leader
      (by simp [RaftNode.progress])
  | installFailed _ _ _ answered =>
    obtain rfl := mem_singleton.mp hout
    exact h.leader'.replication hwell h.batch answered.leader answered.trackedNext
  | _ => cases hout

end

end Reach

end Leader

/-! ### The invariant of a group -/

section Group

variable {boot : List NodeId} {c c' : Cluster} {s s' : History} {action : Action}

lemma withinReach_initial (boot : List NodeId) : WithinReach boot .initial .empty where
  fixed := fixedVoters_initial boot
  leader _ _ hn := by cases hn
  packet _ hp := by cases hp

variable {v : NodeId}

/-- A message in reach stays so. -/
lemma ProbeOk.steps {packet : Packet} (hinv : HistoryInv boot s)
    (hsteps : Steps (group boot) v s s') (hok : PacketOk boot True s packet)
    (h : ProbeOk boot s packet) : ProbeOk boot s' packet := by
  obtain ⟨_, _, message⟩ := packet
  cases message with
  | appendEntriesRequest request => exact ⟨h.1.steps hinv hsteps hok.1.isSome, h.2⟩
  | appendEntriesResponse response =>
    refine ⟨fun hsuccess => (h.1 hsuccess).steps hinv hsteps ?_,
      fun hfails => (h.2 hfails).steps hinv hsteps⟩
    exact (hinv.ack_elected (hok hsuccess 0 (Nat.zero_le _))).1
  | installSnapshotRequest request => exact Reaches.steps hinv hsteps hok.2.1.isSome h
  | installSnapshotResponse response =>
    intro hsuccess
    refine (h hsuccess).steps hinv hsteps ?_
    exact (hinv.ack_elected (hok hsuccess 0 (Nat.zero_le _))).1
  | _ => trivial

section

variable (h : WithinReach boot c s) (hr : Refines boot True c s)
include h hr

/-- A simulated call keeps the group in reach. -/
lemma WithinReach.called {call : Call} {n n' : RaftNode} {transition : Transition}
    (hr' : Refines boot True (c.called v n' transition) s') (hsteps : Steps (group boot) v s s')
    (hfixed : FixedVoters boot (c.called v n' transition)) (hnode : c.node v = some n)
    (hdeliver : call.deliverable c.sent v = true) (heff : Effect n call n' transition)
    (hkeeps : call.keepsVoters = true) : WithinReach boot (c.called v n' transition) s' := by
  have hok := hr.node v n hnode
  have hnode' : (c.called v n' transition).node v = some n' := update_self _ _ _
  obtain rfl := hok.id
  have hreach : Reach boot s s' n call n' :=
    { before := hr.toLocal hnode
      after := hr'.toLocal hnode'
      steps := ⟨_, hsteps⟩
      batch := hok.batch
      plain := h.fixed.plain hr hnode
      keeps := hkeeps
      leader := h.leader _ n hnode
      received := by
        rintro source message rfl
        have hsent : (⟨source, n.id, message⟩ : Packet) ∈ c.sent := by
          simpa [Call.deliverable] using hdeliver
        exact ⟨hr.packet _ hsent, h.packet _ hsent⟩
      pending := fun request hp =>
        ⟨_, hr.packet _ (hok.pending request hp), h.packet _ (hok.pending request hp)⟩ }
  refine ⟨hfixed, fun w m hm => ?_, fun packet hp => ?_⟩
  · by_cases hw : w = n.id
    · subst hw
      rw [hnode', some.injEq] at hm
      subst hm
      exact hreach.leaderOk heff
    · have hold : c.node w = some m := by
        simpa only [Cluster.called, update_of_ne hw] using hm
      intro hrole peer next hnext
      exact hreach.reaches ((hr.toLocal hold).leadership hrole).leads.isSome
        (h.leader w m hold hrole peer next hnext)
  · rcases mem_append.mp hp with hold | hnew
    · exact (h.packet packet hold).steps hr.inv hsteps (hr.packet packet hold)
    · obtain ⟨out, hout, rfl⟩ := mem_map.mp hnew
      exact hreach.packets heff out hout

/-- **New commits are justified**: with fixed voters a request that is accepted reports a commit
index only up to where the receiver agrees with the leader. -/
lemma WithinReach.justified :
    JustifiedAction True c s action := by
  rintro v _ n _ _ rfl hnode hdeliver -
  refine ⟨.inl trivial, ?_⟩
  rintro source request validated rfl hacc - -
  have hl := hr.toLocal hnode
  have hsent : (⟨source, v, .appendEntriesRequest request⟩ : Packet) ∈ c.sent := by
    simpa [Call.deliverable] using hdeliver
  have hpacket := hr.packet _ hsent
  obtain ⟨hreach, hempty⟩ := h.packet _ hsent
  obtain rfl := (hr.node v n hnode).id
  obtain ⟨hleads, hslice, -⟩ := id hpacket
  have haccepted := (hl.accept_represents hacc hleads.isSome hslice).1
  refine hl.accept_covered hacc hpacket fun hagree hlt hcommit => ?_
  -- the log stays as it is, and agrees with the leader's up to a greatest position
  obtain ⟨d, hd, hmax⟩ := Consensus.exists_agree_max (s.lead request.term) (s.log n.id)
  rcases hd.right_le.eq_or_lt with _ | hdiverge
  · exact hd.mono (by omega)
  · have hk : Diverges s n.id request.term d :=
      ⟨hd, fun hmore => by have := hmax _ hmore; omega, hdiverge⟩
    have hprev : d ≤ request.previousLogIndex := by
      rcases (hl.term_eq.trans_le hacc.term).eq_or_lt with hcur | hbehind
      · exact hreach.current hcur d hk
      · obtain ⟨b, hb, -⟩ := hleads
        refine (Consensus.agree_le_ballot hr.inv hb (fun entry he => ?_) hd).trans
          (hreach.behind hbehind b hb)
        exact (hr.inv.log_term n.id entry he).trans_lt hbehind
    have hle := hmax _ hagree
    have hnil : request.entries = [] := eq_nil_of_length_eq_zero (by omega)
    have := hempty hnil
    exact hd.mono (by omega)

/-- **Every event that keeps the voters keeps the group in reach**, and so the refinement. -/
lemma WithinReach.event (hevent : Event boot c action c') (hkeeps : action.keepsVoters = true) :
    ∃ s' v, Refines boot True c' s' ∧ WithinReach boot c' s' ∧ Steps (group boot) v s s' := by
  have hfixed := h.fixed.event hr hevent hkeeps
  cases hevent with
  | idle => exact ⟨s, 0, hr, h, .refl _ _⟩
  | started v _ n created =>
    refine ⟨s, 0, hr.started created, ⟨hfixed, fun w m hm => ?_, h.packet⟩, .refl _ _⟩
    by_cases hw : w = v
    · subst hw
      simp only [update_self, some.injEq] at hm
      subst hm
      have hrole : n.role = .follower := by rw [← (create_wellFormed created).2.2.1]; rfl
      intro hleader
      rw [hrole] at hleader
      cases hleader
    · simp only [update_of_ne hw] at hm
      exact h.leader w m hm
  | called v call n n' transition node deliverable performed =>
    have heff := perform_effect performed
    obtain ⟨s', hsim⟩ := effect_simulates hr node deliverable heff
      (h.justified hr v call n n' transition rfl node deliverable performed)
    have hr' := hr.called node deliverable heff hsim
    exact ⟨s', v, hr', h.called hr hr' hsim.steps hfixed node deliverable heff hkeeps, hsim.steps⟩

end

end Group

end Chronos.Raft
