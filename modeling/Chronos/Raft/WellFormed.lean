import Chronos.Raft.Derive
import Chronos.Raft.Inversion

/-!
The structural invariant of a node.

* `StateWellFormed`: what every persistent state satisfies that a node reaches.
* `Tracked`: the progress of a leader, one next and one match index for each
  active voter, within its log.
* `RaftNode.WellFormed`: the invariant of a whole node; the membership it keeps
  is the one derived from base voters, log and commit index.
* One lemma for each update of a node that a call performs.
-/

namespace Chronos.Raft

open List PersistentState RaftNode Function

/-! ### The persistent state -/

/-- The invariant of a persistent state. -/
structure StateWellFormed (limits : RaftLimits) (state : PersistentState) : Prop where
  contiguous : state.LogContiguous
  snapshot_le_applied : state.snapshot.lastIncludedIndex ≤ state.appliedIndex
  applied_le_commit : state.appliedIndex ≤ state.commitIndex
  commit_le_last : state.commitIndex ≤ state.lastIndex
  entries : ∀ entry ∈ state.log, EntryValid limits state.currentTerm entry
  capacity : state.log.length ≤ limits.maximumLogEntries
  fits : persistentStateFits state.snapshot.voters.length state.log limits = .ok ()
  vote_of_term_zero : state.currentTerm = 0 → state.votedFor = none
  vote_ne_zero : state.votedFor ≠ some 0
  snapshot_empty : state.snapshot.lastIncludedIndex = 0 → state.snapshot = {}
  snapshot_valid : state.snapshot.lastIncludedIndex ≠ 0 →
    validSnapshot state.snapshot limits.maximumVoters = true
  snapshot_term : state.snapshot.lastIncludedTerm ≤ state.currentTerm

namespace StateWellFormed

variable {limits : RaftLimits} {state : PersistentState}

lemma snapshot_le_last (h : StateWellFormed limits state) :
    state.snapshot.lastIncludedIndex ≤ state.lastIndex := by
  rw [lastIndex_eq h.contiguous]
  omega

variable {term : ℕ}

section

variable (h : StateWellFormed limits state)
include h

/-- A newer term without a vote. -/
lemma advanceTerm (ht : state.currentTerm ≤ term) :
    StateWellFormed limits (state.advanceTerm term) :=
  { h with
    entries := fun entry he => (h.entries entry he).mono ht
    vote_of_term_zero := fun _ => rfl
    vote_ne_zero := by simp [PersistentState.advanceTerm]
    snapshot_term := h.snapshot_term.trans ht }

/-- A newer term with a vote. -/
lemma vote {candidate : NodeId} (ht : state.currentTerm ≤ term) (hpos : term ≠ 0)
    (hc : candidate ≠ 0) :
    StateWellFormed limits { state with currentTerm := term, votedFor := some candidate } :=
  { h with
    entries := fun entry he => (h.entries entry he).mono ht
    vote_of_term_zero := fun h0 => absurd h0 hpos
    vote_ne_zero := by simpa using hc
    snapshot_term := h.snapshot_term.trans ht }

lemma withCommit {commit : ℕ} (hc : state.commitIndex ≤ commit) (hl : commit ≤ state.lastIndex) :
    StateWellFormed limits { state with commitIndex := commit } :=
  { h with
    applied_le_commit := h.applied_le_commit.trans hc
    commit_le_last := hl }

lemma withApplied {index : ℕ} (ha : state.appliedIndex ≤ index) (hc : index ≤ state.commitIndex) :
    StateWellFormed limits { state with appliedIndex := index } :=
  { h with
    snapshot_le_applied := h.snapshot_le_applied.trans ha
    applied_le_commit := hc }

end

end StateWellFormed

/-! ### The byte budget of an appended entry -/

variable {state : PersistentState}

/-- The budget test for one more entry is the budget test of the longer log. -/
lemma persistentStateFits_append {limits : RaftLimits} {entry : LogEntry}
    (h : appendedEntryFits state entry.payload.length limits = .ok ()) :
    persistentStateFits state.snapshot.voters.length (state.log ++ [entry]) limits = .ok () := by
  have hsize : raftPersistentStatePayloadSize state.snapshot.voters.length (state.log ++ [entry]) =
      (do
        let size ← raftPersistentStatePayloadSize state.snapshot.voters.length state.log
        let appended ← checkedAdd size raftPersistentLogEntryFixedSize
        checkedAdd appended entry.payload.length : Option ℕ) := by
    simp [raftPersistentStatePayloadSize, foldlM_append, addEntrySize, Option.bind_assoc]
  unfold appendedEntryFits at h
  unfold persistentStateFits
  rw [hsize]
  exact h

/-! ### The progress of a leader -/

/-- The progress maps of a leader: one entry for each active voter, within the log. -/
structure Tracked (voters : List NodeId) (lastIndex : ℕ) (nextIndex matchIndex : Progress) :
    Prop where
  next_iff : ∀ peer, (nextIndex peer).isSome ↔ peer ∈ voters
  match_iff : ∀ peer, (matchIndex peer).isSome ↔ peer ∈ voters
  next_bounds : ∀ peer next, nextIndex peer = some next → 1 ≤ next ∧ next ≤ lastIndex + 1
  match_le : ∀ peer found, matchIndex peer = some found → found ≤ lastIndex

namespace Tracked

variable {voters voters' : List NodeId} {last last' : ℕ} {next found : Progress}

lemma mono (h : Tracked voters last next found) (hl : last ≤ last') :
    Tracked voters last' next found where
  __ := h
  next_bounds peer x hx := by
    have := h.next_bounds peer x hx
    omega
  match_le peer x hx := (h.match_le peer x hx).trans hl

lemma initial (id : NodeId) (voters : List NodeId) (last : ℕ) :
    Tracked voters last (initialNext voters last) (initialMatch id voters last) where
  next_iff peer := by unfold initialNext; split <;> simp_all
  match_iff peer := by unfold initialMatch; split <;> simp_all
  next_bounds peer x hx := by
    unfold initialNext at hx
    split at hx
    · cases hx
      omega
    · cases hx
  match_le peer x hx := by
    unfold initialMatch at hx
    split at hx
    · simp only [Option.some.injEq] at hx
      split at hx <;> omega
    · cases hx

/-- A change of the voters keeps the progress of those that stay. -/
lemma retrack (h : Tracked voters last next found) (id : NodeId) (voters' : List NodeId) :
    Tracked voters' last (retrackNext id voters' last next)
      (retrackMatch id voters' last next found) where
  next_iff peer := by unfold retrackNext; split <;> simp_all
  match_iff peer := by
    unfold retrackMatch
    have hn := h.next_iff peer
    have hm := h.match_iff peer
    cases hnext : next peer <;> cases hfound : found peer <;> simp_all
  next_bounds peer x hx := by
    unfold retrackNext at hx
    split at hx
    · simp only [Option.some.injEq] at hx
      cases hnext : next peer with
      | none =>
        rw [hnext, Option.getD_none] at hx
        split at hx <;> omega
      | some y =>
        rw [hnext, Option.getD_some] at hx
        exact hx ▸ h.next_bounds peer y hnext
    · cases hx
  match_le peer x hx := by
    unfold retrackMatch at hx
    split at hx
    · split at hx
      · simp only [Option.some.injEq] at hx
        cases hfound : found peer with
        | none =>
          rw [hfound, Option.getD_none] at hx
          split at hx <;> omega
        | some y =>
          rw [hfound, Option.getD_some] at hx
          exact hx ▸ h.match_le peer y hfound
      · exact h.match_le peer x hx
    · split at hx
      · exact h.match_le peer x hx
      · cases hx

variable {progress : Progress} {peer p : NodeId} {x y : ℕ}

/-- A tracked peer stays tracked when its index moves, and no other index changes. -/
lemma isSome_update (hp : progress peer ≠ none) :
    (Function.update progress peer (some x) p).isSome = (progress p).isSome := by
  by_cases hpp : p = peer
  · subst hpp
    rw [update_self, Option.isSome_iff_ne_none.mpr hp]
    rfl
  · rw [update_of_ne hpp]

lemma of_update_eq_some (hy : Function.update progress peer (some x) p = some y) :
    y = x ∨ progress p = some y := by
  by_cases hpp : p = peer
  · subst hpp
    rw [update_self, Option.some.injEq] at hy
    exact .inl hy.symm
  · rw [update_of_ne hpp] at hy
    exact .inr hy

/-- A tracked peer moves to a next index within the log. -/
lemma updateNext (h : Tracked voters last next found) (hp : next peer ≠ none) (h1 : 1 ≤ x)
    (hx : x ≤ last + 1) :
    Tracked voters last (Function.update next peer (some x)) found where
  __ := h
  next_iff p := by
    rw [isSome_update hp]
    exact h.next_iff p
  next_bounds p y hy := by
    rcases of_update_eq_some hy with rfl | hold
    · exact ⟨h1, hx⟩
    · exact h.next_bounds p y hold

/-- A tracked peer moves to a match index within the log. -/
lemma updateMatch (h : Tracked voters last next found) (hp : found peer ≠ none) (hx : x ≤ last) :
    Tracked voters last next (Function.update found peer (some x)) where
  __ := h
  match_iff p := by
    rw [isSome_update hp]
    exact h.match_iff p
  match_le p y hy := by
    rcases of_update_eq_some hy with rfl | hold
    · exact hx
    · exact h.match_le p y hold

end Tracked

/-! ### The node -/

/-- The voters that a node starts from: those of its snapshot, or the bootstrap voters. -/
def startVoters (boot : List NodeId) (snapshot : SnapshotMetadata) : List NodeId :=
  if snapshot.lastIncludedIndex ≠ 0 then snapshot.voters else boot.insertionSort (· ≤ ·)

/-- A pending snapshot is newer than the local one, and a node that waits for a snapshot of its
own term follows the leader that sent it. -/
structure PendingValid (n : RaftNode) (request : InstallSnapshotRequest) : Prop where
  newer : n.state.snapshot.lastIncludedIndex < request.snapshot.lastIncludedIndex
  valid : validSnapshot request.snapshot n.limits.maximumVoters = true
  term : request.snapshot.lastIncludedTerm ≤ request.term
  term_le : request.term ≤ n.state.currentTerm
  follows : request.term = n.state.currentTerm → n.role = .follower

/-- The membership that a node keeps. -/
def RaftNode.membership (n : RaftNode) : DerivedMembership :=
  ⟨n.committedVoters, n.voters, n.joint⟩

/-- **The structural invariant** of a node with the bootstrap voters `boot`. -/
structure RaftNode.WellFormed (boot : List NodeId) (n : RaftNode) : Prop where
  id_ne_zero : n.id ≠ 0
  state : StateWellFormed n.limits n.state
  base : n.baseVoters = startVoters boot n.state.snapshot
  derived : deriveMembership n.baseVoters n.state.log n.state.commitIndex n.limits.maximumVoters =
    .ok n.membership
  pending : ∀ request, n.pendingSnapshot = some request → PendingValid n request
  term_ne_zero : n.role ≠ .follower → n.state.currentTerm ≠ 0
  tracked : n.role = .leader → Tracked n.voters n.state.lastIndex n.nextIndex n.matchIndex

namespace RaftNode.WellFormed

variable {boot : List NodeId} {n : RaftNode}

section

variable (h : n.WellFormed boot)
include h

/-- Following a leader of the current or a newer term. -/
lemma becomeFollower {term : ℕ} (ht : n.state.currentTerm ≤ term) (leader : Option NodeId) :
    (n.becomeFollower term leader).WellFormed boot where
  id_ne_zero := h.id_ne_zero
  state := by
    rw [becomeFollower_state]
    split
    · exact h.state.advanceTerm ht
    · exact h.state
  base := by
    rw [becomeFollower_state]
    split <;> exact h.base
  derived := by
    rw [becomeFollower_state]
    split <;> exact h.derived
  pending request hp := by
    have hreq := h.pending request hp
    have hterm := becomeFollower_currentTerm ht leader
    refine ⟨?_, hreq.valid, hreq.term, by rw [hterm]; exact hreq.term_le.trans ht, fun _ => rfl⟩
    rw [becomeFollower_state]
    split <;> exact hreq.newer
  term_ne_zero hrole := absurd rfl hrole
  tracked hrole := by cases hrole

lemma observe (term : ℕ) : (n.observe term).WellFormed boot := by
  unfold RaftNode.observe
  split
  · exact h.becomeFollower (by omega) none
  · exact h

lemma campaign : n.campaign.WellFormed boot where
  __ := h
  state := h.state.vote (Nat.le_succ _) (Nat.succ_ne_zero _) h.id_ne_zero
  pending request hp := by
    have hreq := h.pending request hp
    have hle := hreq.term_le
    refine ⟨hreq.newer, hreq.valid, hreq.term, ?_, ?_⟩
    · simp only [RaftNode.campaign]; omega
    · simp only [RaftNode.campaign]; omega
  term_ne_zero _ := Nat.succ_ne_zero _
  tracked hrole := by cases hrole

/-- A candidate becomes leader. -/
lemma elected (hrole : n.role = .candidate) (votes : Finset NodeId) :
    (n.elected votes).WellFormed boot where
  __ := h
  pending request hp := by
    have hreq := h.pending request hp
    refine ⟨hreq.newer, hreq.valid, hreq.term, hreq.term_le, fun hterm => ?_⟩
    rw [hreq.follows hterm] at hrole
    cases hrole
  term_ne_zero _ := h.term_ne_zero (by rw [hrole]; decide)
  tracked _ := Tracked.initial _ _ _

lemma grant {source : NodeId} (hs : source ≠ 0) (hterm : n.state.currentTerm ≠ 0) :
    (n.grant source).WellFormed boot where
  __ := h
  state := h.state.vote le_rfl hterm hs
  pending request hp := { h.pending request hp with follows := fun _ => rfl }
  term_ne_zero hrole := absurd rfl hrole
  tracked hrole := by cases hrole

/-- The progress of a leader may move within its log. -/
lemma withProgress {next found : Progress}
    (ht : n.role = .leader → Tracked n.voters n.state.lastIndex next found) :
    ({ n with nextIndex := next, matchIndex := found } : RaftNode).WellFormed boot where
  __ := h
  pending request hp := { h.pending request hp with }
  tracked := ht

end

variable {peer : NodeId}

lemma progress (h : n.WellFormed boot) (hrole : n.role = .leader) {matched : ℕ}
    (hm : n.matchIndex peer ≠ none) (hn : n.nextIndex peer ≠ none)
    (hle : matched ≤ n.state.lastIndex) : (n.progress peer matched).WellFormed boot :=
  h.withProgress fun _ =>
    ((h.tracked hrole).updateMatch hm hle).updateNext hn (by omega) (by omega)

lemma confirmed (h : n.WellFormed boot) {term found matched : ℕ}
    (answered : Answered n peer term) (tracked : n.matchIndex peer = some found)
    (hle : matched ≤ n.state.lastIndex) : (n.progress peer (max found matched)).WellFormed boot :=
  h.progress answered.leader (by simp [tracked]) answered.trackedNext
    (max_le ((h.tracked answered.leader).match_le _ _ tracked) hle)

lemma backOff (h : n.WellFormed boot) {term next : ℕ} (answered : Answered n peer term)
    (h1 : 1 ≤ next) (hle : next ≤ n.state.lastIndex + 1) : (n.backOff peer next).WellFormed boot :=
  h.withProgress fun _ => (h.tracked answered.leader).updateNext answered.trackedNext h1 hle

variable {membership : DerivedMembership}

/-- A new log or commit index of the same snapshot and term, with the membership derived from
it. -/
lemma installMembership (h : n.WellFormed boot) {state : PersistentState}
    (hstate : StateWellFormed n.limits state) (hsnapshot : state.snapshot = n.state.snapshot)
    (hterm : state.currentTerm = n.state.currentTerm) (hlast : n.state.lastIndex ≤ state.lastIndex)
    (hderived : deriveMembership n.baseVoters state.log state.commitIndex n.limits.maximumVoters =
      .ok membership) :
    (({ n with state := state } : RaftNode).installMembership membership).WellFormed boot := by
  have hpending : ∀ request, n.pendingSnapshot = some request →
      PendingValid { n with state := state } request := by
    intro request hp
    have hreq := h.pending request hp
    exact ⟨by rw [hsnapshot]; exact hreq.newer, hreq.valid, hreq.term,
      by rw [hterm]; exact hreq.term_le, by rw [hterm]; exact hreq.follows⟩
  have hne : n.role ≠ .follower → state.currentTerm ≠ 0 := by
    rw [hterm]
    exact h.term_ne_zero
  have hbase : n.baseVoters = startVoters boot state.snapshot := by
    rw [hsnapshot]
    exact h.base
  unfold RaftNode.installMembership
  by_cases hrole : n.role = .leader
  · rw [if_neg (by simpa using hrole)]
    exact ⟨h.id_ne_zero, hstate, hbase, hderived, fun r hp => { hpending r hp with }, hne,
      fun _ => ((h.tracked hrole).mono hlast).retrack n.id membership.activeVoters⟩
  · rw [if_pos hrole]
    exact ⟨h.id_ne_zero, hstate, hbase, hderived, fun r hp => { hpending r hp with }, hne,
      fun hleader => absurd hleader hrole⟩

lemma commitTo (h : n.WellFormed boot) {commit : ℕ} (hc : n.state.commitIndex ≤ commit)
    (hl : commit ≤ n.state.lastIndex)
    (hderived : deriveMembership n.baseVoters n.state.log commit n.limits.maximumVoters =
      .ok membership) :
    (n.commitTo commit membership).WellFormed boot :=
  h.installMembership (h.state.withCommit hc hl) rfl rfl le_rfl hderived

lemma stepDownIfRemoved (h : n.WellFormed boot) : n.stepDownIfRemoved.WellFormed boot := by
  unfold RaftNode.stepDownIfRemoved
  split
  · exact h.becomeFollower le_rfl none
  · exact h

end RaftNode.WellFormed

/-! ### Appending to the own log -/

@[simp] lemma installMembership_pendingSnapshot (n : RaftNode) (membership : DerivedMembership) :
    (n.installMembership membership).pendingSnapshot = n.pendingSnapshot := by
  unfold RaftNode.installMembership
  split <;> rfl

@[simp] lemma stepDownIfRemoved_pendingSnapshot (n : RaftNode) :
    n.stepDownIfRemoved.pendingSnapshot = n.pendingSnapshot := by
  unfold RaftNode.stepDownIfRemoved
  split <;> rfl

lemma observe_pendingSnapshot (n : RaftNode) (term : ℕ) :
    (n.observe term).pendingSnapshot = n.pendingSnapshot := by
  unfold RaftNode.observe
  split <;> rfl

variable {n n' : RaftNode} {commit : Option ℕ}

lemma Advanced.pendingSnapshot (h : Advanced n n' commit) :
    n'.pendingSnapshot = n.pendingSnapshot := by
  cases h with
  | none => rfl
  | some commit membership => exact installMembership_pendingSnapshot _ _

@[simp] lemma installMembership_role (n : RaftNode) (membership : DerivedMembership) :
    (n.installMembership membership).role = n.role := by
  unfold RaftNode.installMembership
  split <;> rfl

lemma Advanced.role_eq (h : Advanced n n' commit) :
    n'.role = n.role := by
  cases h with
  | none => rfl
  | some commit membership => exact installMembership_role _ _

lemma commitCandidate_bounds {joint : Option JointConfiguration} {committedVoters : List NodeId}
    {matchIndex : Progress} {commit : ℕ}
    (h : commitCandidate state joint committedVoters matchIndex = some commit) :
    state.commitIndex < commit ∧ commit ≤ state.lastIndex ∧
      state.termAt commit = some state.currentTerm ∧
      configurationQuorum joint committedVoters (replicated matchIndex commit) = true := by
  have hmem := mem_of_find?_eq_some h
  have hprop := find?_some h
  simp only [commitCandidates, mem_map, mem_range] at hmem
  obtain ⟨_, _, rfl⟩ := hmem
  simp only [Bool.and_eq_true, decide_eq_true_eq] at hprop
  exact ⟨by omega, by omega, hprop⟩

namespace RaftNode.WellFormed

variable {boot : List NodeId} {n n' : RaftNode}

lemma selfTracked (h : n.WellFormed boot) (hrole : n.role = .leader)
    (hm : n.matchIndex n.id ≠ none) (hn : n.nextIndex n.id ≠ none) :
    n.selfTracked.WellFormed boot :=
  h.withProgress fun _ =>
    ((h.tracked hrole).updateMatch hm le_rfl).updateNext hn (by omega) le_rfl

variable {commit : Option ℕ}

lemma advanced (h : n.WellFormed boot) (ha : Advanced n n' commit) :
    n'.WellFormed boot := by
  cases ha with
  | none => exact h
  | some commit membership candidate derived =>
    obtain ⟨hlt, hle, -, -⟩ := commitCandidate_bounds candidate
    exact h.commitTo hlt.le hle derived

section

variable {type : UInt8} {payload : List UInt8} (h : n.WellFormed boot)
  (entry : PlainEntry type payload) (room : Appendable n payload)
include h

include room in

/-- The persistent state with one more entry of the current term. -/
lemma pushState (type_ne : type ≠ 0) (noop : type = leaderNoopEntryType → payload = []) :
    StateWellFormed n.limits (n.pushEntry type payload).state ∧
      (n.pushEntry type payload).state.lastIndex = n.state.lastIndex + 1 := by
  have hlast := lastIndex_eq h.state.contiguous
  have hcont : (n.pushEntry type payload).state.LogContiguous :=
    Contiguous.append_iff.mpr ⟨h.state.contiguous,
      Contiguous.cons_iff.mpr ⟨congrArg (· + 1) hlast, Contiguous.nil _⟩⟩
  have hlast' : (n.pushEntry type payload).state.lastIndex = n.state.lastIndex + 1 := by
    rw [lastIndex_eq hcont, hlast]
    simp only [pushEntry, length_append, length_singleton]
    omega
  refine ⟨{ h.state with
    contiguous := hcont
    commit_le_last := ?_
    entries := ?_
    capacity := ?_
    fits := @persistentStateFits_append n.state n.limits
      ⟨n.state.lastIndex + 1, n.state.currentTerm, type, payload⟩ room.fits }, hlast'⟩
  · rw [hlast']
    exact h.state.commit_le_last.trans (Nat.le_succ _)
  · intro entry he
    rcases mem_append.mp he with he | he
    · exact h.state.entries entry he
    · obtain rfl := mem_singleton.mp he
      have hindex := room.index
      exact ⟨by simp only; omega, h.term_ne_zero (by rw [room.leader]; decide), le_rfl, type_ne,
        room.bytes, noop⟩
  · simp only [pushEntry, length_append, length_singleton]
    exact room.entries

include entry room in
/-- A plain entry does not change the membership. -/
lemma pushEntry : (n.pushEntry type payload).WellFormed boot := by
  obtain ⟨hstate, _⟩ := h.pushState room entry.type_ne entry.noop
  refine ⟨h.id_ne_zero, hstate, h.base, ?_, fun r hp => { h.pending r hp with }, h.term_ne_zero,
    fun _ => (h.tracked room.leader).mono (by omega)⟩
  exact deriveFrom_append.mpr ⟨_, h.derived, deriveFrom_cons.mpr ⟨_, .plain entry.plain, rfl⟩⟩

include entry room in
/-- The leader that has appended a plain entry. -/
lemma localNext (tracked : n.matchIndex n.id ≠ none) (trackedNext : n.nextIndex n.id ≠ none)
    (ha : Advanced (n.pushEntry type payload).selfTracked n' commit) :
    n'.WellFormed boot ∧ n'.role = .leader := by
  have hpushed := h.pushEntry entry room
  exact ⟨(hpushed.selfTracked room.leader tracked trackedNext).advanced ha,
    ha.role_eq.trans room.leader⟩

variable {membership : DerivedMembership} (hentry : MembershipEntry n type payload membership)
include hentry

/-- A log with one more membership entry and the membership derived from it. -/
lemma pushMembership :
    ((n.pushEntry type payload).installMembership membership).WellFormed boot ∧
      ((n.pushEntry type payload).installMembership membership).role = .leader := by
  have htype : type ≠ 0 ∧ type ≠ leaderNoopEntryType := by
    constructor <;> rintro rfl <;> cases hentry.type_mem
  obtain ⟨hstate, _⟩ := h.pushState hentry.toAppendable htype.1 fun hn => absurd hn htype.2
  have hle : n.state.lastIndex ≤ (n.pushEntry type payload).state.lastIndex := by omega
  exact ⟨h.installMembership hstate rfl rfl hle hentry.derived,
    (installMembership_role _ _).trans hentry.leader⟩

/-- The leader that has appended a membership entry, before it may step down. -/
lemma membershipNext
    (ha : Advanced ((n.pushEntry type payload).installMembership membership).selfTracked n'
      commit) :
    n'.WellFormed boot ∧ n'.role = .leader := by
  obtain ⟨hpushed, hleader⟩ := h.pushMembership hentry
  have hid : ((n.pushEntry type payload).installMembership membership).id = n.id :=
    installMembership_id _ _
  have hself := hpushed.selfTracked hleader (hid ▸ hentry.tracked) (hid ▸ hentry.trackedNext)
  exact ⟨hself.advanced ha, ha.role_eq.trans hleader⟩

end

/-! ### Accepting the log of a leader -/

end RaftNode.WellFormed

/-- What an acceptable request does to a well-formed log: `k` is the position of its predecessor. -/
structure Spliced (state : PersistentState) (request : AppendEntriesRequest)
    (log : List LogEntry) (k : ℕ) : Prop where
  previous : request.previousLogIndex = state.snapshot.lastIncludedIndex + k
  within : k ≤ state.log.length
  contiguous : Contiguous (state.snapshot.lastIncludedIndex + k) request.entries
  outcome : Holds state.log k request.entries ∧ log = state.log ∨
    ∃ j, Conflicts state.log k state.commitIndex request.entries j ∧
      log = state.log.take k ++ request.entries

section Accept

variable {n : RaftNode} {source : NodeId} {request : AppendEntriesRequest} {v : ValidatedAppend}

lemma Acceptable.spliced (h : Acceptable n source request v)
    (hstate : StateWellFormed n.limits n.state) : ∃ k, Spliced n.state request v.log k := by
  obtain ⟨hlow, hhigh⟩ := appendPredecessorTerm_le hstate.contiguous h.previous
  rw [lastIndex_eq hstate.contiguous] at hhigh
  obtain ⟨k, hk⟩ := Nat.exists_eq_add_of_le hlow
  have hcont := validateEntries_contiguous h.entries
  rw [hk] at hcont
  obtain ⟨conflict, hconflict, -⟩ := h.conflict
  refine ⟨k, hk, by omega, hcont, ?_⟩
  rw [h.log]
  obtain ⟨-, hholds, heq⟩ | ⟨j, -, hj, heq⟩ := candidateLog_spec hstate.contiguous
    hstate.commit_le_last (k := k) (by omega) hcont hconflict
  · exact .inl ⟨hholds, heq⟩
  · exact .inr ⟨j, hj, heq⟩

variable {log entries : List LogEntry} {k commit j : ℕ}

/-- The entries before a conflict end within the log. -/
lemma Conflicts.le_length (h : Conflicts log k commit entries j) (hk : k ≤ log.length) :
    k + j ≤ log.length ∧ j < entries.length := by
  obtain ⟨_, hentry, -⟩ := h.differs
  have hj : j < entries.length := (List.getElem?_eq_some_iff.mp hentry).1
  refine ⟨?_, hj⟩
  cases j with
  | zero => exact hk
  | succ j =>
    have hlast := h.held j entries[j] (by
      rw [List.getElem?_take_of_lt (by omega), List.getElem?_eq_getElem])
    have := (List.getElem?_eq_some_iff.mp hlast).1
    omega

variable {state : PersistentState}

lemma Spliced.logContiguous (h : Spliced state request log k) (hlog : state.LogContiguous) :
    Contiguous state.snapshot.lastIncludedIndex log := by
  obtain ⟨-, rfl⟩ | ⟨_, -, rfl⟩ := h.outcome
  · exact hlog
  · refine Contiguous.append_iff.mpr ⟨hlog.take k, ?_⟩
    rw [length_take, Nat.min_eq_left h.within]
    exact h.contiguous

/-- The spliced log holds the entries of the request. -/
lemma Spliced.holds (h : Spliced state request log k) : Holds log k request.entries := by
  obtain ⟨hholds, rfl⟩ | ⟨_, -, rfl⟩ := h.outcome
  · exact hholds
  · intro _ _ hp
    rw [getElem?_append_right (by simp), length_take, Nat.min_eq_left h.within]
    simpa using hp

/-- The index that an acceptance acknowledges. -/
lemma accepted_eq (h : Contiguous request.previousLogIndex request.entries) :
    request.accepted = request.previousLogIndex + request.entries.length := by
  unfold AppendEntriesRequest.accepted
  rw [getLast?_eq_getElem?]
  cases hlast : request.entries[request.entries.length - 1]? with
  | none =>
    rw [getElem?_eq_none_iff] at hlast
    simp only
    omega
  | some entry =>
    have hlt := (List.getElem?_eq_some_iff.mp hlast).1
    have := h _ entry hlast
    simp only
    omega

/-- Entries that a log holds lie within it. -/
lemma Holds.length_le (h : Holds log k entries) (hk : k ≤ log.length) :
    k + entries.length ≤ log.length := by
  rcases Nat.eq_zero_or_pos entries.length with _ | _
  · omega
  · have := h (entries.length - 1) entries[entries.length - 1] (List.getElem?_eq_getElem _)
    have := (List.getElem?_eq_some_iff.mp this).1
    omega

section

variable (h : Spliced state request log k)
include h

/-- An acceptance acknowledges no more than the spliced log. -/
lemma Spliced.accepted_le :
    request.accepted ≤ state.snapshot.lastIncludedIndex + log.length := by
  have hwithin : k ≤ log.length := by
    obtain ⟨-, rfl⟩ | ⟨_, -, rfl⟩ := h.outcome
    · exact h.within
    · rw [length_append, length_take]
      have := h.within
      omega
  have hlen := h.holds.length_le hwithin
  rw [accepted_eq (h.previous ▸ h.contiguous), h.previous]
  omega

/-- The committed part of the log survives a splice. -/
lemma Spliced.take_eq {i : ℕ} (hi : state.snapshot.lastIncludedIndex + i ≤ state.commitIndex)
    (hcommit : state.commitIndex ≤ state.snapshot.lastIncludedIndex + state.log.length) :
    log.take i = state.log.take i := by
  obtain ⟨-, rfl⟩ | ⟨j, hj, rfl⟩ := h.outcome
  · rfl
  · obtain ⟨_, _⟩ := hj.le_length h.within
    obtain ⟨entry, hentry, -, _⟩ := hj.differs
    have hindex := h.contiguous j entry hentry
    -- position by position: before `k` the old log, then the entries it held already
    refine ext_getElem? fun p => ?_
    by_cases hp : p < i
    · rw [List.getElem?_take_of_lt hp, List.getElem?_take_of_lt hp]
      by_cases hpk : p < k
      · rw [getElem?_append_left (by simp; omega), List.getElem?_take_of_lt hpk]
      · have hlt : p - k < request.entries.length := by omega
        have hheld := hj.held (p - k) request.entries[p - k] (by
          rw [List.getElem?_take_of_lt (by omega), List.getElem?_eq_getElem])
        rw [getElem?_append_right (by simp; omega), length_take,
          Nat.min_eq_left h.within, List.getElem?_eq_getElem hlt, ← hheld,
          show k + (p - k) = p by omega]
    · rw [getElem?_eq_none (by simp; omega), getElem?_eq_none (by simp; omega)]

/-- The commit index lies within the spliced log. -/
lemma Spliced.commit_le
    (hcommit : state.commitIndex ≤ state.snapshot.lastIncludedIndex + state.log.length) :
    state.commitIndex ≤ state.snapshot.lastIncludedIndex + log.length := by
  obtain ⟨-, rfl⟩ | ⟨j, hj, rfl⟩ := h.outcome
  · exact hcommit
  · obtain ⟨-, _⟩ := hj.le_length h.within
    obtain ⟨entry, hentry, -, _⟩ := hj.differs
    have hindex := h.contiguous j entry hentry
    have hwithin := h.within
    rw [length_append, length_take]
    omega

end

/-- The length that the capacity test computes is that of the spliced log. -/
lemma splicedLength_eq (hlog : state.LogContiguous) (hk : k ≤ state.log.length)
    (hentries : Contiguous (state.snapshot.lastIncludedIndex + k) entries)
    (hj : Conflicts state.log k commit entries j) :
    splicedLength state entries j = (state.log.take k ++ entries).length := by
  obtain ⟨_, _⟩ := hj.le_length hk
  obtain ⟨entry, hentry, -, -⟩ := hj.differs
  have hindex := hentries j entry hentry
  have hlast := lastIndex_eq hlog
  rw [length_append, length_take, splicedLength, hentry]
  simp only [Option.map_some, Option.getD_some, offsetFor]
  split <;> omega

section

variable (h : Acceptable n source request v) (hstate : StateWellFormed n.limits n.state)
include h hstate

lemma Acceptable.capacity : v.log.length ≤ n.limits.maximumLogEntries := by
  obtain ⟨_, hk⟩ := h.spliced hstate
  obtain ⟨conflict, hconflict, hcapacity⟩ := h.conflict
  rw [h.log]
  obtain ⟨-, -, heq⟩ | ⟨j, hj, hconf, heq⟩ := candidateLog_spec hstate.contiguous
    hstate.commit_le_last hk.within hk.contiguous hconflict
  · rw [heq]
    exact hstate.capacity
  · have := hcapacity j hj
    rwa [splicedLength_eq hstate.contiguous hk.within hk.contiguous hconf, ← heq] at this

lemma Acceptable.entryValid :
    ∀ entry ∈ v.log, EntryValid n.limits request.term entry := by
  obtain ⟨_, hk⟩ := h.spliced hstate
  intro entry he
  have hold : ∀ e ∈ n.state.log, EntryValid n.limits request.term e := fun e hmem =>
    (hstate.entries e hmem).mono h.term
  obtain ⟨-, heq⟩ | ⟨_, -, heq⟩ := hk.outcome
  · exact hold entry (heq ▸ he)
  · rw [heq] at he
    rcases mem_append.mp he with he | he
    · exact hold entry (mem_of_mem_take he)
    · exact validateEntries_valid h.entries entry he

lemma Acceptable.lastIndex :
    (n.acceptedState request v).lastIndex =
      n.state.snapshot.lastIncludedIndex + v.log.length := by
  obtain ⟨_, hk⟩ := h.spliced hstate
  exact @lastIndex_eq (n.acceptedState request v) (hk.logContiguous hstate.contiguous)

/-- The persistent state after an accepted request. -/
lemma Acceptable.stateWellFormed :
    StateWellFormed n.limits (n.acceptedState request v) := by
  obtain ⟨_, hk⟩ := h.spliced hstate
  have hlast : ({ n.state with log := v.log } : PersistentState).lastIndex =
      n.state.snapshot.lastIncludedIndex + v.log.length := h.lastIndex hstate
  have hcommit := h.commit
  rw [hlast] at hcommit
  have hle := hk.commit_le (by
    rw [← lastIndex_eq hstate.contiguous]
    exact hstate.commit_le_last)
  refine
    { contiguous := hk.logContiguous hstate.contiguous
      snapshot_le_applied := hstate.snapshot_le_applied
      applied_le_commit := ?_
      commit_le_last := ?_
      entries := h.entryValid hstate
      capacity := h.capacity hstate
      fits := h.fits
      vote_of_term_zero := fun h0 => absurd h0 h.term_ne_zero
      vote_ne_zero := ?_
      snapshot_empty := hstate.snapshot_empty
      snapshot_valid := hstate.snapshot_valid
      snapshot_term := hstate.snapshot_term.trans h.term }
  · have := hstate.applied_le_commit
    simp only [acceptedState]
    omega
  · rw [h.lastIndex hstate]
    simp only [acceptedState]
    omega
  · simp only [acceptedState]
    split
    · simp
    · exact hstate.vote_ne_zero

end

lemma RaftNode.WellFormed.accept {boot : List NodeId} (h : n.WellFormed boot)
    (ha : Acceptable n source request v) : (n.accept source request v).WellFormed boot where
  __ := h
  state := ha.stateWellFormed h.state
  derived := ha.membership
  pending r hp := by
    have hreq := h.pending r hp
    exact ⟨hreq.newer, hreq.valid, hreq.term, hreq.term_le.trans ha.term, fun _ => rfl⟩
  term_ne_zero hrole := absurd rfl hrole
  tracked hrole := by cases hrole

end Accept

/-! ### Snapshots -/

section Snapshot

variable {n : RaftNode} {boot : List NodeId}

/-- What the preparation of local snapshot metadata has established. -/
structure Compactable (n : RaftNode) (snapshot : SnapshotMetadata)
    (checkpoint : DerivedMembership) : Prop where
  noPending : n.pendingSnapshot = none
  noJoint : n.joint = none
  newer : n.state.snapshot.lastIncludedIndex < snapshot.lastIncludedIndex
  applied : snapshot.lastIncludedIndex ≤ n.state.appliedIndex
  term : n.state.termAt snapshot.lastIncludedIndex = some snapshot.lastIncludedTerm
  derived : deriveMembership n.baseVoters
    (n.state.log.take (n.state.offsetFor snapshot.lastIncludedIndex + 1))
    snapshot.lastIncludedIndex n.limits.maximumVoters = .ok checkpoint
  stable : checkpoint.joint = none
  voters : snapshot.voters = checkpoint.committedVoters
  valid : validSnapshot snapshot n.limits.maximumVoters = true
  fits : persistentStateFits snapshot.voters.length
    (n.state.log.drop (n.state.offsetFor snapshot.lastIncludedIndex + 1)) n.limits = .ok ()

variable {snapshot : SnapshotMetadata}

lemma prepareSnapshotMetadata_eq_ok {prepared : SnapshotMetadata}
    (h : n.prepareSnapshotMetadata snapshot = .ok prepared) :
    ∃ checkpoint, Compactable n prepared checkpoint := by
  unfold prepareSnapshotMetadata at h
  split_ifs at h with hpending hguard
  simp only [not_or, not_le, not_lt, not_not] at hguard
  obtain ⟨hjoint, hnewer, happlied, -, -, hterm⟩ := hguard
  obtain ⟨checkpoint, hderive, h⟩ := Result.bind_eq_ok.mp h
  split_ifs at h with hstable
  dsimp only at h
  split_ifs at h with hvalid
  obtain ⟨_, hfits, h⟩ := Result.bind_eq_ok.mp h
  cases h
  exact ⟨checkpoint, by simpa using hpending, by simpa using hjoint, hnewer, happlied, hterm,
    hderive, by simpa using hstable, rfl, by simpa using hvalid, hfits⟩

variable {m : ℕ}

lemma validSnapshot_index (h : validSnapshot snapshot m = true) :
    snapshot.lastIncludedIndex ≠ 0 ∧ snapshot.voters ≠ [] ∧
      snapshot.lastIncludedIndex ≠ u64Max := by
  simp only [validSnapshot, validVoters, Bool.and_eq_true, decide_eq_true_eq,
    Bool.not_eq_true', isEmpty_eq_false_iff] at h
  exact ⟨h.1.1.1.1.1, h.2.1.1.1, h.1.1.1.1.2⟩

variable {state : PersistentState}

/-- A state with a newer snapshot over a suffix of the old log. -/
lemma StateWellFormed.withSnapshot {limits : RaftLimits} (h : StateWellFormed limits state)
    {log : List LogEntry} {commit applied : ℕ} (hcont : Contiguous snapshot.lastIncludedIndex log)
    (hsub : ∀ entry ∈ log, entry ∈ state.log) (hlen : log.length ≤ state.log.length)
    (ha : snapshot.lastIncludedIndex ≤ applied) (hac : applied ≤ commit)
    (hc : commit ≤ snapshot.lastIncludedIndex + log.length)
    (hvalid : validSnapshot snapshot limits.maximumVoters = true)
    (hterm : snapshot.lastIncludedTerm ≤ state.currentTerm)
    (hfits : persistentStateFits snapshot.voters.length log limits = .ok ()) :
    StateWellFormed limits
      { state with
        snapshot := snapshot, log := log, commitIndex := commit, appliedIndex := applied } where
  __ := h
  contiguous := hcont
  snapshot_le_applied := ha
  applied_le_commit := hac
  commit_le_last := by
    have hlast := @lastIndex_eq { state with
        snapshot := snapshot, log := log, commitIndex := commit, appliedIndex := applied } hcont
    exact hc.trans hlast.ge
  entries entry he := h.entries entry (hsub entry he)
  capacity := hlen.trans h.capacity
  fits := hfits
  snapshot_empty h0 := absurd h0 (validSnapshot_index hvalid).1
  snapshot_valid _ := hvalid
  snapshot_term := hterm

/-- The entries behind a snapshot within the log. -/
lemma contiguous_drop (h : state.LogContiguous) {index : ℕ}
    (hlow : state.snapshot.lastIncludedIndex < index) (hhigh : index ≤ state.lastIndex) :
    Contiguous index (state.log.drop (state.offsetFor index + 1)) ∧
      index + (state.log.drop (state.offsetFor index + 1)).length = state.lastIndex := by
  have hlast := lastIndex_eq h
  have hoffset : state.offsetFor index + 1 = index - state.snapshot.lastIncludedIndex := by
    unfold offsetFor
    omega
  rw [hoffset, length_drop]
  refine ⟨?_, by omega⟩
  have hdrop := Contiguous.drop h (k := index - state.snapshot.lastIncludedIndex) (by omega)
  rwa [show state.snapshot.lastIncludedIndex + (index - state.snapshot.lastIncludedIndex) = index
    by omega] at hdrop

lemma startVoters_of_valid (h : validSnapshot snapshot m = true) :
    startVoters boot snapshot = snapshot.voters :=
  if_pos (validSnapshot_index h).1

lemma RaftNode.WellFormed.compacted (h : n.WellFormed boot) {checkpoint : DerivedMembership}
    (hc : Compactable n snapshot checkpoint) : (n.compacted snapshot).WellFormed boot := by
  have happ := h.state.applied_le_commit
  have hcl := h.state.commit_le_last
  have hap := hc.applied
  obtain ⟨hcont, hlen⟩ := contiguous_drop h.state.contiguous hc.newer (by omega)
  have hterm : snapshot.lastIncludedTerm ≤ n.state.currentTerm := by
    have hterm := hc.term
    rw [n.state.termAt_of_gt h.state.contiguous _ hc.newer, Option.map_eq_some_iff] at hterm
    obtain ⟨entry, hentry, heq⟩ := hterm
    exact heq ▸ (h.state.entries entry (mem_of_getElem? hentry)).term_le
  refine ⟨h.id_ne_zero, ?_, ?_, ?_, ?_, h.term_ne_zero, fun hrole => ?_⟩
  · exact h.state.withSnapshot hcont (fun e he => mem_of_mem_drop he) (by simp) hap happ
      (by omega) hc.valid hterm hc.fits
  · exact (startVoters_of_valid hc.valid).symm
  · have hcut := deriveMembership_cut (hap.trans happ) ?_ hc.derived hc.stable
      (by rw [take_append_drop]; exact h.derived)
    · rw [← hc.voters] at hcut
      exact hcut
    · intro entry he
      have := (h.state.contiguous.take _).index_of_mem he
      rw [length_take] at this
      have hoffset : n.state.offsetFor snapshot.lastIncludedIndex + 1 =
          snapshot.lastIncludedIndex - n.state.snapshot.lastIncludedIndex := by
        have := hc.newer
        unfold offsetFor
        omega
      omega
  · intro r hp
    rw [show (n.compacted snapshot).pendingSnapshot = n.pendingSnapshot from rfl, hc.noPending]
      at hp
    cases hp
  · have htracked := h.tracked hrole
    have hlast : (n.compacted snapshot).state.lastIndex = n.state.lastIndex := by
      rw [← hlen]
      exact @lastIndex_eq (n.compacted snapshot).state hcont
    rw [hlast]
    exact htracked

/-- The log that an installed snapshot leaves. -/
lemma retainedAfter_spec (hstate : StateWellFormed n.limits n.state)
    (hnewer : n.state.snapshot.lastIncludedIndex < snapshot.lastIncludedIndex)
    (hagrees : snapshot.lastIncludedIndex < n.state.commitIndex →
      n.state.termAt snapshot.lastIncludedIndex = some snapshot.lastIncludedTerm) :
    Contiguous snapshot.lastIncludedIndex (retainedAfter n.state snapshot) ∧
      (∀ entry ∈ retainedAfter n.state snapshot, entry ∈ n.state.log) ∧
      (retainedAfter n.state snapshot).length ≤ n.state.log.length ∧
      max n.state.commitIndex snapshot.lastIncludedIndex ≤
        snapshot.lastIncludedIndex + (retainedAfter n.state snapshot).length := by
  have hcl := hstate.commit_le_last
  unfold retainedAfter
  split
  · rename_i hretain
    obtain ⟨hcont, _⟩ := contiguous_drop hstate.contiguous hnewer hretain.2.le
    exact ⟨hcont, fun _ he => mem_of_mem_drop he, by simp, by omega⟩
  · rename_i hretain
    refine ⟨Contiguous.nil _, by simp, by simp, ?_⟩
    simp only [not_and, not_lt] at hretain
    by_contra hlt
    simp only [length_nil] at hlt
    have hbelow : snapshot.lastIncludedIndex < n.state.commitIndex := by omega
    have := hretain (hagrees hbelow)
    omega

lemma RaftNode.WellFormed.installed (h : n.WellFormed boot) {pending : InstallSnapshotRequest}
    {membership : DerivedMembership} (hinstalls : Installs n pending membership) :
    (n.installed pending.snapshot membership).WellFormed boot := by
  obtain ⟨hpending, hterm, hagrees, hderived, hfits⟩ := hinstalls
  have hreq := h.pending pending hpending
  obtain ⟨hcont, hsub, hlen, hcommit⟩ := retainedAfter_spec h.state hreq.newer hagrees
  have happ := h.state.applied_le_commit
  refine ⟨h.id_ne_zero, ?_, (startVoters_of_valid hreq.valid).symm, hderived,
    by simp [RaftNode.installed], h.term_ne_zero, fun hrole => ?_⟩
  · exact h.state.withSnapshot hcont hsub hlen (by omega) (by omega) hcommit hreq.valid
      (hterm ▸ hreq.term) hfits
  · rw [show (n.installed pending.snapshot membership).role = n.role from rfl,
      hreq.follows hterm] at hrole
    cases hrole

end Snapshot

end Chronos.Raft
