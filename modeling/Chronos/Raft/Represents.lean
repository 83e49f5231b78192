import Chronos.Raft.Configuration
import Chronos.Raft.WellFormed

/-!
The whole log behind a persistent state.

A node keeps only the part of its log behind its snapshot.  `Represents` ties a
persistent state to the log it would have without compaction; the membership that
the node derives is the one of the whole log (`Represents.derived`).

* `termOf`: the term at an index of a whole log, as `term_at` reports it.
* `Represents.append`, `Represents.compact`, `Represents.accept`,
  `Represents.install`: what the operations on a state do to the whole log.
-/

namespace Chronos.Raft

open List PersistentState

open Consensus (Agree)

/-- The term at an index of a whole log; index zero has term zero. -/
def termOf (log : List LogEntry) (index : ℕ) : Option ℕ :=
  if index = 0 then some 0 else log[index - 1]?.map LogEntry.term

@[simp] lemma termOf_zero (log : List LogEntry) : termOf log 0 = some 0 := rfl

variable {log : List LogEntry} {index : ℕ}

lemma termOf_of_ne_zero (h : index ≠ 0) :
    termOf log index = log[index - 1]?.map LogEntry.term := if_neg h

lemma termOf_succ (log : List LogEntry) (index : ℕ) :
    termOf log (index + 1) = log[index]?.map LogEntry.term := by
  simp [termOf]

lemma termOf_isSome_iff :
    (termOf log index).isSome ↔ index ≤ log.length := by
  cases index with
  | zero => simp
  | succ index =>
    have hlt : (log[index]?.map LogEntry.term).isSome ↔ index < log.length := by simp
    rw [termOf_succ, hlt]
    exact Nat.lt_iff_add_one_le

lemma termOf_eq_of_agree {a b : List LogEntry} {k : ℕ} (h : Agree k a b) (hi : index ≤ k) :
    termOf a index = termOf b index := by
  cases index with
  | zero => rfl
  | succ index => rw [termOf_succ, termOf_succ, h.getElem_eq (by omega)]

/-- Entries of one term at one index are behind the same history. -/
def Matches (a b : List LogEntry) : Prop :=
  ∀ index term, termOf a index = some term → termOf b index = some term → Agree index a b

/-- A persistent state holds what is left of a whole log behind its snapshot. -/
structure Represents (boot : List NodeId) (full : List LogEntry) (state : PersistentState) :
    Prop where
  contiguous : Contiguous 0 full
  within : state.snapshot.lastIncludedIndex ≤ full.length
  log : state.log = full.drop state.snapshot.lastIncludedIndex
  snapshotTerm : termOf full state.snapshot.lastIncludedIndex =
    some state.snapshot.lastIncludedTerm
  base : deriveMembership (boot.insertionSort (· ≤ ·))
    (full.take state.snapshot.lastIncludedIndex) state.snapshot.lastIncludedIndex
    maximumMembershipVoters = .ok (.base (startVoters boot state.snapshot))
  voters : state.snapshot.lastIncludedIndex ≠ 0 → state.snapshot.voters ≠ []

/-- What a leader's log `a` becomes in a node with log `full` that takes over the first `p`
entries. -/
def Adopts (a full : List LogEntry) (p : ℕ) (full' : List LogEntry) : Prop :=
  Agree p a full ∧ full' = full ∨ ¬ Agree p a full ∧ full' = a.take p

namespace Represents

variable {boot : List NodeId} {full : List LogEntry} {state : PersistentState}

lemma congr (h : Represents boot full state) {state' : PersistentState}
    (hlog : state'.log = state.log) (hsnapshot : state'.snapshot = state.snapshot) :
    Represents boot full state' where
  contiguous := h.contiguous
  within := hsnapshot ▸ h.within
  log := by rw [hlog, hsnapshot]; exact h.log
  snapshotTerm := hsnapshot ▸ h.snapshotTerm
  base := hsnapshot ▸ h.base
  voters := hsnapshot ▸ h.voters

/-- The empty state represents the empty log. -/
lemma empty (boot : List NodeId) : Represents boot [] {} where
  contiguous := .nil 0
  within := le_rfl
  log := rfl
  snapshotTerm := rfl
  base := rfl
  voters h := absurd rfl h

section Read

variable (h : Represents boot full state)
include h

lemma logContiguous : state.LogContiguous := by
  rw [PersistentState.LogContiguous, h.log]
  simpa using h.contiguous.drop h.within

lemma length_eq : state.snapshot.lastIncludedIndex + state.log.length = full.length := by
  have := h.within
  rw [h.log, length_drop]
  omega

lemma lastIndex : state.lastIndex = full.length := by
  rw [lastIndex_eq h.logContiguous, h.length_eq]

variable {index : ℕ}

/-- From the snapshot on, `term_at` reads the whole log. -/
lemma termAt (hi : state.snapshot.lastIncludedIndex ≤ index) :
    state.termAt index = termOf full index := by
  rcases hi.eq_or_lt with rfl | hlt
  · rw [h.snapshotTerm]
    by_cases h0 : state.snapshot.lastIncludedIndex = 0
    · have := h.snapshotTerm
      rw [h0, termOf_zero] at this
      rw [h0, termAt_zero, this]
    · exact termAt_snapshot state h0
  · rw [termAt_of_gt h.logContiguous index hlt, h.log, getElem?_drop, termOf_of_ne_zero (by omega)]
    congr 2
    omega

lemma termAt_eq_some {term : ℕ} (ht : state.termAt index = some term) :
    termOf full index = some term := by
  have hsome := (termAt_isSome_iff h.logContiguous index).mp (by rw [ht]; rfl)
  rcases hsome with rfl | ⟨hle, -⟩
  · rwa [termAt_zero] at ht
  · rw [← h.termAt hle, ht]

lemma lastTerm (voters : List NodeId) :
    state.lastTerm = Consensus.lastTerm (membership voters) full := by
  have hlen := h.length_eq
  unfold PersistentState.lastTerm Consensus.lastTerm
  cases hlast : state.log.getLast? with
  | none =>
    rw [getLast?_eq_none_iff] at hlast
    rw [hlast, length_nil, Nat.add_zero] at hlen
    have hterm := h.snapshotTerm
    rw [hlen] at hterm
    cases hfull : full.getLast? with
    | none =>
      rw [getLast?_eq_none_iff.mp hfull] at hterm
      simp only [length_nil, termOf_zero, Option.some.injEq] at hterm
      simp [← hterm]
    | some entry =>
      have hne : full ≠ [] := by rintro rfl; cases hfull
      have hpos := length_pos_iff.mpr hne
      rw [termOf_of_ne_zero (by omega), ← getLast?_eq_getElem?, hfull] at hterm
      simpa [membership] using hterm.symm
  | some entry =>
    have hne : state.log ≠ [] := by rintro heq; rw [heq] at hlast; cases hlast
    have hlt : state.snapshot.lastIncludedIndex < full.length := by
      have := length_pos_iff.mpr hne
      omega
    rw [h.log, getLast?_drop, if_neg (by omega)] at hlast
    rw [hlast]
    rfl

/-- The membership of a state is the one of the whole log. -/
lemma derived {c m : ℕ} {d : DerivedMembership} (hm : m ≤ maximumMembershipVoters)
    (hc : state.snapshot.lastIncludedIndex ≤ c)
    (hd : deriveMembership (startVoters boot state.snapshot) state.log c m = .ok d) :
    deriveMembership (boot.insertionSort (· ≤ ·)) full c maximumMembershipVoters = .ok d := by
  have hindex : ∀ entry ∈ full.take state.snapshot.lastIncludedIndex,
      entry.index ≤ state.snapshot.lastIncludedIndex := by
    intro entry he
    have := ((h.contiguous.take _).index_of_mem he).2
    rw [length_take] at this
    omega
  have hbase := deriveMembership_congr le_rfl hc hindex h.base
  rw [← take_append_drop state.snapshot.lastIncludedIndex full, deriveMembership_eq,
    deriveFrom_append]
  refine ⟨_, hbase, ?_⟩
  rw [← h.log]
  exact deriveMembership_mono hm hd

end Read

/-! ### Operations -/

section Write

variable (h : Represents boot full state)
include h

lemma append (entry : LogEntry) (hindex : entry.index = full.length + 1) :
    Represents boot (full ++ [entry]) { state with log := state.log ++ [entry] } where
  contiguous := by
    rw [Contiguous.append_iff, Contiguous.cons_iff]
    exact ⟨h.contiguous, by omega, .nil _⟩
  within := by
    rw [length_append]
    exact h.within.trans (Nat.le_add_right _ _)
  log := by
    rw [drop_append_of_le_length h.within, ← h.log]
  snapshotTerm := by
    have hagree : Agree full.length full (full ++ [entry]) :=
      Agree.of_extends (prefix_append _ _)
    rw [← termOf_eq_of_agree hagree h.within]
    exact h.snapshotTerm
  base := by
    rw [take_append_of_le_length h.within]
    exact h.base
  voters := h.voters

variable {snapshot : SnapshotMetadata}

/-- A compacted state represents the same log. -/
lemma compact {n : RaftNode} {checkpoint : DerivedMembership} (hn : n.state = state)
    (hbase : n.baseVoters = startVoters boot state.snapshot)
    (hlimit : n.limits.maximumVoters ≤ maximumMembershipVoters)
    (hlast : snapshot.lastIncludedIndex ≤ full.length) (hc : Compactable n snapshot checkpoint) :
    Represents boot full
      { state with
        log := state.log.drop (state.offsetFor snapshot.lastIncludedIndex + 1)
        snapshot := snapshot } := by
  subst hn
  have hnewer := hc.newer
  have hoffset : n.state.offsetFor snapshot.lastIncludedIndex + 1 =
      snapshot.lastIncludedIndex - n.state.snapshot.lastIncludedIndex := by
    unfold offsetFor
    omega
  have hvalid := validSnapshot_index hc.valid
  refine
    { contiguous := h.contiguous
      within := hlast
      log := ?_
      snapshotTerm := h.termAt_eq_some hc.term
      base := ?_
      voters := fun _ => hvalid.2.1 }
  · simp only
    rw [hoffset, h.log, drop_drop]
    congr 1
    omega
  · -- the checkpoint is derived from the old snapshot and the part in between
    have hprefix : Represents boot (full.take snapshot.lastIncludedIndex)
        { n.state with
          log := n.state.log.take (n.state.offsetFor snapshot.lastIncludedIndex + 1) } := by
      refine
        { contiguous := h.contiguous.take _
          within := by simp only [length_take]; omega
          log := ?_
          snapshotTerm := ?_
          base := ?_
          voters := h.voters }
      · simp only
        rw [hoffset, h.log, drop_take]
      · rw [← h.snapshotTerm]
        exact termOf_eq_of_agree ((Agree.refl hlast).take_right le_rfl).symm hnewer.le
      · simp only
        rw [take_take, Nat.min_eq_left hnewer.le]
        exact h.base
    have hderived := hprefix.derived hlimit hnewer.le (hbase ▸ hc.derived)
    rw [hderived, startVoters_of_valid hc.valid, hc.voters]
    exact congrArg _ ((derived_deriveMembership hc.derived).eq_base hc.stable)

variable {a full' : List LogEntry}

/-- The splice of an append request takes over the leader's entries. -/
lemma accept {log : List LogEntry} {request : AppendEntriesRequest} {k : ℕ}
    (hmatch : Matches a full)
    (hwithin : request.previousLogIndex + request.entries.length ≤ a.length)
    (hslice : request.entries = (a.drop request.previousLogIndex).take request.entries.length)
    (hterm : termOf a request.previousLogIndex = some request.previousLogTerm)
    (hprevious : state.appendPredecessorTerm request.previousLogIndex =
      some request.previousLogTerm) (hspliced : Spliced state request log k)
    (hadopts : Adopts a full (request.previousLogIndex + request.entries.length) full') :
    Represents boot full' { state with log := log } := by
  have hprev := hspliced.previous
  have hpred := appendPredecessorTerm_eq_some hprevious
  have hagree : Agree request.previousLogIndex a full :=
    hmatch _ _ hterm (h.termAt_eq_some hpred.2)
  -- the entries of the request, read off the leader's log
  have hentries : ∀ j, j < request.entries.length →
      request.entries[j]? = a[request.previousLogIndex + j]? := by
    intro j hj
    rw [hslice, getElem?_take_of_lt hj, getElem?_drop]
  have hheld : ∀ j, state.log[k + j]? = full[request.previousLogIndex + j]? := by
    intro j
    rw [h.log, getElem?_drop, hprev, Nat.add_assoc]
  rcases hspliced.outcome with ⟨hholds, rfl⟩ | ⟨j, hconflicts, rfl⟩
  · have hall : Agree (request.previousLogIndex + request.entries.length) a full := by
      have hlen := hholds.length_le hspliced.within
      have := h.length_eq
      refine Agree.of_getElem hwithin (by omega) fun i hi => ?_
      rcases Nat.lt_or_ge i request.previousLogIndex with hlt | hge
      · exact hagree.getElem_eq hlt
      · obtain ⟨j, rfl⟩ := Nat.exists_eq_add_of_le hge
        have hj : j < request.entries.length := by omega
        rw [← hentries j hj, ← hheld j, getElem?_eq_getElem hj]
        exact (hholds j _ (getElem?_eq_getElem hj)).symm
    rcases hadopts with ⟨-, rfl⟩ | ⟨hne, -⟩
    · exact h
    · exact absurd hall hne
  · obtain ⟨entry, hentry, hdiffers, -⟩ := hconflicts.differs
    have hj := (List.getElem?_eq_some_iff.mp hentry).1
    have hne : ¬ Agree (request.previousLogIndex + request.entries.length) a full := by
      intro hall
      rw [hheld, ← hall.getElem_eq (by omega), ← hentries j hj, hentry] at hdiffers
      exact hdiffers rfl
    rcases hadopts with ⟨hall, -⟩ | ⟨-, rfl⟩
    · exact absurd hall hne
    have hsnap : Agree state.snapshot.lastIncludedIndex
        (a.take (request.previousLogIndex + request.entries.length)) full :=
      ((hagree.mono hpred.1).symm.take_right (by omega)).symm
    have hsplit : a.take (request.previousLogIndex + request.entries.length) =
        full.take request.previousLogIndex ++ request.entries := by
      rw [take_add, ← hslice, hagree.take_eq]
    refine
      { contiguous := ?_
        within := hsnap.left_le
        log := ?_
        snapshotTerm := (termOf_eq_of_agree hsnap le_rfl).trans h.snapshotTerm
        base := by rw [show _ = _ from hsnap.take_eq]; exact h.base
        voters := h.voters }
    · have hlen : (full.take request.previousLogIndex).length = request.previousLogIndex := by
        rw [length_take]
        exact Nat.min_eq_left hagree.right_le
      rw [hsplit, Contiguous.append_iff, hlen, Nat.zero_add, hprev]
      exact ⟨h.contiguous.take _, hspliced.contiguous⟩
    · have hcut : (full.take request.previousLogIndex).drop state.snapshot.lastIncludedIndex =
          state.log.take k := by
        rw [hprev, drop_take, h.log, Nat.add_sub_cancel_left]
      simp only
      rw [hsplit, drop_append_of_le_length, hcut]
      rw [length_take]
      have := hagree.right_le
      omega

/-- The installation of a snapshot takes over the leader's entries up to it. -/
lemma install {m : ℕ} (ha : Contiguous 0 (a.take snapshot.lastIncludedIndex))
    (hmatch : Matches a full)
    (hnewer : state.snapshot.lastIncludedIndex < snapshot.lastIncludedIndex)
    (hwithin : snapshot.lastIncludedIndex ≤ a.length)
    (hterm : termOf a snapshot.lastIncludedIndex = some snapshot.lastIncludedTerm)
    (hbase : deriveMembership (boot.insertionSort (· ≤ ·)) (a.take snapshot.lastIncludedIndex)
      snapshot.lastIncludedIndex maximumMembershipVoters = .ok (.base snapshot.voters))
    (hvalid : validSnapshot snapshot m = true)
    (hadopts : Adopts a full snapshot.lastIncludedIndex full') :
    Represents boot full' (RaftNode.installedState state snapshot) := by
  have hagree : Agree snapshot.lastIncludedIndex a full' := by
    rcases hadopts with ⟨hagree, rfl⟩ | ⟨-, rfl⟩
    · exact hagree
    · exact (Agree.refl hwithin).take_right le_rfl
  refine
    { contiguous := ?_
      within := hagree.right_le
      log := ?_
      snapshotTerm := (termOf_eq_of_agree hagree le_rfl).symm.trans hterm
      base := ?_
      voters := fun _ => (validSnapshot_index hvalid).2.1 }
  · rcases hadopts with ⟨-, rfl⟩ | ⟨-, rfl⟩
    · exact h.contiguous
    · exact ha
  · have hread : state.termAt snapshot.lastIncludedIndex =
        termOf full snapshot.lastIncludedIndex := h.termAt hnewer.le
    simp only [RaftNode.installedState, RaftNode.retainedAfter]
    rw [hread, h.lastIndex]
    rcases hadopts with ⟨hsame, rfl⟩ | ⟨hdiffer, rfl⟩
    · rw [← termOf_eq_of_agree hsame le_rfl, hterm]
      split
      · rw [h.log, drop_drop]
        congr 1
        unfold offsetFor
        omega
      · rename_i hlast
        simp only [true_and, not_lt] at hlast
        exact (drop_eq_nil_of_le hlast).symm
    · rw [if_neg]
      · simp
      · rintro ⟨hsame, -⟩
        exact hdiffer (hmatch _ _ hterm hsame)
  · rw [show (RaftNode.installedState state snapshot).snapshot = snapshot from rfl,
      ← hagree.take_eq, startVoters_of_valid hvalid]
    exact hbase

end Write

end Represents

end Chronos.Raft
