import Chronos.Raft.Operations

/-!
Contiguous logs.

* `Contiguous s log`: the entries carry the indexes `s + 1, s + 2, …` in order.
* `lastIndex_eq`, `termAt_eq_some`: what the index functions of a state with a
  contiguous log compute.
* `firstConflict_spec`: the scan for a conflict stops at the first position that
  the log does not hold, and never at a committed one.
* `candidateLog_spec`: the spliced log is the old log, if that holds every entry
  already, and otherwise the old prefix followed by the entries.
-/

namespace Chronos.Raft

open List

/-- The entries of `log` carry the indexes behind `s`, in order. -/
def Contiguous (s : ℕ) (log : List LogEntry) : Prop :=
  ∀ k entry, log[k]? = some entry → entry.index = s + k + 1

namespace Contiguous

variable {s : ℕ} {log rest : List LogEntry} {entry : LogEntry}

lemma nil (s : ℕ) : Contiguous s [] := by
  intro k entry h
  simp at h

lemma cons_iff : Contiguous s (entry :: log) ↔ entry.index = s + 1 ∧ Contiguous (s + 1) log := by
  constructor
  · intro h
    refine ⟨h 0 entry rfl, fun k e he => ?_⟩
    have := h (k + 1) e (by simpa using he)
    omega
  · rintro ⟨hentry, h⟩ k e he
    cases k with
    | zero =>
      simp only [getElem?_cons_zero, Option.some.injEq] at he
      rw [← he, hentry]
    | succ k =>
      have := h k e (by simpa using he)
      omega

lemma append_iff :
    Contiguous s (log ++ rest) ↔ Contiguous s log ∧ Contiguous (s + log.length) rest := by
  induction log generalizing s with
  | nil => simp [nil]
  | cons _ log ih =>
    rw [cons_append, cons_iff, ih, cons_iff, and_assoc, length_cons]
    simp only [show s + 1 + log.length = s + (log.length + 1) by omega]

lemma take (h : Contiguous s log) (k : ℕ) : Contiguous s (log.take k) := by
  rw [← take_append_drop k log] at h
  exact (append_iff.mp h).1

lemma drop (h : Contiguous s log) {k : ℕ} (hk : k ≤ log.length) :
    Contiguous (s + k) (log.drop k) := by
  rw [← take_append_drop k log] at h
  simpa [hk] using (append_iff.mp h).2

lemma index_of_mem (h : Contiguous s log) (he : entry ∈ log) :
    s < entry.index ∧ entry.index ≤ s + log.length := by
  obtain ⟨k, hk, rfl⟩ := getElem_of_mem he
  have := h k _ (getElem?_eq_getElem hk)
  omega

end Contiguous

/-! ### The index functions -/

namespace PersistentState

variable {state : PersistentState}

/-- The log of a state is contiguous behind its snapshot. -/
def LogContiguous (state : PersistentState) : Prop :=
  Contiguous state.snapshot.lastIncludedIndex state.log

lemma lastIndex_eq (h : state.LogContiguous) :
    state.lastIndex = state.snapshot.lastIncludedIndex + state.log.length := by
  unfold lastIndex
  rw [getLast?_eq_getElem?]
  cases hlast : state.log[state.log.length - 1]? with
  | none =>
    have : state.log.length = 0 := by
      rw [getElem?_eq_none_iff] at hlast
      omega
    simp [this]
  | some entry =>
    have hlt : state.log.length - 1 < state.log.length := by
      by_contra hno
      rw [getElem?_eq_none (by omega)] at hlast
      cases hlast
    have := h _ entry hlast
    simp only
    omega

/-- Behind the snapshot the reported term is that of the log entry. -/
lemma termAt_of_gt (h : state.LogContiguous) (index : ℕ)
    (hi : state.snapshot.lastIncludedIndex < index) :
    state.termAt index =
      state.log[index - state.snapshot.lastIncludedIndex - 1]?.map LogEntry.term := by
  unfold termAt
  rw [if_neg (by omega), if_neg (by omega), offsetFor]
  split
  · rename_i hout
    rw [lastIndex_eq h] at hout
    rw [getElem?_eq_none (by omega)]
    rfl
  · rfl

lemma termAt_snapshot (state : PersistentState) (h : state.snapshot.lastIncludedIndex ≠ 0) :
    state.termAt state.snapshot.lastIncludedIndex = some state.snapshot.lastIncludedTerm := by
  rw [termAt, if_neg h, if_pos rfl]

@[simp] lemma termAt_zero (state : PersistentState) : state.termAt 0 = some 0 := by simp [termAt]

/-- An index is reported exactly when it is zero or retained. -/
lemma termAt_isSome_iff (h : state.LogContiguous) (index : ℕ) :
    (state.termAt index).isSome ↔
      index = 0 ∨ state.snapshot.lastIncludedIndex ≤ index ∧ index ≤ state.lastIndex := by
  rcases Nat.lt_trichotomy index state.snapshot.lastIncludedIndex with hlt | heq | hgt
  · unfold termAt
    by_cases h0 : index = 0
    · simp [h0]
    · rw [if_neg h0, if_neg (by omega), if_pos (.inl (by omega))]
      simp [h0]
      omega
  · subst heq
    have := lastIndex_eq h
    by_cases h0 : state.snapshot.lastIncludedIndex = 0
    · simp [h0]
    · rw [termAt_snapshot state h0]
      simp
      omega
  · rw [termAt_of_gt h index hgt, Option.isSome_map, isSome_getElem?, lastIndex_eq h]
    omega

variable {index term : ℕ}

lemma appendPredecessorTerm_eq_some (h : state.appendPredecessorTerm index = some term) :
    state.snapshot.lastIncludedIndex ≤ index ∧ state.termAt index = some term := by
  unfold appendPredecessorTerm at h
  split_ifs at h
  exact ⟨by omega, h⟩

/-- The position of a matching predecessor. -/
lemma appendPredecessorTerm_le (hc : state.LogContiguous)
    (h : state.appendPredecessorTerm index = some term) :
    state.snapshot.lastIncludedIndex ≤ index ∧ index ≤ state.lastIndex := by
  obtain ⟨hle, hterm⟩ := appendPredecessorTerm_eq_some h
  have hsome : (state.termAt index).isSome := by simp [hterm]
  rw [termAt_isSome_iff hc] at hsome
  omega

end PersistentState

/-- The log entry that a state retains at an index. -/
def PersistentState.entryAt (state : PersistentState) (index : ℕ) : Option LogEntry :=
  if state.snapshot.lastIncludedIndex < index then
    state.log[index - state.snapshot.lastIncludedIndex - 1]?
  else none

variable {state : PersistentState}

lemma PersistentState.termAt_eq_entryAt (h : state.LogContiguous) {index : ℕ}
    (hi : state.snapshot.lastIncludedIndex < index) :
    state.termAt index = (state.entryAt index).map LogEntry.term := by
  rw [state.termAt_of_gt h index hi, entryAt, if_pos hi]

/-! ### Entries of a request -/

variable {limits : RaftLimits} {term expected : ℕ} {entry : LogEntry} {entries : List LogEntry}

lemma validateEntries_cons (h : validateEntries limits term expected (entry :: entries) = .ok ()) :
    (entry.index = expected + 1 ∧ entry.index ≠ u64Max ∧ entry.term ≠ 0 ∧ entry.term ≤ term ∧
      entry.type ≠ 0 ∧ entry.payload.length ≤ limits.maximumEntryBytes ∧
      (entry.type = leaderNoopEntryType → entry.payload = [])) ∧
      validateEntries limits term (expected + 1) entries = .ok () := by
  rw [validateEntries] at h
  split_ifs at h with _ hguard hnoop
  simp only [not_or, not_not, not_lt] at hguard
  simp only [not_and, not_not] at hnoop
  obtain ⟨h1, h2, h3, h4, h5, h6⟩ := hguard
  exact ⟨⟨h1, h2, h3, h4, h5, h6, hnoop⟩, h⟩

/-- Validated entries are contiguous behind the previous position. -/
lemma validateEntries_contiguous (h : validateEntries limits term expected entries = .ok ()) :
    Contiguous expected entries := by
  induction entries generalizing expected with
  | nil => exact Contiguous.nil _
  | cons _ _ ih =>
    obtain ⟨hentry, hrest⟩ := validateEntries_cons h
    exact Contiguous.cons_iff.mpr ⟨hentry.1, ih hrest⟩

/-- The per-entry conditions that every stored entry meets; `create` and `receive` test the same
ones. -/
structure EntryValid (limits : RaftLimits) (currentTerm : ℕ) (entry : LogEntry) : Prop where
  index : entry.index ≠ u64Max
  term_pos : entry.term ≠ 0
  term_le : entry.term ≤ currentTerm
  type : entry.type ≠ 0
  payload : entry.payload.length ≤ limits.maximumEntryBytes
  noop : entry.type = leaderNoopEntryType → entry.payload = []

lemma EntryValid.mono {t t' : ℕ} (h : EntryValid limits t entry) (ht : t ≤ t') :
    EntryValid limits t' entry :=
  { h with term_le := h.term_le.trans ht }

lemma validateEntries_valid (h : validateEntries limits term expected entries = .ok ()) :
    ∀ entry ∈ entries, EntryValid limits term entry := by
  induction entries generalizing expected with
  | nil => simp
  | cons _ _ ih =>
    obtain ⟨⟨-, h2, h3, h4, h5, h6, h7⟩, hrest⟩ := validateEntries_cons h
    intro e he
    rcases mem_cons.mp he with rfl | he
    · exact ⟨h2, h3, h4, h5, h6, h7⟩
    · exact ih hrest e he


/-! ### Splicing -/

section Splice

variable {s k : ℕ} {log entries : List LogEntry} {entry : LogEntry}

section

variable (h : Contiguous s log)
include h

lemma Contiguous.find_index (k : ℕ) :
    log.find? (·.index = s + k + 1) = log[k]? := by
  induction log generalizing s k with
  | nil => simp
  | cons _ _ ih =>
    obtain ⟨he, hlog⟩ := Contiguous.cons_iff.mp h
    cases k with
    | zero => simp [he]
    | succ k =>
      rw [find?_cons_of_neg (by simp [he])]
      have := ih hlog k
      rw [show s + 1 + k + 1 = s + (k + 1) + 1 by omega] at this
      simpa using this

lemma Contiguous.takeWhile_index (k : ℕ) :
    log.takeWhile (·.index ≠ s + k + 1) = log.take k := by
  induction log generalizing s k with
  | nil => simp
  | cons _ _ ih =>
    obtain ⟨he, hlog⟩ := Contiguous.cons_iff.mp h
    cases k with
    | zero => simp [he]
    | succ k =>
      rw [takeWhile_cons_of_pos (by simp [he])]
      have := ih hlog k
      rw [show s + 1 + k + 1 = s + (k + 1) + 1 by omega] at this
      rw [this, take_succ_cons]

lemma Contiguous.any_index (k : ℕ) :
    log.any (·.index = s + k + 1) = decide (k < log.length) := by
  rw [Bool.eq_iff_iff]
  simp only [any_eq_true, decide_eq_true_eq]
  constructor
  · rintro ⟨e, he, hidx⟩
    have := h.index_of_mem he
    omega
  · intro hk
    exact ⟨log[k], getElem_mem hk, h k _ (getElem?_eq_getElem hk)⟩

/-- An entry that the log holds with the same term is skipped. -/
lemma spliceEntry_of_held (he : entry.index = s + k + 1) {held : LogEntry}
    (hheld : log[k]? = some held) (hterm : held.term = entry.term) :
    spliceEntry log entry = log := by
  have hk : k < log.length := by
    by_contra hno
    rw [getElem?_eq_none (by omega)] at hheld
    cases hheld
  have hkept : eraseConflict log entry = log := by
    rw [eraseConflict, he, h.find_index k, hheld]
    simp [hterm]
  have hany := h.any_index k
  rw [← he] at hany
  rw [spliceEntry, hkept, hany, if_pos (by simpa using hk)]

/-- An entry that the log does not hold replaces everything from its index on. -/
lemma spliceEntry_of_not_held (he : entry.index = s + k + 1) (hk : k ≤ log.length)
    (hterm : log[k]?.map LogEntry.term ≠ some entry.term) :
    spliceEntry log entry = log.take k ++ [entry] := by
  have hkept : eraseConflict log entry = log.take k := by
    rw [eraseConflict, he, h.find_index k]
    cases hfound : log[k]? with
    | none =>
      rw [getElem?_eq_none_iff] at hfound
      rw [take_of_length_le hfound]
    | some found =>
      rw [hfound] at hterm
      simp only [Option.map_some, ne_eq, Option.some.injEq] at hterm
      simp only [ne_eq, hterm, not_false_eq_true, if_true]
      exact h.takeWhile_index k
  have hany := (h.take k).any_index k
  rw [← he, length_take, Nat.min_eq_left hk] at hany
  rw [spliceEntry, hkept, hany, if_neg (by simp)]

/-- Entries directly behind the log are appended. -/
lemma candidateLog_append (hentries : Contiguous (s + log.length) entries) :
    candidateLog log entries = log ++ entries := by
  induction entries generalizing log with
  | nil => simp [candidateLog]
  | cons entry _ ih =>
    obtain ⟨hentry, hrest⟩ := Contiguous.cons_iff.mp hentries
    have hstep : spliceEntry log entry = log ++ [entry] := by
      rw [spliceEntry_of_not_held h hentry le_rfl (by simp), take_length]
    have hpushed : Contiguous s (log ++ [entry]) :=
      Contiguous.append_iff.mpr ⟨h, Contiguous.cons_iff.mpr ⟨hentry, Contiguous.nil _⟩⟩
    rw [candidateLog, foldl_cons, hstep]
    have := ih hpushed (by simpa [Nat.add_assoc] using hrest)
    rw [candidateLog] at this
    rw [this, append_assoc, singleton_append]

end

end Splice

/-- The entries from position `k` of the log on are those of the request. -/
def Holds (log : List LogEntry) (k : ℕ) (entries : List LogEntry) : Prop :=
  ∀ j entry, entries[j]? = some entry → log[k + j]? = some entry

variable {log : List LogEntry} {k : ℕ}

lemma holds_cons :
    Holds log k (entry :: entries) ↔ log[k]? = some entry ∧ Holds log (k + 1) entries := by
  constructor
  · intro h
    refine ⟨by simpa using h 0 entry rfl, fun j e he => ?_⟩
    have := h (j + 1) e (by simpa using he)
    rwa [show k + (j + 1) = k + 1 + j by omega] at this
  · rintro ⟨h0, h⟩ j e he
    cases j with
    | zero => simpa [← (by simpa using he : entry = e)] using h0
    | succ j =>
      have := h j e (by simpa using he)
      rwa [show k + (j + 1) = k + 1 + j by omega]

/-- How an append request meets a log whose matching predecessor is at position `k`: the log holds
the entries before position `j`, and another term, or nothing, at the position of the next, which
is not committed. -/
structure Conflicts (log : List LogEntry) (k commit : ℕ) (entries : List LogEntry) (j : ℕ) :
    Prop where
  held : Holds log k (entries.take j)
  differs : ∃ entry, entries[j]? = some entry ∧ log[k + j]?.map LogEntry.term ≠ some entry.term ∧
    commit < entry.index

variable {conflict : Option ℕ}

/-- The scan for a conflict finds the first position that the log does not hold. -/
lemma firstConflict_spec (hlog : state.LogContiguous)
    (hcommit : state.commitIndex ≤ state.lastIndex) {position : ℕ}
    (hentries : Contiguous (state.snapshot.lastIncludedIndex + k) entries)
    (h : firstConflict state position entries = .ok conflict) :
    conflict = none ∧ Holds state.log k entries ∨
      ∃ j, conflict = some (position + j) ∧
        Conflicts state.log k state.commitIndex entries j := by
  induction entries generalizing k position with
  | nil =>
    cases h
    exact .inl ⟨rfl, fun j e he => by simp at he⟩
  | cons entry _ ih =>
    obtain ⟨hentry, hrest⟩ := Contiguous.cons_iff.mp hentries
    have hterm := state.termAt_of_gt hlog entry.index (by omega)
    have hoffset : entry.index - state.snapshot.lastIncludedIndex - 1 = k := by omega
    rw [hoffset] at hterm
    rw [firstConflict, PersistentState.offsetFor, hoffset] at h
    by_cases heq : state.termAt entry.index = some entry.term
    · -- the log has this term here, so it holds this very entry
      rw [if_pos heq] at h
      split_ifs at h with hheld
      rw [not_not] at hheld
      obtain ⟨hnone, hholds⟩ | ⟨j, hj, hconflict⟩ := ih (k := k + 1) hrest h
      · exact .inl ⟨hnone, holds_cons.mpr ⟨hheld, hholds⟩⟩
      · refine .inr ⟨j + 1, by rw [hj]; congr 1; omega, ?_, ?_⟩
        · rw [take_succ_cons]
          exact holds_cons.mpr ⟨hheld, hconflict.held⟩
        · obtain ⟨e, he, hdiff, hunc⟩ := hconflict.differs
          exact ⟨e, by simpa using he, by rwa [show k + (j + 1) = k + 1 + j by omega], hunc⟩
    · rw [if_neg heq] at h
      split_ifs at h with hguard
      cases h
      refine .inr ⟨0, rfl, fun j e he => by simp at he, entry, rfl,
        by rwa [Nat.add_zero, ← hterm], ?_⟩
      by_contra hle
      refine hguard ⟨fun hnone => ?_, by omega⟩
      have hsome := (state.termAt_isSome_iff hlog entry.index).mpr (.inr ⟨by omega, by omega⟩)
      rw [hnone] at hsome
      cases hsome

variable {s : ℕ}

/-- A log that holds every entry is not changed. -/
lemma candidateLog_of_holds (h : Contiguous s log) (hentries : Contiguous (s + k) entries)
    (hholds : Holds log k entries) : candidateLog log entries = log := by
  induction entries generalizing k with
  | nil => rfl
  | cons _ _ ih =>
    obtain ⟨hentry, hrest⟩ := Contiguous.cons_iff.mp hentries
    obtain ⟨hheld, hholds⟩ := holds_cons.mp hholds
    rw [candidateLog, foldl_cons, spliceEntry_of_held h hentry hheld rfl]
    exact ih (k := k + 1) hrest hholds

/-- A log in conflict with the entries keeps its prefix and takes them over. -/
lemma candidateLog_of_conflicts {commit j : ℕ} (h : Contiguous s log) (hk : k ≤ log.length)
    (hentries : Contiguous (s + k) entries) (hconflict : Conflicts log k commit entries j) :
    candidateLog log entries = log.take k ++ entries := by
  induction entries generalizing k j with
  | nil =>
    obtain ⟨e, he, -⟩ := hconflict.differs
    simp at he
  | cons entry entries ih =>
    obtain ⟨hentry, hrest⟩ := Contiguous.cons_iff.mp hentries
    rw [candidateLog, foldl_cons]
    obtain ⟨e, he, hdiff, hunc⟩ := hconflict.differs
    cases j with
    | zero =>
      obtain rfl : entry = e := by simpa using he
      rw [spliceEntry_of_not_held h hentry hk (by simpa using hdiff)]
      have hpushed : Contiguous s (log.take k ++ [entry]) := by
        refine Contiguous.append_iff.mpr ⟨h.take k, ?_⟩
        rw [length_take, Nat.min_eq_left hk]
        exact Contiguous.cons_iff.mpr ⟨hentry, Contiguous.nil _⟩
      have := candidateLog_append hpushed
        (by simpa [Nat.min_eq_left hk, Nat.add_assoc] using hrest : Contiguous _ entries)
      rw [candidateLog] at this
      rw [this, append_assoc, singleton_append]
    | succ j =>
      have hheld := hconflict.held
      rw [take_succ_cons] at hheld
      obtain ⟨h0, hheld⟩ := holds_cons.mp hheld
      have hlt : k < log.length := by
        by_contra hno
        rw [getElem?_eq_none (by omega)] at h0
        cases h0
      rw [spliceEntry_of_held h hentry h0 rfl]
      have := ih (k := k + 1) (by omega) hrest ⟨hheld, e, by simpa using he,
        by rwa [show k + 1 + j = k + (j + 1) by omega], hunc⟩
      rw [candidateLog] at this
      rw [this, ← take_append_getElem hlt, append_assoc, singleton_append]
      rw [getElem?_eq_getElem hlt, Option.some.injEq] at h0
      rw [h0]

/-- **The spliced log**: the old one if it holds every entry, and otherwise its prefix up to the
previous position followed by the entries. -/
theorem candidateLog_spec (hlog : state.LogContiguous)
    (hcommit : state.commitIndex ≤ state.lastIndex) (hk : k ≤ state.log.length)
    (hentries : Contiguous (state.snapshot.lastIncludedIndex + k) entries)
    (h : firstConflict state 0 entries = .ok conflict) :
    conflict = none ∧ Holds state.log k entries ∧ candidateLog state.log entries = state.log ∨
      ∃ j, conflict = some j ∧ Conflicts state.log k state.commitIndex entries j ∧
        candidateLog state.log entries = state.log.take k ++ entries := by
  obtain ⟨hnone, hholds⟩ | ⟨j, hj, hconflict⟩ := firstConflict_spec hlog hcommit hentries h
  · exact .inl ⟨hnone, hholds, candidateLog_of_holds hlog hentries hholds⟩
  · exact .inr ⟨j, by simpa using hj, hconflict,
      candidateLog_of_conflicts hlog hk hentries hconflict⟩

/-! ### Replication messages -/

section Replication

variable {id peer : NodeId} {state : PersistentState} {limits : RaftLimits} {nextIndex : Progress}
  {next commit : ℕ}

/-- A peer whose next entry is compacted gets the snapshot. -/
lemma replicationFor_snapshot (hnext : nextIndex peer = some next)
    (h : next ≤ state.snapshot.lastIncludedIndex) :
    replicationFor id state limits peer nextIndex commit =
      .installSnapshotRequest ⟨state.currentTerm, id, state.snapshot⟩ := by
  simp [replicationFor, hnext, h]

/-- Any other peer gets the entries from its next index on, up to the batch bound. -/
lemma replicationFor_append (hlog : state.LogContiguous) (hnext : nextIndex peer = some next)
    (h : state.snapshot.lastIncludedIndex < next) :
    replicationFor id state limits peer nextIndex commit =
      .appendEntriesRequest ⟨state.currentTerm, id, next - 1, (state.termAt (next - 1)).getD 0,
        (state.log.drop (next - 1 - state.snapshot.lastIncludedIndex)).take
          limits.maximumAppendEntries, commit⟩ := by
  have hoffset : state.offsetFor next = next - 1 - state.snapshot.lastIncludedIndex := by
    unfold PersistentState.offsetFor
    omega
  have hentries : (if next ≤ state.lastIndex then
      (state.log.drop (state.offsetFor next)).take limits.maximumAppendEntries else []) =
      (state.log.drop (next - 1 - state.snapshot.lastIncludedIndex)).take
        limits.maximumAppendEntries := by
    rw [hoffset]
    split
    · rfl
    · rw [PersistentState.lastIndex_eq hlog] at *
      rw [drop_of_length_le (by omega), take_nil]
  unfold replicationFor
  rw [hnext, Option.getD_some, if_neg (by omega), hentries]

end Replication

end Chronos.Raft
