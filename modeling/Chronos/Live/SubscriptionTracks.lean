import Chronos.Live.Subscription

/-!
What the state of a subscription says of the committed changes.

* `numbered`: changes with their delivery sequences.
* `Tracks`: past the boundary of the registration, the change with delivery sequence `n` is the
  `n`-th; the safe position is that of the last acknowledged sequence, and an active subscription
  has buffered every later change.
* `Tracks.append`, `Tracks.acknowledge`, `Tracks.poll`, `tracks_resumed`: the calls keep this.
-/

namespace Chronos.Live

open List SubscriptionManager

/-! ### Numbered changes -/

/-- Changes with the delivery sequences after a given one. -/
def numbered : ℕ → List CommittedChange → List DeliveryRecord
  | _, [] => []
  | last, change :: changes => ⟨last + 1, change⟩ :: numbered (last + 1) changes

lemma numbered_append (last : ℕ) (first second : List CommittedChange) :
    numbered last (first ++ second) =
      numbered last first ++ numbered (last + first.length) second := by
  induction first generalizing last with
  | nil => rfl
  | cons _ _ ih =>
    simp [numbered, ih, Nat.add_assoc, Nat.add_comm 1]

lemma length_numbered (last : ℕ) (changes : List CommittedChange) :
    (numbered last changes).length = changes.length := by
  induction changes generalizing last with
  | nil => rfl
  | cons _ _ ih => simp [numbered, ih]

lemma take_numbered (last count : ℕ) (changes : List CommittedChange) :
    (numbered last changes).take count = numbered last (changes.take count) := by
  induction changes generalizing last count with
  | nil => simp [numbered]
  | cons _ _ ih =>
    cases count with
    | zero => rfl
    | succ count => simp [numbered, ih]

/-- The sequences of numbered changes. -/
lemma map_sequence_numbered (last : ℕ) (changes : List CommittedChange) :
    (numbered last changes).map (·.deliverySequence) = List.range' (last + 1) changes.length := by
  induction changes generalizing last with
  | nil => rfl
  | cons _ _ ih => simp [numbered, ih, range'_succ]

/-- The record of a sequence has the change at its place. -/
lemma mem_numbered {last : ℕ} {changes : List CommittedChange} {record : DeliveryRecord}
    (hmem : record ∈ numbered last changes) :
    ∃ index, record.deliverySequence = last + index + 1 ∧
      changes[index]? = some record.change := by
  induction changes generalizing last with
  | nil => cases hmem
  | cons _ _ ih =>
    rcases mem_cons.1 hmem with rfl | hmem
    · exact ⟨0, rfl, rfl⟩
    · obtain ⟨index, _, hchange⟩ := ih hmem
      exact ⟨index + 1, by omega, by simpa using hchange⟩

/-- The last sequence of numbered changes. -/
lemma last_numbered_le (last : ℕ) (changes : List CommittedChange) :
    ((numbered last changes).getLast?.map (·.deliverySequence)).getD 0 ≤ last + changes.length := by
  cases hlast : (numbered last changes).getLast? with
  | none => exact Nat.zero_le _
  | some record =>
    obtain ⟨_, _, hchange⟩ := mem_numbered (List.mem_of_getLast? hlast)
    have hindex := (List.getElem?_eq_some_iff.1 hchange).1
    rw [Option.map_some, Option.getD_some]
    omega

/-! ### Positions -/

/-- The changes of a log have the positions of their places. -/
def AtPlaces (source : SubscriptionSource) (committed : List CommittedChange) : Prop :=
  ∀ index change, committed[index]? = some change → change.position = source.position (index + 1)

section Places

variable {source : SubscriptionSource} {committed : List CommittedChange} {change : CommittedChange}

lemma AtPlaces.append (hplaces : AtPlaces source committed)
    (hposition : change.position = source.position (committed.length + 1)) :
    AtPlaces source (committed ++ [change]) := by
  intro index found hfound
  rcases Nat.lt_trichotomy index committed.length with hlt | rfl | hgt
  · rw [getElem?_append_left hlt] at hfound
    exact hplaces index found hfound
  · rw [getElem?_append_right le_rfl, Nat.sub_self] at hfound
    cases Option.some.inj hfound
    exact hposition
  · rw [getElem?_eq_none (by simpa using Nat.succ_le_of_lt hgt)] at hfound
    cases hfound

variable {count : ℕ}

section

variable (hplaces : AtPlaces source committed)
include hplaces

lemma AtPlaces.le_of_mem_drop (hmem : change ∈ committed.drop count) :
    count < change.position.recordSequence ∧
      change.position.recordSequence ≤ committed.length := by
  obtain ⟨_, hindex⟩ := List.mem_iff_getElem?.1 hmem
  rw [List.getElem?_drop] at hindex
  have hlt := (List.getElem?_eq_some_iff.1 hindex).1
  rw [hplaces _ _ hindex]
  simp only [SubscriptionSource.position]
  omega

lemma AtPlaces.le_of_mem_take (hmem : change ∈ committed.take count) :
    change.position.recordSequence ≤ count := by
  obtain ⟨_, hindex⟩ := List.mem_iff_getElem?.1 hmem
  rw [getElem?_take] at hindex
  split_ifs at hindex with hlt
  rw [hplaces _ _ hindex]
  exact hlt

/-- The retained changes past a position are all the changes past it, unless it has been dropped. -/
lemma AtPlaces.filter_drop {dropped safe : ℕ}
    (hdropped : dropped ≤ safe ∨ safe = committed.length) :
    (committed.drop dropped).filter (safe < ·.position.recordSequence) = committed.drop safe := by
  rcases hdropped with hle | rfl
  · have hsplit : committed.drop dropped =
        (committed.take safe).drop dropped ++ committed.drop safe := by
      conv_lhs => rw [← take_append_drop safe committed]
      rw [drop_append]
      by_cases hlength : safe ≤ committed.length
      · rw [length_take, min_eq_left hlength, Nat.sub_eq_zero_of_le hle, drop_zero]
      · rw [drop_eq_nil_of_le (show committed.length ≤ safe by omega), drop_nil]
    rw [hsplit, filter_append, filter_eq_nil_iff.2, filter_eq_self.2, nil_append]
    · intro change hmem
      simpa using (hplaces.le_of_mem_drop hmem).1
    · intro change hmem
      simpa using hplaces.le_of_mem_take (mem_of_mem_drop hmem)
  · rw [drop_length, filter_eq_nil_iff]
    intro _ hmem
    simpa using (hplaces.le_of_mem_drop hmem).2

end

end Places

/-! ### One subscription -/

/-- An active subscription has buffered the changes past its last acknowledged one. -/
structure Buffers (committed : List CommittedChange) (delivered boundary : ℕ)
    (state : SubscriptionState) : Prop where
  buffered : state.buffered = numbered state.lastAcknowledgedSequence
    (committed.drop (boundary + state.lastAcknowledgedSequence))
  assigned : boundary + state.lastAssignedSequence = committed.length
  acknowledged_le : state.lastAcknowledgedSequence ≤ state.lastPolledSequence
  polled_le : state.lastPolledSequence ≤ state.lastAssignedSequence
  polled : state.lastPolledSequence ≤ delivered

/-- What the state of an identity says of the changes past its boundary. -/
structure Tracks (source : SubscriptionSource) (committed : List CommittedChange)
    (delivered : ℕ) (id : Uuid) (boundary : ℕ) (state : SubscriptionState) : Prop where
  id_eq : state.request.subscriptionId = id
  id_ne : id ≠ 0
  schemaId : state.request.schemaId = source.schemaId
  safe : state.safePosition = source.position (boundary + state.lastAcknowledgedSequence)
  safe_le : boundary + state.lastAcknowledgedSequence ≤ committed.length
  acknowledged : state.lastAcknowledgedSequence ≤ delivered
  buffers : state.active = true → Buffers committed delivered boundary state

section Tracks

variable {source : SubscriptionSource} {committed : List CommittedChange}
  {delivered : ℕ} {id : Uuid} {boundary : ℕ} {state : SubscriptionState}

lemma Tracks.mono (htracks : Tracks source committed delivered id boundary state)
    {delivered' : ℕ} (hle : delivered ≤ delivered') :
    Tracks source committed delivered' id boundary state :=
  { htracks with
    acknowledged := htracks.acknowledged.trans hle
    buffers := fun hactive =>
      { htracks.buffers hactive with polled := (htracks.buffers hactive).polled.trans hle } }

variable {phase : SubscriptionPhase}

@[simp] lemma ended_active (hsnapshot : phase ≠ .snapshot) (hlive : phase ≠ .live) :
    (state.ended phase).active = false := by
  simp [SubscriptionState.ended, SubscriptionState.active, hsnapshot, hlive]

section

variable (htracks : Tracks source committed delivered id boundary state)
include htracks

lemma Tracks.ended (hsnapshot : phase ≠ .snapshot) (hlive : phase ≠ .live) :
    Tracks source committed delivered id boundary (state.ended phase) where
  __ := htracks
  buffers hactive := by simp [hsnapshot, hlive] at hactive

/-- A later change does not move a subscription that is not active. -/
lemma Tracks.of_inactive (hactive : state.active = false) (change : CommittedChange) :
    Tracks source (committed ++ [change]) delivered id boundary state :=
  { htracks with
    safe_le := htracks.safe_le.trans (by simp)
    buffers := fun h => by simp [hactive] at h }

/-- A change is buffered or ends the subscription. -/
lemma Tracks.append (manager : SubscriptionManager) (change : CommittedChange) :
    Tracks source (committed ++ [change]) delivered id boundary
      (if state.active then manager.append change state else state) := by
  by_cases hactive : state.active = true
  · have hbuffers := htracks.buffers hactive
    rw [if_pos hactive, SubscriptionManager.append]
    split_ifs with hover
    · exact (htracks.ended (by decide) (by decide)).of_inactive
        (ended_active (by decide) (by decide)) change
    · refine ⟨htracks.id_eq, htracks.id_ne, htracks.schemaId, htracks.safe,
        htracks.safe_le.trans (by simp), htracks.acknowledged, fun _ => ?_⟩
      have hle := htracks.safe_le
      have hassigned := hbuffers.assigned
      refine ⟨?_, by simp only [length_append, length_singleton]; omega,
        hbuffers.acknowledged_le, hbuffers.polled_le.trans (Nat.le_succ _), hbuffers.polled⟩
      simp only
      rw [drop_append_of_le_length hle, numbered_append, hbuffers.buffered, length_drop]
      simp only [numbered]
      congr 3
      omega
  · rw [if_neg hactive]
    exact htracks.of_inactive (Bool.eq_false_iff.2 hactive) change

/-- A change of another schema ends the active subscriptions. -/
lemma Tracks.schemaChanged (change : CommittedChange) :
    Tracks source (committed ++ [change]) delivered id boundary
      (if state.active then state.ended .schemaChanged else state) := by
  by_cases hactive : state.active = true
  · rw [if_pos hactive]
    exact (htracks.ended (by decide) (by decide)).of_inactive
      (ended_active (by decide) (by decide)) change
  · rw [if_neg hactive]
    exact htracks.of_inactive (Bool.eq_false_iff.2 hactive) change

lemma Tracks.live (hphase : state.phase = .snapshot) :
    Tracks source committed delivered id boundary { state with phase := .live } :=
  ⟨htracks.id_eq, htracks.id_ne, htracks.schemaId, htracks.safe, htracks.safe_le,
    htracks.acknowledged, fun _ =>
      have hbuffers := htracks.buffers (by simp [SubscriptionState.active, hphase])
      ⟨hbuffers.buffered, hbuffers.assigned, hbuffers.acknowledged_le, hbuffers.polled_le,
        hbuffers.polled⟩⟩

end

variable {last : ℕ}

section

variable (htracks : Tracks source committed delivered id boundary state)
  (hactive : state.active = true) (count : ℕ)
include htracks hactive count

/-- A poll moves the last polled sequence to that of its last record. -/
lemma Tracks.poll
    (hlast : ((state.buffered.take count).getLast?.map (·.deliverySequence)).getD 0 = last) :
    Tracks source committed (max delivered last) id boundary
      { state with lastPolledSequence := max state.lastPolledSequence last } := by
  have hbuffers := htracks.buffers hactive
  have hle : last ≤ state.lastAssignedSequence := by
    rw [← hlast, hbuffers.buffered, take_numbered]
    refine (last_numbered_le _ _).trans ?_
    have hassigned := hbuffers.assigned
    have hsafe := htracks.safe_le
    rw [length_take, length_drop]
    omega
  have hmono := htracks.mono (le_max_left delivered last)
  refine ⟨hmono.id_eq, hmono.id_ne, hmono.schemaId, hmono.safe, hmono.safe_le, hmono.acknowledged,
    fun _ => ⟨hbuffers.buffered, hbuffers.assigned,
      hbuffers.acknowledged_le.trans (le_max_left _ _), max_le hbuffers.polled_le hle,
      max_le_max hbuffers.polled le_rfl⟩⟩

/-- The records of a poll follow the last acknowledged sequence, each with its change. -/
lemma Tracks.polled :
    (state.buffered.take count).map (·.deliverySequence) =
        List.range' (state.lastAcknowledgedSequence + 1) (state.buffered.take count).length ∧
      ∀ record ∈ state.buffered.take count,
        committed[boundary + record.deliverySequence - 1]? = some record.change := by
  have hbuffers := htracks.buffers hactive
  rw [hbuffers.buffered, take_numbered]
  refine ⟨by rw [map_sequence_numbered, length_numbered], fun record hmem => ?_⟩
  obtain ⟨_, hsequence, hchange⟩ := mem_numbered hmem
  rw [getElem?_take] at hchange
  split_ifs at hchange
  rw [List.getElem?_drop] at hchange
  rw [← hchange, hsequence]
  congr 1
  omega

end

variable {sequence : ℕ} {changes : List CommittedChange}

/-- The loop of an acknowledgement drops the records through the sequence and moves the safe
position to theirs. -/
lemma acknowledgeThrough_numbered (hplaces : ∀ index change, changes[index]? = some change →
      change.position = source.position (boundary + last + index + 1)) (hle : last ≤ sequence)
    (hsequence : sequence ≤ last + changes.length) (bytes : ℕ) :
    (acknowledgeThrough sequence (numbered last changes)
        (source.position (boundary + last)) bytes).1 =
      numbered sequence (changes.drop (sequence - last)) ∧
    (acknowledgeThrough sequence (numbered last changes)
        (source.position (boundary + last)) bytes).2.1 =
      source.position (boundary + sequence) := by
  induction changes generalizing last bytes with
  | nil =>
    obtain rfl : sequence = last := by simpa using le_antisymm hsequence hle
    simp [numbered, acknowledgeThrough]
  | cons change _ ih =>
    rw [numbered, acknowledgeThrough]
    simp only
    split_ifs with hpast
    · have hposition : change.position = source.position (boundary + (last + 1)) :=
        hplaces 0 change rfl
      rw [hposition, show sequence - last = (sequence - (last + 1)) + 1 by omega, drop_succ_cons]
      refine ih (fun index found hfound => ?_) hpast ?_ _
      · rw [hplaces (index + 1) found (by simpa using hfound)]
        congr 1
        omega
      · rw [length_cons] at hsequence
        omega
    · obtain rfl : sequence = last := by omega
      rw [Nat.sub_self, drop_zero]
      exact ⟨rfl, rfl⟩

lemma Tracks.acknowledge (htracks : Tracks source committed delivered id boundary state)
    (hplaces : AtPlaces source committed) (hactive : state.active = true)
    (hle : state.lastAcknowledgedSequence ≤ sequence)
    (hpolled : sequence ≤ state.lastPolledSequence) :
    Tracks source committed delivered id boundary
      { state with
        buffered := (acknowledgeThrough sequence state.buffered
          state.safePosition state.bufferedBytes).1
        safePosition := (acknowledgeThrough sequence state.buffered
          state.safePosition state.bufferedBytes).2.1
        bufferedBytes := (acknowledgeThrough sequence state.buffered
          state.safePosition state.bufferedBytes).2.2
        lastAcknowledgedSequence := sequence } := by
  have hbuffers := htracks.buffers hactive
  have hassigned := hbuffers.assigned
  have hpolledLe := hbuffers.polled_le
  have hpending : ∀ index change,
      (committed.drop (boundary + state.lastAcknowledgedSequence))[index]? = some change →
      change.position =
        source.position (boundary + state.lastAcknowledgedSequence + index + 1) := by
    intro _ _ hchange
    rw [List.getElem?_drop] at hchange
    exact hplaces _ _ hchange
  obtain ⟨hrest, hposition⟩ := acknowledgeThrough_numbered hpending hle
    (by rw [length_drop]; omega) state.bufferedBytes
  rw [← hbuffers.buffered, ← htracks.safe] at hrest hposition
  refine ⟨htracks.id_eq, htracks.id_ne, htracks.schemaId, hposition, by simp only; omega,
    hpolled.trans hbuffers.polled, fun _ => ⟨?_, hassigned, hpolled, hpolledLe, hbuffers.polled⟩⟩
  simp only
  rw [hrest, drop_drop]
  congr 2
  omega

/-- A registration starts at the last change. -/
lemma tracks_registered {request : SubscriptionRequest} (hid : request.subscriptionId ≠ 0)
    (hschema : request.schemaId = source.schemaId) {latest : SourcePosition}
    (hlatest : latest = source.position committed.length) (delivered : ℕ) :
    Tracks source committed delivered request.subscriptionId committed.length
      ⟨request, .snapshot, latest, latest, 0, 0, 0, 0, []⟩ :=
  ⟨rfl, hid, hschema, hlatest, le_rfl, Nat.zero_le _, fun _ =>
    ⟨by simp [numbered], rfl, le_rfl, le_rfl, Nat.zero_le _⟩⟩

/-- The loop of a resume ends where the changes past the safe position fit the buffer. -/
lemma exists_resumeChanges {manager : SubscriptionManager} {safe : ℕ} {state : SubscriptionState}
    (hschema : ∀ change ∈ changes, change.schemaId = state.request.schemaId ∧
      change.schemaVersion = state.request.schemaVersion)
    (hcount : state.buffered.length +
      (changes.filter (safe < ·.position.recordSequence)).length ≤
        manager.limits.maximumBufferedChangesPerSubscription)
    (hbytes : state.bufferedBytes +
      ((changes.filter (safe < ·.position.recordSequence)).map (·.size)).sum ≤
        manager.limits.maximumBufferedBytesPerSubscription)
    (hfew : state.lastAssignedSequence +
      (changes.filter (safe < ·.position.recordSequence)).length < u64Max) :
    ∃ result, manager.resumeChanges safe changes state = .ok result := by
  induction changes generalizing state with
  | nil => exact ⟨state, rfl⟩
  | cons change _ ih =>
    obtain ⟨hfirst, hrest⟩ := forall_mem_cons.1 hschema
    rw [resumeChanges]
    by_cases hskip : change.position.recordSequence ≤ safe
    · rw [filter_cons_of_neg (by simpa using hskip)] at hcount hbytes hfew
      rw [if_pos hskip]
      exact ih hrest hcount hbytes hfew
    · rw [filter_cons_of_pos (by simpa using hskip)] at hcount hbytes hfew
      simp only [length_cons, map_cons, sum_cons] at hcount hbytes hfew
      have hbuffer : manager.canBuffer state change.size = true := by
        rw [canBuffer, Bool.and_eq_true, decide_eq_true_eq, decide_eq_true_eq]
        omega
      have hroom : ¬(state.lastAssignedSequence = u64Max ∨
          ¬manager.canBuffer state change.size) := by
        rw [not_or, not_not]
        exact ⟨by omega, hbuffer⟩
      rw [if_neg hskip, if_neg (by simp [hfirst]), if_neg (by simp [hbuffer]),
        SubscriptionManager.append, if_neg hroom]
      refine ih hrest ?_ ?_ ?_
      · rw [length_append, length_singleton]
        omega
      · simp only
        omega
      · simp only
        omega

/-- The loop of a resume buffers the changes past the safe position. -/
lemma resumeChanges_eq_ok {manager : SubscriptionManager} {safe : ℕ}
    {state result : SubscriptionState} (h : manager.resumeChanges safe changes state = .ok result)
    (hfew : state.lastAssignedSequence +
      (changes.filter (safe < ·.position.recordSequence)).length < u64Max) :
    ∃ bytes, result = { state with
      lastAssignedSequence := state.lastAssignedSequence +
        (changes.filter (safe < ·.position.recordSequence)).length
      bufferedBytes := bytes
      buffered := state.buffered ++ numbered state.lastAssignedSequence
        (changes.filter (safe < ·.position.recordSequence)) } := by
  induction changes generalizing state with
  | nil =>
    cases Except.ok.inj h
    exact ⟨result.bufferedBytes, by simp [numbered]⟩
  | cons change _ ih =>
    rw [resumeChanges] at h
    split_ifs at h with hskip hschema hbuffer
    · rw [filter_cons_of_neg (by simpa using hskip)] at hfew ⊢
      exact ih h hfew
    · rw [filter_cons_of_pos (by simpa using hskip)] at hfew ⊢
      rw [length_cons] at hfew ⊢
      have hroom : ¬(state.lastAssignedSequence = u64Max ∨
          ¬manager.canBuffer state change.size) := by
        simp only [Bool.not_eq_eq_eq_not] at hbuffer
        rw [not_or, not_not]
        exact ⟨by omega, by simpa using hbuffer⟩
      rw [SubscriptionManager.append, if_neg hroom] at h
      obtain ⟨bytes, rfl⟩ := ih h (by simp only; omega)
      refine ⟨bytes, ?_⟩
      simp only [numbered, append_assoc, singleton_append, SubscriptionState.mk.injEq,
        true_and, and_true]
      omega

end Tracks

end Chronos.Live
