import Chronos.Common.Runs
import Chronos.Rebalancing.Movement

/-!
Whole runs of a tablet movement.

* `Accepts`, `perform_spec`: a call fails and changes nothing, or has the effect of
  its kind.
* `Valid`: the record and the bytes pass the validation of a restart; every call
  keeps this, unless it moves the epoch past the end of `uint64`.
* `MovementRun`: a movement with the calls it has accepted.
* `tablet_movement_keeps_authority`: the bytes are a first part of the image, the
  two changes of the voters come in their order, and a restart changes nothing.
-/

namespace Chronos.Rebalancing

open List TabletMovement

open Schema (TabletId)
open Raft (NodeId)
open Runs (Along)

/-! ### Effects of a call -/

/-- The movement with the target among the voters. -/
def promoted (m : TabletMovement) : TabletMovement :=
  { m with
    state := { m.state with
      votingReplicas := (m.state.votingReplicas ++ [m.state.targetNode]).insertionSort (· ≤ ·)
      learners := []
      placementEpoch := nextEpoch m.state.placementEpoch
      phase := .targetPromoted } }

/-- The movement without the source among the voters. -/
def removed (m : TabletMovement) : TabletMovement :=
  { m with
    state := { m.state with
      votingReplicas := m.state.votingReplicas.erase m.state.sourceNode
      placementEpoch := nextEpoch m.state.placementEpoch
      phase := .complete } }

/-- The effect of an accepted call. -/
inductive Accepts (m : TabletMovement) : MovementCall → TabletMovement → Prop
  | beginSnapshot (metadata : SnapshotTransferMetadata) (hphase : m.state.phase = .addingTarget)
      (hgeneration : metadata.manifestGeneration ≠ 0) (hindex : metadata.appliedIndex ≠ 0)
      (hterm : metadata.appliedTerm ≠ 0) (htotal : metadata.totalBytes ≠ 0)
      (hbound : metadata.totalBytes ≤ m.limits.maximumSnapshotBytes) :
      Accepts m (.beginSnapshot metadata)
        ⟨{ m.state with
          snapshot := metadata, phase := .transferringSnapshot, receivedBytes := 0 }, m.limits, []⟩
  | retried (offset : ℕ) (bytes : List UInt8) (crc : ℕ) :
      Accepts m (.acceptSnapshotChunk offset bytes crc) m
  | appended (offset : ℕ) (bytes : List UInt8) (crc : ℕ)
      (hphase : m.state.phase = .transferringSnapshot) (hoffset : offset = m.state.receivedBytes)
      (hroom : offset + bytes.length ≤ m.state.snapshot.totalBytes) :
      Accepts m (.acceptSnapshotChunk offset bytes crc)
        ⟨{ m.state with receivedBytes := (m.snapshotBytes ++ bytes).length }, m.limits,
          m.snapshotBytes ++ bytes⟩
  | finishSnapshot (hphase : m.state.phase = .transferringSnapshot)
      (hlength : m.snapshotBytes.length = m.state.snapshot.totalBytes)
      (hcrc : crc32c m.snapshotBytes = m.state.snapshot.contentCrc32c) :
      Accepts m .finishSnapshot { m with state := { m.state with phase := .catchingUp } }
  | markCaughtUp (targetAppliedIndex : ℕ) (hphase : m.state.phase = .catchingUp) :
      Accepts m (.markCaughtUp targetAppliedIndex)
        { m with state := { m.state with phase := .ready } }
  | promoteTarget (hphase : m.state.phase = .ready) :
      Accepts m (.promoteTarget m.state.placementEpoch (nextEpoch m.state.placementEpoch))
        (promoted m)
  | removeSource (hphase : m.state.phase = .targetPromoted) :
      Accepts m (.removeSource m.state.placementEpoch (nextEpoch m.state.placementEpoch))
        (removed m)
  | restartSnapshotTransfer (hphase : m.state.phase = .transferringSnapshot) :
      Accepts m .restartSnapshotTransfer
        { m with state := { m.state with receivedBytes := 0 }, snapshotBytes := [] }
  | restart : Accepts m .restart m

variable {m m' : TabletMovement} {limits : TabletMovementLimits}

/-- A recovery returns the movement that it is given. -/
lemma recover_eq {record : TabletMovementRecord} {bytes : List UInt8}
    (hok : recover record bytes limits = .ok m) : m = ⟨record, limits, bytes⟩ := by
  obtain ⟨_, -, hok⟩ := Result.bind_eq_ok.1 hok
  cases hok
  rfl

/-- **What a call can do.**  It fails and changes nothing, or it has the effect of its kind. -/
lemma perform_spec (m : TabletMovement) (call : MovementCall) :
    (∃ status, m.perform call = (.error status, m)) ∨
      ∃ m', Accepts m call m' ∧ m.perform call = (.ok (), m') := by
  cases call with
  | beginSnapshot metadata =>
    simp only [perform, beginSnapshot]
    split
    · exact .inl ⟨_, rfl⟩
    · rename_i h
      simp only [ne_eq, not_or, not_not, not_lt, gt_iff_lt] at h
      obtain ⟨hphase, hgeneration, hindex, hterm, htotal, hbound⟩ := h
      exact .inr ⟨_, .beginSnapshot metadata hphase hgeneration hindex hterm htotal hbound, rfl⟩
  | acceptSnapshotChunk offset bytes crc =>
    simp only [perform, acceptSnapshotChunk]
    split
    · exact .inl ⟨_, rfl⟩
    rename_i h
    simp only [ne_eq, not_or, not_not, not_lt, gt_iff_lt] at h
    obtain ⟨hphase, -, -, _, _, -⟩ := h
    split
    · split
      · exact .inl ⟨_, rfl⟩
      · exact .inr ⟨_, .retried offset bytes crc, rfl⟩
    split
    · exact .inl ⟨_, rfl⟩
    · rename_i hgap
      exact .inr ⟨_, .appended offset bytes crc hphase (not_not.1 hgap) (by omega), rfl⟩
  | finishSnapshot =>
    simp only [perform, finishSnapshot]
    split
    · exact .inl ⟨_, rfl⟩
    rename_i h
    simp only [ne_eq, not_or, not_not] at h
    split
    · exact .inl ⟨_, rfl⟩
    · rename_i hcrc
      exact .inr ⟨_, .finishSnapshot h.1 h.2 (not_not.1 hcrc), rfl⟩
  | markCaughtUp index =>
    simp only [perform, markCaughtUp]
    split
    · exact .inl ⟨_, rfl⟩
    · rename_i h
      simp only [ne_eq, not_or, not_not] at h
      exact .inr ⟨_, .markCaughtUp index h.1, rfl⟩
  | promoteTarget expectedEpoch newEpoch =>
    simp only [perform, promoteTarget]
    split
    · exact .inl ⟨_, rfl⟩
    · rename_i h
      simp only [ne_eq, not_or, not_not] at h
      obtain ⟨hphase, rfl, rfl⟩ := h
      exact .inr ⟨_, .promoteTarget hphase, rfl⟩
  | removeSource expectedEpoch newEpoch =>
    simp only [perform, removeSource]
    split
    · exact .inl ⟨_, rfl⟩
    rename_i h
    simp only [ne_eq, not_or, not_not] at h
    obtain ⟨hphase, rfl, rfl⟩ := h
    split
    · exact .inl ⟨_, rfl⟩
    · exact .inr ⟨_, .removeSource hphase, rfl⟩
  | restartSnapshotTransfer =>
    simp only [perform, restartSnapshotTransfer]
    split
    · exact .inl ⟨_, rfl⟩
    · rename_i hphase
      exact .inr ⟨_, .restartSnapshotTransfer (not_not.1 hphase), rfl⟩
  | restart =>
    simp only [perform]
    split
    · rename_i recovered hok
      obtain rfl := recover_eq hok
      exact .inr ⟨_, .restart, rfl⟩
    · exact .inl ⟨_, rfl⟩

/-! ### What a restart accepts -/

/-- The record and the bytes pass the validation of a restart. -/
structure Valid (m : TabletMovement) : Prop where
  canonical : canonicalRecord m.state m.limits
  consistent : phaseConsistent m.state m.limits = true
  received : m.state.receivedBytes = m.snapshotBytes.length
  checked : m.state.phase ≠ .addingTarget → m.state.phase ≠ .transferringSnapshot →
    crc32c m.snapshotBytes = m.state.snapshot.contentCrc32c

/-- A valid movement is recovered as it is. -/
lemma Valid.recover (hm : Valid m) :
    recover m.state m.snapshotBytes m.limits = .ok m := by
  have hrecord : validateTabletMovementRecord m.state m.limits = .ok () := by
    rw [validateTabletMovementRecord, if_neg (not_not.2 hm.canonical), if_pos hm.consistent]
  have hstate : validateTabletMovementState m.state m.snapshotBytes m.limits = .ok () := by
    rw [validateTabletMovementState, hrecord]
    rw [if_neg (not_not.2 hm.received)]
    split_ifs with hphase hcrc
    · rfl
    · rfl
    · rw [not_or] at hphase
      exact absurd (hm.checked hphase.1 hphase.2) hcrc
  rw [TabletMovement.recover, hstate]
  rfl

variable {epoch : ℕ} {target : NodeId}

/-- The test that opens a movement ensures that it is valid. -/
lemma begin_valid {tabletId : TabletId} {source : NodeId} {replicas : List NodeId}
    (hbegin : begin tabletId epoch source target replicas limits = .ok m) : Valid m := by
  rw [begin] at hbegin
  generalize replicas.insertionSort (· ≤ ·) = voters at hbegin
  split_ifs at hbegin with h
  cases hbegin
  simp only [ge_iff_le, not_or, not_not, not_le, Bool.not_eq_false] at h
  obtain ⟨hepoch, hsource, htarget, hne, hlimits, hnil, hlength, hmem, hnot, hhead, hsorted⟩ := h
  refine ⟨⟨hlimits, hepoch, hsource, htarget, hne, hnil, hlength.le, hhead, hsorted,
    pairwise_singleton _ _, Nat.zero_le _⟩, ?_, rfl, fun h => absurd rfl h⟩
  simp [phaseConsistent, targetLearns, emptySnapshot, hmem, hnot, hlength]

/-! ### Every call keeps the movement valid -/

/-- A call that advances the epoch, in its phase and with the right epochs, does not meet the last
`uint64`. -/
def EpochRoom (m : TabletMovement) : MovementCall → Prop
  | .promoteTarget expectedEpoch newEpoch => m.state.phase = .ready →
    expectedEpoch = m.state.placementEpoch → newEpoch = nextEpoch expectedEpoch →
    expectedEpoch < u64Max
  | .removeSource expectedEpoch newEpoch => m.state.phase = .targetPromoted →
    expectedEpoch = m.state.placementEpoch → newEpoch = nextEpoch expectedEpoch →
    expectedEpoch < u64Max
  | _ => True

instance (m : TabletMovement) (call : MovementCall) : Decidable (EpochRoom m call) := by
  unfold EpochRoom
  split <;> infer_instance

lemma nextEpoch_eq (hroom : epoch < u64Max) : nextEpoch epoch = epoch + 1 := by
  rw [u64Max] at hroom
  rw [nextEpoch]
  omega

lemma nextEpoch_ne_zero (hroom : epoch < u64Max) : nextEpoch epoch ≠ 0 :=
  nextEpoch_eq hroom ▸ Nat.succ_ne_zero _

variable {voters : List NodeId}

/-- The voters with the target, sorted, where the target is new. -/
lemma promoted_sorted (hsorted : voters.Pairwise (· < ·)) (hnew : target ∉ voters) :
    ((voters ++ [target]).insertionSort (· ≤ ·)).Pairwise (· < ·) := by
  have hnodup : (voters ++ [target]).Nodup := by
    rw [nodup_append]
    refine ⟨hsorted.imp ne_of_lt, nodup_singleton _, ?_⟩
    rintro _ hvoter _ hmem rfl
    exact hnew (mem_singleton.1 hmem ▸ hvoter)
  have hnodup' : ((voters ++ [target]).insertionSort (· ≤ ·)).Nodup :=
    (perm_insertionSort (· ≤ ·) _).nodup_iff.2 hnodup
  exact ((pairwise_insertionSort (· ≤ ·) _).and hnodup').imp fun h => lt_of_le_of_ne h.1 h.2

/-- A strictly sorted list without zero does not begin with zero. -/
lemma head?_ne_zero (hzero : 0 ∉ voters) : voters.head? ≠ some 0 :=
  fun hhead => hzero (mem_of_head? hhead)

/-- A strictly sorted list that does not begin with zero is without zero. -/
lemma zero_notMem (hsorted : voters.Pairwise (· < ·)) (hhead : voters.head? ≠ some 0) :
    0 ∉ voters := by
  intro hmem
  cases voters with
  | nil => exact absurd hmem not_mem_nil
  | cons first rest =>
    rcases mem_cons.1 hmem with rfl | hmem
    · exact hhead rfl
    · exact absurd (rel_of_pairwise_cons hsorted hmem) (Nat.not_lt_zero _)

/-- The promotion of the target keeps a movement valid. -/
lemma Valid.promoteTarget (hm : Valid m) (hphase : m.state.phase = .ready)
    (hroom : m.state.placementEpoch < u64Max) : Valid (promoted m) := by
  obtain ⟨hlimits, -, hsource, htarget, hne, -, -, hhead, hsorted, -, hbytes⟩ := hm.canonical
  have hconsistent := hm.consistent
  simp only [phaseConsistent, hphase, targetLearns, Bool.and_eq_true, decide_eq_true_eq]
    at hconsistent
  obtain ⟨⟨⟨⟨⟨hmem, hnot⟩, -⟩, hlength⟩, hsnapshot⟩, hreceived⟩ := hconsistent
  have hzero := zero_notMem hsorted hhead
  rw [promoted]
  refine ⟨⟨hlimits, nextEpoch_ne_zero hroom, hsource, htarget, hne, ?_, ?_, head?_ne_zero ?_,
    promoted_sorted hsorted hnot, .nil, hbytes⟩, ?_, hm.received, fun _ _ => ?_⟩
  · intro hnil
    have hlength' := congrArg List.length hnil
    simp at hlength'
  · rw [length_insertionSort, length_append]
    exact hlength
  · rw [mem_insertionSort, mem_append, mem_singleton, not_or]
    exact ⟨hzero, htarget.symm⟩
  · simp only [phaseConsistent, mem_insertionSort, Bool.and_eq_true, decide_eq_true_eq]
    exact ⟨⟨⟨⟨mem_append_left _ hmem, mem_append_right _ (mem_singleton_self _)⟩,
      rfl⟩, hsnapshot⟩, hreceived⟩
  · exact hm.checked (by rw [hphase]; decide) (by rw [hphase]; decide)

/-- The removal of the source keeps a movement valid. -/
lemma Valid.removeSource (hm : Valid m) (hphase : m.state.phase = .targetPromoted)
    (hroom : m.state.placementEpoch < u64Max) : Valid (removed m) := by
  obtain ⟨hlimits, -, hsource, htarget, hne, -, hlength, hhead, hsorted, hlearners, hbytes⟩ :=
    hm.canonical
  have hconsistent := hm.consistent
  simp only [phaseConsistent, hphase, Bool.and_eq_true, decide_eq_true_eq] at hconsistent
  obtain ⟨⟨⟨⟨_, htarget'⟩, hnone⟩, hsnapshot⟩, hreceived⟩ := hconsistent
  have hnodup : m.state.votingReplicas.Nodup := hsorted.imp ne_of_lt
  have hkept : m.state.targetNode ∈ m.state.votingReplicas.erase m.state.sourceNode :=
    (hnodup.mem_erase_iff).2 ⟨hne.symm, htarget'⟩
  have hsub : (m.state.votingReplicas.erase m.state.sourceNode).Sublist m.state.votingReplicas :=
    erase_sublist
  rw [removed]
  refine ⟨⟨hlimits, nextEpoch_ne_zero hroom, hsource, htarget, hne, ne_nil_of_mem hkept,
    hsub.length_le.trans hlength, head?_ne_zero fun hzero =>
      zero_notMem hsorted hhead (hsub.subset hzero), hsorted.sublist hsub, hlearners, hbytes⟩,
    ?_, hm.received, fun _ _ => ?_⟩
  · simp only [phaseConsistent, Bool.and_eq_true, decide_eq_true_eq]
    exact ⟨⟨⟨⟨fun h => (hnodup.mem_erase_iff.1 h).1 rfl, hkept⟩, hnone⟩, hsnapshot⟩, hreceived⟩
  · exact hm.checked (by rw [hphase]; decide) (by rw [hphase]; decide)

variable {call : MovementCall}

/-- **Every accepted call keeps the movement valid**, if it leaves the epoch room. -/
lemma Valid.accepts (hm : Valid m) (hroom : EpochRoom m call) (haccepts : Accepts m call m') :
    Valid m' := by
  have hconsistent := hm.consistent
  cases haccepts with
  | beginSnapshot metadata hphase hgeneration hindex hterm htotal hbound =>
    obtain ⟨hlimits, hepoch, hsource, htarget, hne, hnil, hlength, hhead, hsorted, hlearners, -⟩ :=
      hm.canonical
    simp only [phaseConsistent, hphase, Bool.and_eq_true] at hconsistent
    refine ⟨⟨hlimits, hepoch, hsource, htarget, hne, hnil, hlength, hhead, hsorted, hlearners,
      hbound⟩, ?_, rfl, fun _ h => absurd rfl h⟩
    simp only [phaseConsistent, Bool.and_eq_true]
    exact ⟨hconsistent.1, by simp [validSnapshot, hgeneration, hindex, hterm, htotal]⟩
  | retried | restart => exact hm
  | appended offset bytes crc hphase hoffset hroom' =>
    simp only [phaseConsistent, hphase, Bool.and_eq_true, validSnapshot, decide_eq_true_eq]
      at hconsistent
    refine ⟨hm.canonical, ?_, rfl, fun _ h => absurd hphase h⟩
    have hfits : (m.snapshotBytes ++ bytes).length ≤ m.state.snapshot.totalBytes := by
      rw [length_append, ← hm.received, ← hoffset]
      exact hroom'
    simp only [phaseConsistent, hphase, Bool.and_eq_true, validSnapshot, decide_eq_true_eq]
    exact ⟨hconsistent.1, hconsistent.2.1, hfits⟩
  | finishSnapshot hphase hlength' hcrc =>
    simp only [phaseConsistent, hphase, Bool.and_eq_true] at hconsistent
    refine ⟨hm.canonical, ?_, hm.received, fun _ _ => hcrc⟩
    simp only [phaseConsistent, Bool.and_eq_true, decide_eq_true_eq]
    exact ⟨hconsistent, hm.received.trans hlength'⟩
  | markCaughtUp index hphase =>
    simp only [phaseConsistent, hphase] at hconsistent
    refine ⟨hm.canonical, ?_, hm.received, fun _ _ => hm.checked ?_ ?_⟩
    · exact hconsistent
    · rw [hphase]
      decide
    · rw [hphase]
      decide
  | promoteTarget hphase => exact hm.promoteTarget hphase (hroom hphase rfl rfl)
  | removeSource hphase => exact hm.removeSource hphase (hroom hphase rfl rfl)
  | restartSnapshotTransfer hphase =>
    simp only [phaseConsistent, hphase, Bool.and_eq_true, validSnapshot, decide_eq_true_eq]
      at hconsistent
    refine ⟨hm.canonical, ?_, rfl, fun _ h => absurd hphase h⟩
    simp only [phaseConsistent, hphase, Bool.and_eq_true, validSnapshot, decide_eq_true_eq]
    exact ⟨hconsistent.1, hconsistent.2.1, Nat.zero_le _⟩

/-! ### Runs -/

/-- A movement and the calls that it has accepted, the oldest first. -/
structure MovementRun where
  movement : TabletMovement
  accepted : List MovementCall
  deriving DecidableEq

/-- The run after a call. -/
def MovementRun.step (run : MovementRun) (call : MovementCall) : MovementRun :=
  let outcome := run.movement.perform call
  ⟨outcome.2, if Result.isOk outcome.1 then run.accepted ++ [call] else run.accepted⟩

lemma MovementRun.step_cases (run : MovementRun) (call : MovementCall) :
    (run.step call = run ∧ ∃ status, run.movement.perform call = (.error status, run.movement)) ∨
      ∃ m', Accepts run.movement call m' ∧ run.movement.perform call = (.ok (), m') ∧
        run.step call = ⟨m', run.accepted ++ [call]⟩ := by
  rcases perform_spec run.movement call with ⟨status, h⟩ | ⟨m', haccepts, h⟩
  · refine .inl ⟨?_, status, h⟩
    rw [MovementRun.step, h]
    rfl
  · refine .inr ⟨m', haccepts, h, ?_⟩
    rw [MovementRun.step, h]
    rfl

/-- The image agrees with every accepted chunk. -/
def Image (accepted : List MovementCall) (image : List UInt8) : Prop :=
  ∀ offset bytes crc, MovementCall.acceptSnapshotChunk offset bytes crc ∈ accepted →
    bytes <+: image.drop offset

/-- What holds along a run: the bytes are those of the image, and a phase is reached by the calls
that lead to it. -/
structure Sound (run : MovementRun) : Prop where
  valid : Valid run.movement
  image : ∀ image, Image run.accepted image → run.movement.snapshotBytes <+: image
  finished : run.movement.state.phase ≠ .addingTarget →
    run.movement.state.phase ≠ .transferringSnapshot → .finishSnapshot ∈ run.accepted
  promoted : run.movement.state.phase = .targetPromoted ∨ run.movement.state.phase = .complete →
    ∃ expectedEpoch newEpoch, .promoteTarget expectedEpoch newEpoch ∈ run.accepted

lemma Image.of_append {accepted : List MovementCall} {image : List UInt8}
    (h : Image (accepted ++ [call]) image) : Image accepted image :=
  fun offset bytes crc hmem => h offset bytes crc (mem_append_left _ hmem)

variable {run : MovementRun}

lemma Sound.step (hs : Sound run) (hroom : EpochRoom run.movement call) :
    Sound (run.step call) := by
  rcases run.step_cases call with ⟨heq, -⟩ | ⟨_, haccepts, -, heq⟩
  · rwa [heq]
  rw [heq]
  have hvalid := hs.valid.accepts hroom haccepts
  have hold : ∀ image, Image (run.accepted ++ [call]) image →
      run.movement.snapshotBytes <+: image := fun image h => hs.image image h.of_append
  have hfinished : ∀ {phase}, run.movement.state.phase = phase → phase ≠ .addingTarget →
      phase ≠ .transferringSnapshot → .finishSnapshot ∈ run.accepted ++ [call] := by
    rintro _ rfl h h'
    exact mem_append_left _ (hs.finished h h')
  cases haccepts with
  | beginSnapshot => exact ⟨hvalid, fun _ _ => nil_prefix, fun _ h => absurd rfl h, by simp⟩
  | retried | restart =>
    refine ⟨hvalid, hold, hfinished rfl, fun h => ?_⟩
    obtain ⟨expectedEpoch, newEpoch, hmem⟩ := hs.promoted h
    exact ⟨expectedEpoch, newEpoch, mem_append_left _ hmem⟩
  | appended offset bytes crc hphase hoffset =>
    refine ⟨hvalid, fun image himage => ?_, hfinished rfl, by simp [hphase]⟩
    obtain ⟨_, rfl⟩ := hold image himage
    have hchunk := himage offset bytes crc (mem_append_right _ (mem_singleton_self _))
    rw [hoffset, hs.valid.received, drop_left] at hchunk
    exact (prefix_append_right_inj _).2 hchunk
  | finishSnapshot hphase =>
    refine ⟨hvalid, hold, fun _ _ => ?_, by simp⟩
    exact mem_append_right _ (mem_singleton_self _)
  | markCaughtUp index hphase =>
    exact ⟨hvalid, hold, fun _ _ => hfinished hphase (by decide) (by decide), by simp⟩
  | promoteTarget hphase =>
    refine ⟨hvalid, hold, fun _ _ => hfinished hphase (by decide) (by decide), fun _ => ?_⟩
    exact ⟨_, _, mem_append_right _ (mem_singleton_self _)⟩
  | removeSource hphase =>
    refine ⟨hvalid, hold, fun _ _ => hfinished hphase (by decide) (by decide), fun _ => ?_⟩
    obtain ⟨expectedEpoch, newEpoch, hmem⟩ := hs.promoted (.inl hphase)
    exact ⟨expectedEpoch, newEpoch, mem_append_left _ hmem⟩
  | restartSnapshotTransfer hphase =>
    exact ⟨hvalid, fun _ _ => nil_prefix, hfinished rfl, by simp [hphase]⟩

/-- The laws of a single call. -/
structure CallLaws (run : MovementRun) (call : MovementCall) : Prop where
  failed : Result.isOk (run.movement.perform call).1 = false →
    (run.movement.perform call).2 = run.movement
  finish : call = .finishSnapshot → Result.isOk (run.movement.perform call).1 = true →
    run.movement.snapshotBytes.length = run.movement.state.snapshot.totalBytes ∧
      crc32c run.movement.snapshotBytes = run.movement.state.snapshot.contentCrc32c
  promote : ∀ expectedEpoch newEpoch, call = .promoteTarget expectedEpoch newEpoch →
    Result.isOk (run.movement.perform call).1 = true → .finishSnapshot ∈ run.accepted
  remove : ∀ expectedEpoch newEpoch, call = .removeSource expectedEpoch newEpoch →
    Result.isOk (run.movement.perform call).1 = true →
      ∃ expectedEpoch' newEpoch', .promoteTarget expectedEpoch' newEpoch' ∈ run.accepted
  advance : ∀ expectedEpoch newEpoch, call = .promoteTarget expectedEpoch newEpoch ∨
      call = .removeSource expectedEpoch newEpoch → EpochRoom run.movement call →
    Result.isOk (run.movement.perform call).1 = true →
      run.movement.state.placementEpoch < (run.movement.perform call).2.state.placementEpoch

lemma Sound.callLaws (hs : Sound run) (call : MovementCall) :
    CallLaws run call := by
  rcases perform_spec run.movement call with ⟨_, hperform⟩ | ⟨_, haccepts, hperform⟩
  · have hfailed : Result.isOk (run.movement.perform call).1 ≠ true := by
      rw [hperform]
      exact Bool.false_ne_true
    exact ⟨fun _ => by rw [hperform], fun _ h => absurd h hfailed, fun _ _ _ h => absurd h hfailed,
      fun _ _ _ h => absurd h hfailed, fun _ _ _ _ h => absurd h hfailed⟩
  · refine ⟨fun h => ?_, ?_, ?_, ?_, ?_⟩
    · rw [hperform] at h
      cases h
    · rintro rfl -
      cases haccepts with
      | finishSnapshot _ hlength hcrc => exact ⟨hlength, hcrc⟩
    · rintro _ _ rfl -
      cases haccepts with
      | promoteTarget hphase =>
        exact hs.finished (by rw [hphase]; decide) (by rw [hphase]; decide)
    · rintro _ _ rfl -
      cases haccepts with
      | removeSource hphase => exact hs.promoted (.inl hphase)
    · rintro _ _ (rfl | rfl) hroom -
      all_goals
        rw [hperform]
        cases haccepts
        exact lt_of_lt_of_eq (Nat.lt_succ_self _) (nextEpoch_eq (hroom ‹_› rfl rfl)).symm

/-- **A tablet movement keeps its authority over restarts.**  After any calls on a movement, with
chunks in any order and restarts anywhere, none of which advances the epoch past the end of
`uint64`: the received bytes are a first part of every image that agrees with the accepted chunks,
a restart gives back the same movement, and every further call keeps its laws. -/
theorem tablet_movement_keeps_authority {tabletId : TabletId} {epoch : ℕ} {source target : NodeId}
    {replicas : List NodeId} {limits : TabletMovementLimits} {m : TabletMovement}
    (hbegin : TabletMovement.begin tabletId epoch source target replicas limits = .ok m)
    (calls : List MovementCall)
    (hroom : Along MovementRun.step (fun run call => EpochRoom run.movement call) ⟨m, []⟩ calls)
    (run : MovementRun) (hrun : run = calls.foldl MovementRun.step ⟨m, []⟩) :
    (∀ image, Image run.accepted image → run.movement.snapshotBytes <+: image) ∧
      TabletMovement.recover run.movement.state run.movement.snapshotBytes run.movement.limits =
        .ok run.movement ∧
      ∀ call, CallLaws run call := by
  have hphase : m.state.phase = .addingTarget ∧ m.snapshotBytes = [] := by
    rw [begin] at hbegin
    split_ifs at hbegin
    cases hbegin
    exact ⟨rfl, rfl⟩
  have hstart : Sound ⟨m, []⟩ :=
    ⟨begin_valid hbegin, fun image _ => by rw [hphase.2]; exact nil_prefix,
      fun h => absurd hphase.1 h, by simp [hphase.1]⟩
  have hs : Sound run := by
    rw [hrun]
    exact hroom.invariant Sound (fun _ _ hs hcall => hs.step hcall) hstart
  exact ⟨hs.image, hs.valid.recover, hs.callLaws⟩

/-! ### The last epoch -/

/-- A movement from node 1 to node 3 that starts at an epoch. -/
def sampleMovement (epoch : ℕ) : TabletMovement :=
  ⟨⟨7, epoch, 1, 3, [1, 2], [3], .addingTarget, {}, 0⟩, {}, []⟩

/-- The transfer of one byte, in two tries, the promotion of the target from an epoch, and a removal
of the source from the same, which is stale then. -/
def sampleCalls (epoch : ℕ) : List MovementCall :=
  [.beginSnapshot ⟨1, 1, 1, 1, crc32c [5]⟩, .acceptSnapshotChunk 0 [5] (crc32c [5]),
    .acceptSnapshotChunk 0 [5] (crc32c [5]), .restart, .finishSnapshot, .markCaughtUp 1,
    .promoteTarget epoch (nextEpoch epoch), .removeSource epoch (nextEpoch epoch), .restart]

/-- A promotion after a transfer with a retried chunk and restarts, and a removal of the source with
a stale epoch, which changes nothing. -/
theorem tablet_movement_keeps_authority_sample :
    TabletMovement.begin ⟨7, by decide⟩ 4 1 3 [2, 1] {} = .ok (sampleMovement 4) ∧
      Along MovementRun.step (fun run call => EpochRoom run.movement call)
        ⟨sampleMovement 4, []⟩ (sampleCalls 4) ∧
      CallLaws ((sampleCalls 4).foldl MovementRun.step ⟨sampleMovement 4, []⟩)
        (.removeSource 5 6) :=
  ⟨by decide, by decide,
    (tablet_movement_keeps_authority (show begin ⟨7, by decide⟩ 4 1 3 [2, 1] {} =
      .ok (sampleMovement 4) by decide) (sampleCalls 4) (by decide) _ rfl).2.2 _⟩

/-- A movement that starts at the last epoch promotes its target to epoch zero, and what it then
holds is not accepted by a restart. -/
theorem promotion_wraps_epoch :
    TabletMovement.begin ⟨7, by decide⟩ u64Max 1 3 [1, 2] {} = .ok (sampleMovement u64Max) ∧
      let run := (sampleCalls u64Max).foldl MovementRun.step ⟨sampleMovement u64Max, []⟩
      .promoteTarget u64Max 0 ∈ run.accepted ∧ run.movement.state.placementEpoch = 0 ∧
        Result.isOk (TabletMovement.recover run.movement.state run.movement.snapshotBytes
          run.movement.limits) = false := by
  decide

end Chronos.Rebalancing
