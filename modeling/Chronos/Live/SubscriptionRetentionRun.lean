import Chronos.Common.Runs
import Chronos.Live.SubscriptionRetention

/-!
Runs of a `SubscriptionRetentionCoordinator`: owners come, are registered and retired and move
their durable frontiers, and `advance` is called with any metadata, storage frontiers and reclaimer.

* `RetentionRun`: the coordinator and the owners, with every call of the reclaimer and every
  admission of an owner.
* `ReclaimCall.Safe`: nothing is asked for that storage or a registered owner still needs.
* `Recovered`: when an owner is registered, no failed call has asked for more than is authorized or
  lies before the start of the owner.
-/

namespace Chronos.Live

open List

open Metadata (MetadataStateMachine)
open Wal (WalReplayCheckpoint)
open Runs SubscriptionRetentionCoordinator

/-- What happens to a coordinator and its owners.  The reclaimer of an `advance` is any function of
the requests: what it has removed when it fails is not known to the coordinator. -/
inductive RetentionEvent where
  | construct (owner : ℕ) (value : DurableOwner)
  | checkpoint (owner : ℕ) (frontiers : List SourcePosition)
  | register (owner : ℕ)
  | retire (owner : ℕ)
  | advance (metadata : MetadataStateMachine) (storageSafeFrontiers : List SourcePosition)
      (reclaim : List SubscriptionSourceReclamation → Result Unit)

/-- A call of the reclaimer, with the storage frontiers and the durable frontiers of the owners that
were registered. -/
structure ReclaimCall where
  requests : List SubscriptionSourceReclamation
  storage : List SourcePosition
  durables : List (Option (List SourcePosition))
  answer : Result Unit
  deriving DecidableEq

/-- The positions up to which a call asks to remove. -/
def ReclaimCall.positions (call : ReclaimCall) : List SourcePosition :=
  call.requests.map (·.reclaimThrough)

/-- Storage and every registered owner can do without what a call asks to remove. -/
structure ReclaimCall.Safe (call : ReclaimCall) : Prop where
  storage : Below call.positions call.storage
  durable : ∀ durable ∈ call.durables, ∃ frontiers ∈ durable, Below call.positions frontiers

/-- Where an owner starts. -/
def DurableOwner.start (owner : DurableOwner) : List SourcePosition :=
  owner.source.members.map (·.position)

/-- An owner that was registered: where it starts, and the calls made before. -/
structure Admission where
  start : List SourcePosition
  prior : List ReclaimCall
  deriving DecidableEq

/-- Everything that was asked to be removed lies before the start of the owner. -/
def Admission.Clear (admission : Admission) : Prop :=
  ∀ call ∈ admission.prior, Below call.positions admission.start

/-- The coordinator, its owners, and what has happened. -/
structure RetentionRun where
  coordinator : SubscriptionRetentionCoordinator
  owners : ℕ → DurableOwner
  calls : List ReclaimCall := []
  admissions : List Admission := []

namespace RetentionRun

/-- The call that an `advance` makes, if any. -/
def asked (run : RetentionRun) (metadata : MetadataStateMachine) (storage : List SourcePosition)
    (reclaim : List SubscriptionSourceReclamation → Result Unit) : List ReclaimCall :=
  match run.coordinator.plan run.owners metadata storage with
  | .ok (.reclaim _ requests) =>
    [⟨requests, storage, run.coordinator.config.subscriptionOwners.map
      fun owner => (run.owners owner).durableRetentionFrontiers, reclaim requests⟩]
  | _ => []

/-- One event.  An owner that is registered is not replaced by another one at its address. -/
def step (run : RetentionRun) : RetentionEvent → RetentionRun
  | .construct owner value =>
    if owner ∈ run.coordinator.config.subscriptionOwners then run
    else { run with owners := Function.update run.owners owner value }
  | .checkpoint owner frontiers =>
    { run with
      owners := Function.update run.owners owner
        { run.owners owner with durableRetentionFrontiers := some frontiers } }
  | .register owner =>
    let (coordinator, answer) := run.coordinator.registerSubscriptionOwner run.owners owner
    { run with
      coordinator := coordinator
      admissions := if answer = .ok () then
        run.admissions ++ [⟨(run.owners owner).start, run.calls⟩]
        else run.admissions }
  | .retire owner =>
    { run with coordinator := (run.coordinator.retireSubscriptionOwner owner).1 }
  | .advance metadata storage reclaim =>
    { run with
      coordinator := (run.coordinator.advance run.owners metadata storage reclaim).1
      calls := run.calls ++ run.asked metadata storage reclaim }

end RetentionRun

/-! ### What one event does -/

namespace SubscriptionRetentionCoordinator

variable {owners : ℕ → DurableOwner} {c : SubscriptionRetentionCoordinator}

lemma frontiers_create {config : SubscriptionRetentionConfig}
    (hcreate : create owners config = .ok c) : Reads c.config.members c.frontiers := by
  simp only [create, Result.bind_eq_ok, require_eq_ok, exists_const, Except.ok.injEq] at hcreate
  obtain ⟨-, -, _, -, rfl⟩ := hcreate
  refine forall₂_map_right_iff.mpr (forall₂_same.mpr fun member _ => ?_)
  exact (SourcePosition.AtMost.refl member.position).1

/-- Registering changes neither the sources nor the frontiers. -/
lemma registerSubscriptionOwner_kept (c : SubscriptionRetentionCoordinator)
    (owners : ℕ → DurableOwner) (owner : ℕ) :
    (c.registerSubscriptionOwner owners owner).1.frontiers = c.frontiers ∧
      (c.registerSubscriptionOwner owners owner).1.config.members = c.config.members := by
  unfold registerSubscriptionOwner
  split
  · exact ⟨rfl, rfl⟩
  · split_ifs <;> exact ⟨rfl, rfl⟩

/-- An owner that is registered starts at or after the frontiers. -/
lemma below_of_registerSubscriptionOwner {owner : ℕ} (hreads : Reads c.config.members c.frontiers)
    (hok : (c.registerSubscriptionOwner owners owner).2 = .ok ()) :
    Below c.frontiers (owners owner).start := by
  unfold registerSubscriptionOwner at hok
  split at hok
  · exact absurd hok nofun
  · next hvalid =>
    simp only [validateOwnerBinding, Result.bind_eq_ok, require_eq_ok, exists_const] at hvalid
    obtain ⟨⟨-, -, hlength⟩, hpositions⟩ := hvalid
    exact below_of_validateOwnerPositions hreads hlength hpositions

lemma retireSubscriptionOwner_kept (c : SubscriptionRetentionCoordinator) (owner : ℕ) :
    (c.retireSubscriptionOwner owner).1.frontiers = c.frontiers ∧
      (c.retireSubscriptionOwner owner).1.config.members = c.config.members := by
  unfold retireSubscriptionOwner
  split_ifs <;> exact ⟨rfl, rfl⟩

end SubscriptionRetentionCoordinator

namespace RetentionRun

/-- An `advance` calls the reclaimer or changes nothing; if it calls it, the frontiers move to the
positions asked for exactly when the reclaimer succeeds. -/
lemma advance_cases (run : RetentionRun) (metadata : MetadataStateMachine)
    (storage : List SourcePosition) (reclaim : List SubscriptionSourceReclamation → Result Unit) :
    (run.asked metadata storage reclaim = [] ∧
      (run.coordinator.advance run.owners metadata storage reclaim).1 = run.coordinator) ∨
    ∃ candidate requests call, run.coordinator.plan run.owners metadata storage =
        .ok (.reclaim candidate requests) ∧ run.asked metadata storage reclaim = [call] ∧
      call = ⟨requests, storage, run.coordinator.config.subscriptionOwners.map
        fun owner => (run.owners owner).durableRetentionFrontiers, reclaim requests⟩ ∧
      (run.coordinator.advance run.owners metadata storage reclaim).1 =
        if reclaim requests = .ok () then { run.coordinator with frontiers := candidate }
        else run.coordinator := by
  unfold asked SubscriptionRetentionCoordinator.advance
  split
  · next candidate requests hplan =>
    refine .inr ⟨candidate, requests, _, hplan, rfl, rfl, ?_⟩
    rw [hplan]
    dsimp only
    split
    · next herror => rw [herror, if_neg nofun]
    · next hok => rw [hok, if_pos rfl]
  · next hplan =>
    refine .inl ⟨rfl, ?_⟩
    split
    · rfl
    · rfl
    · rfl
    · next hreclaim => exact (hplan _ _ hreclaim).elim

/-! ### Whole runs -/

/-- What holds of a run: the frontiers belong to the sources, every call was safe, and the frontiers
cover what was asked with success. -/
structure Retains (run : RetentionRun) : Prop where
  reads : Reads run.coordinator.config.members run.coordinator.frontiers
  safe : ∀ call ∈ run.calls, call.Safe
  authorized : ∀ call ∈ run.calls, call.answer = .ok () →
    Below call.positions run.coordinator.frontiers

/-- The sources, the frontiers and the calls of a run are those of another. -/
lemma Retains.congr {run run' : RetentionRun} (hretains : run.Retains)
    (hkept : run'.coordinator.frontiers = run.coordinator.frontiers ∧
      run'.coordinator.config.members = run.coordinator.config.members)
    (hcalls : run'.calls = run.calls) : run'.Retains := by
  obtain ⟨_, _, _⟩ := hretains
  constructor
  · rwa [hkept.1, hkept.2]
  · rwa [hcalls]
  · rwa [hcalls, hkept.1]

/-- One event keeps the invariant and does not lower the frontiers. -/
lemma Retains.step {run : RetentionRun} (hretains : run.Retains) (event : RetentionEvent) :
    (run.step event).Retains ∧
      Below run.coordinator.frontiers (run.step event).coordinator.frontiers := by
  cases event with
  | construct owner value =>
    dsimp only [RetentionRun.step]
    split_ifs
    · exact ⟨hretains, .refl _⟩
    · exact ⟨hretains.congr ⟨rfl, rfl⟩ rfl, .refl _⟩
  | checkpoint owner frontiers => exact ⟨hretains.congr ⟨rfl, rfl⟩ rfl, .refl _⟩
  | register owner =>
    have hkept := run.coordinator.registerSubscriptionOwner_kept run.owners owner
    exact ⟨hretains.congr hkept rfl, hkept.1 ▸ .refl _⟩
  | retire owner =>
    have hkept := run.coordinator.retireSubscriptionOwner_kept owner
    exact ⟨hretains.congr hkept rfl, hkept.1 ▸ .refl _⟩
  | advance metadata storage reclaim =>
    obtain ⟨hasked, hsame⟩ | ⟨_, requests, call, hplan, hasked, hcall, hnext⟩ :=
      run.advance_cases metadata storage reclaim
    · have hstep : run.step (.advance metadata storage reclaim) = run := by
        simp only [RetentionRun.step, hasked, hsame, append_nil]
      rw [hstep]
      exact ⟨hretains, .refl _⟩
    · obtain ⟨rfl, hbelow, hstorage, hdurables⟩ := plan_reclaim hretains.reads hplan
      have hcalls : (run.step (.advance metadata storage reclaim)).calls = run.calls ++ [call] :=
        congrArg (run.calls ++ ·) hasked
      have hadvanced : Below run.coordinator.frontiers
          (run.step (.advance metadata storage reclaim)).coordinator.frontiers := by
        dsimp only [RetentionRun.step]
        rw [hnext]
        split_ifs
        exacts [hbelow, .refl _]
      have hmembers : (run.step (.advance metadata storage reclaim)).coordinator.config.members =
          run.coordinator.config.members := by
        dsimp only [RetentionRun.step]
        rw [hnext]
        split_ifs <;> rfl
      subst hcall
      refine ⟨⟨?_, ?_, ?_⟩, hadvanced⟩
      · rw [hmembers]
        exact (reads_congr hadvanced).mp hretains.reads
      · rw [hcalls]
        refine forall_mem_append.mpr ⟨hretains.safe, forall_mem_singleton.mpr ?_⟩
        refine ⟨hstorage, fun durable hdurable => ?_⟩
        obtain ⟨owner, howner, rfl⟩ := mem_map.mp hdurable
        exact hdurables owner howner
      · rw [hcalls]
        refine forall_mem_append.mpr
          ⟨fun other hother hok => (hretains.authorized other hother hok).trans hadvanced,
            forall_mem_singleton.mpr fun hok => ?_⟩
        have hok : reclaim requests = .ok () := hok
        dsimp only [RetentionRun.step]
        rw [hnext, if_pos hok]
        exact .refl _

lemma Retains.run {run : RetentionRun} (hretains : run.Retains) (events : List RetentionEvent) :
    (events.foldl RetentionRun.step run).Retains ∧
      Below run.coordinator.frontiers
        (events.foldl RetentionRun.step run).coordinator.frontiers := by
  induction events generalizing run with
  | nil => exact ⟨hretains, .refl _⟩
  | cons event _ ih =>
    obtain ⟨hnext, hbelow⟩ := hretains.step event
    obtain ⟨hrun, hrest⟩ := ih hnext
    exact ⟨hrun, hbelow.trans hrest⟩

/-- When an owner is registered, no call that failed has asked for more than is authorized or lies
before the start of the owner. -/
def Recovered (run : RetentionRun) : RetentionEvent → Prop
  | .register owner => ∀ call ∈ run.calls, call.answer ≠ .ok () →
      Below call.positions run.coordinator.frontiers ∨
        Below call.positions (run.owners owner).start
  | _ => True

instance (run : RetentionRun) : ∀ event, Decidable (run.Recovered event)
  | .register _ => inferInstanceAs (Decidable (∀ call ∈ run.calls, _ → _))
  | .construct _ _ | .checkpoint _ _ | .retire _ | .advance _ _ _ => isTrue trivial

/-- Owners are registered clear of everything that was asked to be removed. -/
lemma clear_step {run : RetentionRun} (hretains : run.Retains)
    (hclear : ∀ admission ∈ run.admissions, admission.Clear) {event : RetentionEvent}
    (hrecovered : run.Recovered event) :
    ∀ admission ∈ (run.step event).admissions, admission.Clear := by
  cases event with
  | construct owner value =>
    dsimp only [RetentionRun.step]
    split_ifs <;> exact hclear
  | checkpoint owner frontiers => exact hclear
  | retire owner => exact hclear
  | advance => exact hclear
  | register owner =>
    dsimp only [RetentionRun.step]
    split_ifs with hok
    · intro admission hadmission
      obtain hadmission | hadmission := mem_append.mp hadmission
      · exact hclear admission hadmission
      · obtain rfl := mem_singleton.mp hadmission
        intro call hcall
        have hstart := below_of_registerSubscriptionOwner hretains.reads hok
        by_cases hanswer : call.answer = .ok ()
        · exact (hretains.authorized call hcall hanswer).trans hstart
        · exact (hrecovered call hcall hanswer).elim (·.trans hstart) id
    · exact hclear

/-- An owner without durable frontiers keeps `advance` from calling the reclaimer. -/
lemma blocked_step {run : RetentionRun} (hretains : run.Retains) {owner : ℕ}
    (howner : owner ∈ run.coordinator.config.subscriptionOwners)
    (hnone : (run.owners owner).durableRetentionFrontiers = none)
    (metadata : MetadataStateMachine) (storage : List SourcePosition)
    (reclaim : List SubscriptionSourceReclamation → Result Unit) :
    run.step (.advance metadata storage reclaim) = run := by
  obtain ⟨hasked, hsame⟩ | ⟨_, _, _, hplan, -⟩ :=
    run.advance_cases metadata storage reclaim
  · simp only [RetentionRun.step, hasked, hsame, append_nil]
  · obtain ⟨-, -, -, hdurables⟩ := plan_reclaim hretains.reads hplan
    obtain ⟨_, hdurable, -⟩ := hdurables owner howner
    rw [hnone] at hdurable
    exact absurd hdurable nofun

/-- **Nothing that is needed is reclaimed.**  Along every run: a call of the reclaimer asks for
nothing that storage or a registered owner needs, and a WAL writer removes at most up to the least
position of its sources; the frontiers do not decrease; an owner without durable frontiers blocks
every call; and if no failed call has asked for more than is authorized or lies before the start of
an owner when it is registered, owners start at or after everything that was asked to be removed. -/
theorem retention_keeps_what_is_needed {owners : ℕ → DurableOwner}
    {config : SubscriptionRetentionConfig} {c : SubscriptionRetentionCoordinator}
    (hcreate : create owners config = .ok c) (events : List RetentionEvent) :
    (∀ call ∈ (events.foldl step ⟨c, owners, [], []⟩).calls, call.Safe ∧
      ∀ (writers : WalWriters) (sources : List WalSubscriptionReclamationSource) (writer : ℕ)
        (checkpoint : WalReplayCheckpoint), (writer, checkpoint) ∈
          (WalSubscriptionSourceReclaimer.reclaim writers sources call.requests).1 →
        ∀ pair ∈ sources.zip call.requests, pair.1.writer = writer →
          checkpoint.recordSequence ≤ pair.2.reclaimThrough.recordSequence) ∧
    (∀ later : List RetentionEvent,
      Below (events.foldl step ⟨c, owners, [], []⟩).coordinator.frontiers
        ((events ++ later).foldl step ⟨c, owners, [], []⟩).coordinator.frontiers) ∧
    (∀ owner ∈ (events.foldl step ⟨c, owners, [], []⟩).coordinator.config.subscriptionOwners,
      ((events.foldl step ⟨c, owners, [], []⟩).owners owner).durableRetentionFrontiers = none →
      ∀ metadata storage reclaim,
        (events ++ [RetentionEvent.advance metadata storage reclaim]).foldl step
          ⟨c, owners, [], []⟩ = events.foldl step ⟨c, owners, [], []⟩) ∧
    (Along step Recovered ⟨c, owners, [], []⟩ events →
      ∀ admission ∈ (events.foldl step ⟨c, owners, [], []⟩).admissions, admission.Clear) := by
  have hstart : Retains ⟨c, owners, [], []⟩ := ⟨frontiers_create hcreate, nofun, nofun⟩
  obtain ⟨hretains, -⟩ := hstart.run events
  refine ⟨fun call hcall => ⟨hretains.safe call hcall, ?_⟩, ?_, ?_, ?_⟩
  · intro _ _ _ _ hremoved
    exact WalSubscriptionSourceReclaimer.le_of_mem_reclaim hremoved
  · intro later
    rw [foldl_append]
    exact (hretains.run later).2
  · intro _ howner hnone metadata storage reclaim
    rw [foldl_append]
    exact blocked_step hretains howner hnone metadata storage reclaim
  · intro halong
    have hrun := halong.invariant
      (fun run => run.Retains ∧ ∀ admission ∈ run.admissions, admission.Clear)
      (fun _ event hrun hrecovered =>
        ⟨(hrun.1.step event).1, clear_step hrun.1 hrun.2 hrecovered⟩) ⟨hstart, nofun⟩
    exact hrun.2

/-! ### A run of two sources -/

namespace Sample

/-- Two tablets of one table, each with a log of its own. -/
def config : SubscriptionRetentionConfig where
  databaseId := 1
  tableId := 2
  localNodeId := 7
  members := [⟨3, .wal 4, 1⟩, ⟨5, .wal 6, 1⟩]

/-- Both tablets are placed on the local node. -/
def metadata : MetadataStateMachine where
  limits := {}
  applied := 9
  tablets := OrderedMap.empty.insert 3
    ⟨2, 3, 1, [7], none⟩ |>.insert 5
    ⟨2, 5, 1, [7], none⟩

/-- One position for both logs. -/
def positions (sequence : ℕ) : List SourcePosition :=
  [⟨3, .wal 4, sequence⟩, ⟨5, .wal 6, sequence⟩]

/-- An owner that starts at a position of both logs. -/
def owner (start : ℕ) : DurableOwner where
  source := ⟨1, 2, [0], 8, 1, [⟨3, .wal 4, start⟩, ⟨5, .wal 6, start⟩], []⟩

/-- The second of two writers fails to remove segments. -/
def writers : WalWriters where
  walId writer := if writer = 1 then 4 else 6
  resolveReplayCheckpoint _ sequence := .ok (some ⟨⟨.replicate 16 4⟩, sequence, 1, 64⟩)
  reclaimCheckpointedSegments writer _ :=
    if writer = 1 then .ok () else .error ⟨.ioError, "unlink failed"⟩
  resolved _ _ _ hresolved := by rw [← Option.some.inj (Except.ok.inj hresolved)]

/-- The writers of the two logs. -/
def sources : List WalSubscriptionReclamationSource :=
  [⟨3, 1, 1⟩, ⟨5, 1, 2⟩]

/-- An owner at 5 holds back a storage frontier of 10; after it a call up to 10 fails, and a second
owner starts there. -/
def events : List RetentionEvent :=
  [.register 1, .checkpoint 1 (positions 5), .advance metadata (positions 10) fun _ => .ok (),
    .retire 1, .advance metadata (positions 10) fun _ => .error ⟨.ioError, "unlink failed"⟩,
    .construct 2 (owner 10), .register 2]

end Sample

/-- The second owner starts at what the failed call has asked for, and is clear of both calls. -/
theorem retention_keeps_what_is_needed_sample :
    create (fun _ => Sample.owner 0) Sample.config = .ok ⟨Sample.config, Sample.positions 0⟩ ∧
    Along step Recovered ⟨⟨Sample.config, Sample.positions 0⟩, fun _ => Sample.owner 0, [], []⟩
      Sample.events ∧
    ∀ admission ∈ (Sample.events.foldl step
        ⟨⟨Sample.config, Sample.positions 0⟩, fun _ => Sample.owner 0, [], []⟩).admissions,
      admission.Clear :=
  have hcreate : create (fun _ => Sample.owner 0) Sample.config =
      .ok ⟨Sample.config, Sample.positions 0⟩ := by decide
  have halong : Along step Recovered
      ⟨⟨Sample.config, Sample.positions 0⟩, fun _ => Sample.owner 0, [], []⟩ Sample.events := by
    decide
  ⟨hcreate, halong, (retention_keeps_what_is_needed hcreate _).2.2.2 halong⟩

/-- Two writers are asked to remove everything up to 10; the first one does, the second one fails.
The frontiers stay at 0, and an owner that starts at 5 of the first log is registered. -/
theorem owner_registered_behind_removed_segments :
    create (fun _ => Sample.owner 5) Sample.config = .ok ⟨Sample.config, Sample.positions 0⟩ ∧
    ∃ call, ([.advance Sample.metadata (Sample.positions 10) fun requests =>
          (WalSubscriptionSourceReclaimer.reclaim Sample.writers Sample.sources requests).2,
        .register 1].foldl step ⟨⟨Sample.config, Sample.positions 0⟩, fun _ => Sample.owner 5,
          [], []⟩).admissions = [⟨Sample.positions 5, [call]⟩] ∧
      call.positions = Sample.positions 10 ∧
      (WalSubscriptionSourceReclaimer.reclaim Sample.writers Sample.sources
        call.requests).1.head?.map (fun removed => (removed.1, removed.2.recordSequence)) =
          some (1, 10) ∧
      ¬ Admission.Clear ⟨Sample.positions 5, [call]⟩ := by
  refine ⟨by decide, ⟨[⟨⟨3, .wal 4, 10⟩, 1, 9⟩, ⟨⟨5, .wal 6, 10⟩, 1, 9⟩], Sample.positions 10, [],
    .error ⟨.ioError, "unlink failed"⟩⟩, by decide, by decide, by decide, ?_⟩
  intro hclear
  exact absurd (hclear _ (mem_singleton_self _)) (by decide)

end RetentionRun

end Chronos.Live
