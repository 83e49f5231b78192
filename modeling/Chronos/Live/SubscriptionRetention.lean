import Chronos.Common.Formats
import Chronos.Live.SubscriptionSource
import Chronos.Metadata.StateMachine
import Chronos.Wal.Types

/-!
`live/subscription_retention.cpp` and `live/wal_subscription_reclaimer.cpp`: how far the logs of a
fixed set of sources may be reclaimed.

* `SubscriptionRetentionCoordinator`: the owners of durable subscriptions and the frontiers up to
  which reclamation was authorized.
* `plan`: the part of `advance` that comes before the call of the reclaimer; `advance` makes the
  call and authorizes the frontiers if it succeeds.
* `WalSubscriptionSourceReclaimer.reclaim`: one position for every writer, resolved for all writers
  before the first one removes segments.

An owner is named by its address, `0` for the null pointer.  What a writer answers when a
checkpoint is resolved and when segments are removed is a parameter (`WalWriters`).  Failed
allocations are left out.
-/

namespace Chronos.Live

open SourcePosition List Except Result

open Metadata (MetadataStateMachine)
open Schema (TableId TabletId)
open Wal (WalReplayCheckpoint)

/-! ### Members and owners -/

/-- `SubscriptionRetentionMember`. -/
structure SubscriptionRetentionMember where
  tabletId : TabletId
  source : SourceIdentity
  placementEpoch : ℕ
  deriving DecidableEq

/-- `SubscriptionRetentionMember::position` at sequence zero. -/
def SubscriptionRetentionMember.position (member : SubscriptionRetentionMember) : SourcePosition :=
  ⟨member.tabletId.val, member.source, 0⟩

/-- `SubscriptionRetentionMember::is_valid`. -/
def SubscriptionRetentionMember.isValid (member : SubscriptionRetentionMember) : Bool :=
  member.placementEpoch ≠ 0 && member.position.isValid

/-- `MultiTabletSubscriptionMember::position`. -/
def MultiTabletSubscriptionMember.position (member : MultiTabletSubscriptionMember) :
    SourcePosition :=
  ⟨member.tabletId, member.source, member.committedRecordSequence⟩

/-- `SubscriptionSourceReclamation`. -/
structure SubscriptionSourceReclamation where
  reclaimThrough : SourcePosition
  placementEpoch : ℕ
  metadataIndex : ℕ
  deriving DecidableEq

/-- What the coordinator reads of a `DurableMultiTabletSubscription`. -/
structure DurableOwner where
  source : MultiTabletSubscriptionSource
  durableRetentionFrontiers : Option (List SourcePosition) := none
  deriving DecidableEq

/-- `SubscriptionRetentionConfig`. -/
structure SubscriptionRetentionConfig where
  databaseId : Uuid
  tableId : TableId
  localNodeId : ℕ
  members : List SubscriptionRetentionMember
  subscriptionOwners : List ℕ := []
  maximumSubscriptionOwners : ℕ := 1024
  deriving DecidableEq

/-- `SubscriptionRetentionReport`. -/
structure SubscriptionRetentionReport where
  metadataIndex : ℕ
  blockedOnSubscriptionCheckpoint : Bool
  advanced : Bool
  authorizedFrontiers : List SourcePosition
  deriving DecidableEq

/-- The loop of `validate_owner_binding`. -/
def validateOwnerPositions : List SubscriptionRetentionMember → List SourcePosition →
    List MultiTabletSubscriptionMember → Result Unit
  | member :: members, frontier :: frontiers, owned :: owneds => do
    require (owned.position.sameSource member.position = true)
      ⟨.invalidArgument, "subscription retention owner source lineage disagrees"⟩
    require (frontier.recordSequence ≤ owned.position.recordSequence)
      ⟨.unavailable, "subscription retention owner begins behind authorized reclamation"⟩
    validateOwnerPositions members frontiers owneds
  | _, _, _ => .ok ()

/-- `validate_owner_binding`. -/
def validateOwnerBinding (config : SubscriptionRetentionConfig) (frontiers : List SourcePosition)
    (owner : DurableOwner) : Result Unit := do
  require (owner.source.databaseId = config.databaseId ∧ owner.source.tableId = config.tableId.val ∧
      owner.source.members.length = config.members.length)
    ⟨.invalidArgument, "subscription retention owner identity or source count disagrees"⟩
  validateOwnerPositions config.members frontiers owner.source.members

/-! ### The coordinator -/

/-- `SubscriptionRetentionCoordinator::Impl`. -/
structure SubscriptionRetentionCoordinator where
  config : SubscriptionRetentionConfig
  frontiers : List SourcePosition
  deriving DecidableEq

/-- What `advance` has decided before it calls the reclaimer. -/
inductive RetentionPlan where
  | blocked
  | unchanged
  | reclaim (candidate : List SourcePosition) (requests : List SubscriptionSourceReclamation)
  deriving DecidableEq

namespace SubscriptionRetentionCoordinator

section

variable (owners : ℕ → DurableOwner)

/-- The loop of `create` over the owners; `prior` are those before. -/
def admitOwners (config : SubscriptionRetentionConfig) (initial : List SourcePosition) :
    (prior : List ℕ) → List ℕ → Result Unit
  | _, [] => .ok ()
  | prior, owner :: rest => do
    require (owner ≠ 0) ⟨.invalidArgument, "subscription retention owner is null"⟩
    require (owner ∉ prior) ⟨.invalidArgument, "subscription retention owner is duplicated"⟩
    validateOwnerBinding config initial (owners owner)
    require (∀ other ∈ prior,
        (owners other).source.planFingerprint ≠ (owners owner).source.planFingerprint)
      ⟨.invalidArgument, "subscription retention owner plan is duplicated"⟩
    admitOwners config initial (prior ++ [owner]) rest

/-- `SubscriptionRetentionCoordinator::create`. -/
def create (config : SubscriptionRetentionConfig) : Result SubscriptionRetentionCoordinator := do
  require (config.databaseId ≠ 0 ∧ config.tableId.val ≠ 0 ∧ config.localNodeId ≠ 0 ∧
      config.members ≠ [] ∧ config.maximumSubscriptionOwners ≠ 0 ∧
      config.subscriptionOwners.length ≤ config.maximumSubscriptionOwners)
    ⟨.invalidArgument, "subscription retention configuration is invalid"⟩
  let members := config.members.insertionSort fun left right => left.tabletId ≤ right.tabletId
  require ((∀ member ∈ members, member.isValid = true) ∧
      members.IsChain fun left right => left.tabletId < right.tabletId)
    ⟨.invalidArgument, "subscription retention source topology is invalid"⟩
  let config := { config with members := members }
  let initial := members.map (·.position)
  admitOwners owners config initial [] config.subscriptionOwners
  .ok ⟨config, initial⟩

/-- `register_subscription_owner`. -/
def registerSubscriptionOwner (c : SubscriptionRetentionCoordinator) (owner : ℕ) :
    SubscriptionRetentionCoordinator × Result Unit :=
  match validateOwnerBinding c.config c.frontiers (owners owner) with
  | .error status => (c, .error status)
  | .ok () =>
    if ∃ current ∈ c.config.subscriptionOwners, current = owner ∨
        (owners current).source.planFingerprint = (owners owner).source.planFingerprint then
      (c, .error ⟨.invalidArgument, "subscription retention owner is already registered"⟩)
    else if c.config.subscriptionOwners.length ≥ c.config.maximumSubscriptionOwners then
      (c, .error ⟨.resourceExhausted, "subscription retention owner capacity is exhausted"⟩)
    else
      ({ c with
        config := { c.config with subscriptionOwners := c.config.subscriptionOwners ++ [owner] } },
        .ok ())

/-- `retire_subscription_owner`. -/
def retireSubscriptionOwner (c : SubscriptionRetentionCoordinator) (owner : ℕ) :
    SubscriptionRetentionCoordinator × Result Unit :=
  if owner ∈ c.config.subscriptionOwners then
    ({ c with
      config := { c.config with subscriptionOwners := c.config.subscriptionOwners.erase owner } },
      .ok ())
  else (c, .error ⟨.invalidArgument, "subscription retention owner is not registered"⟩)

/-- The Raft group of a member is the one the metadata bind its tablet to. -/
def groupBound (metadata : MetadataStateMachine) (member : SubscriptionRetentionMember) : Bool :=
  match member.source with
  | .raft groupId => (metadata.tabletGroups.find? member.tabletId).any (·.groupId = groupId)
  | .wal _ => true

/-- The first loop of `advance`: every source is where the metadata say. -/
def checkMembers (config : SubscriptionRetentionConfig) (metadata : MetadataStateMachine) :
    List SubscriptionRetentionMember → List SourcePosition → List SourcePosition → Result Unit
  | member :: members, storage :: storages, frontier :: frontiers => do
    require (storage.sameSource member.position = true ∧
        frontier.recordSequence ≤ storage.recordSequence)
      ⟨.invalidArgument, "subscription retention storage frontier regressed or changed lineage"⟩
    require ((metadata.tablets.find? member.tabletId).any (fun placement =>
        placement.tableId = config.tableId ∧ placement.placementEpoch = member.placementEpoch ∧
          config.localNodeId ∈ placement.replicas) = true)
      ⟨.unavailable, "subscription retention placement epoch or local replica changed"⟩
    require (groupBound metadata member = true)
      ⟨.unavailable, "subscription retention Raft group binding changed"⟩
    checkMembers config metadata members storages frontiers
  | _, _, _ => .ok ()

/-- The inner loop over the durable frontiers of one owner. -/
def lower : List SourcePosition → List SourcePosition → Result (List SourcePosition)
  | candidate :: candidates, durable :: durables => do
    require (durable.sameSource candidate = true)
      ⟨.corruption, "durable subscription frontier source lineage changed"⟩
    let rest ← lower candidates durables
    .ok ({ candidate with
      recordSequence := min candidate.recordSequence durable.recordSequence } :: rest)
  | candidates, _ => .ok candidates

/-- The loop over the owners; `none` if one of them has no durable frontier. -/
def lowerAll : List ℕ → List SourcePosition → Result (Option (List SourcePosition))
  | [], candidate => .ok (some candidate)
  | owner :: rest, candidate =>
    match (owners owner).durableRetentionFrontiers with
    | none => .ok none
    | some durable => do
      require (durable.length = candidate.length)
        ⟨.corruption, "durable subscription frontier source count changed"⟩
      let candidate ← lower candidate durable
      lowerAll rest candidate

/-- The last loop of `advance`: the requests, and whether one of them is new. -/
def prepare (metadataIndex : ℕ) : List SubscriptionRetentionMember → List SourcePosition →
    List SourcePosition → Result (Bool × List SubscriptionSourceReclamation)
  | member :: members, candidate :: candidates, frontier :: frontiers => do
    require (frontier.recordSequence ≤ candidate.recordSequence)
      ⟨.corruption, "durable subscription frontier moved behind prior reclamation"⟩
    let (advanced, requests) ← prepare metadataIndex members candidates frontiers
    .ok (advanced || decide (frontier.recordSequence < candidate.recordSequence),
      ⟨candidate, member.placementEpoch, metadataIndex⟩ :: requests)
  | _, _, _ => .ok (false, [])

/-- `advance` up to the call of the reclaimer. -/
def plan (c : SubscriptionRetentionCoordinator) (metadata : MetadataStateMachine)
    (storageSafeFrontiers : List SourcePosition) : Result RetentionPlan := do
  require (storageSafeFrontiers.length = c.config.members.length)
    ⟨.invalidArgument, "subscription retention storage frontier count is invalid"⟩
  require (metadata.applied ≠ 0)
    ⟨.unavailable, "subscription retention has no committed metadata topology"⟩
  checkMembers c.config metadata c.config.members storageSafeFrontiers c.frontiers
  match ← lowerAll owners c.config.subscriptionOwners storageSafeFrontiers with
  | none => .ok .blocked
  | some candidate =>
    let (advanced, requests) ← prepare metadata.applied c.config.members candidate c.frontiers
    if advanced then .ok (.reclaim candidate requests) else .ok .unchanged

/-- `advance`. -/
def advance (c : SubscriptionRetentionCoordinator) (metadata : MetadataStateMachine)
    (storageSafeFrontiers : List SourcePosition)
    (reclaim : List SubscriptionSourceReclamation → Result Unit) :
    SubscriptionRetentionCoordinator × Result SubscriptionRetentionReport :=
  match c.plan owners metadata storageSafeFrontiers with
  | .error status => (c, .error status)
  | .ok .blocked => (c, .ok ⟨metadata.applied, true, false, c.frontiers⟩)
  | .ok .unchanged => (c, .ok ⟨metadata.applied, false, false, c.frontiers⟩)
  | .ok (.reclaim candidate requests) =>
    match reclaim requests with
    | .error status => (c, .error status)
    | .ok () => ({ c with frontiers := candidate }, .ok ⟨metadata.applied, false, true, candidate⟩)

end

end SubscriptionRetentionCoordinator

/-! ### The reclaimer of WAL sources -/

/-- What the writers answer: `resolve_replay_checkpoint` gives the checkpoint of the record sequence
that was asked for, or nothing if it was removed before; `reclaim_checkpointed_segments` removes the
segments that a checkpoint covers, and may fail when some of them are gone. -/
structure WalWriters where
  walId : ℕ → Uuid
  resolveReplayCheckpoint : ℕ → ℕ → Result (Option WalReplayCheckpoint)
  reclaimCheckpointedSegments : ℕ → WalReplayCheckpoint → Result Unit
  resolved : ∀ writer sequence checkpoint,
    resolveReplayCheckpoint writer sequence = .ok (some checkpoint) →
      checkpoint.recordSequence = sequence

/-- `WalSubscriptionReclamationSource`; a writer is named by its address. -/
structure WalSubscriptionReclamationSource where
  tabletId : TabletId
  placementEpoch : ℕ
  writer : ℕ
  deriving DecidableEq

namespace WalSubscriptionSourceReclaimer

variable (writers : WalWriters)

/-- A position joins those of its writer. -/
def addPending (pending : List (ℕ × ℕ)) (writer sequence : ℕ) : List (ℕ × ℕ) :=
  if pending.any (·.1 = writer) then
    pending.map fun item => if item.1 = writer then (writer, min item.2 sequence) else item
  else pending ++ [(writer, sequence)]

/-- The loop that finds one position for every writer. -/
def collect (metadataIndex : ℕ) : (pending : List (ℕ × ℕ)) →
    List WalSubscriptionReclamationSource → List SubscriptionSourceReclamation →
    Result (List (ℕ × ℕ))
  | pending, source :: sources, request :: requests => do
    require (request.reclaimThrough.sameSource
        ⟨source.tabletId.val, .wal (writers.walId source.writer), 0⟩ = true ∧
        request.placementEpoch = source.placementEpoch ∧ request.metadataIndex = metadataIndex)
      ⟨.invalidArgument, "WAL subscription reclamation identity or topology is invalid"⟩
    collect metadataIndex
      (addPending pending source.writer request.reclaimThrough.recordSequence) sources requests
  | pending, _, _ => .ok pending

/-- The loop that resolves all positions. -/
def resolveAll : List (ℕ × ℕ) → Result (List (ℕ × Option WalReplayCheckpoint))
  | [] => .ok []
  | (writer, sequence) :: rest => do
    let checkpoint ← writers.resolveReplayCheckpoint writer sequence
    let others ← resolveAll rest
    .ok ((writer, checkpoint) :: others)

/-- The loop that removes segments, with the calls it has made. -/
def removeAll : List (ℕ × Option WalReplayCheckpoint) →
    List (ℕ × WalReplayCheckpoint) × Result Unit
  | [] => ([], .ok ())
  | (_, none) :: rest => removeAll rest
  | (writer, some checkpoint) :: rest =>
    match writers.reclaimCheckpointedSegments writer checkpoint with
    | .error status => ([(writer, checkpoint)], .error status)
    | .ok () => ((writer, checkpoint) :: (removeAll rest).1, (removeAll rest).2)

/-- `WalSubscriptionSourceReclaimer::reclaim`, with the writers that were told to remove segments
and how far. -/
def reclaim (sources : List WalSubscriptionReclamationSource)
    (requests : List SubscriptionSourceReclamation) :
    List (ℕ × WalReplayCheckpoint) × Result Unit :=
  if requests.length ≠ sources.length then
    ([], .error ⟨.invalidArgument, "WAL subscription reclamation request count is invalid"⟩)
  else
    let metadataIndex := (requests.head?.map (·.metadataIndex)).getD 0
    if metadataIndex = 0 then
      ([], .error ⟨.invalidArgument, "WAL subscription reclamation metadata index is invalid"⟩)
    else match collect writers metadataIndex [] sources requests with
    | .error status => ([], .error status)
    | .ok pending =>
      match resolveAll writers pending with
      | .error status => ([], .error status)
      | .ok checkpoints => removeAll writers checkpoints

end WalSubscriptionSourceReclaimer

/-! ### Order of positions -/

/-- Two positions of one source, the first one not after the second. -/
def SourcePosition.AtMost (position other : SourcePosition) : Prop :=
  position.sameSource other = true ∧ position.recordSequence ≤ other.recordSequence

instance (position other : SourcePosition) : Decidable (position.AtMost other) :=
  inferInstanceAs (Decidable (_ ∧ _))

/-- The positions of one list are, source by source, at most those of the other. -/
def Below (positions others : List SourcePosition) : Prop :=
  List.Forall₂ SourcePosition.AtMost positions others

instance (positions others : List SourcePosition) : Decidable (Below positions others) :=
  inferInstanceAs (Decidable (List.Forall₂ _ _ _))

variable {first second : SourcePosition}

lemma SourcePosition.sameSource_symm (hsame : first.sameSource second = true) :
    second.sameSource first = true := by
  obtain ⟨htablet, hsource⟩ := sameSource_iff.mp hsame
  exact sameSource_iff.mpr ⟨htablet.symm, hsource.symm⟩

variable {third : SourcePosition}

lemma SourcePosition.sameSource_trans (hfirst : first.sameSource second = true)
    (hsecond : second.sameSource third = true) : first.sameSource third = true := by
  obtain ⟨htablet, hsource⟩ := sameSource_iff.mp hfirst
  obtain ⟨htablet', hsource'⟩ := sameSource_iff.mp hsecond
  exact sameSource_iff.mpr ⟨htablet.trans htablet', hsource.trans hsource'⟩

lemma SourcePosition.AtMost.trans (hfirst : first.AtMost second) (hsecond : second.AtMost third) :
    first.AtMost third :=
  ⟨sameSource_trans hfirst.1 hsecond.1, hfirst.2.trans hsecond.2⟩

lemma SourcePosition.AtMost.refl (position : SourcePosition) : position.AtMost position :=
  ⟨sameSource_iff.mpr ⟨rfl, rfl⟩, le_rfl⟩

lemma Below.refl (positions : List SourcePosition) : Below positions positions :=
  forall₂_same.mpr fun position _ => .refl position

lemma Below.trans {first second third : List SourcePosition} (hfirst : Below first second)
    (hsecond : Below second third) : Below first third := by
  induction hfirst generalizing third with
  | nil => exact hsecond
  | cons hhead _ ih =>
    cases hsecond with
    | cons hhead' htail' => exact .cons (hhead.trans hhead') (ih htail')

namespace SubscriptionRetentionCoordinator

/-! ### What the loops establish -/

variable {owners : ℕ → DurableOwner} {config : SubscriptionRetentionConfig}
  {metadata : MetadataStateMachine} {members : List SubscriptionRetentionMember}
  {frontiers storages candidates durables : List SourcePosition}

/-- The positions belong, one by one, to the members. -/
def Reads (members : List SubscriptionRetentionMember) (positions : List SourcePosition) : Prop :=
  List.Forall₂ (fun member position => position.sameSource member.position = true)
    members positions

/-- Of two lists in order both belong to the members, or none. -/
lemma reads_congr {positions others : List SourcePosition} (hbelow : Below positions others) :
    Reads members positions ↔ Reads members others := by
  induction hbelow generalizing members with
  | nil => rfl
  | cons hhead _ ih =>
    obtain _ | ⟨_, members⟩ := members
    · exact iff_of_false nofun nofun
    · refine forall₂_cons.trans (Iff.trans (and_congr ⟨fun hread => ?_, fun hread => ?_⟩ ih)
        forall₂_cons.symm)
      · exact sameSource_trans (sameSource_symm hhead.1) hread
      · exact sameSource_trans hhead.1 hread

/-- An owner that is admitted starts at or after the frontiers. -/
lemma below_of_validateOwnerPositions {owned : List MultiTabletSubscriptionMember}
    (hreads : Reads members frontiers) (hlength : owned.length = members.length)
    (hvalid : validateOwnerPositions members frontiers owned = .ok ()) :
    Below frontiers (owned.map (·.position)) := by
  induction hreads generalizing owned with
  | nil => rw [length_eq_zero_iff.mp hlength]; exact .nil
  | cons hread _ ih =>
    obtain _ | ⟨_, owned⟩ := owned
    · exact absurd hlength (by simp)
    · simp only [validateOwnerPositions, bind_eq_ok, require_eq_ok, exists_const] at hvalid
      obtain ⟨hsame, hstart, hrest⟩ := hvalid
      have hsource := sameSource_trans hread (sameSource_symm hsame)
      exact .cons ⟨hsource, hstart⟩ (ih (Nat.succ.inj hlength) hrest)

/-- The storage frontiers that pass the check are at or after the frontiers. -/
lemma below_of_checkMembers (hreads : Reads members frontiers)
    (hlength : storages.length = members.length)
    (hcheck : checkMembers config metadata members storages frontiers = .ok ()) :
    Below frontiers storages := by
  induction hreads generalizing storages with
  | nil => rw [length_eq_zero_iff.mp hlength]; exact .nil
  | cons hread _ ih =>
    obtain _ | ⟨_, storages⟩ := storages
    · exact absurd hlength (by simp)
    · simp only [checkMembers, bind_eq_ok, require_eq_ok, exists_const] at hcheck
      obtain ⟨⟨hsame, hle⟩, -, -, hrest⟩ := hcheck
      have hsource := sameSource_trans hread (sameSource_symm hsame)
      exact .cons ⟨hsource, hle⟩ (ih (Nat.succ.inj hlength) hrest)

variable {lowered : List SourcePosition}

/-- A candidate is lowered to at most what it was and at most the durable frontiers. -/
lemma below_of_lower (hlength : durables.length = candidates.length)
    (hlower : lower candidates durables = .ok lowered) :
    Below lowered candidates ∧ Below lowered durables := by
  induction candidates generalizing durables lowered with
  | nil =>
    rw [length_eq_zero_iff.mp hlength] at hlower ⊢
    rw [← ok.inj hlower]
    exact ⟨.nil, .nil⟩
  | cons candidate _ ih =>
    obtain _ | ⟨_, durables⟩ := durables
    · exact absurd hlength (by simp)
    · simp only [lower, bind_eq_ok, require_eq_ok, exists_const, ok.injEq] at hlower
      obtain ⟨hsame, _, hrest, rfl⟩ := hlower
      obtain ⟨hcandidates, hdurables⟩ := ih (Nat.succ.inj hlength) hrest
      have hcandidate := (SourcePosition.AtMost.refl candidate).1
      exact ⟨.cons ⟨hcandidate, min_le_left _ _⟩ hcandidates,
        .cons ⟨sameSource_symm hsame, min_le_right _ _⟩ hdurables⟩

/-- All owners have durable frontiers, and the candidate is at most each of them. -/
lemma below_of_lowerAll {registered : List ℕ}
    (hlower : lowerAll owners registered candidates = .ok (some lowered)) :
    Below lowered candidates ∧ ∀ owner ∈ registered,
      ∃ durable ∈ (owners owner).durableRetentionFrontiers, Below lowered durable := by
  induction registered generalizing candidates with
  | nil =>
    obtain rfl : candidates = lowered := Option.some.inj (ok.inj hlower)
    exact ⟨.refl _, nofun⟩
  | cons _ _ ih =>
    unfold lowerAll at hlower
    split at hlower
    · exact absurd (ok.inj hlower) nofun
    · next durable hdurable =>
      simp only [bind_eq_ok, require_eq_ok, exists_const] at hlower
      obtain ⟨hlength, _, hnext, hrest⟩ := hlower
      obtain ⟨hcandidates, hdurables⟩ := below_of_lower hlength hnext
      obtain ⟨hlowered, howners⟩ := ih hrest
      refine ⟨hlowered.trans hcandidates, ?_⟩
      rintro other (_ | ⟨_, hother⟩)
      · exact ⟨durable, hdurable, hlowered.trans hdurables⟩
      · exact howners other hother

variable {requests : List SubscriptionSourceReclamation}

/-- The requests ask for the candidate, which is at or after the frontiers. -/
lemma below_of_prepare {metadataIndex : ℕ} {advanced : Bool} (hreads : Reads members frontiers)
    (hcandidates : Reads members candidates)
    (hprepare : prepare metadataIndex members candidates frontiers = .ok (advanced, requests)) :
    requests.map (·.reclaimThrough) = candidates ∧ Below frontiers candidates := by
  induction hreads generalizing candidates advanced requests with
  | nil =>
    cases hcandidates
    rw [← (Prod.mk.inj (ok.inj hprepare)).2]
    exact ⟨rfl, .nil⟩
  | cons hread _ ih =>
    cases hcandidates with
    | cons hcandidate hcandidates =>
      simp only [prepare, bind_eq_ok, require_eq_ok, exists_const, ok.injEq,
        Prod.exists, Prod.mk.injEq] at hprepare
      obtain ⟨hle, _, _, hrest, -, rfl⟩ := hprepare
      obtain ⟨hrequests, hbelow⟩ := ih hcandidates hrest
      have hsource :=
        sameSource_trans hread (sameSource_symm hcandidate)
      exact ⟨by rw [map_cons, hrequests], .cons ⟨hsource, hle⟩ hbelow⟩

/-- What `advance` asks the reclaimer to remove. -/
lemma plan_reclaim {c : SubscriptionRetentionCoordinator} {candidate : List SourcePosition}
    (hreads : Reads c.config.members c.frontiers)
    (hplan : c.plan owners metadata storages = .ok (.reclaim candidate requests)) :
    requests.map (·.reclaimThrough) = candidate ∧ Below c.frontiers candidate ∧
      Below candidate storages ∧ ∀ owner ∈ c.config.subscriptionOwners,
        ∃ durable ∈ (owners owner).durableRetentionFrontiers, Below candidate durable := by
  simp only [plan, bind_eq_ok, require_eq_ok, exists_const] at hplan
  obtain ⟨hlength, -, _, hcheck, found, hlower, hrest⟩ := hplan
  obtain _ | _ := found
  · cases ok.inj hrest
  · simp only [bind_eq_ok, Prod.exists] at hrest
    obtain ⟨advanced, _, hprepare, hadvanced⟩ := hrest
    cases advanced with
    | false => cases ok.inj hadvanced
    | true =>
      obtain ⟨rfl, rfl⟩ := RetentionPlan.reclaim.inj (ok.inj hadvanced)
      have hstorage := below_of_checkMembers hreads hlength hcheck
      obtain ⟨hcandidate, howners⟩ := below_of_lowerAll hlower
      have hcandidates := (reads_congr hcandidate).mpr ((reads_congr hstorage).mp hreads)
      obtain ⟨hrequests, hbelow⟩ := below_of_prepare hreads hcandidates hprepare
      exact ⟨hrequests, hbelow, hcandidate, howners⟩

end SubscriptionRetentionCoordinator

namespace WalSubscriptionSourceReclaimer

variable {writers : WalWriters} {pending : List (ℕ × ℕ)}

lemma addPending_nodup (hnodup : (pending.map Prod.fst).Nodup) (writer sequence : ℕ) :
    ((addPending pending writer sequence).map Prod.fst).Nodup := by
  unfold addPending
  split_ifs with hany
  · have hkeys : (pending.map fun item =>
        if item.1 = writer then (writer, min item.2 sequence) else item).map Prod.fst =
          pending.map Prod.fst := by
      rw [map_map]
      refine map_congr_left fun item _ => ?_
      by_cases hitem : item.1 = writer <;> simp [hitem]
    rwa [hkeys]
  · have hnew : writer ∉ pending.map Prod.fst := by simpa using hany
    rw [map_append]
    exact hnodup.append (nodup_singleton _) (by simpa using hnew)

/-- A position that joins lowers the one of its writer and leaves the others. -/
lemma addPending_le (pending : List (ℕ × ℕ)) (writer sequence : ℕ) :
    (∃ next ∈ addPending pending writer sequence, next.1 = writer ∧ next.2 ≤ sequence) ∧
      ∀ prior ∈ pending, ∃ next ∈ addPending pending writer sequence,
        next.1 = prior.1 ∧ next.2 ≤ prior.2 := by
  unfold addPending
  split_ifs with hany
  · obtain ⟨found, hfound, hwriter⟩ := any_eq_true.mp hany
    have hwriter : found.1 = writer := of_decide_eq_true hwriter
    refine ⟨⟨_, mem_map_of_mem hfound, ?_⟩, fun prior hprior =>
      ⟨_, mem_map_of_mem hprior, ?_⟩⟩
    · simp [hwriter]
    · by_cases hprior : prior.1 = writer <;> simp [hprior]
  · exact ⟨⟨_, mem_append_right _ (mem_singleton_self _), rfl, le_rfl⟩,
      fun prior hprior => ⟨prior, mem_append_left _ hprior, rfl, le_rfl⟩⟩

variable {sources : List WalSubscriptionReclamationSource}
  {requests : List SubscriptionSourceReclamation}

/-- The position found for a writer is at most every position that joined it. -/
lemma le_of_collect {metadataIndex : ℕ} {found : List (ℕ × ℕ)}
    (hnodup : (pending.map Prod.fst).Nodup)
    (hcollect : collect writers metadataIndex pending sources requests = .ok found) {item : ℕ × ℕ}
    (hitem : item ∈ found) :
    (∀ prior ∈ pending, prior.1 = item.1 → item.2 ≤ prior.2) ∧
      ∀ pair ∈ sources.zip requests, pair.1.writer = item.1 →
        item.2 ≤ pair.2.reclaimThrough.recordSequence := by
  fun_induction collect writers metadataIndex pending sources requests with
  | case1 pending source _ request _ ih =>
    simp only [bind_eq_ok, require_eq_ok, exists_const] at hcollect
    obtain ⟨-, hrest⟩ := hcollect
    obtain ⟨hpending, hpairs⟩ := ih (addPending_nodup hnodup _ _) hrest
    obtain ⟨⟨joined, hjoined, hwriter, hle⟩, hcovered⟩ :=
      addPending_le pending source.writer request.reclaimThrough.recordSequence
    constructor
    · intro prior hprior hkey
      obtain ⟨next, hnext, hsame, hnextLe⟩ := hcovered prior hprior
      exact (hpending next hnext (hsame.trans hkey)).trans hnextLe
    · rintro pair (_ | ⟨_, hpair⟩) hkey
      · exact (hpending joined hjoined (hwriter.trans hkey)).trans hle
      · exact hpairs pair hpair hkey
  | case2 sources pending requests hdone =>
    obtain rfl : pending = found := ok.inj hcollect
    refine ⟨fun prior hprior hkey => ?_, fun pair hpair => ?_⟩
    · rw [inj_on_of_nodup_map hnodup hprior hitem hkey]
    · obtain _ | ⟨_, sources⟩ := sources
      · simp at hpair
      · obtain _ | ⟨_, requests⟩ := requests
        · simp at hpair
        · exact (hdone _ _ _ _ rfl rfl).elim

variable {checkpoints : List (ℕ × Option WalReplayCheckpoint)} {writer : ℕ}
  {checkpoint : WalReplayCheckpoint}

/-- A checkpoint is resolved at the position that was found for its writer. -/
lemma mem_of_resolveAll (hresolve : resolveAll writers pending = .ok checkpoints)
    (hmem : (writer, some checkpoint) ∈ checkpoints) :
    (writer, checkpoint.recordSequence) ∈ pending := by
  induction pending generalizing checkpoints with
  | nil =>
    rw [← ok.inj hresolve] at hmem
    exact absurd hmem nofun
  | cons _ _ ih =>
    simp only [resolveAll, bind_eq_ok, ok.injEq] at hresolve
    obtain ⟨_, hfirst, _, hothers, rfl⟩ := hresolve
    obtain heq | hmem := mem_cons.mp hmem
    · obtain ⟨rfl, rfl⟩ := Prod.mk.inj heq
      rw [writers.resolved _ _ _ hfirst]
      exact mem_cons_self
    · exact mem_cons_of_mem _ (ih hothers hmem)

/-- Only resolved checkpoints are removed. -/
lemma mem_of_removeAll (hmem : (writer, checkpoint) ∈ (removeAll writers checkpoints).1) :
    (writer, some checkpoint) ∈ checkpoints := by
  induction checkpoints with
  | nil => exact absurd hmem nofun
  | cons item _ ih =>
    obtain ⟨_, _ | _⟩ := item
    · exact mem_cons_of_mem _ (ih hmem)
    · simp only [removeAll] at hmem
      split at hmem
      · obtain ⟨rfl, rfl⟩ := Prod.mk.inj (mem_singleton.mp hmem)
        exact mem_cons_self
      · obtain heq | hmem := mem_cons.mp hmem
        · obtain ⟨rfl, rfl⟩ := Prod.mk.inj heq
          exact mem_cons_self
        · exact mem_cons_of_mem _ (ih hmem)

/-- A writer removes at most up to the least position asked for on its sources. -/
lemma le_of_mem_reclaim (hmem : (writer, checkpoint) ∈ (reclaim writers sources requests).1) :
    ∀ pair ∈ sources.zip requests, pair.1.writer = writer →
      checkpoint.recordSequence ≤ pair.2.reclaimThrough.recordSequence := by
  simp only [reclaim] at hmem
  split at hmem
  · exact absurd hmem nofun
  split at hmem
  · exact absurd hmem nofun
  split at hmem
  · exact absurd hmem nofun
  next pending hcollect =>
    split at hmem
    · exact absurd hmem nofun
    next checkpoints hresolve =>
      have hpending := mem_of_resolveAll hresolve (mem_of_removeAll hmem)
      have hstart : (([] : List (ℕ × ℕ)).map Prod.fst).Nodup := nodup_nil
      exact (le_of_collect hstart hcollect hpending).2

end WalSubscriptionSourceReclaimer

end Chronos.Live
