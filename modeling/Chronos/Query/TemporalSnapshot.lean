import Chronos.Common.OrderedMap
import Chronos.Query.ScalarSnapshot

/-!
`src/query/temporal_snapshot.cpp`: the committed versions of the rows of one table.

* `TemporalSnapshotProvider`: for every logical identity the history of its versions, and
  the position of the last commit at each commit time.
* `applyCommitted`, `compactHistory`, `restoreRetainedHistory`: the operations that change
  the histories; `resolve` reads the rows of a system time.

The mutex and the allocation failures are left out.
-/

namespace Chronos.Query

open Schema

/-- `TemporalMutationKind`. -/
inductive TemporalMutationKind where
  | original | correction | replacement | tombstone
  deriving DecidableEq, Repr

/-- `TemporalMutation`; equality is `equal_mutation`. -/
structure TemporalMutation where
  logicalIdentity : Bytes
  columns : List ScalarValue
  eventTimeNs : Int
  receiveTimeNs : Int
  walId : Uuid
  recordSequence : ℕ
  rowOrdinal : ℕ
  kind : TemporalMutationKind
  deriving DecidableEq

/-- `TemporalStoreLimits`. -/
structure TemporalStoreLimits where
  maximumLogicalRows : ℕ
  maximumVersions : ℕ
  maximumIdentityBytes : ℕ
  deriving DecidableEq

/-- `RetainedTemporalVersion`, and `Impl::Version`. -/
structure TemporalVersion where
  commitPosition : ℕ
  commitTimeNs : Int
  mutation : TemporalMutation
  deriving DecidableEq

/-- `TemporalHistoryCompactionReport`. -/
structure TemporalHistoryCompactionReport where
  previousOldestObservableCommitPosition : Option ℕ
  previousRetainedSystemTimeNs : Option Int
  oldestObservableCommitPosition : ℕ
  retainedSystemTimeNs : Int
  removedVersionCount : ℕ
  retainedVersionCount : ℕ
  deriving DecidableEq

/-- `TemporalSnapshotProvider::Impl`. -/
structure TemporalSnapshotProvider where
  schema : TableSchema
  limits : TemporalStoreLimits
  histories : OrderedMap Bytes (List TemporalVersion)
  timeToPosition : OrderedMap Int ℕ
  latestPosition : ℕ
  latestTime : Int
  oldestObservablePosition : Option ℕ
  earliestRetainedTime : Option Int
  versions : ℕ
  failed : Bool

/-- The status of a provider that failed closed. -/
def failedClosed : Status :=
  ⟨.unavailable, "temporal provider failed closed and requires recovery"⟩

namespace TemporalSnapshotProvider

/-- A provider without history. -/
def fresh (schema : TableSchema) (limits : TemporalStoreLimits) : TemporalSnapshotProvider where
  schema := schema
  limits := limits
  histories := .empty
  timeToPosition := .empty
  latestPosition := 0
  latestTime := 0
  oldestObservablePosition := none
  earliestRetainedTime := none
  versions := 0
  failed := false

/-- `TemporalSnapshotProvider::create`. -/
def create (schema : TableSchema) (limits : TemporalStoreLimits) :
    Result TemporalSnapshotProvider :=
  if limits.maximumLogicalRows = 0 ∨ limits.maximumVersions = 0 ∨ limits.maximumIdentityBytes = 0
      ∨ limits.maximumLogicalRows > limits.maximumVersions then
    invalid "temporal store limits are invalid"
  else .ok (fresh schema limits)

/-! ### Validation -/

/-- The row that a mutation shows; the generated identity is for schemas without a key. -/
def inputRow (schema : TableSchema) (identity : Bytes) (walId : Uuid)
    (recordSequence systemCommitPosition : ℕ) (mutation : TemporalMutation) : ScalarInputRow where
  columns := mutation.columns
  generatedLogicalIdentity := if schema.roles.deduplicationKey.isEmpty then identity else []
  walId := walId
  recordSequence := recordSequence
  systemCommitPosition := systemCommitPosition
  rowOrdinal := mutation.rowOrdinal

/-- The row that `validate` checks; before the WAL has assigned the source position, the schema and
the next position stand for it. -/
def checkedRow (provider : TemporalSnapshotProvider) (systemCommitPosition : ℕ)
    (requireSourcePosition : Bool) (mutation : TemporalMutation) : ScalarInputRow :=
  inputRow provider.schema mutation.logicalIdentity
    (if requireSourcePosition then mutation.walId else provider.schema.schemaId)
    (if requireSourcePosition then mutation.recordSequence else systemCommitPosition)
    systemCommitPosition mutation

/-- The checks of `validate` on one mutation, after the identities `seen` of its batch. -/
def validateMutation (provider : TemporalSnapshotProvider) (systemCommitPosition : ℕ)
    (requireSourcePosition allowRetainedPredecessor : Bool) (seen : List Bytes)
    (mutation : TemporalMutation) : Result Unit :=
  if mutation.logicalIdentity = []
      ∨ mutation.logicalIdentity.length > provider.limits.maximumIdentityBytes
      ∨ (requireSourcePosition = true ∧ (mutation.walId = 0 ∨ mutation.recordSequence = 0))
      ∨ mutation.columns.length ≠ provider.schema.columns.length then
    invalid "temporal mutation identity, source position, or row shape is invalid"
  else if mutation.logicalIdentity ∈ seen then
    invalid "one temporal commit batch contains duplicate logical identities"
  else if provider.histories.contains mutation.logicalIdentity = false
      ∧ allowRetainedPredecessor = false ∧ mutation.kind ≠ .original then
    invalid "correction, replacement, or tombstone requires an existing identity"
  else if provider.histories.contains mutation.logicalIdentity = true
      ∧ mutation.kind = .original then
    invalid "an existing temporal identity requires correction or replacement semantics"
  else if mutation.kind = .tombstone then .ok ()
  else do
    let _ ← ScalarTableSnapshot.create provider.schema systemCommitPosition
      [provider.checkedRow systemCommitPosition requireSourcePosition mutation]
    .ok ()

/-- The loop of `validate`: the number of identities without a history. -/
def validateMutations (provider : TemporalSnapshotProvider) (systemCommitPosition : ℕ)
    (requireSourcePosition allowRetainedPredecessor : Bool) :
    List Bytes → List TemporalMutation → Result ℕ
  | _, [] => .ok 0
  | seen, mutation :: mutations => do
    provider.validateMutation systemCommitPosition requireSourcePosition allowRetainedPredecessor
      seen mutation
    let newIdentities ← provider.validateMutations systemCommitPosition requireSourcePosition
      allowRetainedPredecessor (mutation.logicalIdentity :: seen) mutations
    .ok (newIdentities
      + if provider.histories.contains mutation.logicalIdentity then 0 else 1)

/-- `Impl::validate`. -/
def validate (provider : TemporalSnapshotProvider) (systemCommitPosition : ℕ)
    (systemCommitTimeNs : Int) (mutations : List TemporalMutation)
    (requireSourcePosition allowRetainedPredecessor : Bool) : Result Unit :=
  if provider.failed then .error failedClosed
  else if systemCommitPosition = 0 ∨ mutations = []
      ∨ systemCommitPosition ≤ provider.latestPosition
      ∨ (provider.latestPosition ≠ 0 ∧ systemCommitTimeNs < provider.latestTime) then
    invalid "temporal commits must advance position and nondecreasing system time"
  else if mutations.length > provider.limits.maximumVersions - provider.versions then
    .error ⟨.resourceExhausted, "temporal version capacity is exhausted"⟩
  else do
    let newIdentities ← provider.validateMutations systemCommitPosition requireSourcePosition
      allowRetainedPredecessor [] mutations
    if newIdentities > provider.limits.maximumLogicalRows - provider.histories.size then
      .error ⟨.resourceExhausted, "temporal logical-row capacity is exhausted"⟩
    else .ok ()

/-! ### Commits -/

/-- `histories[identity].push_back(version)`. -/
def pushVersion (histories : OrderedMap Bytes (List TemporalVersion)) (version : TemporalVersion) :
    OrderedMap Bytes (List TemporalVersion) :=
  histories.insert version.mutation.logicalIdentity
    ((histories.find? version.mutation.logicalIdentity).getD [] ++ [version])

/-- The provider with one more commit. -/
def installed (provider : TemporalSnapshotProvider) (systemCommitPosition : ℕ)
    (systemCommitTimeNs : Int) (mutations : List TemporalMutation) : TemporalSnapshotProvider :=
  { provider with
    histories := mutations.foldl (fun histories mutation =>
      pushVersion histories ⟨systemCommitPosition, systemCommitTimeNs, mutation⟩) provider.histories
    timeToPosition := provider.timeToPosition.insert systemCommitTimeNs systemCommitPosition
    versions := provider.versions + mutations.length
    latestPosition := systemCommitPosition
    latestTime := systemCommitTimeNs }

/-- `apply_committed`. -/
def applyCommitted (provider : TemporalSnapshotProvider) (systemCommitPosition : ℕ)
    (systemCommitTimeNs : Int) (mutations : List TemporalMutation) :
    Result Unit × TemporalSnapshotProvider :=
  match provider.validate systemCommitPosition systemCommitTimeNs mutations true false with
  | .error status => (.error status, provider)
  | .ok () => (.ok (), provider.installed systemCommitPosition systemCommitTimeNs mutations)

/-- `validate_next_commit`. -/
def validateNextCommit (provider : TemporalSnapshotProvider) (systemCommitTimeNs : Int)
    (mutations : List TemporalMutation) : Result Unit :=
  if provider.latestPosition = u64Max then
    .error ⟨.outOfRange, "temporal system commit position is exhausted"⟩
  else provider.validate (provider.latestPosition + 1) systemCommitTimeNs mutations false false

/-! ### Restoring retained versions -/

/-- The rows of one position are canonical: one time and source, increasing ordinals. -/
def canonicalRows (sourceId : Uuid) (position : ℕ) (commitTime : Int) :
    Option ℕ → List TemporalVersion → Bool
  | _, [] => true
  | previousOrdinal, version :: versions =>
    version.commitTimeNs = commitTime && version.mutation.walId = sourceId
      && version.mutation.recordSequence = position
      && (previousOrdinal.all fun ordinal => ordinal < version.mutation.rowOrdinal)
      && canonicalRows sourceId position commitTime (some version.mutation.rowOrdinal) versions

/-- One round of the loop of `restore_retained_history`: the versions of one position, after the
last version of the round before. -/
def restoreCommit (sourceId : Uuid) (staged : TemporalSnapshotProvider)
    (previous : Option TemporalVersion) (versions : List TemporalVersion) :
    Result TemporalSnapshotProvider :=
  match versions with
  | [] => .ok staged
  | first :: _ =>
    let position := first.commitPosition
    let commitTime := first.commitTimeNs
    if position = 0 ∨ sourceId = 0
        ∨ (∃ version ∈ previous, position ≤ version.commitPosition)
        ∨ (∃ version ∈ previous, commitTime < version.commitTimeNs) then
      invalid "retained temporal commits are not in canonical order"
    else if !canonicalRows sourceId position commitTime none versions then
      invalid "retained temporal commit rows are not canonical"
    else do
      let mutations := versions.map (·.mutation)
      staged.validate position commitTime mutations true true
      .ok (staged.installed position commitTime mutations)

/-- The loop of `restore_retained_history` over the versions of each position. -/
def restoreCommits (sourceId : Uuid) :
    TemporalSnapshotProvider → Option TemporalVersion → List (List TemporalVersion) →
      Result TemporalSnapshotProvider
  | staged, _, [] => .ok staged
  | staged, previous, versions :: rest => do
    let staged ← restoreCommit sourceId staged previous versions
    restoreCommits sourceId staged versions.getLast? rest

/-- `restore_retained_history`. -/
def restoreRetainedHistory (provider : TemporalSnapshotProvider) (retainedSystemTimeNs : Int)
    (versions : List TemporalVersion) : Result Unit × TemporalSnapshotProvider :=
  match versions with
  | [] => (invalid "retained temporal restore requires at least one version", provider)
  | first :: _ =>
    if provider.failed || provider.latestPosition ≠ 0 || provider.versions ≠ 0
        || provider.histories.size ≠ 0 || provider.timeToPosition.size ≠ 0
        || provider.earliestRetainedTime.isSome then
      (invalid "retained temporal restore requires one fresh provider", provider)
    else
      match restoreCommits first.mutation.walId (fresh provider.schema provider.limits) none
          (versions.splitBy fun left right => left.commitPosition = right.commitPosition) with
      | .error status => (.error status, provider)
      | .ok staged =>
        if retainedSystemTimeNs > staged.latestTime then
          (invalid "retained temporal boundary is ahead of restored history", provider)
        else
          (.ok (), { provider with
            histories := staged.histories
            timeToPosition := staged.timeToPosition
            latestPosition := staged.latestPosition
            latestTime := staged.latestTime
            earliestRetainedTime := some retainedSystemTimeNs
            versions := staged.versions })

/-! ### Reading -/

/-- The last version of a history up to a position. -/
def versionAt (history : List TemporalVersion) (boundary : ℕ) : Option TemporalVersion :=
  (history.takeWhile (·.commitPosition ≤ boundary)).getLast?

/-- The row that a version of an identity shows, none for a tombstone. -/
def shownRow (schema : TableSchema) (identity : Bytes) (version : TemporalVersion) :
    Option ScalarInputRow :=
  if version.mutation.kind = .tombstone then none
  else some (inputRow schema identity version.mutation.walId version.mutation.recordSequence
    version.commitPosition version.mutation)

/-- `resolve`. -/
def resolve (provider : TemporalSnapshotProvider) (boundSchema : TableSchema)
    (asOfSystemTimeNs : Option Int) : Result ScalarTableSnapshot :=
  if boundSchema.schemaId ≠ provider.schema.schemaId
      ∨ boundSchema.version ≠ provider.schema.version then
    invalid "temporal snapshot schema is incompatible"
  else if provider.failed then .error failedClosed
  else if asOfSystemTimeNs.any fun requested => provider.earliestRetainedTime.any (requested < ·)
  then .error ⟨.notFound, "requested system history has expired"⟩
  else
    let boundary := match asOfSystemTimeNs with
      | none => provider.latestPosition
      | some requested => ((provider.timeToPosition.lastLE requested).map (·.2)).getD 0
    ScalarTableSnapshot.create provider.schema boundary
      (provider.histories.entries.filterMap fun (identity, history) =>
        (versionAt history boundary).bind (shownRow provider.schema identity))

/-! ### Compaction -/

/-- The index of the first version that is kept, from a candidate downwards: a version that the
retained time still needs keeps its predecessor. -/
def predecessorIndex (history : List TemporalVersion) (retainedSystemTimeNs : Int) : ℕ → ℕ
  | 0 => 0
  | index + 1 =>
    if (history[index + 1]?).any (retainedSystemTimeNs ≤ ·.commitTimeNs) then
      predecessorIndex history retainedSystemTimeNs index
    else index + 1

/-- What `compact_history` keeps of one history. -/
def compactVersions (oldestObservableCommitPosition : ℕ) (retainedSystemTimeNs : Int)
    (history : List TemporalVersion) : List TemporalVersion :=
  match (history.takeWhile (·.commitPosition < oldestObservableCommitPosition)).length with
  | 0 => history
  | keep + 1 => history.drop (predecessorIndex history retainedSystemTimeNs keep)

/-- What `compact_history` keeps of the times: the last one before the boundary and the later
ones. -/
def compactTimes (retainedSystemTimeNs : Int) (times : OrderedMap Int ℕ) : OrderedMap Int ℕ :=
  ⟨times.entries.drop ((times.entries.takeWhile (·.1 < retainedSystemTimeNs)).length - 1),
    times.sorted.sublist (List.drop_sublist _ _)⟩

/-- `compact_history`. -/
def compactHistory (provider : TemporalSnapshotProvider) (oldestObservableCommitPosition : ℕ)
    (retainedSystemTimeNs : Int) :
    Result TemporalHistoryCompactionReport × TemporalSnapshotProvider :=
  if provider.failed then (.error failedClosed, provider)
  else if oldestObservableCommitPosition > provider.latestPosition
      ∨ retainedSystemTimeNs > provider.latestTime then
    (invalid "temporal retention boundary is ahead of committed state", provider)
  else if (provider.oldestObservablePosition.any (oldestObservableCommitPosition < ·))
      || (provider.earliestRetainedTime.any (retainedSystemTimeNs < ·)) then
    (invalid "temporal retention boundaries cannot regress", provider)
  else
    let histories := provider.histories.mapValues
      (compactVersions oldestObservableCommitPosition retainedSystemTimeNs)
    let removed := provider.histories.sum List.length - histories.sum List.length
    let compacted : TemporalSnapshotProvider :=
      { provider with
        histories := histories
        timeToPosition := compactTimes retainedSystemTimeNs provider.timeToPosition
        oldestObservablePosition := some oldestObservableCommitPosition
        earliestRetainedTime := some retainedSystemTimeNs
        versions := provider.versions - removed }
    (.ok ⟨provider.oldestObservablePosition, provider.earliestRetainedTime,
      oldestObservableCommitPosition, retainedSystemTimeNs, removed, compacted.versions⟩, compacted)

end TemporalSnapshotProvider

end Chronos.Query
