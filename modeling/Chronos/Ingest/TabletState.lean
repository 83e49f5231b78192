import Chronos.Ingest.Deduplication
import Chronos.Ingest.FlushQueue
import Chronos.Ingest.RetryDirectory

/-!
`src/ingest/tablet_state.cpp`: the in-memory state of one tablet.

* `TabletPublication`: the sealed generations, the active one, the applied position
  and the retry outcomes that a snapshot shows.
* `TabletState`: the registered schemas, all heads ever made, the publication and
  the one append that may be prepared.
* `prepare`, `markWalStarted`, `publish`, `cancelBeforeWal`, `abandon`: the life of
  an append.  `prepare` rotates to a new head on a schema switch or when the batch
  does not fit.
* `retireSealedGeneration`: a flushed generation leaves the publication.

Heads are shared by the state and by snapshots, so they live in a table by address,
and a snapshot names an address and a boundary.  Publications and outcomes, which the
source compares by address, are compared by value.  The flush queue is shared by many
tablets and is passed in and out.  Allocation failures and the hook of the tests are
left out.
-/

namespace Chronos.Ingest

open Schema Columnar Head

/-- `RetryTable`. -/
abbrev RetryTable := AList fun _ : RetryIdentity => RetryOutcome

/-- `RegisteredSchema`. -/
structure RegisteredSchema where
  schema : TableSchema
  capacity : MutableHeadCapacity
  deriving DecidableEq

/-- `TabletStateConfig`, without the queue. -/
structure TabletStateConfig where
  headCapacity : MutableHeadCapacity
  maximumSchemaVersions : ℕ
  maximumSealedGenerations : ℕ
  maximumRetryEntries : ℕ
  deriving DecidableEq

/-- `TabletPublication`, also `TabletSnapshot`. -/
structure TabletPublication where
  appliedPosition : Option HeadCommitPosition
  sealedGenerations : List HeadSnapshot
  activeGeneration : HeadSnapshot
  retries : RetryTable

/-- The generations of a publication, oldest first. -/
def TabletPublication.generations (publication : TabletPublication) : List HeadSnapshot :=
  publication.sealedGenerations ++ [publication.activeGeneration]

/-- `TabletStateCore`. -/
structure TabletState where
  lineage : SchemaLineage
  schemas : List RegisteredSchema
  activeSchemaIndex : ℕ
  tabletId : TabletId
  limits : TabletStateConfig
  heads : ℕ → MutableHeadState
  headCount : ℕ
  activeHead : ℕ
  publication : TabletPublication
  appendActive : Bool
  activeToken : ℕ
  activePhase : PreparedPhase
  nextToken : ℕ
  recoverySkipThrough : ℕ
  failed : Bool

/-- `PreparedTabletAppend::Impl`; `address` is the head the rows are reserved in. -/
structure PreparedTabletAppend where
  token : ℕ
  address : ℕ
  headAppend : PreparedHeadAppend
  base : TabletPublication
  retryIdentity : RetryIdentity
  outcome : RetryOutcome

/-- `TabletAppendResult`. -/
structure TabletAppendResult where
  snapshot : TabletPublication
  outcome : RetryOutcome

/-- `SealedGenerationRetirementReceipt`. -/
structure RetirementReceipt where
  tableId : TableId
  tabletId : TabletId
  schemaId : SchemaId
  schemaVersion : ℕ
  headGeneration : ℕ
  rowCount : ℕ
  walId : Wal.WalId
  minimumRecordSequence : ℕ
  maximumRecordSequence : ℕ
  deriving DecidableEq

/-! ### Reading -/

/-- The rows of a generation. -/
def generationRows (heads : ℕ → MutableHeadState) (snapshot : HeadSnapshot) : List HeadRow :=
  (heads snapshot.head).rows snapshot.publication

/-- The rows that a snapshot shows: those of the sealed generations, then those of the active
one. -/
def TabletPublication.rows (heads : ℕ → MutableHeadState) (publication : TabletPublication) :
    List HeadRow :=
  publication.generations.flatMap (generationRows heads)

/-- `TabletSnapshot::retry_outcome`. -/
def TabletPublication.retryOutcome (publication : TabletPublication) (identity : RetryIdentity) :
    Option RetryOutcome :=
  publication.retries.lookup identity

/-- Where a snapshot of the state finds its head. -/
def TabletState.generationOf (state : TabletState) (snapshot : HeadSnapshot) :
    MutableHeadState × HeadPublication :=
  (state.heads snapshot.head, snapshot.publication)

namespace TabletState

/-- Replaces the head at an address. -/
def setHead (state : TabletState) (address : ℕ) (head : MutableHeadState) : TabletState :=
  { state with heads := Function.update state.heads address head }

/-! ### Creation and schemas -/

/-- `TabletState::create`. -/
def create (schema : TableSchema) (tabletId : TabletId) (config : TabletStateConfig) :
    Result TabletState :=
  if config.maximumSchemaVersions = 0 ∨ config.maximumSealedGenerations = 0
      ∨ config.maximumRetryEntries = 0 then
    invalid "tablet schema, sealed-generation, and retry-entry bounds must be nonzero"
  else do
    let head ← MutableHeadState.create schema tabletId 1 config.headCapacity
    let lineage ← SchemaLineage.create schema
    return {
      lineage := lineage
      schemas := [⟨schema, config.headCapacity⟩]
      activeSchemaIndex := 0
      tabletId := tabletId
      limits := config
      heads := fun _ => head
      headCount := 1
      activeHead := 0
      publication := ⟨none, [], head.snapshot 0, ∅⟩
      appendActive := false
      activeToken := 0
      activePhase := .preWal
      nextToken := 1
      recoverySkipThrough := 0
      failed := false }

/-- `TabletStateCore::register_schema`. -/
def registerSchema (state : TabletState) (successor : TableSchema)
    (capacity : MutableHeadCapacity) : Result Unit × TabletState :=
  if state.failed then
    (unavailable "tablet state cannot register a schema after failure", state)
  else if state.appendActive then
    (unavailable "tablet state cannot register a schema during a prepared append", state)
  else if state.schemas.length ≥ state.limits.maximumSchemaVersions then
    (exhausted "tablet schema registry reached its configured version bound", state)
  else
    match state.lineage.append successor with
    | .error status => (.error status, state)
    | .ok lineage =>
      (.ok (), { state with
        schemas := state.schemas ++ [⟨successor, capacity⟩]
        lineage := lineage })

/-! ### Preparing an append -/

/-- `find_schema_index`. -/
def findSchemaIndex (state : TabletState) (candidate : TableSchema) : Option ℕ :=
  state.schemas.findIdx? fun registered => registered.schema = candidate

/-- `schemas_.front().schema->table_id()` is the given identity. -/
def isTable (state : TabletState) (tableId : TableId) : Bool :=
  state.schemas.head?.map (·.schema.tableId) = some tableId

/-- `validate_request`. -/
def validateRequest (state : TabletState) (mutation : MutationIdentity) (batch : ColumnarBatch) :
    Result ℕ :=
  if state.failed then unavailable "tablet state is failed and requires fresh recovery"
  else if state.appendActive then unavailable "tablet state already has a prepared append"
  else if batch.rowCount = 0 then invalid "tablet append requires at least one row"
  else if !state.isTable mutation.tableId ∨ mutation.tabletId ≠ state.tabletId then
    invalid "tablet append mutation identity does not match the bound tablet"
  else
    match state.findSchemaIndex batch.schema with
    | none => invalid "tablet append batch schema is not registered for this tablet"
    | some index =>
      if index < state.activeSchemaIndex then
        invalid "new tablet append cannot return to an ancestor schema"
      else .ok index

/-- The checks of `prepare` on the retry table and the deduplication key. -/
def checkAdmission (state : TabletState) (retryIdentity : RetryIdentity)
    (mutation : MutationIdentity) (batch : ColumnarBatch) : Result Unit :=
  if state.nextToken = u64Max then exhausted "tablet state exhausted its append token space"
  else
    match state.publication.retries.lookup retryIdentity with
    | some existing =>
      if existing.mutation = mutation then
        alreadyExists "tablet retry identity already has a matching published outcome"
      else invalid "tablet retry identity conflicts with a published mutation"
    | none =>
      if state.publication.retries.entries.length ≥ state.limits.maximumRetryEntries then
        exhausted "tablet retry table reached its configured entry bound"
      else
        validateAppendDeduplication batch (state.publication.generations.map state.generationOf)

/-- Whether the append needs a new head. -/
def needsRotation (state : TabletState) (index : ℕ) (batch : ColumnarBatch) : Result Bool :=
  if index ≠ state.activeSchemaIndex then .ok true
  else
    match (state.heads state.activeHead).checkAppend batch with
    | .ok () => .ok false
    | .error status =>
      if status.code ≠ .resourceExhausted then .error status
      else if state.publication.activeGeneration.rowCount = 0 then
        exhausted "tablet append does not fit an empty mutable-head generation"
      else .ok true

/-- Whether a rotation keeps the active generation. -/
def retainsActive (state : TabletState) : Bool :=
  state.publication.activeGeneration.rowCount ≠ 0

/-- The bounds that a rotation checks first. -/
def checkRotation (state : TabletState) : Result Unit :=
  if state.retainsActive ∧
      state.publication.sealedGenerations.length ≥ state.limits.maximumSealedGenerations then
    exhausted "tablet sealed-generation retention bound prevents rotation"
  else if state.publication.activeGeneration.generation = u64Max then
    exhausted "tablet exhausted its mutable-head generation number space"
  else .ok ()

/-- The reservation of a rotation in the queue, if there is one to make. -/
def reserveFlush (state : TabletState) (queue : Option FlushQueue) :
    Result (Option FlushReservation) × Option FlushQueue :=
  match queue with
  | none => (.ok none, none)
  | some queue =>
    if state.retainsActive then
      match queue.reserve with
      | (.error status, queue) => (.error status, some queue)
      | (.ok reservation, queue) => (.ok (some reservation), some queue)
    else (.ok none, some queue)

/-- Drops a reservation that was not published. -/
def cancelFlush (queue : Option FlushQueue) (reservation : Option FlushReservation) :
    Option FlushQueue :=
  match queue, reservation with
  | some queue, some reservation => some (queue.cancel reservation)
  | queue, _ => queue

/-- Stages and publishes a sealed snapshot. -/
def publishFlush (queue : Option FlushQueue) (reservation : Option FlushReservation)
    (snapshot : HeadSnapshot) : Option FlushQueue :=
  match queue, reservation with
  | some queue, some reservation => some ((queue.stage reservation snapshot).publish reservation)
  | queue, _ => queue

/-- The head that a rotation creates for a batch. -/
def rotatedHead (state : TabletState) (index : ℕ) (batch : ColumnarBatch) :
    Result MutableHeadState :=
  match state.schemas[index]? with
  | none => internal "tablet schema index is out of range"
  | some destination => do
    let head ← MutableHeadState.create destination.schema state.tabletId
      (state.publication.activeGeneration.generation + 1) destination.capacity
    match head.checkAppend batch with
    | .ok () => return head
    | .error status =>
      if status.code = .resourceExhausted then
        exhausted "tablet append does not fit an empty mutable-head generation"
      else .error status

/-- The publication of a rotation. -/
def topology (state : TabletState) (head : MutableHeadState) : TabletPublication :=
  { state.publication with
    sealedGenerations :=
      if state.retainsActive then
        state.publication.sealedGenerations ++ [state.publication.activeGeneration]
      else state.publication.sealedGenerations
    activeGeneration := head.snapshot state.headCount }

/-- The owner of an append that was reserved in a head. -/
def prepared (state : TabletState) (base : TabletPublication) (address : ℕ)
    (headAppend : PreparedHeadAppend) (retryIdentity : RetryIdentity)
    (mutation : MutationIdentity) (batch : ColumnarBatch) : PreparedTabletAppend :=
  ⟨state.nextToken, address, headAppend, base, retryIdentity,
    ⟨mutation, .wal, nilWalId, 0, 0, batch.rowCount⟩⟩

/-- The state once an append is prepared. -/
def activate (state : TabletState) : TabletState :=
  { state with
    nextToken := state.nextToken + 1
    appendActive := true
    activeToken := state.nextToken
    activePhase := .preWal }

/-- The part of `prepare` that reserves rows in the active head. -/
def prepareActive (state : TabletState) (retryIdentity : RetryIdentity)
    (mutation : MutationIdentity) (batch : ColumnarBatch) :
    Result PreparedTabletAppend × TabletState :=
  match (state.heads state.activeHead).prepare batch with
  | (.error status, head) => (.error status, state.setHead state.activeHead head)
  | (.ok headAppend, head) =>
    (.ok (state.prepared state.publication state.activeHead headAppend retryIdentity mutation
        batch),
      (state.setHead state.activeHead head).activate)

/-- The state of a rotation: the old head sealed, the new one active. -/
def rotated (state : TabletState) (index : ℕ) (topology : TabletPublication)
    (sealedHead head : MutableHeadState) : TabletState :=
  { state with
    heads := Function.update (Function.update state.heads state.activeHead sealedHead)
      state.headCount head
    headCount := state.headCount + 1
    activeHead := state.headCount
    activeSchemaIndex := index
    publication := topology }

/-- The part of `prepare` that rotates and reserves rows in the new head. -/
def prepareRotated (state : TabletState) (queue : Option FlushQueue) (index : ℕ)
    (retryIdentity : RetryIdentity) (mutation : MutationIdentity) (batch : ColumnarBatch) :
    Result PreparedTabletAppend × TabletState × Option FlushQueue :=
  match state.checkRotation with
  | .error status => (.error status, state, queue)
  | .ok () =>
    match state.reserveFlush queue with
    | (.error status, queue) => (.error status, state, queue)
    | (.ok reservation, queue) =>
      match state.rotatedHead index batch with
      | .error status => (.error status, state, cancelFlush queue reservation)
      | .ok head =>
        match head.prepare batch with
        | (.error status, _) => (.error status, state, cancelFlush queue reservation)
        | (.ok headAppend, reservedHead) =>
          match (state.heads state.activeHead).seal with
          | (.error status, sealedHead) =>
            (.error status, { state.setHead state.activeHead sealedHead with failed := true },
              cancelFlush queue reservation)
          | (.ok boundary, sealedHead) =>
            let sealedSnapshot : HeadSnapshot :=
              { sealedHead.snapshot state.activeHead with publication := boundary }
            let active := state.publication.activeGeneration
            if sealedSnapshot.generation ≠ active.generation
                ∨ sealedSnapshot.rowCount ≠ active.rowCount
                ∨ boundary.appliedPosition ≠ active.publication.appliedPosition then
              (internal "tablet rotation sealed an unexpected generation boundary",
                { state.setHead state.activeHead sealedHead with failed := true },
                cancelFlush queue reservation)
            else
              let topology := state.topology head
              (.ok (state.prepared topology state.headCount headAppend retryIdentity mutation
                  batch),
                (state.rotated index topology sealedHead reservedHead).activate,
                publishFlush queue reservation sealedSnapshot)

/-- `TabletStateCore::prepare`. -/
def prepare (state : TabletState) (queue : Option FlushQueue) (retryIdentity : RetryIdentity)
    (mutation : MutationIdentity) (batch : ColumnarBatch) :
    Result PreparedTabletAppend × TabletState × Option FlushQueue :=
  match state.validateRequest mutation batch with
  | .error status => (.error status, state, queue)
  | .ok index =>
    match state.checkAdmission retryIdentity mutation batch with
    | .error status => (.error status, state, queue)
    | .ok () =>
      match state.needsRotation index batch with
      | .error status => (.error status, state, queue)
      | .ok true => state.prepareRotated queue index retryIdentity mutation batch
      | .ok false =>
        let (result, state) := state.prepareActive retryIdentity mutation batch
        (result, state, queue)

/-! ### Finishing an append -/

/-- Whether a prepared append is the one that the state knows of. -/
def ownsAppend (state : TabletState) (prepared : PreparedTabletAppend) : Bool :=
  state.appendActive && state.activeToken = prepared.token

/-- `TabletStateCore::mark_wal_started`. -/
def markWalStarted (state : TabletState) (prepared : PreparedTabletAppend) :
    Result Unit × TabletState :=
  if !state.ownsAppend prepared then
    (internal "prepared tablet append ownership was lost", state)
  else if state.activePhase ≠ .preWal then
    (invalid "prepared tablet append has already crossed its pre-WAL boundary", state)
  else if state.failed then
    (unavailable "tablet state cannot start WAL work after failure", state)
  else
    match (state.heads prepared.address).markWalStarted prepared.headAppend.token with
    | (.error status, head) =>
      (.error status,
        { state.setHead prepared.address head with failed := true, appendActive := false })
    | (.ok (), head) =>
      (.ok (), { state.setHead prepared.address head with activePhase := .walStarted })

/-- `TabletStateCore::validate_position`. -/
def validatePosition (position : HeadCommitPosition) (base : TabletPublication) : Result Unit :=
  if !position.isValid then
    invalid "tablet append requires a valid commit-log identity and position"
  else
    match base.appliedPosition with
    | none => .ok ()
    | some applied =>
      if !position.sameLog applied ∨ position.recordSequence ≤ applied.recordSequence then
        invalid "tablet append position must advance within one commit-log history"
      else .ok ()

/-- What a publication shares with its base: the source compares addresses, and the state
publishes nothing while an append is prepared. -/
def publishesBase (state : TabletState) (base : TabletPublication) : Bool :=
  state.publication.appliedPosition = base.appliedPosition &&
    state.publication.sealedGenerations = base.sealedGenerations &&
    state.publication.activeGeneration = base.activeGeneration &&
    state.publication.retries.entries = base.retries.entries

/-- The state after a failed publication. -/
def fail (state : TabletState) : TabletState :=
  { state with failed := true, appendActive := false }

/-- The publication that an append makes. -/
def nextPublication (prepared : PreparedTabletAppend) (position : HeadCommitPosition)
    (boundary : HeadPublication) : TabletPublication :=
  { prepared.base with
    appliedPosition := some position
    activeGeneration := { prepared.base.activeGeneration with publication := boundary }
    retries := prepared.base.retries.insert prepared.retryIdentity
      (.at prepared.outcome.mutation prepared.outcome.appliedRowCount position) }

/-- `TabletStateCore::publish`. -/
def publish (state : TabletState) (prepared : PreparedTabletAppend)
    (position : HeadCommitPosition) : Result TabletAppendResult × TabletState :=
  if !state.ownsAppend prepared then
    (internal "prepared tablet append ownership was lost", state)
  else if state.activePhase ≠ .walStarted then
    (invalid "tablet append cannot publish before WAL submission begins", state)
  else if state.failed then (unavailable "tablet state cannot publish after failure", state)
  else if !state.publishesBase prepared.base then
    (internal "tablet publication base changed unexpectedly", state.fail)
  else
    match validatePosition position prepared.base with
    | .error status => (.error status, state.fail)
    | .ok () =>
      if prepared.outcome.recordSequence ≠ 0 ∨ prepared.outcome.walId.isValid
          ∨ prepared.outcome.raftGroupId ≠ 0 then
        (internal "tablet prepared publication state is inconsistent", state.fail)
      else
        match (state.heads prepared.address).publish prepared.headAppend position with
        | (.error status, head) => (.error status, (state.setHead prepared.address head).fail)
        | (.ok boundary, head) =>
          let next := nextPublication prepared position boundary
          (.ok ⟨next, .at prepared.outcome.mutation prepared.outcome.appliedRowCount position⟩,
            { state.setHead prepared.address head with publication := next, appendActive := false })

/-- `TabletStateCore::cancel_before_wal`. -/
def cancelBeforeWal (state : TabletState) (prepared : PreparedTabletAppend) :
    Result Unit × TabletState :=
  if !state.ownsAppend prepared then
    (internal "prepared tablet append ownership was lost", state)
  else if state.activePhase ≠ .preWal then
    (invalid "prepared tablet append cannot cancel after WAL submission begins", state)
  else
    match (state.heads prepared.address).cancelBeforeWal prepared.headAppend.token with
    | (.error status, head) => (.error status, state.setHead prepared.address head)
    | (.ok (), head) =>
      (.ok (), { state.setHead prepared.address head with appendActive := false })

/-- `TabletStateCore::abandon`, without the head. -/
def abandonToken (state : TabletState) (prepared : PreparedTabletAppend) : TabletState :=
  if !state.ownsAppend prepared then state
  else if state.activePhase = .walStarted then state.fail
  else { state with appendActive := false }

/-- What dropping a prepared append does: the tablet abandons it, then its head. -/
def abandon (state : TabletState) (prepared : PreparedTabletAppend) : TabletState :=
  let state := state.abandonToken prepared
  state.setHead prepared.address
    ((state.heads prepared.address).abandon prepared.headAppend.token)

/-! ### Retirement -/

/-- The loop over the rows of a generation that checks a receipt: the least and the greatest
record sequence. -/
def recordBounds (accepts : HeadRowMetadata → Result Unit) :
    List HeadRowMetadata → ℕ → ℕ → Result (ℕ × ℕ)
  | [], minimum, maximum => .ok (minimum, maximum)
  | metadata :: rows, minimum, maximum => do
    accepts metadata
    recordBounds accepts rows (min minimum metadata.commitPosition.recordSequence)
      (max maximum metadata.commitPosition.recordSequence)

/-- The metadata of the rows of a generation. -/
def generationMetadata (head : MutableHeadState) (publication : HeadPublication) :
    List HeadRowMetadata :=
  (List.range publication.rowCount).map fun row => head.rowMetadata.getD row blankMetadata

/-- A row belongs to the WAL of a receipt. -/
def acceptsWal (receipt : RetirementReceipt) (metadata : HeadRowMetadata) : Result Unit :=
  if metadata.commitPosition.walId ≠ receipt.walId then
    invalid "sealed-generation retirement receipt belongs to a different WAL history"
  else .ok ()

/-- The checks of `retire_sealed_generation` on the generation that a receipt names. -/
def checkReceipt (state : TabletState) (receipt : RetirementReceipt) (found : HeadSnapshot) :
    Result Unit :=
  if found.schema.schemaId ≠ receipt.schemaId ∨ found.schema.version ≠ receipt.schemaVersion
      ∨ found.rowCount ≠ receipt.rowCount ∨ (state.heads found.head).isSealed = false
      ∨ receipt.minimumRecordSequence = 0
      ∨ receipt.maximumRecordSequence < receipt.minimumRecordSequence then
    invalid "sealed-generation retirement receipt disagrees with the retained head"
  else do
    let (minimum, maximum) ← recordBounds (acceptsWal receipt)
      (generationMetadata (state.heads found.head) found.publication) u64Max 0
    if minimum ≠ receipt.minimumRecordSequence ∨ maximum ≠ receipt.maximumRecordSequence then
      invalid "sealed-generation retirement receipt record bounds disagree with the head"
    else .ok ()

/-- `TabletStateCore::retire_sealed_generation`. -/
def retireSealedGeneration (state : TabletState) (receipt : RetirementReceipt) :
    Result TabletPublication × TabletState :=
  if state.failed then
    (unavailable "tablet state cannot retire a sealed generation after failure", state)
  else if state.appendActive then
    (unavailable "tablet state cannot retire a sealed generation during a prepared append", state)
  else if !state.isTable receipt.tableId ∨ receipt.tabletId ≠ state.tabletId then
    (invalid "sealed-generation retirement receipt names a different tablet", state)
  else
    match state.publication.sealedGenerations.findIdx?
        fun candidate => candidate.generation = receipt.headGeneration with
    | none =>
      if receipt.headGeneration ≥ state.publication.activeGeneration.generation then
        (invalid "sealed-generation retirement receipt does not name a past generation", state)
      else (.ok state.publication, state)
    | some index =>
      match state.publication.sealedGenerations[index]? with
      | none => (internal "tablet sealed generation disappeared", state)
      | some found =>
        match state.checkReceipt receipt found with
        | .error status => (.error status, state)
        | .ok () =>
          let next : TabletPublication :=
            { state.publication with
              sealedGenerations := state.publication.sealedGenerations.eraseIdx index }
          (.ok next, { state with publication := next })

end TabletState

end Chronos.Ingest
