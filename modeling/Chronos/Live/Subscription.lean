import Chronos.Common.OrderedMap
import Chronos.Live.ResumeToken

/-!
`src/live/subscription.cpp`: the subscriptions to the committed changes of one tablet.

* `SubscriptionManager`: the position of the last change, the changes that are still retained, and
  for each subscription its phase and the changes that it has not acknowledged.
* `registerSubscription`, `resumeSubscription`, `completeSnapshot`, `publishCommitted`, `poll`,
  `acknowledge`, `cancel`, `abandon`: the calls.  Each returns the manager as it is left, also with
  an error.

Allocation failures are left out.
-/

namespace Chronos.Live

open Schema

/-- `SubscriptionSource`. -/
structure SubscriptionSource where
  databaseId : Uuid
  tableId : Uuid
  tabletId : Uuid
  walId : Uuid
  planFingerprint : List UInt8
  schemaId : Uuid
  schemaVersion : ℕ
  tokenKey : List UInt8
  deriving DecidableEq

/-- The position of a sequence in the log of the source. -/
def SubscriptionSource.position (source : SubscriptionSource) (sequence : ℕ) : SourcePosition :=
  ⟨source.tabletId, .wal source.walId, sequence⟩

/-- `SubscriptionManager::Impl::State`. -/
structure SubscriptionState where
  request : SubscriptionRequest
  phase : SubscriptionPhase
  snapshotBoundary : SourcePosition
  safePosition : SourcePosition
  lastAssignedSequence : ℕ
  lastPolledSequence : ℕ
  lastAcknowledgedSequence : ℕ
  bufferedBytes : ℕ
  buffered : List DeliveryRecord
  deriving DecidableEq

/-- The phases in which changes are buffered. -/
def SubscriptionState.active (state : SubscriptionState) : Bool :=
  state.phase = .snapshot || state.phase = .live

/-- A state that has ended: its phase is set and its buffer is cleared. -/
def SubscriptionState.ended (state : SubscriptionState) (phase : SubscriptionPhase) :
    SubscriptionState :=
  { state with phase, buffered := [], bufferedBytes := 0 }

/-- `SubscriptionManager`. -/
structure SubscriptionManager where
  source : SubscriptionSource
  limits : SubscriptionLimits
  latestPosition : SourcePosition
  planSchemaCompatible : Bool
  retainedChangeBytes : ℕ
  retainedChanges : List CommittedChange
  subscriptions : OrderedMap Uuid SubscriptionState

namespace SubscriptionManager

/-- The check of the source in `create`. -/
def validSource (source : SubscriptionSource) : Bool :=
  source.databaseId ≠ 0 && source.tableId ≠ 0 && source.tabletId ≠ 0 && source.walId ≠ 0 &&
    source.schemaId ≠ 0 && source.schemaVersion ≠ 0 && !keyIsZero source.tokenKey

/-- `SubscriptionManager::create`. -/
def create (source : SubscriptionSource) (limits : SubscriptionLimits) :
    Result SubscriptionManager :=
  if !validSource source then
    .error ⟨.invalidArgument, "subscription source identities and MAC key must be valid"⟩
  else if !limits.valid then
    .error ⟨.invalidArgument, "subscription limits are inconsistent or zero"⟩
  else .ok ⟨source, limits, source.position 0, true, 0, [], .empty⟩

variable (manager : SubscriptionManager)

/-- `token_for`. -/
def tokenFor (state : SubscriptionState) : ResumeToken :=
  ⟨manager.source.databaseId, state.request.subscriptionId, state.request.schemaId,
    state.request.schemaVersion, state.lastAcknowledgedSequence, state.request.planFingerprint,
    [state.safePosition]⟩

/-- `encode_token`. -/
def encodeToken (state : SubscriptionState) : Result EncodedToken :=
  encodeResumeToken (manager.tokenFor state) manager.source.tokenKey

/-- `can_buffer`; the buffered bytes never exceed their limit. -/
def canBuffer (state : SubscriptionState) (bytes : ℕ) : Bool :=
  state.buffered.length < manager.limits.maximumBufferedChangesPerSubscription &&
    bytes ≤ manager.limits.maximumBufferedBytesPerSubscription - state.bufferedBytes

/-- `append`. -/
def append (change : CommittedChange) (state : SubscriptionState) : SubscriptionState :=
  if state.lastAssignedSequence = u64Max ∨ ¬manager.canBuffer state change.size then
    state.ended .overflowed
  else
    { state with
      lastAssignedSequence := state.lastAssignedSequence + 1
      buffered := state.buffered ++ [⟨state.lastAssignedSequence + 1, change⟩]
      bufferedBytes := state.bufferedBytes + change.size }

/-- `SubscriptionRegistration`. -/
structure Registration where
  snapshotBoundary : SourcePosition
  token : EncodedToken
  deriving DecidableEq

/-- The manager with one subscription set. -/
def withSubscription (id : Uuid) (state : SubscriptionState) : SubscriptionManager :=
  { manager with subscriptions := manager.subscriptions.insert id state }

/-- `register_subscription`. -/
def registerSubscription (request : SubscriptionRequest) :
    SubscriptionManager × Result Registration :=
  if request.subscriptionId = 0 ∨ request.planFingerprint ≠ manager.source.planFingerprint ∨
      request.schemaId ≠ manager.source.schemaId ∨
      request.schemaVersion ≠ manager.source.schemaVersion then
    (manager, .error ⟨.invalidArgument,
      "subscription request does not match the manager plan and schema"⟩)
  else if !manager.planSchemaCompatible then
    (manager, .error ⟨.notSupported, "subscription plan schema has changed"⟩)
  else if manager.subscriptions.contains request.subscriptionId then
    (manager, .error ⟨.alreadyExists, "subscription identity is already registered"⟩)
  else if manager.limits.maximumSubscriptions ≤ manager.subscriptions.size then
    (manager, .error ⟨.resourceExhausted, "subscription capacity is exhausted"⟩)
  else
    let state : SubscriptionState :=
      ⟨request, .snapshot, manager.latestPosition, manager.latestPosition, 0, 0, 0, 0, []⟩
    match manager.encodeToken state with
    | .error status => (manager, .error status)
    | .ok token => (manager.withSubscription request.subscriptionId state,
        .ok ⟨manager.latestPosition, token⟩)

/-- The loop of `resume_subscription` over the retained changes. -/
def resumeChanges (safe : ℕ) : List CommittedChange → SubscriptionState →
    Result SubscriptionState
  | [], state => .ok state
  | change :: changes, state =>
    if change.position.recordSequence ≤ safe then resumeChanges safe changes state
    else if change.schemaId ≠ state.request.schemaId ∨
        change.schemaVersion ≠ state.request.schemaVersion then
      .error ⟨.notSupported, "resume token plan schema is incompatible"⟩
    else if !manager.canBuffer state change.size then
      .error ⟨.resourceExhausted, "retained suffix exceeds subscriber buffer"⟩
    else resumeChanges safe changes (manager.append change state)

/-- `resume_subscription` once no subscription of the identity is registered. -/
def resumeFresh (token : ResumeToken) (safe : SourcePosition) :
    SubscriptionManager × Result Registration :=
  if manager.limits.maximumSubscriptions ≤ manager.subscriptions.size then
    (manager, .error ⟨.resourceExhausted, "subscription capacity is exhausted"⟩)
  else if manager.latestPosition.recordSequence < safe.recordSequence then
    (manager, .error ⟨.outOfRange, "resume token is ahead of committed source state"⟩)
  else if safe.recordSequence < manager.latestPosition.recordSequence ∧
      manager.retainedChanges.head?.all
        (safe.recordSequence + 1 < ·.position.recordSequence) then
    (manager, .error ⟨.notFound, "resume token committed suffix has expired"⟩)
  else
    let state : SubscriptionState :=
      ⟨⟨token.subscriptionId, token.planFingerprint, token.schemaId, token.schemaVersion⟩, .live,
        safe, safe, token.safeDeliverySequence, token.safeDeliverySequence,
        token.safeDeliverySequence, 0, []⟩
    match manager.resumeChanges safe.recordSequence manager.retainedChanges state with
    | .error status => (manager, .error status)
    | .ok state =>
      match manager.encodeToken state with
      | .error status => (manager, .error status)
      | .ok refreshed =>
        (manager.withSubscription token.subscriptionId state, .ok ⟨safe, refreshed⟩)

/-- `resume_subscription` of a decoded token: a subscription that has ended is erased first. -/
def resumeToken (token : ResumeToken) (safe : SourcePosition) :
    SubscriptionManager × Result Registration :=
  match manager.subscriptions.find? token.subscriptionId with
  | none => manager.resumeFresh token safe
  | some state =>
    if state.active then
      (manager, .error ⟨.alreadyExists, "subscription identity is already active"⟩)
    else resumeFresh
      { manager with subscriptions := manager.subscriptions.erase token.subscriptionId } token safe

/-- `resume_subscription`. -/
def resumeSubscription (encoded : EncodedToken) : SubscriptionManager × Result Registration :=
  match decodeResumeToken encoded manager.source.tokenKey 1 with
  | .error status => (manager, .error status)
  | .ok token =>
    match token.sourcePositions with
    | [safe] =>
      if token.databaseId ≠ manager.source.databaseId ∨
          ¬safe.sameSource manager.latestPosition ∨
          token.planFingerprint ≠ manager.source.planFingerprint ∨
          token.schemaId ≠ manager.source.schemaId ∨
          token.schemaVersion ≠ manager.source.schemaVersion then
        (manager, .error ⟨.invalidArgument,
          "resume token belongs to another source, plan, or schema lineage"⟩)
      else if !manager.planSchemaCompatible then
        (manager, .error ⟨.notSupported, "resume token plan schema has changed"⟩)
      else manager.resumeToken token safe
    | _ => (manager, .error ⟨.invalidArgument,
        "resume token belongs to another source, plan, or schema lineage"⟩)

/-- The error of a call for an identity that is not registered. -/
def notRegistered : Status := ⟨.notFound, "subscription is not registered"⟩

/-- `complete_snapshot`. -/
def completeSnapshot (id : Uuid) : SubscriptionManager × Result Unit :=
  match manager.subscriptions.find? id with
  | none => (manager, .error notRegistered)
  | some state =>
    match state.phase with
    | .snapshot => (manager.withSubscription id { state with phase := .live }, .ok ())
    | .live => (manager, .ok ())
    | _ => (manager, .error ⟨.unavailable, "subscription cannot complete a terminal snapshot"⟩)

/-- The loop of `publish_committed` that drops the oldest retained changes. -/
def trim (limits : SubscriptionLimits) : List CommittedChange → ℕ → List CommittedChange × ℕ
  | [], bytes => ([], bytes)
  | change :: changes, bytes =>
    if limits.maximumRetainedChanges < changes.length + 1 ∨ limits.maximumRetainedBytes < bytes then
      trim limits changes (bytes - change.size)
    else (change :: changes, bytes)

/-- `invalidate_plan_schema`. -/
def invalidatePlanSchema : SubscriptionManager :=
  { manager with
    planSchemaCompatible := false
    retainedChanges := []
    retainedChangeBytes := 0
    subscriptions := manager.subscriptions.mapValues fun state =>
      if state.active then state.ended .schemaChanged else state }

/-- The change is retained and handed to every active subscription. -/
def deliver (change : CommittedChange) : SubscriptionManager :=
  let trimmed := trim manager.limits (manager.retainedChanges ++ [change])
    (manager.retainedChangeBytes + change.size)
  { manager with
    latestPosition := change.position
    retainedChanges := trimmed.1
    retainedChangeBytes := trimmed.2
    subscriptions := manager.subscriptions.mapValues fun state =>
      if state.active then manager.append change state else state }

/-- `publish_committed`. -/
def publishCommitted (change : CommittedChange) : SubscriptionManager × Result Unit :=
  if ¬change.position.sameSource manager.latestPosition ∨
      change.position.recordSequence ≠
        (manager.latestPosition.recordSequence + 1) % 2 ^ 64 then
    (manager, .error ⟨.invalidArgument,
      "committed changes must follow the exact source lineage and sequence"⟩)
  else if !manager.planSchemaCompatible then
    (manager, .error ⟨.notSupported, "subscription plan schema has already changed"⟩)
  else if change.resultKey = [] ∨ (change.operation = .delete ∧ change.payload ≠ []) then
    (manager, .error ⟨.invalidArgument, "committed logical change is not canonical"⟩)
  else if manager.limits.maximumChangeBytes < change.size ∨
      manager.limits.maximumRetainedBytes < change.size then
    (manager, .error ⟨.resourceExhausted, "committed change exceeds configured retention bound"⟩)
  else if change.schemaId ≠ manager.source.schemaId ∨
      change.schemaVersion ≠ manager.source.schemaVersion then
    (invalidatePlanSchema { manager with latestPosition := change.position }, .ok ())
  else (manager.deliver change, .ok ())

/-- The error of a poll in a phase that has no records. -/
def pollError : SubscriptionPhase → Option Status
  | .snapshot => some ⟨.unavailable, "historical snapshot is not complete"⟩
  | .overflowed => some ⟨.resourceExhausted, "subscription buffer overflowed; resume required"⟩
  | .schemaChanged => some ⟨.notSupported, "subscription plan schema has changed"⟩
  | .cancelled => some ⟨.cancelled, "subscription is cancelled"⟩
  | .live => none

/-- `poll`. -/
def poll (id : Uuid) (maximumRecords : ℕ) : SubscriptionManager × Result (List DeliveryRecord) :=
  if maximumRecords = 0 then
    (manager, .error ⟨.invalidArgument, "poll record bound must be nonzero"⟩)
  else
    match manager.subscriptions.find? id with
    | none => (manager, .error notRegistered)
    | some state =>
      match pollError state.phase with
      | some status => (manager, .error status)
      | none =>
        let output := state.buffered.take maximumRecords
        (manager.withSubscription id
          { state with
            lastPolledSequence :=
              max state.lastPolledSequence ((output.getLast?.map (·.deliverySequence)).getD 0) },
          .ok output)

/-- The loop of `acknowledge`: the buffer, the safe position and the buffered bytes. -/
def acknowledgeThrough (sequence : ℕ) : List DeliveryRecord → SourcePosition → ℕ →
    List DeliveryRecord × SourcePosition × ℕ
  | [], safe, bytes => ([], safe, bytes)
  | record :: records, safe, bytes =>
    if record.deliverySequence ≤ sequence then
      acknowledgeThrough sequence records record.change.position (bytes - record.change.size)
    else (record :: records, safe, bytes)

/-- `acknowledge`: the token is encoded after the state has moved. -/
def acknowledge (id : Uuid) (sequence : ℕ) : SubscriptionManager × Result EncodedToken :=
  match manager.subscriptions.find? id with
  | none => (manager, .error notRegistered)
  | some state =>
    if state.phase ≠ .live ∨ sequence < state.lastAcknowledgedSequence ∨
        state.lastPolledSequence < sequence then
      (manager, .error ⟨.invalidArgument, "acknowledgment is outside live delivered state"⟩)
    else
      let rest := acknowledgeThrough sequence state.buffered state.safePosition state.bufferedBytes
      let next := { state with
        buffered := rest.1
        safePosition := rest.2.1
        bufferedBytes := rest.2.2
        lastAcknowledgedSequence := sequence }
      (manager.withSubscription id next, manager.encodeToken next)

/-- `cancel`. -/
def cancel (id : Uuid) : SubscriptionManager × Result EncodedToken :=
  match manager.subscriptions.find? id with
  | none => (manager, .error notRegistered)
  | some state =>
    match manager.encodeToken state with
    | .error status => (manager, .error status)
    | .ok token => (manager.withSubscription id (state.ended .cancelled), .ok token)

/-- `abandon`. -/
def abandon (id : Uuid) : SubscriptionManager :=
  match manager.subscriptions.find? id with
  | none => manager
  | some state => manager.withSubscription id (state.ended .cancelled)

/-! ### Calls -/

/-- A call of the manager. -/
inductive Call where
  | register (request : SubscriptionRequest)
  | resume (token : EncodedToken)
  | completeSnapshot (id : Uuid)
  | publishCommitted (change : CommittedChange)
  | poll (id : Uuid) (maximumRecords : ℕ)
  | acknowledge (id : Uuid) (sequence : ℕ)
  | cancel (id : Uuid)
  | abandon (id : Uuid)
  deriving DecidableEq

/-- What a call returns. -/
inductive Reply where
  | done
  | registration (registration : Registration)
  | records (records : List DeliveryRecord)
  | token (token : EncodedToken)
  deriving DecidableEq

/-- The outcome of a call as a reply. -/
def reply {α : Type} (wrap : α → Reply) (outcome : SubscriptionManager × Result α) :
    SubscriptionManager × Result Reply :=
  (outcome.1, outcome.2.map wrap)

/-- A call with its reply. -/
def call : Call → SubscriptionManager × Result Reply
  | .register request => reply .registration (manager.registerSubscription request)
  | .resume token => reply .registration (manager.resumeSubscription token)
  | .completeSnapshot id => reply (fun _ => .done) (manager.completeSnapshot id)
  | .publishCommitted change => reply (fun _ => .done) (manager.publishCommitted change)
  | .poll id maximumRecords => reply .records (manager.poll id maximumRecords)
  | .acknowledge id sequence => reply .token (manager.acknowledge id sequence)
  | .cancel id => reply .token (manager.cancel id)
  | .abandon id => (manager.abandon id, .ok .done)

end SubscriptionManager

end Chronos.Live
