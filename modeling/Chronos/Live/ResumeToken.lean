import Chronos.Schema.Table

/-!
`src/live/resume_token.cpp` and the values of `live/subscription.hpp` that every subscription
manager uses.

* `SourcePosition`: a tablet, the log that it reads, and a sequence in that log.
* `CommittedChange`, `DeliveryRecord`: a change, and a change with its delivery sequence.
* `ResumeToken`, `EncodedToken`: where a subscriber has got to.  The bytes of a token are the token
  and the key of its authentication code: a code under one key never verifies under another, and
  the fields of an authentic token are those that were encoded.
-/

namespace Chronos.Live

open Schema

/-- `SubscriptionSourceKind` with the identity that goes with it: only the factories of
`SourcePosition` set the two. -/
inductive SourceIdentity where
  | wal (walId : Uuid)
  | raft (groupId : Uuid)
  deriving DecidableEq, Repr

/-- The identity without its kind. -/
def SourceIdentity.uuid : SourceIdentity → Uuid
  | .wal walId => walId
  | .raft groupId => groupId

/-- `SourcePosition`. -/
structure SourcePosition where
  tabletId : Uuid
  source : SourceIdentity
  recordSequence : ℕ
  deriving DecidableEq, Repr

/-- `SourcePosition::is_valid`. -/
def SourcePosition.isValid (position : SourcePosition) : Bool :=
  position.tabletId ≠ 0 && position.source.uuid ≠ 0

/-- `SourcePosition::same_source`. -/
def SourcePosition.sameSource (position other : SourcePosition) : Bool :=
  position.tabletId = other.tabletId && position.source = other.source

lemma SourcePosition.sameSource_iff {position other : SourcePosition} :
    position.sameSource other = true ↔
      position.tabletId = other.tabletId ∧ position.source = other.source := by
  simp [sameSource]

/-- `LogicalChangeOperation`. -/
inductive LogicalChangeOperation where
  | upsert | delete
  deriving DecidableEq, Repr

/-- `CommittedChange`. -/
structure CommittedChange where
  position : SourcePosition
  schemaId : Uuid
  schemaVersion : ℕ
  operation : LogicalChangeOperation
  resultKey : List UInt8
  payload : List UInt8
  deriving DecidableEq, Repr

/-- `DeliveryRecord`. -/
structure DeliveryRecord where
  deliverySequence : ℕ
  change : CommittedChange
  deriving DecidableEq, Repr

/-- `SubscriptionPhase`. -/
inductive SubscriptionPhase where
  | snapshot | live | overflowed | schemaChanged | cancelled
  deriving DecidableEq, Repr

/-- `SubscriptionLimits`. -/
structure SubscriptionLimits where
  maximumSubscriptions : ℕ
  maximumRetainedChanges : ℕ
  maximumRetainedBytes : ℕ
  maximumBufferedChangesPerSubscription : ℕ
  maximumBufferedBytesPerSubscription : ℕ
  maximumChangeBytes : ℕ
  deriving DecidableEq, Repr

/-- `SubscriptionRequest`. -/
structure SubscriptionRequest where
  subscriptionId : Uuid
  planFingerprint : List UInt8
  schemaId : Uuid
  schemaVersion : ℕ
  deriving DecidableEq, Repr

/-- The bytes of the key and the payload of a change. -/
def CommittedChange.size (change : CommittedChange) : ℕ :=
  change.resultKey.length + change.payload.length

/-- `valid_limits`. -/
def SubscriptionLimits.valid (limits : SubscriptionLimits) : Bool :=
  limits.maximumSubscriptions ≠ 0 && limits.maximumRetainedChanges ≠ 0
    && limits.maximumRetainedBytes ≠ 0 && limits.maximumBufferedChangesPerSubscription ≠ 0
    && limits.maximumBufferedBytesPerSubscription ≠ 0 && limits.maximumChangeBytes ≠ 0
    && limits.maximumBufferedBytesPerSubscription ≤ limits.maximumRetainedBytes
    && limits.maximumChangeBytes ≤ limits.maximumRetainedBytes

/-! ### Resume tokens -/

/-- `kMaximumResumeTokenSources`. -/
def maximumResumeTokenSources : ℕ := 4096

/-- `ResumeToken`. -/
structure ResumeToken where
  databaseId : Uuid
  subscriptionId : Uuid
  schemaId : Uuid
  schemaVersion : ℕ
  safeDeliverySequence : ℕ
  planFingerprint : List UInt8
  sourcePositions : List SourcePosition
  deriving DecidableEq, Repr

/-- The bytes of a token: the token and the key that authenticates it. -/
structure EncodedToken where
  token : ResumeToken
  key : List UInt8
  deriving DecidableEq, Repr

/-- `key_is_zero`. -/
def keyIsZero (key : List UInt8) : Bool := key.all (· = 0)

/-- `encode_resume_token_v2`. -/
def encodeResumeToken (token : ResumeToken) (key : List UInt8) : Result EncodedToken :=
  if token.databaseId = 0 ∨ token.subscriptionId = 0 ∨ token.schemaId = 0 then
    invalid "resume token identities must be nonzero"
  else if keyIsZero key then invalid "resume token MAC key must be nonzero"
  else if token.sourcePositions = []
      ∨ token.sourcePositions.length > maximumResumeTokenSources then
    invalid "resume token source count is outside format bounds"
  else if token.sourcePositions.any (!·.isValid) then
    invalid "resume token contains an invalid source identity"
  else .ok ⟨token, key⟩

/-- `decode_resume_token`. -/
def decodeResumeToken (encoded : EncodedToken) (key : List UInt8) (maximumSources : ℕ) :
    Result ResumeToken :=
  if keyIsZero key then invalid "resume token MAC key must be nonzero"
  else if maximumSources = 0 ∨ maximumSources > maximumResumeTokenSources then
    invalid "resume token decoder source bound is invalid"
  else if encoded.token.sourcePositions.length > maximumSources then
    .error ⟨.corruption, "resume token exceeds the decoder source bound"⟩
  else if encoded.key ≠ key then
    .error ⟨.unauthenticated, "resume token authentication failed"⟩
  else .ok encoded.token

end Chronos.Live
