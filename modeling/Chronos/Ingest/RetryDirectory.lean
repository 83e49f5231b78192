import Chronos.Head.Mutable

/-!
`ingest/retry_directory.hpp`: the identity of a client batch and the outcome of its mutation.
-/

namespace Chronos.Ingest

open Schema Columnar Head

/-- `RetryIdentity`. -/
structure RetryIdentity where
  clientId : Identifier
  clientBatchId : Identifier
  deriving DecidableEq

/-- `ColumnarAppendMutationIdentity`; the digest is the number of its bytes. -/
structure MutationIdentity where
  tableId : TableId
  tabletId : TabletId
  requestDigest : ℕ
  deriving DecidableEq

/-- `ColumnarAppendRetryOutcome`. -/
structure RetryOutcome where
  mutation : MutationIdentity
  commitSource : CommitSource
  walId : Wal.WalId
  raftGroupId : Uuid
  recordSequence : ℕ
  appliedRowCount : ℕ
  deriving DecidableEq

/-- The outcome of a mutation of some rows at a position. -/
def RetryOutcome.at (mutation : MutationIdentity) (rowCount : ℕ) (position : HeadCommitPosition) :
    RetryOutcome :=
  ⟨mutation, position.source, position.walId, position.raftGroupId, position.recordSequence,
    rowCount⟩

/-- An error of this module. -/
def alreadyExists {α : Type} (message : String) : Result α := .error ⟨.alreadyExists, message⟩

end Chronos.Ingest
