import Chronos.Common.Basic

/-!
`wal/types.hpp`: the identity of a log and a position in it.
-/

namespace Chronos.Wal

/-- `WalId`. -/
structure WalId where
  bytes : Vector UInt8 16
  deriving DecidableEq

/-- `WalId::is_valid`. -/
def WalId.isValid (id : WalId) : Bool := id.bytes.toList.any (· ≠ 0)

/-- `WalReplayCheckpoint`. -/
structure WalReplayCheckpoint where
  walId : WalId
  recordSequence : ℕ
  segmentNumber : ℕ
  byteOffset : ℕ
  deriving DecidableEq

end Chronos.Wal
