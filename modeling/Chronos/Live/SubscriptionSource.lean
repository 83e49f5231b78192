import Chronos.Live.ResumeToken

/-!
The values of `live/multi_tablet_subscription.hpp` that say where the changes of a subscription come
from.

* `MultiTabletSubscriptionSource`: a plan over a fixed set of sources.
-/

namespace Chronos.Live

/-- `MultiTabletSubscriptionMember`. -/
structure MultiTabletSubscriptionMember where
  tabletId : Uuid
  source : SourceIdentity
  committedRecordSequence : ℕ
  deriving DecidableEq

/-- `MultiTabletSubscriptionSource`. -/
structure MultiTabletSubscriptionSource where
  databaseId : Uuid
  tableId : Uuid
  planFingerprint : List UInt8
  schemaId : Uuid
  schemaVersion : ℕ
  members : List MultiTabletSubscriptionMember
  tokenKey : List UInt8
  deriving DecidableEq

end Chronos.Live
