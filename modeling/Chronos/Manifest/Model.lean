import Chronos.Schema.Table

/-!
`manifest/types.hpp`: the identities of a Manifest.
-/

namespace Chronos.Manifest

open Schema

/-- `DatabaseId`. -/
abbrev DatabaseId := Identifier

/-- `cseg::PartId`. -/
abbrev PartId := Identifier

end Chronos.Manifest
