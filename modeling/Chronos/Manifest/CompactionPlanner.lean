import Chronos.Common.Formats
import Chronos.Manifest.Model
import Chronos.Sort.Keys

/-!
`src/manifest/compaction_planner.cpp`: which parts of a Manifest are compacted next.

* `classifyRoles`: in each group of one table, tablet and schema, in the order of arrival, a part
  that begins before the frontier of the earlier ones is a delta.
* `makePlan`: takes candidates in order as long as they fit the limits.
* `planAppendOnlyCompaction`: in each group the first delta whose overlapping parts give a plan,
  else the first component of overlapping parts that does.

The source works on indices of the list of parts; the model on the parts, which their identities
tell apart wherever an index is used.
-/

namespace Chronos.Manifest

open Schema
open Chronos.Sort (sortBy chunks groups)

/-- `PartDescriptor`. -/
structure PartDescriptor where
  partId : PartId
  tableId : TableId
  tabletId : TabletId
  schemaId : SchemaId
  schemaVersion : ℕ
  fileLength : ℕ
  rowCount : ℕ
  minimumRecordSequence : ℕ
  maximumRecordSequence : ℕ
  minimumEventTime : ℤ
  maximumEventTime : ℤ
  deriving DecidableEq

/-- `AppendOnlyPartRole`. -/
inductive AppendOnlyPartRole where
  | base | delta
  deriving DecidableEq, Repr

/-- `AppendOnlyPartClassification`. -/
structure AppendOnlyPartClassification where
  partId : PartId
  role : AppendOnlyPartRole
  deriving DecidableEq

/-- `AppendOnlyCompactionPlannerLimits`. -/
structure AppendOnlyCompactionPlannerLimits where
  minimumInputParts : ℕ := 2
  maximumInputParts : ℕ := 8
  maximumManifestParts : ℕ := 2 ^ 20
  maximumInputBytes : ℕ := 8 * 1024 * 1024 * 1024
  maximumInputRows : ℕ := u64Max

/-- `PlannedAppendOnlyCompaction`. -/
structure PlannedAppendOnlyCompaction where
  tableId : TableId
  tabletId : TabletId
  schemaId : SchemaId
  schemaVersion : ℕ
  inputPartIds : List PartId
  inputBytes : ℕ
  inputRows : ℕ
  minimumEventTime : ℤ
  maximumEventTime : ℤ
  deltaInputParts : ℕ
  deriving DecidableEq

namespace PartDescriptor

/-- `group_key`. -/
def groupKey (part : PartDescriptor) : List ℕ :=
  [part.tableId, part.tabletId, part.schemaId, part.schemaVersion]

/-- The order of arrival. -/
def arrivalKey (part : PartDescriptor) : ℕ ×ₗ ℕ :=
  toLex (part.maximumRecordSequence, part.partId.val)

/-- The order of `classify_roles`. -/
def classifyKey (part : PartDescriptor) : List ℕ ×ₗ ℕ ×ₗ ℕ := toLex (part.groupKey, part.arrivalKey)

/-- The first order of `plan_append_only_compaction`. -/
def groupedKey (part : PartDescriptor) : List ℕ ×ₗ ℕ := toLex (part.groupKey, part.partId.val)

/-- The order of the overlap components. -/
def rangeKey (part : PartDescriptor) : ℤ ×ₗ ℤ ×ₗ ℕ :=
  toLex (part.minimumEventTime, toLex (part.maximumEventTime, part.partId.val))

end PartDescriptor

/-- `same_group`. -/
def sameGroup (left right : PartDescriptor) : Bool :=
  left.tableId = right.tableId ∧ left.tabletId = right.tabletId ∧
    left.schemaId = right.schemaId ∧ left.schemaVersion = right.schemaVersion

/-- `ranges_overlap`. -/
def rangesOverlap (left right : PartDescriptor) : Bool :=
  left.minimumEventTime ≤ right.maximumEventTime ∧ right.minimumEventTime ≤ left.maximumEventTime

/-! ### Roles -/

/-- The check of a descriptor in `classify_roles`. -/
def PartDescriptor.Valid (part : PartDescriptor) : Prop :=
  part.fileLength ≠ 0 ∧ part.rowCount ≠ 0 ∧ part.minimumRecordSequence ≠ 0 ∧
    part.minimumRecordSequence ≤ part.maximumRecordSequence ∧
    part.minimumEventTime ≤ part.maximumEventTime

instance (part : PartDescriptor) : Decidable part.Valid := inferInstanceAs (Decidable (_ ∧ _))

/-- The parts behind a frontier that begin before it, which they move. -/
def deltasFrom : ℤ → List PartDescriptor → List PartDescriptor
  | _, [] => []
  | frontier, part :: parts =>
    let rest := deltasFrom (max frontier part.maximumEventTime) parts
    if part.minimumEventTime < frontier then part :: rest else rest

/-- The deltas of a group in the order of arrival. -/
def groupDeltas : List PartDescriptor → List PartDescriptor
  | [] => []
  | first :: parts => deltasFrom first.maximumEventTime parts

/-- The parts whose role `classify_roles` sets to delta. -/
def deltaParts (parts : List PartDescriptor) : List PartDescriptor :=
  (groups sameGroup (sortBy PartDescriptor.classifyKey parts)).flatMap groupDeltas

/-- The role of each part. -/
def roleOf (parts : List PartDescriptor) (part : PartDescriptor) : AppendOnlyPartRole :=
  if part ∈ deltaParts parts then .delta else .base

/-- `classify_roles`. -/
def classifyRoles (parts : List PartDescriptor) (maximumParts : ℕ) :
    Result (PartDescriptor → AppendOnlyPartRole) := do
  require (parts.length ≤ maximumParts) ⟨.resourceExhausted,
    "Append-only part classification exceeds its configured part limit"⟩
  require (∀ part ∈ parts, part.Valid)
    ⟨.invalidArgument, "Append-only planner received an invalid part descriptor"⟩
  require (parts.map (·.partId)).Nodup
    ⟨.invalidArgument, "Append-only planner part identities are not unique"⟩
  .ok (roleOf parts)

/-- `classify_append_only_parts`. -/
def classifyAppendOnlyParts (parts : List PartDescriptor) (maximumManifestParts : ℕ) :
    Result (List AppendOnlyPartClassification) := do
  let roles ← classifyRoles parts maximumManifestParts
  .ok (parts.map fun part => ⟨part.partId, roles part⟩)

/-! ### Plans -/

/-- The parts selected so far, with their sums. -/
structure Selection where
  parts : List PartDescriptor
  bytes : ℕ
  rows : ℕ

variable (limits : AppendOnlyCompactionPlannerLimits)

/-- A candidate is added if the sums stay within the limits. -/
def Selection.add (selection : Selection) (part : PartDescriptor) : Option Selection := do
  let bytes ← checkedAdd selection.bytes part.fileLength
  let rows ← checkedAdd selection.rows part.rowCount
  if limits.maximumInputBytes < bytes ∨ limits.maximumInputRows < rows then none
  else some ⟨selection.parts ++ [part], bytes, rows⟩

/-- The selection loop of `make_plan`; a required candidate that does not fit ends it. -/
def selectParts : (required : Bool) → List PartDescriptor → Selection → Option Selection
  | _, [], selection => some selection
  | required, part :: parts, selection =>
    if limits.maximumInputParts ≤ selection.parts.length then some selection
    else
      match selection.add limits part with
      | some next => selectParts false parts next
      | none => if required then none else selectParts false parts selection

/-- `make_plan`. -/
def makePlan (roles : PartDescriptor → AppendOnlyPartRole) (candidates : List PartDescriptor)
    (requireFirst : Bool) : Option PlannedAppendOnlyCompaction := do
  let selection ← selectParts limits requireFirst candidates ⟨[], 0, 0⟩
  if selection.parts.length < limits.minimumInputParts then none
  else
    let selected := sortBy (·.partId) selection.parts
    let first ← selected.head?
    some {
      tableId := first.tableId
      tabletId := first.tabletId
      schemaId := first.schemaId
      schemaVersion := first.schemaVersion
      inputPartIds := selected.map (·.partId)
      inputBytes := selection.bytes
      inputRows := selection.rows
      minimumEventTime :=
        selected.foldl (fun least part => min least part.minimumEventTime) first.minimumEventTime
      maximumEventTime :=
        selected.foldl (fun most part => max most part.maximumEventTime) first.maximumEventTime
      deltaInputParts := selected.countP (roles · = .delta) }

/-- The candidates of a seed: it and the parts that overlap it, in the order of arrival. -/
def seedCandidates (arrival : List PartDescriptor) (seed : PartDescriptor) : List PartDescriptor :=
  seed :: arrival.filter fun neighbor => neighbor ≠ seed ∧ rangesOverlap seed neighbor

/-- The overlap components of a group: each part that begins within the frontier joins. -/
def components (arrival : List PartDescriptor) : List (List PartDescriptor) :=
  chunks (·.maximumEventTime) (fun frontier part => part.minimumEventTime ≤ frontier)
    (fun frontier part => max frontier part.maximumEventTime)
    (sortBy PartDescriptor.rangeKey arrival)

/-- The plan of a group: the first of a seed, else the first of a component. -/
def planGroup (roles : PartDescriptor → AppendOnlyPartRole) (group : List PartDescriptor) :
    Option PlannedAppendOnlyCompaction :=
  let arrival := sortBy PartDescriptor.arrivalKey group
  let seeds := arrival.filter (roles · = .delta)
  (seeds.findSome? fun seed => makePlan limits roles (seedCandidates arrival seed) true).or
    ((components arrival).findSome? fun component =>
      if limits.minimumInputParts ≤ component.length then makePlan limits roles component false
      else none)

/-- The check of the limits. -/
def AppendOnlyCompactionPlannerLimits.Valid : Prop :=
  2 ≤ limits.minimumInputParts ∧ limits.minimumInputParts ≤ limits.maximumInputParts ∧
    limits.maximumInputParts ≤ limits.maximumManifestParts ∧ limits.maximumInputBytes ≠ 0 ∧
    limits.maximumInputRows ≠ 0

instance : Decidable limits.Valid := inferInstanceAs (Decidable (_ ∧ _))

/-- `plan_append_only_compaction`. -/
def planAppendOnlyCompaction (parts : List PartDescriptor) :
    Result (Option PlannedAppendOnlyCompaction) := do
  require limits.Valid
    ⟨.invalidArgument, "Append-only compaction planner limits are invalid"⟩
  let roles ← classifyRoles parts limits.maximumManifestParts
  if parts.length < limits.minimumInputParts then .ok none
  else .ok ((groups sameGroup (sortBy PartDescriptor.groupedKey parts)).findSome?
    (planGroup limits roles))

end Chronos.Manifest
