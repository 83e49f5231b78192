import Chronos.Query.TemporalRun
import Chronos.Sort.Winners

/-!
`src/query/temporal_cseg_snapshot.cpp`: the rows of a system time from the temporal parts of
a Manifest.

* `resolveManifestTemporalTablet`: parts that begin after the time are skipped; the other
  rows are scanned for the last version of every identity.  A part is modelled by the granules
  that its reader decodes, each with the bytes of its buffers.
* `scanGranules_scanned`: the scan selects the last version of every identity.
* `temporal_parts_refine_provider`: the rows and the position are those that the in-memory
  provider resolves, however its versions are spread over parts and granules.
-/

namespace Chronos.Query

open Schema List Except Result
open Columnar (exhausted)
open Chronos.Sort (Selects)

/-! ### Parts -/

/-- `CommitSource`. -/
inductive CommitSource where
  | wal
  | raft
  deriving DecidableEq

/-- `TemporalCsegSourceLineage`. -/
structure TemporalCsegSourceLineage where
  source : CommitSource
  sourceId : Uuid
  deriving DecidableEq

/-- A row of a temporal granule: its system columns and the values of the schema's columns. -/
structure TemporalCsegRow where
  lineage : TemporalCsegSourceLineage
  commitPosition : ℕ
  rowOrdinal : ℕ
  operation : TemporalMutationKind
  logicalIdentity : Bytes
  systemCommitTime : Int
  columns : List ScalarValue
  deriving DecidableEq

/-- `ProjectedCsegGranule`. -/
structure TemporalGranule where
  schemaId : SchemaId
  schemaVersion : ℕ
  columnIds : List ColumnId
  rows : List TemporalCsegRow
  decodedBytes : ℕ

/-- `decoded_buffer_bytes` after some granules. -/
def decodedBufferBytes (granules : List TemporalGranule) : ℕ :=
  (granules.map (·.decodedBytes)).sum

/-- `TemporalPartDescriptor`, with the fields that resolution reads. -/
structure TemporalPartDescriptor where
  partId : Uuid
  tableId : TableId
  tabletId : TabletId
  lineage : TemporalCsegSourceLineage
  rowCount : ℕ
  maximumCommitPosition : ℕ
  minimumSystemTime : Int

/-- `TemporalManifestCsegPartView`: a descriptor and the granules of the image. -/
structure TemporalManifestPart where
  descriptor : TemporalPartDescriptor
  granules : List TemporalGranule

/-- The rows of a part. -/
def TemporalManifestPart.rows (part : TemporalManifestPart) : List TemporalCsegRow :=
  part.granules.flatMap (·.rows)

/-- `TemporalTabletDescriptor`, with the fields that resolution reads. -/
structure TemporalTabletDescriptor where
  tableId : TableId
  tabletId : TabletId
  lineage : TemporalCsegSourceLineage
  durablePosition : ℕ
  partCount : ℕ
  durableVersionCount : ℕ

/-- `TemporalManifestCsegResolutionLimits`, without those of the reader. -/
structure TemporalResolutionLimits where
  maximumParts : ℕ
  maximumGranules : ℕ
  maximumDecodedBufferBytes : ℕ
  maximumVersions : ℕ
  maximumOutputRows : ℕ
  maximumIdentityBytes : ℕ

/-- A part belongs to a tablet and its source. -/
def TemporalPartDescriptor.belongs (descriptor : TemporalPartDescriptor) (tableId : TableId)
    (tabletId : TabletId) (lineage : TemporalCsegSourceLineage) : Bool :=
  descriptor.tableId = tableId && descriptor.tabletId = tabletId && descriptor.lineage = lineage

/-- The loop of `validate_manifest_temporal_tablet_view`: the versions covered. -/
def validateTemporalParts (tablet : TemporalTabletDescriptor) :
    Option Uuid → ℕ → List TemporalManifestPart → Result ℕ
  | _, count, [] => .ok count
  | previous, count, part :: parts =>
    if !part.descriptor.belongs tablet.tableId tablet.tabletId tablet.lineage
        || part.descriptor.maximumCommitPosition > tablet.durablePosition
        || part.descriptor.rowCount > tablet.durableVersionCount - count
        || previous.any (part.descriptor.partId ≤ ·) then
      invalid "Manifest temporal tablet part coverage is noncanonical or inconsistent"
    else validateTemporalParts tablet (some part.descriptor.partId)
      (count + part.descriptor.rowCount) parts

/-- `validate_manifest_temporal_tablet_view`; a tablet identity is never nil. -/
def validateTemporalTabletView (schema : TableSchema) (tablet : TemporalTabletDescriptor)
    (parts : List TemporalManifestPart) (lineage : TemporalCsegSourceLineage) : Result Unit :=
  if tablet.tableId ≠ schema.tableId ∨ tablet.lineage ≠ lineage ∨ tablet.partCount ≠ parts.length
      ∨ parts = [] then
    invalid "Manifest temporal tablet view is incomplete or belongs to another owner"
  else do
    let count ← validateTemporalParts tablet none 0 parts
    if count = tablet.durableVersionCount then .ok ()
    else invalid "Manifest temporal tablet version count is not completely covered"

/-- The granules of one part, after the granules decoded so far. -/
def takeGranules (limits : TemporalResolutionLimits) :
    List TemporalGranule → List TemporalGranule → Result (List TemporalGranule)
  | decoded, [] => .ok decoded
  | decoded, granule :: granules =>
    if decoded.length ≥ limits.maximumGranules then
      exhausted "Manifest temporal CSEG granule limit is exhausted"
    else if granule.decodedBytes >
        limits.maximumDecodedBufferBytes - decodedBufferBytes decoded then
      exhausted "Manifest temporal CSEG decoded-byte limit is exhausted"
    else takeGranules limits (decoded ++ [granule]) granules

/-- `decode_manifest_temporal_parts`. -/
def decodeTemporalParts (schema : TableSchema) (tabletId : TabletId)
    (lineage : TemporalCsegSourceLineage) (asOf : Option Int) (limits : TemporalResolutionLimits) :
    List TemporalGranule → List TemporalManifestPart → Result (List TemporalGranule)
  | decoded, [] => .ok decoded
  | decoded, part :: parts =>
    if !part.descriptor.belongs schema.tableId tabletId lineage then
      invalid "Manifest temporal CSEG part belongs to another table, tablet, or source"
    else if asOf.any (· < part.descriptor.minimumSystemTime) then
      decodeTemporalParts schema tabletId lineage asOf limits decoded parts
    else do
      let decoded ← takeGranules limits decoded part.granules
      decodeTemporalParts schema tabletId lineage asOf limits decoded parts

/-! ### The scan -/

/-- The winners so far and the greatest visible position. -/
structure TemporalScan where
  winners : List TemporalCsegRow
  visiblePosition : ℕ

/-- The time and the position of a row, by which versions of one identity are ordered. -/
def TemporalCsegRow.rank (row : TemporalCsegRow) : List ℤ :=
  [row.systemCommitTime, row.commitPosition]

/-- The search for the winner with the identity of a row, which the row replaces if it is
later; nothing where there is no such winner. -/
def placeVersion (row : TemporalCsegRow) :
    List TemporalCsegRow → Result (Option (List TemporalCsegRow))
  | [] => .ok none
  | winner :: winners =>
    if winner.logicalIdentity = row.logicalIdentity then
      if winner.systemCommitTime = row.systemCommitTime
          ∧ winner.commitPosition = row.commitPosition then
        .error ⟨.corruption,
          "temporal CSEG contains duplicate physical versions for one identity"⟩
      else if row.systemCommitTime > winner.systemCommitTime
          ∨ row.systemCommitTime = winner.systemCommitTime
            ∧ row.commitPosition > winner.commitPosition then
        .ok (some (row :: winners))
      else .ok (some (winner :: winners))
    else do
      let placed ← placeVersion row winners
      return placed.map (winner :: ·)

/-- The checks of the scan on one row. -/
def checkTemporalRow (lineage : TemporalCsegSourceLineage) (maximumIdentityBytes : ℕ)
    (row : TemporalCsegRow) : Result Unit :=
  if row.lineage ≠ lineage then invalid "temporal CSEG row belongs to another source lineage"
  else if row.logicalIdentity = [] ∨ row.logicalIdentity.length > maximumIdentityBytes then
    .error ⟨.corruption, "temporal CSEG identity exceeds resolution limits"⟩
  else .ok ()

/-- The loop over the rows of a granule. -/
def scanRows (lineage : TemporalCsegSourceLineage) (asOf : Option Int)
    (limits : TemporalResolutionLimits) :
    TemporalScan → List TemporalCsegRow → Result TemporalScan
  | scan, [] => .ok scan
  | scan, row :: rows => do
    checkTemporalRow lineage limits.maximumIdentityBytes row
    if asOf.any (· < row.systemCommitTime) then scanRows lineage asOf limits scan rows
    else
      match ← placeVersion row scan.winners with
      | some winners =>
        scanRows lineage asOf limits ⟨winners, max scan.visiblePosition row.commitPosition⟩ rows
      | none =>
        if scan.winners.length ≥ limits.maximumOutputRows then
          exhausted "temporal CSEG output-row limit is exhausted"
        else
          scanRows lineage asOf limits
            ⟨scan.winners ++ [row], max scan.visiblePosition row.commitPosition⟩ rows

/-- The loop over the granules, after `count` rows. -/
def scanGranules (schema : TableSchema) (lineage : TemporalCsegSourceLineage) (asOf : Option Int)
    (limits : TemporalResolutionLimits) :
    TemporalScan → ℕ → List TemporalGranule → Result TemporalScan
  | scan, _, [] => .ok scan
  | scan, count, granule :: granules =>
    if granule.schemaId ≠ schema.schemaId ∨ granule.schemaVersion ≠ schema.version
        ∨ granule.columnIds.length ≠ schema.columns.length then
      invalid "temporal CSEG granule schema or projection is invalid"
    else if granule.columnIds ≠ schema.columns.map (·.id) then
      invalid "temporal CSEG projection is not in complete schema order"
    else if granule.rows.length > limits.maximumVersions - count then
      exhausted "temporal CSEG version limit is exhausted"
    else do
      let scan ← scanRows lineage asOf limits scan granule.rows
      scanGranules schema lineage asOf limits scan (count + granule.rows.length) granules

/-- The row that a winner shows, none for a tombstone. -/
def TemporalCsegRow.shown (schema : TableSchema) (sourceId : Uuid) (row : TemporalCsegRow) :
    Option ScalarInputRow :=
  if row.operation = .tombstone then none
  else some {
    columns := row.columns
    generatedLogicalIdentity :=
      if schema.roles.deduplicationKey.isEmpty then row.logicalIdentity else []
    walId := sourceId
    recordSequence := row.commitPosition
    systemCommitPosition := row.commitPosition
    rowOrdinal := row.rowOrdinal }

/-- `resolve_cseg_v2_temporal_snapshot`. -/
def resolveTemporalGranules (schema : TableSchema) (granules : List TemporalGranule)
    (lineage : TemporalCsegSourceLineage) (asOf : Option Int) (limits : TemporalResolutionLimits) :
    Result ScalarTableSnapshot :=
  if lineage.sourceId = 0 ∨ limits.maximumVersions = 0 ∨ limits.maximumOutputRows = 0
      ∨ limits.maximumIdentityBytes = 0 ∨ limits.maximumIdentityBytes > 1024 then
    invalid "temporal CSEG resolution input or limits are invalid"
  else do
    let scan ← scanGranules schema lineage asOf limits ⟨[], 0⟩ 0 granules
    if scan.visiblePosition = 0 ∧ asOf.isSome then
      .error ⟨.notFound, "requested system history is not retained"⟩
    else
      ScalarTableSnapshot.create schema scan.visiblePosition
        (scan.winners.filterMap (·.shown schema lineage.sourceId))

/-- `resolve_manifest_v2_temporal_tablet_snapshot`. -/
def resolveManifestTemporalTablet (schema : TableSchema) (tablet : TemporalTabletDescriptor)
    (parts : List TemporalManifestPart) (lineage : TemporalCsegSourceLineage) (asOf : Option Int)
    (limits : TemporalResolutionLimits) : Result ScalarTableSnapshot :=
  if parts.length > limits.maximumParts ∨ limits.maximumParts = 0 ∨ limits.maximumGranules = 0
      ∨ limits.maximumDecodedBufferBytes = 0 then
    invalid "Manifest temporal CSEG resolution input or limits are invalid"
  else do
    validateTemporalTabletView schema tablet parts lineage
    let granules ← decodeTemporalParts schema tablet.tabletId lineage asOf limits [] parts
    resolveTemporalGranules schema granules lineage asOf limits

/-! ### What the scan selects -/

/-- What a scan at a time has seen: the last versions and the greatest position. -/
structure Scanned (seen : List TemporalCsegRow) (scan : TemporalScan) : Prop where
  selects : Selects (·.logicalIdentity) TemporalCsegRow.rank seen scan.winners
  position_le : ∀ row ∈ seen, row.commitPosition ≤ scan.visiblePosition
  attained : scan.visiblePosition = 0 ∨ ∃ row ∈ seen, row.commitPosition = scan.visiblePosition

lemma scanned_nil : Scanned [] ⟨[], 0⟩ := ⟨Selects.nil, by simp, .inl rfl⟩

variable {row : TemporalCsegRow}

lemma Scanned.mk_max {seen : List TemporalCsegRow} {scan : TemporalScan}
    {winners : List TemporalCsegRow} (h : Scanned seen scan)
    (hselects : Selects (·.logicalIdentity) TemporalCsegRow.rank (seen ++ [row]) winners) :
    Scanned (seen ++ [row]) ⟨winners, max scan.visiblePosition row.commitPosition⟩ where
  selects := hselects
  position_le other hother := by
    rcases mem_append.1 hother with hother | hother
    · exact (h.position_le other hother).trans (le_max_left _ _)
    · rw [mem_singleton.1 hother]
      exact le_max_right _ _
  attained := by
    rcases max_choice scan.visiblePosition row.commitPosition with hmax | hmax
    · rw [hmax]
      exact h.attained.imp_right fun ⟨other, hother, heq⟩ =>
        ⟨other, mem_append_left _ hother, heq⟩
    · exact .inr ⟨row, by simp, hmax.symm⟩

/-- A row is later than a winner exactly when its rank is greater. -/
lemma rank_gt_iff (row winner : TemporalCsegRow) :
    compare row.rank winner.rank = .gt ↔ row.systemCommitTime > winner.systemCommitTime
      ∨ row.systemCommitTime = winner.systemCommitTime
        ∧ row.commitPosition > winner.commitPosition := by
  simp only [TemporalCsegRow.rank, List.compare_cons_cons, Ordering.then_eq_gt,
    Int.compare_eq_gt, Std.compare_eq_iff_eq]
  simp

/-- A row takes the place of the winner of its identity if it is later; a version that is
there twice is an error. -/
lemma placeVersion_spec (row : TemporalCsegRow) : ∀ winners : List TemporalCsegRow,
    placeVersion row winners = .ok none ∧
        (∀ winner ∈ winners, winner.logicalIdentity ≠ row.logicalIdentity) ∨
      ∃ before winner after, winners = before ++ winner :: after ∧
        winner.logicalIdentity = row.logicalIdentity ∧
        (winner.rank = row.rank ∧ (∀ placed, placeVersion row winners ≠ .ok placed) ∨
          winner.rank ≠ row.rank ∧ placeVersion row winners = .ok (some (before ++
            (if compare row.rank winner.rank = .gt then row else winner) :: after))) := by
  intro winners
  induction winners with
  | nil => exact .inl ⟨rfl, by simp⟩
  | cons winner winners ih =>
    rw [placeVersion]
    by_cases hidentity : winner.logicalIdentity = row.logicalIdentity
    · refine .inr ⟨[], winner, winners, rfl, hidentity, ?_⟩
      have hrank : winner.rank = row.rank ↔ winner.systemCommitTime = row.systemCommitTime
          ∧ winner.commitPosition = row.commitPosition := by
        simp [TemporalCsegRow.rank]
      rw [if_pos hidentity, nil_append]
      by_cases hsame : winner.rank = row.rank
      · exact .inl ⟨hsame, by simp [hrank.1 hsame]⟩
      · refine .inr ⟨hsame, ?_⟩
        rw [if_neg (mt hrank.2 hsame)]
        by_cases hlater : compare row.rank winner.rank = .gt
        · rw [if_pos ((rank_gt_iff row winner).1 hlater), if_pos hlater]
        · rw [if_neg (mt (rank_gt_iff row winner).2 hlater), if_neg hlater]
    · rw [if_neg hidentity]
      rcases ih with ⟨hnone, hnew⟩ | ⟨before, found, after, rfl, hfound, hplace⟩
      · refine .inl ⟨by rw [hnone]; rfl, fun other hother => ?_⟩
        rcases mem_cons.1 hother with rfl | hother
        · exact hidentity
        · exact hnew other hother
      · refine .inr ⟨winner :: before, found, after, rfl, hfound, hplace.imp ?_ ?_⟩
        · rintro ⟨hrank, herror⟩
          refine ⟨hrank, fun placed h => ?_⟩
          obtain ⟨inner, hinner, -⟩ := bind_eq_ok.1 h
          exact herror inner hinner
        · rintro ⟨hrank, hplaced⟩
          exact ⟨hrank, by rw [hplaced]; rfl⟩

/-- The rows of a scan that are visible at a time. -/
def visibleRows (asOf : Option Int) (rows : List TemporalCsegRow) : List TemporalCsegRow :=
  rows.filter fun row => !asOf.any (· < row.systemCommitTime)

lemma visibleRows_append (asOf : Option Int) (rows rows' : List TemporalCsegRow) :
    visibleRows asOf (rows ++ rows') = visibleRows asOf rows ++ visibleRows asOf rows' :=
  filter_append ..

variable {time : Int}

lemma mem_visibleRows {rows : List TemporalCsegRow} :
    row ∈ visibleRows (some time) rows ↔ row ∈ rows ∧ row.systemCommitTime ≤ time := by
  simp [visibleRows]

section Scan

variable {lineage : TemporalCsegSourceLineage} {asOf : Option Int}
  {limits : TemporalResolutionLimits}

/-- **One row of a scan.**  A row that is not visible changes nothing, and any other leaves
a selection. -/
lemma scanRows_cons {seen rows : List TemporalCsegRow} {scan scan' : TemporalScan}
    {row : TemporalCsegRow} (hscanned : Scanned seen scan)
    (h : scanRows lineage asOf limits scan (row :: rows) = .ok scan') :
    ∃ next, Scanned (seen ++ visibleRows asOf [row]) next ∧
      scanRows lineage asOf limits next rows = .ok scan' := by
  rw [scanRows, bind_eq_ok] at h
  obtain ⟨-, -, h⟩ := h
  by_cases hvisible : asOf.any (· < row.systemCommitTime) = true
  · rw [if_pos hvisible] at h
    exact ⟨scan, by simpa [visibleRows, hvisible] using hscanned, h⟩
  rw [if_neg hvisible, bind_eq_ok] at h
  have hone : visibleRows asOf [row] = [row] := by simp [visibleRows, hvisible]
  rw [hone]
  obtain ⟨placed, hplaced, h⟩ := h
  rcases placeVersion_spec row scan.winners with
    ⟨hnone, hnew⟩ | ⟨before, winner, after, hwinners, hidentity, ⟨-, herror⟩ | ⟨-, hplace⟩⟩
  · obtain rfl : none = placed := ok.inj (hnone.symm.trans hplaced)
    simp only at h
    split_ifs at h
    · cases h
    · exact ⟨_, hscanned.mk_max (hscanned.selects.append hnew), h⟩
  · exact absurd hplaced (herror placed)
  · obtain rfl := ok.inj (hplace.symm.trans hplaced)
    refine ⟨_, hscanned.mk_max ?_, h⟩
    exact Selects.replace (hwinners ▸ hscanned.selects) hidentity

lemma scanRows_scanned : ∀ {rows seen : List TemporalCsegRow} {scan scan' : TemporalScan},
    Scanned seen scan → scanRows lineage asOf limits scan rows = .ok scan' →
    Scanned (seen ++ visibleRows asOf rows) scan' := by
  intro rows
  induction rows with
  | nil =>
    intro seen scan scan' hscanned h
    obtain rfl : scan = scan' := ok.inj h
    simpa [visibleRows] using hscanned
  | cons _ _ ih =>
    intro _ _ _ hscanned h
    obtain ⟨_, hnext, hrest⟩ := scanRows_cons hscanned h
    rw [← singleton_append, visibleRows_append, ← append_assoc]
    exact ih hnext hrest

variable {schema : TableSchema}

lemma scanGranules_scanned : ∀ {granules : List TemporalGranule}
    {seen : List TemporalCsegRow} {scan scan' : TemporalScan} {count : ℕ}, Scanned seen scan →
    scanGranules schema lineage asOf limits scan count granules = .ok scan' →
    Scanned (seen ++ visibleRows asOf (granules.flatMap (·.rows))) scan' := by
  intro granules
  induction granules with
  | nil =>
    intro seen scan scan' count hscanned h
    obtain rfl : scan = scan' := ok.inj h
    simpa [visibleRows] using hscanned
  | cons _ _ ih =>
    intro _ _ _ _ hscanned h
    rw [scanGranules] at h
    split_ifs at h
    · cases h
    · cases h
    · cases h
    obtain ⟨_, hnext, hrest⟩ := bind_eq_ok.1 h
    rw [flatMap_cons, visibleRows_append, ← append_assoc]
    exact ih (scanRows_scanned hscanned hnext) hrest

/-- A version that is there twice. -/
def SameVersion (left right : TemporalCsegRow) : Prop :=
  left.logicalIdentity = right.logicalIdentity ∧ left.rank = right.rank

/-- A scan of rows that pass the checks succeeds where no version is there twice and there is
room for all rows. -/
lemma exists_scanRows : ∀ {rows seen : List TemporalCsegRow} {scan : TemporalScan},
    Scanned seen scan → (seen ++ rows).Pairwise (fun a b => ¬SameVersion a b) →
    (∀ row ∈ rows, checkTemporalRow lineage limits.maximumIdentityBytes row = .ok ()) →
    (seen ++ rows).length ≤ limits.maximumOutputRows →
    ∃ scan', scanRows lineage asOf limits scan rows = .ok scan' := by
  intro rows
  induction rows with
  | nil => exact fun {_ scan} _ _ _ _ => ⟨scan, rfl⟩
  | cons row rows ih =>
    intro seen scan hscanned hdistinct hchecks hroom
    have hstep : ∀ next, Scanned (seen ++ visibleRows asOf [row]) next →
        ∃ scan', scanRows lineage asOf limits next rows = .ok scan' := by
      intro _ hnext
      have hsub : ((seen ++ visibleRows asOf [row]) ++ rows).Sublist (seen ++ row :: rows) := by
        rw [append_assoc]
        exact (List.Sublist.append filter_sublist (.refl _)).append_left seen
      exact ih hnext (hdistinct.sublist hsub)
        (fun r hr => hchecks r (mem_cons_of_mem _ hr)) (hsub.length_le.trans hroom)
    rw [scanRows, hchecks row (mem_cons_self ..)]
    simp only [bind, Except.bind]
    by_cases hvisible : asOf.any (· < row.systemCommitTime) = true
    · rw [if_pos hvisible]
      exact hstep scan (by simpa [visibleRows, hvisible] using hscanned)
    have hone : visibleRows asOf [row] = [row] := by simp [visibleRows, hvisible]
    rw [hone] at hstep
    rw [if_neg hvisible]
    rcases placeVersion_spec row scan.winners with
      ⟨hnone, hnew⟩ | ⟨before, winner, after, hwinners, hidentity, ⟨hrank, -⟩ | ⟨-, hplace⟩⟩
    · have hwinners : scan.winners.length ≤ seen.length := by
        refine (subperm_of_subset ?_ hscanned.selects.subset).length_le
        exact hscanned.selects.distinct.imp fun hne heq => hne (congrArg _ heq)
      rw [length_append, length_cons] at hroom
      simp only [hnone]
      rw [if_neg (by omega)]
      exact hstep _ (hscanned.mk_max (hscanned.selects.append hnew))
    · have hwinner : winner ∈ seen := hscanned.selects.subset (hwinners ▸ by simp)
      exact absurd ⟨hidentity, hrank⟩
        ((pairwise_append.1 hdistinct).2.2 winner hwinner row (mem_cons_self ..))
    · simp only [hplace]
      exact hstep _ (hscanned.mk_max (Selects.replace (hwinners ▸ hscanned.selects) hidentity))

/-- The granules that a schema projects in full. -/
def TemporalGranule.Of (granule : TemporalGranule) (schema : TableSchema) : Prop :=
  granule.schemaId = schema.schemaId ∧ granule.schemaVersion = schema.version ∧
    granule.columnIds = schema.columns.map (·.id)

lemma exists_scanGranules : ∀ {granules : List TemporalGranule}
    {seen : List TemporalCsegRow} {scan : TemporalScan} {count : ℕ}, Scanned seen scan →
    (seen ++ granules.flatMap (·.rows)).Pairwise (fun a b => ¬SameVersion a b) →
    (∀ granule ∈ granules, granule.Of schema ∧ ∀ row ∈ granule.rows,
      checkTemporalRow lineage limits.maximumIdentityBytes row = .ok ()) →
    (seen ++ granules.flatMap (·.rows)).length ≤ limits.maximumOutputRows →
    count + (granules.flatMap (·.rows)).length ≤ limits.maximumVersions →
    ∃ scan', scanGranules schema lineage asOf limits scan count granules = .ok scan' := by
  intro granules
  induction granules with
  | nil => exact fun {_ scan _} _ _ _ _ _ => ⟨scan, rfl⟩
  | cons granule granules ih =>
    intro seen scan _ hscanned hdistinct hchecks hroom hcount
    obtain ⟨⟨hid, hversion, hcolumns⟩, hrows⟩ := hchecks granule (mem_cons_self ..)
    rw [flatMap_cons, length_append] at hcount
    rw [flatMap_cons, ← append_assoc] at hdistinct hroom
    obtain ⟨next, hnext⟩ : ∃ next, scanRows lineage asOf limits scan granule.rows = .ok next :=
      exists_scanRows hscanned (pairwise_append.1 hdistinct).1 hrows
        ((length_append ▸ Nat.le_add_right _ _).trans hroom)
    have hsub : ((seen ++ visibleRows asOf granule.rows) ++ granules.flatMap (·.rows)).Sublist
        ((seen ++ granule.rows) ++ granules.flatMap (·.rows)) :=
      (filter_sublist.append_left seen).append_right _
    rw [scanGranules, if_neg (by simp [hid, hversion, hcolumns]), if_neg (not_not.2 hcolumns),
      if_neg (by omega), hnext]
    exact ih (scanRows_scanned hscanned hnext) (hdistinct.sublist hsub)
      (fun g hg => hchecks g (mem_cons_of_mem _ hg)) (hsub.length_le.trans hroom) (by omega)

end Scan

/-! ### Decoding -/

/-- The limits leave room for decoding some granules. -/
def TemporalResolutionLimits.Admits (limits : TemporalResolutionLimits)
    (granules : List TemporalGranule) : Prop :=
  granules.length ≤ limits.maximumGranules ∧
    decodedBufferBytes granules ≤ limits.maximumDecodedBufferBytes

section Decode

variable {schema : TableSchema} {tabletId : TabletId} {lineage : TemporalCsegSourceLineage}
  {limits : TemporalResolutionLimits}

lemma TemporalResolutionLimits.Admits.sublist {granules granules' : List TemporalGranule}
    (h : limits.Admits granules') (hsub : granules.Sublist granules') : limits.Admits granules :=
  ⟨hsub.length_le.trans h.1, ((hsub.map _).sum_le_sum (by simp)).trans h.2⟩

lemma takeGranules_eq : ∀ {granules decoded : List TemporalGranule},
    (∀ result, takeGranules limits decoded granules = .ok result → result = decoded ++ granules) ∧
    (limits.Admits (decoded ++ granules) →
      takeGranules limits decoded granules = .ok (decoded ++ granules)) := by
  intro granules
  induction granules with
  | nil => exact fun {decoded} => ⟨fun _ h => by simpa using (ok.inj h).symm,
      fun _ => by simp [takeGranules]⟩
  | cons granule granules ih =>
    intro decoded
    have hassoc : decoded ++ granule :: granules = (decoded ++ [granule]) ++ granules := by simp
    rw [takeGranules, hassoc]
    refine ⟨fun result h => ?_, fun hroom => ?_⟩
    · split_ifs at h
      · cases h
      · cases h
      · exact ih.1 result h
    · obtain ⟨hlength, hbytes⟩ := hroom.sublist (sublist_append_left _ _)
      simp only [decodedBufferBytes, length_append, map_append, sum_append, length_singleton,
        map_singleton, sum_singleton] at hlength hbytes
      rw [if_neg (by omega), if_neg (by rw [decodedBufferBytes]; omega)]
      exact ih.2 hroom

/-- The parts that begin by a time. -/
def keptParts (time : Int) (parts : List TemporalManifestPart) : List TemporalManifestPart :=
  parts.filter fun part => part.descriptor.minimumSystemTime ≤ time

/-- Decoding yields the granules of the parts that begin by the time; it succeeds where they
belong to the tablet and there is room for them. -/
lemma decodeTemporalParts_eq {time : Int} : ∀ {parts : List TemporalManifestPart}
    {decoded : List TemporalGranule},
    (∀ result, decodeTemporalParts schema tabletId lineage (some time) limits decoded parts =
        .ok result → result = decoded ++ (keptParts time parts).flatMap (·.granules)) ∧
    ((∀ part ∈ parts, part.descriptor.belongs schema.tableId tabletId lineage = true) →
      limits.Admits (decoded ++ parts.flatMap (·.granules)) →
      ∃ result, decodeTemporalParts schema tabletId lineage (some time) limits decoded parts =
        .ok result) := by
  intro parts
  induction parts with
  | nil => exact fun {decoded} => ⟨fun _ h => by simpa [keptParts] using (ok.inj h).symm,
      fun _ _ => ⟨decoded, rfl⟩⟩
  | cons part _ ih =>
    intro decoded
    rw [decodeTemporalParts, keptParts, filter_cons]
    by_cases hskip : time < part.descriptor.minimumSystemTime
    · simp only [Option.any_some, hskip, decide_true, if_true, decide_eq_true_eq, not_le.2 hskip,
        if_false]
      refine ⟨fun result h => ?_, fun hbelongs hroom => ?_⟩
      · split_ifs at h
        · cases h
        · exact ih.1 result h
      · rw [if_neg (by simp [hbelongs part (mem_cons_self ..)])]
        exact ih.2 (fun p hp => hbelongs p (mem_cons_of_mem _ hp))
          (hroom.sublist ((sublist_append_right _ _).append_left decoded))
    · simp only [Option.any_some, hskip, decide_false, Bool.false_eq_true, if_false,
        decide_eq_true_eq, not_lt.1 hskip, if_true, flatMap_cons, ← append_assoc]
      refine ⟨fun result h => ?_, fun hbelongs hroom => ?_⟩
      · split_ifs at h
        · cases h
        · obtain ⟨taken, htaken, h⟩ := bind_eq_ok.1 h
          rw [takeGranules_eq.1 taken htaken] at h
          exact ih.1 result h
      · rw [if_neg (by simp [hbelongs part (mem_cons_self ..)]),
          takeGranules_eq.2 (hroom.sublist (sublist_append_left _ _))]
        exact ih.2 (fun p hp => hbelongs p (mem_cons_of_mem _ hp)) hroom

end Decode

/-! ### The provider and the parts -/

/-- A version as a row of a temporal granule. -/
def TemporalVersion.csegRow (lineage : TemporalCsegSourceLineage) (version : TemporalVersion) :
    TemporalCsegRow :=
  ⟨lineage, version.commitPosition, version.mutation.rowOrdinal, version.mutation.kind,
    version.mutation.logicalIdentity, version.commitTimeNs, version.mutation.columns⟩

/-- What a row shows of a version: its identity, its values, its position and its ordinal. -/
def ScalarInputRow.shownVersion (row : ScalarInputRow) : Bytes × List ScalarValue × ℕ × ℕ :=
  (row.generatedLogicalIdentity, row.columns, row.systemCommitPosition, row.rowOrdinal)

/-- Limits and a Manifest view that a call on some parts satisfies. -/
structure AdmitsParts (schema : TableSchema) (tablet : TemporalTabletDescriptor)
    (parts : List TemporalManifestPart) (lineage : TemporalCsegSourceLineage)
    (limits : TemporalResolutionLimits) : Prop where
  view : validateTemporalTabletView schema tablet parts lineage = .ok ()
  source : lineage.sourceId ≠ 0
  parts_le : parts.length ≤ limits.maximumParts
  decodes : limits.Admits (parts.flatMap (·.granules))
  versions_le : (parts.flatMap (·.rows)).length ≤ limits.maximumVersions
  output_le : (parts.flatMap (·.rows)).length ≤ limits.maximumOutputRows
  positive : 0 < limits.maximumGranules ∧ 0 < limits.maximumDecodedBufferBytes ∧
    0 < limits.maximumVersions ∧ 0 < limits.maximumOutputRows ∧ 0 < limits.maximumIdentityBytes
  identity_le : limits.maximumIdentityBytes ≤ 1024
  granules_of : ∀ part ∈ parts, ∀ granule ∈ part.granules, granule.Of schema
  identities : ∀ row ∈ parts.flatMap (·.rows),
    row.logicalIdentity ≠ [] ∧ row.logicalIdentity.length ≤ limits.maximumIdentityBytes

/-- The parts of a valid view belong to the tablet. -/
lemma validateTemporalParts_belongs {tablet : TemporalTabletDescriptor} :
    ∀ {parts : List TemporalManifestPart} {previous : Option Uuid} {count total : ℕ},
    validateTemporalParts tablet previous count parts = .ok total →
    ∀ part ∈ parts,
      part.descriptor.belongs tablet.tableId tablet.tabletId tablet.lineage = true := by
  intro parts
  induction parts with
  | nil => simp
  | cons _ _ ih =>
    intro _ _ _ h other hother
    rw [validateTemporalParts] at h
    split_ifs at h with hbad
    · cases h
    rcases mem_cons.1 hother with rfl | hother
    · simp only [Bool.or_eq_true, not_or, Bool.not_eq_true', Bool.not_eq_false] at hbad
      exact hbad.1.1.1
    · exact ih h other hother

section Commits

variable {commits : List TemporalCommit} {lineage : TemporalCsegSourceLineage}

/-- The versions of ordered commits are all different. -/
lemma allVersions_distinct (hcommits : CommitsOrdered commits) :
    ((allVersions commits).map (·.csegRow lineage)).Pairwise fun a b => ¬SameVersion a b := by
  rw [pairwise_map, allVersions, pairwise_flatMap]
  refine ⟨fun commit hcommit => ?_, hcommits.ordered.imp fun hlt a ha b hb hsame => ?_⟩
  · rw [TemporalCommit.versions, pairwise_map]
    exact (pairwise_map.1 (hcommits.mutations commit hcommit).2).imp fun hne hsame => hne hsame.1
  · obtain ⟨_, -, rfl⟩ := mem_map.1 ha
    obtain ⟨_, -, rfl⟩ := mem_map.1 hb
    have hrank := hsame.2
    simp only [TemporalVersion.csegRow, TemporalCsegRow.rank, List.cons.injEq,
      Int.natCast_inj] at hrank
    omega

/-- The last versions by a time, of identities among which every one with a version is, are
a selection of the versions by that time. -/
lemma selects_lastAsOf (lineage : TemporalCsegSourceLineage) (time : Int)
    (hcommits : CommitsOrdered commits) {keys : List Bytes} (hnodup : keys.Nodup)
    (hkeys : ∀ identity version, lastAsOf commits time identity = some version → identity ∈ keys) :
    Selects (·.logicalIdentity) TemporalCsegRow.rank
      (visibleRows (some time) ((allVersions commits).map (·.csegRow lineage)))
      ((keys.filterMap (lastAsOf commits time)).map (·.csegRow lineage)) where
  subset row hrow := by
    obtain ⟨version, hversion, rfl⟩ := mem_map.1 hrow
    obtain ⟨_, -, hlast⟩ := mem_filterMap.1 hversion
    obtain ⟨hall, -, hle⟩ := Tracks.mem_allVersions_of_lastAsOf hlast
    exact mem_visibleRows.2 ⟨mem_map_of_mem hall, hle⟩
  distinct := by
    rw [pairwise_map, pairwise_filterMap]
    refine hnodup.imp fun hne version hversion _ hother heq => hne ?_
    obtain ⟨-, hidentity, -⟩ := Tracks.mem_allVersions_of_lastAsOf hversion
    obtain ⟨-, hidentity', -⟩ := Tracks.mem_allVersions_of_lastAsOf hother
    exact hidentity.symm.trans (heq.trans hidentity')
  covers row hrow := by
    obtain ⟨hrow, hle⟩ := mem_visibleRows.1 hrow
    obtain ⟨version, hversion, rfl⟩ := mem_map.1 hrow
    have hmem : version ∈ (historyOf commits version.mutation.logicalIdentity).filter
        (·.commitTimeNs ≤ time) :=
      mem_filter.2 ⟨mem_historyOf.2 ⟨hversion, rfl⟩, decide_eq_true hle⟩
    obtain ⟨last, hlast⟩ :=
      Option.isSome_iff_exists.1 (getLast?_isSome.2 (ne_nil_of_mem hmem))
    obtain ⟨-, hidentity, -⟩ := Tracks.mem_allVersions_of_lastAsOf hlast
    refine ⟨last.csegRow lineage, mem_map_of_mem
      (mem_filterMap.2 ⟨_, hkeys _ last hlast, hlast⟩), hidentity, ?_⟩
    -- the history is ordered by position and by time
    obtain ⟨_, heq⟩ := getLast?_eq_some_iff.1 hlast
    have hsorted := (historyOf_ordered hcommits version.mutation.logicalIdentity).sublist
      (filter_sublist (p := (·.commitTimeNs ≤ time)))
    rw [heq] at hmem hsorted
    rcases mem_append.1 hmem with hearlier | hself
    · have hlt := (pairwise_append.1 hsorted).2.2 version hearlier last (by simp)
      rw [Ordering.isLE_iff_ne_gt, rank_gt_iff]
      simp only [TemporalVersion.csegRow]
      omega
    · rw [mem_singleton.1 hself]
      exact Std.ReflCmp.isLE_rfl

end Commits

/-- Parts that begin after the time have no visible row. -/
lemma visibleRows_keptParts : ∀ {parts : List TemporalManifestPart},
    (∀ part ∈ parts, ∀ row ∈ part.rows,
      part.descriptor.minimumSystemTime ≤ row.systemCommitTime) →
    visibleRows (some time) (((keptParts time parts).flatMap (·.granules)).flatMap (·.rows)) =
      visibleRows (some time) (parts.flatMap (·.rows)) := by
  intro parts
  induction parts with
  | nil => exact fun _ => rfl
  | cons part _ ih =>
    intro hminimum
    have hrest := ih fun p hp => hminimum p (mem_cons_of_mem _ hp)
    rw [keptParts, filter_cons]
    split_ifs with hkept
    · rw [flatMap_cons, flatMap_append, flatMap_cons, visibleRows_append, visibleRows_append]
      exact congrArg _ hrest
    · have hnone : visibleRows (some time) part.rows = [] := by
        refine eq_nil_iff_forall_not_mem.2 fun row hrow => ?_
        obtain ⟨hrow, _⟩ := mem_visibleRows.1 hrow
        have := hminimum part (mem_cons_self ..) row hrow
        simp only [decide_eq_true_eq] at hkept
        omega
      rw [flatMap_cons, visibleRows_append, hnone]
      exact hrest

namespace Tracks

variable {commits : List TemporalCommit} {provider : TemporalSnapshotProvider}
  {lineage : TemporalCsegSourceLineage} {time : Int} {rows : List TemporalCsegRow}
  {scan : TemporalScan}

/-- A commit has a version. -/
lemma exists_version (htracks : Tracks none commits provider) {commit : TemporalCommit}
    (hcommit : commit ∈ commits) :
    ∃ version ∈ allVersions commits,
      version.commitPosition = commit.position ∧ version.commitTimeNs = commit.time := by
  obtain ⟨mutation, hmutation⟩ :=
    exists_mem_of_ne_nil _ (htracks.ordered.mutations commit hcommit).1
  exact ⟨⟨commit.position, commit.time, mutation⟩,
    mem_allVersions.2 ⟨commit, hcommit, hmutation, rfl, rfl⟩, rfl, rfl⟩

variable (htracks : Tracks none commits provider)
  (hrows : rows.Perm ((allVersions commits).map (·.csegRow lineage)))
  (hscanned : Scanned (visibleRows (some time) rows) scan)

include htracks hrows hscanned

/-- The greatest visible position is that of the last commit by the time. -/
lemma visiblePosition_eq {boundary : ℕ} (hboundary : positionAsOf commits time = some boundary) :
    scan.visiblePosition = boundary := by
  obtain ⟨⟨_, hlast, hle, rfl⟩, hgreatest⟩ :=
    (positionAsOf_eq_some htracks.ordered).1 hboundary
  refine le_antisymm ?_ ?_
  · rcases hscanned.attained with _ | ⟨_, hrow, hposition⟩
    · omega
    · obtain ⟨hrow, hvisible⟩ := mem_visibleRows.1 hrow
      obtain ⟨version, hversion, rfl⟩ := mem_map.1 (hrows.subset hrow)
      obtain ⟨commit, hcommit, -, _, htime⟩ := mem_allVersions.1 hversion
      have := hgreatest commit hcommit (htime ▸ hvisible)
      simp only [TemporalVersion.csegRow] at hposition
      omega
  · obtain ⟨_, hversion, hposition, htime⟩ := htracks.exists_version hlast
    exact hposition ▸ hscanned.position_le _ (mem_visibleRows.2
      ⟨hrows.symm.subset (mem_map_of_mem hversion), htime.trans_le hle⟩)

/-- The winners of a scan show the rows that the commits show. -/
lemma shown_perm :
    ((scan.winners.filterMap (·.shown provider.schema lineage.sourceId)).map
      ScalarInputRow.shownVersion).Perm (((provider.histories.entries.map (·.1)).filterMap
        (rowAsOf provider.schema commits time)).map ScalarInputRow.shownVersion) := by
  have hselects := selects_lastAsOf lineage time htracks.ordered
    ((pairwise_map.2 provider.histories.sorted).imp fun hlt => ne_of_lt hlt)
    fun identity version hlast => by
      obtain ⟨_, hmem⟩ := htracks.mem_of_lastAsOf hlast
      exact mem_map_of_mem hmem
  have hsymm : Std.Symm fun a b : TemporalCsegRow => ¬SameVersion a b :=
    ⟨fun _ _ hab hba => hab ⟨hba.1.symm, hba.2.symm⟩⟩
  have hwinners := (hscanned.selects.of_perm (hrows.filter _)).perm hselects
    fun _ ha _ hb hidentity hrank => by
      by_contra hne
      exact (allVersions_distinct htracks.ordered).forall (mem_of_mem_filter ha)
        (mem_of_mem_filter hb) hne ⟨hidentity, hrank⟩
  refine ((hwinners.filterMap _).map _).trans (List.Perm.of_eq ?_)
  rw [filterMap_map, filterMap_filterMap, map_filterMap, map_filterMap]
  refine filterMap_congr fun identity _ => ?_
  rw [rowAsOf]
  cases hlast : lastAsOf commits time identity with
  | none => rfl
  | some version =>
    obtain ⟨-, rfl, -⟩ := mem_allVersions_of_lastAsOf hlast
    simp only [Option.bind_some, Function.comp_apply, TemporalCsegRow.shown,
      TemporalVersion.csegRow, TemporalSnapshotProvider.shownRow]
    by_cases hkind : version.mutation.kind = .tombstone
    · rw [if_pos hkind, if_pos hkind]
    · rw [if_neg hkind, if_neg hkind]
      rfl

/-- The rows that the winners of a scan show make a snapshot. -/
lemma create_shown (hsource : lineage.sourceId ≠ 0) (hnonzero : scan.visiblePosition ≠ 0) :
    ∃ snapshot, ScalarTableSnapshot.create provider.schema scan.visiblePosition
      (scan.winners.filterMap (·.shown provider.schema lineage.sourceId)) = .ok snapshot := by
  refine ⟨_, ScalarTableSnapshot.create_ok.2 ⟨hnonzero, rfl, fun row hrow => ?_⟩⟩
  obtain ⟨_, hwinner, hshown⟩ := mem_filterMap.1 hrow
  have hseen := hscanned.selects.subset hwinner
  obtain ⟨version, hversion, rfl⟩ := mem_map.1 (hrows.subset (mem_visibleRows.1 hseen).1)
  have hkind : (version.csegRow lineage).operation ≠ .tombstone := fun h => by
    rw [TemporalCsegRow.shown, if_pos h] at hshown
    cases hshown
  rw [TemporalCsegRow.shown, if_neg hkind] at hshown
  obtain rfl := Option.some.inj hshown
  obtain ⟨hcount, hcolumns, hidentity, -, -, hpositive⟩ := htracks.fits version hversion hkind
  exact ⟨⟨hcount, hcolumns, hidentity, hsource, hpositive, hpositive⟩, hscanned.position_le _ hseen⟩

end Tracks

section Resolve

variable {schema : TableSchema} {tablet : TemporalTabletDescriptor}
  {parts : List TemporalManifestPart} {lineage : TemporalCsegSourceLineage}
  {limits : TemporalResolutionLimits} {time : Int} {snapshot : ScalarTableSnapshot}

/-- What resolving the parts returns is the outcome of the scan of the parts that begin by the
time. -/
lemma resolveManifestTemporalTablet_ok
    (h : resolveManifestTemporalTablet schema tablet parts lineage (some time) limits =
      .ok snapshot) :
    ∃ scan, scanGranules schema lineage (some time) limits ⟨[], 0⟩ 0
        ((keptParts time parts).flatMap (·.granules)) = .ok scan ∧
      snapshot = ⟨schema, scan.visiblePosition,
        scan.winners.filterMap (·.shown schema lineage.sourceId)⟩ := by
  unfold resolveManifestTemporalTablet at h
  split_ifs at h
  · cases h
  simp only [bind_eq_ok] at h
  obtain ⟨-, -, granules, hdecode, h⟩ := h
  unfold resolveTemporalGranules at h
  split_ifs at h
  · cases h
  obtain ⟨scan, hscan, h⟩ := bind_eq_ok.1 h
  split_ifs at h
  obtain ⟨-, rfl, -⟩ := ScalarTableSnapshot.create_ok.1 h
  obtain rfl : granules = (keptParts time parts).flatMap (·.granules) :=
    decodeTemporalParts_eq.1 granules hdecode
  exact ⟨scan, hscan, rfl⟩

namespace AdmitsParts

section

variable (h : AdmitsParts schema tablet parts lineage limits)
include h

lemma belongs : ∀ part ∈ parts,
    part.descriptor.belongs schema.tableId tablet.tabletId lineage = true := by
  have hview := h.view
  unfold validateTemporalTabletView at hview
  split_ifs at hview with howner
  · cases hview
  obtain ⟨_, hcount, -⟩ := bind_eq_ok.1 hview
  simp only [not_or, not_not] at howner
  rw [← howner.1, ← howner.2.1]
  exact validateTemporalParts_belongs hcount

/-- The scan of the parts that begin by a time succeeds. -/
lemma exists_scan {commits : List TemporalCommit} (hcommits : CommitsOrdered commits)
    (hrows : (parts.flatMap (·.rows)).Perm ((allVersions commits).map (·.csegRow lineage))) :
    ∃ scan, scanGranules schema lineage (some time) limits ⟨[], 0⟩ 0
      ((keptParts time parts).flatMap (·.granules)) = .ok scan := by
  have hsub : (((keptParts time parts).flatMap (·.granules)).flatMap (·.rows)).Sublist
      (parts.flatMap (·.rows)) := by
    rw [flatMap_assoc]
    exact filter_sublist.flatMap _
  have hdistinct : (parts.flatMap (·.rows)).Pairwise fun a b => ¬SameVersion a b :=
    hrows.symm.pairwise (allVersions_distinct hcommits) fun hab hba => hab ⟨hba.1.symm, hba.2.symm⟩
  refine exists_scanGranules scanned_nil (hdistinct.sublist hsub) (fun granule hgranule => ?_)
    (hsub.length_le.trans h.output_le) (by simpa using hsub.length_le.trans h.versions_le)
  obtain ⟨part, hpart, hin⟩ := mem_flatMap.1 hgranule
  have hpart := mem_of_mem_filter hpart
  refine ⟨h.granules_of part hpart granule hin, fun row hrow => ?_⟩
  have hmem : row ∈ parts.flatMap (·.rows) :=
    mem_flatMap.2 ⟨part, hpart, mem_flatMap.2 ⟨granule, hin, hrow⟩⟩
  obtain ⟨hne, _⟩ := h.identities row hmem
  obtain ⟨version, -, rfl⟩ := mem_map.1 (hrows.subset hmem)
  have hlineage : (version.csegRow lineage).lineage = lineage := rfl
  rw [checkTemporalRow, if_neg (not_not.2 hlineage), if_neg (by simp only [hne, false_or]; omega)]

/-- Resolving admitted parts returns the snapshot of what the scan has seen. -/
lemma resolve_eq {scan : TemporalScan}
    (hscan : scanGranules schema lineage (some time) limits ⟨[], 0⟩ 0
      ((keptParts time parts).flatMap (·.granules)) = .ok scan)
    (hnonzero : scan.visiblePosition ≠ 0)
    (hcreate : ScalarTableSnapshot.create schema scan.visiblePosition
      (scan.winners.filterMap (·.shown schema lineage.sourceId)) = .ok snapshot) :
    resolveManifestTemporalTablet schema tablet parts lineage (some time) limits =
      .ok snapshot := by
  obtain ⟨granules, hdecode⟩ : ∃ granules, decodeTemporalParts schema tablet.tabletId lineage
      (some time) limits [] parts = .ok granules :=
    decodeTemporalParts_eq.2 h.belongs h.decodes
  obtain rfl : granules = (keptParts time parts).flatMap (·.granules) :=
    decodeTemporalParts_eq.1 granules hdecode
  obtain ⟨_, _, _, _, _⟩ := h.positive
  have hparts := h.parts_le
  have hidentityLe := h.identity_le
  -- without a part nothing is seen
  have hsome : parts.length ≠ 0 := fun hlength => by
    rw [length_eq_zero_iff.1 hlength] at hscan
    cases hscan
    exact hnonzero rfl
  rw [resolveManifestTemporalTablet, if_neg (by omega), h.view]
  simp only [bind, Except.bind, hdecode]
  rw [resolveTemporalGranules, if_neg (by
    rintro (hsource | h | h | h | h)
    · exact h.source hsource
    all_goals omega)]
  simp only [bind, Except.bind, hscan]
  rw [if_neg (fun h => hnonzero h.1), hcreate]

end

end AdmitsParts

end Resolve

/-- A provider that only gets commits is never restored or compacted. -/
lemma TemporalRun.after_applies : ∀ {actions : List TemporalAction} (run : TemporalRun),
    (∀ action ∈ actions, ∃ position time mutations, action = .apply position time mutations) →
    Runs.Along TemporalRun.step TemporalRun.FromRetained run actions ∧
      (run.after actions).boundary = run.boundary := by
  intro actions
  induction actions with
  | nil => exact fun _ _ => ⟨trivial, rfl⟩
  | cons action _ ih =>
    intro run h
    obtain ⟨position, time, mutations, rfl⟩ := h action (mem_cons_self ..)
    obtain ⟨halong, hboundary⟩ := ih (run.step (.apply position time mutations))
      fun a ha => h a (mem_cons_of_mem _ ha)
    refine ⟨⟨trivial, halong⟩, hboundary.trans ?_⟩
    rw [TemporalRun.step.eq_def]
    dsimp only
    split <;> rfl

/-- **Temporal parts and the provider.**  After every sequence of commits, for every time by
which something was committed, and for parts and granules that hold the versions in any order:
what resolving the parts returns has the position and the rows that the provider resolves.  It
returns where the limits leave room and the Manifest view is valid. -/
theorem temporal_parts_refine_provider (schema : TableSchema) (storeLimits : TemporalStoreLimits)
    (provider : TemporalSnapshotProvider)
    (hcreate : TemporalSnapshotProvider.create schema storeLimits = .ok provider)
    (actions : List TemporalAction)
    (hactions : ∀ action ∈ actions, ∃ position time mutations,
      action = .apply position time mutations)
    (tablet : TemporalTabletDescriptor) (parts : List TemporalManifestPart)
    (lineage : TemporalCsegSourceLineage) (limits : TemporalResolutionLimits)
    (hrows : (parts.flatMap (·.rows)).Perm
      ((allVersions ((TemporalRun.start provider).after actions).commits).map (·.csegRow lineage)))
    (hminimum : ∀ part ∈ parts, ∀ row ∈ part.rows,
      part.descriptor.minimumSystemTime ≤ row.systemCommitTime)
    (time : Int)
    (hcommitted : ∃ commit ∈ ((TemporalRun.start provider).after actions).commits,
      commit.time ≤ time) :
    ∃ expected, ((TemporalRun.start provider).after actions).provider.resolve schema (some time) =
        .ok expected ∧
      (∀ snapshot, resolveManifestTemporalTablet schema tablet parts lineage (some time) limits =
          .ok snapshot → snapshot.committedPosition = expected.committedPosition ∧
        (snapshot.rows.map ScalarInputRow.shownVersion).Perm
          (expected.rows.map ScalarInputRow.shownVersion)) ∧
      (AdmitsParts schema tablet parts lineage limits → ∃ snapshot,
        resolveManifestTemporalTablet schema tablet parts lineage (some time) limits =
          .ok snapshot) := by
  obtain ⟨halong, hboundary⟩ := TemporalRun.after_applies (.start provider) hactions
  have hsound := TemporalRun.tracks hcreate halong
  set run := (TemporalRun.start provider).after actions
  have htracks : Tracks none run.commits run.provider := by
    rw [← show run.boundary = none from hboundary]
    exact hsound.tracks
  obtain rfl := hsound.schema_eq
  obtain ⟨_, hposition, hresolve⟩ := htracks.resolve_eq rfl rfl (fun _ h => by cases h) hcommitted
  have hvisible : ∀ {scan}, scanGranules run.provider.schema lineage (some time) limits ⟨[], 0⟩ 0
      ((keptParts time parts).flatMap (·.granules)) = .ok scan →
      Scanned (visibleRows (some time) (parts.flatMap (·.rows))) scan := by
    intro scan hscan
    rw [← visibleRows_keptParts hminimum]
    exact scanGranules_scanned scanned_nil hscan
  refine ⟨_, hresolve, fun snapshot h => ?_, fun hadmits => ?_⟩
  · obtain ⟨scan, hscan, rfl⟩ := resolveManifestTemporalTablet_ok h
    exact ⟨htracks.visiblePosition_eq hrows (hvisible hscan) hposition,
      htracks.shown_perm hrows (hvisible hscan)⟩
  · obtain ⟨scan, hscan⟩ := hadmits.exists_scan htracks.ordered hrows
    have hscanned := hvisible hscan
    have hnonzero : scan.visiblePosition ≠ 0 := by
      rw [htracks.visiblePosition_eq hrows hscanned hposition]
      obtain ⟨⟨last, hlast, -, rfl⟩, -⟩ := (positionAsOf_eq_some htracks.ordered).1 hposition
      exact htracks.positive last hlast
    obtain ⟨snapshot, hsnapshot⟩ :=
      htracks.create_shown hrows hscanned hadmits.source hnonzero
    exact ⟨snapshot, hadmits.resolve_eq hscan hnonzero hsnapshot⟩

/-! ### A row and its correction -/

/-- A row and its correction, committed at one time. -/
def correctedActions : List TemporalAction :=
  [.apply 1 10 [sampleMutation sampleIdentity 5 1 .original],
    .apply 2 10 [sampleMutation sampleIdentity 6 2 .correction]]

/-- The source of the sample. -/
def sampleLineage : TemporalCsegSourceLineage := ⟨.wal, 9⟩

/-- A part with one of the two versions. -/
def correctedPart (partId : Uuid) (version : TemporalVersion) : TemporalManifestPart :=
  ⟨⟨partId, Ingest.sampleSchema.tableId, 1, sampleLineage, 1, 2, 10⟩,
    [⟨Ingest.sampleSchema.schemaId, Ingest.sampleSchema.version,
      Ingest.sampleSchema.columns.map (·.id), [version.csegRow sampleLineage], 64⟩]⟩

/-- The correction in the first part, and the row in the second. -/
def correctedParts : List TemporalManifestPart :=
  [correctedPart 1 ⟨2, 10, sampleMutation sampleIdentity 6 2 .correction⟩,
    correctedPart 2 ⟨1, 10, sampleMutation sampleIdentity 5 1 .original⟩]

/-- The tablet of the two parts. -/
def correctedTablet : TemporalTabletDescriptor :=
  ⟨Ingest.sampleSchema.tableId, 1, sampleLineage, 2, 2, 2⟩

lemma correctedParts_admitted :
    AdmitsParts Ingest.sampleSchema correctedTablet correctedParts sampleLineage
      ⟨2, 2, 128, 2, 2, 8⟩ where
  view := by decide +kernel
  source := by decide
  parts_le := by decide
  decodes := by
    unfold TemporalResolutionLimits.Admits
    decide
  versions_le := by decide
  output_le := by decide
  positive := by decide
  identity_le := by decide
  granules_of := by
    unfold TemporalGranule.Of
    decide +kernel
  identities := by decide +kernel

/-- The parts and the provider resolve the same rows, the correction in place of the row. -/
theorem temporal_parts_refine_provider_corrected :
    let provider := TemporalSnapshotProvider.fresh Ingest.sampleSchema sampleLimits
    ∃ expected snapshot, ((TemporalRun.start provider).after correctedActions).provider.resolve
        Ingest.sampleSchema (some 10) = .ok expected ∧
      resolveManifestTemporalTablet Ingest.sampleSchema correctedTablet correctedParts
        sampleLineage (some 10) ⟨2, 2, 128, 2, 2, 8⟩ = .ok snapshot ∧
      (snapshot.rows.map ScalarInputRow.shownVersion).Perm
        (expected.rows.map ScalarInputRow.shownVersion) := by
  intro provider
  obtain ⟨expected, hresolve, hsame, hreturns⟩ := temporal_parts_refine_provider
    Ingest.sampleSchema sampleLimits provider rfl correctedActions (by simp [correctedActions])
    correctedTablet correctedParts sampleLineage ⟨2, 2, 128, 2, 2, 8⟩ (by decide +kernel)
    (by decide +kernel) 10 (by decide +kernel)
  obtain ⟨snapshot, hsnapshot⟩ := hreturns correctedParts_admitted
  exact ⟨expected, snapshot, hresolve, hsnapshot, (hsame snapshot hsnapshot).2⟩

end Chronos.Query
