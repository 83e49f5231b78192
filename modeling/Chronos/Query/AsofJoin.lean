import Chronos.Common.Formats
import Chronos.Query.LatestBy

/-!
`ASOF` joins: the operator of `src/query/asof_join.cpp` and `apply_asof_joins` of the scalar
executor.

* `asofJoin`: the operator.  It buffers both inputs and scans the right rows for every left
  row.  `isNan` stands for the test of floating-point keys, and the byte accounting is left out.
* `applyAsofJoin`: one join of the executor, for a condition on pairs of rows.
* `Eligible`: the equality and time condition that the operator tests.
* `joinRows_eq`, `joinCandidates_eq`: both join a left row with the best of its eligible right
  rows.
-/

namespace Chronos.Query

open Schema List
open Columnar (exhausted)
open Chronos.Sort (best best_map best_perm selects_best Selects IsWinner)

/-! ### The operator -/

/-- `VectorAsofEqualityKey`. -/
structure VectorAsofEqualityKey where
  leftColumnOrdinal : ℕ
  rightColumnOrdinal : ℕ

/-- `VectorAsofJoinDefinition`. -/
structure VectorAsofJoinDefinition where
  leftInputColumns : List VectorColumn
  rightInputColumns : List VectorColumn
  equalityKeys : List VectorAsofEqualityKey
  leftTimestampColumnOrdinal : ℕ
  rightTimestampColumnOrdinal : ℕ
  rightPhysicalOrderingKeyOrdinals : List ℕ
  rightRowVersionFirstColumnOrdinal : ℕ
  leftOutputColumnOrdinals : List ℕ
  rightOutputColumnOrdinals : List ℕ
  leftOuter : Bool

/-- `AsofJoinLimits`, with the row and column limits of its output. -/
structure AsofJoinLimits where
  maximumLeftRows : ℕ
  maximumRightRows : ℕ
  maximumEqualityKeys : ℕ
  maximumPhysicalOrderingKeys : ℕ
  outputMaximumRows : ℕ
  outputMaximumColumns : ℕ

/-- The type of a column whose ordinal was validated. -/
def columnType (columns : List VectorColumn) (ordinal : ℕ) : LogicalType :=
  (columns[ordinal]?.map VectorColumn.type).getD ⟨.bool, 0, 0⟩

lemma columnType_eq {columns : List VectorColumn} {ordinal : ℕ} {column : VectorColumn}
    (h : columns[ordinal]? = some column) : columnType columns ordinal = column.type := by
  rw [columnType, h]
  rfl

/-- A timestamp column exists and has type `TIMESTAMP_NS`. -/
def isTimestampColumn (columns : List VectorColumn) (ordinal : ℕ) : Bool :=
  ordinal < columns.length && (columnType columns ordinal).kind = .timestampNs

/-- An equality key names two columns of one type. -/
def VectorAsofJoinDefinition.keyMatches (definition : VectorAsofJoinDefinition)
    (key : VectorAsofEqualityKey) : Bool :=
  key.leftColumnOrdinal < definition.leftInputColumns.length &&
    key.rightColumnOrdinal < definition.rightInputColumns.length &&
    columnType definition.leftInputColumns key.leftColumnOrdinal =
      columnType definition.rightInputColumns key.rightColumnOrdinal

/-- `validate_definition` of `asof_join.cpp`. -/
def validateAsofJoin (definition : VectorAsofJoinDefinition) (limits : AsofJoinLimits) :
    Result Unit := do
  require (limits.maximumLeftRows ≠ 0 ∧ limits.maximumRightRows ≠ 0 ∧
      limits.maximumEqualityKeys ≠ 0 ∧ limits.maximumPhysicalOrderingKeys ≠ 0 ∧
      limits.outputMaximumRows ≠ 0 ∧ limits.outputMaximumColumns ≠ 0)
    (⟨.invalidArgument, "ASOF join limits must be nonzero"⟩ : Status)
  require (definition.equalityKeys ≠ [])
    (⟨.invalidArgument, "ASOF join requires an equality key"⟩ : Status)
  require (definition.rightPhysicalOrderingKeyOrdinals ≠ [])
    (⟨.invalidArgument, "ASOF join requires a right physical ordering key"⟩ : Status)
  require (definition.equalityKeys.length ≤ limits.maximumEqualityKeys ∧
      definition.rightPhysicalOrderingKeyOrdinals.length ≤ limits.maximumPhysicalOrderingKeys)
    (⟨.resourceExhausted, "ASOF join key configuration exceeds its limit"⟩ : Status)
  require (definition.leftOutputColumnOrdinals.length +
      definition.rightOutputColumnOrdinals.length + 1 ≤ limits.outputMaximumColumns)
    (⟨.resourceExhausted, "ASOF join output width exceeds its limit"⟩ : Status)
  require (isTimestampColumn definition.leftInputColumns definition.leftTimestampColumnOrdinal ∧
      isTimestampColumn definition.rightInputColumns definition.rightTimestampColumnOrdinal)
    (⟨.invalidArgument, "ASOF join timestamps must be in-range TIMESTAMP_NS columns"⟩ : Status)
  require (∀ key ∈ definition.equalityKeys, definition.keyMatches key)
    (⟨.invalidArgument, "ASOF join equality key shapes must match exactly"⟩ : Status)
  require (∀ ordinal ∈ definition.rightPhysicalOrderingKeyOrdinals,
      ordinal < definition.rightInputColumns.length)
    (⟨.invalidArgument, "ASOF join right physical key is out of range"⟩ : Status)
  require (∀ ordinal ∈ definition.leftOutputColumnOrdinals,
      ordinal < definition.leftInputColumns.length)
    (⟨.invalidArgument, "ASOF join left output is out of range"⟩ : Status)
  require (∀ ordinal ∈ definition.rightOutputColumnOrdinals,
      ordinal < definition.rightInputColumns.length)
    (⟨.invalidArgument, "ASOF join right output is out of range"⟩ : Status)
  require (definition.rightRowVersionFirstColumnOrdinal + 4 < 2 ^ 64)
    (⟨.resourceExhausted, "vector row-version column count overflowed"⟩ : Status)
  require ((definition.rightInputColumns.drop definition.rightRowVersionFirstColumnOrdinal).take 4
      = rowVersionTypes.map (⟨·, false⟩))
    (⟨.invalidArgument, "ASOF join right row-version suffix is invalid"⟩ : Status)

/-- `drain`: the rows of an input, after some rows. -/
def drain (expected : List VectorColumn) (maximumRows : ℕ) :
    List VectorRow → List VectorChunk → Result (List VectorRow)
  | rows, [] => .ok rows
  | rows, chunk :: chunks =>
    if chunk.columns.length ≠ expected.length then invalid "ASOF join input column count changed"
    else if chunk.columns ≠ expected then invalid "ASOF join input shape changed"
    else if chunk.rows.length > maximumRows - rows.length then
      exhausted "ASOF input exceeds its row limit"
    else drain expected maximumRows (rows ++ chunk.rows) chunks

section Operator

variable (compareFloat : ScalarStorage → ScalarStorage → Ordering) (isNan : ScalarStorage → Bool)
  (definition : VectorAsofJoinDefinition)

/-- `keys_match`. -/
def keysMatch (left right : VectorRow) : List VectorAsofEqualityKey → Result Bool
  | [] => .ok true
  | key :: keys => do
    let leftCell ← rowCell left key.leftColumnOrdinal
    let rightCell ← rowCell right key.rightColumnOrdinal
    let type := columnType definition.leftInputColumns key.leftColumnOrdinal
    if leftCell.isNull || rightCell.isNull then return false
    else if floatKind type.kind && (isNan leftCell.storage || isNan rightCell.storage) then
      return false
    else if (← comparePhysicalCells compareFloat type leftCell rightCell .last) ≠ .eq then
      return false
    else keysMatch left right keys

/-- `eligible_time`. -/
def eligibleTime (left right : VectorRow) : Result Bool := do
  let leftTime ← rowCell left definition.leftTimestampColumnOrdinal
  let rightTime ← rowCell right definition.rightTimestampColumnOrdinal
  if leftTime.isNull || rightTime.isNull then return false
  else return (← comparePhysicalCells compareFloat
    (columnType definition.rightInputColumns definition.rightTimestampColumnOrdinal)
    rightTime leftTime .last) ≠ .gt

/-- The columns that rank a right row. -/
def VectorAsofJoinDefinition.rank : List (ℕ × ScalarNullPlacement) :=
  rankColumns .last definition.rightTimestampColumnOrdinal
    definition.rightPhysicalOrderingKeyOrdinals definition.rightRowVersionFirstColumnOrdinal

/-- `compare_right_winners`: the timestamp, the physical ordering key and the version. -/
def compareRightWinners (candidate current : VectorRow) : Result Ordering :=
  firstDifference (fun column => compareOrdinal compareFloat
    (columnType definition.rightInputColumns column.1) candidate current column.1 column.2)
    definition.rank

/-- The scan of the right rows for one left row, after some rows. -/
def findWinner (left : VectorRow) : Option VectorRow → List VectorRow → Result (Option VectorRow)
  | winner, [] => .ok winner
  | winner, right :: rights => do
    if !(← keysMatch compareFloat isNan definition left right definition.equalityKeys) then
      findWinner left winner rights
    else if !(← eligibleTime compareFloat definition left right) then
      findWinner left winner rights
    else
      match winner with
      | none => findWinner left (some right) rights
      | some current =>
        if (← compareRightWinners compareFloat definition right current) = .gt then
          findWinner left (some right) rights
        else findWinner left (some current) rights

/-- What one left row adds to the join. -/
def joinedRows {ρ : Type} (leftOuter : Bool) (left : VectorRow) :
    Option ρ → List (VectorRow × Option ρ)
  | some right => [(left, some right)]
  | none => if leftOuter then [(left, none)] else []

/-- The loop of `AsofJoinOperator::next` over the left rows. -/
def joinRows (rights : List VectorRow) :
    List VectorRow → Result (List (VectorRow × Option VectorRow))
  | [] => .ok []
  | left :: lefts => do
    let winner ← findWinner compareFloat isNan definition left none rights
    return joinedRows definition.leftOuter left winner ++ (← joinRows rights lefts)

/-- A row of the output: columns of the left row, columns of the right row or nulls, and
whether there is a right row. -/
def outputRow (joined : VectorRow × Option VectorRow) : VectorRow :=
  definition.leftOutputColumnOrdinals.filterMap (joined.1[·]?) ++
    (match joined.2 with
      | some right => definition.rightOutputColumnOrdinals.filterMap (right[·]?)
      | none => definition.rightOutputColumnOrdinals.map
          fun ordinal => ⟨some (columnType definition.rightInputColumns ordinal), .null⟩) ++
    [⟨some ⟨.bool, 0, 0⟩, .boolean joined.2.isSome⟩]

/-- `AsofJoinOperator::create` and `next`: the rows returned. -/
def asofJoin (limits : AsofJoinLimits) (leftChunks rightChunks : List VectorChunk) :
    Result (List VectorRow) := do
  validateAsofJoin definition limits
  let rights ← drain definition.rightInputColumns limits.maximumRightRows [] rightChunks
  let lefts ← drain definition.leftInputColumns limits.maximumLeftRows [] leftChunks
  let joined ← joinRows compareFloat isNan definition rights lefts
  require (joined.length ≤ limits.outputMaximumRows)
    (⟨.resourceExhausted, "ASOF output exceeds its row or column limit"⟩ : Status)
  return joined.map (outputRow definition)

/-! ### The scalar executor -/

section Executor

variable (schema : TableSchema) (timestamp : ℕ) (condition : VectorRow → ScalarInputRow → Bool)

/-- The loop of `apply_asof_joins` over the candidates for a left row, which is given by the
values of its columns. -/
def findCandidate (left : VectorRow) :
    Option ScalarInputRow → List ScalarInputRow → Result (Option ScalarInputRow)
  | winner, [] => .ok winner
  | winner, candidate :: candidates =>
    if !condition left candidate then findCandidate left winner candidates
    else
      match winner with
      | none => findCandidate left (some candidate) candidates
      | some current => do
        if ← laterRow compareFloat schema timestamp candidate current then
          findCandidate left (some candidate) candidates
        else findCandidate left (some current) candidates

/-- The loop of `apply_asof_joins` over the left rows. -/
def joinCandidates (leftOuter : Bool) (candidates : List ScalarInputRow) :
    List VectorRow → Result (List (VectorRow × Option ScalarInputRow))
  | [] => .ok []
  | left :: lefts => do
    let winner ← findCandidate compareFloat schema timestamp condition left none candidates
    return joinedRows leftOuter left winner ++ (← joinCandidates leftOuter candidates lefts)

/-- One join of `apply_asof_joins`. -/
def applyAsofJoin (leftOuter : Bool) (maximumIntermediateRows : ℕ)
    (candidates : List ScalarInputRow) (lefts : List VectorRow) :
    Result (List (VectorRow × Option ScalarInputRow)) := do
  let joined ← joinCandidates compareFloat schema timestamp condition leftOuter candidates lefts
  require (joined.length ≤ maximumIntermediateRows)
    (⟨.resourceExhausted, "ASOF intermediate row count exceeds the limit"⟩ : Status)
  return joined

end Executor

/-! ### The condition of the operator -/

/-- The timestamp of a row, where it is not null. -/
def timestampOf (row : VectorRow) (ordinal : ℕ) : Option Int :=
  row[ordinal]?.bind fun cell =>
    match cell.storage with
    | .signed time => some time
    | _ => none

/-- All equality keys are equal and not null, and the right timestamp is not after the left. -/
def Eligible (left right : VectorRow) : Prop :=
  (∀ key ∈ definition.equalityKeys,
    left[key.leftColumnOrdinal]? = right[key.rightColumnOrdinal]? ∧
      left[key.leftColumnOrdinal]?.all (!·.isNull)) ∧
    ∃ rightTime ∈ timestampOf right definition.rightTimestampColumnOrdinal,
      ∃ leftTime ∈ timestampOf left definition.leftTimestampColumnOrdinal, rightTime ≤ leftTime

instance (left right : VectorRow) : Decidable (Eligible definition left right) :=
  inferInstanceAs (Decidable (_ ∧ _))

/-! ### What the operator returns -/

/-- Draining an input that has the expected columns keeps all rows, in their order. -/
lemma drain_spec {expected : List VectorColumn} {maximumRows : ℕ} : ∀ {chunks : List VectorChunk}
    {rows rows' : List VectorRow}, drain expected maximumRows rows chunks = .ok rows' →
    rows' = rows ++ chunks.flatMap (·.rows) ∧
      ∀ row ∈ chunks.flatMap (·.rows), CellsFit expected row := by
  intro chunks
  induction chunks with
  | nil =>
    intro rows rows' h
    obtain rfl : rows = rows' := Except.ok.inj h
    simp
  | cons chunk _ ih =>
    intro rows rows' h
    rw [drain] at h
    split_ifs at h with hlength hshape hlimit
    · cases h
    · cases h
    · cases h
    obtain ⟨rfl, hfits⟩ := ih h
    refine ⟨by rw [flatMap_cons, append_assoc], fun row hrow => ?_⟩
    rcases mem_append.1 (flatMap_cons ▸ hrow) with hrow | hrow
    · exact not_not.1 hshape ▸ chunk.fits row hrow
    · exact hfits row hrow

section Condition

variable {definition} {left right : VectorRow}

lemma keysMatch_eq (hleft : CellsFit definition.leftInputColumns left)
    (hright : CellsFit definition.rightInputColumns right) :
    ∀ {keys : List VectorAsofEqualityKey}, (∀ key ∈ keys, definition.keyMatches key = true) →
    (∀ key ∈ keys, Comparable definition.leftInputColumns key.leftColumnOrdinal) →
    keysMatch compareFloat isNan definition left right keys = .ok (decide (∀ key ∈ keys,
      left[key.leftColumnOrdinal]? = right[key.rightColumnOrdinal]? ∧
        left[key.leftColumnOrdinal]?.all (!·.isNull))) := by
  intro keys
  induction keys with
  | nil => exact fun _ _ => by simp [keysMatch]
  | cons key _ ih =>
    intro hmatches hcomparable
    have hkey := hmatches key (mem_cons_self ..)
    have hrest := ih (fun k hk => hmatches k (mem_cons_of_mem _ hk))
      fun k hk => hcomparable k (mem_cons_of_mem _ hk)
    obtain ⟨_, hcolumn, hfloat⟩ := hcomparable key (mem_cons_self ..)
    simp only [VectorAsofJoinDefinition.keyMatches, Bool.and_eq_true, decide_eq_true_eq] at hkey
    obtain ⟨⟨-, hlt⟩, htypes⟩ := hkey
    have hcolumn' := getElem?_eq_getElem hlt
    rw [columnType_eq hcolumn, columnType_eq hcolumn'] at htypes
    obtain ⟨leftCell, hl, hleftCell, hleftFits, -⟩ := hleft.cell hcolumn
    obtain ⟨rightCell, hr, hrightCell, hrightFits, -⟩ := hright.cell hcolumn'
    rw [← htypes] at hrightFits
    rw [keysMatch]
    simp only [hleftCell, hrightCell, bind, Except.bind, columnType_eq hcolumn, hfloat,
      Bool.false_and, Bool.false_eq_true, if_false, hrest, forall_mem_cons, hl, hr,
      Option.some.injEq, Option.all_some,
      comparePhysicalCells_eq compareFloat hfloat hleftFits hrightFits .last]
    -- a null cell, or a comparison that is that of the values
    by_cases hnull : (leftCell.isNull || rightCell.isNull) = true
    · rw [if_pos hnull]
      have hfalse : ¬ (leftCell = rightCell ∧ (!leftCell.isNull) = true) := by
        rintro ⟨rfl, hvalue⟩
        simp at hnull hvalue
        simp [hnull] at hvalue
      simp only [hfalse, false_and, decide_false, pure, Except.pure]
    · rw [if_neg hnull]
      simp only [Bool.or_eq_true, not_or, Bool.not_eq_true] at hnull
      by_cases heq : leftCell = rightCell
      · subst heq
        simp [hnull.1]
      · have hne : compare (valueKey .last leftCell) (valueKey .last rightCell) ≠ .eq := fun h =>
          heq (valueKey_injective hfloat hleftFits hrightFits (Std.compare_eq_iff_eq.1 h))
        simp only [hne, heq, ne_eq, not_false_eq_true, if_true, false_and, decide_false, pure,
          Except.pure]

/-- A cell of a timestamp column is null or holds a time. -/
lemma exists_timestamp {columns : List VectorColumn} {row : VectorRow} {ordinal : ℕ}
    (hrow : CellsFit columns row) (h : isTimestampColumn columns ordinal = true) :
    ∃ cell, rowCell row ordinal = .ok cell ∧ cell.Fits (columnType columns ordinal) ∧
      (cell.isNull = true ∧ timestampOf row ordinal = none ∨
        ∃ time, cell.storage = .signed time ∧ timestampOf row ordinal = some time) := by
  simp only [isTimestampColumn, Bool.and_eq_true, decide_eq_true_eq] at h
  obtain ⟨hlt, hkind⟩ := h
  have hcolumn := getElem?_eq_getElem hlt
  obtain ⟨cell, hcell, hrowCell, hfits, -⟩ := hrow.cell hcolumn
  rw [columnType_eq hcolumn] at hkind ⊢
  refine ⟨cell, hrowCell, hfits, ?_⟩
  rw [timestampOf, hcell, Option.bind_some]
  rcases hfits.2 with hnull | hstorage
  · refine .inl ⟨hnull, ?_⟩
    rw [of_decide_eq_true hnull]
  · rw [hkind] at hstorage
    cases hs : cell.storage <;> simp [hs, storageFits, unsignedKind] at hstorage ⊢

lemma eligibleTime_eq (hleft : CellsFit definition.leftInputColumns left)
    (hright : CellsFit definition.rightInputColumns right)
    (hleftTime : isTimestampColumn definition.leftInputColumns
      definition.leftTimestampColumnOrdinal = true)
    (hrightTime : isTimestampColumn definition.rightInputColumns
      definition.rightTimestampColumnOrdinal = true) :
    eligibleTime compareFloat definition left right = .ok (decide (
      ∃ rightTime ∈ timestampOf right definition.rightTimestampColumnOrdinal,
        ∃ leftTime ∈ timestampOf left definition.leftTimestampColumnOrdinal,
          rightTime ≤ leftTime)) := by
  obtain ⟨_, hl, _, hleftCases⟩ := exists_timestamp hleft hleftTime
  obtain ⟨_, hr, _, hrightCases⟩ := exists_timestamp hright hrightTime
  simp only [eligibleTime, hl, hr, bind, Except.bind]
  obtain ⟨hnull, hnone⟩ | ⟨_, hleftStorage, hleftSome⟩ := hleftCases
  · simp [hnull, hnone, pure, Except.pure]
  obtain ⟨hnull, hnone⟩ | ⟨_, hrightStorage, hrightSome⟩ := hrightCases
  · simp [hnull, hnone, pure, Except.pure]
  have hkind : (columnType definition.rightInputColumns
      definition.rightTimestampColumnOrdinal).kind = .timestampNs := by
    simp only [isTimestampColumn, Bool.and_eq_true, decide_eq_true_eq] at hrightTime
    exact hrightTime.2
  simp only [comparePhysicalCells, Bool.or_self, Bool.false_eq_true, if_false,
    LogicalType.isVariableWidth, hkind, reduceCtorEq, decide_false, compareScalarValues,
    hrightStorage, hleftStorage, ScalarValue.isNull, compareStorage, signedKind, hleftSome,
    hrightSome, compatibleTypes, decide_true, Bool.true_or, if_true, Option.mem_some,
    exists_eq_left', pure, Except.pure]
  simp [Int.compare_eq_gt]

end Condition

/-! ### Winners of both scans -/

/-- A definition for right rows of a schema: keys without floating-point numbers, and the
rank by a timestamp and the physical ordering key of the schema. -/
structure AsofPlannedFor (schema : TableSchema) (definition : VectorAsofJoinDefinition) :
    Prop where
  right : definition.rightInputColumns = vectorColumns schema
  keys : ∀ key ∈ definition.equalityKeys,
    Comparable definition.leftInputColumns key.leftColumnOrdinal
  ranks : RanksBy schema definition.rightTimestampColumnOrdinal
    definition.rightPhysicalOrderingKeyOrdinals
  versions : definition.rightRowVersionFirstColumnOrdinal = schema.columns.length

/-- The right rows that a left row may be joined with. -/
def eligibleRows (left : VectorRow) (rights : List VectorRow) : List VectorRow :=
  rights.filter fun right => Eligible definition left right

section Winners

variable {definition} {schema : TableSchema} {limits : AsofJoinLimits}

lemma AsofPlannedFor.rank_eq (hplan : AsofPlannedFor schema definition) :
    definition.rank = rankColumns .last definition.rightTimestampColumnOrdinal
      definition.rightPhysicalOrderingKeyOrdinals schema.columns.length := by
  rw [VectorAsofJoinDefinition.rank, hplan.versions]

lemma compareRightWinners_eq (hplan : AsofPlannedFor schema definition)
    {candidate current : VectorRow} (hcandidate : CellsFit definition.rightInputColumns candidate)
    (hcurrent : CellsFit definition.rightInputColumns current) :
    compareRightWinners compareFloat definition candidate current =
      .ok (compare (rankKey definition.rank candidate) (rankKey definition.rank current)) := by
  refine firstDifference_eq fun column hcolumn => ?_
  rw [hplan.rank_eq] at hcolumn
  obtain ⟨_, hshape, hfloat⟩ := comparable_rankColumns hplan.ranks .last hcolumn
  rw [← hplan.right] at hshape
  rw [columnType_eq hshape]
  exact compareOrdinal_eq compareFloat hcandidate hcurrent hshape hfloat column.2

variable {left : VectorRow}

/-- The scan of the operator finds the best of the eligible rows. -/
lemma findWinner_eq (hplan : AsofPlannedFor schema definition)
    (hvalid : validateAsofJoin definition limits = .ok ())
    (hleft : CellsFit definition.leftInputColumns left) : ∀ {rights : List VectorRow}
    {winner : Option VectorRow}, (∀ right ∈ rights, CellsFit definition.rightInputColumns right) →
    (∀ right ∈ winner, CellsFit definition.rightInputColumns right) →
    findWinner compareFloat isNan definition left winner rights =
      .ok (best (rankKey definition.rank) winner (eligibleRows definition left rights)) := by
  simp only [validateAsofJoin, Result.bind_eq_ok, require_eq_ok] at hvalid
  obtain ⟨-, -, -, -, -, -, -, -, -, -, -, ⟨hleftTime, hrightTime⟩, -, hmatches, -⟩ := hvalid
  intro rights
  induction rights with
  | nil => exact fun _ _ => rfl
  | cons right _ ih =>
    intro winner hrights hwinner
    have hright := hrights right (mem_cons_self ..)
    have hrest := fun r hr => hrights r (mem_cons_of_mem _ hr)
    have hkeys := keysMatch_eq compareFloat isNan hleft hright hmatches hplan.keys
    have htime := eligibleTime_eq compareFloat hleft hright hleftTime hrightTime
    rw [findWinner.eq_def, eligibleRows, filter_cons]
    simp only [hkeys, bind, Except.bind, htime]
    by_cases heligible : Eligible definition left right
    · obtain ⟨hkey, htimes⟩ := id heligible
      simp only [decide_eq_true hkey, decide_eq_true htimes, decide_eq_true heligible,
        Bool.not_true, Bool.false_eq_true, if_false, if_true]
      cases winner with
      | none => exact ih hrest fun _ h => Option.mem_some_iff.1 h ▸ hright
      | some current =>
        simp only [compareRightWinners_eq compareFloat hplan hright (hwinner current rfl), best]
        split_ifs
        · exact ih hrest fun _ h => Option.mem_some_iff.1 h ▸ hright
        · exact ih hrest hwinner
    · -- the row fails one of the two tests
      by_cases hkey : ∀ key ∈ definition.equalityKeys,
          left[key.leftColumnOrdinal]? = right[key.rightColumnOrdinal]? ∧
            left[key.leftColumnOrdinal]?.all (!·.isNull)
      · have htimes := fun h => heligible ⟨hkey, h⟩
        simp only [decide_eq_true hkey, decide_eq_false htimes, decide_eq_false heligible,
          Bool.not_true, Bool.not_false, Bool.false_eq_true, if_false, if_true]
        exact ih hrest hwinner
      · simp only [decide_eq_false hkey, decide_eq_false heligible, Bool.not_false,
          Bool.false_eq_true, if_true, if_false]
        exact ih hrest hwinner

lemma joinRows_eq (hplan : AsofPlannedFor schema definition)
    (hvalid : validateAsofJoin definition limits = .ok ()) {rights : List VectorRow}
    (hrights : ∀ right ∈ rights, CellsFit definition.rightInputColumns right) :
    ∀ {lefts : List VectorRow}, (∀ left ∈ lefts, CellsFit definition.leftInputColumns left) →
    joinRows compareFloat isNan definition rights lefts = .ok (lefts.flatMap fun left =>
      joinedRows definition.leftOuter left
        (best (rankKey definition.rank) none (eligibleRows definition left rights))) := by
  intro lefts
  induction lefts with
  | nil => exact fun _ => rfl
  | cons left _ ih =>
    intro hlefts
    have hwinner := findWinner_eq compareFloat isNan hplan hvalid
      (hlefts left (mem_cons_self ..)) hrights fun _ h => (Option.not_mem_none _ h).elim
    rw [joinRows, hwinner, ih fun l hl => hlefts l (mem_cons_of_mem _ hl)]
    rfl

variable {timestamp : ℕ} {physical : List ℕ} {condition : VectorRow → ScalarInputRow → Bool}
  (operation : ScalarInputRow → ℕ)

/-- The scan of the executor finds the best of the rows that meet the condition. -/
lemma findCandidate_eq (hranks : RanksBy schema timestamp physical) :
    ∀ {candidates : List ScalarInputRow} {winner : Option ScalarInputRow},
    (∀ row ∈ candidates, row.Fits schema) → (∀ row ∈ winner, row.Fits schema) →
    findCandidate compareFloat schema timestamp condition left winner candidates =
      .ok (best (rowRank .last schema timestamp physical operation) winner
        (candidates.filter (condition left))) := by
  intro candidates
  induction candidates with
  | nil => exact fun _ _ => rfl
  | cons candidate _ ih =>
    intro winner hfits hwinner
    have hcandidate := hfits candidate (mem_cons_self ..)
    have hrest := fun r hr => hfits r (mem_cons_of_mem _ hr)
    rw [findCandidate.eq_def, filter_cons]
    simp only
    by_cases hcondition : condition left candidate = true
    · simp only [hcondition, Bool.not_true, Bool.false_eq_true, if_false, if_true]
      cases winner with
      | none => exact ih hrest fun _ h => Option.mem_some_iff.1 h ▸ hcandidate
      | some current =>
        have hlater : laterRow compareFloat schema timestamp candidate current = .ok (decide (
            compare (rowRank .last schema timestamp physical operation candidate)
              (rowRank .last schema timestamp physical operation current) = .gt)) :=
          laterRow_eq compareFloat .last operation hranks hcandidate (hwinner current rfl)
        simp only [hlater, bind, Except.bind, decide_eq_true_eq, best]
        split_ifs
        · exact ih hrest fun _ h => Option.mem_some_iff.1 h ▸ hcandidate
        · exact ih hrest hwinner
    · simp only [hcondition, Bool.not_false, Bool.false_eq_true, if_true, if_false]
      exact ih hrest hwinner

lemma joinCandidates_eq (hranks : RanksBy schema timestamp physical) {leftOuter : Bool}
    {candidates : List ScalarInputRow} (hfits : ∀ row ∈ candidates, row.Fits schema) :
    ∀ lefts : List VectorRow,
    joinCandidates compareFloat schema timestamp condition leftOuter candidates lefts =
      .ok (lefts.flatMap fun left => joinedRows leftOuter left
        (best (rowRank .last schema timestamp physical operation) none
          (candidates.filter (condition left)))) := by
  intro lefts
  induction lefts with
  | nil => rfl
  | cons _ _ ih =>
    rw [joinCandidates, ih, findCandidate_eq compareFloat operation hranks hfits
      fun _ h => (Option.not_mem_none _ h).elim]
    rfl

lemma joinedRows_map {ρ σ : Type} (f : ρ → σ) (leftOuter : Bool) (left : VectorRow)
    (winner : Option ρ) :
    (joinedRows leftOuter left winner).map (fun row => (row.1, row.2.map f)) =
      joinedRows leftOuter left (winner.map f) := by
  cases winner <;> cases leftOuter <;> rfl

/-- The eligible rows are those that meet a condition which says so. -/
lemma eligibleRows_map {operation : ScalarInputRow → ℕ} {rights : List ScalarInputRow}
    (h : ∀ right ∈ rights,
      condition left right = decide (Eligible definition left (vectorRow operation right))) :
    eligibleRows definition left (rights.map (vectorRow operation)) =
      (rights.filter (condition left)).map (vectorRow operation) := by
  rw [eligibleRows, filter_map]
  congr 1
  exact filter_congr fun right hright => (h right hright).symm

/-- **`ASOF` joins and the executor.**  For right rows with different versions, in any order,
and inputs cut into chunks in any way, the operator joins each left row in turn with its best
eligible right row; a left row without one is kept with nulls by an outer join only.  The
executor selects the same rows for a condition that holds of the eligible rows. -/
theorem asof_join_refines_executor {rights : List ScalarInputRow}
    {leftChunks rightChunks : List VectorChunk} {output : List VectorRow}
    (hplan : AsofPlannedFor schema definition) (hfits : ∀ row ∈ rights, row.Fits schema)
    (hversions : (rights.map ScalarInputRow.version).Nodup)
    (hchunks : (rightChunks.flatMap (·.rows)).Perm (rights.map (vectorRow operation)))
    (h : asofJoin compareFloat isNan definition limits leftChunks rightChunks = .ok output) :
    ∃ winner : VectorRow → Option VectorRow,
      (∀ left right, winner left = some right ↔ IsWinner (fun _ => ()) (rankKey definition.rank)
        (eligibleRows definition left (rights.map (vectorRow operation))) right) ∧
      output = ((leftChunks.flatMap (·.rows)).flatMap fun left =>
        joinedRows definition.leftOuter left (winner left)).map (outputRow definition) ∧
      ∀ (condition : VectorRow → ScalarInputRow → Bool) (maximumIntermediateRows : ℕ),
        (∀ left ∈ leftChunks.flatMap (·.rows), ∀ right ∈ rights,
          condition left right = decide (Eligible definition left (vectorRow operation right))) →
        output.length ≤ maximumIntermediateRows → ∃ joined,
          applyAsofJoin compareFloat schema definition.rightTimestampColumnOrdinal condition
            definition.leftOuter maximumIntermediateRows rights (leftChunks.flatMap (·.rows)) =
              .ok joined ∧
          joined.map (fun row => (row.1, row.2.map (vectorRow operation))) =
            (leftChunks.flatMap (·.rows)).flatMap fun left =>
              joinedRows definition.leftOuter left (winner left) := by
  have hinj := rankKey_injOn definition.rightTimestampColumnOrdinal
    definition.rightPhysicalOrderingKeyOrdinals hfits hversions .last operation
  rw [← hplan.rank_eq] at hinj
  have hinjEligible : ∀ left, ∀ a ∈ eligibleRows definition left (rights.map (vectorRow operation)),
      ∀ b ∈ eligibleRows definition left (rights.map (vectorRow operation)),
      rankKey definition.rank a = rankKey definition.rank b → a = b := fun left a ha b hb =>
    hinj a (mem_of_mem_filter ha) b (mem_of_mem_filter hb)
  simp only [asofJoin, Result.bind_eq_ok, require_eq_ok] at h
  obtain ⟨_, hvalid, _, hright, _, hleft, _, hjoined, -, -, h⟩ := h
  obtain ⟨rfl, hrightFits⟩ := drain_spec hright
  obtain ⟨rfl, hleftFits⟩ := drain_spec hleft
  rw [nil_append] at hjoined
  rw [nil_append, joinRows_eq compareFloat isNan hplan hvalid hrightFits hleftFits] at hjoined
  obtain rfl := Except.ok.inj hjoined
  obtain rfl := Except.ok.inj h
  -- the order of the right rows does not matter
  have hbest : ∀ left, best (rankKey definition.rank) none
      (eligibleRows definition left (rightChunks.flatMap (·.rows))) =
      best (rankKey definition.rank) none
        (eligibleRows definition left (rights.map (vectorRow operation))) := fun left =>
    (best_perm (hchunks.symm.filter _) (hinjEligible left)).symm
  simp only [hbest]
  refine ⟨fun left => best (rankKey definition.rank) none
    (eligibleRows definition left (rights.map (vectorRow operation))), fun left right => ?_, rfl,
    fun condition maximumIntermediateRows hcondition hlength => ?_⟩
  · have hselects : Selects (fun _ => ()) (rankKey definition.rank)
        ([] ++ eligibleRows definition left (rights.map (vectorRow operation)))
        (best (rankKey definition.rank) none
          (eligibleRows definition left (rights.map (vectorRow operation)))).toList :=
      selects_best Selects.nil
    rw [nil_append] at hselects
    rw [← hselects.mem_iff fun a ha b hb _ => hinjEligible left a ha b hb, Option.mem_toList]
  · set lefts := leftChunks.flatMap (·.rows)
    have hsame : (lefts.flatMap fun left => joinedRows definition.leftOuter left
          (best (rowRank .last schema definition.rightTimestampColumnOrdinal
            definition.rightPhysicalOrderingKeyOrdinals operation) none
            (rights.filter (condition left)))).map
          (fun row => (row.1, row.2.map (vectorRow operation))) =
        lefts.flatMap fun left => joinedRows definition.leftOuter left
          (best (rankKey definition.rank) none
            (eligibleRows definition left (rights.map (vectorRow operation)))) := by
      rw [map_flatMap]
      refine flatMap_congr fun left hleft => ?_
      rw [joinedRows_map, eligibleRows_map (hcondition left hleft), hplan.rank_eq]
      congr 1
      exact (best_map (vectorRow operation) _ none).symm
    refine ⟨_, ?_, hsame⟩
    rw [length_map, ← hsame, length_map] at hlength
    simp only [applyAsofJoin, joinCandidates_eq compareFloat operation hplan.ranks hfits, bind,
      Except.bind, require, if_pos hlength, pure, Except.pure]

end Winners

end Operator

/-! ### Readings joined with readings -/

/-- Each reading of the left side with the last one of its sensor on the right side. -/
def lastReading : VectorAsofJoinDefinition :=
  ⟨userColumns readingsSchema, vectorColumns readingsSchema, [⟨1, 1⟩], 0, 0, [0], 2, [0, 1], [0],
    true⟩

/-- A reading of sensor 7, and one without a sensor. -/
def leftReadings : List VectorChunk :=
  [⟨userColumns readingsSchema, [(reading 6 (.unsigned 7) 8).columns, (reading 30 .null 9).columns],
    by
      simp only [List.forall_mem_cons, List.not_mem_nil, IsEmpty.forall_iff, implies_true, and_true]
      exact ⟨.cons (by decide) (.cons (by decide) .nil),
        .cons (by decide) (.cons (by decide) .nil)⟩⟩]

lemma lastReading_planned : AsofPlannedFor readingsSchema lastReading where
  right := rfl
  keys := by
    simp only [lastReading, forall_mem_cons, not_mem_nil, IsEmpty.forall_iff,
      implies_true, and_true]
    exact ⟨_, rfl, rfl⟩
  ranks := latestReading_planned.ranks
  versions := rfl

/-- The reading without a sensor has no partner and is kept with a null. -/
def joinedReadings : List VectorRow :=
  [(reading 6 (.unsigned 7) 8).columns ++
      [⟨some ⟨.timestampNs, 0, 0⟩, .signed 5⟩, ⟨some ⟨.bool, 0, 0⟩, .boolean true⟩],
    (reading 30 .null 9).columns ++
      [⟨some ⟨.timestampNs, 0, 0⟩, .null⟩, ⟨some ⟨.bool, 0, 0⟩, .boolean false⟩]]

/-- The operator joins the readings so, and the executor the same rows. -/
theorem asof_join_refines_executor_readings :
    asofJoin (fun _ _ => .eq) (fun _ => false) lastReading ⟨4, 4, 4, 4, 4, 4⟩ leftReadings
        readingsChunks = .ok joinedReadings ∧
      ∃ joined, applyAsofJoin (fun _ _ => .eq) readingsSchema 0
          (fun left right => Eligible lastReading left (vectorRow (fun _ => 1) right)) true 2
          readings (leftReadings.flatMap (·.rows)) = .ok joined ∧
        (joined.map fun row => (row.1, row.2.map (vectorRow fun _ => 1))).map
          (outputRow lastReading) = joinedReadings := by
  have houtput : asofJoin (fun _ _ => .eq) (fun _ => false) lastReading ⟨4, 4, 4, 4, 4, 4⟩
      leftReadings readingsChunks = .ok joinedReadings := by
    decide +kernel
  obtain ⟨_, -, hrows, hexecutor⟩ := asof_join_refines_executor _ _ (fun _ => 1)
    lastReading_planned readings_fit (by decide) (by decide +kernel) houtput
  obtain ⟨joined, hjoined, hsame⟩ := hexecutor _ 2 (fun _ _ _ _ => rfl) (by decide)
  exact ⟨houtput, joined, hjoined, hsame ▸ hrows.symm⟩

end Chronos.Query
