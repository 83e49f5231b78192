import Chronos.Query.RowRank

/-!
`LATEST BY`: the operator of `src/query/latest.cpp` over the sort of `src/query/sort.cpp`,
and `latest_rows` of the scalar executor.

* `sortOperator`: buffers all chunks and sorts their rows.
* `latestBy`: sorts by group, and by falling rank inside a group, and keeps the first row of
  every group.
* `latestRows`: the scan of the executor, with one winner per group.
* `latestBy_selects`, `latestRows_selects`: both choose one row of every group that no row of
  the group outranks.

The byte accounting of the operators is left out: it adds errors and nothing else.
-/

namespace Chronos.Query

open Schema List Except
open Columnar (exhausted)
open Chronos.Sort (sort Compares Ordered sort_spec GroupedKey Selects IsWinner compact
  selects_compact compare_groupedKey)

/-! ### The sort operator -/

/-- `VectorSortKey`. -/
structure VectorSortKey where
  columnOrdinal : ℕ
  descending : Bool
  nullPlacement : ScalarNullPlacement

/-- `SortLimits`, with the row and column limits of its output. -/
structure SortLimits where
  maximumRows : ℕ
  maximumKeys : ℕ
  outputMaximumRows : ℕ
  outputMaximumColumns : ℕ

/-- The rows buffered by the sort, and the columns of the first chunk retained. -/
structure SortState where
  shape : Option (List VectorColumn)
  rows : List VectorRow

/-- `validate_chunk_shape` of `sort.cpp`. -/
def validateChunkShape (keys : List VectorSortKey) (shape : Option (List VectorColumn))
    (chunk : VectorChunk) : Result Unit :=
  if ∃ key ∈ keys, key.columnOrdinal ≥ chunk.columns.length then
    .error ⟨.outOfRange, "sort key ordinal is outside the input chunk"⟩
  else
    match shape with
    | none => .ok ()
    | some expected =>
      if chunk.columns.length ≠ expected.length then
        invalid "sort input column count changed across chunks"
      else if chunk.columns ≠ expected then invalid "sort input shape changed across chunks"
      else .ok ()

/-- The loop of `SortOperator::next` that buffers the input. -/
def bufferChunks (keys : List VectorSortKey) (limits : SortLimits) :
    SortState → List VectorChunk → Result SortState
  | state, [] => .ok state
  | state, chunk :: chunks => do
    validateChunkShape keys state.shape chunk
    if chunk.rows.isEmpty then bufferChunks keys limits state chunks
    else if chunk.rows.length > limits.maximumRows - state.rows.length then
      exhausted "sort input exceeds its row limit"
    else
      bufferChunks keys limits
        ⟨some (state.shape.getD chunk.columns), state.rows ++ chunk.rows⟩ chunks

/-- `VectorLatestByDefinition`. -/
structure VectorLatestByDefinition where
  keyColumnOrdinals : List ℕ
  timestampColumnOrdinal : ℕ
  physicalOrderingKeyOrdinals : List ℕ
  rowVersionFirstColumnOrdinal : ℕ

/-- `LatestByLimits`. -/
structure LatestByLimits where
  maximumGroupKeys : ℕ
  maximumPhysicalOrderingKeys : ℕ
  sortLimits : SortLimits

/-- `validate_definition` of `latest.cpp`. -/
def validateLatestBy (definition : VectorLatestByDefinition) (limits : LatestByLimits) :
    Result Unit :=
  if limits.maximumGroupKeys = 0 ∨ limits.maximumPhysicalOrderingKeys = 0 then
    invalid "LATEST BY limits must be nonzero"
  else if definition.keyColumnOrdinals = [] then invalid "LATEST BY requires a grouping key"
  else if definition.physicalOrderingKeyOrdinals = [] then
    invalid "LATEST BY requires a physical ordering key"
  else if definition.keyColumnOrdinals.length > limits.maximumGroupKeys ∨
      definition.physicalOrderingKeyOrdinals.length > limits.maximumPhysicalOrderingKeys then
    exhausted "LATEST BY key configuration exceeds its limit"
  else if definition.rowVersionFirstColumnOrdinal + 4 ≥ 2 ^ 64 then
    exhausted "vector row-version column count overflowed"
  else if definition.keyColumnOrdinals.length + definition.physicalOrderingKeyOrdinals.length + 4 >
      limits.sortLimits.maximumKeys then
    exhausted "LATEST BY sort key count exceeds sort limit"
  else .ok ()

/-- The sort keys of `LatestByOperator::create`. -/
def latestByKeys (definition : VectorLatestByDefinition) : List VectorSortKey :=
  definition.keyColumnOrdinals.map (⟨·, false, .last⟩) ++
    ⟨definition.timestampColumnOrdinal, true, .last⟩ ::
    (definition.physicalOrderingKeyOrdinals.map (⟨·, true, .first⟩) ++
      [⟨definition.rowVersionFirstColumnOrdinal, true, .last⟩,
        ⟨definition.rowVersionFirstColumnOrdinal + 1, true, .last⟩,
        ⟨definition.rowVersionFirstColumnOrdinal + 2, true, .last⟩])

section Operator

variable (compareFloat : ScalarStorage → ScalarStorage → Ordering)

/-- One round of `compare_rows`; a comparison with a null is not reversed. -/
def compareSortKey (columns : List VectorColumn) (left right : VectorRow) (key : VectorSortKey) :
    Result Ordering := do
  let leftCell ← rowCell left key.columnOrdinal
  let rightCell ← rowCell right key.columnOrdinal
  match columns[key.columnOrdinal]? with
  | none => .error ⟨.internal, "sort key column disappeared"⟩
  | some column =>
    let comparison ←
      comparePhysicalCells compareFloat column.type leftCell rightCell key.nullPlacement
    return if !(leftCell.isNull || rightCell.isNull) && key.descending then comparison.swap
      else comparison

/-- `compare_rows`. -/
def compareRows (columns : List VectorColumn) (keys : List VectorSortKey)
    (left right : VectorRow) : Result Ordering :=
  firstDifference (compareSortKey compareFloat columns left right) keys

/-- `SortOperator::create` and the one call of `next` that returns a chunk: its columns and
its rows, or nothing where the input has no rows.  `stable_merge_sort` is the bottom-up
merge sort. -/
def sortOperator (keys : List VectorSortKey) (limits : SortLimits) (chunks : List VectorChunk) :
    Result (Option (List VectorColumn × List VectorRow)) :=
  if limits.maximumRows = 0 ∨ limits.maximumKeys = 0 ∨ limits.outputMaximumRows = 0 ∨
      limits.outputMaximumColumns = 0 then
    invalid "sort limits must be nonzero"
  else if keys = [] then invalid "sort requires at least one key"
  else if keys.length > limits.maximumKeys then
    exhausted "sort key configuration exceeds its limit"
  else do
    let state ← bufferChunks keys limits ⟨none, []⟩ chunks
    match state.shape with
    | none => return none
    | some columns =>
      let rows ← sort (compareRows compareFloat columns keys) state.rows
      if rows.length > limits.outputMaximumRows ∨ columns.length > limits.outputMaximumColumns then
        exhausted "sort output exceeds its row or column limit"
      else return some (columns, rows)

/-! ### The operator -/

/-- `same_group`. -/
def sameGroup (columns : List VectorColumn) (keys : List ℕ) (left right : VectorRow) :
    Result Bool := do
  let comparison ← firstDifference (fun key =>
    match columns[key]? with
    | none => invalid "LATEST BY key column is absent"
    | some column => compareOrdinal compareFloat column.type left right key .last) keys
  return comparison = .eq

/-- The loop of `compact_groups`, after the row `kept` was written. -/
def compactGroups (columns : List VectorColumn) (keys : List ℕ) (kept : VectorRow) :
    List VectorRow → Result (List VectorRow)
  | [] => .ok [kept]
  | row :: rows => do
    if ← sameGroup compareFloat columns keys kept row then compactGroups columns keys kept rows
    else return kept :: (← compactGroups columns keys row rows)

/-- `LatestByOperator::create` and `next`: the rows returned. -/
def latestBy (definition : VectorLatestByDefinition) (limits : LatestByLimits)
    (chunks : List VectorChunk) : Result (List VectorRow) := do
  validateLatestBy definition limits
  match ← sortOperator compareFloat (latestByKeys definition) limits.sortLimits chunks with
  | none => return []
  | some (columns, rows) =>
    match columns[definition.timestampColumnOrdinal]? with
    | none => invalid "LATEST BY timestamp column is absent"
    | some timestamp =>
      if timestamp.type.kind ≠ .timestampNs then
        invalid "LATEST BY timestamp must have TIMESTAMP_NS type"
      else if (columns.drop definition.rowVersionFirstColumnOrdinal).take 4 ≠
          rowVersionTypes.map (⟨·, false⟩) then
        invalid "LATEST BY row-version suffix is invalid"
      else
        match rows with
        | [] => return []
        | kept :: rows => compactGroups compareFloat columns definition.keyColumnOrdinals kept rows

/-! ### The scalar executor -/

/-- `keys_equal` of the keys of two rows; the keys are columns. -/
def keysEqual (keys : List ℕ) (left right : ScalarInputRow) : Result Bool := do
  let comparison ← firstDifference (fun key => compareColumn compareFloat left right key .last) keys
  return comparison = .eq

/-- The search of `latest_rows` for the winner of the group of a row, which the row replaces
if it is later; nothing where the group has no winner. -/
def placeRow (schema : TableSchema) (keys : List ℕ) (timestamp : ℕ) (row : ScalarInputRow) :
    List ScalarInputRow → Result (Option (List ScalarInputRow))
  | [] => .ok none
  | winner :: winners => do
    if ← keysEqual compareFloat keys winner row then
      if ← laterRow compareFloat schema timestamp row winner then return some (row :: winners)
      else return some (winner :: winners)
    else return (← placeRow schema keys timestamp row winners).map (winner :: ·)

/-- `latest_rows`, after some rows. -/
def latestRows (schema : TableSchema) (keys : List ℕ) (timestamp maximumGroups : ℕ) :
    List ScalarInputRow → List ScalarInputRow → Result (List ScalarInputRow)
  | winners, [] => .ok winners
  | winners, row :: rows => do
    match ← placeRow compareFloat schema keys timestamp row winners with
    | some winners => latestRows schema keys timestamp maximumGroups winners rows
    | none =>
      if winners.length ≥ maximumGroups then exhausted "LATEST BY group count exceeds the limit"
      else latestRows schema keys timestamp maximumGroups (winners ++ [row]) rows

/-! ### What the operator returns -/

/-- The keys of the columns that group a row. -/
def groupKey (keys : List ℕ) (row : VectorRow) : List (List ℤ) := keys.map (cellKey .last row)

/-- The columns that rank a row of the operator. -/
def VectorLatestByDefinition.rank (definition : VectorLatestByDefinition) :
    List (ℕ × ScalarNullPlacement) :=
  rankColumns .first definition.timestampColumnOrdinal definition.physicalOrderingKeyOrdinals
    definition.rowVersionFirstColumnOrdinal

/-- The other placement. -/
def ScalarNullPlacement.flip : ScalarNullPlacement → ScalarNullPlacement
  | .first => .last
  | .last => .first

lemma latestByKeys_eq (definition : VectorLatestByDefinition) :
    latestByKeys definition = definition.keyColumnOrdinals.map (⟨·, false, .last⟩) ++
      definition.rank.map fun column => ⟨column.1, true, column.2.flip⟩ := by
  simp [latestByKeys, VectorLatestByDefinition.rank, rankColumns, ScalarNullPlacement.flip,
    Function.comp_def]

variable {keys : List VectorSortKey} {limits : SortLimits} {columns : List VectorColumn}
  {chunks : List VectorChunk}

/-- Buffering keeps all rows, in their order. -/
lemma bufferChunks_spec {state state' : SortState}
    (hshape : ∀ chunk ∈ chunks, chunk.columns = columns)
    (hstate : state.shape = some columns ∨ state.shape = none ∧ state.rows = [])
    (h : bufferChunks keys limits state chunks = .ok state') :
    state'.rows = state.rows ++ chunks.flatMap (·.rows) ∧
      (state'.shape = some columns ∨ state'.shape = none ∧ state'.rows = []) := by
  induction chunks generalizing state with
  | nil =>
    obtain rfl : state = state' := ok.inj h
    exact ⟨by simp, hstate⟩
  | cons chunk chunks ih =>
    simp only [bufferChunks, Result.bind_eq_ok] at h
    obtain ⟨-, -, h⟩ := h
    have hrest := fun c hc => hshape c (mem_cons_of_mem _ hc)
    by_cases hempty : chunk.rows.isEmpty = true
    · rw [if_pos hempty] at h
      rw [flatMap_cons, isEmpty_iff.1 hempty, nil_append]
      exact ih hrest hstate h
    · rw [if_neg hempty] at h
      split_ifs at h
      · cases h
      have hchunk : state.shape.getD chunk.columns = columns := by
        rcases hstate with hsome | ⟨hnone, -⟩
        · rw [hsome]; rfl
        · rw [hnone]; exact hshape chunk (mem_cons_self ..)
      obtain ⟨hrows, hfinal⟩ := ih hrest (.inl (by rw [hchunk])) h
      refine ⟨?_, hfinal⟩
      rw [hrows, flatMap_cons, append_assoc]

/-- Reversing only comparisons without nulls moves the nulls to the other end. -/
lemma swap_compare_valueKey (left right : ScalarValue) (nulls : ScalarNullPlacement) :
    (if !(left.isNull || right.isNull) then
        (compare (valueKey nulls.flip left) (valueKey nulls.flip right)).swap
      else compare (valueKey nulls.flip left) (valueKey nulls.flip right)) =
      compare (valueKey nulls right) (valueKey nulls left) := by
  cases hleft : left.isNull <;> cases hright : right.isNull
  · simp only [valueKey, hleft, hright, Bool.or_self, Bool.not_false, if_true,
      Bool.false_eq_true, if_false]
    exact Std.OrientedCmp.eq_swap.symm
  all_goals
    simp only [valueKey, hleft, hright]
    cases nulls <;> rfl

section Compare

variable {columns : List VectorColumn} {left right : VectorRow} (hleft : CellsFit columns left)
  (hright : CellsFit columns right)

include hleft hright

variable {ordinal : ℕ}

lemma compareSortKey_eq (hordinal : Comparable columns ordinal) (nulls : ScalarNullPlacement) :
    compareSortKey compareFloat columns left right ⟨ordinal, false, nulls⟩ =
        .ok (compare (cellKey nulls left ordinal) (cellKey nulls right ordinal)) ∧
      compareSortKey compareFloat columns left right ⟨ordinal, true, nulls.flip⟩ =
        .ok (compare (cellKey nulls right ordinal) (cellKey nulls left ordinal)) := by
  obtain ⟨_, hcolumn, hfloat⟩ := hordinal
  obtain ⟨leftCell, hl, hleftCell, hleftFits, -⟩ := hleft.cell hcolumn
  obtain ⟨rightCell, hr, hrightCell, hrightFits, -⟩ := hright.cell hcolumn
  have hswap := swap_compare_valueKey leftCell rightCell nulls
  simp only [compareSortKey, hleftCell, hrightCell, hcolumn, cellKey, hl, hr, bind, Except.bind,
    pure, Except.pure, comparePhysicalCells_eq compareFloat hfloat hleftFits hrightFits,
    Option.map_some, Option.getD_some, Bool.and_true, Bool.and_false, Bool.false_eq_true, if_false,
    hswap, and_self]

/-- The sort compares groups, and then ranks the other way round. -/
lemma compareRows_eq {definition : VectorLatestByDefinition}
    (hkeys : ∀ ordinal ∈ definition.keyColumnOrdinals, Comparable columns ordinal)
    (hrank : ∀ column ∈ definition.rank, Comparable columns column.1) :
    compareRows compareFloat columns (latestByKeys definition) left right =
      .ok (compare
        (GroupedKey.mk (groupKey definition.keyColumnOrdinals left) (rankKey definition.rank left))
        (GroupedKey.mk (groupKey definition.keyColumnOrdinals right)
          (rankKey definition.rank right))) := by
  rw [compareRows, latestByKeys_eq, compare_groupedKey]
  refine firstDifference_append ?_ ?_
  · rw [firstDifference_map]
    exact firstDifference_eq fun ordinal hordinal =>
      (compareSortKey_eq compareFloat hleft hright (hkeys ordinal hordinal) .last).1
  · rw [firstDifference_map]
    exact firstDifference_eq fun column hcolumn =>
      (compareSortKey_eq compareFloat hleft hright (hrank column hcolumn) column.2).2

lemma sameGroup_eq {keys : List ℕ} (hkeys : ∀ ordinal ∈ keys, Comparable columns ordinal) :
    sameGroup compareFloat columns keys left right =
      .ok (decide (groupKey keys left = groupKey keys right)) := by
  have hloop : firstDifference (fun key =>
      match columns[key]? with
      | none => invalid "LATEST BY key column is absent"
      | some column => compareOrdinal compareFloat column.type left right key .last) keys =
      .ok (compare (groupKey keys left) (groupKey keys right)) := by
    refine firstDifference_eq fun key hkey => ?_
    obtain ⟨_, hcolumn, hfloat⟩ := hkeys key hkey
    simp only [hcolumn]
    exact compareOrdinal_eq compareFloat hleft hright hcolumn hfloat .last
  simp only [sameGroup, hloop, bind, Except.bind, pure, Except.pure, Std.compare_eq_iff_eq]

end Compare

/-- `compact_groups` keeps the first row of every run of one group. -/
lemma compactGroups_eq {keys : List ℕ} (hkeys : ∀ ordinal ∈ keys, Comparable columns ordinal) :
    ∀ {rows : List VectorRow}
    {kept : VectorRow}, (∀ row ∈ kept :: rows, CellsFit columns row) →
    compactGroups compareFloat columns keys kept rows =
      .ok (compact (groupKey keys) kept rows) := by
  intro rows
  induction rows with
  | nil => exact fun _ => rfl
  | cons row rows ih =>
    intro kept hfits
    have hsame := sameGroup_eq compareFloat (hfits kept (by simp)) (hfits row (by simp)) hkeys
    rw [compactGroups, compact, hsame]
    simp only [bind, Except.bind, decide_eq_true_eq]
    split_ifs
    · exact ih fun a ha => hfits a (by
        rcases mem_cons.1 ha with rfl | ha
        · simp
        · simp [ha])
    · rw [ih fun a ha => hfits a (mem_cons_of_mem _ ha)]
      rfl

/-- A sort that succeeds has buffered its input and sorted the rows. -/
lemma sortOperator_eq_ok {sorted : Option (List VectorColumn × List VectorRow)}
    (h : sortOperator compareFloat keys limits chunks = .ok sorted) :
    ∃ state, bufferChunks keys limits ⟨none, []⟩ chunks = .ok state ∧
      (state.shape = none ∧ sorted = none ∨ ∃ columns rows, state.shape = some columns ∧
        sort (compareRows compareFloat columns keys) state.rows = .ok rows ∧
        sorted = some (columns, rows)) := by
  unfold sortOperator at h
  by_cases hzero : limits.maximumRows = 0 ∨ limits.maximumKeys = 0 ∨
      limits.outputMaximumRows = 0 ∨ limits.outputMaximumColumns = 0
  · rw [if_pos hzero] at h
    cases h
  by_cases hempty : keys = []
  · rw [if_neg hzero, if_pos hempty] at h
    cases h
  by_cases hmany : keys.length > limits.maximumKeys
  · rw [if_neg hzero, if_neg hempty, if_pos hmany] at h
    cases h
  rw [if_neg hzero, if_neg hempty, if_neg hmany, Result.bind_eq_ok] at h
  obtain ⟨state, hbuffer, h⟩ := h
  refine ⟨state, hbuffer, ?_⟩
  cases hshape : state.shape with
  | none =>
    rw [hshape] at h
    exact .inl ⟨rfl, (ok.inj h).symm⟩
  | some columns =>
    simp only [hshape, Result.bind_eq_ok] at h
    obtain ⟨rows, hsort, h⟩ := h
    split_ifs at h
    · cases h
    · exact .inr ⟨columns, rows, rfl, hsort, (ok.inj h).symm⟩

/-- **The operator selects.**  What it returns has one row of every group of the input,
which no row of the group outranks. -/
theorem latestBy_selects {definition : VectorLatestByDefinition} {limits : LatestByLimits}
    {output : List VectorRow} (hshape : ∀ chunk ∈ chunks, chunk.columns = columns)
    (hkeys : ∀ ordinal ∈ definition.keyColumnOrdinals, Comparable columns ordinal)
    (hrank : ∀ column ∈ definition.rank, Comparable columns column.1)
    (h : latestBy compareFloat definition limits chunks = .ok output) :
    Selects (groupKey definition.keyColumnOrdinals) (rankKey definition.rank)
      (chunks.flatMap (·.rows)) output := by
  have hfits : ∀ row ∈ chunks.flatMap (·.rows), CellsFit columns row := by
    intro row hrow
    obtain ⟨chunk, hchunk, hrow⟩ := mem_flatMap.1 hrow
    exact hshape chunk hchunk ▸ chunk.fits row hrow
  simp only [latestBy, Result.bind_eq_ok] at h
  obtain ⟨-, -, _, hsorted, h⟩ := h
  obtain ⟨state, hbuffer, hsorted⟩ := sortOperator_eq_ok compareFloat hsorted
  obtain ⟨hrows, hstate⟩ := bufferChunks_spec hshape (.inr ⟨rfl, rfl⟩) hbuffer
  rw [nil_append] at hrows
  rcases hstate with hsome | ⟨hnone, hempty⟩
  · have hcompares : Compares (compareRows compareFloat columns (latestByKeys definition))
        (fun row => GroupedKey.mk (groupKey definition.keyColumnOrdinals row)
          (rankKey definition.rank row)) state.rows := fun left hleft right hright =>
      compareRows_eq compareFloat (hfits left (hrows ▸ hleft)) (hfits right (hrows ▸ hright))
        hkeys hrank
    obtain ⟨rows, hsort, hperm, hordered⟩ := sort_spec hcompares
    obtain ⟨hnone, -⟩ | ⟨columns', rows', hcolumns, hrows', rfl⟩ := hsorted
    · rw [hsome] at hnone
      cases hnone
    obtain rfl : columns = columns' := Option.some.inj (hsome.symm.trans hcolumns)
    obtain rfl : rows = rows' := ok.inj (hsort.symm.trans hrows')
    simp only at h
    split at h
    · cases h
    split_ifs at h
    · cases h
    · cases h
    rw [← hrows]
    obtain _ | ⟨kept, rows⟩ := rows
    · obtain rfl : [] = output := ok.inj h
      rw [nil_perm.1 hperm]
      exact Selects.nil
    · have hcompact := compactGroups_eq compareFloat hkeys
        fun row hrow => hfits row (hrows ▸ hperm.subset hrow)
      obtain rfl := ok.inj (hcompact.symm.trans h)
      exact (selects_compact rows kept hordered).of_perm hperm
  · obtain ⟨-, rfl⟩ | ⟨_, _, hcolumns, -, -⟩ := hsorted
    swap
    · rw [hnone] at hcolumns
      cases hcolumns
    obtain rfl : [] = output := ok.inj h
    rw [← hrows, hempty]
    exact Selects.nil

/-! ### What the executor returns -/

section Executor

variable {schema : TableSchema} {keys : List ℕ} {timestamp : ℕ} {physical : List ℕ}
  (operation : ScalarInputRow → ℕ)

/-- The group of a row of the executor. -/
def rowGroup (keys : List ℕ) (operation : ScalarInputRow → ℕ) (row : ScalarInputRow) :
    List (List ℤ) :=
  groupKey keys (vectorRow operation row)

/-- The rank of a row of the executor. -/
def rowRank (versions : ScalarNullPlacement) (schema : TableSchema) (timestamp : ℕ)
    (physical : List ℕ) (operation : ScalarInputRow → ℕ) (row : ScalarInputRow) :
    List (List ℤ) :=
  rankKey (rankColumns versions timestamp physical schema.columns.length) (vectorRow operation row)

lemma keysEqual_eq {left right : ScalarInputRow} (hleft : left.Fits schema)
    (hright : right.Fits schema)
    (hkeys : ∀ ordinal ∈ keys, Comparable (userColumns schema) ordinal) :
    keysEqual compareFloat keys left right =
      .ok (decide (rowGroup keys operation left = rowGroup keys operation right)) := by
  have hloop := firstDifference_eq fun key hkey =>
    compareColumn_eq compareFloat operation hleft hright (hkeys key hkey) .last
  simp only [keysEqual, hloop, bind, Except.bind, pure, Except.pure, Std.compare_eq_iff_eq]
  rfl

section

variable (hranks : RanksBy schema timestamp physical)
  (hkeys : ∀ ordinal ∈ keys, Comparable (userColumns schema) ordinal)
include hranks hkeys

/-- A row replaces the winner of its group if it is later. -/
lemma placeRow_spec {row : ScalarInputRow} (hrow : row.Fits schema) :
    ∀ {winners : List ScalarInputRow},
    (∀ winner ∈ winners, winner.Fits schema) →
    placeRow compareFloat schema keys timestamp row winners = .ok none ∧
        (∀ winner ∈ winners, rowGroup keys operation winner ≠ rowGroup keys operation row) ∨
      ∃ before winner after, winners = before ++ winner :: after ∧
        rowGroup keys operation winner = rowGroup keys operation row ∧
        placeRow compareFloat schema keys timestamp row winners = .ok (some (before ++
          (if compare (rowRank .first schema timestamp physical operation row)
              (rowRank .first schema timestamp physical operation winner) = .gt
            then row else winner) :: after)) := by
  intro winners
  induction winners with
  | nil => exact fun _ => .inl ⟨rfl, by simp⟩
  | cons winner winners ih =>
    intro hfits
    have hwinner := hfits winner (mem_cons_self ..)
    have hequal := keysEqual_eq compareFloat operation hwinner hrow hkeys
    by_cases hgroup : rowGroup keys operation winner = rowGroup keys operation row
    · refine .inr ⟨[], winner, winners, rfl, hgroup, ?_⟩
      have hlater : laterRow compareFloat schema timestamp row winner = .ok (decide (
          compare (rowRank .first schema timestamp physical operation row)
            (rowRank .first schema timestamp physical operation winner) = .gt)) :=
        laterRow_eq compareFloat .first operation hranks hrow hwinner
      simp only [placeRow, hequal, hgroup, decide_true, bind, Except.bind, if_true, hlater,
        decide_eq_true_eq, nil_append]
      split_ifs <;> rfl
    · simp only [placeRow, hequal, hgroup, decide_false, bind, Except.bind, Bool.false_eq_true,
        if_false]
      rcases ih fun w hw => hfits w (mem_cons_of_mem _ hw) with
        ⟨hnone, hnew⟩ | ⟨before, found, after, rfl, hfound, hplace⟩
      · refine .inl ⟨by rw [hnone]; rfl, fun w hw => ?_⟩
        rcases mem_cons.1 hw with rfl | hw
        · exact hgroup
        · exact hnew w hw
      · exact .inr ⟨winner :: before, found, after, rfl, hfound, by rw [hplace]; rfl⟩

/-- **The scan of the executor selects.**  With room for every group it returns one row of
each, which no row of the group outranks. -/
theorem latestRows_selects {maximumGroups : ℕ} :
    ∀ {rows seen winners : List ScalarInputRow},
    (∀ row ∈ seen ++ rows, row.Fits schema) →
    (∀ groups : List (List (List ℤ)), groups.Nodup →
      groups ⊆ (seen ++ rows).map (rowGroup keys operation) → groups.length ≤ maximumGroups) →
    Selects (rowGroup keys operation) (rowRank .first schema timestamp physical operation) seen
      winners →
    ∃ winners', latestRows compareFloat schema keys timestamp maximumGroups winners rows =
        .ok winners' ∧
      Selects (rowGroup keys operation) (rowRank .first schema timestamp physical operation)
        (seen ++ rows) winners' := by
  intro rows
  induction rows with
  | nil =>
    intro seen winners _ _ hselects
    exact ⟨winners, rfl, by rwa [append_nil]⟩
  | cons row rows ih =>
    intro seen winners hfits hlimit hselects
    have hassoc : seen ++ row :: rows = (seen ++ [row]) ++ rows := by simp
    rw [hassoc] at hfits hlimit ⊢
    have hrow := hfits row (by simp)
    have hwinners : ∀ winner ∈ winners, winner.Fits schema := fun w hw =>
      hfits w (mem_append_left _ (mem_append_left _ (hselects.subset hw)))
    rw [latestRows]
    rcases placeRow_spec compareFloat operation hranks hkeys hrow hwinners with
      ⟨hnone, hnew⟩ | ⟨before, winner, after, rfl, hgroup, hplace⟩
    · -- a new group, for which the limit leaves room
      have happend := hselects.append hnew
      have hroom : winners.length < maximumGroups := by
        have hle := hlimit ((winners ++ [row]).map (rowGroup keys operation))
          (pairwise_map.2 happend.distinct)
          (map_subset _ (List.Subset.trans happend.subset (subset_append_left _ _)))
        exact Nat.lt_of_succ_le (by simpa using hle)
      simp only [hnone, bind, Except.bind, if_neg (not_le.2 hroom)]
      exact ih hfits hlimit happend
    · simp only [hplace, bind, Except.bind]
      exact ih hfits hlimit (hselects.replace hgroup)

end

end Executor

/-! ### The operator and the executor -/

/-- The values of the columns that group a row; null is equal to null. -/
def keyTuple (keys : List ℕ) (row : VectorRow) : List (Option ScalarValue) :=
  keys.map (row[·]?)

/-- Rows have one group key exactly when they have one tuple of values. -/
lemma groupKey_eq_iff {keys : List ℕ} {left right : VectorRow}
    (hkeys : ∀ ordinal ∈ keys, Comparable columns ordinal) (hleft : CellsFit columns left)
    (hright : CellsFit columns right) :
    groupKey keys left = groupKey keys right ↔ keyTuple keys left = keyTuple keys right := by
  simp only [groupKey, keyTuple, map_inj_left]
  refine forall₂_congr fun ordinal hordinal => ?_
  obtain ⟨_, hcolumn, hfloat⟩ := hkeys ordinal hordinal
  obtain ⟨_, hl, -, hleftFits, -⟩ := hleft.cell hcolumn
  obtain ⟨_, hr, -, hrightFits, -⟩ := hright.cell hcolumn
  rw [cellKey, cellKey, hl, hr]
  exact ⟨fun h => congrArg some (valueKey_injective hfloat hleftFits hrightFits h),
    fun h => by rw [Option.some.inj h]⟩

/-- A definition that groups rows of a schema by columns without floating-point numbers and
ranks them by a timestamp and the physical ordering key of the schema. -/
structure PlannedFor (schema : TableSchema) (definition : VectorLatestByDefinition) : Prop where
  keys : ∀ ordinal ∈ definition.keyColumnOrdinals, Comparable (userColumns schema) ordinal
  ranks : RanksBy schema definition.timestampColumnOrdinal definition.physicalOrderingKeyOrdinals
  versions : definition.rowVersionFirstColumnOrdinal = schema.columns.length

variable {schema : TableSchema}

lemma Comparable.vectorColumns {ordinal : ℕ} (h : Comparable (userColumns schema) ordinal) :
    Comparable (vectorColumns schema) ordinal := by
  obtain ⟨column, hcolumn, hfloat⟩ := h
  have hlt := (List.getElem?_eq_some_iff.1 hcolumn).1
  exact ⟨column, by rw [Query.vectorColumns, List.getElem?_append_left hlt, hcolumn], hfloat⟩

/-- The columns of a rank exist and are comparable. -/
lemma comparable_rankColumns {timestamp : ℕ} {physical : List ℕ}
    (h : RanksBy schema timestamp physical) (versions : ScalarNullPlacement)
    {column : ℕ × ScalarNullPlacement}
    (hcolumn : column ∈ rankColumns versions timestamp physical schema.columns.length) :
    Comparable (vectorColumns schema) column.1 := by
  have hlength : (userColumns schema).length = schema.columns.length := by simp [userColumns]
  have hversion : ∀ k < 3, Comparable (vectorColumns schema) (schema.columns.length + k) := by
    intro k _
    rw [Comparable, vectorColumns, ← hlength, getElem?_append_right (by omega),
      Nat.add_sub_cancel_left]
    obtain rfl | rfl | rfl : k = 0 ∨ k = 1 ∨ k = 2 := by omega
    all_goals exact ⟨_, rfl, rfl⟩
  simp only [rankColumns, mem_cons, mem_append, mem_map, not_mem_nil, or_false] at hcolumn
  obtain rfl | ⟨_, hordinal, rfl⟩ | rfl | rfl | rfl := hcolumn
  · exact (h.comparable _ (mem_cons_self ..)).vectorColumns
  · exact (h.comparable _ (mem_cons_of_mem _ hordinal)).vectorColumns
  · exact hversion 0 (by decide)
  · exact hversion 1 (by decide)
  · exact hversion 2 (by decide)

/-- Rows with one rank are the same row, where no two rows have one version. -/
lemma rankKey_injOn (timestamp : ℕ) (physical : List ℕ) {rows : List ScalarInputRow}
    (hfits : ∀ row ∈ rows, row.Fits schema) (hversions : (rows.map ScalarInputRow.version).Nodup)
    (versions : ScalarNullPlacement) (operation : ScalarInputRow → ℕ) :
    ∀ a ∈ rows.map (vectorRow operation), ∀ b ∈ rows.map (vectorRow operation),
      rankKey (rankColumns versions timestamp physical schema.columns.length) a =
        rankKey (rankColumns versions timestamp physical schema.columns.length) b → a = b := by
  intro _ ha _ hb h
  obtain ⟨left, hleft, rfl⟩ := mem_map.1 ha
  obtain ⟨right, hright, rfl⟩ := mem_map.1 hb
  have hversion := rankKey_injective versions operation (hfits left hleft) (hfits right hright) h
  rw [inj_on_of_nodup_map hversions hleft hright hversion]

/-- **`LATEST BY` and the executor.**  For rows with different versions, in any order and cut
into chunks in any way, what the operator returns has one row for every tuple of group values,
the one of greatest rank; these are the rows that `latest_rows` selects. -/
theorem latest_by_refines_executor {schema : TableSchema} {definition : VectorLatestByDefinition}
    {limits : LatestByLimits} {rows : List ScalarInputRow} {chunks : List VectorChunk}
    {output : List VectorRow} (operation : ScalarInputRow → ℕ)
    (hplan : PlannedFor schema definition) (hfits : ∀ row ∈ rows, row.Fits schema)
    (hversions : (rows.map ScalarInputRow.version).Nodup)
    (hshape : ∀ chunk ∈ chunks, chunk.columns = vectorColumns schema)
    (hchunks : (chunks.flatMap (·.rows)).Perm (rows.map (vectorRow operation)))
    (h : latestBy compareFloat definition limits chunks = .ok output) :
    (output.map (keyTuple definition.keyColumnOrdinals)).Nodup ∧
      (∀ tuple, tuple ∈ output.map (keyTuple definition.keyColumnOrdinals) ↔
        tuple ∈ (rows.map (vectorRow operation)).map (keyTuple definition.keyColumnOrdinals)) ∧
      (∀ row, row ∈ output ↔ IsWinner (keyTuple definition.keyColumnOrdinals)
        (rankKey definition.rank) (rows.map (vectorRow operation)) row) ∧
      ∀ maximumGroups, output.length ≤ maximumGroups → ∃ winners,
        latestRows compareFloat schema definition.keyColumnOrdinals
          definition.timestampColumnOrdinal maximumGroups [] rows = .ok winners ∧
        output.Perm (winners.map (vectorRow operation)) := by
  have hrank : definition.rank = rankColumns .first definition.timestampColumnOrdinal
      definition.physicalOrderingKeyOrdinals schema.columns.length := by
    rw [VectorLatestByDefinition.rank, hplan.versions]
  have hkeys := fun ordinal hordinal => (hplan.keys ordinal hordinal).vectorColumns
  have hgroups := (latestBy_selects compareFloat hshape hkeys
    (fun column hcolumn => comparable_rankColumns hplan.ranks .first (hrank ▸ hcolumn)) h).of_perm
    hchunks
  have hrows : ∀ row ∈ rows.map (vectorRow operation), CellsFit (vectorColumns schema) row := by
    intro row hrow
    obtain ⟨input, hinput, rfl⟩ := mem_map.1 hrow
    exact vectorRow_fits operation (hfits input hinput)
  have hselects := hgroups.of_group_iff fun a ha b hb =>
    groupKey_eq_iff hkeys (hrows a ha) (hrows b hb)
  have hinj := rankKey_injOn definition.timestampColumnOrdinal
    definition.physicalOrderingKeyOrdinals hfits hversions .first operation
  rw [← hrank] at hinj
  refine ⟨pairwise_map.2 hselects.distinct, hselects.mem_map_group,
    fun row => hselects.mem_iff fun a ha b hb _ => hinj a ha b hb, fun maximumGroups hmaximum => ?_⟩
  -- the executor has room for the groups of the output
  have hroom : ∀ groups : List (List (List ℤ)), groups.Nodup →
      groups ⊆ ([] ++ rows).map (rowGroup definition.keyColumnOrdinals operation) →
      groups.length ≤ maximumGroups := by
    intro groups hnodup hsubset
    have houtput : groups ⊆ output.map (groupKey definition.keyColumnOrdinals) := by
      intro group hgroup
      rw [hgroups.mem_map_group, map_map]
      exact hsubset hgroup
    have hle := (subperm_of_subset hnodup houtput).length_le
    rw [length_map] at hle
    exact hle.trans hmaximum
  obtain ⟨winners, hwinners, hexecutor⟩ := latestRows_selects compareFloat operation hplan.ranks
    hplan.keys (by simpa using hfits) hroom Selects.nil
  refine ⟨winners, hwinners, hgroups.perm ?_ fun a ha b hb _ => hinj a ha b hb⟩
  rw [hrank]
  exact Selects.map (f := vectorRow operation) hexecutor

end Operator

/-! ### A table with a nullable group -/

/-- Readings with an event time and a sensor that may be null. -/
def readingsSchema : TableSchema :=
  let time : ColumnDefinition := ⟨1, "read_at", ⟨.timestampNs, 0, 0⟩, false, by decide⟩
  let sensor : ColumnDefinition := ⟨2, "sensor", ⟨.uint32, 0, 0⟩, true, by decide⟩
  ⟨1, 1, 1, none, [time, sensor],
    ⟨time.id, [time.id], [time.id], [time.id], []⟩, by decide⟩

/-- A reading, by its time, its sensor and its record. -/
def reading (time : Int) (sensor : ScalarStorage) (sequence : ℕ) : ScalarInputRow :=
  ⟨[⟨some ⟨.timestampNs, 0, 0⟩, .signed time⟩, ⟨some ⟨.uint32, 0, 0⟩, sensor⟩], [], 1, sequence,
    sequence, 0⟩

/-- Three readings, two of them without a sensor. -/
def readings : List ScalarInputRow :=
  [reading 10 .null 1, reading 20 .null 2, reading 5 (.unsigned 7) 3]

lemma readings_fit : ∀ row ∈ readings, row.Fits readingsSchema := by
  simp only [readings, forall_mem_cons, not_mem_nil, IsEmpty.forall_iff, implies_true, and_true]
  exact ⟨.cons (by decide) (.cons (by decide) .nil), .cons (by decide) (.cons (by decide) .nil),
    .cons (by decide) (.cons (by decide) .nil)⟩

/-- Readings as a chunk. -/
def readingsChunk (rows : List ScalarInputRow) (h : rows ⊆ readings) : VectorChunk where
  columns := vectorColumns readingsSchema
  rows := rows.map (vectorRow fun _ => 1)
  fits := by
    intro row hrow
    obtain ⟨input, hinput, rfl⟩ := List.mem_map.1 hrow
    exact vectorRow_fits _ (readings_fit input (h hinput))

/-- The readings in two chunks, not in the order of the table. -/
def readingsChunks : List VectorChunk :=
  [readingsChunk [reading 5 (.unsigned 7) 3, reading 20 .null 2] (by decide),
    readingsChunk [reading 10 .null 1] (by decide)]

/-- The latest reading of every sensor. -/
def latestReading : VectorLatestByDefinition := ⟨[1], 0, [0], 2⟩

lemma latestReading_planned : PlannedFor readingsSchema latestReading where
  keys := by
    simp only [latestReading, forall_mem_cons, not_mem_nil, IsEmpty.forall_iff,
    implies_true, and_true]
    exact ⟨_, rfl, rfl⟩
  ranks := by
    refine ⟨by decide, ?_⟩
    simp only [latestReading, forall_mem_cons, not_mem_nil, IsEmpty.forall_iff,
    implies_true, and_true]
    exact ⟨⟨_, rfl, rfl⟩, ⟨_, rfl, rfl⟩⟩
  versions := rfl

/-- The readings without a sensor are one group, with the later one as its row. -/
def latestReadings : List VectorRow :=
  [reading 5 (.unsigned 7) 3, reading 20 .null 2].map (vectorRow fun _ => 1)

/-- The operator returns them, and the executor selects them. -/
theorem latest_by_refines_executor_readings :
    latestBy (fun _ _ => .eq) latestReading ⟨4, 4, ⟨8, 8, 8, 8⟩⟩ readingsChunks =
        .ok latestReadings ∧
      ∃ winners, latestRows (fun _ _ => .eq) readingsSchema [1] 0 2 [] readings = .ok winners ∧
        latestReadings.Perm (winners.map (vectorRow fun _ => 1)) := by
  have houtput : latestBy (fun _ _ => .eq) latestReading ⟨4, 4, ⟨8, 8, 8, 8⟩⟩ readingsChunks =
      .ok latestReadings := by
    decide +kernel
  refine ⟨houtput, (latest_by_refines_executor _ _ latestReading_planned readings_fit (by decide)
    ?_ (by decide +kernel) houtput).2.2.2 2 (by decide)⟩
  simp [readingsChunks, readingsChunk]

end Chronos.Query
