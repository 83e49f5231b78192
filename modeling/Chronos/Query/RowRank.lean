import Chronos.Query.Comparison

/-!
Rows of vector chunks and rows of the scalar executor, and the rank by which both choose
among the versions of a row.

* `VectorChunk`: a chunk by its columns and its selected rows; every cell is of the type of
  its column.
* `vectorRow`: a row of a scalar snapshot as a scan hands it to an operator, with the four
  columns of its version behind those of the schema (`row_version.cpp`).
* `laterRow`: the comparison by which `executor.cpp` chooses a row.  It is that of the
  `rankKey`s: the timestamp, the physical ordering key, and the version
  (`laterRow_eq`); the rank tells versions apart (`rankKey_injective`).
-/

namespace Chronos.Query

open Schema

/-! ### Vector rows -/

/-- The type and the nullability of a physical column, also `VectorAsofColumnShape`. -/
structure VectorColumn where
  type : LogicalType
  nullable : Bool
  deriving DecidableEq

/-- A selected row of a chunk: its cells. -/
abbrev VectorRow := List ScalarValue

/-- A cell belongs to its column. -/
def VectorColumn.Holds (column : VectorColumn) (cell : ScalarValue) : Prop :=
  cell.Fits column.type ∧ (cell.isNull → column.nullable)

instance (column : VectorColumn) (cell : ScalarValue) : Decidable (column.Holds cell) :=
  inferInstanceAs (Decidable (_ ∧ _))

/-- Every cell of a row belongs to its column. -/
def CellsFit (columns : List VectorColumn) (row : VectorRow) : Prop :=
  List.Forall₂ VectorColumn.Holds columns row

/-- `VectorChunk`, by its columns and its selected rows. -/
structure VectorChunk where
  columns : List VectorColumn
  rows : List VectorRow
  fits : ∀ row ∈ rows, CellsFit columns row

/-- `VectorChunk::cell`. -/
def rowCell (row : VectorRow) (ordinal : ℕ) : Result ScalarValue :=
  match row[ordinal]? with
  | some cell => .ok cell
  | none => .error ⟨.outOfRange, "vector chunk column is out of range"⟩

/-- The key of a cell. -/
def cellKey (nulls : ScalarNullPlacement) (row : VectorRow) (ordinal : ℕ) : List ℤ :=
  (row[ordinal]?.map (valueKey nulls)).getD []

lemma CellsFit.cell {columns : List VectorColumn} {row : VectorRow} (h : CellsFit columns row)
    {ordinal : ℕ} {column : VectorColumn} (hcolumn : columns[ordinal]? = some column) :
    ∃ cell, row[ordinal]? = some cell ∧ rowCell row ordinal = .ok cell ∧ column.Holds cell := by
  obtain ⟨hlt, rfl⟩ := List.getElem?_eq_some_iff.1 hcolumn
  have hrow : ordinal < row.length := h.length_eq ▸ hlt
  refine ⟨row[ordinal], List.getElem?_eq_getElem hrow, ?_, ?_⟩
  · rw [rowCell, List.getElem?_eq_getElem hrow]
  · simpa using h.get hlt hrow

/-! ### Comparisons column by column -/

/-- A loop over comparisons that returns the first that is not `0`. -/
def firstDifference {κ : Type} (test : κ → Result Ordering) : List κ → Result Ordering
  | [] => .ok .eq
  | key :: keys => do
    let comparison ← test key
    if comparison ≠ .eq then return comparison else firstDifference test keys

variable {κ : Type} {c d : Ordering} {test : κ → Result Ordering}

lemma firstDifference_cons {key : κ} {keys : List κ} (hkey : test key = .ok c)
    (hkeys : firstDifference test keys = .ok d) :
    firstDifference test (key :: keys) = .ok (c.then d) := by
  rw [firstDifference, hkey]
  simp only [bind, Except.bind, hkeys]
  cases c <;> rfl

lemma firstDifference_append {keys keys' : List κ} (hkeys : firstDifference test keys = .ok c)
    (hkeys' : firstDifference test keys' = .ok d) :
    firstDifference test (keys ++ keys') = .ok (c.then d) := by
  induction keys generalizing c with
  | nil =>
    obtain rfl : Ordering.eq = c := Except.ok.inj hkeys
    simpa using hkeys'
  | cons key keys ih =>
    simp only [firstDifference, List.cons_append, Result.bind_eq_ok] at hkeys ⊢
    obtain ⟨comparison, htest, hrest⟩ := hkeys
    refine ⟨comparison, htest, ?_⟩
    by_cases hne : comparison ≠ .eq
    · rw [if_pos hne] at hrest ⊢
      obtain rfl : comparison = c := Except.ok.inj hrest
      cases comparison <;> first | rfl | exact absurd rfl hne
    · rw [if_neg hne] at hrest ⊢
      exact ih hrest

lemma firstDifference_map {μ : Type} (test : κ → Result Ordering) (f : μ → κ) (keys : List μ) :
    firstDifference test (keys.map f) = firstDifference (fun key => test (f key)) keys := by
  induction keys with
  | nil => rfl
  | cons key keys ih => simp only [List.map_cons, firstDifference, ih]

/-- Comparisons of keys add up to that of the lists of keys. -/
lemma firstDifference_eq {left right : κ → List ℤ} {keys : List κ}
    (h : ∀ key ∈ keys, test key = .ok (compare (left key) (right key))) :
    firstDifference test keys = .ok (compare (keys.map left) (keys.map right)) := by
  induction keys with
  | nil => rfl
  | cons key keys ih =>
    rw [List.map_cons, List.map_cons, List.compare_cons_cons]
    exact firstDifference_cons (h key (List.mem_cons_self ..))
      (ih fun key' hkey' => h key' (List.mem_cons_of_mem _ hkey'))

lemma compare_append {left right left' right' : List (List ℤ)}
    (hlength : left.length = right.length) :
    compare (left ++ left') (right ++ right') =
      (compare left right).then (compare left' right') := by
  induction left generalizing right with
  | nil =>
    obtain rfl : right = [] := List.length_eq_zero_iff.1 hlength.symm
    rfl
  | cons key left ih =>
    obtain _ | ⟨_, right⟩ := right
    · cases hlength
    · rw [List.cons_append, List.cons_append, List.compare_cons_cons, List.compare_cons_cons,
        ih (Nat.succ.inj hlength), Ordering.then_assoc]

section Rank

variable (compareFloat : ScalarStorage → ScalarStorage → Ordering)

/-- The comparison of two rows at one ordinal, for the type of the column. -/
def compareOrdinal (type : LogicalType) (left right : VectorRow) (ordinal : ℕ)
    (nulls : ScalarNullPlacement) : Result Ordering := do
  let leftCell ← rowCell left ordinal
  let rightCell ← rowCell right ordinal
  comparePhysicalCells compareFloat type leftCell rightCell nulls

/-- A column that exists and does not hold floating-point numbers. -/
def Comparable (columns : List VectorColumn) (ordinal : ℕ) : Prop :=
  ∃ column, columns[ordinal]? = some column ∧ floatKind column.type.kind = false

variable {ordinal : ℕ}

lemma compareOrdinal_eq {columns : List VectorColumn} {column : VectorColumn}
    {left right : VectorRow} (hleft : CellsFit columns left) (hright : CellsFit columns right)
    (hcolumn : columns[ordinal]? = some column) (hfloat : floatKind column.type.kind = false)
    (nulls : ScalarNullPlacement) :
    compareOrdinal compareFloat column.type left right ordinal nulls =
      .ok (compare (cellKey nulls left ordinal) (cellKey nulls right ordinal)) := by
  obtain ⟨_, hl, hleftCell, hleftFits, -⟩ := hleft.cell hcolumn
  obtain ⟨_, hr, hrightCell, hrightFits, -⟩ := hright.cell hcolumn
  simp only [compareOrdinal, hleftCell, hrightCell, bind, Except.bind, cellKey, hl, hr,
    Option.map_some, Option.getD_some]
  exact comparePhysicalCells_eq compareFloat hfloat hleftFits hrightFits nulls

/-! ### Row versions -/

/-- `vector_row_version_column_type`, for the four kinds in their order. -/
def rowVersionTypes : List LogicalType :=
  [⟨.uuid, 0, 0⟩, ⟨.uint64, 0, 0⟩, ⟨.uint32, 0, 0⟩, ⟨.uint8, 0, 0⟩]

/-- The columns of a scan without row versions. -/
def userColumns (schema : TableSchema) : List VectorColumn :=
  schema.columns.map fun column => ⟨column.type, column.nullable⟩

/-- The columns of a scan that appends row versions. -/
def vectorColumns (schema : TableSchema) : List VectorColumn :=
  userColumns schema ++ rowVersionTypes.map fun type => ⟨type, false⟩

/-- A row as a scan that appends row versions hands it on. -/
def vectorRow (operation : ScalarInputRow → ℕ) (row : ScalarInputRow) : VectorRow :=
  row.columns ++ [⟨some ⟨.uuid, 0, 0⟩, .uuid row.walId⟩,
    ⟨some ⟨.uint64, 0, 0⟩, .unsigned row.recordSequence⟩,
    ⟨some ⟨.uint32, 0, 0⟩, .unsigned row.rowOrdinal⟩,
    ⟨some ⟨.uint8, 0, 0⟩, .unsigned (operation row)⟩]

/-- The identity of a row version. -/
def ScalarInputRow.version (row : ScalarInputRow) : Uuid × ℕ × ℕ :=
  (row.walId, row.recordSequence, row.rowOrdinal)

/-- Every value of a row belongs to its column of the schema. -/
def ScalarInputRow.Fits (row : ScalarInputRow) (schema : TableSchema) : Prop :=
  CellsFit (userColumns schema) row.columns

variable {row : ScalarInputRow}

lemma ScalarInputRow.Fits.length_eq {schema : TableSchema} (h : row.Fits schema) :
    row.columns.length = schema.columns.length := by
  simpa [userColumns] using (List.Forall₂.length_eq h).symm

/-- The columns that rank a row, each with the place of its nulls: the timestamp, the
physical ordering key, and the first three columns of the version, which are never null. -/
def rankColumns (versions : ScalarNullPlacement) (timestamp : ℕ) (physical : List ℕ)
    (first : ℕ) : List (ℕ × ScalarNullPlacement) :=
  (timestamp, .first) :: (physical.map (·, .last) ++
    [(first, versions), (first + 1, versions), (first + 2, versions)])

/-- The rank of a row: a null timestamp lowest, a null ordering key highest. -/
def rankKey (columns : List (ℕ × ScalarNullPlacement)) (row : VectorRow) : List (List ℤ) :=
  columns.map fun column => cellKey column.2 row column.1

/-! ### The scalar executor -/

/-- `compare_version_identity`. -/
def compareVersionIdentity (left right : ScalarInputRow) : Ordering :=
  (compare left.walId right.walId).then ((compare left.recordSequence right.recordSequence).then
    (compare left.rowOrdinal right.rowOrdinal))

/-- `compare_values` of one column of two rows. -/
def compareColumn (left right : ScalarInputRow) (ordinal : ℕ) (nulls : ScalarNullPlacement) :
    Result Ordering := do
  let leftValue ← rowCell left.columns ordinal
  let rightValue ← rowCell right.columns ordinal
  compareScalarValues compareFloat leftValue rightValue nulls

/-- `compare_physical`. -/
def comparePhysical (schema : TableSchema) (left right : ScalarInputRow) : Result Ordering := do
  let comparison ← firstDifference (fun column =>
    match schema.columnOrdinal column with
    | none => .error ⟨.internal, "Physical ordering key has no schema ordinal"⟩
    | some ordinal => compareColumn compareFloat left right ordinal .last)
    schema.roles.physicalOrderingKey
  return if comparison ≠ .eq then comparison else compareVersionIdentity left right

/-- `later_row`; the timestamp is a column of the row. -/
def laterRow (schema : TableSchema) (timestamp : ℕ) (candidate current : ScalarInputRow) :
    Result Bool := do
  let comparison ← compareColumn compareFloat candidate current timestamp .first
  if comparison ≠ .eq then return comparison = .gt
  else return (← comparePhysical compareFloat schema candidate current) = .gt

lemma cellKey_vectorRow_lt (operation : ScalarInputRow → ℕ) (h : ordinal < row.columns.length)
    (nulls : ScalarNullPlacement) :
    cellKey nulls (vectorRow operation row) ordinal = cellKey nulls row.columns ordinal := by
  rw [cellKey, cellKey, vectorRow, List.getElem?_append_left h]

/-- The keys of the version columns. -/
lemma cellKey_version (operation : ScalarInputRow → ℕ) {first : ℕ}
    (h : row.columns.length = first) (nulls : ScalarNullPlacement) :
    cellKey nulls (vectorRow operation row) first = [1, (row.walId : ℤ)] ∧
      cellKey nulls (vectorRow operation row) (first + 1) = [1, (row.recordSequence : ℤ)] ∧
      cellKey nulls (vectorRow operation row) (first + 2) = [1, (row.rowOrdinal : ℤ)] := by
  subst h
  simp [cellKey, vectorRow, valueKey, ScalarValue.isNull, storageKey]

lemma compare_one_natCast (a b : ℕ) : compare [(1 : ℤ), (a : ℤ)] [1, (b : ℤ)] = compare a b := by
  rw [List.compare_cons_cons, compare_singleton, compare_natCast]
  rfl

lemma compareVersionIdentity_eq (left right : ScalarInputRow) :
    compareVersionIdentity left right =
      compare [[(1 : ℤ), (left.walId : ℤ)], [1, (left.recordSequence : ℤ)],
          [1, (left.rowOrdinal : ℤ)]]
        [[1, (right.walId : ℤ)], [1, (right.recordSequence : ℤ)], [1, (right.rowOrdinal : ℤ)]] := by
  rw [List.compare_cons_cons, compare_one_natCast, List.compare_cons_cons, compare_one_natCast,
    List.compare_cons_cons, compare_one_natCast, compareVersionIdentity]
  cases compare left.rowOrdinal right.rowOrdinal <;> rfl

section Schema

variable {schema : TableSchema} {timestamp : ℕ} {physical : List ℕ}
  (versions : ScalarNullPlacement) (operation : ScalarInputRow → ℕ)

/-- The ordinals by which rows of a schema are ranked: those of its physical ordering key,
and a timestamp, all comparable. -/
structure RanksBy (schema : TableSchema) (timestamp : ℕ) (physical : List ℕ) : Prop where
  physicalKey : schema.roles.physicalOrderingKey.map schema.columnOrdinal = physical.map some
  comparable : ∀ ordinal ∈ timestamp :: physical, Comparable (userColumns schema) ordinal

variable {left right : ScalarInputRow}

lemma compareColumn_eq {ordinal : ℕ} (hleft : left.Fits schema) (hright : right.Fits schema)
    (hcomparable : Comparable (userColumns schema) ordinal) (nulls : ScalarNullPlacement) :
    compareColumn compareFloat left right ordinal nulls =
      .ok (compare (cellKey nulls (vectorRow operation left) ordinal)
        (cellKey nulls (vectorRow operation right) ordinal)) := by
  obtain ⟨_, hcolumn, hfloat⟩ := hcomparable
  obtain ⟨_, hl, hleftCell, hleftFits, -⟩ := CellsFit.cell hleft hcolumn
  obtain ⟨_, hr, hrightCell, hrightFits, -⟩ := CellsFit.cell hright hcolumn
  rw [cellKey_vectorRow_lt operation (List.getElem?_eq_some_iff.1 hl).1,
    cellKey_vectorRow_lt operation (List.getElem?_eq_some_iff.1 hr).1]
  simp only [compareColumn, hleftCell, hrightCell, bind, Except.bind, cellKey, hl, hr,
    Option.map_some, Option.getD_some]
  exact compareScalarValues_eq compareFloat hfloat hleftFits hrightFits nulls

/-- The loop over a physical ordering key compares the keys of its columns. -/
lemma firstDifference_physical (hleft : left.Fits schema) (hright : right.Fits schema) :
    ∀ {ids : List ColumnId} {physical : List ℕ},
    ids.map schema.columnOrdinal = physical.map some →
    (∀ ordinal ∈ physical, Comparable (userColumns schema) ordinal) →
    firstDifference (fun column =>
        match schema.columnOrdinal column with
        | none => .error ⟨.internal, "Physical ordering key has no schema ordinal"⟩
        | some ordinal => compareColumn compareFloat left right ordinal .last) ids =
      .ok (compare (physical.map (cellKey .last (vectorRow operation left)))
        (physical.map (cellKey .last (vectorRow operation right)))) := by
  intro ids
  induction ids with
  | nil =>
    intro physical hids _
    obtain rfl : physical = [] := List.map_eq_nil_iff.1 hids.symm
    rfl
  | cons id ids ih =>
    intro physical hids hcomparable
    obtain _ | ⟨ordinal, physical⟩ := physical
    · cases hids
    · obtain ⟨hid, hids⟩ := List.cons.inj hids
      rw [List.map_cons, List.map_cons, List.compare_cons_cons]
      refine firstDifference_cons ?_ (ih hids fun o ho => hcomparable o (List.mem_cons_of_mem _ ho))
      simp only [hid]
      exact compareColumn_eq compareFloat operation hleft hright
        (hcomparable ordinal (by simp)) .last

lemma rankKey_rankColumns (row : VectorRow) (first : ℕ) :
    rankKey (rankColumns versions timestamp physical first) row =
      cellKey .first row timestamp :: (physical.map (cellKey .last row) ++
        [cellKey versions row first, cellKey versions row (first + 1),
          cellKey versions row (first + 2)]) := by
  simp [rankKey, rankColumns, Function.comp_def]

/-- **The executor chooses by rank.**  A row is later than another exactly when its rank
is greater. -/
theorem laterRow_eq (hranks : RanksBy schema timestamp physical)
    {candidate current : ScalarInputRow} (hcandidate : candidate.Fits schema)
    (hcurrent : current.Fits schema) :
    laterRow compareFloat schema timestamp candidate current = .ok (decide (
      compare (rankKey (rankColumns versions timestamp physical schema.columns.length)
          (vectorRow operation candidate))
        (rankKey (rankColumns versions timestamp physical schema.columns.length)
          (vectorRow operation current)) = .gt)) := by
  have htime := compareColumn_eq compareFloat operation hcandidate hcurrent
    (hranks.comparable timestamp (List.mem_cons_self ..)) .first
  have hphysical := firstDifference_physical compareFloat operation hcandidate
    hcurrent hranks.physicalKey fun o ho => hranks.comparable o (List.mem_cons_of_mem _ ho)
  obtain ⟨hwal, hsequence, hordinal⟩ :=
    cellKey_version operation hcandidate.length_eq versions
  obtain ⟨hwal', hsequence', hordinal'⟩ :=
    cellKey_version operation hcurrent.length_eq versions
  rw [rankKey_rankColumns, rankKey_rankColumns, List.compare_cons_cons,
    compare_append (by simp), hwal, hsequence, hordinal, hwal', hsequence', hordinal',
    ← compareVersionIdentity_eq, laterRow, htime]
  simp only [comparePhysical, hphysical, bind, Except.bind, pure, Except.pure]
  generalize compare (cellKey .first (vectorRow operation candidate) timestamp) _ = time
  generalize compare (physical.map (cellKey .last (vectorRow operation candidate))) _ = keys
  cases time <;> cases keys <;> rfl

/-- The rank tells row versions apart. -/
lemma rankKey_injective (hleft : left.Fits schema) (hright : right.Fits schema)
    (h : rankKey (rankColumns versions timestamp physical schema.columns.length)
        (vectorRow operation left) =
      rankKey (rankColumns versions timestamp physical schema.columns.length)
        (vectorRow operation right)) :
    left.version = right.version := by
  rw [rankKey_rankColumns, rankKey_rankColumns] at h
  obtain ⟨hwal, hsequence, hordinal⟩ :=
    cellKey_version operation hleft.length_eq versions
  obtain ⟨hwal', hsequence', hordinal'⟩ :=
    cellKey_version operation hright.length_eq versions
  obtain ⟨-, h⟩ := List.append_inj (List.cons.inj h).2 (by simp)
  rw [hwal, hsequence, hordinal, hwal', hsequence', hordinal'] at h
  simpa [ScalarInputRow.version] using h

lemma vectorRow_fits {row : ScalarInputRow} (h : row.Fits schema) :
    CellsFit (vectorColumns schema) (vectorRow operation row) := by
  refine List.rel_append h ?_
  simp [rowVersionTypes, VectorColumn.Holds, ScalarValue.Fits, ScalarValue.isNull, storageFits,
    unsignedKind]

end Schema

end Rank

end Chronos.Query
