import Chronos.Schema.Table

/-!
`query/value.hpp` and `src/query/snapshot.cpp`: scalar values, and the immutable table
snapshots that the scalar executor reads.

* `ScalarValue`: a value with its logical type.  Floats are kept as their bits, which is
  what the comparisons of stored rows look at.
* `ScalarTableSnapshot.create`: the checks that every row of a snapshot has passed.
-/

namespace Chronos.Query

open Schema

/-- `std::vector<std::byte>`: a sequence of octets, ordered as unsigned bytes. -/
abbrev Bytes := List (Fin 256)

/-- `ScalarStorage`. -/
inductive ScalarStorage where
  | null
  | boolean (value : Bool)
  | signed (value : Int)
  | unsigned (value : ℕ)
  | float32 (bits : BitVec 32)
  | float64 (bits : BitVec 64)
  | decimal (coefficient : Bytes)
  | text (value : String)
  | binary (value : Bytes)
  | uuid (value : Uuid)
  deriving DecidableEq

/-- `ScalarValue`; equality is `equal_scalar` of `temporal_snapshot.cpp`. -/
structure ScalarValue where
  type : Option LogicalType
  storage : ScalarStorage
  deriving DecidableEq

/-- `ScalarValue::is_null`. -/
def ScalarValue.isNull (value : ScalarValue) : Bool := value.storage = .null

/-- `ScalarInputRow`. -/
structure ScalarInputRow where
  columns : List ScalarValue
  generatedLogicalIdentity : Bytes
  walId : Uuid
  recordSequence : ℕ
  systemCommitPosition : ℕ
  rowOrdinal : ℕ
  deriving DecidableEq

/-- The loop of `validate_row` over the columns. -/
def validateRowColumns : List ScalarValue → List ColumnDefinition → Result Unit
  | value :: values, column :: columns =>
    if value.type ≠ some column.type then
      invalid "scalar snapshot row column type does not match its schema"
    else if value.isNull && !column.nullable then
      invalid "scalar snapshot row contains NULL in a NOT NULL column"
    else validateRowColumns values columns
  | _, _ => .ok ()

/-- `validate_row`. -/
def validateRow (schema : TableSchema) (committedPosition : ℕ) (row : ScalarInputRow) :
    Result Unit :=
  if row.columns.length ≠ schema.columns.length then
    invalid "scalar snapshot row column count does not match its schema"
  else do
    validateRowColumns row.columns schema.columns
    if schema.roles.deduplicationKey.isEmpty ≠ !row.generatedLogicalIdentity.isEmpty then
      invalid "scalar snapshot generated logical identity does not match schema identity mode"
    else if row.walId = 0 then invalid "scalar snapshot row WAL identity is nil"
    else if row.recordSequence = 0 ∨ row.systemCommitPosition = 0
        ∨ row.systemCommitPosition > committedPosition then
      invalid "scalar snapshot row commit metadata is outside the snapshot boundary"
    else .ok ()

/-- `ScalarTableSnapshot`. -/
structure ScalarTableSnapshot where
  schema : TableSchema
  committedPosition : ℕ
  rows : List ScalarInputRow
  deriving DecidableEq

/-- `ScalarTableSnapshot::create`. -/
def ScalarTableSnapshot.create (schema : TableSchema) (committedPosition : ℕ)
    (rows : List ScalarInputRow) : Result ScalarTableSnapshot :=
  if committedPosition = 0 then invalid "scalar snapshot requires schema and commit boundary"
  else do
    Result.forAll (validateRow schema committedPosition) rows
    .ok ⟨schema, committedPosition, rows⟩

/-! ### What the checks say -/

/-- A row that fits a schema: the part of the checks that does not depend on the boundary. -/
structure RowFits (schema : TableSchema) (row : ScalarInputRow) : Prop where
  count : row.columns.length = schema.columns.length
  columns : validateRowColumns row.columns schema.columns = .ok ()
  identity : schema.roles.deduplicationKey.isEmpty = !row.generatedLogicalIdentity.isEmpty
  walId : row.walId ≠ 0
  recordSequence : row.recordSequence ≠ 0
  position : row.systemCommitPosition ≠ 0

variable {schema : TableSchema} {committedPosition : ℕ}

/-- **A row passes** exactly if it fits the schema and was committed by the boundary. -/
lemma validateRow_ok {row : ScalarInputRow} :
    validateRow schema committedPosition row = .ok ()
      ↔ RowFits schema row ∧ row.systemCommitPosition ≤ committedPosition := by
  rw [validateRow]
  by_cases hcount : row.columns.length ≠ schema.columns.length
  · rw [if_pos hcount]
    exact ⟨fun hok => by simp [invalid] at hok, fun h => absurd h.1.count hcount⟩
  · rw [if_neg hcount, Result.bind_eq_ok]
    constructor
    · rintro ⟨⟨⟩, hcolumns, hrest⟩
      split_ifs at hrest with hidentity hwal hcommit
      · simp [invalid] at hrest
      · simp [invalid] at hrest
      · simp [invalid] at hrest
      · exact ⟨⟨not_not.mp hcount, hcolumns, not_not.mp hidentity, hwal, by omega, by omega⟩,
          by omega⟩
    · rintro ⟨hfits, hposition⟩
      refine ⟨(), hfits.columns, ?_⟩
      have hrecord := hfits.recordSequence
      have hnonzero := hfits.position
      rw [if_neg (not_not.mpr hfits.identity), if_neg hfits.walId, if_neg (by omega)]

lemma ScalarTableSnapshot.create_ok {rows : List ScalarInputRow} {snapshot : ScalarTableSnapshot} :
    ScalarTableSnapshot.create schema committedPosition rows = .ok snapshot
      ↔ committedPosition ≠ 0 ∧ snapshot = ⟨schema, committedPosition, rows⟩
        ∧ ∀ row ∈ rows, RowFits schema row ∧ row.systemCommitPosition ≤ committedPosition := by
  rw [ScalarTableSnapshot.create]
  split_ifs with hzero
  · exact ⟨fun hok => by simp [invalid] at hok, fun h => absurd hzero h.1⟩
  · rw [Result.bind_eq_ok]
    constructor
    · rintro ⟨⟨⟩, hrows, hsnapshot⟩
      cases hsnapshot
      exact ⟨hzero, rfl, fun row hmem =>
        validateRow_ok.mp (Result.forAll_eq_ok.mp hrows row hmem)⟩
    · rintro ⟨-, rfl, hrows⟩
      exact ⟨(), Result.forAll_eq_ok.mpr fun row hmem => validateRow_ok.mpr (hrows row hmem), rfl⟩

end Chronos.Query
