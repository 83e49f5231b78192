import Chronos.Query.ScalarSnapshot
import Chronos.Columnar.Batch
import Chronos.Sort.Winners

/-!
The total comparison of `src/query/value.cpp`, on scalar values and on the cells of
physical columns.

* `compareScalarValues`, `comparePhysicalCells`: the comparisons of the code.  A cell is
  modelled by the scalar value that `from_column_cell` reads from it; floating-point
  values are compared by a function that is left open.
* `valueKey`: a key in a total order for every value.  On values of one type that is not a
  floating-point type both comparisons are those of the keys
  (`compareScalarValues_eq`, `comparePhysicalCells_eq`).
-/

namespace Chronos.Query

open Schema List

/-- `ScalarNullPlacement`. -/
inductive ScalarNullPlacement where
  | first
  | last
  deriving DecidableEq

/-! ### The comparisons -/

/-- The bytes of a `std::vector<std::byte>` as integers. -/
def byteValues (bytes : Bytes) : List ℤ := bytes.map fun byte => (byte.val : ℤ)

/-- The bytes of a `std::string`. -/
def textBytes (text : String) : List ℤ :=
  text.toByteArray.data.toList.map fun byte => (byte.toNat : ℤ)

/-- `compare_bytes`. -/
def compareBytes (left right : List ℤ) : Ordering := compare left right

/-- The sign bit of a little-endian coefficient. -/
def isNegative (coefficient : Bytes) : Bool :=
  coefficient.getLast?.any fun byte => 128 ≤ byte.val

/-- `compare_decimal`: the signs, then the bytes from the last one down. -/
def compareDecimal (left right : Bytes) : Ordering :=
  if isNegative left ≠ isNegative right then if isNegative left then .lt else .gt
  else compareBytes (byteValues left.reverse) (byteValues right.reverse)

/-- `signed_kind`. -/
def signedKind (kind : LogicalTypeKind) : Bool :=
  kind ∈ [.int8, .int16, .int32, .int64, .timestampNs, .date]

/-- `signed_integer_kind`. -/
def signedIntegerKind (kind : LogicalTypeKind) : Bool := kind ∈ [.int8, .int16, .int32, .int64]

/-- `unsigned_kind`. -/
def unsignedKind (kind : LogicalTypeKind) : Bool := kind ∈ [.uint8, .uint16, .uint32, .uint64]

/-- The floating-point kinds. -/
def floatKind (kind : LogicalTypeKind) : Bool := kind ∈ [.float32, .float64]

/-- `compatible_types`. -/
def compatibleTypes (left right : LogicalType) : Bool :=
  left = right || signedIntegerKind left.kind && signedIntegerKind right.kind
    || unsignedKind left.kind && unsignedKind right.kind
    || floatKind left.kind && floatKind right.kind

section Compare

variable (compareFloat : ScalarStorage → ScalarStorage → Ordering)

/-- `compare_scalar_values` on two values that are not null, by the kind of the left one.
The storages of one kind have one shape; the last case is the `default` of the switch. -/
def compareStorage (kind : LogicalTypeKind) (left right : ScalarStorage) : Result Ordering :=
  if signedKind kind then
    match left, right with
    | .signed lhs, .signed rhs => .ok (compare lhs rhs)
    | _, _ => invalid "signed scalar storage is invalid"
  else if unsignedKind kind then
    match left, right with
    | .unsigned lhs, .unsigned rhs => .ok (compare lhs rhs)
    | _, _ => invalid "unsigned scalar storage is invalid"
  else if floatKind kind then .ok (compareFloat left right)
  else
    match left, right with
    | .boolean lhs, .boolean rhs => .ok (if lhs = rhs then .eq else if lhs then .gt else .lt)
    | .decimal lhs, .decimal rhs => .ok (compareDecimal lhs rhs)
    | .text lhs, .text rhs => .ok (compareBytes (textBytes lhs) (textBytes rhs))
    | .binary lhs, .binary rhs => .ok (compareBytes (byteValues lhs) (byteValues rhs))
    | .uuid lhs, .uuid rhs => .ok (compare lhs rhs)
    | _, _ => invalid "scalar comparison kind is invalid"

/-- The comparison of two values one of which is null. -/
def compareNulls (left right : ScalarValue) (nulls : ScalarNullPlacement) : Ordering :=
  let nullComparison : Ordering := if nulls = .first then .lt else .gt
  if left.isNull && right.isNull then .eq
  else if left.isNull then nullComparison else nullComparison.swap

/-- `compare_scalar_values`. -/
def compareScalarValues (left right : ScalarValue) (nulls : ScalarNullPlacement) :
    Result Ordering :=
  if left.isNull || right.isNull then .ok (compareNulls left right nulls)
  else
    match left.type, right.type with
    | some leftType, some rightType =>
      if compatibleTypes leftType rightType then
        compareStorage compareFloat leftType.kind left.storage right.storage
      else invalid "scalar comparison types are incompatible"
    | _, _ => invalid "scalar comparison types are incompatible"

/-- `ColumnCellView::bytes` of a cell of a variable-width column. -/
def cellBytes : ScalarStorage → List ℤ
  | .text value => textBytes value
  | .binary value => byteValues value
  | _ => []

/-- `compare_physical_cells`. -/
def comparePhysicalCells (type : LogicalType) (left right : ScalarValue)
    (nulls : ScalarNullPlacement) : Result Ordering :=
  if left.isNull || right.isNull then .ok (compareNulls left right nulls)
  else if type.isVariableWidth then
    .ok (compareBytes (cellBytes left.storage) (cellBytes right.storage))
  else compareScalarValues compareFloat ⟨some type, left.storage⟩ ⟨some type, right.storage⟩ nulls

/-! ### Keys -/

/-- Whether a storage is one that values of a kind have. -/
def storageFits : LogicalTypeKind → ScalarStorage → Bool
  | .bool, .boolean _ => true
  | .decimal, .decimal _ => true
  | .symbol, .text _ | .string, .text _ => true
  | .binary, .binary _ => true
  | .uuid, .uuid _ => true
  | kind, .signed _ => signedKind kind
  | kind, .unsigned _ => unsignedKind kind
  | .float32, .float32 _ => true
  | .float64, .float64 _ => true
  | _, _ => false

/-- A value of a type: null, or with the storage of its kind. -/
def ScalarValue.Fits (value : ScalarValue) (type : LogicalType) : Prop :=
  value.type = some type ∧ (value.isNull ∨ storageFits type.kind value.storage)

instance (value : ScalarValue) (type : LogicalType) : Decidable (value.Fits type) :=
  inferInstanceAs (Decidable (_ ∧ _))

/-- The key of a storage that is not null and not a floating-point number. -/
def storageKey : ScalarStorage → List ℤ
  | .boolean value => [if value then 1 else 0]
  | .signed value => [value]
  | .unsigned value => [value]
  | .decimal value => (if isNegative value then 0 else 1) :: byteValues value.reverse
  | .text value => textBytes value
  | .binary value => byteValues value
  | .uuid value => [value]
  | _ => []

/-- The key of a value: null below or above every other value. -/
def valueKey (nulls : ScalarNullPlacement) (value : ScalarValue) : List ℤ :=
  if value.isNull then [if nulls = .first then 0 else 2] else 1 :: storageKey value.storage

lemma compare_singleton (a b : ℤ) : compare [a] [b] = compare a b := by
  rw [List.compare_cons_cons]
  cases compare a b <;> rfl

lemma compare_natCast (a b : ℕ) : compare (a : ℤ) b = compare a b := by
  simp only [compare, compareOfLessAndEq, Nat.cast_lt, Nat.cast_inj]

lemma compare_natKeys (a b : ℕ) : compare [(a : ℤ)] [(b : ℤ)] = compare a b := by
  rw [compare_singleton, compare_natCast]

lemma compareDecimal_eq (left right : Bytes) :
    compareDecimal left right =
      compare (storageKey (.decimal left)) (storageKey (.decimal right)) := by
  simp only [compareDecimal, compareBytes, storageKey, List.compare_cons_cons]
  cases isNegative left <;> cases isNegative right <;> rfl

lemma byteValues_injective : Function.Injective byteValues :=
  map_injective_iff.2 fun _ _ h => Fin.ext (Int.ofNat.inj h)

lemma textBytes_injective : Function.Injective textBytes := by
  intro a b h
  have hbytes : a.toByteArray.data.toList = b.toByteArray.data.toList :=
    map_injective_iff.2 (fun x y hxy => UInt8.toNat_inj.1 (Int.ofNat.inj hxy)) h
  exact String.toByteArray_inj.1 (ByteArray.ext (Array.toList_inj.1 hbytes))

/-- Two storages of one kind that is not a float, by their common shape. -/
inductive SameShape : LogicalTypeKind → ScalarStorage → ScalarStorage → Prop
  | boolean (l r) : SameShape .bool (.boolean l) (.boolean r)
  | decimal (l r) : SameShape .decimal (.decimal l) (.decimal r)
  | symbol (l r) : SameShape .symbol (.text l) (.text r)
  | string (l r) : SameShape .string (.text l) (.text r)
  | binary (l r) : SameShape .binary (.binary l) (.binary r)
  | uuid (l r) : SameShape .uuid (.uuid l) (.uuid r)
  | signed {kind} (h : signedKind kind = true) (l r) : SameShape kind (.signed l) (.signed r)
  | unsigned {kind} (hsigned : signedKind kind = false) (h : unsignedKind kind = true) (l r) :
    SameShape kind (.unsigned l) (.unsigned r)

section Storage

variable {kind : LogicalTypeKind} {left right : ScalarStorage} (hfloat : floatKind kind = false)
  (hleft : storageFits kind left = true) (hright : storageFits kind right = true)

include hfloat hleft hright

lemma sameShape : SameShape kind left right := by
  cases kind <;> cases left <;> first
  | exact absurd hleft Bool.false_ne_true
  | exact absurd hfloat.symm Bool.false_ne_true
  | cases right <;> first
    | exact absurd hright Bool.false_ne_true
    | (constructor <;> rfl)

/-- The comparison of two storages of one kind is that of their keys. -/
lemma compareStorage_eq : compareStorage compareFloat kind left right =
    .ok (compare (storageKey left) (storageKey right)) := by
  cases sameShape hfloat hleft hright with
  | boolean l r => cases l <;> cases r <;> rfl
  | decimal l r => exact congrArg Except.ok (compareDecimal_eq l r)
  | symbol l r | string l r | binary l r => rfl
  | uuid l r => exact congrArg Except.ok (compare_natKeys l r).symm
  | signed h l r =>
    rw [compareStorage, if_pos h]
    exact congrArg Except.ok (compare_singleton l r).symm
  | unsigned hsigned h l r =>
    rw [compareStorage, if_neg (by simp [hsigned]), if_pos h]
    exact congrArg Except.ok (compare_natKeys l r).symm

lemma storageKey_injective (h : storageKey left = storageKey right) : left = right := by
  cases sameShape hfloat hleft hright with
  | boolean l r => revert h; cases l <;> cases r <;> simp [storageKey]
  | decimal l r =>
    simp only [storageKey, cons.injEq] at h
    rw [reverse_injective (byteValues_injective h.2)]
  | symbol l r | string l r => rw [textBytes_injective h]
  | binary l r => rw [byteValues_injective h]
  | uuid l r | signed _ l r | unsigned _ _ l r =>
    simp only [storageKey, cons.injEq, and_true, Int.natCast_inj] at h
    rw [h]

end Storage

lemma ScalarValue.Fits.storage {type : LogicalType} {value : ScalarValue} (h : value.Fits type)
    (hnull : value.isNull = false) : storageFits type.kind value.storage = true :=
  h.2.resolve_left (by simp [hnull])

variable {left right : ScalarValue}

lemma compareNulls_eq (nulls : ScalarNullPlacement) (h : (left.isNull || right.isNull) = true) :
    compareNulls left right nulls = compare (valueKey nulls left) (valueKey nulls right) := by
  unfold compareNulls valueKey
  cases hleft : left.isNull <;> cases hright : right.isNull <;> cases nulls <;>
    first
    | rfl
    | simp [hleft, hright] at h

lemma compare_valueKey (hleft : left.isNull = false) (hright : right.isNull = false)
    (nulls : ScalarNullPlacement) : compare (valueKey nulls left) (valueKey nulls right) =
      compare (storageKey left.storage) (storageKey right.storage) := by
  simp only [valueKey, hleft, hright, Bool.false_eq_true, if_false, List.compare_cons_cons]
  rfl

variable {type : LogicalType} {left right : ScalarValue} (hfloat : floatKind type.kind = false)
  (hleft : left.Fits type) (hright : right.Fits type) (nulls : ScalarNullPlacement)

include hfloat hleft hright

/-- **Scalar values compare as their keys.** -/
theorem compareScalarValues_eq : compareScalarValues compareFloat left right nulls =
    .ok (compare (valueKey nulls left) (valueKey nulls right)) := by
  unfold compareScalarValues
  by_cases hnull : (left.isNull || right.isNull) = true
  · rw [if_pos hnull, compareNulls_eq nulls hnull]
  · rw [if_neg hnull]
    simp only [Bool.or_eq_true, not_or, Bool.not_eq_true] at hnull
    have hcompatible : compatibleTypes type type = true := by simp [compatibleTypes]
    simp only [hleft.1, hright.1, hcompatible, if_true, compare_valueKey hnull.1 hnull.2]
    exact compareStorage_eq compareFloat hfloat (hleft.storage hnull.1) (hright.storage hnull.2)

/-- **Physical cells compare as their keys.** -/
theorem comparePhysicalCells_eq : comparePhysicalCells compareFloat type left right nulls =
    .ok (compare (valueKey nulls left) (valueKey nulls right)) := by
  unfold comparePhysicalCells
  by_cases hnull : (left.isNull || right.isNull) = true
  · rw [if_pos hnull, compareNulls_eq nulls hnull]
  · rw [if_neg hnull]
    by_cases hwidth : type.isVariableWidth = true
    · -- the bytes of a cell are the key of its storage
      have hbytes : ∀ value : ScalarValue, value.isNull = false → value.Fits type →
          cellBytes value.storage = storageKey value.storage := by
        intro value hvalue hfits
        have hstorage := hfits.storage hvalue
        revert hwidth hstorage
        obtain ⟨kind, -, -⟩ := type
        cases kind <;> cases value.storage <;>
          simp [LogicalType.isVariableWidth, storageFits, cellBytes, storageKey, signedKind,
            unsignedKind]
      simp only [Bool.or_eq_true, not_or, Bool.not_eq_true] at hnull
      rw [if_pos hwidth, compare_valueKey hnull.1 hnull.2, hbytes left hnull.1 hleft,
        hbytes right hnull.2 hright, compareBytes]
    · have htypes : (⟨some type, left.storage⟩ : ScalarValue) = left ∧
          (⟨some type, right.storage⟩ : ScalarValue) = right := by
        rw [← hleft.1]
        exact ⟨rfl, by rw [hleft.1, ← hright.1]⟩
      rw [if_neg hwidth, htypes.1, htypes.2]
      exact compareScalarValues_eq compareFloat hfloat hleft hright nulls

end Compare

/-- Values of one type with one key are the same value. -/
lemma valueKey_injective {type : LogicalType} {left right : ScalarValue}
    (hfloat : floatKind type.kind = false) (hleft : left.Fits type) (hright : right.Fits type)
    {nulls : ScalarNullPlacement} (h : valueKey nulls left = valueKey nulls right) :
    left = right := by
  obtain ⟨leftType, leftStorage⟩ := left
  obtain ⟨rightType, rightStorage⟩ := right
  obtain ⟨rfl, hleft⟩ := hleft
  obtain ⟨rfl, hright⟩ := hright
  simp only [valueKey, ScalarValue.isNull, decide_eq_true_eq] at h hleft hright
  by_cases hl : leftStorage = .null <;> by_cases hr : rightStorage = .null
  · rw [hl, hr]
  · rw [if_pos hl, if_neg hr] at h
    cases nulls <;> simp at h
  · rw [if_neg hl, if_pos hr] at h
    cases nulls <;> simp at h
  · rw [if_neg hl, if_neg hr, cons.injEq] at h
    rw [storageKey_injective hfloat (hleft.resolve_left hl) (hright.resolve_left hr) h.2]

end Chronos.Query
