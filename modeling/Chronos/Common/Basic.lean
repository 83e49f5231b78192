import Mathlib

/-!
The part of `src/common` that the modelled subsystems share: statuses, results,
checked arithmetic, little-endian integers and CRC32C.

* `Status`, `Result`: `common::Status` and `common::Result`; a function of the
  source that returns a bare `Status` returns `Result Unit` here, so that the ok
  status is `.ok ()`.
* `checkedAdd`, `checkedMultiply`: the overflow-checked `uint64` operations.
* `storeLe`, `loadLe`: the little-endian integers of `ByteWriter` and
  `ByteReader`, on lists of bytes.
* `crc32c`: the table-driven Castagnoli checksum of `crc32c.cpp`, on naturals
  below `2^32`.

Machine integers are naturals.  Every place of the source that could leave the
range of its type compares with `u64Max` first, and so does the model.
-/

namespace Chronos

/-- `std::numeric_limits<std::uint64_t>::max()`. -/
def u64Max : ℕ := 2 ^ 64 - 1

/-- `common::StatusCode`, less `kOk`. -/
inductive StatusCode where
  | cancelled | invalidArgument | outOfRange | notFound | alreadyExists | corruption
  | ioError | resourceExhausted | unavailable | notSupported | unauthenticated | internal
  deriving DecidableEq, Repr

/-- An error status: its code and its message. -/
structure Status where
  code : StatusCode
  message : String
  deriving DecidableEq, Repr

/-- `common::Result`. -/
abbrev Result (α : Type) := Except Status α

/-- Whether a result is a value. -/
def Result.isOk {α : Type} : Result α → Bool
  | .ok _ => true
  | .error _ => false

variable {α : Type}

lemma Result.isOk_iff {r : Result α} : Result.isOk r = true ↔ ∃ a, r = .ok a := by
  cases r <;> simp [Result.isOk]

/-- A chain of results succeeds exactly when its head does and its tail does on the value. -/
lemma Result.bind_eq_ok {β : Type} {x : Result α} {f : α → Result β} {b : β} :
    (x >>= f) = .ok b ↔ ∃ a, x = .ok a ∧ f a = .ok b := by
  cases x with
  | error s | ok a => simp [bind, Except.bind]

/-- A loop that checks every element and stops at the first error. -/
def Result.forAll {α : Type} (check : α → Result Unit) : List α → Result Unit
  | [] => .ok ()
  | x :: xs => check x >>= fun _ => Result.forAll check xs

/-- The loop succeeds exactly if every check does. -/
lemma Result.forAll_eq_ok {check : α → Result Unit} {xs : List α} :
    Result.forAll check xs = .ok () ↔ ∀ x ∈ xs, check x = .ok () := by
  induction xs with
  | nil => simp [Result.forAll]
  | cons x xs ih =>
    rw [Result.forAll, Result.bind_eq_ok, List.forall_mem_cons, ← ih]
    constructor
    · rintro ⟨⟨⟩, hx, hxs⟩
      exact ⟨hx, hxs⟩
    · rintro ⟨hx, hxs⟩
      exact ⟨(), hx, hxs⟩

/-! ### Checked arithmetic -/

/-- `common::checked_add` on `uint64`. -/
def checkedAdd (left right : ℕ) : Option ℕ :=
  if right > u64Max - left then none else some (left + right)

/-- `common::checked_multiply` on `uint64`. -/
def checkedMultiply (left right : ℕ) : Option ℕ :=
  if left ≠ 0 ∧ right > u64Max / left then none else some (left * right)

variable {a b c : ℕ}

lemma checkedAdd_eq_some (h : checkedAdd a b = some c) : c = a + b := by
  unfold checkedAdd at h
  split_ifs at h
  exact (Option.some.inj h).symm

lemma checkedAdd_of_le (h : a + b ≤ u64Max) : checkedAdd a b = some (a + b) := by
  rw [checkedAdd, if_neg (by omega)]

lemma checkedMultiply_eq_some (h : checkedMultiply a b = some c) : c = a * b := by
  unfold checkedMultiply at h
  split_ifs at h
  exact (Option.some.inj h).symm

lemma checkedMultiply_of_le (h : a * b ≤ u64Max) :
    checkedMultiply a b = some (a * b) := by
  rw [checkedMultiply, if_neg]
  rintro ⟨ha, hb⟩
  have hdiv : b ≤ u64Max / a := (Nat.le_div_iff_mul_le (by omega)).mpr (by rwa [Nat.mul_comm])
  omega

/-! ### Little-endian integers -/

/-- The `width` low bytes of a value, least significant first. -/
def storeLe : (width : ℕ) → ℕ → List UInt8
  | 0, _ => []
  | width + 1, value => UInt8.ofNat value :: storeLe width (value / 256)

/-- The value of a byte string, least significant byte first. -/
def ofLe : List UInt8 → ℕ
  | [] => 0
  | byte :: bytes => byte.toNat + 256 * ofLe bytes

/-- The `width`-byte integer at an offset. -/
def loadLe (bytes : List UInt8) (offset width : ℕ) : ℕ :=
  ofLe ((bytes.drop offset).take width)

@[simp] lemma storeLe_length (width value : ℕ) : (storeLe width value).length = width := by
  induction width generalizing value with
  | zero => rfl
  | succ width ih => simp [storeLe, ih]

/-! ### CRC32C -/

/-- One bit of the table generator `make_crc32c_table`. -/
def crc32cBit (remainder : ℕ) : ℕ :=
  (remainder >>> 1) ^^^ (if remainder % 2 = 1 then 0x82f63b78 else 0)

/-- The entry of `kCrc32cTable` at an index. -/
def crc32cTable (index : ℕ) : ℕ := crc32cBit^[8] index

/-- `extend_state`: the checksum state after the bytes. -/
def crc32cExtend (state : ℕ) (bytes : List UInt8) : ℕ :=
  bytes.foldl (fun state byte => crc32cTable ((state ^^^ byte.toNat) % 256) ^^^ (state >>> 8)) state

/-- `crc32c`: the finalized checksum of a byte string. -/
def crc32c (bytes : List UInt8) : ℕ := crc32cExtend 0xffffffff bytes ^^^ 0xffffffff

end Chronos
