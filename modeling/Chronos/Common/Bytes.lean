import Chronos.Common.Basic

/-!
Integers as byte strings.

* `ofLe_storeLe`, `storeLe_ofLe`: the little-endian form of an integer is inverted
  by reading it, and the other way round.
* `storeBe`, `ofBe`: the form with the most significant byte first.
* `crc32c_lt`: a checksum is a 32-bit integer.
-/

namespace Chronos

open List

/-- The values of a `uint64`. -/
abbrev IsWord (value : ℕ) : Prop := value < 256 ^ 8

variable {value : ℕ}

lemma isWord_of_le_u64Max (h : value ≤ u64Max) : IsWord value :=
  lt_of_le_of_lt h (by decide)

lemma isWord_getD {value : Option ℕ} (h : ∀ x, value = some x → IsWord x) :
    IsWord (value.getD 0) := by
  rcases value with _ | x
  · exact Nat.pow_pos (by decide)
  · exact h x rfl

/-! ### Little-endian integers -/

lemma ofLe_lt (bytes : List UInt8) : ofLe bytes < 256 ^ bytes.length := by
  induction bytes with
  | nil => simp [ofLe]
  | cons byte =>
    have hbyte : byte.toNat < 256 := byte.toNat_lt
    rw [ofLe, length_cons, pow_succ]
    omega

variable {width : ℕ}

/-- Reading what was stored gives the value back. -/
lemma ofLe_storeLe (hvalue : value < 256 ^ width) :
    ofLe (storeLe width value) = value := by
  induction width generalizing value with
  | zero =>
    rw [pow_zero] at hvalue
    rw [storeLe, ofLe]
    omega
  | succ width ih =>
    have hrest : value / 256 < 256 ^ width := by
      rw [pow_succ] at hvalue
      omega
    rw [storeLe, ofLe, ih hrest, UInt8.toNat_ofNat']
    omega

/-- Storing what was read gives the bytes back. -/
lemma storeLe_ofLe (bytes : List UInt8) : storeLe bytes.length (ofLe bytes) = bytes := by
  induction bytes with
  | nil => rfl
  | cons byte bytes ih =>
    have hbyte : byte.toNat < 256 := byte.toNat_lt
    have hdiv : (byte.toNat + 256 * ofLe bytes) / 256 = ofLe bytes := by omega
    have hlow : UInt8.ofNat (byte.toNat + 256 * ofLe bytes) = byte := by
      apply UInt8.toNat_inj.1
      rw [UInt8.toNat_ofNat']
      omega
    rw [length_cons, ofLe, storeLe, hlow, hdiv, ih]

/-- The integers of one width have different byte strings. -/
lemma storeLe_inj {first second : ℕ} (hfirst : first < 256 ^ width)
    (hsecond : second < 256 ^ width) (heq : storeLe width first = storeLe width second) :
    first = second := by
  rw [← ofLe_storeLe hfirst, heq, ofLe_storeLe hsecond]

/-- What is loaded from a byte string fits the width it is loaded with. -/
lemma loadLe_lt (bytes : List UInt8) (offset width : ℕ) : loadLe bytes offset width < 256 ^ width :=
  lt_of_lt_of_le (ofLe_lt _)
    (Nat.pow_le_pow_right (by decide) (length_take_le width (bytes.drop offset)))

lemma flatMap_storeLe_length (width : ℕ) (values : List ℕ) :
    (values.flatMap (storeLe width)).length = width * values.length := by
  induction values with
  | nil => rfl
  | cons _ _ ih =>
    rw [flatMap_cons, length_append, storeLe_length, ih, length_cons, Nat.mul_succ,
      Nat.add_comm]

/-! ### Big-endian integers -/

/-- The `width` low bytes of a value, most significant first. -/
def storeBe (width value : ℕ) : List UInt8 := (storeLe width value).reverse

/-- The value of a byte string, most significant byte first. -/
def ofBe (bytes : List UInt8) : ℕ := ofLe bytes.reverse

@[simp] lemma storeBe_length (width value : ℕ) : (storeBe width value).length = width := by
  rw [storeBe, length_reverse, storeLe_length]

lemma ofBe_lt (bytes : List UInt8) : ofBe bytes < 256 ^ bytes.length := by
  simpa [ofBe] using ofLe_lt bytes.reverse

lemma ofBe_storeBe (hvalue : value < 256 ^ width) :
    ofBe (storeBe width value) = value := by
  rw [ofBe, storeBe, reverse_reverse, ofLe_storeLe hvalue]

lemma storeBe_ofBe (bytes : List UInt8) : storeBe bytes.length (ofBe bytes) = bytes := by
  have hstored := storeLe_ofLe bytes.reverse
  rw [length_reverse] at hstored
  rw [storeBe, ofBe, hstored, reverse_reverse]

/-! ### Checksums -/

lemma shiftRight_lt {k n : ℕ} (hvalue : value < 2 ^ n) : value >>> k < 2 ^ n :=
  lt_of_le_of_lt (Nat.shiftRight_le value k) hvalue

lemma crc32cBit_lt {remainder : ℕ} (h : remainder < 2 ^ 32) : crc32cBit remainder < 2 ^ 32 := by
  refine Nat.xor_lt_two_pow (shiftRight_lt h) ?_
  split_ifs <;> decide

lemma crc32cTable_lt {index : ℕ} (h : index < 2 ^ 32) : crc32cTable index < 2 ^ 32 :=
  Function.Iterate.rec (· < 2 ^ 32) h (fun _ => crc32cBit_lt) 8

lemma crc32cExtend_lt {state : ℕ} (h : state < 2 ^ 32) (bytes : List UInt8) :
    crc32cExtend state bytes < 2 ^ 32 := by
  induction bytes generalizing state with
  | nil => exact h
  | cons _ _ ih =>
    refine ih (Nat.xor_lt_two_pow (crc32cTable_lt ?_) (shiftRight_lt h))
    omega

lemma crc32c_lt (bytes : List UInt8) : crc32c bytes < 256 ^ 4 :=
  Nat.xor_lt_two_pow (n := 32) (crc32cExtend_lt (by decide) bytes) (by decide)

end Chronos
