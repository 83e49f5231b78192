import Chronos.Common.Bytes
import Chronos.Columnar.Batch

/-!
`decimal_in_domain` of `src/columnar/column_vector.cpp` and of `src/query/value.cpp`.

* `carryBytes`: a loop over little-endian bytes with a carry, as both functions have it to negate a
  coefficient and to multiply the limit by ten; `ofLe_carryBytes` is the integer that it computes.
* `decimalInDomainBytes_eq`: the loops compute what the checks of column vectors rely on.
* `decimal_in_domain_exact`: the functions compare the two's-complement integer of a coefficient
  with a power of ten.
-/

namespace Chronos

/-- A loop over bytes, least significant first, with a carry. -/
def carryBytes (f : UInt8 → ℕ) : (carry : ℕ) → List UInt8 → List UInt8
  | _, [] => []
  | carry, byte :: bytes =>
    let value := f byte + carry
    UInt8.ofNat value :: carryBytes f (value / 256) bytes

/-- The comparison of byte strings that begin with the most significant byte. -/
def lessBytes : List UInt8 → List UInt8 → Bool
  | left :: lefts, right :: rights => if left ≠ right then left < right else lessBytes lefts rights
  | _, _ => false

/-- The bytes of the magnitude of a coefficient. -/
def magnitude (coefficient : Vector UInt8 16) : List UInt8 :=
  if coefficient.back &&& 0x80 ≠ 0 then
    carryBytes (fun byte => (~~~byte).toNat) 1 coefficient.toList
  else coefficient.toList

/-- The bytes of the limit for a number of digits. -/
def limitBytes : ℕ → List UInt8
  | 0 => 1 :: List.replicate 15 0
  | digits + 1 => carryBytes (fun limb => limb.toNat * 10) 0 (limitBytes digits)

/-- `decimal_in_domain` of the column layer, byte by byte. -/
def Columnar.decimalInDomainBytes (coefficient : Vector UInt8 16) (precision : ℕ) : Bool :=
  lessBytes (magnitude coefficient).reverse (limitBytes precision).reverse

/-- `decimal_in_domain` of the value layer, which is the same code. -/
def Query.decimalInDomain := Columnar.decimalInDomainBytes

/-- The two's-complement integer of a coefficient. -/
def signedCoefficient (coefficient : Vector UInt8 16) : ℤ :=
  (BitVec.ofNat 128 (ofLe coefficient.toList)).toInt

variable {f : UInt8 → ℕ} {carry : ℕ} {bytes : List UInt8}

lemma carryBytes_length : (carryBytes f carry bytes).length = bytes.length := by
  induction bytes generalizing carry with
  | nil => rfl
  | cons _ _ ih => simp [carryBytes, ih]

/-- The integer that the loop computes, by the integer `g` of what it adds up. -/
lemma ofLe_carryBytes {g : List UInt8 → ℕ}
    (hcons : ∀ byte bytes, g (byte :: bytes) = f byte + 256 * g bytes) :
    ofLe (carryBytes f carry bytes) = (g bytes + carry) % 256 ^ bytes.length := by
  induction bytes generalizing carry with
  | nil => simp [carryBytes, ofLe, Nat.mod_one]
  | cons byte bytes ih =>
    have hsum : g (byte :: bytes) + carry = f byte + carry + 256 * g bytes := by
      rw [hcons]
      omega
    rw [hsum, List.length_cons, pow_succ', Nat.mod_mul, Nat.add_mul_mod_self_left,
      Nat.add_mul_div_left _ _ (by decide), Nat.add_comm _ (g bytes), ← ih]
    exact congrArg (· + _) UInt8.toNat_ofNat'

lemma limitBytes_eq (digits : ℕ) :
    (limitBytes digits).length = 16 ∧ ofLe (limitBytes digits) = 10 ^ digits % 256 ^ 16 := by
  induction digits with
  | zero => decide
  | succ digits ih =>
    have hten := @ofLe_carryBytes (fun limb => limb.toNat * 10) 0 (limitBytes digits)
      (fun limbs => ofLe limbs * 10) fun _ _ => by rw [ofLe]; omega
    rw [limitBytes, carryBytes_length, hten, ih.1, ih.2, Nat.add_zero, Nat.mod_mul_mod, ← pow_succ]
    exact ⟨rfl, rfl⟩

lemma ofLe_append (left right : List UInt8) :
    ofLe (left ++ right) = ofLe left + 256 ^ left.length * ofLe right := by
  induction left with
  | nil => simp [ofLe]
  | cons _ _ ih =>
    rw [List.cons_append, ofLe, ofLe, ih, List.length_cons, pow_succ']
    ring

/-- The comparison is that of the integers. -/
lemma lessBytes_eq {left right : List UInt8} (hlength : left.length = right.length) :
    lessBytes left right = decide (ofBe left < ofBe right) := by
  induction left generalizing right with
  | nil => cases right <;> simp_all [lessBytes, ofBe]
  | cons x left ih =>
    obtain _ | ⟨y, right⟩ := right
    · cases hlength
    have hlength : left.length = right.length := by simpa using hlength
    -- the first bytes decide
    have hfirst {p q : ℕ} {low high : List UInt8} (hlow : low.length = left.length) (hlt : p < q) :
        ofBe low + 256 ^ left.length * p < ofBe high + 256 ^ left.length * q :=
      calc ofBe low + 256 ^ left.length * p < 256 ^ left.length * (p + 1) := by
            rw [Nat.mul_succ, Nat.add_comm, ← hlow]
            exact Nat.add_lt_add_left (ofBe_lt low) _
        _ ≤ 256 ^ left.length * q := Nat.mul_le_mul_left _ hlt
        _ ≤ ofBe high + 256 ^ left.length * q := Nat.le_add_left _ _
    have hcons (byte : UInt8) (bytes : List UInt8) :
        ofBe (byte :: bytes) = ofBe bytes + 256 ^ bytes.length * byte.toNat := by
      simp [ofBe, ofLe_append, ofLe]
    rw [lessBytes, ih hlength, hcons, hcons, ← hlength]
    by_cases heq : x = y
    · simp [heq]
    rw [if_pos heq, decide_eq_decide, UInt8.lt_iff_toNat_lt]
    have hne : x.toNat ≠ y.toNat := mt UInt8.toNat_inj.1 heq
    exact ⟨hfirst rfl, fun h =>
      hne.lt_or_gt.resolve_right fun hgt => (hfirst hlength.symm hgt).asymm h⟩

/-- The magnitude of the two's-complement integer. -/
lemma magnitude_eq (coefficient : Vector UInt8 16) :
    let value := ofLe coefficient.toList
    (magnitude coefficient).length = 16 ∧
      ofLe (magnitude coefficient) = if 2 ^ 127 ≤ value then 2 ^ 128 - value else value := by
  intro value
  have hlength : coefficient.toList.length = 16 := coefficient.length_toList
  have hsign : coefficient.back &&& 0x80 ≠ 0 ↔ 2 ^ 127 ≤ value := by
    have hbit : coefficient.back &&& 0x80 ≠ 0 ↔ 128 ≤ coefficient.back.toNat := by
      rw [Ne, ← UInt8.toNat_inj, UInt8.toNat_and, show (0x80 : UInt8).toNat = 2 ^ 7 from rfl,
        Nat.and_two_pow, Nat.testBit_eq_decide_div_mod_eq]
      have := coefficient.back.toNat_lt
      simp
      omega
    have hlow := ofLe_lt coefficient.pop.toList
    rw [Vector.length_toList] at hlow
    rw [hbit, show value = ofLe (coefficient.pop.push coefficient.back).toList by simp [value],
      Vector.toList_push, ofLe_append, ofLe, ofLe, Vector.length_toList]
    simp
    omega
  rw [magnitude, ← if_congr hsign rfl rfl]
  split_ifs with hneg
  · have hge : 2 ^ 127 ≤ ofLe coefficient.toList := hsign.1 hneg
    have hlt := hlength ▸ ofLe_lt coefficient.toList
    have hnegate := @ofLe_carryBytes (fun byte => (~~~byte).toNat) 1 coefficient.toList
      (fun bytes => 256 ^ bytes.length - 1 - ofLe bytes) fun byte bytes => by
        have hbytes := ofLe_lt bytes
        have hbyte := byte.toNat_lt
        rw [ofLe, List.length_cons, pow_succ, UInt8.toNat_not, UInt8.size]
        omega
    rw [carryBytes_length, hlength, hnegate, hlength, Nat.mod_eq_of_lt (by omega)]
    change 16 = 16 ∧ _ = 2 ^ 128 - ofLe coefficient.toList
    omega
  · exact ⟨hlength, rfl⟩

lemma decimalInDomainBytes_eq (coefficient : Vector UInt8 16) (precision : ℕ) :
    Columnar.decimalInDomainBytes coefficient precision =
      Columnar.decimalInDomain coefficient.toList precision := by
  obtain ⟨hlimit, hten⟩ := limitBytes_eq precision
  obtain ⟨hlength, hmagnitude⟩ := magnitude_eq coefficient
  rw [Columnar.decimalInDomainBytes, lessBytes_eq (by simp [hlength, hlimit]), ofBe, ofBe,
    List.reverse_reverse, List.reverse_reverse, hten, hmagnitude]
  rfl

/-- **The decimal domain.**  Both functions accept the coefficients with at most `precision`
digits. -/
theorem decimal_in_domain_exact (coefficient : Vector UInt8 16) (precision : ℕ)
    (hprecision : 1 ≤ precision ∧ precision ≤ 38) :
    (Columnar.decimalInDomainBytes coefficient precision = true ↔
      |signedCoefficient coefficient| < 10 ^ precision) ∧
    (Query.decimalInDomain coefficient precision = true ↔
      |signedCoefficient coefficient| < 10 ^ precision) := by
  have hpow : 10 ^ precision % 2 ^ 128 = 10 ^ precision :=
    Nat.mod_eq_of_lt ((Nat.pow_le_pow_right (by decide) hprecision.2).trans_lt (by decide))
  have hlt : ofLe coefficient.toList < 2 ^ 128 := by simpa using ofLe_lt coefficient.toList
  have habs : |signedCoefficient coefficient| = ((if 2 ^ 127 ≤ ofLe coefficient.toList then
      2 ^ 128 - ofLe coefficient.toList else ofLe coefficient.toList : ℕ) : ℤ) := by
    rw [signedCoefficient, BitVec.toInt_eq_toNat_cond, BitVec.toNat_ofNat, Nat.mod_eq_of_lt hlt]
    split_ifs
    · omega
    · exact abs_of_nonneg (by omega)
    · rw [abs_of_neg (by omega)]
      omega
    · omega
  rw [Query.decimalInDomain, and_self, decimalInDomainBytes_eq, Columnar.decimalInDomain, hpow,
    decide_eq_true_iff, habs]
  norm_cast

/-- The least coefficient. -/
theorem decimal_in_domain_exact_least :
    let least := (Vector.replicate 15 (0 : UInt8)).push 0x80
    signedCoefficient least = -2 ^ 127 ∧
      (Columnar.decimalInDomainBytes least 38 = true ↔ |signedCoefficient least| < 10 ^ 38) :=
  ⟨by decide, (decimal_in_domain_exact _ 38 (by decide)).1⟩

end Chronos
