import Chronos.Common.Bytes

/-!
Readers of binary formats, and what it means that a reader inverts an encoding.

* `Reader`: a cursor over a byte string with an error type of its own; `readExact`,
  `readByte`, `readArray`, `readLe`, `readBe`, `readZeros`, `readFlag`, `check`,
  `many`, `atEnd` are its steps.
* `require`, `requireSome`: tests outside a reader.
* `Codes p P e`: the reader `p` accepts exactly the encodings `e x` of the values with
  `P x`.  It holds both the round trip and the canonicity of a format.
* `sealTrailer`, `sealField`: a byte string closed by its checksum, and one that carries
  its checksum in a field that counts as zero while it is computed.
-/

namespace Chronos

/-- A test that fails with a status of its own. -/
def require {ε : Type} (condition : Prop) [Decidable condition] (fail : ε) : Except ε Unit :=
  if condition then .ok () else .error fail

variable {ε : Type}

@[simp] lemma require_eq_ok {condition : Prop} [Decidable condition] {fail : ε} {u : Unit} :
    require condition fail = .ok u ↔ condition := by
  by_cases hcondition : condition <;> simp [require, hcondition]

variable {α : Type}

/-- A chain of tests succeeds exactly if its head does and its tail does on the value. -/
lemma except_bind_eq_ok {β : Type} {x : Except ε α} {f : α → Except ε β} {b : β} :
    (x >>= f) = .ok b ↔ ∃ a, x = .ok a ∧ f a = .ok b := by
  cases x with
  | error fail | ok a => simp [bind, Except.bind]

lemma mapError_eq_ok {ε' : Type} {f : ε → ε'} {x : Except ε α} {a : α} :
    x.mapError f = .ok a ↔ x = .ok a := by
  cases x <;> simp [Except.mapError]

/-- A value that has to be there. -/
def requireSome {ε α : Type} (fail : ε) : Option α → Except ε α
  | some value => .ok value
  | none => .error fail

@[simp] lemma requireSome_eq_ok {fail : ε} {found : Option α} {value : α} :
    requireSome fail found = .ok value ↔ found = some value := by
  cases found <;> simp [requireSome]

/-- A reader takes bytes from the front of its input or fails. -/
abbrev Reader (ε α : Type) := StateT (List UInt8) (Except ε) α

namespace Reader

variable {ε α β : Type}

/-! ### Steps -/

/-- The next `count` bytes. -/
def readExact (fail : ε) (count : ℕ) : Reader ε (List UInt8) := fun bytes =>
  if bytes.length < count then .error fail else .ok (bytes.take count, bytes.drop count)

/-- The next byte. -/
def readByte (fail : ε) : Reader ε UInt8
  | [] => .error fail
  | byte :: bytes => .ok (byte, bytes)

/-- The next `count` bytes as an array of that length. -/
def readArray (fail : ε) (count : ℕ) : Reader ε (Vector UInt8 count) := fun bytes =>
  if h : bytes.length < count then .error fail
  else .ok (⟨(bytes.take count).toArray, by simpa using h⟩, bytes.drop count)

/-- The next little-endian integer of a width. -/
def readLe (fail : ε) (width : ℕ) : Reader ε ℕ := ofLe <$> readExact fail width

/-- The next big-endian integer of a width. -/
def readBe (fail : ε) (width : ℕ) : Reader ε ℕ := ofBe <$> readExact fail width

/-- The next `count` bytes, which have to be zero. -/
def readZeros (fail : ε) (count : ℕ) : Reader ε Unit := fun bytes =>
  if bytes.take count = List.replicate count 0 then .ok ((), bytes.drop count) else .error fail

/-- The next byte as a truth value: zero or one. -/
def readFlag (fail : ε) : Reader ε Bool
  | [] => .error fail
  | byte :: bytes => if byte ≤ 1 then .ok (byte == 1, bytes) else .error fail

/-- Fails unless the condition holds. -/
def check (condition : Prop) [Decidable condition] (fail : ε) : Reader ε Unit := fun bytes =>
  if condition then .ok ((), bytes) else .error fail

/-- The number of bytes that are left. -/
def remaining : Reader ε ℕ := fun bytes => .ok (bytes.length, bytes)

/-- Fails unless every byte has been read. -/
def atEnd (fail : ε) : Reader ε Unit := fun bytes =>
  if bytes = [] then .ok ((), bytes) else .error fail

/-- A reader run `count` times. -/
def many (item : Reader ε α) : (count : ℕ) → Reader ε (List α)
  | 0 => pure []
  | count + 1 => do
    let first ← item
    let others ← many item count
    pure (first :: others)

/-- The value a reader finds at the front of its input. -/
def decode (reader : Reader ε α) (bytes : List UInt8) : Except ε α := (reader bytes).map Prod.fst

/-! ### What each step accepts -/

variable {reader : Reader ε α} {bytes rest : List UInt8} {y : β}

@[simp] lemma bind_eq_ok {next : α → Reader ε β} : (reader >>= next) bytes = .ok (y, rest) ↔
      ∃ x middle, reader bytes = .ok (x, middle) ∧ next x middle = .ok (y, rest) := by
  change (reader bytes >>= fun p => next p.1 p.2) = _ ↔ _
  rcases reader bytes with _ | ⟨_, _⟩
  · simp [bind, Except.bind]
  · simp [bind, Except.bind]

variable {x : α}

@[simp] lemma pure_eq_ok {y : α} :
    (pure x : Reader ε α) bytes = .ok (y, rest) ↔ x = y ∧ bytes = rest := by
  change Except.ok (x, bytes) = _ ↔ _
  simp

@[simp] lemma map_eq_ok {f : α → β} :
    (f <$> reader) bytes = .ok (y, rest) ↔ ∃ x, reader bytes = .ok (x, rest) ∧ f x = y := by
  rw [map_eq_pure_bind, bind_eq_ok]
  simp

variable {fail : ε} {count : ℕ}

@[simp] lemma readExact_eq_ok {value : List UInt8} :
    readExact fail count bytes = .ok (value, rest) ↔
      value.length = count ∧ bytes = value ++ rest := by
  rw [readExact]
  constructor
  · intro h
    split_ifs at h with hlength
    cases h
    exact ⟨by rw [List.length_take]; omega, (List.take_append_drop count bytes).symm⟩
  · rintro ⟨rfl, rfl⟩
    rw [if_neg (by simp), List.take_left, List.drop_left]

@[simp] lemma readByte_eq_ok {byte : UInt8} :
    readByte fail bytes = .ok (byte, rest) ↔ bytes = byte :: rest := by
  cases bytes <;> simp [readByte]

@[simp] lemma readArray_eq_ok {value : Vector UInt8 count} :
    readArray fail count bytes = .ok (value, rest) ↔ bytes = value.toList ++ rest := by
  rw [readArray]
  constructor
  · intro h
    split_ifs at h with hlength
    cases h
    exact (List.take_append_drop count bytes).symm
  · rintro rfl
    have hlength : value.toList.length = count := Vector.length_toList
    rw [dif_neg (by simp)]
    simp only [Except.ok.injEq, Prod.mk.injEq]
    exact ⟨Vector.toList_inj.1 (List.take_left' hlength), List.drop_left' hlength⟩

variable {width value : ℕ}

@[simp] lemma readLe_eq_ok :
    readLe fail width bytes = .ok (value, rest) ↔
      value < 256 ^ width ∧ bytes = storeLe width value ++ rest := by
  rw [readLe, map_eq_ok]
  constructor
  · rintro ⟨word, hword, rfl⟩
    obtain ⟨rfl, rfl⟩ := readExact_eq_ok.1 hword
    exact ⟨ofLe_lt word, by rw [storeLe_ofLe]⟩
  · rintro ⟨hvalue, rfl⟩
    exact ⟨_, readExact_eq_ok.2 ⟨storeLe_length _ _, rfl⟩, ofLe_storeLe hvalue⟩

@[simp] lemma readBe_eq_ok :
    readBe fail width bytes = .ok (value, rest) ↔
      value < 256 ^ width ∧ bytes = storeBe width value ++ rest := by
  rw [readBe, map_eq_ok]
  constructor
  · rintro ⟨word, hword, rfl⟩
    obtain ⟨rfl, rfl⟩ := readExact_eq_ok.1 hword
    exact ⟨ofBe_lt word, by rw [storeBe_ofBe]⟩
  · rintro ⟨hvalue, rfl⟩
    exact ⟨_, readExact_eq_ok.2 ⟨storeBe_length _ _, rfl⟩, ofBe_storeBe hvalue⟩

variable {u : Unit}

@[simp] lemma readZeros_eq_ok :
    readZeros fail count bytes = .ok (u, rest) ↔ bytes = List.replicate count 0 ++ rest := by
  rw [readZeros]
  constructor
  · intro h
    split_ifs at h with hzeros
    cases h
    rw [← hzeros, List.take_append_drop]
  · rintro rfl
    rw [if_pos (List.take_left' List.length_replicate), List.drop_left' List.length_replicate]

/-- A flag is stored in one way. -/
@[simp] lemma readFlag_eq_ok {flag : Bool} :
    readFlag fail bytes = .ok (flag, rest) ↔ bytes = flag.toUInt8 :: rest := by
  rcases bytes with _ | ⟨byte, _⟩
  · simp [readFlag]
  rw [readFlag]
  by_cases hone : byte ≤ 1
  · have hcases : byte = 0 ∨ byte = 1 := by
      have hle : byte.toNat ≤ 1 := hone
      rcases Nat.le_one_iff_eq_zero_or_eq_one.1 hle with h | h
      · exact .inl (UInt8.toNat_inj.1 h)
      · exact .inr (UInt8.toNat_inj.1 h)
    rcases hcases with rfl | rfl <;> cases flag <;> simp [Bool.toUInt8]
  · rw [if_neg hone]
    cases flag <;> simp [Bool.toUInt8] <;> rintro rfl <;> exact absurd (by decide) hone

@[simp] lemma check_eq_ok {condition : Prop} [Decidable condition] :
    check condition fail bytes = .ok (u, rest) ↔ condition ∧ bytes = rest := by
  by_cases hcondition : condition <;> simp [check, hcondition]

@[simp] lemma remaining_eq_ok :
    (remaining : Reader ε ℕ) bytes = .ok (count, rest) ↔ bytes.length = count ∧ bytes = rest := by
  simp [remaining]

@[simp] lemma atEnd_eq_ok :
    atEnd fail bytes = .ok (u, rest) ↔ bytes = [] ∧ rest = [] := by
  by_cases hbytes : bytes = [] <;> simp [atEnd, hbytes, eq_comm]

lemma decode_eq_ok :
    reader.decode bytes = .ok x ↔ ∃ rest, reader bytes = .ok (x, rest) := by
  rw [decode]
  rcases reader bytes with _ | ⟨_, _⟩
  · simp [Except.map]
  · simp [Except.map]

/-! ### Readers that invert an encoding -/

/-- A reader accepts exactly the encodings of the values with the property, and leaves what follows
them. -/
def Codes (reader : Reader ε α) (P : α → Prop) (encode : α → List UInt8) : Prop :=
  ∀ bytes x rest, reader bytes = .ok (x, rest) ↔ P x ∧ bytes = encode x ++ rest

namespace Codes

variable {item : Reader ε α} {P : α → Prop} {encode : α → List UInt8}

variable {bytes rest : List UInt8} {x : α}

lemma eq_ok (hitem : Codes item P encode) :
    item bytes = .ok (x, rest) ↔ P x ∧ bytes = encode x ++ rest := hitem bytes x rest

/-- A list of items is read by reading its items. -/
lemma many_eq_ok (hitem : Codes item P encode) {count : ℕ} {xs : List α} :
    many item count bytes = .ok (xs, rest) ↔
      xs.length = count ∧ (∀ x ∈ xs, P x) ∧ bytes = xs.flatMap encode ++ rest := by
  induction count generalizing bytes xs with
  | zero =>
    rw [many, pure_eq_ok, List.length_eq_zero_iff]
    constructor
    · rintro ⟨rfl, rfl⟩
      simp
    · rintro ⟨rfl, -, rfl⟩
      simp
  | succ count ih =>
    rw [many, bind_eq_ok]
    constructor
    · rintro ⟨x, _, hx, hothers⟩
      obtain ⟨others, _, hread, hpure⟩ := bind_eq_ok.1 hothers
      obtain ⟨rfl, rfl⟩ := pure_eq_ok.1 hpure
      obtain ⟨hfirst, rfl⟩ := (hitem _ _ _).1 hx
      obtain ⟨rfl, hrest, rfl⟩ := ih.1 hread
      exact ⟨rfl, List.forall_mem_cons.2 ⟨hfirst, hrest⟩, by simp⟩
    · rintro ⟨hcount, hxs, rfl⟩
      obtain ⟨x, others, rfl⟩ := List.exists_cons_of_length_eq_add_one hcount
      obtain ⟨hx, hothers⟩ := List.forall_mem_cons.1 hxs
      refine ⟨x, others.flatMap encode ++ rest, (hitem _ _ _).2 ⟨hx, by simp⟩, ?_⟩
      exact bind_eq_ok.2 ⟨others, rest, ih.2 ⟨by simpa using hcount, hothers, rfl⟩,
        pure_eq_ok.2 ⟨rfl, rfl⟩⟩

lemma readLe (fail : ε) (width : ℕ) :
    Codes (Reader.readLe fail width) (· < 256 ^ width) (storeLe width) :=
  fun _ _ _ => readLe_eq_ok

/-- Bytes of the length of all encodings are decoded exactly if they are one. -/
lemma decode_of_length (hitem : Codes item P encode) {size : ℕ}
    (hsize : ∀ x, P x → (encode x).length = size) (hlength : bytes.length = size) :
    item.decode bytes = .ok x ↔ P x ∧ bytes = encode x := by
  rw [decode_eq_ok]
  constructor
  · rintro ⟨rest, hread⟩
    obtain ⟨hx, rfl⟩ := (hitem _ _ _).1 hread
    rw [List.length_append, hsize x hx] at hlength
    rw [List.length_eq_zero_iff.1 (show rest.length = 0 by omega), List.append_nil]
    exact ⟨hx, rfl⟩
  · rintro ⟨hx, rfl⟩
    exact ⟨[], (hitem _ _ _).2 ⟨hx, (List.append_nil _).symm⟩⟩

end Codes

/-! ### Checksums -/

/-- A byte string followed by its checksum. -/
def sealTrailer (body : List UInt8) : List UInt8 := body ++ storeLe 4 (crc32c body)

@[simp] lemma sealTrailer_length (body : List UInt8) :
    (sealTrailer body).length = body.length + 4 := by
  simp [sealTrailer]

lemma checksum_sealTrailer (body : List UInt8) :
    crc32c ((sealTrailer body).take ((sealTrailer body).length - 4)) =
      ofLe ((sealTrailer body).drop ((sealTrailer body).length - 4)) := by
  rw [sealTrailer_length, Nat.add_sub_cancel, sealTrailer, List.take_left, List.drop_left,
    ofLe_storeLe (crc32c_lt _)]

/-- The checksum in the last four bytes is right exactly if they were put there. -/
lemma checksum_trailer_iff (hsize : 4 ≤ bytes.length) :
    crc32c (bytes.take (bytes.length - 4)) = ofLe (bytes.drop (bytes.length - 4)) ↔
      ∃ body, bytes = sealTrailer body := by
  constructor
  · intro h
    have hlength : (bytes.drop (bytes.length - 4)).length = 4 := by
      rw [List.length_drop]
      omega
    have hword := storeLe_ofLe (bytes.drop (bytes.length - 4))
    rw [hlength] at hword
    exact ⟨bytes.take (bytes.length - 4), by rw [sealTrailer, h, hword, List.take_append_drop]⟩
  · rintro ⟨body, rfl⟩
    exact checksum_sealTrailer body

variable {first second : List UInt8} {size : ℕ}

/-- A sealed byte string of two parts: the first part. -/
lemma take_sealTrailer (hfirst : first.length = size) :
    (sealTrailer (first ++ second)).take size = first := by
  rw [sealTrailer, List.append_assoc, List.take_left' hfirst]

variable {offset : ℕ}

/-- A sealed byte string of two parts: the second part. -/
lemma drop_take_sealTrailer (hfirst : first.length = offset) (hsecond : second.length = size) :
    ((sealTrailer (first ++ second)).drop offset).take size = second := by
  rw [sealTrailer, List.append_assoc, List.drop_left' hfirst, List.take_left' hsecond]

/-- A byte string of two parts with the right checksum at its end. -/
lemma eq_sealTrailer (hlength : bytes.length = offset + size + 4)
    (hchecksum : crc32c (bytes.take (bytes.length - 4)) = ofLe (bytes.drop (bytes.length - 4))) :
    bytes = sealTrailer (bytes.take offset ++ (bytes.drop offset).take size) := by
  obtain ⟨_, rfl⟩ := (checksum_trailer_iff (by omega)).1 hchecksum
  rw [sealTrailer_length] at hlength
  congr 1
  rw [sealTrailer, List.take_append_of_le_length (by omega),
    List.drop_append_of_le_length (by omega),
    List.take_left' (by rw [List.length_drop]; omega), List.take_append_drop]

/-- A byte string with the right checksum at its end. -/
lemma eq_sealTrailer_take (hlength : bytes.length = offset + 4)
    (hcrc : crc32c (bytes.take offset) = loadLe bytes offset 4) :
    bytes = sealTrailer (bytes.take offset) := by
  have hdrop : (bytes.drop offset).length = 4 := by
    rw [List.length_drop]
    omega
  have hword := storeLe_ofLe (bytes.drop offset)
  rw [hdrop] at hword
  rw [loadLe, List.take_of_length_le hdrop.le] at hcrc
  rw [sealTrailer, hcrc, hword, List.take_append_drop]

/-- The bytes with a field of four bytes set to zero. -/
def zeroField (offset : ℕ) (bytes : List UInt8) : List UInt8 :=
  bytes.take offset ++ List.replicate 4 0 ++ bytes.drop (offset + 4)

/-- A byte string with its checksum in a field of its own, computed while the field is zero. -/
def sealField (before after : List UInt8) : List UInt8 :=
  before ++ storeLe 4 (crc32c (before ++ List.replicate 4 0 ++ after)) ++ after

@[simp] lemma sealField_length (before after : List UInt8) :
    (sealField before after).length = before.length + 4 + after.length := by
  simp [sealField, Nat.add_assoc]

lemma zeroField_append (before after : List UInt8) (value : ℕ) :
    zeroField before.length (before ++ storeLe 4 value ++ after) =
      before ++ List.replicate 4 0 ++ after := by
  rw [zeroField, List.drop_left' (by simp), List.append_assoc before, List.take_left]

lemma exists_sealField_eq (before after : List UInt8) :
    ∃ crc < 256 ^ 4, sealField before after = before ++ storeLe 4 crc ++ after :=
  ⟨_, crc32c_lt _, rfl⟩

variable {before after : List UInt8} {crc : ℕ}

/-- The checksum in a field is right exactly if it was put there. -/
lemma checksum_field_iff (hcrc : crc < 256 ^ 4) :
    crc32c (zeroField before.length (before ++ storeLe 4 crc ++ after)) =
        loadLe (before ++ storeLe 4 crc ++ after) before.length 4 ↔
      before ++ storeLe 4 crc ++ after = sealField before after := by
  have hload : loadLe (before ++ storeLe 4 crc ++ after) before.length 4 = crc := by
    rw [loadLe, List.append_assoc, List.drop_left, List.take_left' (by simp), ofLe_storeLe hcrc]
  rw [zeroField_append, hload, sealField]
  constructor
  · intro h
    rw [h]
  · intro h
    have hword := List.append_cancel_left (List.append_cancel_right h)
    exact (storeLe_inj hcrc (crc32c_lt _) hword).symm

/-- A byte string of the right length with the right checksum carries it as a sealed field. -/
lemma eq_sealField (hcrc : crc < 256 ^ 4)
    (hbytes : bytes = before ++ storeLe 4 crc ++ after ++ rest)
    (hlength : bytes.length = before.length + 4 + after.length)
    (hchecksum : crc32c (zeroField before.length bytes) = loadLe bytes before.length 4) :
    bytes = sealField before after := by
  obtain rfl : rest = [] := by
    rw [hbytes] at hlength
    simp only [List.length_append, storeLe_length] at hlength
    exact List.length_eq_zero_iff.1 (by omega)
  rw [List.append_nil] at hbytes
  rw [hbytes] at hchecksum ⊢
  exact (checksum_field_iff hcrc).1 hchecksum

/-- A header whose reader inverts its encoding and whose checksum is right is the sealed form of its
fields, and conversely. -/
lemma Codes.sealed_iff {P : α → Prop} {before after : α → List UInt8} {crc : α → ℕ}
    (hreader : Codes reader P fun x => before x ++ storeLe 4 (crc x) ++ after x)
    (hbefore : ∀ x, P x → (before x).length = offset)
    (hsize : ∀ x, P x → (before x).length + 4 + (after x).length = size) {header : List UInt8} :
    (header.length = size ∧ reader.decode header = .ok x ∧
        crc x = crc32c (zeroField offset header)) ↔
      P x ∧ header = sealField (before x) (after x) ∧
        crc x = crc32c (before x ++ List.replicate 4 0 ++ after x) := by
  rw [decode_eq_ok]
  constructor
  · rintro ⟨hlength, ⟨rest, hread⟩, hcrc⟩
    obtain ⟨hx, hheader⟩ := hreader.eq_ok.1 hread
    obtain rfl : rest = [] := by
      have hx' := hsize x hx
      rw [hheader] at hlength
      simp only [List.length_append, storeLe_length] at hlength
      exact List.length_eq_zero_iff.1 (by omega)
    rw [List.append_nil] at hheader
    rw [hheader, ← hbefore x hx, zeroField_append] at hcrc
    exact ⟨hx, by rw [hheader, hcrc]; rfl, hcrc⟩
  · rintro ⟨hx, rfl, hcrc⟩
    have hsealed : sealField (before x) (after x) = before x ++ storeLe 4 (crc x) ++ after x := by
      rw [hcrc]
      rfl
    refine ⟨?_, ⟨[], hreader.eq_ok.2 ⟨hx, by rw [hsealed, List.append_nil]⟩⟩, ?_⟩
    · rw [sealField_length]
      exact hsize x hx
    · rw [hsealed, ← hbefore x hx, zeroField_append]
      exact hcrc

lemma checksum_sealField (before after : List UInt8) :
    crc32c (zeroField before.length (sealField before after)) =
      loadLe (sealField before after) before.length 4 :=
  (checksum_field_iff (crc32c_lt _)).2 rfl

end Reader

end Chronos
