import Chronos.Tiering.ColdManifest

/-!
The parts of a cold-location Manifest: what each test and each reader lets through.

* `Located`: the locations that `validate_locations` accepts.
* `layoutOf`, `planLayout_eq_ok`: the offsets, which the two counts force.
* `decodeDescriptors_eq_ok`: a table of descriptors is accepted exactly if it is the one of the
  locations and the keys are theirs, one after the other.
* `RawColdHeader.Accepted`, `decodeHeader_eq_ok`: a header is accepted exactly if it is the header
  of its fields.
-/

namespace Chronos.Tiering

open Reader List ColdPartLocationDescriptor

/-! ### The model -/

/-- The locations that `validate_locations` lets through. -/
structure Located (locations : List ColdPartLocationDescriptor) : Prop where
  count : locations.length ≤ maximumLocationCount
  sorted : locations.Pairwise fun left right => left.partId < right.partId
  described : ∀ location ∈ locations,
    location.fileLength ≠ 0 ∧ validObjectKey location.objectKey = true
  distinct : (locations.map (·.objectKey)).Nodup
  keyBytes_le : keyBytes locations ≤ maximumKeyBytes

lemma keyBytes_cons (location : ColdPartLocationDescriptor)
    (locations : List ColdPartLocationDescriptor) :
    keyBytes (location :: locations) = location.objectKey.length + keyBytes locations := by
  simp [keyBytes]

lemma length_flatMap_objectKey (locations : List ColdPartLocationDescriptor) :
    (locations.flatMap (·.objectKey)).length = keyBytes locations := by
  rw [length_flatMap, keyBytes]

variable {locations : List ColdPartLocationDescriptor}

lemma validateKeys_eq_ok {objectKeys : List (List UInt8)} {sofar : ℕ}
    (hsofar : sofar ≤ maximumKeyBytes) :
    validateKeys objectKeys sofar locations = .ok () ↔
      (∀ location ∈ locations, location.fileLength ≠ 0 ∧
        validObjectKey location.objectKey = true) ∧
      (∀ location ∈ locations, location.objectKey ∉ objectKeys) ∧
      (locations.map (·.objectKey)).Nodup ∧ sofar + keyBytes locations ≤ maximumKeyBytes := by
  induction locations generalizing objectKeys sofar with
  | nil => simp [validateKeys, keyBytes, hsofar]
  | cons location locations ih =>
    simp only [validateKeys, Result.bind_eq_ok, require_eq_ok, requireSome_eq_ok, exists_const]
    rw [keyBytes_cons, forall_mem_cons, forall_mem_cons, map_cons, nodup_cons]
    constructor
    · rintro ⟨⟨hlength, hkey, hnew⟩, _, hadd, hnext, hrest⟩
      obtain rfl := checkedAdd_eq_some hadd
      obtain ⟨hdescribed, hfresh, hnodup, hsum⟩ := (ih hnext).mp hrest
      refine ⟨⟨⟨hlength, hkey⟩, hdescribed⟩, ⟨hnew, fun other hother hmem => ?_⟩, ⟨?_, hnodup⟩,
        by omega⟩
      · exact hfresh other hother (mem_cons_of_mem _ hmem)
      · intro hmem
        obtain ⟨other, hother, heq⟩ := mem_map.mp hmem
        exact hfresh other hother (heq ▸ mem_cons_self)
    · rintro ⟨⟨⟨hlength, hkey⟩, hdescribed⟩, ⟨hnew, hfresh⟩, ⟨hnotin, hnodup⟩, _⟩
      have hnext : sofar + location.objectKey.length ≤ maximumKeyBytes := by omega
      have hbound : maximumKeyBytes ≤ u64Max := by decide
      refine ⟨⟨hlength, hkey, hnew⟩, _, checkedAdd_of_le (hnext.trans hbound), hnext, ?_⟩
      refine (ih hnext).mpr ⟨hdescribed, fun other hother hmem => ?_, hnodup, by omega⟩
      obtain heq | hmem := mem_cons.mp hmem
      · exact hnotin (heq ▸ mem_map_of_mem hother)
      · exact hfresh other hother hmem

lemma validateLocations_eq_ok :
    validateLocations locations = .ok () ↔ Located locations := by
  have hchain : (locations.IsChain fun left right => left.partId < right.partId) ↔
      locations.Pairwise fun left right => left.partId < right.partId :=
    isChain_iff_pairwise
  simp only [validateLocations, Result.bind_eq_ok, require_eq_ok, exists_const, hchain,
    validateKeys_eq_ok (Nat.zero_le maximumKeyBytes)]
  constructor
  · rintro ⟨hcount, hsorted, hdescribed, -, hnodup, hsum⟩
    exact ⟨hcount, hsorted, hdescribed, hnodup, by omega⟩
  · rintro ⟨hcount, hsorted, hdescribed, hnodup, _⟩
    exact ⟨hcount, hsorted, hdescribed, fun _ _ => not_mem_nil, hnodup, by omega⟩

lemma length_of_validObjectKey {key : List UInt8} (h : validObjectKey key = true) :
    key.length ≠ 0 ∧ key.length ≤ maximumObjectKeyLength := by
  simp only [validObjectKey, Bool.and_eq_true, decide_eq_true_eq] at h
  exact ⟨fun hzero => h.1.1.1 (length_eq_zero_iff.mp hzero), h.1.1.2⟩

/-- The layout of a file. -/
def layoutOf (locationCount keysLength : ℕ) : ColdManifestLayout where
  locationsOffset := headerLength
  keysOffset := headerLength + locationCount * descriptorLength
  keysLength := keysLength
  keysEnd := headerLength + locationCount * descriptorLength + keysLength
  trailerOffset :=
    (headerLength + locationCount * descriptorLength + keysLength + 7) / alignment * alignment
  totalLength :=
    (headerLength + locationCount * descriptorLength + keysLength + 7) / alignment * alignment +
      trailerLength

lemma checkedAlignUp_eq_some {value aligned : ℕ}
    (h : checkedAlignUp value alignment = some aligned) :
    aligned = (value + 7) / alignment * alignment := by
  obtain ⟨_, hadd, rfl⟩ := Option.map_eq_some_iff.mp h
  rw [checkedAdd_eq_some hadd]
  rfl

variable {locationCount keysLength : ℕ} {layout : ColdManifestLayout}

/-- A layout inside the bounds neither overflows nor exceeds the limit of a file. -/
lemma planLayout_eq_ok :
    planLayout locationCount keysLength = .ok layout ↔
      locationCount ≤ maximumLocationCount ∧ keysLength ≤ maximumKeyBytes ∧
        layout = layoutOf locationCount keysLength := by
  simp only [planLayout, Result.bind_eq_ok, require_eq_ok, requireSome_eq_ok, exists_const,
    Except.ok.injEq]
  constructor
  · rintro ⟨⟨hcount, hkeys⟩, _, hmultiply, _, hoffset, _, hend, _, halign, _, htotal, -, rfl⟩
    obtain rfl := checkedMultiply_eq_some hmultiply
    obtain rfl := checkedAdd_eq_some hoffset
    obtain rfl := checkedAdd_eq_some hend
    obtain rfl := checkedAlignUp_eq_some halign
    obtain rfl := checkedAdd_eq_some htotal
    exact ⟨hcount, hkeys, rfl⟩
  · rintro ⟨hcount, hkeys, rfl⟩
    rw [maximumLocationCount] at hcount
    rw [maximumKeyBytes] at hkeys
    have hword : u64Max = 18446744073709551615 := rfl
    refine ⟨⟨hcount, hkeys⟩, _, checkedMultiply_of_le ?_, _, checkedAdd_of_le ?_, _,
      checkedAdd_of_le ?_, _, ?_, _, checkedAdd_of_le ?_, ?_, rfl⟩
    · rw [descriptorLength]
      omega
    · rw [headerLength, descriptorLength]
      omega
    · rw [headerLength, descriptorLength]
      omega
    · rw [checkedAlignUp, checkedAdd_of_le]
      · rfl
      · rw [headerLength, descriptorLength, alignment]
        omega
    · rw [headerLength, descriptorLength, alignment, trailerLength]
      omega
    · rw [headerLength, descriptorLength, alignment, trailerLength, maximumFileLength]
      omega

/-- How the offsets of a layout lie. -/
lemma layoutOf_bounds (hcount : locationCount ≤ maximumLocationCount)
    (hkeys : keysLength ≤ maximumKeyBytes) :
    (layoutOf locationCount keysLength).keysEnd + fileCrc32cLength ≤
        (layoutOf locationCount keysLength).totalLength ∧
      (layoutOf locationCount keysLength).totalLength ≤ maximumFileLength := by
  rw [maximumLocationCount] at hcount
  rw [maximumKeyBytes] at hkeys
  dsimp only [layoutOf]
  rw [headerLength, descriptorLength, alignment, trailerLength, maximumFileLength, fileCrc32cLength]
  omega

/-! ### Descriptors -/

/-- The bytes of the fields of a descriptor that its checksum covers. -/
def RawDescriptor.covered (raw : RawDescriptor) : List UInt8 :=
  storeBe 16 raw.partId ++ storeLe 8 raw.fileLength ++ raw.contentSha256.toList ++
    storeLe 8 raw.keyOffset ++ storeLe 4 raw.keyLength ++ storeLe 4 raw.flags ++ raw.reserved

/-- The bytes of the fields of a descriptor. -/
def RawDescriptor.bytes (raw : RawDescriptor) : List UInt8 := raw.covered ++ storeLe 4 raw.crc

/-- The fields of a descriptor have their widths. -/
@[mk_iff] structure RawDescriptor.Representable (raw : RawDescriptor) : Prop where
  partId : raw.partId < 256 ^ 16
  fileLength : raw.fileLength < 256 ^ 8
  keyOffset : raw.keyOffset < 256 ^ 8
  keyLength : raw.keyLength < 256 ^ 4
  flags : raw.flags < 256 ^ 4
  reserved : raw.reserved.length = 20
  crc : raw.crc < 256 ^ 4

lemma codes_rawDescriptor :
    Codes readRawDescriptor RawDescriptor.Representable RawDescriptor.bytes := by
  rintro bytes ⟨⟩ _
  simp only [readRawDescriptor, bind_eq_ok, readLe_eq_ok, readBe_eq_ok, readArray_eq_ok,
    readExact_eq_ok, pure_eq_ok, RawDescriptor.mk.injEq, RawDescriptor.bytes,
    RawDescriptor.covered, append_assoc, existsAndEq, and_true, true_and, and_assoc]
  rw [RawDescriptor.representable_iff]
  exact and_assoc.symm.trans and_right_comm

lemma RawDescriptor.Representable.covered_length {raw : RawDescriptor} (h : raw.Representable) :
    raw.covered.length = descriptorCrc32cOffset := by
  simp [RawDescriptor.covered, h.reserved, descriptorCrc32cOffset]

lemma decode_rawDescriptor {bytes : List UInt8} {raw : RawDescriptor}
    (hlength : bytes.length = descriptorLength) :
    readRawDescriptor.decode bytes = .ok raw ↔ raw.Representable ∧ bytes = raw.bytes := by
  refine codes_rawDescriptor.decode_of_length (fun raw hraw => ?_) hlength
  rw [RawDescriptor.bytes, length_append, hraw.covered_length, storeLe_length]
  rfl

variable {count : ℕ}

lemma isZero_iff {bytes : List UInt8} (hlength : bytes.length = count) :
    isZero bytes = true ↔ bytes = List.replicate count 0 := by
  rw [isZero, all_eq_true, eq_replicate_iff]
  simp [hlength]

lemma identifierOf_eq_some {value : Uuid} {identifier : Identifier} :
    identifierOf value = some identifier ↔ value = identifier.val := by
  rw [identifierOf]
  constructor
  · intro h
    split at h
    · rw [← Option.some.inj h]
    · cases h
  · rintro rfl
    exact dif_pos identifier.2

/-- The widths and bounds of a location that its descriptor is tested for. -/
structure ColdPartLocationDescriptor.Coded (location : ColdPartLocationDescriptor) : Prop where
  partId : location.partId.val < 256 ^ 16
  fileLength : location.fileLength < 256 ^ 8
  fileLength_ne : location.fileLength ≠ 0
  key_ne : location.objectKey.length ≠ 0
  key_le : location.objectKey.length ≤ maximumObjectKeyLength

lemma ColdPartLocationDescriptor.covered_length (location : ColdPartLocationDescriptor)
    (keyOffset : ℕ) : (location.covered keyOffset).length = descriptorCrc32cOffset := by
  simp [covered, descriptorCrc32cOffset]

lemma ColdPartLocationDescriptor.bytes_length (location : ColdPartLocationDescriptor)
    (keyOffset : ℕ) : (location.bytes keyOffset).length = descriptorLength := by
  rw [bytes, sealTrailer_length, location.covered_length]
  rfl

/-- The fields of a location that the tests let through. -/
def ColdPartLocationDescriptor.raw (location : ColdPartLocationDescriptor) (keyOffset : ℕ) :
    RawDescriptor where
  partId := location.partId.val
  fileLength := location.fileLength
  contentSha256 := location.contentSha256
  keyOffset := keyOffset
  keyLength := location.objectKey.length
  flags := 0
  reserved := List.replicate 20 0
  crc := crc32c (location.covered keyOffset)

variable {location : ColdPartLocationDescriptor}

lemma ColdPartLocationDescriptor.Coded.representable (h : location.Coded) {keyOffset : ℕ}
    (hoffset : keyOffset ≤ maximumKeyBytes) :
    (location.raw keyOffset).Representable where
  __ := h
  keyOffset := hoffset.trans_lt (by decide)
  keyLength := h.key_le.trans_lt (by decide)
  flags := show 0 < 256 ^ 4 by decide
  reserved := length_replicate
  crc := crc32c_lt _

variable {keys : List UInt8} {expected : ℕ}

/-- A descriptor is accepted exactly if it is the one of its location at the expected offset. -/
lemma decodeDescriptor_eq_ok {descriptor : List UInt8}
    (hdescriptor : descriptor.length = descriptorLength) (hkeys : keysLength ≤ keys.length)
    (hbound : keysLength ≤ maximumKeyBytes) :
    decodeDescriptor keys keysLength expected descriptor = .ok location ↔
      location.Coded ∧ expected + location.objectKey.length ≤ keysLength ∧
        descriptor = location.bytes expected ∧
        (keys.drop expected).take location.objectKey.length = location.objectKey := by
  simp only [decodeDescriptor, except_bind_eq_ok, decode_rawDescriptor hdescriptor, require_eq_ok,
    requireSome_eq_ok, identifierOf_eq_some, exists_const, Except.ok.injEq]
  constructor
  · rintro ⟨⟨partId, fileLength, contentSha256, keyOffset, keyLength, _, reserved, crc⟩,
      ⟨hwidths, hbytes⟩, hcrc, rfl, hzero, identifier, rfl,
      ⟨hfile, rfl, hkey, hkeyLe, hstart, hfits⟩, rfl⟩
    dsimp only at hkey hkeyLe hstart hfits hzero hcrc
    obtain rfl := (isZero_iff hwidths.reserved).mp hzero
    have hlength : ((keys.drop keyOffset).take keyLength).length = keyLength := by
      rw [length_take, length_drop]
      omega
    dsimp only
    rw [hlength]
    refine ⟨⟨hwidths.partId, hwidths.fileLength, hfile, hlength.symm ▸ hkey, hlength.symm ▸ hkeyLe⟩,
      by omega, ?_, rfl⟩
    have hfields : RawDescriptor.covered ⟨identifier.val, fileLength, contentSha256, keyOffset,
        ((keys.drop keyOffset).take keyLength).length, 0, List.replicate 20 0, crc⟩ =
        covered ⟨identifier, fileLength, contentSha256,
          (keys.drop keyOffset).take keyLength⟩ keyOffset := rfl
    rw [hlength] at hfields
    rw [RawDescriptor.bytes, hfields] at hbytes
    rw [hbytes, take_left' (covered_length _ _)] at hcrc
    rw [bytes, sealTrailer, hcrc, ← hbytes]
  · rintro ⟨hcoded, _, rfl, hkey⟩
    have hstart : expected ≤ keysLength := by omega
    refine ⟨location.raw expected, ⟨hcoded.representable (hstart.trans hbound), rfl⟩, ?_, rfl,
      (isZero_iff length_replicate).mpr rfl, location.partId, rfl,
      ⟨hcoded.fileLength_ne, rfl, hcoded.key_ne, hcoded.key_le, hstart, ?_⟩, ?_⟩
    · rw [bytes, sealTrailer, take_left' (location.covered_length expected)]
      rfl
    · dsimp only [raw]
      omega
    · dsimp only [raw]
      rw [hkey]

lemma descriptorTable_length (keyOffset : ℕ) (locations : List ColdPartLocationDescriptor) :
    (descriptorTable keyOffset locations).length = locations.length * descriptorLength := by
  induction locations generalizing keyOffset with
  | nil => rw [descriptorTable, length_nil, length_nil, Nat.zero_mul]
  | cons location locations ih =>
    rw [descriptorTable, length_append, location.bytes_length, ih, length_cons,
      Nat.succ_mul, Nat.add_comm]

/-- The table is accepted exactly if it is the one of the locations, and the keys are theirs. -/
lemma decodeDescriptors_eq_ok {table : List UInt8}
    (htable : count * descriptorLength ≤ table.length) (hkeys : keysLength ≤ keys.length)
    (hbound : keysLength ≤ maximumKeyBytes) :
    decodeDescriptors keys keysLength count table expected = .ok (locations, keysLength) ↔
      locations.length = count ∧ (∀ location ∈ locations, location.Coded) ∧
        expected + keyBytes locations = keysLength ∧
        table.take (count * descriptorLength) = descriptorTable expected locations ∧
        (keys.drop expected).take (keyBytes locations) = locations.flatMap (·.objectKey) := by
  induction count generalizing table expected locations with
  | zero =>
    rw [decodeDescriptors, Except.ok.injEq, Prod.mk.injEq, length_eq_zero_iff, Nat.zero_mul]
    constructor
    · rintro ⟨rfl, rfl⟩
      exact ⟨rfl, nofun, rfl, rfl, rfl⟩
    · rintro ⟨rfl, -, rfl, -⟩
      exact ⟨rfl, rfl⟩
  | succ count ih =>
    rw [Nat.succ_mul] at htable
    have hfirst : (table.take descriptorLength).length = descriptorLength := by
      rw [length_take]
      omega
    have hrest : count * descriptorLength ≤ (table.drop descriptorLength).length := by
      rw [length_drop]
      omega
    simp only [decodeDescriptors, except_bind_eq_ok, decodeDescriptor_eq_ok hfirst hkeys hbound,
      Prod.exists, Except.ok.injEq, Prod.mk.injEq]
    constructor
    · rintro ⟨location, ⟨hcoded, -, hbytes, hkey⟩, others, _, hothers, rfl, rfl⟩
      obtain ⟨rfl, hothersCoded, hsum, htail, hflat⟩ := (ih hrest).mp hothers
      refine ⟨rfl, forall_mem_cons.mpr ⟨hcoded, hothersCoded⟩, ?_, ?_, ?_⟩
      · rw [keyBytes_cons]
        omega
      · rw [Nat.succ_mul, Nat.add_comm, take_add, hbytes, htail, descriptorTable]
      · rw [keyBytes_cons, take_add, drop_drop, hkey, hflat, flatMap_cons]
    · rintro ⟨hlength, hcoded, hsum, htake, hflat⟩
      obtain ⟨location, others, rfl⟩ := exists_cons_of_length_eq_add_one hlength
      obtain ⟨hlocation, hothers⟩ := forall_mem_cons.mp hcoded
      rw [keyBytes_cons] at hsum hflat
      rw [Nat.succ_mul, Nat.add_comm, take_add, descriptorTable] at htake
      obtain ⟨hbytes, htail⟩ :=
        append_inj htake (hfirst.trans (location.bytes_length expected).symm)
      rw [take_add, drop_drop, flatMap_cons] at hflat
      have hkeyLength : ((keys.drop expected).take location.objectKey.length).length =
          location.objectKey.length := by
        rw [length_take, length_drop]
        omega
      obtain ⟨hkey, hkeysRest⟩ := append_inj hflat hkeyLength
      refine ⟨location, ⟨hlocation, by omega, hbytes, hkey⟩, others, keysLength, ?_, rfl, rfl⟩
      exact (ih hrest).mpr ⟨Nat.succ.inj hlength, hothers, by omega, htail, hkeysRest⟩

/-! ### The header -/

/-- The bytes of the fields of a header that its checksum covers. -/
def RawColdHeader.covered (raw : RawColdHeader) : List UInt8 :=
  raw.magic ++ storeLe 2 raw.major ++ storeLe 2 raw.minor ++ storeLe 4 raw.headerLength ++
    storeLe 4 raw.flags ++ storeLe 4 raw.reserved0 ++ storeLe 8 raw.totalLength ++
    storeLe 8 raw.generation ++ storeLe 8 raw.previous ++ storeLe 8 raw.baseGeneration ++
    storeBe 16 raw.databaseId ++ storeBe 16 raw.objectStoreId ++ storeLe 8 raw.locationCount ++
    storeLe 8 raw.locationsOffset ++ storeLe 8 raw.keysOffset ++ storeLe 8 raw.keysLength ++
    storeLe 8 raw.trailerOffset ++ raw.reserved1

/-- The bytes of the fields of a header. -/
def RawColdHeader.bytes (raw : RawColdHeader) : List UInt8 :=
  raw.covered ++ storeLe 4 raw.headerCrc ++ storeLe 4 raw.reserved2

/-- The fields of a header have their widths. -/
@[mk_iff] structure RawColdHeader.Representable (raw : RawColdHeader) : Prop where
  magic : raw.magic.length = 8
  major : raw.major < 256 ^ 2
  minor : raw.minor < 256 ^ 2
  headerLength : raw.headerLength < 256 ^ 4
  flags : raw.flags < 256 ^ 4
  reserved0 : raw.reserved0 < 256 ^ 4
  totalLength : raw.totalLength < 256 ^ 8
  generation : raw.generation < 256 ^ 8
  previous : raw.previous < 256 ^ 8
  baseGeneration : raw.baseGeneration < 256 ^ 8
  databaseId : raw.databaseId < 256 ^ 16
  objectStoreId : raw.objectStoreId < 256 ^ 16
  locationCount : raw.locationCount < 256 ^ 8
  locationsOffset : raw.locationsOffset < 256 ^ 8
  keysOffset : raw.keysOffset < 256 ^ 8
  keysLength : raw.keysLength < 256 ^ 8
  trailerOffset : raw.trailerOffset < 256 ^ 8
  reserved1 : raw.reserved1.length = 120
  headerCrc : raw.headerCrc < 256 ^ 4
  reserved2 : raw.reserved2 < 256 ^ 4

lemma codes_rawColdHeader :
    Codes readRawColdHeader RawColdHeader.Representable RawColdHeader.bytes := by
  rintro bytes ⟨⟩ _
  simp only [readRawColdHeader, bind_eq_ok, readLe_eq_ok, readBe_eq_ok, readExact_eq_ok, pure_eq_ok,
    RawColdHeader.mk.injEq, RawColdHeader.bytes, RawColdHeader.covered, append_assoc,
    existsAndEq, and_true, true_and, and_assoc]
  rw [RawColdHeader.representable_iff]
  exact and_assoc.symm.trans and_right_comm

variable {raw : RawColdHeader}

lemma RawColdHeader.Representable.covered_length (h : raw.Representable) :
    raw.covered.length = headerCrc32cOffset := by
  simp [RawColdHeader.covered, h.magic, h.reserved1, headerCrc32cOffset]

lemma RawColdHeader.Representable.bytes_length (h : raw.Representable) :
    raw.bytes.length = Tiering.headerLength := by
  rw [RawColdHeader.bytes, length_append, length_append, h.covered_length,
    storeLe_length, storeLe_length]
  rfl

lemma decode_rawColdHeader {bytes : List UInt8} (hlength : bytes.length = headerLength) :
    readRawColdHeader.decode bytes = .ok raw ↔ raw.Representable ∧ bytes = raw.bytes :=
  codes_rawColdHeader.decode_of_length (fun _ hraw => hraw.bytes_length) hlength

/-- The headers that pass the tests: everything but the authority, the identities and the two
counts is forced. -/
structure RawColdHeader.Accepted (raw : RawColdHeader) : Prop where
  widths : raw.Representable
  magic : raw.magic = coldManifestMagic
  headerCrc : raw.headerCrc = crc32c raw.covered
  version : raw.major = formatMajor ∧ raw.minor = formatMinor
  flags : raw.flags = 0
  fixed : raw.headerLength = Tiering.headerLength ∧ raw.reserved0 = 0 ∧
    raw.reserved1 = List.replicate 120 0 ∧ raw.reserved2 = 0
  authority : raw.generation ≠ 0 ∧
    raw.previous = (if raw.generation = 1 then 0 else raw.generation - 1) ∧ raw.baseGeneration ≠ 0
  counts : raw.locationCount ≤ maximumLocationCount ∧ raw.keysLength ≤ maximumKeyBytes
  offsets : raw.totalLength = (layoutOf raw.locationCount raw.keysLength).totalLength ∧
    raw.locationsOffset = Tiering.headerLength ∧
    raw.keysOffset = (layoutOf raw.locationCount raw.keysLength).keysOffset ∧
    raw.trailerOffset = (layoutOf raw.locationCount raw.keysLength).trailerOffset

/-- A header is accepted exactly if it is the header of its fields. -/
lemma decodeHeader_eq_ok {bytes : List UInt8} :
    decodeHeader bytes = .ok (raw, layout) ↔
      raw.Accepted ∧ layout = layoutOf raw.locationCount raw.keysLength ∧
        ∃ rest, bytes = raw.bytes ++ rest := by
  simp only [decodeHeader, except_bind_eq_ok, require_eq_ok, mapError_eq_ok, planLayout_eq_ok,
    exists_const, Except.ok.injEq, Prod.mk.injEq]
  constructor
  · rintro ⟨-, hmagic, hlength, raw', hraw, hcrc, -, hversion, hflags,
      ⟨hheader, hreserved0, hreserved1, hreserved2⟩, ⟨hgeneration, hprevious, hbase, hcount, hkeys⟩,
      _, ⟨-, -, rfl⟩, hoffsets, rfl, rfl⟩
    obtain ⟨hwidths, hbytes⟩ := (decode_rawColdHeader (length_take_of_le hlength)).mp hraw
    rw [hbytes, RawColdHeader.bytes, append_assoc, take_left' hwidths.covered_length]
      at hcrc
    have hmagic' : (bytes.take headerLength).take coldManifestMagic.length = coldManifestMagic := by
      rw [take_take]
      exact hmagic
    rw [hbytes, RawColdHeader.bytes, RawColdHeader.covered] at hmagic'
    simp only [append_assoc] at hmagic'
    rw [take_left' (show raw'.magic.length = coldManifestMagic.length from hwidths.magic)]
      at hmagic'
    refine ⟨⟨hwidths, hmagic', hcrc.symm, hversion, hflags, ⟨hheader, hreserved0,
      (isZero_iff hwidths.reserved1).mp hreserved1, hreserved2⟩, ⟨hgeneration, hprevious, hbase⟩,
      ⟨hcount, hkeys⟩, hoffsets⟩, rfl, bytes.drop headerLength, ?_⟩
    rw [← hbytes, take_append_drop]
  · rintro ⟨haccepted, rfl, rest, hbytes⟩
    rw [hbytes]
    have hlength := haccepted.widths.bytes_length
    have htake : (raw.bytes ++ rest).take headerLength = raw.bytes := take_left' hlength
    obtain ⟨hheader, hreserved0, hreserved1, hreserved2⟩ := haccepted.fixed
    obtain ⟨hgeneration, hprevious, hbase⟩ := haccepted.authority
    have hmagic : (raw.bytes ++ rest).take coldManifestMagic.length = coldManifestMagic := by
      rw [RawColdHeader.bytes, RawColdHeader.covered]
      simp only [append_assoc]
      rw [haccepted.magic, take_left]
    have hle : headerLength ≤ (raw.bytes ++ rest).length := by
      rw [length_append]
      omega
    have hmajor : raw.major ≠ 0 := haccepted.version.1 ▸ by decide
    refine ⟨le_trans (by decide) hle, hmagic, hle, raw, ?_, ?_, hmajor, haccepted.version,
      haccepted.flags, ⟨hheader, hreserved0, ?_, hreserved2⟩,
      ⟨hgeneration, hprevious, hbase, haccepted.counts⟩, _, ⟨haccepted.counts.1,
      haccepted.counts.2, rfl⟩, haccepted.offsets, rfl, rfl⟩
    · rw [htake]
      exact (decode_rawColdHeader hlength).mpr ⟨haccepted.widths, rfl⟩
    · rw [htake, RawColdHeader.bytes, append_assoc,
        take_left' haccepted.widths.covered_length, haccepted.headerCrc]
    · exact (isZero_iff haccepted.widths.reserved1).mpr hreserved1

end Chronos.Tiering
