import Chronos.Tiering.ColdManifestFields

/-!
The format of a cold-location Manifest and the chain of its generations.

* `Sliced`, `sliced_iff`: a file is that of a model exactly if its slices are.
* `stored_of_decode`, `decode_of_stored`: a file is accepted exactly if it is the file of its model.
* `Follows`: a chain of generations, each accepted after the one before.
-/

namespace Chronos.Tiering

open List ColdLocationManifestEncodeInput

open Manifest (PartId)
open Reader

/-! ### The file -/

namespace ColdLocationManifestEncodeInput

/-- The numbers of a model have the widths of their types. -/
structure Representable (input : ColdLocationManifestEncodeInput) : Prop where
  generation : input.generation < 256 ^ 8
  baseGeneration : input.baseManifestGeneration < 256 ^ 8
  databaseId : input.databaseId.val < 256 ^ 16
  objectStoreId : input.objectStoreId < 256 ^ 16
  locations : ∀ location ∈ input.locations,
    location.partId.val < 256 ^ 16 ∧ location.fileLength < 256 ^ 8

/-- The models that the encoder's tests let through. -/
structure Accepted (input : ColdLocationManifestEncodeInput) : Prop where
  generation : input.generation ≠ 0
  baseGeneration : input.baseManifestGeneration ≠ 0
  objectStoreId : input.objectStoreId ≠ 0
  located : Located input.locations

/-- The layout of the file of a model. -/
def layout (input : ColdLocationManifestEncodeInput) : ColdManifestLayout :=
  layoutOf input.locations.length (keyBytes input.locations)

/-- The fields of the header of a model. -/
def raw (input : ColdLocationManifestEncodeInput) : RawColdHeader where
  magic := coldManifestMagic
  major := formatMajor
  minor := formatMinor
  headerLength := Tiering.headerLength
  flags := 0
  reserved0 := 0
  totalLength := input.layout.totalLength
  generation := input.generation
  previous := if input.generation = 1 then 0 else input.generation - 1
  baseGeneration := input.baseManifestGeneration
  databaseId := input.databaseId.val
  objectStoreId := input.objectStoreId
  locationCount := input.locations.length
  locationsOffset := input.layout.locationsOffset
  keysOffset := input.layout.keysOffset
  keysLength := input.layout.keysLength
  trailerOffset := input.layout.trailerOffset
  reserved1 := List.replicate 120 0
  headerCrc := crc32c (input.covered input.layout)
  reserved2 := 0

variable {input : ColdLocationManifestEncodeInput}

lemma raw_accepted (hwidths : input.Representable) (haccepted : input.Accepted) :
    input.raw.Accepted := by
  have hcount := haccepted.located.count
  have hkeys := haccepted.located.keyBytes_le
  have hoffsets : input.layout.keysOffset ≤ input.layout.totalLength ∧
      input.layout.trailerOffset ≤ input.layout.totalLength := by
    dsimp only [layout, layoutOf]
    rw [alignment]
    omega
  have htotal : input.layout.totalLength < 256 ^ 8 :=
    (layoutOf_bounds hcount hkeys).2.trans_lt (by decide)
  constructor
  · constructor
    · rfl
    · exact show formatMajor < 256 ^ 2 by decide
    · exact show formatMinor < 256 ^ 2 by decide
    · exact show headerLength < 256 ^ 4 by decide
    · exact show 0 < 256 ^ 4 by decide
    · exact show 0 < 256 ^ 4 by decide
    · exact htotal
    · exact hwidths.generation
    · have := hwidths.generation
      dsimp only [raw]
      split_ifs <;> omega
    · exact hwidths.baseGeneration
    · exact hwidths.databaseId
    · exact hwidths.objectStoreId
    · exact hcount.trans_lt (by decide)
    · exact show headerLength < 256 ^ 8 by decide
    · exact hoffsets.1.trans_lt htotal
    · exact hkeys.trans_lt (by decide)
    · exact hoffsets.2.trans_lt htotal
    · exact length_replicate
    · exact crc32c_lt _
    · exact show 0 < 256 ^ 4 by decide
  · rfl
  · rfl
  · exact ⟨rfl, rfl⟩
  · rfl
  · exact ⟨rfl, rfl, rfl, rfl⟩
  · exact ⟨haccepted.generation, rfl, haccepted.baseGeneration⟩
  · exact ⟨hcount, hkeys⟩
  · exact ⟨rfl, rfl, rfl, rfl⟩

lemma covered_length (layout : ColdManifestLayout) :
    (input.covered layout).length = headerCrc32cOffset := by
  simp [covered, coldManifestMagic, headerCrc32cOffset]

lemma header_length (layout : ColdManifestLayout) :
    (input.header layout).length = headerLength := by
  rw [header, length_append, length_append, covered_length, storeLe_length]
  rfl

lemma body_length (haccepted : input.Accepted) :
    (input.body input.layout).length = input.layout.totalLength - fileCrc32cLength := by
  have hbounds := (layoutOf_bounds haccepted.located.count haccepted.located.keyBytes_le).1
  have hend : input.layout.keysEnd =
      headerLength + input.locations.length * descriptorLength + keyBytes input.locations := rfl
  change input.layout.keysEnd + fileCrc32cLength ≤ input.layout.totalLength at hbounds
  rw [body, length_append, length_append, length_append, header_length,
    descriptorTable_length, length_flatMap_objectKey, length_replicate]
  omega

lemma bytes_length (haccepted : input.Accepted) :
    (input.bytes input.layout).length = input.layout.totalLength := by
  have hbounds := (layoutOf_bounds haccepted.located.count haccepted.located.keyBytes_le).1
  change input.layout.keysEnd + fileCrc32cLength ≤ input.layout.totalLength at hbounds
  rw [bytes, sealTrailer_length, body_length haccepted]
  rw [fileCrc32cLength] at hbounds ⊢
  omega

end ColdLocationManifestEncodeInput

/-- A model is written exactly if it is accepted. -/
lemma encodeColdLocationManifest_eq_ok {input : ColdLocationManifestEncodeInput}
    {bytes : List UInt8} :
    encodeColdLocationManifest input = .ok bytes ↔
      input.Accepted ∧ bytes = input.bytes input.layout := by
  simp only [encodeColdLocationManifest, Result.bind_eq_ok, require_eq_ok, planLayout_eq_ok,
    exists_const, Except.ok.injEq]
  constructor
  · rintro ⟨⟨hgeneration, hbase, hstore⟩, _, hlocations, _, ⟨-, -, rfl⟩, hbytes⟩
    exact ⟨⟨hgeneration, hbase, hstore, validateLocations_eq_ok.mp hlocations⟩, hbytes.symm⟩
  · rintro ⟨⟨hgeneration, hbase, hstore, hlocated⟩, hbytes⟩
    exact ⟨⟨hgeneration, hbase, hstore⟩, (), validateLocations_eq_ok.mpr hlocated, _,
      ⟨hlocated.count, hlocated.keyBytes_le, rfl⟩, hbytes.symm⟩

/-- The model of a decoded Manifest. -/
def DecodedColdLocationManifest.input (decoded : DecodedColdLocationManifest) :
    ColdLocationManifestEncodeInput where
  generation := decoded.generation
  baseManifestGeneration := decoded.baseManifestGeneration
  databaseId := decoded.databaseId
  objectStoreId := decoded.objectStoreId
  locations := decoded.locations

/-- The limits that a decoder may have. -/
structure ColdLocationManifestDecodeLimits.Valid (limits : ColdLocationManifestDecodeLimits) :
    Prop where
  file_ne : limits.maximumFileLength ≠ 0
  file_le : limits.maximumFileLength ≤ Tiering.maximumFileLength
  locations_le : limits.maximumLocations ≤ maximumLocationCount
  keyBytes_le : limits.maximumKeyBytes ≤ Tiering.maximumKeyBytes

/-- A model is inside the limits of a decoder. -/
structure ColdLocationManifestDecodeLimits.Admits (limits : ColdLocationManifestDecodeLimits)
    (input : ColdLocationManifestEncodeInput) : Prop where
  file : input.layout.totalLength ≤ limits.maximumFileLength
  locations : input.locations.length ≤ limits.maximumLocations
  keyBytes : Tiering.keyBytes input.locations ≤ limits.maximumKeyBytes

/-- What a decoder with given limits may return. -/
structure DecodedColdLocationManifest.Stored (decoded : DecodedColdLocationManifest)
    (limits : ColdLocationManifestDecodeLimits) : Prop where
  bounds : limits.Valid
  widths : decoded.input.Representable
  accepted : decoded.input.Accepted
  previous : decoded.previousGeneration =
    if decoded.generation = 1 then 0 else decoded.generation - 1
  size : decoded.encodedSize = decoded.input.layout.totalLength
  admitted : limits.Admits decoded.input

/-- An accepted header is the one of the model with its authority, identities and counts. -/
lemma RawColdHeader.Accepted.bytes_eq {raw : RawColdHeader} (h : raw.Accepted)
    {input : ColdLocationManifestEncodeInput} (hgeneration : raw.generation = input.generation)
    (hbase : raw.baseGeneration = input.baseManifestGeneration)
    (hdatabase : raw.databaseId = input.databaseId.val)
    (hstore : raw.objectStoreId = input.objectStoreId)
    (hcount : raw.locationCount = input.locations.length)
    (hkeys : raw.keysLength = keyBytes input.locations) :
    raw.bytes = input.header input.layout := by
  obtain ⟨hmajor, hminor⟩ := h.version
  obtain ⟨hheader, hreserved0, hreserved1, hreserved2⟩ := h.fixed
  obtain ⟨-, hprevious, -⟩ := h.authority
  obtain ⟨htotal, hlocations, hkeysOffset, htrailer⟩ := h.offsets
  rw [hcount, hkeys] at htotal hkeysOffset htrailer
  rw [hgeneration] at hprevious
  have hcovered : raw.covered = input.covered input.layout := by
    rw [RawColdHeader.covered, h.magic, hmajor, hminor, hheader, h.flags, hreserved0, htotal,
      hgeneration, hprevious, hbase, hdatabase, hstore, hcount, hlocations, hkeysOffset, hkeys,
      htrailer, hreserved1]
    rfl
  rw [RawColdHeader.bytes, h.headerCrc, hreserved2, hcovered]
  rfl

/-- The slices of a file are those of a model, and its checksum is right. -/
structure Sliced (file : List UInt8) (input : ColdLocationManifestEncodeInput) : Prop where
  length : file.length = input.layout.totalLength
  header : file.take headerLength = input.header input.layout
  table : (file.drop headerLength).take (input.locations.length * descriptorLength) =
    descriptorTable 0 input.locations
  keys : (file.drop input.layout.keysOffset).take (keyBytes input.locations) =
    input.locations.flatMap (·.objectKey)
  zeros : (file.drop input.layout.keysEnd).take
      (input.layout.totalLength - fileCrc32cLength - input.layout.keysEnd) =
    List.replicate (input.layout.totalLength - fileCrc32cLength - input.layout.keysEnd) 0
  crc : crc32c (file.take (input.layout.totalLength - fileCrc32cLength)) =
    loadLe file (input.layout.totalLength - fileCrc32cLength) 4

/-- A byte string of four parts of known lengths: its slices. -/
lemma slices_append {first second third fourth : List UInt8} (rest : List UInt8) {a b c d : ℕ}
    (hfirst : first.length = a) (hsecond : second.length = b) (hthird : third.length = c)
    (hfourth : fourth.length = d) :
    (first ++ second ++ third ++ fourth ++ rest).take a = first ∧
      ((first ++ second ++ third ++ fourth ++ rest).drop a).take b = second ∧
      ((first ++ second ++ third ++ fourth ++ rest).drop (a + b)).take c = third ∧
      ((first ++ second ++ third ++ fourth ++ rest).drop (a + b + c)).take d = fourth := by
  subst hfirst hsecond hthird hfourth
  refine ⟨?_, ?_, ?_, ?_⟩
  · simp only [append_assoc, take_left]
  · simp only [append_assoc, drop_left, take_left]
  · rw [← length_append]
    simp only [append_assoc]
    rw [← append_assoc, drop_left, take_left]
  · rw [← length_append, ← length_append, append_assoc (first ++ second ++ third),
      drop_left, take_left]

/-- The slices of a byte string are its parts. -/
lemma take_add_three {file : List UInt8} (a b c d : ℕ) :
    file.take (a + b + c + d) = file.take a ++ (file.drop a).take b ++
      (file.drop (a + b)).take c ++ (file.drop (a + b + c)).take d := by
  rw [take_add, take_add, take_add]

lemma sliced_iff {file : List UInt8} {input : ColdLocationManifestEncodeInput}
    (haccepted : input.Accepted) : Sliced file input ↔ file = input.bytes input.layout := by
  have hbounds := (layoutOf_bounds haccepted.located.count haccepted.located.keyBytes_le).1
  have hend : input.layout.keysEnd =
      headerLength + input.locations.length * descriptorLength + keyBytes input.locations := rfl
  have hoffset : input.layout.totalLength - fileCrc32cLength =
      headerLength + input.locations.length * descriptorLength + keyBytes input.locations +
        (input.layout.totalLength - fileCrc32cLength - input.layout.keysEnd) := by
    change input.layout.keysEnd + fileCrc32cLength ≤ input.layout.totalLength at hbounds
    omega
  constructor
  · rintro ⟨hlength, hheader, htable, hkeys, hzeros, hcrc⟩
    have hbody : file.take (input.layout.totalLength - fileCrc32cLength) =
        input.body input.layout := by
      rw [hoffset, take_add_three, hheader, htable, ← hend, hzeros]
      exact congrArg (fun keys => input.header input.layout ++
        descriptorTable 0 input.locations ++ keys ++ List.replicate _ 0) hkeys
    rw [bytes, ← hbody]
    refine eq_sealTrailer_take ?_ hcrc
    change input.layout.keysEnd + fileCrc32cLength ≤ input.layout.totalLength at hbounds
    rw [hlength]
    rw [fileCrc32cLength] at hbounds ⊢
    omega
  · intro hfile
    rw [hfile]
    have hbody := body_length haccepted
    obtain ⟨hheader, htable, hkeys, hzeros⟩ := slices_append
      (storeLe 4 (crc32c (input.body input.layout)))
      (input.header_length input.layout) (descriptorTable_length 0 input.locations)
      (length_flatMap_objectKey input.locations)
      (length_replicate (n := input.layout.totalLength - fileCrc32cLength -
        input.layout.keysEnd) (a := (0 : UInt8)))
    refine ⟨bytes_length haccepted, hheader, htable, hkeys, hzeros, ?_⟩
    rw [bytes, sealTrailer, take_left' hbody, loadLe, drop_left' hbody,
      take_of_length_le (storeLe_length _ _).le, ofLe_storeLe (crc32c_lt _)]

section

variable {limits : ColdLocationManifestDecodeLimits} {decoded : DecodedColdLocationManifest}

/-- A file that is accepted is the file of its model. -/
lemma stored_of_decode {bytes : List UInt8}
    (hdecode : decodeColdLocationManifestPrefix bytes limits = .ok decoded) :
    decoded.Stored limits ∧
      ∃ rest, bytes = decoded.input.bytes decoded.input.layout ++ rest := by
  simp only [decodeColdLocationManifestPrefix, except_bind_eq_ok, require_eq_ok, Prod.exists,
    decodeHeader_eq_ok, requireSome_eq_ok, identifierOf_eq_some, exists_const] at hdecode
  obtain ⟨hlimits, raw, layout, ⟨hraw, rfl, rest, hbytes⟩, ⟨hfile, hcount, hkeys⟩, hlength,
    ⟨hzero, hcrc⟩, databaseId, hdatabase, hstore, locations, keyOffset, hloop, hfinal⟩ := hdecode
  split at hfinal
  · next hvalid =>
    obtain ⟨hcountMax, hkeysMax⟩ := hraw.counts
    obtain ⟨hend, -⟩ := layoutOf_bounds hcountMax hkeysMax
    have hfileLength := length_take_of_le hlength
    have hkeysEnd : (layoutOf raw.locationCount raw.keysLength).keysEnd =
        headerLength + raw.locationCount * descriptorLength + raw.keysLength := rfl
    have hkeysOffset : (layoutOf raw.locationCount raw.keysLength).keysOffset =
        headerLength + raw.locationCount * descriptorLength := rfl
    have htableLength : raw.locationCount * descriptorLength ≤
        ((bytes.take (layoutOf raw.locationCount raw.keysLength).totalLength).drop
          headerLength).length := by
      rw [length_drop, hfileLength]
      omega
    have hkeysLength : raw.keysLength ≤
        ((bytes.take (layoutOf raw.locationCount raw.keysLength).totalLength).drop
          (layoutOf raw.locationCount raw.keysLength).keysOffset).length := by
      rw [length_drop, hfileLength]
      omega
    obtain ⟨hlocations, hcoded, hsum, htable, hflat⟩ :=
      (decodeDescriptors_eq_ok htableLength hkeysLength hkeysMax).mp (hvalid.1 ▸ hloop)
    rw [Nat.zero_add] at hsum
    obtain rfl := Except.ok.inj hfinal
    generalize hdecoded : DecodedColdLocationManifest.mk raw.generation raw.previous
      raw.baseGeneration databaseId raw.objectStoreId locations
      (layoutOf raw.locationCount raw.keysLength).totalLength hvalid.2 = decoded
    have hinput : decoded.input = ⟨raw.generation, raw.baseGeneration, databaseId,
        raw.objectStoreId, locations⟩ := by rw [← hdecoded]; rfl
    have hlayout : decoded.input.layout = layoutOf raw.locationCount raw.keysLength := by
      rw [hinput, layout, hlocations, hsum]
    have haccepted : decoded.input.Accepted := by
      rw [hinput]
      exact ⟨hraw.authority.1, hraw.authority.2.2, hstore, validateLocations_eq_ok.mp hvalid.2⟩
    have hheader : raw.bytes = decoded.input.header decoded.input.layout := by
      refine hraw.bytes_eq ?_ ?_ ?_ ?_ ?_ ?_ <;> rw [hinput]
      exacts [hdatabase, hlocations.symm, hsum.symm]
    have hsliced : Sliced (bytes.take (layoutOf raw.locationCount raw.keysLength).totalLength)
        decoded.input := by
      constructor
      · rw [hlayout, hfileLength]
      · rw [take_take, min_eq_left (by omega), hbytes, take_left' hraw.widths.bytes_length, hheader]
      · rw [hinput, ← htable, hlocations]
      · rw [hlayout, hinput, ← hflat]
        rfl
      · rw [hlayout]
        refine (isZero_iff ?_).mp hzero
        rw [length_take, length_drop, hfileLength]
        omega
      · rw [hlayout]
        exact hcrc
    refine ⟨⟨⟨hlimits.1, hlimits.2.1, hlimits.2.2.1, hlimits.2.2.2⟩, ?_, haccepted, ?_, ?_, ?_⟩,
      bytes.drop (layoutOf raw.locationCount raw.keysLength).totalLength, ?_⟩
    · rw [hinput]
      refine ⟨hraw.widths.generation, hraw.widths.baseGeneration, ?_, hraw.widths.objectStoreId,
        fun location hlocation => ?_⟩
      · exact hdatabase ▸ hraw.widths.databaseId
      · exact ⟨(hcoded location hlocation).partId, (hcoded location hlocation).fileLength⟩
    · rw [← hdecoded]
      exact hraw.authority.2.1
    · rw [hlayout, ← hdecoded]
    · refine ⟨?_, ?_, ?_⟩
      · rw [hlayout]
        exact hfile
      · rw [hinput]
        exact hlocations.le.trans hcount
      · rw [hinput]
        exact hsum.le.trans hkeys
    · rw [← (sliced_iff haccepted).mp hsliced, take_append_drop]
  · cases hfinal

/-- The file of a model is accepted. -/
lemma decode_of_stored {bytes rest : List UInt8} (hstored : decoded.Stored limits)
    (hbytes : bytes = decoded.input.bytes decoded.input.layout ++ rest) :
    decodeColdLocationManifestPrefix bytes limits = .ok decoded := by
  simp only [decodeColdLocationManifestPrefix, except_bind_eq_ok, require_eq_ok, Prod.exists,
    decodeHeader_eq_ok, requireSome_eq_ok, identifierOf_eq_some, exists_const]
  have haccepted := hstored.accepted
  have hraw := raw_accepted hstored.widths haccepted
  have hheader : decoded.input.raw.bytes = decoded.input.header decoded.input.layout := rfl
  have htake : bytes.take decoded.input.layout.totalLength =
      decoded.input.bytes decoded.input.layout := by
    rw [hbytes, take_left' (bytes_length haccepted)]
  obtain ⟨hlength, hfirst, htable, hkeys, hzeros, hcrc⟩ := (sliced_iff haccepted).mpr htake
  have hcomplete : decoded.input.layout.totalLength ≤ bytes.length := by
    rw [← hlength]
    exact length_take_le' _ _
  obtain ⟨hend, -⟩ := layoutOf_bounds haccepted.located.count haccepted.located.keyBytes_le
  change decoded.input.layout.keysEnd + fileCrc32cLength ≤ decoded.input.layout.totalLength
    at hend
  have hkeysEnd : decoded.input.layout.keysEnd = headerLength +
      decoded.locations.length * descriptorLength + keyBytes decoded.locations := rfl
  have hkeysOffset : decoded.input.layout.keysOffset =
      headerLength + decoded.locations.length * descriptorLength := rfl
  have htableLength : decoded.locations.length * descriptorLength ≤
      ((bytes.take decoded.input.layout.totalLength).drop headerLength).length := by
    rw [length_drop, hlength]
    omega
  have hkeysLength : keyBytes decoded.locations ≤
      ((bytes.take decoded.input.layout.totalLength).drop
        decoded.input.layout.keysOffset).length := by
    rw [length_drop, hlength]
    omega
  refine ⟨⟨hstored.bounds.file_ne, hstored.bounds.file_le, hstored.bounds.locations_le,
    hstored.bounds.keyBytes_le⟩, decoded.input.raw, decoded.input.layout,
    ⟨hraw, rfl, bytes.drop headerLength, ?_⟩,
    ⟨hstored.admitted.file, hstored.admitted.locations, hstored.admitted.keyBytes⟩, hcomplete,
    ⟨?_, hcrc⟩, decoded.databaseId, rfl, haccepted.objectStoreId, decoded.locations,
    keyBytes decoded.locations, ?_, ?_⟩
  · rw [take_take, min_eq_left (by omega)] at hfirst
    rw [hheader, ← hfirst, take_append_drop]
  · refine (isZero_iff ?_).mpr hzeros
    rw [length_take, length_drop, hlength]
    omega
  · refine (decodeDescriptors_eq_ok htableLength hkeysLength haccepted.located.keyBytes_le).mpr
      ⟨rfl, fun location hlocation => ?_, Nat.zero_add _, htable, hkeys⟩
    obtain ⟨hpartId, hfileLength⟩ := hstored.widths.locations location hlocation
    obtain ⟨hfile, hkey⟩ := haccepted.located.described location hlocation
    obtain ⟨hkeyNe, hkeyLe⟩ := length_of_validObjectKey hkey
    exact ⟨hpartId, hfileLength, hfile, hkeyNe, hkeyLe⟩
  · rw [dif_pos ⟨rfl, decoded.valid⟩]
    refine congrArg Except.ok (DecodedColdLocationManifest.ext rfl ?_ rfl rfl rfl rfl ?_)
    · exact hstored.previous.symm
    · exact hstored.size.symm

lemma decodeColdLocationManifestExact_eq_ok {bytes : List UInt8} :
    decodeColdLocationManifestExact bytes limits = .ok decoded ↔
      decoded.Stored limits ∧ bytes = decoded.input.bytes decoded.input.layout := by
  simp only [decodeColdLocationManifestExact, except_bind_eq_ok, require_eq_ok, Except.ok.injEq,
    exists_const]
  constructor
  · rintro ⟨found, hdecode, hlength, rfl⟩
    obtain ⟨hstored, rest, hbytes⟩ := stored_of_decode hdecode
    refine ⟨hstored, ?_⟩
    rw [hbytes, length_append, bytes_length hstored.accepted, hstored.size] at hlength
    rw [hbytes, length_eq_zero_iff.mp (show rest.length = 0 by omega), append_nil]
  · rintro ⟨hstored, hbytes⟩
    have hfile : bytes = decoded.input.bytes decoded.input.layout ++ [] := by
      rw [hbytes, append_nil]
    refine ⟨decoded, decode_of_stored hstored hfile, ?_, rfl⟩
    rw [hbytes, bytes_length hstored.accepted, hstored.size]

end

/-! ### Chains of generations -/

/-- Each generation of a chain is accepted after the one before, with its base Manifest. -/
def Follows : DecodedColdLocationManifest →
    List (DecodedColdLocationManifest × TemporalManifestView) → Prop
  | _, [] => True
  | predecessor, (successor, base) :: rest =>
    validateColdLocationManifestTransition predecessor successor base = .ok () ∧
      Follows successor rest

instance Follows.decidable : ∀ (first : DecodedColdLocationManifest)
    (chain : List (DecodedColdLocationManifest × TemporalManifestView)),
    Decidable (Follows first chain)
  | _, [] => isTrue trivial
  | _, (successor, _) :: rest =>
    have := Follows.decidable successor rest
    inferInstanceAs (Decidable (_ ∧ _))

/-- A location whose part is still in the base Manifest stays as it is. -/
lemma mem_of_transition {predecessor successor : DecodedColdLocationManifest}
    {base : TemporalManifestView} {location : ColdPartLocationDescriptor}
    (htransition : validateColdLocationManifestTransition predecessor successor base = .ok ())
    (hlocation : location ∈ predecessor.locations)
    (hpart : ∃ part ∈ base.parts, part.partId = location.partId) :
    location ∈ successor.locations := by
  simp only [validateColdLocationManifestTransition, Result.bind_eq_ok, require_eq_ok,
    exists_const] at htransition
  obtain ⟨-, -, -, _, -, hkept⟩ := htransition
  have hkept := Result.forAll_eq_ok.mp hkept location hlocation
  have hmissing : validateKeptLocation.missing predecessor successor base location ≠ .ok () := by
    intro hmissing
    obtain ⟨part, hmem, hsame⟩ := hpart
    exact (require_eq_ok.mp hmissing).2 part hmem hsame
  unfold validateKeptLocation at hkept
  split at hkept
  · next found hfound =>
    split_ifs at hkept
    · rw [← require_eq_ok.mp hkept]
      exact mem_of_find?_eq_some hfound
    · exact absurd hkept hmissing
  · exact absurd hkept hmissing

/-- The locations of a chain stay as long as their parts are in the base Manifests. -/
lemma mem_of_follows {first : DecodedColdLocationManifest}
    {chain : List (DecodedColdLocationManifest × TemporalManifestView)}
    {location : ColdPartLocationDescriptor} (hfollows : Follows first chain)
    (hlocation : location ∈ first.locations)
    (hparts : ∀ step ∈ chain, ∃ part ∈ step.2.parts, part.partId = location.partId) :
    ∀ step ∈ chain, location ∈ step.1.locations := by
  induction chain generalizing first with
  | nil => exact nofun
  | cons step chain ih =>
    obtain ⟨hpart, hparts⟩ := forall_mem_cons.mp hparts
    have hnext := mem_of_transition hfollows.1 hlocation hpart
    exact forall_mem_cons.mpr ⟨hnext, ih hfollows.2 hnext hparts⟩

/-- A part has at most one location. -/
lemma Located.eq_of_partId {locations : List ColdPartLocationDescriptor} (h : Located locations)
    {first second : ColdPartLocationDescriptor} (hfirst : first ∈ locations)
    (hsecond : second ∈ locations) (heq : first.partId = second.partId) : first = second := by
  have hnodup : (locations.map (·.partId)).Nodup :=
    (pairwise_map.mpr h.sorted).imp fun hlt => ne_of_lt hlt
  exact inj_on_of_nodup_map hnodup hfirst hsecond heq

/-- The limits of the format admit every model that is accepted. -/
lemma admits_default {input : ColdLocationManifestEncodeInput} (haccepted : input.Accepted) :
    ColdLocationManifestDecodeLimits.Admits {} input :=
  ⟨(layoutOf_bounds haccepted.located.count haccepted.located.keyBytes_le).2,
    haccepted.located.count, haccepted.located.keyBytes_le⟩

/-- **The cold-location Manifest format.**  A model that passes the validation is written and read
back as it was, with the limits of the format or any limits that admit it; bytes that are accepted
are the ones their model is written to; what is decoded is sorted, without shared keys and inside
the bounds; and along a chain of generations a location stays as long as the base Manifests contain
its part. -/
theorem cold_manifest_format :
    (∀ input : ColdLocationManifestEncodeInput, input.Representable →
      input.generation ≠ 0 ∧ input.baseManifestGeneration ≠ 0 ∧ input.objectStoreId ≠ 0 →
      validateLocations input.locations = .ok () →
      ∃ bytes, encodeColdLocationManifest input = .ok bytes ∧
        ∀ limits : ColdLocationManifestDecodeLimits,
          limits = {} ∨ limits.Valid ∧ limits.Admits input →
          ∃ decoded, decodeColdLocationManifestExact bytes limits = .ok decoded ∧
            decoded.input = input ∧ decoded.encodedSize = bytes.length ∧
            decoded.previousGeneration =
              if input.generation = 1 then 0 else input.generation - 1) ∧
    (∀ bytes limits decoded, decodeColdLocationManifestExact bytes limits = .ok decoded →
      encodeColdLocationManifest decoded.input = .ok bytes ∧
      decoded.locations.Pairwise (fun left right => left.partId < right.partId) ∧
      (decoded.locations.map (·.objectKey)).Nodup ∧
      decoded.locations.length ≤ maximumLocationCount ∧
      (∀ location ∈ decoded.locations, location.fileLength ≠ 0 ∧ location.objectKey ≠ [] ∧
        location.objectKey.length ≤ maximumObjectKeyLength) ∧
      keyBytes decoded.locations ≤ maximumKeyBytes ∧ bytes.length ≤ maximumFileLength) ∧
    (∀ first chain location, Follows first chain → location ∈ first.locations →
      (∀ step ∈ chain, ∃ part ∈ step.2.parts, part.partId = location.partId) →
      ∀ step ∈ chain, location ∈ step.1.locations ∧
        ∀ other ∈ step.1.locations, other.partId = location.partId → other = location) := by
  refine ⟨fun input hwidths hauthority hlocations => ?_, fun bytes limits decoded hdecode => ?_,
    fun first chain location hfollows hlocation hparts step hstep => ?_⟩
  · obtain ⟨hgeneration, hbase, hstore⟩ := hauthority
    have haccepted : input.Accepted :=
      ⟨hgeneration, hbase, hstore, validateLocations_eq_ok.mp hlocations⟩
    refine ⟨_, encodeColdLocationManifest_eq_ok.mpr ⟨haccepted, rfl⟩, fun limits hlimits => ?_⟩
    have hbounds : limits.Valid ∧ limits.Admits input := by
      obtain rfl | hbounds := hlimits
      · exact ⟨by constructor <;> decide, admits_default haccepted⟩
      · exact hbounds
    refine ⟨⟨input.generation, if input.generation = 1 then 0 else input.generation - 1,
      input.baseManifestGeneration, input.databaseId, input.objectStoreId, input.locations,
      input.layout.totalLength, hlocations⟩, ?_, rfl, ?_, rfl⟩
    · exact decodeColdLocationManifestExact_eq_ok.mpr
        ⟨⟨hbounds.1, hwidths, haccepted, rfl, rfl, hbounds.2⟩, rfl⟩
    · exact (bytes_length haccepted).symm
  · obtain ⟨hstored, hbytes⟩ := decodeColdLocationManifestExact_eq_ok.mp hdecode
    have hlocated := hstored.accepted.located
    refine ⟨encodeColdLocationManifest_eq_ok.mpr ⟨hstored.accepted, hbytes⟩, hlocated.sorted,
      hlocated.distinct, hlocated.count, fun location hlocation => ?_, hlocated.keyBytes_le, ?_⟩
    · obtain ⟨hfile, hkey⟩ := hlocated.described location hlocation
      obtain ⟨hne, hle⟩ := length_of_validObjectKey hkey
      exact ⟨hfile, fun hempty => hne (length_eq_zero_iff.mpr hempty), hle⟩
    · rw [hbytes, bytes_length hstored.accepted]
      exact (layoutOf_bounds hlocated.count hlocated.keyBytes_le).2
  · have hstays := mem_of_follows hfollows hlocation hparts step hstep
    exact ⟨hstays, fun other hother heq =>
      (validateLocations_eq_ok.mp step.1.valid).eq_of_partId hother hstays heq⟩

/-! ### A chain of two generations -/

namespace Sample

/-- The location of a part. -/
def location (part : PartId) : ColdPartLocationDescriptor :=
  ⟨part, 10, .replicate 32 7, [0x61, UInt8.ofNat (part.val + 0x61)]⟩

/-- A generation with the locations of some parts, bound to a base Manifest of its number. -/
def manifest (generation : ℕ) (parts : List PartId)
    (valid : validateLocations (parts.map location) = .ok ()) : DecodedColdLocationManifest :=
  ⟨generation, generation - 1, generation, 1, 2, parts.map location, 0, valid⟩

/-- A base Manifest with some parts. -/
def base (generation : ℕ) (parts : List PartId) : TemporalManifestView :=
  ⟨generation, 1, parts.map fun part => ⟨part, 10, .replicate 32 7⟩⟩

/-- The part that stays. -/
def kept : PartId := 5

/-- Two parts. -/
def first : DecodedColdLocationManifest := manifest 1 [3, kept] (by decide)

/-- One of them was removed. -/
def second : DecodedColdLocationManifest := manifest 2 [kept] (by decide)

end Sample

/-- The first generation is read back, and the kept part has its location in the second. -/
theorem cold_manifest_format_sample :
    (∃ bytes, encodeColdLocationManifest Sample.first.input = .ok bytes ∧
      ∃ decoded, decodeColdLocationManifestExact bytes {} = .ok decoded ∧
        decoded.input = Sample.first.input) ∧
    Follows Sample.first [(Sample.second, Sample.base 2 [Sample.kept])] ∧
    Sample.location Sample.kept ∈ Sample.second.locations := by
  have hfollows : Follows Sample.first [(Sample.second, Sample.base 2 [Sample.kept])] := by decide
  obtain ⟨bytes, hencode, hdecode⟩ := cold_manifest_format.1 Sample.first.input
    ⟨by decide, by decide, by decide, by decide, by decide⟩ (by decide) Sample.first.valid
  obtain ⟨decoded, hdecoded, hinput, -⟩ := hdecode {} (.inl rfl)
  refine ⟨⟨bytes, hencode, decoded, hdecoded, hinput⟩, hfollows, ?_⟩
  exact (cold_manifest_format.2.2 _ _ (Sample.location Sample.kept) hfollows (by decide)
    (by decide) _ (mem_singleton_self _)).1

end Chronos.Tiering
