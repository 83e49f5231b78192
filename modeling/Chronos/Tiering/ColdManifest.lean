import Chronos.Columnar.Batch
import Chronos.Common.Formats
import Chronos.Manifest.Model

/-!
`tiering/cold_manifest.cpp`: where the parts of a database are kept in an object store.

* `validateLocations`, `planLayout`: the tests of the model and the offsets of the file.
* `encodeColdLocationManifest`, `decodeColdLocationManifestPrefix`,
  `decodeColdLocationManifestExact`: a header of 256 bytes, a table of descriptors, the object keys,
  zeros up to the alignment and a checksum.
* `validateColdLocationManifestBinding`, `validateColdLocationManifestTransition`: which base
  Manifest and which successor a generation may have.

Of a Manifest v2 only its identity, its generation and the identity, length and digest of its parts
are read here.  Failed allocations are left out.
-/

namespace Chronos.Tiering

open Manifest (DatabaseId PartId)
open Reader

/-! ### Constants and types -/

/-- `kMagic`. -/
def coldManifestMagic : List UInt8 := [0x43, 0x48, 0x43, 0x4c, 0x44, 0x4d, 0x46, 0x31]

/-- `kFormatMajor`. -/
def formatMajor : ℕ := 1

/-- `kFormatMinor`. -/
def formatMinor : ℕ := 0

/-- `kHeaderLength`. -/
def headerLength : ℕ := 256

/-- `kHeaderCrc32cOffset`. -/
def headerCrc32cOffset : ℕ := 248

/-- `kDescriptorLength`. -/
def descriptorLength : ℕ := 96

/-- `kDescriptorCrc32cOffset`. -/
def descriptorCrc32cOffset : ℕ := 92

/-- `kTrailerLength`. -/
def trailerLength : ℕ := 8

/-- `kFileCrc32cLength`. -/
def fileCrc32cLength : ℕ := 4

/-- `kAlignment`. -/
def alignment : ℕ := 8

/-- `kMaximumFileLength`. -/
def maximumFileLength : ℕ := 1073741824

/-- `kMaximumLocationCount`. -/
def maximumLocationCount : ℕ := 1048576

/-- `kMaximumKeyBytes`. -/
def maximumKeyBytes : ℕ := 67108864

/-- `kMaximumObjectKeyLength`. -/
def maximumObjectKeyLength : ℕ := 1024

/-- `ingest::Sha256Digest`. -/
abbrev Sha256Digest := Vector UInt8 32

/-- `ColdPartLocationDescriptor`. -/
structure ColdPartLocationDescriptor where
  partId : PartId
  fileLength : ℕ
  contentSha256 : Sha256Digest
  objectKey : List UInt8
  deriving DecidableEq

/-- `ColdLocationManifestEncodeInput`. -/
structure ColdLocationManifestEncodeInput where
  generation : ℕ
  baseManifestGeneration : ℕ
  databaseId : DatabaseId
  objectStoreId : Uuid
  locations : List ColdPartLocationDescriptor
  deriving DecidableEq

/-- `ColdLocationManifestDecodeLimits`. -/
structure ColdLocationManifestDecodeLimits where
  maximumFileLength : ℕ := Tiering.maximumFileLength
  maximumLocations : ℕ := maximumLocationCount
  maximumKeyBytes : ℕ := Tiering.maximumKeyBytes
  deriving DecidableEq

/-- `ColdLocationManifestDecodeErrorKind`. -/
inductive ColdLocationManifestDecodeErrorKind where
  | incomplete | corruption | unsupported | resourceLimit
  deriving DecidableEq

/-- `ColdLocationManifestDecodeError`. -/
structure ColdLocationManifestDecodeError where
  kind : ColdLocationManifestDecodeErrorKind
  status : Status
  requiredSize : ℕ := 0
  deriving DecidableEq

/-- `invalid`. -/
def invalid (message : String) : Status := ⟨.invalidArgument, message⟩

/-- `exhausted`. -/
def exhausted (message : String) : Status := ⟨.resourceExhausted, message⟩

/-- `incomplete`. -/
def incomplete (message : String) (requiredSize : ℕ) : ColdLocationManifestDecodeError :=
  ⟨.incomplete, ⟨.corruption, message⟩, requiredSize⟩

/-- `corruption`. -/
def corruption (message : String) : ColdLocationManifestDecodeError :=
  ⟨.corruption, ⟨.corruption, message⟩, 0⟩

/-- `unsupported`. -/
def unsupported (message : String) : ColdLocationManifestDecodeError :=
  ⟨.unsupported, ⟨.notSupported, message⟩, 0⟩

/-- `resource_limit`. -/
def resourceLimit (message : String) : ColdLocationManifestDecodeError :=
  ⟨.resourceLimit, ⟨.resourceExhausted, message⟩, 0⟩

/-! ### The model and the layout -/

/-- `valid_object_key`. -/
def validObjectKey (key : List UInt8) : Bool :=
  key ≠ [] && key.length ≤ maximumObjectKeyLength && Columnar.isValidUtf8 key &&
    key.all fun value => ¬(value ≤ 0x1f || value = 0x7f)

/-- The loop of `validate_locations`, with the keys and the bytes of keys so far. -/
def validateKeys : (objectKeys : List (List UInt8)) → (keyBytes : ℕ) →
    List ColdPartLocationDescriptor → Result Unit
  | _, _, [] => .ok ()
  | objectKeys, keyBytes, location :: locations => do
    require (location.fileLength ≠ 0 ∧ validObjectKey location.objectKey = true ∧
        location.objectKey ∉ objectKeys)
      (invalid "cold-location manifest descriptor is invalid or aliases an object key")
    let next ← requireSome
      (invalid "cold-location manifest object-key table exceeds format bounds")
      (checkedAdd keyBytes location.objectKey.length)
    require (next ≤ maximumKeyBytes)
      (invalid "cold-location manifest object-key table exceeds format bounds")
    validateKeys (location.objectKey :: objectKeys) next locations

/-- `validate_locations`. -/
def validateLocations (locations : List ColdPartLocationDescriptor) : Result Unit := do
  require (locations.length ≤ maximumLocationCount)
    (invalid "cold-location manifest has too many descriptors")
  require (locations.IsChain fun left right => left.partId < right.partId)
    (invalid "cold-location manifest part identities are not strictly sorted")
  validateKeys [] 0 locations

/-- `ColdManifestLayout`. -/
structure ColdManifestLayout where
  locationsOffset : ℕ
  keysOffset : ℕ
  keysLength : ℕ
  keysEnd : ℕ
  trailerOffset : ℕ
  totalLength : ℕ
  deriving DecidableEq

/-- `common::checked_align_up` on `uint64`, for an alignment that is a power of two. -/
def checkedAlignUp (value alignment : ℕ) : Option ℕ :=
  (checkedAdd value (alignment - 1)).map fun adjusted => adjusted / alignment * alignment

/-- `plan_layout`. -/
def planLayout (locationCount keysLength : ℕ) : Result ColdManifestLayout := do
  require (locationCount ≤ maximumLocationCount ∧ keysLength ≤ maximumKeyBytes)
    (invalid "cold-location manifest layout exceeds format bounds")
  let locationsOffset := headerLength
  let descriptorBytes ← requireSome (exhausted "cold-location manifest layout overflowed")
    (checkedMultiply locationCount descriptorLength)
  let keysOffset ← requireSome (exhausted "cold-location manifest layout overflowed")
    (checkedAdd locationsOffset descriptorBytes)
  let keysEnd ← requireSome (exhausted "cold-location manifest layout overflowed")
    (checkedAdd keysOffset keysLength)
  let trailerOffset ← requireSome (exhausted "cold-location manifest alignment overflowed")
    (checkedAlignUp keysEnd alignment)
  let totalLength ← requireSome (exhausted "cold-location manifest exceeds file limit")
    (checkedAdd trailerOffset trailerLength)
  require (totalLength ≤ maximumFileLength) (exhausted "cold-location manifest exceeds file limit")
  .ok ⟨locationsOffset, keysOffset, keysLength, keysEnd, trailerOffset, totalLength⟩

/-- The bytes of the object keys. -/
def keyBytes (locations : List ColdPartLocationDescriptor) : ℕ :=
  (locations.map (·.objectKey.length)).sum

/-! ### Encoding -/

/-- The bytes of a descriptor that its checksum covers. -/
def ColdPartLocationDescriptor.covered (location : ColdPartLocationDescriptor) (keyOffset : ℕ) :
    List UInt8 :=
  storeBe 16 location.partId.val ++ storeLe 8 location.fileLength ++
    location.contentSha256.toList ++ storeLe 8 keyOffset ++ storeLe 4 location.objectKey.length ++
    storeLe 4 0 ++ List.replicate 20 0

/-- The bytes of a descriptor whose key is at an offset of the key table. -/
def ColdPartLocationDescriptor.bytes (location : ColdPartLocationDescriptor) (keyOffset : ℕ) :
    List UInt8 :=
  sealTrailer (location.covered keyOffset)

/-- The table of descriptors, the first key at an offset. -/
def descriptorTable : (keyOffset : ℕ) → List ColdPartLocationDescriptor → List UInt8
  | _, [] => []
  | keyOffset, location :: locations =>
    location.bytes keyOffset ++ descriptorTable (keyOffset + location.objectKey.length) locations

namespace ColdLocationManifestEncodeInput

/-- The bytes of the header that its checksum covers. -/
def covered (input : ColdLocationManifestEncodeInput) (layout : ColdManifestLayout) : List UInt8 :=
  coldManifestMagic ++ storeLe 2 formatMajor ++ storeLe 2 formatMinor ++ storeLe 4 headerLength ++
    storeLe 4 0 ++ storeLe 4 0 ++ storeLe 8 layout.totalLength ++ storeLe 8 input.generation ++
    storeLe 8 (if input.generation = 1 then 0 else input.generation - 1) ++
    storeLe 8 input.baseManifestGeneration ++ storeBe 16 input.databaseId.val ++
    storeBe 16 input.objectStoreId ++ storeLe 8 input.locations.length ++
    storeLe 8 layout.locationsOffset ++ storeLe 8 layout.keysOffset ++
    storeLe 8 layout.keysLength ++ storeLe 8 layout.trailerOffset ++ List.replicate 120 0

/-- The header. -/
def header (input : ColdLocationManifestEncodeInput) (layout : ColdManifestLayout) : List UInt8 :=
  input.covered layout ++ storeLe 4 (crc32c (input.covered layout)) ++ storeLe 4 0

/-- The bytes before the checksum of the file. -/
def body (input : ColdLocationManifestEncodeInput) (layout : ColdManifestLayout) : List UInt8 :=
  input.header layout ++ descriptorTable 0 input.locations ++
    input.locations.flatMap (·.objectKey) ++
    List.replicate (layout.totalLength - fileCrc32cLength - layout.keysEnd) 0

/-- The bytes of the file. -/
def bytes (input : ColdLocationManifestEncodeInput) (layout : ColdManifestLayout) : List UInt8 :=
  sealTrailer (input.body layout)

end ColdLocationManifestEncodeInput

/-- `encode_cold_location_manifest_v1`. -/
def encodeColdLocationManifest (input : ColdLocationManifestEncodeInput) : Result (List UInt8) := do
  require (input.generation ≠ 0 ∧ input.baseManifestGeneration ≠ 0 ∧ input.objectStoreId ≠ 0)
    (invalid "cold-location manifest authority is invalid")
  validateLocations input.locations
  let layout ← planLayout input.locations.length (keyBytes input.locations)
  .ok (input.bytes layout)

/-! ### Decoding -/

/-- `DecodedColdLocationManifest`: only the decoder makes one, so its locations are valid. -/
@[ext] structure DecodedColdLocationManifest where
  generation : ℕ
  previousGeneration : ℕ
  baseManifestGeneration : ℕ
  databaseId : DatabaseId
  objectStoreId : Uuid
  locations : List ColdPartLocationDescriptor
  encodedSize : ℕ
  valid : validateLocations locations = .ok ()
  deriving DecidableEq

/-- The fields of a header as they are read. -/
structure RawColdHeader where
  magic : List UInt8
  major : ℕ
  minor : ℕ
  headerLength : ℕ
  flags : ℕ
  reserved0 : ℕ
  totalLength : ℕ
  generation : ℕ
  previous : ℕ
  baseGeneration : ℕ
  databaseId : ℕ
  objectStoreId : ℕ
  locationCount : ℕ
  locationsOffset : ℕ
  keysOffset : ℕ
  keysLength : ℕ
  trailerOffset : ℕ
  reserved1 : List UInt8
  headerCrc : ℕ
  reserved2 : ℕ

/-- The loads of `decode_cold_location_manifest_v1_prefix`; the header is complete, so none of them
fails. -/
def readRawColdHeader : Reader ColdLocationManifestDecodeError RawColdHeader := do
  let fail := incomplete "cold manifest requires complete header" headerLength
  let magic ← readExact fail 8
  let major ← readLe fail 2
  let minor ← readLe fail 2
  let headerLength ← readLe fail 4
  let flags ← readLe fail 4
  let reserved0 ← readLe fail 4
  let totalLength ← readLe fail 8
  let generation ← readLe fail 8
  let previous ← readLe fail 8
  let baseGeneration ← readLe fail 8
  let databaseId ← readBe fail 16
  let objectStoreId ← readBe fail 16
  let locationCount ← readLe fail 8
  let locationsOffset ← readLe fail 8
  let keysOffset ← readLe fail 8
  let keysLength ← readLe fail 8
  let trailerOffset ← readLe fail 8
  let reserved1 ← readExact fail 120
  let headerCrc ← readLe fail 4
  let reserved2 ← readLe fail 4
  pure ⟨magic, major, minor, headerLength, flags, reserved0, totalLength, generation, previous,
    baseGeneration, databaseId, objectStoreId, locationCount, locationsOffset, keysOffset,
    keysLength, trailerOffset, reserved1, headerCrc, reserved2⟩

/-- The fields of a descriptor as they are read. -/
structure RawDescriptor where
  partId : ℕ
  fileLength : ℕ
  contentSha256 : Sha256Digest
  keyOffset : ℕ
  keyLength : ℕ
  flags : ℕ
  reserved : List UInt8
  crc : ℕ

/-- The loads of one descriptor; it is complete, so none fails. -/
def readRawDescriptor : Reader ColdLocationManifestDecodeError RawDescriptor := do
  let fail := corruption "cold manifest descriptor fields are invalid"
  let partId ← readBe fail 16
  let fileLength ← readLe fail 8
  let contentSha256 ← readArray fail 32
  let keyOffset ← readLe fail 8
  let keyLength ← readLe fail 4
  let flags ← readLe fail 4
  let reserved ← readExact fail 20
  let crc ← readLe fail 4
  pure ⟨partId, fileLength, contentSha256, keyOffset, keyLength, flags, reserved, crc⟩

/-- `is_zero`. -/
def isZero (bytes : List UInt8) : Bool := bytes.all (· = 0)

/-- `DatabaseId::from_bytes` and `PartId::from_bytes`. -/
def identifierOf (value : Uuid) : Option Identifier :=
  if h : value ≠ 0 then some ⟨value, h⟩ else none

/-- One turn of the loop over the descriptors.  `keys` are the bytes from the offset of the keys on,
and `keysLength` are theirs. -/
def decodeDescriptor (keys : List UInt8) (keysLength expectedKeyOffset : ℕ)
    (descriptor : List UInt8) :
    Except ColdLocationManifestDecodeError ColdPartLocationDescriptor := do
  let raw ← readRawDescriptor.decode descriptor
  require (crc32c (descriptor.take descriptorCrc32cOffset) = raw.crc)
    (corruption "cold manifest descriptor checksum is invalid")
  require (raw.flags = 0) (unsupported "cold manifest descriptor flags are unsupported")
  require (isZero raw.reserved = true)
    (corruption "cold manifest descriptor reserved bytes are nonzero")
  let partId ← requireSome (corruption "cold manifest descriptor fields are invalid")
    (identifierOf raw.partId)
  require (raw.fileLength ≠ 0 ∧ raw.keyOffset = expectedKeyOffset ∧ raw.keyLength ≠ 0 ∧
      raw.keyLength ≤ maximumObjectKeyLength ∧ raw.keyOffset ≤ keysLength ∧
      raw.keyLength ≤ keysLength - raw.keyOffset)
    (corruption "cold manifest descriptor fields are invalid")
  .ok ⟨partId, raw.fileLength, raw.contentSha256, (keys.drop raw.keyOffset).take raw.keyLength⟩

/-- The loop over the descriptors, with the offset after the last key. -/
def decodeDescriptors (keys : List UInt8) (keysLength : ℕ) :
    (count : ℕ) → (table : List UInt8) → (expectedKeyOffset : ℕ) →
    Except ColdLocationManifestDecodeError (List ColdPartLocationDescriptor × ℕ)
  | 0, _, expectedKeyOffset => .ok ([], expectedKeyOffset)
  | count + 1, table, expectedKeyOffset => do
    let location ← decodeDescriptor keys keysLength expectedKeyOffset (table.take descriptorLength)
    let (locations, keyOffset) ← decodeDescriptors keys keysLength count
      (table.drop descriptorLength) (expectedKeyOffset + location.objectKey.length)
    .ok (location :: locations, keyOffset)

/-- The tests of the header, up to the layout. -/
def decodeHeader (bytes : List UInt8) :
    Except ColdLocationManifestDecodeError (RawColdHeader × ColdManifestLayout) := do
  require (coldManifestMagic.length ≤ bytes.length)
    (incomplete "cold manifest requires complete magic" coldManifestMagic.length)
  require (bytes.take coldManifestMagic.length = coldManifestMagic)
    (corruption "cold manifest magic is invalid")
  require (headerLength ≤ bytes.length)
    (incomplete "cold manifest requires complete header" headerLength)
  let header := bytes.take headerLength
  let raw ← readRawColdHeader.decode header
  require (crc32c (header.take headerCrc32cOffset) = raw.headerCrc)
    (corruption "cold manifest header checksum is invalid")
  require (raw.major ≠ 0) (corruption "cold manifest format major is zero")
  require (raw.major = formatMajor ∧ raw.minor = formatMinor)
    (unsupported "cold manifest version is unsupported")
  require (raw.flags = 0) (unsupported "cold manifest file flags are unsupported")
  require (raw.headerLength = headerLength ∧ raw.reserved0 = 0 ∧ isZero raw.reserved1 = true ∧
      raw.reserved2 = 0)
    (corruption "cold manifest fixed header fields are invalid")
  require (raw.generation ≠ 0 ∧
      raw.previous = (if raw.generation = 1 then 0 else raw.generation - 1) ∧
      raw.baseGeneration ≠ 0 ∧ raw.locationCount ≤ maximumLocationCount ∧
      raw.keysLength ≤ maximumKeyBytes)
    (corruption "cold manifest authority or counts are invalid")
  let layout ← (planLayout raw.locationCount raw.keysLength).mapError fun _ =>
    corruption "cold manifest layout fields disagree"
  require (raw.totalLength = layout.totalLength ∧ raw.locationsOffset = layout.locationsOffset ∧
      raw.keysOffset = layout.keysOffset ∧ raw.trailerOffset = layout.trailerOffset)
    (corruption "cold manifest layout fields disagree")
  .ok (raw, layout)

/-- `decode_cold_location_manifest_v1_prefix`. -/
def decodeColdLocationManifestPrefix (bytes : List UInt8)
    (limits : ColdLocationManifestDecodeLimits) :
    Except ColdLocationManifestDecodeError DecodedColdLocationManifest := do
  require (limits.maximumFileLength ≠ 0 ∧ limits.maximumFileLength ≤ maximumFileLength ∧
      limits.maximumLocations ≤ maximumLocationCount ∧ limits.maximumKeyBytes ≤ maximumKeyBytes)
    (resourceLimit "cold manifest decode limits are invalid")
  let (raw, layout) ← decodeHeader bytes
  require (layout.totalLength ≤ limits.maximumFileLength ∧
      raw.locationCount ≤ limits.maximumLocations ∧ raw.keysLength ≤ limits.maximumKeyBytes)
    (resourceLimit "cold manifest exceeds configured decode limits")
  require (layout.totalLength ≤ bytes.length)
    (incomplete "cold manifest generation is incomplete" layout.totalLength)
  let generationBytes := bytes.take layout.totalLength
  let fileCrcOffset := layout.totalLength - fileCrc32cLength
  require (isZero ((generationBytes.drop layout.keysEnd).take
        (fileCrcOffset - layout.keysEnd)) = true ∧
      crc32c (generationBytes.take fileCrcOffset) = loadLe generationBytes fileCrcOffset 4)
    (corruption "cold manifest trailer or file checksum is invalid")
  let databaseId ← requireSome (corruption "cold manifest identity is zero")
    (identifierOf raw.databaseId)
  require (raw.objectStoreId ≠ 0) (corruption "cold manifest identity is zero")
  let (locations, keyOffset) ← decodeDescriptors (generationBytes.drop layout.keysOffset)
    layout.keysLength raw.locationCount (generationBytes.drop layout.locationsOffset) 0
  if h : keyOffset = layout.keysLength ∧ validateLocations locations = .ok () then
    .ok ⟨raw.generation, raw.previous, raw.baseGeneration, databaseId, raw.objectStoreId, locations,
      layout.totalLength, h.2⟩
  else .error (corruption "cold manifest descriptor model is invalid")

/-- `decode_cold_location_manifest_v1_exact`. -/
def decodeColdLocationManifestExact (bytes : List UInt8)
    (limits : ColdLocationManifestDecodeLimits) :
    Except ColdLocationManifestDecodeError DecodedColdLocationManifest := do
  let decoded ← decodeColdLocationManifestPrefix bytes limits
  require (bytes.length = decoded.encodedSize)
    (corruption "cold manifest exact decoder rejects trailing bytes")
  .ok decoded

/-! ### Binding and transition -/

/-- What is read of a `TemporalPartDescriptor`. -/
structure TemporalPart where
  partId : PartId
  fileLength : ℕ
  contentSha256 : Sha256Digest
  deriving DecidableEq

/-- What is read of a `DecodedTemporalManifestView`. -/
structure TemporalManifestView where
  generation : ℕ
  databaseId : DatabaseId
  parts : List TemporalPart
  deriving DecidableEq

/-- `validate_cold_location_manifest_binding`.  The map of the parts keeps the first of an
identity. -/
def validateColdLocationManifestBinding (cold : DecodedColdLocationManifest)
    (baseManifest : TemporalManifestView) : Result Unit := do
  require (cold.databaseId = baseManifest.databaseId)
    (invalid "cold manifest database differs from Manifest v2")
  require (cold.baseManifestGeneration = baseManifest.generation)
    ⟨.unavailable, "cold manifest is not bound to the pinned Manifest v2 generation"⟩
  Result.forAll (fun location =>
    require ((baseManifest.parts.find? (·.partId = location.partId)).any (fun part =>
        part.fileLength = location.fileLength ∧ part.contentSha256 = location.contentSha256) = true)
      ⟨.unavailable, "cold location differs from its pinned Manifest v2 part"⟩) cold.locations

/-- One turn of the loop of `validate_cold_location_manifest_transition`. -/
def validateKeptLocation (predecessor successor : DecodedColdLocationManifest)
    (successorBase : TemporalManifestView) (location : ColdPartLocationDescriptor) :
    Result Unit :=
  -- `lower_bound` over the sorted locations
  match successor.locations.find? (location.partId ≤ ·.partId) with
  | some found =>
    if found.partId = location.partId then
      require (found = location) (invalid "cold manifest successor changes an existing location")
    else missing
  | none => missing
where
  missing : Result Unit :=
    require (successor.baseManifestGeneration ≠ predecessor.baseManifestGeneration ∧
        ∀ part ∈ successorBase.parts, part.partId ≠ location.partId)
      (invalid "cold manifest successor removes a still-logical location")

/-- `validate_cold_location_manifest_transition`. -/
def validateColdLocationManifestTransition (predecessor successor : DecodedColdLocationManifest)
    (successorBase : TemporalManifestView) : Result Unit := do
  require (predecessor.generation ≠ u64Max ∧ successor.generation = predecessor.generation + 1 ∧
      successor.previousGeneration = predecessor.generation)
    (invalid "cold manifest successor generation is not exact")
  require (successor.databaseId = predecessor.databaseId ∧
      successor.objectStoreId = predecessor.objectStoreId)
    (invalid "cold manifest successor changes durable identity")
  require (predecessor.baseManifestGeneration ≤ successor.baseManifestGeneration)
    (invalid "cold manifest successor moves Manifest v2 authority backward")
  validateColdLocationManifestBinding successor successorBase
  Result.forAll (validateKeptLocation predecessor successor successorBase) predecessor.locations

end Chronos.Tiering
