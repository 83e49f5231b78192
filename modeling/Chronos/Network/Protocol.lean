import Chronos.Common.Formats

/-!
`network/protocol.cpp`: the frames of the native protocol.

* `encodeFrame`, `decodeFrameHeader`, `decodeFrame`: a header of 40 bytes, closed by its checksum,
  and a payload with a checksum in the header.
* `FrameHeader.Valid`: the headers that pass the tests of the protocol.
* `decodeFrameHeader_eq_ok`, `decodeFrame_eq_ok`, `encodeFrame_eq_ok`: what each function accepts
  and what it returns, so that the round trip and the canonical form are one rewriting each.

A `MessageType` is one of the assigned values, so the test of `encode_frame` for an unassigned one
has no counterpart.
-/

namespace Chronos.Network

open Reader List

/-! ### Constants and types -/

/-- `invalid`. -/
def invalid (message : String) : Status := ⟨.invalidArgument, message⟩

/-- `corrupt`. -/
def corrupt (message : String) : Status := ⟨.corruption, message⟩

/-- `exhausted`. -/
def exhausted (message : String) : Status := ⟨.resourceExhausted, message⟩

/-- `kProtocolMagic`. -/
def protocolMagic : ℕ := 0x31424443

/-- `kProtocolMajor`. -/
def protocolMajor : ℕ := 1

/-- `kProtocolV2Major`. -/
def protocolV2Major : ℕ := 2

/-- `kProtocolLatestMinor`. -/
def protocolLatestMinor : ℕ := 2

/-- `kProtocolV2LatestMinor`. -/
def protocolV2LatestMinor : ℕ := 0

/-- `kFrameHeaderSize`. -/
def frameHeaderSize : ℕ := 40

/-- `kHeaderCrcOffset`. -/
def headerCrcOffset : ℕ := 36

/-- `kDefaultMaximumPayloadSize`. -/
def defaultMaximumPayloadSize : ℕ := 16 * 1024 * 1024

/-- `std::numeric_limits<std::uint32_t>::max()`. -/
def u32Max : ℕ := 2 ^ 32 - 1

/-- `kFrameFlagEndStream`. -/
def frameFlagEndStream : ℕ := 1

/-- `kKnownFrameFlags`. -/
def knownFrameFlags : ℕ := frameFlagEndStream

/-- `MessageType`. -/
inductive MessageType where
  | clientHello | serverHello | ingestRequest | ingestAcknowledgement
  | quorumSyncIngestAcknowledgement | leaderRedirect | queryRequest | queryResult | queryEnd
  | subscribeRequest | subscriptionReady | subscriptionChange | subscriptionAcknowledge
  | subscriptionCheckpoint | subscriptionEnd | cancel | error | ping | pong
  deriving DecidableEq

namespace MessageType

/-- The number of a message type. -/
def code : MessageType → ℕ
  | clientHello => 1
  | serverHello => 2
  | ingestRequest => 10
  | ingestAcknowledgement => 11
  | quorumSyncIngestAcknowledgement => 12
  | leaderRedirect => 13
  | queryRequest => 20
  | queryResult => 21
  | queryEnd => 22
  | subscribeRequest => 23
  | subscriptionReady => 24
  | subscriptionChange => 25
  | subscriptionAcknowledge => 26
  | subscriptionCheckpoint => 27
  | subscriptionEnd => 28
  | cancel => 30
  | error => 31
  | ping => 40
  | pong => 41

/-- The message type of a number, if `is_known_message_type` finds one. -/
def ofCode (code : ℕ) : Option MessageType :=
  [clientHello, serverHello, ingestRequest, ingestAcknowledgement, quorumSyncIngestAcknowledgement,
    leaderRedirect, queryRequest, queryResult, queryEnd, subscribeRequest, subscriptionReady,
    subscriptionChange, subscriptionAcknowledge, subscriptionCheckpoint, subscriptionEnd, cancel,
    error, ping, pong].find? (·.code = code)

lemma ofCode_eq_some {code : ℕ} {type : MessageType} :
    ofCode code = some type ↔ code = type.code := by
  constructor
  · intro h
    have hfound := find?_some (show find? _ _ = _ from h)
    exact (of_decide_eq_true hfound).symm
  · rintro rfl
    cases type <;> rfl

lemma code_lt (type : MessageType) : type.code < 256 ^ 2 := by
  cases type <;> decide

end MessageType

/-- `ProtocolLimits`. -/
structure ProtocolLimits where
  maximumPayloadSize : ℕ := defaultMaximumPayloadSize
  deriving DecidableEq

/-- `FrameDescriptor`. -/
structure FrameDescriptor where
  protocolMajor : ℕ
  protocolMinor : ℕ
  messageType : MessageType
  flags : ℕ := 0
  requestId : ℕ := 0
  deriving DecidableEq

/-- `FrameHeader`. -/
structure FrameHeader extends FrameDescriptor where
  payloadSize : ℕ
  payloadCrc32c : ℕ
  deriving DecidableEq

/-- `Frame`. -/
structure Frame where
  header : FrameHeader
  payload : List UInt8
  deriving DecidableEq

/-- The numbers of a descriptor whose widths no test bounds fit their fields. -/
structure FrameDescriptor.Representable (descriptor : FrameDescriptor) : Prop where
  flags : descriptor.flags < 256 ^ 4
  requestId : descriptor.requestId < 256 ^ 8

/-! ### Tests -/

/-- `minimum_major`. -/
def minimumMajor : MessageType → ℕ
  | .quorumSyncIngestAcknowledgement => protocolV2Major
  | .leaderRedirect => protocolV2Major
  | _ => protocolMajor

/-- `supported_version`. -/
abbrev SupportedVersion (major minor : ℕ) : Prop :=
  major = protocolMajor ∧ minor ≤ protocolLatestMinor ∨
    major = protocolV2Major ∧ minor ≤ protocolV2LatestMinor

/-- `minimum_minor`. -/
def minimumMinor (major : ℕ) (type : MessageType) : ℕ :=
  if major = protocolV2Major then 0
  else match type with
    | .subscribeRequest => 1
    | .subscriptionReady => 1
    | .subscriptionChange => 1
    | .subscriptionAcknowledge => 1
    | .subscriptionCheckpoint => 1
    | .subscriptionEnd => 1
    | _ => 0

/-- `validate_flags`. -/
def validateFlags (type : MessageType) (flags : ℕ) : Result Unit := do
  require (flags &&& (u32Max ^^^ knownFrameFlags) = 0)
    (corrupt "protocol frame contains unknown required flags")
  require (flags &&& frameFlagEndStream ≠ 0 → type = .queryResult)
    (corrupt "END_STREAM is valid only on QUERY_RESULT")

/-- `validate_protocol_limits`. -/
def validateProtocolLimits (limits : ProtocolLimits) : Result Unit := do
  require (limits.maximumPayloadSize ≠ 0)
    (invalid "protocol maximum payload size must be nonzero")
  require (limits.maximumPayloadSize ≤ defaultMaximumPayloadSize)
    (invalid "protocol maximum payload size exceeds the Protocol v1 ceiling")

/-- `encoded_frame_size`. -/
def encodedFrameSize (payloadSize : ℕ) (limits : ProtocolLimits) : Result ℕ := do
  validateProtocolLimits limits
  require (payloadSize ≤ limits.maximumPayloadSize ∧ payloadSize ≤ u32Max)
    (invalid "protocol payload exceeds the configured frame limit")
  requireSome (invalid "protocol frame size overflows size_t")
    (checkedAdd frameHeaderSize payloadSize)

/-! ### Frames -/

/-- The bytes of a header that its checksum covers. -/
def FrameHeader.covered (header : FrameHeader) : List UInt8 :=
  storeLe 4 protocolMagic ++ storeLe 2 header.protocolMajor ++ storeLe 2 header.protocolMinor ++
    storeLe 2 frameHeaderSize ++ storeLe 2 header.messageType.code ++ storeLe 4 header.flags ++
    storeLe 8 header.requestId ++ storeLe 4 header.payloadSize ++ storeLe 4 header.payloadCrc32c ++
    storeLe 4 0

/-- The bytes of a header. -/
def FrameHeader.bytes (header : FrameHeader) : List UInt8 := sealTrailer header.covered

@[simp] lemma FrameHeader.covered_length (header : FrameHeader) :
    header.covered.length = headerCrcOffset := by
  simp [FrameHeader.covered, headerCrcOffset]

@[simp] lemma FrameHeader.bytes_length (header : FrameHeader) :
    header.bytes.length = frameHeaderSize := by
  rw [FrameHeader.bytes, sealTrailer_length, FrameHeader.covered_length]
  rfl

/-- The header of the frame of a descriptor and a payload. -/
def FrameDescriptor.header (descriptor : FrameDescriptor) (payload : List UInt8) : FrameHeader :=
  { descriptor with payloadSize := payload.length, payloadCrc32c := crc32c payload }

/-- `encode_frame`. -/
def encodeFrame (descriptor : FrameDescriptor) (payload : List UInt8) (limits : ProtocolLimits) :
    Result (List UInt8) := do
  require (SupportedVersion descriptor.protocolMajor descriptor.protocolMinor ∧
      minimumMajor descriptor.messageType ≤ descriptor.protocolMajor ∧
      minimumMinor descriptor.protocolMajor descriptor.messageType ≤ descriptor.protocolMinor)
    (invalid "protocol message is unavailable in this minor version")
  (validateFlags descriptor.messageType descriptor.flags).mapError fun status =>
    invalid status.message
  let _ ← encodedFrameSize payload.length limits
  .ok ((descriptor.header payload).bytes ++ payload)

/-- The fields of a header as they are read. -/
@[ext] structure RawHeader where
  magic : ℕ
  major : ℕ
  minor : ℕ
  headerSize : ℕ
  type : ℕ
  flags : ℕ
  requestId : ℕ
  payloadSize : ℕ
  payloadCrc : ℕ
  reserved : ℕ
  headerCrc : ℕ

/-- The reads of `decode_frame_header`. -/
def readRawHeader : Reader Status RawHeader := do
  let fail := corrupt "protocol frame header cannot be decoded"
  let magic ← readLe fail 4
  let major ← readLe fail 2
  let minor ← readLe fail 2
  let headerSize ← readLe fail 2
  let type ← readLe fail 2
  let flags ← readLe fail 4
  let requestId ← readLe fail 8
  let payloadSize ← readLe fail 4
  let payloadCrc ← readLe fail 4
  let reserved ← readLe fail 4
  let headerCrc ← readLe fail 4
  pure ⟨magic, major, minor, headerSize, type, flags, requestId, payloadSize, payloadCrc, reserved,
    headerCrc⟩

/-- `decode_frame_header`. -/
def decodeFrameHeader (bytes : List UInt8) (limits : ProtocolLimits) : Result FrameHeader := do
  validateProtocolLimits limits
  require (frameHeaderSize ≤ bytes.length) (corrupt "protocol frame header is truncated")
  let raw ← readRawHeader.decode (bytes.take frameHeaderSize)
  require (raw.magic = protocolMagic) (corrupt "protocol frame magic does not match ChronosDB")
  require (SupportedVersion raw.major raw.minor) (corrupt "protocol frame version is unsupported")
  require (raw.headerSize = frameHeaderSize) (corrupt "protocol frame header size is unsupported")
  let type ← requireSome (corrupt "protocol frame message type is unassigned")
    (MessageType.ofCode raw.type)
  require (raw.reserved = 0) (corrupt "protocol frame reserved field is nonzero")
  require (minimumMajor type ≤ raw.major)
    (corrupt "protocol message requires a newer major version")
  require (minimumMinor raw.major type ≤ raw.minor)
    (corrupt "protocol message requires a newer minor version")
  validateFlags type raw.flags
  require (crc32c (bytes.take headerCrcOffset) = raw.headerCrc)
    (corrupt "protocol frame header CRC32C does not match")
  require (raw.payloadSize ≤ limits.maximumPayloadSize)
    (corrupt "protocol payload exceeds the configured frame limit")
  .ok
    { protocolMajor := raw.major
      protocolMinor := raw.minor
      messageType := type
      flags := raw.flags
      requestId := raw.requestId
      payloadSize := raw.payloadSize
      payloadCrc32c := raw.payloadCrc }

/-- `decode_frame`. -/
def decodeFrame (bytes : List UInt8) (limits : ProtocolLimits) : Result Frame := do
  let header ← decodeFrameHeader bytes limits
  let size ← encodedFrameSize header.payloadSize limits
  require (bytes.length = size) (corrupt "protocol frame length is not exact")
  let payload := (bytes.drop frameHeaderSize).take header.payloadSize
  require (crc32c payload = header.payloadCrc32c) (corrupt "protocol payload CRC32C does not match")
  .ok ⟨header, payload⟩

/-! ### What is accepted -/

/-- The limits that pass `validate_protocol_limits`. -/
def ProtocolLimits.Valid (limits : ProtocolLimits) : Prop :=
  limits.maximumPayloadSize ≠ 0 ∧ limits.maximumPayloadSize ≤ defaultMaximumPayloadSize

variable {limits : ProtocolLimits}

lemma validateProtocolLimits_eq_ok {u : Unit} :
    validateProtocolLimits limits = .ok u ↔ limits.Valid := by
  simp only [validateProtocolLimits, Result.bind_eq_ok, require_eq_ok, exists_const]
  rfl

/-- The headers of the protocol under given limits. -/
structure FrameHeader.Valid (header : FrameHeader) (limits : ProtocolLimits) : Prop where
  bounds : limits.Valid
  version : SupportedVersion header.protocolMajor header.protocolMinor
  major : minimumMajor header.messageType ≤ header.protocolMajor
  minor : minimumMinor header.protocolMajor header.messageType ≤ header.protocolMinor
  flags : validateFlags header.messageType header.flags = .ok ()
  size : header.payloadSize ≤ limits.maximumPayloadSize
  flagsWidth : header.flags < 256 ^ 4
  requestWidth : header.requestId < 256 ^ 8
  crcWidth : header.payloadCrc32c < 256 ^ 4

variable {size : ℕ}

lemma ProtocolLimits.Valid.lt (h : limits.Valid) (hsize : size ≤ limits.maximumPayloadSize) :
    size < 256 ^ 4 :=
  (hsize.trans h.2).trans_lt (by decide)

lemma encodedFrameSize_eq_ok {payloadSize : ℕ} :
    encodedFrameSize payloadSize limits = .ok size ↔
      limits.Valid ∧ payloadSize ≤ limits.maximumPayloadSize ∧
        size = frameHeaderSize + payloadSize := by
  simp only [encodedFrameSize, Result.bind_eq_ok, validateProtocolLimits_eq_ok, require_eq_ok,
    requireSome_eq_ok, exists_const]
  constructor
  · rintro ⟨hlimits, hsize, hadd⟩
    exact ⟨hlimits, hsize.1, checkedAdd_eq_some hadd⟩
  · rintro ⟨hlimits, hsize, rfl⟩
    have hlt := hlimits.lt hsize
    refine ⟨hlimits, ⟨hsize, ?_⟩, checkedAdd_of_le ?_⟩
    · rw [u32Max]
      omega
    · rw [frameHeaderSize, u64Max]
      omega

lemma SupportedVersion.lt {major minor : ℕ} (h : SupportedVersion major minor) :
    major < 256 ^ 2 ∧ minor < 256 ^ 2 := by
  simp only [SupportedVersion, protocolMajor, protocolLatestMinor, protocolV2Major,
    protocolV2LatestMinor] at h
  omega

/-- The bytes of the fields that the checksum of a header covers. -/
def RawHeader.covered (raw : RawHeader) : List UInt8 :=
  storeLe 4 raw.magic ++ storeLe 2 raw.major ++ storeLe 2 raw.minor ++ storeLe 2 raw.headerSize ++
    storeLe 2 raw.type ++ storeLe 4 raw.flags ++ storeLe 8 raw.requestId ++
    storeLe 4 raw.payloadSize ++ storeLe 4 raw.payloadCrc ++ storeLe 4 raw.reserved

/-- The bytes of the fields of a header. -/
def RawHeader.bytes (raw : RawHeader) : List UInt8 := raw.covered ++ storeLe 4 raw.headerCrc

/-- The fields of a header have their widths. -/
@[mk_iff] structure RawHeader.Representable (raw : RawHeader) : Prop where
  magic : raw.magic < 256 ^ 4
  major : raw.major < 256 ^ 2
  minor : raw.minor < 256 ^ 2
  headerSize : raw.headerSize < 256 ^ 2
  type : raw.type < 256 ^ 2
  flags : raw.flags < 256 ^ 4
  requestId : raw.requestId < 256 ^ 8
  payloadSize : raw.payloadSize < 256 ^ 4
  payloadCrc : raw.payloadCrc < 256 ^ 4
  reserved : raw.reserved < 256 ^ 4
  headerCrc : raw.headerCrc < 256 ^ 4

lemma codes_rawHeader : Codes readRawHeader RawHeader.Representable RawHeader.bytes := by
  rintro bytes ⟨⟩ _
  simp only [readRawHeader, bind_eq_ok, readLe_eq_ok, pure_eq_ok, RawHeader.mk.injEq,
    RawHeader.bytes, RawHeader.covered, append_assoc, existsAndEq, and_true, true_and,
    and_assoc]
  rw [RawHeader.representable_iff]
  exact and_assoc.symm.trans and_right_comm

/-- The fields of a header that the tests let through. -/
def FrameHeader.raw (header : FrameHeader) : RawHeader where
  magic := protocolMagic
  major := header.protocolMajor
  minor := header.protocolMinor
  headerSize := frameHeaderSize
  type := header.messageType.code
  flags := header.flags
  requestId := header.requestId
  payloadSize := header.payloadSize
  payloadCrc := header.payloadCrc32c
  reserved := 0
  headerCrc := crc32c header.covered

variable {header : FrameHeader}

lemma FrameHeader.Valid.representable (h : header.Valid limits) : header.raw.Representable where
  magic := show protocolMagic < 256 ^ 4 by decide
  major := h.version.lt.1
  minor := h.version.lt.2
  headerSize := show frameHeaderSize < 256 ^ 2 by decide
  type := header.messageType.code_lt
  flags := h.flagsWidth
  requestId := h.requestWidth
  payloadSize := h.bounds.lt h.size
  payloadCrc := h.crcWidth
  reserved := show 0 < 256 ^ 4 by decide
  headerCrc := crc32c_lt _

lemma RawHeader.bytes_length (raw : RawHeader) : raw.bytes.length = frameHeaderSize := by
  simp [RawHeader.bytes, RawHeader.covered, frameHeaderSize]

variable {bytes : List UInt8}

lemma decode_rawHeader {raw : RawHeader} (hlength : bytes.length = frameHeaderSize) :
    readRawHeader.decode bytes = .ok raw ↔ raw.Representable ∧ bytes = raw.bytes :=
  codes_rawHeader.decode_of_length (fun raw _ => raw.bytes_length) hlength

/-- What a checksum covers of a header. -/
lemma take_crcOffset {covered trailer : List UInt8} (hcovered : covered.length = headerCrcOffset)
    (hbytes : bytes.take frameHeaderSize = covered ++ trailer) :
    bytes.take headerCrcOffset = covered := by
  have htake : (bytes.take frameHeaderSize).take headerCrcOffset = bytes.take headerCrcOffset := by
    rw [take_take]
    rfl
  rw [← htake, hbytes, take_left' hcovered]

/-- A header is accepted exactly if it is the header of its fields. -/
lemma decodeFrameHeader_eq_ok :
    decodeFrameHeader bytes limits = .ok header ↔
      header.Valid limits ∧ ∃ rest, bytes = header.bytes ++ rest := by
  simp only [decodeFrameHeader, Result.bind_eq_ok, validateProtocolLimits_eq_ok, require_eq_ok,
    requireSome_eq_ok, MessageType.ofCode_eq_some, Except.ok.injEq, exists_const]
  constructor
  · rintro ⟨hlimits, hlength, ⟨_, major, minor, _, code, flags, requestId, payloadSize,
      payloadCrc, _, headerCrc⟩, hraw, rfl, hversion, rfl, type, rfl, rfl, hmajor, hminor, _,
      hflags, hcrc, hpayload, rfl⟩
    obtain ⟨hwidths, hbytes⟩ := (decode_rawHeader (length_take_of_le hlength)).1 hraw
    refine ⟨⟨hlimits, hversion, hmajor, hminor, hflags, hpayload, hwidths.flags,
      hwidths.requestId, hwidths.payloadCrc⟩, bytes.drop frameHeaderSize, ?_⟩
    have hfields : RawHeader.covered ⟨protocolMagic, major, minor, frameHeaderSize, type.code,
        flags, requestId, payloadSize, payloadCrc, 0, headerCrc⟩ =
        FrameHeader.covered ⟨⟨major, minor, type, flags, requestId⟩, payloadSize, payloadCrc⟩ := rfl
    rw [RawHeader.bytes, hfields] at hbytes
    rw [take_crcOffset (FrameHeader.covered_length _) hbytes] at hcrc
    rw [FrameHeader.bytes, sealTrailer, hcrc, ← hbytes, take_append_drop]
  · rintro ⟨hvalid, rest, rfl⟩
    have htake : (header.bytes ++ rest).take frameHeaderSize = header.bytes :=
      take_left' header.bytes_length
    have hcovered : (header.bytes ++ rest).take headerCrcOffset = header.covered :=
      take_crcOffset header.covered_length htake
    refine ⟨hvalid.bounds, by simp, header.raw, ?_, rfl, hvalid.version, rfl, header.messageType,
      rfl, rfl, hvalid.major, hvalid.minor, (), hvalid.flags, ?_, hvalid.size, rfl⟩
    · rw [htake]
      exact (decode_rawHeader header.bytes_length).2 ⟨hvalid.representable, rfl⟩
    · rw [hcovered]
      rfl

/-- A frame is accepted exactly if it is a header and its payload. -/
lemma decodeFrame_eq_ok {frame : Frame} :
    decodeFrame bytes limits = .ok frame ↔
      frame.header.Valid limits ∧ frame.header.payloadSize = frame.payload.length ∧
        frame.header.payloadCrc32c = crc32c frame.payload ∧
        bytes = frame.header.bytes ++ frame.payload := by
  simp only [decodeFrame, Result.bind_eq_ok, decodeFrameHeader_eq_ok, encodedFrameSize_eq_ok,
    require_eq_ok, Except.ok.injEq, exists_const]
  constructor
  · rintro ⟨header, ⟨hvalid, rest, rfl⟩, size, ⟨-, -, rfl⟩, hlength, hcrc, rfl⟩
    rw [length_append, header.bytes_length, Nat.add_left_cancel_iff] at hlength
    have hpayload : ((header.bytes ++ rest).drop frameHeaderSize).take header.payloadSize =
        rest := by
      rw [drop_left' header.bytes_length, ← hlength, take_length]
    rw [hpayload] at hcrc ⊢
    exact ⟨hvalid, hlength.symm, hcrc.symm, rfl⟩
  · rintro ⟨hvalid, hsize, hcrc, rfl⟩
    have hpayload : ((frame.header.bytes ++ frame.payload).drop frameHeaderSize).take
        frame.header.payloadSize = frame.payload := by
      rw [drop_left' frame.header.bytes_length, hsize, take_length]
    refine ⟨frame.header, ⟨hvalid, frame.payload, rfl⟩, _, ⟨hvalid.bounds, hvalid.size, rfl⟩, ?_,
      ?_, ?_⟩
    · rw [length_append, frame.header.bytes_length, hsize]
    · rw [hpayload, hcrc]
    · rw [hpayload]

variable {descriptor : FrameDescriptor} {payload : List UInt8}

/-- A frame is written exactly if its header is one of the protocol. -/
lemma encodeFrame_eq_ok (hdescriptor : descriptor.Representable) :
    encodeFrame descriptor payload limits = .ok bytes ↔
      (descriptor.header payload).Valid limits ∧
        bytes = (descriptor.header payload).bytes ++ payload := by
  simp only [encodeFrame, Result.bind_eq_ok, require_eq_ok, mapError_eq_ok, encodedFrameSize_eq_ok,
    Except.ok.injEq, exists_const]
  constructor
  · rintro ⟨⟨hversion, hmajor, hminor⟩, _, hflags, _, ⟨hlimits, hsize, rfl⟩, rfl⟩
    exact ⟨⟨hlimits, hversion, hmajor, hminor, hflags, hsize, hdescriptor.flags,
      hdescriptor.requestId, crc32c_lt _⟩, rfl⟩
  · rintro ⟨hvalid, rfl⟩
    exact ⟨⟨hvalid.version, hvalid.major, hvalid.minor⟩, (), hvalid.flags, _,
      ⟨hvalid.bounds, hvalid.size, rfl⟩, rfl⟩

/-- The frame of a descriptor and a payload. -/
def FrameDescriptor.frame (descriptor : FrameDescriptor) (payload : List UInt8) : Frame :=
  ⟨descriptor.header payload, payload⟩

/-- **A frame is decoded as it was encoded.** -/
lemma decodeFrame_encodeFrame (hdescriptor : descriptor.Representable)
    (h : encodeFrame descriptor payload limits = .ok bytes) :
    decodeFrame bytes limits = .ok (descriptor.frame payload) := by
  obtain ⟨hvalid, rfl⟩ := (encodeFrame_eq_ok hdescriptor).1 h
  exact decodeFrame_eq_ok.2 ⟨hvalid, rfl, rfl, rfl⟩

/-- **A frame that is accepted is the one its header and payload encode to.** -/
lemma encodeFrame_decodeFrame {frame : Frame} (h : decodeFrame bytes limits = .ok frame) :
    encodeFrame frame.header.toFrameDescriptor frame.payload limits = .ok bytes := by
  obtain ⟨hvalid, hsize, hcrc, rfl⟩ := decodeFrame_eq_ok.1 h
  have hheader : frame.header.toFrameDescriptor.header frame.payload = frame.header := by
    rw [FrameDescriptor.header, ← hsize, ← hcrc]
  refine (encodeFrame_eq_ok ⟨hvalid.flagsWidth, hvalid.requestWidth⟩).2 ?_
  rw [hheader]
  exact ⟨hvalid, rfl⟩

end Chronos.Network
