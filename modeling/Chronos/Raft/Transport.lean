import Chronos.Common.Formats
import Chronos.Schema.Table
import Chronos.Raft.Range

/-!
`raft/transport_codec.cpp`: the frames that carry Raft messages between nodes.

* `validateMessage`: the route and the fields of a message.
* `encodePayload`, `readPayload`: the bytes of a message and their reader;
  `readPayload_eq_ok` says that the reader accepts exactly those bytes.
* `encodeRaftTransportEnvelope`, `decodeRaftTransportEnvelope`: a header of 96 bytes, the payload
  and a checksum; `decode_eq_ok_iff` is the round trip and the canonical form at once.
* `raftTransportFrameLength`: the length that a header declares.
-/

namespace Chronos.Raft.Transport

open Reader List

/-! ### Constants and types -/

/-- `kMagic`, the bytes of `CHRNRTW` and a zero. -/
def magic : List UInt8 := [67, 72, 82, 78, 82, 84, 87, 0]

/-- `kMajor`. -/
def major : ℕ := 1

/-- `kMinor`. -/
def minor : ℕ := 0

/-- `kRaftTransportHeaderSize`. -/
def headerSize : ℕ := 96

/-- `kRaftTransportTrailerSize`. -/
def trailerSize : ℕ := 4

/-- `kFraming`. -/
def framing : ℕ := headerSize + trailerSize

/-- `kMaximumRaftTransportFrameSize`. -/
def maximumRaftTransportFrameSize : ℕ := 64 * 1024 * 1024

/-- `kHeaderCrcOffset`. -/
def headerCrcOffset : ℕ := 76

/-- `kMaximumEntryHeaderSize`. -/
def maximumEntryHeaderSize : ℕ := 24

/-- `RaftTransportCodecLimits`. -/
structure RaftTransportCodecLimits where
  maximumFrameBytes : ℕ := maximumRaftTransportFrameSize
  maximumAppendEntries : ℕ := 1024
  maximumEntryBytes : ℕ := 16 * 1024 * 1024
  maximumSnapshotVoters : ℕ := 31
  deriving DecidableEq

/-- `valid_limits`. -/
abbrev ValidLimits (limits : RaftTransportCodecLimits) : Prop :=
  framing + 16 ≤ limits.maximumFrameBytes ∧
    limits.maximumFrameBytes ≤ maximumRaftTransportFrameSize ∧
    limits.maximumAppendEntries ≠ 0 ∧ limits.maximumAppendEntries ≤ 2 ^ 32 - 1 ∧
    limits.maximumEntryBytes ≠ 0 ∧ limits.maximumEntryBytes ≤ limits.maximumFrameBytes ∧
    limits.maximumSnapshotVoters ≠ 0 ∧ limits.maximumSnapshotVoters ≤ 2 ^ 32 - 1

/-- `RaftTransportEnvelope`. -/
structure RaftTransportEnvelope where
  groupId : Uuid
  source : NodeId
  destination : NodeId
  message : Message
  deriving DecidableEq

/-- The numbers of an envelope fit their fields. -/
structure RaftTransportEnvelope.Representable (envelope : RaftTransportEnvelope) : Prop where
  groupId : envelope.groupId < 256 ^ 16
  source : IsWord envelope.source
  destination : IsWord envelope.destination
  message : envelope.message.Representable

/-- `MessageKind`. -/
inductive MessageKind where
  | requestVoteRequest | requestVoteResponse | appendEntriesRequest | appendEntriesResponse
  | installSnapshotRequest | installSnapshotResponse | readBarrierRequest | readBarrierResponse
  deriving DecidableEq

/-- The byte of a message kind. -/
def MessageKind.code : MessageKind → UInt8
  | .requestVoteRequest => 1
  | .requestVoteResponse => 2
  | .appendEntriesRequest => 3
  | .appendEntriesResponse => 4
  | .installSnapshotRequest => 5
  | .installSnapshotResponse => 6
  | .readBarrierRequest => 7
  | .readBarrierResponse => 8

/-- The message kind of a byte; the source tests its range and casts. -/
def MessageKind.ofCode (code : UInt8) : Option MessageKind :=
  [requestVoteRequest, requestVoteResponse, appendEntriesRequest, appendEntriesResponse,
    installSnapshotRequest, installSnapshotResponse, readBarrierRequest,
    readBarrierResponse].find? (·.code = code)

lemma MessageKind.ofCode_eq_some {code : UInt8} {kind : MessageKind} :
    ofCode code = some kind ↔ code = kind.code := by
  constructor
  · intro h
    have hfound := find?_some (show List.find? _ _ = _ from h)
    exact (of_decide_eq_true hfound).symm
  · rintro rfl
    cases kind <;> rfl

/-- `message_kind`. -/
def messageKind : Message → MessageKind
  | .requestVoteRequest _ => .requestVoteRequest
  | .requestVoteResponse _ => .requestVoteResponse
  | .appendEntriesRequest _ => .appendEntriesRequest
  | .appendEntriesResponse _ => .appendEntriesResponse
  | .installSnapshotRequest _ => .installSnapshotRequest
  | .installSnapshotResponse _ => .installSnapshotResponse
  | .readBarrierRequest _ => .readBarrierRequest
  | .readBarrierResponse _ => .readBarrierResponse

/-! ### Validation -/

/-- `canonical_voters`. -/
abbrev CanonicalVoters (voters : List NodeId) (maximum : ℕ) : Prop :=
  voters.length ≤ maximum ∧
    (voters = [] ∨ voters.head? ≠ some 0 ∧ voters.Pairwise (· < ·))

/-- `validate_snapshot`. -/
def validateSnapshot (snapshot : SnapshotMetadata) (maximumVoters : ℕ) : Result Unit :=
  require (snapshot.lastIncludedIndex ≠ 0 ∧ snapshot.lastIncludedIndex ≠ u64Max ∧
      snapshot.lastIncludedTerm ≠ 0 ∧ snapshot.manifestGeneration ≠ 0 ∧
      snapshot.configurationIndex ≤ snapshot.lastIncludedIndex ∧ snapshot.voters ≠ [] ∧
      CanonicalVoters snapshot.voters maximumVoters)
    (invalid "Raft transport snapshot metadata is inconsistent")

/-- The entry loop of `validate_message`. -/
def validateEntries (limits : RaftTransportCodecLimits) (term : ℕ) :
    (expected : ℕ) → List LogEntry → Result Unit
  | _, [] => .ok ()
  | expected, entry :: entries => do
    require (expected ≠ u64Max ∧ entry.index = expected + 1 ∧ entry.index ≠ u64Max ∧
        entry.term ≠ 0 ∧ entry.term ≤ term ∧ entry.type ≠ 0 ∧
        entry.payload.length ≤ limits.maximumEntryBytes ∧
        (entry.type = leaderNoopEntryType → entry.payload = []))
      (invalid "Raft append entry is noncanonical or exceeds limits")
    validateEntries limits term entry.index entries

/-- The tests of `validate_message` for each kind of message. -/
def validateFields (source : NodeId) (limits : RaftTransportCodecLimits) : Message → Result Unit
  | .requestVoteRequest value =>
      require (value.candidateId = source ∧ (value.lastLogIndex = 0 ↔ value.lastLogTerm = 0) ∧
          value.lastLogIndex ≠ u64Max ∧ value.lastLogTerm ≤ value.term)
        (invalid "Raft vote request identity or last-log position is invalid")
  | .requestVoteResponse _ => .ok ()
  | .appendEntriesRequest value => do
      require (value.leaderId = source ∧
          (value.previousLogIndex = 0 ↔ value.previousLogTerm = 0) ∧
          value.previousLogIndex ≠ u64Max ∧ value.previousLogTerm ≤ value.term ∧
          value.leaderCommit ≠ u64Max ∧ value.entries.length ≤ limits.maximumAppendEntries)
        (invalid "Raft append request identity, previous position, or count is invalid")
      validateEntries limits value.term value.previousLogIndex value.entries
  | .appendEntriesResponse value => do
      require (value.matchIndex ≠ u64Max) (invalid "Raft append response match index is exhausted")
      require (value.success = true → value.conflictTerm = none ∧ value.conflictIndex = 0)
        (invalid "successful Raft append response carries conflict state")
      require (value.success = false → value.conflictIndex ≠ 0)
        (invalid "failed Raft append response has no conflict index")
      require (∀ term ∈ value.conflictTerm, term ≠ 0 ∧ term ≤ value.term)
        (invalid "Raft append response conflict term is invalid")
  | .installSnapshotRequest value => do
      require (value.leaderId = source ∧ value.snapshot.lastIncludedTerm ≤ value.term)
        (invalid "Raft snapshot request identity or term is invalid")
      validateSnapshot value.snapshot limits.maximumSnapshotVoters
  | .installSnapshotResponse value => do
      require (value.lastIncludedIndex ≠ u64Max)
        (invalid "Raft snapshot response installed index is exhausted")
      require (value.success = true → value.lastIncludedIndex ≠ 0)
        (invalid "successful Raft snapshot response has a zero installed index")
  | .readBarrierRequest value =>
      require (value.leaderId = source ∧ value.context ≠ 0)
        (invalid "Raft read barrier request identity is invalid")
  | .readBarrierResponse value =>
      require (value.context ≠ 0) (invalid "Raft read barrier response context is zero")

/-- `validate_message`. -/
def validateMessage (envelope : RaftTransportEnvelope) (limits : RaftTransportCodecLimits) :
    Result Unit := do
  require (envelope.groupId ≠ 0 ∧ envelope.source ≠ 0 ∧ envelope.destination ≠ 0 ∧
      envelope.source ≠ envelope.destination) (invalid "Raft transport route identity is invalid")
  require (envelope.message.term ≠ 0) (invalid "Raft transport message term is zero")
  validateFields envelope.source limits envelope.message

/-! ### Writing -/

/-- One round of the entry loop of `message_payload_size`. -/
def addEntrySize (limits : RaftTransportCodecLimits) (size : ℕ) (entry : LogEntry) : Result ℕ := do
  require (entry.payload.length ≤ limits.maximumEntryBytes ∧
      size ≤ limits.maximumFrameBytes - maximumEntryHeaderSize ∧
      entry.payload.length ≤ limits.maximumFrameBytes - size - maximumEntryHeaderSize)
    (exhausted "Raft append payload exceeds frame limits")
  .ok (size + (maximumEntryHeaderSize + entry.payload.length))

/-- `message_payload_size`. -/
def messagePayloadSize (limits : RaftTransportCodecLimits) : Message → Result ℕ
  | .requestVoteRequest _ => .ok 32
  | .requestVoteResponse _ => .ok 16
  | .appendEntriesRequest value => value.entries.foldlM (addEntrySize limits) 48
  | .appendEntriesResponse _ => .ok 40
  | .installSnapshotRequest value => .ok (16 + (72 + value.snapshot.voters.length * 8))
  | .installSnapshotResponse _ => .ok 24
  | .readBarrierRequest _ => .ok 24
  | .readBarrierResponse _ => .ok 24

/-- `write_snapshot`. -/
def writeSnapshot (snapshot : SnapshotMetadata) : List UInt8 :=
  storeLe 8 snapshot.lastIncludedIndex ++ storeLe 8 snapshot.lastIncludedTerm ++
    storeLe 8 snapshot.manifestGeneration ++ snapshot.partSetChecksum.toList ++
    storeLe 8 snapshot.configurationIndex ++ storeLe 4 snapshot.voters.length ++
    List.replicate 4 0 ++ snapshot.voters.flatMap (storeLe 8)

/-- The bytes of one entry of an append request. -/
def writeEntry (entry : LogEntry) : List UInt8 :=
  storeLe 8 entry.index ++ storeLe 8 entry.term ++ [entry.type] ++ List.replicate 3 0 ++
    storeLe 4 entry.payload.length ++ entry.payload

/-- The part of a payload that follows the term. -/
def encodeBody : Message → List UInt8
  | .requestVoteRequest value =>
      storeLe 8 value.candidateId ++ storeLe 8 value.lastLogIndex ++ storeLe 8 value.lastLogTerm
  | .requestVoteResponse value => [value.granted.toUInt8] ++ List.replicate 7 0
  | .appendEntriesRequest value =>
      storeLe 8 value.leaderId ++ storeLe 8 value.previousLogIndex ++
        storeLe 8 value.previousLogTerm ++ storeLe 8 value.leaderCommit ++
        storeLe 4 value.entries.length ++ List.replicate 4 0 ++ value.entries.flatMap writeEntry
  | .appendEntriesResponse value =>
      [value.success.toUInt8, value.conflictTerm.isSome.toUInt8] ++ List.replicate 6 0 ++
        storeLe 8 value.matchIndex ++ storeLe 8 (value.conflictTerm.getD 0) ++
        storeLe 8 value.conflictIndex
  | .installSnapshotRequest value => storeLe 8 value.leaderId ++ writeSnapshot value.snapshot
  | .installSnapshotResponse value =>
      [value.success.toUInt8] ++ List.replicate 7 0 ++ storeLe 8 value.lastIncludedIndex
  | .readBarrierRequest value => storeLe 8 value.leaderId ++ storeLe 8 value.context
  | .readBarrierResponse value =>
      storeLe 8 value.context ++ [value.accepted.toUInt8] ++ List.replicate 7 0

/-- The bytes that `encode_payload` writes. -/
def encodePayload (message : Message) : List UInt8 := storeLe 8 message.term ++ encodeBody message

/-- `raft_transport_encoded_length_v1`. -/
def raftTransportEncodedLength (envelope : RaftTransportEnvelope)
    (limits : RaftTransportCodecLimits) : Result ℕ := do
  require (ValidLimits limits) (invalid "Raft transport codec limits are invalid")
  validateMessage envelope limits
  let size ← messagePayloadSize limits envelope.message
  require (size ≤ limits.maximumFrameBytes - framing)
    (exhausted "Raft transport frame exceeds its byte limit")
  .ok (framing + size)

/-- The fields of a frame header. -/
@[ext] structure FrameHeader where
  magic : List UInt8
  major : ℕ
  minor : ℕ
  headerSize : ℕ
  total : ℕ
  groupId : Uuid
  source : NodeId
  destination : NodeId
  kind : UInt8
  reserved : List UInt8
  payloadLength : ℕ
  payloadCrc : ℕ
  headerCrc : ℕ
  tail : List UInt8

/-- The bytes of a header that stand before its checksum. -/
def FrameHeader.before (header : FrameHeader) : List UInt8 :=
  header.magic ++ storeLe 2 header.major ++ storeLe 2 header.minor ++ storeLe 4 header.headerSize ++
    storeLe 8 header.total ++ storeBe 16 header.groupId ++ storeLe 8 header.source ++
    storeLe 8 header.destination ++ [header.kind] ++ header.reserved ++
    storeLe 8 header.payloadLength ++ storeLe 4 header.payloadCrc

/-- The header of the frame of an envelope, with a given checksum. -/
def frameHeader (envelope : RaftTransportEnvelope) (headerCrc : ℕ) : FrameHeader :=
  let payload := encodePayload envelope.message
  ⟨magic, major, minor, headerSize, framing + payload.length, envelope.groupId, envelope.source,
    envelope.destination, (messageKind envelope.message).code, List.replicate 7 0, payload.length,
    crc32c payload, headerCrc, List.replicate 16 0⟩

/-- The bytes of a frame. -/
def frameBytes (envelope : RaftTransportEnvelope) : List UInt8 :=
  let header := frameHeader envelope 0
  sealTrailer (sealField header.before header.tail ++ encodePayload envelope.message)

/-- `encode_raft_transport_envelope_v1`. -/
def encodeRaftTransportEnvelope (envelope : RaftTransportEnvelope)
    (limits : RaftTransportCodecLimits) : Result (List UInt8) := do
  let total ← raftTransportEncodedLength envelope limits
  require ((encodePayload envelope.message).length = total - framing)
    (corruption "Raft transport payload size calculation disagrees")
  .ok (frameBytes envelope)

/-! ### Reading -/

/-- `decode_snapshot`. -/
def readSnapshot (limits : RaftTransportCodecLimits) : Reader Status SnapshotMetadata := do
  let fail := corruption "Raft transport snapshot header is invalid"
  let index ← readLe fail 8
  let term ← readLe fail 8
  let generation ← readLe fail 8
  let checksum ← readArray fail 32
  let configuration ← readLe fail 8
  let voterCount ← readLe fail 4
  readZeros fail 4
  let left ← remaining
  check (voterCount ≤ limits.maximumSnapshotVoters ∧ voterCount ≤ left / 8)
    (exhausted "Raft transport snapshot voter count exceeds limits")
  let voters ← many (readLe (corruption "Raft transport snapshot voters are truncated") 8)
    voterCount
  let snapshot : SnapshotMetadata := ⟨index, term, generation, checksum, configuration, voters⟩
  check (validateSnapshot snapshot limits.maximumSnapshotVoters = .ok ())
    (corruption "Raft transport snapshot metadata is inconsistent")
  pure snapshot

/-- One round of the entry loop of `decode_payload`. -/
def readEntry (limits : RaftTransportCodecLimits) : Reader Status LogEntry := do
  let fail := corruption "Raft append entry header is invalid"
  let index ← readLe fail 8
  let term ← readLe fail 8
  let type ← readByte fail
  readZeros fail 3
  let size ← readLe fail 4
  let left ← remaining
  check (size ≤ limits.maximumEntryBytes ∧ size ≤ left)
    (exhausted "Raft append entry payload exceeds limits")
  let payload ← readExact (corruption "Raft append entry payload is truncated") size
  pure ⟨index, term, type, payload⟩

/-- The cases of `decode_payload`. -/
def readBody (limits : RaftTransportCodecLimits) (term : ℕ) : MessageKind → Reader Status Message
  | .requestVoteRequest => do
      let fail := corruption "Raft vote request is truncated"
      let candidate ← readLe fail 8
      let index ← readLe fail 8
      let lastTerm ← readLe fail 8
      pure (.requestVoteRequest ⟨term, candidate, index, lastTerm⟩)
  | .requestVoteResponse => do
      let fail := corruption "Raft vote response is noncanonical"
      let granted ← readFlag fail
      readZeros fail 7
      pure (.requestVoteResponse ⟨term, granted⟩)
  | .appendEntriesRequest => do
      let fail := corruption "Raft append request header is invalid"
      let leader ← readLe fail 8
      let previousIndex ← readLe fail 8
      let previousTerm ← readLe fail 8
      let commit ← readLe fail 8
      let count ← readLe fail 4
      readZeros fail 4
      let left ← remaining
      check (count ≤ limits.maximumAppendEntries ∧ count ≤ left / maximumEntryHeaderSize)
        (exhausted "Raft append entry count exceeds limits")
      let entries ← many (readEntry limits) count
      pure (.appendEntriesRequest ⟨term, leader, previousIndex, previousTerm, entries, commit⟩)
  | .appendEntriesResponse => do
      let fail := corruption "Raft append response is noncanonical"
      let success ← readFlag fail
      let hasConflict ← readFlag fail
      readZeros fail 6
      let found ← readLe fail 8
      let conflictTerm ← readLe fail 8
      let conflictIndex ← readLe fail 8
      check (hasConflict = false → conflictTerm = 0) fail
      pure (.appendEntriesResponse ⟨term, success, found,
        if hasConflict then some conflictTerm else none, conflictIndex⟩)
  | .installSnapshotRequest => do
      let leader ← readLe (corruption "Raft snapshot request leader is truncated") 8
      let snapshot ← readSnapshot limits
      pure (.installSnapshotRequest ⟨term, leader, snapshot⟩)
  | .installSnapshotResponse => do
      let fail := corruption "Raft snapshot response is noncanonical"
      let success ← readFlag fail
      readZeros fail 7
      let index ← readLe fail 8
      pure (.installSnapshotResponse ⟨term, success, index⟩)
  | .readBarrierRequest => do
      let fail := corruption "Raft read barrier request is truncated"
      let leader ← readLe fail 8
      let context ← readLe fail 8
      pure (.readBarrierRequest ⟨term, leader, context⟩)
  | .readBarrierResponse => do
      let fail := corruption "Raft read barrier response is noncanonical"
      let context ← readLe fail 8
      let accepted ← readFlag fail
      readZeros fail 7
      pure (.readBarrierResponse ⟨term, context, accepted⟩)

/-- `decode_payload`. -/
def readPayload (limits : RaftTransportCodecLimits) (kind : MessageKind) :
    Reader Status Message := do
  let term ← readLe (corruption "Raft transport message term is truncated") 8
  let message ← readBody limits term kind
  atEnd (corruption "Raft transport message has trailing bytes")
  pure message

/-- The fields of a header of 96 bytes; the source loads them at their offsets. -/
def readFrameHeader : Reader Status FrameHeader := do
  let fail := corruption "Raft transport header is truncated"
  let magic ← readExact fail 8
  let major ← readLe fail 2
  let minor ← readLe fail 2
  let headerSize ← readLe fail 4
  let total ← readLe fail 8
  let groupId ← readBe fail 16
  let source ← readLe fail 8
  let destination ← readLe fail 8
  let kind ← readByte fail
  let reserved ← readExact fail 7
  let payloadLength ← readLe fail 8
  let payloadCrc ← readLe fail 4
  let headerCrc ← readLe fail 4
  let tail ← readExact fail 16
  pure ⟨magic, major, minor, headerSize, total, groupId, source, destination, kind, reserved,
    payloadLength, payloadCrc, headerCrc, tail⟩

/-- `raft_transport_frame_length_v1`. -/
def raftTransportFrameLength (header : List UInt8) (limits : RaftTransportCodecLimits) :
    Result ℕ := do
  require (ValidLimits limits) (invalid "Raft transport codec limits are invalid")
  require (header.length = headerSize) (corruption "Raft transport header is truncated")
  let fields ← readFrameHeader.decode header
  require (fields.magic = magic) (corruption "Raft transport magic is invalid")
  require (fields.headerCrc = crc32c (zeroField headerCrcOffset header))
    (corruption "Raft transport header checksum mismatch")
  require (fields.major = major ∧ fields.minor = minor)
    (unsupported "Raft transport version is unsupported")
  require (fields.headerSize = headerSize ∧ fields.reserved = List.replicate 7 0 ∧
      fields.tail = List.replicate 16 0 ∧ fields.groupId ≠ 0)
    (corruption "Raft transport fixed header is invalid")
  let _ ← requireSome (unsupported "Raft transport message kind is unsupported")
    (MessageKind.ofCode fields.kind)
  require (framing ≤ fields.total ∧ fields.total ≤ limits.maximumFrameBytes ∧
      fields.payloadLength = fields.total - framing ∧ fields.source ≠ 0 ∧
      fields.destination ≠ 0 ∧ fields.source ≠ fields.destination)
    (corruption "Raft transport declared frame or route is invalid")
  .ok fields.total

/-- The corruption status that replaces a failed validation, with its message. -/
def asCorruption : Result Unit → Result Unit
  | .ok () => .ok ()
  | .error status => .error (corruption status.message)

/-- `decode_raft_transport_envelope_v1`. -/
def decodeRaftTransportEnvelope (bytes : List UInt8) (limits : RaftTransportCodecLimits) :
    Result RaftTransportEnvelope := do
  require (ValidLimits limits) (invalid "Raft transport codec limits are invalid")
  require (framing ≤ bytes.length) (corruption "Raft transport frame is truncated")
  require (bytes.length ≤ limits.maximumFrameBytes)
    (exhausted "Raft transport frame exceeds its byte limit")
  let header := bytes.take headerSize
  let fields ← readFrameHeader.decode header
  require (fields.magic = magic) (corruption "Raft transport magic is invalid")
  require (fields.headerCrc = crc32c (zeroField headerCrcOffset header))
    (corruption "Raft transport header checksum mismatch")
  require (fields.major = major ∧ fields.minor = minor)
    (unsupported "Raft transport version is unsupported")
  require (fields.headerSize = headerSize ∧ fields.total = bytes.length)
    (corruption "Raft transport frame lengths are inconsistent")
  require (fields.reserved = List.replicate 7 0 ∧ fields.tail = List.replicate 16 0)
    (corruption "Raft transport reserved bytes are nonzero")
  let kind ← requireSome (unsupported "Raft transport message kind is unsupported")
    (MessageKind.ofCode fields.kind)
  require (fields.payloadLength = bytes.length - framing)
    (corruption "Raft transport payload length is inconsistent")
  let payload := (bytes.drop headerSize).take fields.payloadLength
  let body := bytes.length - trailerSize
  require (fields.payloadCrc = crc32c payload ∧
      crc32c (bytes.take body) = ofLe (bytes.drop body))
    (corruption "Raft transport frame checksum mismatch")
  let message ← (readPayload limits kind).decode payload
  let envelope : RaftTransportEnvelope :=
    ⟨fields.groupId, fields.source, fields.destination, message⟩
  asCorruption (validateMessage envelope limits)
  .ok envelope

/-! ### The payload is read back -/

/-- The lists of a message are within the limits of the readers. -/
def WithinLimits (limits : RaftTransportCodecLimits) : Message → Prop
  | .appendEntriesRequest value =>
      value.entries.length ≤ limits.maximumAppendEntries ∧
        ∀ entry ∈ value.entries, entry.payload.length ≤ limits.maximumEntryBytes
  | .installSnapshotRequest value =>
      validateSnapshot value.snapshot limits.maximumSnapshotVoters = .ok ()
  | _ => True

section Payload

variable {limits : RaftTransportCodecLimits}

lemma codes_readEntry (hlimits : ValidLimits limits) : Codes (readEntry limits)
    (fun entry => entry.Representable ∧ entry.payload.length ≤ limits.maximumEntryBytes)
    writeEntry := by
  rintro _ ⟨index, term, _, _⟩ _
  simp only [readEntry, bind_eq_ok, readLe_eq_ok, readByte_eq_ok, readExact_eq_ok, readZeros_eq_ok,
    remaining_eq_ok, check_eq_ok, pure_eq_ok, LogEntry.mk.injEq, writeEntry, append_assoc,
    cons_append, nil_append, existsAndEq, exists_const, and_true, true_and, and_assoc]
  constructor
  · rintro ⟨hindex, hbytes, hterm, -, hpayload, -⟩
    exact ⟨⟨hindex, hterm⟩, hpayload, hbytes⟩
  · rintro ⟨hentry, hpayload, hbytes⟩
    obtain ⟨-, hframe, -, -, -, _, -⟩ := hlimits
    rw [maximumRaftTransportFrameSize] at hframe
    exact ⟨hentry.index, hbytes, hentry.term, by omega, hpayload, by simp⟩

lemma voters_length_le {snapshot : SnapshotMetadata} {maximum : ℕ}
    (h : validateSnapshot snapshot maximum = .ok ()) : snapshot.voters.length ≤ maximum :=
  (require_eq_ok.1 h).2.2.2.2.2.2.1

lemma codes_readSnapshot (hlimits : ValidLimits limits) : Codes (readSnapshot limits)
    (fun snapshot => snapshot.Representable ∧
      validateSnapshot snapshot limits.maximumSnapshotVoters = .ok ()) writeSnapshot := by
  rintro _ ⟨_, _, _, _, _, voters⟩ _
  simp only [readSnapshot, bind_eq_ok, readLe_eq_ok, readArray_eq_ok, readZeros_eq_ok,
    remaining_eq_ok, check_eq_ok, pure_eq_ok, (Codes.readLe _ 8).many_eq_ok,
    SnapshotMetadata.mk.injEq, writeSnapshot, append_assoc,
    existsAndEq, exists_const, and_true, true_and, and_assoc]
  constructor
  · rintro ⟨hindex, hbytes, hterm, hgeneration, hconfiguration, -, -, -, hvoters, hvalid⟩
    exact ⟨⟨hindex, hterm, hgeneration, hconfiguration, hvoters⟩, hvalid, hbytes⟩
  · rintro ⟨h, hvalid, hbytes⟩
    have hcount : voters.length ≤ limits.maximumSnapshotVoters := voters_length_le hvalid
    refine ⟨h.lastIncludedIndex, hbytes, h.lastIncludedTerm, h.manifestGeneration,
      h.configurationIndex, by omega, hcount, ?_, h.voters, hvalid⟩
    rw [length_append, flatMap_storeLe_length]
    omega

lemma writeEntry_length (entry : LogEntry) :
    (writeEntry entry).length = maximumEntryHeaderSize + entry.payload.length := by
  simp only [writeEntry, maximumEntryHeaderSize, length_append, storeLe_length,
    length_cons, length_nil, length_replicate]

lemma entries_le_length (entries : List LogEntry) :
    maximumEntryHeaderSize * entries.length ≤ (entries.flatMap writeEntry).length := by
  induction entries with
  | nil => simp
  | cons =>
    rw [flatMap_cons, length_append, writeEntry_length, length_cons, Nat.mul_succ]
    omega

lemma conflict_eq_iff {hasConflict : Bool} {stored : ℕ} {conflict : Option ℕ} :
    ((hasConflict = false → stored = 0) ∧
        (if hasConflict = true then some stored else none) = conflict) ↔
      hasConflict = conflict.isSome ∧ stored = conflict.getD 0 := by
  cases hasConflict <;> cases conflict <;> simp

variable {term : ℕ} {kind : MessageKind} {bytes rest : List UInt8} {message : Message}

/-- The readers of a message body return a message of the kind they read. -/
lemma readBody_kind (h : readBody limits term kind bytes = .ok (message, rest)) :
    messageKind message = kind := by
  cases kind <;> simp only [readBody, bind_eq_ok, pure_eq_ok] at h <;> grind [messageKind]

/-- The body of a message is read by the reader of its kind. -/
lemma readBody_eq_ok (hlimits : ValidLimits limits) (hterm : IsWord term) :
    readBody limits term (messageKind message) bytes = .ok (message, rest) ↔
      term = message.term ∧ message.Representable ∧ WithinLimits limits message ∧
        bytes = encodeBody message ++ rest := by
  cases message
  all_goals
    rename_i value
    obtain ⟨⟩ := value
    simp only [messageKind, readBody, bind_eq_ok, readLe_eq_ok, readFlag_eq_ok, readZeros_eq_ok,
      remaining_eq_ok, check_eq_ok, (codes_readEntry hlimits).many_eq_ok,
      (codes_readSnapshot hlimits).eq_ok, pure_eq_ok, Message.requestVoteRequest.injEq,
      RequestVoteRequest.mk.injEq, Message.requestVoteResponse.injEq, RequestVoteResponse.mk.injEq,
      Message.appendEntriesRequest.injEq, AppendEntriesRequest.mk.injEq,
      Message.appendEntriesResponse.injEq, AppendEntriesResponse.mk.injEq,
      Message.installSnapshotRequest.injEq, InstallSnapshotRequest.mk.injEq,
      Message.installSnapshotResponse.injEq, InstallSnapshotResponse.mk.injEq,
      Message.readBarrierRequest.injEq, ReadBarrierRequest.mk.injEq,
      Message.readBarrierResponse.injEq, ReadBarrierResponse.mk.injEq, encodeBody, Message.term,
      append_assoc, cons_append, nil_append, existsAndEq, exists_const, and_true, true_and,
      and_assoc]
  case requestVoteRequest =>
    constructor
    · rintro ⟨hcandidate, hbytes, hindex, hlast, rfl⟩
      exact ⟨rfl, ⟨hterm, hcandidate, hindex, hlast⟩, trivial, hbytes⟩
    · rintro ⟨rfl, ⟨-, hcandidate, hindex, hlast⟩, -, hbytes⟩
      exact ⟨hcandidate, hbytes, hindex, hlast, rfl⟩
  case requestVoteResponse =>
    constructor
    · rintro ⟨hbytes, rfl⟩
      exact ⟨rfl, hterm, trivial, hbytes⟩
    · rintro ⟨rfl, -, -, hbytes⟩
      exact ⟨hbytes, rfl⟩
  case appendEntriesRequest entries _ =>
    constructor
    · rintro ⟨hleader, hbytes, hindex, hprevious, hcommit, -, hcount, -, hentries, rfl⟩
      exact ⟨rfl, ⟨hterm, hleader, hindex, hprevious, fun entry he => (hentries entry he).1,
        hcommit⟩, ⟨hcount, fun entry he => (hentries entry he).2⟩, hbytes⟩
    · rintro ⟨rfl, ⟨-, hleader, hindex, hprevious, hentries, hcommit⟩, ⟨hcount, hpayloads⟩, hbytes⟩
      have hmany := entries_le_length entries
      dsimp only at hcount
      refine ⟨hleader, hbytes, hindex, hprevious, hcommit, by omega, hcount, ?_,
        fun entry he => ⟨hentries entry he, hpayloads entry he⟩, rfl⟩
      rw [length_append]
      rw [maximumEntryHeaderSize] at hmany ⊢
      omega
  case appendEntriesResponse =>
    constructor
    · rintro ⟨_, _, hbytes, hfound, hstored, hindex, hzero, rfl, hconflict⟩
      obtain ⟨rfl, rfl⟩ := conflict_eq_iff.1 ⟨hzero, hconflict⟩
      refine ⟨rfl, ⟨hterm, hfound, ?_, hindex⟩, trivial, hbytes⟩
      rintro term rfl
      exact hstored
    · rintro ⟨rfl, ⟨-, hfound, hconflict, hindex⟩, -, hbytes⟩
      obtain ⟨hzero, heq⟩ := conflict_eq_iff.2 ⟨rfl, rfl⟩
      exact ⟨_, _, hbytes, hfound, isWord_getD hconflict, hindex, hzero, rfl, heq⟩
  case installSnapshotRequest =>
    constructor
    · rintro ⟨hleader, hbytes, hsnapshot, hvalid, rfl⟩
      exact ⟨rfl, ⟨hterm, hleader, hsnapshot⟩, hvalid, hbytes⟩
    · rintro ⟨rfl, ⟨-, hleader, hsnapshot⟩, hvalid, hbytes⟩
      exact ⟨hleader, hbytes, hsnapshot, hvalid, rfl⟩
  case installSnapshotResponse =>
    constructor
    · rintro ⟨hbytes, hindex, rfl⟩
      exact ⟨rfl, ⟨hterm, hindex⟩, trivial, hbytes⟩
    · rintro ⟨rfl, ⟨-, hindex⟩, -, hbytes⟩
      exact ⟨hbytes, hindex, rfl⟩
  case readBarrierRequest =>
    constructor
    · rintro ⟨hleader, hbytes, hcontext, rfl⟩
      exact ⟨rfl, ⟨hterm, hleader, hcontext⟩, trivial, hbytes⟩
    · rintro ⟨rfl, ⟨-, hleader, hcontext⟩, -, hbytes⟩
      exact ⟨hleader, hbytes, hcontext, rfl⟩
  case readBarrierResponse =>
    constructor
    · rintro ⟨hcontext, hbytes, rfl⟩
      exact ⟨rfl, ⟨hterm, hcontext⟩, trivial, hbytes⟩
    · rintro ⟨rfl, ⟨-, hcontext⟩, -, hbytes⟩
      exact ⟨hcontext, hbytes, rfl⟩

/-- **The payload reader accepts exactly the payloads of messages within the limits.** -/
lemma readPayload_eq_ok (hlimits : ValidLimits limits) :
    readPayload limits kind bytes = .ok (message, rest) ↔ messageKind message = kind ∧
      message.Representable ∧ WithinLimits limits message ∧ bytes = encodePayload message ∧
        rest = [] := by
  simp only [readPayload, bind_eq_ok, readLe_eq_ok, atEnd_eq_ok, pure_eq_ok, existsAndEq,
    exists_const, true_and, and_assoc]
  constructor
  · rintro ⟨term, _, hterm, rfl, hbody, hrest⟩
    obtain rfl := readBody_kind hbody
    obtain ⟨rfl, hmessage, hwithin, rfl⟩ := (readBody_eq_ok hlimits hterm).1 hbody
    exact ⟨rfl, hmessage, hwithin, by rw [encodePayload, append_nil], hrest.symm⟩
  · rintro ⟨rfl, hmessage, hwithin, rfl, rfl⟩
    exact ⟨message.term, encodeBody message, hmessage.term, rfl,
      (readBody_eq_ok hlimits hmessage.term).2 ⟨rfl, hmessage, hwithin, (append_nil _).symm⟩, rfl⟩

/-! ### Sizes -/

variable {entries : List LogEntry} {size : ℕ}

lemma addEntrySizes_eq {total : ℕ} (h : entries.foldlM (addEntrySize limits) size = .ok total) :
    total = size + (entries.flatMap writeEntry).length := by
  induction entries generalizing size with
  | nil =>
    cases h
    rfl
  | cons _ _ ih =>
    rw [foldlM_cons] at h
    obtain ⟨_, hnext, hrest⟩ := Result.bind_eq_ok.1 h
    obtain ⟨-, -, hok⟩ := Result.bind_eq_ok.1 hnext
    cases hok
    rw [ih hrest, flatMap_cons, length_append, writeEntry_length]
    omega

/-- Entries whose bytes stay within the frame pass every round of the size loop. -/
lemma addEntrySizes_of_le
    (hpayloads : ∀ entry ∈ entries, entry.payload.length ≤ limits.maximumEntryBytes)
    (hsize : size + (entries.flatMap writeEntry).length ≤ limits.maximumFrameBytes) :
    entries.foldlM (addEntrySize limits) size =
      .ok (size + (entries.flatMap writeEntry).length) := by
  induction entries generalizing size with
  | nil => rfl
  | cons entry _ ih =>
    obtain ⟨hentry, hentries⟩ := forall_mem_cons.1 hpayloads
    rw [flatMap_cons, length_append, writeEntry_length] at hsize ⊢
    have hnext : addEntrySize limits size entry =
        .ok (size + (maximumEntryHeaderSize + entry.payload.length)) := by
      rw [addEntrySize, require, if_pos ⟨hentry, by omega, by omega⟩]
      rfl
    have hrest := @ih (size + (maximumEntryHeaderSize + entry.payload.length)) hentries (by omega)
    rw [Nat.add_assoc] at hrest
    rw [foldlM_cons, hnext]
    exact hrest

lemma writeSnapshot_length (snapshot : SnapshotMetadata) :
    (writeSnapshot snapshot).length = 72 + snapshot.voters.length * 8 := by
  simp only [writeSnapshot, length_append, storeLe_length, flatMap_storeLe_length,
    Vector.length_toList, length_replicate]
  omega

lemma encodePayload_append_length (value : AppendEntriesRequest) :
    (encodePayload (.appendEntriesRequest value)).length =
      48 + (value.entries.flatMap writeEntry).length := by
  simp only [encodePayload, encodeBody, length_append, storeLe_length, length_replicate]
  omega

/-- The computed payload size is the number of bytes written. -/
lemma messagePayloadSize_eq (h : messagePayloadSize limits message = .ok size) :
    size = (encodePayload message).length := by
  cases message with
  | appendEntriesRequest value =>
    rw [addEntrySizes_eq h, encodePayload_append_length]
  | installSnapshotRequest value =>
    cases h
    simp only [encodePayload, encodeBody, length_append, storeLe_length, writeSnapshot_length]
    omega
  | _ =>
    cases h
    simp [encodePayload, encodeBody]

/-- The payload size is computed for every message whose bytes fit. -/
lemma messagePayloadSize_of_le (hwithin : WithinLimits limits message)
    (hsize : (encodePayload message).length ≤ limits.maximumFrameBytes) :
    messagePayloadSize limits message = .ok (encodePayload message).length := by
  suffices hok : ∃ size, messagePayloadSize limits message = .ok size by
    obtain ⟨_, hok⟩ := hok
    rw [hok, ← messagePayloadSize_eq hok]
  cases message with
  | appendEntriesRequest value =>
    rw [encodePayload_append_length] at hsize
    exact ⟨_, addEntrySizes_of_le hwithin.2 hsize⟩
  | _ => exact ⟨_, rfl⟩

/-! ### Valid messages are within the limits -/

lemma validateEntries_payloads {expected : ℕ}
    (h : validateEntries limits term expected entries = .ok ()) :
    ∀ entry ∈ entries, entry.payload.length ≤ limits.maximumEntryBytes := by
  induction entries generalizing expected with
  | nil => simp
  | cons _ _ ih =>
    obtain ⟨_, hentry, hrest⟩ := Result.bind_eq_ok.1 h
    obtain ⟨-, -, -, -, -, -, hpayload, -⟩ := require_eq_ok.1 hentry
    exact forall_mem_cons.2 ⟨hpayload, ih hrest⟩

lemma validateMessage_withinLimits {envelope : RaftTransportEnvelope}
    (h : validateMessage envelope limits = .ok ()) : WithinLimits limits envelope.message := by
  obtain ⟨_, -, h⟩ := Result.bind_eq_ok.1 h
  obtain ⟨_, -, h⟩ := Result.bind_eq_ok.1 h
  obtain ⟨_, _, _, message⟩ := envelope
  cases message with
  | appendEntriesRequest value =>
    obtain ⟨_, hfields, hentries⟩ := Result.bind_eq_ok.1 h
    obtain ⟨-, -, -, -, -, hcount⟩ := require_eq_ok.1 hfields
    exact ⟨hcount, validateEntries_payloads hentries⟩
  | installSnapshotRequest value =>
    obtain ⟨_, -, hsnapshot⟩ := Result.bind_eq_ok.1 h
    exact hsnapshot
  | _ => trivial

end Payload

/-! ### Frames -/

section Frames

variable {limits : RaftTransportCodecLimits} {envelope : RaftTransportEnvelope}
  {bytes : List UInt8}

/-- An envelope that has a frame under the limits. -/
structure Framed (limits : RaftTransportCodecLimits) (envelope : RaftTransportEnvelope) :
    Prop where
  validLimits : ValidLimits limits
  valid : validateMessage envelope limits = .ok ()
  size : framing + (encodePayload envelope.message).length ≤ limits.maximumFrameBytes

/-- The encoder succeeds exactly on the envelopes that have a frame. -/
lemma encode_eq_ok_iff : encodeRaftTransportEnvelope envelope limits = .ok bytes ↔
    Framed limits envelope ∧ bytes = frameBytes envelope := by
  simp only [encodeRaftTransportEnvelope, raftTransportEncodedLength, Result.bind_eq_ok,
    require_eq_ok, Except.ok.injEq, exists_const]
  constructor
  · rintro ⟨_, ⟨hlimits, ⟨⟩, hvalid, size, hsize, _, rfl⟩, _, rfl⟩
    have hframing : framing + 16 ≤ limits.maximumFrameBytes := hlimits.1
    exact ⟨⟨hlimits, hvalid, by omega⟩, rfl⟩
  · rintro ⟨h, rfl⟩
    have hsize := h.size
    exact ⟨_, ⟨h.validLimits, (), h.valid, _,
      messagePayloadSize_of_le (validateMessage_withinLimits h.valid) (by omega), by omega, rfl⟩,
      by omega, rfl⟩

/-- The fields of a header fit their widths. -/
@[mk_iff] structure FrameHeader.Representable (header : FrameHeader) : Prop where
  magic : header.magic.length = 8
  major : header.major < 256 ^ 2
  minor : header.minor < 256 ^ 2
  headerSize : header.headerSize < 256 ^ 4
  total : IsWord header.total
  groupId : header.groupId < 256 ^ 16
  source : IsWord header.source
  destination : IsWord header.destination
  reserved : header.reserved.length = 7
  payloadLength : IsWord header.payloadLength
  payloadCrc : header.payloadCrc < 256 ^ 4
  headerCrc : header.headerCrc < 256 ^ 4
  tail : header.tail.length = 16

lemma FrameHeader.Representable.before_length {header : FrameHeader} (h : header.Representable) :
    header.before.length = headerCrcOffset := by
  simp only [FrameHeader.before, length_append, h.magic, h.reserved, storeLe_length,
    storeBe_length, length_cons, length_nil, headerCrcOffset]

lemma codes_readFrameHeader : Codes readFrameHeader FrameHeader.Representable
    (fun header => header.before ++ storeLe 4 header.headerCrc ++ header.tail) := by
  rintro _ ⟨⟩ _
  simp only [readFrameHeader, bind_eq_ok, readExact_eq_ok, readLe_eq_ok, readBe_eq_ok,
    readByte_eq_ok, pure_eq_ok, FrameHeader.mk.injEq, FrameHeader.before, append_assoc,
    cons_append, nil_append, existsAndEq, and_true, true_and, and_assoc]
  rw [FrameHeader.representable_iff]
  exact and_assoc.symm.trans and_right_comm

/-- A header with the right checksum is the sealed form of its fields, and conversely. -/
lemma readFrameHeader_sealed {header : List UInt8} {fields : FrameHeader} :
    (header.length = headerSize ∧ readFrameHeader.decode header = .ok fields ∧
        fields.headerCrc = crc32c (zeroField headerCrcOffset header)) ↔
      fields.Representable ∧ header = sealField fields.before fields.tail ∧
        fields.headerCrc = crc32c (fields.before ++ List.replicate 4 0 ++ fields.tail) :=
  codes_readFrameHeader.sealed_iff (fun _ hfields => hfields.before_length) fun _ hfields => by
    rw [hfields.before_length, hfields.tail]
    rfl

/-- The header of a frame with the checksum that the encoder puts in. -/
def sealedHeader (envelope : RaftTransportEnvelope) : FrameHeader :=
  frameHeader envelope
    (crc32c ((frameHeader envelope 0).before ++ List.replicate 4 0 ++ List.replicate 16 0))

lemma sealedHeader_representable (hframed : Framed limits envelope)
    (henvelope : envelope.Representable) : (sealedHeader envelope).Representable := by
  have hsize := hframed.size
  have hmaximum := hframed.validLimits.2.1
  rw [maximumRaftTransportFrameSize] at hmaximum
  refine ⟨rfl, (by decide : major < 256 ^ 2), (by decide : minor < 256 ^ 2),
    (by decide : headerSize < 256 ^ 4), ?_, henvelope.groupId, henvelope.source,
    henvelope.destination, rfl, ?_, crc32c_lt _, crc32c_lt _, rfl⟩
  all_goals
    simp only [sealedHeader, frameHeader, IsWord]
    omega

/-- The header of a frame passes the reader and its checksum. -/
lemma read_sealedHeader (hframed : Framed limits envelope) (henvelope : envelope.Representable) :
    (sealField (sealedHeader envelope).before (sealedHeader envelope).tail).length = headerSize ∧
      readFrameHeader.decode
          (sealField (sealedHeader envelope).before (sealedHeader envelope).tail) =
        .ok (sealedHeader envelope) ∧
      (sealedHeader envelope).headerCrc = crc32c (zeroField headerCrcOffset
        (sealField (sealedHeader envelope).before (sealedHeader envelope).tail)) :=
  readFrameHeader_sealed.2 ⟨sealedHeader_representable hframed henvelope, rfl, rfl⟩

lemma frameBytes_eq (envelope : RaftTransportEnvelope) : frameBytes envelope =
    sealTrailer (sealField (sealedHeader envelope).before (sealedHeader envelope).tail ++
      encodePayload envelope.message) := rfl

lemma frameBytes_length (hframed : Framed limits envelope) (henvelope : envelope.Representable) :
    (frameBytes envelope).length = framing + (encodePayload envelope.message).length := by
  rw [frameBytes_eq, sealTrailer_length, length_append,
    (read_sealedHeader hframed henvelope).1, framing, trailerSize]
  omega

lemma asCorruption_eq_ok {result : Result Unit} {u : Unit} :
    asCorruption result = .ok u ↔ result = .ok () := by
  rcases result with _ | ⟨⟩ <;> simp [asCorruption]

/-- **The decoder accepts exactly the frames of valid envelopes.** -/
lemma decode_eq_ok_iff : decodeRaftTransportEnvelope bytes limits = .ok envelope ↔
    Framed limits envelope ∧ envelope.Representable ∧ bytes = frameBytes envelope := by
  simp only [decodeRaftTransportEnvelope, Result.bind_eq_ok, require_eq_ok, requireSome_eq_ok,
    MessageKind.ofCode_eq_some, asCorruption_eq_ok, Except.ok.injEq, exists_const]
  constructor
  · rintro ⟨hlimits, _, _, fields, hread, hmagic, hcrc, ⟨hmajor, hminor⟩,
      ⟨hheaderSize, htotal⟩, ⟨hreserved, htail⟩, _, hkind, hpayloadLength,
      ⟨hpayloadCrc, htrailer⟩, message, hmessage, hvalid, rfl⟩
    obtain ⟨_, hmessage⟩ := decode_eq_ok.1 hmessage
    obtain ⟨rfl, hrepresentable, -, hpayload, -⟩ := (readPayload_eq_ok hlimits).1 hmessage
    have hlength : bytes.length = headerSize + fields.payloadLength + trailerSize := by
      rw [hpayloadLength, framing] at *
      omega
    have hheaderLength : (bytes.take headerSize).length = headerSize := by
      rw [length_take]
      omega
    obtain ⟨hfields, hheader, -⟩ := readFrameHeader_sealed.1 ⟨hheaderLength, hread, hcrc⟩
    have hbytes := eq_sealTrailer hlength htrailer
    rw [hpayload] at hbytes hpayloadCrc
    have hpayloadSize : (encodePayload message).length = fields.payloadLength := by
      rw [← hpayload, length_take, length_drop, hlength]
      omega
    have heq : fields = frameHeader ⟨fields.groupId, fields.source, fields.destination, message⟩
        fields.headerCrc := by
      refine FrameHeader.ext hmagic hmajor hminor hheaderSize ?_ rfl rfl rfl hkind hreserved
        hpayloadSize.symm hpayloadCrc rfl htail
      rw [htotal, hlength, ← hpayloadSize, frameHeader, framing]
      dsimp only
      omega
    refine ⟨⟨hlimits, hvalid, ?_⟩, ⟨hfields.groupId, hfields.source, hfields.destination,
      hrepresentable⟩, ?_⟩
    · rw [hpayloadSize, hpayloadLength]
      omega
    · rw [hbytes, hheader, heq]
      rfl
  · rintro ⟨hframed, henvelope, rfl⟩
    have hsize := hframed.size
    have hlength := frameBytes_length hframed henvelope
    obtain ⟨hheaderLength, hheader, hcrc⟩ := read_sealedHeader hframed henvelope
    have htake : (frameBytes envelope).take headerSize =
        sealField (sealedHeader envelope).before (sealedHeader envelope).tail :=
      take_sealTrailer hheaderLength
    have hpayload : ((frameBytes envelope).drop headerSize).take
        (encodePayload envelope.message).length = encodePayload envelope.message :=
      drop_take_sealTrailer hheaderLength rfl
    have hread := (readPayload_eq_ok hframed.validLimits).2 ⟨rfl, henvelope.message,
      validateMessage_withinLimits hframed.valid, rfl, rfl⟩
    rw [htake]
    refine ⟨hframed.validLimits, by omega, by omega, sealedHeader envelope, hheader, rfl, hcrc,
      ⟨rfl, rfl⟩, ⟨rfl, hlength.symm⟩, ⟨rfl, rfl⟩, messageKind envelope.message, rfl, ?_,
      ⟨?_, checksum_sealTrailer _⟩, envelope.message, ?_, hframed.valid, rfl⟩
    · rw [hlength, Nat.add_sub_cancel_left]
      rfl
    · exact (congrArg crc32c hpayload).symm
    · exact decode_eq_ok.2 ⟨[], (congrArg _ hpayload).trans hread⟩

end Frames

end Chronos.Raft.Transport
