import Chronos.Common.Formats
import Chronos.Schema.Table
import Chronos.Raft.Range

/-!
`raft/multiplexed_log.cpp`, `raft/persistent_state_budget.hpp` and the limits of
`raft/durable_runtime.cpp`: the physical record of one persistent state.

* `encodeMultiplexedLogRecord`, `decodeMultiplexedLogRecord`: a header of 64 bytes, the
  state and a checksum.
* `storageBoundedLimits`: the byte budget that the segment size leaves to a state.
* `reachable_state_is_stored`: a state that a node reaches under such limits is encoded in the
  size of its budget, fits into a segment, and is read back.
-/

namespace Chronos.Raft

open Reader List Option

/-! ### Constants and types -/

/-- `kMagic`, the bytes of `CHRNMRL` and a zero. -/
def multiplexedLogMagic : List UInt8 := [0x43, 0x48, 0x52, 0x4e, 0x4d, 0x52, 0x4c, 0x00]

/-- `kMultiplexedLogFormatMajor`. -/
def multiplexedLogFormatMajor : ℕ := 1

/-- `kMultiplexedLogFormatMinor`. -/
def multiplexedLogFormatMinor : ℕ := 1

/-- `kMultiplexedLogHeaderSize`. -/
def multiplexedLogHeaderSize : ℕ := 64

/-- `kMultiplexedLogTrailerSize`. -/
def multiplexedLogTrailerSize : ℕ := 4

/-- `kMaximumMultiplexedLogRecordSize`. -/
def maximumMultiplexedLogRecordSize : ℕ := 16 * 1024 * 1024

/-- `kRaftSegmentHeaderSize`. -/
def raftSegmentHeaderSize : ℕ := 64

/-- `kMaximumRaftSegmentSize`. -/
def maximumRaftSegmentSize : ℕ := 1024 * 1024 * 1024

/-- The maximal `uint32`. -/
def u32Max : ℕ := 2 ^ 32 - 1

/-- `GroupPersistentState`. -/
structure GroupPersistentState where
  groupId : Uuid
  physicalSequence : ℕ
  state : PersistentState
  deriving DecidableEq

/-- `MultiplexedLogRecordHeader`. -/
structure MultiplexedLogRecordHeader where
  encodedSize : ℕ
  payloadSize : ℕ
  physicalSequence : ℕ
  groupId : Uuid
  formatMinor : ℕ
  deriving DecidableEq

/-- `DecodedGroupPersistentState`. -/
structure DecodedGroupPersistentState where
  persistent : GroupPersistentState
  encodedSize : ℕ
  deriving DecidableEq

/-! ### Writing -/

/-- The bytes of one entry in `write_state`. -/
def writeEntry (entry : LogEntry) : List UInt8 :=
  storeLe 8 entry.index ++ storeLe 8 entry.term ++ [entry.type] ++ List.replicate 7 0 ++
    storeLe 4 entry.payload.length ++ storeLe 4 0 ++ entry.payload

/-- `write_state`. -/
def writeState (state : PersistentState) : List UInt8 :=
  storeLe 8 state.currentTerm ++ storeLe 8 (state.votedFor.getD 0) ++
    storeLe 8 state.commitIndex ++ storeLe 8 state.appliedIndex ++
    storeLe 8 state.snapshot.lastIncludedIndex ++ storeLe 8 state.snapshot.lastIncludedTerm ++
    storeLe 8 state.snapshot.manifestGeneration ++ state.snapshot.partSetChecksum.toList ++
    storeLe 8 state.snapshot.configurationIndex ++ storeLe 4 state.snapshot.voters.length ++
    storeLe 4 0 ++ state.snapshot.voters.flatMap (storeLe 8) ++ storeLe 4 state.log.length ++
    storeLe 4 0 ++ state.log.flatMap writeEntry

/-- The fields of a record header that stand before its checksum. -/
def recordHeaderFields (header : MultiplexedLogRecordHeader) (payloadCrc : ℕ) : List UInt8 :=
  multiplexedLogMagic ++ storeLe 2 multiplexedLogFormatMajor ++ storeLe 2 header.formatMinor ++
    storeLe 4 multiplexedLogHeaderSize ++ storeLe 4 header.encodedSize ++
    storeLe 4 header.payloadSize ++ storeLe 8 header.physicalSequence ++
    storeBe 16 header.groupId ++ storeLe 4 payloadCrc

/-- The bytes of a record: the header with its checksum, the payload, and the checksum of both. -/
def recordBytes (header : MultiplexedLogRecordHeader) (payload : List UInt8) : List UInt8 :=
  sealTrailer
    (sealField (recordHeaderFields header (crc32c payload)) (List.replicate 8 0) ++ payload)

/-- `encode_multiplexed_log_record_v1`.  A payload that does not fill the space reserved for it
ends as the layout mismatch of the source. -/
def encodeMultiplexedLogRecord (persistent : GroupPersistentState) : Result (List UInt8) :=
  let state := persistent.state
  if persistent.groupId = 0 ∨ persistent.physicalSequence = 0 ∨ state.log.length > u32Max ∨
      state.snapshot.voters.length > maximumMembershipVoters then
    .error (invalid "multiplexed log identity or state is invalid")
  else match raftPersistentStatePayloadSize state.snapshot.voters.length state.log with
    | none => .error ⟨.outOfRange, "Raft persistent state size overflows"⟩
    | some size =>
        let total := multiplexedLogHeaderSize + size + multiplexedLogTrailerSize
        let payload := writeState state
        if size > u32Max then .error (exhausted "multiplexed log payload is too large")
        else if total > maximumMultiplexedLogRecordSize ∨ total > u32Max then
          .error (exhausted "multiplexed log record is too large")
        else if payload.length ≠ size then
          .error ⟨.internal, "multiplexed log payload layout mismatch"⟩
        else
          .ok (recordBytes ⟨total, size, persistent.physicalSequence, persistent.groupId,
            multiplexedLogFormatMinor⟩ payload)

/-! ### Reading -/

/-- The status of a header that is too short or has another magic. -/
def headerInvalid : Status := corruption "multiplexed log header is invalid"

/-- The fields of a record header, read in their order and then tested. -/
def readRecordHeader : Reader Status MultiplexedLogRecordHeader := do
  let magic ← readExact headerInvalid 8
  let major ← readLe headerInvalid 2
  let minor ← readLe headerInvalid 2
  let headerSize ← readLe headerInvalid 4
  let totalSize ← readLe headerInvalid 4
  let payloadLength ← readLe headerInvalid 4
  let physicalSequence ← readLe headerInvalid 8
  let groupId ← readBe headerInvalid 16
  let _payloadCrc ← readLe headerInvalid 4
  let _headerCrc ← readLe headerInvalid 4
  let reserved ← readExact headerInvalid 8
  let minimumSize := multiplexedLogHeaderSize + multiplexedLogTrailerSize
  check (magic = multiplexedLogMagic) headerInvalid
  check (major = multiplexedLogFormatMajor ∧ minor ≤ multiplexedLogFormatMinor)
    (unsupported "multiplexed log version is unsupported")
  check (headerSize = multiplexedLogHeaderSize ∧ physicalSequence ≠ 0 ∧
      minimumSize ≤ totalSize ∧ totalSize ≤ maximumMultiplexedLogRecordSize ∧
      payloadLength = totalSize - minimumSize ∧ reserved = List.replicate 8 0)
    (corruption "multiplexed log layout or reserved bytes invalid")
  check (groupId ≠ 0) (corruption "multiplexed log group is nil")
  pure ⟨totalSize, payloadLength, physicalSequence, groupId, minor⟩

/-- `inspect_multiplexed_log_record_header_v1`. -/
def inspectMultiplexedLogRecordHeader (encodedHeader : List UInt8) :
    Result MultiplexedLogRecordHeader := do
  require (encodedHeader.length = multiplexedLogHeaderSize)
    (corruption "multiplexed log header size is invalid")
  require (crc32c (zeroField 52 encodedHeader) = loadLe encodedHeader 52 4)
    (corruption "multiplexed log header checksum mismatch")
  readRecordHeader.decode encodedHeader

/-- The status of a state that ends before its entries. -/
def stateTruncated : Status := corruption "multiplexed log persistent state is truncated"

/-- The configuration index and the number of voters, which minor version 0 does not have. -/
def readCheckpoint (minor : ℕ) : Reader Status (ℕ × ℕ) :=
  let fail := corruption "multiplexed log snapshot checkpoint is invalid"
  if minor ≥ 1 then do
    let configurationIndex ← readLe fail 8
    let voterCount ← readLe fail 4
    let reserved ← readLe fail 4
    check (reserved = 0) fail
    pure (configurationIndex, voterCount)
  else pure (0, 0)

/-- The status of an entry whose fixed part is damaged. -/
def entryInvalid : Status := corruption "multiplexed log entry header is invalid"

/-- One round of the entry loop of `decode_multiplexed_log_record_v1`. -/
def readEntry : Reader Status LogEntry := do
  let index ← readLe entryInvalid 8
  let term ← readLe entryInvalid 8
  let type ← readByte entryInvalid
  let reserved ← readExact entryInvalid 7
  let payloadSize ← readLe entryInvalid 4
  let payloadReserved ← readLe entryInvalid 4
  check (reserved = List.replicate 7 0 ∧ payloadReserved = 0) entryInvalid
  let payload ← readExact (corruption "multiplexed log entry is truncated") payloadSize
  pure ⟨index, term, type, payload⟩

/-- The vote that a stored node identity stands for. -/
def storedVote (voted : ℕ) : Option NodeId := if voted = 0 then none else some voted

/-- The reads of `decode_multiplexed_log_record_v1` from the payload. -/
def readState (minor : ℕ) : Reader Status PersistentState := do
  let term ← readLe stateTruncated 8
  let voted ← readLe stateTruncated 8
  let commit ← readLe stateTruncated 8
  let applied ← readLe stateTruncated 8
  let snapshotIndex ← readLe stateTruncated 8
  let snapshotTerm ← readLe stateTruncated 8
  let manifestGeneration ← readLe stateTruncated 8
  let checksum ← readArray stateTruncated 32
  let (configurationIndex, voterCount) ← readCheckpoint minor
  let left ← remaining
  check (voterCount ≤ maximumMembershipVoters ∧ voterCount ≤ left / 8)
    (corruption "multiplexed log snapshot voter count is invalid")
  let voters ← many (readLe (corruption "multiplexed log snapshot voters are truncated") 8)
    voterCount
  let logCount ← readLe stateTruncated 4
  let reserved ← readLe stateTruncated 4
  check (reserved = 0) stateTruncated
  let left ← remaining
  check (logCount ≤ left / raftPersistentLogEntryFixedSize)
    (corruption "multiplexed log entry count exceeds payload")
  let log ← many readEntry logCount
  atEnd (corruption "multiplexed log has trailing payload")
  pure
    { currentTerm := term
      votedFor := storedVote voted
      log := log
      commitIndex := commit
      appliedIndex := applied
      snapshot := ⟨snapshotIndex, snapshotTerm, manifestGeneration, checksum, configurationIndex,
        voters⟩ }

/-- `kStateFixedSizeV1_0` and `kStateFixedSizeV1_1`. -/
def minimumPayload (minor : ℕ) : ℕ := if minor = 0 then 96 else raftPersistentStateFixedSize

/-- `decode_multiplexed_log_record_v1`. -/
def decodeMultiplexedLogRecord (encoded : List UInt8) : Result DecodedGroupPersistentState := do
  require (multiplexedLogHeaderSize + multiplexedLogTrailerSize ≤ encoded.length)
    (corruption "multiplexed log record is truncated")
  let inspected ← inspectMultiplexedLogRecordHeader (encoded.take multiplexedLogHeaderSize)
  require (inspected.encodedSize = encoded.length)
    (corruption "multiplexed log record size does not match header")
  let payload := (encoded.drop multiplexedLogHeaderSize).take inspected.payloadSize
  require (minimumPayload inspected.formatMinor ≤ payload.length)
    (corruption "multiplexed log state prefix is truncated")
  require (crc32c payload = loadLe encoded 48 4)
    (corruption "multiplexed log payload checksum mismatch")
  let body := encoded.length - multiplexedLogTrailerSize
  require (crc32c (encoded.take body) = ofLe (encoded.drop body))
    (corruption "multiplexed log record checksum mismatch")
  let state ← (readState inspected.formatMinor).decode payload
  .ok ⟨⟨inspected.groupId, inspected.physicalSequence, state⟩, encoded.length⟩

/-! ### Sizes -/

@[simp] lemma writeEntry_length (entry : LogEntry) :
    (writeEntry entry).length = raftPersistentLogEntryFixedSize + entry.payload.length := by
  simp only [writeEntry, raftPersistentLogEntryFixedSize, length_append, storeLe_length,
    length_cons, length_nil, length_replicate]

/-- The bytes of a list of entries: what the budget counts for them. -/
lemma writeEntries_length (log : List LogEntry) :
    (log.flatMap writeEntry).length =
      (log.map fun entry => raftPersistentLogEntryFixedSize + entry.payload.length).sum := by
  rw [length_flatMap]
  simp only [writeEntry_length]

lemma entries_le_length (log : List LogEntry) :
    raftPersistentLogEntryFixedSize * log.length ≤ (log.flatMap writeEntry).length := by
  induction log with
  | nil => simp
  | cons entry log ih =>
    rw [flatMap_cons, length_append, writeEntry_length, length_cons, Nat.mul_succ]
    omega

/-- The number of bytes of a state. -/
lemma writeState_length (state : PersistentState) :
    (writeState state).length = raftPersistentStateFixedSize +
      8 * state.snapshot.voters.length + (state.log.flatMap writeEntry).length := by
  simp only [writeState, raftPersistentStateFixedSize, length_append, storeLe_length,
    flatMap_storeLe_length, Vector.length_toList]
  omega

variable {log : List LogEntry} {size : ℕ}

lemma addEntrySizes_eq {total : ℕ} (h : log.foldlM addEntrySize size = some total) :
    total = size + (log.flatMap writeEntry).length := by
  induction log generalizing size with
  | nil =>
    cases h
    rfl
  | cons entry log ih =>
    rw [foldlM_cons, bind_eq_bind, bind_eq_some_iff] at h
    obtain ⟨_, hnext, hrest⟩ := h
    obtain ⟨_, hfixed, hpayload⟩ := bind_eq_some_iff.1 hnext
    rw [ih hrest, checkedAdd_eq_some hpayload, checkedAdd_eq_some hfixed, flatMap_cons,
      length_append, writeEntry_length]
    omega

variable {state : PersistentState}

/-- **The budget formula is the number of bytes written.** -/
lemma payloadSize_eq_length
    (h : raftPersistentStatePayloadSize state.snapshot.voters.length state.log = some size) :
    size = (writeState state).length := by
  obtain ⟨_, hvoters, hrest⟩ := bind_eq_some_iff.1 h
  obtain ⟨_, hfixed, hlog⟩ := bind_eq_some_iff.1 hrest
  rw [addEntrySizes_eq hlog, checkedAdd_eq_some hfixed, checkedMultiply_eq_some hvoters,
    writeState_length, Nat.mul_comm]

/-! ### Reading what was written -/

/-- The reader of entries inverts the writer. -/
lemma codes_readEntry : Codes readEntry
    (fun entry => entry.Representable ∧ entry.payload.length < 256 ^ 4) writeEntry := by
  rintro _ ⟨index, term, _, _⟩ _
  simp only [readEntry, bind_eq_ok, readLe_eq_ok, readByte_eq_ok, readExact_eq_ok, check_eq_ok,
    pure_eq_ok, LogEntry.mk.injEq, writeEntry, append_assoc, cons_append, nil_append, existsAndEq,
    exists_const, and_true, true_and, and_assoc, length_replicate]
  constructor
  · rintro ⟨hindex, hbytes, hterm, hlength, -⟩
    exact ⟨⟨hindex, hterm⟩, hlength, hbytes⟩
  · rintro ⟨hentry, hlength, hbytes⟩
    exact ⟨hentry.index, hbytes, hentry.term, hlength, by decide⟩

lemma storedVote_eq_iff {voted : ℕ} {vote : Option NodeId} :
    storedVote voted = vote ↔ voted = vote.getD 0 ∧ vote ≠ some 0 := by
  rw [storedVote]
  rcases vote with _ | _
  · simp
  · by_cases hvoted : voted = 0
    · subst hvoted
      simp [eq_comm]
    · simp only [hvoted, if_false, some.injEq, getD_some]
      constructor
      · rintro rfl
        exact ⟨rfl, by simpa using hvoted⟩
      · exact And.left

/-- What a record can store: numbers in range, a vote that is not the zero that stands for none,
and lists whose lengths fit their fields. -/
structure Storable (state : PersistentState) : Prop where
  representable : state.Representable
  vote : state.votedFor ≠ some 0
  voters : state.snapshot.voters.length ≤ maximumMembershipVoters
  entries : state.log.length < 256 ^ 4
  payloads : ∀ entry ∈ state.log, entry.payload.length < 256 ^ 4

variable {bytes rest : List UInt8}

/-- **The reader of states inverts the writer.** -/
lemma readState_eq_ok :
    readState 1 bytes = .ok (state, rest) ↔
      Storable state ∧ bytes = writeState state ∧ rest = [] := by
  obtain ⟨_, vote, log, _, _, ⟨_, _, _, _, _, voters⟩⟩ := state
  simp only [readState, readCheckpoint, ge_iff_le, le_refl, if_true, bind_eq_ok, readLe_eq_ok,
    readArray_eq_ok, check_eq_ok, remaining_eq_ok, atEnd_eq_ok, pure_eq_ok,
    (Codes.readLe _ 8).many_eq_ok, codes_readEntry.many_eq_ok, PersistentState.mk.injEq,
    SnapshotMetadata.mk.injEq, Prod.exists, Prod.mk.injEq, storedVote_eq_iff, writeState,
    append_assoc, append_nil, existsAndEq, exists_const, and_true, true_and, and_assoc]
  constructor
  · rintro ⟨hterm, hbytes, hvote, hcommit, happlied, hindex, hsnapshotTerm, hgeneration,
      hconfiguration, -, -, hvoters, -, hvoterIds, hlength, -, -, hlog, hzero, hrest⟩
    refine ⟨⟨⟨hterm, ?_, fun entry hentry => (hlog entry hentry).1, hcommit, happlied,
      ⟨hindex, hsnapshotTerm, hgeneration, hconfiguration, hvoterIds⟩⟩, hzero, hvoters, hlength,
      fun entry hentry => (hlog entry hentry).2⟩, hbytes, hrest.symm⟩
    rintro _ rfl
    exact hvote
  · rintro ⟨h, hbytes, hrest⟩
    have hr := h.representable
    have hvoters : voters.length ≤ maximumMembershipVoters := h.voters
    have hmany := entries_le_length log
    refine ⟨hr.currentTerm, hbytes, isWord_getD hr.votedFor, hr.commitIndex, hr.appliedIndex,
      hr.snapshot.lastIncludedIndex, hr.snapshot.lastIncludedTerm, hr.snapshot.manifestGeneration,
      hr.snapshot.configurationIndex, ?_, by decide, hvoters, ?_, hr.snapshot.voters, h.entries,
      by decide, ?_, fun entry hentry => ⟨hr.log entry hentry, h.payloads entry hentry⟩, h.vote,
      hrest.symm⟩
    · rw [maximumMembershipVoters] at hvoters
      omega
    · rw [length_append, flatMap_storeLe_length]
      omega
    · rw [raftPersistentLogEntryFixedSize] at hmany ⊢
      omega

/-- The headers that the inspection accepts. -/
structure MultiplexedLogRecordHeader.Valid (header : MultiplexedLogRecordHeader) : Prop where
  size : header.encodedSize =
    multiplexedLogHeaderSize + header.payloadSize + multiplexedLogTrailerSize
  maximum : header.encodedSize ≤ maximumMultiplexedLogRecordSize
  sequence : IsWord header.physicalSequence
  sequence_ne_zero : header.physicalSequence ≠ 0
  group : header.groupId < 256 ^ 16
  group_ne_zero : header.groupId ≠ 0
  minor : header.formatMinor ≤ multiplexedLogFormatMinor

lemma recordHeaderFields_length (header : MultiplexedLogRecordHeader) (payloadCrc : ℕ) :
    (recordHeaderFields header payloadCrc).length = 52 := by
  simp [recordHeaderFields, multiplexedLogMagic]

variable {header : MultiplexedLogRecordHeader}

lemma readRecordHeader_eq_ok :
    readRecordHeader bytes = .ok (header, rest) ↔ header.Valid ∧
      ∃ payloadCrc < 256 ^ 4, ∃ headerCrc < 256 ^ 4, bytes =
        recordHeaderFields header payloadCrc ++ storeLe 4 headerCrc ++ List.replicate 8 0 ++
          rest := by
  obtain ⟨total, size, sequence, group, minor⟩ := header
  simp only [readRecordHeader, bind_eq_ok, readExact_eq_ok, readLe_eq_ok, readBe_eq_ok,
    check_eq_ok, pure_eq_ok, MultiplexedLogRecordHeader.mk.injEq, recordHeaderFields,
    append_assoc, existsAndEq, exists_const, and_true, true_and, and_assoc]
  constructor
  · rintro ⟨payloadCrc, headerCrc, -, hbytes, -, -, -, -, -, hsequence, hgroup, hpayloadCrc,
      hheaderCrc, -, hminor, hsequence0, _, hupper, hgroup0, rfl⟩
    refine ⟨⟨?_, hupper, hsequence, hsequence0, hgroup, hgroup0, hminor⟩, payloadCrc, hpayloadCrc,
      headerCrc, hheaderCrc, hbytes⟩
    dsimp only
    omega
  · rintro ⟨hvalid, payloadCrc, hpayloadCrc, headerCrc, hheaderCrc, hbytes⟩
    have hsize : total = multiplexedLogHeaderSize + size + multiplexedLogTrailerSize := hvalid.size
    have hmaximum : total ≤ maximumMultiplexedLogRecordSize := hvalid.maximum
    have hminor : minor ≤ multiplexedLogFormatMinor := hvalid.minor
    obtain rfl : size = total - (multiplexedLogHeaderSize + multiplexedLogTrailerSize) := by omega
    refine ⟨payloadCrc, headerCrc, rfl, hbytes, by decide, ?_, by decide, ?_, ?_, hvalid.sequence,
      hvalid.group, hpayloadCrc, hheaderCrc, rfl, hminor, hvalid.sequence_ne_zero, by omega,
      hmaximum, hvalid.group_ne_zero, rfl⟩
    · rw [multiplexedLogFormatMinor] at hminor
      omega
    all_goals
      rw [maximumMultiplexedLogRecordSize] at hmaximum
      omega

/-- The inspection accepts exactly the checksummed fields of a valid header. -/
lemma inspect_eq_ok :
    inspectMultiplexedLogRecordHeader bytes = .ok header ↔ header.Valid ∧ ∃ payloadCrc < 256 ^ 4,
      bytes = sealField (recordHeaderFields header payloadCrc) (List.replicate 8 0) := by
  simp only [inspectMultiplexedLogRecordHeader, Result.bind_eq_ok, require_eq_ok, decode_eq_ok,
    readRecordHeader_eq_ok, exists_const]
  constructor
  · rintro ⟨hlength, hchecksum, _, hvalid, payloadCrc, hcrc, headerCrc, hheaderCrc, hbytes⟩
    have hbefore := recordHeaderFields_length header payloadCrc
    refine ⟨hvalid, payloadCrc, hcrc, eq_sealField hheaderCrc hbytes ?_ ?_⟩
    · rw [hlength, hbefore]
      decide
    · rw [hbefore]
      exact hchecksum
  · rintro ⟨hvalid, payloadCrc, hcrc, rfl⟩
    have hbefore := recordHeaderFields_length header payloadCrc
    have hchecksum := checksum_sealField (recordHeaderFields header payloadCrc) (List.replicate 8 0)
    rw [hbefore] at hchecksum
    obtain ⟨headerCrc, hheaderCrc, hbytes⟩ :=
      exists_sealField_eq (recordHeaderFields header payloadCrc) (List.replicate 8 0)
    refine ⟨?_, hchecksum, [], hvalid, payloadCrc, hcrc, headerCrc, hheaderCrc, ?_⟩
    · rw [sealField_length, hbefore]
      decide
    · rw [hbytes, append_nil]

lemma recordHeader_length (header : MultiplexedLogRecordHeader) (payloadCrc : ℕ) :
    (sealField (recordHeaderFields header payloadCrc) (List.replicate 8 0)).length =
      multiplexedLogHeaderSize := by
  rw [sealField_length, recordHeaderFields_length]
  decide

lemma recordBytes_length (header : MultiplexedLogRecordHeader) (payload : List UInt8) :
    (recordBytes header payload).length =
      multiplexedLogHeaderSize + payload.length + multiplexedLogTrailerSize := by
  rw [recordBytes, sealTrailer_length, length_append, recordHeader_length]
  rfl

/-- The decoder finds the checksum of the payload where the encoder puts it. -/
lemma loadLe_recordBytes (header : MultiplexedLogRecordHeader) (payload : List UInt8) :
    loadLe (recordBytes header payload) 48 4 = crc32c payload := by
  have hfields : (recordHeaderFields header (crc32c payload)).drop 48 =
      storeLe 4 (crc32c payload) := by
    rw [recordHeaderFields]
    exact drop_left' (by simp [multiplexedLogMagic])
  have hlength := recordHeaderFields_length header (crc32c payload)
  rw [loadLe, recordBytes, sealTrailer, sealField]
  simp only [append_assoc]
  rw [drop_append_of_le_length (by omega), hfields, take_left' (by simp),
    ofLe_storeLe (crc32c_lt _)]

/-- **A record is read back** as the group, the sequence and the state it was written from. -/
lemma decode_recordBytes (hheader : header.Valid) (hminor : header.formatMinor = 1)
    (hstate : Storable state) (hsize : (writeState state).length = header.payloadSize) :
    decodeMultiplexedLogRecord (recordBytes header (writeState state)) =
      .ok ⟨⟨header.groupId, header.physicalSequence, state⟩, header.encodedSize⟩ := by
  have hlength : (recordBytes header (writeState state)).length = header.encodedSize := by
    rw [recordBytes_length, hsize, hheader.size]
  have hpayload : ((recordBytes header (writeState state)).drop multiplexedLogHeaderSize).take
      header.payloadSize = writeState state :=
    drop_take_sealTrailer (recordHeader_length header _) hsize
  simp only [decodeMultiplexedLogRecord, Result.bind_eq_ok, require_eq_ok, decode_eq_ok,
    exists_const]
  refine ⟨?_, header, ?_, hlength.symm, ?_, ?_, checksum_sealTrailer _, state, ⟨[], ?_⟩, ?_⟩
  · rw [hlength, hheader.size]
    omega
  · rw [recordBytes, take_sealTrailer (recordHeader_length header _)]
    exact inspect_eq_ok.2 ⟨hheader, _, crc32c_lt _, rfl⟩
  · rw [hpayload, minimumPayload, hminor, if_neg one_ne_zero, writeState_length]
    omega
  · rw [hpayload, loadLe_recordBytes]
  · rw [hpayload, hminor]
    exact readState_eq_ok.2 ⟨hstate, rfl, rfl⟩
  · rw [hlength]

/-- The encoder accepts what fits. -/
lemma encode_eq_ok {group : Uuid} {sequence : ℕ} (hgroup0 : group ≠ 0) (hsequence0 : sequence ≠ 0)
    (hstate : Storable state)
    (hsize : raftPersistentStatePayloadSize state.snapshot.voters.length state.log = some size)
    (hmaximum : multiplexedLogHeaderSize + size + multiplexedLogTrailerSize ≤
      maximumMultiplexedLogRecordSize) :
    encodeMultiplexedLogRecord ⟨group, sequence, state⟩ =
      .ok (recordBytes ⟨multiplexedLogHeaderSize + size + multiplexedLogTrailerSize, size,
        sequence, group, multiplexedLogFormatMinor⟩ (writeState state)) := by
  have hentries := hstate.entries
  have hvoters := hstate.voters
  have hword : multiplexedLogHeaderSize + size + multiplexedLogTrailerSize ≤ u32Max :=
    hmaximum.trans (by decide)
  have hsmall : size ≤ u32Max := by omega
  have hlength := payloadSize_eq_length hsize
  rw [encodeMultiplexedLogRecord, if_neg]
  · simp only [hsize]
    rw [if_neg (by omega), if_neg (by omega), if_neg (not_not.2 hlength.symm)]
  · simp only [not_or, u32Max]
    exact ⟨hgroup0, hsequence0, by omega, by omega⟩

/-! ### The limits of the storage -/

/-- `storage_bounded_limits`, on the part of the limits that it changes. -/
def storageBoundedLimits (targetSegmentSize : ℕ) (limits : RaftLimits) : Result RaftLimits :=
  let physicalFraming :=
    raftSegmentHeaderSize + multiplexedLogHeaderSize + multiplexedLogTrailerSize
  if targetSegmentSize ≤ physicalFraming ∨ targetSegmentSize > maximumRaftSegmentSize then
    .error (invalid "Raft persistent-log target cannot contain a full-state record")
  else
    .ok { limits with
      maximumPersistentStateBytes :=
        min limits.maximumPersistentStateBytes (targetSegmentSize - physicalFraming) }

variable {limits : RaftLimits}

lemma storageBoundedLimits_eq_ok {targetSegmentSize : ℕ} {bounded : RaftLimits}
    (h : storageBoundedLimits targetSegmentSize limits = .ok bounded) :
    raftSegmentHeaderSize + multiplexedLogHeaderSize + bounded.maximumPersistentStateBytes +
      multiplexedLogTrailerSize ≤ targetSegmentSize := by
  rw [storageBoundedLimits] at h
  split_ifs at h with hframing
  cases h
  dsimp only
  omega

/-! ### Reachable states -/

lemma persistentStateFits_eq_ok {count : ℕ} (h : persistentStateFits count log limits = .ok ()) :
    ∃ size, raftPersistentStatePayloadSize count log = some size ∧
      size ≤ limits.maximumPersistentStateBytes := by
  rw [persistentStateFits] at h
  split at h
  · rename_i size hsize
    split_ifs at h with hle
    exact ⟨size, hsize, hle⟩
  · cases h

/-- A state whose bytes fit into a record has short lists and payloads. -/
lemma storable_of_length (hstate : StateWellFormed limits state)
    (hrepresentable : state.Representable)
    (hvoters : limits.maximumVoters ≤ maximumMembershipVoters)
    (hlength : (writeState state).length < 256 ^ 4) : Storable state where
  representable := hrepresentable
  vote := hstate.vote_ne_zero
  voters := by
    by_cases hzero : state.snapshot.lastIncludedIndex = 0
    · rw [hstate.snapshot_empty hzero]
      exact Nat.zero_le _
    · have hvalid := hstate.snapshot_valid hzero
      simp only [validSnapshot, validVoters, Bool.and_eq_true, decide_eq_true_eq] at hvalid
      exact hvalid.2.1.1.2.trans hvoters
  entries := by
    have hmany := entries_le_length state.log
    rw [writeState_length] at hlength
    rw [raftPersistentLogEntryFixedSize] at hmany
    omega
  payloads entry hentry := by
    have hpart := single_le_sum (fun _ _ => Nat.zero_le _) _ (mem_map_of_mem
      (f := fun entry => raftPersistentLogEntryFixedSize + entry.payload.length) hentry)
    rw [← writeEntries_length] at hpart
    rw [writeState_length] at hlength
    omega

/-- **The record size law.** Whatever a node reaches by public calls under limits that its storage
bounds, the record encoder accepts the state and writes the bytes that the budget formula counts,
within the maximal record and within one segment, and the decoder reads group, sequence and state
back. -/
theorem reachable_state_is_stored {targetSegmentSize : ℕ} {configured limits : RaftLimits}
    (hlimits : storageBoundedLimits targetSegmentSize configured = .ok limits)
    {nodeId : NodeId} {voters : List NodeId} {persistent : PersistentState} {n : RaftNode}
    (hcreate : RaftNode.create nodeId voters persistent limits = .ok n) (hid : IsWord nodeId)
    (hvoters : ∀ voter ∈ voters, IsWord voter) (hpersistent : persistent.Representable)
    (calls : List Call) (hcalls : ∀ call ∈ calls, call.Representable)
    {group : Uuid} (hgroup0 : group ≠ 0) (hgroup : group < 256 ^ 16)
    {sequence : ℕ} (hsequence0 : sequence ≠ 0) (hsequence : IsWord sequence) :
    ∃ bytes size, encodeMultiplexedLogRecord ⟨group, sequence, (n.run calls).state⟩ = .ok bytes ∧
      raftPersistentStatePayloadSize (n.run calls).state.snapshot.voters.length
        (n.run calls).state.log = some size ∧
      (writeState (n.run calls).state).length = size ∧
      bytes.length = multiplexedLogHeaderSize + size + multiplexedLogTrailerSize ∧
      bytes.length ≤ maximumMultiplexedLogRecordSize ∧
      bytes.length + raftSegmentHeaderSize ≤ targetSegmentSize ∧
      decodeMultiplexedLogRecord bytes =
        .ok ⟨⟨group, sequence, (n.run calls).state⟩, bytes.length⟩ := by
  obtain ⟨hwf, hidentity⟩ := run_wellFormed hcreate calls
  have hargs := (create_wellFormed hcreate).1
  have hrepresentable := run_representable hcreate hid hvoters hpersistent calls hcalls
  have hrunLimits : (n.run calls).limits = limits := congrArg Prod.snd hidentity
  generalize hstate : (n.run calls).state = state at hrepresentable ⊢
  have hinv : StateWellFormed limits state := hstate ▸ hrunLimits ▸ hwf.state
  have hbounds := hargs.bounds
  simp only [not_or, not_lt] at hbounds
  obtain ⟨-, -, -, -, hmaximumVoters, -, -, -, -, hbudget⟩ := hbounds
  obtain ⟨size, hsize, _⟩ := persistentStateFits_eq_ok hinv.fits
  have hlength := payloadSize_eq_length hsize
  have hsegment := storageBoundedLimits_eq_ok hlimits
  have hmaximum : multiplexedLogHeaderSize + size + multiplexedLogTrailerSize ≤
      maximumMultiplexedLogRecordSize := by
    rw [maximumRaftPersistentStatePayloadSize] at hbudget
    simp only [multiplexedLogHeaderSize, multiplexedLogTrailerSize, maximumMultiplexedLogRecordSize]
    omega
  have hstorable : Storable state := by
    refine storable_of_length hinv hrepresentable hmaximumVoters ?_
    rw [← hlength]
    simp only [maximumMultiplexedLogRecordSize] at hmaximum
    omega
  have hheader : (⟨_, size, sequence, group, multiplexedLogFormatMinor⟩ :
      MultiplexedLogRecordHeader).Valid :=
    ⟨rfl, hmaximum, hsequence, hsequence0, hgroup, hgroup0, le_rfl⟩
  refine ⟨_, size, encode_eq_ok hgroup0 hsequence0 hstorable hsize hmaximum, hsize, hlength.symm,
    ?_⟩
  rw [recordBytes_length, ← hlength]
  refine ⟨rfl, hmaximum, by omega, ?_⟩
  exact decode_recordBytes hheader rfl hstorable hlength.symm

/-- The state of a leader with the joint configuration takes 321 bytes in the log. -/
theorem reachable_state_is_stored_joint :
    ∃ limits n bytes, storageBoundedLimits (64 * 1024 * 1024) {} = .ok limits ∧
      RaftNode.create 1 [1, 2, 3] {} limits = .ok n ∧
      encodeMultiplexedLogRecord ⟨1, 1, (n.run jointCalls).state⟩ = .ok bytes ∧
      bytes.length = 321 ∧ decodeMultiplexedLogRecord bytes =
        .ok ⟨⟨1, 1, (n.run jointCalls).state⟩, bytes.length⟩ := by
  obtain ⟨bytes, size, hencode, hsize, -, hlength, -, -, hdecode⟩ :=
    reachable_state_is_stored (show storageBoundedLimits (64 * 1024 * 1024) {} = .ok _ from rfl)
      (show RaftNode.create 1 [1, 2, 3] {} _ = .ok _ from rfl) (by decide) (by decide)
      ⟨by decide, by simp, by simp, by decide, by decide, by decide, by decide, by decide,
        by decide, by simp⟩ jointCalls
      (by simp [jointCalls, Call.Representable, Message.Representable])
      (show (1 : Uuid) ≠ 0 by decide) (by decide)
      (show (1 : ℕ) ≠ 0 by decide) (by decide)
  refine ⟨_, _, bytes, rfl, rfl, hencode, ?_, hdecode⟩
  obtain rfl : 253 = size := some.inj (.trans (by decide +kernel) hsize)
  exact hlength

end Chronos.Raft
