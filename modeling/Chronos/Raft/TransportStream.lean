import Chronos.Common.Framing
import Chronos.Raft.Transport

/-!
`RaftTransportFrameReader` of `raft/transport_codec.cpp`: frames out of a byte stream
that arrives in pieces.

* `RaftTransportFrameReader.consume`: one call, at most one frame.
* `drain`, `feed`: the caller's loop over one piece, and over all of them.
* `consume_spec`: a call cuts what is buffered together with what has arrived, in the
  sense of `Framing.cut`, so that the loops refine `Framing.scan`.
* `transport_frames_are_canonical_and_stream_independent`: the round trip of frames, their
  canonical form, and the independence of the pieces.
-/

namespace Chronos.Raft.Transport

open List

/-! ### The reader -/

/-- `RaftTransportReadStep`. -/
structure RaftTransportReadStep where
  consumedBytes : ℕ
  envelope : Option RaftTransportEnvelope
  deriving DecidableEq

/-- `RaftTransportFrameReader`; `header` and `frame` are the parts of the buffers that have been
filled. -/
structure RaftTransportFrameReader where
  limits : RaftTransportCodecLimits
  header : List UInt8 := []
  frame : List UInt8 := []
  expectedFrameBytes : Option ℕ := none
  failure : Option Status := none
  deriving DecidableEq

namespace RaftTransportFrameReader

/-- `RaftTransportFrameReader::create`. -/
def create (limits : RaftTransportCodecLimits) : Result RaftTransportFrameReader := do
  require (ValidLimits limits) (invalid "Raft transport reader limits are invalid")
  .ok { limits }

/-- `fail`. -/
def fail (r : RaftTransportFrameReader) (status : Status) :
    RaftTransportFrameReader × Result RaftTransportReadStep :=
  ({ r with failure := some status }, .error status)

/-- `reset_frame`. -/
def resetFrame (r : RaftTransportFrameReader) : RaftTransportFrameReader :=
  { r with header := [], frame := [], expectedFrameBytes := none }

/-- The second half of `consume`: bytes that belong to a frame of a known length. -/
def consumeFrame (r : RaftTransportFrameReader) (expected consumed : ℕ) (remainder : List UInt8) :
    RaftTransportFrameReader × Result RaftTransportReadStep :=
  let copied := min remainder.length (expected - r.frame.length)
  let r := { r with frame := r.frame ++ remainder.take copied }
  if r.frame.length ≠ expected then (r, .ok ⟨consumed + copied, none⟩)
  else match decodeRaftTransportEnvelope r.frame r.limits with
    | .error status => r.fail status
    | .ok envelope => (r.resetFrame, .ok ⟨consumed + copied, some envelope⟩)

/-- `consume`. -/
def consume (r : RaftTransportFrameReader) (bytes : List UInt8) :
    RaftTransportFrameReader × Result RaftTransportReadStep :=
  match r.failure, r.expectedFrameBytes with
  | some status, _ => (r, .error status)
  | none, some expected => r.consumeFrame expected 0 bytes
  | none, none =>
      let copied := min bytes.length (headerSize - r.header.length)
      let r := { r with header := r.header ++ bytes.take copied }
      if r.header.length ≠ headerSize then (r, .ok ⟨copied, none⟩)
      else match raftTransportFrameLength r.header r.limits with
        | .error status => r.fail status
        | .ok expected =>
            { r with frame := r.header, expectedFrameBytes := some expected }.consumeFrame expected
              copied (bytes.drop copied)

/-- The caller's loop over one piece of the stream: it hands over what is left until nothing is, or
an error comes back.  A call that consumes nothing would end the loop; `consume_spec` shows that
there is none. -/
def drain (r : RaftTransportFrameReader) (bytes : List UInt8) :
    RaftTransportFrameReader × List RaftTransportEnvelope × Option Status :=
  if bytes = [] then (r, [], none)
  else match r.consume bytes with
    | (next, .error status) => (next, [], some status)
    | (next, .ok step) =>
        if step.consumedBytes = 0 then (next, step.envelope.toList, none)
        else
          let later := next.drain (bytes.drop step.consumedBytes)
          (later.1, step.envelope.toList ++ later.2.1, later.2.2)
termination_by bytes.length
decreasing_by
  rename_i hbytes hconsumed
  have hpos := List.length_pos_iff.2 hbytes
  rw [List.length_drop]
  omega

/-- A stream in pieces: the reader after it, the frames, and the first error. -/
def feed (r : RaftTransportFrameReader) :
    List (List UInt8) → RaftTransportFrameReader × List RaftTransportEnvelope × Option Status
  | [] => (r, [], none)
  | piece :: pieces =>
      let now := r.drain piece
      let later := now.1.feed pieces
      (later.1, now.2.1 ++ later.2.1, now.2.2 <|> later.2.2)

end RaftTransportFrameReader

/-! ### The reader cuts the stream -/

open RaftTransportFrameReader

/-- A declared frame holds at least its framing. -/
lemma framing_le_of_length {header : List UInt8} {limits : RaftTransportCodecLimits} {size : ℕ}
    (h : raftTransportFrameLength header limits = .ok size) : framing ≤ size := by
  simp only [raftTransportFrameLength, Result.bind_eq_ok, require_eq_ok, requireSome_eq_ok,
    Except.ok.injEq, exists_const] at h
  obtain ⟨-, -, _, -, -, -, -, -, _, -, hsizes, rfl⟩ := h
  exact hsizes.1

/-- The frames of the transport. -/
def transportFraming (limits : RaftTransportCodecLimits) :
    Framing Status RaftTransportEnvelope where
  headerSize := headerSize
  length header := raftTransportFrameLength header limits
  decode bytes := decodeRaftTransportEnvelope bytes limits
  header_pos := by decide
  header_le header size h := (by decide : headerSize ≤ framing).trans (framing_le_of_length h)

/-- The bytes of an unfinished frame that a reader holds. -/
def RaftTransportFrameReader.buffered (r : RaftTransportFrameReader) : List UInt8 :=
  match r.expectedFrameBytes with
  | none => r.header
  | some _ => r.frame

/-- A reader between two calls: it has not failed, and what it holds is less than a header, or a
header and less than the frame it declares. -/
structure RaftTransportFrameReader.Sound (r : RaftTransportFrameReader) : Prop where
  failure : r.failure = none
  idle : r.expectedFrameBytes = none → r.header.length < headerSize
  expecting : ∀ expected, r.expectedFrameBytes = some expected →
    headerSize ≤ r.frame.length ∧ r.frame.length < expected ∧
      raftTransportFrameLength (r.frame.take headerSize) r.limits = .ok expected

section Steps

variable {r : RaftTransportFrameReader} {bytes : List UInt8}

variable {expected consumed : ℕ} {remainder : List UInt8}

/-- Too few bytes for the frame: they are kept. -/
lemma consumeFrame_of_lt (hshort : (r.frame ++ remainder).length < expected) :
    r.consumeFrame expected consumed remainder =
      ({ r with frame := r.frame ++ remainder }, .ok ⟨consumed + remainder.length, none⟩) := by
  rw [length_append] at hshort
  have hcopied : min remainder.length (expected - r.frame.length) = remainder.length := by omega
  simp only [consumeFrame, hcopied, take_length]
  rw [if_pos (by rw [length_append]; omega)]

/-- Enough bytes for the frame: it is decoded and the rest is left to the caller. -/
lemma consumeFrame_of_le (hframe : r.frame.length ≤ expected)
    (henough : expected ≤ (r.frame ++ remainder).length) :
    r.consumeFrame expected consumed remainder =
      match decodeRaftTransportEnvelope ((r.frame ++ remainder).take expected) r.limits with
      | .error status =>
          { r with frame := (r.frame ++ remainder).take expected }.fail status
      | .ok envelope =>
          (r.resetFrame, .ok ⟨consumed + (expected - r.frame.length), some envelope⟩) := by
  rw [length_append] at henough
  have hcopied : min remainder.length (expected - r.frame.length) = expected - r.frame.length := by
    omega
  have htake : (r.frame ++ remainder).take expected =
      r.frame ++ remainder.take (expected - r.frame.length) := by
    rw [take_append, take_of_length_le hframe]
  simp only [consumeFrame, hcopied, htake]
  rw [if_neg]
  · rfl
  · rw [length_append, length_take]
    omega

/-- What a call does with the buffered bytes and the new ones. -/
def Consumes (r : RaftTransportFrameReader) (bytes : List UInt8)
    (outcome : RaftTransportFrameReader × Result RaftTransportReadStep) :
    Cut Status RaftTransportEnvelope → Prop
  | .pending => ∃ next, outcome = (next, .ok ⟨bytes.length, none⟩) ∧ next.Sound ∧
      next.limits = r.limits ∧ next.buffered = r.buffered ++ bytes
  | .failed status => ∃ next, outcome = (next, .error status) ∧ next.failure = some status
  | .frame envelope size => r.buffered.length < size ∧
      outcome = ({ limits := r.limits }, .ok ⟨size - r.buffered.length, some envelope⟩)

/-- The second half of a call, when `start` is the reader before it. -/
lemma consumeFrame_spec (hfailure : r.failure = none)
    (hexpected : r.expectedFrameBytes = some expected) (hheader : headerSize ≤ r.frame.length)
    (hframe : r.frame.length < expected)
    (hlength : raftTransportFrameLength (r.frame.take headerSize) r.limits = .ok expected)
    {start : RaftTransportFrameReader} (hlimits : start.limits = r.limits)
    (hstream : start.buffered ++ bytes = r.frame ++ remainder)
    (hconsumed : start.buffered.length + consumed = r.frame.length) :
    Consumes start bytes (r.consumeFrame expected consumed remainder)
      ((transportFraming start.limits).cut (start.buffered ++ bytes)) := by
  have hsizes := congrArg List.length hstream
  rw [length_append, length_append] at hsizes
  have hlong : headerSize ≤ (r.frame ++ remainder).length := by
    rw [length_append]
    omega
  have htake : raftTransportFrameLength ((r.frame ++ remainder).take headerSize) r.limits =
      .ok expected := by
    rw [take_append_of_le_length hheader]
    exact hlength
  rw [hstream, hlimits, (transportFraming r.limits).cut_of_ok hlong htake]
  by_cases hshort : (r.frame ++ remainder).length < expected
  · rw [if_pos hshort, consumeFrame_of_lt hshort]
    refine ⟨{ r with frame := r.frame ++ remainder }, ?_,
      ⟨hfailure, fun hnone => ?_, fun size hsize => ?_⟩, hlimits.symm, ?_⟩
    · rw [show consumed + remainder.length = bytes.length by omega]
    · cases hexpected.symm.trans hnone
    · obtain rfl := Option.some.inj (hexpected.symm.trans hsize)
      exact ⟨hlong, hshort, htake⟩
    · rw [hstream]
      simp only [buffered, hexpected]
  · rw [if_neg hshort, consumeFrame_of_le hframe.le (by omega)]
    simp only [transportFraming]
    rcases decodeRaftTransportEnvelope ((r.frame ++ remainder).take expected) r.limits with
      status | envelope
    · exact ⟨_, rfl, rfl⟩
    · refine ⟨by omega, ?_⟩
      simp only [resetFrame, hfailure, hlimits]
      rw [show consumed + (expected - r.frame.length) = expected - start.buffered.length by omega]

/-- **One call cuts the stream.** -/
lemma consume_spec (hr : r.Sound) (bytes : List UInt8) :
    Consumes r bytes (r.consume bytes)
      ((transportFraming r.limits).cut (r.buffered ++ bytes)) := by
  rcases hexpected : r.expectedFrameBytes with _ | expected
  · have hheader := hr.idle hexpected
    have hbuffered : r.buffered = r.header := by simp only [buffered, hexpected]
    simp only [consume, hr.failure, hexpected]
    rcases Nat.lt_or_ge (r.header ++ bytes).length headerSize with hshort | hlong
    · have hsizes := hshort
      rw [length_append] at hsizes
      have hcopied : min bytes.length (headerSize - r.header.length) = bytes.length := by omega
      rw [hcopied, take_length, if_pos hshort.ne, hbuffered,
        (transportFraming r.limits).cut_of_lt hshort]
      refine ⟨_, rfl, ⟨rfl, fun _ => hshort, fun size hsize => ?_⟩, rfl, ?_⟩
      · cases hsize
      · rw [hbuffered]
        rfl
    · have hsizes := hlong
      rw [length_append] at hsizes
      have hcopied : min bytes.length (headerSize - r.header.length) =
          headerSize - r.header.length := by omega
      have htake : r.header ++ bytes.take (headerSize - r.header.length) =
          (r.header ++ bytes).take headerSize := by
        rw [take_append, take_of_length_le hheader.le]
      have hlength : ((r.header ++ bytes).take headerSize).length = headerSize := by
        rw [length_take]
        omega
      rw [hcopied, htake, if_neg (not_not.2 hlength)]
      rcases hdeclared : raftTransportFrameLength ((r.header ++ bytes).take headerSize) r.limits
        with _ | expected
      · rw [hbuffered, (transportFraming r.limits).cut_of_error hlong hdeclared]
        exact ⟨_, rfl, rfl⟩
      · have hframing := framing_le_of_length hdeclared
        rw [framing, trailerSize] at hframing
        refine consumeFrame_spec rfl rfl hlength.ge ?_ ?_ rfl ?_ ?_
        · exact lt_of_eq_of_lt hlength (by omega)
        · rw [take_take, Nat.min_self]
          exact hdeclared
        · have hdrop : bytes.drop (headerSize - r.header.length) =
              (r.header ++ bytes).drop headerSize := by
            rw [drop_append, drop_of_length_le hheader.le, nil_append]
          rw [hbuffered, hdrop]
          exact (take_append_drop _ _).symm
        · rw [hbuffered, hlength]
          omega
  · obtain ⟨hheader, hframe, hlength⟩ := hr.expecting expected hexpected
    have hbuffered : r.buffered = r.frame := by simp only [buffered, hexpected]
    simp only [consume, hr.failure, hexpected]
    exact consumeFrame_spec hr.failure hexpected hheader hframe hlength rfl (by rw [hbuffered])
      (by rw [hbuffered, Nat.add_zero])

variable {status : Status}

/-- A failed reader does nothing. -/
lemma consume_of_failure (h : r.failure = some status) (bytes : List UInt8) :
    r.consume bytes = (r, .error status) := by
  simp only [consume, h]

/-- An error is kept. -/
lemma failure_of_consume {next : RaftTransportFrameReader}
    (h : r.consume bytes = (next, .error status)) : next.failure = some status := by
  have frame : ∀ {r : RaftTransportFrameReader} {expected consumed : ℕ} {remainder : List UInt8},
      r.consumeFrame expected consumed remainder = (next, .error status) →
      next.failure = some status := by
    intro _ _ _ _ hframe
    simp only [consumeFrame] at hframe
    split_ifs at hframe
    · cases hframe
    split at hframe
    · cases hframe
      rfl
    · cases hframe
  simp only [consume] at h
  split at h
  · cases h
    assumption
  · exact frame h
  · split_ifs at h
    · cases h
    split at h
    · cases h
      rfl
    · exact frame h

end Steps

/-! ### The loops scan the stream -/

section Loops

variable {r : RaftTransportFrameReader} {limits : RaftTransportCodecLimits}

/-- A loop ends as a scan does: the same frames, then the same error or a reader that holds what is
left. -/
def Refines (limits : RaftTransportCodecLimits)
    (outcome : RaftTransportFrameReader × List RaftTransportEnvelope × Option Status)
    (scanned : Scan Status RaftTransportEnvelope) : Prop :=
  outcome.2.1 = scanned.frames ∧
    match scanned.rest with
    | .error status => outcome.2.2 = some status ∧ outcome.1.failure = some status
    | .ok pending => outcome.2.2 = none ∧ outcome.1.Sound ∧ outcome.1.limits = limits ∧
        outcome.1.buffered = pending

lemma sound_empty (limits : RaftTransportCodecLimits) :
    RaftTransportFrameReader.Sound { limits } :=
  ⟨rfl, fun _ => Nat.zero_lt_of_lt (by decide : 0 < headerSize),
    fun _ hexpected => by cases hexpected⟩

lemma sound_of_create (h : create limits = .ok r) :
    r.Sound ∧ r.limits = limits ∧ r.buffered = [] := by
  simp only [create, Result.bind_eq_ok, require_eq_ok, Except.ok.injEq, exists_const] at h
  obtain ⟨-, rfl⟩ := h
  exact ⟨sound_empty limits, rfl, rfl⟩

lemma drain_nil (r : RaftTransportFrameReader) : r.drain [] = (r, [], none) := by
  rw [drain, if_pos rfl]

/-- What a sound reader holds is not a frame. -/
lemma RaftTransportFrameReader.Sound.cut_buffered (hr : r.Sound) :
    (transportFraming r.limits).cut r.buffered = .pending := by
  rcases hexpected : r.expectedFrameBytes with _ | expected
  · simp only [buffered, hexpected]
    exact (transportFraming r.limits).cut_of_lt (hr.idle hexpected)
  · obtain ⟨hheader, hframe, hlength⟩ := hr.expecting expected hexpected
    simp only [buffered, hexpected]
    rw [(transportFraming r.limits).cut_of_ok hheader hlength, if_pos hframe]

/-- **Draining a piece refines scanning.** -/
lemma drain_spec (hr : r.Sound) (bytes : List UInt8) :
    Refines r.limits (r.drain bytes) ((transportFraming r.limits).scan (r.buffered ++ bytes)) := by
  induction hn : bytes.length using Nat.strongRecOn generalizing r bytes with
  | ind n ih =>
    by_cases hbytes : bytes = []
    · rw [hbytes, drain_nil, append_nil,
        (transportFraming r.limits).scan_of_pending hr.cut_buffered]
      exact ⟨rfl, rfl, hr, rfl, rfl⟩
    have hpos := length_pos_iff.2 hbytes
    have hconsume := consume_spec hr bytes
    rw [drain, if_neg hbytes]
    rcases hcut : (transportFraming r.limits).cut (r.buffered ++ bytes) with
      _ | status | ⟨envelope, size⟩
    · rw [hcut] at hconsume
      obtain ⟨next, hnext, hsound, hlimits, hbuffered⟩ := hconsume
      rw [(transportFraming r.limits).scan_of_pending hcut, hnext]
      simp only [hpos.ne', if_false, drop_length, drain_nil]
      exact ⟨rfl, rfl, hsound, hlimits, hbuffered⟩
    · rw [hcut] at hconsume
      obtain ⟨_, hnext, hfailure⟩ := hconsume
      rw [(transportFraming r.limits).scan_of_failed hcut, hnext]
      exact ⟨rfl, rfl, hfailure⟩
    · rw [hcut] at hconsume
      obtain ⟨hsize, hnext⟩ := hconsume
      obtain ⟨-, hfits, -⟩ := (transportFraming r.limits).cut_eq_frame hcut
      rw [length_append] at hfits
      have hdrop : (r.buffered ++ bytes).drop size = bytes.drop (size - r.buffered.length) := by
        rw [drop_append, drop_of_length_le hsize.le, nil_append]
      obtain ⟨hframes, hrest⟩ := ih (bytes.drop (size - r.buffered.length)).length
        (by rw [length_drop]; omega) (sound_empty r.limits) _ rfl
      rw [(transportFraming r.limits).scan_of_frame hcut, hdrop, hnext]
      simp only [show size - r.buffered.length ≠ 0 by omega, if_false]
      exact ⟨congrArg (envelope :: ·) hframes, hrest⟩

variable {status : Status}

lemma drain_of_failure (h : r.failure = some status) (bytes : List UInt8) :
    (r.drain bytes).1 = r ∧ (r.drain bytes).2.1 = [] := by
  rw [drain, consume_of_failure h]
  split_ifs <;> exact ⟨rfl, rfl⟩

/-- A failed reader gives no frames. -/
lemma feed_of_failure (h : r.failure = some status) (pieces : List (List UInt8)) :
    (r.feed pieces).1 = r ∧ (r.feed pieces).2.1 = [] := by
  induction pieces with
  | nil => exact ⟨rfl, rfl⟩
  | cons piece pieces ih =>
    obtain ⟨hreader, hframes⟩ := drain_of_failure h piece
    simp only [feed, hreader, hframes, nil_append]
    exact ih

/-- **Feeding pieces refines scanning the whole stream.** -/
lemma feed_spec (hr : r.Sound) (pieces : List (List UInt8)) :
    Refines r.limits (r.feed pieces)
      ((transportFraming r.limits).scan (r.buffered ++ pieces.flatten)) := by
  induction pieces generalizing r with
  | nil =>
    rw [flatten_nil, append_nil,
      (transportFraming r.limits).scan_of_pending hr.cut_buffered]
    exact ⟨rfl, rfl, hr, rfl, rfl⟩
  | cons piece pieces ih =>
    have hdrain := drain_spec hr piece
    rw [flatten_cons, ← append_assoc, Framing.scan_append]
    obtain ⟨hframes, hrest⟩ := hdrain
    rcases hscan : ((transportFraming r.limits).scan (r.buffered ++ piece)).rest with
      status | pending
    · rw [hscan] at hrest
      obtain ⟨herror, hfailure⟩ := hrest
      obtain ⟨hreader, hnone⟩ := feed_of_failure hfailure pieces
      simp only [feed, Framing.resume, hscan, Refines, herror, hreader, hnone, append_nil]
      exact ⟨hframes, rfl, hfailure⟩
    · rw [hscan] at hrest
      obtain ⟨herror, hsound, hlimits, hbuffered⟩ := hrest
      obtain ⟨hlaterFrames, hlaterRest⟩ := ih hsound
      rw [hlimits, hbuffered] at hlaterFrames hlaterRest
      simp only [feed, Framing.resume, hscan, Refines, herror]
      exact ⟨by rw [hframes, hlaterFrames], hlaterRest⟩

lemma Refines.error_eq
    {outcome : RaftTransportFrameReader × List RaftTransportEnvelope × Option Status}
    {scanned : Scan Status RaftTransportEnvelope} (h : Refines limits outcome scanned) :
    outcome.2 = (scanned.frames, match scanned.rest with
      | .error status => some status
      | .ok _ => none) := by
  obtain ⟨hframes, hrest⟩ := h
  refine Prod.ext hframes ?_
  rcases hscan : scanned.rest with _ | _
  · rw [hscan] at hrest
    exact hrest.1
  · rw [hscan] at hrest
    exact hrest.1

/-- **Raft transport frames and their streams.**  Under any limits, a valid message whose fields
have their widths is decoded from its frame as it was, and it has a frame unless the frame would be
too long; a frame that is accepted is the one its envelope encodes to; a stream gives a new reader
the frames and the error of its scan, the same whatever its pieces are; and an error is final. -/
theorem transport_frames_are_canonical_and_stream_independent (limits : RaftTransportCodecLimits) :
    (∀ envelope : RaftTransportEnvelope, envelope.Representable →
      validateMessage envelope limits = .ok () →
      (∀ bytes, encodeRaftTransportEnvelope envelope limits = .ok bytes →
        decodeRaftTransportEnvelope bytes limits = .ok envelope) ∧
      (ValidLimits limits →
        framing + (encodePayload envelope.message).length ≤ limits.maximumFrameBytes →
        ∃ bytes, encodeRaftTransportEnvelope envelope limits = .ok bytes)) ∧
    (∀ bytes envelope, decodeRaftTransportEnvelope bytes limits = .ok envelope →
      encodeRaftTransportEnvelope envelope limits = .ok bytes) ∧
    (∀ r, create limits = .ok r → ∀ pieces : List (List UInt8),
      Refines limits (r.feed pieces) ((transportFraming limits).scan pieces.flatten) ∧
        (r.feed pieces).2 = (r.feed [pieces.flatten]).2) ∧
    (∀ (r next : RaftTransportFrameReader) bytes status,
      r.consume bytes = (next, .error status) → ∀ later pieces,
        next.consume later = (next, .error status) ∧ (next.feed pieces).2.1 = []) := by
  refine ⟨fun envelope hrepresentable hvalid => ⟨fun bytes hencode => ?_, fun hlimits hsize => ?_⟩,
    fun bytes envelope hdecode => ?_, fun r hcreate pieces => ?_,
    fun r next bytes status herror later pieces => ?_⟩
  · obtain ⟨hframed, rfl⟩ := encode_eq_ok_iff.1 hencode
    exact decode_eq_ok_iff.2 ⟨hframed, hrepresentable, rfl⟩
  · exact ⟨_, encode_eq_ok_iff.2 ⟨⟨hlimits, hvalid, hsize⟩, rfl⟩⟩
  · obtain ⟨hframed, -, rfl⟩ := decode_eq_ok_iff.1 hdecode
    exact encode_eq_ok_iff.2 ⟨hframed, rfl⟩
  · obtain ⟨hsound, hlimits, hbuffered⟩ := sound_of_create hcreate
    have hscan := feed_spec hsound
    rw [hlimits, hbuffered] at hscan
    have hwhole := (hscan [pieces.flatten]).error_eq
    rw [flatten_singleton] at hwhole
    exact ⟨hscan pieces, (hscan pieces).error_eq.trans hwhole.symm⟩
  · have hfailure := failure_of_consume herror
    exact ⟨consume_of_failure hfailure later, (feed_of_failure hfailure pieces).2⟩

end Loops

/-- A vote that arrives in two pieces is read. -/
theorem transport_frames_are_canonical_and_stream_independent_vote :
    ∃ bytes r, encodeRaftTransportEnvelope ⟨7, 1, 2, .requestVoteResponse ⟨3, true⟩⟩ {} =
        .ok bytes ∧
      decodeRaftTransportEnvelope bytes {} = .ok ⟨7, 1, 2, .requestVoteResponse ⟨3, true⟩⟩ ∧
      create {} = .ok r ∧
      (r.feed [bytes.take 40, bytes.drop 40]).2 =
        ([⟨7, 1, 2, .requestVoteResponse ⟨3, true⟩⟩], none) := by
  obtain ⟨hround, -, hpieces, -⟩ := transport_frames_are_canonical_and_stream_independent {}
  obtain ⟨hdecode, hencode⟩ := hround ⟨7, 1, 2, .requestVoteResponse ⟨3, true⟩⟩
    ⟨by decide, by decide, by decide, show 3 < 256 ^ 8 by decide⟩ (by decide)
  obtain ⟨bytes, hbytes⟩ := hencode (by decide) (by decide)
  refine ⟨bytes, _, hbytes, hdecode bytes hbytes, rfl, (hpieces _ rfl _).2.trans ?_⟩
  obtain ⟨-, rfl⟩ := encode_eq_ok_iff.1 hbytes
  decide +kernel

end Chronos.Raft.Transport
