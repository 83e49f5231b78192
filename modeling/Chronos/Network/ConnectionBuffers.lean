import Chronos.Common.Framing
import Chronos.Network.Protocol

/-!
`network/connection_buffers.cpp`: the two buffers of a connection.

* `ConnectionBuffers.receive`: bytes of the stream in, whole frames out.
* `ConnectionBuffers.enqueue`, `consumeWritten`: encoded frames in, bytes of the stream out.
* `scans`: the loop of `receive` scans its buffer in the sense of `Framing.scan`.
* `receive_cases`, `enqueue_cases`, `consumeWritten_cases`: what each call can do.
-/

namespace Chronos.Network

/-! ### The buffers -/

/-- `ConnectionBufferConfig`. -/
structure ConnectionBufferConfig where
  protocol : ProtocolLimits := {}
  maximumInboundBufferBytes : ℕ := frameHeaderSize + defaultMaximumPayloadSize
  maximumOutboundBufferBytes : ℕ := 32 * 1024 * 1024
  maximumOutboundFrames : ℕ := 128
  deriving DecidableEq

/-- `ConnectionBuffers`. -/
structure ConnectionBuffers where
  config : ConnectionBufferConfig
  inbound : List UInt8 := []
  outbound : List (List UInt8) := []
  outboundOffset : ℕ := 0
  outboundBytes : ℕ := 0
  deriving DecidableEq

/-- The loop of `receive`: the frames at the front of the buffer and the number of their bytes. -/
def decodeLoop (limits : ProtocolLimits) (remaining : List UInt8) : Result (List Frame × ℕ) :=
  if remaining.length < frameHeaderSize then .ok ([], 0)
  else match decodeFrameHeader (remaining.take frameHeaderSize) limits with
  | .error status => .error status
  | .ok header =>
    match _hsize : encodedFrameSize header.payloadSize limits with
    | .error status => .error status
    | .ok size =>
      if remaining.length < size then .ok ([], 0)
      else match decodeFrame (remaining.take size) limits with
      | .error status => .error status
      | .ok frame =>
        match decodeLoop limits (remaining.drop size) with
        | .error status => .error status
        | .ok (frames, consumed) => .ok (frame :: frames, size + consumed)
termination_by remaining.length
decreasing_by
  obtain ⟨-, -, rfl⟩ := encodedFrameSize_eq_ok.1 _hsize
  rw [List.length_drop, frameHeaderSize] at *
  omega

namespace ConnectionBuffers

/-- `ConnectionBuffers::create`. -/
def create (config : ConnectionBufferConfig) : Result ConnectionBuffers := do
  validateProtocolLimits config.protocol
  let maximumFrame ← encodedFrameSize config.protocol.maximumPayloadSize config.protocol
  require (maximumFrame ≤ config.maximumInboundBufferBytes ∧
      frameHeaderSize ≤ config.maximumOutboundBufferBytes ∧ config.maximumOutboundFrames ≠ 0 ∧
      config.maximumOutboundFrames ≤ 65536)
    (invalid "connection buffer limits cannot hold required frames")
  .ok { config }

/-- The first test of `receive`. -/
abbrev Fits (b : ConnectionBuffers) (bytes : List UInt8) : Prop :=
  ∃ newSize ∈ checkedAdd b.inbound.length bytes.length,
    newSize ≤ b.config.maximumInboundBufferBytes

/-- `receive`. -/
def receive (b : ConnectionBuffers) (bytes : List UInt8) :
    ConnectionBuffers × Result (List Frame) :=
  if b.Fits bytes then
    let b := { b with inbound := b.inbound ++ bytes }
    match decodeLoop b.config.protocol b.inbound with
    | .error status => (b, .error status)
    | .ok (frames, consumed) => ({ b with inbound := b.inbound.drop consumed }, .ok frames)
  else (b, .error (exhausted "connection inbound buffer limit exceeded"))

/-- `enqueue`. -/
def enqueue (b : ConnectionBuffers) (encodedFrame : List UInt8) : ConnectionBuffers × Result Unit :=
  match decodeFrame encodedFrame b.config.protocol with
  | .error status =>
    (b, .error (if status.code = .resourceExhausted then status
      else invalid "outbound bytes are not one canonical Protocol v1 frame"))
  | .ok _ =>
    match checkedAdd b.outboundBytes encodedFrame.length with
    | none => (b, .error (exhausted "connection outbound buffer limit exceeded"))
    | some total =>
      if total > b.config.maximumOutboundBufferBytes ∨
          b.outbound.length = b.config.maximumOutboundFrames then
        (b, .error (exhausted "connection outbound buffer limit exceeded"))
      else ({ b with outbound := b.outbound ++ [encodedFrame], outboundBytes := total }, .ok ())

/-- `pending_write`. -/
def pendingWrite (b : ConnectionBuffers) : List UInt8 :=
  match b.outbound with
  | [] => []
  | front :: _ => front.drop b.outboundOffset

/-- `consume_written`. -/
def consumeWritten (b : ConnectionBuffers) (bytes : ℕ) : ConnectionBuffers × Result Unit :=
  match b.outbound with
  | [] => (b, .error (invalid "written byte count exceeds the current outbound frame"))
  | front :: rest =>
    if bytes > front.length - b.outboundOffset then
      (b, .error (invalid "written byte count exceeds the current outbound frame"))
    else
      let b :=
        { b with
          outboundOffset := b.outboundOffset + bytes
          outboundBytes := b.outboundBytes - bytes }
      if b.outboundOffset = front.length then
        ({ b with outbound := rest, outboundOffset := 0 }, .ok ())
      else (b, .ok ())

end ConnectionBuffers

/-! ### The loop scans the stream -/

/-- The frames of the protocol. -/
def protocolFraming (limits : ProtocolLimits) : Framing Status Frame where
  headerSize := frameHeaderSize
  length header := do
    let header ← decodeFrameHeader header limits
    encodedFrameSize header.payloadSize limits
  decode bytes := decodeFrame bytes limits
  header_pos := by decide
  header_le header size h := by
    obtain ⟨_, -, hsize⟩ := Result.bind_eq_ok.1 h
    obtain ⟨-, -, rfl⟩ := encodedFrameSize_eq_ok.1 hsize
    exact Nat.le_add_right _ _

/-- What a loop returns that ends as a scan does. -/
def Scans (limits : ProtocolLimits) (bytes : List UInt8) : Prop :=
  match ((protocolFraming limits).scan bytes).rest with
  | .error status => decodeLoop limits bytes = .error status
  | .ok rest => ∃ consumed, bytes.drop consumed = rest ∧
      decodeLoop limits bytes = .ok (((protocolFraming limits).scan bytes).frames, consumed)

section

variable {limits : ProtocolLimits} {bytes : List UInt8}

lemma decodeLoop_of_lt (h : bytes.length < frameHeaderSize) :
    decodeLoop limits bytes = .ok ([], 0) := by
  rw [decodeLoop, if_pos h]

lemma decodeLoop_of_error {status : Status} (hlength : frameHeaderSize ≤ bytes.length)
    (h : (protocolFraming limits).length (bytes.take frameHeaderSize) = .error status) :
    decodeLoop limits bytes = .error status := by
  rw [decodeLoop, if_neg (Nat.not_lt.2 hlength)]
  split
  · rename_i found hfound
    simp only [protocolFraming, hfound] at h
    cases show (Except.error found : Result ℕ) = .error status from h
    rfl
  · rename_i header hheader
    simp only [protocolFraming, hheader] at h
    split
    · rename_i found hfound
      cases hfound.symm.trans h
      rfl
    · rename_i size hsize
      cases hsize.symm.trans h

lemma decodeLoop_of_ok {size : ℕ} (hlength : frameHeaderSize ≤ bytes.length)
    (h : (protocolFraming limits).length (bytes.take frameHeaderSize) = .ok size) :
    decodeLoop limits bytes =
      if bytes.length < size then .ok ([], 0)
      else match decodeFrame (bytes.take size) limits with
      | .error status => .error status
      | .ok frame =>
        match decodeLoop limits (bytes.drop size) with
        | .error status => .error status
        | .ok (frames, consumed) => .ok (frame :: frames, size + consumed) := by
  obtain ⟨_, hheader, hsize⟩ := Result.bind_eq_ok.1 h
  rw [decodeLoop, if_neg (Nat.not_lt.2 hlength), hheader]
  dsimp only
  split
  · rename_i status herror
    cases herror.symm.trans hsize
  · rename_i found hfound
    cases hfound.symm.trans hsize
    rfl

/-- **The loop scans the stream.** -/
lemma scans (limits : ProtocolLimits) (bytes : List UInt8) : Scans limits bytes := by
  induction hn : bytes.length using Nat.strongRecOn generalizing bytes with
  | ind n ih =>
    rcases Nat.lt_or_ge bytes.length frameHeaderSize with hshort | hheader
    · rw [Scans, (protocolFraming limits).scan_of_pending
        ((protocolFraming limits).cut_of_lt hshort)]
      exact ⟨0, rfl, decodeLoop_of_lt hshort⟩
    rcases hlength : (protocolFraming limits).length (bytes.take frameHeaderSize) with status | size
    · rw [Scans, (protocolFraming limits).scan_of_failed
        ((protocolFraming limits).cut_of_error hheader hlength)]
      exact decodeLoop_of_error hheader hlength
    have hcut := (protocolFraming limits).cut_of_ok hheader hlength
    have hloop := decodeLoop_of_ok hheader hlength
    by_cases hsize : bytes.length < size
    · rw [if_pos hsize] at hcut hloop
      rw [Scans, (protocolFraming limits).scan_of_pending hcut]
      exact ⟨0, rfl, hloop⟩
    rw [if_neg hsize] at hcut hloop
    rcases hdecode : decodeFrame (bytes.take size) limits with status | frame
    · have hdecode' : (protocolFraming limits).decode (bytes.take size) = .error status := hdecode
      rw [hdecode'] at hcut
      rw [hdecode] at hloop
      rw [Scans, (protocolFraming limits).scan_of_failed hcut]
      exact hloop
    have hdecode' : (protocolFraming limits).decode (bytes.take size) = .ok frame := hdecode
    rw [hdecode'] at hcut
    rw [hdecode] at hloop
    have hpos : frameHeaderSize ≤ size := (protocolFraming limits).header_le _ _ hlength
    have hlater := ih (bytes.drop size).length
      (by rw [List.length_drop]; rw [frameHeaderSize] at *; omega) (bytes.drop size) rfl
    rw [Scans] at hlater ⊢
    rw [(protocolFraming limits).scan_of_frame hcut]
    dsimp only
    rcases hrest : ((protocolFraming limits).scan (bytes.drop size)).rest with _ | _
    · rw [hrest] at hlater
      rw [hlater] at hloop
      exact hloop
    · rw [hrest] at hlater
      obtain ⟨consumed, hdrop, hfound⟩ := hlater
      rw [hfound] at hloop
      refine ⟨size + consumed, ?_, hloop⟩
      rw [← List.drop_drop, hdrop]

end

namespace ConnectionBuffers

variable {b : ConnectionBuffers} {bytes : List UInt8}

/-- A call of `receive` that finds an error. -/
lemma receive_of_error (hfits : b.Fits bytes) {status : Status}
    (h : ((protocolFraming b.config.protocol).scan (b.inbound ++ bytes)).rest = .error status) :
    b.receive bytes = ({ b with inbound := b.inbound ++ bytes }, .error status) := by
  have hscans := scans b.config.protocol (b.inbound ++ bytes)
  rw [Scans, h] at hscans
  rw [receive, if_pos hfits]
  dsimp only
  rw [hscans]

/-- A call of `receive` that finds none. -/
lemma receive_of_ok (hfits : b.Fits bytes) {rest : List UInt8}
    (h : ((protocolFraming b.config.protocol).scan (b.inbound ++ bytes)).rest = .ok rest) :
    b.receive bytes = ({ b with inbound := rest },
      .ok ((protocolFraming b.config.protocol).scan (b.inbound ++ bytes)).frames) := by
  have hscans := scans b.config.protocol (b.inbound ++ bytes)
  rw [Scans, h] at hscans
  obtain ⟨_, hdrop, hloop⟩ := hscans
  rw [receive, if_pos hfits]
  dsimp only
  rw [hloop, ← hdrop]

lemma receive_of_not_fits (hfits : ¬ b.Fits bytes) :
    b.receive bytes = (b, .error (exhausted "connection inbound buffer limit exceeded")) := by
  rw [receive, if_neg hfits]

lemma Fits.length_le (h : b.Fits bytes) :
    (b.inbound ++ bytes).length ≤ b.config.maximumInboundBufferBytes := by
  obtain ⟨_, hsize, hle⟩ := h
  rw [List.length_append, ← checkedAdd_eq_some hsize]
  exact hle

/-- What `receive` does to the buffers. -/
lemma receive_cases (b : ConnectionBuffers) (bytes : List UInt8) :
    (b.receive bytes).1 = b ∨
      ∃ inbound, (b.receive bytes).1 = { b with inbound } ∧
        inbound.length ≤ b.config.maximumInboundBufferBytes := by
  by_cases hfits : b.Fits bytes
  · have hlength := hfits.length_le
    rw [receive, if_pos hfits]
    dsimp only
    split
    · exact .inr ⟨_, rfl, hlength⟩
    · refine .inr ⟨_, rfl, ?_⟩
      rw [List.length_drop]
      omega
  · rw [receive_of_not_fits hfits]
    exact .inl rfl

/-- What `enqueue` does. -/
lemma enqueue_cases (b : ConnectionBuffers) (encodedFrame : List UInt8) :
    (∃ status, b.enqueue encodedFrame = (b, .error status)) ∨
      ∃ frame total, decodeFrame encodedFrame b.config.protocol = .ok frame ∧
        b.enqueue encodedFrame =
          ({ b with
            outbound := b.outbound ++ [encodedFrame], outboundBytes := total }, .ok ()) := by
  rw [enqueue]
  split
  · exact .inl ⟨_, rfl⟩
  · rename_i frame hframe
    split
    · exact .inl ⟨_, rfl⟩
    · split
      · exact .inl ⟨_, rfl⟩
      · exact .inr ⟨frame, _, hframe, rfl⟩

/-- What `consume_written` does. -/
lemma consumeWritten_cases (b : ConnectionBuffers) (count : ℕ) :
    (∃ status, b.consumeWritten count = (b, .error status)) ∨
      ∃ front rest left, b.outbound = front :: rest ∧ count ≤ front.length - b.outboundOffset ∧
        b.consumeWritten count =
          (if b.outboundOffset + count = front.length then
            { b with outbound := rest, outboundOffset := 0, outboundBytes := left }
          else { b with outboundOffset := b.outboundOffset + count, outboundBytes := left },
          .ok ()) := by
  rw [consumeWritten]
  split
  · exact .inl ⟨_, rfl⟩
  · rename_i front rest hfront
    split
    · exact .inl ⟨_, rfl⟩
    · rename_i hcount
      refine .inr ⟨front, rest, b.outboundBytes - count, hfront, Nat.not_lt.1 hcount, ?_⟩
      dsimp only
      split <;> rfl

end ConnectionBuffers

end Chronos.Network
