import Chronos.Common.Runs
import Chronos.Network.ConnectionBuffers

/-!
Runs of the buffers of a connection.

* `BufferRun`: any interleaving of calls, with what they were given and what they returned.
* `BufferRun.Received`: the frames that `receive` returned are those of the scan of the stream.
* `BufferRun.Written`: what was consumed and what waits are the frames that were enqueued.
* `native_framing`: round trip and canonical form of frames, the frames of a stream in pieces, the
  bound on the inbound buffer, and the order of the bytes that are written.
-/

namespace Chronos.Network

open Runs List ConnectionBuffers

/-! ### Runs -/

/-- A call. -/
inductive BufferEvent where
  | receive (bytes : List UInt8)
  | enqueue (encodedFrame : List UInt8)
  | consumeWritten (bytes : ℕ)

/-- Buffers with a record of the calls: the bytes given to `receive` and what it returned, the
frames that were enqueued, and the bytes that were consumed. -/
structure BufferRun where
  buffers : ConnectionBuffers
  stream : List UInt8 := []
  results : List (Result (List Frame)) := []
  enqueued : List (List UInt8) := []
  consumed : List UInt8 := []

namespace BufferRun

/-- One call. -/
def step (r : BufferRun) : BufferEvent → BufferRun
  | .receive bytes =>
    { r with
      buffers := (r.buffers.receive bytes).1
      stream := r.stream ++ bytes
      results := r.results ++ [(r.buffers.receive bytes).2] }
  | .enqueue encodedFrame =>
    { r with
      buffers := (r.buffers.enqueue encodedFrame).1
      enqueued :=
        if (r.buffers.enqueue encodedFrame).2 = .ok () then r.enqueued ++ [encodedFrame]
        else r.enqueued }
  | .consumeWritten bytes =>
    { r with
      buffers := (r.buffers.consumeWritten bytes).1
      consumed :=
        if (r.buffers.consumeWritten bytes).2 = .ok () then
          r.consumed ++ r.buffers.pendingWrite.take bytes
        else r.consumed }

/-- A run on new buffers. -/
def after (b : ConnectionBuffers) (events : List BufferEvent) : BufferRun :=
  events.foldl step { buffers := b }

/-- The frames that `receive` has returned. -/
def frames (r : BufferRun) : List Frame :=
  r.results.flatMap fun result => result.toOption.getD []

/-- No call of `receive` failed. -/
def Clean (r : BufferRun) : Prop := ∀ result ∈ r.results, Result.isOk result = true

/-- A call of `receive` keeps to the inbound limit. -/
def Fits (r : BufferRun) : BufferEvent → Prop
  | .receive bytes => r.buffers.Fits bytes
  | _ => True

variable {r : BufferRun} {limits : ProtocolLimits}

/-- The frames in the stream and those returned. -/
structure Received (limits : ProtocolLimits) (r : BufferRun) : Prop where
  protocol : r.buffers.config.protocol = limits
  clean : r.Clean →
    (protocolFraming limits).scan r.stream = ⟨r.frames, .ok r.buffers.inbound⟩
  failed : ¬ r.Clean → r.frames <+: ((protocolFraming limits).scan r.stream).frames ∧
    (∃ status, ((protocolFraming limits).scan r.stream).rest = .error status) ∧
    ∃ status, ((protocolFraming limits).scan r.buffers.inbound).rest = .error status

lemma clean_append {results : List (Result (List Frame))} {result : Result (List Frame)} :
    (∀ x ∈ results ++ [result], Result.isOk x = true) ↔
      (∀ x ∈ results, Result.isOk x = true) ∧ Result.isOk result = true := by
  simp [or_imp, forall_and]

lemma frames_append (results : List (Result (List Frame))) (result : Result (List Frame)) :
    ((results ++ [result]).flatMap fun result => result.toOption.getD []) =
      (results.flatMap fun result => result.toOption.getD []) ++ result.toOption.getD [] := by
  simp

/-- A scan goes on from what a clean run has left. -/
lemma Received.scan_append (h : Received limits r) (hclean : r.Clean) (bytes : List UInt8) :
    (protocolFraming limits).scan (r.stream ++ bytes) =
      ⟨r.frames ++ ((protocolFraming limits).scan (r.buffers.inbound ++ bytes)).frames,
        ((protocolFraming limits).scan (r.buffers.inbound ++ bytes)).rest⟩ := by
  rw [Framing.scan_append, h.clean hclean]
  rfl

/-- A call of `receive` within the limit. -/
lemma Received.receive (h : Received limits r) (bytes : List UInt8)
    (hfits : r.buffers.Fits bytes) : Received limits (r.step (.receive bytes)) := by
  have hprotocol := h.protocol
  rcases hrest : ((protocolFraming limits).scan (r.buffers.inbound ++ bytes)).rest with
    status | rest
  · have hreceive : r.buffers.receive bytes =
        ({ r.buffers with inbound := r.buffers.inbound ++ bytes }, .error status) :=
      receive_of_error hfits (by rw [hprotocol, hrest])
    have hframes : (r.step (.receive bytes)).frames = r.frames := by
      simp only [step, frames, hreceive, frames_append]
      exact append_nil _
    have hinbound : (r.step (.receive bytes)).buffers.inbound = r.buffers.inbound ++ bytes := by
      simp only [step, hreceive]
    refine ⟨?_, fun hclean => ?_, fun _ => ?_⟩
    · simp only [step, hreceive]
      exact hprotocol
    · simp only [Clean, step, hreceive, clean_append] at hclean
      cases hclean.2
    rw [hframes, hinbound]
    refine ⟨?_, ?_, status, hrest⟩ <;> by_cases hclean : r.Clean
    · simp only [step, h.scan_append hclean]
      exact prefix_append _ _
    · obtain ⟨hframes, ⟨other, hother⟩, -⟩ := h.failed hclean
      simp only [step, Framing.rest_scan_of_error hother]
      exact hframes
    · simp only [step, h.scan_append hclean]
      exact ⟨status, hrest⟩
    · obtain ⟨-, ⟨other, hother⟩, -⟩ := h.failed hclean
      simp only [step, Framing.rest_scan_of_error hother]
      exact ⟨other, hother⟩
  · have hclean : r.Clean := by
      by_contra hclean
      obtain ⟨-, -, _, hother⟩ := h.failed hclean
      rw [Framing.rest_scan_of_error hother, hother] at hrest
      cases hrest
    have hreceive : r.buffers.receive bytes = ({ r.buffers with inbound := rest },
        .ok ((protocolFraming limits).scan (r.buffers.inbound ++ bytes)).frames) := by
      rw [← hprotocol] at hrest ⊢
      exact receive_of_ok hfits hrest
    refine ⟨?_, fun _ => ?_, fun hnot => ?_⟩
    · simp only [step, hreceive]
      exact hprotocol
    · simp only [step, frames, hreceive, frames_append, h.scan_append hclean, hrest]
      rfl
    · refine absurd ?_ hnot
      simp only [Clean, step, hreceive, clean_append]
      exact ⟨hclean, rfl⟩

variable {r' : BufferRun}

/-- The other calls do not touch the inbound side. -/
lemma Received.congr (h : Received limits r) (hconfig : r'.buffers.config = r.buffers.config)
    (hinbound : r'.buffers.inbound = r.buffers.inbound) (hstream : r'.stream = r.stream)
    (hresults : r'.results = r.results) : Received limits r' := by
  refine ⟨by rw [hconfig]; exact h.protocol, ?_, ?_⟩
  · rw [Clean, frames, hresults, hstream, hinbound]
    exact h.clean
  · rw [Clean, frames, hresults, hstream, hinbound]
    exact h.failed

lemma Received.step (h : Received limits r) {e : BufferEvent} (hfits : r.Fits e) :
    Received limits (r.step e) := by
  cases e with
  | receive bytes => exact h.receive bytes hfits
  | enqueue encodedFrame =>
    rcases r.buffers.enqueue_cases encodedFrame with ⟨status, hcall⟩ | ⟨_, _, _, hcall⟩ <;>
      exact h.congr (by simp only [BufferRun.step, hcall]) (by simp only [BufferRun.step, hcall])
        rfl rfl
  | consumeWritten count =>
    rcases r.buffers.consumeWritten_cases count with ⟨_, hcall⟩ | ⟨_, _, _, _, _, hcall⟩
    · exact h.congr (by simp only [BufferRun.step, hcall]) (by simp only [BufferRun.step, hcall])
        rfl rfl
    · refine h.congr ?_ ?_ rfl rfl
      · simp only [BufferRun.step, hcall]
        split <;> rfl
      · simp only [BufferRun.step, hcall]
        split <;> rfl

/-- The inbound buffer keeps to its limit. -/
def Bounded (config : ConnectionBufferConfig) (r : BufferRun) : Prop :=
  r.buffers.config = config ∧ r.buffers.inbound.length ≤ config.maximumInboundBufferBytes

lemma Bounded.step {config : ConnectionBufferConfig} (h : Bounded config r) (e : BufferEvent) :
    Bounded config (r.step e) := by
  obtain ⟨rfl, hlength⟩ := h
  cases e with
  | receive bytes =>
    rcases r.buffers.receive_cases bytes with hcall | ⟨_, hcall, hinbound⟩
    · simp only [Bounded, BufferRun.step, hcall]
      exact ⟨trivial, hlength⟩
    · simp only [Bounded, BufferRun.step, hcall]
      exact ⟨trivial, hinbound⟩
  | enqueue encodedFrame =>
    rcases r.buffers.enqueue_cases encodedFrame with ⟨status, hcall⟩ | ⟨_, _, _, hcall⟩
    · simp only [Bounded, BufferRun.step, hcall]
      exact ⟨trivial, hlength⟩
    · simp only [Bounded, BufferRun.step, hcall]
      exact ⟨trivial, hlength⟩
  | consumeWritten count =>
    rcases r.buffers.consumeWritten_cases count with ⟨_, hcall⟩ | ⟨_, _, _, _, _, hcall⟩
    · simp only [Bounded, BufferRun.step, hcall]
      exact ⟨trivial, hlength⟩
    · simp only [Bounded, BufferRun.step, hcall]
      split <;> exact ⟨rfl, hlength⟩

/-- The bytes that wait to be written. -/
def waiting (outbound : List (List UInt8)) (offset : ℕ) : List UInt8 :=
  match outbound with
  | [] => []
  | front :: rest => front.drop offset ++ rest.flatten

lemma waiting_zero (outbound : List (List UInt8)) : waiting outbound 0 = outbound.flatten := by
  cases outbound <;> rfl

/-- What was consumed and what waits are the frames that were enqueued. -/
structure Written (r : BufferRun) : Prop where
  bytes : r.consumed ++ waiting r.buffers.outbound r.buffers.outboundOffset = r.enqueued.flatten
  offset : ∀ front ∈ r.buffers.outbound.head?, r.buffers.outboundOffset < front.length
  idle : r.buffers.outbound = [] → r.buffers.outboundOffset = 0
  nonempty : ∀ frame ∈ r.buffers.outbound, frame ≠ []

lemma Written.congr (h : Written r) (houtbound : r'.buffers.outbound = r.buffers.outbound)
    (hoffset : r'.buffers.outboundOffset = r.buffers.outboundOffset)
    (henqueued : r'.enqueued = r.enqueued) (hconsumed : r'.consumed = r.consumed) : Written r' := by
  refine ⟨?_, ?_, ?_, ?_⟩
  · rw [hconsumed, houtbound, hoffset, henqueued]
    exact h.bytes
  · rw [houtbound, hoffset]
    exact h.offset
  · rw [houtbound, hoffset]
    exact h.idle
  · rw [houtbound]
    exact h.nonempty

/-- A frame joins the queue. -/
lemma Written.enqueue (h : Written r) {encodedFrame : List UInt8} (hne : encodedFrame ≠ [])
    (houtbound : r'.buffers.outbound = r.buffers.outbound ++ [encodedFrame])
    (hoffset : r'.buffers.outboundOffset = r.buffers.outboundOffset)
    (henqueued : r'.enqueued = r.enqueued ++ [encodedFrame])
    (hconsumed : r'.consumed = r.consumed) : Written r' := by
  have hbytes := h.bytes
  have hfirst := h.offset
  have hnonempty := h.nonempty
  rcases hqueue : r.buffers.outbound with _ | ⟨front, _⟩
  · rw [hqueue, nil_append] at houtbound
    rw [hqueue] at hbytes
    have hidle := h.idle hqueue
    refine ⟨?_, ?_, ?_, ?_⟩
    · rw [hconsumed, houtbound, hoffset, hidle, waiting_zero, henqueued, flatten_append,
        ← hbytes, waiting, append_nil]
    · rw [houtbound, hoffset, hidle]
      rintro _ ⟨⟩
      exact length_pos_iff.2 hne
    · rw [houtbound]
      nofun
    · rw [houtbound]
      simpa using hne
  · rw [hqueue] at hbytes houtbound hfirst hnonempty
    refine ⟨?_, ?_, ?_, ?_⟩
    · rw [hconsumed, houtbound, hoffset, henqueued, flatten_append, ← hbytes]
      simp [waiting]
    · rw [houtbound, hoffset]
      exact hfirst
    · rw [houtbound]
      nofun
    · rw [houtbound]
      intro frame hframe
      rcases mem_append.1 hframe with hframe | hframe
      · exact hnonempty frame hframe
      · rw [mem_singleton.1 hframe]
        exact hne

/-- Bytes of the first frame are written. -/
lemma Written.consume (h : Written r) {front : List UInt8} {rest : List (List UInt8)} {count : ℕ}
    (hqueue : r.buffers.outbound = front :: rest)
    (hcount : count ≤ front.length - r.buffers.outboundOffset)
    (houtbound : r'.buffers.outbound =
      if r.buffers.outboundOffset + count = front.length then rest else front :: rest)
    (hoffset : r'.buffers.outboundOffset =
      if r.buffers.outboundOffset + count = front.length then 0
      else r.buffers.outboundOffset + count) (henqueued : r'.enqueued = r.enqueued)
    (hconsumed : r'.consumed =
      r.consumed ++ (front.drop r.buffers.outboundOffset).take count) : Written r' := by
  have hbytes := h.bytes
  have hnonempty := h.nonempty
  have hfirst : r.buffers.outboundOffset < front.length := h.offset front (by rw [hqueue]; rfl)
  rw [hqueue] at hbytes hnonempty
  by_cases hend : r.buffers.outboundOffset + count = front.length
  · rw [if_pos hend] at houtbound hoffset
    have htake : (front.drop r.buffers.outboundOffset).take count =
        front.drop r.buffers.outboundOffset := by
      refine take_of_length_le ?_
      rw [length_drop]
      omega
    refine ⟨?_, ?_, fun _ => hoffset, ?_⟩
    · rw [hconsumed, houtbound, hoffset, waiting_zero, henqueued, ← hbytes, htake, waiting,
        append_assoc]
    · rw [houtbound, hoffset]
      intro next hnext
      have hmem := mem_of_mem_head? hnext
      exact length_pos_iff.2 (hnonempty next (mem_cons_of_mem _ hmem))
    · rw [houtbound]
      exact fun frame hframe => hnonempty frame (mem_cons_of_mem _ hframe)
  · rw [if_neg hend] at houtbound hoffset
    refine ⟨?_, ?_, ?_, ?_⟩
    · rw [hconsumed, houtbound, hoffset, henqueued, ← hbytes, waiting, waiting, append_assoc,
        ← append_assoc (List.take _ _), ← drop_drop, take_append_drop]
    · rw [houtbound, hoffset]
      rintro _ ⟨⟩
      omega
    · rw [houtbound]
      nofun
    · rw [houtbound]
      exact hnonempty

lemma Written.step (h : Written r) (e : BufferEvent) : Written (r.step e) := by
  cases e with
  | receive bytes =>
    rcases r.buffers.receive_cases bytes with hcall | ⟨_, hcall, -⟩ <;>
      exact h.congr (by simp only [BufferRun.step, hcall]) (by simp only [BufferRun.step, hcall])
        rfl rfl
  | enqueue encodedFrame =>
    rcases r.buffers.enqueue_cases encodedFrame with ⟨status, hcall⟩ | ⟨frame, _, hframe, hcall⟩
    · refine h.congr ?_ ?_ ?_ rfl
      · simp only [BufferRun.step, hcall]
      · simp only [BufferRun.step, hcall]
      · simp only [BufferRun.step, hcall]
        rfl
    · have hne : encodedFrame ≠ [] := by
        rintro rfl
        obtain ⟨-, -, -, hbytes⟩ := decodeFrame_eq_ok.1 hframe
        have hlength := congrArg List.length hbytes
        rw [length_append, frame.header.bytes_length, frameHeaderSize, length_nil]
          at hlength
        omega
      refine h.enqueue hne ?_ ?_ ?_ rfl
      · simp only [BufferRun.step, hcall]
      · simp only [BufferRun.step, hcall]
      · simp only [BufferRun.step, hcall, if_true]
  | consumeWritten count =>
    rcases r.buffers.consumeWritten_cases count with
      ⟨status, hcall⟩ | ⟨front, rest, left, hqueue, hcount, hcall⟩
    · refine h.congr ?_ ?_ rfl ?_
      · simp only [BufferRun.step, hcall]
      · simp only [BufferRun.step, hcall]
      · simp only [BufferRun.step, hcall]
        rfl
    · refine h.consume hqueue hcount ?_ ?_ rfl ?_
      · simp only [BufferRun.step, hcall]
        split
        · rfl
        · exact hqueue
      · simp only [BufferRun.step, hcall]
        split <;> rfl
      · simp only [BufferRun.step, hcall, if_true, pendingWrite, hqueue]

end BufferRun

/-! ### Streams -/

/-- A byte string begins with bytes that are no frame, and this shows after `size` bytes: the
header is refused, or the header is accepted and the frame it announces is refused. -/
def InvalidStart (limits : ProtocolLimits) (bytes : List UInt8) (size : ℕ) : Prop :=
  frameHeaderSize ≤ size ∧ size ≤ bytes.length ∧
    ((∃ status, decodeFrameHeader (bytes.take frameHeaderSize) limits = .error status) ∧
        size = frameHeaderSize ∨
      ∃ header status, decodeFrameHeader (bytes.take frameHeaderSize) limits = .ok header ∧
        size = frameHeaderSize + header.payloadSize ∧
        decodeFrame (bytes.take size) limits = .error status)

section

variable {limits : ProtocolLimits} {bytes : List UInt8} {frame : Frame}

lemma isFrame_of_decode (h : decodeFrame bytes limits = .ok frame) :
    (protocolFraming limits).IsFrame bytes frame := by
  obtain ⟨hvalid, hsize, -, hbytes⟩ := decodeFrame_eq_ok.1 h
  have hlength : bytes.length = frameHeaderSize + frame.header.payloadSize := by
    rw [hbytes, length_append, frame.header.bytes_length, hsize]
  refine ⟨?_, ?_, h⟩
  · rw [hlength]
    exact Nat.le_add_right _ _
  · refine Result.bind_eq_ok.2 ⟨frame.header, decodeFrameHeader_eq_ok.2 ⟨hvalid, [], ?_⟩,
      encodedFrameSize_eq_ok.2 ⟨hvalid.bounds, hvalid.size, hlength⟩⟩
    rw [hbytes, append_nil]
    exact take_left' frame.header.bytes_length

variable {size : ℕ}

lemma InvalidStart.cut (h : InvalidStart limits bytes size) :
    ∃ status, (protocolFraming limits).cut bytes = .failed status := by
  obtain ⟨hheader, hsize, ⟨⟨status, herror⟩, -⟩ | ⟨header, status, hok, rfl, herror⟩⟩ := h
  · refine ⟨status, (protocolFraming limits).cut_of_error (hheader.trans hsize) ?_⟩
    change decodeFrameHeader (bytes.take frameHeaderSize) limits >>= _ = _
    rw [herror]
    rfl
  · have hvalid := (decodeFrameHeader_eq_ok.1 hok).1
    refine ⟨status, ?_⟩
    rw [(protocolFraming limits).cut_of_ok (hheader.trans hsize) (Result.bind_eq_ok.2 ⟨header, hok,
      encodedFrameSize_eq_ok.2 ⟨hvalid.bounds, hvalid.size, rfl⟩⟩), if_neg (Nat.not_lt.2 hsize)]
    have herror' : (protocolFraming limits).decode
        (bytes.take (frameHeaderSize + header.payloadSize)) = .error status := herror
    rw [herror']

/-- What makes a start invalid is in its first bytes. -/
lemma InvalidStart.part {part : List UInt8} (h : InvalidStart limits bytes size)
    (hpart : part <+: bytes) (hsize : size ≤ part.length) : InvalidStart limits part size := by
  obtain ⟨_, rfl⟩ := hpart
  obtain ⟨hheader, -, hcases⟩ := h
  rw [take_append_of_le_length (hheader.trans hsize),
    take_append_of_le_length hsize] at hcases
  exact ⟨hheader, hsize, hcases⟩

variable {whole : List (List UInt8)} {frames : List Frame}

section

variable
  (hwhole : List.Forall₂ (fun bytes frame => decodeFrame bytes limits = .ok frame) whole frames)
include hwhole

lemma scan_of_part {tail last : List UInt8} (hlast : decodeFrame last limits = .ok frame)
    (htail : tail <+: last) (hne : tail ≠ last) :
    (protocolFraming limits).scan (whole.flatten ++ tail) = ⟨frames, .ok tail⟩ := by
  have hpending := (isFrame_of_decode hlast).cut_part htail hne
  rw [Framing.scan_frames (hwhole.imp fun _ _ => isFrame_of_decode),
    Framing.scan_of_pending _ hpending, append_nil]

lemma scan_of_invalid (hbytes : InvalidStart limits bytes size) :
    ∃ status, (protocolFraming limits).scan (whole.flatten ++ bytes) = ⟨frames, .error status⟩ := by
  obtain ⟨status, hcut⟩ := hbytes.cut
  refine ⟨status, ?_⟩
  rw [Framing.scan_frames (hwhole.imp fun _ _ => isFrame_of_decode),
    Framing.scan_of_failed _ hcut, append_nil]

end

namespace BufferRun

variable {r : BufferRun} {whole : List (List UInt8)} {frames : List Frame}

section

variable (h : Received limits r)
  (hwhole : List.Forall₂ (fun bytes frame => decodeFrame bytes limits = .ok frame) whole frames)
include h hwhole

/-- The frames of a stream of whole frames and a part of another. -/
lemma Received.of_frames {tail last : List UInt8} {frame : Frame}
    (hlast : decodeFrame last limits = .ok frame) (htail : tail <+: last) (hne : tail ≠ last)
    (hstream : r.stream = whole.flatten ++ tail) : r.Clean ∧ r.frames = frames := by
  have hscan := scan_of_part hwhole hlast htail hne
  rw [← hstream] at hscan
  have hclean : r.Clean := by
    by_contra hclean
    obtain ⟨-, ⟨_, herror⟩, -⟩ := h.failed hclean
    rw [hscan] at herror
    cases herror
  have hframes := h.clean hclean
  rw [hscan] at hframes
  exact ⟨hclean, (congrArg Scan.frames hframes).symm⟩

/-- The frames of a stream with an invalid frame. -/
lemma Received.of_invalid {bad : List UInt8} {size : ℕ} (hbad : InvalidStart limits bad size)
    (hstream : r.stream <+: whole.flatten ++ bad) :
    r.frames <+: frames ∧ (whole.flatten.length + size ≤ r.stream.length → ¬ r.Clean) := by
  obtain ⟨_, hscan⟩ := scan_of_invalid hwhole hbad
  refine ⟨?_, fun harrived hclean => ?_⟩
  · have hseen := Framing.frames_scan_part (f := protocolFraming limits) hstream
    rw [hscan] at hseen
    refine List.IsPrefix.trans ?_ hseen
    by_cases hclean : r.Clean
    · rw [h.clean hclean]
    · exact (h.failed hclean).1
  · obtain ⟨more, hmore⟩ := hstream
    have hlong : whole.flatten.length ≤ r.stream.length := by omega
    obtain ⟨part, hpart⟩ : whole.flatten <+: r.stream := by
      refine prefix_of_prefix_length_le ⟨bad, rfl⟩ ⟨more, hmore⟩ hlong
    have hbad' : part ++ more = bad := by
      rw [← hpart, append_assoc] at hmore
      exact append_cancel_left hmore
    have hsize : size ≤ part.length := by
      rw [← hpart, length_append] at harrived
      omega
    obtain ⟨_, herror⟩ := scan_of_invalid hwhole (hbad.part ⟨more, hbad'⟩ hsize)
    rw [hpart, h.clean hclean] at herror
    cases congrArg Scan.rest herror

end

end BufferRun

end

/-! ### All runs -/

section

variable {config : ConnectionBufferConfig} {b : ConnectionBuffers} {events : List BufferEvent}

lemma ConnectionBuffers.create_eq_ok (h : ConnectionBuffers.create config = .ok b) :
    b = { config } := by
  simp only [create, Result.bind_eq_ok, require_eq_ok, Except.ok.injEq, exists_const] at h
  obtain ⟨-, -, -, -, -, rfl⟩ := h
  rfl

namespace BufferRun

lemma received_run (hfits : Along step BufferRun.Fits { buffers := { config } } events) :
    Received config.protocol (after { config } events) := by
  refine Along.invariant (Received config.protocol) (fun _ _ h => h.step) ⟨rfl, fun _ => ?_, ?_⟩
    hfits
  · exact Framing.scan_of_pending _ (Framing.cut_of_lt _ (show 0 < frameHeaderSize by decide))
  · exact fun hclean => absurd nofun hclean

lemma bounded_run : Bounded config (after { config } events) :=
  foldlRecOn events _ ⟨rfl, Nat.zero_le _⟩ fun _ h e _ => h.step e

lemma written_run : Written (after { config } events) := by
  refine foldlRecOn events _ ⟨rfl, fun front hfront => ?_, fun _ => rfl, fun frame hframe => ?_⟩
    fun _ h e _ => h.step e
  · cases hfront
  · cases hframe

end BufferRun

end

open BufferRun in
/-- **Native protocol framing.**  A frame is decoded as it was encoded, and one that is accepted is
the one its header and payload encode to.  For every interleaving of calls on the buffers of a
connection: a stream of whole frames and a part of another, received within the inbound limit, gives
these frames and no error; a stream with an invalid frame gives no frame from there on, and an error
once the announced bytes have arrived; the inbound buffer keeps to its limit; and the bytes that are
consumed and those that wait are those of the enqueued frames, in their order. -/
theorem native_framing :
    (∀ (limits : ProtocolLimits) (descriptor : FrameDescriptor) (payload bytes : List UInt8),
      descriptor.Representable → encodeFrame descriptor payload limits = .ok bytes →
      decodeFrame bytes limits = .ok (descriptor.frame payload)) ∧
    (∀ (limits : ProtocolLimits) (bytes : List UInt8) (frame : Frame),
      decodeFrame bytes limits = .ok frame →
      encodeFrame frame.header.toFrameDescriptor frame.payload limits = .ok bytes) ∧
    ∀ (config : ConnectionBufferConfig) (b : ConnectionBuffers) (events : List BufferEvent),
      ConnectionBuffers.create config = .ok b →
      (Along BufferRun.step BufferRun.Fits { buffers := b } events →
        ∀ (whole : List (List UInt8)) (frames : List Frame),
          List.Forall₂ (fun bytes frame => decodeFrame bytes config.protocol = .ok frame) whole
            frames →
          (∀ tail last frame, decodeFrame last config.protocol = .ok frame → tail <+: last →
            tail ≠ last →
            (after b events).stream = whole.flatten ++ tail →
            (after b events).Clean ∧ (after b events).frames = frames) ∧
          ∀ bad size, InvalidStart config.protocol bad size →
            (after b events).stream <+: whole.flatten ++ bad →
            (after b events).frames <+: frames ∧
              (whole.flatten.length + size ≤ (after b events).stream.length →
                ¬ (after b events).Clean)) ∧
      (after b events).buffers.inbound.length ≤ config.maximumInboundBufferBytes ∧
      (after b events).consumed ++ waiting (after b events).buffers.outbound
        (after b events).buffers.outboundOffset = (after b events).enqueued.flatten := by
  refine ⟨fun limits descriptor payload bytes => decodeFrame_encodeFrame,
    fun limits bytes frame => encodeFrame_decodeFrame, fun config b events hcreate => ?_⟩
  obtain rfl := ConnectionBuffers.create_eq_ok hcreate
  refine ⟨fun hfits whole frames hwhole => ⟨?_, ?_⟩, ?_, ?_⟩
  · intro tail last frame hlast htail hne hstream
    exact (received_run hfits).of_frames hwhole hlast htail hne hstream
  · intro bad size hbad hstream
    exact (received_run hfits).of_invalid hwhole hbad hstream
  · exact bounded_run.2
  · exact written_run.bytes

/-- A frame is enqueued, and seven of its bytes are written. -/
def BufferRun.partly (bytes : List UInt8) : BufferRun :=
  after { config := {} } [.enqueue bytes, .consumeWritten 7]

open BufferRun in
/-- A ping and the first bytes of another, a stream of zeros, and a ping that is partly written. -/
theorem native_framing_ping :
    ∃ bytes, encodeFrame ⟨1, 0, .ping, 0, 0⟩ [] {} = .ok bytes ∧
      decodeFrame bytes {} = .ok (FrameDescriptor.frame ⟨1, 0, .ping, 0, 0⟩ []) ∧
      (after { config := {} } [.receive (bytes ++ bytes.take 5)]).frames =
        [FrameDescriptor.frame ⟨1, 0, .ping, 0, 0⟩ []] ∧
      ¬ (after { config := {} } [.receive (List.replicate 40 0)]).Clean ∧
      (partly bytes).consumed ++ bytes.drop 7 = bytes := by
  obtain ⟨hround, -, hstreams⟩ := native_framing
  have hping : FrameDescriptor.Representable ⟨1, 0, .ping, 0, 0⟩ := ⟨by decide, by decide⟩
  obtain ⟨bytes, hbytes⟩ : ∃ bytes, encodeFrame ⟨1, 0, .ping, 0, 0⟩ [] {} = .ok bytes := ⟨_, rfl⟩
  have hlength : bytes.length = 40 := by
    obtain ⟨-, rfl⟩ := (encodeFrame_eq_ok hping).1 hbytes
    rfl
  have hdecode := hround {} _ [] bytes hping hbytes
  have hfits : ∀ more : List UInt8, more.length ≤ 45 →
      Along BufferRun.step BufferRun.Fits { buffers := { config := {} } } [.receive more] := by
    intro more _
    have hadd : checkedAdd 0 more.length = some (0 + more.length) :=
      checkedAdd_of_le (by rw [u64Max]; omega)
    refine ⟨⟨0 + more.length, hadd, ?_⟩, trivial⟩
    exact (show 0 + more.length ≤ 45 by omega).trans (by decide)
  refine ⟨bytes, hbytes, hdecode, ?_, ?_, ?_⟩
  · have hne : bytes.take 5 ≠ bytes := by
      intro h
      have h5 := congrArg List.length h
      rw [length_take] at h5
      omega
    refine (((hstreams {} _ _ rfl).1 (hfits (bytes ++ bytes.take 5) ?_) [bytes] _
      (.cons hdecode .nil)).1 (bytes.take 5) bytes _ hdecode (List.take_prefix _ _) hne ?_).2
    · rw [length_append, length_take]
      omega
    · rw [flatten_singleton]
      rfl
  · refine (((hstreams {} _ _ rfl).1 (hfits (List.replicate 40 0) (by decide)) [] [] .nil).2
      (List.replicate 40 0) 40 ⟨by decide, by decide, .inl ⟨⟨_, rfl⟩, rfl⟩⟩ ⟨[], rfl⟩).2 ?_
    decide
  · have hqueue : (partly bytes).enqueued = [bytes] ∧ (partly bytes).buffers.outbound = [bytes] ∧
        (partly bytes).buffers.outboundOffset = 7 := by
      obtain ⟨-, rfl⟩ := (encodeFrame_eq_ok hping).1 hbytes
      decide +kernel
    have hwritten := (hstreams {} _ [.enqueue bytes, .consumeWritten 7] rfl).2.2
    rwa [← partly, hqueue.1, hqueue.2.1, hqueue.2.2, flatten_singleton, waiting, flatten_nil,
      append_nil] at hwritten

end Chronos.Network
