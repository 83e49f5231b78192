import Mathlib.Data.List.Basic

/-!
Streams of frames that declare their length in a header.

* `Framing`: the size of a header, the length it declares, and the decoder of a
  whole frame.
* `Framing.cut`: what the bytes received so far begin with: nothing complete, an
  error, or a frame.  More bytes do not change an error or a frame (`cut_append`).
* `Framing.scan`: all frames of a byte string up to the first error or an
  incomplete frame; `scan_append` continues a scan from what it left.
* `Framing.IsFrame`: a byte string that is one frame; `scan_frames` scans a stream of them.
-/

namespace Chronos

open List

/-- How a stream is cut into frames. -/
structure Framing (ε α : Type) where
  headerSize : ℕ
  length : List UInt8 → Except ε ℕ
  decode : List UInt8 → Except ε α
  header_pos : 0 < headerSize
  header_le : ∀ header size, length header = .ok size → headerSize ≤ size

/-- What a byte string begins with. -/
inductive Cut (ε α : Type) where
  | pending
  | failed (status : ε)
  | frame (value : α) (size : ℕ)

/-- The frames of a byte string, and the bytes left over or the error that ended them. -/
@[ext] structure Scan (ε α : Type) where
  frames : List α
  rest : Except ε (List UInt8)

namespace Framing

variable {ε α : Type} (f : Framing ε α)

/-- The beginning of a byte string. -/
def cut (bytes : List UInt8) : Cut ε α :=
  if bytes.length < f.headerSize then .pending
  else match f.length (bytes.take f.headerSize) with
    | .error status => .failed status
    | .ok size =>
        if bytes.length < size then .pending
        else match f.decode (bytes.take size) with
          | .error status => .failed status
          | .ok value => .frame value size

variable {bytes : List UInt8} {value : α} {size : ℕ}

/-- A frame has at least a header and lies within the bytes. -/
lemma cut_eq_frame (h : f.cut bytes = .frame value size) :
    f.headerSize ≤ size ∧ size ≤ bytes.length ∧ f.length (bytes.take f.headerSize) = .ok size ∧
      f.decode (bytes.take size) = .ok value := by
  rw [cut] at h
  split_ifs at h
  split at h
  · cases h
  rename_i declared hlength
  split_ifs at h with hshort
  split at h
  · cases h
  rename_i found hdecode
  cases h
  exact ⟨f.header_le _ _ hlength, Nat.not_lt.1 hshort, hlength, hdecode⟩

lemma cut_of_lt (hheader : bytes.length < f.headerSize) :
    f.cut bytes = .pending := by
  rw [cut, if_pos hheader]

variable {status : ε}

lemma cut_of_error (hheader : f.headerSize ≤ bytes.length)
    (hlength : f.length (bytes.take f.headerSize) = .error status) :
    f.cut bytes = .failed status := by
  rw [cut, if_neg (Nat.not_lt.2 hheader), hlength]

/-- The beginning of a byte string whose header declares a length. -/
lemma cut_of_ok (hheader : f.headerSize ≤ bytes.length)
    (hlength : f.length (bytes.take f.headerSize) = .ok size) :
    f.cut bytes = if bytes.length < size then .pending else
      match f.decode (bytes.take size) with
      | .error status => .failed status
      | .ok value => .frame value size := by
  rw [cut, if_neg (Nat.not_lt.2 hheader), hlength]

/-- The frames of a byte string. -/
def scan (bytes : List UInt8) : Scan ε α :=
  match _hcut : f.cut bytes with
  | .pending => ⟨[], .ok bytes⟩
  | .failed status => ⟨[], .error status⟩
  | .frame value size =>
      let later := scan (bytes.drop size)
      ⟨value :: later.frames, later.rest⟩
termination_by bytes.length
decreasing_by
  obtain ⟨hheader, hsize, -⟩ := f.cut_eq_frame _hcut
  have hpos := f.header_pos
  rw [List.length_drop]
  omega

lemma scan_of_pending (h : f.cut bytes = .pending) :
    f.scan bytes = ⟨[], .ok bytes⟩ := by
  rw [scan]
  split <;> simp_all

lemma scan_of_failed (h : f.cut bytes = .failed status) :
    f.scan bytes = ⟨[], .error status⟩ := by
  rw [scan]
  split <;> simp_all

lemma scan_of_frame (h : f.cut bytes = .frame value size) :
    f.scan bytes =
      ⟨value :: (f.scan (bytes.drop size)).frames, (f.scan (bytes.drop size)).rest⟩ := by
  rw [scan]
  split <;> simp_all

/-- What has been decided about a stream stays decided when more of it arrives. -/
lemma cut_append (h : f.cut bytes ≠ .pending) (more : List UInt8) :
    f.cut (bytes ++ more) = f.cut bytes := by
  rw [cut] at h
  split_ifs at h with hheader
  · exact absurd rfl h
  have htake : (bytes ++ more).take f.headerSize = bytes.take f.headerSize :=
    take_append_of_le_length (by omega)
  have hlonger : bytes.length ≤ (bytes ++ more).length := by simp
  rw [cut, cut, if_neg (by omega), if_neg hheader, htake]
  rcases hlength : f.length (bytes.take f.headerSize) with _ | _
  · rfl
  rw [hlength] at h
  dsimp only at h ⊢
  split_ifs at h with hsize
  · exact absurd rfl h
  rw [if_neg (by omega), if_neg hsize, take_append_of_le_length (by omega)]

/-- The continuation of a scan when more bytes arrive. -/
def resume (scanned : Scan ε α) (more : List UInt8) : Scan ε α :=
  match scanned.rest with
  | .error status => ⟨scanned.frames, .error status⟩
  | .ok pending =>
      ⟨scanned.frames ++ (f.scan (pending ++ more)).frames, (f.scan (pending ++ more)).rest⟩

/-- **Scanning can be interrupted anywhere.** -/
theorem scan_append (bytes more : List UInt8) :
    f.scan (bytes ++ more) = f.resume (f.scan bytes) more := by
  induction hn : bytes.length using Nat.strongRecOn generalizing bytes with
  | ind n ih =>
    rcases hcut : f.cut bytes with _ | status | ⟨_, size⟩
    · rw [f.scan_of_pending hcut, resume]
      rfl
    · have hlater := f.cut_append (by rw [hcut]; simp) more
      rw [hcut] at hlater
      rw [f.scan_of_failed hcut, f.scan_of_failed hlater]
      rfl
    · have hlater := f.cut_append (by rw [hcut]; simp) more
      rw [hcut] at hlater
      obtain ⟨_, hsize, -⟩ := f.cut_eq_frame hcut
      have hpos := f.header_pos
      have hrest := ih (bytes.drop size).length (by rw [length_drop]; omega)
        (bytes.drop size) rfl
      rw [f.scan_of_frame hcut, f.scan_of_frame hlater, drop_append_of_le_length hsize, hrest,
        resume, resume]
      rcases (f.scan (bytes.drop size)).rest with _ | _ <;> rfl

/-! ### Whole frames -/

/-- A byte string is one frame. -/
structure IsFrame (bytes : List UInt8) (value : α) : Prop where
  header : f.headerSize ≤ bytes.length
  length : f.length (bytes.take f.headerSize) = .ok bytes.length
  decode : f.decode bytes = .ok value

variable {f}

lemma IsFrame.cut_append (h : f.IsFrame bytes value) (more : List UInt8) :
    f.cut (bytes ++ more) = .frame value bytes.length := by
  have hcut : f.cut bytes = .frame value bytes.length := by
    rw [f.cut_of_ok h.header h.length, if_neg (Nat.lt_irrefl _), take_length, h.decode]
  rw [f.cut_append (by rw [hcut]; nofun) more, hcut]

/-- A proper initial part of a frame is waited for. -/
lemma IsFrame.cut_part {part : List UInt8} (h : f.IsFrame bytes value) (hpart : part <+: bytes)
    (hne : part ≠ bytes) : f.cut part = .pending := by
  obtain ⟨more, rfl⟩ := hpart
  rcases Nat.lt_or_ge part.length f.headerSize with hshort | hheader
  · exact f.cut_of_lt hshort
  · have hlength := h.length
    rw [take_append_of_le_length hheader] at hlength
    rw [f.cut_of_ok hheader hlength, if_pos]
    have hmore : more ≠ [] := by
      rintro rfl
      exact hne (append_nil part).symm
    have hpos := length_pos_iff.2 hmore
    rw [length_append]
    omega

/-- A stream of frames is scanned frame by frame. -/
lemma scan_frames {frames : List (List UInt8)} {values : List α}
    (h : List.Forall₂ f.IsFrame frames values) (more : List UInt8) :
    f.scan (frames.flatten ++ more) = ⟨values ++ (f.scan more).frames, (f.scan more).rest⟩ := by
  induction h with
  | nil => rfl
  | cons hframe _ ih =>
    rw [flatten_cons, append_assoc, f.scan_of_frame (hframe.cut_append _),
      drop_left, ih]
    rfl

/-- Scanning an initial part of a stream finds some of its frames. -/
lemma frames_scan_part {whole : List UInt8} (h : bytes <+: whole) :
    (f.scan bytes).frames <+: (f.scan whole).frames := by
  obtain ⟨_, rfl⟩ := h
  rw [f.scan_append, resume]
  split
  · exact prefix_rfl
  · exact prefix_append _ _

/-- An error stays. -/
lemma rest_scan_of_error (h : (f.scan bytes).rest = .error status) (more : List UInt8) :
    f.scan (bytes ++ more) = f.scan bytes := by
  rw [f.scan_append, resume, h]
  exact Scan.ext rfl h.symm

end Framing

end Chronos
