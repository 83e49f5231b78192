import Chronos.Common.Formats
import Chronos.Live.ResumeToken

/-!
`src/live/resume_token.cpp`: the bytes of resume tokens, in the layouts of both versions.

* `encodeBytes`, `decodeBytes`: the encoder of a layout and `decode_resume_token_impl`.  HMAC-SHA256
  is a parameter: a function of the key and of the bytes that it authenticates.
* `readToken_eq_ok`: the decoder reads the bytes that the encoder of a layout writes, and no others.
* `encodeResumeToken_iff_bytes`, `decodeResumeToken_iff_bytes`: the tokens with a key, in which the
  managers deal, stand for these bytes.
* `resume_tokens_cannot_be_altered`: encoding and decoding are inverse to each other, and changed
  bytes are refused.
-/

namespace Chronos.Live

open Reader

/-! ### The model -/

/-- `corrupt`. -/
def corrupt (message : String) : Status := ⟨.corruption, message⟩

/-- `unsupported`. -/
def unsupported (message : String) : Status := ⟨.notSupported, message⟩

/-- `TokenLayout`. -/
structure TokenLayout where
  major : ℕ
  minor : ℕ
  positionSize : ℕ
  sourceTagged : Bool

/-- `kV1Layout`. -/
def v1Layout : TokenLayout := ⟨1, 0, 40, false⟩

/-- `kV2Layout`. -/
def v2Layout : TokenLayout := ⟨2, 0, 48, true⟩

/-- `kMagic`. -/
def tokenMagic : List UInt8 := [0x43, 0x48, 0x52, 0x4e, 0x52, 0x53, 0x4d, 0x00]

/-- `kResumeTokenHeaderSize`. -/
def tokenHeaderSize : ℕ := 128

/-- `kResumeTokenMacSize`. -/
def tokenMacSize : ℕ := 32

/-- `layout_for_version`; its two failures have one status. -/
def layoutForVersion (major minor : ℕ) : Option TokenLayout :=
  if major = v1Layout.major then if minor > v1Layout.minor then none else some v1Layout
  else if major = v2Layout.major then if minor > v2Layout.minor then none else some v2Layout
  else none

/-- The number that stores a `SubscriptionSourceKind`. -/
def SourceIdentity.kind : SourceIdentity → UInt8
  | .wal _ => 1
  | .raft _ => 2

/-- The bytes of a position. -/
def SourcePosition.bytes (layout : TokenLayout) (position : SourcePosition) : List UInt8 :=
  storeBe 16 position.tabletId ++
    (if layout.sourceTagged then position.source.kind :: List.replicate 7 0 else []) ++
    storeBe 16 position.source.uuid ++ storeLe 8 position.recordSequence

/-- The size of the bytes of a token. -/
def TokenLayout.size (layout : TokenLayout) (count : ℕ) : ℕ :=
  tokenHeaderSize + count * layout.positionSize + tokenMacSize

/-- The bytes of a token that its code authenticates. -/
def ResumeToken.bytes (layout : TokenLayout) (token : ResumeToken) : List UInt8 :=
  tokenMagic ++ storeLe 2 layout.major ++ storeLe 2 layout.minor ++ storeLe 4 tokenHeaderSize ++
    storeLe 4 (layout.size token.sourcePositions.length) ++
    storeLe 4 token.sourcePositions.length ++ storeBe 16 token.databaseId ++
    storeBe 16 token.subscriptionId ++ storeBe 16 token.schemaId ++
    storeLe 8 token.schemaVersion ++ storeLe 8 token.safeDeliverySequence ++
    token.planFingerprint ++ List.replicate 8 0 ++
    token.sourcePositions.flatMap (SourcePosition.bytes layout)

/-- The check of a source in `validate_for_encoding`. -/
def validatePosition (layout : TokenLayout) (position : SourcePosition) : Result Unit := do
  require (position.isValid = true) ⟨.invalidArgument,
    "resume token contains an invalid source identity"⟩
  require (layout.sourceTagged = true ∨ position.source.kind = 1) ⟨.invalidArgument,
    "Resume Token v1 supports only WAL source identities"⟩

variable (mac : List UInt8 → List UInt8 → Vector UInt8 tokenMacSize)

/-- `encode_resume_token`, whose sizes cannot overflow. -/
def encodeBytes (layout : TokenLayout) (token : ResumeToken) (key : List UInt8) :
    Result (List UInt8) := do
  let failure message := Status.mk .invalidArgument message
  require (token.databaseId ≠ 0 ∧ token.subscriptionId ≠ 0 ∧ token.schemaId ≠ 0)
    (failure "resume token identities must be nonzero")
  require (keyIsZero key = false) (failure "resume token MAC key must be nonzero")
  require (token.sourcePositions ≠ [] ∧
      token.sourcePositions.length ≤ maximumResumeTokenSources)
    (failure "resume token source count is outside format bounds")
  Result.forAll (validatePosition layout) token.sourcePositions
  let size := layout.size token.sourcePositions.length
  require (size ≤ 2 ^ 32 - 1) (failure "resume token size exceeds format encoding")
  let body := token.bytes layout
  require (body.length + tokenMacSize = size) ⟨.internal, "resume token layout was not filled"⟩
  pure (body ++ (mac key body).toList)

/-- A source in `decode_resume_token_impl`. -/
def readPosition (layout : TokenLayout) : Reader Status SourcePosition := do
  let truncated := corrupt "resume token source is truncated"
  let tabletId ← readBe truncated 16
  let kind ← if layout.sourceTagged then readByte truncated else pure 1
  let reserved ← if layout.sourceTagged then readExact truncated 7 else pure []
  let source ← readBe truncated 16
  let recordSequence ← readLe truncated 8
  check (∀ byte ∈ reserved, byte = 0) (unsupported "resume token source flags are unsupported")
  check (tabletId ≠ 0) (corrupt "resume token source identity is invalid")
  check (kind = 1 ∨ kind = 2) (unsupported "resume token source kind is unsupported")
  let position := ⟨tabletId, if kind = 1 then .wal source else .raft source, recordSequence⟩
  check (position.isValid = true) (corrupt "resume token source identity is invalid")
  pure position

/-- A value that has to be there, for a reader. -/
def found {α : Type} (fail : Status) (value : Option α) : Reader Status α := fun bytes =>
  (requireSome fail value).map (·, bytes)

/-- The reader of `decode_resume_token_impl`, for `size` bytes with the code. -/
def readToken (size maximumSources : ℕ) (requiredMajor : Option ℕ) :
    Reader Status ResumeToken := do
  let magic ← readExact (corrupt "resume token magic is invalid") 8
  check (magic = tokenMagic) (corrupt "resume token magic is invalid")
  let truncated := corrupt "resume token header is truncated"
  let major ← readLe truncated 2
  let minor ← readLe truncated 2
  let headerSize ← readLe truncated 4
  let totalSize ← readLe truncated 4
  let count ← readLe truncated 4
  let layout ← found (unsupported "resume token version is unsupported")
    (layoutForVersion major minor)
  check (∀ required ∈ requiredMajor, required = layout.major)
    (unsupported "resume token version is unsupported")
  check (headerSize = tokenHeaderSize ∧ totalSize = size ∧ count ≠ 0 ∧ count ≤ maximumSources)
    (corrupt "resume token layout is invalid")
  check (layout.size count = size) (corrupt "resume token size is inconsistent")
  let incomplete := corrupt "resume token header is incomplete"
  let databaseId ← readBe incomplete 16
  let subscriptionId ← readBe incomplete 16
  let schemaId ← readBe incomplete 16
  let schemaVersion ← readLe incomplete 8
  let safeSequence ← readLe incomplete 8
  let plan ← readExact incomplete 32
  let reserved ← readExact incomplete 8
  check (∀ byte ∈ reserved, byte = 0) (unsupported "resume token required flags are unsupported")
  check (schemaId ≠ 0 ∧ schemaVersion ≠ 0) (corrupt "resume token schema identity is invalid")
  let positions ← many (readPosition layout) count
  let left ← remaining
  check (left = 0 ∧ databaseId ≠ 0 ∧ subscriptionId ≠ 0)
    (corrupt "resume token identity or trailing bytes invalid")
  pure ⟨databaseId, subscriptionId, schemaId, schemaVersion, safeSequence, plan, positions⟩

/-- `decode_resume_token_impl`. -/
def decodeBytes (encoded key : List UInt8) (maximumSources : ℕ) (requiredMajor : Option ℕ) :
    Result ResumeToken := do
  require (keyIsZero key = false)
    (Status.mk .invalidArgument "resume token MAC key must be nonzero")
  require (maximumSources ≠ 0 ∧ maximumSources ≤ maximumResumeTokenSources)
    (Status.mk .invalidArgument "resume token decoder source bound is invalid")
  require (v1Layout.size 0 ≤ encoded.length) (corrupt "resume token is truncated")
  require (encoded.length ≤ v2Layout.size maximumSources)
    (corrupt "resume token exceeds the decoder source bound")
  let body := encoded.take (encoded.length - tokenMacSize)
  require ((mac key body).toList = encoded.drop (encoded.length - tokenMacSize))
    ⟨.unauthenticated, "resume token authentication failed"⟩
  (readToken encoded.length maximumSources requiredMajor).decode body

/-! ### What the layouts accept -/

/-- A position has the integers of its types. -/
structure SourcePosition.Typed (position : SourcePosition) : Prop where
  tabletId : position.tabletId < 256 ^ 16
  source : position.source.uuid < 256 ^ 16
  recordSequence : position.recordSequence < 256 ^ 8

/-- What `validatePosition` accepts. -/
def SourcePosition.Accepted (layout : TokenLayout) (position : SourcePosition) : Prop :=
  position.isValid = true ∧ (layout.sourceTagged = true ∨ position.source.kind = 1)

lemma codes_readPosition (layout : TokenLayout) : Codes (readPosition layout)
    (fun position => position.Typed ∧ position.Accepted layout) (SourcePosition.bytes layout) := by
  intro bytes position rest
  have hnonzero : position.isValid = true → position.tabletId ≠ 0 := fun hvalid => by
    simp only [SourcePosition.isValid, Bool.and_eq_true, decide_eq_true_eq] at hvalid
    exact hvalid.1
  cases htag : layout.sourceTagged with
  | false =>
    simp only [readPosition, htag, Bool.false_eq_true, if_false, if_true, bind_eq_ok, readBe_eq_ok,
      readLe_eq_ok, check_eq_ok, pure_eq_ok, existsAndEq, exists_const, and_true, true_and, true_or,
      and_assoc, SourcePosition.bytes]
    constructor
    · rintro ⟨_, _, _, h1, rfl, h2, h3, -, -, hvalid, rfl⟩
      exact ⟨⟨h1, h2, h3⟩, ⟨hvalid, .inr rfl⟩, by simp [SourceIdentity.uuid]⟩
    · rintro ⟨⟨h1, h2, h3⟩, ⟨hvalid, htagged⟩, rfl⟩
      obtain ⟨_, _ | _, _⟩ := position
      · exact ⟨_, _, _, h1, by simp, h2, h3, by simp, hnonzero hvalid, hvalid, rfl⟩
      · simp [htag, SourceIdentity.kind] at htagged
  | true =>
    simp only [readPosition, htag, if_true, bind_eq_ok, readBe_eq_ok, readByte_eq_ok,
      readExact_eq_ok, readLe_eq_ok, check_eq_ok, pure_eq_ok, existsAndEq, exists_const, and_true,
      true_and, and_assoc, SourcePosition.bytes]
    constructor
    · rintro ⟨_, _, reserved, _, _, h1, rfl, hlength, h2, h3, hzero, -, hkind, hvalid, rfl⟩
      obtain rfl := List.eq_replicate_iff.2 ⟨hlength, hzero⟩
      rcases hkind with rfl | rfl <;> exact ⟨⟨h1, h2, h3⟩, ⟨hvalid, .inl htag⟩,
          by simp [SourceIdentity.uuid, SourceIdentity.kind]⟩
    · rintro ⟨⟨h1, h2, h3⟩, ⟨hvalid, -⟩, rfl⟩
      refine ⟨_, position.source.kind, List.replicate 7 0, _, _, h1, by simp, by simp, h2, h3,
        by simp, hnonzero hvalid, ?_⟩
      obtain ⟨_, _ | _, _⟩ := position
      · exact ⟨.inl rfl, hvalid, rfl⟩
      · exact ⟨.inr rfl, hvalid, rfl⟩

/-- A token has the integers and the bytes of its types. -/
structure ResumeToken.Typed (token : ResumeToken) : Prop where
  databaseId : token.databaseId < 256 ^ 16
  subscriptionId : token.subscriptionId < 256 ^ 16
  schemaId : token.schemaId < 256 ^ 16
  schemaVersion : token.schemaVersion ≠ 0 ∧ token.schemaVersion < 256 ^ 8
  safeDeliverySequence : token.safeDeliverySequence < 256 ^ 8
  planFingerprint : token.planFingerprint.length = 32
  positions : ∀ position ∈ token.sourcePositions, position.Typed

/-- The checks of `validate_for_encoding`, but for the key. -/
structure ResumeToken.Accepted (layout : TokenLayout) (token : ResumeToken) : Prop where
  identities : token.databaseId ≠ 0 ∧ token.subscriptionId ≠ 0 ∧ token.schemaId ≠ 0
  nonempty : token.sourcePositions.length ≠ 0
  count : token.sourcePositions.length ≤ maximumResumeTokenSources
  positions : ∀ position ∈ token.sourcePositions, position.Accepted layout

/-- One of the two layouts. -/
def TokenLayout.Known (layout : TokenLayout) : Prop := layout = v1Layout ∨ layout = v2Layout

lemma layoutForVersion_eq_some {major minor : ℕ} {layout : TokenLayout} :
    layoutForVersion major minor = some layout ↔
      layout.Known ∧ major = layout.major ∧ minor = layout.minor := by
  rw [layoutForVersion]
  constructor
  · intro h
    split_ifs at h with hfirst hminor hsecond hminor
    · cases h
      exact ⟨.inl rfl, hfirst, Nat.le_zero.1 (not_lt.1 hminor)⟩
    · cases h
      exact ⟨.inr rfl, hsecond, Nat.le_zero.1 (not_lt.1 hminor)⟩
  · rintro ⟨rfl | rfl, rfl, rfl⟩ <;> rfl

@[simp] lemma found_eq_ok {α : Type} {fail : Status} {value : Option α} {x : α}
    {bytes rest : List UInt8} :
    found fail value bytes = .ok (x, rest) ↔ value = some x ∧ bytes = rest := by
  cases value <;> simp [found, requireSome, Except.map]

variable {layout : TokenLayout} {token : ResumeToken}

lemma TokenLayout.Known.size_le (hlayout : layout.Known) {count maximum : ℕ}
    (hle : count ≤ maximum) : layout.size count ≤ v2Layout.size maximum := by
  rcases hlayout with rfl | rfl <;> simp only [TokenLayout.size, v1Layout, v2Layout] <;> omega

variable {requiredMajor : Option ℕ}

/-- **The decoder reads what the encoder of a layout writes**, and nothing else. -/
lemma readToken_eq_ok {size maximum : ℕ} {body rest : List UInt8}
    (hmaximum : maximum ≤ maximumResumeTokenSources) :
    readToken size maximum requiredMajor body = .ok (token, rest) ↔
      ∃ layout, layout.Known ∧ (∀ required ∈ requiredMajor, required = layout.major) ∧
        token.Typed ∧ token.Accepted layout ∧ token.sourcePositions.length ≤ maximum ∧
        layout.size token.sourcePositions.length = size ∧ body = token.bytes layout ∧
        rest = [] := by
  simp only [readToken, bind_eq_ok, readBe_eq_ok, readExact_eq_ok, readLe_eq_ok, check_eq_ok,
    found_eq_ok, remaining_eq_ok, (codes_readPosition _).many_eq_ok, layoutForVersion_eq_some,
    pure_eq_ok, existsAndEq, exists_const, and_true, true_and, and_assoc]
  constructor
  · rintro ⟨layout, _, _, _, _, _, _, _, _, -, rfl, -, -, -, -, -, hlayout, hrequired, hcount, hle,
      hsize, h1, h2, h3, h4, h5, hplan, hlength, hzero, h3', h4', hpositions, hrest, h1', h2', rfl⟩
    obtain rfl := List.eq_replicate_iff.2 ⟨hlength, hzero⟩
    obtain rfl := List.length_eq_zero_iff.1 hrest
    exact ⟨layout, hlayout, hrequired,
      ⟨h1, h2, h3, ⟨h4', h4⟩, h5, hplan, fun p hp => (hpositions p hp).1⟩,
      ⟨⟨h1', h2', h3'⟩, hcount, hle.trans hmaximum, fun p hp => (hpositions p hp).2⟩, hle, hsize,
      by simp [ResumeToken.bytes, hsize], rfl⟩
  · rintro ⟨layout, hlayout, hrequired, h, h', hle, rfl, rfl, rfl⟩
    have hsize := hlayout.size_le h'.count
    have hlimit : v2Layout.size maximumResumeTokenSources < 256 ^ 4 := by decide
    refine ⟨layout, _, _, _, _, _, _, List.replicate 8 0, _, rfl, by simp [ResumeToken.bytes], ?_,
      ?_, by decide, by omega, ?_, hlayout, hrequired, h'.nonempty, hle, rfl, h.databaseId,
      h.subscriptionId, h.schemaId, h.schemaVersion.2, h.safeDeliverySequence, h.planFingerprint,
      by simp, by simp, h'.identities.2.2, h.schemaVersion.1,
      fun p hp => ⟨h.positions p hp, h'.positions p hp⟩, rfl, h'.identities.1, h'.identities.2.1,
      rfl⟩
    · rcases hlayout with rfl | rfl <;> decide
    · rcases hlayout with rfl | rfl <;> decide
    · exact h'.count.trans_lt (by decide)

/-! ### The code -/

variable {mac} {key bytes : List UInt8}

lemma TokenLayout.Known.bytes_length (hlayout : layout.Known) (h : token.Typed) :
    (token.bytes layout).length + tokenMacSize = layout.size token.sourcePositions.length := by
  have hposition : ∀ position : SourcePosition,
      (position.bytes layout).length = layout.positionSize := by
    rcases hlayout with rfl | rfl <;> intro <;> simp [SourcePosition.bytes, v1Layout, v2Layout]
  simp [ResumeToken.bytes, List.length_flatMap, hposition, h.planFingerprint, tokenMagic,
    TokenLayout.size, tokenHeaderSize]
  omega

lemma encodeBytes_eq_ok (hlayout : layout.Known) (h : token.Typed) :
    encodeBytes mac layout token key = .ok bytes ↔ keyIsZero key = false ∧ token.Accepted layout ∧
      bytes = token.bytes layout ++ (mac key (token.bytes layout)).toList := by
  have hall : Result.forAll (validatePosition layout) token.sourcePositions = .ok () ↔
      ∀ position ∈ token.sourcePositions, position.Accepted layout := by
    simp [Result.forAll_eq_ok, validatePosition, except_bind_eq_ok, SourcePosition.Accepted]
  simp only [encodeBytes, except_bind_eq_ok, require_eq_ok, exists_const, hlayout.bytes_length h,
    true_and]
  constructor
  · rintro ⟨hidentities, hkey, ⟨hne, hcount⟩, ⟨⟩, hpositions, -, hbytes⟩
    cases hbytes
    exact ⟨hkey, ⟨hidentities, by simpa using hne, hcount, hall.1 hpositions⟩, rfl⟩
  · rintro ⟨hkey, h', rfl⟩
    have hlimit : v2Layout.size maximumResumeTokenSources ≤ 2 ^ 32 - 1 := by decide
    exact ⟨h'.identities, hkey, ⟨by simpa using h'.nonempty, h'.count⟩, (), hall.2 h'.positions,
      (hlayout.size_le h'.count).trans hlimit, rfl⟩

lemma decodeBytes_eq_ok {maximum : ℕ} :
    decodeBytes mac bytes key maximum requiredMajor = .ok token ↔
      (maximum ≠ 0 ∧ maximum ≤ maximumResumeTokenSources) ∧ token.Typed ∧
      token.sourcePositions.length ≤ maximum ∧ ∃ layout, layout.Known ∧
        (∀ required ∈ requiredMajor, required = layout.major) ∧
        encodeBytes mac layout token key = .ok bytes := by
  simp only [decodeBytes, except_bind_eq_ok, require_eq_ok, exists_const, decode_eq_ok]
  constructor
  · rintro ⟨hkey, hmaximum, hlength, -, hmac, rest, hread⟩
    obtain ⟨layout, hlayout, hrequired, h, h', hle, -, hbody, -⟩ :=
      (readToken_eq_ok hmaximum.2).1 hread
    refine ⟨hmaximum, h, hle, layout, hlayout, hrequired, (encodeBytes_eq_ok hlayout h).2
      ⟨hkey, h', ?_⟩⟩
    rw [← hbody, hmac, List.take_append_drop]
  · rintro ⟨hmaximum, h, hle, layout, hlayout, hrequired, hencode⟩
    obtain ⟨hkey, h', rfl⟩ := (encodeBytes_eq_ok hlayout h).1 hencode
    have hsize := hlayout.bytes_length h
    have hlength : (token.bytes layout ++ (mac key (token.bytes layout)).toList).length =
        layout.size token.sourcePositions.length := by simpa using hsize
    rw [hlength, ← hsize, Nat.add_sub_cancel, List.take_left, List.drop_left, hsize]
    refine ⟨hkey, hmaximum, ?_, hlayout.size_le hle, rfl, [], (readToken_eq_ok hmaximum.2).2
      ⟨layout, hlayout, hrequired, h, h', hle, rfl, rfl, rfl⟩⟩
    simp [TokenLayout.size, v1Layout]

/-- Decoded bytes end in the code of what stands before it. -/
lemma code_eq {maximum : ℕ} {body code : List UInt8} (hlength : code.length = tokenMacSize)
    (hdecode : decodeBytes mac (body ++ code) key maximum requiredMajor = .ok token) :
    code = (mac key body).toList := by
  obtain ⟨-, h, -, layout, hlayout, -, hencode⟩ := decodeBytes_eq_ok.1 hdecode
  obtain ⟨-, -, heq⟩ := (encodeBytes_eq_ok hlayout h).1 hencode
  obtain ⟨rfl, hcode⟩ := List.append_inj' heq (by simpa using hlength)
  exact hcode

/-- A token with a key stands for bytes exactly if it is encoded. -/
lemma encodeResumeToken_iff_bytes (h : token.Typed) {encoded : EncodedToken} :
    encodeResumeToken token key = .ok encoded ↔
      encoded = ⟨token, key⟩ ∧ ∃ bytes, encodeBytes mac v2Layout token key = .ok bytes := by
  simp only [encodeBytes_eq_ok (.inr rfl) h, encodeResumeToken, Schema.invalid, ← and_assoc,
    exists_and_left, exists_eq, and_true]
  split_ifs with hidentities hkey hcount hpositions
  · refine iff_of_false (by simp) fun ⟨_, h'⟩ => ?_
    have := h'.identities
    tauto
  · simp [hkey]
  · refine iff_of_false (by simp) fun ⟨_, h'⟩ => hcount.elim (fun hnil => ?_) fun hlt => ?_
    · exact h'.nonempty (by rw [hnil]; rfl)
    · exact hlt.not_ge h'.count
  · refine iff_of_false (by simp) fun ⟨_, h'⟩ => ?_
    obtain ⟨position, hmem, hinvalid⟩ := List.any_eq_true.1 hpositions
    simp [(h'.positions position hmem).1] at hinvalid
  · rw [not_or] at hcount
    simp only [List.any_eq_true, Bool.not_eq_true', not_exists, not_and] at hpositions
    have haccepted : token.Accepted v2Layout := ⟨by tauto, by simpa using hcount.1,
      not_lt.1 hcount.2, fun position hmem => ⟨by simpa using hpositions position hmem, .inl rfl⟩⟩
    simp [haccepted, hkey, eq_comm]

/-- The decoder of the bytes accepts what the decoder of tokens with a key accepts, where the code
of one key is not that of another. -/
lemma decodeResumeToken_iff_bytes (h : token.Typed)
    (hencode : encodeBytes mac v2Layout token key = .ok bytes) {other : List UInt8}
    (hkeys : mac other (token.bytes v2Layout) = mac key (token.bytes v2Layout) → other = key)
    {maximum : ℕ} {decoded : ResumeToken} :
    decodeResumeToken ⟨token, key⟩ other maximum = .ok decoded ↔
      decodeBytes mac bytes other maximum none = .ok decoded := by
  obtain ⟨hkey, h', hbytes⟩ := (encodeBytes_eq_ok (.inr rfl) h).1 hencode
  have hall : ∀ {maximum}, maximum ≠ 0 → maximum ≤ maximumResumeTokenSources →
      token.sourcePositions.length ≤ maximum → decodeBytes mac bytes key maximum none = .ok token :=
    fun hne hmaximum hle => decodeBytes_eq_ok.2
      ⟨⟨hne, hmaximum⟩, h, hle, v2Layout, .inr rfl, by simp, hencode⟩
  constructor
  · intro hok
    simp only [decodeResumeToken, Schema.invalid] at hok
    split_ifs at hok with _ hmaximum hle hother
    cases hok
    rw [not_or, not_lt] at hmaximum
    obtain rfl : key = other := not_not.1 hother
    exact hall hmaximum.1 hmaximum.2 (not_lt.1 hle)
  · intro hok
    obtain rfl : other = key := by
      rw [hbytes] at hok
      exact hkeys (Vector.toList_inj.1 (code_eq (by simp) hok).symm)
    obtain ⟨hmaximum, hd, hle, layout, hlayout, -, hsame⟩ := decodeBytes_eq_ok.1 hok
    -- with the largest bound the bytes are decoded to both tokens
    have hboth : decodeBytes mac bytes other maximumResumeTokenSources none = .ok decoded :=
      decodeBytes_eq_ok.2 ⟨⟨by decide, le_rfl⟩, hd, hle.trans hmaximum.2, layout, hlayout, by simp,
        hsame⟩
    rw [hall (by decide) le_rfl h'.count] at hboth
    cases hboth
    simp [decodeResumeToken, hkey, hmaximum.1, not_lt.2 hmaximum.2, not_lt.2 hle]

/-- **Resume tokens cannot be altered.**  A token that the checks of a layout accept is encoded, and
its bytes are decoded to itself.  The bytes that are decoded are those of the token in one of the
layouts.  Bytes that differ from a token's in the authenticated part alone, where the two parts do
not have one code, or in the code alone are refused. -/
theorem resume_tokens_cannot_be_altered (key : List UInt8) :
    (∀ layout token, layout.Known → token.Typed → token.Accepted layout → keyIsZero key = false →
      ∃ bytes, encodeBytes mac layout token key = .ok bytes) ∧
    (∀ layout token bytes, layout.Known → token.Typed →
      encodeBytes mac layout token key = .ok bytes →
      ∀ maximum requiredMajor, token.sourcePositions.length ≤ maximum →
        maximum ≤ maximumResumeTokenSources →
        (∀ required ∈ requiredMajor, required = layout.major) →
        decodeBytes mac bytes key maximum requiredMajor = .ok token) ∧
    (∀ bytes maximum requiredMajor token,
      decodeBytes mac bytes key maximum requiredMajor = .ok token →
      token.Typed ∧ ∃ layout, layout.Known ∧ encodeBytes mac layout token key = .ok bytes) ∧
    ∀ body code body' code' maximum maximum' requiredMajor requiredMajor' token,
      decodeBytes mac (body ++ code) key maximum requiredMajor = .ok token →
      code.length = tokenMacSize → code'.length = tokenMacSize →
      (mac key body' = mac key body → body' = body) →
      (body' ≠ body ∧ code' = code ∨ body' = body ∧ code' ≠ code) →
      ∃ status, decodeBytes mac (body' ++ code') key maximum' requiredMajor' = .error status := by
  refine ⟨fun _ _ hlayout h h' hkey => ⟨_, (encodeBytes_eq_ok hlayout h).2 ⟨hkey, h', rfl⟩⟩,
    fun layout token _ hlayout h hencode maximum _ hle hmaximum hrequired => ?_,
    fun _ _ _ token hdecode => ?_,
    fun _ _ body' code' _ maximum' _ requiredMajor' _ hdecode hlength hlength' hcollision
      haltered => ?_⟩
  · obtain ⟨-, h', -⟩ := (encodeBytes_eq_ok hlayout h).1 hencode
    have hne : maximum ≠ 0 := fun hzero => h'.nonempty (Nat.le_zero.1 (hzero ▸ hle))
    exact decodeBytes_eq_ok.2 ⟨⟨hne, hmaximum⟩, h, hle, layout, hlayout, hrequired, hencode⟩
  · obtain ⟨-, h, -, layout, hlayout, -, hencode⟩ := decodeBytes_eq_ok.1 hdecode
    exact ⟨h, layout, hlayout, hencode⟩
  · cases hdecode' : decodeBytes mac (body' ++ code') key maximum' requiredMajor' with
    | error status => exact ⟨status, rfl⟩
    | ok token' =>
      have hcode := code_eq hlength hdecode
      have hcode' := code_eq hlength' hdecode'
      rcases haltered with ⟨hbody, rfl⟩ | ⟨rfl, hne⟩
      · exact absurd (hcollision (Vector.toList_inj.1 (hcode'.symm.trans hcode))) hbody
      · exact absurd (hcode'.trans hcode.symm) hne

/-- A code that adds up the bytes. -/
def sampleMac (key body : List UInt8) : Vector UInt8 tokenMacSize :=
  Vector.replicate _ (key ++ body).sum

/-- A token of one source. -/
def formatToken (source : SourceIdentity) : ResumeToken :=
  ⟨1, 2, 3, 1, 5, List.replicate 32 7, [⟨4, source, 9⟩]⟩

lemma formatToken_typed {source : SourceIdentity} (h : source.uuid = 6) :
    (formatToken source).Typed := by
  refine ⟨?_, ?_, ?_, ?_, ?_, rfl, ?_⟩ <;> simp [formatToken]
  exact ⟨by simp, by simp [h], by simp⟩

/-- A token of each layout is encoded and decoded, and one with another plan is refused. -/
theorem resume_tokens_cannot_be_altered_sample :
    let body := (formatToken (.wal 6)).bytes v1Layout
    let code := (sampleMac [1] body).toList
    decodeBytes sampleMac (body ++ code) [1] 1 (some 1) = .ok (formatToken (.wal 6)) ∧
      (∃ status, decodeBytes sampleMac (body.set 90 8 ++ code) [1] 1 none = .error status) ∧
      ∃ bytes, encodeBytes sampleMac v2Layout (formatToken (.raft 6)) [1] = .ok bytes ∧
        decodeBytes sampleMac bytes [1] 1 none = .ok (formatToken (.raft 6)) := by
  intro body code
  obtain ⟨hencode, hdecode, -, halter⟩ := @resume_tokens_cannot_be_altered sampleMac [1]
  have hfirst := hdecode v1Layout (formatToken (.wal 6)) (body ++ code) (.inl rfl)
    (formatToken_typed rfl) (by decide +kernel) 1 (some 1) (by decide) (by decide) (by decide)
  refine ⟨hfirst, halter _ _ _ _ 1 1 _ none _ hfirst rfl rfl (by decide +kernel)
    (.inl ⟨by decide +kernel, rfl⟩), ?_⟩
  have htyped : (formatToken (.raft 6)).Typed := formatToken_typed rfl
  obtain ⟨bytes, hbytes⟩ := hencode v2Layout _ (.inr rfl) htyped ⟨by decide, by decide, by decide,
    by simp [formatToken, SourcePosition.Accepted, SourcePosition.isValid, SourceIdentity.uuid,
      v2Layout]⟩ rfl
  exact ⟨bytes, hbytes, hdecode _ _ _ (.inr rfl) htyped hbytes 1 none (by decide) (by decide)
    (by simp)⟩

end Chronos.Live
