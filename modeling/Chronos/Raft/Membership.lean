import Chronos.Raft.Types

/-!
`raft/membership.cpp` and the membership part of `raft/node.cpp`: the two
membership commands and their byte format, and `derive_membership`, which reads
the configuration off base voters, a log and a commit index.

* `encodeMembershipCommand`, `decodeMembershipCommand`: the framed, checksummed
  format `CHRNMBC`.
* `deriveMembership`: the fold of `deriveStep` over the log.  A joint entry takes
  effect as soon as it is in the log, a final entry only once it is committed.
-/

namespace Chronos.Raft

/-- `kLeaderNoopEntryType`. -/
def leaderNoopEntryType : UInt8 := 253

/-- `kJointMembershipEntryType`. -/
def jointMembershipEntryType : UInt8 := 254

/-- `kFinalMembershipEntryType`. -/
def finalMembershipEntryType : UInt8 := 255

/-- `kMembershipCommandHeaderSize`. -/
def membershipCommandHeaderSize : ℕ := 32

/-- `kMembershipCommandTrailerSize`. -/
def membershipCommandTrailerSize : ℕ := 4

/-- `kMaximumMembershipVoters`. -/
def maximumMembershipVoters : ℕ := 65535

/-- `is_membership_entry_type`. -/
def isMembershipEntryType (type : UInt8) : Bool :=
  type = jointMembershipEntryType || type = finalMembershipEntryType

/-- `is_internal_raft_entry_type`. -/
def isInternalRaftEntryType (type : UInt8) : Bool :=
  type = leaderNoopEntryType || isMembershipEntryType type

/-- `MembershipCommand`: `JointMembershipCommand` or `FinalMembershipCommand`. -/
inductive MembershipCommand where
  | joint (oldVoters newVoters : List NodeId)
  | final (jointIndex : ℕ) (newVoters : List NodeId)
  deriving DecidableEq, Repr

/-- The error statuses of `node.cpp` and `membership.cpp`. -/
def invalid (message : String) : Status := ⟨.invalidArgument, message⟩

@[inherit_doc invalid]
def corruption (message : String) : Status := ⟨.corruption, message⟩

@[inherit_doc invalid]
def exhausted (message : String) : Status := ⟨.resourceExhausted, message⟩

@[inherit_doc invalid]
def unsupported (message : String) : Status := ⟨.notSupported, message⟩

@[inherit_doc invalid]
def unavailable (message : String) : Status := ⟨.unavailable, message⟩

/-! ### Voter lists -/

/-- `canonical` of `membership.cpp`, the same test as `valid_voters` of `node.cpp`: nonempty,
bounded, sorted, without repetition and without the identity zero. -/
def validVoters (voters : List NodeId) (maximum : ℕ) : Bool :=
  !voters.isEmpty && decide (voters.length ≤ maximum) && decide (voters.head? ≠ some 0) &&
    decide (voters.Pairwise (· < ·))

/-- The merge of one element with a list, the rest of the merge being `rest`. -/
def setUnionStep (x : NodeId) (rest : List NodeId → List NodeId) : List NodeId → List NodeId
  | [] => x :: rest []
  | y :: ys =>
      if x < y then x :: rest (y :: ys)
      else if y < x then y :: setUnionStep x rest ys
      else x :: rest ys

/-- `voter_union`, that is `std::ranges::set_union`. -/
def voterUnion : List NodeId → List NodeId → List NodeId
  | [], ys => ys
  | x :: xs, ys => setUnionStep x (voterUnion xs) ys

/-- `union_fits`: the count of the same merge stays within the bound. -/
def unionFits (oldVoters newVoters : List NodeId) (maximumVoters : ℕ) : Bool :=
  decide ((voterUnion oldVoters newVoters).length ≤ maximumVoters)

/-! ### The byte format -/

/-- `kMagic`, the bytes of `CHRNMBC` and a zero. -/
def membershipMagic : List UInt8 := [67, 72, 82, 78, 77, 66, 67, 0]

/-- The frame that `encode_membership_command_v1` writes. -/
def membershipFrame (kind : UInt8) (jointIndex : ℕ) (oldVoters newVoters : List NodeId) :
    List UInt8 :=
  let totalSize := membershipCommandHeaderSize + (oldVoters.length + newVoters.length) * 8 +
    membershipCommandTrailerSize
  let bytes := membershipMagic ++ storeLe 2 1 ++ storeLe 2 0 ++ [kind, 0, 0, 0] ++
    storeLe 4 totalSize ++ storeLe 8 jointIndex ++ storeLe 2 oldVoters.length ++
    storeLe 2 newVoters.length ++ oldVoters.flatMap (storeLe 8) ++ newVoters.flatMap (storeLe 8)
  bytes ++ storeLe 4 (crc32c bytes)

/-- `canonicalize`: sort, then test. -/
def canonicalize (voters : List NodeId) (maximumVoters : ℕ) : Result (List NodeId) :=
  let sorted := voters.insertionSort (· ≤ ·)
  if validVoters sorted maximumVoters then .ok sorted
  else .error (invalid "membership voters must be bounded, unique, and nonzero")

/-- `encode_membership_command_v1`. -/
def encodeMembershipCommand (command : MembershipCommand) (maximumVoters : ℕ) :
    Result (List UInt8) :=
  if maximumVoters = 0 ∨ maximumVoters > maximumMembershipVoters then
    .error (invalid "membership voter limit is invalid")
  else match command with
    | .joint oldVoters newVoters => do
        let oldVoters ← canonicalize oldVoters maximumVoters
        let newVoters ← canonicalize newVoters maximumVoters
        if unionFits oldVoters newVoters maximumVoters then
          .ok (membershipFrame 1 0 oldVoters newVoters)
        else .error (invalid "joint membership union exceeds voter limit")
    | .final jointIndex newVoters =>
        if jointIndex = 0 then .error (invalid "final membership command has no joint index")
        else do
          let newVoters ← canonicalize newVoters maximumVoters
          .ok (membershipFrame 2 jointIndex [] newVoters)

/-- `decode_membership_command_v1`.  The first length test leaves the reader enough bytes for the
header, and the relationship test enough for the voters, so its own bound errors do not occur. -/
def decodeMembershipCommand (bytes : List UInt8) (maximumVoters : ℕ) : Result MembershipCommand :=
  let kind := loadLe bytes 12 1
  let jointIndex := loadLe bytes 20 8
  let oldCount := loadLe bytes 28 2
  let newCount := loadLe bytes 30 2
  let voterAt := fun position => loadLe bytes (membershipCommandHeaderSize + 8 * position) 8
  let oldVoters := (List.range oldCount).map voterAt
  let newVoters := (List.range newCount).map fun position => voterAt (oldCount + position)
  if maximumVoters = 0 ∨ maximumVoters > maximumMembershipVoters then
    .error (invalid "membership voter limit is invalid")
  else if bytes.length < membershipCommandHeaderSize + membershipCommandTrailerSize then
    .error (corruption "membership command is shorter than framing")
  else if crc32c (bytes.take (bytes.length - membershipCommandTrailerSize)) ≠
      loadLe bytes (bytes.length - membershipCommandTrailerSize) 4 then
    .error (corruption "membership command checksum mismatch")
  else if bytes.take 8 ≠ membershipMagic ∨ loadLe bytes 8 2 ≠ 1 then
    .error (unsupported "membership command magic or major unknown")
  else if loadLe bytes 10 2 ≠ 0 then
    .error (unsupported "membership command minor version unknown")
  else if loadLe bytes 13 3 ≠ 0 ∨ loadLe bytes 16 4 ≠ bytes.length ∨ oldCount > maximumVoters ∨
      newCount = 0 ∨ newCount > maximumVoters ∨
      bytes.length - membershipCommandHeaderSize ≠
        (oldCount + newCount) * 8 + membershipCommandTrailerSize then
    .error (corruption "membership command header relationships invalid")
  else if kind = 1 then
    if validVoters newVoters maximumVoters ∧ jointIndex = 0 ∧ validVoters oldVoters maximumVoters ∧
        unionFits oldVoters newVoters maximumVoters then
      .ok (.joint oldVoters newVoters)
    else .error (corruption "membership command semantics are noncanonical")
  else
    if validVoters newVoters maximumVoters ∧ kind = 2 ∧ jointIndex ≠ 0 ∧ oldVoters = [] then
      .ok (.final jointIndex newVoters)
    else .error (corruption "membership command semantics are noncanonical")

/-! ### Deriving the configuration from a log -/

/-- `JointConfiguration`. -/
structure JointConfiguration where
  oldVoters : List NodeId
  newVoters : List NodeId
  jointIndex : ℕ
  finalPending : Bool
  deriving DecidableEq, Repr

/-- `DerivedMembership`. -/
structure DerivedMembership where
  committedVoters : List NodeId
  activeVoters : List NodeId
  joint : Option JointConfiguration
  deriving DecidableEq, Repr

/-- The membership before any entry: the base voters. -/
def DerivedMembership.base (voters : List NodeId) : DerivedMembership := ⟨voters, voters, none⟩

/-- One round of the loop of `derive_membership`. -/
def deriveStep (maximumVoters : ℕ) (commitIndex : ℕ) (derived : DerivedMembership)
    (entry : LogEntry) : Result DerivedMembership :=
  if !isMembershipEntryType entry.type then .ok derived
  else do
    let decoded ← decodeMembershipCommand entry.payload maximumVoters
    if entry.type = jointMembershipEntryType then
      match decoded, derived.joint with
      | .joint oldVoters newVoters, none =>
          if oldVoters ≠ derived.committedVoters then
            .error (corruption "Raft log has an invalid joint-membership transition")
          else if (voterUnion oldVoters newVoters).length > maximumVoters then
            .error (invalid "Raft joint membership exceeds configured voter capacity")
          else
            .ok ⟨derived.committedVoters, voterUnion oldVoters newVoters,
              some ⟨oldVoters, newVoters, entry.index, false⟩⟩
      | _, _ => .error (corruption "Raft log has an invalid joint-membership transition")
    else
      match decoded, derived.joint with
      | .final jointIndex newVoters, some joint =>
          if joint.finalPending ∨ jointIndex ≠ joint.jointIndex ∨ newVoters ≠ joint.newVoters ∨
              joint.jointIndex > commitIndex then
            .error (corruption "Raft log has an invalid final-membership transition")
          else if entry.index ≤ commitIndex then .ok ⟨newVoters, newVoters, none⟩
          else .ok { derived with joint := some { joint with finalPending := true } }
      | _, _ => .error (corruption "Raft log has an invalid final-membership transition")

/-- `derive_membership`. -/
def deriveMembership (baseVoters : List NodeId) (log : List LogEntry) (commitIndex : ℕ)
    (maximumVoters : ℕ) : Result DerivedMembership :=
  log.foldlM (deriveStep maximumVoters commitIndex) (.base baseVoters)

end Chronos.Raft
