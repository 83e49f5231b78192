import Chronos.Raft.Log

/-!
What `deriveMembership` reads off a log.

* `DeriveStep`: one round of the fold, one constructor for each way it succeeds;
  `deriveStep_iff` says that it is exactly `deriveStep`.
* `deriveFrom_append`: the fold over a log that is split.
* `Derived`: the shape of every derived membership; `derived_deriveMembership`.
* `deriveMembership_congr`: the commit index matters only for the entries that
  are behind it.
-/

namespace Chronos.Raft

/-- One successful round of `derive_membership`. -/
inductive DeriveStep (maximumVoters commitIndex : ℕ) (derived : DerivedMembership)
    (entry : LogEntry) : DerivedMembership → Prop where
  /-- Not a membership entry. -/
  | plain (type : isMembershipEntryType entry.type = false) :
      DeriveStep maximumVoters commitIndex derived entry derived
  /-- A joint entry takes effect at once. -/
  | joint (newVoters : List NodeId) (type : entry.type = jointMembershipEntryType)
      (decoded : decodeMembershipCommand entry.payload maximumVoters =
        .ok (.joint derived.committedVoters newVoters))
      (stable : derived.joint = none)
      (fits : (voterUnion derived.committedVoters newVoters).length ≤ maximumVoters) :
      DeriveStep maximumVoters commitIndex derived entry
        ⟨derived.committedVoters, voterUnion derived.committedVoters newVoters,
          some ⟨derived.committedVoters, newVoters, entry.index, false⟩⟩
  /-- A committed final entry closes the joint configuration. -/
  | finalCommitted (joint : JointConfiguration) (type : entry.type = finalMembershipEntryType)
      (decoded : decodeMembershipCommand entry.payload maximumVoters =
        .ok (.final joint.jointIndex joint.newVoters))
      (open_ : derived.joint = some joint) (pending : joint.finalPending = false)
      (jointCommitted : joint.jointIndex ≤ commitIndex) (committed : entry.index ≤ commitIndex) :
      DeriveStep maximumVoters commitIndex derived entry ⟨joint.newVoters, joint.newVoters, none⟩
  /-- An uncommitted final entry is only noted. -/
  | finalPending (joint : JointConfiguration) (type : entry.type = finalMembershipEntryType)
      (decoded : decodeMembershipCommand entry.payload maximumVoters =
        .ok (.final joint.jointIndex joint.newVoters))
      (open_ : derived.joint = some joint) (pending : joint.finalPending = false)
      (jointCommitted : joint.jointIndex ≤ commitIndex) (uncommitted : commitIndex < entry.index) :
      DeriveStep maximumVoters commitIndex derived entry
        { derived with joint := some { joint with finalPending := true } }

section Step

variable {maximumVoters commitIndex : ℕ} {derived derived' : DerivedMembership} {entry : LogEntry}

lemma isMembershipEntryType_joint : isMembershipEntryType jointMembershipEntryType = true := rfl

lemma isMembershipEntryType_final : isMembershipEntryType finalMembershipEntryType = true := rfl

lemma deriveStep_sound (h : deriveStep maximumVoters commitIndex derived entry = .ok derived') :
    DeriveStep maximumVoters commitIndex derived entry derived' := by
  unfold deriveStep at h
  split at h
  · rename_i htype
    cases h
    exact .plain (by simpa using htype)
  rename_i htype
  obtain ⟨_, hdecoded, h⟩ := Result.bind_eq_ok.mp h
  split at h
  · rename_i hjoint
    split at h
    · rename_i old new hnone
      split at h
      · cases h
      rename_i hold
      rw [not_not] at hold
      subst hold
      split_ifs at h with hfits
      cases h
      exact .joint new hjoint hdecoded hnone (by omega)
    · cases h
  · rename_i hjoint
    have hfinal : entry.type = finalMembershipEntryType := by
      simp only [isMembershipEntryType, Bool.not_eq_true', Bool.or_eq_false_iff,
        decide_eq_false_iff_not, not_and, not_not] at htype
      exact htype hjoint
    split at h
    · rename_i jointIndex new joint hsome
      split at h
      · cases h
      rename_i hguard
      simp only [not_or, not_not, Bool.not_eq_true, not_lt] at hguard
      obtain ⟨hpending, rfl, rfl, hcommitted⟩ := hguard
      split at h
      · rename_i hle
        cases h
        exact .finalCommitted joint hfinal hdecoded hsome hpending hcommitted hle
      · rename_i hlt
        cases h
        exact .finalPending joint hfinal hdecoded hsome hpending hcommitted (by omega)
    · cases h

lemma deriveStep_complete (h : DeriveStep maximumVoters commitIndex derived entry derived') :
    deriveStep maximumVoters commitIndex derived entry = .ok derived' := by
  have hne : finalMembershipEntryType ≠ jointMembershipEntryType := by decide
  cases h with
  | plain type => simp [deriveStep, type]
  | joint _ type decoded stable fits =>
    simp only [deriveStep, type, isMembershipEntryType_joint, decoded, stable]
    simp [bind, Except.bind, fits]
  | finalCommitted _ type decoded open_ pending jointCommitted committed =>
    simp only [deriveStep, type, isMembershipEntryType_final, decoded, open_]
    simp [bind, Except.bind, hne, pending, jointCommitted, committed]
  | finalPending _ type decoded open_ pending jointCommitted uncommitted =>
    simp only [deriveStep, type, isMembershipEntryType_final, decoded, open_]
    simp [bind, Except.bind, hne, pending, Nat.not_lt.mpr jointCommitted,
      Nat.not_le.mpr uncommitted]

lemma deriveStep_iff : deriveStep maximumVoters commitIndex derived entry = .ok derived' ↔
    DeriveStep maximumVoters commitIndex derived entry derived' :=
  ⟨deriveStep_sound, deriveStep_complete⟩

end Step

/-! ### The fold -/

/-- The loop of `derive_membership` from any membership on. -/
def deriveFrom (maximumVoters commitIndex : ℕ) (derived : DerivedMembership)
    (log : List LogEntry) : Result DerivedMembership :=
  log.foldlM (deriveStep maximumVoters commitIndex) derived

section Fold

variable {m c c' : ℕ} {base : List NodeId} {d r : DerivedMembership} {log rest : List LogEntry}

lemma deriveMembership_eq (base : List NodeId) (log : List LogEntry) (c m : ℕ) :
    deriveMembership base log c m = deriveFrom m c (.base base) log := rfl

variable {entry : LogEntry}

lemma deriveFrom_cons : deriveFrom m c d (entry :: log) = .ok r ↔
    ∃ d', DeriveStep m c d entry d' ∧ deriveFrom m c d' log = .ok r := by
  rw [deriveFrom, List.foldlM_cons, Result.bind_eq_ok]
  simp only [deriveStep_iff, deriveFrom]

lemma deriveFrom_append : deriveFrom m c d (log ++ rest) = .ok r ↔
    ∃ d', deriveFrom m c d log = .ok d' ∧ deriveFrom m c d' rest = .ok r := by
  rw [deriveFrom, List.foldlM_append, Result.bind_eq_ok]
  rfl

/-- What every round preserves holds at the end of the fold. -/
lemma deriveFrom_induction (P : DerivedMembership → Prop) (h : deriveFrom m c d log = .ok r)
    (start : P d)
    (step : ∀ d entry d', entry ∈ log → P d → DeriveStep m c d entry d' → P d') : P r := by
  induction log generalizing d with
  | nil =>
    cases h
    exact start
  | cons entry _ ih =>
    obtain ⟨d', hstep, hrest⟩ := deriveFrom_cons.mp h
    exact ih hrest (step d entry d' (by simp) start hstep)
      fun d e d' he => step d e d' (by simp [he])

/-- The shape of a derived membership. -/
structure Derived (d : DerivedMembership) : Prop where
  stable : d.joint = none → d.activeVoters = d.committedVoters
  joint : ∀ joint, d.joint = some joint → joint.oldVoters = d.committedVoters ∧
    d.activeVoters = voterUnion joint.oldVoters joint.newVoters

lemma derived_base (base : List NodeId) : Derived (.base base) :=
  ⟨fun _ => rfl, fun _ h => by cases h⟩

lemma Derived.step (h : Derived d) (hstep : DeriveStep m c d entry r) :
    Derived r := by
  cases hstep with
  | plain => exact h
  | joint newVoters =>
    refine ⟨by simp, fun joint hjoint => ?_⟩
    cases hjoint
    exact ⟨rfl, rfl⟩
  | finalCommitted joint => exact ⟨fun _ => rfl, fun joint hjoint => by cases hjoint⟩
  | finalPending joint _ _ open_ =>
    refine ⟨by simp, fun joint' hjoint => ?_⟩
    cases hjoint
    exact h.joint joint open_

lemma derived_deriveMembership (h : deriveMembership base log c m = .ok d) : Derived d :=
  deriveFrom_induction Derived h (derived_base base) fun _ _ _ _ hd hstep => hd.step hstep

/-- A stable membership is the base of its committed voters. -/
lemma Derived.eq_base (h : Derived d) (hnone : d.joint = none) : d = .base d.committedVoters := by
  obtain ⟨_, _, _⟩ := d
  have hactive := h.stable hnone
  simp only at hnone hactive
  rw [hnone, hactive]
  rfl

/-! ### The commit index -/

/-- A joint configuration stands behind index `k`. -/
def JointWithin (k : ℕ) (d : DerivedMembership) : Prop :=
  ∀ joint, d.joint = some joint → joint.jointIndex ≤ k

variable {k : ℕ}

lemma JointWithin.step (h : JointWithin k d) (hk : entry.index ≤ k)
    (hstep : DeriveStep m c d entry r) : JointWithin k r := by
  cases hstep with
  | plain => exact h
  | joint newVoters =>
    rintro joint hjoint
    cases hjoint
    exact hk
  | finalCommitted joint => rintro joint' hjoint; cases hjoint
  | finalPending joint _ _ open_ =>
    rintro _ hjoint
    cases hjoint
    exact h joint open_

/-- Entries at or below both commit indexes are read alike under both. -/
lemma deriveFrom_congr (hc : k ≤ c) (hc' : k ≤ c') (hlog : ∀ entry ∈ log, entry.index ≤ k)
    (hd : JointWithin k d) (h : deriveFrom m c d log = .ok r) : deriveFrom m c' d log = .ok r := by
  induction log generalizing d with
  | nil => exact h
  | cons entry _ ih =>
    obtain ⟨d', hstep, hrest⟩ := deriveFrom_cons.mp h
    have hk := hlog entry (by simp)
    refine deriveFrom_cons.mpr ⟨d', ?_, ih (fun e he => hlog e (by simp [he]))
      (hd.step hk hstep) hrest⟩
    cases hstep with
    | plain type => exact .plain type
    | joint newVoters type decoded stable fits => exact .joint newVoters type decoded stable fits
    | finalCommitted joint type decoded open_ pending =>
      exact .finalCommitted joint type decoded open_ pending
        ((hd joint open_).trans hc') (hk.trans hc')
    | finalPending => omega

lemma deriveMembership_congr (hc : k ≤ c) (hc' : k ≤ c') (hlog : ∀ entry ∈ log, entry.index ≤ k)
    (h : deriveMembership base log c m = .ok r) :
    deriveMembership base log c' m = .ok r :=
  deriveFrom_congr hc hc' hlog (fun _ hjoint => by cases hjoint) h

/-- A log may be cut behind a stable configuration, and read from there. -/
lemma deriveMembership_cut {checkpoint : DerivedMembership} (hk : k ≤ c)
    (hlog : ∀ entry ∈ log, entry.index ≤ k)
    (hcheckpoint : deriveMembership base log k m = .ok checkpoint)
    (hstable : checkpoint.joint = none) (h : deriveMembership base (log ++ rest) c m = .ok r) :
    deriveMembership checkpoint.committedVoters rest c m = .ok r := by
  have hlog' := deriveMembership_congr (le_refl k) hk hlog hcheckpoint
  obtain ⟨_, hd', hrest⟩ := deriveFrom_append.mp h
  rw [← deriveMembership_eq, hlog', Except.ok.injEq] at hd'
  subst hd'
  rw [deriveMembership_eq, ← (derived_deriveMembership hcheckpoint).eq_base hstable]
  exact hrest

end Fold

end Chronos.Raft
