import Chronos.Consensus.Steps
import Chronos.Raft.Derive

/-!
The configurations of `derive_membership` as an instance of the library of
replicated logs.

* `deriveMembership_mono`: the voter limit of a node matters only for failure, so
  that all nodes can be compared under the largest limit.
* `DerivedMembership.core`: the voters of the last joint entry.  They do not
  depend on the commit index, and every quorum of a log with at most one more
  membership entry contains a majority of them (`deriveFrom_core_majority`).
* `membership`: the instance.
-/

namespace Chronos.Raft

open DerivedMembership List

open Consensus (Agree At)

/-! ### The voter limit -/

section Limit

variable {m m' : ℕ}

lemma validVoters_mono {voters : List NodeId} (hm : m ≤ m') (h : validVoters voters m = true) :
    validVoters voters m' = true := by
  simp only [validVoters, Bool.and_eq_true, decide_eq_true_eq] at h ⊢
  exact ⟨⟨⟨h.1.1.1, h.1.1.2.trans hm⟩, h.1.2⟩, h.2⟩

lemma unionFits_mono {oldVoters newVoters : List NodeId} (hm : m ≤ m')
    (h : unionFits oldVoters newVoters m = true) : unionFits oldVoters newVoters m' = true := by
  simp only [unionFits, decide_eq_true_eq] at h ⊢
  exact h.trans hm

lemma decodeMembershipCommand_mono {bytes : List UInt8} {command : MembershipCommand}
    (hm : m ≤ m') (hmax : m' ≤ maximumMembershipVoters)
    (h : decodeMembershipCommand bytes m = .ok command) :
    decodeMembershipCommand bytes m' = .ok command := by
  unfold decodeMembershipCommand at h ⊢
  simp only at h ⊢
  split at h
  · cases h
  rename_i hlimit
  rw [if_neg (by omega)]
  split at h
  · cases h
  rename_i hlength
  rw [if_neg hlength]
  split at h
  · cases h
  rename_i hcrc
  rw [if_neg hcrc]
  split at h
  · cases h
  rename_i hmagic
  rw [if_neg hmagic]
  split at h
  · cases h
  rename_i hminor
  rw [if_neg hminor]
  split at h
  · cases h
  rename_i hheader
  rw [if_neg (by omega)]
  split at h
  · rename_i hkind
    rw [if_pos hkind]
    split at h
    · rename_i hcanonical
      rw [if_pos ⟨validVoters_mono hm hcanonical.1, hcanonical.2.1,
        validVoters_mono hm hcanonical.2.2.1, unionFits_mono hm hcanonical.2.2.2⟩]
      exact h
    · cases h
  · rename_i hkind
    rw [if_neg hkind]
    split at h
    · rename_i hcanonical
      rw [if_pos ⟨validVoters_mono hm hcanonical.1, hcanonical.2⟩]
      exact h
    · cases h

variable {c : ℕ} {d : DerivedMembership}

lemma DeriveStep.mono {d' : DerivedMembership} {entry : LogEntry} (hm : m ≤ m')
    (hmax : m' ≤ maximumMembershipVoters) (h : DeriveStep m c d entry d') :
    DeriveStep m' c d entry d' := by
  cases h with
  | plain type => exact .plain type
  | joint newVoters type decoded stable fits =>
    exact .joint newVoters type (decodeMembershipCommand_mono hm hmax decoded) stable
      (fits.trans hm)
  | finalCommitted joint type decoded open_ pending jointCommitted committed =>
    exact .finalCommitted joint type (decodeMembershipCommand_mono hm hmax decoded) open_ pending
      jointCommitted committed
  | finalPending joint type decoded open_ pending jointCommitted uncommitted =>
    exact .finalPending joint type (decodeMembershipCommand_mono hm hmax decoded) open_ pending
      jointCommitted uncommitted

variable {r : DerivedMembership} {log : List LogEntry}

lemma deriveFrom_mono (hm : m ≤ m') (hmax : m' ≤ maximumMembershipVoters)
    (h : deriveFrom m c d log = .ok r) : deriveFrom m' c d log = .ok r := by
  induction log generalizing d with
  | nil => exact h
  | cons _ _ ih =>
    obtain ⟨d', hstep, hrest⟩ := deriveFrom_cons.mp h
    exact deriveFrom_cons.mpr ⟨d', hstep.mono hm hmax, ih hrest⟩

/-- A larger voter limit derives the same membership. -/
lemma deriveMembership_mono {base : List NodeId} (hmax : m ≤ maximumMembershipVoters)
    (h : deriveMembership base log c m = .ok r) :
    deriveMembership base log c maximumMembershipVoters = .ok r :=
  deriveFrom_mono hmax le_rfl h

end Limit

/-! ### Majorities -/

lemma countP_add_le (members : List NodeId) (p q : NodeId → Bool) :
    members.countP p + members.countP q ≤
      members.length + members.countP (fun node => p node && q node) := by
  induction members with
  | nil => simp
  | cons node =>
    simp only [countP_cons, length_cons]
    cases p node <;> cases q node <;> simp <;> omega

/-- Two majorities of one list of voters meet. -/
lemma hasMajority_meet {members : List NodeId} {p q : NodeId → Bool}
    (hp : hasMajority members p = true) (hq : hasMajority members q = true) :
    ∃ node ∈ members, p node = true ∧ q node = true := by
  simp only [hasMajority, decide_eq_true_eq] at hp hq
  have hpos : 0 < members.countP (fun node => p node && q node) := by
    have := countP_add_le members p q
    omega
  obtain ⟨node, hmem, hboth⟩ := countP_pos_iff.mp hpos
  exact ⟨node, hmem, by simpa using hboth⟩

/-! ### The core of a configuration -/

/-- The voters of whom every quorum contains a majority, whatever the commit index: the new voters
of the last joint entry. -/
def DerivedMembership.core (d : DerivedMembership) : List NodeId :=
  match d.joint with
  | some joint => joint.newVoters
  | none => d.committedVoters

/-- The core after one more entry. -/
def coreStep (core : List NodeId) (entry : LogEntry) : List NodeId :=
  if entry.type = jointMembershipEntryType then
    match decodeMembershipCommand entry.payload maximumMembershipVoters with
    | .ok (.joint _ newVoters) => newVoters
    | _ => core
  else core

section Core

variable {c c' : ℕ} {base : List NodeId} {d r : DerivedMembership} {log rest : List LogEntry}
  {entry : LogEntry}

lemma DeriveStep.core_eq (h : DeriveStep maximumMembershipVoters c d entry r) :
    r.core = coreStep d.core entry := by
  have hfinal : finalMembershipEntryType ≠ jointMembershipEntryType := by decide
  cases h with
  | plain type =>
    have hne : entry.type ≠ jointMembershipEntryType := by
      intro heq
      rw [heq, isMembershipEntryType_joint] at type
      cases type
    simp [coreStep, hne]
  | joint _ type decoded => simp [coreStep, type, decoded, core]
  | finalCommitted _ type _ open_ | finalPending _ type _ open_ =>
    simp [coreStep, type, hfinal, core, open_]

/-- The core depends on the log alone. -/
lemma deriveFrom_core_eq (h : deriveFrom maximumMembershipVoters c d log = .ok r) :
    r.core = log.foldl coreStep d.core := by
  induction log generalizing d with
  | nil =>
    cases h
    rfl
  | cons _ _ ih =>
    obtain ⟨d', hstep, hrest⟩ := deriveFrom_cons.mp h
    rw [ih hrest, hstep.core_eq, foldl_cons]

variable {p : NodeId → Bool}

/-- Every quorum contains a majority of the core. -/
lemma configurationQuorum_core (h : configurationQuorum d.joint d.committedVoters p = true) :
    hasMajority d.core p = true := by
  cases hjoint : d.joint with
  | none =>
    simpa only [core, configurationQuorum, hjoint] using h
  | some joint =>
    rw [hjoint, configurationQuorum, Bool.and_eq_true] at h
    simpa only [core, hjoint] using h.2

/-- A quorum after one more membership entry contains a majority of the core before it. -/
lemma DeriveStep.core_majority (h : DeriveStep maximumMembershipVoters c d entry r)
    (hquorum : configurationQuorum r.joint r.committedVoters p = true) :
    hasMajority d.core p = true := by
  cases h with
  | plain type => exact configurationQuorum_core hquorum
  | joint _ _ _ stable =>
    simp only [configurationQuorum, Bool.and_eq_true] at hquorum
    simpa [core, stable] using hquorum.1
  | finalCommitted _ _ _ open_ =>
    simpa [configurationQuorum, core, open_] using hquorum
  | finalPending _ _ _ open_ =>
    simp only [configurationQuorum, Bool.and_eq_true] at hquorum
    simpa [core, open_] using hquorum.2

/-- Whether a log entry is a membership command. -/
def IsMember (entry : LogEntry) : Prop := isMembershipEntryType entry.type = true

variable {m : ℕ}

lemma DeriveStep.eq_of_not_isMember (h : DeriveStep m c d entry r) (hentry : ¬ IsMember entry) :
    r = d := by
  cases h with
  | plain type => rfl
  | joint newVoters type | finalCommitted joint type | finalPending joint type =>
    exact absurd (by rw [IsMember, type]; rfl) hentry

lemma deriveFrom_of_not_isMember (h : deriveFrom m c d log = .ok r)
    (hlog : ∀ entry ∈ log, ¬ IsMember entry) : r = d := by
  induction log generalizing d with
  | nil =>
    cases h
    rfl
  | cons entry _ ih =>
    obtain ⟨d', hstep, hrest⟩ := deriveFrom_cons.mp h
    obtain rfl := hstep.eq_of_not_isMember (hlog entry (by simp))
    exact ih hrest fun e he => hlog e (by simp [he])

/-- **Overlap**: behind any point of a log, a quorum of the log contains a majority of the core at
that point as long as at most one membership entry follows. -/
lemma deriveFrom_core_majority (h : deriveFrom maximumMembershipVoters c d log = .ok r)
    (hone : ∀ i j, i < j → At IsMember log i → ¬ At IsMember log j)
    (hquorum : configurationQuorum r.joint r.committedVoters p = true) :
    hasMajority d.core p = true := by
  induction log generalizing d with
  | nil =>
    cases h
    exact configurationQuorum_core hquorum
  | cons entry log ih =>
    obtain ⟨d', hstep, hrest⟩ := deriveFrom_cons.mp h
    by_cases hentry : IsMember entry
    · have hplain : ∀ e ∈ log, ¬ IsMember e := by
        intro e he hmem
        obtain ⟨j, hj⟩ := mem_iff_getElem?.mp he
        exact hone 0 (j + 1) (by omega) ⟨entry, rfl, hentry⟩ ⟨e, by simpa using hj, hmem⟩
      obtain rfl := deriveFrom_of_not_isMember hrest hplain
      exact hstep.core_majority hquorum
    · obtain rfl := hstep.eq_of_not_isMember hentry
      refine ih hrest fun i j hij hi hj => ?_
      obtain ⟨x, hx, hxm⟩ := hi
      obtain ⟨y, hy, hym⟩ := hj
      exact hone (i + 1) (j + 1) (by omega) ⟨x, by simpa using hx, hxm⟩ ⟨y, by simpa using hy, hym⟩

end Core

/-! ### Membership entries and the commit index -/

/-- The membership entries at positions of `log` are committed, or the configuration is still
open: at that joint entry, or at a final entry. -/
def OpenOrCommitted (c : ℕ) (d : DerivedMembership) (log : List LogEntry) : Prop :=
  ∀ entry ∈ log, IsMember entry → entry.index ≤ c ∨
    ∃ joint, d.joint = some joint ∧ (joint.finalPending = true ∨ joint.jointIndex = entry.index)

section Commit

variable {m c : ℕ} {base : List NodeId} {d r : DerivedMembership} {log rest : List LogEntry}
  {entry : LogEntry}

/-- When a membership entry takes effect, all earlier ones are committed. -/
lemma OpenOrCommitted.committed (h : OpenOrCommitted c d log) (hentry : IsMember entry)
    (hstep : DeriveStep m c d entry r) : ∀ e ∈ log, IsMember e → e.index ≤ c := by
  intro e he hmem
  rcases h e he hmem with hle | ⟨joint, hjoint, hcase⟩
  · exact hle
  · cases hstep with
    | plain type => rw [IsMember, type] at hentry; cases hentry
    | joint _ _ _ stable => rw [stable] at hjoint; cases hjoint
    | finalCommitted _ _ _ open_ pending | finalPending _ _ _ open_ pending =>
      rw [open_, Option.some.injEq] at hjoint
      subst hjoint
      rw [pending] at hcase
      rcases hcase with hcase | hcase
      · cases hcase
      · omega

lemma OpenOrCommitted.step (h : OpenOrCommitted c d log) (hstep : DeriveStep m c d entry r) :
    OpenOrCommitted c r (log ++ [entry]) := by
  intro e he hmem
  rcases mem_append.mp he with he | he
  · by_cases hentry : IsMember entry
    · exact .inl (h.committed hentry hstep e he hmem)
    · cases hstep with
      | plain type => exact h e he hmem
      | joint newVoters type | finalCommitted joint type | finalPending joint type =>
        exact absurd (by rw [IsMember, type]; rfl) hentry
  · obtain rfl := mem_singleton.mp he
    cases hstep with
    | plain type => rw [IsMember, type] at hmem; cases hmem
    | joint newVoters => exact .inr ⟨_, rfl, .inr rfl⟩
    | finalCommitted _ _ _ _ _ _ committed =>
      exact .inl committed
    | finalPending joint => exact .inr ⟨_, rfl, .inl rfl⟩

lemma openOrCommitted_deriveFrom (hd : OpenOrCommitted c d rest)
    (h : deriveFrom m c d log = .ok r) : OpenOrCommitted c r (rest ++ log) := by
  induction log generalizing d rest with
  | nil =>
    cases h
    simpa using hd
  | cons _ _ ih =>
    obtain ⟨d', hstep, hrest⟩ := deriveFrom_cons.mp h
    have := ih (hd.step hstep) hrest
    rwa [append_assoc, singleton_append] at this

/-- Every membership entry of a derivable log but the last is committed. -/
lemma deriveMembership_committed (h : deriveMembership base (log ++ entry :: rest) c m = .ok r)
    (hentry : IsMember entry) : ∀ e ∈ log, IsMember e → e.index ≤ c := by
  rw [deriveMembership_eq, deriveFrom_append] at h
  obtain ⟨d', hlog, hrest⟩ := h
  obtain ⟨d'', hstep, -⟩ := deriveFrom_cons.mp hrest
  have hopen : OpenOrCommitted c d' ([] ++ log) :=
    openOrCommitted_deriveFrom (fun e he => by cases he) hlog
  exact hopen.committed hentry hstep

end Commit

/-! ### The instance -/

/-- The quorums of a log under the bootstrap voters `boot`. -/
def membership (boot : List NodeId) : Consensus.Configuration NodeId LogEntry where
  term := LogEntry.term
  IsMember := IsMember
  Valid log c := Contiguous 0 log ∧
    ∃ d, deriveMembership boot log c maximumMembershipVoters = .ok d
  Quorum log c Q := ∃ d p, deriveMembership boot log c maximumMembershipVoters = .ok d ∧
    configurationQuorum d.joint d.committedVoters p = true ∧ ∀ v, p v = true → v ∈ Q
  committed_of_lt := by
    rintro log c i j ⟨hcont, d, hd⟩ ⟨x, hx, hxm⟩ ⟨y, hy, hym⟩ hij
    obtain ⟨hj, hjy⟩ := List.getElem?_eq_some_iff.mp hy
    have hsplit : log = log.take j ++ y :: log.drop (j + 1) := by
      rw [← hjy, List.getElem_cons_drop, List.take_append_drop]
    rw [hsplit] at hd
    have hmem : x ∈ log.take j := List.mem_of_getElem? (by
      rw [List.getElem?_take_of_lt hij]
      exact hx)
    have hle := deriveMembership_committed hd hym x hmem hxm
    have := hcont i x hx
    omega
  meet := by
    rintro a b c c' k Q Q' ⟨-, -⟩ ⟨-, -⟩ hagree ha hb ⟨d, p, hd, hp, hpQ⟩ ⟨d', p', hd', hp', hpQ'⟩
    have hmajority : ∀ {log : List LogEntry} {c : ℕ} {d : DerivedMembership} {p : NodeId → Bool},
        deriveMembership boot log c maximumMembershipVoters = .ok d →
        configurationQuorum d.joint d.committedVoters p = true →
        (∀ i j, k ≤ i → i < j → At IsMember log i → ¬ At IsMember log j) →
        hasMajority ((log.take k).foldl coreStep boot) p = true := by
      intro log c d p hd hp hone
      rw [deriveMembership_eq, ← List.take_append_drop k log, deriveFrom_append] at hd
      obtain ⟨e, he, hrest⟩ := hd
      have hcore := deriveFrom_core_eq he
      rw [show (DerivedMembership.base boot).core = boot from rfl] at hcore
      rw [← hcore]
      refine deriveFrom_core_majority hrest (fun i j hij hi hj => ?_) hp
      obtain ⟨x, hx, hxm⟩ := hi
      obtain ⟨y, hy, hym⟩ := hj
      rw [List.getElem?_drop] at hx hy
      exact hone (k + i) (k + j) (by omega) (by omega) ⟨x, hx, hxm⟩ ⟨y, hy, hym⟩
    have h := hmajority hd hp ha
    have h' := hmajority hd' hp' hb
    rw [← hagree.take_eq] at h'
    obtain ⟨v, -, hv, hv'⟩ := hasMajority_meet h h'
    exact ⟨v, hpQ v hv, hpQ' v hv'⟩

end Chronos.Raft
