import Mathlib.Data.Set.Basic
import Chronos.Consensus.Agreement

/-!
Replicated logs with elected leaders and changing quorums.

The library knows nothing of messages or of a node's implementation.  A `System`
is the terms and logs of all nodes together with the history of the run: who
campaigned and voted with which log, who was elected, what each leader has
written, who acknowledged what, and what was committed.

* `Configuration`: how a log and a commit position determine the quorums.  Its
  two laws are what joint consensus guarantees: all membership entries of a log
  but the last are committed, and the quorums of two logs meet when each has at
  most one membership entry behind a common part.
* `History.Inv`: the invariant of the history.
* `Inv.leader_completeness`: an election of a later term is won only with a log
  that contains everything committed, by induction over terms.
* `Inv.election_safety`: two elections of one term have the same winner.
* `Sound.matching`, `Inv.commits_agree`: the consequences for logs and commits.
-/

namespace Chronos.Consensus

open List Option

variable {ν ε : Type*}

/-- Position `i` of a log holds an entry with the property. -/
def At (p : ε → Prop) (log : List ε) (i : ℕ) : Prop := ∃ entry, log[i]? = some entry ∧ p entry

variable {p : ε → Prop} {log : List ε} {i : ℕ}

lemma At.lt (h : At p log i) : i < log.length := by
  obtain ⟨_, hentry, -⟩ := h
  exact (List.getElem?_eq_some_iff.mp hentry).1

variable {a b : List ε}

lemma At.of_agree {k : ℕ} (h : At p a i) (hab : Agree k a b) (hi : i < k) : At p b i := by
  obtain ⟨entry, hentry, hp⟩ := h
  exact ⟨entry, hab.getElem_eq hi ▸ hentry, hp⟩

/-- How logs determine terms and quorums. -/
structure Configuration (ν ε : Type*) where
  /-- The term an entry was written in. -/
  term : ε → ℕ
  /-- Whether an entry changes the membership. -/
  IsMember : ε → Prop
  /-- A log with its first `c` entries committed determines a configuration. -/
  Valid : List ε → ℕ → Prop
  /-- A set of nodes is a quorum of that configuration. -/
  Quorum : List ε → ℕ → Set ν → Prop
  /-- Every membership entry but the last is committed. -/
  committed_of_lt : ∀ {log c i j}, Valid log c → At IsMember log i → At IsMember log j → i < j →
    i < c
  /-- Quorums meet if each log has at most one membership entry behind the part they share. -/
  meet : ∀ {a b : List ε} {c c' d : ℕ} {Q Q' : Set ν}, Valid a c → Valid b c' → Agree d a b →
    (∀ i j, d ≤ i → i < j → At IsMember a i → ¬ At IsMember a j) →
    (∀ i j, d ≤ i → i < j → At IsMember b i → ¬ At IsMember b j) →
    Quorum a c Q → Quorum b c' Q' → ∃ v, v ∈ Q ∧ v ∈ Q'

/-- A won election. -/
structure Ballot (ν ε : Type*) where
  winner : ν
  log : List ε
  commit : ℕ
  voters : Set ν

/-- The nodes and the history of a run. -/
structure System (ν ε : Type*) where
  /-- The current term of a node. -/
  term : ν → ℕ
  /-- The log of a node. -/
  log : ν → List ε
  /-- The log with which a node campaigned in a term. -/
  camp : ν → ℕ → Option (List ε)
  /-- The candidate a node voted for in a term, and the log it had then. -/
  vote : ν → ℕ → Option (ν × List ε)
  /-- The election of a term. -/
  elect : ℕ → Option (Ballot ν ε)
  /-- All that the leader of a term has had in its log. -/
  lead : ℕ → List ε
  /-- A node has had the first `n` entries of the leader of a term. -/
  ack : ν → ℕ → ℕ → Prop
  /-- The leader of a term has committed its first `n` entries. -/
  committed : ℕ → ℕ → Prop

variable (P : Configuration ν ε)

/-- The term of the last entry, `0` for the empty log. -/
def lastTerm (log : List ε) : ℕ := (log.getLast?.map P.term).getD 0

/-- The first log is at least as up to date as the second. -/
def UpToDate (a b : List ε) : Prop :=
  lastTerm P b < lastTerm P a ∨ lastTerm P a = lastTerm P b ∧ b.length ≤ a.length

/-- Every prefix of the log is a prefix of what the leader of its last entry wrote. -/
def Sound (s : System ν ε) (log : List ε) : Prop :=
  ∀ i entry, log[i]? = some entry →
    (s.elect (P.term entry)).isSome ∧ Agree (i + 1) log (s.lead (P.term entry))

/-- What a won election of term `u` rests on. -/
structure IsBallot (s : System ν ε) (u : ℕ) (b : Ballot ν ε) : Prop where
  sound : Sound P s b.log
  terms : ∀ entry ∈ b.log, P.term entry < u
  valid : P.Valid b.log b.commit
  quorum : P.Quorum b.log b.commit b.voters
  votes : ∀ v ∈ b.voters, ∃ log, s.vote v u = some (b.winner, log) ∧ UpToDate P b.log log

/-- The first `n` entries of the leader of `t` are in `log`, or a leader between `t` and `u` was
elected without them. -/
def Kept (s : System ν ε) (t n u : ℕ) (log : List ε) : Prop :=
  Agree n (s.lead t) log ∨
    ∃ w b, t < w ∧ w < u ∧ s.elect w = some b ∧ ¬ Agree n (s.lead t) b.log

/-- What a commit of the first `n` entries by the leader of `t` rests on: at that time its log has
`m` entries of which `c` are committed. -/
structure IsCommit (s : System ν ε) (t n m c : ℕ) (A : Set ν) : Prop where
  elected : (s.elect t).isSome
  le : n ≤ m
  within : m ≤ (s.lead t).length
  pos : 0 < n
  current : At (fun entry => P.term entry = t) (s.lead t) (n - 1)
  valid : P.Valid ((s.lead t).take m) c
  quorum : P.Quorum ((s.lead t).take m) c A
  acks : ∀ v ∈ A, s.ack v t n
  before : c = 0 ∨ ∃ t₀ n₀, s.committed t₀ n₀ ∧ (t₀ < t ∨ t₀ = t ∧ n₀ < n) ∧ c ≤ n₀ ∧
    Agree c (s.lead t₀) (s.lead t)

/-- **The invariant of the history.** -/
structure Inv (s : System ν ε) : Prop where
  log_sound : ∀ v, Sound P s (s.log v)
  log_term : ∀ v, ∀ entry ∈ s.log v, P.term entry ≤ s.term v
  camp_term : ∀ {v u log}, s.camp v u = some log → u ≤ s.term v
  camp_sound : ∀ {v u log}, s.camp v u = some log →
    Sound P s log ∧ ∀ entry ∈ log, P.term entry < u
  vote_term : ∀ {v u c log}, s.vote v u = some (c, log) → u ≤ s.term v
  vote_sound : ∀ {v u c log}, s.vote v u = some (c, log) → Sound P s log
  vote_camp : ∀ {v u c log}, s.vote v u = some (c, log) →
    ∃ campaign, s.camp c u = some campaign ∧ UpToDate P campaign log
  vote_kept : ∀ {v u c log t n}, s.vote v u = some (c, log) → s.ack v t n → t < u →
    Kept s t n (u + 1) log
  ballot : ∀ {u b}, s.elect u = some b → IsBallot P s u b
  /-- The voters of a leader voted before it was elected. -/
  ballot_kept : ∀ {u b v c log t n}, s.elect u = some b → v ∈ b.voters →
    s.vote v u = some (c, log) → s.ack v t n → t < u → Kept s t n u log
  lead_eq : ∀ {u b}, s.elect u = some b →
    ∃ tail, s.lead u = b.log ++ tail ∧ ∀ entry ∈ tail, P.term entry = u
  ack_term : ∀ {v t n}, s.ack v t n → t ≤ s.term v
  ack_elected : ∀ {v t n}, s.ack v t n → (s.elect t).isSome ∧ n ≤ (s.lead t).length
  ack_kept : ∀ {v t n}, s.ack v t n → Kept s t n (s.term v + 1) (s.log v)
  commit : ∀ {t n}, s.committed t n → ∃ m c A, IsCommit P s t n m c A
  /-- A membership entry is written only when the one before it is committed. -/
  member : ∀ {u i j}, (s.elect u).isSome → i < j → At P.IsMember (s.lead u) i →
    At P.IsMember (s.lead u) j → At (fun entry => P.term entry = u) (s.lead u) j →
    ∃ t n, s.committed t n ∧ t ≤ u ∧ i < n ∧ Agree (i + 1) (s.lead t) (s.lead u)

variable {P} {s : System ν ε}

/-! ### Leaders' logs -/

/-- The last entry of a nonempty log. -/
lemma exists_last (h : log ≠ []) :
    ∃ entry, log[log.length - 1]? = some entry ∧ P.term entry = lastTerm P log := by
  refine ⟨log.getLast h, ?_, ?_⟩
  · rw [← getLast?_eq_getElem?, getLast?_eq_some_getLast h]
  · rw [lastTerm, getLast?_eq_some_getLast h]
    rfl

/-- A sound log is a prefix of what the leader of its last entry wrote. -/
lemma Sound.last (h : Sound P s log) (hne : log ≠ []) :
    (s.elect (lastTerm P log)).isSome ∧ Agree log.length log (s.lead (lastTerm P log)) := by
  obtain ⟨entry, hentry, hterm⟩ := exists_last (P := P) hne
  obtain ⟨helect, hagree⟩ := h _ entry hentry
  have hpos := length_pos_iff.mpr hne
  rw [show log.length - 1 + 1 = log.length by omega, hterm] at hagree
  exact ⟨hterm ▸ helect, hagree⟩

/-- **Log matching**: sound logs with entries of the same term at one position agree up to it. -/
lemma Sound.matching (ha : Sound P s a) (hb : Sound P s b) {x y : ε} (hx : a[i]? = some x)
    (hy : b[i]? = some y) (hterm : P.term x = P.term y) :
    Agree (i + 1) a b :=
  (ha i x hx).2.trans (hterm ▸ (hb i y hy).2.symm)

namespace Inv

variable (h : Inv P s)
include h

variable {u : ℕ} {b : Ballot ν ε}

lemma ballot_prefix (hb : s.elect u = some b) : b.log <+: s.lead u := by
  obtain ⟨tail, heq, -⟩ := h.lead_eq hb
  exact ⟨tail, heq.symm⟩

variable {i : ℕ} {entry : ε}

/-- A leader starts with entries of earlier terms and writes only its own. -/
lemma lead_entry (hb : s.elect u = some b) (hentry : (s.lead u)[i]? = some entry) :
    i < b.log.length ∧ b.log[i]? = some entry ∧ P.term entry < u ∨
      b.log.length ≤ i ∧ P.term entry = u := by
  obtain ⟨_, heq, htail⟩ := h.lead_eq hb
  rw [heq] at hentry
  rcases Nat.lt_or_ge i b.log.length with hlt | hge
  · rw [getElem?_append_left hlt] at hentry
    exact .inl ⟨hlt, hentry, (h.ballot hb).terms entry (mem_of_getElem? hentry)⟩
  · rw [getElem?_append_right hge] at hentry
    exact .inr ⟨hge, htail entry (mem_of_getElem? hentry)⟩

lemma lead_term_le (hu : (s.elect u).isSome) (hentry : (s.lead u)[i]? = some entry) :
    P.term entry ≤ u := by
  obtain ⟨_, hb⟩ := isSome_iff_exists.mp hu
  rcases h.lead_entry hb hentry with ⟨-, -, hlt⟩ | ⟨-, heq⟩
  · exact hlt.le
  · exact heq.le

/-- What a leader has written is sound. -/
lemma lead_sound (hu : (s.elect u).isSome) : Sound P s (s.lead u) := by
  obtain ⟨_, hb⟩ := isSome_iff_exists.mp hu
  intro i entry hentry
  have hlen := (List.getElem?_eq_some_iff.mp hentry).1
  rcases h.lead_entry hb hentry with ⟨_, hold, -⟩ | ⟨-, rfl⟩
  · obtain ⟨helect, hagree⟩ := (h.ballot hb).sound i entry hold
    exact ⟨helect, hagree.left_mono (h.ballot_prefix hb)⟩
  · exact ⟨hu, Agree.refl hlen⟩

variable {t n : ℕ}

lemma commit_elected (hc : s.committed t n) :
    (s.elect t).isSome ∧ n ≤ (s.lead t).length := by
  obtain ⟨_, _, _, hrecord⟩ := h.commit hc
  exact ⟨hrecord.elected, hrecord.le.trans hrecord.within⟩

/-! ### Leader completeness -/

variable {log : List ε}

/-- The up-to-date test: a candidate that beats the log of a voter with the committed entries has
them too, if every leader in between has them. -/
lemma upToDate_agree {voter : List ε} (hlog : Sound P s log)
    (hterms : ∀ entry ∈ log, P.term entry < u) (hvoter : Sound P s voter) (hpos : 0 < n)
    (hcurrent : At (fun entry => P.term entry = t) (s.lead t) (n - 1))
    (hkept : Agree n (s.lead t) voter) (hup : UpToDate P log voter)
    (hbetween : ∀ w b, t < w → w < u → s.elect w = some b → Agree n (s.lead t) b.log) :
    Agree n (s.lead t) log := by
  have hvne : voter ≠ [] := by
    rintro rfl
    have := hkept.right_le
    simp at this
    omega
  -- the voter's last term is at least `t`
  have hvterm : t ≤ lastTerm P voter := by
    obtain ⟨helect, hagree⟩ := hvoter.last hvne
    obtain ⟨entry, hentry, hterm⟩ := hcurrent.of_agree hkept (by omega)
    have hlast := hagree.getElem_eq (i := n - 1) (by have := hkept.right_le; omega)
    rw [hentry] at hlast
    exact hterm ▸ h.lead_term_le helect hlast.symm
  have hne : log ≠ [] := by
    rintro rfl
    rcases hup with hlt | ⟨-, hlen⟩
    · simp [lastTerm] at hlt
    · have := length_pos_iff.mpr hvne
      simp at hlen
      exact hvne hlen
  obtain ⟨helect, hagree⟩ := hlog.last hne
  obtain ⟨entry, hentry, hterm⟩ := exists_last (P := P) hne
  have hle : t ≤ lastTerm P log := by
    rcases hup with hlt | ⟨heq, -⟩ <;> omega
  rcases hle.eq_or_lt with heq | hlt
  · -- same leader: the candidate's log is at least as long as the voter's
    have hlen : n ≤ log.length := by
      have := hkept.right_le
      rcases hup with hlt | ⟨-, hlen⟩ <;> omega
    rw [← heq] at hagree
    exact (hagree.mono hlen).symm
  · -- a later leader, who has the entries, and whose own entries come behind them
    obtain ⟨b, hb⟩ := isSome_iff_exists.mp helect
    have hw : lastTerm P log < u := hterm ▸ hterms entry (mem_of_getElem? hentry)
    have hbn := hbetween _ b hlt hw hb
    have hlast := hagree.getElem_eq (i := log.length - 1)
      (by have := length_pos_iff.mpr hne; omega)
    rw [hentry] at hlast
    have hlen : b.log.length ≤ log.length - 1 := by
      rcases h.lead_entry hb hlast.symm with ⟨-, -, _⟩ | ⟨hge, -⟩
      · omega
      · exact hge
    have hn := hbn.right_le
    exact (hbn.right_mono (h.ballot_prefix hb)).trans (hagree.mono (by omega)).symm

/-- Two membership entries of a sound log are the mark of a commit that covers the first. -/
lemma member_committed (hlog : Sound P s log) {j : ℕ} (hij : i < j) (hi : At P.IsMember log i)
    (hj : At P.IsMember log j) :
    ∃ t n entry, s.committed t n ∧ log[j]? = some entry ∧ t ≤ P.term entry ∧ i < n ∧
      Agree (i + 1) (s.lead t) log := by
  obtain ⟨entry, hentry, hmember⟩ := hj
  obtain ⟨helect, hagree⟩ := hlog j entry hentry
  have hlead : (s.lead (P.term entry))[j]? = some entry :=
    (hagree.getElem_eq (by omega)).symm.trans hentry
  obtain ⟨t, n, hc, ht, hn, hti⟩ := h.member helect hij (hi.of_agree hagree (by omega))
    ⟨entry, hlead, hmember⟩ ⟨entry, hlead, rfl⟩
  exact ⟨t, n, entry, hc, hentry, ht, hn, hti.trans (hagree.mono (by omega)).symm⟩

/-- Leader completeness for an election that may not be recorded, if its voters kept what was
committed until they voted. -/
lemma complete_of_kept (hb : IsBallot P s u b)
    (hkept : ∀ v ∈ b.voters, ∀ c log t n, s.vote v u = some (c, log) → s.committed t n →
      s.ack v t n → t < u → Kept s t n u log)
    (hc : s.committed t n) (ht : t < u) : Agree n (s.lead t) b.log := by
  induction u using Nat.strong_induction_on generalizing b t n with
  | _ u ihu =>
  -- elections before `u` are complete
  have elected : ∀ {w b' t' n'}, w < u → s.elect w = some b' → s.committed t' n' → t' < w →
      Agree n' (s.lead t') b'.log := fun hw hb' hc' ht' =>
    ihu _ hw (h.ballot hb') (fun _ hv _ _ _ _ hvote _ hack htw =>
      h.ballot_kept hb' hv hvote hack htw) hc' ht'
  have leads : ∀ {w t' n'}, w < u → (s.elect w).isSome → s.committed t' n' → t' ≤ w →
      Agree n' (s.lead t') (s.lead w) := by
    intro w _ _ hw hsome hc' ht'
    rcases ht'.eq_or_lt with rfl | hlt
    · exact Agree.refl (h.commit_elected hc').2
    · obtain ⟨b', hb'⟩ := isSome_iff_exists.mp hsome
      exact (elected hw hb' hc' hlt).right_mono (h.ballot_prefix hb')
  -- induction over the commits, by term and then by length
  induction t using Nat.strong_induction_on generalizing n with
  | _ t iht =>
  induction n using Nat.strong_induction_on with
  | _ n ihn =>
  by_contra hmissing
  obtain ⟨m, _, _, hrecord⟩ := h.commit hc
  have hearlier : ∀ {t₀ n₀}, s.committed t₀ n₀ → (t₀ < t ∨ t₀ = t ∧ n₀ < n) →
      Agree n₀ (s.lead t₀) b.log := by
    rintro t₀ n₀ hc₀ (hlt | ⟨rfl, hlt⟩)
    · exact iht t₀ hlt hc₀ (hlt.trans ht)
    · exact ihn n₀ hlt hc₀
  obtain ⟨d, hd, hmax⟩ := exists_agree_max b.log ((s.lead t).take m)
  have hnotall : ¬ Agree m b.log (s.lead t) := fun hall =>
    hmissing (hall.symm.mono hrecord.le)
  -- the two logs cannot share a prefix longer than `d`
  have hshort : ∀ k, d < k → ¬ Agree k b.log (s.lead t) := by
    intro k _ hagree
    rcases le_or_gt k m with hkm | hkm
    · have := hmax k (hagree.take_right hkm)
      omega
    · exact hnotall (hagree.mono hkm.le)
  have hleft : ∀ i j, d ≤ i → i < j → At P.IsMember b.log i → ¬ At P.IsMember b.log j := by
    intro i j hdi hij hi hj
    obtain ⟨t₁, _, entry, hc₁, hentry, ht₁, _, hagree₁⟩ := h.member_committed hb.sound hij hi hj
    have hu₁ : t₁ < u := ht₁.trans_lt (hb.terms entry (mem_of_getElem? hentry))
    refine hshort (i + 1) (by omega) ?_
    rcases le_or_gt t₁ t with hle | hlt
    · exact hagree₁.symm.trans ((leads ht hrecord.elected hc₁ hle).mono (by omega))
    · have hlead := leads hu₁ (h.commit_elected hc₁).1 hc hlt.le
      rcases le_or_gt n (i + 1) with hni | hni
      · exact absurd (hlead.trans (hagree₁.mono hni)) hmissing
      · exact hagree₁.symm.trans (hlead.mono hni.le).symm
  have hright : ∀ i j, d ≤ i → i < j → At P.IsMember ((s.lead t).take m) i →
      ¬ At P.IsMember ((s.lead t).take m) j := by
    intro i _ _ hij hi hj
    have hic := P.committed_of_lt hrecord.valid hi hj hij
    rcases hrecord.before with rfl | ⟨_, _, hc₀, hbefore, _, hagree₀⟩
    · omega
    · refine hshort (i + 1) (by omega) ?_
      exact ((hearlier hc₀ hbefore).mono (by omega)).symm.trans (hagree₀.mono (by omega))
  obtain ⟨v, hv, hvA⟩ := P.meet hb.valid hrecord.valid hd hleft hright hb.quorum hrecord.quorum
  obtain ⟨voter, hvote, hup⟩ := hb.votes v hv
  rcases hkept v hv _ voter t n hvote hc (hrecord.acks v hvA) ht with
    hagree | ⟨w, b', htw, hwu, hb', hlost⟩
  · exact hmissing (h.upToDate_agree hb.sound hb.terms (h.vote_sound hvote) hrecord.pos
      hrecord.current hagree hup fun _ _ htw hwu hb' => elected hwu hb' hc htw)
  · exact hlost (elected hwu hb' hc htw)

/-- **Leader completeness**: whatever was committed in an earlier term is in the log with which a
leader was elected. -/
theorem leader_completeness (hb : s.elect u = some b) (hc : s.committed t n) (ht : t < u) :
    Agree n (s.lead t) b.log :=
  h.complete_of_kept (h.ballot hb) (fun _ hv _ _ _ _ hvote _ hack htu =>
    h.ballot_kept hb hv hvote hack htu) hc ht

/-- Everything committed up to a term is in the log of its leader. -/
lemma committed_in_lead (hu : (s.elect u).isSome) (hc : s.committed t n) (ht : t ≤ u) :
    Agree n (s.lead t) (s.lead u) := by
  rcases ht.eq_or_lt with rfl | hlt
  · exact Agree.refl (h.commit_elected hc).2
  · obtain ⟨_, hb⟩ := isSome_iff_exists.mp hu
    exact (h.leader_completeness hb hc hlt).right_mono (h.ballot_prefix hb)

/-- **Commits agree** as far as both reach. -/
theorem commits_agree {t' n' k : ℕ} (hc : s.committed t n) (hc' : s.committed t' n') (hk : k ≤ n)
    (hk' : k ≤ n') : Agree k (s.lead t) (s.lead t') := by
  rcases Nat.le_total t t' with hle | hle
  · exact (h.committed_in_lead (h.commit_elected hc').1 hc hle).mono hk
  · exact ((h.committed_in_lead (h.commit_elected hc).1 hc' hle).mono hk').symm

/-- **Election safety**: an election of a term that has a leader has the same winner. -/
theorem election_safety {b' : Ballot ν ε} (hb : s.elect u = some b) (hb' : IsBallot P s u b') :
    b.winner = b'.winner := by
  -- the new election is complete too: what its voters may have lost they lost to the leader of
  -- this term, who has everything committed
  have hcomplete : ∀ {t n}, s.committed t n → t < u → Agree n (s.lead t) b'.log := by
    refine fun hc ht => h.complete_of_kept hb' ?_ hc ht
    intro v hv _ log t n hvote hcommit hack htu
    rcases h.vote_kept hvote hack htu with hagree | ⟨w, bw, htw, _, hbw, hlost⟩
    · exact .inl hagree
    · refine .inr ⟨w, bw, htw, lt_of_le_of_ne (by omega) ?_, hbw, hlost⟩
      rintro rfl
      exact hlost (h.leader_completeness hbw hcommit htw)
  obtain ⟨_, hd, hmax⟩ := exists_agree_max b.log b'.log
  have hmembers : ∀ {x y : Ballot ν ε}, IsBallot P s u x →
      (∀ {t n}, s.committed t n → t < u → Agree n (s.lead t) y.log) →
      ∀ i j, i < j → At P.IsMember x.log i → At P.IsMember x.log j → Agree (i + 1) x.log y.log := by
    intro _ _ hx hy i j hij hi hj
    obtain ⟨t, _, entry, hc, hentry, ht, _, hagree⟩ := h.member_committed hx.sound hij hi hj
    have htu : t < u := ht.trans_lt (hx.terms entry (mem_of_getElem? hentry))
    exact hagree.symm.trans ((hy hc htu).mono (by omega))
  obtain ⟨v, hv, hv'⟩ := P.meet (h.ballot hb).valid hb'.valid hd
    (fun i j _ hij hi hj => by
      have := hmax _ (hmembers (h.ballot hb) hcomplete i j hij hi hj)
      omega)
    (fun i j _ hij hi hj => by
      have := hmax _ (hmembers hb' (h.leader_completeness hb) i j hij hi hj).symm
      omega)
    (h.ballot hb).quorum hb'.quorum
  obtain ⟨_, hvote, -⟩ := (h.ballot hb).votes v hv
  obtain ⟨_, hvote', -⟩ := hb'.votes v hv'
  rw [hvote, some.injEq, Prod.mk.injEq] at hvote'
  exact hvote'.1

/-- The winner of an election campaigned in it. -/
lemma winner_camp (hb : s.elect u = some b) :
    (s.camp b.winner u).isSome := by
  have hballot := h.ballot hb
  -- a quorum is not empty, since it meets itself
  obtain ⟨v, hv, -⟩ := P.meet hballot.valid hballot.valid (Agree.refl le_rfl)
    (fun _ _ _ _ _ hj => by have := hj.lt; omega)
    (fun _ _ _ _ _ hj => by have := hj.lt; omega) hballot.quorum hballot.quorum
  obtain ⟨_, hvote, -⟩ := hballot.votes v hv
  obtain ⟨_, hcamp, -⟩ := h.vote_camp hvote
  rw [hcamp]
  rfl

lemma winner_term (hb : s.elect u = some b) : u ≤ s.term b.winner := by
  obtain ⟨_, hlog⟩ := isSome_iff_exists.mp (h.winner_camp hb)
  exact h.camp_term hlog

end Inv

end Chronos.Consensus
