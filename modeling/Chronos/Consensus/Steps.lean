import Mathlib.Logic.Relation
import Chronos.Consensus.Machine

/-!
The steps of a system of replicated logs.

* `Knows`, `KnowsLog`: the first `c` entries may be taken for committed; with the
  second they stand in a given log.  `KnowsLog.agree` is state-machine safety.
* `Inv.commit_le_read_index`: what a leader with a quorum behind it may read.
* `Step`: a node moves to a later term, campaigns, grants its vote, wins, writes,
  adopts the log of a leader, or commits; `Inv.step`.
* `ByNode`: what the steps of one node leave alone; `Steps.spec`.
-/

namespace Chronos.Consensus

open Function

variable {ν ε : Type*} {P : Configuration ν ε} {s s' : System ν ε}

/-! ### The empty history -/

/-- No node has done anything. -/
def System.empty : System ν ε where
  term _ := 0
  log _ := []
  camp _ _ := none
  vote _ _ := none
  elect _ := none
  lead _ := []
  ack _ _ _ := False
  committed _ _ := False

lemma inv_empty : Inv P (System.empty : System ν ε) where
  log_sound v i entry h := by simp [System.empty] at h
  log_term v entry h := by simp [System.empty] at h
  camp_term h := by simp [System.empty] at h
  camp_sound h := by simp [System.empty] at h
  vote_term h := by simp [System.empty] at h
  vote_sound h := by simp [System.empty] at h
  vote_camp h := by simp [System.empty] at h
  vote_kept h := by simp [System.empty] at h
  ballot h := by simp [System.empty] at h
  ballot_kept h := by simp [System.empty] at h
  lead_eq h := by simp [System.empty] at h
  ack_term h := h.elim
  ack_elected h := h.elim
  ack_kept h := h.elim
  commit h := h.elim
  member h := by simp [System.empty] at h

/-! ### Committed prefixes -/

/-- The first `c` entries of a log are committed in term `u` or before. -/
def KnowsLog (s : System ν ε) (u c : ℕ) (log : List ε) : Prop :=
  c = 0 ∨ ∃ t n, s.committed t n ∧ t ≤ u ∧ c ≤ n ∧ Agree c (s.lead t) log

section Knows

variable {u u' c c' k : ℕ} {log log' : List ε}

lemma Knows.grow (g : Grows s s') (h : Knows s u c) : Knows s' u c := by
  rcases h with h0 | ⟨t, n, hc, ht, hn⟩
  · exact .inl h0
  · exact .inr ⟨t, n, g.committed hc, ht, hn⟩

lemma Knows.mono (h : Knows s u c) (hu : u ≤ u') (hc : c' ≤ c) : Knows s u' c' := by
  rcases h with _ | ⟨t, n, hcommit, ht, hn⟩
  · exact .inl (by omega)
  · exact .inr ⟨t, n, hcommit, ht.trans hu, hc.trans hn⟩

namespace KnowsLog

lemma mono (h : KnowsLog s u c log) (hu : u ≤ u') (hc : c' ≤ c) : KnowsLog s u' c' log := by
  rcases h with _ | ⟨t, n, hcommit, ht, hn, hagree⟩
  · exact .inl (by omega)
  · exact .inr ⟨t, n, hcommit, ht.trans hu, hc.trans hn, hagree.mono hc⟩

lemma of_agree (h : KnowsLog s u c log) (hagree : Agree c log log') : KnowsLog s u c log' := by
  rcases h with h0 | ⟨t, n, hcommit, ht, hn, hlog⟩
  · exact .inl h0
  · exact .inr ⟨t, n, hcommit, ht, hn, hlog.trans hagree⟩

section

variable (hinv : Inv P s)
include hinv

lemma grow (g : Grows s s') (h : KnowsLog s u c log) : KnowsLog s' u c log := by
  rcases h with h0 | ⟨t, n, hcommit, ht, hn, hagree⟩
  · exact .inl h0
  · exact .inr ⟨t, n, g.committed hcommit, ht, hn,
      hagree.left_mono (g.lead (hinv.commit_elected hcommit).1)⟩

/-- The leader of a term has all that is known to be committed then. -/
lemma of_knows (hu : (s.elect u).isSome) (h : Knows s u c) :
    KnowsLog s u c (s.lead u) := by
  rcases hinv.knows_agree hu h with h0 | ⟨t, n, hcommit, ht, hn, hagree⟩
  · exact .inl h0
  · exact .inr ⟨t, n, hcommit, ht, hn, hagree⟩

lemma agree_lead (hu : (s.elect u).isSome) (h : KnowsLog s u c log) :
    c = 0 ∨ Agree c (s.lead u) log := by
  rcases h with h0 | ⟨_, _, hcommit, ht, hn, hagree⟩
  · exact .inl h0
  · exact .inr (((hinv.committed_in_lead hu hcommit ht).mono hn).symm.trans hagree)

/-- **State-machine safety**: two logs agree on what is committed in both. -/
lemma agree (h : KnowsLog s u c log) (h' : KnowsLog s u' c' log') (hk : k ≤ c) (hk' : k ≤ c') :
    Agree k log log' := by
  rcases h with rfl | ⟨_, _, hcommit, -, hn, hagree⟩
  · obtain rfl : k = 0 := by omega
    exact Agree.zero _ _
  rcases h' with rfl | ⟨_, _, hcommit', -, hn', hagree'⟩
  · obtain rfl : k = 0 := by omega
    exact Agree.zero _ _
  exact ((hagree.mono hk).symm.trans (hinv.commits_agree hcommit hcommit' (hk.trans hn)
    (hk'.trans hn'))).trans (hagree'.mono hk')

/-- A committed prefix survives when a node adopts entries of its leader. -/
lemma adopted {v : ν} {t p : ℕ} (ht : (s.elect t).isSome) (h : KnowsLog s t c (s.log v)) :
    KnowsLog s t c (s.adopted v t p) := by
  unfold System.adopted
  split
  · exact h
  · rename_i hne
    rcases h.agree_lead hinv ht with h0 | hagree
    · exact .inl h0
    · have hcp : c ≤ p := by
        by_contra hlt
        exact hne (hagree.mono (by omega))
      exact h.of_agree (hagree.symm.take_right hcp)

end

end KnowsLog

end Knows

/-! ### Reading -/

section Read

variable (h : Inv P s) {u r : ℕ} {b : Ballot ν ε} {Q : Set ν} (hb : s.elect u = some b)
  (hcurrent : At (fun entry => P.term entry = u) (s.lead u) (r - 1)) (hpos : 0 < r)
  (hown : ∀ n, s.committed u n → n ≤ r)
include h hb hcurrent hpos hown

/-- A leader that has committed an entry of its term has all the commits of earlier terms. -/
lemma Inv.earlier_commit_le {t n : ℕ} (hc : s.committed t n) (ht : t ≤ u) : n ≤ r := by
  rcases ht.eq_or_lt with rfl | hlt
  · exact hown n hc
  · obtain ⟨_, hentry, _⟩ := hcurrent
    have hle := (h.leader_completeness hb hc hlt).right_le
    rcases h.lead_entry hb hentry with ⟨-, -, _⟩ | ⟨_, -⟩
    · omega
    · omega

section

variable (hknows : Knows s u r) (hvalid : P.Valid (s.lead u) r) (hquorum : P.Quorum (s.lead u) r Q)
  (hQ : ∀ v ∈ Q, s.term v ≤ u)
include hknows hvalid hquorum hQ

/-- No later leader is elected while a quorum has not left the term of this one. -/
lemma Inv.elect_eq_none_of_quorum (w : ℕ) (hw : u < w) :
    s.elect w = none := by
  induction w using Nat.strong_induction_on with
  | _ w ih =>
  cases hb' : s.elect w with
  | none => rfl
  | some b' =>
    have hballot := h.ballot hb'
    -- the next leader after this one has what this one has committed
    have hagree : Agree r (s.lead u) b'.log := by
      rcases hknows with _ | ⟨t, n, hc, ht, hn⟩
      · omega
      · exact ((h.committed_in_lead (by rw [hb]; rfl) hc ht).mono hn).symm.trans
          ((h.leader_completeness hb' hc (ht.trans_lt hw)).mono hn)
    obtain ⟨v, hv, hv'⟩ := P.meet hvalid hballot.valid hagree
      (fun i j hi hij hmi hmj => by
        have := P.committed_of_lt hvalid hmi hmj hij
        omega)
      (fun i j hi hij hmi hmj => by
        obtain ⟨t, _, entry, hc, hentry, ht, _, -⟩ :=
          h.member_committed hballot.sound hij hmi hmj
        have htw := ht.trans_lt (hballot.terms entry (List.mem_of_getElem? hentry))
        rcases Nat.lt_or_ge u t with hlt | hge
        · have helect := (h.commit_elected hc).1
          rw [ih t htw hlt] at helect
          cases helect
        · have := h.earlier_commit_le hb hcurrent hpos hown hc hge
          omega)
      hquorum hballot.quorum
    obtain ⟨_, hvote, -⟩ := hballot.votes v hv'
    have := h.vote_term hvote
    have := hQ v hv
    omega

/-- **Read index**: while a quorum has not left the term of a leader that has committed an entry of
its term, no leader has committed more. -/
theorem Inv.commit_le_read_index {t n : ℕ} (hc : s.committed t n) : n ≤ r := by
  rcases Nat.lt_or_ge u t with hlt | hge
  · have helect := (h.commit_elected hc).1
    rw [h.elect_eq_none_of_quorum hb hcurrent hpos hown hknows hvalid hquorum hQ t hlt] at helect
    cases helect
  · exact h.earlier_commit_le hb hcurrent hpos hown hc hge

end

end Read

/-! ### What a node's steps leave alone -/

/-- The history grows from `s` to `s'`, and what it says about nodes other than `v`, and about
their terms as leaders, stays as it was. -/
structure ByNode (v : ν) (s s' : System ν ε) : Prop where
  grows : Grows s s'
  log : ∀ w, w ≠ v → s'.log w = s.log w
  term : ∀ w, w ≠ v → s'.term w = s.term w
  vote : ∀ w, w ≠ v → s'.vote w = s.vote w
  elect : ∀ {u b}, s'.elect u = some b → s.elect u = some b ∨ b.winner = v
  lead : ∀ {u b}, s.elect u = some b → b.winner ≠ v → s'.lead u = s.lead u
  committed : ∀ {u b n}, s.elect u = some b → b.winner ≠ v → s'.committed u n → s.committed u n

lemma ByNode.refl (v : ν) (s : System ν ε) : ByNode v s s where
  grows := .refl s
  log _ _ := rfl
  term _ _ := rfl
  vote _ _ := rfl
  elect h := .inl h
  lead _ _ := rfl
  committed _ _ h := h

variable {s'' : System ν ε} {v : ν}

lemma ByNode.trans (h : ByNode v s s') (h' : ByNode v s' s'') : ByNode v s s'' where
  grows := h.grows.trans h'.grows
  log w hw := (h'.log w hw).trans (h.log w hw)
  term w hw := (h'.term w hw).trans (h.term w hw)
  vote w hw := (h'.vote w hw).trans (h.vote w hw)
  elect hb := (h'.elect hb).elim h.elect .inr
  lead hb hw := (h'.lead (h.grows.elect hb) hw).trans (h.lead hb hw)
  committed hb hw hc := h.committed hb hw (h'.committed (h.grows.elect hb) hw hc)

/-! ### Steps -/

variable [DecidableEq ν]

variable (P) in
/-- **One step of a system**, made by node `v`. -/
inductive Step (v : ν) (s : System ν ε) : System ν ε → Prop where
  | tick (t : ℕ) (later : s.term v ≤ t) : Step v s (s.tick v t)
  | campaign (u : ℕ) (later : s.term v < u) : Step v s (s.campaign v u)
  | grant (u : ℕ) (c : ν) (log : List ε) (current : s.term v = u) (free : s.vote v u = none)
      (camp : s.camp c u = some log) (upToDate : UpToDate P log (s.log v)) :
      Step v s (s.grant v u c)
  | win (u : ℕ) (b : Ballot ν ε) (winner : b.winner = v) (free : s.elect u = none)
      (camp : s.camp b.winner u = some b.log) (valid : P.Valid b.log b.commit)
      (quorum : P.Quorum b.log b.commit b.voters)
      (votes : ∀ w ∈ b.voters, ∃ log, s.vote w u = some (b.winner, log)) : Step v s (s.win u b)
  | write (u : ℕ) (b : Ballot ν ε) (entry : ε) (elected : s.elect u = some b)
      (winner : b.winner = v) (current : s.term v = u) (log : s.log v = s.lead u)
      (term : P.term entry = u)
      (member : P.IsMember entry → ∃ c, P.Valid (s.lead u ++ [entry]) c ∧ Knows s u c) :
      Step v s (s.write u v entry)
  | adopt (t p : ℕ) (elected : (s.elect t).isSome) (current : s.term v = t)
      (within : p ≤ (s.lead t).length) : Step v s (s.adopt v t p)
  | commit (t n m c : ℕ) (A : Set ν) (b : Ballot ν ε) (elected : s.elect t = some b)
      (winner : b.winner = v) (record : IsCommit P s t n m c A) : Step v s (s.commit t n)

lemma Step.byNode (h : Inv P s) (hstep : Step P v s s') : ByNode v s s' := by
  cases hstep with
  | tick t later =>
    exact { ByNode.refl v s with
      grows := .tick later
      term := fun w hw => update_of_ne hw _ _ }
  | campaign u later =>
    exact { ByNode.refl v s with
      grows := .campaign h later
      term := fun w hw => update_of_ne hw _ _
      vote := fun w hw => update_of_ne hw _ _ }
  | grant u c log current free =>
    exact { ByNode.refl v s with
      grows := .grant free
      vote := fun w hw => update_of_ne hw _ _ }
  | win u b winner free =>
    refine { ByNode.refl v s with
      grows := .win free
      elect := fun {u' b'} hb => ?_
      lead := fun {u' b'} hb hne => ?_ }
    · by_cases hu : u' = u
      · subst hu
        simp only [System.win, update_self, Option.some.injEq] at hb
        exact .inr (hb ▸ winner)
      · exact .inl (by simpa [System.win, update_of_ne hu] using hb)
    · have hu : u' ≠ u := by rintro rfl; rw [free] at hb; cases hb
      exact update_of_ne hu _ _
  | write u b entry elected winner =>
    refine { ByNode.refl v s with
      grows := .write u v entry
      log := fun w hw => update_of_ne hw _ _
      lead := fun {u' b'} hb hne => ?_ }
    have hu : u' ≠ u := by
      rintro rfl
      rw [elected, Option.some.injEq] at hb
      exact hne (hb ▸ winner)
    exact update_of_ne hu _ _
  | adopt t p =>
    exact { ByNode.refl v s with
      grows := .adopt v t p
      log := fun w hw => update_of_ne hw _ _ }
  | commit t n m c A b elected winner =>
    refine { ByNode.refl v s with
      grows := .commit t n
      committed := fun {u' b' n'} hb hne hc => ?_ }
    rcases hc with hold | ⟨rfl, -⟩
    · exact hold
    · rw [elected, Option.some.injEq] at hb
      exact absurd (hb ▸ winner) hne

/-- **Every step keeps the invariant.** -/
theorem Inv.step (h : Inv P s) (hstep : Step P v s s') : Inv P s' := by
  cases hstep with
  | tick t later => exact h.tick later
  | campaign u later => exact h.campaign later
  | grant u c log current free camp upToDate => exact h.grant current free camp upToDate
  | win u b winner free camp valid quorum votes => exact h.win free camp valid quorum votes
  | write u b entry elected winner current log term member =>
    exact h.write (Option.isSome_iff_exists.mpr ⟨b, elected⟩) current log term member
  | adopt t p elected current within => exact h.adopt elected current within
  | commit t n m c A b elected winner record => exact h.commit_step record

variable (P) in
/-- Any number of steps of node `v`. -/
def Steps (v : ν) : System ν ε → System ν ε → Prop := Relation.ReflTransGen (Step P v)

lemma Steps.refl (v : ν) (s : System ν ε) : Steps P v s s := Relation.ReflTransGen.refl

lemma Steps.tail (h : Steps P v s s') (h' : Step P v s' s'') :
    Steps P v s s'' := Relation.ReflTransGen.tail h h'

lemma Steps.trans (h : Steps P v s s') (h' : Steps P v s' s'') :
    Steps P v s s'' := Relation.ReflTransGen.trans h h'

lemma Steps.spec (hsteps : Steps P v s s') (h : Inv P s) : Inv P s' ∧ ByNode v s s' := by
  induction hsteps with
  | refl => exact ⟨h, .refl v s⟩
  | tail _ hstep ih => exact ⟨ih.1.step hstep, ih.2.trans (hstep.byNode ih.1)⟩

end Chronos.Consensus
