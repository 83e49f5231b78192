import Mathlib.Logic.Function.Basic
import Chronos.Consensus.History

/-!
The updates of a system of replicated logs, and that they keep the invariant.

* `Grows`: history is only ever extended.  What the invariant says about a log, a
  ballot or a commit survives growth (`Sound.grow`, `IsBallot.grow`,
  `IsCommit.grow`, `Kept.grow`).
* `System.tick`, `System.campaign`, `System.grant`, `System.win`, `System.write`,
  `System.adopt`, `System.commit`: what a node can do; for each one a lemma of
  `Grows` and one of `Inv`.
-/

namespace Chronos.Consensus

open Function List Option

variable {ν ε : Type*} {P : Configuration ν ε}

/-! ### Growth -/

/-- The history of `s'` extends that of `s`. -/
structure Grows (s s' : System ν ε) : Prop where
  term : ∀ v, s.term v ≤ s'.term v
  camp : ∀ {v u log}, s.camp v u = some log → s'.camp v u = some log
  vote : ∀ {v u x}, s.vote v u = some x → s'.vote v u = some x
  elect : ∀ {u b}, s.elect u = some b → s'.elect u = some b
  lead : ∀ {u}, (s.elect u).isSome → s.lead u <+: s'.lead u
  ack : ∀ {v t n}, s.ack v t n → s'.ack v t n
  committed : ∀ {t n}, s.committed t n → s'.committed t n

namespace Grows

variable {s s' s'' : System ν ε}

lemma refl (s : System ν ε) : Grows s s where
  term _ := le_rfl
  camp h := h
  vote h := h
  elect h := h
  lead _ := prefix_rfl
  ack h := h
  committed h := h

lemma elect_isSome (g : Grows s s') {u : ℕ} (h : (s.elect u).isSome) : (s'.elect u).isSome := by
  obtain ⟨b, hb⟩ := isSome_iff_exists.mp h
  exact isSome_iff_exists.mpr ⟨b, g.elect hb⟩

lemma trans (g : Grows s s') (g' : Grows s' s'') : Grows s s'' where
  term v := (g.term v).trans (g'.term v)
  camp h := g'.camp (g.camp h)
  vote h := g'.vote (g.vote h)
  elect h := g'.elect (g.elect h)
  lead h := (g.lead h).trans (g'.lead (g.elect_isSome h))
  ack h := g'.ack (g.ack h)
  committed h := g'.committed (g.committed h)

/-- What has been written stays. -/
lemma lead_agree (g : Grows s s') {u k : ℕ} (hu : (s.elect u).isSome)
    (hk : k ≤ (s.lead u).length) : Agree k (s.lead u) (s'.lead u) :=
  (Agree.of_extends (g.lead hu)).mono hk

end Grows

section Grow

variable {s s' : System ν ε} (g : Grows s s')
include g

lemma Sound.grow {log : List ε} (h : Sound P s log) : Sound P s' log := by
  intro i entry hentry
  obtain ⟨helect, hagree⟩ := h i entry hentry
  exact ⟨g.elect_isSome helect, hagree.right_mono (g.lead helect)⟩

lemma IsBallot.grow {u : ℕ} {b : Ballot ν ε} (h : IsBallot P s u b) : IsBallot P s' u b where
  __ := h
  sound := h.sound.grow g
  votes v hv := by
    obtain ⟨log, hvote, hup⟩ := h.votes v hv
    exact ⟨log, g.vote hvote, hup⟩

lemma Kept.grow {t n u : ℕ} {log : List ε} (hn : (s.elect t).isSome ∧ n ≤ (s.lead t).length)
    (h : Kept s t n u log) : Kept s' t n u log := by
  rcases h with hagree | ⟨w, b, htw, hwu, hb, hlost⟩
  · exact .inl (hagree.left_mono (g.lead hn.1))
  · exact .inr ⟨w, b, htw, hwu, g.elect hb, fun hagree =>
      hlost ((g.lead_agree hn.1 hn.2).trans hagree)⟩

lemma IsCommit.grow {t n m c : ℕ} {A : Set ν} (h : IsCommit P s t n m c A)
    (hs : ∀ {t n}, s.committed t n → (s.elect t).isSome ∧ n ≤ (s.lead t).length) :
    IsCommit P s' t n m c A := by
  have htake : (s'.lead t).take m = (s.lead t).take m :=
    (g.lead_agree h.elected h.within).take_eq.symm
  refine
    { elected := g.elect_isSome h.elected
      le := h.le
      within := h.within.trans (g.lead h.elected).length_le
      pos := h.pos
      current := ?_
      valid := htake ▸ h.valid
      quorum := htake ▸ h.quorum
      acks := fun v hv => g.ack (h.acks v hv)
      before := ?_ }
  · exact h.current.of_agree (g.lead_agree h.elected le_rfl) h.current.lt
  · rcases h.before with h0 | ⟨t₀, n₀, hc₀, hlt, hcn, hagree⟩
    · exact .inl h0
    · exact .inr ⟨t₀, n₀, g.committed hc₀, hlt, hcn,
        (hagree.left_mono (g.lead (hs hc₀).1)).right_mono (g.lead h.elected)⟩

end Grow

lemma Kept.mono {s : System ν ε} {t n u u' : ℕ} {log : List ε} (h : Kept s t n u log)
    (hu : u ≤ u') : Kept s t n u' log := by
  rcases h with hagree | ⟨w, b, htw, hwu, hb, hlost⟩
  · exact .inl hagree
  · exact .inr ⟨w, b, htw, hwu.trans_le hu, hb, hlost⟩

lemma Sound.take {s : System ν ε} {log : List ε} (h : Sound P s log) (k : ℕ) :
    Sound P s (log.take k) := by
  intro i entry hentry
  rw [getElem?_take] at hentry
  split at hentry
  · obtain ⟨helect, hagree⟩ := h i entry hentry
    exact ⟨helect, (hagree.symm.take_right (by omega)).symm⟩
  · cases hentry

/-! ### The steps -/

variable [DecidableEq ν]

namespace System

/-- A node moves to a later term. -/
def tick (s : System ν ε) (v : ν) (t : ℕ) : System ν ε :=
  { s with term := Function.update s.term v t }

/-- A node campaigns in a later term and votes for itself. -/
def campaign (s : System ν ε) (v : ν) (u : ℕ) : System ν ε :=
  { s with
    term := Function.update s.term v u
    camp := Function.update s.camp v (Function.update (s.camp v) u (some (s.log v)))
    vote := Function.update s.vote v (Function.update (s.vote v) u (some (v, s.log v))) }

/-- A node stands in term `u` with its log. -/
def stand (s : System ν ε) (v : ν) (u : ℕ) : System ν ε :=
  { s with camp := Function.update s.camp v (Function.update (s.camp v) u (some (s.log v))) }

/-- A node grants its vote of term `u`. -/
def grant (s : System ν ε) (v : ν) (u : ℕ) (c : ν) : System ν ε :=
  { s with vote := Function.update s.vote v (Function.update (s.vote v) u (some (c, s.log v))) }

/-- A candidate wins the election of term `u`. -/
def win (s : System ν ε) (u : ℕ) (b : Ballot ν ε) : System ν ε :=
  { s with
    elect := Function.update s.elect u (some b)
    lead := Function.update s.lead u b.log }

/-- The leader of term `u` writes an entry. -/
def write (s : System ν ε) (u : ℕ) (v : ν) (entry : ε) : System ν ε :=
  { s with
    lead := Function.update s.lead u (s.lead u ++ [entry])
    log := Function.update s.log v (s.lead u ++ [entry]) }

open Classical in
/-- The log of a node that takes over the first `p` entries of a leader. -/
noncomputable def adopted (s : System ν ε) (v : ν) (t p : ℕ) : List ε :=
  if Agree p (s.lead t) (s.log v) then s.log v else (s.lead t).take p

/-- A node takes over, and acknowledges, the first `p` entries of the leader of its term. -/
noncomputable def adopt (s : System ν ε) (v : ν) (t p : ℕ) : System ν ε :=
  { s with
    log := Function.update s.log v (s.adopted v t p)
    ack := fun w t' n => s.ack w t' n ∨ w = v ∧ t' = t ∧ n ≤ p }

/-- The leader of term `t` commits its first `n` entries. -/
def commit (s : System ν ε) (t n : ℕ) : System ν ε :=
  { s with committed := fun t' n' => s.committed t' n' ∨ t' = t ∧ n' = n }

end System

/-- The first `c` entries may be taken for committed in term `u`. -/
def Knows (s : System ν ε) (u c : ℕ) : Prop :=
  c = 0 ∨ ∃ t n, s.committed t n ∧ t ≤ u ∧ c ≤ n

/-! ### The updates extend the history -/

section Update

variable {α β : Type*} [DecidableEq α] {f : ν → α → Option β} {v w : ν} {u u' : α} {x y : β}

lemma update₂_apply : Function.update f v (Function.update (f v) u (some x)) w u' =
    if w = v ∧ u' = u then some x else f w u' := by
  by_cases hw : w = v
  · subst hw
    simp [update_apply]
  · simp [hw]

/-- A value of a doubly updated function is the new one or an old one. -/
lemma update₂_eq_some
    (h : Function.update f v (Function.update (f v) u (some x)) w u' = some y) :
    w = v ∧ u' = u ∧ y = x ∨ f w u' = some y := by
  rw [update₂_apply] at h
  split_ifs at h with hplace
  · exact .inl ⟨hplace.1, hplace.2, (some.inj h).symm⟩
  · exact .inr h

/-- A double update at a free place keeps all values. -/
lemma update₂_of_some (hfree : f v u = none) (h : f w u' = some y) :
    Function.update f v (Function.update (f v) u (some x)) w u' = some y := by
  rw [update₂_apply, if_neg, h]
  rintro ⟨rfl, rfl⟩
  cases hfree.symm.trans h

end Update

variable {s s' : System ν ε} {v : ν}

lemma term_le_update {t : ℕ} (ht : s.term v ≤ t) (w : ν) :
    s.term w ≤ Function.update s.term v t w := by
  by_cases hw : w = v
  · subst hw
    rwa [update_self]
  · rw [update_of_ne hw]

omit [DecidableEq ν] in
lemma camp_eq_none (h : Inv P s) {u : ℕ} (hu : s.term v < u) : s.camp v u = none := by
  cases hc : s.camp v u with
  | none => rfl
  | some log => have := h.camp_term hc; omega

omit [DecidableEq ν] in
lemma vote_eq_none (h : Inv P s) {u : ℕ} (hu : s.term v < u) : s.vote v u = none := by
  cases hc : s.vote v u with
  | none => rfl
  | some x => have := h.vote_term hc; omega

lemma Grows.tick {t : ℕ} (ht : s.term v ≤ t) : Grows s (s.tick v t) :=
  { Grows.refl s with term := term_le_update ht }

lemma Grows.campaign (h : Inv P s) {u : ℕ} (hu : s.term v < u) : Grows s (s.campaign v u) :=
  { Grows.refl s with
    term := term_le_update hu.le
    camp := update₂_of_some (camp_eq_none h hu)
    vote := update₂_of_some (vote_eq_none h hu) }

lemma Grows.grant {v c : ν} {u : ℕ} (hfree : s.vote v u = none) : Grows s (s.grant v u c) :=
  { Grows.refl s with vote := update₂_of_some hfree }

omit [DecidableEq ν] in
lemma Grows.win {u : ℕ} {b : Ballot ν ε} (hfree : s.elect u = none) : Grows s (s.win u b) := by
  refine { Grows.refl s with elect := fun {u' b'} hb => ?_, lead := fun {u'} hsome => ?_ }
  · have hne : u' ≠ u := by rintro rfl; rw [hfree] at hb; cases hb
    exact (Function.update_of_ne hne _ _).trans hb
  · have hne : u' ≠ u := by rintro rfl; rw [hfree] at hsome; cases hsome
    simp only [System.win, Function.update_of_ne hne]
    exact List.prefix_rfl

lemma Grows.write (u : ℕ) (v : ν) (entry : ε) : Grows s (s.write u v entry) := by
  refine { Grows.refl s with lead := fun {u'} _ => ?_ }
  by_cases hu : u' = u
  · subst hu
    simp [System.write]
  · simp only [System.write, update_of_ne hu]
    exact prefix_rfl

lemma Grows.adopt (v : ν) (t p : ℕ) : Grows s (s.adopt v t p) :=
  { Grows.refl s with ack := .inl }

omit [DecidableEq ν] in
lemma Grows.commit (t n : ℕ) : Grows s (s.commit t n) :=
  { Grows.refl s with committed := .inl }

/-! ### The updates keep the invariant -/

namespace Inv

variable (h : Inv P s)
include h

omit [DecidableEq ν] in
/-- Commits survive growth. -/
lemma commit_grow (g : Grows s s') {t n : ℕ} (hc : s.committed t n) :
    ∃ m c A, IsCommit P s' t n m c A := by
  obtain ⟨m, c, A, hrecord⟩ := h.commit hc
  exact ⟨m, c, A, hrecord.grow g h.commit_elected⟩

lemma tick {v : ν} {t : ℕ} (ht : s.term v ≤ t) : Inv P (s.tick v t) := by
  have g : Grows s (s.tick v t) := .tick ht
  exact
    { h with
      log_term := fun w entry he => (h.log_term w entry he).trans (g.term w)
      camp_term := fun hc => (h.camp_term hc).trans (g.term _)
      vote_term := fun hv => (h.vote_term hv).trans (g.term _)
      ballot := fun hb => (h.ballot hb).grow g
      ack_term := fun ha => (h.ack_term ha).trans (g.term _)
      ack_kept := fun ha => (h.ack_kept ha).mono (Nat.succ_le_succ (g.term _))
      commit := h.commit_grow g }

omit [DecidableEq ν] h in
lemma upToDate_refl (log : List ε) : UpToDate P log log := .inr ⟨rfl, le_rfl⟩

variable {u : ℕ}

/-- The log with which a node votes has kept what the node acknowledged. -/
lemma grant {v c : ν} {log : List ε} (hcur : s.term v = u) (hfree : s.vote v u = none)
    (hcamp : s.camp c u = some log) (hup : UpToDate P log (s.log v)) : Inv P (s.grant v u c) := by
  have g : Grows s (s.grant v u c) := .grant hfree
  refine { h with
      vote_term := fun {w u' c log} hv => ?_
      vote_sound := fun {w u' c log} hv => ?_
      vote_camp := fun {w u' c log} hv => ?_
      vote_kept := fun {w u' c log t n} hv ha ht => ?_
      ballot := fun hb => (h.ballot hb).grow g
      ballot_kept := fun {u' b w c log t n} hb hw hv ha ht => ?_
      commit := h.commit_grow g }
  · rcases update₂_eq_some hv with ⟨rfl, rfl, -⟩ | hold
    · exact hcur.ge
    · exact h.vote_term hold
  · rcases update₂_eq_some hv with ⟨rfl, rfl, heq⟩ | hold
    · cases heq
      exact h.log_sound w
    · exact h.vote_sound hold
  · rcases update₂_eq_some hv with ⟨rfl, rfl, heq⟩ | hold
    · cases heq
      exact ⟨_, hcamp, hup⟩
    · exact h.vote_camp hold
  · rcases update₂_eq_some hv with ⟨rfl, rfl, heq⟩ | hold
    · cases heq
      exact (h.ack_kept ha).mono (by omega)
    · exact h.vote_kept hold ha ht
  · rcases update₂_eq_some hv with ⟨rfl, rfl, heq⟩ | hold
    · -- a voter of the recorded leader has voted already
      obtain ⟨log', hvote, -⟩ := (h.ballot hb).votes w hw
      rw [hfree] at hvote
      cases hvote
    · exact h.ballot_kept hb hw hold ha ht

lemma stand {v : ν} (hcur : s.term v = u) (hfree : s.camp v u = none)
    (hterms : ∀ entry ∈ s.log v, P.term entry < u) : Inv P (s.stand v u) := by
  have g : Grows s (s.stand v u) := { Grows.refl s with camp := update₂_of_some hfree }
  refine { h with
      camp_term := fun {w u' log} hc => ?_
      camp_sound := fun {w u' log} hc => ?_
      vote_camp := fun hv => ?_
      ballot := fun hb => (h.ballot hb).grow g
      commit := h.commit_grow g }
  · rcases update₂_eq_some hc with ⟨rfl, rfl, -⟩ | hold
    · exact hcur.ge
    · exact h.camp_term hold
  · rcases update₂_eq_some hc with ⟨rfl, rfl, rfl⟩ | hold
    · exact ⟨h.log_sound w, hterms⟩
    · exact h.camp_sound hold
  · obtain ⟨log, hcamp, hup⟩ := h.vote_camp hv
    exact ⟨log, g.camp hcamp, hup⟩

/-- A campaign is a later term, in which a node stands and votes for itself. -/
lemma campaign {v : ν} (hu : s.term v < u) : Inv P (s.campaign v u) := by
  have hcur : (s.tick v u).term v = u := update_self ..
  have hstand : Inv P ((s.tick v u).stand v u) := (h.tick hu.le).stand hcur (camp_eq_none h hu)
    fun entry he => (h.log_term v entry he).trans_lt hu
  have hcamp : ((s.tick v u).stand v u).camp v u = some (s.log v) := by
    simp [System.stand, System.tick]
  exact hstand.grant hcur (vote_eq_none h hu) hcamp (upToDate_refl _)

omit [DecidableEq ν] in
/-- The election that a candidate with a quorum of votes wins. -/
lemma isBallot {b : Ballot ν ε} (hcamp : s.camp b.winner u = some b.log)
    (hvalid : P.Valid b.log b.commit) (hquorum : P.Quorum b.log b.commit b.voters)
    (hvotes : ∀ v ∈ b.voters, ∃ log, s.vote v u = some (b.winner, log)) : IsBallot P s u b where
  sound := (h.camp_sound hcamp).1
  terms := (h.camp_sound hcamp).2
  valid := hvalid
  quorum := hquorum
  votes v hv := by
    obtain ⟨log, hvote⟩ := hvotes v hv
    obtain ⟨campaign, hc, hup⟩ := h.vote_camp hvote
    rw [hcamp, Option.some.injEq] at hc
    subst hc
    exact ⟨log, hvote, hup⟩

omit [DecidableEq ν] in
lemma win {b : Ballot ν ε} (hfree : s.elect u = none) (hcamp : s.camp b.winner u = some b.log)
    (hvalid : P.Valid b.log b.commit) (hquorum : P.Quorum b.log b.commit b.voters)
    (hvotes : ∀ v ∈ b.voters, ∃ log, s.vote v u = some (b.winner, log)) : Inv P (s.win u b) := by
  have g : Grows s (s.win u b) := .win hfree
  have hballot := h.isBallot hcamp hvalid hquorum hvotes
  -- a later election is an old one, or the new one
  have helect : ∀ {u' b'}, (s.win u b).elect u' = some b' →
      u' = u ∧ b' = b ∨ u' ≠ u ∧ s.elect u' = some b' := by
    intro u' b' hb
    by_cases hu : u' = u
    · subst hu
      simp only [System.win, Function.update_self, Option.some.injEq] at hb
      exact .inl ⟨rfl, hb.symm⟩
    · exact .inr ⟨hu, by simpa [System.win, Function.update_of_ne hu] using hb⟩
  have hlead : ∀ {u'}, u' ≠ u → (s.win u b).lead u' = s.lead u' := fun hu =>
    Function.update_of_ne hu _ _
  have hself : (s.win u b).lead u = b.log := Function.update_self _ _ _
  refine
    { h with
      log_sound := fun v => (h.log_sound v).grow g
      camp_sound := fun hc => ⟨(h.camp_sound hc).1.grow g, (h.camp_sound hc).2⟩
      vote_sound := fun hv => (h.vote_sound hv).grow g
      vote_kept := fun hv ha ht => (h.vote_kept hv ha ht).grow g (h.ack_elected ha)
      ballot := fun {u' b'} hb => ?_
      ballot_kept := fun {u' b' v c log t n} hb hv hvote ha ht => ?_
      lead_eq := fun {u' b'} hb => ?_
      ack_elected := fun ha => ?_
      ack_kept := fun ha => (h.ack_kept ha).grow g (h.ack_elected ha)
      commit := h.commit_grow g
      member := fun {u' i j} hu' hij hi hj hcur => ?_ }
  · rcases helect hb with ⟨rfl, rfl⟩ | ⟨-, hold⟩
    · exact hballot.grow g
    · exact (h.ballot hold).grow g
  · refine Kept.grow g (h.ack_elected ha) ?_
    rcases helect hb with ⟨rfl, rfl⟩ | ⟨-, hold⟩
    · -- no leader of this term was elected before, so none took the entries away
      rcases h.vote_kept hvote ha ht with hagree | ⟨w, bw, htw, hwu, hbw, hlost⟩
      · exact .inl hagree
      · refine .inr ⟨w, bw, htw, lt_of_le_of_ne (by omega) ?_, hbw, hlost⟩
        rintro rfl
        rw [hfree] at hbw
        cases hbw
    · exact h.ballot_kept hold hv hvote ha ht
  · rcases helect hb with ⟨rfl, rfl⟩ | ⟨hne, hold⟩
    · exact ⟨[], by rw [hself, List.append_nil], by simp⟩
    · rw [hlead hne]
      exact h.lead_eq hold
  · obtain ⟨hsome, hle⟩ := h.ack_elected ha
    exact ⟨g.elect_isSome hsome, hle.trans (g.lead hsome).length_le⟩
  · by_cases hne : u' = u
    · -- a fresh leader has written nothing yet
      subst hne
      rw [hself] at hcur
      obtain ⟨entry, hentry, hterm⟩ := hcur
      have := hballot.terms entry (List.mem_of_getElem? hentry)
      omega
    · rw [hlead hne] at hi hj hcur ⊢
      have hold : (s.elect u').isSome := by
        simpa [System.win, Function.update_of_ne hne] using hu'
      obtain ⟨t, n, hc, ht, hn, hagree⟩ := h.member hold hij hi hj hcur
      exact ⟨t, n, hc, ht, hn, hagree.left_mono (g.lead (h.commit_elected hc).1)⟩

omit [DecidableEq ν] in
/-- A leader that knows of a commit has it in its log. -/
lemma knows_agree {u c : ℕ} (hu : (s.elect u).isSome) (hc : Knows s u c) :
    c = 0 ∨ ∃ t n, s.committed t n ∧ t ≤ u ∧ c ≤ n ∧ Agree c (s.lead t) (s.lead u) := by
  rcases hc with h0 | ⟨t, n, hcommit, ht, hn⟩
  · exact .inl h0
  · exact .inr ⟨t, n, hcommit, ht, hn, (h.committed_in_lead hu hcommit ht).mono hn⟩

lemma write {v : ν} {entry : ε} (helected : (s.elect u).isSome) (hcur : s.term v = u)
    (hlog : s.log v = s.lead u) (hterm : P.term entry = u)
    (hmember : P.IsMember entry → ∃ c, P.Valid (s.lead u ++ [entry]) c ∧ Knows s u c) :
    Inv P (s.write u v entry) := by
  have g : Grows s (s.write u v entry) := .write u v entry
  have hlead : (s.write u v entry).lead u = s.lead u ++ [entry] := update_self _ _ _
  have hother : ∀ {u'}, u' ≠ u → (s.write u v entry).lead u' = s.lead u' := fun hu =>
    update_of_ne hu _ _
  have hself : (s.write u v entry).log v = s.lead u ++ [entry] := update_self _ _ _
  have hlogs : ∀ {w}, w ≠ v → (s.write u v entry).log w = s.log w := fun hw =>
    update_of_ne hw _ _
  have hsound : Sound P (s.write u v entry) (s.lead u ++ [entry]) := by
    intro i e he
    rcases Nat.lt_or_ge i (s.lead u).length with hlt | hge
    · rw [getElem?_append_left hlt] at he
      obtain ⟨hsome, hagree⟩ := (h.lead_sound helected).grow g i e he
      exact ⟨hsome, hagree.left_mono (List.prefix_append _ _)⟩
    · have hlen := (List.getElem?_eq_some_iff.mp he).1
      rw [List.length_append, List.length_singleton] at hlen
      have hi : i = (s.lead u).length := by omega
      subst hi
      rw [getElem?_concat_length, some.injEq] at he
      subst he
      rw [hterm, hlead]
      exact ⟨g.elect_isSome helected, Agree.refl (by simp)⟩
  refine
    { h with
      log_sound := fun w => ?_
      log_term := fun w e he => ?_
      camp_sound := fun hc => ⟨(h.camp_sound hc).1.grow g, (h.camp_sound hc).2⟩
      vote_sound := fun hv => (h.vote_sound hv).grow g
      vote_kept := fun hv ha ht => (h.vote_kept hv ha ht).grow g (h.ack_elected ha)
      ballot := fun hb => (h.ballot hb).grow g
      ballot_kept := fun hb hv hvote ha ht =>
        (h.ballot_kept hb hv hvote ha ht).grow g (h.ack_elected ha)
      lead_eq := fun {u' b} hb => ?_
      ack_elected := fun ha => ?_
      ack_kept := fun {w t n} ha => ?_
      commit := h.commit_grow g
      member := fun {u' i j} hu' hij hi hj hcurrent => ?_ }
  · by_cases hw : w = v
    · subst hw
      rw [hself]
      exact hsound
    · rw [hlogs hw]
      exact (h.log_sound w).grow g
  · by_cases hw : w = v
    · subst hw
      rw [hself] at he
      rcases mem_append.mp he with he | he
      · exact h.log_term w e (hlog ▸ he)
      · obtain rfl := mem_singleton.mp he
        exact (hterm.trans hcur.symm).le
    · rw [hlogs hw] at he
      exact h.log_term w e he
  · obtain ⟨tail, heq, htail⟩ := h.lead_eq hb
    by_cases hu : u' = u
    · subst hu
      refine ⟨tail ++ [entry], by rw [hlead, heq, append_assoc], fun e he => ?_⟩
      rcases mem_append.mp he with he | he
      · exact htail e he
      · obtain rfl := mem_singleton.mp he
        exact hterm
    · exact ⟨tail, by rw [hother hu, heq], htail⟩
  · obtain ⟨hsome, hle⟩ := h.ack_elected ha
    exact ⟨hsome, hle.trans (g.lead hsome).length_le⟩
  · have hkept := (h.ack_kept ha).grow g (h.ack_elected ha)
    by_cases hw : w = v
    · subst hw
      rcases hkept with hagree | hlost
      · rw [hself, ← hlog]
        exact .inl (hagree.right_mono (List.prefix_append _ _))
      · exact .inr hlost
    · rw [hlogs hw]
      exact hkept
  · by_cases hu : u' = u
    · subst hu
      rw [hlead] at hi hj hcurrent ⊢
      have hjlt := hj.lt
      rw [List.length_append, List.length_singleton] at hjlt
      have hprefix : Agree (s.lead u').length (s.lead u' ++ [entry]) (s.lead u') :=
        (Agree.of_extends (List.prefix_append _ _)).symm
      rcases Nat.lt_or_ge j (s.lead u').length with hlt | hge
      · -- both entries were there before
        obtain ⟨t, n, hc, ht, hn, hagree⟩ := h.member helected hij
          (hi.of_agree hprefix (by omega)) (hj.of_agree hprefix hlt)
          (hcurrent.of_agree hprefix hlt)
        exact ⟨t, n, hc, ht, hn, (hagree.left_mono (g.lead (h.commit_elected hc).1)).right_mono
          (List.prefix_append _ _)⟩
      · -- the second one is the new entry: the first is committed
        have hjeq : j = (s.lead u').length := by omega
        have hmem : P.IsMember entry := by
          obtain ⟨e, he, hp⟩ := hj
          rw [hjeq, getElem?_concat_length, some.injEq] at he
          exact he ▸ hp
        obtain ⟨c, hvalid, hknows⟩ := hmember hmem
        have hic := P.committed_of_lt hvalid hi hj hij
        rcases h.knows_agree helected hknows with h0 | ⟨t, n, hc, ht, hn, hagree⟩
        · omega
        · refine ⟨t, n, hc, ht, by omega, ?_⟩
          exact ((hagree.mono (by omega)).left_mono (g.lead (h.commit_elected hc).1)).right_mono
            (List.prefix_append _ _)
    · rw [hother hu] at hi hj hcurrent ⊢
      obtain ⟨t, n, hc, ht, hn, hagree⟩ := h.member hu' hij hi hj hcurrent
      exact ⟨t, n, hc, ht, hn, hagree.left_mono (g.lead (h.commit_elected hc).1)⟩

section

variable {v : ν} {t p : ℕ} (helected : (s.elect t).isSome) (hcur : s.term v = t)
  (hp : p ≤ (s.lead t).length)
include helected hcur hp

/-- A node that takes over entries of its leader keeps what it acknowledged, unless that leader
does not have it. -/
lemma kept_adopted {t' n : ℕ} (ha : (s.adopt v t p).ack v t' n) :
    Kept (s.adopt v t p) t' n (s.term v + 1) (s.adopted v t p) := by
  obtain ⟨b, hb⟩ := isSome_iff_exists.mp helected
  -- the adopted log agrees with the leader up to `p`
  have hadopted : Agree p (s.lead t) (s.adopted v t p) := by
    unfold System.adopted
    split
    · assumption
    · exact (Agree.refl hp).take_right le_rfl
  rcases ha with hold | ⟨-, rfl, hn⟩
  · rcases h.ack_kept hold with hagree | hlost
    · by_cases hsame : Agree p (s.lead t) (s.log v)
      · exact .inl (by rw [System.adopted, if_pos hsame]; exact hagree)
      · -- the log was replaced; the leader of `t` has the entries, or was elected without them
        have hle := h.ack_term hold
        rcases (hcur ▸ hle).eq_or_lt with rfl | hlt
        · rcases Nat.le_total n p with hnp | hpn
          · exact .inl (hadopted.mono hnp)
          · exact absurd (hagree.mono hpn) hsame
        · by_cases hlead : Agree n (s.lead t') b.log
          · have hlead' := hlead.right_mono (h.ballot_prefix hb)
            rcases Nat.le_total n p with hnp | hpn
            · exact .inl (hlead'.trans (hadopted.mono hnp))
            · exact absurd ((hlead'.symm.trans hagree).mono hpn) hsame
          · exact .inr ⟨t, b, hlt, by omega, hb, hlead⟩
    · exact .inr hlost
  · exact .inl (hadopted.mono hn)

lemma adopt : Inv P (s.adopt v t p) := by
  have g : Grows s (s.adopt v t p) := .adopt v t p
  have hself : (s.adopt v t p).log v = s.adopted v t p := update_self _ _ _
  have hlogs : ∀ {w}, w ≠ v → (s.adopt v t p).log w = s.log w := fun hw =>
    update_of_ne hw _ _
  refine
    { h with
      log_sound := fun w => ?_
      log_term := fun w e he => ?_
      vote_kept := fun {w u c log t' n} hv ha ht => ?_
      ballot := fun hb => (h.ballot hb).grow g
      ballot_kept := fun {u b w c log t' n} hb hw hv ha ht => ?_
      ack_term := fun {w t' n} ha => ?_
      ack_elected := fun {w t' n} ha => ?_
      ack_kept := fun {w t' n} ha => ?_
      commit := h.commit_grow g }
  · by_cases hw : w = v
    · subst hw
      rw [hself, System.adopted]
      split
      · exact h.log_sound w
      · exact (h.lead_sound helected).take p
    · rw [hlogs hw]
      exact h.log_sound w
  · by_cases hw : w = v
    · subst hw
      rw [hself, System.adopted] at he
      split at he
      · exact h.log_term w e he
      · obtain ⟨i, hi⟩ := mem_iff_getElem?.mp (mem_of_mem_take he)
        exact (h.lead_term_le helected hi).trans hcur.ge
    · rw [hlogs hw] at he
      exact h.log_term w e he
  · rcases ha with hold | ⟨rfl, rfl, -⟩
    · exact h.vote_kept hv hold ht
    · have := h.vote_term hv
      omega
  · rcases ha with hold | ⟨rfl, rfl, -⟩
    · exact h.ballot_kept hb hw hv hold ht
    · have := h.vote_term hv
      omega
  · rcases ha with hold | ⟨rfl, rfl, -⟩
    · exact h.ack_term hold
    · exact hcur.ge
  · rcases ha with hold | ⟨rfl, rfl, hn⟩
    · exact h.ack_elected hold
    · exact ⟨helected, hn.trans hp⟩
  · by_cases hw : w = v
    · subst hw
      rw [hself]
      exact h.kept_adopted helected hcur hp ha
    · rw [hlogs hw]
      rcases ha with hold | ⟨rfl, -, -⟩
      · exact h.ack_kept hold
      · exact absurd rfl hw

end

omit [DecidableEq ν] in
lemma commit_step {t n m c : ℕ} {A : Set ν} (hrecord : IsCommit P s t n m c A) :
    Inv P (s.commit t n) := by
  have g : Grows s (s.commit t n) := .commit t n
  refine
    { h with
      ballot := fun hb => (h.ballot hb).grow g
      commit := fun {t' n'} hc => ?_
      member := fun hu hij hi hj hcur => ?_ }
  · rcases hc with hold | ⟨rfl, rfl⟩
    · exact h.commit_grow g hold
    · exact ⟨m, c, A, hrecord.grow g h.commit_elected⟩
  · obtain ⟨t', n', hc, ht, hn, hagree⟩ := h.member hu hij hi hj hcur
    exact ⟨t', n', g.committed hc, ht, hn, hagree⟩

end Inv

end Chronos.Consensus
