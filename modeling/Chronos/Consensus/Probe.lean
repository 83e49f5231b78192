import Chronos.Consensus.Steps

/-!
How far a leader may probe the log of a follower.

A leader that looks for the point where a follower's log leaves its own must not
go below it, else it would take the follower's own entries for confirmed.

* `Diverges`: the follower agrees with the leader up to a position and goes on
  differently.
* `Reaches`: a position is not below the point of divergence.  Every step of the
  system keeps this (`Reaches.steps`), since a follower only gets closer to the
  leader of its own term.
* `Rejected`: what a rejection of a follower tells about its log.  It stays true
  (`Rejected.steps`), and a leader that backs off by it stays in reach
  (`diverges_le_last`, `at_of_le_diverges`).
-/

namespace Chronos.Consensus

variable {ν ε : Type*} {P : Configuration ν ε} {s s' : System ν ε}

/-- The log of `v` agrees with the leader of `t` up to `k` and goes on differently. -/
def Diverges (s : System ν ε) (v : ν) (t k : ℕ) : Prop :=
  Agree k (s.lead t) (s.log v) ∧ ¬ Agree (k + 1) (s.lead t) (s.log v) ∧ k < (s.log v).length

/-- Position `i` of the leader of `t` is not below the point where the log of `v` diverges.  Before
`v` has reached the term, its log cannot agree beyond the log that the leader was elected with. -/
structure Reaches (s : System ν ε) (v : ν) (t i : ℕ) : Prop where
  behind : s.term v < t → ∀ b, s.elect t = some b → b.log.length ≤ i
  current : s.term v = t → ∀ k, Diverges s v t k → k ≤ i

variable {v : ν} {t : ℕ}

lemma Reaches.mono {i j : ℕ} (h : Reaches s v t i) (hij : i ≤ j) : Reaches s v t j where
  behind ht b hb := (h.behind ht b hb).trans hij
  current ht k hk := (h.current ht k hk).trans hij

/-- The end of the leader's log is in reach. -/
lemma reaches_lead (hinv : Inv P s) (v : ν) (t : ℕ) : Reaches s v t (s.lead t).length where
  behind _ _ hb := (hinv.ballot_prefix hb).length_le
  current _ _ hk := hk.1.left_le

/-- What a rejection of `v` in term `t` tells: its log is part of the leader's by now, or it ends
before position `c`, or it holds entries of one term from `c` to a position beyond the point of
divergence. -/
structure Rejected (P : Configuration ν ε) (s : System ν ε) (v : ν) (t : ℕ) (term : Option ℕ)
    (c : ℕ) : Prop where
  le : t ≤ s.term v
  reason : s.term v = t →
    ((s.elect t).isSome ∧ s.log v <+: s.lead t) ∨ (term = none ∧ c = (s.log v).length + 1) ∨
      ∃ u q, term = some u ∧ (s.elect t).isSome ∧ 0 < c ∧ c ≤ q ∧
        (∀ i, c ≤ i + 1 → i < q → At (fun entry => P.term entry = u) (s.log v) i) ∧
        ∀ k, Diverges s v t k → k < q

/-! ### Steps -/

variable {k : ℕ}

/-- A position of the leader's log behind what it was elected with cannot agree with a log of
earlier terms. -/
lemma agree_le_ballot (hinv : Inv P s) {b : Ballot ν ε} (hb : s.elect t = some b) {log : List ε}
    (hlog : ∀ entry ∈ log, P.term entry < t) (hagree : Agree k (s.lead t) log) :
    k ≤ b.log.length := by
  by_contra hlt
  have hi : b.log.length < (s.lead t).length := by have := hagree.left_le; omega
  have hentry := List.getElem?_eq_getElem hi
  have hmem : (s.lead t)[b.log.length] ∈ log :=
    List.mem_of_getElem? ((hagree.getElem_eq (by omega)).symm.trans hentry)
  rcases hinv.lead_entry hb hentry with ⟨hlt', -, -⟩ | ⟨-, hterm⟩
  · omega
  · exact absurd hterm (hlog _ hmem).ne

/-- While a node keeps its log, it diverges from a leader where it did before. -/
lemma Diverges.of_grow (hinv : Inv P s) (hinv' : Inv P s') (g : Grows s s')
    (helect : (s.elect t).isSome) (hlog : s'.log v = s.log v) (h : Diverges s' v t k) :
    Diverges s v t k := by
  obtain ⟨hagree, hdiffer, hlt⟩ := h
  rw [hlog] at hagree hdiffer hlt
  have hprefix := g.lead helect
  have hk : k ≤ (s.lead t).length := by
    by_contra hgt
    -- the first entry written since is in the log of `v`, so it was in the leader's before
    have hi : (s.lead t).length < (s'.lead t).length := by have := hagree.left_le; omega
    have hentry := List.getElem?_eq_getElem hi
    have hmem := (hagree.getElem_eq (i := (s.lead t).length) (by omega)).symm.trans hentry
    obtain ⟨b, hb⟩ := Option.isSome_iff_exists.mp helect
    have hterm : P.term (s'.lead t)[(s.lead t).length] = t := by
      rcases hinv'.lead_entry (g.elect hb) hentry with ⟨hlt', -, -⟩ | ⟨-, hterm⟩
      · have := (hinv.ballot_prefix hb).length_le
        omega
      · exact hterm
    have hsound := (hinv.log_sound v _ _ hmem).2
    rw [hterm] at hsound
    have := hsound.right_le
    omega
  refine ⟨?_, fun hmore => hdiffer (hmore.left_mono hprefix), hlt⟩
  exact ((Agree.of_extends hprefix).mono hk).trans hagree

/-- The log of a node stays, or it becomes part of the log of its leader. -/
def LogFollows (s s' : System ν ε) (v : ν) : Prop :=
  s'.log v = s.log v ∨ (s'.elect (s'.term v)).isSome ∧ s'.log v <+: s'.lead (s'.term v)

lemma Step.logFollows [DecidableEq ν] {w : ν} (hstep : Step P w s s') (v : ν) :
    LogFollows s s' v := by
  cases hstep with
  | tick | campaign | grant | win | commit => exact .inl rfl
  | write u b entry elected winner current log =>
    by_cases hv : v = w
    · subst hv
      have hterm : (s.write u v entry).term v = u := current
      refine .inr ?_
      rw [hterm]
      refine ⟨Option.isSome_iff_exists.mpr ⟨b, elected⟩, ?_⟩
      simp only [System.write, Function.update_self]
      exact List.prefix_rfl
    · exact .inl (Function.update_of_ne hv _ _)
  | adopt t p elected current within =>
    by_cases hv : v = w
    · subst hv
      have hterm : (s.adopt v t p).term v = t := current
      have hself : (s.adopt v t p).log v = s.adopted v t p := Function.update_self _ _ _
      unfold LogFollows
      rw [hself, hterm, System.adopted]
      split
      · exact .inl rfl
      · exact .inr ⟨elected, List.take_prefix _ _⟩
    · exact .inl (Function.update_of_ne hv _ _)

section Step

variable [DecidableEq ν] {w v : ν} {t : ℕ} (hinv : Inv P s)
include hinv

variable {i : ℕ}

/-- **A position in reach stays in reach.** -/
lemma Reaches.step (hstep : Step P w s s') (helect : (s.elect t).isSome) (h : Reaches s v t i) :
    Reaches s' v t i := by
  have g := (hstep.byNode hinv).grows
  have hinv' := hinv.step hstep
  obtain ⟨b, hb⟩ := Option.isSome_iff_exists.mp helect
  refine ⟨fun ht b' hb' => h.behind ((g.term v).trans_lt ht) b' ?_, fun ht k hk => ?_⟩
  · rw [hb]
    exact (g.elect hb).symm.trans hb'
  · rcases hstep.logFollows v with hlog | ⟨-, hprefix⟩
    · rcases (ht ▸ g.term v : s.term v ≤ t).eq_or_lt with heq | hlt
      · exact h.current heq k (hk.of_grow hinv hinv' g helect hlog)
      · -- the node has just reached the term
        have hterms : ∀ entry ∈ s'.log v, P.term entry < t := by
          intro entry he
          rw [hlog] at he
          exact (hinv.log_term v entry he).trans_lt hlt
        exact (agree_le_ballot hinv' (g.elect hb) hterms hk.1).trans (h.behind hlt b hb)
    · rw [ht] at hprefix
      exact absurd ((Agree.of_extends hprefix).symm.mono hk.2.2) hk.2.1

variable {term : Option ℕ} {c : ℕ}

lemma Rejected.step (hstep : Step P w s s') (h : Rejected P s v t term c) :
    Rejected P s' v t term c := by
  have g := (hstep.byNode hinv).grows
  refine ⟨h.le.trans (g.term v), fun ht => ?_⟩
  have hterm : s.term v = t := le_antisymm (ht ▸ g.term v) h.le
  rcases hstep.logFollows v with hlog | ⟨helect, hprefix⟩
  · rcases h.reason hterm with ⟨helect, hprefix⟩ | ⟨hnone, hc⟩ |
      ⟨u, q, hsome, helect, hpos, hq, hrun, hdiverge⟩
    · refine .inl ⟨g.elect_isSome helect, ?_⟩
      rw [hlog]
      exact hprefix.trans (g.lead helect)
    · exact .inr (.inl ⟨hnone, by rw [hlog]; exact hc⟩)
    · refine .inr (.inr ⟨u, q, hsome, g.elect_isSome helect, hpos, hq,
        by rw [hlog]; exact hrun, fun k hk => ?_⟩)
      exact hdiverge k (hk.of_grow hinv (hinv.step hstep) g helect hlog)
  · rw [ht] at helect hprefix
    exact .inl ⟨helect, hprefix⟩

lemma Reaches.steps (hsteps : Steps P w s s') (helect : (s.elect t).isSome) (h : Reaches s v t i) :
    Reaches s' v t i := by
  induction hsteps with
  | refl => exact h
  | tail hfirst hstep ih =>
    obtain ⟨hinv₁, hby⟩ := Steps.spec hfirst hinv
    exact ih.step hinv₁ hstep (hby.grows.elect_isSome helect)

lemma Rejected.steps (hsteps : Steps P w s s') (h : Rejected P s v t term c) :
    Rejected P s' v t term c := by
  induction hsteps with
  | refl => exact h
  | tail hfirst hstep ih => exact ih.step (Steps.spec hfirst hinv).1 hstep

end Step

/-! ### Backing off -/

section BackOff

variable {v : ν} {t k q u c : ℕ} (hk : Diverges s v t k) (hkq : k < q)
  (hrun : ∀ i, c ≤ i + 1 → i < q → At (fun entry => P.term entry = u) (s.log v) i)
include hk hkq hrun

/-- The leader's last entry of the reported term is not below the point of divergence. -/
lemma diverges_le_last (hinv : Inv P s) (helect : (s.elect t).isSome) (hcq : c ≤ q) {j : ℕ}
    (hj : At (fun entry => P.term entry = u) (s.lead t) j)
    (hlast : ∀ i, j < i → ¬ At (fun entry => P.term entry = u) (s.lead t) i) : k ≤ j + 1 := by
  by_contra hlt
  obtain ⟨x, hx, hxu⟩ := hj
  obtain ⟨y, hy, hyu⟩ := hrun (q - 1) (by omega) (by omega)
  -- both logs are the one of the leader of that term, as far as they hold its entries
  obtain ⟨hu, hagree⟩ := hinv.log_sound v _ _ hy
  rw [hyu] at hu hagree
  obtain ⟨-, hagree'⟩ := hinv.lead_sound helect _ _ hx
  rw [hxu] at hagree'
  obtain ⟨b, hb⟩ := Option.isSome_iff_exists.mp hu
  have hxj : (s.lead u)[j]? = some x := (hagree'.getElem_eq (by omega)).symm.trans hx
  have hlen : j + 1 < (s.lead u).length := by have := hagree.right_le; omega
  have hnext := List.getElem?_eq_getElem hlen
  have hterm : P.term (s.lead u)[j + 1] = u := by
    rcases hinv.lead_entry hb hxj with ⟨-, -, hold⟩ | ⟨hge, -⟩
    · omega
    rcases hinv.lead_entry hb hnext with ⟨hlt', -, -⟩ | ⟨-, hterm⟩
    · omega
    · exact hterm
  refine hlast (j + 1) (Nat.lt_succ_self j) ⟨_, ?_, hterm⟩
  rw [hk.1.getElem_eq (by omega), hagree.getElem_eq (by omega), hnext]

/-- At the point of divergence the leader has an entry of the reported term, if the follower's
entries of that term begin below it. -/
lemma at_of_le_diverges (hpos : 0 < c) (hck : c ≤ k) :
    At (fun entry => P.term entry = u) (s.lead t) (k - 1) :=
  (hrun (k - 1) (by omega) (by omega)).of_agree hk.1.symm (by omega)

end BackOff

end Chronos.Consensus
