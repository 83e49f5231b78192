import Chronos.Raft.Progress

/-!
Log matching, leader completeness and the messages of a group with fixed voters.

* `fixed_run`: along every run the group refines a growing history.
* `log_matching_and_leader_completeness`: between any two states of a run.
* `sent_messages_are_kept`: between the messages and the storages.
-/

namespace Chronos.Raft

open Consensus (Agree Knows KnowsLog Grows)

variable {boot : List NodeId}

/-- **Runs that keep the voters**: the group refines a growing history, and an invariant that every
event preserves beside it holds. -/
lemma fixed_run (I : Cluster → History → Prop)
    (hstep : ∀ {c c' s s' action}, Refines boot True c s → Refines boot True c' s' → Grows s s' →
      Event boot c action c' → I c s → I c' s')
    (actions : List Action) {c : Cluster} {s : History} (hr : Refines boot True c s)
    (h : WithinReach boot c s) (hI : I c s)
    (hkeeps : ∀ action ∈ actions, action.keepsVoters = true) :
    ∃ s', Refines boot True (c.run boot actions) s' ∧ WithinReach boot (c.run boot actions) s' ∧
      Grows s s' ∧ I (c.run boot actions) s' := by
  induction actions generalizing c s with
  | nil => exact ⟨s, hr, h, .refl s, hI⟩
  | cons action actions ih =>
    have hevent := c.step_event boot action
    obtain ⟨s₁, v, hr₁, h₁, hsteps⟩ := h.event hr hevent (hkeeps action (by simp))
    have g₁ := (hsteps.spec hr.inv).2.grows
    obtain ⟨s', hr', h', g, hI'⟩ := ih hr₁ h₁ (hstep hr hr₁ g₁ hevent hI)
      fun a ha => hkeeps a (by simp [ha])
    exact ⟨s', hr', h', g₁.trans g, hI'⟩

/-- The group after the first `k` actions of a run. -/
def stateAt (boot : List NodeId) (actions : List Action) (k : ℕ) : Cluster :=
  Cluster.run boot .initial (actions.take k)

/-- A later state of a run is reached by the actions in between. -/
lemma stateAt_run (boot : List NodeId) (actions : List Action) {i j : ℕ} (hij : i ≤ j) :
    (stateAt boot actions i).run boot ((actions.take j).drop i) = stateAt boot actions j := by
  unfold stateAt
  rw [← Cluster.run_append, ← Nat.min_eq_left hij, ← List.take_take, Nat.min_eq_left hij,
    List.take_append_drop]

variable {actions : List Action} {k : ℕ}

lemma stateAt_succ {boot : List NodeId} {action : Action} (h : actions[k]? = some action) :
    stateAt boot actions (k + 1) = (stateAt boot actions k).step boot action := by
  rw [stateAt, List.take_add_one, h, Cluster.run_append]
  rfl

/-- Two states of one run, with their histories and a common later one. -/
lemma fixed_states (boot : List NodeId) (hkeeps : ∀ action ∈ actions, action.keepsVoters = true)
    (i j : ℕ) :
    ∃ s s' later, Refines boot True (stateAt boot actions i) s ∧
      Refines boot True (stateAt boot actions j) s' ∧ HistoryInv boot later ∧ Grows s later ∧
      Grows s' later := by
  have hordered : ∀ {i j : ℕ}, i ≤ j → ∃ s s', Refines boot True (stateAt boot actions i) s ∧
      Refines boot True (stateAt boot actions j) s' ∧ Grows s s' := by
    intro i j hij
    obtain ⟨s, hr, h, -⟩ := fixed_run (fun _ _ => True) (fun _ _ _ _ _ => trivial)
      (actions.take i) (refines_initial boot True) (withinReach_initial boot) trivial
      fun a ha => hkeeps a (List.mem_of_mem_take ha)
    obtain ⟨s', hr', -, g, -⟩ := fixed_run (fun _ _ => True) (fun _ _ _ _ _ => trivial)
      ((actions.take j).drop i) hr h trivial
      fun a ha => hkeeps a (List.mem_of_mem_take (List.mem_of_mem_drop ha))
    exact ⟨s, s', hr, stateAt_run boot actions hij ▸ hr', g⟩
  rcases Nat.le_total i j with hij | hji
  · obtain ⟨s, s', hr, hr', g⟩ := hordered hij
    exact ⟨s, s', s', hr, hr', hr'.inv, g, .refl s'⟩
  · obtain ⟨s', s, hr', hr, g⟩ := hordered hji
    exact ⟨s, s', s, hr, hr', hr.inv, .refl s, g⟩

/-- Agreement of whole logs is agreement of what the states retain of them. -/
lemma entryAt_eq_of_agree {full full' : List LogEntry} {state state' : PersistentState}
    (h : Represents boot full state) (h' : Represents boot full' state')
    (hagree : Agree k full full') {index : ℕ} (hi : index ≤ k)
    (hretained : (state.entryAt index).isSome) (hretained' : (state'.entryAt index).isSome) :
    state.entryAt index = state'.entryAt index := by
  obtain ⟨hpos, heq⟩ := h.entryAt hretained
  obtain ⟨-, heq'⟩ := h'.entryAt hretained'
  rw [heq, heq', hagree.getElem_eq (by omega)]

/-- **Log matching and leader completeness** with fixed voters, for nodes at any two times of a
run: entries of one index and term have the same history, and what the leader of a term has
committed is in the log of every leader of a later term. -/
theorem log_matching_and_leader_completeness (boot : List NodeId) (actions : List Action)
    (hkeeps : ∀ action ∈ actions, action.keepsVoters = true) (i j : ℕ) (v w : NodeId)
    (n m : RaftNode) (hn : (stateAt boot actions i).node v = some n)
    (hm : (stateAt boot actions j).node w = some m) :
    (∀ index entry entry', n.state.entryAt index = some entry →
        m.state.entryAt index = some entry' → entry.term = entry'.term →
        ∀ below ≤ index, (n.state.entryAt below).isSome → (m.state.entryAt below).isSome →
          n.state.entryAt below = m.state.entryAt below) ∧
      (n.role = .leader → m.role = .leader → n.state.currentTerm < m.state.currentTerm →
        n.state.commitIndex ≤ m.state.lastIndex ∧
          ∀ index ≤ n.state.commitIndex, (n.state.entryAt index).isSome →
            (m.state.entryAt index).isSome → n.state.entryAt index = m.state.entryAt index) := by
  obtain ⟨s, s', later, hr, hr', hinv, g, g'⟩ := fixed_states boot hkeeps i j
  have hln := hr.toLocal hn
  have hlm := hr'.toLocal hm
  have hrep := hln.durable.represents
  have hrep' := hlm.durable.represents
  refine ⟨fun index entry entry' he he' hterm below hbelow hsome hsome' => ?_,
    fun hrole hrole' hlt => ?_⟩
  · obtain ⟨hpos, hat⟩ := hrep.entryAt (by rw [he]; rfl)
    obtain ⟨-, hat'⟩ := hrep'.entryAt (by rw [he']; rfl)
    rw [he] at hat
    rw [he'] at hat'
    have hagree := ((hr.inv.log_sound n.id).grow g).matching ((hr'.inv.log_sound m.id).grow g')
      hat.symm hat'.symm hterm
    exact entryAt_eq_of_agree hrep hrep' hagree (by omega) hsome hsome'
  · -- the later leader was elected with everything committed
    have hagree : Agree n.state.commitIndex (s.log n.id) (s'.log m.id) := by
      rcases hln.durable.knowsLog trivial with h0 | ⟨t, k, hcommit, ht, hk, hagree⟩
      · rw [h0]
        exact Agree.zero _ _
      · have hleader := hlm.leadership hrole'
        obtain ⟨b, hb, -⟩ := hleader.leads
        have hcomplete := hinv.leader_completeness (g'.elect hb) (g.committed hcommit)
          (ht.trans_lt hlt)
        rw [hleader.log]
        exact ((hagree.left_mono (g.lead (hr.inv.commit_elected hcommit).1)).symm.trans
          (hcomplete.mono hk)).right_mono (hr'.inv.ballot_prefix hb)
    refine ⟨hlm.length_eq ▸ hagree.right_le, fun index hi hsome hsome' => ?_⟩
    exact entryAt_eq_of_agree hrep hrep' hagree hi hsome hsome'

/-- Node 1 commits an entry in term one, and node 2 is elected in term two. -/
def handoverRun : List Action :=
  pairRun ++
    [.call 2 .startElection,
      .call 1 (.receive 2 (.requestVoteRequest ⟨2, 2, 1, 1⟩)),
      .call 2 (.receive 1 (.requestVoteResponse ⟨2, true⟩))]

/-- The new leader holds the entry that the old one committed. -/
theorem log_matching_and_leader_completeness_handover :
    (nodeAfter [1, 2] (handoverRun.take 9) 1 (by decide +kernel)).state.commitIndex = 1 ∧
      (nodeAfter [1, 2] (handoverRun.take 9) 1 (by decide +kernel)).state.entryAt 1 =
        (nodeAfter [1, 2] (handoverRun.take 12) 2 (by decide +kernel)).state.entryAt 1 :=
  ⟨by decide +kernel,
    ((log_matching_and_leader_completeness [1, 2] handoverRun (by decide +kernel) 9 12 1 2
      (nodeAfter [1, 2] (handoverRun.take 9) 1 (by decide +kernel))
      (nodeAfter [1, 2] (handoverRun.take 12) 2 (by decide +kernel)) (nodeAfter_eq _)
      (nodeAfter_eq _)).2 (by decide +kernel) (by decide +kernel) (by decide +kernel)).2 1
      (by decide +kernel) (by decide +kernel) (by decide +kernel)⟩

/-! ### Messages -/

/-- What a message promises: a granted vote is the only one of its term and is stored, the append
requests of a term have one sender and one entry for an index, acknowledged entries are stored. -/
def Packet.Kept (sent : List Packet) (state : PersistentState) (p : Packet) : Prop :=
  match p.message with
  | .requestVoteResponse a => a.granted = true → a.term ≤ state.currentTerm ∧
      (a.term = state.currentTerm → state.votedFor = some p.destination) ∧
      ∀ q ∈ sent, ∀ b, q.message = .requestVoteResponse b → q.source = p.source →
        b.term = a.term → b.granted = true → q.destination = p.destination
  | .appendEntriesRequest a =>
      ∀ q ∈ sent, ∀ b, q.message = .appendEntriesRequest b → b.term = a.term →
        q.source = p.source ∧ ∀ k l x y, a.entries[k]? = some x → b.entries[l]? = some y →
          a.previousLogIndex + k = b.previousLogIndex + l → x = y
  | .appendEntriesResponse a => a.success = true → a.term ≤ state.currentTerm ∧
      (a.term = state.currentTerm → a.matchIndex ≤ state.lastIndex ∧
        ∀ q ∈ sent, ∀ b, q.message = .appendEntriesRequest b → b.term = a.term →
          ∀ k x y, b.entries[k]? = some x → b.previousLogIndex + k < a.matchIndex →
            state.entryAt (b.previousLogIndex + k + 1) = some y → x = y)
  | _ => True

lemma AppendSlice.getElem? {log request} {entry : LogEntry} (h : AppendSlice log request)
    (hk : request.entries[k]? = some entry) :
    log[request.previousLogIndex + k]? = some entry := by
  have hlt := (List.getElem?_eq_some_iff.mp hk).1
  rwa [h.entries, List.getElem?_take_of_lt hlt, List.getElem?_drop] at hk

/-- Only a leader of a later term makes a node drop what it acknowledged. -/
lemma Refines.acked_agree {c s v} (hr : Refines boot True c s)
    (hack : Acked s v (c.stored v).currentTerm k) :
    Agree k (s.lead (c.stored v).currentTerm) (s.log v) := by
  have hterm := (hr.durable v).term
  rcases hr.inv.ack_kept (hack k le_rfl) with hagree | ⟨_, _, hlater, hbefore, -⟩
  · exact hagree
  · omega

/-- **Sent messages are kept** at any time of a run, through crashes and losses. -/
theorem sent_messages_are_kept (boot : List NodeId) (actions : List Action)
    (hkeeps : ∀ action ∈ actions, action.keepsVoters = true) (i : ℕ) (p : Packet)
    (hp : p ∈ (stateAt boot actions i).sent) :
    p.Kept (stateAt boot actions i).sent ((stateAt boot actions i).stored p.source) := by
  obtain ⟨s, -, -, hr, -⟩ := fixed_states boot hkeeps i i
  have hpackets := hr.packet
  simp only [PacketOk] at hpackets
  have hdurable := hr.durable p.source
  have hterm := hdurable.term
  have hok := hpackets p hp
  rw [Packet.Kept]
  cases hmessage : p.message with
  | requestVoteResponse a =>
    rw [hmessage] at hok
    intro hgranted
    obtain ⟨_, hvote⟩ := hok hgranted
    refine ⟨hterm ▸ hr.inv.vote_term hvote, fun hcurrent => ?_, ?_⟩
    · rw [← hdurable.vote, ← hcurrent, hvote]
      rfl
    · intro q hq b hb hsource hsame hgranted'
      have hother := hpackets q hq
      simp only [hb, hsource, hsame, hvote] at hother
      obtain ⟨_, hother⟩ := hother hgranted'
      exact (congrArg Prod.fst (Option.some.inj hother)).symm
  | appendEntriesRequest a =>
    rw [hmessage] at hok
    intro q hq b hb hsame
    have hother := hpackets q hq
    simp only [hb, hsame] at hother
    refine ⟨hother.1.unique hok.1, fun k l x y hx hy hkl => Option.some.inj ?_⟩
    rw [← hok.2.1.getElem? hx, hkl, hother.2.1.getElem? hy]
  | appendEntriesResponse a =>
    rw [hmessage] at hok
    intro hsuccess
    have hack := hok hsuccess
    refine ⟨hterm ▸ hr.inv.ack_term (hack _ le_rfl), fun hcurrent => ?_⟩
    have hagree := hr.acked_agree (hcurrent ▸ hack)
    refine ⟨hdurable.represents.lastIndex ▸ hagree.right_le, ?_⟩
    intro q hq b hb hsame k x y hx hlt hy
    have hother := hpackets q hq
    simp only [hb, hsame, hcurrent] at hother
    have hstored := hdurable.represents.entryAt (Option.isSome_of_eq_some hy)
    rw [hy, Nat.add_sub_cancel, ← hagree.getElem_eq hlt, hother.2.1.getElem? hx] at hstored
    exact (Option.some.inj hstored.2).symm
  | _ => trivial

/-- The entry that node 2 has acknowledged is in its log. -/
theorem sent_messages_are_kept_pair :
    let p : Packet := ⟨2, 1, .appendEntriesResponse ⟨1, true, 1, none, 0⟩⟩
    let c := stateAt [1, 2] pairRun 9
    p ∈ c.sent ∧ p.Kept c.sent (c.stored 2) := by
  intro p c
  have hp : p ∈ c.sent := by decide +kernel
  exact ⟨hp, sent_messages_are_kept [1, 2] pairRun (by decide) 9 p hp⟩

end Chronos.Raft
