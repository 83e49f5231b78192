import Chronos.Raft.FixedSafety

/-!
Read barriers of a group with fixed voters.

* `BarrierEffect`: what a call can do with read barriers, said once.
* `ContextsUsed`: while a node leads, all requests of its term carry contexts below
  its counter, and every acknowledgement answers such a request.
* `BarrierSince`: after a barrier was opened, its acknowledgements come from nodes
  that had not left the leader's term when it was opened.
* `ready_read_index_covers_commits`: when a barrier is confirmed, no node had
  committed more than its read index when it was opened.
-/

namespace Chronos.Raft

open List RaftNode Function Option

open Consensus (Agree Knows Grows)

/-! ### What calls do with barriers -/

/-- Requests and acknowledgements of read barriers. -/
def Message.signalsBarrier : Message → Bool
  | .readBarrierRequest _ => true
  | .readBarrierResponse response => response.accepted
  | _ => false

/-- The pending barrier stays or is given up, and the context counter stays. -/
structure KeepsBarrier (n n' : RaftNode) : Prop where
  pending : n'.pendingReadBarrier = n.pendingReadBarrier ∨ n'.pendingReadBarrier = none
  context : n'.nextReadContext = n.nextReadContext

/-- A barrier with one more acknowledgement. -/
def PendingReadBarrier.acknowledge (pending : PendingReadBarrier) (source : NodeId) :
    PendingReadBarrier :=
  { pending with acknowledgements := insert source pending.acknowledgements }

/-- What a confirmed barrier reports. -/
def PendingReadBarrier.report (pending : PendingReadBarrier) : ReadBarrier :=
  ⟨pending.term, pending.context, pending.readIndex⟩

/-- The barrier is pending until it has a quorum, and is reported then. -/
structure Settles (barrier : PendingReadBarrier) (n' : RaftNode) (transition : Transition) :
    Prop where
  pending : n'.pendingReadBarrier = if readBarrierQuorum barrier then none else some barrier
  ready : transition.readBarrierReady =
    if readBarrierQuorum barrier then some barrier.report else none

/-- A leader opens a barrier. -/
structure Opens (n n' : RaftNode) (transition : Transition) : Prop extends MayOpen n where
  next : n'.nextReadContext = 0 ∨ n'.nextReadContext = n.nextReadContext + 1
  settles : Settles n.openBarrier n' transition
  requests : ∀ out ∈ transition.outbound, out.message =
    .readBarrierRequest ⟨n.state.currentTerm, n.id, n.nextReadContext⟩

/-- **What a call can do with read barriers.** -/
inductive BarrierEffect (n : RaftNode) (n' : RaftNode) (transition : Transition) : Call → Prop where
  | silent (call : Call) (keeps : KeepsBarrier n n') (ready : transition.readBarrierReady = none)
      (quiet : ∀ out ∈ transition.outbound, out.message.signalsBarrier = false) :
      BarrierEffect n n' transition call
  | opened (opens : Opens n n' transition) : BarrierEffect n n' transition .beginReadBarrier
  | acknowledged (source : NodeId) (request : ReadBarrierRequest)
      (term : n.state.currentTerm ≤ request.term) (keeps : KeepsBarrier n n')
      (ready : transition.readBarrierReady = none)
      (answer : transition.outbound =
        [⟨source, .readBarrierResponse ⟨request.term, request.context, true⟩⟩]) :
      BarrierEffect n n' transition (.receive source (.readBarrierRequest request))
  | counted (source : NodeId) (pending : PendingReadBarrier)
      (isPending : n.pendingReadBarrier = some pending) (leader : n.role = .leader)
      (term : n.state.currentTerm = pending.term)
      (context : n'.nextReadContext = n.nextReadContext)
      (settles : Settles (pending.acknowledge source) n' transition)
      (quiet : transition.outbound = []) :
      BarrierEffect n n' transition
        (.receive source (.readBarrierResponse ⟨pending.term, pending.context, true⟩))

section Call

variable {n n' : RaftNode} {call : Call} {transition : Transition}

lemma nextContext_nextReadContext (n : RaftNode) : n.nextContext.nextReadContext = 0 ∨
    n.nextContext.nextReadContext = n.nextReadContext + 1 := by
  unfold nextContext
  split
  · exact .inl rfl
  · exact .inr rfl

lemma opens_ready (h : MayOpen n) (quorum : readBarrierQuorum n.openBarrier = true) :
    Opens n n.nextContext { readBarrierReady := some n.openBarrier.report } := by
  refine ⟨h, nextContext_nextReadContext n, ⟨?_, ?_⟩, by simp⟩
  · rw [if_pos quorum]
    exact h.none
  · rw [if_pos quorum]

lemma opens_asking (h : MayOpen n) (quorum : readBarrierQuorum n.openBarrier = false) :
    Opens n { n.nextContext with pendingReadBarrier := some n.openBarrier }
      { outbound := (n.voters.filter (· ≠ n.id)).map fun peer =>
          ⟨peer, .readBarrierRequest ⟨n.state.currentTerm, n.id, n.nextReadContext⟩⟩ } := by
  refine ⟨h, nextContext_nextReadContext n, ⟨?_, ?_⟩, ?_⟩
  · rw [quorum]
    rfl
  · rw [quorum]
    rfl
  · intro _ hout
    obtain ⟨_, -, rfl⟩ := mem_map.mp hout
    rfl

/-- A successful `begin_read_barrier` opens a barrier. -/
lemma opens_of_beginReadBarrier (h : n.beginReadBarrier = (n', .ok transition)) :
    Opens n n' transition := by
  unfold beginReadBarrier at h
  split at h
  · cases h
  rename_i hrole
  split at h
  · cases h
  rename_i hnone
  split at h
  · cases h
  rename_i hcommit
  split at h
  · cases h
  rename_i hcontext
  simp only [not_or, not_not] at hrole hcommit
  have hopens : MayOpen n := ⟨hrole, by simpa using hnone, hcommit.1, hcommit.2, hcontext⟩
  dsimp only at h
  split at h
  · rename_i hquorum
    cases h
    exact opens_ready hopens hquorum
  · rename_i hquorum
    cases h
    exact opens_asking hopens (by simpa using hquorum)

lemma KeepsBarrier.refl (n : RaftNode) : KeepsBarrier n n := ⟨.inl rfl, rfl⟩

lemma KeepsBarrier.trans {n'' : RaftNode} (h : KeepsBarrier n n') (h' : KeepsBarrier n' n'') :
    KeepsBarrier n n'' := by
  refine ⟨?_, h'.context.trans h.context⟩
  rcases h'.pending with heq | hnone
  · rw [heq]
    exact h.pending
  · exact .inr hnone

/-- Only the barrier and the counter of the first node matter. -/
lemma KeepsBarrier.of_eq {m : RaftNode} (h : KeepsBarrier m n')
    (hpending : m.pendingReadBarrier = n.pendingReadBarrier)
    (hcontext : m.nextReadContext = n.nextReadContext) : KeepsBarrier n n' :=
  ⟨hpending ▸ h.pending, hcontext ▸ h.context⟩

lemma KeepsBarrier.installMembership (n : RaftNode) (membership : DerivedMembership) :
    KeepsBarrier n (n.installMembership membership) := by
  unfold RaftNode.installMembership
  split <;> exact ⟨.inl rfl, rfl⟩

lemma KeepsBarrier.stepDownIfRemoved (n : RaftNode) : KeepsBarrier n n.stepDownIfRemoved := by
  unfold RaftNode.stepDownIfRemoved
  split
  · exact ⟨.inr rfl, rfl⟩
  · exact .refl n

lemma KeepsBarrier.observe (n : RaftNode) (term : ℕ) : KeepsBarrier n (n.observe term) := by
  unfold RaftNode.observe
  split
  · exact ⟨.inr rfl, rfl⟩
  · exact .refl n

lemma KeepsBarrier.advanced {commit : Option ℕ} (h : Advanced n n' commit) :
    KeepsBarrier n n' := by
  cases h with
  | none => exact .refl n
  | some commit membership => exact (KeepsBarrier.installMembership _ membership).of_eq rfl rfl

lemma replicationForPeer_signalsBarrier (n : RaftNode) (peer : NodeId) :
    (n.replicationForPeer peer).signalsBarrier = false := by
  unfold replicationForPeer replicationFor
  dsimp only
  split <;> rfl

lemma appendToAll_signalsBarrier (n : RaftNode) :
    ∀ out ∈ n.appendToAll, out.message.signalsBarrier = false := by
  intro _ hout
  obtain ⟨peer, -, rfl⟩ := mem_map.mp hout
  exact replicationForPeer_signalsBarrier n peer

lemma refusal_signalsBarrier (n : RaftNode) (source : NodeId) (message : Message) :
    ∀ out ∈ refusal n source message, out.message.signalsBarrier = false := by
  intro _ hout
  cases message <;> simp only [refusal, mem_singleton, not_mem_nil] at hout <;> subst hout <;> rfl

/-- A call that sends one message of another kind. -/
lemma BarrierEffect.silent_one (keeps : KeepsBarrier n n')
    (ready : transition.readBarrierReady = none) {out : OutboundMessage}
    (hout : transition.outbound = [out]) (hsignals : out.message.signalsBarrier = false) :
    BarrierEffect n n' transition call := by
  refine .silent call keeps ready fun _ ho => ?_
  rw [hout, mem_singleton] at ho
  exact ho ▸ hsignals

/-- A leader counts the acknowledgement that it awaits. -/
lemma BarrierEffect.of_awaits {source : NodeId} {response : ReadBarrierResponse}
    {pending : PendingReadBarrier} (awaits : Awaits n response pending)
    (context : n'.nextReadContext = n.nextReadContext)
    (settles : Settles (pending.acknowledge source) n' transition)
    (quiet : transition.outbound = []) :
    BarrierEffect n n' transition (.receive source (.readBarrierResponse response)) := by
  obtain ⟨_, _, _⟩ := response
  obtain ⟨isPending, term, leader, rfl, rfl, rfl⟩ := awaits
  exact .counted source pending isPending leader term.symm context settles quiet

/-- **What every call does with read barriers.** -/
lemma effect_barrier (heff : Effect n call n' transition) :
    BarrierEffect n n' transition call := by
  have hnil : ∀ out ∈ ([] : List OutboundMessage), out.message.signalsBarrier = false := by simp
  have hall : ∀ {voters : List NodeId} {f : NodeId → OutboundMessage},
      (∀ peer, (f peer).message.signalsBarrier = false) →
      ∀ out ∈ voters.map f, out.message.signalsBarrier = false := by
    intro _ _ hf out hout
    obtain ⟨peer, -, rfl⟩ := mem_map.mp hout
    exact hf peer
  cases heff with
  | unchanged => exact .silent _ (.refl n) rfl hnil
  | campaigned | campaignWon | voteWon => exact .silent _ ⟨.inr rfl, rfl⟩ rfl (hall fun _ => rfl)
  | appendedLocal _ _ _ _ _ advanced =>
    exact .silent _ ((KeepsBarrier.advanced advanced).of_eq rfl rfl) rfl
      (appendToAll_signalsBarrier _)
  | @appendedMembership _ type payload membership next _ _ _ _ advanced =>
    have hinstalled := KeepsBarrier.installMembership (n.pushEntry type payload) membership
    have hadvanced : KeepsBarrier ((n.pushEntry type payload).installMembership membership) next :=
      (KeepsBarrier.advanced advanced).of_eq rfl rfl
    have hkeeps := hinstalled.trans (hadvanced.trans (.stepDownIfRemoved next))
    exact .silent _ (hkeeps.of_eq rfl rfl) rfl (appendToAll_signalsBarrier _)
  | installAborted => exact .silent_one ⟨.inl rfl, rfl⟩ rfl rfl rfl
  | installCompleted =>
    exact .silent_one ⟨.inl rfl, rfl⟩ rfl rfl rfl
  | compacted | applied | voteCounted => exact .silent _ ⟨.inl rfl, rfl⟩ rfl hnil
  | heartbeat => exact .silent _ (.refl n) rfl (appendToAll_signalsBarrier n)
  | barrierReady opens quorum =>
    exact .opened (opens_ready opens quorum)
  | barrierOpened opens quorum =>
    exact .opened (opens_asking opens quorum)
  | observed source message =>
    exact .silent _ (.observe n message.term) rfl (refusal_signalsBarrier n source message)
  | granted source request =>
    have hkeeps := KeepsBarrier.observe n request.term
    exact .silent_one ⟨hkeeps.pending, hkeeps.context⟩ rfl rfl rfl
  | appendRejected | appendAccepted | installCovered =>
    exact .silent_one ⟨.inr rfl, rfl⟩ rfl rfl rfl
  | appendConfirmed =>
    refine .silent _ ⟨.inl rfl, rfl⟩ rfl fun out hout => ?_
    split at hout
    · obtain rfl := mem_singleton.mp hout
      exact replicationForPeer_signalsBarrier _ _
    · cases hout
  | appendCommitted _ _ _ _ _ _ advanced =>
    have hkeeps := (KeepsBarrier.advanced advanced).trans (.stepDownIfRemoved _)
    exact .silent _ (hkeeps.of_eq rfl rfl) rfl (appendToAll_signalsBarrier _)
  | appendBackedOff | installConfirmed =>
    exact .silent_one ⟨.inl rfl, rfl⟩ rfl rfl (replicationForPeer_signalsBarrier _ _)
  | installCompeting _ _ _ _ _ answers =>
    refine .silent _ ⟨.inr rfl, rfl⟩ rfl fun _ hout => ?_
    rcases answers with rfl | rfl
    · cases hout
    · obtain rfl := mem_singleton.mp hout
      rfl
  | installPending => exact .silent _ ⟨.inr rfl, rfl⟩ rfl hnil
  | installFailed =>
    exact .silent_one (.refl n) rfl rfl (replicationForPeer_signalsBarrier _ _)
  | barrierAcknowledged source request _ term =>
    exact .acknowledged source request term ⟨.inr rfl, rfl⟩ rfl rfl
  | barrierCounted source _ pending _ _ awaits pending_eq quorum =>
    subst pending_eq
    have hquorum : readBarrierQuorum (pending.acknowledge source) = _ := quorum
    exact .of_awaits awaits rfl ⟨by rw [hquorum]; rfl, by rw [hquorum]; rfl⟩ rfl
  | barrierCompleted source _ pending _ awaits quorum =>
    have hquorum : readBarrierQuorum (pending.acknowledge source) = _ := quorum
    exact .of_awaits awaits rfl ⟨by rw [hquorum]; rfl, by rw [hquorum]; rfl⟩ rfl

/-- Where a pending or a confirmed barrier comes from: it was pending, or it is being opened. -/
lemma BarrierEffect.origin (h : BarrierEffect n n' transition call) {barrier : ReadBarrier}
    (hb : n'.pendingReadBarrier.map PendingReadBarrier.report = some barrier ∨
      transition.readBarrierReady = some barrier) :
    n.pendingReadBarrier.map PendingReadBarrier.report = some barrier ∨
      call = .beginReadBarrier ∧ barrier = n.openBarrier.report := by
  have hkept : KeepsBarrier n n' → transition.readBarrierReady = none →
      n.pendingReadBarrier.map PendingReadBarrier.report = some barrier := by
    intro hkeeps hready
    rcases hb with hpending | hemitted
    · rcases hkeeps.pending with heq | hnone
      · rwa [heq] at hpending
      · rw [hnone] at hpending
        cases hpending
    · rw [hready] at hemitted
      cases hemitted
  have hsettled : ∀ {pending}, Settles pending n' transition → barrier = pending.report := by
    intro pending hs
    rw [hs.pending, hs.ready] at hb
    cases hq : readBarrierQuorum pending <;> simpa [hq, eq_comm] using hb
  cases h with
  | silent _ keeps ready | acknowledged _ _ _ keeps ready => exact .inl (hkept keeps ready)
  | opened opens => exact .inr ⟨rfl, hsettled opens.settles⟩
  | counted _ _ isPending _ _ _ settles =>
    refine .inl ?_
    rw [isPending, hsettled settles]
    rfl

/-- A leader stays one of its term, or it is elected in a term that it has not led before. -/
lemma effect_leader {boot : List NodeId} {certain : Prop} {s : History}
    (h : Local boot certain s n) (heff : Effect n call n' transition) (hrole : n'.role = .leader) :
    n.role = .leader ∧ n'.state.currentTerm = n.state.currentTerm ∨
      ¬ Leads s n.id n'.state.currentTerm := by
  cases heff with
  | campaigned => cases hrole
  | campaignWon =>
    refine .inr ?_
    rintro ⟨b, hb, hwin⟩
    have hle := h.inv.winner_term hb
    rw [hwin, h.term_eq] at hle
    exact absurd hle (by simp [elected, campaign])
  | appendedLocal _ _ room _ _ advanced =>
    exact .inl ⟨room.leader, by rw [advanced.state_eq]; rfl⟩
  | @appendedMembership _ type payload membership _ _ _ _ entry advanced =>
    refine .inl ⟨entry.leader, ?_⟩
    rw [stepDownIfRemoved_state, advanced.state_eq]
    change ((n.pushEntry type payload).installMembership membership).state.currentTerm = _
    rw [installMembership_state]
    rfl
  | observed source message =>
    by_cases hterm : message.term > n.state.currentTerm
    · rw [observe_of_newer hterm] at hrole
      cases hrole
    · rw [observe_of_not_newer hterm] at hrole ⊢
      exact .inl ⟨hrole, rfl⟩
  | granted => cases hrole
  | voteWon _ _ _ counts =>
    refine .inr ?_
    rintro ⟨b, hb, hwin⟩
    exact (h.volatile.candidate counts.candidate).undecided b hb hwin
  | appendRejected => cases hrole
  | appendAccepted => cases hrole
  | appendCommitted _ _ _ answered _ _ advanced =>
    exact .inl ⟨answered.leader, by rw [stepDownIfRemoved_state, advanced.state_eq]; rfl⟩
  | installCovered => cases hrole
  | installCompeting => cases hrole
  | installPending => cases hrole
  | barrierAcknowledged => cases hrole
  | _ => exact .inl ⟨hrole, rfl⟩

end Call

/-! ### Contexts -/

/-- **Contexts are fresh**: while a node leads, the requests of its term are below its counter, and
acknowledgements answer requests. -/
structure ContextsUsed (c : Cluster) : Prop where
  request : ∀ v w request, ⟨v, w, .readBarrierRequest request⟩ ∈ c.sent → ∀ n, c.node v = some n →
    n.role = .leader → n.state.currentTerm = request.term → n.nextReadContext ≠ 0 →
    request.context < n.nextReadContext
  response : ∀ v w term context, ⟨w, v, .readBarrierResponse ⟨term, context, true⟩⟩ ∈ c.sent →
    ∃ leader, ⟨v, w, .readBarrierRequest ⟨term, leader, context⟩⟩ ∈ c.sent

lemma contextsUsed_initial : ContextsUsed .initial where
  request _ _ _ h := by cases h
  response _ _ _ _ h := by cases h

section Event

variable {boot : List NodeId} {certain : Prop} {c c' : Cluster} {s : History} {action : Action}

variable {n n' : RaftNode} {transition : Transition} {call : Call}

/-- What a message that signals a barrier was sent for. -/
lemma BarrierEffect.sent (h : BarrierEffect n n' transition call) {out : OutboundMessage}
    (hout : out ∈ transition.outbound) (hsignals : out.message.signalsBarrier = true) :
    (n'.nextReadContext ≠ 0 → n.nextReadContext < n'.nextReadContext) ∧ out.message =
        .readBarrierRequest ⟨n.state.currentTerm, n.id, n.nextReadContext⟩ ∨
      ∃ request, call = .receive out.destination (.readBarrierRequest request) ∧
        n.state.currentTerm ≤ request.term ∧ out.message =
          .readBarrierResponse ⟨request.term, request.context, true⟩ := by
  cases h with
  | silent _ _ _ quiet =>
    rw [quiet out hout] at hsignals
    cases hsignals
  | opened opens =>
    have := opens.next
    exact .inl ⟨by omega, opens.requests out hout⟩
  | acknowledged _ request term _ _ answer =>
    rw [answer, mem_singleton] at hout
    subst hout
    exact .inr ⟨request, rfl, term, rfl⟩
  | counted _ _ _ _ _ _ _ quiet =>
    rw [quiet] at hout
    cases hout

/-- The counter of a node never falls, unless it is exhausted. -/
lemma BarrierEffect.context_le (h : BarrierEffect n n' transition call)
    (hne : n'.nextReadContext ≠ 0) :
    n.nextReadContext ≠ 0 ∧ n.nextReadContext ≤ n'.nextReadContext := by
  cases h with
  | silent call keeps | acknowledged _ _ _ keeps => have := keeps.context; omega
  | opened opens =>
    have := opens.next
    have := opens.context
    omega
  | counted => omega

lemma create_role {v : NodeId} {state : PersistentState} {limits : RaftLimits}
    (h : RaftNode.create v boot state limits = .ok n) : n.role = .follower := by
  rw [← (create_wellFormed h).2.2.1]
  rfl

/-- **Every event keeps contexts fresh.** -/
lemma ContextsUsed.event (h : ContextsUsed c) (hr : Refines boot certain c s)
    (hevent : Event boot c action c') : ContextsUsed c' := by
  cases hevent with
  | idle => exact h
  | started v _ _ created =>
    refine ⟨fun u w request hmem m hm hrole => ?_, h.response⟩
    by_cases hu : u = v
    · subst hu
      simp only [update_self, some.injEq] at hm
      subst hm
      rw [create_role created] at hrole
      cases hrole
    · simp only [update_of_ne hu] at hm
      exact h.request u w request hmem m hm hrole
  | called v _ n _ _ node deliverable performed =>
    have heff := perform_effect performed
    have hbarrier := effect_barrier heff
    refine ⟨fun u w request hmem m hm hrole hterm hne => ?_, fun u w term context hmem => ?_⟩
    · by_cases hu : u = v
      · subst hu
        simp only [Cluster.called, update_self, some.injEq] at hm
        subst hm
        rcases mem_append.mp hmem with hold | hnew
        · obtain ⟨hpos, hle⟩ := hbarrier.context_le hne
          have hid := (hr.node u n node).id
          rcases effect_leader (hr.toLocal node) heff hrole with ⟨hleader, hsame⟩ | hnot
          · exact (h.request u w request hold n node hleader (hsame ▸ hterm) hpos).trans_le hle
          · rw [hterm, hid] at hnot
            exact absurd (hr.packet _ hold) hnot
        · obtain ⟨⟨destination, message⟩, hout, heq⟩ := mem_map.mp hnew
          cases heq
          rcases hbarrier.sent hout rfl with ⟨hlt, heq⟩ | ⟨_, -, -, heq⟩
          · cases heq
            exact hlt hne
          · cases heq
      · simp only [Cluster.called, update_of_ne hu] at hm
        rcases mem_append.mp hmem with hold | hnew
        · exact h.request u w request hold m hm hrole hterm hne
        · obtain ⟨_, -, heq⟩ := mem_map.mp hnew
          exact absurd (congrArg Packet.source heq).symm hu
    · rcases mem_append.mp hmem with hold | hnew
      · obtain ⟨leader, hrequest⟩ := h.response u w term context hold
        exact ⟨leader, mem_append_left _ hrequest⟩
      · obtain ⟨⟨_, _⟩, hout, heq⟩ := mem_map.mp hnew
        cases heq
        rcases hbarrier.sent hout rfl with ⟨-, heq⟩ | ⟨request, hcall, -, heq⟩
        · cases heq
        · cases heq
          subst hcall
          exact ⟨request.leaderId, mem_append_left _
            (by simpa [Call.deliverable] using deliverable)⟩

/-! ### After a barrier was opened -/

/-- A pending barrier is the opened one, with acknowledgements of nodes of the given kind. -/
structure Acknowledged (opened : PendingReadBarrier) (early : NodeId → Prop)
    (pending : PendingReadBarrier) : Prop where
  same : pending = { opened with acknowledgements := pending.acknowledgements }
  early : ∀ w ∈ pending.acknowledgements, early w

/-- **Only early nodes acknowledge** the barrier that node `v` has opened. -/
structure BarrierSince (v : NodeId) (opened : PendingReadBarrier) (early : NodeId → Prop)
    (c : Cluster) : Prop where
  response : ∀ w, ⟨w, v, .readBarrierResponse ⟨opened.term, opened.context, true⟩⟩ ∈ c.sent →
    early w
  context : ∀ n, c.node v = some n → n.role = .leader → n.state.currentTerm = opened.term →
    n.nextReadContext ≠ 0 → opened.context < n.nextReadContext
  pending : ∀ n, c.node v = some n → n.role = .leader → n.state.currentTerm = opened.term →
    ∀ pending, n.pendingReadBarrier = some pending → pending.context = opened.context →
      Acknowledged opened early pending

variable {v : NodeId} {opened : PendingReadBarrier} {early : NodeId → Prop}

variable {pending : PendingReadBarrier} {source : NodeId}

lemma Acknowledged.acknowledge (h : Acknowledged opened early pending) (hsource : early source) :
    Acknowledged opened early (pending.acknowledge source) := by
  refine ⟨?_, fun w hw => ?_⟩
  · rw [PendingReadBarrier.acknowledge, h.same]
  · rcases Finset.mem_insert.mp hw with rfl | hold
    · exact hsource
    · exact h.early w hold

/-- What a leader counts for the opened barrier. -/
lemma BarrierSince.counted (h : BarrierSince v opened early c) (hn : c.node v = some n)
    (hrole : n.role = .leader) (hpending : n.pendingReadBarrier = some pending)
    (hterm : n.state.currentTerm = pending.term) (hopened : pending.term = opened.term)
    (hcontext : pending.context = opened.context)
    (hsent : ⟨source, v, .readBarrierResponse ⟨pending.term, pending.context, true⟩⟩ ∈ c.sent) :
    Acknowledged opened early (pending.acknowledge source) := by
  rw [hopened, hcontext] at hsent
  exact (h.pending n hn hrole (hterm.trans hopened) pending hpending hcontext).acknowledge
    (h.response source hsent)

/-- **Every event keeps the acknowledgements early.** -/
lemma BarrierSince.event (h : BarrierSince v opened early c) (hr : Refines boot certain c s)
    (hleads : Leads s v opened.term) (hearly : ∀ w, s.term w ≤ opened.term → early w)
    (hevent : Event boot c action c') : BarrierSince v opened early c' := by
  cases hevent with
  | idle => exact h
  | started u _ n created =>
    by_cases hu : v = u
    · subst hu
      have hnot : ∀ m, update c.node v (some n) v = some m → m.role ≠ .leader := by
        intro m hm hrole
        rw [update_self, some.injEq] at hm
        rw [← hm, create_role created] at hrole
        cases hrole
      exact ⟨h.response, fun m hm hrole => absurd hrole (hnot m hm),
        fun m hm hrole => absurd hrole (hnot m hm)⟩
    · refine ⟨h.response, fun m hm => ?_, fun m hm => ?_⟩
      · exact h.context m (by simpa only [update_of_ne hu] using hm)
      · exact h.pending m (by simpa only [update_of_ne hu] using hm)
  | called u call n n' transition node deliverable performed =>
    have heff := perform_effect performed
    have hbarrier := effect_barrier heff
    have hl := hr.toLocal node
    have hid := (hr.node u n node).id
    have hresponse : ∀ w, ⟨w, v, .readBarrierResponse ⟨opened.term, opened.context, true⟩⟩ ∈
        (c.called u n' transition).sent → early w := by
      intro w hmem
      rcases mem_append.mp hmem with hold | hnew
      · exact h.response w hold
      · obtain ⟨⟨_, _⟩, hout, heq⟩ := mem_map.mp hnew
        cases heq
        rcases hbarrier.sent hout rfl with ⟨-, heq⟩ | ⟨_, -, hle, heq⟩
        · cases heq
        · refine hearly u ?_
          simp only [Message.readBarrierResponse.injEq, ReadBarrierResponse.mk.injEq] at heq
          rw [← hid, hl.term_eq, heq.1]
          exact hle
    by_cases hu : v = u
    · subst hu
      -- the leader has led this term before
      have hstays : n'.role = .leader → n'.state.currentTerm = opened.term →
          n.role = .leader ∧ n.state.currentTerm = opened.term := by
        intro hrole hterm
        rcases effect_leader hl heff hrole with ⟨hleader, hsame⟩ | hnot
        · exact ⟨hleader, hsame ▸ hterm⟩
        · rw [hterm, hid] at hnot
          exact absurd hleads hnot
      have hself : ∀ m, (c.called v n' transition).node v = some m → m = n' := by
        intro m hm
        simp only [Cluster.called, update_self, some.injEq] at hm
        exact hm.symm
      refine ⟨hresponse, fun m hm hrole hterm hne => ?_, fun m hm hrole hterm => ?_⟩
      · obtain rfl := hself m hm
        obtain ⟨hleader, hsame⟩ := hstays hrole hterm
        obtain ⟨hpos, hle⟩ := hbarrier.context_le hne
        exact (h.context n node hleader hsame hpos).trans_le hle
      · obtain rfl := hself m hm
        obtain ⟨hleader, hsame⟩ := hstays hrole hterm
        have hkept : KeepsBarrier n m → ∀ pending, m.pendingReadBarrier = some pending →
            pending.context = opened.context → Acknowledged opened early pending := by
          intro hkeeps pending hpending
          rcases hkeeps.pending with heq | hnone
          · exact h.pending n node hleader hsame pending (heq ▸ hpending)
          · rw [hnone] at hpending
            cases hpending
        cases hbarrier with
        | silent call keeps | acknowledged _ _ _ keeps => exact hkept keeps
        | opened opens =>
          intro pending hpending hcontext
          have hlt := h.context n node hleader hsame opens.context
          rw [opens.settles.pending] at hpending
          split_ifs at hpending
          cases hpending
          exact absurd hcontext (Nat.ne_of_gt hlt)
        | counted _ pending isPending leader term _ settles =>
          intro pending' hpending' hcontext
          rw [settles.pending] at hpending'
          split at hpending'
          · cases hpending'
          · cases hpending'
            exact h.counted node leader isPending term (term.symm.trans hsame) hcontext
              (by simpa [Call.deliverable] using deliverable)
    · refine ⟨hresponse, fun m hm => ?_, fun m hm => ?_⟩
      · exact h.context m (by simpa only [Cluster.called, update_of_ne hu] using hm)
      · exact h.pending m (by simpa only [Cluster.called, update_of_ne hu] using hm)

/-- A report about the opened barrier rests on a quorum of early nodes. -/
lemma BarrierSince.ready (h : BarrierSince v opened early c) (hn : c.node v = some n)
    (hdeliver : call.deliverable c.sent v = true) (hbarrier : BarrierEffect n n' transition call)
    {ready : ReadBarrier} (hready : transition.readBarrierReady = some ready)
    (hterm : ready.term = opened.term) (hcontext : ready.context = opened.context) :
    ∃ pending, Acknowledged opened early pending ∧ readBarrierQuorum pending = true ∧
      ready = pending.report := by
  cases hbarrier with
  | silent _ _ none | acknowledged _ _ _ _ none =>
    rw [none] at hready
    cases hready
  | opened opens =>
    rw [opens.settles.ready] at hready
    split at hready
    · cases hready
      exact absurd hcontext (Nat.ne_of_gt (h.context n hn opens.leader hterm opens.context))
    · cases hready
  | counted _ _ isPending leader term _ settles =>
    rw [settles.ready] at hready
    split at hready
    · rename_i hquorum
      cases hready
      exact ⟨_, h.counted hn leader isPending term hterm hcontext
        (by simpa [Call.deliverable] using hdeliver), hquorum, rfl⟩
    · cases hready

/-- The barrier has just been opened: nobody can have acknowledged it before. -/
lemma barrierSince_opened (hused : ContextsUsed c) (hn : c.node v = some n) (hself : early n.id)
    (h : Opens n n' transition) :
    BarrierSince v n.openBarrier early (c.called v n' transition) := by
  have hnode : ∀ m, (c.called v n' transition).node v = some m → m = n' := by
    intro m hm
    simp only [Cluster.called, update_self, some.injEq] at hm
    exact hm.symm
  refine ⟨fun w hmem => ?_, fun m hm hrole hterm hne => ?_, fun m hm hrole hterm => ?_⟩
  · rcases mem_append.mp hmem with hold | hnew
    · obtain ⟨leader, hrequest⟩ := hused.response v w _ _ hold
      exact absurd (hused.request v w _ hrequest n hn h.leader rfl h.context) (Nat.lt_irrefl _)
    · obtain ⟨⟨_, _⟩, hout, heq⟩ := mem_map.mp hnew
      have hrequest := h.requests _ hout
      simp only [Packet.mk.injEq] at heq
      rw [heq.2.2] at hrequest
      cases hrequest
  · obtain rfl := hnode m hm
    have := h.next
    change n.nextReadContext < _
    omega
  · obtain rfl := hnode m hm
    intro pending hpending _
    rw [h.settles.pending] at hpending
    split_ifs at hpending
    cases hpending
    refine ⟨rfl, fun w hw => ?_⟩
    obtain rfl := Finset.mem_singleton.mp hw
    exact hself

end Event

/-! ### The read index -/

section ReadIndex

variable {boot : List NodeId} {c : Cluster} {s : History} {v : NodeId} {n : RaftNode}

/-- **A quorum behind the leader**: when nodes that have not left its term make a quorum, no node
has committed more than the leader. -/
lemma commit_le_of_quorum (hr : Refines boot True c s) (hfixed : FixedVoters boot c)
    (hn : c.node v = some n) (hrole : n.role = .leader) (hcommit : n.state.commitIndex ≠ 0)
    (hcurrent : n.state.termAt n.state.commitIndex = some n.state.currentTerm)
    {pending : PendingReadBarrier}
    (hack : Acknowledged n.openBarrier (fun w => s.term w ≤ n.state.currentTerm) pending)
    (hquorum : readBarrierQuorum pending = true) (w : NodeId) :
    (c.stored w).commitIndex ≤ n.state.commitIndex := by
  have hl := hr.toLocal hn
  have hleader := hl.leadership hrole
  obtain ⟨_, hb, -⟩ := hleader.leads
  have hjoint : n.joint = none := congrArg DerivedMembership.joint
    ((hfixed.plain hr hn).membership (hr.node v n hn).wellFormed)
  have hconfiguration : configurationQuorum n.joint n.committedVoters
      (fun w => decide (w ∈ pending.acknowledgements)) = true := by
    rw [hack.same] at hquorum
    simpa [readBarrierQuorum, openBarrier, hjoint, configurationQuorum] using hquorum
  have hat : Consensus.At (fun entry => (group boot).term entry = n.state.currentTerm)
      (s.lead n.state.currentTerm) (n.state.commitIndex - 1) := by
    have hterm := hl.durable.represents.termAt_eq_some hcurrent
    rw [termOf_of_ne_zero hcommit, map_eq_some_iff, hleader.log] at hterm
    obtain ⟨entry, hentry, hterm⟩ := hterm
    exact ⟨entry, hentry, hterm⟩
  have hvalid := hl.valid
  have hq := hl.quorum hconfiguration
  rw [hleader.log] at hvalid hq
  rcases (hr.durable w).knows with _ | ⟨_, _, hc, -, hk⟩
  · omega
  · exact hk.trans (hr.inv.commit_le_read_index hb hat (by omega) hleader.committed
      hl.durable.knows hvalid hq (fun u hu => hack.early u (by simpa using hu)) hc)

end ReadIndex

/-! ### Runs -/

/-- At step `i` of a run, node `v` opens the read barrier of this term and context. -/
def OpensBarrier (boot : List NodeId) (actions : List Action) (v : NodeId) (term context i : ℕ) :
    Prop :=
  ∃ n, actions[i]? = some (.call v .beginReadBarrier) ∧ (stateAt boot actions i).node v = some n ∧
    Result.isOk n.beginReadBarrier.2 = true ∧ n.state.currentTerm = term ∧
    n.nextReadContext = context

/-- At step `j` of a run, node `v` reports that a read barrier is confirmed. -/
def EmitsReady (boot : List NodeId) (actions : List Action) (v : NodeId) (ready : ReadBarrier)
    (j : ℕ) : Prop :=
  ∃ n call, actions[j]? = some (.call v call) ∧ (stateAt boot actions j).node v = some n ∧
    call.deliverable (stateAt boot actions j).sent v = true ∧
    (n.perform call).2.toOption.bind Transition.readBarrierReady = some ready

section Runs

variable {boot : List NodeId} {actions : List Action} {v : NodeId}

variable {n n' : RaftNode} {call : Call} {transition : Transition}

lemma Cluster.step_called {c : Cluster} (hn : c.node v = some n)
    (hdeliver : call.deliverable c.sent v = true)
    (hperform : n.perform call = (n', .ok transition)) :
    c.step boot (.call v call) = c.called v n' transition := by
  simp [Cluster.step, hn, hdeliver, hperform]

variable {ready : ReadBarrier} {j : ℕ}

lemma EmitsReady.performed (h : EmitsReady boot actions v ready j) :
    ∃ n n' call transition, actions[j]? = some (.call v call) ∧
      (stateAt boot actions j).node v = some n ∧
      call.deliverable (stateAt boot actions j).sent v = true ∧
      n.perform call = (n', .ok transition) ∧ transition.readBarrierReady = some ready := by
  obtain ⟨n, call, haction, hn, hdeliver, hready⟩ := h
  rcases hperform : n.perform call with ⟨n', result⟩
  rw [hperform] at hready
  cases result with
  | error status => cases hready
  | ok transition => exact ⟨n, n', call, transition, haction, hn, hdeliver, hperform, hready⟩

variable {i : ℕ}

lemma OpensBarrier.performed {term context : ℕ} (h : OpensBarrier boot actions v term context i) :
    ∃ n n' transition, actions[i]? = some (.call v .beginReadBarrier) ∧
      (stateAt boot actions i).node v = some n ∧
      n.perform .beginReadBarrier = (n', .ok transition) ∧ n.state.currentTerm = term ∧
      n.nextReadContext = context := by
  obtain ⟨n, haction, hn, hok, hterm, hcontext⟩ := h
  obtain ⟨transition, htransition⟩ := Result.isOk_iff.mp hok
  exact ⟨n, n.beginReadBarrier.1, transition, haction, hn, by rw [← htransition]; rfl, hterm,
    hcontext⟩

variable {barrier : ReadBarrier}

/-- What a call of step `k` leaves pending or confirms has been opened, if what was pending has. -/
lemma opensBarrier_of_origin {k : ℕ} (haction : actions[k]? = some (.call v call))
    (hn : (stateAt boot actions k).node v = some n)
    (hperform : n.perform call = (n', .ok transition))
    (horigin : n.pendingReadBarrier.map PendingReadBarrier.report = some barrier ∨
      call = .beginReadBarrier ∧ barrier = n.openBarrier.report)
    (hpending : n.pendingReadBarrier.map PendingReadBarrier.report = some barrier →
      ∃ i < k, OpensBarrier boot actions v barrier.term barrier.context i) :
    ∃ i ≤ k, OpensBarrier boot actions v barrier.term barrier.context i := by
  rcases horigin with hold | ⟨rfl, rfl⟩
  · obtain ⟨i, hi, hopens⟩ := hpending hold
    exact ⟨i, hi.le, hopens⟩
  · refine ⟨k, le_rfl, n, haction, hn, ?_, rfl, rfl⟩
    exact Result.isOk_iff.mpr ⟨transition, congrArg Prod.snd hperform⟩

/-- **A pending barrier has been opened** at an earlier step. -/
lemma exists_opensBarrier (k : ℕ) (hn : (stateAt boot actions k).node v = some n)
    (hpending : n.pendingReadBarrier.map PendingReadBarrier.report = some barrier) :
    ∃ i < k, OpensBarrier boot actions v barrier.term barrier.context i := by
  induction k generalizing n with
  | zero => cases hn
  | succ k ih =>
    -- the step left the node alone
    have hearlier : ∀ {n}, (stateAt boot actions k).node v = some n →
        n.pendingReadBarrier.map PendingReadBarrier.report = some barrier →
        ∃ i < k + 1, OpensBarrier boot actions v barrier.term barrier.context i := by
      intro n hn hpending
      obtain ⟨i, hi, hopens⟩ := ih hn hpending
      exact ⟨i, by omega, hopens⟩
    cases haction : actions[k]? with
    | none =>
      have hsame : stateAt boot actions (k + 1) = stateAt boot actions k := by
        rw [stateAt, take_add_one, haction]
        simp [stateAt]
      exact hearlier (hsame ▸ hn) hpending
    | some action =>
      rw [stateAt_succ haction] at hn
      have hevent := (stateAt boot actions k).step_event boot action
      generalize (stateAt boot actions k).step boot action = c' at hn hevent
      cases hevent with
      | idle => exact hearlier hn hpending
      | started u _ _ created =>
        by_cases hu : v = u
        · subst hu
          simp only [update_self, some.injEq] at hn
          have hfresh : n.pendingReadBarrier = none := by
            rw [← hn, ← (create_wellFormed created).2.2.1]
            rfl
          rw [hfresh] at hpending
          cases hpending
        · simp only [update_of_ne hu] at hn
          exact hearlier hn hpending
      | called u _ _ _ _ node _ performed =>
        by_cases hu : v = u
        · subst hu
          simp only [Cluster.called, update_self, some.injEq] at hn
          subst hn
          obtain ⟨i, _, hopens⟩ := opensBarrier_of_origin haction node performed
            ((effect_barrier (perform_effect performed)).origin (.inl hpending)) (ih node)
          exact ⟨i, by omega, hopens⟩
        · simp only [Cluster.called, update_of_ne hu] at hn
          exact hearlier hn hpending

/-- **The acknowledgements behind a report**: the barrier that was opened at step `i` is confirmed
by nodes that had not left its term then. -/
lemma acknowledged_of_ready (hkeeps : ∀ action ∈ actions, action.keepsVoters = true) (hij : i ≤ j)
    (hopens : OpensBarrier boot actions v ready.term ready.context i)
    (hready : EmitsReady boot actions v ready j) :
    ∃ s n pending, Refines boot True (stateAt boot actions i) s ∧
      FixedVoters boot (stateAt boot actions i) ∧ (stateAt boot actions i).node v = some n ∧
      n.role = .leader ∧ n.state.commitIndex ≠ 0 ∧
      n.state.termAt n.state.commitIndex = some n.state.currentTerm ∧
      Acknowledged n.openBarrier (fun w => s.term w ≤ n.state.currentTerm) pending ∧
      readBarrierQuorum pending = true ∧ ready = pending.report := by
  obtain ⟨n, n', opened, haction, hn, hperform, hterm, hcontext⟩ := hopens.performed
  obtain ⟨_, _, call, _, hcall, hm, hdeliver, hcompleted, hemits⟩ := hready.performed
  have hopening := opens_of_beginReadBarrier hperform
  obtain ⟨s, hr, h, -, hused⟩ := fixed_run (fun c _ => ContextsUsed c)
    (fun hr _ _ hevent hused => hused.event hr hevent) (actions.take i)
    (refines_initial boot True) (withinReach_initial boot) contextsUsed_initial
    fun a ha => hkeeps a (mem_of_mem_take ha)
  have hl := hr.toLocal hn
  have hself : s.term n.id ≤ n.state.currentTerm := hl.term_eq.le
  refine ⟨s, n, ?_⟩
  suffices ∃ pending, Acknowledged n.openBarrier (fun w => s.term w ≤ n.state.currentTerm) pending ∧
      readBarrierQuorum pending = true ∧ ready = pending.report by
    obtain ⟨pending, hack, hquorum, heq⟩ := this
    exact ⟨pending, hr, h.fixed, hn, hopening.leader, hopening.commit, hopening.term, hack,
      hquorum, heq⟩
  rcases hij.eq_or_lt with rfl | hlt
  · -- the leader is a quorum by itself
    rw [haction, some.injEq, Action.call.injEq] at hcall
    obtain ⟨-, rfl⟩ := hcall
    rw [hn, some.injEq] at hm
    subst hm
    rw [hperform, Prod.mk.injEq, Except.ok.injEq] at hcompleted
    obtain ⟨-, rfl⟩ := hcompleted
    rw [hopening.settles.ready] at hemits
    split at hemits
    · rename_i hquorum
      cases hemits
      refine ⟨n.openBarrier, ⟨rfl, fun w hw => ?_⟩, hquorum, rfl⟩
      obtain rfl := Finset.mem_singleton.mp hw
      exact hself
    · cases hemits
  · -- the steps after the barrier was opened
    have hstep : stateAt boot actions (i + 1) = (stateAt boot actions i).called v n' opened := by
      rw [stateAt_succ haction]
      exact Cluster.step_called hn rfl hperform
    obtain ⟨_, _, hr₁, h₁, hsteps⟩ := h.event hr
      ((stateAt boot actions i).step_event boot (.call v .beginReadBarrier)) rfl
    have g₁ := (hsteps.spec hr.inv).2.grows
    rw [← stateAt_succ haction] at hr₁ h₁
    have hsince : BarrierSince v n.openBarrier (fun w => s.term w ≤ n.state.currentTerm)
        (stateAt boot actions (i + 1)) := by
      rw [hstep]
      exact barrierSince_opened hused hn hself hopening
    have hleads : Leads s v n.state.currentTerm := by
      have hleads := (hl.leadership hopening.leader).leads
      rwa [(hr.node v n hn).id] at hleads
    obtain ⟨s', _, -, -, hsince', -⟩ := fixed_run
      (fun c s' => BarrierSince v n.openBarrier (fun w => s.term w ≤ n.state.currentTerm) c ∧
        Grows s s')
      (fun hr _ g hevent hI => ⟨hI.1.event hr (hleads.grow hI.2)
        (fun w hw => (hI.2.term w).trans hw) hevent, hI.2.trans g⟩)
      ((actions.take j).drop (i + 1)) hr₁ h₁ ⟨hsince, g₁⟩
      fun a ha => hkeeps a (mem_of_mem_take (mem_of_mem_drop ha))
    rw [stateAt_run boot actions hlt] at hsince'
    exact hsince'.ready hm hdeliver (effect_barrier (perform_effect hcompleted)) hemits
      hterm.symm hcontext.symm

end Runs

/-- **Read barriers are linearizable** with fixed voters: when a node reports that a read barrier is
confirmed, it has opened that barrier, and at the step at which it did no node had committed more
than the reported read index. -/
theorem ready_read_index_covers_commits (boot : List NodeId) (actions : List Action)
    (hkeeps : ∀ action ∈ actions, action.keepsVoters = true) (v : NodeId) (ready : ReadBarrier)
    (j : ℕ) (hready : EmitsReady boot actions v ready j) :
    (∃ i ≤ j, OpensBarrier boot actions v ready.term ready.context i) ∧
      ∀ i ≤ j, OpensBarrier boot actions v ready.term ready.context i →
        ∀ w, ((stateAt boot actions i).stored w).commitIndex ≤ ready.readIndex ∧
          ∀ m, (stateAt boot actions i).node w = some m →
            m.state.commitIndex ≤ ready.readIndex := by
  refine ⟨?_, fun i hij hopens w => ?_⟩
  · obtain ⟨n, _, _, _, haction, hn, -, hperform, hemits⟩ := hready.performed
    exact opensBarrier_of_origin haction hn hperform
      ((effect_barrier (perform_effect hperform)).origin (.inr hemits)) (exists_opensBarrier j hn)
  · obtain ⟨_, n, _, hr, hfixed, hn, hrole, hcommit, hcurrent, hack, hquorum, heq⟩ :=
      acknowledged_of_ready hkeeps hij hopens hready
    have hread : ready.readIndex = n.state.commitIndex := by
      rw [heq, hack.same]
      rfl
    have hstored := commit_le_of_quorum hr hfixed hn hrole hcommit hcurrent hack hquorum w
    rw [hread]
    refine ⟨hstored, fun m hm => ?_⟩
    rwa [← (hr.node w m hm).stored]

/-- Node 1 opens a read barrier, and node 2 acknowledges it. -/
def barrierRun : List Action :=
  pairRun ++
    [.call 1 .beginReadBarrier,
      .call 2 (.receive 1 (.readBarrierRequest ⟨1, 1, 1⟩)),
      .call 1 (.receive 2 (.readBarrierResponse ⟨1, 1, true⟩))]

/-- The read index covers what node 2 had committed when the barrier was opened. -/
theorem ready_read_index_covers_commits_pair :
    OpensBarrier [1, 2] barrierRun 1 1 1 9 ∧ EmitsReady [1, 2] barrierRun 1 ⟨1, 1, 1⟩ 11 ∧
      (nodeAfter [1, 2] (barrierRun.take 9) 2 (by decide +kernel)).state.commitIndex ≤ 1 := by
  have hopens : OpensBarrier [1, 2] barrierRun 1 1 1 9 :=
    ⟨nodeAfter [1, 2] (barrierRun.take 9) 1 (by decide +kernel), rfl,
      nodeAfter_eq (by decide +kernel), by decide +kernel, by decide +kernel, by decide +kernel⟩
  have hemits : EmitsReady [1, 2] barrierRun 1 ⟨1, 1, 1⟩ 11 :=
    ⟨nodeAfter [1, 2] (barrierRun.take 11) 1 (by decide +kernel), _, rfl,
      nodeAfter_eq (by decide +kernel), by decide +kernel, by decide +kernel⟩
  exact ⟨hopens, hemits, ((ready_read_index_covers_commits [1, 2] barrierRun (by decide +kernel) 1
    ⟨1, 1, 1⟩ 11 hemits).2 9 (by decide) hopens 2).2 _ (nodeAfter_eq (by decide +kernel))⟩

end Chronos.Raft
