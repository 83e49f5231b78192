import Chronos.Common.Runs
import Chronos.Raft.Structure
import Chronos.Raft.Durability

/-!
A group of nodes and the network between them.

* `Cluster`: the running nodes, the last persistent state of each node that its
  runtime has stored, and every message sent so far.  Messages are never removed,
  so that they can be lost, duplicated, delayed and reordered.
* `Cluster.step`: a node is started, for the first time or after a crash, from its
  stored state; or a node performs a public call, and only then its new state is
  stored and its messages are sent.  `receive` takes only messages that were sent.
* `Event`: what a step can do, said once; `Cluster.step_event`.
* `Cluster.run`, `Throughout`: runs, and conditions on every step of a run.
-/

namespace Chronos.Raft

/-- A message with its sender and its receiver. -/
structure Packet where
  source : NodeId
  destination : NodeId
  message : Message
  deriving DecidableEq

/-- The nodes of a group, their storage and the network. -/
structure Cluster where
  node : NodeId → Option RaftNode
  stored : NodeId → PersistentState
  sent : List Packet

/-- What can happen in a group. -/
inductive Action where
  /-- A node is created from its stored state, at first or after a crash. -/
  | start (node : NodeId) (limits : RaftLimits)
  /-- A node performs a public call. -/
  | call (node : NodeId) (call : Call)
  deriving DecidableEq

/-- Only messages that were sent can be received. -/
def Call.deliverable (sent : List Packet) (destination : NodeId) : Call → Bool
  | .receive source message => decide (⟨source, destination, message⟩ ∈ sent)
  | _ => true

/-- The packets that a transition sends. -/
def Transition.packets (transition : Transition) (source : NodeId) : List Packet :=
  transition.outbound.map fun out => ⟨source, out.destination, out.message⟩

namespace Cluster

/-- No node has been created yet. -/
def initial : Cluster where
  node _ := none
  stored _ := {}
  sent := []

/-- The group after a successful call of node `v`: the reported state is stored, then the messages
leave. -/
def called (c : Cluster) (v : NodeId) (n : RaftNode) (transition : Transition) : Cluster where
  node := Function.update c.node v (some n)
  stored := Function.update c.stored v (transition.persistentState.getD (c.stored v))
  sent := c.sent ++ transition.packets v

/-- One step of a group.  A crash between a call and the storage of its state is a restart without
the call, and a crash before the messages leave loses the messages. -/
def step (boot : List NodeId) (c : Cluster) : Action → Cluster
  | .start v limits =>
      match RaftNode.create v boot (c.stored v) limits with
      | .ok n => { c with node := Function.update c.node v (some n) }
      | .error _ => c
  | .call v call =>
      match c.node v with
      | none => c
      | some n =>
          if call.deliverable c.sent v then
            match n.perform call with
            | (n', .ok transition) => c.called v n' transition
            | (n', .error _) => { c with node := Function.update c.node v (some n') }
          else c

/-- The group after a list of actions. -/
def run (boot : List NodeId) (c : Cluster) (actions : List Action) : Cluster :=
  actions.foldl (step boot) c

end Cluster

/-- Every step of a run meets a condition on the group before it and the action. -/
abbrev Throughout (boot : List NodeId) := Runs.Along (Cluster.step boot)

/-- What a step can do. -/
inductive Event (boot : List NodeId) (c : Cluster) : Action → Cluster → Prop where
  | idle (action : Action) : Event boot c action c
  | started (v : NodeId) (limits : RaftLimits) (n : RaftNode)
      (created : RaftNode.create v boot (c.stored v) limits = .ok n) :
      Event boot c (.start v limits) { c with node := Function.update c.node v (some n) }
  | called (v : NodeId) (call : Call) (n n' : RaftNode) (transition : Transition)
      (node : c.node v = some n) (deliverable : call.deliverable c.sent v = true)
      (performed : n.perform call = (n', .ok transition)) :
      Event boot c (.call v call) (c.called v n' transition)

namespace Cluster

variable {boot : List NodeId} {c : Cluster}

lemma step_event (boot : List NodeId) (c : Cluster) (action : Action) :
    Event boot c action (c.step boot action) := by
  cases action with
  | start v limits =>
      simp only [step]
      split
      · exact .started v limits _ ‹_›
      · exact .idle _
  | call v call =>
      simp only [step]
      split
      · exact .idle _
      · rename_i n hn
        split
        · rename_i hdeliverable
          split
          · rename_i n' transition hperform
            exact .called v call n n' transition hn hdeliverable hperform
          · rename_i n' status hperform
            rw [perform_error hperform, ← hn, Function.update_eq_self]
            exact .idle _
        · exact .idle _

lemma run_append (first second : List Action) :
    run boot c (first ++ second) = run boot (run boot c first) second :=
  List.foldl_append

end Cluster

end Chronos.Raft
