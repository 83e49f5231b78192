import Chronos.Head.Mutable

/-!
`src/ingest/sealed_head_flush_queue.cpp`: the bounded queue of sealed heads that
wait to be flushed.

A slot is reserved before a tablet rotates, staged with the sealed snapshot,
published, acquired by the one consumer and completed.  The counters and the times
that only feed the metrics are left out.  Where the source terminates the process
because a reservation does not own its slot, the model leaves the queue unchanged.
-/

namespace Chronos.Ingest

open Schema Columnar Head

/-- `SlotPhase`. -/
inductive SlotPhase where
  | free | reserved | ready | inFlight
  deriving DecidableEq, Repr

/-- `QueueSlot`. -/
structure QueueSlot where
  phase : SlotPhase
  sequence : ℕ
  snapshot : Option HeadSnapshot
  deriving DecidableEq

/-- `SealedHeadFlushQueueState`. -/
structure FlushQueue where
  slots : List QueueSlot
  nextSequence : ℕ
  occupied : ℕ
  inFlight : ℕ
  deriving DecidableEq

/-- `SealedHeadFlushReservation`. -/
structure FlushReservation where
  slot : ℕ
  sequence : ℕ
  deriving DecidableEq

/-- `SealedHeadFlushQueueState::reserve`. -/
def FlushQueue.reserve (queue : FlushQueue) : Result FlushReservation × FlushQueue :=
  if queue.occupied = queue.slots.length then
    (exhausted "sealed-head flush queue reached its capacity", queue)
  else if queue.nextSequence = u64Max then
    (exhausted "sealed-head flush queue exhausted its sequence space", queue)
  else
    match queue.slots.findIdx? fun slot => slot.phase = .free with
    | none =>
      (unavailable "sealed-head flush queue accounting has no free reservation slot", queue)
    | some slot =>
      (.ok ⟨slot, queue.nextSequence⟩,
        { queue with
          slots := queue.slots.modify slot fun target =>
            { target with phase := .reserved, sequence := queue.nextSequence }
          nextSequence := queue.nextSequence + 1
          occupied := queue.occupied + 1 })

/-- `checked_slot` holds of a reservation. -/
def FlushQueue.owns (queue : FlushQueue) (reservation : FlushReservation) (phase : SlotPhase) :
    Bool :=
  match queue.slots[reservation.slot]? with
  | none => false
  | some slot => slot.sequence = reservation.sequence && slot.phase = phase

/-- `SealedHeadFlushQueueState::cancel`. -/
def FlushQueue.cancel (queue : FlushQueue) (reservation : FlushReservation) : FlushQueue :=
  if queue.owns reservation .reserved then
    { queue with
      slots := queue.slots.modify reservation.slot fun target =>
        { target with snapshot := none, phase := .free }
      occupied := queue.occupied - 1 }
  else queue

/-- `SealedHeadFlushQueueState::stage`. -/
def FlushQueue.stage (queue : FlushQueue) (reservation : FlushReservation)
    (snapshot : HeadSnapshot) : FlushQueue :=
  if queue.owns reservation .reserved then
    { queue with
      slots := queue.slots.modify reservation.slot fun target =>
        { target with snapshot := some snapshot } }
  else queue

/-- `SealedHeadFlushQueueState::publish`. -/
def FlushQueue.publish (queue : FlushQueue) (reservation : FlushReservation) : FlushQueue :=
  if queue.owns reservation .reserved then
    { queue with
      slots := queue.slots.modify reservation.slot fun target => { target with phase := .ready } }
  else queue

end Chronos.Ingest
