import Rl78Sim.Kernel.Clock

/-! # The Virtual-Time Event Queue

    `EventQueue` keeps a heap of `(deadline, sequence number, id)` entries, a
    table from ids to events, and a set of cancelled ids. Cancelling leaves a
    tombstone in the heap; `drop_stale` removes tombstones from the front. The
    binary heap is a list kept in heap order, that is sorted by deadline and
    then sequence number, so its front is the source's `peek`.
-/

namespace Rl78Sim

/-- A heap entry: due at `at_`, scheduled as number `seq`. -/
structure Scheduled where
  at_ : Nat
  seq : Nat
  id : Nat
  deriving DecidableEq

/-- `Ord for Scheduled`: by deadline, then by sequence number. -/
def Scheduled.before (a b : Scheduled) : Bool :=
  a.at_ < b.at_ || (a.at_ == b.at_ && a.seq < b.seq)

/-- `BinaryHeap::push`. -/
def heap_push (item : Scheduled) : List Scheduled → List Scheduled
  | [] => [item]
  | top :: rest =>
      if item.before top then item :: top :: rest else top :: heap_push item rest

/-- `EventQueue`, over the type `Ev` of event bodies. -/
structure EventQueue (Ev : Type) where
  next_id : Nat
  next_seq : Nat
  heap : List Scheduled
  events : List (Nat × Ev)
  cancelled : List Nat

namespace EventQueue

variable {Ev : Type}

def new : EventQueue Ev := ⟨0, 0, [], [], []⟩

/-- `EventQueue::schedule`: returns the id of the new event. -/
def schedule (q : EventQueue Ev) (at_ : Nat) (event : Ev) : EventQueue Ev × Nat :=
  let id := q.next_id + 1
  let seq := q.next_seq + 1
  ({ q with
      next_id := id
      next_seq := seq
      heap := heap_push ⟨at_, seq, id⟩ q.heap
      events := (id, event) :: q.events }, id)

/-- `HashMap::remove` on the table of events. -/
def remove_event (q : EventQueue Ev) (id : Nat) : EventQueue Ev :=
  { q with events := q.events.filter fun e => e.1 != id }

/-- `EventQueue::cancel`: `true` iff the event was still scheduled. -/
def cancel (q : EventQueue Ev) (id : Nat) : EventQueue Ev × Bool :=
  if (q.events.lookup id).isSome then
    ({ q.remove_event id with cancelled := id :: q.cancelled }, true)
  else (q, false)

/-- `EventQueue::drop_stale` on the heap and the cancelled set. -/
def drop_stale_from (events : List (Nat × Ev)) :
    List Scheduled → List Nat → List Scheduled × List Nat
  | [], cancelled => ([], cancelled)
  | item :: rest, cancelled =>
      if item.id ∈ cancelled then
        drop_stale_from events rest (cancelled.erase item.id)
      else if (events.lookup item.id).isNone then
        drop_stale_from events rest cancelled
      else (item :: rest, cancelled)

def drop_stale (q : EventQueue Ev) : EventQueue Ev :=
  let kept := drop_stale_from q.events q.heap q.cancelled
  { q with heap := kept.1, cancelled := kept.2 }

/-- `EventQueue::next_deadline`. -/
def next_deadline (q : EventQueue Ev) : EventQueue Ev × Option Nat :=
  let q := q.drop_stale
  (q, q.heap.head?.map Scheduled.at_)

/-- `EventQueue::pop_due`. -/
def pop_due (q : EventQueue Ev) (now : Nat) : EventQueue Ev × Option (Nat × Ev) :=
  let q := q.drop_stale
  match q.heap with
  | [] => (q, none)
  | item :: rest =>
      if now < item.at_ then (q, none)
      else
        match q.events.lookup item.id with
        | none => ({ q with heap := rest }, none)
        | some event => ({ q.remove_event item.id with heap := rest }, some (item.id, event))

end EventQueue

end Rl78Sim
