import Depot.Content
import Depot.Identifier

/-! # The task queue

A queue of tasks that someone else runs, first in, first out, with room for a bounded number of
tasks if it has a capacity. Every task gets an id from a source outside, of which nothing is assumed
here, also not that its ids differ.
-/

namespace Depot

structure TaskId where
  text : String
  deriving DecidableEq, Inhabited, Repr

structure TaskRequest where
  /-- The artifact that holds the entry point. -/
  artifact : Identifier
  function : String
  input : ByteArray
  deriving DecidableEq

structure Task where
  id : TaskId
  request : TaskRequest
  deriving DecidableEq

inductive QueueError where
  | full (capacity : Nat)
  deriving DecidableEq, Repr

def QueueError.message : QueueError → String
  | .full capacity => "queue is full (" ++ toString capacity ++ " tasks)"

structure TaskQueue where
  /-- What the source of ids gives, one id after the other. -/
  ids : Nat → TaskId
  /-- Oldest first. -/
  waiting : List Task := []
  capacity : Option Nat := none
  /-- How many ids were drawn from the source. -/
  drawn : Nat := 0

namespace TaskQueue

def fresh (q : TaskQueue) : TaskId := q.ids q.drawn

def append (q : TaskQueue) (request : TaskRequest) : TaskQueue :=
  { q with waiting := q.waiting ++ [⟨q.fresh, request⟩], drawn := q.drawn + 1 }

def enqueue (q : TaskQueue) (request : TaskRequest) : Except QueueError TaskId × TaskQueue :=
  match q.capacity with
  | some capacity =>
    if capacity ≤ q.waiting.length then (.error (.full capacity), q)
    else (.ok q.fresh, q.append request)
  | none => (.ok q.fresh, q.append request)

def pop (q : TaskQueue) : Option Task × TaskQueue :=
  match q.waiting with
  | [] => (none, q)
  | task :: rest => (some task, { q with waiting := rest })

end TaskQueue

end Depot
