import Fbaodv.Model.Types
import Fbaodv.Foundation.ClassQueue
import Mathlib.Logic.Function.Basic

namespace Fbaodv.Model

open Fbaodv.Foundation

def isControlTask : TaskType → Bool
  | .ettInfo | .sendEtt | .recvSEtt | .recvLEtt => false
  | .hello | .neighbor | .cleanup | .routeCleanup | .recvRreq | .resendRreq | .recvRerr
  | .recvHello | .recvRrep | .sendRrep => true
  | .st | .gwCleanup | .recvStrreq => true
  | .ettCleanup | .neighbor2h | .updateLoad | .recvRcvp | .recvRrdp | .dtnHello | .genRreq => true
  | .undefined _ => false

abbrev Ptr := ℕ

/-- The `struct _task` records in memory, one map for each field, and the four
pointers of `task_queue.c`. An address without a task is not allocated. -/
structure TaskQueue where
  task : Ptr → Option Task
  next : Ptr → Option Ptr
  prev : Ptr → Option Ptr
  prevControl : Ptr → Option Ptr
  taskQ : Option Ptr
  taskEnd : Option Ptr
  subQ : Option Ptr
  subEnd : Option Ptr

namespace TaskQueue

def initTaskQueue : TaskQueue where
  task _ := none
  next _ := none
  prev _ := none
  prevControl _ := none
  taskQ := none
  taskEnd := none
  subQ := none
  subEnd := none

/-- The address behind `p`, or a fault when `p` is `NULL` or dangles. -/
def deref (p : Option Ptr) (q : TaskQueue) : Option Ptr := p.filter fun p ↦ (q.task p).isSome

def setNext (p v : Option Ptr) (q : TaskQueue) : Option TaskQueue := do
  let p ← q.deref p
  some { q with next := Function.update q.next p v }

def setPrev (p v : Option Ptr) (q : TaskQueue) : Option TaskQueue := do
  let p ← q.deref p
  some { q with prev := Function.update q.prev p v }

def setPrevControl (p v : Option Ptr) (q : TaskQueue) : Option TaskQueue := do
  let p ← q.deref p
  some { q with prevControl := Function.update q.prevControl p v }

/-- `create_task` at the address `p`, with the fields that its caller sets. -/
def create (p : Ptr) (t : Task) (q : TaskQueue) : TaskQueue :=
  { q with
    task := Function.update q.task p (some t)
    next := Function.update q.next p none
    prev := Function.update q.prev p none
    prevControl := Function.update q.prevControl p none }

def free (p : Ptr) (q : TaskQueue) : TaskQueue :=
  { q with task := Function.update q.task p none }

def isControlEntry (q : TaskQueue) (p : Ptr) : Bool :=
  (q.task p).any fun t ↦ isControlTask t.type

def linkAtBack (newEntry : Ptr) (q : TaskQueue) : Option TaskQueue := do
  let q ← q.setNext newEntry q.taskQ
  let q ← q.setPrev newEntry none
  let q ← if q.taskQ ≠ none then q.setPrev q.taskQ newEntry else some q
  let q := if q.taskEnd = none then { q with taskEnd := some newEntry } else q
  some { q with taskQ := some newEntry }

def linkControlAtBack (newEntry : Ptr) (q : TaskQueue) : Option TaskQueue :=
  if q.isControlEntry newEntry then
    if q.subQ = none ∧ q.subEnd = none then
      some { q with subQ := some newEntry, subEnd := some newEntry }
    else do
      let q ← q.setPrevControl q.subQ newEntry
      some { q with subQ := some newEntry }
  else some q

def queueAodvTask (newEntry : Ptr) (q : TaskQueue) : Option TaskQueue := do
  let q ← q.linkAtBack newEntry
  q.linkControlAtBack newEntry

def linkAtFront (newEntry : Ptr) (q : TaskQueue) : Option TaskQueue := do
  let q ← q.setNext newEntry none
  let q ← q.setPrev newEntry q.taskEnd
  let q ← if q.taskEnd ≠ none then q.setNext q.taskEnd newEntry else some q
  let q := if q.taskQ = none then { q with taskQ := some newEntry } else q
  some { q with taskEnd := some newEntry }

def linkControlAtFront (newEntry : Ptr) (q : TaskQueue) : Option TaskQueue :=
  if q.isControlEntry newEntry then
    if q.subQ = none ∧ q.subEnd = none then
      some { q with subQ := some newEntry, subEnd := some newEntry }
    else do
      let q ← q.setPrevControl newEntry q.subEnd
      some { q with subEnd := some newEntry }
  else some q

def queueControlTaskAtFront (newEntry : Ptr) (q : TaskQueue) : Option TaskQueue := do
  let q ← q.linkAtFront newEntry
  q.linkControlAtFront newEntry

/-- `task_end = task_end->prev`. -/
def popEnd (q : TaskQueue) : Option TaskQueue := do
  let p ← q.deref q.taskEnd
  some { q with taskEnd := q.prev p }

/-- `task_q = task_q->next; task_q->prev = NULL`. -/
def popBack (q : TaskQueue) : Option TaskQueue := do
  let p ← q.deref q.taskQ
  let q := { q with taskQ := q.next p }
  q.setPrev q.taskQ none

/-- Take a task out of the middle of the queue. -/
def unlink (tmpTask : Option Ptr) (q : TaskQueue) : Option TaskQueue := do
  let p ← q.deref tmpTask
  let prev := q.prev p
  let next := q.next p
  let q ← q.setNext prev next
  q.setPrev next prev

/-- The branch of `get_task` that serves `sub_end`. -/
def getControlTask (q : TaskQueue) : Option TaskQueue :=
  if q.subEnd = q.subQ then do
    let q ←
      if q.taskEnd = q.taskQ ∧ q.taskEnd = q.subEnd then
        some { q with taskQ := none, taskEnd := none }
      else if q.taskEnd = q.subEnd then q.popEnd
      else if q.taskQ = q.subQ then q.popBack
      else q.unlink q.subEnd
    some { q with subQ := none, subEnd := none }
  else do
    let q ← if q.taskEnd = q.subEnd then q.popEnd else q.unlink q.subEnd
    let p ← q.deref q.subEnd
    some { q with subEnd := q.prevControl p }

/-- `get_task`: the task it hands out and the queue it leaves, or `none` where
the code would follow a `NULL` or dangling pointer. -/
def getTask (q : TaskQueue) : Option (Option Ptr × TaskQueue) :=
  if q.subEnd ≠ none then do
    let q' ← q.getControlTask
    some (q.subEnd, q')
  else if q.taskEnd ≠ none then do
    let q' ←
      if q.taskEnd = q.taskQ then some { q with taskQ := none, taskEnd := none } else q.popEnd
    some (q.taskEnd, q')
  else some (none, q)

/-- The loop of `cleanup_task_queue` for at most so many tasks: the tasks it
frees, in order, or `none` where it would follow a dangling pointer. -/
def cleanupLoop : ℕ → Option Ptr → TaskQueue → Option (List Ptr × TaskQueue)
  | _, none, q => some ([], q)
  | 0, some _, _ => none
  | steps + 1, some tmpTask, q => do
    let deadTask ← q.deref tmpTask
    let (freed, q') ← cleanupLoop steps (q.next deadTask) (q.free deadTask)
    some (deadTask :: freed, q')

def cleanupTaskQueue (steps : ℕ) (q : TaskQueue) : Option (List Ptr × TaskQueue) :=
  cleanupLoop steps q.taskQ { q with taskQ := none }

end TaskQueue

end Fbaodv.Model
