import Fbaodv.Model.Types
import Fbaodv.Foundation.OrderedList
import Fbaodv.Foundation.WrapTime

namespace Fbaodv.Model

open Fbaodv.Foundation

/-- Values of an `unsigned long` on the targets of the Makefile (i386, arm). -/
def ulongSize : ℕ := 2 ^ 32

/-- `time_before` on two millisecond times cast to `unsigned long`. -/
def timeBefore (a b : ℕ) : Bool := WrapTime.before ulongSize a b

def timeAfter (a b : ℕ) : Bool := timeBefore b a

/-- `jiffies + tvtojiffies(&delay)`, given by the clock at which `mod_timer`
was called and the number of jiffies added. -/
structure Pending where
  base : ℕ
  jiffies : ℕ
  deriving DecidableEq

/-- The timer queue of `timer_queue.c`, with the kernel timer that drives it
and the outcomes of the allocations made by `create_task`. -/
structure TimerQueue where
  queue : List Task
  aodvTimer : Option Pending
  kmalloc : Outcomes

def initTimerQueue : TimerQueue where
  queue := []
  aodvTimer := none
  kmalloc := []

/-- Microseconds rounded up to jiffies. -/
def tvtojiffies (hz sec usec : ℕ) : ℕ :=
  if (ulongSize - 1) / hz < sec then ulongSize - 1
  else (hz * sec + (usec + 1000000 / hz - 1) / (1000000 / hz)) % ulongSize

def queueTimer (newTimer : Task) (q : List Task) : List Task :=
  OrderedList.insertBy (fun t ↦ timeAfter newTimer.time t.time) newTimer q

/-- The delay that `update_timer_queue` programs for the head of the queue. -/
def headDelay (hz now time : ℕ) : ℕ :=
  if timeBefore time now then tvtojiffies hz 0 1
  else
    let numerator := (time + 2 ^ 64 - now) % 2 ^ 64
    tvtojiffies hz (numerator / 1000 % ulongSize) (numerator % 1000 * 1000)

def updateTimerQueue (hz now : ℕ) (t : TimerQueue) : TimerQueue :=
  match t.queue with
  | [] => t
  | head :: _ => { t with aodvTimer := some ⟨now, headDelay hz now head.time⟩ }

/-- The task that `create_task` and its caller build, queued if it could be
allocated. -/
def TimerQueue.insert (t : TimerQueue) (new : Task) : TimerQueue :=
  if t.kmalloc.next then { t with queue := queueTimer new t.queue, kmalloc := t.kmalloc.rest }
  else { t with kmalloc := t.kmalloc.rest }

def insertTimerSimple (now : ℕ) (type : TaskType) (delay : ℕ) (ip : Ip) (t : TimerQueue) :
    TimerQueue :=
  t.insert { createTask type now with srcIp := ip, dstIp := ip, tos := noTos, time := now + delay }

/-- `(2 ^ (RREQ_RETRIES - retries)) * NET_TRAVERSAL_TIME`, where `^` is the
exclusive or of C on `int`. -/
def resendDelay (retries : UInt8) : ℤ :=
  (2 ^^^ ((rreqRetries.toUInt32 - retries.toUInt32).toInt32)).toInt * netTraversalTime

def insertTimerDirectional (now : ℕ) (type : TaskType) (delay : ℕ) (retries : UInt8)
    (srcIp dstIp : Ip) (tos : UInt8) (t : TimerQueue) : TimerQueue :=
  let new := { createTask type now with srcIp := srcIp, dstIp := dstIp, tos := tos }
  t.insert <|
    if delay ≠ 0 then { new with time := now + delay }
    else if type = .resendRreq then
      { new with
        retries := retries.toUInt16
        ttl := 30
        time := (((now : ℤ) + resendDelay retries) % 2 ^ 64).toNat }
    else { new with time := now + delay }

/-- The key by which `find_timer` and `delete_timer` select an entry. -/
def Task.matches (srcIp dstIp : Ip) (tos : UInt8) (type : TaskType) (t : Task) : Bool :=
  t.srcIp == srcIp && t.dstIp == dstIp && t.tos == tos && t.type == type

def findTimer (srcIp dstIp : Ip) (tos : UInt8) (type : TaskType) (t : TimerQueue) : Bool :=
  t.queue.any (Task.matches srcIp dstIp tos type)

def deleteTimer (srcIp dstIp : Ip) (tos : UInt8) (type : TaskType) (t : TimerQueue) :
    TimerQueue :=
  { t with queue := t.queue.eraseP (Task.matches srcIp dstIp tos type) }

/-- Unlink the head of the queue if its time has come. -/
def firstTimerDue (currtime : ℕ) : List Task → Option (Task × List Task)
  | [] => none
  | t :: q => if timeBefore t.time currtime then some (t, q) else none

/-- The loop of `timer_queue_signal`: the tasks handed to
`insert_task_from_timer`, in order, and the queue that remains. -/
def drainTimers (currtime : ℕ) : List Task → List Task × List Task
  | [] => ([], [])
  | t :: q =>
    if timeBefore t.time currtime then
      (t :: (drainTimers currtime q).1, (drainTimers currtime q).2)
    else ([], t :: q)

def timerQueueSignal (hz now : ℕ) (t : TimerQueue) : List Task × TimerQueue :=
  ((drainTimers now t.queue).1,
    updateTimerQueue hz now { t with queue := (drainTimers now t.queue).2 })

@[simp]
theorem updateTimerQueue_queue (hz now : ℕ) (t : TimerQueue) :
    (updateTimerQueue hz now t).queue = t.queue := by
  unfold updateTimerQueue
  split <;> rfl

theorem drainTimers_eq (currtime : ℕ) (q : List Task) :
    drainTimers currtime q =
      (q.takeWhile (fun t ↦ timeBefore t.time currtime),
        q.dropWhile (fun t ↦ timeBefore t.time currtime)) := by
  induction q with
  | nil => rfl
  | cons t q ih => cases h : timeBefore t.time currtime <;> simp [drainTimers, h, ih]

/-- `drainTimers` is the loop that calls `first_timer_due` until it returns
`NULL`. -/
theorem drainTimers_step (currtime : ℕ) (q : List Task) :
    drainTimers currtime q =
      match firstTimerDue currtime q with
      | none => ([], q)
      | some (t, q') => (t :: (drainTimers currtime q').1, (drainTimers currtime q').2) := by
  cases q with
  | nil => rfl
  | cons t q => cases h : timeBefore t.time currtime <;> simp [drainTimers, firstTimerDue, h]

end Fbaodv.Model
