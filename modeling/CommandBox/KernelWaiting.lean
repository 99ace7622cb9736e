import CommandBox.Lib.Queue
import Mathlib.Data.Fintype.Card

/-! How tasks wait for a queue in queue.c: the loops of `xQueueGenericSend` and
`xQueueReceive`, the locking that keeps interrupts away from the lists of waiting tasks, and
the interrupts. A step goes from one critical section to the next. A call waits for
`portMAX_DELAY` or not at all, as those of tasks.c do. -/
namespace CommandBox

/-- The two kinds of calls; each has a list of the tasks that wait in such a call. -/
inductive QueueSide where
  | send | receive
  deriving DecidableEq

inductive WaitingCall (α : Type) where
  | xQueueSend (item : α) (forever : Bool)
  | xQueueReceive (forever : Bool)

def WaitingCall.side {α : Type} : WaitingCall α → QueueSide
  | .xQueueSend _ _ => .send
  | .xQueueReceive _ => .receive

def WaitingCall.forever {α : Type} : WaitingCall α → Bool
  | .xQueueSend _ forever => forever
  | .xQueueReceive forever => forever

/-- Where a task is in its call. From `checking` to `resuming` it has suspended the scheduler;
`listed` says that it is in the list of waiting tasks. -/
inductive TaskPoint (α : Type) where
  | outside
  | attempting (call : WaitingCall α)
  | suspending (call : WaitingCall α)
  | checking (call : WaitingCall α)
  | placing (call : WaitingCall α)
  | unlockingTx (call : WaitingCall α) (listed : Bool)
  | unlockingRx (call : WaitingCall α) (listed : Bool)
  | resuming (call : WaitingCall α) (listed : Bool)
  | blocked (call : WaitingCall α)

/-- A queue and the tasks. `xTasksWaiting` are `xTasksWaitingToSend` and
`xTasksWaitingToReceive`. `lock` counts what the tasks of a side were not told of: items sent,
`cTxLock`, on the side of the receivers and items received, `cRxLock`, on that of the senders;
`none` is `queueUNLOCKED`. `uxSchedulerSuspended` is the task that has suspended it. -/
structure WaitingQueue (Task α : Type) (uxLength : Nat) where
  items : Queue α uxLength
  lock : QueueSide → Option Nat
  xTasksWaiting : QueueSide → List Task
  uxSchedulerSuspended : Option Task
  point : Task → TaskPoint α

inductive WaitingAction (Task α : Type) where
  | call (task : Task) (call : WaitingCall α)
  | proceed (task : Task)
  | sendFromISR (item : α)
  | receiveFromISR

inductive WaitingEvent (α : Type) where
  | went
  | sent (item : α)
  | received (item : α)
  | refused
  | assertFailed
  deriving DecidableEq

/-- A task that is removed from its list goes on where it is, and then to the next attempt. -/
def TaskPoint.wake {α : Type} : TaskPoint α → TaskPoint α
  | .unlockingTx call _ => .unlockingTx call false
  | .unlockingRx call _ => .unlockingRx call false
  | .resuming call _ => .resuming call false
  | .blocked call => .attempting call
  | point => point

namespace WaitingQueue

variable {Task α : Type} [DecidableEq Task] {uxLength : Nat}

def start (Task α : Type) (uxLength : Nat) : WaitingQueue Task α uxLength :=
  ⟨.empty, fun _ => none, fun _ => [], none, fun _ => .outside⟩

def move (s : WaitingQueue Task α uxLength) (task : Task) (point : TaskPoint α) :
    WaitingQueue Task α uxLength :=
  { s with point := Function.update s.point task point }

/-- `xTaskRemoveFromEventList`, if a task is in the list. -/
def wakeOne (side : QueueSide) (s : WaitingQueue Task α uxLength) : WaitingQueue Task α uxLength :=
  match s.xTasksWaiting side with
  | [] => s
  | task :: rest =>
    { s with xTasksWaiting := Function.update s.xTasksWaiting side rest }.move task
      (s.point task).wake

/-- A loop of `prvUnlockQueue`. -/
def wakeMany (side : QueueSide) : Nat → WaitingQueue Task α uxLength → WaitingQueue Task α uxLength
  | 0, s => s
  | count + 1, s => if s.xTasksWaiting side = [] then s else wakeMany side count (s.wakeOne side)

def unlock (side : QueueSide) (s : WaitingQueue Task α uxLength) : WaitingQueue Task α uxLength :=
  { wakeMany side ((s.lock side).getD 0) s with lock := Function.update s.lock side none }

/-- A pass of the loop up to the end of its first critical section. -/
def attempt (s : WaitingQueue Task α uxLength) (task : Task) (call : WaitingCall α) :
    WaitingQueue Task α uxLength × WaitingEvent α :=
  let failed :=
    if call.forever then (s.move task (.suspending call), .went)
    else (s.move task .outside, .refused)
  match call with
  | .xQueueSend item _ =>
    match s.items.send item with
    | some items => (({ s with items := items }.move task .outside).wakeOne .receive, .sent item)
    | none => failed
  | .xQueueReceive _ =>
    match s.items.receive with
    | some (item, items) =>
      (({ s with items := items }.move task .outside).wakeOne .send, .received item)
    | none => failed

/-- `prvIsQueueFull` and `prvIsQueueEmpty`. -/
def mustWait (s : WaitingQueue Task α uxLength) : QueueSide → Bool
  | .send => s.items.items.length = uxLength
  | .receive => s.items.items.length = 0

/-- In front of the first task of lower priority. -/
def vListInsert (uxPriority : Task → Nat) (task : Task) : List Task → List Task
  | [] => [task]
  | other :: rest =>
    if uxPriority task ≤ uxPriority other then other :: vListInsert uxPriority task rest
    else task :: other :: rest

def vTaskPlaceOnEventList (uxPriority : Task → Nat) (side : QueueSide)
    (s : WaitingQueue Task α uxLength) (task : Task) : WaitingQueue Task α uxLength :=
  { s with
    xTasksWaiting :=
      Function.update s.xTasksWaiting side (vListInsert uxPriority task (s.xTasksWaiting side)) }

/-- `none` is a task that cannot run. -/
def proceed (uxPriority : Task → Nat) (s : WaitingQueue Task α uxLength) (task : Task) :
    Option (WaitingQueue Task α uxLength × WaitingEvent α) :=
  if s.uxSchedulerSuspended ≠ none ∧ s.uxSchedulerSuspended ≠ some task then none
  else match s.point task with
  | .outside => none
  | .blocked _ => none
  | .attempting call => some (s.attempt task call)
  | .suspending call =>
    -- `vTaskSuspendAll`, `prvLockQueue`: an interrupt between them could as well be before
    some ({ s with
      uxSchedulerSuspended := some task
      lock := fun side => some ((s.lock side).getD 0) }.move task (.checking call), .went)
  | .checking call =>
    some (s.move task (if s.mustWait call.side then .placing call else .unlockingTx call false),
      .went)
  | .placing call =>
    some ((s.vTaskPlaceOnEventList uxPriority call.side task).move task (.unlockingTx call true),
      .went)
  | .unlockingTx call listed =>
    some ((s.move task (.unlockingRx call listed)).unlock .receive, .went)
  | .unlockingRx call listed =>
    some ((s.move task (.resuming call listed)).unlock .send, .went)
  | .resuming call listed =>
    some ({ s with uxSchedulerSuspended := none }.move task
      (if listed then .blocked call else .attempting call), .went)

/-- `prvIncrementQueueTxLock` and `prvIncrementQueueRxLock`; `none` is a failed `configASSERT`. -/
def prvIncrementQueueLock (uxNumberOfTasks lock : Nat) : Option Nat :=
  if lock < uxNumberOfTasks then if lock = 127 then none else some (lock + 1) else some lock

variable [Fintype Task]

/-- What an interrupt does for the waiting tasks, now or when the queue is unlocked. -/
def notify (side : QueueSide) (s : WaitingQueue Task α uxLength) :
    Option (WaitingQueue Task α uxLength) :=
  match s.lock side with
  | none => some (s.wakeOne side)
  | some lock => (prvIncrementQueueLock (Fintype.card Task) lock).map fun lock =>
      { s with lock := Function.update s.lock side (some lock) }

def sendFromISR (s : WaitingQueue Task α uxLength) (item : α) :
    WaitingQueue Task α uxLength × WaitingEvent α :=
  match s.items.send item with
  | none => (s, .refused)
  | some items =>
    match { s with items := items }.notify .receive with
    | some s => (s, .sent item)
    | none => (s, .assertFailed)

def receiveFromISR (s : WaitingQueue Task α uxLength) :
    WaitingQueue Task α uxLength × WaitingEvent α :=
  match s.items.receive with
  | none => (s, .refused)
  | some (item, items) =>
    match { s with items := items }.notify .send with
    | some s => (s, .received item)
    | none => (s, .assertFailed)

def step (uxPriority : Task → Nat) (s : WaitingQueue Task α uxLength) :
    WaitingAction Task α → Option (WaitingQueue Task α uxLength × WaitingEvent α)
  | .call task call =>
    match s.point task, s.uxSchedulerSuspended with
    | .outside, none => some (s.move task (.attempting call), .went)
    | _, _ => none
  | .proceed task => s.proceed uxPriority task
  | .sendFromISR item => some (s.sendFromISR item)
  | .receiveFromISR => some s.receiveFromISR

end WaitingQueue

end CommandBox
