import CommandBox.Lib.Alarm
import Mathlib.Logic.Function.Basic

/-! The time of the kernel and its lists of tasks, from tasks.c and list.c: who is ready, who
waits and until when, who runs. A step is an interrupt, or what a task does up to the next
place where an interrupt can come between. -/
namespace CommandBox

def portMAX_DELAY : UInt32 := 0xffffffff
def configMAX_PRIORITIES : Nat := 6

/-- What a running task may ask of the kernel. `waitForEvent` is the way of queue.c into a
list of waiting tasks, `lookAgain` its way back when there is no need to wait any more. -/
inductive KernelCall (Event : Type) where
  | taskYIELD
  | xTaskGetTickCount
  | vTaskDelay (xTicksToDelay : UInt32)
  | xTaskDelayUntil (xTimeIncrement : UInt32)
  | waitForEvent (event : Event) (xTicksToWait : UInt32)
  | lookAgain

/-- Whether a switch is forced when the scheduler has been resumed. -/
def KernelCall.yields {Event : Type} : KernelCall Event → Bool
  | .lookAgain => false
  | _ => true

/-- Where a task is in its call: with the scheduler suspended, about to resume it (`yields`
says whether it will force a switch afterwards) or about to force the switch. -/
inductive KernelPoint (Event : Type) where
  | outside
  | suspended (call : KernelCall Event)
  | resuming (yields : Bool)
  | yielding

/-- The variables of tasks.c. An item of a sorted list is a task with its `xItemValue`. A ready
list is the ring from the item behind `pxIndex` to `pxIndex`, with `none` for `xListEnd`.
`xEventLists` are the lists of waiting tasks of the queues, `pxPreviousWakeTime` is the variable
that each task keeps for `xTaskDelayUntil`. -/
structure Kernel (Task Event : Type) where
  xTickCount : UInt32
  xNumOfOverflows : UInt32
  xNextTaskUnblockTime : UInt32
  pxDelayedTaskList : List (Task × UInt32)
  pxOverflowDelayedTaskList : List (Task × UInt32)
  xSuspendedTaskList : List Task
  pxReadyTasksLists : Nat → List (Option Task)
  uxTopReadyPriority : BitVec 32
  xPendingReadyList : List Task
  xEventLists : Event → List (Task × UInt32)
  pxCurrentTCB : Task
  uxSchedulerSuspended : Nat
  xPendedTicks : UInt32
  xYieldPending : Bool
  pendSV : Bool
  point : Task → KernelPoint Event
  pxPreviousWakeTime : Task → UInt32

inductive KernelAction (Event : Type) where
  | sysTick
  | pendSV
  | event (event : Event) (fromISR : Bool)
  | call (call : KernelCall Event)
  | proceed

/-- The assertions on the variables of tasks.c: that of `taskSWITCH_DELAYED_LISTS`, that of
`taskSELECT_HIGHEST_PRIORITY_TASK`, that of `xTaskDelayUntil` on its argument, that of
`xTaskDelayUntil` and `vTaskDelay` on the state, and that of `xTaskResumeAll`. -/
inductive KernelAssertion where
  | delayedListEmpty
  | readyListNotEmpty
  | timeIncrement
  | suspendedOnce
  | suspended
  deriving DecidableEq

/-- A failed assertion stops the machine; here it is reported. -/
inductive KernelEvent (Task : Type) where
  | interrupted
  | ticked
  | tookTime (task : Task)
  | delayUntil (task : Task) (xTimeIncrement : UInt32) (xShouldDelay : Bool)
  | blocked (task : Task) (ticks : UInt32)
  | suspended (task : Task)
  | timedOut (task : Task)
  | readied (task : Task)
  | switched (task : Task)
  | assertFailed (assertion : KernelAssertion)
  deriving DecidableEq

/-! list.c -/

/-- The loop goes past the items of the same value; it would not stop at `xListEnd` for an item
of the value of `xListEnd`. -/
def vListInsert {Task : Type} (item : Task × UInt32) (pxList : List (Task × UInt32)) :
    List (Task × UInt32) :=
  if item.2 = portMAX_DELAY then pxList ++ [item] else Alarm.place item pxList

/-- In front of `pxIndex`. -/
def listINSERT_END {Task : Type} (task : Task) (ring : List (Option Task)) : List (Option Task) :=
  ring.dropLast ++ some task :: ring.getLast?.toList

/-- `pxIndex` goes back to the item before it when its own is taken out. -/
def listREMOVE_ITEM {Task : Type} [DecidableEq Task] (task : Task) (ring : List (Option Task)) :
    List (Option Task) :=
  ring.erase (some task)

/-- The index moves on, past `xListEnd`; the task is the one at the index. -/
def listGET_OWNER_OF_NEXT_ENTRY {Task : Type} : List (Option Task) → List (Option Task) × Option Task
  | none :: item :: rest => (rest ++ [none, item], item)
  | item :: rest => (rest ++ [item], item)
  | [] => ([], none)

def listCURRENT_LIST_LENGTH {Task : Type} (ring : List (Option Task)) : Nat := ring.length - 1

/-! portmacro.h -/

def portRECORD_READY_PRIORITY (uxPriority : Nat) (uxReadyPriorities : BitVec 32) : BitVec 32 :=
  uxReadyPriorities ||| (1#32 <<< uxPriority)

def portRESET_READY_PRIORITY (uxPriority : Nat) (uxReadyPriorities : BitVec 32) : BitVec 32 :=
  uxReadyPriorities &&& ~~~(1#32 <<< uxPriority)

def portGET_HIGHEST_PRIORITY (uxReadyPriorities : BitVec 32) : Nat :=
  (31#32 - uxReadyPriorities.clz).toNat

namespace Kernel

variable {Task Event : Type} [DecidableEq Task] [DecidableEq Event]
  (uxPriority : Task → Fin configMAX_PRIORITIES)

def prvAddTaskToReadyList (task : Task) (s : Kernel Task Event) : Kernel Task Event :=
  { s with
    uxTopReadyPriority := portRECORD_READY_PRIORITY (uxPriority task) s.uxTopReadyPriority
    pxReadyTasksLists :=
      Function.update s.pxReadyTasksLists (uxPriority task)
        (listINSERT_END task (s.pxReadyTasksLists (uxPriority task))) }

/-- `uxListRemove` of the state item of a ready task, with the reset that follows it. -/
def removeFromReadyList (task : Task) (s : Kernel Task Event) : Kernel Task Event :=
  let ring := listREMOVE_ITEM task (s.pxReadyTasksLists (uxPriority task))
  { s with
    pxReadyTasksLists := Function.update s.pxReadyTasksLists (uxPriority task) ring
    uxTopReadyPriority :=
      if listCURRENT_LIST_LENGTH ring = 0 then
        portRESET_READY_PRIORITY (uxPriority task) s.uxTopReadyPriority
      else s.uxTopReadyPriority }

/-- `listREMOVE_ITEM` of the state item of a blocked task, in whichever list it is. -/
def removeStateItem (task : Task) (s : Kernel Task Event) : Kernel Task Event :=
  { s with
    pxDelayedTaskList := s.pxDelayedTaskList.filter fun item => item.1 ≠ task
    pxOverflowDelayedTaskList := s.pxOverflowDelayedTaskList.filter fun item => item.1 ≠ task
    xSuspendedTaskList := s.xSuspendedTaskList.filter fun other => other ≠ task }

/-- `listREMOVE_ITEM` of the event item of a task, if it is in a list. -/
def removeEventItem (task : Task) (s : Kernel Task Event) : Kernel Task Event :=
  { s with
    xEventLists := fun event => (s.xEventLists event).filter fun item => item.1 ≠ task
    xPendingReadyList := s.xPendingReadyList.filter fun other => other ≠ task }

def prvResetNextTaskUnblockTime (s : Kernel Task Event) : Kernel Task Event :=
  { s with xNextTaskUnblockTime := (s.pxDelayedTaskList.head?.map Prod.snd).getD portMAX_DELAY }

/-- The flag tells whether the assertion held. -/
def taskSWITCH_DELAYED_LISTS (s : Kernel Task Event) : Kernel Task Event × Bool :=
  (prvResetNextTaskUnblockTime
    { s with
      pxDelayedTaskList := s.pxOverflowDelayedTaskList
      pxOverflowDelayedTaskList := s.pxDelayedTaskList
      xNumOfOverflows := s.xNumOfOverflows + 1 },
    s.pxDelayedTaskList.isEmpty)

/-- The loop of `xTaskIncrementTick`, over the delayed tasks that are left. -/
def unblockTasks : List (Task × UInt32) → Kernel Task Event →
    Kernel Task Event × Bool × List (KernelEvent Task)
  | [], s => ({ s with pxDelayedTaskList := [], xNextTaskUnblockTime := portMAX_DELAY }, false, [])
  | (pxTCB, xItemValue) :: rest, s =>
    if s.xTickCount < xItemValue then
      ({ s with
        pxDelayedTaskList := (pxTCB, xItemValue) :: rest, xNextTaskUnblockTime := xItemValue },
        false, [])
    else
      let moved := prvAddTaskToReadyList uxPriority pxTCB
        (removeEventItem pxTCB { s with pxDelayedTaskList := rest })
      let next := unblockTasks rest moved
      (next.1, decide (uxPriority s.pxCurrentTCB < uxPriority pxTCB) || next.2.1,
        .timedOut pxTCB :: next.2.2)

/-- `xTaskIncrementTick` up to the test of `xNextTaskUnblockTime`. -/
def countTick (s : Kernel Task Event) : Kernel Task Event × Bool :=
  let counted := { s with xTickCount := s.xTickCount + 1 }
  if counted.xTickCount = 0 then taskSWITCH_DELAYED_LISTS counted else (counted, true)

def unblockDueTasks (s : Kernel Task Event) :
    Kernel Task Event × Bool × List (KernelEvent Task) :=
  if s.xNextTaskUnblockTime ≤ s.xTickCount then unblockTasks uxPriority s.pxDelayedTaskList s
  else (s, false, [])

/-- The flag is what it returns, whether to switch. -/
def xTaskIncrementTick (s : Kernel Task Event) :
    Kernel Task Event × Bool × List (KernelEvent Task) :=
  if s.uxSchedulerSuspended = 0 then
    let counted := countTick s
    let unblocked := unblockDueTasks uxPriority counted.1
    let shared := 1 < listCURRENT_LIST_LENGTH
      (unblocked.1.pxReadyTasksLists (uxPriority unblocked.1.pxCurrentTCB))
    (unblocked.1, unblocked.2.1 || decide shared || unblocked.1.xYieldPending,
      .ticked :: (if counted.2 then [] else [.assertFailed .delayedListEmpty]) ++ unblocked.2.2)
  else ({ s with xPendedTicks := s.xPendedTicks + 1 }, false, [])

def taskSELECT_HIGHEST_PRIORITY_TASK (s : Kernel Task Event) :
    Kernel Task Event × List (KernelEvent Task) :=
  let uxTopPriority := portGET_HIGHEST_PRIORITY s.uxTopReadyPriority
  match listGET_OWNER_OF_NEXT_ENTRY (s.pxReadyTasksLists uxTopPriority) with
  | (ring, some task) =>
    ({ s with
      pxReadyTasksLists := Function.update s.pxReadyTasksLists uxTopPriority ring
      pxCurrentTCB := task }, [.switched task])
  | (_, none) => (s, [.assertFailed .readyListNotEmpty])

def vTaskSwitchContext (s : Kernel Task Event) : Kernel Task Event × List (KernelEvent Task) :=
  if s.uxSchedulerSuspended ≠ 0 then ({ s with xYieldPending := true }, [])
  else taskSELECT_HIGHEST_PRIORITY_TASK { s with xYieldPending := false }

def prvAddCurrentTaskToDelayedList (xTicksToWait : UInt32) (xCanBlockIndefinitely : Bool)
    (s : Kernel Task Event) : Kernel Task Event × List (KernelEvent Task) :=
  let removed := removeFromReadyList uxPriority s.pxCurrentTCB s
  if xTicksToWait = portMAX_DELAY ∧ xCanBlockIndefinitely then
    ({ removed with xSuspendedTaskList := removed.xSuspendedTaskList ++ [s.pxCurrentTCB] },
      [.suspended s.pxCurrentTCB])
  else
    let xTimeToWake := s.xTickCount + xTicksToWait
    let item := (s.pxCurrentTCB, xTimeToWake)
    (if xTimeToWake < s.xTickCount then
      { removed with pxOverflowDelayedTaskList := vListInsert item removed.pxOverflowDelayedTaskList }
    else
      { removed with
        pxDelayedTaskList := vListInsert item removed.pxDelayedTaskList
        xNextTaskUnblockTime :=
          if xTimeToWake < removed.xNextTaskUnblockTime then xTimeToWake
          else removed.xNextTaskUnblockTime },
      [.blocked s.pxCurrentTCB xTicksToWait])

/-- In the order of `configMAX_PRIORITIES - uxPriority`. -/
def vTaskPlaceOnEventList (event : Event) (xTicksToWait : UInt32) (s : Kernel Task Event) :
    Kernel Task Event × List (KernelEvent Task) :=
  let item := (s.pxCurrentTCB,
    UInt32.ofNat (configMAX_PRIORITIES - uxPriority s.pxCurrentTCB))
  prvAddCurrentTaskToDelayedList uxPriority xTicksToWait true
    { s with
      xEventLists := Function.update s.xEventLists event (vListInsert item (s.xEventLists event)) }

/-- For the first task of the list; the flag is what it returns. -/
def xTaskRemoveFromEventList (pxUnblockedTCB : Task) (s : Kernel Task Event) :
    Kernel Task Event × Bool × List (KernelEvent Task) :=
  let removed := removeEventItem pxUnblockedTCB s
  let moved :=
    if s.uxSchedulerSuspended = 0 then
      (prvAddTaskToReadyList uxPriority pxUnblockedTCB (removeStateItem pxUnblockedTCB removed),
        [.readied pxUnblockedTCB])
    else ({ removed with xPendingReadyList := removed.xPendingReadyList ++ [pxUnblockedTCB] }, [])
  let higher := decide (uxPriority s.pxCurrentTCB < uxPriority pxUnblockedTCB)
  ({ moved.1 with xYieldPending := s.xYieldPending || higher }, higher, moved.2)

/-- The loop of `xTaskResumeAll` over `xPendingReadyList`. -/
def readyPendingTasks : List Task → Kernel Task Event →
    Kernel Task Event × List (KernelEvent Task)
  | [], s => (s, [])
  | pxTCB :: rest, s =>
    let moved := prvAddTaskToReadyList uxPriority pxTCB
      (removeStateItem pxTCB { s with xPendingReadyList := rest })
    let next := readyPendingTasks rest
      { moved with
        xYieldPending := s.xYieldPending || decide (uxPriority s.pxCurrentTCB < uxPriority pxTCB) }
    (next.1, .readied pxTCB :: next.2)

/-- `xTaskResumeAll` up to the pended ticks. -/
def readyPending (s : Kernel Task Event) : Kernel Task Event × List (KernelEvent Task) :=
  let readied := readyPendingTasks uxPriority s.xPendingReadyList s
  (if s.xPendingReadyList.isEmpty then readied.1 else prvResetNextTaskUnblockTime readied.1,
    readied.2)

/-- The loop of `xTaskResumeAll` over the pended ticks. -/
def unwindPendedTicks : Nat → Kernel Task Event → Kernel Task Event × List (KernelEvent Task)
  | 0, s => (s, [])
  | count + 1, s =>
    let ticked := xTaskIncrementTick uxPriority s
    let next := unwindPendedTicks count
      { ticked.1 with xYieldPending := ticked.1.xYieldPending || ticked.2.1 }
    (next.1, ticked.2.2 ++ next.2)

/-- The flag is what it returns, whether it has asked for a switch itself. -/
def xTaskResumeAll (s : Kernel Task Event) : Kernel Task Event × Bool × List (KernelEvent Task) :=
  if s.uxSchedulerSuspended = 0 then (s, false, [.assertFailed .suspended])
  else
    let resumed := { s with uxSchedulerSuspended := s.uxSchedulerSuspended - 1 }
    if resumed.uxSchedulerSuspended = 0 then
      let readied := readyPending uxPriority resumed
      let unwound := unwindPendedTicks uxPriority readied.1.xPendedTicks.toNat readied.1
      let done := { unwound.1 with xPendedTicks := 0 }
      ({ done with pendSV := done.pendSV || done.xYieldPending }, done.xYieldPending,
        readied.2 ++ unwound.2)
    else (resumed, false, [])

/-- What `xTaskDelayUntil` decides: `xTimeToWake` is still to come, after a previous wake time
that has passed. -/
def xShouldDelay (xConstTickCount pxPreviousWakeTime xTimeToWake : UInt32) : Bool :=
  if xConstTickCount < pxPreviousWakeTime then
    decide (xTimeToWake < pxPreviousWakeTime) && decide (xConstTickCount < xTimeToWake)
  else decide (xTimeToWake < pxPreviousWakeTime) || decide (xConstTickCount < xTimeToWake)

/-- A call that is to delay its task expects that it alone has suspended the scheduler. -/
def assertSuspendedOnce (s : Kernel Task Event) : List (KernelEvent Task) :=
  if s.uxSchedulerSuspended = 1 then [] else [.assertFailed .suspendedOnce]

def delayUntil (xTimeIncrement : UInt32) (s : Kernel Task Event) :
    Kernel Task Event × List (KernelEvent Task) :=
  let pxPreviousWakeTime := s.pxPreviousWakeTime s.pxCurrentTCB
  let xTimeToWake := pxPreviousWakeTime + xTimeIncrement
  let delays := xShouldDelay s.xTickCount pxPreviousWakeTime xTimeToWake
  let advanced :=
    { s with
      pxPreviousWakeTime := Function.update s.pxPreviousWakeTime s.pxCurrentTCB xTimeToWake }
  let added :=
    if delays then
      prvAddCurrentTaskToDelayedList uxPriority (xTimeToWake - s.xTickCount) false advanced
    else (advanced, [])
  (added.1,
    assertSuspendedOnce s ++ .delayUntil s.pxCurrentTCB xTimeIncrement delays :: added.2)

/-- What a call does while it has the scheduler suspended. -/
def suspendedBody (call : KernelCall Event) (s : Kernel Task Event) :
    Kernel Task Event × List (KernelEvent Task) :=
  match call with
  | .vTaskDelay xTicksToDelay =>
    let added := prvAddCurrentTaskToDelayedList uxPriority xTicksToDelay false s
    (added.1, assertSuspendedOnce s ++ added.2)
  | .xTaskDelayUntil xTimeIncrement => delayUntil uxPriority xTimeIncrement s
  | .waitForEvent event xTicksToWait => vTaskPlaceOnEventList uxPriority event xTicksToWait s
  | _ => (s, [])

def move (point : KernelPoint Event) (s : Kernel Task Event) : Kernel Task Event :=
  { s with point := Function.update s.point s.pxCurrentTCB point }

def vTaskSuspendAll (s : Kernel Task Event) : Kernel Task Event :=
  { s with uxSchedulerSuspended := s.uxSchedulerSuspended + 1 }

/-- A call up to `vTaskSuspendAll`. The idle task never waits, and queue.c comes to its list of
waiting tasks only with time left. -/
def startCall (idle : Task) (call : KernelCall Event) (s : Kernel Task Event) :
    Option (Kernel Task Event × List (KernelEvent Task)) :=
  let suspends := some ((vTaskSuspendAll s).move (.suspended call), [])
  match call with
  | .taskYIELD => some ({ s with pendSV := true }, [])
  | .xTaskGetTickCount =>
    some ({ s with
      pxPreviousWakeTime := Function.update s.pxPreviousWakeTime s.pxCurrentTCB s.xTickCount },
      [.tookTime s.pxCurrentTCB])
  | .lookAgain => suspends
  | .vTaskDelay xTicksToDelay =>
    if xTicksToDelay = 0 then some ({ s with pendSV := true }, [])
    else if s.pxCurrentTCB = idle then none else suspends
  | .xTaskDelayUntil xTimeIncrement =>
    if xTimeIncrement = 0 then some (s, [.assertFailed .timeIncrement])
    else if s.pxCurrentTCB = idle then none else suspends
  | .waitForEvent _ xTicksToWait =>
    if xTicksToWait = 0 ∨ s.pxCurrentTCB = idle then none else suspends

/-- The next part of the call of the running task. -/
def proceed (s : Kernel Task Event) : Option (Kernel Task Event × List (KernelEvent Task)) :=
  match s.point s.pxCurrentTCB with
  | .outside => none
  | .suspended call =>
    let done := suspendedBody uxPriority call s
    some (done.1.move (.resuming call.yields), done.2)
  | .resuming yields =>
    let resumed := xTaskResumeAll uxPriority s
    some (resumed.1.move (if yields && !resumed.2.1 then .yielding else .outside), resumed.2.2)
  | .yielding => some ({ s with pendSV := true }.move .outside, [])

/-- A pending switch comes before anything else the task does; interrupts come at any time. -/
def step (idle : Task) (s : Kernel Task Event) :
    KernelAction Event → Option (Kernel Task Event × List (KernelEvent Task))
  | .sysTick =>
    let ticked := xTaskIncrementTick uxPriority s
    some ({ ticked.1 with pendSV := s.pendSV || ticked.2.1 }, .interrupted :: ticked.2.2)
  | .pendSV => if s.pendSV then some (vTaskSwitchContext { s with pendSV := false }) else none
  | .event event fromISR =>
    match s.xEventLists event with
    | [] => none
    | (pxUnblockedTCB, _) :: _ =>
      if s.pendSV ∧ ¬ fromISR then none
      else
        let removed := xTaskRemoveFromEventList uxPriority pxUnblockedTCB s
        some ({ removed.1 with
          pendSV := s.pendSV || removed.2.1 && (fromISR || s.uxSchedulerSuspended = 0) },
          removed.2.2)
  | .call call =>
    match s.pendSV, s.point s.pxCurrentTCB with
    | false, .outside => startCall idle call s
    | _, _ => none
  | .proceed => if s.pendSV then none else proceed uxPriority s

/-- As `xTaskCreate` does it before the scheduler runs. -/
def prvAddNewTaskToReadyList (s : Kernel Task Event) (pxNewTCB : Task) : Kernel Task Event :=
  prvAddTaskToReadyList uxPriority pxNewTCB
    { s with
      pxCurrentTCB :=
        if uxPriority s.pxCurrentTCB ≤ uxPriority pxNewTCB then pxNewTCB else s.pxCurrentTCB }

/-- Before any task is there. -/
def prvInitialiseTaskLists (Event : Type) (first : Task) : Kernel Task Event :=
  { xTickCount := 0, xNumOfOverflows := 0, xNextTaskUnblockTime := portMAX_DELAY,
    pxDelayedTaskList := [], pxOverflowDelayedTaskList := [], xSuspendedTaskList := [],
    pxReadyTasksLists := fun _ => [none], uxTopReadyPriority := 0, xPendingReadyList := [],
    xEventLists := fun _ => [], pxCurrentTCB := first, uxSchedulerSuspended := 0,
    xPendedTicks := 0, xYieldPending := false, pendSV := false, point := fun _ => .outside,
    pxPreviousWakeTime := fun _ => 0 }

/-- After `vTaskStartScheduler`, with the tasks in the order of their creation. -/
def start (Event : Type) (first : Task) (rest : List Task) : Kernel Task Event :=
  rest.foldl (prvAddNewTaskToReadyList uxPriority)
    (prvAddTaskToReadyList uxPriority first (prvInitialiseTaskLists Event first))

end Kernel

/-- The tasks of `tasks_start`, in the order of their creation, and the idle task. -/
inductive CreatedTask where
  | rxparse | app | signals | uarttx | idle
  deriving DecidableEq

def CreatedTask.uxPriority : CreatedTask → Fin configMAX_PRIORITIES
  | .rxparse => ⟨3, by decide⟩
  | .app => ⟨2, by decide⟩
  | .signals => ⟨2, by decide⟩
  | .uarttx => ⟨1, by decide⟩
  | .idle => ⟨0, by decide⟩

end CommandBox
