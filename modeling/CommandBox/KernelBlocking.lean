import CommandBox.KernelWaiters
import CommandBox.KernelWakeup

/-! The waiting tasks of a queue in both views of them: in queue.c a list of tasks, in tasks.c
a list sorted by the values of their items. -/
namespace CommandBox

namespace Kernel

variable {Task Event : Type} [DecidableEq Task] {uxPriority : Task → Fin configMAX_PRIORITIES}

/-- The tasks that wait for an event, in the order in which they will be woken. -/
def waiters (s : Kernel Task Event) (event : Event) : List Task :=
  (s.xEventLists event).map Prod.fst

omit [DecidableEq Task] in
/-- The value is `configMAX_PRIORITIES` less the priority, so its order is that of the
priorities. -/
theorem insert_waiters (task : Task) {items : List (Task × UInt32)}
    (value : ∀ item ∈ items, item.2 = UInt32.ofNat (configMAX_PRIORITIES - uxPriority item.1)) :
    (vListInsert (task, UInt32.ofNat (configMAX_PRIORITIES - uxPriority task)) items).map Prod.fst =
      WaitingQueue.vListInsert (fun task => uxPriority task) task (items.map Prod.fst) := by
  rw [insert_place]
  induction items with
  | nil => rfl
  | cons other rest ih =>
    have first := value other List.mem_cons_self
    have tail := ih fun item inside => value item (List.mem_cons_of_mem _ inside)
    rw [Alarm.place, List.map_cons, WaitingQueue.vListInsert]
    simp only [first, value_le, Fin.le_def]
    split
    · rw [List.map_cons, tail]
    · rfl

/-- Each list is in the order of the priorities and has no task twice. -/
structure Queued (uxPriority : Task → Fin configMAX_PRIORITIES) (s : Kernel Task Event) : Prop where
  ranked : Ranked uxPriority s
  once : ∀ event, (s.waiters event).Nodup

variable [DecidableEq Event]

theorem Queued.step {idle : Task} {tasks : List Task} {s s' : Kernel Task Event}
    {a : KernelAction Event} {events : List (KernelEvent Task)} (h : Queued uxPriority s)
    (running : Running uxPriority idle tasks s)
    (turn : step uxPriority idle s a = some (s', events)) : Queued uxPriority s' := by
  refine ⟨h.ranked.step running turn, fun other => ?_⟩
  rcases step_waiting running turn with thins | ⟨event, ready, placed⟩
  · exact ((thins other).map Prod.fst).nodup (h.once other)
  · rw [waiters, placed]
    by_cases same : other = event
    · subst same
      rw [Function.update_self, ((insert_sorted_perm _ _).map Prod.fst).nodup_iff, List.map_cons]
      refine List.nodup_cons.mpr ⟨fun inside => ?_, h.once other⟩
      obtain ⟨item, there, same⟩ := List.mem_map.mp inside
      have waits := (running.lists.waiting other item there).1
      rw [same] at waits
      exact running.lists.apart _ waits ready
    · rw [Function.update_of_ne same]
      exact h.once other

theorem queued_run {first idle : Task} {rest : List Task} (unique : (first :: rest).Nodup)
    (alive : idle ∈ first :: rest) {actions : List (KernelAction Event)} {s : Kernel Task Event}
    {past : List (List (KernelEvent Task))}
    (run : Machine.run (step uxPriority idle) (start uxPriority Event first rest) actions =
      some (s, past)) :
    Running uxPriority idle (first :: rest) s ∧ Queued uxPriority s := by
  have created : Created uxPriority first (first :: rest) (start uxPriority Event first rest) :=
    created_start unique
  have begun : Running uxPriority idle (first :: rest) (start uxPriority Event first rest) ∧
      Queued uxPriority (start uxPriority Event first rest) := by
    refine ⟨running_start unique alive, ?_⟩
    rw [created.same]
    exact ⟨⟨fun _ => .nil, fun _ _ inside => absurd inside List.not_mem_nil⟩, fun _ => .nil⟩
  exact @Machine.run_kept _ _ _ _
    (fun s _ => Running uxPriority idle (first :: rest) s ∧ Queued uxPriority s)
    (fun _ _ _ _ _ kept turn => ⟨kept.1.step turn, kept.2.step kept.1 turn⟩) _ _ [] _ _ begun run

/-- In every run, whatever a queue has: a list of waiting tasks that shows what the kernel has
for an event goes on doing so when the running task places itself in it and when its first task
is woken. -/
theorem waiting_queue_agrees {first idle : Task} {rest : List Task}
    (unique : (first :: rest).Nodup) (alive : idle ∈ first :: rest)
    {actions : List (KernelAction Event)} {s s' : Kernel Task Event}
    {past : List (List (KernelEvent Task))}
    (run : Machine.run (step uxPriority idle) (start uxPriority Event first rest) actions =
      some (s, past))
    {α : Type} {uxLength : Nat} (queue : WaitingQueue Task α uxLength) (side : QueueSide)
    {event : Event} (shows_ : queue.xTasksWaiting side = s.waiters event)
    {events : List (KernelEvent Task)} :
    (∀ xTicksToWait, s.point s.pxCurrentTCB = .suspended (.waitForEvent event xTicksToWait) →
      step uxPriority idle s .proceed = some (s', events) →
      (queue.vTaskPlaceOnEventList (fun task => uxPriority task) side
        s.pxCurrentTCB).xTasksWaiting side = s'.waiters event) ∧
    (∀ fromISR, step uxPriority idle s (.event event fromISR) = some (s', events) →
      (queue.wakeOne side).xTasksWaiting side = s'.waiters event) := by
  obtain ⟨running, queued⟩ := queued_run unique alive run
  constructor
  · intro xTicksToWait at_ turn
    obtain ⟨_, went⟩ := Option.ite_none_left_eq_some.mp turn
    simp only [proceed, at_, Option.some.injEq] at went
    have state : (suspendedBody uxPriority (.waitForEvent event xTicksToWait) s).1 = _ :=
      congrArg Prod.fst (add_delayed_other uxPriority xTicksToWait true s _ s.pxPreviousWakeTime)
    rw [state] at went
    cases went
    show Function.update queue.xTasksWaiting side _ side =
      (Function.update s.xEventLists event _ event).map Prod.fst
    rw [Function.update_self, Function.update_self, shows_,
      insert_waiters s.pxCurrentTCB (queued.ranked.value event)]
    rfl
  · intro fromISR turn
    simp only [Kernel.step] at turn
    split at turn
    · contradiction
    · rename_i task value others list
      obtain ⟨_, same⟩ := Option.ite_none_left_eq_some.mp turn
      have names : s.waiters event = task :: others.map Prod.fst := by rw [waiters, list]; rfl
      have fresh := queued.once event
      rw [names] at fresh
      have left : s'.xEventLists event = (s.xEventLists event).filter fun item => item.1 ≠ task := by
        cases same
        simp only [xTaskRemoveFromEventList]
        split <;> rfl
      have kept : others.filter (fun item => item.1 ≠ task) = others := by
        refine List.filter_eq_self.mpr fun item inside => decide_eq_true fun same => ?_
        exact (List.nodup_cons.mp fresh).1 (same ▸ List.mem_map_of_mem inside)
      rw [waiters, left, list, List.filter_cons_of_neg (by simp), kept, WaitingQueue.wakeOne, shows_,
        names]
      show Function.update queue.xTasksWaiting side _ side = _
      rw [Function.update_self]

end Kernel

end CommandBox
