import CommandBox.KernelPeriod

/-! The lists of tasks that wait for an event are in the order of the priorities. -/
namespace CommandBox

namespace Kernel

variable {Task Event : Type} {uxPriority : Task → Fin configMAX_PRIORITIES}

theorem insert_ordered {item : Task × UInt32} {pxList : List (Task × UInt32)}
    (ordered : pxList.Pairwise fun a b => a.2 ≤ b.2) :
    (vListInsert item pxList).Pairwise fun a b => a.2 ≤ b.2 := by
  have below : ∀ items : List (Task × UInt32), (items.Pairwise fun a b => a.2 ≤ b.2) ↔
      (items.map (Prod.map id UInt32.toNat)).Pairwise fun a b => a.2 ≤ b.2 := fun items => by
    rw [List.pairwise_map]
    exact List.Pairwise.iff fun a b => UInt32.le_iff_toNat_le
  rw [insert_place, below, ← Alarm.place_map fun a b => UInt32.le_iff_toNat_le.symm]
  exact Alarm.place_ordered ((below pxList).mp ordered)

variable (uxPriority) in
/-- The highest priority has the lowest value. -/
structure Ranked (s : Kernel Task Event) : Prop where
  ordered : ∀ event, (s.xEventLists event).Pairwise fun a b => a.2 ≤ b.2
  value : ∀ event, ∀ item ∈ s.xEventLists event,
    item.2 = UInt32.ofNat (configMAX_PRIORITIES - uxPriority item.1)

theorem Ranked.thin {s s' : Kernel Task Event} (h : Ranked uxPriority s)
    (thins : ∀ event, (s'.xEventLists event).Sublist (s.xEventLists event)) :
    Ranked uxPriority s' where
  ordered event := (h.ordered event).sublist (thins event)
  value event item inside := h.value event item ((thins event).subset inside)

theorem value_le (a b : Fin configMAX_PRIORITIES) :
    UInt32.ofNat (configMAX_PRIORITIES - a) ≤ UInt32.ofNat (configMAX_PRIORITIES - b) ↔ b ≤ a := by
  revert a b
  decide

theorem Ranked.first {s : Kernel Task Event} (h : Ranked uxPriority s) {event : Event}
    {task : Task} {value : UInt32} {rest : List (Task × UInt32)}
    (list : s.xEventLists event = (task, value) :: rest) :
    ∀ item ∈ rest, uxPriority item.1 ≤ uxPriority task := by
  intro item inside
  have ordered := h.ordered event
  rw [list] at ordered
  have below := (List.pairwise_cons.mp ordered).1 item inside
  have first := h.value event (task, value) (list ▸ List.mem_cons_self)
  have other := h.value event item (list ▸ List.mem_cons_of_mem _ inside)
  rw [other, first, value_le] at below
  exact below

variable [DecidableEq Task] [DecidableEq Event]

/-- A step lets tasks out of the lists, or puts the running task in one. -/
theorem step_waiting {idle : Task} {tasks : List Task} {s s' : Kernel Task Event}
    {a : KernelAction Event} {events : List (KernelEvent Task)}
    (running : Running uxPriority idle tasks s)
    (turn : step uxPriority idle s a = some (s', events)) :
    (∀ event, (s'.xEventLists event).Sublist (s.xEventLists event)) ∨
      ∃ event, s.Ready uxPriority s.pxCurrentTCB ∧
        s'.xEventLists = Function.update s.xEventLists event (vListInsert (s.pxCurrentTCB,
          UInt32.ofNat (configMAX_PRIORITIES - uxPriority s.pxCurrentTCB))
            (s.xEventLists event)) := by
  cases step_moves turn with
  | ticked => exact .inl (calm_tick running.lists).thins
  | switched =>
    obtain ⟨yields, rings, task, es, switch, _⟩ := switch_cases running.lists running.alive
    rw [switch]
    exact .inl fun _ => .refl _
  | woken fromISR inside => exact .inl (calm_woken inside).thins
  | called none outside turn =>
    rcases startCall_cases turn with ⟨rfl, _⟩ | ⟨_, rfl, _⟩ | ⟨_, rfl, _⟩ | ⟨_, rfl, _⟩
    all_goals exact .inl fun _ => .refl _
  | @placed call at_ =>
    cases call with
    | vTaskDelay xTicksToDelay =>
      exact .inl (calm_parked uxPriority xTicksToDelay false s).thins
    | waitForEvent event xTicksToWait =>
      refine .inr ⟨event, (running.placing _ at_).1, ?_⟩
      have state : (suspendedBody uxPriority (.waitForEvent event xTicksToWait) s).1 = _ :=
        congrArg Prod.fst (add_delayed_other uxPriority xTicksToWait true s _ s.pxPreviousWakeTime)
      rw [state]
      rfl
    | xTaskDelayUntil xTimeIncrement =>
      obtain ⟨_, _, calm⟩ := calm_delay_until uxPriority xTimeIncrement (running.once at_)
      exact .inl calm.thins
    | _ => exact .inl fun _ => .refl _
  | resumed at_ => exact .inl (calm_resume running.lists (running.resuming at_)).thins
  | yielded at_ => exact .inl fun _ => .refl _

omit [DecidableEq Task] in
theorem Ranked.wait {s s' : Kernel Task Event} (h : Ranked uxPriority s) {event : Event}
    {task : Task}
    (placed : s'.xEventLists = Function.update s.xEventLists event (vListInsert (task,
      UInt32.ofNat (configMAX_PRIORITIES - uxPriority task)) (s.xEventLists event))) :
    Ranked uxPriority s' := by
  refine ⟨fun other => ?_, fun other item inside => ?_⟩
  · rw [placed]
    by_cases same : other = event
    · subst same
      rw [Function.update_self]
      exact insert_ordered (h.ordered other)
    · rw [Function.update_of_ne same]
      exact h.ordered other
  · rw [placed] at inside
    by_cases same : other = event
    · subst same
      rw [Function.update_self, (insert_sorted_perm _ _).mem_iff, List.mem_cons] at inside
      rcases inside with rfl | before
      · rfl
      · exact h.value other item before
    · rw [Function.update_of_ne same] at inside
      exact h.value other item inside

theorem Ranked.step {idle : Task} {tasks : List Task} {s s' : Kernel Task Event}
    {a : KernelAction Event} {events : List (KernelEvent Task)} (h : Ranked uxPriority s)
    (running : Running uxPriority idle tasks s)
    (turn : step uxPriority idle s a = some (s', events)) : Ranked uxPriority s' := by
  rcases step_waiting running turn with thins | ⟨event, _, placed⟩
  · exact h.thin thins
  · exact h.wait placed

/-- In every run, the first task of a list of waiting tasks, which is the one that an event
wakes, has the highest priority of them, and all of them are blocked. -/
theorem highest_waiter_first {first idle : Task} {rest : List Task}
    (unique : (first :: rest).Nodup) (alive : idle ∈ first :: rest)
    {actions : List (KernelAction Event)} {s : Kernel Task Event}
    {past : List (List (KernelEvent Task))}
    (run : Machine.run (step uxPriority idle) (start uxPriority Event first rest) actions =
      some (s, past))
    {event : Event} {task : Task} {value : UInt32} {others : List (Task × UInt32)}
    (list : s.xEventLists event = (task, value) :: others) :
    task ∈ s.blockedTasks ∧
      ∀ item ∈ others, item.1 ∈ s.blockedTasks ∧ uxPriority item.1 ≤ uxPriority task := by
  have created : Created uxPriority first (first :: rest) (start uxPriority Event first rest) :=
    created_start unique
  have begun : Running uxPriority idle (first :: rest) (start uxPriority Event first rest) ∧
      Ranked uxPriority (start uxPriority Event first rest) := by
    refine ⟨running_start unique alive, ?_⟩
    rw [created.same]
    exact ⟨fun _ => .nil, fun _ _ inside => absurd inside List.not_mem_nil⟩
  obtain ⟨running, ranked⟩ := @Machine.run_kept _ _ _ _
    (fun s _ => Running uxPriority idle (first :: rest) s ∧ Ranked uxPriority s)
    (fun _ _ _ _ _ kept turn => ⟨kept.1.step turn, kept.2.step kept.1 turn⟩) _ _ [] _ _ begun run
  have waits : ∀ item ∈ (task, value) :: others, item.1 ∈ s.blockedTasks :=
    fun item inside => (running.lists.waiting event item (list ▸ inside)).1
  exact ⟨waits _ List.mem_cons_self, fun item inside =>
    ⟨waits item (List.mem_cons_of_mem _ inside), ranked.first list item inside⟩⟩

/-- `task_rx_parser` comes after `task_app` and goes ahead of it. -/
theorem highest_waiter_first_overtakes :
    ∃ (s : Kernel CreatedTask Unit) (past : List (List (KernelEvent CreatedTask)))
      (others : List (CreatedTask × UInt32)),
      Machine.run (step CreatedTask.uxPriority .idle)
          (start CreatedTask.uxPriority Unit .rxparse [.app, .signals, .uarttx, .idle])
          [.call (.vTaskDelay 1), .proceed, .proceed, .proceed, .pendSV,
            .call (.waitForEvent () portMAX_DELAY), .proceed, .proceed, .proceed, .pendSV,
            .sysTick, .pendSV, .call (.waitForEvent () portMAX_DELAY), .proceed] =
        some (s, past) ∧
      s.xEventLists () = (.rxparse, 3) :: others ∧ others.map Prod.fst = [.app] ∧
      ∀ item ∈ others, CreatedTask.uxPriority item.1 ≤ CreatedTask.uxPriority .rxparse := by
  have turn : ∃ (s : Kernel CreatedTask Unit) (past : List (List (KernelEvent CreatedTask)))
      (others : List (CreatedTask × UInt32)),
      Machine.run (step CreatedTask.uxPriority .idle)
          (start CreatedTask.uxPriority Unit .rxparse [.app, .signals, .uarttx, .idle])
          [.call (.vTaskDelay 1), .proceed, .proceed, .proceed, .pendSV,
            .call (.waitForEvent () portMAX_DELAY), .proceed, .proceed, .proceed, .pendSV,
            .sysTick, .pendSV, .call (.waitForEvent () portMAX_DELAY), .proceed] =
        some (s, past) ∧
      s.xEventLists () = (.rxparse, 3) :: others ∧ others.map Prod.fst = [.app] :=
    ⟨_, _, _, rfl, rfl, rfl⟩
  obtain ⟨s, past, others, run, list, names⟩ := turn
  have waiters := highest_waiter_first (by decide) (by decide) run list
  exact ⟨s, past, others, run, list, names, fun item inside => (waiters.2 item inside).2⟩

end Kernel

end CommandBox
