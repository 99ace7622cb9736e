import CommandBox.KernelTime

/-! No tick interrupt is lost. Those that come while the scheduler is suspended are pended, and
`xTaskResumeAll` makes up for them before a task can read the counter. -/
namespace CommandBox

open Clock (stamp stamp_add)

theorem stamp_sum (m n : Nat) : stamp (m + n) = stamp m + stamp n := (stamp_add m n).symm

namespace Kernel

variable {Task Event : Type} [DecidableEq Task]

/-- Every interrupt is counted or pended, and nothing is counted but what was one. -/
def Balanced (s s' : Kernel Task Event) (es : List (KernelEvent Task)) : Prop :=
  stamp (es.count .ticked) + s'.xPendedTicks = s.xPendedTicks + stamp (es.count .interrupted)

theorem balanced_quiet {s s' : Kernel Task Event} {es : List (KernelEvent Task)}
    (pended : s'.xPendedTicks = s.xPendedTicks) (ticked : .ticked ∉ es)
    (interrupted : .interrupted ∉ es) : Balanced s s' es := by
  rw [Balanced, List.count_eq_zero.mpr ticked, List.count_eq_zero.mpr interrupted, pended]
  exact UInt32.add_comm _ _

variable {uxPriority : Task → Fin configMAX_PRIORITIES}

theorem Ticked.counts {s : Kernel Task Event} {expired rest : List (Task × UInt32)}
    {next : UInt32} (turn : Ticked uxPriority s expired rest next) :
    (xTaskIncrementTick uxPriority s).2.2.count .ticked = 1 ∧
      .interrupted ∉ (xTaskIncrementTick uxPriority s).2.2 ∧
      (xTaskIncrementTick uxPriority s).1.xPendedTicks = s.xPendedTicks := by
  have rung : .ticked ∉ expired.map fun item => KernelEvent.timedOut item.1 := by simp
  have failed : .ticked ∉ (if (countTick s).2 then [] else [@KernelEvent.assertFailed Task .delayedListEmpty]) := by
    split <;> simp
  refine ⟨?_, ?_, ?_⟩
  · rw [turn.events, List.cons_append, List.count_cons_self, List.count_append,
      List.count_eq_zero.mpr rung, List.count_eq_zero.mpr failed]
  · rw [turn.events]
    split <;> simp
  · rw [turn.state]
    exact (frame_releaseAll uxPriority _ _).xPendedTicks.trans (countTick_keeps s).2.2.1

theorem balanced_tick {s : Kernel Task Event} (h : Lists uxPriority s) :
    Balanced s (xTaskIncrementTick uxPriority s).1
      (.interrupted :: (xTaskIncrementTick uxPriority s).2.2) := by
  unfold Balanced
  by_cases running : s.uxSchedulerSuspended = 0
  · obtain ⟨expired, rest, next, turn⟩ := tick_cases h running
    obtain ⟨ticked, interrupted, pended⟩ := turn.counts
    rw [List.count_cons_of_ne (by simp), List.count_cons_self, ticked, pended,
      List.count_eq_zero.mpr interrupted]
    exact UInt32.add_comm _ _
  · have pended : xTaskIncrementTick uxPriority s =
        ({ s with xPendedTicks := s.xPendedTicks + 1 }, false, []) := if_neg running
    rw [pended]
    exact UInt32.zero_add _

theorem unwound_counts (count : Nat) {s : Kernel Task Event} (h : Lists uxPriority s)
    (running : s.uxSchedulerSuspended = 0) :
    (unwindPendedTicks uxPriority count s).2.count .ticked = count ∧
      .interrupted ∉ (unwindPendedTicks uxPriority count s).2 := by
  induction count generalizing s with
  | zero => exact ⟨rfl, List.not_mem_nil⟩
  | succ count ih =>
    obtain ⟨expired, rest, next, turn⟩ := tick_cases h running
    have woken := woken_tick h turn
    obtain ⟨ticked, interrupted, _⟩ := turn.counts
    obtain ⟨others, quiet⟩ := @ih
      { (xTaskIncrementTick uxPriority s).1 with
        xYieldPending := (xTaskIncrementTick uxPriority s).1.xYieldPending ||
          (xTaskIncrementTick uxPriority s).2.1 }
      (woken.lists.same rfl rfl (.refl _) rfl rfl) (woken.uxSchedulerSuspended.trans running)
    rw [unwindPendedTicks]
    refine ⟨?_, fun inside => (List.mem_append.mp inside).elim interrupted quiet⟩
    rw [List.count_append, ticked, others, Nat.add_comm]

theorem balanced_resume {s : Kernel Task Event} (h : Lists uxPriority s)
    (held : s.uxSchedulerSuspended = 1) :
    Balanced s (xTaskResumeAll uxPriority s).1 (xTaskResumeAll uxPriority s).2.2 := by
  obtain ⟨t, next, parts⟩ := resume_parts h held
  obtain ⟨ticked, interrupted⟩ := unwound_counts s.xPendedTicks.toNat parts.woken.lists
    parts.woken.uxSchedulerSuspended
  have later : .ticked ∉ s.xPendingReadyList.map (@KernelEvent.readied Task) := by simp
  have others : .interrupted ∉ s.xPendingReadyList.map (@KernelEvent.readied Task) := by simp
  rw [Balanced, parts.events, parts.state, List.count_append, List.count_append, ticked,
    List.count_eq_zero.mpr later, List.count_eq_zero.mpr others,
    List.count_eq_zero.mpr interrupted, Nat.zero_add]
  show UInt32.ofNat s.xPendedTicks.toNat + 0 = s.xPendedTicks + 0
  rw [UInt32.ofNat_toNat]

variable (uxPriority) in
theorem balanced_parked (xTicksToWait : UInt32) (indefinitely : Bool) (s : Kernel Task Event) :
    Balanced s (prvAddCurrentTaskToDelayedList uxPriority xTicksToWait indefinitely s).1
      (prvAddCurrentTaskToDelayedList uxPriority xTicksToWait indefinitely s).2 := by
  unfold prvAddCurrentTaskToDelayedList
  split
  · exact balanced_quiet rfl (by simp) (by simp)
  · dsimp only
    split <;> exact balanced_quiet rfl (by simp) (by simp)

variable [DecidableEq Event]

theorem balanced_body {idle : Task} {tasks : List Task} {s : Kernel Task Event}
    (h : Running uxPriority idle tasks s) {call : KernelCall Event}
    (at_ : s.point s.pxCurrentTCB = .suspended call) :
    Balanced s (suspendedBody uxPriority call s).1 (suspendedBody uxPriority call s).2 := by
  cases call with
  | vTaskDelay xTicksToDelay =>
    simp only [suspendedBody, h.once at_, List.nil_append]
    exact balanced_parked uxPriority xTicksToDelay false s
  | waitForEvent event xTicksToWait =>
    have parked := balanced_parked uxPriority xTicksToWait true { s with
      xEventLists := Function.update s.xEventLists event (vListInsert (s.pxCurrentTCB,
        UInt32.ofNat (configMAX_PRIORITIES - uxPriority s.pxCurrentTCB)) (s.xEventLists event)) }
    exact parked
  | xTaskDelayUntil xTimeIncrement =>
    show Balanced s (delayUntil uxPriority xTimeIncrement s).1 (delayUntil uxPriority _ s).2
    simp only [delayUntil, h.once at_, List.nil_append]
    split
    · have parked := balanced_parked uxPriority (s.pxPreviousWakeTime s.pxCurrentTCB +
        xTimeIncrement - s.xTickCount) false { s with
          pxPreviousWakeTime := Function.update s.pxPreviousWakeTime s.pxCurrentTCB
            (s.pxPreviousWakeTime s.pxCurrentTCB + xTimeIncrement) }
      unfold Balanced at parked ⊢
      rw [List.count_cons_of_ne (by simp), List.count_cons_of_ne (by simp)]
      exact parked
    · exact balanced_quiet rfl (by simp) (by simp)
  | _ => exact balanced_quiet rfl List.not_mem_nil List.not_mem_nil

theorem balanced_step {idle : Task} {tasks : List Task} {s s' : Kernel Task Event}
    {a : KernelAction Event} {events : List (KernelEvent Task)}
    (h : Running uxPriority idle tasks s) (turn : step uxPriority idle s a = some (s', events)) :
    Balanced s s' events := by
  cases step_moves turn with
  | ticked => exact balanced_tick h.lists
  | switched =>
    obtain ⟨yields, rings, task, es, switch, silent⟩ := switch_cases h.lists h.alive
    rw [switch]
    exact balanced_quiet rfl (fun inside => nomatch silent _ inside)
      fun inside => nomatch silent _ inside
  | woken fromISR inside =>
    unfold xTaskRemoveFromEventList
    by_cases free : s.uxSchedulerSuspended = 0
    · simp only [if_pos free]
      exact balanced_quiet rfl (by simp) (by simp)
    · simp only [if_neg free]
      exact balanced_quiet rfl List.not_mem_nil List.not_mem_nil
  | called none outside turn =>
    rcases startCall_cases turn with ⟨rfl, rfl⟩ | ⟨_, rfl, rfl⟩ | ⟨rfl, rfl, rfl⟩ | ⟨_, rfl, rfl⟩
    all_goals exact balanced_quiet rfl (by simp) (by simp)
  | placed at_ => exact balanced_body h at_
  | resumed at_ => exact balanced_resume h.lists (h.resuming at_)
  | yielded at_ => exact balanced_quiet rfl List.not_mem_nil List.not_mem_nil

/-- In every run the counter and the pended ticks together are the number of interrupts; where
the scheduler is not suspended, the counter alone. -/
theorem no_tick_lost {first idle : Task} {rest : List Task} (unique : (first :: rest).Nodup)
    (alive : idle ∈ first :: rest) {actions : List (KernelAction Event)} {s : Kernel Task Event}
    {past : List (List (KernelEvent Task))}
    (run : Machine.run (step uxPriority idle) (start uxPriority Event first rest) actions =
      some (s, past)) :
    s.xTickCount + s.xPendedTicks = stamp (past.flatten.count .interrupted) ∧
      (s.uxSchedulerSuspended = 0 → s.xTickCount = stamp (past.flatten.count .interrupted)) := by
  obtain ⟨c, clock, keeps, _⟩ := keeps_run unique alive run
  have count : s.xTickCount = stamp (past.flatten.count .ticked) := by
    rw [keeps.shows_.xTickCount, (Alarm.Clock.run_keeps clock).1, count_alarm]
    exact congrArg stamp (Nat.zero_add _)
  have created : Created uxPriority first (first :: rest) (start uxPriority Event first rest) :=
    created_start unique
  have begun : Running uxPriority idle (first :: rest) (start uxPriority Event first rest) ∧
      stamp (([] : List (List (KernelEvent Task))).flatten.count .ticked) +
          (start uxPriority Event first rest).xPendedTicks =
        stamp (([] : List (List (KernelEvent Task))).flatten.count .interrupted) := by
    refine ⟨running_start unique alive, ?_⟩
    rw [created.same]
    rfl
  have kept : ∀ (s : Kernel Task Event) past a s' events,
      Running uxPriority idle (first :: rest) s ∧
        stamp (past.flatten.count .ticked) + s.xPendedTicks =
          stamp (past.flatten.count .interrupted) →
      step uxPriority idle s a = some (s', events) →
      Running uxPriority idle (first :: rest) s' ∧
        stamp ((past ++ [events]).flatten.count .ticked) + s'.xPendedTicks =
          stamp ((past ++ [events]).flatten.count .interrupted) := by
    rintro s past a s' events ⟨running, before⟩ turn
    have balanced := balanced_step running turn
    unfold Balanced at balanced
    refine ⟨running.step turn, ?_⟩
    rw [List.flatten_concat, List.count_append, List.count_append, stamp_sum, stamp_sum,
      UInt32.add_assoc, balanced, ← UInt32.add_assoc, before]
  obtain ⟨_, balance⟩ := Machine.run_kept kept begun run
  rw [List.nil_append, ← count] at balance
  refine ⟨balance, fun free => ?_⟩
  have none : s.xPendedTicks = 0 := (keeps.running.settled free).2
  rw [← balance, none]
  exact (UInt32.add_zero _).symm

/-- An interrupt comes while `task_rx_parser` has the scheduler suspended. -/
theorem no_tick_lost_pended :
    ∃ (s : Kernel CreatedTask Unit) (past : List (List (KernelEvent CreatedTask))),
      Machine.run (step CreatedTask.uxPriority .idle)
          (start CreatedTask.uxPriority Unit .rxparse [.app, .signals, .uarttx, .idle])
          [.sysTick, .call (.vTaskDelay 2), .sysTick] = some (s, past) ∧
      s.xPendedTicks = 1 ∧
      s.xTickCount + s.xPendedTicks = stamp (past.flatten.count .interrupted) := by
  have turn : ∃ (s : Kernel CreatedTask Unit) (past : List (List (KernelEvent CreatedTask))),
      Machine.run (step CreatedTask.uxPriority .idle)
          (start CreatedTask.uxPriority Unit .rxparse [.app, .signals, .uarttx, .idle])
          [.sysTick, .call (.vTaskDelay 2), .sysTick] = some (s, past) ∧ s.xPendedTicks = 1 :=
    ⟨_, _, rfl, rfl⟩
  obtain ⟨s, past, run, pended⟩ := turn
  exact ⟨s, past, run, pended, (no_tick_lost (by decide) (by decide) run).1⟩

end Kernel

end CommandBox
