import CommandBox.KernelLists
import CommandBox.Lib.Machine

/-! Which task runs. While no switch is pending and the running task is not in the middle of a
call, it is ready and no ready task has a higher priority. -/
namespace CommandBox

/-- The points at which a task has the scheduler suspended. -/
def KernelPoint.holds {Event : Type} : KernelPoint Event → Bool
  | .suspended _ | .resuming _ => true
  | .outside | .yielding => false

/-- What `startCall` has checked of a call. -/
def KernelCall.Legal {Event : Type} (mayWait : Prop) : KernelCall Event → Prop
  | .vTaskDelay xTicksToDelay => xTicksToDelay ≠ 0 ∧ mayWait
  | .xTaskDelayUntil _ => mayWait
  | .waitForEvent _ xTicksToWait => xTicksToWait ≠ 0 ∧ mayWait
  | .taskYIELD | .xTaskGetTickCount => False
  | .lookAgain => True

namespace Kernel

variable {Task Event : Type} [DecidableEq Task] (uxPriority : Task → Fin configMAX_PRIORITIES)

theorem move_self (point : KernelPoint Event) (s : Kernel Task Event) :
    (s.move point).point s.pxCurrentTCB = point := Function.update_self _ _ _

theorem move_other (point : KernelPoint Event) (s : Kernel Task Event) {task : Task}
    (other : task ≠ s.pxCurrentTCB) : (s.move point).point task = s.point task :=
  Function.update_of_ne other _ _

/-- What it is that `tasks` become ready. -/
structure Woken (s s' : Kernel Task Event) (tasks : List Task) : Prop where
  lists : Lists uxPriority s'
  ready : ∀ task, s'.Ready uxPriority task ↔ task ∈ tasks ∨ s.Ready uxPriority task
  blocked : ∀ task, task ∈ s'.blockedTasks ↔ task ∈ s.blockedTasks ∧ task ∉ tasks
  pending : s'.xPendingReadyList = s.xPendingReadyList.filter fun task => task ∉ tasks
  pxCurrentTCB : s'.pxCurrentTCB = s.pxCurrentTCB
  uxSchedulerSuspended : s'.uxSchedulerSuspended = s.uxSchedulerSuspended
  xPendedTicks : s'.xPendedTicks = s.xPendedTicks
  pendSV : s'.pendSV = s.pendSV
  point : s'.point = s.point

variable {uxPriority}

theorem Woken.trans {s t u : Kernel Task Event} {xs ys : List Task} (first : Woken uxPriority s t xs)
    (second : Woken uxPriority t u ys) : Woken uxPriority s u (xs ++ ys) where
  lists := second.lists
  ready task := by
    rw [second.ready, first.ready, List.mem_append]
    tauto
  blocked task := by
    rw [second.blocked, first.blocked, List.mem_append]
    tauto
  pending := by
    rw [second.pending, first.pending, List.filter_filter]
    refine List.filter_congr fun task _ => ?_
    simp only [List.mem_append, not_or, Bool.decide_and, Bool.and_comm]
  pxCurrentTCB := second.pxCurrentTCB.trans first.pxCurrentTCB
  uxSchedulerSuspended := second.uxSchedulerSuspended.trans first.uxSchedulerSuspended
  xPendedTicks := second.xPendedTicks.trans first.xPendedTicks
  pendSV := second.pendSV.trans first.pendSV
  point := second.point.trans first.point

theorem woken_releaseAll {s : Kernel Task Event} (h : Lists uxPriority s) {tasks : List Task}
    (unique : tasks.Nodup) (blocked : ∀ task ∈ tasks, task ∈ s.blockedTasks) :
    Woken uxPriority s (releaseAll uxPriority tasks s) tasks := by
  have frame := frame_releaseAll uxPriority tasks s
  refine ⟨h.releaseAll unique blocked, fun task => ready_releaseAll, fun task => ?_,
    (waiting_releaseAll uxPriority tasks s).1, frame.pxCurrentTCB, frame.uxSchedulerSuspended,
    frame.xPendedTicks, frame.pendSV, frame.point⟩
  rw [blocked_releaseAll, List.mem_filter, decide_eq_true_iff]

omit [DecidableEq Task] in
theorem expired_blocked {s : Kernel Task Event} (h : Lists uxPriority s)
    {expired rest : List (Task × UInt32)} (delayed : s.pxDelayedTaskList = expired ++ rest) :
    (expired.map Prod.fst).Nodup ∧ ∀ task ∈ expired.map Prod.fst, task ∈ s.blockedTasks := by
  have unique := h.unique
  rw [blockedTasks, delayed, List.map_append, List.append_assoc, List.append_assoc] at unique
  refine ⟨(List.nodup_append.mp unique).1, fun task inside => ?_⟩
  rw [blockedTasks, delayed, List.map_append, List.append_assoc, List.append_assoc]
  exact List.mem_append_left _ inside

theorem woken_tick {s : Kernel Task Event} (h : Lists uxPriority s)
    {expired rest : List (Task × UInt32)} {next : UInt32}
    (turn : Ticked uxPriority s expired rest next) :
    Woken uxPriority s (xTaskIncrementTick uxPriority s).1 (expired.map Prod.fst) := by
  obtain ⟨current, suspended, pended, _, pendSV, point, _, pending, _, rings, _⟩ := countTick_keeps s
  obtain ⟨unique, blocked⟩ := expired_blocked h.countTick turn.delayed
  have woken := woken_releaseAll h.countTick unique blocked
  have same : ∀ task, (countTick s).1.Ready uxPriority task ↔ s.Ready uxPriority task := by
    intro task
    rw [Ready, rings]
    rfl
  have parts : ∀ task, task ∈ (countTick s).1.blockedTasks ↔ task ∈ s.blockedTasks := by
    intro task
    unfold countTick
    dsimp only
    split
    · exact (List.perm_append_comm.append_right _).mem_iff
    · exact Iff.rfl
  rw [turn.state]
  refine ⟨woken.lists.same rfl rfl (.refl _) rfl rfl, fun task => ?_, fun task => ?_,
    woken.pending.trans (pending ▸ rfl), woken.pxCurrentTCB.trans current,
    woken.uxSchedulerSuspended.trans suspended, woken.xPendedTicks.trans pended,
    woken.pendSV.trans pendSV, woken.point.trans point⟩
  · exact (woken.ready task).trans (or_congr_right (same task))
  · exact (woken.blocked task).trans (and_congr_left' (parts task))

theorem tick_yield {s : Kernel Task Event} {expired rest : List (Task × UInt32)} {next : UInt32}
    (turn : Ticked uxPriority s expired rest next) :
    (xTaskIncrementTick uxPriority s).1.xYieldPending = s.xYieldPending := by
  rw [turn.state]
  exact (frame_releaseAll _ _ _).xYieldPending.trans (countTick_keeps s).2.2.2.1

/-- The pended ticks, one after the other. -/
theorem woken_ticks (count : Nat) {s : Kernel Task Event} (h : Lists uxPriority s)
    (running : s.uxSchedulerSuspended = 0) :
    ∃ tasks, Woken uxPriority s (unwindPendedTicks uxPriority count s).1 tasks ∧
      ((unwindPendedTicks uxPriority count s).1.xYieldPending = false → s.xYieldPending = false ∧
        ∀ task ∈ tasks, uxPriority task ≤ uxPriority s.pxCurrentTCB) := by
  induction count generalizing s with
  | zero =>
    have same : Woken uxPriority s s [] :=
      ⟨h, by simp, by simp, by simp, rfl, rfl, rfl, rfl, rfl⟩
    exact ⟨[], same, fun yield => ⟨yield, by simp⟩⟩
  | succ count ih =>
    obtain ⟨expired, rest, next, turn⟩ := tick_cases h running
    have first := woken_tick h turn
    have lists := first.lists
    obtain ⟨tasks, second, quiet⟩ := @ih
      { (xTaskIncrementTick uxPriority s).1 with
        xYieldPending := (xTaskIncrementTick uxPriority s).1.xYieldPending ||
          (xTaskIncrementTick uxPriority s).2.1 }
      (lists.same rfl rfl (.refl _) rfl rfl) (first.uxSchedulerSuspended.trans running)
    have between : Woken uxPriority s
        { (xTaskIncrementTick uxPriority s).1 with
          xYieldPending := (xTaskIncrementTick uxPriority s).1.xYieldPending ||
            (xTaskIncrementTick uxPriority s).2.1 } (expired.map Prod.fst) :=
      ⟨lists.same rfl rfl (.refl _) rfl rfl, first.ready, first.blocked, first.pending,
        first.pxCurrentTCB, first.uxSchedulerSuspended, first.xPendedTicks, first.pendSV, first.point⟩
    refine ⟨expired.map Prod.fst ++ tasks, between.trans second, fun yield => ?_⟩
    obtain ⟨before, lower⟩ := quiet yield
    obtain ⟨old, flag⟩ := Bool.or_eq_false_iff.mp before
    obtain ⟨none, early⟩ := turn.flag flag
    refine ⟨none, fun task inside => ?_⟩
    rcases List.mem_append.mp inside with now | later
    · obtain ⟨item, there, rfl⟩ := List.mem_map.mp now
      exact early item there
    · exact first.pxCurrentTCB ▸ lower task later

variable (uxPriority) in
/-- `xTaskResumeAll` in its two parts: the tasks that were pending become ready, which leads to
`t`, and then come the pended ticks. -/
structure Resumed (s t : Kernel Task Event) (next : UInt32) : Prop where
  readied : t = { releaseAll uxPriority s.xPendingReadyList { s with uxSchedulerSuspended := 0 } with
    xNextTaskUnblockTime := next
    xYieldPending := s.xYieldPending ||
      s.xPendingReadyList.any fun task => decide (uxPriority s.pxCurrentTCB < uxPriority task) }
  reset : next = s.xNextTaskUnblockTime ∨
    next = ((releaseAll uxPriority s.xPendingReadyList
      { s with uxSchedulerSuspended := 0 }).pxDelayedTaskList.head?.map Prod.snd).getD portMAX_DELAY
  woken : Woken uxPriority { s with uxSchedulerSuspended := 0 } t s.xPendingReadyList
  state : (xTaskResumeAll uxPriority s).1 =
    { (unwindPendedTicks uxPriority s.xPendedTicks.toNat t).1 with
      xPendedTicks := 0
      pendSV := (unwindPendedTicks uxPriority s.xPendedTicks.toNat t).1.pendSV ||
        (unwindPendedTicks uxPriority s.xPendedTicks.toNat t).1.xYieldPending }
  flag : (xTaskResumeAll uxPriority s).2.1 =
    (unwindPendedTicks uxPriority s.xPendedTicks.toNat t).1.xYieldPending
  events : (xTaskResumeAll uxPriority s).2.2 = s.xPendingReadyList.map .readied ++
    (unwindPendedTicks uxPriority s.xPendedTicks.toNat t).2

theorem resume_parts {s : Kernel Task Event} (h : Lists uxPriority s)
    (held : s.uxSchedulerSuspended = 1) : ∃ t next, Resumed uxPriority s t next := by
  have opened : Lists uxPriority { s with uxSchedulerSuspended := 0 } :=
    h.same rfl rfl (.refl _) rfl rfl
  obtain ⟨next, moved, reset⟩ := readyPending_cases opened
  have first := woken_releaseAll opened h.once h.pending
  have pended : (releaseAll uxPriority s.xPendingReadyList
      { s with uxSchedulerSuspended := 0 }).xPendedTicks = s.xPendedTicks := first.xPendedTicks
  refine ⟨_, next, rfl, reset.imp And.right id, ?_, ?_, ?_, ?_⟩
  · exact ⟨first.lists.same rfl rfl (.refl _) rfl rfl, first.ready, first.blocked, first.pending,
      first.pxCurrentTCB, first.uxSchedulerSuspended, first.xPendedTicks, first.pendSV, first.point⟩
  all_goals simp [xTaskResumeAll, held, moved, pended]

/-- All that `xTaskResumeAll` does when it ends a section: tasks become ready, and it asks for
a switch if one of them should run. -/
theorem resume_cases {s : Kernel Task Event} (h : Lists uxPriority s)
    (held : s.uxSchedulerSuspended = 1) :
    ∃ (t : Kernel Task Event) (tasks : List Task),
      Woken uxPriority { s with uxSchedulerSuspended := 0 } t tasks ∧ t.xPendingReadyList = [] ∧
      (xTaskResumeAll uxPriority s).1 =
        { t with xPendedTicks := 0, pendSV := t.pendSV || t.xYieldPending } ∧
      (xTaskResumeAll uxPriority s).2.1 = t.xYieldPending ∧
      (t.xYieldPending = false → s.xYieldPending = false ∧
        ∀ task ∈ tasks, uxPriority task ≤ uxPriority s.pxCurrentTCB) := by
  obtain ⟨t, next, parts⟩ := resume_parts h held
  obtain ⟨tasks, second, quiet⟩ := woken_ticks s.xPendedTicks.toNat parts.woken.lists
    parts.woken.uxSchedulerSuspended
  refine ⟨_, _, parts.woken.trans second, ?_, parts.state, parts.flag, fun yield => ?_⟩
  · have none : s.xPendingReadyList.filter (fun task => task ∉ s.xPendingReadyList) = [] :=
      List.filter_eq_nil_iff.mpr fun task inside => by simpa using inside
    rw [second.pending, parts.woken.pending]
    exact congrArg (List.filter fun task => task ∉ tasks) none
  · obtain ⟨before, lower⟩ := quiet yield
    rw [parts.readied] at before
    obtain ⟨old, low⟩ := Bool.or_eq_false_iff.mp before
    refine ⟨old, fun task inside => ?_⟩
    rcases List.mem_append.mp inside with now | later
    · have flag := List.any_eq_false.mp low task now
      exact Fin.not_lt.mp (of_decide_eq_false (Bool.eq_false_iff.mpr flag))
    · exact parts.woken.pxCurrentTCB ▸ lower task later

variable (uxPriority) in
/-- What holds between the steps. `tasks` are all tasks; of the flags, `top` says what is left
to do while none is set. -/
structure Running (idle : Task) (tasks : List Task) (s : Kernel Task Event) : Prop where
  lists : Lists uxPriority s
  home : ∀ task ∈ tasks, s.Ready uxPriority task ∨ task ∈ s.blockedTasks
  alive : s.Ready uxPriority idle
  nested : s.uxSchedulerSuspended = if (s.point s.pxCurrentTCB).holds then 1 else 0
  others : ∀ task, task ≠ s.pxCurrentTCB → (s.point task).holds = false
  settled : s.uxSchedulerSuspended = 0 → s.xPendingReadyList = [] ∧ s.xPendedTicks = 0
  placing : ∀ call, s.point s.pxCurrentTCB = .suspended call →
    s.Ready uxPriority s.pxCurrentTCB ∧ call.Legal (s.pxCurrentTCB ≠ idle)
  returning : s.point s.pxCurrentTCB = .resuming false → s.Ready uxPriority s.pxCurrentTCB
  active : s.point s.pxCurrentTCB = .outside → s.pendSV = false →
    s.Ready uxPriority s.pxCurrentTCB
  top : s.pendSV = false → s.xYieldPending = false → ∀ task, s.Ready uxPriority task →
    uxPriority task ≤ uxPriority s.pxCurrentTCB
  flagged : s.uxSchedulerSuspended = 0 → s.xYieldPending = true → s.pendSV = true

/-- Tasks become ready, and the flags tell of it. -/
theorem Running.woken {idle : Task} {tasks woken : List Task} {s t s' : Kernel Task Event}
    (h : Running uxPriority idle tasks s) (turn : Woken uxPriority s t woken)
    (same : s' = { t with xYieldPending := s'.xYieldPending, pendSV := s'.pendSV })
    (quiet : s'.pendSV = false → s.pendSV = false)
    (kept : s'.xYieldPending = false → s.xYieldPending = false)
    (lower : s'.pendSV = false → s'.xYieldPending = false →
      ∀ task ∈ woken, uxPriority task ≤ uxPriority s.pxCurrentTCB)
    (flagged : s.uxSchedulerSuspended = 0 → s'.xYieldPending = true → s'.pendSV = true) :
    Running uxPriority idle tasks s' := by
  have ready : ∀ task, s'.Ready uxPriority task ↔ task ∈ woken ∨ s.Ready uxPriority task := by
    intro task
    rw [same]
    exact turn.ready task
  have blocked : ∀ task, task ∈ s'.blockedTasks ↔ task ∈ s.blockedTasks ∧ task ∉ woken := by
    intro task
    rw [same]
    exact turn.blocked task
  have current : s'.pxCurrentTCB = s.pxCurrentTCB := by rw [same, ← turn.pxCurrentTCB]
  have point : s'.point = s.point := by rw [same, ← turn.point]
  have suspended : s'.uxSchedulerSuspended = s.uxSchedulerSuspended := by
    rw [same, ← turn.uxSchedulerSuspended]
  have pending : s'.xPendingReadyList = s.xPendingReadyList.filter fun task => task ∉ woken := by
    rw [same, ← turn.pending]
  have pended : s'.xPendedTicks = s.xPendedTicks := by rw [same, ← turn.xPendedTicks]
  constructor
  · rw [same]
    exact turn.lists.same rfl rfl (.refl _) rfl rfl
  · intro task inside
    rw [ready, blocked]
    rcases h.home task inside with before | before
    · exact .inl (.inr before)
    · by_cases now : task ∈ woken
      · exact .inl (.inl now)
      · exact .inr ⟨before, now⟩
  · exact (ready idle).mpr (.inr h.alive)
  · rw [suspended, point, current]
    exact h.nested
  · rw [point, current]
    exact h.others
  · intro free
    obtain ⟨none, zero⟩ := h.settled (suspended ▸ free)
    rw [pending, pended, none]
    exact ⟨rfl, zero⟩
  · rw [point, current]
    intro call there
    obtain ⟨before, legal⟩ := h.placing call there
    exact ⟨(ready _).mpr (.inr before), legal⟩
  · rw [point, current]
    exact fun there => (ready _).mpr (.inr (h.returning there))
  · rw [point, current]
    exact fun there none => (ready _).mpr (.inr (h.active there (quiet none)))
  · intro none yield task there
    rw [current]
    rcases (ready task).mp there with now | before
    · exact lower none yield task now
    · exact h.top (quiet none) (kept yield) task before
  · rw [suspended]
    exact flagged

omit [DecidableEq Task] in
theorem Running.held {idle : Task} {tasks : List Task} {s : Kernel Task Event}
    (h : Running uxPriority idle tasks s) :
    s.uxSchedulerSuspended = 0 ↔ (s.point s.pxCurrentTCB).holds = false := by
  rw [h.nested]
  cases (s.point s.pxCurrentTCB).holds <;> simp

theorem Running.tick {idle : Task} {tasks : List Task} {s : Kernel Task Event}
    (h : Running uxPriority idle tasks s) : Running uxPriority idle tasks
      { (xTaskIncrementTick uxPriority s).1 with
        pendSV := s.pendSV || (xTaskIncrementTick uxPriority s).2.1 } := by
  by_cases running : s.uxSchedulerSuspended = 0
  · obtain ⟨expired, rest, next, turn⟩ := tick_cases h.lists running
    have yields := tick_yield turn
    refine h.woken (woken_tick h.lists turn) rfl (fun none => (Bool.or_eq_false_iff.mp none).1)
      (fun none => yields ▸ none) (fun none _ task inside => ?_) (fun _ yield => ?_)
    · obtain ⟨item, there, rfl⟩ := List.mem_map.mp inside
      exact (turn.flag (Bool.or_eq_false_iff.mp none).2).2 item there
    · exact Bool.or_eq_true_iff.mpr (.inl (h.flagged running (yields.symm.trans yield)))
  · have turn : xTaskIncrementTick uxPriority s =
        ({ s with xPendedTicks := s.xPendedTicks + 1 }, false, []) := if_neg running
    rw [turn]
    simp only [Bool.or_false]
    exact ⟨h.lists.same rfl rfl (.refl _) rfl rfl, h.home, h.alive, h.nested, h.others,
      fun free => absurd free running, h.placing, h.returning, h.active, h.top, h.flagged⟩

omit [DecidableEq Task] in
theorem select_cases {s : Kernel Task Event} (h : Lists uxPriority s) {other : Task}
    (ready : s.Ready uxPriority other) :
    ∃ task ring, taskSELECT_HIGHEST_PRIORITY_TASK s =
        ({ s with
          pxReadyTasksLists := Function.update s.pxReadyTasksLists (uxPriority task) ring
          pxCurrentTCB := task }, [.switched task]) ∧
      ring.Perm (s.pxReadyTasksLists (uxPriority task)) ∧ s.Ready uxPriority task ∧
      ∀ other, s.Ready uxPriority other → uxPriority other ≤ uxPriority task := by
  have bit : ∀ other, s.Ready uxPriority other →
      s.uxTopReadyPriority.getLsbD (uxPriority other) = true :=
    fun other there => (h.bits _).mpr ⟨other, there⟩
  obtain ⟨first, inside⟩ := (h.bits _).mp (highest_bit (bit other ready)).1
  obtain ⟨task, owner⟩ := (h.ring _).next inside
  have level : portGET_HIGHEST_PRIORITY s.uxTopReadyPriority = uxPriority task :=
    h.level _ task (next_inside owner)
  rw [level] at owner
  have split : listGET_OWNER_OF_NEXT_ENTRY (s.pxReadyTasksLists (uxPriority task)) =
      ((listGET_OWNER_OF_NEXT_ENTRY (s.pxReadyTasksLists (uxPriority task))).1, some task) := by
    rw [← owner]
  refine ⟨task, _, ?_, next_perm _, next_inside owner, fun other ready => ?_⟩
  · rw [taskSELECT_HIGHEST_PRIORITY_TASK, level, split]
  · have below := (highest_bit (bit other ready)).2
    exact Fin.le_def.mpr (level ▸ below)

omit [DecidableEq Task] in
theorem Lists.rotate {s s' : Kernel Task Event} (h : Lists uxPriority s)
    (rings : ∀ p, (s'.pxReadyTasksLists p).Perm (s.pxReadyTasksLists p))
    (bits : s'.uxTopReadyPriority = s.uxTopReadyPriority)
    (blocked : s'.blockedTasks = s.blockedTasks) (events : s'.xEventLists = s.xEventLists)
    (pending : s'.xPendingReadyList = s.xPendingReadyList) : Lists uxPriority s' where
  ring p := ⟨(rings p).mem_iff.mpr (h.ring p).1, (rings p).nodup_iff.mpr (h.ring p).2⟩
  level p task inside := h.level p task ((rings p).mem_iff.mp inside)
  bits p := by
    rw [bits, h.bits]
    exact exists_congr fun task => (rings p).mem_iff.symm
  unique := blocked ▸ h.unique
  apart task inside ready := h.apart task (blocked ▸ inside) ((rings _).mem_iff.mp ready)
  waiting event item inside := by
    rw [blocked, pending]
    exact h.waiting event item (events ▸ inside)
  pending task inside := blocked ▸ h.pending task (pending ▸ inside)
  once := pending ▸ h.once

theorem Running.switch {idle : Task} {tasks : List Task} {s : Kernel Task Event}
    (h : Running uxPriority idle tasks s) :
    Running uxPriority idle tasks (vTaskSwitchContext { s with pendSV := false }).1 := by
  by_cases free : s.uxSchedulerSuspended = 0
  · have lists : Lists uxPriority { s with pendSV := false, xYieldPending := false } :=
      h.lists.same rfl rfl (.refl _) rfl rfl
    obtain ⟨task, ring, turn, order, ready, highest⟩ := select_cases lists h.alive
    have switch : vTaskSwitchContext { s with pendSV := false } =
        taskSELECT_HIGHEST_PRIORITY_TASK { s with pendSV := false, xYieldPending := false } :=
      if_neg (not_not.mpr free)
    have rings : ∀ p, (Function.update s.pxReadyTasksLists (uxPriority task) ring p).Perm
        (s.pxReadyTasksLists p) := by
      intro p
      by_cases same : p = uxPriority task
      · subst same
        rw [Function.update_self]
        exact order
      · rw [Function.update_of_ne same]
    have outside : ∀ other, (s.point other).holds = false := by
      intro other
      by_cases same : other = s.pxCurrentTCB
      · exact same ▸ h.held.mp free
      · exact h.others other same
    have points : ∀ point, s.point task = point → point.holds = false :=
      fun point there => there ▸ outside task
    rw [switch, turn]
    refine ⟨lists.rotate rings rfl rfl rfl rfl, fun other inside => ?_, ?_, ?_,
      fun other _ => outside other, fun _ => h.settled free,
      fun call there => Bool.noConfusion (points _ there), fun there => Bool.noConfusion (points _ there),
      fun _ _ => (rings _).mem_iff.mpr ready, fun _ _ other there => ?_, fun _ yield => Bool.noConfusion yield⟩
    · exact (h.home other inside).imp (rings _).mem_iff.mpr id
    · exact (rings _).mem_iff.mpr h.alive
    · show s.uxSchedulerSuspended = if (s.point task).holds then 1 else 0
      rw [free, outside task]
      rfl
    · exact highest other ((rings _).mem_iff.mp there)
  · have switch : vTaskSwitchContext { s with pendSV := false } =
        ({ s with pendSV := false, xYieldPending := true }, []) := if_pos free
    have holds : ¬ (s.point s.pxCurrentTCB).holds = false := fun none => free (h.held.mpr none)
    rw [switch]
    refine ⟨h.lists.same rfl rfl (.refl _) rfl rfl, h.home, h.alive, h.nested, h.others, h.settled,
      h.placing, h.returning, fun there _ => absurd ?_ holds, fun _ yield => Bool.noConfusion yield,
      fun none => absurd none free⟩
    rw [show s.point s.pxCurrentTCB = .outside from there]
    rfl

/-- The first task of a list of waiting tasks, while the scheduler is suspended. -/
theorem Lists.hold {s : Kernel Task Event} (h : Lists uxPriority s) {task : Task}
    (blocked : task ∈ s.blockedTasks) :
    Lists uxPriority { removeEventItem task s with
      xPendingReadyList := (removeEventItem task s).xPendingReadyList ++ [task] } where
  ring := h.ring
  level := h.level
  bits := h.bits
  unique := h.unique
  apart := h.apart
  waiting event item inside := by
    obtain ⟨before, other⟩ := List.mem_filter.mp inside
    obtain ⟨waits, free⟩ := h.waiting event item before
    refine ⟨waits, fun there => ?_⟩
    rcases List.mem_append.mp there with old | new
    · exact free (List.mem_of_mem_filter old)
    · exact of_decide_eq_true other (List.mem_singleton.mp new)
  pending other inside := by
    rcases List.mem_append.mp inside with old | new
    · exact h.pending other (List.mem_of_mem_filter old)
    · exact List.mem_singleton.mp new ▸ blocked
  once := by
    refine List.nodup_append.mpr ⟨h.once.filter _, List.nodup_singleton _, ?_⟩
    rintro other inside _ new rfl
    exact of_decide_eq_true (List.mem_filter.mp inside).2 (List.mem_singleton.mp new)

theorem Running.event {idle : Task} {tasks : List Task} {s : Kernel Task Event}
    (h : Running uxPriority idle tasks s) {task : Task} (blocked : task ∈ s.blockedTasks)
    (fromISR : Bool) :
    Running uxPriority idle tasks
      { (xTaskRemoveFromEventList uxPriority task s).1 with
        pendSV := s.pendSV || (xTaskRemoveFromEventList uxPriority task s).2.1 &&
          (fromISR || s.uxSchedulerSuspended = 0) } := by
  unfold xTaskRemoveFromEventList
  by_cases free : s.uxSchedulerSuspended = 0
  · have woken := woken_releaseAll h.lists (List.nodup_singleton task)
      fun other inside => List.mem_singleton.mp inside ▸ blocked
    simp only [free, decide_true, Bool.or_true, Bool.and_true]
    refine h.woken woken rfl (fun none => (Bool.or_eq_false_iff.mp none).1)
      (fun none => (Bool.or_eq_false_iff.mp none).1) (fun none _ other inside => ?_)
      (fun _ yield => ?_)
    · obtain rfl := List.mem_singleton.mp inside
      exact Fin.not_lt.mp (of_decide_eq_false (Bool.or_eq_false_iff.mp none).2)
    · rcases Bool.or_eq_true_iff.mp yield with old | new
      · exact Bool.or_eq_true_iff.mpr (.inl (h.flagged free old))
      · exact Bool.or_eq_true_iff.mpr (.inr new)
  · simp only [free, decide_false, Bool.or_false]
    refine ⟨(h.lists.hold blocked).same rfl rfl (.refl _) rfl rfl, h.home, h.alive, h.nested,
      h.others, fun none => absurd none free, h.placing, h.returning, fun there none => ?_,
      fun none yield => ?_, fun none => absurd none free⟩
    · exact h.active there (Bool.or_eq_false_iff.mp none).1
    · exact h.top (Bool.or_eq_false_iff.mp none).1 (Bool.or_eq_false_iff.mp yield).1

theorem Running.suspend {idle : Task} {tasks : List Task} {s : Kernel Task Event}
    (h : Running uxPriority idle tasks s) (outside : s.point s.pxCurrentTCB = .outside)
    (none : s.pendSV = false) {call : KernelCall Event}
    (legal : call.Legal (s.pxCurrentTCB ≠ idle)) :
    Running uxPriority idle tasks ((vTaskSuspendAll s).move (.suspended call)) := by
  have free : s.uxSchedulerSuspended = 0 := h.held.mpr (by rw [outside]; rfl)
  have point : ((vTaskSuspendAll s).move (.suspended call)).point s.pxCurrentTCB =
      .suspended call := move_self _ _
  refine ⟨h.lists.same rfl rfl (.refl _) rfl rfl, h.home, h.alive, ?_, fun task other => ?_,
    fun zero => absurd zero (Nat.succ_ne_zero _), fun call' there => ⟨h.active outside none, ?_⟩,
    fun there => ?_, fun there => ?_, h.top, fun zero => absurd zero (Nat.succ_ne_zero _)⟩
  · show s.uxSchedulerSuspended + 1 =
      if (((vTaskSuspendAll s).move (.suspended call)).point s.pxCurrentTCB).holds then 1 else 0
    rw [point, free]
    rfl
  · rw [move_other _ (vTaskSuspendAll s) other]
    exact h.others task other
  · cases point.symm.trans there
    exact legal
  · nomatch point.symm.trans there
  · nomatch point.symm.trans there

/-- All that a call does up to `vTaskSuspendAll`. -/
theorem startCall_cases {idle : Task} {s s' : Kernel Task Event}
    {call : KernelCall Event} {events : List (KernelEvent Task)}
    (turn : startCall idle call s = some (s', events)) :
    (s' = { s with pendSV := true } ∧ events = []) ∨
    (call = .xTaskGetTickCount ∧ s' = { s with
        pxPreviousWakeTime := Function.update s.pxPreviousWakeTime s.pxCurrentTCB s.xTickCount } ∧
      events = [.tookTime s.pxCurrentTCB]) ∨
    (call = .xTaskDelayUntil 0 ∧ s' = s ∧ events = [.assertFailed .timeIncrement]) ∨
    (call.Legal (s.pxCurrentTCB ≠ idle) ∧ s' = (vTaskSuspendAll s).move (.suspended call) ∧
      events = []) := by
  cases call with
  | taskYIELD =>
    cases turn
    exact .inl ⟨rfl, rfl⟩
  | xTaskGetTickCount =>
    cases turn
    exact .inr (.inl ⟨rfl, rfl, rfl⟩)
  | lookAgain =>
    cases turn
    exact .inr (.inr (.inr ⟨trivial, rfl, rfl⟩))
  | vTaskDelay xTicksToDelay =>
    simp only [startCall] at turn
    split at turn
    · cases turn
      exact .inl ⟨rfl, rfl⟩
    · rename_i positive
      split at turn
      · contradiction
      · rename_i other
        cases turn
        exact .inr (.inr (.inr ⟨⟨positive, other⟩, rfl, rfl⟩))
  | xTaskDelayUntil xTimeIncrement =>
    simp only [startCall] at turn
    split at turn
    · rename_i zero
      cases turn
      exact .inr (.inr (.inl ⟨zero ▸ rfl, rfl, rfl⟩))
    · split at turn
      · contradiction
      · rename_i other
        cases turn
        exact .inr (.inr (.inr ⟨other, rfl, rfl⟩))
  | waitForEvent event xTicksToWait =>
    simp only [startCall] at turn
    split at turn
    · contradiction
    · rename_i legal
      cases turn
      exact .inr (.inr (.inr ⟨not_or.mp legal, rfl, rfl⟩))

theorem Running.start_call {idle : Task} {tasks : List Task} {s s' : Kernel Task Event}
    (h : Running uxPriority idle tasks s) (outside : s.point s.pxCurrentTCB = .outside)
    (none : s.pendSV = false) {call : KernelCall Event} {events : List (KernelEvent Task)}
    (turn : startCall idle call s = some (s', events)) : Running uxPriority idle tasks s' := by
  rcases startCall_cases turn with ⟨rfl, _⟩ | ⟨_, rfl, _⟩ | ⟨_, rfl, _⟩ | ⟨legal, rfl, _⟩
  · exact ⟨h.lists.same rfl rfl (.refl _) rfl rfl, h.home, h.alive, h.nested, h.others, h.settled,
      h.placing, h.returning, fun _ set => Bool.noConfusion set, fun set => Bool.noConfusion set,
      fun _ _ => rfl⟩
  · exact ⟨h.lists.same rfl rfl (.refl _) rfl rfl, h.home, h.alive, h.nested, h.others, h.settled,
      h.placing, h.returning, h.active, h.top, h.flagged⟩
  · exact h
  · exact h.suspend outside none legal

/-- The running task has gone into a list of blocked tasks and will force a switch. -/
theorem Running.parked {idle : Task} {tasks : List Task} {s t s' : Kernel Task Event}
    (h : Running uxPriority idle tasks s) {call : KernelCall Event}
    (at_ : s.point s.pxCurrentTCB = .suspended call) (other : s.pxCurrentTCB ≠ idle)
    (turn : Parked uxPriority s t) (lists : Lists uxPriority s')
    (same : s' = { t with xEventLists := s'.xEventLists, pxPreviousWakeTime := s'.pxPreviousWakeTime }) :
    Running uxPriority idle tasks (s'.move (.resuming true)) := by
  have ready : ∀ task, s'.Ready uxPriority task ↔ task ≠ s.pxCurrentTCB ∧ s.Ready uxPriority task := by
    intro task
    rw [same]
    exact turn.ready task
  have blocked : s'.blockedTasks.Perm (s.pxCurrentTCB :: s.blockedTasks) := by
    rw [same]
    exact turn.blocked
  have current : s'.pxCurrentTCB = s.pxCurrentTCB := by rw [same, ← turn.frame.pxCurrentTCB]
  have points : s'.point = s.point := by rw [same, ← turn.frame.point]
  have suspended : s'.uxSchedulerSuspended = s.uxSchedulerSuspended := by
    rw [same, ← turn.frame.uxSchedulerSuspended]
  have pendSV : s'.pendSV = s.pendSV := by rw [same, ← turn.frame.pendSV]
  have yields : s'.xYieldPending = s.xYieldPending := by rw [same, ← turn.frame.xYieldPending]
  have held : s.uxSchedulerSuspended = 1 := by
    rw [h.nested, at_]
    rfl
  have point := move_self (.resuming true) s'
  have locked : (s'.move (.resuming true)).uxSchedulerSuspended ≠ 0 := by
    show s'.uxSchedulerSuspended ≠ 0
    rw [suspended, held]
    exact Nat.one_ne_zero
  refine ⟨lists.same rfl rfl (.refl _) rfl rfl, fun task inside => ?_, ?_, ?_, fun task differs => ?_,
    fun free => absurd free locked, fun call there => ?_, fun there => ?_, fun there => ?_,
    fun none yield task there => ?_, fun free => absurd free locked⟩
  · show s'.Ready uxPriority task ∨ task ∈ s'.blockedTasks
    rw [ready, blocked.mem_iff, List.mem_cons]
    have before := h.home task inside
    tauto
  · exact (ready idle).mpr ⟨Ne.symm other, h.alive⟩
  · show s'.uxSchedulerSuspended = if ((s'.move (.resuming true)).point s'.pxCurrentTCB).holds then 1 else 0
    rw [point, suspended, held]
    rfl
  · rw [move_other _ s' differs, points]
    exact h.others task (current ▸ differs)
  · nomatch point.symm.trans there
  · nomatch point.symm.trans there
  · nomatch point.symm.trans there
  · show uxPriority task ≤ uxPriority s'.pxCurrentTCB
    rw [current]
    exact h.top (pendSV ▸ none) (yields ▸ yield) task ((ready task).mp there).2

/-- The running task goes on to a point at which the scheduler is not suspended. -/
theorem Running.open {idle : Task} {tasks : List Task} {s : Kernel Task Event}
    {point : KernelPoint Event} (released : point.holds = false) (lists : Lists uxPriority s)
    (home : ∀ task ∈ tasks, s.Ready uxPriority task ∨ task ∈ s.blockedTasks)
    (alive : s.Ready uxPriority idle) (free : s.uxSchedulerSuspended = 0)
    (others : ∀ task, task ≠ s.pxCurrentTCB → (s.point task).holds = false)
    (settled : s.xPendingReadyList = [] ∧ s.xPendedTicks = 0)
    (active : point = .outside → s.pendSV = false → s.Ready uxPriority s.pxCurrentTCB)
    (top : s.pendSV = false → s.xYieldPending = false → ∀ task, s.Ready uxPriority task →
      uxPriority task ≤ uxPriority s.pxCurrentTCB)
    (flagged : s.xYieldPending = true → s.pendSV = true) :
    Running uxPriority idle tasks (s.move point) := by
  have here : (s.move point).point (s.move point).pxCurrentTCB = point := move_self point s
  refine ⟨lists.same rfl rfl (.refl _) rfl rfl, home, alive, ?_, fun task other => ?_,
    fun _ => settled, fun call there => ?_, fun there => ?_, fun there none => ?_, top,
    fun _ => flagged⟩
  · rw [here, released]
    exact free
  · rw [move_other _ s other]
    exact others task other
  · rw [here.symm.trans there] at released
    nomatch released
  · rw [here.symm.trans there] at released
    nomatch released
  · exact active (here.symm.trans there) none

omit [DecidableEq Task] in
theorem Running.resuming {idle : Task} {tasks : List Task} {s : Kernel Task Event}
    (h : Running uxPriority idle tasks s) {yields : Bool}
    (at_ : s.point s.pxCurrentTCB = .resuming yields) : s.uxSchedulerSuspended = 1 := by
  rw [h.nested, at_]
  rfl

omit [DecidableEq Task] in
theorem Running.once {idle : Task} {tasks : List Task} {s : Kernel Task Event}
    (h : Running uxPriority idle tasks s) {call : KernelCall Event}
    (at_ : s.point s.pxCurrentTCB = .suspended call) : assertSuspendedOnce s = [] := by
  have alone : s.uxSchedulerSuspended = 1 := by
    rw [h.nested, at_]
    rfl
  exact if_pos alone

/-- The running task resumes the scheduler. -/
theorem Running.resume {idle : Task} {tasks : List Task} {s : Kernel Task Event}
    (h : Running uxPriority idle tasks s) {yields : Bool}
    (at_ : s.point s.pxCurrentTCB = .resuming yields) :
    Running uxPriority idle tasks
      ((xTaskResumeAll uxPriority s).1.move
        (if yields && !(xTaskResumeAll uxPriority s).2.1 then .yielding else .outside)) := by
  have held := h.resuming at_
  obtain ⟨t, woken, turn, pending, state, flag, lower⟩ := resume_cases h.lists held
  have current : t.pxCurrentTCB = s.pxCurrentTCB := turn.pxCurrentTCB
  have ready : ∀ task, s.Ready uxPriority task → t.Ready uxPriority task :=
    fun task before => (turn.ready task).mpr (.inr before)
  rw [state, flag]
  refine Running.open ?_ (turn.lists.same rfl rfl (.refl _) rfl rfl) (fun task inside => ?_)
    (ready idle h.alive) turn.uxSchedulerSuspended (fun task other => ?_) ⟨pending, rfl⟩
    (fun outside none => ?_) (fun none yield task there => ?_)
    (fun yield => Bool.or_eq_true_iff.mpr (.inr yield))
  · split <;> rfl
  · rcases h.home task inside with before | before
    · exact .inl (ready task before)
    · by_cases now : task ∈ woken
      · exact .inl ((turn.ready task).mpr (.inl now))
      · exact .inr ((turn.blocked task).mpr ⟨before, now⟩)
  · rw [turn.point]
    exact h.others task (current ▸ other)
  · -- without a switch the call is one that has not left the ready list
    obtain ⟨_, quiet⟩ := Bool.or_eq_false_iff.mp none
    rw [quiet] at outside
    cases yields with
    | true => nomatch outside
    | false => exact ready _ (current ▸ h.returning at_)
  · obtain ⟨before, below⟩ := lower yield
    obtain ⟨clear, _⟩ := Bool.or_eq_false_iff.mp none
    show uxPriority task ≤ uxPriority t.pxCurrentTCB
    rw [current]
    rcases (turn.ready task).mp there with now | old
    · exact below task now
    · exact h.top (turn.pendSV.symm.trans clear) before task old

variable (uxPriority) in
/-- The lists of waiting tasks and the variables of the tasks play no part in it. -/
theorem add_delayed_other (xTicksToWait : UInt32) (indefinitely : Bool) (s : Kernel Task Event)
    (events : Event → List (Task × UInt32)) (wakes : Task → UInt32) :
    prvAddCurrentTaskToDelayedList uxPriority xTicksToWait indefinitely
        { s with xEventLists := events, pxPreviousWakeTime := wakes } =
      ({ (prvAddCurrentTaskToDelayedList uxPriority xTicksToWait indefinitely s).1 with
          xEventLists := events, pxPreviousWakeTime := wakes },
        (prvAddCurrentTaskToDelayedList uxPriority xTicksToWait indefinitely s).2) := by
  unfold prvAddCurrentTaskToDelayedList
  dsimp only
  split
  · rfl
  · dsimp only
    split <;> rfl

omit [DecidableEq Task] in
/-- A blocked task goes into a list of waiting tasks. -/
theorem Lists.wait [DecidableEq Event] {s : Kernel Task Event} (h : Lists uxPriority s)
    (item : Task × UInt32) (blocked : item.1 ∈ s.blockedTasks)
    (free : item.1 ∉ s.xPendingReadyList) (event : Event) :
    Lists uxPriority { s with
      xEventLists := Function.update s.xEventLists event
        (vListInsert item (s.xEventLists event)) } where
  ring := h.ring
  level := h.level
  bits := h.bits
  unique := h.unique
  apart := h.apart
  waiting other entry inside := by
    change entry ∈ Function.update s.xEventLists event _ other at inside
    by_cases same : other = event
    · subst same
      rw [Function.update_self, (insert_sorted_perm _ _).mem_iff, List.mem_cons] at inside
      rcases inside with rfl | before
      · exact ⟨blocked, free⟩
      · exact h.waiting other entry before
    · rw [Function.update_of_ne same] at inside
      exact h.waiting other entry inside
  pending := h.pending
  once := h.once

/-- The running task has found no need to wait. -/
theorem Running.stay {idle : Task} {tasks : List Task} {s : Kernel Task Event}
    (h : Running uxPriority idle tasks s) {call : KernelCall Event}
    (at_ : s.point s.pxCurrentTCB = .suspended call) (wakes : Task → UInt32) (yields : Bool) :
    Running uxPriority idle tasks
      (({ s with pxPreviousWakeTime := wakes } : Kernel Task Event).move (.resuming yields)) := by
  have held : s.uxSchedulerSuspended = 1 := by
    rw [h.nested, at_]
    rfl
  have locked : s.uxSchedulerSuspended ≠ 0 := held ▸ Nat.one_ne_zero
  have ready := (h.placing call at_).1
  have here : (move (.resuming yields) { s with pxPreviousWakeTime := wakes }).point
      s.pxCurrentTCB = .resuming yields := move_self _ _
  refine ⟨h.lists.same rfl rfl (.refl _) rfl rfl, h.home, h.alive, ?_, fun task other => ?_,
    fun free => absurd free locked, fun call there => ?_, fun _ => ready, fun there => ?_, h.top,
    fun free => absurd free locked⟩
  · show s.uxSchedulerSuspended = if ((move (.resuming yields)
      { s with pxPreviousWakeTime := wakes }).point s.pxCurrentTCB).holds then 1 else 0
    rw [here, held]
    rfl
  · rw [move_other _ { s with pxPreviousWakeTime := wakes } other]
    exact h.others task other
  · nomatch here.symm.trans there
  · nomatch here.symm.trans there

variable [DecidableEq Event]

theorem Running.body {idle : Task} {tasks : List Task} {s : Kernel Task Event}
    (h : Running uxPriority idle tasks s) {call : KernelCall Event}
    (at_ : s.point s.pxCurrentTCB = .suspended call) :
    Running uxPriority idle tasks
      ((suspendedBody uxPriority call s).1.move (.resuming call.yields)) := by
  obtain ⟨ready, legal⟩ := h.placing call at_
  cases call with
  | taskYIELD => exact legal.elim
  | xTaskGetTickCount => exact legal.elim
  | lookAgain => exact h.stay at_ s.pxPreviousWakeTime false
  | vTaskDelay xTicksToDelay =>
    have turn := Kernel.parked h.lists ready xTicksToDelay false
    exact h.parked at_ legal.2 turn turn.lists rfl
  | waitForEvent event xTicksToWait =>
    have turn := Kernel.parked h.lists ready xTicksToWait true
    have blocked : s.pxCurrentTCB ∈
        (prvAddCurrentTaskToDelayedList uxPriority xTicksToWait true s).1.blockedTasks :=
      turn.blocked.mem_iff.mpr List.mem_cons_self
    have free : s.pxCurrentTCB ∉
        (prvAddCurrentTaskToDelayedList uxPriority xTicksToWait true s).1.xPendingReadyList := by
      rw [turn.pending]
      exact fun inside => h.lists.apart _ (h.lists.pending _ inside) ready
    have lists := turn.lists.wait (s.pxCurrentTCB,
      UInt32.ofNat (configMAX_PRIORITIES - uxPriority s.pxCurrentTCB)) blocked free event
    have state : (suspendedBody uxPriority (.waitForEvent event xTicksToWait) s).1 = _ :=
      congrArg Prod.fst (add_delayed_other uxPriority xTicksToWait true s _
        s.pxPreviousWakeTime)
    rw [turn.events] at lists
    rw [state]
    exact h.parked at_ legal.2 turn (lists.same rfl rfl (.refl _) rfl rfl) rfl
  | xTaskDelayUntil xTimeIncrement =>
    show Running uxPriority idle tasks ((delayUntil uxPriority xTimeIncrement s).1.move _)
    simp only [delayUntil]
    split
    · rename_i delays
      have turn := Kernel.parked h.lists ready
        (s.pxPreviousWakeTime s.pxCurrentTCB + xTimeIncrement - s.xTickCount) false
      have state := congrArg Prod.fst (add_delayed_other uxPriority
        (s.pxPreviousWakeTime s.pxCurrentTCB + xTimeIncrement - s.xTickCount) false s s.xEventLists
        (Function.update s.pxPreviousWakeTime s.pxCurrentTCB
          (s.pxPreviousWakeTime s.pxCurrentTCB + xTimeIncrement)))
      rw [show (prvAddCurrentTaskToDelayedList uxPriority _ false _).1 = _ from state]
      exact h.parked at_ legal turn (turn.lists.same rfl rfl (.refl _) turn.events.symm rfl) rfl
    · exact h.stay at_ _ true

variable (uxPriority) in
/-- What a step can do. -/
inductive Moves (idle : Task) (s : Kernel Task Event) :
    KernelAction Event → Kernel Task Event → List (KernelEvent Task) → Prop
  | ticked : Moves idle s .sysTick
      { (xTaskIncrementTick uxPriority s).1 with
        pendSV := s.pendSV || (xTaskIncrementTick uxPriority s).2.1 }
      (.interrupted :: (xTaskIncrementTick uxPriority s).2.2)
  | switched : Moves idle s .pendSV (vTaskSwitchContext { s with pendSV := false }).1
      (vTaskSwitchContext { s with pendSV := false }).2
  | woken {event : Event} {task : Task} {value : UInt32} (fromISR : Bool)
      (inside : (task, value) ∈ s.xEventLists event) : Moves idle s (.event event fromISR)
      { (xTaskRemoveFromEventList uxPriority task s).1 with
        pendSV := s.pendSV || (xTaskRemoveFromEventList uxPriority task s).2.1 &&
          (fromISR || s.uxSchedulerSuspended = 0) }
      (xTaskRemoveFromEventList uxPriority task s).2.2
  | called {call : KernelCall Event} {s' : Kernel Task Event} {events : List (KernelEvent Task)}
      (none : s.pendSV = false) (outside : s.point s.pxCurrentTCB = .outside)
      (turn : startCall idle call s = some (s', events)) : Moves idle s (.call call) s' events
  | placed {call : KernelCall Event} (at_ : s.point s.pxCurrentTCB = .suspended call) :
      Moves idle s .proceed ((suspendedBody uxPriority call s).1.move (.resuming call.yields))
        (suspendedBody uxPriority call s).2
  | resumed {yields : Bool} (at_ : s.point s.pxCurrentTCB = .resuming yields) :
      Moves idle s .proceed
        ((xTaskResumeAll uxPriority s).1.move
          (if yields && !(xTaskResumeAll uxPriority s).2.1 then .yielding else .outside))
        (xTaskResumeAll uxPriority s).2.2
  | yielded (at_ : s.point s.pxCurrentTCB = .yielding) :
      Moves idle s .proceed ({ s with pendSV := true }.move .outside) []

theorem step_moves {idle : Task} {s s' : Kernel Task Event} {a : KernelAction Event}
    {events : List (KernelEvent Task)} (turn : step uxPriority idle s a = some (s', events)) :
    Moves uxPriority idle s a s' events := by
  cases a with
  | sysTick =>
    cases turn
    exact .ticked
  | pendSV =>
    obtain ⟨_, same⟩ := Option.ite_none_right_eq_some.mp turn
    have state : (vTaskSwitchContext { s with pendSV := false }).1 = s' :=
      congrArg Prod.fst (Option.some.inj same)
    have history : (vTaskSwitchContext { s with pendSV := false }).2 = events :=
      congrArg Prod.snd (Option.some.inj same)
    exact state ▸ history ▸ .switched
  | event event fromISR =>
    simp only [Kernel.step] at turn
    split at turn
    · contradiction
    · rename_i task value rest list
      obtain ⟨_, same⟩ := Option.ite_none_left_eq_some.mp turn
      cases same
      exact .woken fromISR (list ▸ List.mem_cons_self)
  | call call =>
    simp only [Kernel.step] at turn
    split at turn
    · rename_i none outside
      exact .called none outside turn
    · contradiction
  | proceed =>
    obtain ⟨_, turn⟩ := Option.ite_none_left_eq_some.mp turn
    unfold proceed at turn
    split at turn
    · contradiction
    · rename_i call at_
      cases turn
      exact .placed at_
    · rename_i yields at_
      cases turn
      exact .resumed at_
    · rename_i at_
      cases turn
      exact .yielded at_

theorem Running.step {idle : Task} {tasks : List Task} {s s' : Kernel Task Event}
    {a : KernelAction Event} {events : List (KernelEvent Task)}
    (h : Running uxPriority idle tasks s) (turn : step uxPriority idle s a = some (s', events)) :
    Running uxPriority idle tasks s' := by
  cases step_moves turn with
  | ticked => exact h.tick
  | switched => exact h.switch
  | woken fromISR inside => exact h.event (h.lists.waiting _ _ inside).1 fromISR
  | called none outside turn => exact h.start_call outside none turn
  | placed at_ => exact h.body at_
  | resumed at_ => exact h.resume at_
  | yielded at_ =>
    have released : s.uxSchedulerSuspended = 0 := h.held.mpr (by rw [at_]; rfl)
    exact Running.open rfl (h.lists.same rfl rfl (.refl _) rfl rfl) h.home h.alive released
      h.others (h.settled released) (fun _ set => Bool.noConfusion set)
      (fun set => Bool.noConfusion set) fun _ => rfl

omit [DecidableEq Task] [DecidableEq Event] in
/-- What a switch leaves alone. -/
theorem switch_cases {s : Kernel Task Event} (h : Lists uxPriority s) {other : Task}
    (ready : s.Ready uxPriority other) :
    ∃ yields rings task es, vTaskSwitchContext { s with pendSV := false } =
        ({ s with
          pendSV := false
          xYieldPending := yields
          pxReadyTasksLists := rings
          pxCurrentTCB := task }, es) ∧
      ∀ e ∈ es, e = .switched task := by
  by_cases free : s.uxSchedulerSuspended = 0
  · have lists : Lists uxPriority { s with pendSV := false, xYieldPending := false } :=
      h.same rfl rfl (.refl _) rfl rfl
    obtain ⟨task, ring, select, _⟩ := select_cases lists ready
    exact ⟨false, _, task, _, (if_neg (not_not.mpr free)).trans select,
      fun e inside => List.mem_singleton.mp inside⟩
  · exact ⟨true, _, s.pxCurrentTCB, [], if_pos free, fun e inside => absurd inside List.not_mem_nil⟩

/-- The tasks of `created` are there and nothing has happened. -/
structure Created (uxPriority : Task → Fin configMAX_PRIORITIES) (first : Task)
    (created : List Task) (s : Kernel Task Event) : Prop where
  lists : Lists uxPriority s
  ready : ∀ task, s.Ready uxPriority task ↔ task ∈ created
  current : s.pxCurrentTCB ∈ created
  top : ∀ task ∈ created, uxPriority task ≤ uxPriority s.pxCurrentTCB
  same : s = { prvInitialiseTaskLists Event first with
    pxReadyTasksLists := s.pxReadyTasksLists
    uxTopReadyPriority := s.uxTopReadyPriority
    pxCurrentTCB := s.pxCurrentTCB }

omit [DecidableEq Task] [DecidableEq Event] in
theorem lists_empty (first : Task) : Lists uxPriority (prvInitialiseTaskLists Event first) where
  ring _ := ⟨List.mem_singleton.mpr rfl, List.nodup_singleton _⟩
  level _ task inside := absurd (List.mem_singleton.mp inside) (Option.some_ne_none task)
  bits p := by
    refine ⟨fun set => ?_, fun ⟨task, inside⟩ => ?_⟩
    · exact absurd set (by simp [prvInitialiseTaskLists])
    · exact absurd (List.mem_singleton.mp inside) (Option.some_ne_none task)
  unique := .nil
  apart _ inside := absurd inside List.not_mem_nil
  waiting _ _ inside := absurd inside List.not_mem_nil
  pending _ inside := absurd inside List.not_mem_nil
  once := .nil

omit [DecidableEq Task] [DecidableEq Event] in
theorem Created.add {first task : Task} {created : List Task} {s : Kernel Task Event}
    (h : Created uxPriority first created s) (fresh : task ∉ created) :
    Created uxPriority first (created ++ [task]) (prvAddNewTaskToReadyList uxPriority s task) where
  lists := by
    have lists : Lists uxPriority { s with
        pxCurrentTCB :=
          if uxPriority s.pxCurrentTCB ≤ uxPriority task then task else s.pxCurrentTCB } :=
      h.lists.same rfl rfl (.refl _) rfl rfl
    refine lists.add uxPriority (fun ready => fresh ((h.ready task).mp ready)) ?_
    rw [h.same]
    exact List.not_mem_nil
  ready other := by
    rw [prvAddNewTaskToReadyList, ready_add, List.mem_append, List.mem_singleton, Or.comm]
    exact or_congr_left (h.ready other)
  current := by
    show (if _ then task else s.pxCurrentTCB) ∈ _
    split
    · exact List.mem_append_right _ List.mem_cons_self
    · exact List.mem_append_left _ h.current
  top other inside := by
    show uxPriority other ≤ uxPriority (if _ then task else s.pxCurrentTCB)
    rcases List.mem_append.mp inside with before | new
    · have below := h.top other before
      split
      · rename_i higher
        exact Fin.le_trans below higher
      · exact below
    · obtain rfl := List.mem_singleton.mp new
      split
      · exact Fin.le_refl _
      · rename_i lower
        exact Fin.le_of_lt (Fin.not_le.mp lower)
  same := by
    conv_lhs => rw [h.same]
    rfl

omit [DecidableEq Task] [DecidableEq Event] in
theorem created_start {first : Task} {rest : List Task} (unique : (first :: rest).Nodup) :
    Created uxPriority first (first :: rest) (start uxPriority Event first rest) := by
  have fold : ∀ (created : List Task) (s : Kernel Task Event), Created uxPriority first created s →
      (created ++ rest).Nodup →
      Created uxPriority first (created ++ rest) (rest.foldl (prvAddNewTaskToReadyList uxPriority) s) := by
    clear unique
    induction rest with
    | nil =>
      intro created s h _
      rw [List.append_nil]
      exact h
    | cons task rest ih =>
      intro created s h unique
      have fresh : task ∉ created := fun inside =>
        (List.nodup_append.mp unique).2.2 task inside task List.mem_cons_self rfl
      have split : created ++ task :: rest = created ++ [task] ++ rest := by simp
      rw [split] at unique ⊢
      exact ih _ _ (h.add fresh) unique
  refine fold [first] _ ⟨?_, fun task => ?_, List.mem_singleton.mpr rfl, ?_, rfl⟩ unique
  · refine (lists_empty first).add uxPriority (fun ready => ?_) List.not_mem_nil
    exact absurd (List.mem_singleton.mp ready) (Option.some_ne_none first)
  · rw [ready_add, List.mem_singleton]
    refine or_iff_left fun ready => ?_
    exact absurd (List.mem_singleton.mp ready) (Option.some_ne_none task)
  · exact fun task inside => List.mem_singleton.mp inside ▸ Fin.le_refl _

omit [DecidableEq Task] [DecidableEq Event] in
theorem running_start {first idle : Task} {rest : List Task} (unique : (first :: rest).Nodup)
    (alive : idle ∈ first :: rest) :
    Running uxPriority idle (first :: rest) (start uxPriority Event first rest) := by
  have h : Created uxPriority first (first :: rest) (start uxPriority Event first rest) :=
    created_start unique
  have same := h.same
  generalize start uxPriority Event first rest = s at h same ⊢
  have outside : ∀ task, s.point task = .outside := by
    rw [same]
    exact fun _ => rfl
  have running : s.uxSchedulerSuspended = 0 := by rw [same]; rfl
  refine ⟨h.lists, fun task inside => .inl ((h.ready task).mpr inside), (h.ready idle).mpr alive,
    ?_, fun task _ => ?_, fun _ => ?_, fun call there => ?_, fun there => ?_, fun _ _ => ?_,
    fun _ _ task ready => h.top task ((h.ready task).mp ready), fun _ yield => ?_⟩
  · rw [running, outside]
    rfl
  · rw [outside]
    rfl
  · rw [same]
    exact ⟨rfl, rfl⟩
  · nomatch (outside _).symm.trans there
  · nomatch (outside _).symm.trans there
  · exact (h.ready _).mpr h.current
  · rw [same] at yield
    nomatch yield

theorem running_run {first idle : Task} {rest : List Task} (unique : (first :: rest).Nodup)
    (alive : idle ∈ first :: rest) {actions : List (KernelAction Event)} {s : Kernel Task Event}
    {past : List (List (KernelEvent Task))}
    (run : Machine.run (step uxPriority idle) (start uxPriority Event first rest) actions =
      some (s, past)) : Running uxPriority idle (first :: rest) s :=
  @Machine.run_kept _ _ _ _ (fun s _ => Running uxPriority idle (first :: rest) s)
    (fun _ _ _ _ _ h turn => h.step turn) _ _ [] _ _ (running_start unique alive) run

/-- In every run: a task is ready or it is blocked; and while the running task is in its own
code and no switch is pending, it is ready and no ready task has a higher priority. -/
theorem highest_priority_runs {first idle : Task} {rest : List Task}
    (unique : (first :: rest).Nodup) (alive : idle ∈ first :: rest)
    {actions : List (KernelAction Event)} {s : Kernel Task Event}
    {past : List (List (KernelEvent Task))}
    (run : Machine.run (step uxPriority idle) (start uxPriority Event first rest) actions =
      some (s, past)) :
    (∀ task ∈ first :: rest, s.Ready uxPriority task ↔ task ∉ s.blockedTasks) ∧
      (s.point s.pxCurrentTCB = .outside → s.pendSV = false →
        s.Ready uxPriority s.pxCurrentTCB ∧
          ∀ task, s.Ready uxPriority task → uxPriority task ≤ uxPriority s.pxCurrentTCB) := by
  have h := running_run unique alive run
  refine ⟨fun task inside => ⟨fun ready blocked => h.lists.apart task blocked ready, fun free => ?_⟩,
    fun outside none => ⟨h.active outside none, ?_⟩⟩
  · exact (h.home task inside).resolve_right free
  · have released : s.uxSchedulerSuspended = 0 := h.held.mpr (by rw [outside]; rfl)
    have quiet : s.xYieldPending = false := by
      refine Bool.eq_false_iff.mpr fun yield => ?_
      exact Bool.false_ne_true (none.symm.trans (h.flagged released yield))
    exact h.top none quiet

/-- `task_rx_parser` waits for a byte, and `task_app` runs. -/
theorem highest_priority_runs_app :
    ∃ (s : Kernel CreatedTask Unit) (past : List (List (KernelEvent CreatedTask))),
      Machine.run (step CreatedTask.uxPriority .idle)
          (start CreatedTask.uxPriority Unit .rxparse [.app, .signals, .uarttx, .idle])
          [.call (.waitForEvent () portMAX_DELAY), .proceed, .proceed, .proceed, .pendSV] =
        some (s, past) ∧ s.pxCurrentTCB = .app ∧
      s.Ready CreatedTask.uxPriority s.pxCurrentTCB ∧ ∀ task, s.Ready CreatedTask.uxPriority task →
        CreatedTask.uxPriority task ≤ CreatedTask.uxPriority s.pxCurrentTCB := by
  have turn : ∃ (s : Kernel CreatedTask Unit) (past : List (List (KernelEvent CreatedTask))),
      Machine.run (step CreatedTask.uxPriority .idle)
          (start CreatedTask.uxPriority Unit .rxparse [.app, .signals, .uarttx, .idle])
          [.call (.waitForEvent () portMAX_DELAY), .proceed, .proceed, .proceed, .pendSV] =
        some (s, past) ∧
      s.pxCurrentTCB = .app ∧ s.point s.pxCurrentTCB = .outside ∧ s.pendSV = false :=
    ⟨_, _, rfl, rfl, rfl, rfl⟩
  obtain ⟨s, past, run, current, outside, none⟩ := turn
  exact ⟨s, past, run, current,
    (highest_priority_runs (by decide) (by decide) run).2 outside none⟩

end Kernel

end CommandBox
