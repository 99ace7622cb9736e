import CommandBox.KernelRunning
import CommandBox.Lib.Clock

/-! The kernel keeps time. Its tick counter wraps after 2^32 ticks and its delayed tasks are in
two lists; they are those of an alarm clock in true time, in its order. -/
namespace CommandBox

open Clock (stamp stamp_toNat stamp_add)

/-- What an event of the kernel is for the alarm clock. -/
def KernelEvent.alarm {Task : Type} : KernelEvent Task → Option (Alarm.Event Task)
  | .ticked => some .tick
  | .blocked task ticks => some (.set task ticks.toNat)
  | .timedOut task => some (.ring task)
  | .readied task => some (.cancel task)
  | _ => none

/-- The events with which a blocked task becomes ready. -/
def KernelEvent.wakes {Task : Type} (task : Task) (e : KernelEvent Task) : Prop :=
  e = .timedOut task ∨ e = .readied task

/-- No assertion fails. -/
def AllHold {Task : Type} (es : List (KernelEvent Task)) : Prop :=
  ∀ assertion, .assertFailed assertion ∉ es

@[simp] theorem allHold_nil {Task : Type} : AllHold ([] : List (KernelEvent Task)) :=
  fun _ => List.not_mem_nil

@[simp] theorem allHold_cons {Task : Type} {e : KernelEvent Task} {es : List (KernelEvent Task)} :
    AllHold (e :: es) ↔ (∀ assertion, e ≠ .assertFailed assertion) ∧ AllHold es := by
  simp only [AllHold, List.mem_cons, not_or, forall_and, ne_eq, eq_comm]

@[simp] theorem allHold_append {Task : Type} {es fs : List (KernelEvent Task)} :
    AllHold (es ++ fs) ↔ AllHold es ∧ AllHold fs := by
  simp only [AllHold, List.mem_append, not_or, forall_and]

theorem count_alarm {Task : Type} [DecidableEq Task] (es : List (KernelEvent Task)) :
    (es.filterMap KernelEvent.alarm).count .tick = es.count .ticked := by
  induction es with
  | nil => rfl
  | cons e es ih => cases e <;> simp [List.filterMap_cons, KernelEvent.alarm, ih]

theorem alarm_ends {Task : Type} {task : Task} {es : List (KernelEvent Task)}
    (waits : ∀ e ∈ es, ¬ e.wakes task) :
    ∀ a ∈ es.filterMap KernelEvent.alarm, ¬ a.ends task := by
  intro a inside ends
  obtain ⟨e, there, alarm⟩ := List.mem_filterMap.mp inside
  rcases ends with rfl | rfl
  · cases e <;> simp [KernelEvent.alarm] at alarm
    exact waits _ there (.inl (alarm ▸ rfl))
  · cases e <;> simp [KernelEvent.alarm] at alarm
    exact waits _ there (.inr (alarm ▸ rfl))

theorem insert_place {Task : Type} (item : Task × UInt32) (pxList : List (Task × UInt32)) :
    vListInsert item pxList = Alarm.place item pxList := by
  unfold vListInsert
  split
  · rename_i last
    have before : ∀ other ∈ pxList, other.2 ≤ item.2 := by
      intro other _
      rw [last, UInt32.le_iff_toNat_le]
      exact Nat.le_of_lt_succ other.2.toNat_lt
    have placed := Alarm.place_append before []
    rw [List.append_nil] at placed
    rw [placed]
    rfl
  · rfl

namespace Kernel

variable {Task Event : Type}

/-- The true time of a reading that comes in the round `round` of the tick counter. -/
def inRound (round : Nat) (value : UInt32) : Nat := round * 2 ^ 32 + value.toNat

def wakeTimes (round : Nat) (s : Kernel Task Event) : List (Task × Nat) :=
  s.pxDelayedTaskList.map (Prod.map id (inRound round)) ++
    s.pxOverflowDelayedTaskList.map (Prod.map id (inRound (round + 1)))

/-- The kernel and an alarm clock show the same. -/
structure Shows (s : Kernel Task Event) (c : Alarm.Clock Task) : Prop where
  xTickCount : s.xTickCount = stamp c.now
  xNumOfOverflows : s.xNumOfOverflows = stamp (c.now / 2 ^ 32)
  due : c.due = wakeTimes (c.now / 2 ^ 32) s
  next : ∀ item ∈ s.pxDelayedTaskList, s.xNextTaskUnblockTime ≤ item.2

theorem inRound_le (round : Nat) (a b : UInt32) : inRound round a ≤ inRound round b ↔ a ≤ b := by
  rw [UInt32.le_iff_toNat_le]
  exact Nat.add_le_add_iff_left

theorem inRound_stamp (t : Nat) : inRound (t / 2 ^ 32) (stamp t) = t := by
  rw [inRound, stamp_toNat]
  omega

theorem wakeTimes_names (round : Nat) (s : Kernel Task Event) :
    (wakeTimes round s).map Prod.fst =
      s.pxDelayedTaskList.map Prod.fst ++ s.pxOverflowDelayedTaskList.map Prod.fst := by
  simp only [wakeTimes, List.map_append, List.map_map]
  rfl

theorem Shows.names {s : Kernel Task Event} {c : Alarm.Clock Task} (h : Shows s c) {task : Task}
    (inside : task ∈ c.due.map Prod.fst) : task ∈ s.blockedTasks := by
  rw [h.due, wakeTimes_names] at inside
  exact List.mem_append_left _ inside

theorem overflow_later {s : Kernel Task Event} {c : Alarm.Clock Task} (round : Nat)
    (here : c.now / 2 ^ 32 = round) {item : Task × Nat}
    (inside : item ∈ s.pxOverflowDelayedTaskList.map (Prod.map id (inRound (round + 1)))) :
    c.now < item.2 := by
  obtain ⟨entry, _, rfl⟩ := List.mem_map.mp inside
  simp only [Prod.map_snd, inRound]
  omega

theorem Shows.ordered {s : Kernel Task Event} {c : Alarm.Clock Task} (h : Shows s c) :
    (s.pxDelayedTaskList.Pairwise fun a b => a.2 ≤ b.2) ∧
      s.pxOverflowDelayedTaskList.Pairwise fun a b => a.2 ≤ b.2 := by
  have ordered := c.ordered
  rw [h.due, wakeTimes] at ordered
  obtain ⟨delayed, overflow, _⟩ := List.pairwise_append.mp ordered
  rw [List.pairwise_map] at delayed overflow
  exact ⟨delayed.imp fun order => (inRound_le _ _ _).mp order,
    overflow.imp fun order => (inRound_le _ _ _).mp order⟩

theorem first_least {items : List (Task × UInt32)}
    (ordered : items.Pairwise fun a b => a.2 ≤ b.2) {item : Task × UInt32} (inside : item ∈ items) :
    (items.head?.map Prod.snd).getD portMAX_DELAY ≤ item.2 := by
  cases items with
  | nil => exact absurd inside List.not_mem_nil
  | cons first rest =>
    rcases List.mem_cons.mp inside with rfl | later
    · exact UInt32.le_refl _
    · exact (List.pairwise_cons.mp ordered).1 item later

/-- The counter goes on, and the lists change places when it wraps: then the one list is empty
and the other holds what is due in the new round. -/
theorem Shows.count {s : Kernel Task Event} {c : Alarm.Clock Task} (h : Shows s c)
    (settled : c.Settled) :
    Shows (countTick s).1 (c.tick settled) ∧ (countTick s).2 = true := by
  have count : s.xTickCount + 1 = stamp (c.now + 1) := by rw [h.xTickCount]; exact stamp_add c.now 1
  have zero : stamp (c.now + 1) = 0 ↔ (c.now + 1) % 2 ^ 32 = 0 := by
    rw [← UInt32.toNat_inj, stamp_toNat]
    rfl
  unfold countTick
  dsimp only
  rw [count]
  split
  · rename_i wrapped
    have full := zero.mp wrapped
    have empty : s.pxDelayedTaskList = [] := by
      refine List.eq_nil_iff_forall_not_mem.mpr fun item inside => ?_
      have waits : Prod.map id (inRound (c.now / 2 ^ 32)) item ∈ c.due := by
        rw [h.due]
        exact List.mem_append_left _ (List.mem_map_of_mem inside)
      have later := settled _ waits
      have bound := item.2.toNat_lt
      simp only [Prod.map_snd, inRound] at later
      omega
    have round : (c.now + 1) / 2 ^ 32 = c.now / 2 ^ 32 + 1 := by omega
    refine ⟨⟨rfl, ?_, ?_, fun item inside => ?_⟩, ?_⟩
    · show s.xNumOfOverflows + 1 = stamp ((c.now + 1) / 2 ^ 32)
      rw [h.xNumOfOverflows, round]
      exact stamp_add _ 1
    · show c.due = wakeTimes ((c.now + 1) / 2 ^ 32) (taskSWITCH_DELAYED_LISTS _).1
      rw [h.due, wakeTimes, round, empty]
      simp [wakeTimes, taskSWITCH_DELAYED_LISTS, prvResetNextTaskUnblockTime]
    · change item ∈ s.pxOverflowDelayedTaskList at inside
      show (s.pxOverflowDelayedTaskList.head?.map Prod.snd).getD portMAX_DELAY ≤ item.2
      exact first_least h.ordered.2 inside
    · show s.pxDelayedTaskList.isEmpty = true
      rw [empty]
      rfl
  · rename_i within
    have round : (c.now + 1) / 2 ^ 32 = c.now / 2 ^ 32 := by
      have more : (c.now + 1) % 2 ^ 32 ≠ 0 := mt zero.mpr within
      omega
    refine ⟨⟨rfl, ?_, ?_, h.next⟩, rfl⟩
    · exact h.xNumOfOverflows.trans (congrArg stamp round.symm)
    · show c.due = wakeTimes ((c.now + 1) / 2 ^ 32) s
      rw [round]
      exact h.due

variable [DecidableEq Task] {uxPriority : Task → Fin configMAX_PRIORITIES}

variable (uxPriority) in
/-- A task that goes into a list of delayed tasks sets its alarm. -/
theorem Shows.blocked {s : Kernel Task Event} {c : Alarm.Clock Task} (h : Shows s c)
    (fresh : s.pxCurrentTCB ∉ c.due.map Prod.fst) {xTicksToWait : UInt32} {indefinitely : Bool}
    (finite : ¬ (xTicksToWait = portMAX_DELAY ∧ indefinitely = true)) :
    Shows (prvAddCurrentTaskToDelayedList uxPriority xTicksToWait indefinitely s).1
        (c.set s.pxCurrentTCB xTicksToWait.toNat fresh) ∧
      (prvAddCurrentTaskToDelayedList uxPriority xTicksToWait indefinitely s).2 =
        [.blocked s.pxCurrentTCB xTicksToWait] := by
  have small := xTicksToWait.toNat_lt
  have wake : s.xTickCount + xTicksToWait = stamp (c.now + xTicksToWait.toNat) := by
    rw [h.xTickCount, ← stamp_add, UInt32.ofNat_toNat]
  have wraps : stamp (c.now + xTicksToWait.toNat) < stamp c.now ↔
      2 ^ 32 ≤ c.now % 2 ^ 32 + xTicksToWait.toNat := by
    rw [UInt32.lt_iff_toNat_lt, stamp_toNat, stamp_toNat]
    omega
  unfold prvAddCurrentTaskToDelayedList
  rw [if_neg finite]
  dsimp only
  refine ⟨?_, rfl⟩
  rw [wake, h.xTickCount]
  split
  · rename_i wrapped
    have full := wraps.mp wrapped
    refine ⟨h.xTickCount, h.xNumOfOverflows, ?_, h.next⟩
    show Alarm.place (s.pxCurrentTCB, c.now + xTicksToWait.toNat) c.due =
      s.pxDelayedTaskList.map (Prod.map id (inRound (c.now / 2 ^ 32))) ++
        (vListInsert _ s.pxOverflowDelayedTaskList).map (Prod.map id (inRound (c.now / 2 ^ 32 + 1)))
    have time : inRound (c.now / 2 ^ 32 + 1) (stamp (c.now + xTicksToWait.toNat)) =
        c.now + xTicksToWait.toNat := by
      rw [inRound, stamp_toNat]
      omega
    have before : ∀ other ∈ s.pxDelayedTaskList.map (Prod.map id (inRound (c.now / 2 ^ 32))),
        other.2 ≤ (s.pxCurrentTCB, c.now + xTicksToWait.toNat).2 := by
      intro other inside
      obtain ⟨item, _, rfl⟩ := List.mem_map.mp inside
      have bound := item.2.toNat_lt
      simp only [Prod.map_snd, inRound]
      omega
    rw [h.due, wakeTimes, Alarm.place_append before, insert_place, ← Alarm.place_map (inRound_le _)]
    simp only [Prod.map_apply, id_eq, time]
  · rename_i within
    have room : c.now % 2 ^ 32 + xTicksToWait.toNat < 2 ^ 32 := Nat.lt_of_not_le (mt wraps.mpr within)
    have time : inRound (c.now / 2 ^ 32) (stamp (c.now + xTicksToWait.toNat)) =
        c.now + xTicksToWait.toNat := by
      rw [inRound, stamp_toNat]
      omega
    have behind : ∀ other ∈ s.pxOverflowDelayedTaskList.map
          (Prod.map id (inRound (c.now / 2 ^ 32 + 1))),
        ¬ other.2 ≤ (s.pxCurrentTCB, c.now + xTicksToWait.toNat).2 := by
      intro other inside
      obtain ⟨item, _, rfl⟩ := List.mem_map.mp inside
      simp only [Prod.map_snd, inRound]
      omega
    refine ⟨h.xTickCount, h.xNumOfOverflows, ?_, fun item inside => ?_⟩
    · show Alarm.place (s.pxCurrentTCB, c.now + xTicksToWait.toNat) c.due =
        (vListInsert _ s.pxDelayedTaskList).map (Prod.map id (inRound (c.now / 2 ^ 32))) ++
          s.pxOverflowDelayedTaskList.map (Prod.map id (inRound (c.now / 2 ^ 32 + 1)))
      rw [h.due, wakeTimes, Alarm.append_place behind, insert_place,
        ← Alarm.place_map (inRound_le _)]
      simp only [Prod.map_apply, id_eq, time]
    · rw [insert_place, Alarm.mem_place] at inside
      show (if stamp (c.now + xTicksToWait.toNat) < s.xNextTaskUnblockTime then
        stamp (c.now + xTicksToWait.toNat) else s.xNextTaskUnblockTime) ≤ item.2
      split
      · rename_i earlier
        rcases inside with rfl | before
        · exact UInt32.le_refl _
        · exact UInt32.le_of_lt (UInt32.lt_of_lt_of_le earlier (h.next item before))
      · rename_i later
        rcases inside with rfl | before
        · exact UInt32.not_lt.mp later
        · exact h.next item before

theorem wakeTimes_filter (round : Nat) (s t : Kernel Task Event) (tasks : List Task)
    (delayed : t.pxDelayedTaskList = s.pxDelayedTaskList.filter fun item => item.1 ∉ tasks)
    (overflow : t.pxOverflowDelayedTaskList =
      s.pxOverflowDelayedTaskList.filter fun item => item.1 ∉ tasks) :
    wakeTimes round t = (wakeTimes round s).filter fun item => item.1 ∉ tasks := by
  rw [wakeTimes, wakeTimes, List.filter_append, List.filter_map, List.filter_map, delayed, overflow]
  rfl

variable (uxPriority) in
/-- Tasks that become ready while they wait cancel their alarms. -/
theorem Shows.released {s t : Kernel Task Event} {c : Alarm.Clock Task} (h : Shows s c)
    (settled : c.Settled) (tasks : List Task) {next : UInt32}
    (state : t.xTickCount = s.xTickCount ∧ t.xNumOfOverflows = s.xNumOfOverflows ∧
      t.pxDelayedTaskList = (releaseAll uxPriority tasks s).pxDelayedTaskList ∧
      t.pxOverflowDelayedTaskList = (releaseAll uxPriority tasks s).pxOverflowDelayedTaskList ∧
      t.xNextTaskUnblockTime = next)
    (reset : next = s.xNextTaskUnblockTime ∨
      next = ((releaseAll uxPriority tasks s).pxDelayedTaskList.head?.map Prod.snd).getD
        portMAX_DELAY) :
    ∃ c', c.run (tasks.map .cancel) = some c' ∧ Shows t c' ∧ c'.Settled := by
  obtain ⟨tick, overflows, delayed, overflow, time⟩ := state
  obtain ⟨delayedLeft, overflowLeft⟩ := delayed_releaseAll uxPriority tasks s
  obtain ⟨c', run, now, left⟩ := c.run_cancels tasks
  have due : c'.due = wakeTimes (c'.now / 2 ^ 32) t := by
    rw [left, now, h.due]
    exact (wakeTimes_filter _ s t tasks (delayed.trans delayedLeft)
      (overflow.trans overflowLeft)).symm
  refine ⟨c', run, ⟨?_, ?_, due, fun item inside => ?_⟩, fun item inside => ?_⟩
  · rw [tick, now]
    exact h.xTickCount
  · rw [overflows, now]
    exact h.xNumOfOverflows
  · rw [delayed, delayedLeft] at inside
    rw [time]
    rcases reset with rfl | rfl
    · exact h.next item (List.mem_of_mem_filter inside)
    · rw [delayedLeft]
      exact first_least (h.ordered.1.filter _) inside
  · rw [left] at inside
    rw [now]
    exact settled item (List.mem_of_mem_filter inside)

/-- A tick: the clock goes on, and who is due is called. -/
theorem Shows.tick {s : Kernel Task Event} {c : Alarm.Clock Task} (h : Shows s c)
    (settled : c.Settled) (lists : Lists uxPriority s) (running : s.uxSchedulerSuspended = 0) :
    ∃ c', c.run ((xTaskIncrementTick uxPriority s).2.2.filterMap KernelEvent.alarm) = some c' ∧
      Shows (xTaskIncrementTick uxPriority s).1 c' ∧ c'.Settled ∧
      AllHold (xTaskIncrementTick uxPriority s).2.2 := by
  obtain ⟨counted, held⟩ := h.count settled
  obtain ⟨expired, rest, next, turn⟩ := tick_cases lists running
  have stop := turn.stop counted.ordered.1 counted.next
  -- who is taken from the list is due in this very tick
  have due : ∀ item ∈ expired.map (Prod.map id (inRound ((c.now + 1) / 2 ^ 32))), item.2 = c.now + 1 := by
    intro item inside
    obtain ⟨entry, there, rfl⟩ := List.mem_map.mp inside
    have listed : Prod.map id (inRound ((c.now + 1) / 2 ^ 32)) entry ∈ (c.tick settled).due := by
      rw [counted.due, wakeTimes, turn.delayed]
      exact List.mem_append_left _ (List.mem_map_of_mem (List.mem_append_left _ there))
    have low := (c.tick settled).ahead _ listed
    have high := (inRound_le ((c.now + 1) / 2 ^ 32) _ _).mpr (UInt32.not_lt.mp (turn.due entry there))
    rw [counted.xTickCount] at high
    exact Nat.le_antisymm (Nat.le_trans high (Nat.le_of_eq (inRound_stamp (c.now + 1)))) low
  have parts : (c.tick settled).due = expired.map (Prod.map id (inRound ((c.now + 1) / 2 ^ 32))) ++
      (rest.map (Prod.map id (inRound ((c.now + 1) / 2 ^ 32))) ++
        (countTick s).1.pxOverflowDelayedTaskList.map
          (Prod.map id (inRound ((c.now + 1) / 2 ^ 32 + 1)))) := by
    rw [counted.due, wakeTimes, turn.delayed, List.map_append, List.append_assoc]
    rfl
  obtain ⟨c', rings, now, left⟩ := (c.tick settled).run_rings parts due
  have names : (expired.map (Prod.map id (inRound ((c.now + 1) / 2 ^ 32)))).map Prod.fst =
      expired.map Prod.fst := by
    rw [List.map_map]
    rfl
  have filtered := (c.tick settled).filter_called parts
  rw [names] at filtered
  have frame := frame_releaseAll uxPriority (expired.map Prod.fst) (countTick s).1
  obtain ⟨delayedLeft, overflowLeft⟩ :=
    delayed_releaseAll uxPriority (expired.map Prod.fst) (countTick s).1
  have due' : c'.due = wakeTimes (c'.now / 2 ^ 32) (xTaskIncrementTick uxPriority s).1 := by
    rw [turn.state, left, ← filtered, now, counted.due]
    exact (wakeTimes_filter _ (countTick s).1 _ _ delayedLeft overflowLeft).symm
  refine ⟨c', ?_, ⟨?_, ?_, due', fun item inside => ?_⟩, fun item inside => ?_, ?_⟩
  · have alarms : (xTaskIncrementTick uxPriority s).2.2.filterMap KernelEvent.alarm =
        .tick :: (expired.map (Prod.map id (inRound ((c.now + 1) / 2 ^ 32)))).map
          fun item => .ring item.1 := by
      rw [turn.events, held]
      simp [KernelEvent.alarm, List.filterMap_map, Function.comp_def]
    rw [alarms, Alarm.Clock.run_cons, Alarm.Clock.step_tick settled]
    exact rings
  · rw [turn.state, now]
    exact frame.xTickCount.trans counted.xTickCount
  · rw [turn.state, now]
    exact frame.xNumOfOverflows.trans counted.xNumOfOverflows
  · rw [turn.state] at inside ⊢
    obtain ⟨before, other⟩ := List.mem_filter.mp (delayedLeft ▸ inside)
    rcases List.mem_append.mp (turn.delayed ▸ before) with gone | stays
    · exact absurd (List.mem_map_of_mem gone) (of_decide_eq_true other)
    · exact (stop item stays).2
  · rw [left] at inside
    rw [now]
    rcases List.mem_append.mp inside with soon | later
    · obtain ⟨entry, there, rfl⟩ := List.mem_map.mp soon
      have above := UInt32.not_le.mpr (stop entry there).1
      rw [← inRound_le ((c.now + 1) / 2 ^ 32), counted.xTickCount,
        show inRound ((c.now + 1) / 2 ^ 32) (stamp (c.tick settled).now) = c.now + 1 from
          inRound_stamp (c.now + 1)] at above
      exact Nat.lt_of_not_le above
    · exact overflow_later (c := c.tick settled) _ rfl later
  · rw [turn.events, held]
    simp [AllHold]

omit [DecidableEq Task] in
theorem Shows.same {s t : Kernel Task Event} {c : Alarm.Clock Task} (h : Shows s c)
    (state : t.xTickCount = s.xTickCount ∧ t.xNumOfOverflows = s.xNumOfOverflows ∧
      t.pxDelayedTaskList = s.pxDelayedTaskList ∧
      t.pxOverflowDelayedTaskList = s.pxOverflowDelayedTaskList ∧
      t.xNextTaskUnblockTime = s.xNextTaskUnblockTime) : Shows t c := by
  obtain ⟨tick, overflows, delayed, overflow, next⟩ := state
  refine ⟨tick.trans h.xTickCount, overflows.trans h.xNumOfOverflows, ?_, ?_⟩
  · rw [wakeTimes, delayed, overflow]
    exact h.due
  · rw [delayed, next]
    exact h.next

theorem Shows.ticks (count : Nat) {s : Kernel Task Event} {c : Alarm.Clock Task} (h : Shows s c)
    (settled : c.Settled) (lists : Lists uxPriority s) (running : s.uxSchedulerSuspended = 0) :
    ∃ c', c.run ((unwindPendedTicks uxPriority count s).2.filterMap KernelEvent.alarm) = some c' ∧
      Shows (unwindPendedTicks uxPriority count s).1 c' ∧ c'.Settled ∧
      AllHold (unwindPendedTicks uxPriority count s).2 := by
  induction count generalizing s c with
  | zero => exact ⟨c, rfl, h, settled, allHold_nil⟩
  | succ count ih =>
    obtain ⟨c₁, first, shows₁, settled₁, quiet⟩ := h.tick settled lists running
    obtain ⟨expired, rest, next, turn⟩ := tick_cases lists running
    have woken := woken_tick lists turn
    obtain ⟨c', second, shows', settled', later⟩ := @ih
      { (xTaskIncrementTick uxPriority s).1 with
        xYieldPending := (xTaskIncrementTick uxPriority s).1.xYieldPending ||
          (xTaskIncrementTick uxPriority s).2.1 } c₁
      (shows₁.same ⟨rfl, rfl, rfl, rfl, rfl⟩) settled₁ (woken.lists.same rfl rfl (.refl _) rfl rfl)
      (woken.uxSchedulerSuspended.trans running)
    refine ⟨c', ?_, shows', settled', ?_⟩
    · rw [unwindPendedTicks, List.filterMap_append, Alarm.Clock.run_append, first]
      exact second
    · exact allHold_append.mpr ⟨quiet, later⟩

theorem Shows.resume {s : Kernel Task Event} {c : Alarm.Clock Task} (h : Shows s c)
    (settled : c.Settled) (lists : Lists uxPriority s) (held : s.uxSchedulerSuspended = 1) :
    ∃ c', c.run ((xTaskResumeAll uxPriority s).2.2.filterMap KernelEvent.alarm) = some c' ∧
      Shows (xTaskResumeAll uxPriority s).1 c' ∧ c'.Settled ∧
      AllHold (xTaskResumeAll uxPriority s).2.2 := by
  obtain ⟨t, next, parts⟩ := resume_parts lists held
  have frame := frame_releaseAll uxPriority s.xPendingReadyList
    { s with uxSchedulerSuspended := 0 }
  obtain ⟨c₁, first, shows₁, settled₁⟩ := Shows.released uxPriority (t := t)
    (h.same (t := { s with uxSchedulerSuspended := 0 }) ⟨rfl, rfl, rfl, rfl, rfl⟩) settled
    s.xPendingReadyList (by
      rw [parts.readied]
      exact ⟨frame.xTickCount, frame.xNumOfOverflows, rfl, rfl, rfl⟩)
    parts.reset
  obtain ⟨c', second, shows', settled', quiet⟩ := shows₁.ticks s.xPendedTicks.toNat settled₁
    parts.woken.lists parts.woken.uxSchedulerSuspended
  rw [parts.events, parts.state]
  refine ⟨c', ?_, shows'.same ⟨rfl, rfl, rfl, rfl, rfl⟩, settled', ?_⟩
  · have cancels : (s.xPendingReadyList.map KernelEvent.readied).filterMap KernelEvent.alarm =
        s.xPendingReadyList.map .cancel := by
      simp [KernelEvent.alarm, List.filterMap_map, Function.comp_def]
    rw [List.filterMap_append, Alarm.Clock.run_append, cancels, first]
    exact second
  · exact allHold_append.mpr ⟨by simp [AllHold], quiet⟩

/-- What holds between the steps, with the alarm clock. -/
structure Keeps (uxPriority : Task → Fin configMAX_PRIORITIES) (idle : Task) (tasks : List Task)
    (s : Kernel Task Event) (c : Alarm.Clock Task) : Prop where
  running : Running uxPriority idle tasks s
  shows_ : Shows s c
  settled : c.Settled

theorem delays_later {xConstTickCount pxPreviousWakeTime xTimeToWake : UInt32}
    (delays : xShouldDelay xConstTickCount pxPreviousWakeTime xTimeToWake = true) :
    xTimeToWake - xConstTickCount ≠ 0 := by
  intro none
  have same : xTimeToWake = xConstTickCount := by
    rw [← UInt32.toNat_inj, UInt32.toNat_sub] at none
    have low := xTimeToWake.toNat_lt
    have high := xConstTickCount.toNat_lt
    rw [← UInt32.toNat_inj]
    have zero : (0 : UInt32).toNat = 0 := rfl
    omega
  subst same
  unfold xShouldDelay at delays
  split at delays
  · simp at delays
  · rename_i passed
    simp [passed] at delays

variable (uxPriority) in
/-- A task that goes into a list of blocked tasks sets an alarm, or waits without one. -/
theorem Shows.parked {s : Kernel Task Event} {c : Alarm.Clock Task} (h : Shows s c)
    (settled : c.Settled) (fresh : s.pxCurrentTCB ∉ c.due.map Prod.fst) {xTicksToWait : UInt32}
    (positive : xTicksToWait ≠ 0) (indefinitely : Bool) :
    ∃ c', c.run ((prvAddCurrentTaskToDelayedList uxPriority xTicksToWait indefinitely s).2.filterMap
        KernelEvent.alarm) = some c' ∧
      Shows (prvAddCurrentTaskToDelayedList uxPriority xTicksToWait indefinitely s).1 c' ∧
      c'.Settled ∧
      AllHold (prvAddCurrentTaskToDelayedList uxPriority xTicksToWait indefinitely s).2 := by
  by_cases forever : xTicksToWait = portMAX_DELAY ∧ indefinitely = true
  · have turn : prvAddCurrentTaskToDelayedList uxPriority xTicksToWait indefinitely s = (_, _) :=
      if_pos forever
    rw [turn]
    exact ⟨c, rfl, h.same ⟨rfl, rfl, rfl, rfl, rfl⟩, settled, by simp⟩
  · obtain ⟨shows', events⟩ := h.blocked uxPriority fresh forever
    refine ⟨c.set s.pxCurrentTCB xTicksToWait.toNat fresh, ?_, shows', fun item inside => ?_, ?_⟩
    · rw [events]
      exact (Alarm.Clock.run_cons _ _ _).trans (by rw [Alarm.Clock.step_set fresh]; rfl)
    · rcases Alarm.mem_place.mp inside with rfl | before
      · have some : 0 < xTicksToWait.toNat := by
          refine Nat.pos_of_ne_zero fun zero => positive ?_
          exact UInt32.toNat_inj.mp zero
        exact Nat.lt_add_of_pos_right some
      · exact settled item before
    · rw [events]
      simp

/-- What a call does with the scheduler suspended. -/
theorem Shows.body [DecidableEq Event] {idle : Task} {tasks : List Task} {s : Kernel Task Event}
    {c : Alarm.Clock Task} (h : Shows s c) (settled : c.Settled)
    (running : Running uxPriority idle tasks s) {call : KernelCall Event}
    (at_ : s.point s.pxCurrentTCB = .suspended call) :
    ∃ c', c.run ((suspendedBody uxPriority call s).2.filterMap KernelEvent.alarm) = some c' ∧
      Shows (suspendedBody uxPriority call s).1 c' ∧ c'.Settled ∧
      AllHold (suspendedBody uxPriority call s).2 := by
  obtain ⟨ready, legal⟩ := running.placing call at_
  have fresh : s.pxCurrentTCB ∉ c.due.map Prod.fst :=
    fun inside => running.lists.apart _ (h.names inside) ready
  cases call with
  | taskYIELD => exact legal.elim
  | xTaskGetTickCount => exact legal.elim
  | lookAgain => exact ⟨c, rfl, h, settled, allHold_nil⟩
  | vTaskDelay xTicksToDelay =>
    simp only [suspendedBody, running.once at_, List.nil_append]
    exact h.parked uxPriority settled fresh legal.1 false
  | waitForEvent event xTicksToWait =>
    have turn : suspendedBody uxPriority (.waitForEvent event xTicksToWait) s = (_, _) :=
      add_delayed_other uxPriority xTicksToWait true s _ s.pxPreviousWakeTime
    obtain ⟨c', run, shows', after, quiet⟩ :=
      h.parked uxPriority settled fresh legal.1 true
    rw [turn]
    exact ⟨c', run, shows'.same ⟨rfl, rfl, rfl, rfl, rfl⟩, after, quiet⟩
  | xTaskDelayUntil xTimeIncrement =>
    show ∃ c', c.run ((delayUntil uxPriority xTimeIncrement s).2.filterMap _) = some c' ∧
      Shows (delayUntil uxPriority xTimeIncrement s).1 c' ∧ c'.Settled ∧
      AllHold (delayUntil uxPriority xTimeIncrement s).2
    simp only [delayUntil, running.once at_, List.nil_append]
    split
    · rename_i delays
      have turn := add_delayed_other uxPriority
        (s.pxPreviousWakeTime s.pxCurrentTCB + xTimeIncrement - s.xTickCount) false s s.xEventLists
        (Function.update s.pxPreviousWakeTime s.pxCurrentTCB
          (s.pxPreviousWakeTime s.pxCurrentTCB + xTimeIncrement))
      obtain ⟨c', run, shows', after, quiet⟩ :=
        h.parked uxPriority settled fresh (delays_later delays) false
      rw [show prvAddCurrentTaskToDelayedList uxPriority _ false _ = _ from turn]
      refine ⟨c', run, shows'.same ⟨rfl, rfl, rfl, rfl, rfl⟩, after, ?_⟩
      simpa using quiet
    · exact ⟨c, rfl, h.same ⟨rfl, rfl, rfl, rfl, rfl⟩, settled, by simp⟩

variable (uxPriority) in
theorem Shows.woken {s : Kernel Task Event} {c : Alarm.Clock Task} (h : Shows s c)
    (settled : c.Settled) (task : Task) :
    ∃ c', c.run ((xTaskRemoveFromEventList uxPriority task s).2.2.filterMap KernelEvent.alarm) =
        some c' ∧
      Shows (xTaskRemoveFromEventList uxPriority task s).1 c' ∧ c'.Settled ∧
      AllHold (xTaskRemoveFromEventList uxPriority task s).2.2 := by
  unfold xTaskRemoveFromEventList
  by_cases free : s.uxSchedulerSuspended = 0
  · simp only [if_pos free]
    have frame := frame_releaseAll uxPriority [task] s
    obtain ⟨c', run, shows', after⟩ := Shows.released uxPriority
      (t := releaseAll uxPriority [task] s) h settled [task]
      ⟨frame.xTickCount, frame.xNumOfOverflows, rfl, rfl, rfl⟩ (.inl rfl)
    exact ⟨c', run, shows'.same ⟨rfl, rfl, rfl, rfl, rfl⟩, after, by simp⟩
  · simp only [if_neg free]
    exact ⟨c, rfl, h.same ⟨rfl, rfl, rfl, rfl, rfl⟩, settled, allHold_nil⟩

variable [DecidableEq Event]

/-- A step of the kernel is a run of the alarm clock. No assertion fails but the one on the
argument of `xTaskDelayUntil`. -/
theorem Keeps.step {idle : Task} {tasks : List Task} {s s' : Kernel Task Event}
    {c : Alarm.Clock Task} {a : KernelAction Event} {events : List (KernelEvent Task)}
    (h : Keeps uxPriority idle tasks s c) (turn : step uxPriority idle s a = some (s', events)) :
    ∃ c', c.run (events.filterMap KernelEvent.alarm) = some c' ∧
      Keeps uxPriority idle tasks s' c' ∧
      ∀ assertion, .assertFailed assertion ∈ events →
        assertion = .timeIncrement ∧ a = .call (.xTaskDelayUntil 0) := by
  have after := h.running.step turn
  cases step_moves turn with
  | ticked =>
    by_cases running : s.uxSchedulerSuspended = 0
    · obtain ⟨c', run, shows', settled, quiet⟩ := h.shows_.tick h.settled h.running.lists running
      refine ⟨c', run, ⟨after, shows'.same ⟨rfl, rfl, rfl, rfl, rfl⟩, settled⟩,
        fun assertion failed => ?_⟩
      exact absurd ((List.mem_cons.mp failed).resolve_left (by simp)) (quiet assertion)
    · have pended : xTaskIncrementTick uxPriority s =
          ({ s with xPendedTicks := s.xPendedTicks + 1 }, false, []) := if_neg running
      rw [pended] at after ⊢
      exact ⟨c, rfl, ⟨after, h.shows_.same ⟨rfl, rfl, rfl, rfl, rfl⟩, h.settled⟩, by simp⟩
  | switched =>
    obtain ⟨yields, rings, task, es, switch, silent⟩ :=
      switch_cases h.running.lists h.running.alive
    have alarms : es.filterMap KernelEvent.alarm = [] :=
      List.filterMap_eq_nil_iff.mpr fun e inside => silent e inside ▸ rfl
    rw [switch] at after ⊢
    refine ⟨c, by rw [alarms]; rfl, ⟨after, h.shows_.same ⟨rfl, rfl, rfl, rfl, rfl⟩, h.settled⟩,
      fun _ failed => ?_⟩
    cases silent _ failed
  | woken fromISR inside =>
    obtain ⟨c', run, shows', settled, quiet⟩ := h.shows_.woken uxPriority h.settled _
    exact ⟨c', run, ⟨after, shows'.same ⟨rfl, rfl, rfl, rfl, rfl⟩, settled⟩,
      fun assertion failed => absurd failed (quiet assertion)⟩
  | called none outside turn =>
    rcases startCall_cases turn with ⟨rfl, rfl⟩ | ⟨_, rfl, rfl⟩ | ⟨rfl, rfl, rfl⟩ | ⟨_, rfl, rfl⟩
    · exact ⟨c, rfl, ⟨after, h.shows_.same ⟨rfl, rfl, rfl, rfl, rfl⟩, h.settled⟩, by simp⟩
    · exact ⟨c, rfl, ⟨after, h.shows_.same ⟨rfl, rfl, rfl, rfl, rfl⟩, h.settled⟩, by simp⟩
    · exact ⟨c, rfl, ⟨after, h.shows_, h.settled⟩, by simp⟩
    · exact ⟨c, rfl, ⟨after, h.shows_.same ⟨rfl, rfl, rfl, rfl, rfl⟩, h.settled⟩, by simp⟩
  | placed at_ =>
    obtain ⟨c', run, shows', settled, quiet⟩ := h.shows_.body h.settled h.running at_
    exact ⟨c', run, ⟨after, shows'.same ⟨rfl, rfl, rfl, rfl, rfl⟩, settled⟩,
      fun assertion failed => absurd failed (quiet assertion)⟩
  | resumed at_ =>
    obtain ⟨c', run, shows', settled, quiet⟩ :=
      h.shows_.resume h.settled h.running.lists (h.running.resuming at_)
    exact ⟨c', run, ⟨after, shows'.same ⟨rfl, rfl, rfl, rfl, rfl⟩, settled⟩,
      fun assertion failed => absurd failed (quiet assertion)⟩
  | yielded at_ =>
    exact ⟨c, rfl, ⟨after, h.shows_.same ⟨rfl, rfl, rfl, rfl, rfl⟩, h.settled⟩, by simp⟩

omit [DecidableEq Task] [DecidableEq Event] in
theorem keeps_start {first idle : Task} {rest : List Task} (unique : (first :: rest).Nodup)
    (alive : idle ∈ first :: rest) :
    Keeps uxPriority idle (first :: rest) (start uxPriority Event first rest)
      (Alarm.Clock.start Task) := by
  have created : Created uxPriority first (first :: rest) (start uxPriority Event first rest) :=
    created_start unique
  refine ⟨running_start unique alive, ?_, fun _ inside => absurd inside List.not_mem_nil⟩
  rw [created.same]
  refine ⟨rfl, ?_, rfl, fun _ inside => absurd inside List.not_mem_nil⟩
  show (0 : UInt32) = stamp (0 / 2 ^ 32)
  rw [Nat.zero_div]
  rfl

theorem step_blamed {idle : Task} {s s' : Kernel Task Event} {events : List (KernelEvent Task)}
    (turn : step uxPriority idle s (.call (.xTaskDelayUntil 0)) = some (s', events)) :
    .assertFailed .timeIncrement ∈ events := by
  simp only [Kernel.step] at turn
  split at turn
  · cases turn
    exact List.mem_cons_self
  · contradiction

/-- The history of every run is one of an alarm clock. -/
theorem keeps_run {first idle : Task} {rest : List Task} (unique : (first :: rest).Nodup)
    (alive : idle ∈ first :: rest) {actions : List (KernelAction Event)} {s : Kernel Task Event}
    {past : List (List (KernelEvent Task))}
    (run : Machine.run (step uxPriority idle) (start uxPriority Event first rest) actions =
      some (s, past)) :
    ∃ c, (Alarm.Clock.start Task).run (past.flatten.filterMap KernelEvent.alarm) = some c ∧
      Keeps uxPriority idle (first :: rest) s c ∧
      ∀ assertion, .assertFailed assertion ∈ past.flatten ↔
        assertion = .timeIncrement ∧ .call (.xTaskDelayUntil 0) ∈ actions := by
  have initial : ∃ c, (Alarm.Clock.start Task).run
      (([] : List (List (KernelEvent Task))).flatten.filterMap KernelEvent.alarm) = some c ∧
      Keeps uxPriority idle (first :: rest) (start uxPriority Event first rest) c ∧
      ∀ assertion, .assertFailed assertion ∈ ([] : List (List (KernelEvent Task))).flatten ↔
        assertion = .timeIncrement ∧
          .call (.xTaskDelayUntil 0) ∈ ([] : List (KernelAction Event)) :=
    ⟨_, rfl, keeps_start unique alive, by simp⟩
  refine Machine.run_reads (I := fun s read past => ∃ c, (Alarm.Clock.start Task).run
    (past.flatten.filterMap KernelEvent.alarm) = some c ∧
    Keeps uxPriority idle (first :: rest) s c ∧
    ∀ assertion, .assertFailed assertion ∈ past.flatten ↔
      assertion = .timeIncrement ∧ .call (.xTaskDelayUntil 0) ∈ read) ?_ initial run
  rintro s read past a s' events ⟨c, history, keeps, blame⟩ turn
  obtain ⟨c', next, after, guilty⟩ := keeps.step turn
  refine ⟨c', ?_, after, fun assertion => ?_⟩
  · rw [List.flatten_concat, List.filterMap_append, Alarm.Clock.run_append, history]
    exact next
  · rw [List.flatten_concat, List.mem_append, List.mem_append, List.mem_singleton, blame,
      and_or_left]
    refine or_congr_right ⟨fun failed => ?_, ?_⟩
    · obtain ⟨which, call⟩ := guilty assertion failed
      exact ⟨which, call.symm⟩
    · rintro ⟨rfl, rfl⟩
      exact step_blamed turn

/-- A task that goes to sleep for some ticks is not woken by the tick interrupt before the last
of them and not after it, across the wrap of the counter and with the scheduler suspended or
not. -/
theorem delays_exact {first idle : Task} {rest : List Task} (unique : (first :: rest).Nodup)
    (alive : idle ∈ first :: rest) {actions : List (KernelAction Event)} {s : Kernel Task Event}
    {past : List (List (KernelEvent Task))}
    (run : Machine.run (step uxPriority idle) (start uxPriority Event first rest) actions =
      some (s, past))
    {task : Task} {ticks : UInt32} {before after : List (KernelEvent Task)}
    (history : past.flatten = before ++ .blocked task ticks :: after) :
    ((∀ e ∈ after, ¬ e.wakes task) → after.count .ticked < ticks.toNat) ∧
      ∀ waiting later, after = waiting ++ .timedOut task :: later →
        (∀ e ∈ waiting, ¬ e.wakes task) → waiting.count .ticked = ticks.toNat := by
  obtain ⟨c, clock, keeps, _⟩ := keeps_run unique alive run
  rw [history, List.filterMap_append, Alarm.Clock.run_append] at clock
  obtain ⟨c₀, _, clock⟩ := Option.bind_eq_some_iff.mp clock
  have alarms : (KernelEvent.blocked task ticks :: after).filterMap KernelEvent.alarm =
      .set task ticks.toNat :: after.filterMap KernelEvent.alarm := rfl
  rw [alarms] at clock
  constructor
  · intro waits
    obtain ⟨inside, time⟩ := Alarm.Clock.set_waits clock (alarm_ends waits)
    have soon := keeps.settled _ inside
    rw [count_alarm] at time
    simp only at soon
    omega
  · rintro waiting later rfl waits
    have called : (KernelEvent.timedOut task :: later).filterMap KernelEvent.alarm =
        .ring task :: later.filterMap KernelEvent.alarm := rfl
    rw [List.filterMap_append, called, ← List.cons_append] at clock
    rw [← count_alarm]
    exact Alarm.Clock.set_rings clock (alarm_ends waits)

/-- `task_rx_parser` sleeps for two ticks. -/
theorem delays_exact_two :
    ∃ (s : Kernel CreatedTask Unit) (past : List (List (KernelEvent CreatedTask))),
      Machine.run (step CreatedTask.uxPriority .idle)
          (start CreatedTask.uxPriority Unit .rxparse [.app, .signals, .uarttx, .idle])
          [.call (.vTaskDelay 2), .proceed, .proceed, .proceed, .pendSV, .sysTick, .sysTick] =
        some (s, past) ∧
      past.flatten = [.blocked .rxparse 2, .switched .app, .interrupted, .ticked, .interrupted,
        .ticked, .timedOut .rxparse] ∧
      ∀ waiting later, [.switched .app, .interrupted, .ticked, .interrupted, .ticked,
          .timedOut .rxparse] = waiting ++ KernelEvent.timedOut CreatedTask.rxparse :: later →
        (∀ e ∈ waiting, ¬ e.wakes .rxparse) → waiting.count .ticked = 2 := by
  have events : (Machine.run (step CreatedTask.uxPriority .idle)
      (start CreatedTask.uxPriority Unit .rxparse [.app, .signals, .uarttx, .idle])
      [.call (.vTaskDelay 2), .proceed, .proceed, .proceed, .pendSV, .sysTick, .sysTick]).map
        Prod.snd = some [[], [.blocked .rxparse 2], [], [], [.switched .app],
          [.interrupted, .ticked], [.interrupted, .ticked, .timedOut .rxparse]] := by
    decide
  obtain ⟨⟨s, past⟩, run, rfl⟩ := Option.map_eq_some_iff.mp events
  have history : [[], [.blocked .rxparse 2], [], [], [.switched .app], [.interrupted, .ticked],
      [.interrupted, .ticked, .timedOut .rxparse]].flatten =
        ([] : List (KernelEvent CreatedTask)) ++ .blocked .rxparse 2 :: [.switched .app,
          .interrupted, .ticked, .interrupted, .ticked, .timedOut .rxparse] := rfl
  exact ⟨s, _, run, rfl, (delays_exact (by decide) (by decide) run history).2⟩

/-- Of two tasks that the tick interrupt wakes, the one that went to sleep later comes first
only if it was due strictly earlier. -/
theorem wakes_in_order {first idle : Task} {rest : List Task} (unique : (first :: rest).Nodup)
    (alive : idle ∈ first :: rest) {actions : List (KernelAction Event)} {s : Kernel Task Event}
    {past : List (List (KernelEvent Task))}
    (run : Machine.run (step uxPriority idle) (start uxPriority Event first rest) actions =
      some (s, past))
    {task other : Task} {m n : UInt32} {before between waiting later : List (KernelEvent Task)}
    (history : past.flatten = before ++ .blocked task m :: between ++ .blocked other n :: waiting ++
      .timedOut other :: later)
    (waits : ∀ e ∈ between ++ waiting, ¬ e.wakes task) (sleeps : ∀ e ∈ waiting, ¬ e.wakes other) :
    between.count .ticked + n.toNat < m.toNat := by
  obtain ⟨c, clock, _⟩ := keeps_run unique alive run
  have alarms : past.flatten.filterMap KernelEvent.alarm = before.filterMap KernelEvent.alarm ++
      (.set task m.toNat :: between.filterMap KernelEvent.alarm ++
        .set other n.toNat :: waiting.filterMap KernelEvent.alarm ++
        .ring other :: later.filterMap KernelEvent.alarm) := by
    rw [history]
    simp [List.filterMap_append, KernelEvent.alarm]
  rw [alarms, Alarm.Clock.run_append] at clock
  obtain ⟨c₀, _, clock⟩ := Option.bind_eq_some_iff.mp clock
  rw [← count_alarm]
  refine Alarm.Clock.set_order clock ?_ (alarm_ends sleeps)
  rw [← List.filterMap_append]
  exact alarm_ends waits

/-- The second task asks a tick later, but for less. -/
theorem wakes_in_order_shorter :
    ∃ (s : Kernel CreatedTask Unit) (past : List (List (KernelEvent CreatedTask))),
      Machine.run (step CreatedTask.uxPriority .idle)
          (start CreatedTask.uxPriority Unit .rxparse [.app, .signals, .uarttx, .idle])
          [.call (.vTaskDelay 3), .proceed, .proceed, .proceed, .pendSV, .sysTick, .pendSV,
            .call (.vTaskDelay 1), .proceed, .proceed, .proceed, .pendSV, .sysTick] =
        some (s, past) ∧
      past.flatten = [.blocked .rxparse 3, .switched .app, .interrupted, .ticked,
        .switched .signals, .blocked .signals 1, .switched .app, .interrupted, .ticked,
        .timedOut .signals] ∧
      [KernelEvent.switched CreatedTask.app, .interrupted, .ticked, .switched .signals].count
        .ticked + (1 : UInt32).toNat < (3 : UInt32).toNat := by
  have events : (Machine.run (step CreatedTask.uxPriority .idle)
      (start CreatedTask.uxPriority Unit .rxparse [.app, .signals, .uarttx, .idle])
      [.call (.vTaskDelay 3), .proceed, .proceed, .proceed, .pendSV, .sysTick, .pendSV,
        .call (.vTaskDelay 1), .proceed, .proceed, .proceed, .pendSV, .sysTick]).map Prod.snd =
      some [[], [.blocked .rxparse 3], [], [], [.switched .app], [.interrupted, .ticked],
        [.switched .signals], [], [.blocked .signals 1], [], [], [.switched .app],
        [.interrupted, .ticked, .timedOut .signals]] := by
    decide
  obtain ⟨⟨s, past⟩, run, rfl⟩ := Option.map_eq_some_iff.mp events
  have history : [[], [.blocked .rxparse 3], [], [], [.switched .app], [.interrupted, .ticked],
        [.switched .signals], [], [.blocked .signals 1], [], [], [.switched .app],
        [.interrupted, .ticked, .timedOut .signals]].flatten =
      ([] : List (KernelEvent CreatedTask)) ++ .blocked .rxparse 3 ::
        [.switched .app, .interrupted, .ticked, .switched .signals] ++
        .blocked .signals 1 :: [.switched .app, .interrupted, .ticked] ++
        .timedOut .signals :: [] := rfl
  refine ⟨s, _, run, rfl, wakes_in_order (by decide) (by decide) run history ?_ ?_⟩
  · simp [KernelEvent.wakes]
  · simp [KernelEvent.wakes]

/-- The delayed list is empty whenever the lists change places, the highest ready list is not
empty, who delays itself has suspended the scheduler once, and no section is left that was not
entered: no assertion fails but that of a task that passes no increment to `xTaskDelayUntil`. -/
theorem assertion_fails_iff {first idle : Task} {rest : List Task} (unique : (first :: rest).Nodup)
    (alive : idle ∈ first :: rest) {actions : List (KernelAction Event)} {s : Kernel Task Event}
    {past : List (List (KernelEvent Task))}
    (run : Machine.run (step uxPriority idle) (start uxPriority Event first rest) actions =
      some (s, past)) (assertion : KernelAssertion) :
    .assertFailed assertion ∈ past.flatten ↔
      assertion = .timeIncrement ∧ .call (.xTaskDelayUntil 0) ∈ actions := by
  obtain ⟨_, _, _, blame⟩ := keeps_run unique alive run
  exact blame assertion

theorem assertion_fails_iff_zero :
    ∃ (s : Kernel CreatedTask Unit) (past : List (List (KernelEvent CreatedTask))),
      Machine.run (step CreatedTask.uxPriority .idle)
          (start CreatedTask.uxPriority Unit .rxparse [.app, .signals, .uarttx, .idle])
          [.sysTick, .call (.xTaskDelayUntil 0), .call (.vTaskDelay 1), .proceed] =
        some (s, past) ∧
      ∀ assertion, .assertFailed assertion ∈ past.flatten ↔ assertion = .timeIncrement := by
  have turn : ∃ (s : Kernel CreatedTask Unit) (past : List (List (KernelEvent CreatedTask))),
      Machine.run (step CreatedTask.uxPriority .idle)
          (start CreatedTask.uxPriority Unit .rxparse [.app, .signals, .uarttx, .idle])
          [.sysTick, .call (.xTaskDelayUntil 0), .call (.vTaskDelay 1), .proceed] =
        some (s, past) := ⟨_, _, rfl⟩
  obtain ⟨s, past, run⟩ := turn
  refine ⟨s, past, run, fun assertion => ?_⟩
  exact (assertion_fails_iff (by decide) (by decide) run assertion).trans (and_iff_left (by simp))

end Kernel

end CommandBox
