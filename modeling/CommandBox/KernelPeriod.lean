import CommandBox.KernelTime

/-! The period of a task that sleeps with `xTaskDelayUntil`. The kernel compares readings of a
counter that wraps; the wake times are those of a rhythm in true time, which does not drift. -/
namespace CommandBox

open Clock (stamp stamp_toNat stamp_add)

/-- The events with which a task sets its wake time. -/
def KernelEvent.beats {Task : Type} (task : Task) (e : KernelEvent Task) : Prop :=
  e = .tookTime task ∨ ∃ xTimeIncrement xShouldDelay, e = .delayUntil task xTimeIncrement xShouldDelay

def KernelEvent.period {Task : Type} [DecidableEq Task] (task : Task) :
    KernelEvent Task → Option Nat
  | .delayUntil other xTimeIncrement _ =>
    if other = task then some xTimeIncrement.toNat else none
  | _ => none

/-- The increments that `task` has passed to `xTaskDelayUntil`. -/
def periods {Task : Type} [DecidableEq Task] (task : Task) (es : List (KernelEvent Task)) : Nat :=
  (es.filterMap (KernelEvent.period task)).sum

theorem periods_cons {Task : Type} [DecidableEq Task] (task : Task) (e : KernelEvent Task)
    (es : List (KernelEvent Task)) :
    periods task (e :: es) = (e.period task).getD 0 + periods task es := by
  rw [periods, List.filterMap_cons]
  cases e.period task with
  | none => exact (Nat.zero_add _).symm
  | some increment => rfl

/-- What a task expects of the kernel: `wake` is the true time of its last wake time, `prompt`
says that it has never been a whole turn of the counter behind it. -/
structure Rhythm where
  now : Nat
  wake : Nat
  asleep : Bool
  prompt : Bool

namespace Rhythm

def start : Rhythm := ⟨0, 0, false, true⟩

variable {Task : Type} [DecidableEq Task] (task : Task)

def inTime (r : Rhythm) : Bool := r.prompt && decide (r.now < r.wake + 2 ^ 32)

def next (r : Rhythm) : KernelEvent Task → Rhythm
  | .ticked => { r with now := r.now + 1 }
  | .tookTime other => if other = task then { r with wake := r.now, prompt := true } else r
  | .delayUntil other xTimeIncrement xShouldDelay =>
    if other = task then
      { r with
        wake := r.wake + xTimeIncrement.toNat
        asleep := r.inTime && xShouldDelay
        prompt := r.inTime }
    else r
  | .timedOut other | .readied other => if other = task then { r with asleep := false } else r
  | _ => r

/-- It sleeps exactly up to its wake time, and only if that is still to come. -/
def Allows (r : Rhythm) : KernelEvent Task → Prop
  | .ticked => r.asleep = true → r.now < r.wake
  | .delayUntil other xTimeIncrement xShouldDelay => other = task → r.asleep = false ∧
    (r.inTime = true →
      r.wake ≤ r.now ∧ (xShouldDelay = true ↔ r.now < r.wake + xTimeIncrement.toNat))
  | .tookTime other => other = task → r.asleep = false
  | .timedOut other => other = task → r.asleep = true → r.now = r.wake
  | .readied other => other = task → r.asleep = false
  | _ => True

def after (r : Rhythm) (es : List (KernelEvent Task)) : Rhythm := es.foldl (next task) r

def Follows (r : Rhythm) : List (KernelEvent Task) → Prop
  | [] => True
  | e :: es => r.Allows task e ∧ (r.next task e).Follows es

theorem after_append (r : Rhythm) (es fs : List (KernelEvent Task)) :
    r.after task (es ++ fs) = (r.after task es).after task fs := List.foldl_append

theorem follows_append {r : Rhythm} {es fs : List (KernelEvent Task)} :
    r.Follows task (es ++ fs) ↔ r.Follows task es ∧ (r.after task es).Follows task fs := by
  induction es generalizing r with
  | nil => exact ⟨fun rest => ⟨trivial, rest⟩, And.right⟩
  | cons e es ih =>
    show r.Allows task e ∧ (r.next task e).Follows task (es ++ fs) ↔ _
    rw [ih, ← and_assoc]
    rfl

variable {task}

/-- The time and the wake time after a stretch without a new start. -/
theorem after_periods {r : Rhythm} {es : List (KernelEvent Task)} (prompt : r.prompt = true)
    (own : .tookTime task ∉ es)
    (near : ∀ before xTimeIncrement xShouldDelay rest,
      es = before ++ .delayUntil task xTimeIncrement xShouldDelay :: rest →
      r.now + before.count .ticked < r.wake + periods task before + 2 ^ 32) :
    (r.after task es).now = r.now + es.count .ticked ∧
      (r.after task es).wake = r.wake + periods task es ∧ (r.after task es).prompt = true := by
  induction es generalizing r with
  | nil => exact ⟨rfl, rfl, prompt⟩
  | cons e es ih =>
    have later : (r.next task e).prompt = true ∧
        (r.next task e).now = r.now + [e].count .ticked ∧
        (r.next task e).wake = r.wake + (e.period task).getD 0 := by
      cases e with
      | tookTime other =>
        have foreign : other ≠ task := fun same => own (same ▸ List.mem_cons_self)
        simp [next, foreign, prompt, KernelEvent.period]
      | delayUntil other xTimeIncrement xShouldDelay =>
        by_cases same : other = task
        · subst same
          have soon := near [] xTimeIncrement xShouldDelay es rfl
          simpa [next, prompt, inTime, periods, KernelEvent.period] using soon
        · simp [next, same, prompt, KernelEvent.period]
      | timedOut other =>
        by_cases same : other = task <;> simp [next, same, prompt, KernelEvent.period]
      | readied other =>
        by_cases same : other = task <;> simp [next, same, prompt, KernelEvent.period]
      | _ => simp [next, prompt, KernelEvent.period]
    obtain ⟨still, time, wake⟩ := later
    have count : ∀ fs, (e :: fs).count .ticked = [e].count .ticked + fs.count .ticked :=
      fun fs => show ([e] ++ fs).count .ticked = _ from List.count_append
    obtain ⟨now, far, last⟩ := @ih (r.next task e) still
      (fun inside => own (List.mem_cons_of_mem _ inside)) fun before increment delays rest parts => by
        have whole := near (e :: before) increment delays rest (by rw [parts]; rfl)
        rw [count, periods_cons] at whole
        omega
    refine ⟨now.trans ?_, far.trans ?_, last⟩
    · rw [count]
      omega
    · rw [periods_cons]
      omega

/-- Who is asleep stays asleep, with the same wake time, until it is woken. -/
theorem sleeps_on {r : Rhythm} {es : List (KernelEvent Task)} (asleep : r.asleep = true)
    (follows : r.Follows task es) (waits : ∀ e ∈ es, ¬ e.wakes task) :
    (r.after task es).asleep = true ∧ (r.after task es).wake = r.wake ∧
      (r.after task es).now = r.now + es.count .ticked := by
  induction es generalizing r with
  | nil => exact ⟨asleep, rfl, rfl⟩
  | cons e es ih =>
    obtain ⟨allowed, rest⟩ := follows
    have quiet := waits e List.mem_cons_self
    have still : (r.next task e).asleep = true ∧ (r.next task e).wake = r.wake ∧
        (r.next task e).now = r.now + [e].count .ticked := by
      cases e with
      | tookTime other =>
        have foreign : other ≠ task := fun same =>
          Bool.false_ne_true ((allowed same).symm.trans asleep)
        simp [next, foreign, asleep]
      | delayUntil other xTimeIncrement xShouldDelay =>
        have foreign : other ≠ task := fun same =>
          Bool.false_ne_true ((allowed same).1.symm.trans asleep)
        simp [next, foreign, asleep]
      | timedOut other =>
        have foreign : other ≠ task := fun same => quiet (.inl (same ▸ rfl))
        simp [next, foreign, asleep]
      | readied other =>
        have foreign : other ≠ task := fun same => quiet (.inr (same ▸ rfl))
        simp [next, foreign, asleep]
      | _ => simp [next, asleep]
    obtain ⟨sleeps, wake, now⟩ := ih still.1 rest fun f inside =>
      waits f (List.mem_cons_of_mem _ inside)
    refine ⟨sleeps, wake.trans still.2.1, now.trans ?_⟩
    rw [still.2.2, Nat.add_assoc, ← List.count_append, List.singleton_append]

/-- The rhythm shows what the alarm clock shows. -/
structure With (task : Task) (r : Rhythm) (c : Alarm.Clock Task) : Prop where
  now : r.now = c.now
  due : r.asleep = true → (task, r.wake) ∈ c.due
  passed : r.prompt = true → r.asleep = false → r.wake ≤ r.now

/-- It goes with the clock through an event in which the task does not itself move its wake
time. -/
theorem With.event {r : Rhythm} {c c' : Alarm.Clock Task} {e : KernelEvent Task}
    (h : r.With task c) (history : c.run ([e].filterMap KernelEvent.alarm) = some c')
    (quiet : ¬ e.beats task) (apart : r.asleep = true → e ≠ .readied task) :
    r.Allows task e ∧ (r.next task e).With task c' ∧ (r.next task e).wake = r.wake ∧
      (r.next task e).prompt = r.prompt ∧ ((r.next task e).asleep = true → r.asleep = true) := by
  have single : ∀ a : Alarm.Event Task, c.run [a] = c.step a := fun a => by
    rw [Alarm.Clock.run_cons]
    exact Option.bind_fun_some _
  cases e with
  | tookTime other =>
    cases history
    have foreign : other ≠ task := fun same => quiet (.inl (same ▸ rfl))
    rw [next, if_neg foreign]
    exact ⟨fun same => absurd same foreign, h, rfl, rfl, id⟩
  | delayUntil other xTimeIncrement xShouldDelay =>
    cases history
    have foreign : other ≠ task := fun same => quiet (.inr ⟨xTimeIncrement, xShouldDelay, by rw [same]⟩)
    rw [next, if_neg foreign]
    exact ⟨fun same => absurd same foreign, h, rfl, rfl, id⟩
  | blocked other ticks =>
    obtain ⟨_, ⟨⟩⟩ := Option.dite_none_right_eq_some.mp ((single _).symm.trans history)
    exact ⟨trivial, ⟨h.now, fun asleep => Alarm.mem_place.mpr (.inr (h.due asleep)), h.passed⟩,
      rfl, rfl, id⟩
  | ticked =>
    obtain ⟨settled, ⟨⟩⟩ := Option.dite_none_right_eq_some.mp ((single _).symm.trans history)
    refine ⟨fun asleep => ?_, ⟨congrArg (· + 1) h.now, h.due, fun prompt awake => ?_⟩, rfl, rfl, id⟩
    · rw [h.now]
      exact settled _ (h.due asleep)
    · exact Nat.le_succ_of_le (h.passed prompt awake)
  | timedOut other =>
    obtain ⟨first, ⟨⟩⟩ := Option.ite_none_right_eq_some.mp ((single _).symm.trans history)
    by_cases same : other = task
    · subst same
      have called : (other, c.now) ∈ c.due := List.mem_of_head? first
      have here : r.asleep = true → r.now = r.wake := fun asleep =>
        h.now.trans (congrArg Prod.snd
          (List.inj_on_of_nodup_map c.unique called (h.due asleep) rfl))
      rw [next, if_pos rfl]
      refine ⟨fun _ => here, ⟨h.now, (nomatch ·), fun prompt _ => ?_⟩, rfl, rfl,
        (nomatch ·)⟩
      cases sleeps : r.asleep with
      | true => exact Nat.le_of_eq (here sleeps).symm
      | false => exact h.passed prompt sleeps
    · rw [next, if_neg same]
      refine ⟨fun this => absurd this same, ⟨h.now, fun asleep => ?_, h.passed⟩, rfl, rfl, id⟩
      obtain ⟨rest, list⟩ := List.head?_eq_some_iff.mp first
      have inside := h.due asleep
      show _ ∈ c.due.tail
      rw [list] at inside ⊢
      exact (List.mem_cons.mp inside).resolve_left fun this =>
        same (congrArg Prod.fst this).symm
  | readied other =>
    cases history
    by_cases same : other = task
    · subst same
      have awake : r.asleep = false := Bool.eq_false_iff.mpr fun asleep => apart asleep rfl
      rw [next, if_pos rfl]
      exact ⟨fun _ => awake, ⟨h.now, (nomatch ·), fun prompt _ => h.passed prompt awake⟩, rfl, rfl,
        (nomatch ·)⟩
    · rw [next, if_neg same]
      refine ⟨fun this => absurd this same, ⟨h.now, fun asleep => ?_, h.passed⟩, rfl, rfl, id⟩
      exact List.mem_filter.mpr ⟨h.due asleep, decide_eq_true (Ne.symm same)⟩
  | _ =>
    cases history
    exact ⟨trivial, h, rfl, rfl, id⟩

theorem With.events {r : Rhythm} {c c' : Alarm.Clock Task} {es : List (KernelEvent Task)}
    (h : r.With task c) (history : c.run (es.filterMap KernelEvent.alarm) = some c')
    (quiet : ∀ e ∈ es, ¬ e.beats task) (apart : r.asleep = true → .readied task ∉ es) :
    r.Follows task es ∧ (r.after task es).With task c' ∧ (r.after task es).wake = r.wake ∧
      (r.after task es).prompt = r.prompt ∧
      ((r.after task es).asleep = true → r.asleep = true) := by
  induction es generalizing r c with
  | nil =>
    cases history
    exact ⟨trivial, h, rfl, rfl, id⟩
  | cons e es ih =>
    rw [← List.singleton_append, List.filterMap_append, Alarm.Clock.run_append] at history
    obtain ⟨c₁, first, rest⟩ := Option.bind_eq_some_iff.mp history
    obtain ⟨allowed, with₁, wake, prompt, asleep⟩ := h.event first (quiet e List.mem_cons_self)
      fun asleep same => apart asleep (same ▸ List.mem_cons_self)
    obtain ⟨follows, with', wake', prompt', asleep'⟩ := ih with₁ rest
      (fun f inside => quiet f (List.mem_cons_of_mem _ inside))
      fun sleeps inside => apart (asleep sleeps) (List.mem_cons_of_mem _ inside)
    exact ⟨⟨allowed, follows⟩, with', wake'.trans wake, prompt'.trans prompt, asleep ∘ asleep'⟩

end Rhythm

namespace Kernel

variable {Task Event : Type}

/-- `xTaskDelayUntil` decides right as long as it is not a whole turn of the counter late. -/
theorem delays_iff {now wake : Nat} (passed : wake ≤ now) (near : now < wake + 2 ^ 32)
    (xTimeIncrement : UInt32) :
    xShouldDelay (stamp now) (stamp wake) (stamp wake + xTimeIncrement) = true ↔
      now < wake + xTimeIncrement.toNat := by
  have small := xTimeIncrement.toNat_lt
  unfold xShouldDelay
  split <;> rename_i order <;>
    simp only [Bool.and_eq_true, Bool.or_eq_true, decide_eq_true_iff, UInt32.lt_iff_toNat_lt,
      UInt32.toNat_add, stamp_toNat] at order ⊢ <;> omega

/-- The task is in no list of tasks that wait for an event. -/
structure Aside (s : Kernel Task Event) (task : Task) : Prop where
  events : ∀ event, ∀ item ∈ s.xEventLists event, item.1 ≠ task
  pending : task ∉ s.xPendingReadyList

/-- A part of a step in which no task moves its wake time or begins to wait for an event. -/
structure Calm (s s' : Kernel Task Event) (events : List (KernelEvent Task)) : Prop where
  pxPreviousWakeTime : s'.pxPreviousWakeTime = s.pxPreviousWakeTime
  quiet : ∀ e ∈ events, ∀ task, ¬ e.beats task
  aside : ∀ task, s.Aside task → s'.Aside task ∧ .readied task ∉ events
  thins : ∀ event, (s'.xEventLists event).Sublist (s.xEventLists event)

theorem calm_nil (s : Kernel Task Event) : Calm s s [] where
  pxPreviousWakeTime := rfl
  quiet _ inside := absurd inside List.not_mem_nil
  aside _ aside := ⟨aside, List.not_mem_nil⟩
  thins _ := .refl _

theorem Calm.same {s t u : Kernel Task Event} {es : List (KernelEvent Task)} (h : Calm s t es)
    (state : u.pxPreviousWakeTime = t.pxPreviousWakeTime ∧ u.xEventLists = t.xEventLists ∧
      u.xPendingReadyList = t.xPendingReadyList) : Calm s u es := by
  obtain ⟨wakes, events, pending⟩ := state
  refine ⟨wakes.trans h.pxPreviousWakeTime, h.quiet, fun task aside => ?_,
    fun event => events ▸ h.thins event⟩
  obtain ⟨still, others⟩ := h.aside task aside
  exact ⟨⟨events ▸ still.events, pending ▸ still.pending⟩, others⟩

theorem Calm.trans {s t u : Kernel Task Event} {es fs : List (KernelEvent Task)}
    (first : Calm s t es) (second : Calm t u fs) : Calm s u (es ++ fs) where
  pxPreviousWakeTime := second.pxPreviousWakeTime.trans first.pxPreviousWakeTime
  quiet e inside := (List.mem_append.mp inside).elim (first.quiet e) (second.quiet e)
  aside task aside := by
    obtain ⟨middle, before⟩ := first.aside task aside
    obtain ⟨last, after⟩ := second.aside task middle
    exact ⟨last, fun inside => (List.mem_append.mp inside).elim before after⟩
  thins event := (second.thins event).trans (first.thins event)

variable [DecidableEq Task] {uxPriority : Task → Fin configMAX_PRIORITIES}

variable (uxPriority) in
theorem aside_releaseAll {s : Kernel Task Event} {task : Task} (h : s.Aside task)
    (tasks : List Task) : (releaseAll uxPriority tasks s).Aside task := by
  obtain ⟨pending, waiting⟩ := waiting_releaseAll uxPriority tasks s
  refine ⟨fun event item inside => ?_, fun inside => ?_⟩
  · rw [waiting event] at inside
    exact h.events event item (List.mem_of_mem_filter inside)
  · rw [pending] at inside
    exact h.pending (List.mem_of_mem_filter inside)

variable (uxPriority) in
theorem thins_releaseAll (tasks : List Task) (s : Kernel Task Event) (event : Event) :
    ((releaseAll uxPriority tasks s).xEventLists event).Sublist (s.xEventLists event) := by
  rw [(waiting_releaseAll uxPriority tasks s).2 event]
  exact List.filter_sublist

theorem calm_tick {s : Kernel Task Event} (h : Lists uxPriority s) :
    Calm s (xTaskIncrementTick uxPriority s).1 (xTaskIncrementTick uxPriority s).2.2 := by
  by_cases running : s.uxSchedulerSuspended = 0
  · obtain ⟨expired, rest, next, turn⟩ := tick_cases h running
    have keeps := countTick_keeps s
    rw [turn.state, turn.events]
    refine ⟨?_, fun e inside task => ?_, fun task aside => ⟨?_, ?_⟩, fun event => ?_⟩
    · exact (frame_releaseAll uxPriority _ _).pxPreviousWakeTime.trans keeps.2.2.2.2.2.2.1
    · rintro (rfl | ⟨increment, delays, rfl⟩)
      all_goals
        split at inside <;> simp at inside
    · have counted : (countTick s).1.Aside task :=
        ⟨keeps.2.2.2.2.2.2.2.2.1 ▸ aside.events, keeps.2.2.2.2.2.2.2.1 ▸ aside.pending⟩
      have released := aside_releaseAll uxPriority counted (expired.map Prod.fst)
      exact ⟨released.events, released.pending⟩
    · split <;> simp
    · have thinner := thins_releaseAll uxPriority (expired.map Prod.fst) (countTick s).1 event
      rw [keeps.2.2.2.2.2.2.2.2.1] at thinner
      exact thinner
  · have pended : xTaskIncrementTick uxPriority s =
        ({ s with xPendedTicks := s.xPendedTicks + 1 }, false, []) := if_neg running
    rw [pended]
    exact (calm_nil s).same ⟨rfl, rfl, rfl⟩

theorem calm_ticks (count : Nat) {s : Kernel Task Event} (h : Lists uxPriority s)
    (running : s.uxSchedulerSuspended = 0) :
    Calm s (unwindPendedTicks uxPriority count s).1 (unwindPendedTicks uxPriority count s).2 := by
  induction count generalizing s with
  | zero =>
    exact calm_nil s
  | succ count ih =>
    obtain ⟨expired, rest, next, turn⟩ := tick_cases h running
    have woken := woken_tick h turn
    have first := (calm_tick h).same (u := { (xTaskIncrementTick uxPriority s).1 with
      xYieldPending := (xTaskIncrementTick uxPriority s).1.xYieldPending ||
        (xTaskIncrementTick uxPriority s).2.1 }) ⟨rfl, rfl, rfl⟩
    have second := @ih
      { (xTaskIncrementTick uxPriority s).1 with
        xYieldPending := (xTaskIncrementTick uxPriority s).1.xYieldPending ||
          (xTaskIncrementTick uxPriority s).2.1 }
      (woken.lists.same rfl rfl (.refl _) rfl rfl) (woken.uxSchedulerSuspended.trans running)
    exact first.trans second

theorem calm_resume {s : Kernel Task Event} (h : Lists uxPriority s)
    (held : s.uxSchedulerSuspended = 1) :
    Calm s (xTaskResumeAll uxPriority s).1 (xTaskResumeAll uxPriority s).2.2 := by
  obtain ⟨t, next, parts⟩ := resume_parts h held
  have frame := frame_releaseAll uxPriority s.xPendingReadyList { s with uxSchedulerSuspended := 0 }
  have readied : Calm s t (s.xPendingReadyList.map .readied) := by
    rw [parts.readied]
    refine ⟨frame.pxPreviousWakeTime, fun e inside task => ?_, fun task aside => ⟨?_, ?_⟩,
      thins_releaseAll uxPriority _ _⟩
    · obtain ⟨other, _, rfl⟩ := List.mem_map.mp inside
      rintro (same | ⟨increment, delays, same⟩) <;> cases same
    · have opened : ({ s with uxSchedulerSuspended := 0 } : Kernel Task Event).Aside task :=
        ⟨aside.events, aside.pending⟩
      have released := aside_releaseAll uxPriority opened s.xPendingReadyList
      exact ⟨released.events, released.pending⟩
    · rw [List.mem_map_of_injective fun a b same => KernelEvent.readied.inj same]
      exact aside.pending
  have ticks := calm_ticks s.xPendedTicks.toNat parts.woken.lists parts.woken.uxSchedulerSuspended
  rw [parts.events, parts.state]
  exact (readied.trans ticks).same ⟨rfl, rfl, rfl⟩

/-- A task is taken out of a list of waiting tasks in which it is. -/
theorem calm_woken {s : Kernel Task Event} {event : Event} {item : Task × UInt32}
    (inside : item ∈ s.xEventLists event) :
    Calm s (xTaskRemoveFromEventList uxPriority item.1 s).1
      (xTaskRemoveFromEventList uxPriority item.1 s).2.2 := by
  unfold xTaskRemoveFromEventList
  by_cases free : s.uxSchedulerSuspended = 0
  · simp only [if_pos free]
    refine ⟨rfl, fun e inside task => ?_, fun task aside => ⟨⟨fun other entry there => ?_, ?_⟩, ?_⟩,
      fun _ => List.filter_sublist⟩
    · rw [List.mem_singleton.mp inside]
      rintro (same | ⟨increment, delays, same⟩) <;> cases same
    · exact aside.events other entry (List.mem_of_mem_filter there)
    · exact fun there => aside.pending (List.mem_of_mem_filter there)
    · intro there
      exact aside.events event item inside (KernelEvent.readied.inj (List.mem_singleton.mp there)).symm
  · simp only [if_neg free]
    refine ⟨rfl, fun e inside => absurd inside List.not_mem_nil,
      fun task aside => ⟨⟨fun other entry there => ?_, fun there => ?_⟩, List.not_mem_nil⟩,
      fun _ => List.filter_sublist⟩
    · exact aside.events other entry (List.mem_of_mem_filter there)
    · rcases List.mem_append.mp there with before | new
      · exact aside.pending (List.mem_of_mem_filter before)
      · exact aside.events event item inside (List.mem_singleton.mp new).symm

variable (uxPriority) in
theorem calm_parked (xTicksToWait : UInt32) (indefinitely : Bool) (s : Kernel Task Event) :
    Calm s (prvAddCurrentTaskToDelayedList uxPriority xTicksToWait indefinitely s).1
      (prvAddCurrentTaskToDelayedList uxPriority xTicksToWait indefinitely s).2 := by
  unfold prvAddCurrentTaskToDelayedList
  split
  · refine ⟨rfl, fun e inside task => ?_, fun task aside =>
      ⟨⟨aside.events, aside.pending⟩, by simp⟩, fun _ => .refl _⟩
    rw [List.mem_singleton.mp inside]
    rintro (same | ⟨increment, delays, same⟩) <;> cases same
  · dsimp only
    split <;>
      refine ⟨rfl, fun e inside task => ?_,
        fun task aside => ⟨⟨aside.events, aside.pending⟩, by simp⟩, fun _ => .refl _⟩
    all_goals
      rw [List.mem_singleton.mp inside]
      rintro (same | ⟨increment, delays, same⟩) <;> cases same

/-- The kernel, the alarm clock and the rhythm of a task go together. -/
structure Beats (task : Task) (s : Kernel Task Event) (c : Alarm.Clock Task) (r : Rhythm) :
    Prop where
  clock : r.With task c
  aside : r.asleep = true → s.Aside task
  wake : r.prompt = true → s.pxPreviousWakeTime task = stamp r.wake

theorem Beats.events {task : Task} {s s' : Kernel Task Event} {c c' : Alarm.Clock Task}
    {r : Rhythm} {es : List (KernelEvent Task)} (h : Beats task s c r)
    (history : c.run (es.filterMap KernelEvent.alarm) = some c')
    (quiet : ∀ e ∈ es, ¬ e.beats task)
    (wakes : s'.pxPreviousWakeTime task = s.pxPreviousWakeTime task)
    (aside : r.asleep = true → s.Aside task → s'.Aside task ∧ .readied task ∉ es) :
    r.Follows task es ∧ Beats task s' c' (r.after task es) := by
  have apart : r.asleep = true → .readied task ∉ es :=
    fun asleep => (aside asleep (h.aside asleep)).2
  obtain ⟨follows, clock, wake, prompt, asleep⟩ := h.clock.events history quiet apart
  refine ⟨follows, clock, fun sleeps => ?_, fun inTime => ?_⟩
  · exact (aside (asleep sleeps) (h.aside (asleep sleeps))).1
  · rw [wakes, wake]
    exact h.wake (prompt ▸ inTime)

theorem Beats.calm {task : Task} {s s' : Kernel Task Event} {c c' : Alarm.Clock Task}
    {r : Rhythm} {es : List (KernelEvent Task)} (h : Beats task s c r)
    (history : c.run (es.filterMap KernelEvent.alarm) = some c') (turn : Calm s s' es) :
    r.Follows task es ∧ Beats task s' c' (r.after task es) :=
  h.events history (fun e inside => turn.quiet e inside task)
    (congrFun turn.pxPreviousWakeTime task) fun _ aside => turn.aside task aside

omit [DecidableEq Task] in
/-- A task that is ready is not asleep. -/
theorem Beats.awake {task : Task} {s : Kernel Task Event} {c : Alarm.Clock Task} {r : Rhythm}
    (h : Beats task s c r) (shows_ : Shows s c) (lists : Lists uxPriority s)
    (ready : s.Ready uxPriority task) : r.asleep = false := by
  refine Bool.eq_false_iff.mpr fun asleep => ?_
  have blocked := shows_.names (List.mem_map_of_mem (h.clock.due asleep))
  exact lists.apart task blocked ready

omit [DecidableEq Task] in
theorem ready_aside {s : Kernel Task Event} (lists : Lists uxPriority s) {task : Task}
    (ready : s.Ready uxPriority task) : s.Aside task where
  events event item inside same :=
    lists.apart _ (lists.waiting event item inside).1 (same ▸ ready)
  pending inside := lists.apart _ (lists.pending task inside) ready

variable (uxPriority) in
theorem calm_delay_until (xTimeIncrement : UInt32) {s : Kernel Task Event}
    (once : assertSuspendedOnce s = []) :
    ∃ es, (delayUntil uxPriority xTimeIncrement s).2 =
        .delayUntil s.pxCurrentTCB xTimeIncrement (xShouldDelay s.xTickCount
          (s.pxPreviousWakeTime s.pxCurrentTCB)
          (s.pxPreviousWakeTime s.pxCurrentTCB + xTimeIncrement)) :: es ∧
      Calm { s with
          pxPreviousWakeTime := Function.update s.pxPreviousWakeTime s.pxCurrentTCB
            (s.pxPreviousWakeTime s.pxCurrentTCB + xTimeIncrement) }
        (delayUntil uxPriority xTimeIncrement s).1 es := by
  simp only [delayUntil, once, List.nil_append]
  refine ⟨_, rfl, ?_⟩
  split
  · exact calm_parked uxPriority _ _ _
  · exact calm_nil _

/-- The part of `xTaskDelayUntil` that moves the wake time. -/
theorem Beats.delay_until {task : Task} {s : Kernel Task Event} {c c' : Alarm.Clock Task}
    {r : Rhythm} (h : Beats task s c r) (shows_ : Shows s c) (lists : Lists uxPriority s)
    (ready : s.Ready uxPriority s.pxCurrentTCB) (once : assertSuspendedOnce s = [])
    (xTimeIncrement : UInt32)
    (history : c.run ((delayUntil uxPriority xTimeIncrement s).2.filterMap KernelEvent.alarm) =
      some c') :
    r.Follows task (delayUntil uxPriority xTimeIncrement s).2 ∧
      Beats task (delayUntil uxPriority xTimeIncrement s).1 c'
        (r.after task (delayUntil uxPriority xTimeIncrement s).2) := by
  obtain ⟨es, events, calm⟩ := calm_delay_until uxPriority xTimeIncrement once
  by_cases foreign : s.pxCurrentTCB ≠ task
  · refine h.events history (fun e inside => ?_) ?_ fun _ aside => ?_
    · rw [events] at inside
      rcases List.mem_cons.mp inside with rfl | later
      · rintro (same | ⟨increment, delays, same⟩)
        · cases same
        · exact foreign (KernelEvent.delayUntil.inj same).1
      · exact calm.quiet e later task
    · rw [calm.pxPreviousWakeTime]
      exact Function.update_of_ne (Ne.symm foreign) _ _
    · obtain ⟨still, others⟩ := calm.aside task ⟨aside.events, aside.pending⟩
      rw [events]
      exact ⟨still, by simpa using others⟩
  obtain rfl : s.pxCurrentTCB = task := not_not.mp foreign
  have awake := h.awake shows_ lists ready
  have aside := ready_aside lists ready
  have still := (calm.aside s.pxCurrentTCB ⟨aside.events, aside.pending⟩).1
  have moved : r.inTime = true → (delayUntil uxPriority xTimeIncrement s).1.pxPreviousWakeTime
      s.pxCurrentTCB = stamp (r.wake + xTimeIncrement.toNat) := fun inTime => by
    rw [calm.pxPreviousWakeTime]
    refine (Function.update_self _ _ _).trans ?_
    rw [h.wake (Bool.and_eq_true _ _ ▸ inTime).1, ← stamp_add, UInt32.ofNat_toNat]
  have decides : r.inTime = true → r.wake ≤ r.now ∧ (xShouldDelay s.xTickCount
      (s.pxPreviousWakeTime s.pxCurrentTCB)
      (s.pxPreviousWakeTime s.pxCurrentTCB + xTimeIncrement) = true ↔
        r.now < r.wake + xTimeIncrement.toNat) := fun inTime => by
    obtain ⟨prompt, near⟩ := (Bool.and_eq_true _ _).mp inTime
    have passed := h.clock.passed prompt awake
    rw [h.wake prompt, shows_.xTickCount, ← h.clock.now]
    exact ⟨passed, delays_iff passed (of_decide_eq_true near) xTimeIncrement⟩
  cases delays : xShouldDelay s.xTickCount (s.pxPreviousWakeTime s.pxCurrentTCB)
      (s.pxPreviousWakeTime s.pxCurrentTCB + xTimeIncrement) with
  | false =>
    have late : (delayUntil uxPriority xTimeIncrement s).2 =
        [.delayUntil s.pxCurrentTCB xTimeIncrement false] := by
      simp [delayUntil, once, delays]
    have next : r.after s.pxCurrentTCB [.delayUntil s.pxCurrentTCB xTimeIncrement false] =
        ⟨r.now, r.wake + xTimeIncrement.toNat, r.inTime && false, r.inTime⟩ := if_pos rfl
    rw [delays] at decides
    rw [late] at history ⊢
    cases history
    rw [next]
    refine ⟨⟨fun _ => ⟨awake, decides⟩, trivial⟩, ⟨h.clock.now, fun asleep => ?_, fun inTime _ => ?_⟩,
      fun _ => still, moved⟩
    · rw [Bool.and_false] at asleep
      contradiction
    · exact Nat.le_of_not_lt fun early => Bool.false_ne_true ((decides inTime).2.mpr early)
  | true =>
    have soon : (delayUntil uxPriority xTimeIncrement s).2 =
        [.delayUntil s.pxCurrentTCB xTimeIncrement true, .blocked s.pxCurrentTCB
          (s.pxPreviousWakeTime s.pxCurrentTCB + xTimeIncrement - s.xTickCount)] := by
      simp [delayUntil, once, delays, prvAddCurrentTaskToDelayedList]
    have next : r.after s.pxCurrentTCB [.delayUntil s.pxCurrentTCB xTimeIncrement true,
          .blocked s.pxCurrentTCB
            (s.pxPreviousWakeTime s.pxCurrentTCB + xTimeIncrement - s.xTickCount)] =
        ⟨r.now, r.wake + xTimeIncrement.toNat, r.inTime && true, r.inTime⟩ := if_pos rfl
    rw [delays] at decides
    rw [soon] at history ⊢
    rw [next]
    have alarm : c.run [.set s.pxCurrentTCB (s.pxPreviousWakeTime s.pxCurrentTCB +
        xTimeIncrement - s.xTickCount).toNat] = some c' := history
    obtain ⟨fresh, ⟨⟩⟩ := Alarm.Clock.run_set alarm
    refine ⟨⟨fun _ => ⟨awake, decides⟩, trivial, trivial⟩, ⟨h.clock.now, fun asleep => ?_,
      fun inTime sleeps => ?_⟩, fun _ => still, moved⟩
    · -- the sleep is what is left up to the wake time
      rw [Bool.and_true] at asleep
      obtain ⟨passed, sooner⟩ := decides asleep
      have early := sooner.mp rfl
      have small := xTimeIncrement.toNat_lt
      have left : (s.pxPreviousWakeTime s.pxCurrentTCB + xTimeIncrement - s.xTickCount).toNat =
          r.wake + xTimeIncrement.toNat - r.now := by
        rw [h.wake ((Bool.and_eq_true _ _).mp asleep).1, shows_.xTickCount, ← h.clock.now,
          ← UInt32.ofNat_toNat (x := xTimeIncrement), stamp_add]
        rw [UInt32.ofNat_toNat]
        exact Clock.elapsed (Nat.le_of_lt early) (by omega)
      refine Alarm.mem_place.mpr (.inl (Prod.ext rfl ?_))
      show r.wake + xTimeIncrement.toNat = c.now + _
      rw [left, ← h.clock.now]
      omega
    · rw [Bool.and_true] at sleeps
      exact absurd (sleeps.symm.trans inTime) Bool.false_ne_true

theorem Beats.took_time {task : Task} {s : Kernel Task Event} {c c' : Alarm.Clock Task}
    {r : Rhythm} (h : Beats task s c r) (shows_ : Shows s c) (lists : Lists uxPriority s)
    (ready : s.Ready uxPriority s.pxCurrentTCB)
    (history : c.run ([KernelEvent.tookTime s.pxCurrentTCB].filterMap KernelEvent.alarm) =
      some c') :
    r.Follows task [.tookTime s.pxCurrentTCB] ∧
      Beats task { s with
          pxPreviousWakeTime :=
            Function.update s.pxPreviousWakeTime s.pxCurrentTCB s.xTickCount }
        c' (r.after task [.tookTime s.pxCurrentTCB]) := by
  by_cases foreign : s.pxCurrentTCB ≠ task
  · refine h.events history (fun e inside => ?_) (Function.update_of_ne (Ne.symm foreign) _ _)
      fun _ aside => ⟨⟨aside.events, aside.pending⟩, by simp⟩
    rw [List.mem_singleton.mp inside]
    rintro (same | ⟨increment, delays, same⟩)
    · exact foreign (KernelEvent.tookTime.inj same)
    · cases same
  obtain rfl : s.pxCurrentTCB = task := not_not.mp foreign
  cases history
  have awake := h.awake shows_ lists ready
  have next : r.after s.pxCurrentTCB [.tookTime s.pxCurrentTCB] =
      { r with wake := r.now, prompt := true } := if_pos rfl
  rw [next]
  refine ⟨⟨fun _ => awake, trivial⟩, ⟨h.clock.now, fun asleep => ?_, fun _ _ => Nat.le_refl _⟩,
    fun asleep => ?_, fun _ => ?_⟩
  · exact absurd (awake.symm.trans asleep) Bool.false_ne_true
  · exact absurd (awake.symm.trans asleep) Bool.false_ne_true
  · refine (Function.update_self _ _ _).trans (shows_.xTickCount.trans ?_)
    exact congrArg stamp h.clock.now.symm

variable [DecidableEq Event]

/-- The running task, which is not asleep, goes into a list of waiting tasks. -/
theorem Beats.wait {task : Task} {s : Kernel Task Event} {c c' : Alarm.Clock Task}
    {r : Rhythm} (h : Beats task s c r) (shows_ : Shows s c) (lists : Lists uxPriority s)
    (ready : s.Ready uxPriority s.pxCurrentTCB) (event : Event) (xTicksToWait : UInt32)
    (history : c.run ((vTaskPlaceOnEventList uxPriority event xTicksToWait s).2.filterMap
      KernelEvent.alarm) = some c') :
    r.Follows task (vTaskPlaceOnEventList uxPriority event xTicksToWait s).2 ∧
      Beats task (vTaskPlaceOnEventList uxPriority event xTicksToWait s).1 c'
        (r.after task (vTaskPlaceOnEventList uxPriority event xTicksToWait s).2) := by
  have calm : Calm { s with xEventLists := _ }
      (vTaskPlaceOnEventList uxPriority event xTicksToWait s).1
      (vTaskPlaceOnEventList uxPriority event xTicksToWait s).2 :=
    calm_parked uxPriority xTicksToWait true _
  refine h.events history (fun e inside => calm.quiet e inside task)
    (congrFun calm.pxPreviousWakeTime task) fun asleep aside => calm.aside task ⟨?_, aside.pending⟩
  intro other item inside
  change item ∈ Function.update s.xEventLists event _ other at inside
  by_cases here : other = event
  · subst here
    rw [Function.update_self, (insert_sorted_perm _ _).mem_iff, List.mem_cons] at inside
    rcases inside with rfl | before
    · rintro rfl
      exact absurd ((h.awake shows_ lists ready).symm.trans asleep) Bool.false_ne_true
    · exact aside.events other item before
  · rw [Function.update_of_ne here] at inside
    exact aside.events other item inside

theorem Beats.body {idle task : Task} {tasks : List Task} {s : Kernel Task Event}
    {c c' : Alarm.Clock Task} {r : Rhythm} (h : Beats task s c r)
    (keeps : Keeps uxPriority idle tasks s c) {call : KernelCall Event}
    (at_ : s.point s.pxCurrentTCB = .suspended call)
    (history : c.run ((suspendedBody uxPriority call s).2.filterMap KernelEvent.alarm) =
      some c') :
    r.Follows task (suspendedBody uxPriority call s).2 ∧
      Beats task (suspendedBody uxPriority call s).1 c'
        (r.after task (suspendedBody uxPriority call s).2) := by
  obtain ⟨ready, legal⟩ := keeps.running.placing call at_
  have lists := keeps.running.lists
  have once := keeps.running.once at_
  cases call with
  | taskYIELD => exact legal.elim
  | xTaskGetTickCount => exact legal.elim
  | lookAgain => exact h.calm history (calm_nil s)
  | vTaskDelay xTicksToDelay =>
    simp only [suspendedBody, once, List.nil_append] at history ⊢
    exact h.calm history (calm_parked uxPriority xTicksToDelay false s)
  | waitForEvent event xTicksToWait =>
    exact h.wait keeps.shows_ lists ready event xTicksToWait history
  | xTaskDelayUntil xTimeIncrement =>
    exact h.delay_until keeps.shows_ lists ready once xTimeIncrement history

theorem Beats.step {idle task : Task} {tasks : List Task} {s s' : Kernel Task Event}
    {c c' : Alarm.Clock Task} {r : Rhythm} {a : KernelAction Event}
    {events : List (KernelEvent Task)} (h : Beats task s c r)
    (keeps : Keeps uxPriority idle tasks s c)
    (turn : step uxPriority idle s a = some (s', events))
    (history : c.run (events.filterMap KernelEvent.alarm) = some c') :
    r.Follows task events ∧ Beats task s' c' (r.after task events) := by
  have lists := keeps.running.lists
  cases step_moves turn with
  | ticked =>
    have tick := calm_tick lists
    refine h.calm history ⟨tick.pxPreviousWakeTime, fun e inside other => ?_, fun other aside => ?_,
      tick.thins⟩
    · rcases List.mem_cons.mp inside with rfl | later
      · rintro (same | ⟨increment, delays, same⟩) <;> cases same
      · exact tick.quiet e later other
    · obtain ⟨still, others⟩ := tick.aside other aside
      exact ⟨⟨still.events, still.pending⟩, by simpa using others⟩
  | switched =>
    obtain ⟨yields, rings, other, es, switch, silent⟩ := switch_cases lists keeps.running.alive
    rw [switch] at history ⊢
    refine h.calm history ⟨rfl, fun e inside _ => ?_, fun _ aside =>
      ⟨⟨aside.events, aside.pending⟩, fun inside => ?_⟩, fun _ => .refl _⟩
    · rw [silent e inside]
      rintro (same | ⟨increment, delays, same⟩) <;> cases same
    · cases silent _ inside
  | woken fromISR inside => exact h.calm history ((calm_woken inside).same ⟨rfl, rfl, rfl⟩)
  | called none outside turn =>
    rcases startCall_cases turn with ⟨rfl, rfl⟩ | ⟨_, rfl, rfl⟩ | ⟨rfl, rfl, rfl⟩ | ⟨_, rfl, rfl⟩
    · exact h.calm history ((calm_nil s).same ⟨rfl, rfl, rfl⟩)
    · exact h.took_time keeps.shows_ lists (keeps.running.active outside none) history
    · refine h.calm history ⟨rfl, fun e inside _ => ?_, fun _ aside => ⟨aside, by simp⟩,
        fun _ => .refl _⟩
      rw [List.mem_singleton.mp inside]
      rintro (same | ⟨increment, delays, same⟩) <;> cases same
    · exact h.calm history ((calm_nil s).same ⟨rfl, rfl, rfl⟩)
  | placed at_ =>
    obtain ⟨follows, done⟩ := h.body keeps at_ history
    exact ⟨follows, done.clock, fun asleep =>
      ⟨(done.aside asleep).events, (done.aside asleep).pending⟩, done.wake⟩
  | resumed at_ =>
    exact h.calm history ((calm_resume lists (keeps.running.resuming at_)).same ⟨rfl, rfl, rfl⟩)
  | yielded at_ => exact h.calm history ((calm_nil s).same ⟨rfl, rfl, rfl⟩)

/-- The history of every run follows the rhythm of every task. -/
theorem beats_run {first idle : Task} {rest : List Task} (unique : (first :: rest).Nodup)
    (alive : idle ∈ first :: rest) {actions : List (KernelAction Event)} {s : Kernel Task Event}
    {past : List (List (KernelEvent Task))}
    (run : Machine.run (step uxPriority idle) (start uxPriority Event first rest) actions =
      some (s, past)) (task : Task) :
    (Rhythm.start).Follows task past.flatten ∧ ∃ c, Keeps uxPriority idle (first :: rest) s c ∧
      Beats task s c ((Rhythm.start).after task past.flatten) := by
  have created : Created uxPriority first (first :: rest) (start uxPriority Event first rest) :=
    created_start unique
  have initial : Beats task (start uxPriority Event first rest) (Alarm.Clock.start Task)
      Rhythm.start := by
    refine ⟨⟨rfl, (nomatch ·), fun _ _ => Nat.le_refl _⟩, (nomatch ·), fun _ => ?_⟩
    rw [created.same]
    rfl
  have begun : (Rhythm.start).Follows task ([] : List (List (KernelEvent Task))).flatten ∧
      ∃ c, Keeps uxPriority idle (first :: rest) (start uxPriority Event first rest) c ∧
        Beats task (start uxPriority Event first rest) c
          ((Rhythm.start).after task ([] : List (List (KernelEvent Task))).flatten) :=
    ⟨trivial, _, keeps_start unique alive, initial⟩
  refine Machine.run_kept (I := fun s past => (Rhythm.start).Follows task past.flatten ∧
    ∃ c, Keeps uxPriority idle (first :: rest) s c ∧
      Beats task s c ((Rhythm.start).after task past.flatten)) ?_ begun run
  rintro s past a s' events ⟨follows, c, keeps, beats⟩ turn
  obtain ⟨c', history, after, _⟩ := keeps.step turn
  obtain ⟨more, later⟩ := beats.step keeps turn history
  rw [List.flatten_concat, Rhythm.after_append]
  exact ⟨(Rhythm.follows_append task).mpr ⟨follows, more⟩, c', after, later⟩

/-- A task takes the time once and then only sleeps with `xTaskDelayUntil`, each time less than
a turn of the counter behind. Then its wake times are where the increments put them, however
long its own work takes: it sleeps if that time is still to come, and up to it. -/
theorem wakes_on_time {first idle : Task} {rest : List Task} (unique : (first :: rest).Nodup)
    (alive : idle ∈ first :: rest) {actions : List (KernelAction Event)} {s : Kernel Task Event}
    {past : List (List (KernelEvent Task))}
    (run : Machine.run (step uxPriority idle) (start uxPriority Event first rest) actions =
      some (s, past))
    {task : Task} {xTimeIncrement : UInt32} {delays : Bool}
    {before es after : List (KernelEvent Task)}
    (history : past.flatten =
      before ++ .tookTime task :: (es ++ .delayUntil task xTimeIncrement delays :: after))
    (once : .tookTime task ∉ es)
    (prompt : ∀ calls increment sleeps others, es ++ [.delayUntil task xTimeIncrement delays] =
      calls ++ .delayUntil task increment sleeps :: others →
      calls.count .ticked < periods task calls + 2 ^ 32) :
    periods task es ≤ es.count .ticked ∧
      (delays = true ↔ es.count .ticked < periods task es + xTimeIncrement.toNat) ∧
      (delays = true →
        ((∀ e ∈ after, ¬ e.wakes task) →
          es.count .ticked + after.count .ticked < periods task es + xTimeIncrement.toNat) ∧
        ∀ waiting e later, after = waiting ++ e :: later → (∀ f ∈ waiting, ¬ f.wakes task) →
          e.wakes task → e = .timedOut task ∧
            es.count .ticked + waiting.count .ticked = periods task es + xTimeIncrement.toNat) := by
  obtain ⟨follows, c, keeps, beats⟩ := beats_run unique alive run task
  rw [history] at follows beats
  obtain ⟨_, _, follows⟩ := (Rhythm.follows_append task).mp follows
  rw [Rhythm.after_append] at beats
  generalize (Rhythm.start).after task before = r at follows beats
  have took : r.next task (.tookTime task) = ⟨r.now, r.now, r.asleep, true⟩ := if_pos rfl
  change Beats task s c ((r.next task (.tookTime task)).after task _) at beats
  rw [took] at follows beats
  obtain ⟨_, decided, slept⟩ := (Rhythm.follows_append task).mp follows
  rw [Rhythm.after_append] at beats
  obtain ⟨now, wake, inTime⟩ := Rhythm.after_periods
    (show (⟨r.now, r.now, r.asleep, true⟩ : Rhythm).prompt = true from rfl) once
    fun calls increment sleeps others parts => by
      have near := prompt calls increment sleeps (others ++ [.delayUntil task xTimeIncrement delays])
        (by rw [parts, List.append_assoc, List.cons_append])
      show r.now + _ < r.now + _ + _
      omega
  generalize (⟨r.now, r.now, r.asleep, true⟩ : Rhythm).after task es = t at *
  dsimp only at now wake
  have near := prompt es xTimeIncrement delays [] rfl
  have close : t.inTime = true := by
    refine (Bool.and_eq_true _ _).mpr ⟨inTime, decide_eq_true ?_⟩
    omega
  obtain ⟨passed, decides⟩ := (decided rfl).2 close
  have next : t.next task (.delayUntil task xTimeIncrement delays) =
      ⟨t.now, t.wake + xTimeIncrement.toNat, t.inTime && delays, t.inTime⟩ := if_pos rfl
  have sleeping : Beats task s c
      ((t.next task (.delayUntil task xTimeIncrement delays)).after task after) := beats
  rw [next, close, Bool.true_and] at slept sleeping
  refine ⟨by omega, decides.trans ⟨fun early => by omega, fun early => by omega⟩, ?_⟩
  rintro rfl
  constructor
  · intro waits
    obtain ⟨asleep, still, time⟩ := Rhythm.sleeps_on rfl slept waits
    have soon := keeps.settled _ (sleeping.clock.due asleep)
    rw [← sleeping.clock.now, time, still] at soon
    dsimp only at soon
    omega
  · rintro waiting e later rfl waits woken
    obtain ⟨asleepYet, allowed, _⟩ := (Rhythm.follows_append task).mp slept
    obtain ⟨asleep, still, time⟩ := Rhythm.sleeps_on rfl asleepYet waits
    rcases woken with rfl | rfl
    · have here := allowed rfl asleep
      rw [time, still] at here
      dsimp only at here
      exact ⟨rfl, by omega⟩
    · exact absurd ((allowed rfl).symm.trans asleep) Bool.false_ne_true

/-- The work of `task_rx_parser` takes one tick of the two of its period. -/
theorem wakes_on_time_one_left :
    ∃ (s : Kernel CreatedTask Unit) (past : List (List (KernelEvent CreatedTask))),
      Machine.run (step CreatedTask.uxPriority .idle)
          (start CreatedTask.uxPriority Unit .rxparse [.app, .signals, .uarttx, .idle])
          [.call .xTaskGetTickCount, .sysTick, .call (.xTaskDelayUntil 2), .proceed, .proceed,
            .proceed, .pendSV, .sysTick] = some (s, past) ∧
      past.flatten = [.tookTime .rxparse, .interrupted, .ticked, .delayUntil .rxparse 2 true,
        .blocked .rxparse 1, .switched .app, .interrupted, .ticked, .timedOut .rxparse] ∧
      ∀ waiting (e : KernelEvent CreatedTask) later, [.blocked .rxparse 1, .switched .app,
          .interrupted, .ticked, .timedOut .rxparse] = waiting ++ e :: later →
        (∀ f ∈ waiting, ¬ f.wakes .rxparse) → e.wakes .rxparse →
          e = .timedOut .rxparse ∧ 1 + waiting.count .ticked = 2 := by
  have events : (Machine.run (step CreatedTask.uxPriority .idle)
      (start CreatedTask.uxPriority Unit .rxparse [.app, .signals, .uarttx, .idle])
      [.call .xTaskGetTickCount, .sysTick, .call (.xTaskDelayUntil 2), .proceed, .proceed,
        .proceed, .pendSV, .sysTick]).map Prod.snd =
      some [[.tookTime .rxparse], [.interrupted, .ticked], [],
        [.delayUntil .rxparse 2 true, .blocked .rxparse 1], [], [], [.switched .app],
        [.interrupted, .ticked, .timedOut .rxparse]] := by
    decide
  obtain ⟨⟨s, past⟩, run, rfl⟩ := Option.map_eq_some_iff.mp events
  have history : [[.tookTime .rxparse], [.interrupted, .ticked], [],
        [.delayUntil .rxparse 2 true, .blocked .rxparse 1], [], [], [.switched .app],
        [.interrupted, .ticked, .timedOut .rxparse]].flatten =
      ([] : List (KernelEvent CreatedTask)) ++ .tookTime .rxparse ::
        ([.interrupted, .ticked] ++ .delayUntil .rxparse 2 true :: [.blocked .rxparse 1,
          .switched .app, .interrupted, .ticked, .timedOut .rxparse]) := rfl
  refine ⟨s, _, run, rfl, ?_⟩
  refine ((wakes_on_time (by decide) (by decide) run history (by decide) ?_).2.2 rfl).2
  intro calls increment sleeps others parts
  have length := congrArg List.length parts
  have few : calls.count .ticked ≤ calls.length := List.count_le_length
  simp only [List.length_append, List.length_cons, List.length_nil] at length
  omega

end Kernel

end CommandBox
