import CommandBox.KernelWakeup

/-! Without interrupts and new calls the tasks come to rest: a measure that every step of a
task lowers. A task that is asleep then has nothing to get. -/
namespace CommandBox
open Machine Census

namespace TaskPoint

variable {α : Type}

def inCall : TaskPoint α → Nat
  | .outside => 0
  | _ => 1

/-- The steps before the task leaves its call or sleeps, if nobody else does anything. -/
def ahead (waits : QueueSide → Bool) : TaskPoint α → Nat
  | .outside => 0
  | .blocked _ => 0
  | .resuming _ listed => if listed then 1 else 8
  | .unlockingRx _ listed => if listed then 2 else 9
  | .unlockingTx _ listed => if listed then 3 else 10
  | .placing _ => 4
  | .checking call => if waits call.side then 5 else 11
  | .suspending call => if waits call.side then 6 else 12
  | .attempting _ => 7

theorem ahead_le (waits : QueueSide → Bool) (point : TaskPoint α) : point.ahead waits ≤ 12 := by
  unfold ahead
  split <;> first | omega | (split <;> omega)

@[simp] theorem wake_inCall (point : TaskPoint α) : point.wake.inCall = point.inCall := by
  cases point <;> rfl

theorem wake_ahead (waits : QueueSide → Bool) (point : TaskPoint α) :
    point.wake.ahead waits ≤ point.ahead waits + 7 := by
  cases point with
  | unlockingTx call listed => cases listed <;> simp [wake, ahead]
  | unlockingRx call listed => cases listed <;> simp [wake, ahead]
  | resuming call listed => cases listed <;> simp [wake, ahead]
  | _ => simp [wake, ahead]

end TaskPoint

namespace WaitingQueue

open TaskPoint

variable {Task α : Type} [DecidableEq Task] [Fintype Task] {uxLength : Nat}
  {s s' : WaitingQueue Task α uxLength}

/-- A call that returns pays for all that the other tasks may do again. -/
def work (s : WaitingQueue Task α uxLength) : Nat :=
  (Fintype.card Task * 12 + 1) * total inCall s.point + 7 * (s.untold .send + s.untold .receive) +
    total (ahead s.mustWait) s.point

theorem wakeOne_ahead (waits : QueueSide → Bool) (side : QueueSide)
    (s : WaitingQueue Task α uxLength) :
    total inCall (s.wakeOne side).point = total inCall s.point ∧
      total (ahead waits) (s.wakeOne side).point ≤ total (ahead waits) s.point + 7 := by
  unfold wakeOne
  split
  · exact ⟨rfl, Nat.le_add_right _ _⟩
  · rename_i task rest _
    have moved := total_update (ahead waits) s.point task (s.point task).wake
    have more := wake_ahead waits (s.point task)
    constructor
    · exact total_same (wake_inCall (s.point task))
    · change total (ahead waits) (Function.update s.point task (s.point task).wake) ≤ _
      omega

theorem wakeMany_ahead (waits : QueueSide → Bool) (side : QueueSide) (count : Nat)
    (s : WaitingQueue Task α uxLength) :
    total inCall (wakeMany side count s).point = total inCall s.point ∧
      total (ahead waits) (wakeMany side count s).point ≤ total (ahead waits) s.point + 7 * count := by
  induction count generalizing s with
  | zero => exact ⟨rfl, Nat.le_refl _⟩
  | succ count ih =>
    unfold wakeMany
    split
    · exact ⟨rfl, Nat.le_add_right _ _⟩
    · have first := wakeOne_ahead waits side s
      have rest := ih (s.wakeOne side)
      exact ⟨rest.1.trans first.1, by omega⟩

/-- A step inside the call, whatever becomes of lists, locks and scheduler. -/
theorem inside_work {task : Task} {point : TaskPoint α}
    (items : s'.items = s.items) (told : ∀ side, s'.untold side = s.untold side)
    (moved : s'.point = Function.update s.point task point)
    (inside : point.inCall = (s.point task).inCall)
    (nearer : point.ahead s.mustWait < (s.point task).ahead s.mustWait) : s'.work < s.work := by
  have waits : s'.mustWait = s.mustWait := by
    funext side
    cases side <;> simp only [mustWait, items]
  have calls : total inCall s'.point = total inCall s.point := by
    rw [moved]
    exact total_same inside
  have steps := total_update (ahead s.mustWait) s.point task point
  unfold work
  rw [waits, calls, told, told, moved]
  omega

/-- A call that returns. -/
theorem return_work {task : Task}
    (told : ∀ side, s'.untold side = s.untold side) (called : (s.point task).inCall = 1)
    (moved : total inCall s'.point = total inCall (Function.update s.point task .outside)) :
    s'.work < s.work := by
  have calls := total_update inCall s.point task .outside
  have most := total_le (ahead_le s'.mustWait) s'.point
  have gone : inCall (.outside : TaskPoint α) = 0 := rfl
  have one : total inCall s.point = total inCall s'.point + 1 := by omega
  unfold work
  rw [one, told, told, Nat.mul_add _ (total inCall s'.point) 1]
  omega

/-- The tasks that are woken were noted, each in one of the lock counts. -/
theorem unlock_work {side : QueueSide} {task : Task} {point : TaskPoint α}
    (inside : point.inCall = (s.point task).inCall)
    (nearer : point.ahead s.mustWait < (s.point task).ahead s.mustWait) :
    ((s.move task point).unlock side).work < s.work := by
  have woken := wakeMany_ahead s.mustWait side (s.untold side) (s.move task point)
  have waits : ((s.move task point).unlock side).mustWait = s.mustWait := by
    funext other
    cases other <;> simp only [mustWait, unlock_items] <;> rfl
  have calls : total inCall (s.move task point).point = total inCall s.point := total_same inside
  have steps : total (ahead s.mustWait) (s.move task point).point + (s.point task).ahead s.mustWait =
      total (ahead s.mustWait) s.point + point.ahead s.mustWait :=
    total_update (ahead s.mustWait) s.point task point
  have told (other : QueueSide) :
      ((s.move task point).unlock side).untold other = if other = side then 0 else s.untold other := by
    simp only [unlock, untold, Function.update_apply]
    split <;> rfl
  have points : ((s.move task point).unlock side).point =
      (wakeMany side (s.untold side) (s.move task point)).point := rfl
  unfold work
  rw [waits, told, told, points, woken.1, calls]
  cases side with
  | send =>
    rw [if_pos rfl, if_neg (by simp)]
    omega
  | receive =>
    rw [if_neg (by simp), if_pos rfl]
    omega

omit [Fintype Task] in
theorem wakeOne_untold (side other : QueueSide) (s : WaitingQueue Task α uxLength) :
    (s.wakeOne side).untold other = s.untold other := by
  unfold wakeOne
  split <;> rfl

theorem attempt_work {task : Task} {call : WaitingCall α} (here : s.point task = .attempting call) :
    (s.attempt task call).1.work < s.work := by
  have called : (s.point task).inCall = 1 := by rw [here]; rfl
  have failed (waits : s.mustWait call.side = true) :
      ((if call.forever then (s.move task (.suspending call), .went)
        else (s.move task .outside, .refused)) :
        WaitingQueue Task α uxLength × WaitingEvent α).1.work < s.work := by
    split
    · refine inside_work rfl (fun _ => rfl) rfl ?_ ?_
      · rw [here]; rfl
      · rw [here]
        simp [ahead, waits]
    · exact return_work (fun _ => rfl) called rfl
  unfold attempt
  dsimp only
  cases call with
  | xQueueSend item forever =>
    dsimp only
    split
    · exact return_work (fun other => wakeOne_untold _ other _) called (wakeOne_ahead s.mustWait _ _).1
    · rename_i full
      exact failed (decide_eq_true ((Queue.send_none s.items item).mp full))
  | xQueueReceive forever =>
    dsimp only
    split
    · exact return_work (fun other => wakeOne_untold _ other _) called (wakeOne_ahead s.mustWait _ _).1
    · rename_i empty
      have none' := (Queue.receive_none s.items).mp empty
      exact failed (by simp only [mustWait, WaitingCall.side, none', List.length_nil, decide_true])

/-- Every step of a task lowers the measure. -/
theorem proceed_work (uxPriority : Task → Nat) {task : Task} {event : WaitingEvent α}
    (ran : s.proceed uxPriority task = some (s', event)) : s'.work < s.work := by
  unfold proceed at ran
  split at ran
  · contradiction
  · split at ran
    · contradiction
    · contradiction
    · rename_i call here
      have less := attempt_work here
      rw [Option.some.inj ran] at less
      exact less
    · rename_i call here
      cases ran
      refine inside_work rfl (fun _ => rfl) rfl ?_ ?_
      · rw [here]; rfl
      · rw [here]
        simp only [ahead]
        split <;> omega
    · rename_i call here
      cases ran
      refine inside_work rfl (fun _ => rfl) rfl ?_ ?_
      · rw [here]
        split <;> rfl
      · rw [here]
        cases waits : s.mustWait call.side <;> simp [ahead, waits]
    · rename_i call here
      cases ran
      refine inside_work rfl (fun _ => rfl) rfl ?_ ?_
      · rw [here]; rfl
      · rw [here]
        simp [ahead]
    · rename_i call listed here
      cases ran
      apply unlock_work
      · rw [here]; rfl
      · rw [here]
        cases listed <;> simp [ahead]
    · rename_i call listed here
      cases ran
      apply unlock_work
      · rw [here]; rfl
      · rw [here]
        cases listed <;> simp [ahead]
    · rename_i call listed here
      cases ran
      refine inside_work rfl (fun _ => rfl) rfl ?_ ?_
      · rw [here]
        cases listed <;> rfl
      · rw [here]
        cases listed <;> simp [ahead]

/-- Whoever has suspended the scheduler can go on. -/
theorem rest_free (uxPriority : Task → Nat) (h : s.Sound)
    (rest : ∀ task, s.proceed uxPriority task = none) : s.uxSchedulerSuspended = none := by
  by_contra suspended
  obtain ⟨task, owner⟩ := Option.ne_none_iff_exists'.mp suspended
  have there := (h.alone task).mpr owner
  have stuck := rest task
  rw [proceed, if_neg (by simp [owner])] at stuck
  split at stuck <;> simp_all [suspends]

/-- A task that cannot run while none can is in no call, or sleeps with nothing to get. -/
theorem rest_waits (uxPriority : Task → Nat) (h : s.Sound)
    (rest : ∀ task, s.proceed uxPriority task = none) (task : Task) :
    s.point task = .outside ∨
      ∃ call, s.point task = .blocked call ∧ s.mustWait call.side = true := by
  have free := rest_free uxPriority h rest
  have points (other : Task) : s.point other = .outside ∨ ∃ call, s.point other = .blocked call := by
    have stuck := rest other
    rw [proceed, if_neg (by simp [free])] at stuck
    split at stuck
    · exact .inl ‹_›
    · exact .inr ⟨_, ‹_›⟩
    all_goals contradiction
  rcases points task with outside | ⟨call, asleep⟩
  · exact .inl outside
  · right
    refine ⟨call, asleep, ?_⟩
    have waiting : task ∈ s.xTasksWaiting call.side := (h.listed.member _ _).mpr (by rw [asleep]; rfl)
    have nobody : total (heedful call.side) s.point = 0 := by
      apply total_zero
      intro other
      rcases points other with it | ⟨call, it⟩ <;> rw [it] <;> rfl
    have told : s.untold call.side = 0 := by rw [untold, free_unlocked h free, Option.getD_none]
    have someone : 0 < Fintype.card Task := Fintype.card_pos_iff.mpr ⟨task⟩
    have nothing : s.available call.side = 0 := by
      rcases h.heeded call.side (List.ne_nil_of_mem waiting) with few | many <;> omega
    have bounded := s.items.bounded
    cases side : call.side with
    | send =>
      rw [side] at nothing
      simp only [available] at nothing
      exact decide_eq_true (by omega)
    | receive =>
      rw [side] at nothing
      exact decide_eq_true nothing

/-- From every state of every run, the tasks come to rest in a bounded number of steps, in
whatever order they run. Then the queue is unlocked, and each task is out of its call or rightly
asleep: at an empty queue as a receiver, at a full one as a sender. -/
theorem tasks_come_to_rest (uxPriority : Task → Nat) (actions : List (WaitingAction Task α))
    {events : List (WaitingEvent α)}
    (ran : run (step uxPriority) (start Task α uxLength) actions = some (s, events))
    (tasks : List Task) {later : List (WaitingEvent α)}
    (went : run (proceed uxPriority) s tasks = some (s', later)) :
    tasks.length + s'.work ≤ s.work ∧
      ((∀ task, s'.proceed uxPriority task = none) → (∀ side, s'.lock side = none) ∧
        ∀ task, s'.point task = .outside ∨
          ∃ call, s'.point task = .blocked call ∧ s'.mustWait call.side = true) := by
  have sound := (run_keeps uxPriority ran).sound
  clear ran
  induction tasks generalizing s later with
  | nil =>
    cases went
    refine ⟨Nat.le_of_eq (Nat.zero_add _), fun rest => ⟨?_, rest_waits uxPriority sound rest⟩⟩
    exact free_unlocked sound (rest_free uxPriority sound rest)
  | cons task tasks ih =>
    simp only [run, Option.bind_eq_bind, Option.bind_eq_some_iff] at went
    obtain ⟨⟨s₁, event⟩, one, ⟨last, more⟩, rest, same⟩ := went
    obtain ⟨rfl, rfl⟩ := Prod.mk.inj (Option.some.inj same)
    have less : s₁.work < s.work := proceed_work uxPriority one
    obtain ⟨bounded, final⟩ := ih rest (proceed_sound uxPriority sound one)
    refine ⟨?_, final⟩
    rw [List.length_cons]
    dsimp only at bounded ⊢
    omega

theorem tasks_come_to_rest_overtaken :
    ∃ s s' events later,
      run (step fun task => task.val) (start (Fin 2) UInt8 1) overtaken = some (s, events) ∧
      run (proceed fun task => task.val) s [1] = some (s', later) ∧
      (∀ task, s'.proceed (fun task => task.val) task = none) ∧
      ([1] : List (Fin 2)).length + s'.work ≤ s.work ∧
      ((∀ task, s'.proceed (fun task => task.val) task = none) → (∀ side, s'.lock side = none) ∧
        ∀ task, s'.point task = .outside ∨
          ∃ call, s'.point task = .blocked call ∧ s'.mustWait call.side = true) := by
  refine ⟨_, _, _, _, rfl, rfl, Fin.forall_fin_two.mpr ⟨rfl, rfl⟩, ?_⟩
  apply tasks_come_to_rest (fun task => task.val) overtaken
  · rfl
  · rfl

end WaitingQueue

end CommandBox
