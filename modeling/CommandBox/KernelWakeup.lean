import CommandBox.KernelWaiting
import CommandBox.Lib.Census
import CommandBox.Lib.Machine

/-! No lost wake-up: whatever a queue has for the waiting tasks, a task that is awake will
try to take it, or the task that has locked the queue will wake one for it. Interrupts cannot
reach the lists while the queue is locked, so the lock counts stand for the tasks to be woken. -/
namespace CommandBox
open Machine

def WaitingEvent.sentItem {α : Type} : WaitingEvent α → Option α
  | .sent item => some item
  | _ => none

def WaitingEvent.receivedItem {α : Type} : WaitingEvent α → Option α
  | .received item => some item
  | _ => none

namespace TaskPoint

variable {α : Type}

/-- The list the task is in. -/
def listed : TaskPoint α → Option QueueSide
  | .unlockingTx call true => some call.side
  | .unlockingRx call true => some call.side
  | .resuming call true => some call.side
  | .blocked call => some call.side
  | _ => none

/-- The side on which the task will make an attempt, whatever the others do. -/
def heeds : TaskPoint α → Option QueueSide
  | .attempting call => some call.side
  | .unlockingTx call false => some call.side
  | .unlockingRx call false => some call.side
  | .resuming call false => some call.side
  | _ => none

def suspends : TaskPoint α → Bool
  | .checking _ => true
  | .placing _ => true
  | .unlockingTx _ _ => true
  | .unlockingRx _ _ => true
  | .resuming _ _ => true
  | _ => false

/-- The task has locked the queue on this side. -/
def locks (side : QueueSide) : TaskPoint α → Bool
  | .checking _ => true
  | .placing _ => true
  | .unlockingTx _ _ => true
  | .unlockingRx _ _ => side = .send
  | _ => false

def heedful (side : QueueSide) (point : TaskPoint α) : Nat :=
  if point.heeds = some side then 1 else 0

theorem wake_listed {point : TaskPoint α} {side : QueueSide} (listed : point.listed = some side) :
    point.wake.listed = none ∧ point.wake.heeds = some side ∧ point.heeds = none := by
  cases point with
  | blocked call => exact ⟨rfl, listed, rfl⟩
  | unlockingTx call flag => cases flag <;> first | contradiction | exact ⟨rfl, listed, rfl⟩
  | unlockingRx call flag => cases flag <;> first | contradiction | exact ⟨rfl, listed, rfl⟩
  | resuming call flag => cases flag <;> first | contradiction | exact ⟨rfl, listed, rfl⟩
  | outside => contradiction
  | attempting call => contradiction
  | suspending call => contradiction
  | checking call => contradiction
  | placing call => contradiction

@[simp] theorem wake_suspends (point : TaskPoint α) : point.wake.suspends = point.suspends := by
  cases point <;> rfl

@[simp] theorem wake_locks (side : QueueSide) (point : TaskPoint α) :
    point.wake.locks side = point.locks side := by
  cases point <;> rfl

theorem wake_placing {point : TaskPoint α} {call : WaitingCall α}
    (placing : point.wake = .placing call) : point = .placing call := by
  cases point <;> first | contradiction | exact placing

theorem locks_suspends {side : QueueSide} {point : TaskPoint α} (locked : point.locks side = true) :
    point.suspends = true := by
  cases point <;> first | contradiction | rfl

end TaskPoint

namespace WaitingQueue

variable {Task α : Type} [DecidableEq Task] {uxLength : Nat}
  {s s' s₁ : WaitingQueue Task α uxLength} {side : QueueSide}

/-- A task is in the list that its point names, once, and in no other. -/
structure Listed (s : WaitingQueue Task α uxLength) : Prop where
  nodup : ∀ side, (s.xTasksWaiting side).Nodup
  member : ∀ side task, task ∈ s.xTasksWaiting side ↔ (s.point task).listed = some side

theorem move_listed (h : s.Listed) {task : Task} {point : TaskPoint α}
    (same : point.listed = (s.point task).listed) : (s.move task point).Listed := by
  constructor
  · exact h.nodup
  · intro side other
    by_cases it : other = task
    · subst it
      simpa [move, same] using h.member side other
    · simpa [move, it] using h.member side other

/-- The first task of the list is taken out of it and goes on. -/
theorem wakeOne_listed (side : QueueSide) (h : s.Listed) : (s.wakeOne side).Listed := by
  unfold wakeOne
  split
  · exact h
  · rename_i task rest waiting
    have here : (s.point task).listed = some side := (h.member side task).mp (by rw [waiting]; simp)
    have out := (TaskPoint.wake_listed here).1
    have once := h.nodup side
    rw [waiting, List.nodup_cons] at once
    constructor
    · intro side'
      by_cases it : side' = side
      · subst it
        simpa [move] using once.2
      · simpa [move, it] using h.nodup side'
    · intro side' other
      by_cases it : other = task
      · subst it
        by_cases mine : side' = side
        · subst mine
          simp [move, out, once.1]
        · have elsewhere := h.member side' other
          rw [here] at elsewhere
          simp [move, mine, out, elsewhere, Ne.symm mine]
      · by_cases mine : side' = side
        · subst mine
          have old := h.member side' other
          rw [waiting, List.mem_cons] at old
          simpa [move, it] using old
        · simpa [move, it, mine] using h.member side' other

variable [Fintype Task]

open TaskPoint Census

/-- `count` tasks of the list, if it has so many, were woken. -/
structure Woken (side : QueueSide) (count : Nat) (s s' : WaitingQueue Task α uxLength) : Prop where
  items : s'.items = s.items
  lock : s'.lock = s.lock
  suspended : s'.uxSchedulerSuspended = s.uxSchedulerSuspended
  waiting : s'.xTasksWaiting side = (s.xTasksWaiting side).drop count
  waiting_other : ∀ other, other ≠ side → s'.xTasksWaiting other = s.xTasksWaiting other
  heedful : total (heedful side) s'.point =
    total (heedful side) s.point + min count (s.xTasksWaiting side).length
  heedful_other : ∀ other, other ≠ side →
    total (TaskPoint.heedful other) s'.point = total (TaskPoint.heedful other) s.point
  suspends : ∀ task, (s'.point task).suspends = (s.point task).suspends
  locks : ∀ other task, (s'.point task).locks other = (s.point task).locks other
  placing : ∀ task call, s'.point task = .placing call → s.point task = .placing call
  listed : s'.Listed

omit [DecidableEq Task] in
theorem woken_none {count : Nat} (h : s.Listed) (empty : s.xTasksWaiting side = []) :
    Woken side count s s := by
  constructor <;> simp [empty, h]

omit [DecidableEq Task] in
theorem woken_trans {n m : Nat} (first : Woken side n s s₁) (second : Woken side m s₁ s') :
    Woken side (n + m) s s' where
  items := second.items.trans first.items
  lock := second.lock.trans first.lock
  suspended := second.suspended.trans first.suspended
  waiting := by rw [second.waiting, first.waiting, List.drop_drop]
  waiting_other other h := (second.waiting_other other h).trans (first.waiting_other other h)
  heedful := by
    rw [second.heedful, first.heedful, first.waiting, List.length_drop]
    omega
  heedful_other other h := (second.heedful_other other h).trans (first.heedful_other other h)
  suspends task := (second.suspends task).trans (first.suspends task)
  locks other task := (second.locks other task).trans (first.locks other task)
  placing task call h := first.placing task call (second.placing task call h)
  listed := second.listed

theorem wakeOne_woken (side : QueueSide) (h : s.Listed) : Woken side 1 s (s.wakeOne side) := by
  have kept := wakeOne_listed side h
  unfold wakeOne at kept ⊢
  split
  · exact woken_none h ‹_›
  · rename_i task rest waiting
    rw [waiting] at kept
    have here : (s.point task).listed = some side := (h.member side task).mp (by rw [waiting]; simp)
    obtain ⟨_, now, before⟩ := wake_listed here
    constructor
    · rfl
    · rfl
    · rfl
    · simp [move, waiting]
    · intro other it
      simp [move, it]
    · have moved := total_update (TaskPoint.heedful side) s.point task (s.point task).wake
      simp [TaskPoint.heedful, now, before] at moved
      simpa [move, waiting] using moved
    · intro other it
      apply total_same
      simp [TaskPoint.heedful, now, before, Ne.symm it]
    · intro other
      by_cases it : other = task
      · subst it
        simp [move]
      · simp [move, it]
    · intro side' other
      by_cases it : other = task
      · subst it
        simp [move]
      · simp [move, it]
    · intro other call placing
      by_cases it : other = task
      · subst it
        exact wake_placing (by simpa [move] using placing)
      · simpa [move, it] using placing
    · exact kept

theorem wakeMany_woken (side : QueueSide) (count : Nat) (h : s.Listed) :
    Woken side count s (wakeMany side count s) := by
  induction count generalizing s with
  | zero => constructor <;> simp [wakeMany, h]
  | succ count ih =>
    unfold wakeMany
    split
    · exact woken_none h ‹_›
    · have first := wakeOne_woken side h
      rw [Nat.add_comm count 1]
      exact woken_trans first (ih first.listed)

/-- What a call on this side needs: items, or free places. -/
def available (s : WaitingQueue Task α uxLength) : QueueSide → Nat
  | .send => uxLength - s.items.items.length
  | .receive => s.items.items.length

def untold (s : WaitingQueue Task α uxLength) (side : QueueSide) : Nat := (s.lock side).getD 0

/-- Whatever there is for a side, a task will try to take it, or is to be woken for it when the
queue is unlocked. The counts stop at the number of tasks, which is enough to wake all. -/
def Heeded (s : WaitingQueue Task α uxLength) (side : QueueSide) : Prop :=
  s.available side ≤ total (heedful side) s.point + s.untold side ∨
    Fintype.card Task ≤ s.untold side

structure Sound (s : WaitingQueue Task α uxLength) : Prop where
  listed : s.Listed
  alone : ∀ task, (s.point task).suspends = true ↔ s.uxSchedulerSuspended = some task
  locked : ∀ side, s.lock side ≠ none ↔ ∃ task, (s.point task).locks side = true
  heeded : ∀ side, s.xTasksWaiting side ≠ [] → s.Heeded side
  placing : ∀ task call, s.point task = .placing call →
    s.available call.side ≤ s.untold call.side ∨ Fintype.card Task ≤ s.untold call.side
  small : ∀ side, s.untold side ≤ Fintype.card Task

omit [DecidableEq Task] in
theorem start_sound : (start Task α uxLength).Sound := by
  constructor
  · constructor <;> simp [start, TaskPoint.listed]
  · simp [start, TaskPoint.suspends]
  · simp [start, TaskPoint.locks]
  · simp [start]
  · simp [start]
  · simp [start, untold]

omit [DecidableEq Task] in
/-- The task that has suspended the scheduler is the only one at such a point. -/
theorem suspends_one (h : s.Sound) {task other : Task} (here : (s.point task).suspends = true)
    (there : (s.point other).suspends = true) : other = task := by
  have one := (h.alone task).mp here
  rw [(h.alone other).mp there] at one
  exact Option.some.inj one

omit [DecidableEq Task] in
theorem free_unlocked (h : s.Sound) (free : s.uxSchedulerSuspended = none) (side : QueueSide) :
    s.lock side = none := by
  by_contra locked
  obtain ⟨task, holds⟩ := (h.locked side).mp locked
  have suspended := (h.alone task).mp (locks_suspends holds)
  rw [free] at suspended
  contradiction

/-- A move that changes neither lists nor locks, of a task that goes on trying or has nothing
to get. -/
theorem move_sound (h : s.Sound) {task : Task} {point : TaskPoint α}
    (listed : point.listed = (s.point task).listed)
    (suspends : point.suspends = (s.point task).suspends)
    (locks : ∀ side, point.locks side = (s.point task).locks side)
    (heeds : ∀ side, heedful side (s.point task) ≤ heedful side point ∨ s.available side = 0)
    (placing : ∀ call, point = .placing call → s.available call.side = 0) :
    (s.move task point).Sound := by
  have at' (other : Task) : (s.move task point).point other =
      if other = task then point else s.point other := by
    simp only [move, Function.update_apply]
  constructor
  · exact move_listed h.listed listed
  · intro other
    rw [at']
    split
    · rename_i it
      rw [suspends, ← it]
      exact h.alone other
    · exact h.alone other
  · intro side
    rw [show (s.move task point).lock side = s.lock side from rfl, h.locked side]
    refine exists_congr fun other => ?_
    rw [at']
    split
    · rename_i it
      rw [locks, it]
    · rfl
  · intro side waiting
    have moved := total_update (heedful side) s.point task point
    rcases h.heeded side waiting with few | many
    · left
      change s.available side ≤ total (heedful side) (Function.update s.point task point) + s.untold side
      rcases heeds side with more | none'
      · omega
      · omega
    · exact .inr many
  · intro other call there
    rw [at'] at there
    split at there
    · left
      have nothing : (s.move task point).available call.side = 0 := placing call there
      omega
    · exact h.placing other call there
  · exact h.small

/-- The task that has locked the queue unlocks one side of it. -/
theorem unlock_sound (h : s.Sound) {task : Task} {point : TaskPoint α}
    (here : (s.point task).suspends = true) (still : point.suspends = true)
    (listed : point.listed = (s.point task).listed) (heeds : point.heeds = (s.point task).heeds)
    (open' : point.locks side = false)
    (locks : ∀ other, other ≠ side → point.locks other = (s.point task).locks other)
    (placed : ∀ call, point ≠ .placing call) : ((s.move task point).unlock side).Sound := by
  have only (other : Task) (it : other ≠ task) : (s.point other).suspends = false := by
    cases flag : (s.point other).suspends with
    | false => rfl
    | true => exact absurd (suspends_one h here flag) it
  have at' (other : Task) : (s.move task point).point other =
      if other = task then point else s.point other := by
    simp only [move, Function.update_apply]
  have moved (other : QueueSide) :
      total (heedful other) (s.move task point).point = total (heedful other) s.point := by
    apply total_same
    simp only [TaskPoint.heedful, heeds]
  have woken := wakeMany_woken side (s.untold side) (move_listed h.listed listed)
  unfold unlock
  change ({ wakeMany side (s.untold side) (s.move task point) with
    lock := Function.update s.lock side none }).Sound
  generalize wakeMany side (s.untold side) (s.move task point) = s₁ at woken ⊢
  constructor
  · exact ⟨woken.listed.nodup, woken.listed.member⟩
  · intro other
    change (s₁.point other).suspends = true ↔ s₁.uxSchedulerSuspended = some other
    rw [woken.suspends, woken.suspended, at']
    split
    · rename_i it
      rw [still, it]
      exact iff_of_true rfl ((h.alone task).mp here)
    · exact h.alone other
  · intro other
    change Function.update s.lock side none other ≠ none ↔ ∃ task, (s₁.point task).locks other = true
    have lockers : (∃ task, (s₁.point task).locks other = true) ↔ point.locks other = true := by
      constructor
      · rintro ⟨locker, holds⟩
        rw [woken.locks, at'] at holds
        split at holds
        · exact holds
        · rename_i it
          have idle := only locker it
          rw [locks_suspends holds] at idle
          contradiction
      · intro holds
        exact ⟨task, by rw [woken.locks, at', if_pos rfl, holds]⟩
    rw [lockers]
    by_cases it : other = side
    · subst it
      simp [open']
    · rw [Function.update_of_ne it, locks other it, h.locked other]
      constructor
      · rintro ⟨locker, holds⟩
        rw [← suspends_one h here (locks_suspends holds)]
        exact holds
      · exact fun holds => ⟨task, holds⟩
  · intro other waiting
    change s₁.xTasksWaiting other ≠ [] at waiting
    have items : s₁.available other = s.available other := by
      cases other <;> simp only [available, woken.items] <;> rfl
    by_cases it : other = side
    · subst it
      rw [woken.waiting] at waiting
      have long : s.untold other < (s.xTasksWaiting other).length := by
        by_contra short
        exact waiting (List.drop_eq_nil_of_le (Nat.le_of_not_lt short))
      have most := (h.listed.nodup other).length_le_card
      have woke := woken.heedful
      change total (heedful other) s₁.point =
        total (heedful other) (s.move task point).point + min (s.untold other) (s.xTasksWaiting other).length
        at woke
      left
      change s₁.available other ≤ total (heedful other) s₁.point + _
      rw [woke, items, moved]
      rcases h.heeded other (by intro none'; simp [none'] at long) with few | many <;> omega
    · rw [woken.waiting_other other it] at waiting
      have told : untold { s₁ with lock := Function.update s.lock side none } other = s.untold other := by
        simp only [untold, Function.update_of_ne it]
      unfold Heeded
      rw [told]
      change s₁.available other ≤ total (heedful other) s₁.point + _ ∨ _
      rw [items, woken.heedful_other other it, moved]
      exact h.heeded other waiting
  · intro other call there
    have before := woken.placing other call there
    rw [at'] at before
    split at before
    · exact absurd before (placed call)
    · rename_i it
      have idle := only other it
      rw [before] at idle
      contradiction
  · intro other
    by_cases it : other = side
    · subst it
      simp [untold]
    · simpa [untold, it] using h.small other

/-- One thing more for a side, at most as many for the other, and nobody at another point but
a task that took it from there. -/
structure Delivers (side : QueueSide) (s s₁ : WaitingQueue Task α uxLength) : Prop where
  listed : s₁.Listed
  lock : s₁.lock = s.lock
  waiting : s₁.xTasksWaiting = s.xTasksWaiting
  suspended : s₁.uxSchedulerSuspended = s.uxSchedulerSuspended
  suspends : ∀ task, (s₁.point task).suspends = (s.point task).suspends
  locks : ∀ other task, (s₁.point task).locks other = (s.point task).locks other
  placing : ∀ task call, s₁.point task = .placing call → s.point task = .placing call
  more : s₁.available side ≤ s.available side + 1
  heedful : total (heedful side) s.point ≤ total (heedful side) s₁.point
  less : ∀ other, other ≠ side → s₁.available other ≤ s.available other
  taken : ∀ other, other ≠ side →
    s₁.available other + total (TaskPoint.heedful other) s.point ≤
      s.available other + total (TaskPoint.heedful other) s₁.point

/-- While the queue is not locked, a task is woken for what was delivered. -/
theorem wakeOne_sound (h : s.Sound) (d : Delivers side s s₁) (unlocked : s.lock side = none) :
    (s₁.wakeOne side).Sound := by
  have woken := wakeOne_woken side d.listed
  generalize s₁.wakeOne side = s' at woken ⊢
  have told (other : QueueSide) : s'.untold other = s.untold other := by
    simp only [untold, woken.lock, d.lock]
  have items (other : QueueSide) : s'.available other = s₁.available other := by
    cases other <;> simp only [available, woken.items]
  constructor
  · exact woken.listed
  · intro task
    rw [woken.suspends, d.suspends, woken.suspended, d.suspended]
    exact h.alone task
  · intro other
    rw [woken.lock, d.lock, h.locked other]
    exact exists_congr fun task => by rw [woken.locks, d.locks]
  · intro other waiting
    unfold Heeded
    rw [told, items]
    by_cases it : other = side
    · subst it
      have woke := woken.heedful
      rw [woken.waiting, d.waiting] at waiting
      rw [d.waiting] at woke
      have long : 1 < (s.xTasksWaiting other).length := by
        by_contra short
        exact waiting (List.drop_eq_nil_of_le (Nat.le_of_not_lt short))
      have before := h.heeded other (by intro none'; simp [none'] at long)
      have more := d.more
      have kept := d.heedful
      rcases before with few | many
      · exact .inl (by omega)
      · exact .inr many
    · rw [woken.waiting_other other it, d.waiting] at waiting
      rw [woken.heedful_other other it]
      have taken := d.taken other it
      rcases h.heeded other waiting with few | many
      · exact .inl (by omega)
      · exact .inr many
  · intro task call there
    have before := d.placing task call (woken.placing task call there)
    have locked := (h.locked side).mpr ⟨task, by rw [before]; rfl⟩
    contradiction
  · intro other
    rw [told]
    exact h.small other

omit [DecidableEq Task] in
/-- While it is locked, what was delivered is noted. -/
theorem count_sound (h : s.Sound) (d : Delivers side s s₁) {lock lock' : Nat}
    (locked : s.lock side = some lock)
    (counted : prvIncrementQueueLock (Fintype.card Task) lock = some lock') :
    WaitingQueue.Sound { s₁ with lock := Function.update s₁.lock side (some lock') } := by
  have most : lock' ≤ Fintype.card Task ∧ (lock' = lock + 1 ∨ Fintype.card Task ≤ lock') := by
    have small : (s.lock side).getD 0 ≤ Fintype.card Task := h.small side
    rw [locked, Option.getD_some] at small
    unfold prvIncrementQueueLock at counted
    split at counted
    · split at counted
      · contradiction
      · cases counted
        omega
    · cases counted
      omega
  have old : s.untold side = lock := by simp only [untold, locked, Option.getD_some]
  have new (other : QueueSide) :
      untold { s₁ with lock := Function.update s₁.lock side (some lock') } other =
        if other = side then lock' else s.untold other := by
    simp only [untold, d.lock, Function.update_apply]
    split <;> rfl
  constructor
  · exact ⟨d.listed.nodup, d.listed.member⟩
  · intro task
    exact (by rw [d.suspends, d.suspended]; exact h.alone task :
      (s₁.point task).suspends = true ↔ s₁.uxSchedulerSuspended = some task)
  · intro other
    have before := h.locked other
    change Function.update s₁.lock side (some lock') other ≠ none ↔
      ∃ task, (s₁.point task).locks other = true
    simp only [d.locks]
    rw [← before, d.lock]
    by_cases it : other = side
    · subst it
      simp [locked]
    · rw [Function.update_of_ne it]
  · intro other waiting
    change s₁.xTasksWaiting other ≠ [] at waiting
    rw [d.waiting] at waiting
    unfold Heeded
    rw [new]
    change s₁.available other ≤ total (TaskPoint.heedful other) s₁.point + _ ∨ _
    have before := h.heeded other waiting
    by_cases it : other = side
    · subst it
      have more := d.more
      have kept := d.heedful
      rw [if_pos rfl]
      unfold Heeded at before
      omega
    · have taken := d.taken other it
      rw [if_neg it]
      unfold Heeded at before
      omega
  · intro task call there
    rw [new]
    change s₁.available call.side ≤ _ ∨ _
    have before := h.placing task call (d.placing task call there)
    by_cases it : call.side = side
    · have more := d.more
      rw [← it] at more old
      rw [if_pos it]
      omega
    · have less := d.less call.side it
      rw [if_neg it]
      omega
  · intro other
    rw [new]
    split
    · exact most.1
    · exact h.small other

theorem notify_sound (h : s.Sound) (d : Delivers side s s₁) (told : s₁.notify side = some s') :
    s'.Sound := by
  unfold notify at told
  rw [d.lock] at told
  split at told
  · cases told
    exact wakeOne_sound h d ‹_›
  · obtain ⟨lock', counted, rfl⟩ := Option.map_eq_some_iff.mp told
    rw [← d.lock]
    exact count_sound h d ‹_› counted

omit [DecidableEq Task] [Fintype Task] in
/-- An item more, and one place less. -/
theorem send_available {items : Queue α uxLength} {item : α}
    (sent : s.items.send item = some items) :
    available { s with items := items } .receive = s.available .receive + 1 ∧
      available { s with items := items } .send + 1 = s.available .send := by
  have bounded := items.bounded
  have grown := Queue.send_items sent
  simp only [available, grown, List.length_append, List.length_singleton, true_and] at bounded ⊢
  omega

omit [DecidableEq Task] [Fintype Task] in
theorem receive_available {items : Queue α uxLength} {item : α}
    (received : s.items.receive = some (item, items)) :
    available { s with items := items } .send = s.available .send + 1 ∧
      available { s with items := items } .receive + 1 = s.available .receive := by
  have bounded := s.items.bounded
  have shrunk := Queue.receive_items received
  simp only [available, shrunk, List.length_cons, and_true] at bounded ⊢
  omega

omit [DecidableEq Task] in
/-- What an interrupt delivers. -/
theorem items_delivers (h : s.Sound) {items : Queue α uxLength}
    (more : WaitingQueue.available { s with items := items } side ≤ s.available side + 1)
    (less : ∀ other, other ≠ side →
      WaitingQueue.available { s with items := items } other ≤ s.available other) :
    Delivers side s { s with items := items } where
  listed := ⟨h.listed.nodup, h.listed.member⟩
  lock := rfl
  waiting := rfl
  suspended := rfl
  suspends _ := rfl
  locks _ _ := rfl
  placing _ _ there := there
  more := more
  heedful := Nat.le_refl _
  less := less
  taken other it := Nat.add_le_add_right (less other it) _

/-- What a task delivers that leaves its call. -/
theorem attempt_delivers (h : s.Sound) {items : Queue α uxLength} {task : Task}
    {call : WaitingCall α} (here : s.point task = .attempting call) (apart : call.side ≠ side)
    (more : WaitingQueue.available { s with items := items } side ≤ s.available side + 1)
    (less : ∀ other, other ≠ side →
      WaitingQueue.available { s with items := items } other + 1 = s.available other) :
    Delivers side s (move { s with items := items } task .outside) := by
  have at' (other : Task) : (move { s with items := items } task .outside).point other =
      if other = task then .outside else s.point other := by
    simp only [move, Function.update_apply]
  have moved (other : QueueSide) := total_update (TaskPoint.heedful other) s.point task .outside
  constructor
  · exact move_listed (s := { s with items := items }) ⟨h.listed.nodup, h.listed.member⟩
      (by rw [here]; rfl)
  · rfl
  · rfl
  · rfl
  · intro other
    rw [at']
    split
    · rename_i it
      rw [it, here]
      rfl
    · rfl
  · intro side' other
    rw [at']
    split
    · rename_i it
      rw [it, here]
      rfl
    · rfl
  · intro other call there
    rw [at'] at there
    split at there
    · contradiction
    · exact there
  · exact more
  · have before := moved side
    rw [here] at before
    have gone : TaskPoint.heedful side (.attempting call) = 0 := by
      simp [TaskPoint.heedful, TaskPoint.heeds, apart]
    change total (TaskPoint.heedful side) s.point ≤
      total (TaskPoint.heedful side) (Function.update s.point task .outside)
    omega
  · intro other it
    exact Nat.le_of_succ_le (Nat.le_of_eq (less other it))
  · intro other it
    have before := moved other
    have at_most : TaskPoint.heedful other (s.point task) ≤ 1 := by
      unfold TaskPoint.heedful
      split <;> omega
    have fewer := less other it
    change WaitingQueue.available { s with items := items } other + _ ≤
      _ + total (TaskPoint.heedful other) (Function.update s.point task .outside)
    omega

/-- An attempt that fails has nothing to get. -/
theorem failed_sound (h : s.Sound) {task : Task} {call : WaitingCall α} {point : TaskPoint α}
    (here : s.point task = .attempting call) (nothing : s.available call.side = 0)
    (away : point = .suspending call ∨ point = .outside) : (s.move task point).Sound := by
  have heeds (side : QueueSide) : heedful side (s.point task) ≤ heedful side point ∨
      s.available side = 0 := by
    rw [here]
    by_cases it : call.side = side
    · exact .inr (it ▸ nothing)
    · left
      simp [TaskPoint.heedful, TaskPoint.heeds, it]
  rcases away with rfl | rfl
  · exact move_sound h (by rw [here]; rfl) (by rw [here]; rfl) (by rw [here]; exact fun _ => rfl) heeds
      (by simp)
  · exact move_sound h (by rw [here]; rfl) (by rw [here]; rfl) (by rw [here]; exact fun _ => rfl) heeds
      (by simp)

theorem attempt_sound (h : s.Sound) {task : Task} {call : WaitingCall α}
    (free : s.uxSchedulerSuspended = none) (here : s.point task = .attempting call) :
    (s.attempt task call).1.Sound := by
  have failed (nothing : s.available call.side = 0) :
      ((if call.forever then (s.move task (.suspending call), .went)
        else (s.move task .outside, .refused)) :
        WaitingQueue Task α uxLength × WaitingEvent α).1.Sound := by
    split
    · exact failed_sound h here nothing (.inl rfl)
    · exact failed_sound h here nothing (.inr rfl)
  unfold attempt
  dsimp only
  cases call with
  | xQueueSend item forever =>
    dsimp only
    split
    · rename_i items sent
      have counts := send_available sent
      have gives : Delivers .receive s (move { s with items := items } task .outside) :=
        attempt_delivers h here (by simp [WaitingCall.side]) (Nat.le_of_eq counts.1) (by
          intro other it
          cases other
          · exact counts.2
          · contradiction)
      exact wakeOne_sound h gives (free_unlocked h free .receive)
    · rename_i full
      have none' : s.available .send = 0 := by
        have long := (Queue.send_none s.items item).mp full
        unfold Queue.Full at long
        simp only [available]
        omega
      exact failed none'
  | xQueueReceive forever =>
    dsimp only
    split
    · rename_i item items received
      have counts := receive_available received
      have gives : Delivers .send s (move { s with items := items } task .outside) :=
        attempt_delivers h here (by simp [WaitingCall.side]) (Nat.le_of_eq counts.1) (by
          intro other it
          cases other
          · contradiction
          · exact counts.2)
      exact wakeOne_sound h gives (free_unlocked h free .send)
    · rename_i empty
      have none' : s.available .receive = 0 := by
        simp only [available, (Queue.receive_none s.items).mp empty, List.length_nil]
      exact failed none'

/-- Suspending the scheduler and locking the queue. -/
theorem lock_sound (h : s.Sound) {task : Task} {call : WaitingCall α}
    (free : s.uxSchedulerSuspended = none) (here : s.point task = .suspending call) :
    (move { s with
      uxSchedulerSuspended := some task
      lock := fun side => some ((s.lock side).getD 0) } task (.checking call)).Sound := by
  have unlocked := free_unlocked h free
  have nobody (other : Task) : (s.point other).suspends = false := by
    cases flag : (s.point other).suspends with
    | false => rfl
    | true =>
      have suspended := (h.alone other).mp flag
      rw [free] at suspended
      contradiction
  have point' (other : Task) (it : other ≠ task) :
      Function.update s.point task (.checking call) other = s.point other :=
    Function.update_of_ne it _ _
  constructor
  · exact move_listed (s := { s with
      uxSchedulerSuspended := some task
      lock := fun side => some ((s.lock side).getD 0) }) ⟨h.listed.nodup, h.listed.member⟩
      (by rw [here]; rfl)
  · intro other
    change (Function.update s.point task (.checking call) other).suspends = true ↔ some task = some other
    by_cases it : other = task
    · subst it
      simp [TaskPoint.suspends]
    · simp [point' other it, nobody, Ne.symm it]
  · intro side
    change some ((s.lock side).getD 0) ≠ none ↔
      ∃ other, (Function.update s.point task (.checking call) other).locks side = true
    refine iff_of_true (Option.some_ne_none _) ⟨task, ?_⟩
    rw [Function.update_self]
    rfl
  · intro side waiting
    have before := h.heeded side waiting
    have moved : total (heedful side) (Function.update s.point task (.checking call)) =
        total (heedful side) s.point := total_same (by rw [here]; rfl)
    unfold Heeded untold at before ⊢
    change s.available side ≤ total (heedful side) (Function.update s.point task (.checking call)) +
      (some ((s.lock side).getD 0)).getD 0 ∨ Fintype.card Task ≤ (some ((s.lock side).getD 0)).getD 0
    rw [moved]
    exact before
  · intro other other_call there
    change Function.update s.point task (.checking call) other = _ at there
    by_cases it : other = task
    · subst it
      simp at there
    · rw [point' other it] at there
      have idle := nobody other
      rw [there] at idle
      contradiction
  · intro side
    exact h.small side

omit [DecidableEq Task] [Fintype Task] in
theorem vListInsert_perm (uxPriority : Task → Nat) (task : Task) (waiting : List Task) :
    (vListInsert uxPriority task waiting).Perm (task :: waiting) := by
  induction waiting with
  | nil => exact .refl _
  | cons other rest ih =>
    unfold vListInsert
    split
    · exact (ih.cons other).trans (.swap task other rest)
    · exact .refl _

/-- A task that found nothing joins the list, and what came meanwhile was noted. -/
theorem place_sound (uxPriority : Task → Nat) (h : s.Sound) {task : Task} {call : WaitingCall α}
    (here : s.point task = .placing call) :
    ((s.vTaskPlaceOnEventList uxPriority call.side task).move task (.unlockingTx call true)).Sound := by
  have noted := h.placing task call here
  have joins := vListInsert_perm uxPriority task (s.xTasksWaiting call.side)
  have absent (side : QueueSide) : task ∉ s.xTasksWaiting side := by
    rw [h.listed.member side task, here]
    simp [TaskPoint.listed]
  have lists (side : QueueSide) :
      ((s.vTaskPlaceOnEventList uxPriority call.side task).move task
        (.unlockingTx call true)).xTasksWaiting side =
        if side = call.side then vListInsert uxPriority task (s.xTasksWaiting call.side)
        else s.xTasksWaiting side := by
    simp only [vTaskPlaceOnEventList, move, Function.update_apply]
  have at' (other : Task) :
      ((s.vTaskPlaceOnEventList uxPriority call.side task).move task (.unlockingTx call true)).point
        other = if other = task then .unlockingTx call true else s.point other := by
    simp only [vTaskPlaceOnEventList, move, Function.update_apply]
  have moved (side : QueueSide) :
      total (heedful side) ((s.vTaskPlaceOnEventList uxPriority call.side task).move task
        (.unlockingTx call true)).point = total (heedful side) s.point := by
    apply total_same
    change heedful side (.unlockingTx call true) = heedful side (s.point task)
    rw [here]
    rfl
  constructor
  · constructor
    · intro side
      rw [lists]
      split
      · rw [joins.nodup_iff, List.nodup_cons]
        exact ⟨absent _, h.listed.nodup _⟩
      · exact h.listed.nodup side
    · intro side other
      rw [lists, at']
      by_cases mine : side = call.side
      · rw [if_pos mine, joins.mem_iff, List.mem_cons, ← mine, h.listed.member]
        by_cases it : other = task
        · simp [it, TaskPoint.listed, mine]
        · simp [it]
      · rw [if_neg mine, h.listed.member]
        by_cases it : other = task
        · subst it
          simp [here, TaskPoint.listed, Ne.symm mine]
        · simp [it]
  · intro other
    rw [at']
    split
    · rename_i it
      rw [it]
      exact iff_of_true rfl ((h.alone task).mp (by rw [here]; rfl))
    · exact h.alone other
  · intro side
    refine (h.locked side).trans (exists_congr fun other => ?_)
    rw [at']
    split
    · rename_i it
      rw [it, here]
      rfl
    · rfl
  · intro side waiting
    unfold Heeded
    rw [moved]
    change s.available side ≤ _ + s.untold side ∨ Fintype.card Task ≤ s.untold side
    by_cases mine : side = call.side
    · subst mine
      omega
    · rw [lists, if_neg mine] at waiting
      exact h.heeded side waiting
  · intro other other_call there
    rw [at'] at there
    split at there
    · contradiction
    · exact h.placing other other_call there
  · exact h.small

/-- Resuming the scheduler, with the queue unlocked. -/
theorem resume_sound (h : s.Sound) {task : Task} {call : WaitingCall α} {listed : Bool}
    (here : s.point task = .resuming call listed) :
    (move { s with uxSchedulerSuspended := none } task
      (if listed then .blocked call else .attempting call)).Sound := by
  have only (other : Task) (it : other ≠ task) : (s.point other).suspends = false := by
    cases flag : (s.point other).suspends with
    | false => rfl
    | true => exact absurd (suspends_one h (by rw [here]; rfl) flag) it
  have at' (other : Task) :
      (move { s with uxSchedulerSuspended := none } task
        (if listed then .blocked call else .attempting call)).point other =
      if other = task then (if listed then .blocked call else .attempting call) else s.point other := by
    simp only [move, Function.update_apply]
  constructor
  · apply move_listed (s := { s with uxSchedulerSuspended := none }) ⟨h.listed.nodup, h.listed.member⟩
    rw [here]
    cases listed <;> rfl
  · intro other
    rw [at']
    refine iff_of_false ?_ (Option.some_ne_none other).symm
    split
    · cases listed <;> exact Bool.noConfusion
    · rw [only other ‹_›]
      exact Bool.noConfusion
  · intro side
    have none' : s.lock side = none := by
      by_contra locked
      obtain ⟨locker, holds⟩ := (h.locked side).mp locked
      have it := suspends_one h (by rw [here]; rfl) (locks_suspends holds)
      rw [it, here] at holds
      contradiction
    refine iff_of_false (absurd none') ?_
    rintro ⟨other, holds⟩
    rw [at'] at holds
    split at holds
    · cases listed <;> contradiction
    · rename_i it
      have idle := only other it
      rw [locks_suspends holds] at idle
      contradiction
  · intro side waiting
    have moved : total (heedful side) (Function.update s.point task
        (if listed then .blocked call else .attempting call)) = total (heedful side) s.point := by
      apply total_same
      rw [here]
      cases listed <;> rfl
    have before := h.heeded side waiting
    unfold Heeded at before ⊢
    rw [← moved] at before
    exact before
  · intro other other_call there
    rw [at'] at there
    split at there
    · cases listed <;> contradiction
    · exact h.placing other other_call there
  · exact h.small

theorem proceed_sound (uxPriority : Task → Nat) (h : s.Sound) {task : Task} {event : WaitingEvent α}
    (ran : s.proceed uxPriority task = some (s', event)) : s'.Sound := by
  unfold proceed at ran
  split at ran
  · contradiction
  · rename_i may
    have free (off : (s.point task).suspends = false) : s.uxSchedulerSuspended = none := by
      by_contra other
      rw [not_and_not_right] at may
      rw [(h.alone task).mpr (may other)] at off
      contradiction
    split at ran
    · contradiction
    · contradiction
    · rename_i call here
      have sound := attempt_sound h (free (by rw [here]; rfl)) here
      rw [Option.some.inj ran] at sound
      exact sound
    · rename_i call here
      cases ran
      exact lock_sound h (free (by rw [here]; rfl)) here
    · rename_i call here
      cases ran
      split
      · rename_i waits
        have nothing : s.available call.side = 0 := by
          cases side : call.side with
          | send =>
            simp only [mustWait, side, decide_eq_true_eq] at waits
            simp only [available, waits, Nat.sub_self]
          | receive =>
            simp only [mustWait, side, decide_eq_true_eq] at waits
            exact waits
        apply move_sound h
        · rw [here]; rfl
        · rw [here]; rfl
        · rw [here]; exact fun _ => rfl
        · rw [here]; exact fun _ => .inl (Nat.le_refl _)
        · intro other placing
          cases placing
          exact nothing
      · apply move_sound h
        · rw [here]; rfl
        · rw [here]; rfl
        · rw [here]; exact fun _ => rfl
        · rw [here]; exact fun _ => .inl (Nat.zero_le _)
        · intro other placing
          contradiction
    · rename_i call here
      cases ran
      exact place_sound uxPriority h here
    · rename_i call listed here
      cases ran
      apply unlock_sound h
      · rw [here]; rfl
      · rfl
      · rw [here]; cases listed <;> rfl
      · rw [here]; cases listed <;> rfl
      · rfl
      · intro other it
        rw [here]
        cases other
        · rfl
        · contradiction
      · simp
    · rename_i call listed here
      cases ran
      apply unlock_sound h
      · rw [here]; rfl
      · rfl
      · rw [here]; cases listed <;> rfl
      · rw [here]; cases listed <;> rfl
      · rfl
      · intro other it
        rw [here]
        cases other
        · contradiction
        · rfl
      · simp
    · rename_i call listed here
      cases ran
      exact resume_sound h here

theorem step_sound (uxPriority : Task → Nat) (h : s.Sound) {action : WaitingAction Task α}
    {event : WaitingEvent α} (ran : s.step uxPriority action = some (s', event)) : s'.Sound := by
  cases action with
  | call task call =>
    simp only [step] at ran
    split at ran
    · rename_i here free
      cases ran
      apply move_sound h
      · rw [here]; rfl
      · rw [here]; rfl
      · rw [here]; exact fun _ => rfl
      · rw [here]; exact fun _ => .inl (Nat.zero_le _)
      · intro other placing
        contradiction
    · contradiction
  | proceed task => exact proceed_sound uxPriority h ran
  | sendFromISR item =>
    simp only [step, sendFromISR, Option.some.injEq] at ran
    split at ran
    · cases ran
      exact h
    · rename_i items sent
      have counts := send_available sent
      have gives : Delivers .receive s { s with items := items } :=
        items_delivers h (Nat.le_of_eq counts.1) (by
          intro other it
          cases other
          · omega
          · contradiction)
      split at ran
      · cases ran
        exact notify_sound h gives ‹_›
      · cases ran
        exact h
  | receiveFromISR =>
    simp only [step, receiveFromISR, Option.some.injEq] at ran
    split at ran
    · cases ran
      exact h
    · rename_i item items received
      have counts := receive_available received
      have gives : Delivers .send s { s with items := items } :=
        items_delivers h (Nat.le_of_eq counts.1) (by
          intro other it
          cases other
          · contradiction
          · omega)
      split at ran
      · cases ran
        exact notify_sound h gives ‹_›
      · cases ran
        exact h

/- What the queue is for is not touched by the waiting. -/

omit [Fintype Task] in
@[simp] theorem wakeOne_items (side : QueueSide) (s : WaitingQueue Task α uxLength) :
    (s.wakeOne side).items = s.items := by
  unfold wakeOne
  split <;> rfl

omit [Fintype Task] in
@[simp] theorem unlock_items (side : QueueSide) (s : WaitingQueue Task α uxLength) :
    (s.unlock side).items = s.items := by
  have many (count : Nat) : ∀ s : WaitingQueue Task α uxLength,
      (wakeMany side count s).items = s.items := by
    induction count with
    | zero => exact fun _ => rfl
    | succ count ih =>
      intro s
      unfold wakeMany
      split
      · rfl
      · rw [ih, wakeOne_items]
  exact many _ s

theorem notify_items (told : s.notify side = some s') : s'.items = s.items := by
  unfold notify at told
  split at told
  · cases told
    exact wakeOne_items side s
  · obtain ⟨lock, _, rfl⟩ := Option.map_eq_some_iff.mp told
    rfl

/-- What a step makes of the items, by what it reports. -/
def ItemsBy (event : WaitingEvent α) (items items' : Queue α uxLength) : Prop :=
  match event with
  | .sent item => items.send item = some items'
  | .received item => items.receive = some (item, items')
  | _ => items' = items

omit [Fintype Task] in
theorem attempt_items (s : WaitingQueue Task α uxLength) (task : Task) (call : WaitingCall α) :
    ItemsBy (s.attempt task call).2 s.items (s.attempt task call).1.items := by
  unfold attempt
  dsimp only
  split
  · split
    · rename_i sent
      simpa [ItemsBy, move] using sent
    · split <;> rfl
  · split
    · rename_i received
      simpa [ItemsBy, move] using received
    · split <;> rfl

theorem step_items (uxPriority : Task → Nat) {action : WaitingAction Task α}
    {event : WaitingEvent α} (ran : s.step uxPriority action = some (s', event)) :
    ItemsBy event s.items s'.items := by
  cases action with
  | call task call =>
    simp only [step] at ran
    split at ran
    · cases ran
      rfl
    · contradiction
  | proceed task =>
    simp only [step, proceed] at ran
    split at ran
    · contradiction
    · split at ran
      · contradiction
      · contradiction
      · have items := attempt_items s task ‹_›
        rw [Option.some.inj ran] at items
        exact items
      · cases ran
        rfl
      · cases ran
        rfl
      · cases ran
        rfl
      · cases ran
        exact unlock_items _ _
      · cases ran
        exact unlock_items _ _
      · cases ran
        rfl
  | sendFromISR item =>
    simp only [step, sendFromISR, Option.some.injEq] at ran
    split at ran
    · cases ran
      rfl
    · rename_i sent
      split at ran
      · rename_i told
        cases ran
        simpa [ItemsBy, notify_items told] using sent
      · cases ran
        rfl
  | receiveFromISR =>
    simp only [step, receiveFromISR, Option.some.injEq] at ran
    split at ran
    · cases ran
      rfl
    · rename_i received
      split at ran
      · rename_i told
        cases ran
        simpa [ItemsBy, notify_items told] using received
      · cases ran
        rfl

/-- With so few tasks no lock count reaches its limit. -/
theorem notify_told (few : Fintype.card Task ≤ 127) (s : WaitingQueue Task α uxLength)
    (side : QueueSide) : ∃ s', s.notify side = some s' := by
  unfold notify
  split
  · exact ⟨_, rfl⟩
  · rename_i lock _
    have counts : ∃ lock', prvIncrementQueueLock (Fintype.card Task) lock = some lock' := by
      unfold prvIncrementQueueLock
      split
      · rw [if_neg (by omega)]
        exact ⟨_, rfl⟩
      · exact ⟨_, rfl⟩
    obtain ⟨lock', counted⟩ := counts
    exact ⟨_, by rw [counted]; rfl⟩

theorem step_asserts (uxPriority : Task → Nat) (few : Fintype.card Task ≤ 127)
    {action : WaitingAction Task α} {event : WaitingEvent α}
    (ran : s.step uxPriority action = some (s', event)) : event ≠ .assertFailed := by
  rintro rfl
  cases action with
  | call task call =>
    simp only [step] at ran
    split at ran <;> cases ran
  | proceed task =>
    simp only [step, proceed] at ran
    split at ran
    · contradiction
    · split at ran
      · contradiction
      · contradiction
      · unfold attempt at ran
        dsimp only at ran
        split at ran <;> split at ran
        · cases ran
        · split at ran <;> cases ran
        · cases ran
        · split at ran <;> cases ran
      all_goals cases ran
  | sendFromISR item =>
    simp only [step, sendFromISR, Option.some.injEq] at ran
    split at ran
    · cases ran
    · rename_i items _
      obtain ⟨told, notified⟩ := notify_told few { s with items := items } .receive
      rw [notified] at ran
      cases ran
  | receiveFromISR =>
    simp only [step, receiveFromISR, Option.some.injEq] at ran
    split at ran
    · cases ran
    · rename_i item items _
      obtain ⟨told, notified⟩ := notify_told few { s with items := items } .send
      rw [notified] at ran
      cases ran

omit [DecidableEq Task] [Fintype Task] in
theorem itemsBy_conserves {event : WaitingEvent α} {items items' : Queue α uxLength}
    {sent received : List α} (by' : ItemsBy event items items')
    (before : items.Conserves sent received) :
    items'.Conserves (sent ++ [event].filterMap WaitingEvent.sentItem)
      (received ++ [event].filterMap WaitingEvent.receivedItem) := by
  cases event with
  | sent item =>
    change items'.Conserves (sent ++ [item]) (received ++ [])
    rw [List.append_nil]
    exact Queue.conserves_send before by'
  | received item =>
    change items'.Conserves (sent ++ []) (received ++ [item])
    rw [List.append_nil]
    exact Queue.conserves_receive before by'
  | _ =>
    cases by'
    change items.Conserves (sent ++ []) (received ++ [])
    rw [List.append_nil, List.append_nil]
    exact before

/-- What holds after every run from the start. -/
structure Kept (s : WaitingQueue Task α uxLength) (past : List (WaitingEvent α)) : Prop where
  sound : s.Sound
  clean : Fintype.card Task ≤ 127 → .assertFailed ∉ past
  conserves : s.items.Conserves (past.filterMap WaitingEvent.sentItem)
    (past.filterMap WaitingEvent.receivedItem)

theorem kept_step (uxPriority : Task → Nat) (s : WaitingQueue Task α uxLength)
    (past : List (WaitingEvent α)) (action : WaitingAction Task α)
    (s' : WaitingQueue Task α uxLength) (event : WaitingEvent α) (kept : s.Kept past)
    (ran : s.step uxPriority action = some (s', event)) : s'.Kept (past ++ [event]) := by
  have items := step_items uxPriority ran
  constructor
  · exact step_sound uxPriority kept.sound ran
  · intro few
    rw [List.mem_append, not_or, List.mem_singleton]
    exact ⟨kept.clean few, (step_asserts uxPriority few ran).symm⟩
  · rw [List.filterMap_append, List.filterMap_append]
    exact itemsBy_conserves items kept.conserves

theorem run_keeps (uxPriority : Task → Nat) {actions : List (WaitingAction Task α)}
    {events : List (WaitingEvent α)}
    (ran : run (step uxPriority) (start Task α uxLength) actions = some (s, events)) :
    s.Kept events := by
  have initial : (start Task α uxLength).Kept [] := ⟨start_sound, fun _ => List.not_mem_nil, rfl⟩
  exact run_kept (kept_step uxPriority) initial ran

/-- What an event is for the queue alone, and what was taken out. -/
def operation : WaitingEvent α → Option (QueueOp α)
  | .sent item => some (.send item)
  | .received _ => some .receive
  | _ => none

def taken : WaitingEvent α → Option (Option α)
  | .sent _ => some none
  | .received item => some (some item)
  | _ => none

/-- Every run, with all its waiting, is for the queue one of operations that take effect at
once, each in the critical section that reports it. -/
theorem run_operations (uxPriority : Task → Nat) {actions : List (WaitingAction Task α)}
    {events : List (WaitingEvent α)}
    (ran : run (step uxPriority) (start Task α uxLength) actions = some (s, events)) :
    run Queue.perform (.empty : Queue α uxLength) (events.filterMap operation) =
      some (s.items, events.filterMap taken) := by
  have initial : run Queue.perform (.empty : Queue α uxLength)
      (([] : List (WaitingEvent α)).filterMap operation) =
      some ((start Task α uxLength).items, ([] : List (WaitingEvent α)).filterMap taken) := rfl
  refine run_kept (I := fun s past => run Queue.perform (.empty : Queue α uxLength)
    (past.filterMap operation) = some (s.items, past.filterMap taken)) ?_ initial ran
  intro s past action s' event before one
  have by' := step_items uxPriority one
  rw [List.filterMap_append, List.filterMap_append]
  cases event with
  | sent item =>
    have performed : s.items.perform (.send item) = some (s'.items, none) := by
      rw [Queue.perform, by', Option.map_some]
    exact run_snoc before performed
  | received item =>
    have performed : s.items.perform .receive = some (s'.items, some item) := by
      rw [Queue.perform, by', Option.map_some]
    exact run_snoc before performed
  | _ =>
    have same : s'.items = s.items := by'
    rw [same, run_append before]
    rfl

/-- Whoever runs and is interrupted wherever: items arrive in the order in which they were
sent, no count overflows, and while the queue is not locked and a task waits, at least as many
tasks as there is something for are awake and will try to take it. -/
theorem no_lost_wakeup (uxPriority : Task → Nat) (few : Fintype.card Task ≤ 127)
    (actions : List (WaitingAction Task α)) {events : List (WaitingEvent α)}
    (ran : run (step uxPriority) (start Task α uxLength) actions = some (s, events)) :
    .assertFailed ∉ events ∧
      events.filterMap WaitingEvent.sentItem =
        events.filterMap WaitingEvent.receivedItem ++ s.items.items ∧
      ∀ side, s.uxSchedulerSuspended = none → s.xTasksWaiting side ≠ [] →
        s.available side ≤ total (heedful side) s.point := by
  have kept := run_keeps uxPriority ran
  refine ⟨kept.clean few, kept.conserves, ?_⟩
  intro side free waiting
  have told : s.untold side = 0 := by
    rw [untold, free_unlocked kept.sound free, Option.getD_none]
  have someone : 0 < Fintype.card Task := by
    obtain ⟨task, _⟩ := List.exists_mem_of_ne_nil _ waiting
    exact Fintype.card_pos_iff.mpr ⟨task⟩
  rcases kept.sound.heeded side waiting with few | many <;> omega

/-- A receiver sleeps. Another finds the queue empty, and an item arrives before it is in the
list: the unlocking wakes the first, of higher priority, and the second sleeps. -/
def overtaken : List (WaitingAction (Fin 2) UInt8) :=
  [.call 1 (.xQueueReceive true), .proceed 1, .proceed 1, .proceed 1, .proceed 1, .proceed 1,
    .proceed 1, .proceed 1, .call 0 (.xQueueReceive true), .proceed 0, .proceed 0, .proceed 0,
    .sendFromISR 7, .proceed 0, .proceed 0, .proceed 0, .proceed 0]

theorem no_lost_wakeup_overtaken :
    ∃ s events, run (step fun task => task.val) (start (Fin 2) UInt8 1) overtaken = some (s, events) ∧
      (s.uxSchedulerSuspended = none ∧ s.xTasksWaiting .receive = [0] ∧ s.available .receive = 1) ∧
      .assertFailed ∉ events ∧
      events.filterMap WaitingEvent.sentItem =
        events.filterMap WaitingEvent.receivedItem ++ s.items.items ∧
      ∀ side, s.uxSchedulerSuspended = none → s.xTasksWaiting side ≠ [] →
        s.available side ≤ total (heedful side) s.point :=
  ⟨_, _, rfl, ⟨rfl, rfl, rfl⟩, no_lost_wakeup (fun task => task.val) (by decide) overtaken rfl⟩

end WaitingQueue

end CommandBox
