import CommandBox.KernelTasks

/-! What the lists of the kernel keep. A task is ready or it waits, never both; the bitmap of
the ready priorities is right; the task that runs is ready unless it is on its way out. -/
namespace CommandBox

theorem record_bit {p : Nat} (small : p < 32) (q : Nat) (b : BitVec 32) :
    (portRECORD_READY_PRIORITY p b).getLsbD q = (decide (q = p) || b.getLsbD q) := by
  rw [portRECORD_READY_PRIORITY, ← BitVec.twoPow_eq, BitVec.getLsbD_or, BitVec.getLsbD_twoPow]
  simp only [small, decide_true, Bool.true_and, Bool.or_comm, eq_comm]

theorem reset_bit {p : Nat} (small : p < 32) (q : Nat) (b : BitVec 32) :
    (portRESET_READY_PRIORITY p b).getLsbD q = (decide (q ≠ p) && b.getLsbD q) := by
  rw [portRESET_READY_PRIORITY, ← BitVec.twoPow_eq, BitVec.getLsbD_and, BitVec.getLsbD_not,
    BitVec.getLsbD_twoPow]
  by_cases inside : q < 32
  · simp only [inside, small, decide_true, Bool.true_and, eq_comm, decide_not, Bool.and_comm]
  · have out : b.getLsbD q = false := BitVec.getLsbD_of_ge b q (Nat.le_of_not_lt inside)
    simp only [out, Bool.false_and, Bool.and_false]

/-- Counting the leading zeros finds the highest bit. -/
theorem highest_bit {b : BitVec 32} {p : Nat} (set : b.getLsbD p = true) :
    b.getLsbD (portGET_HIGHEST_PRIORITY b) = true ∧ p ≤ portGET_HIGHEST_PRIORITY b := by
  have nonzero : b ≠ 0#32 := by
    rintro rfl
    simp at set
  have few : b.clz.toNat < 32 := BitVec.lt_def.mp (BitVec.clz_lt_iff_ne_zero.mpr nonzero)
  have value : portGET_HIGHEST_PRIORITY b = 31 - b.clz.toNat := by
    rw [portGET_HIGHEST_PRIORITY, BitVec.toNat_sub_of_le (BitVec.le_def.mpr (Nat.le_of_lt_succ few))]
    rfl
  rw [value]
  refine ⟨BitVec.getLsbD_true_clz_of_ne_zero (by decide) nonzero, ?_⟩
  have low : 2 ^ p ≤ b.toNat := Nat.ge_two_pow_of_testBit set
  have high : b.toNat < 2 ^ (32 - b.clz.toNat) := BitVec.toNat_lt_two_pow_sub_clz
  have below : p < 32 - b.clz.toNat :=
    (Nat.pow_lt_pow_iff_right (by decide)).mp (Nat.lt_of_le_of_lt low high)
  omega

theorem insert_sorted_perm {Task : Type} (item : Task × UInt32) (pxList : List (Task × UInt32)) :
    (vListInsert item pxList).Perm (item :: pxList) := by
  unfold vListInsert
  split
  · exact List.perm_append_singleton _ _
  · exact Alarm.place_perm _ _

section Ring

variable {Task : Type}

theorem insert_perm (task : Task) (ring : List (Option Task)) :
    (listINSERT_END task ring).Perm (some task :: ring) := by
  unfold listINSERT_END
  cases last : ring.getLast? with
  | none =>
    rw [List.getLast?_eq_none_iff.mp last]
    exact .refl _
  | some index =>
    have whole : ring.dropLast ++ [index] = ring := List.dropLast_append_getLast? index last
    rw [Option.toList_some]
    exact List.perm_middle.trans (.cons _ (.of_eq whole))

theorem next_perm (ring : List (Option Task)) :
    (listGET_OWNER_OF_NEXT_ENTRY ring).1.Perm ring := by
  unfold listGET_OWNER_OF_NEXT_ENTRY
  split
  · exact List.perm_append_comm
  · exact List.perm_append_comm
  · exact .refl _

theorem next_inside {ring : List (Option Task)} {task : Task}
    (owner : (listGET_OWNER_OF_NEXT_ENTRY ring).2 = some task) : some task ∈ ring := by
  unfold listGET_OWNER_OF_NEXT_ENTRY at owner
  split at owner
  · exact owner ▸ List.mem_cons_of_mem _ List.mem_cons_self
  · exact owner ▸ List.mem_cons_self
  · contradiction

/-- The end marker and each task of the list, once. -/
def RingOf (ring : List (Option Task)) : Prop := none ∈ ring ∧ ring.Nodup

theorem RingOf.next {ring : List (Option Task)} (h : RingOf ring) {other : Task}
    (inside : some other ∈ ring) : ∃ task, (listGET_OWNER_OF_NEXT_ENTRY ring).2 = some task := by
  match ring, h, inside with
  | [], _, inside => exact absurd inside List.not_mem_nil
  | [none], _, inside => exact absurd (List.mem_singleton.mp inside) (Option.some_ne_none other)
  | none :: none :: _, h, _ => exact absurd List.mem_cons_self (List.nodup_cons.mp h.2).1
  | none :: some task :: _, _, _ => exact ⟨task, rfl⟩
  | some task :: _, _, _ => exact ⟨task, rfl⟩

theorem RingOf.length_zero {ring : List (Option Task)} (h : RingOf ring) :
    listCURRENT_LIST_LENGTH ring = 0 ↔ ∀ task, some task ∉ ring := by
  obtain ⟨marker, unique⟩ := h
  unfold listCURRENT_LIST_LENGTH
  cases ring with
  | nil => exact absurd marker List.not_mem_nil
  | cons item rest =>
    rw [List.length_cons, Nat.add_sub_cancel, List.length_eq_zero_iff]
    constructor
    · rintro rfl task inside
      have same : some task = none :=
        (List.mem_singleton.mp inside).trans (List.mem_singleton.mp marker).symm
      exact Option.some_ne_none task same
    · intro nobody
      refine List.eq_nil_iff_forall_not_mem.mpr fun other inside => ?_
      cases other with
      | some task => exact nobody task (List.mem_cons_of_mem _ inside)
      | none =>
        cases item with
        | some task => exact nobody task List.mem_cons_self
        | none => exact (List.nodup_cons.mp unique).1 inside

end Ring

namespace Kernel

variable {Task Event : Type} [DecidableEq Task] (uxPriority : Task → Fin configMAX_PRIORITIES)

def Ready (s : Kernel Task Event) (task : Task) : Prop :=
  some task ∈ s.pxReadyTasksLists (uxPriority task)

/-- The tasks in the Blocked and the Suspended state. -/
def blockedTasks (s : Kernel Task Event) : List Task :=
  s.pxDelayedTaskList.map Prod.fst ++ s.pxOverflowDelayedTaskList.map Prod.fst ++
    s.xSuspendedTaskList

structure Lists (s : Kernel Task Event) : Prop where
  ring : ∀ p, RingOf (s.pxReadyTasksLists p)
  level : ∀ p task, some task ∈ s.pxReadyTasksLists p → p = uxPriority task
  bits : ∀ p, s.uxTopReadyPriority.getLsbD p = true ↔ ∃ task, some task ∈ s.pxReadyTasksLists p
  unique : s.blockedTasks.Nodup
  apart : ∀ task ∈ s.blockedTasks, ¬ s.Ready uxPriority task
  waiting : ∀ event, ∀ item ∈ s.xEventLists event,
    item.1 ∈ s.blockedTasks ∧ item.1 ∉ s.xPendingReadyList
  pending : ∀ task ∈ s.xPendingReadyList, task ∈ s.blockedTasks
  once : s.xPendingReadyList.Nodup

omit [DecidableEq Task] in
theorem small_priority (task : Task) : (uxPriority task : Nat) < 32 :=
  Nat.lt_trans (uxPriority task).isLt (by decide)

/-- A task leaves all lists of waiting tasks and becomes ready. -/
def release (task : Task) (s : Kernel Task Event) : Kernel Task Event :=
  prvAddTaskToReadyList uxPriority task (removeStateItem task (removeEventItem task s))

omit [DecidableEq Task] in
theorem mem_add {s : Kernel Task Event} {task other : Task} {p : Nat} :
    some other ∈ (prvAddTaskToReadyList uxPriority task s).pxReadyTasksLists p ↔
      p = uxPriority task ∧ other = task ∨ some other ∈ s.pxReadyTasksLists p := by
  show some other ∈ Function.update s.pxReadyTasksLists _ _ p ↔ _
  by_cases same : p = uxPriority task
  · subst same
    rw [Function.update_self, (insert_perm _ _).mem_iff, List.mem_cons, Option.some.injEq]
    simp only [true_and]
  · rw [Function.update_of_ne same]
    simp only [same, false_and, false_or]

theorem filter_fst {κ : Type} (task : Task) (items : List (Task × κ)) :
    (items.filter fun item => item.1 ≠ task).map Prod.fst =
      (items.map Prod.fst).filter fun other => other ≠ task := by
  rw [List.filter_map]
  rfl

theorem blocked_forget (s : Kernel Task Event) (task : Task) :
    (removeStateItem task (removeEventItem task s)).blockedTasks =
      s.blockedTasks.filter fun other => other ≠ task := by
  simp only [blockedTasks, List.filter_append, ← filter_fst]
  rfl

omit [DecidableEq Task] in
theorem ready_add {s : Kernel Task Event} {task other : Task} :
    (prvAddTaskToReadyList uxPriority task s).Ready uxPriority other ↔
      other = task ∨ s.Ready uxPriority other := by
  unfold Ready
  rw [mem_add]
  constructor
  · rintro (⟨_, same⟩ | before)
    · exact .inl same
    · exact .inr before
  · rintro (rfl | before)
    · exact .inl ⟨rfl, rfl⟩
    · exact .inr before

omit [DecidableEq Task] in
theorem Lists.add {s : Kernel Task Event} (h : Lists uxPriority s) {task : Task}
    (unready : ¬ s.Ready uxPriority task) (free : task ∉ s.blockedTasks) :
    Lists uxPriority (prvAddTaskToReadyList uxPriority task s) where
  ring p := by
    obtain ⟨marker, unique⟩ := h.ring p
    show RingOf (Function.update s.pxReadyTasksLists _ _ p)
    by_cases same : p = uxPriority task
    · subst same
      rw [Function.update_self]
      have order := insert_perm task (s.pxReadyTasksLists (uxPriority task))
      refine ⟨order.mem_iff.mpr (List.mem_cons_of_mem _ marker), order.nodup_iff.mpr ?_⟩
      exact List.nodup_cons.mpr ⟨unready, unique⟩
    · rw [Function.update_of_ne same]
      exact ⟨marker, unique⟩
  level p other inside := by
    rcases (mem_add uxPriority).mp inside with ⟨here, rfl⟩ | before
    · exact here
    · exact h.level p other before
  bits p := by
    show (portRECORD_READY_PRIORITY _ _).getLsbD p = true ↔ _
    rw [record_bit (small_priority uxPriority task), Bool.or_eq_true, decide_eq_true_iff]
    constructor
    · rintro (rfl | before)
      · exact ⟨task, (mem_add uxPriority).mpr (.inl ⟨rfl, rfl⟩)⟩
      · obtain ⟨other, inside⟩ := (h.bits p).mp before
        exact ⟨other, (mem_add uxPriority).mpr (.inr inside)⟩
    · rintro ⟨other, inside⟩
      rcases (mem_add uxPriority).mp inside with ⟨here, _⟩ | before
      · exact .inl here
      · exact .inr ((h.bits p).mpr ⟨other, before⟩)
  unique := h.unique
  apart other inside := by
    rw [ready_add]
    rintro (rfl | ready)
    · exact free inside
    · exact h.apart other inside ready
  waiting := h.waiting
  pending := h.pending
  once := h.once

theorem Lists.forget {s : Kernel Task Event} (h : Lists uxPriority s) (task : Task) :
    Lists uxPriority (removeStateItem task (removeEventItem task s)) where
  ring := h.ring
  level := h.level
  bits := h.bits
  unique := by
    rw [blocked_forget]
    exact h.unique.filter _
  apart other inside := by
    rw [blocked_forget] at inside
    exact h.apart other (List.mem_of_mem_filter inside)
  waiting event item inside := by
    obtain ⟨before, other⟩ := List.mem_filter.mp inside
    obtain ⟨blocked, free⟩ := h.waiting event item before
    rw [blocked_forget]
    exact ⟨List.mem_filter.mpr ⟨blocked, other⟩, fun there => free (List.mem_of_mem_filter there)⟩
  pending other inside := by
    obtain ⟨before, differs⟩ := List.mem_filter.mp inside
    rw [blocked_forget]
    exact List.mem_filter.mpr ⟨h.pending other before, differs⟩
  once := h.once.filter _

theorem ready_release {s : Kernel Task Event} {task other : Task} :
    (release uxPriority task s).Ready uxPriority other ↔
      other = task ∨ s.Ready uxPriority other := ready_add uxPriority

theorem blocked_release (s : Kernel Task Event) (task : Task) :
    (release uxPriority task s).blockedTasks = s.blockedTasks.filter fun other => other ≠ task :=
  blocked_forget s task

theorem Lists.release {s : Kernel Task Event} (h : Lists uxPriority s) {task : Task}
    (blocked : task ∈ s.blockedTasks) : Lists uxPriority (release uxPriority task s) := by
  refine (h.forget uxPriority task).add uxPriority (h.apart task blocked) ?_
  rw [blocked_forget, List.mem_filter, decide_eq_true_iff]
  exact fun inside => inside.2 rfl

/-- What the lists have no part in. -/
structure Frame (s s' : Kernel Task Event) : Prop where
  xTickCount : s'.xTickCount = s.xTickCount
  xNumOfOverflows : s'.xNumOfOverflows = s.xNumOfOverflows
  pxCurrentTCB : s'.pxCurrentTCB = s.pxCurrentTCB
  uxSchedulerSuspended : s'.uxSchedulerSuspended = s.uxSchedulerSuspended
  xPendedTicks : s'.xPendedTicks = s.xPendedTicks
  xYieldPending : s'.xYieldPending = s.xYieldPending
  pendSV : s'.pendSV = s.pendSV
  point : s'.point = s.point
  pxPreviousWakeTime : s'.pxPreviousWakeTime = s.pxPreviousWakeTime

def releaseAll (tasks : List Task) (s : Kernel Task Event) : Kernel Task Event :=
  tasks.foldl (fun s task => release uxPriority task s) s

variable {uxPriority}

variable (uxPriority) in
theorem frame_releaseAll (tasks : List Task) (s : Kernel Task Event) :
    Frame s (releaseAll uxPriority tasks s) := by
  induction tasks generalizing s with
  | nil => exact ⟨rfl, rfl, rfl, rfl, rfl, rfl, rfl, rfl, rfl⟩
  | cons task rest ih =>
    obtain ⟨a, b, c, d, e, f, g, h, i⟩ := ih (release uxPriority task s)
    exact ⟨a, b, c, d, e, f, g, h, i⟩

theorem ready_releaseAll {tasks : List Task} {s : Kernel Task Event} {other : Task} :
    (releaseAll uxPriority tasks s).Ready uxPriority other ↔
      other ∈ tasks ∨ s.Ready uxPriority other := by
  induction tasks generalizing s with
  | nil => simp [releaseAll]
  | cons task rest ih =>
    show (releaseAll uxPriority rest (release uxPriority task s)).Ready uxPriority other ↔ _
    rw [ih, ready_release, List.mem_cons]
    tauto

theorem blocked_releaseAll (tasks : List Task) (s : Kernel Task Event) :
    (releaseAll uxPriority tasks s).blockedTasks =
      s.blockedTasks.filter fun other => other ∉ tasks := by
  induction tasks generalizing s with
  | nil => simp [releaseAll]
  | cons task rest ih =>
    show (releaseAll uxPriority rest (release uxPriority task s)).blockedTasks = _
    rw [ih, blocked_release, List.filter_filter]
    refine List.filter_congr fun other _ => ?_
    simp only [List.mem_cons, not_or, ne_eq, Bool.decide_and, Bool.and_comm]

theorem Lists.releaseAll {s : Kernel Task Event} (h : Lists uxPriority s) {tasks : List Task}
    (unique : tasks.Nodup) (blocked : ∀ task ∈ tasks, task ∈ s.blockedTasks) :
    Lists uxPriority (releaseAll uxPriority tasks s) := by
  induction tasks generalizing s with
  | nil => exact h
  | cons task rest ih =>
    obtain ⟨apart, tail⟩ := List.nodup_cons.mp unique
    refine ih (h.release uxPriority (blocked task List.mem_cons_self)) tail fun other inside => ?_
    rw [blocked_release]
    refine List.mem_filter.mpr ⟨blocked other (List.mem_cons_of_mem _ inside), ?_⟩
    exact decide_eq_true fun same => apart (same ▸ inside)

theorem filter_apart {α : Type} (name : α → Task) (task : Task) (rest : List Task)
    (items : List α) :
    (items.filter fun item => name item ≠ task).filter (fun item => name item ∉ rest) =
      items.filter fun item => name item ∉ task :: rest := by
  rw [List.filter_filter]
  refine List.filter_congr fun other _ => ?_
  simp only [List.mem_cons, not_or, ne_eq, Bool.decide_and, Bool.and_comm]

variable (uxPriority) in
theorem delayed_releaseAll (tasks : List Task) (s : Kernel Task Event) :
    (releaseAll uxPriority tasks s).pxDelayedTaskList =
        s.pxDelayedTaskList.filter (fun item => item.1 ∉ tasks) ∧
      (releaseAll uxPriority tasks s).pxOverflowDelayedTaskList =
        s.pxOverflowDelayedTaskList.filter fun item => item.1 ∉ tasks := by
  induction tasks generalizing s with
  | nil => simp [releaseAll]
  | cons task rest ih =>
    obtain ⟨delayed, overflow⟩ := ih (release uxPriority task s)
    exact ⟨delayed.trans (filter_apart Prod.fst task rest _),
      overflow.trans (filter_apart Prod.fst task rest _)⟩

variable (uxPriority) in
theorem waiting_releaseAll (tasks : List Task) (s : Kernel Task Event) :
    (releaseAll uxPriority tasks s).xPendingReadyList =
        s.xPendingReadyList.filter (fun other => other ∉ tasks) ∧
      ∀ event, (releaseAll uxPriority tasks s).xEventLists event =
        (s.xEventLists event).filter fun item => item.1 ∉ tasks := by
  induction tasks generalizing s with
  | nil => simp [releaseAll]
  | cons task rest ih =>
    obtain ⟨pending, waiting⟩ := ih (release uxPriority task s)
    exact ⟨pending.trans (filter_apart id task rest _),
      fun event => (waiting event).trans (filter_apart Prod.fst task rest _)⟩

/-- The task in front of the delayed tasks is in no other list of blocked tasks. -/
theorem release_first {s : Kernel Task Event} (h : Lists uxPriority s) {task : Task}
    {value : UInt32} {rest : List (Task × UInt32)}
    (first : s.pxDelayedTaskList = (task, value) :: rest) :
    prvAddTaskToReadyList uxPriority task
        (removeEventItem task { s with pxDelayedTaskList := rest }) =
      release uxPriority task s := by
  have unique := h.unique
  rw [blockedTasks, first, List.map_cons, List.append_assoc, List.cons_append,
    List.nodup_cons, List.mem_append, List.mem_append, not_or, not_or] at unique
  obtain ⟨⟨here, overflow, suspended⟩, _⟩ := unique
  have delayedRest : s.pxDelayedTaskList.filter (fun item => item.1 ≠ task) = rest := by
    rw [first, List.filter_cons_of_neg (by simp)]
    refine List.filter_eq_self.mpr fun item inside => decide_eq_true fun same => here ?_
    exact List.mem_map.mpr ⟨item, inside, same⟩
  have overflowAll : s.pxOverflowDelayedTaskList.filter (fun item => item.1 ≠ task) =
      s.pxOverflowDelayedTaskList := by
    refine List.filter_eq_self.mpr fun item inside => decide_eq_true fun same => overflow ?_
    exact List.mem_map.mpr ⟨item, inside, same⟩
  have suspendedAll : s.xSuspendedTaskList.filter (fun other => other ≠ task) =
      s.xSuspendedTaskList :=
    List.filter_eq_self.mpr fun other inside =>
      decide_eq_true fun same => suspended (same ▸ inside)
  simp only [release, removeStateItem, removeEventItem, delayedRest, overflowAll, suspendedAll]

/-- All that the loop of `xTaskIncrementTick` does: it takes tasks from the front while their
time has come. -/
theorem unblock_cases {s : Kernel Task Event} (h : Lists uxPriority s)
    {items : List (Task × UInt32)} (all : s.pxDelayedTaskList = items) :
    ∃ expired rest next, items = expired ++ rest ∧
      unblockTasks uxPriority items s =
        ({ releaseAll uxPriority (expired.map Prod.fst) s with xNextTaskUnblockTime := next },
          expired.any fun item => decide (uxPriority s.pxCurrentTCB < uxPriority item.1),
          expired.map fun item => .timedOut item.1) ∧
      (∀ item ∈ expired, ¬ s.xTickCount < item.2) ∧
      ∀ item ∈ rest.head?, s.xTickCount < item.2 ∧ next = item.2 := by
  induction items generalizing s with
  | nil =>
    have same : { s with pxDelayedTaskList := [], xNextTaskUnblockTime := portMAX_DELAY } =
        { s with xNextTaskUnblockTime := portMAX_DELAY } := by rw [← all]
    exact ⟨[], [], portMAX_DELAY, rfl, by rw [unblockTasks, same]; rfl, by simp, by simp⟩
  | cons item rest ih =>
    obtain ⟨task, value⟩ := item
    unfold unblockTasks
    by_cases early : s.xTickCount < value
    · refine ⟨[], (task, value) :: rest, value, rfl, ?_, by simp, ?_⟩
      · rw [if_pos early, ← all]
        rfl
      · intro item inside
        cases inside
        exact ⟨early, rfl⟩
    · have moved := release_first h all
      have blocked : task ∈ s.blockedTasks := by
        simp only [blockedTasks, all, List.map_cons, List.cons_append, List.mem_cons, true_or]
      have delayed : (release uxPriority task s).pxDelayedTaskList = rest := by rw [← moved]; rfl
      obtain ⟨expired, left, next, parts, turn, due, stop⟩ := ih (h.release uxPriority blocked) delayed
      refine ⟨(task, value) :: expired, left, next, by rw [parts, List.cons_append], ?_, ?_, stop⟩
      · rw [if_neg early]
        simp only [moved, turn]
        rfl
      · intro item inside
        rcases List.mem_cons.mp inside with rfl | later
        · exact early
        · exact due item later

theorem releaseAll_yield (tasks : List Task) (s : Kernel Task Event) (flag : Bool) :
    releaseAll uxPriority tasks { s with xYieldPending := flag } =
      { releaseAll uxPriority tasks s with xYieldPending := flag } := by
  induction tasks generalizing s with
  | nil => rfl
  | cons task rest ih => exact ih (release uxPriority task s)

/-- All that the loop over `xPendingReadyList` does. -/
theorem pending_cases {s : Kernel Task Event} (h : Lists uxPriority s) {tasks : List Task}
    (all : s.xPendingReadyList = tasks) :
    readyPendingTasks uxPriority tasks s =
      ({ releaseAll uxPriority tasks s with
          xYieldPending := s.xYieldPending ||
            tasks.any fun task => decide (uxPriority s.pxCurrentTCB < uxPriority task) },
        tasks.map .readied) := by
  induction tasks generalizing s with
  | nil => simp [readyPendingTasks, releaseAll]
  | cons task rest ih =>
    have inside : task ∈ s.xPendingReadyList := all ▸ List.mem_cons_self
    have apart : task ∉ rest := (List.nodup_cons.mp (all ▸ h.once)).1
    have pendingRest : s.xPendingReadyList.filter (fun other => other ≠ task) = rest := by
      rw [all, List.filter_cons_of_neg (by simp)]
      exact List.filter_eq_self.mpr fun other there =>
        decide_eq_true fun same => apart (same ▸ there)
    have waitingAll : (fun event => (s.xEventLists event).filter fun item => item.1 ≠ task) =
        s.xEventLists := by
      funext event
      refine List.filter_eq_self.mpr fun item there => decide_eq_true fun same => ?_
      exact (h.waiting event item there).2 (same ▸ inside)
    have moved : { s with xPendingReadyList := rest } = removeEventItem task s := by
      simp only [removeEventItem, pendingRest, waitingAll]
    have kept := h.release uxPriority (h.pending task inside)
    rw [readyPendingTasks, moved]
    have later := @ih
      { release uxPriority task s with
        xYieldPending := s.xYieldPending || decide (uxPriority s.pxCurrentTCB < uxPriority task) }
      ⟨kept.ring, kept.level, kept.bits, kept.unique, kept.apart, kept.waiting, kept.pending, kept.once⟩
      pendingRest
    rw [releaseAll_yield] at later
    simp only [release] at later
    simp only [later, List.any_cons, Bool.or_assoc, List.map_cons]
    rfl

theorem readyPending_cases {s : Kernel Task Event} (h : Lists uxPriority s) :
    ∃ next, readyPending uxPriority s =
        ({ releaseAll uxPriority s.xPendingReadyList s with
            xNextTaskUnblockTime := next
            xYieldPending := s.xYieldPending ||
              s.xPendingReadyList.any fun task =>
                decide (uxPriority s.pxCurrentTCB < uxPriority task) },
          s.xPendingReadyList.map .readied) ∧
      (s.xPendingReadyList = [] ∧ next = s.xNextTaskUnblockTime ∨
        next = ((releaseAll uxPriority s.xPendingReadyList s).pxDelayedTaskList.head?.map
          Prod.snd).getD portMAX_DELAY) := by
  unfold readyPending
  rw [pending_cases h rfl]
  cases pending : s.xPendingReadyList with
  | nil => exact ⟨s.xNextTaskUnblockTime, rfl, .inl ⟨rfl, rfl⟩⟩
  | cons task rest => exact ⟨_, rfl, .inr rfl⟩

omit [DecidableEq Task] in
/-- Tasks that are not ready go into the lists of blocked tasks. -/
theorem Lists.block {s s' : Kernel Task Event} (h : Lists uxPriority s) (new : List Task)
    (unique : (new ++ s.blockedTasks).Nodup) (unready : ∀ task ∈ new, ¬ s.Ready uxPriority task)
    (rings : s'.pxReadyTasksLists = s.pxReadyTasksLists)
    (bits : s'.uxTopReadyPriority = s.uxTopReadyPriority)
    (blocked : s'.blockedTasks.Perm (new ++ s.blockedTasks))
    (events : s'.xEventLists = s.xEventLists)
    (pending : s'.xPendingReadyList = s.xPendingReadyList) : Lists uxPriority s' where
  ring p := rings ▸ h.ring p
  level p task inside := h.level p task (rings ▸ inside)
  bits p := by rw [bits, rings, h.bits]
  unique := blocked.nodup_iff.mpr unique
  apart other inside := by
    rw [Ready, rings]
    rcases List.mem_append.mp (blocked.mem_iff.mp inside) with added | before
    · exact unready other added
    · exact h.apart other before
  waiting event item inside := by
    obtain ⟨before, free⟩ := h.waiting event item (events ▸ inside)
    exact ⟨blocked.mem_iff.mpr (List.mem_append_right _ before), pending ▸ free⟩
  pending other inside :=
    blocked.mem_iff.mpr (List.mem_append_right _ (h.pending other (pending ▸ inside)))
  once := pending ▸ h.once

omit [DecidableEq Task] in
theorem Lists.same {s s' : Kernel Task Event} (h : Lists uxPriority s)
    (rings : s'.pxReadyTasksLists = s.pxReadyTasksLists)
    (bits : s'.uxTopReadyPriority = s.uxTopReadyPriority)
    (blocked : s'.blockedTasks.Perm s.blockedTasks) (events : s'.xEventLists = s.xEventLists)
    (pending : s'.xPendingReadyList = s.xPendingReadyList) : Lists uxPriority s' :=
  h.block [] h.unique (fun _ inside => absurd inside List.not_mem_nil) rings bits blocked
    events pending

theorem mem_remove {s : Kernel Task Event} (h : Lists uxPriority s) {task other : Task} {p : Nat} :
    some other ∈ (removeFromReadyList uxPriority task s).pxReadyTasksLists p ↔
      other ≠ task ∧ some other ∈ s.pxReadyTasksLists p := by
  show some other ∈ Function.update s.pxReadyTasksLists _ _ p ↔ _
  by_cases same : p = uxPriority task
  · subst same
    rw [Function.update_self, listREMOVE_ITEM, (h.ring _).2.mem_erase_iff, ne_eq, Option.some.injEq]
  · rw [Function.update_of_ne same]
    refine ⟨fun inside => ⟨?_, inside⟩, And.right⟩
    rintro rfl
    exact same (h.level p other inside)

theorem ready_remove {s : Kernel Task Event} (h : Lists uxPriority s) {task other : Task} :
    (removeFromReadyList uxPriority task s).Ready uxPriority other ↔
      other ≠ task ∧ s.Ready uxPriority other := mem_remove h

theorem Lists.remove {s : Kernel Task Event} (h : Lists uxPriority s) (task : Task) :
    Lists uxPriority (removeFromReadyList uxPriority task s) := by
  have ring : ∀ p, RingOf ((removeFromReadyList uxPriority task s).pxReadyTasksLists p) := by
    intro p
    obtain ⟨marker, unique⟩ := h.ring p
    show RingOf (Function.update s.pxReadyTasksLists _ _ p)
    by_cases same : p = uxPriority task
    · subst same
      rw [Function.update_self]
      exact ⟨unique.mem_erase_iff.mpr ⟨(Option.some_ne_none task).symm, marker⟩, unique.erase _⟩
    · rw [Function.update_of_ne same]
      exact ⟨marker, unique⟩
  refine ⟨ring, fun p other inside => h.level p other ((mem_remove h).mp inside).2, fun p => ?_,
    h.unique, fun other blocked ready => h.apart other blocked ((ready_remove h).mp ready).2,
    h.waiting, h.pending, h.once⟩
  -- the bit of the priority is reset with the last task of its list
  have removed : (removeFromReadyList uxPriority task s).pxReadyTasksLists (uxPriority task) =
      listREMOVE_ITEM task (s.pxReadyTasksLists (uxPriority task)) := Function.update_self _ _ _
  have others : p ≠ uxPriority task →
      ((∃ other, some other ∈ (removeFromReadyList uxPriority task s).pxReadyTasksLists p) ↔
        ∃ other, some other ∈ s.pxReadyTasksLists p) := by
    intro differs
    have kept : (removeFromReadyList uxPriority task s).pxReadyTasksLists p =
        s.pxReadyTasksLists p := Function.update_of_ne differs _ _
    rw [kept]
  show (if _ = 0 then _ else _ : BitVec 32).getLsbD p = true ↔ _
  rw [← removed]
  by_cases empty : listCURRENT_LIST_LENGTH
      ((removeFromReadyList uxPriority task s).pxReadyTasksLists (uxPriority task)) = 0
  · rw [if_pos empty, reset_bit (small_priority uxPriority task), Bool.and_eq_true, decide_eq_true_iff]
    by_cases same : p = uxPriority task
    · subst same
      have nobody := (ring _).length_zero.mp empty
      exact ⟨fun both => absurd rfl both.1, fun ⟨other, inside⟩ => absurd inside (nobody other)⟩
    · rw [others same, h.bits]
      exact ⟨And.right, fun some => ⟨same, some⟩⟩
  · rw [if_neg empty, h.bits]
    by_cases same : p = uxPriority task
    · subst same
      have somebody : ∃ other, some other ∈
          (removeFromReadyList uxPriority task s).pxReadyTasksLists (uxPriority task) := by
        by_contra nobody
        exact empty ((ring _).length_zero.mpr fun other inside => nobody ⟨other, inside⟩)
      obtain ⟨other, inside⟩ := somebody
      exact ⟨fun _ => ⟨other, inside⟩, fun _ => ⟨other, ((mem_remove h).mp inside).2⟩⟩
    · exact (others same).symm

variable (uxPriority) in
/-- What it is for the running task to go into a list of blocked tasks. -/
structure Parked (s s' : Kernel Task Event) : Prop where
  lists : Lists uxPriority s'
  frame : Frame s s'
  ready : ∀ task, s'.Ready uxPriority task ↔ task ≠ s.pxCurrentTCB ∧ s.Ready uxPriority task
  blocked : s'.blockedTasks.Perm (s.pxCurrentTCB :: s.blockedTasks)
  events : s'.xEventLists = s.xEventLists
  pending : s'.xPendingReadyList = s.xPendingReadyList

theorem parked {s : Kernel Task Event} (h : Lists uxPriority s)
    (ready : s.Ready uxPriority s.pxCurrentTCB) (xTicksToWait : UInt32) (indefinitely : Bool) :
    Parked uxPriority s
      (prvAddCurrentTaskToDelayedList uxPriority xTicksToWait indefinitely s).1 := by
  have fresh : s.pxCurrentTCB ∉ s.blockedTasks := fun inside => h.apart _ inside ready
  have removed := h.remove s.pxCurrentTCB
  have gone : ¬ (removeFromReadyList uxPriority s.pxCurrentTCB s).Ready uxPriority s.pxCurrentTCB :=
    fun still => ((ready_remove h).mp still).1 rfl
  -- the three lists a task may go into
  have into : ∀ s' : Kernel Task Event, Frame s s' →
      s'.pxReadyTasksLists = (removeFromReadyList uxPriority s.pxCurrentTCB s).pxReadyTasksLists →
      s'.uxTopReadyPriority = (removeFromReadyList uxPriority s.pxCurrentTCB s).uxTopReadyPriority →
      s'.blockedTasks.Perm (s.pxCurrentTCB :: s.blockedTasks) → s'.xEventLists = s.xEventLists →
      s'.xPendingReadyList = s.xPendingReadyList → Parked uxPriority s s' := by
    intro s' frame rings bits blocked events pending
    refine ⟨removed.block [s.pxCurrentTCB] (List.nodup_cons.mpr ⟨fresh, h.unique⟩) ?_ rings
      bits blocked events pending, frame, fun task => ?_, blocked, events, pending⟩
    · intro task inside
      exact List.mem_singleton.mp inside ▸ gone
    · rw [Ready, rings]
      exact ready_remove h
  unfold prvAddCurrentTaskToDelayedList
  split
  · refine into _ ⟨rfl, rfl, rfl, rfl, rfl, rfl, rfl, rfl, rfl⟩ rfl rfl ?_ rfl rfl
    show (_ ++ (s.xSuspendedTaskList ++ [s.pxCurrentTCB])).Perm _
    rw [← List.append_assoc]
    exact List.perm_append_singleton _ _
  · have inserted := fun items =>
      (insert_sorted_perm (s.pxCurrentTCB, s.xTickCount + xTicksToWait) items).map Prod.fst
    dsimp only
    split
    · refine into _ ⟨rfl, rfl, rfl, rfl, rfl, rfl, rfl, rfl, rfl⟩ rfl rfl ?_ rfl rfl
      have order := (inserted s.pxOverflowDelayedTaskList).append_left
        (s.pxDelayedTaskList.map Prod.fst)
      exact (order.trans List.perm_middle).append_right _
    · refine into _ ⟨rfl, rfl, rfl, rfl, rfl, rfl, rfl, rfl, rfl⟩ rfl rfl ?_ rfl rfl
      exact ((inserted s.pxDelayedTaskList).append_right _).append_right _

omit [DecidableEq Task] in
theorem Lists.countTick {s : Kernel Task Event} (h : Lists uxPriority s) :
    Lists uxPriority (countTick s).1 := by
  unfold Kernel.countTick
  dsimp only
  split
  · refine h.same rfl rfl ?_ rfl rfl
    exact List.perm_append_comm.append_right _
  · exact h.same rfl rfl (.refl _) rfl rfl

omit [DecidableEq Task] in
theorem countTick_keeps (s : Kernel Task Event) :
    (countTick s).1.pxCurrentTCB = s.pxCurrentTCB ∧
      (countTick s).1.uxSchedulerSuspended = s.uxSchedulerSuspended ∧
      (countTick s).1.xPendedTicks = s.xPendedTicks ∧
      (countTick s).1.xYieldPending = s.xYieldPending ∧ (countTick s).1.pendSV = s.pendSV ∧
      (countTick s).1.point = s.point ∧
      (countTick s).1.pxPreviousWakeTime = s.pxPreviousWakeTime ∧
      (countTick s).1.xPendingReadyList = s.xPendingReadyList ∧
      (countTick s).1.xEventLists = s.xEventLists ∧
      (countTick s).1.pxReadyTasksLists = s.pxReadyTasksLists ∧
      (countTick s).1.xTickCount = s.xTickCount + 1 := by
  unfold Kernel.countTick
  dsimp only
  split <;> exact ⟨rfl, rfl, rfl, rfl, rfl, rfl, rfl, rfl, rfl, rfl, rfl⟩

variable (uxPriority) in
/-- A tick with the scheduler not suspended: the time moves on, the tasks whose time has come
become ready, `rest` goes on waiting. -/
structure Ticked (s : Kernel Task Event) (expired rest : List (Task × UInt32)) (next : UInt32) :
    Prop where
  delayed : (countTick s).1.pxDelayedTaskList = expired ++ rest
  state : (xTaskIncrementTick uxPriority s).1 =
    { releaseAll uxPriority (expired.map Prod.fst) (countTick s).1 with
      xNextTaskUnblockTime := next }
  events : (xTaskIncrementTick uxPriority s).2.2 =
    .ticked :: (if (countTick s).2 then [] else [.assertFailed .delayedListEmpty]) ++
      expired.map fun item => .timedOut item.1
  flag : (xTaskIncrementTick uxPriority s).2.1 = false →
    s.xYieldPending = false ∧ ∀ item ∈ expired, uxPriority item.1 ≤ uxPriority s.pxCurrentTCB
  due : ∀ item ∈ expired, ¬ (countTick s).1.xTickCount < item.2
  stop : ((countTick s).1.pxDelayedTaskList.Pairwise fun a b => a.2 ≤ b.2) →
    (∀ item ∈ (countTick s).1.pxDelayedTaskList, (countTick s).1.xNextTaskUnblockTime ≤ item.2) →
    ∀ item ∈ rest, (countTick s).1.xTickCount < item.2 ∧ next ≤ item.2

theorem tick_cases {s : Kernel Task Event} (h : Lists uxPriority s)
    (running : s.uxSchedulerSuspended = 0) : ∃ expired rest next, Ticked uxPriority s expired rest next := by
  have current := (countTick_keeps s).1
  have yields := (countTick_keeps s).2.2.2.1
  by_cases reached : (countTick s).1.xNextTaskUnblockTime ≤ (countTick s).1.xTickCount
  · obtain ⟨expired, rest, next, parts, loop, due, stop⟩ := unblock_cases h.countTick rfl
    have unblocked : unblockDueTasks uxPriority (countTick s).1 = _ := (if_pos reached).trans loop
    refine ⟨expired, rest, next, parts, ?_, ?_, ?_, due, ?_⟩
    · simp only [xTaskIncrementTick, if_pos running, unblocked]
    · simp only [xTaskIncrementTick, if_pos running, unblocked]
    · simp only [xTaskIncrementTick, if_pos running, unblocked]
      intro flag
      simp only [Bool.or_eq_false_iff, List.any_eq_false, decide_eq_true_iff, current] at flag
      obtain ⟨⟨lower, _⟩, yield⟩ := flag
      rw [(frame_releaseAll _ _ _).xYieldPending, yields] at yield
      exact ⟨yield, fun item inside => Fin.not_lt.mp (lower item inside)⟩
    · intro sorted _ item inside
      rw [parts] at sorted
      have tail := (List.pairwise_append.mp sorted).2.1
      cases rest with
      | nil => exact absurd inside List.not_mem_nil
      | cons head rest =>
        obtain ⟨early, rfl⟩ := stop head rfl
        rcases List.mem_cons.mp inside with rfl | later
        · exact ⟨early, UInt32.le_refl _⟩
        · have order := (List.pairwise_cons.mp tail).1 item later
          exact ⟨UInt32.lt_of_lt_of_le early order, order⟩
  · have unblocked : unblockDueTasks uxPriority (countTick s).1 = _ := if_neg reached
    refine ⟨[], (countTick s).1.pxDelayedTaskList, (countTick s).1.xNextTaskUnblockTime, rfl, ?_, ?_,
      ?_, by simp, ?_⟩
    · simp only [xTaskIncrementTick, if_pos running, unblocked]
      rfl
    · simp only [xTaskIncrementTick, if_pos running, unblocked]
      rfl
    · simp only [xTaskIncrementTick, if_pos running, unblocked]
      intro flag
      simp only [Bool.or_eq_false_iff, yields] at flag
      exact ⟨flag.2, by simp⟩
    · intro _ bound item inside
      exact ⟨UInt32.lt_of_lt_of_le (UInt32.not_le.mp reached) (bound item inside), bound item inside⟩

end Kernel

end CommandBox
