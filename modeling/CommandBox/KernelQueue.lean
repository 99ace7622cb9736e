import CommandBox.Lib.Machine
import CommandBox.Lib.Queue
import CommandBox.Lib.Ring

/-! The queues of the kernel, queue.c. An item is copied into the storage area and out of it
again, at two pointers that go round. Each access is in a critical section, so a call is one
step; for a call that may block it is the attempt that the call repeats. -/
namespace CommandBox
open Memory Machine

def sizeMax : Nat := 0xFFFFFFFF

inductive CopyPosition where
  | queueSendToBack | queueSendToFront | queueOverwrite
  deriving DecidableEq, Repr

/-- `Queue_t`; the pointers are distances from `pcHead`, the start of the storage area. -/
structure QueueDefinition (uxLength uxItemSize : Nat) where
  storage : Vector UInt8 (uxLength * uxItemSize)
  pcWriteTo : Int
  pcTail : Int
  pcReadFrom : Int
  uxMessagesWaiting : Nat

inductive QueueReturn (Item : Type) where
  | pdPass
  | errQueueFull
  | errQueueEmpty
  | received (item : Item)
  | count (n : Nat)
  deriving DecidableEq

def QueueReturn.map {α β : Type} (f : α → β) : QueueReturn α → QueueReturn β
  | .pdPass => .pdPass
  | .errQueueFull => .errQueueFull
  | .errQueueEmpty => .errQueueEmpty
  | .received item => .received (f item)
  | .count n => .count n

namespace QueueDefinition

variable {uxLength uxItemSize : Nat}

/-- `memcpy` to a pointer of the queue, from the memory behind `pvItemToQueue`. -/
def copyTo (storage : Vector UInt8 (uxLength * uxItemSize)) (pointer : Int)
    (pvItemToQueue : List UInt8) : Option (Vector UInt8 (uxLength * uxItemSize)) := do
  let item ← load pvItemToQueue uxItemSize
  if pointer < 0 then none else memcpy storage pointer.toNat item

def copyFrom (storage : Vector UInt8 (uxLength * uxItemSize)) (pointer : Int) :
    Option (List UInt8) :=
  if pointer < 0 then none else load (storage.toList.drop pointer.toNat) uxItemSize

/-- `none` is a failed `configASSERT`. -/
def xQueueGenericReset (queue : QueueDefinition uxLength uxItemSize) :
    Option (QueueDefinition uxLength uxItemSize) :=
  if 1 ≤ uxLength ∧ uxItemSize ≤ sizeMax / uxLength then
    some { queue with
      pcTail := uxLength * uxItemSize
      uxMessagesWaiting := 0
      pcWriteTo := 0
      pcReadFrom := (uxLength - 1 : Nat) * uxItemSize }
  else none

/-- The storage area is as `pvPortMalloc` left it. -/
def prvInitialiseNewQueue (storage : Vector UInt8 (uxLength * uxItemSize)) :
    Option (QueueDefinition uxLength uxItemSize) :=
  xQueueGenericReset ⟨storage, 0, 0, 0, 0⟩

def prvCopyDataToQueue (queue : QueueDefinition uxLength uxItemSize) (pvItemToQueue : List UInt8)
    (xPosition : CopyPosition) : Option (QueueDefinition uxLength uxItemSize) :=
  if uxItemSize = 0 then
    some { queue with uxMessagesWaiting := queue.uxMessagesWaiting + 1 }
  else if xPosition = .queueSendToBack then do
    let storage ← copyTo queue.storage queue.pcWriteTo pvItemToQueue
    let pcWriteTo := queue.pcWriteTo + uxItemSize
    some { queue with
      storage := storage
      pcWriteTo := if queue.pcTail ≤ pcWriteTo then 0 else pcWriteTo
      uxMessagesWaiting := queue.uxMessagesWaiting + 1 }
  else do
    let storage ← copyTo queue.storage queue.pcReadFrom pvItemToQueue
    let pcReadFrom := queue.pcReadFrom - uxItemSize
    -- an overwritten item is not one more
    let uxMessagesWaiting :=
      if xPosition = .queueOverwrite ∧ 0 < queue.uxMessagesWaiting then queue.uxMessagesWaiting - 1
      else queue.uxMessagesWaiting
    some { queue with
      storage := storage
      pcReadFrom := if pcReadFrom < 0 then queue.pcTail - uxItemSize else pcReadFrom
      uxMessagesWaiting := uxMessagesWaiting + 1 }

/-- The queue and what is in the buffer of the caller afterwards. -/
def prvCopyDataFromQueue (queue : QueueDefinition uxLength uxItemSize) :
    Option (QueueDefinition uxLength uxItemSize × List UInt8) :=
  if uxItemSize = 0 then some (queue, [])
  else do
    let pcReadFrom := queue.pcReadFrom + uxItemSize
    let pcReadFrom := if queue.pcTail ≤ pcReadFrom then 0 else pcReadFrom
    let item ← copyFrom queue.storage pcReadFrom
    some ({ queue with pcReadFrom := pcReadFrom }, item)

/-- The attempt of `xQueueGenericSend`, which is all of `xQueueGenericSendFromISR`. -/
def xQueueGenericSend (queue : QueueDefinition uxLength uxItemSize) (pvItemToQueue : List UInt8)
    (xCopyPosition : CopyPosition) :
    Option (QueueDefinition uxLength uxItemSize × QueueReturn (List UInt8)) :=
  if xCopyPosition = .queueOverwrite ∧ uxLength ≠ 1 then none
  else if queue.uxMessagesWaiting < uxLength ∨ xCopyPosition = .queueOverwrite then
    (prvCopyDataToQueue queue pvItemToQueue xCopyPosition).map fun queue => (queue, .pdPass)
  else some (queue, .errQueueFull)

def xQueueReceive (queue : QueueDefinition uxLength uxItemSize) :
    Option (QueueDefinition uxLength uxItemSize × QueueReturn (List UInt8)) :=
  if 0 < queue.uxMessagesWaiting then do
    let (queue, item) ← prvCopyDataFromQueue queue
    some ({ queue with uxMessagesWaiting := queue.uxMessagesWaiting - 1 }, .received item)
  else some (queue, .errQueueEmpty)

def xQueuePeek (queue : QueueDefinition uxLength uxItemSize) :
    Option (QueueDefinition uxLength uxItemSize × QueueReturn (List UInt8)) :=
  if 0 < queue.uxMessagesWaiting then do
    let (read, item) ← prvCopyDataFromQueue queue
    some ({ read with pcReadFrom := queue.pcReadFrom }, .received item)
  else some (queue, .errQueueEmpty)

def uxQueueMessagesWaiting (queue : QueueDefinition uxLength uxItemSize) : Nat :=
  queue.uxMessagesWaiting

def uxQueueSpacesAvailable (queue : QueueDefinition uxLength uxItemSize) : Nat :=
  uxLength - queue.uxMessagesWaiting

end QueueDefinition

inductive QueueCall (Item : Type) where
  | reset
  | send (item : Item) (xCopyPosition : CopyPosition)
  | receive
  | peek
  | messagesWaiting
  | spacesAvailable

def QueueCall.map {α β : Type} (f : α → β) : QueueCall α → QueueCall β
  | .reset => .reset
  | .send item xCopyPosition => .send (f item) xCopyPosition
  | .receive => .receive
  | .peek => .peek
  | .messagesWaiting => .messagesWaiting
  | .spacesAvailable => .spacesAvailable

def QueueDefinition.call {uxLength uxItemSize : Nat} (queue : QueueDefinition uxLength uxItemSize) :
    QueueCall (List UInt8) →
      Option (QueueDefinition uxLength uxItemSize × QueueReturn (List UInt8))
  | .reset => queue.xQueueGenericReset.map fun queue => (queue, .pdPass)
  | .send item xCopyPosition => queue.xQueueGenericSend item xCopyPosition
  | .receive => queue.xQueueReceive
  | .peek => queue.xQueuePeek
  | .messagesWaiting => some (queue, .count queue.uxQueueMessagesWaiting)
  | .spacesAvailable => some (queue, .count queue.uxQueueSpacesAvailable)

/- What the queue is for. -/

variable {α : Type} {capacity : Nat}

/-- A queue with the calls of the kernel; `none` is an overwrite of more than one item. -/
def fifoCall (queue : Queue α capacity) :
    QueueCall α → Option (Queue α capacity × QueueReturn α)
  | .reset => some (.empty, .pdPass)
  | .send item .queueSendToBack =>
    some (((queue.send item).map fun queue => (queue, .pdPass)).getD (queue, .errQueueFull))
  | .send item .queueSendToFront =>
    some (((queue.sendToFront item).map fun queue => (queue, .pdPass)).getD (queue, .errQueueFull))
  | .send item .queueOverwrite =>
    if one : capacity = 1 then some (queue.overwrite one item, .pdPass) else none
  | .receive =>
    some ((queue.receive.map fun r => (r.2, .received r.1)).getD (queue, .errQueueEmpty))
  | .peek =>
    some ((queue.receive.map fun r => (queue, .received r.1)).getD (queue, .errQueueEmpty))
  | .messagesWaiting => some (queue, .count queue.items.length)
  | .spacesAvailable => some (queue, .count (capacity - queue.items.length))

/- The pointers go round as the slots do. -/

variable {uxLength uxItemSize : Nat}

/-- Where the copying of an item ends, from a pointer to slot `r`. -/
theorem pointer_next {r : Nat} (positive : 0 < uxItemSize) (inside : r < uxLength) :
    (if ((uxLength * uxItemSize : Nat) : Int) ≤ (r * uxItemSize : Nat) + uxItemSize then 0
      else ((r * uxItemSize : Nat) : Int) + uxItemSize) =
      (Ring.slot uxLength r 0 * uxItemSize : Nat) := by
  have above := Nat.mul_le_mul_right uxItemSize (Nat.succ_le_of_lt inside)
  rw [Nat.succ_mul] at above
  rw [Ring.slot_first inside]
  by_cases more : r + 1 < uxLength
  · have below := Nat.mul_lt_mul_of_pos_right more positive
    rw [Nat.succ_mul] at below
    rw [if_pos more, Nat.succ_mul, if_neg (by omega)]
    rfl
  · have last : r + 1 = uxLength := by omega
    rw [if_neg more, ← last, Nat.succ_mul, if_pos (by omega), Nat.zero_mul]
    rfl

theorem pointer_before {r : Nat} (positive : 0 < uxItemSize) (inside : r < uxLength) :
    (if ((r * uxItemSize : Nat) : Int) - uxItemSize < 0 then
        ((uxLength * uxItemSize : Nat) : Int) - uxItemSize
      else ((r * uxItemSize : Nat) : Int) - uxItemSize) =
      (Ring.before uxLength r * uxItemSize : Nat) := by
  unfold Ring.before
  cases r with
  | zero =>
    obtain ⟨before, rfl⟩ := Nat.exists_eq_succ_of_ne_zero (Nat.ne_of_gt inside)
    rw [if_pos (by simp; omega), if_pos rfl, Nat.succ_mul, Nat.succ_sub_one]
    omega
  | succ r =>
    rw [if_neg (by rw [Nat.succ_mul]; omega), if_neg (Nat.succ_ne_zero r), Nat.succ_mul,
      Nat.add_sub_cancel]
    omega

/-- The storage area holds these items, one in each slot from the read pointer to the write
pointer. -/
structure Stores (encode : α → Vector UInt8 uxItemSize)
    (queue : QueueDefinition uxLength uxItemSize) (items : List α) : Prop where
  tail : queue.pcTail = (uxLength * uxItemSize : Nat)
  counted : queue.uxMessagesWaiting = items.length
  ring : ∃ r, queue.pcReadFrom = (r * uxItemSize : Nat) ∧
    queue.pcWriteTo = (Ring.slot uxLength r items.length * uxItemSize : Nat) ∧
    Ring.Holds uxLength (block queue.storage uxItemSize) r
      (items.map fun item => (encode item).toList)

namespace QueueDefinition

variable {encode : α → Vector UInt8 uxItemSize} {queue : QueueDefinition uxLength uxItemSize}
  {items : List α}

theorem copyTo_slot (storage : Vector UInt8 (uxLength * uxItemSize)) {r : Nat}
    (inside : r < uxLength) (item : Vector UInt8 uxItemSize) :
    ∃ written, copyTo storage (r * uxItemSize : Nat) item.toList = some written ∧
      block written uxItemSize r = item.toList ∧
      ∀ j, j ≠ r → block written uxItemSize j = block storage uxItemSize j := by
  have size : item.toList.length = uxItemSize := by simp
  have room := Nat.mul_le_mul_right uxItemSize (Nat.succ_le_of_lt inside)
  obtain ⟨written, copied, here, elsewhere⟩ := memcpy_block storage size room
  refine ⟨written, ?_, here, elsewhere⟩
  unfold copyTo
  apply then_some (load_start (List.prefix_refl _) size.symm)
  rw [if_neg (by omega), Int.toNat_natCast]
  exact copied

theorem copyFrom_slot (storage : Vector UInt8 (uxLength * uxItemSize)) {r : Nat}
    (inside : r < uxLength) :
    copyFrom storage (r * uxItemSize : Nat) = some (block storage uxItemSize r) := by
  have room := Nat.mul_le_mul_right uxItemSize (Nat.succ_le_of_lt inside)
  rw [copyFrom, if_neg (by omega), Int.toNat_natCast]
  exact load_block storage room

theorem reset_stores (encode : α → Vector UInt8 uxItemSize)
    (queue : QueueDefinition uxLength uxItemSize) (long : 1 ≤ uxLength)
    (fits : uxItemSize ≤ sizeMax / uxLength) :
    ∃ queue', queue.xQueueGenericReset = some queue' ∧ Stores encode queue' [] := by
  rw [xQueueGenericReset, if_pos ⟨long, fits⟩]
  have around : uxLength - 1 + 1 + 0 = uxLength := by omega
  have start : Ring.slot uxLength (uxLength - 1) 0 = 0 := by rw [Ring.slot, around, Nat.mod_self]
  refine ⟨_, rfl, by simp, rfl, uxLength - 1, by simp, ?_, Ring.holds_nil (by omega)⟩
  rw [List.length_nil, start, Nat.zero_mul]
  rfl

theorem copy_back (positive : 0 < uxItemSize) (stores : Stores encode queue items)
    (room : items.length < uxLength) (item : α) :
    ∃ queue', queue.prvCopyDataToQueue (encode item).toList .queueSendToBack = some queue' ∧
      Stores encode queue' (items ++ [item]) := by
  obtain ⟨tail, counted, r, read, write, held⟩ := stores
  obtain ⟨written, copied, here, elsewhere⟩ := copyTo_slot queue.storage
    (Ring.slot_lt items.length held.inside) (encode item)
  rw [prvCopyDataToQueue, if_neg (Nat.ne_of_gt positive), if_pos rfl, write, copied]
  refine ⟨_, rfl, tail, by simp [counted], r, read, ?_, ?_⟩
  · simp only [tail, List.length_append, List.length_singleton]
    rw [pointer_next positive (Ring.slot_lt _ held.inside), Ring.slot_slot, Nat.add_zero]
  · rw [List.map_append, List.map_singleton]
    rw [← List.length_map fun item => (encode item).toList] at here elsewhere room
    exact Ring.holds_back held room here elsewhere

theorem copy_front (positive : 0 < uxItemSize) (stores : Stores encode queue items)
    (room : items.length < uxLength) (item : α) :
    ∃ queue', queue.prvCopyDataToQueue (encode item).toList .queueSendToFront = some queue' ∧
      Stores encode queue' (item :: items) := by
  obtain ⟨tail, counted, r, read, write, held⟩ := stores
  obtain ⟨written, copied, here, elsewhere⟩ := copyTo_slot queue.storage held.inside (encode item)
  rw [prvCopyDataToQueue, if_neg (Nat.ne_of_gt positive), if_neg (by decide), read, copied]
  refine ⟨_, rfl, tail, by simp [counted], Ring.before uxLength r, ?_, ?_, ?_⟩
  · simp only [tail]
    exact pointer_before positive held.inside
  · simp only [List.length_cons]
    rw [← Ring.slot_succ, Ring.slot_before held.inside]
    exact write
  · rw [List.map_cons]
    rw [← List.length_map fun item => (encode item).toList] at room
    exact Ring.holds_front held room here elsewhere

/-- Whether the one slot is taken or not, it holds the new item. -/
theorem copy_overwrite (positive : 0 < uxItemSize) (one : uxLength = 1)
    (stores : Stores encode queue items) (item : α) :
    ∃ queue', queue.prvCopyDataToQueue (encode item).toList .queueOverwrite = some queue' ∧
      Stores encode queue' [item] := by
  obtain ⟨tail, counted, r, read, write, held⟩ := stores
  obtain ⟨written, copied, here, elsewhere⟩ := copyTo_slot queue.storage held.inside (encode item)
  have single : items.length ≤ 1 := by simpa [one] using held.room
  have anywhere (i j : Nat) : Ring.slot uxLength i j = 0 := by rw [Ring.slot, one, Nat.mod_one]
  rw [prvCopyDataToQueue, if_neg (Nat.ne_of_gt positive), if_neg (by decide), read, copied]
  refine ⟨_, rfl, tail, ?_, Ring.before uxLength r, ?_, ?_, ?_⟩
  · have taken : queue.uxMessagesWaiting ≤ 1 := by omega
    simp only [List.length_singleton, true_and]
    split <;> omega
  · simp only [tail]
    exact pointer_before positive held.inside
  · simpa only [anywhere] using write
  · exact Ring.holds_front (Ring.holds_nil held.inside) (by rw [one]; exact Nat.one_pos) here elsewhere

theorem copy_first (positive : 0 < uxItemSize) {first : α} {rest : List α}
    (stores : Stores encode queue (first :: rest)) :
    ∃ read, queue.prvCopyDataFromQueue = some ({ queue with pcReadFrom := read }, (encode first).toList) ∧
      Stores encode { queue with
        pcReadFrom := read
        uxMessagesWaiting := queue.uxMessagesWaiting - 1 } rest := by
  obtain ⟨tail, counted, r, read, write, held⟩ := stores
  have found := copyFrom_slot queue.storage (Ring.slot_lt 0 held.inside)
  have next := pointer_next positive held.inside
  rw [Ring.holds_first held] at found
  refine ⟨(Ring.slot uxLength r 0 * uxItemSize : Nat), ?_, tail, by simp [counted],
    Ring.slot uxLength r 0, rfl, ?_, Ring.holds_rest held⟩
  · rw [prvCopyDataFromQueue, if_neg (Nat.ne_of_gt positive)]
    simp only [read, tail, next]
    exact then_some found rfl
  · rw [Ring.slot_succ]
    exact write

theorem receive_first (positive : 0 < uxItemSize) {first : α} {rest : List α}
    (stores : Stores encode queue (first :: rest)) :
    ∃ queue', queue.xQueueReceive = some (queue', .received (encode first).toList) ∧
      Stores encode queue' rest := by
  obtain ⟨read, copied, fresh⟩ := copy_first positive stores
  have waiting : 0 < queue.uxMessagesWaiting := by simp [stores.counted]
  refine ⟨_, ?_, fresh⟩
  rw [xQueueReceive, if_pos waiting]
  exact then_some copied rfl

/-- Looking at an item leaves the read pointer where it was. -/
theorem peek_first (positive : 0 < uxItemSize) {first : α} {rest : List α}
    (stores : Stores encode queue (first :: rest)) :
    queue.xQueuePeek = some (queue, .received (encode first).toList) := by
  obtain ⟨read, copied, fresh⟩ := copy_first positive stores
  have waiting : 0 < queue.uxMessagesWaiting := by simp [stores.counted]
  rw [xQueuePeek, if_pos waiting]
  exact then_some copied rfl

/-- A call does what it does to the items, or both fail an assertion. -/
theorem call_stores (positive : 0 < uxItemSize) (long : 1 ≤ uxLength)
    (fits : uxItemSize ≤ sizeMax / uxLength) (abstract : Queue α uxLength)
    (stores : Stores encode queue abstract.items) (call : QueueCall α) :
    Option.Rel (fun c d => Stores encode c.1 d.1.items ∧ c.2 = d.2.map fun item => (encode item).toList)
      (queue.call (call.map fun item => (encode item).toList)) (fifoCall abstract call) := by
  have counted := stores.counted
  cases call with
  | reset =>
    obtain ⟨queue', done, fresh⟩ := reset_stores encode queue long fits
    simp only [QueueDefinition.call, QueueCall.map, done, Option.map_some]
    exact .some ⟨fresh, rfl⟩
  | send item xCopyPosition =>
    cases xCopyPosition with
    | queueSendToBack =>
      simp only [QueueDefinition.call, QueueCall.map, xQueueGenericSend, fifoCall, Queue.send, counted]
      by_cases room : abstract.items.length < uxLength
      · obtain ⟨queue', copied, fresh⟩ := copy_back positive stores room item
        simp only [copied, room]
        exact .some ⟨fresh, rfl⟩
      · simp only [room]
        exact .some ⟨stores, rfl⟩
    | queueSendToFront =>
      simp only [QueueDefinition.call, QueueCall.map, xQueueGenericSend, fifoCall, Queue.sendToFront,
        counted]
      by_cases room : abstract.items.length < uxLength
      · obtain ⟨queue', copied, fresh⟩ := copy_front positive stores room item
        simp only [copied, room]
        exact .some ⟨fresh, rfl⟩
      · simp only [room]
        exact .some ⟨stores, rfl⟩
    | queueOverwrite =>
      simp only [QueueDefinition.call, QueueCall.map, xQueueGenericSend, fifoCall]
      by_cases one : uxLength = 1
      · obtain ⟨queue', copied, fresh⟩ := copy_overwrite positive one stores item
        rw [if_neg (by simp [one]), if_pos (.inr trivial), copied, dif_pos one]
        exact .some ⟨fresh, rfl⟩
      · rw [if_pos ⟨trivial, one⟩, dif_neg one]
        exact .none
  | receive =>
    obtain ⟨items, bounded⟩ := abstract
    cases items with
    | nil =>
      simp only [QueueDefinition.call, QueueCall.map, xQueueReceive, counted]
      exact .some ⟨stores, rfl⟩
    | cons first rest =>
      obtain ⟨queue', received, fresh⟩ := receive_first positive stores
      simp only [QueueDefinition.call, QueueCall.map, received]
      exact .some ⟨fresh, rfl⟩
  | peek =>
    obtain ⟨items, bounded⟩ := abstract
    cases items with
    | nil =>
      simp only [QueueDefinition.call, QueueCall.map, xQueuePeek, counted]
      exact .some ⟨stores, rfl⟩
    | cons first rest =>
      simp only [QueueDefinition.call, QueueCall.map, peek_first positive stores]
      exact .some ⟨stores, rfl⟩
  | messagesWaiting =>
    refine .some ⟨stores, ?_⟩
    simp only [uxQueueMessagesWaiting, counted, QueueReturn.map]
  | spacesAvailable =>
    refine .some ⟨stores, ?_⟩
    simp only [uxQueueSpacesAvailable, counted, QueueReturn.map]

end QueueDefinition

/-- Every queue of the kernel is first in, first out and bounded, whatever is sent to it, and
no copy leaves its storage area. -/
theorem kernel_queue_fifo (encode : α → Vector UInt8 uxItemSize) (positive : 0 < uxItemSize)
    (storage : Vector UInt8 (uxLength * uxItemSize)) {queue : QueueDefinition uxLength uxItemSize}
    (created : QueueDefinition.prvInitialiseNewQueue storage = some queue) (calls : List (QueueCall α)) :
    Option.Rel
      (fun c d => Stores encode c.1 d.1.items ∧
        List.Forall₂ (fun o p => o = p.map fun item => (encode item).toList) c.2 d.2)
      (run QueueDefinition.call queue (calls.map (QueueCall.map fun item => (encode item).toList)))
      (run fifoCall (.empty : Queue α uxLength) calls) := by
  unfold QueueDefinition.prvInitialiseNewQueue QueueDefinition.xQueueGenericReset at created
  split at created
  · rename_i allowed
    obtain ⟨fresh, reset, start⟩ := QueueDefinition.reset_stores encode
      ⟨storage, 0, 0, 0, 0⟩ allowed.1 allowed.2
    rw [QueueDefinition.xQueueGenericReset, if_pos allowed, created] at reset
    cases reset
    rw [← run_map]
    exact run_related (R := fun queue (abstract : Queue α uxLength) => Stores encode queue abstract.items)
      (fun _ abstract call stores =>
        QueueDefinition.call_stores positive allowed.1 allowed.2 abstract stores call) start calls
  · contradiction

/-- A time stamp as it lies in memory. -/
def stampBytes (n : UInt32) : Vector UInt8 4 :=
  #v[n.toUInt8, (n >>> 8).toUInt8, (n >>> 16).toUInt8, (n >>> 24).toUInt8]

theorem kernel_queue_fifo_stamps :
    Option.Rel
      (fun c d => Stores stampBytes c.1 d.1.items ∧
        List.Forall₂ (fun o p => o = p.map fun item => (stampBytes item).toList) c.2 d.2)
      (run QueueDefinition.call (⟨.replicate 8 0, 0, 8, 4, 0⟩ : QueueDefinition 2 4)
        ([.send 1 .queueSendToBack, .send 0x200 .queueSendToFront, .send 3 .queueSendToBack, .receive,
          .send 3 .queueSendToBack, .peek, .receive, .receive, .receive].map
          (QueueCall.map fun item => (stampBytes item).toList)))
      (run fifoCall (.empty : Queue UInt32 2)
        [.send 1 .queueSendToBack, .send 0x200 .queueSendToFront, .send 3 .queueSendToBack, .receive,
          .send 3 .queueSendToBack, .peek, .receive, .receive, .receive]) :=
  kernel_queue_fifo stampBytes (by decide) (.replicate 8 0) rfl _

end CommandBox
