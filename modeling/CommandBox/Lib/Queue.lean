import Mathlib.Data.List.Basic

/-! Bounded queues, first in and first out. Sending to a full queue and receiving
from an empty one is `none`: the caller waits, or goes on without. -/

structure Queue (α : Type) (capacity : Nat) where
  items : List α
  bounded : items.length ≤ capacity

inductive QueueOp (α : Type) where
  | send (item : α)
  | receive

namespace Queue

variable {α : Type} {capacity : Nat}

def empty : Queue α capacity := ⟨[], Nat.zero_le capacity⟩

def send (queue : Queue α capacity) (item : α) : Option (Queue α capacity) :=
  if room : queue.items.length < capacity then
    some ⟨queue.items ++ [item], by simpa using Nat.succ_le_of_lt room⟩
  else none

def receive : Queue α capacity → Option (α × Queue α capacity)
  | ⟨[], _⟩ => none
  | ⟨item :: rest, bounded⟩ => some (item, ⟨rest, Nat.le_of_succ_le bounded⟩)

def sendToFront (queue : Queue α capacity) (item : α) : Option (Queue α capacity) :=
  if room : queue.items.length < capacity then
    some ⟨item :: queue.items, Nat.succ_le_of_lt room⟩
  else none

/-- For a queue of one item: the item that is there gives way. -/
def overwrite (_ : Queue α capacity) (one : capacity = 1) (item : α) : Queue α capacity :=
  ⟨[item], Nat.le_of_eq one.symm⟩

/-- An operation that does not have to wait, and what it takes out. -/
def perform (queue : Queue α capacity) : QueueOp α → Option (Queue α capacity × Option α)
  | .send item => (queue.send item).map fun queue => (queue, none)
  | .receive => queue.receive.map fun r => (r.2, some r.1)

def Full (queue : Queue α capacity) : Prop := queue.items.length = capacity

@[simp] theorem empty_items : (empty : Queue α capacity).items = [] := rfl

theorem send_items {queue queue' : Queue α capacity} {item : α}
    (sent : queue.send item = some queue') : queue'.items = queue.items ++ [item] := by
  unfold send at sent
  split at sent
  · cases sent
    rfl
  · contradiction

theorem send_fits {queue : Queue α capacity} {item : α}
    (fits : (queue.items ++ [item]).length ≤ capacity) :
    ∃ queue', queue.send item = some queue' ∧ queue'.items = queue.items ++ [item] := by
  rw [List.length_append, List.length_singleton] at fits
  exact ⟨⟨queue.items ++ [item], by simpa using fits⟩, dif_pos fits, rfl⟩

theorem send_none (queue : Queue α capacity) (item : α) :
    queue.send item = none ↔ queue.Full := by
  have bounded := queue.bounded
  unfold send Full
  split <;> simp <;> omega

theorem send_not_full {queue queue' : Queue α capacity} {item : α}
    (sent : queue.send item = some queue') : ¬ queue.Full := by
  intro full
  rw [(send_none queue item).mpr full] at sent
  contradiction

theorem receive_items {queue queue' : Queue α capacity} {item : α}
    (received : queue.receive = some (item, queue')) : queue.items = item :: queue'.items := by
  obtain ⟨items, bounded⟩ := queue
  cases items with
  | nil => contradiction
  | cons first rest =>
    cases received
    rfl

theorem receive_none (queue : Queue α capacity) : queue.receive = none ↔ queue.items = [] := by
  obtain ⟨items, bounded⟩ := queue
  cases items with
  | nil => exact ⟨fun _ => rfl, fun _ => rfl⟩
  | cons first rest => simp [receive]

theorem empty_not_full {queue : Queue α capacity} (positive : 0 < capacity)
    (drained : queue.items = []) : ¬ queue.Full := by
  intro full
  rw [Full, drained] at full
  exact absurd positive (by simp [← full])

/-- All that was sent is what was received and what is still queued, in this order. -/
def Conserves (queue : Queue α capacity) (sent received : List α) : Prop :=
  sent = received ++ queue.items

theorem conserves_send {queue queue' : Queue α capacity} {sent received : List α} {item : α}
    (holds : queue.Conserves sent received) (step : queue.send item = some queue') :
    queue'.Conserves (sent ++ [item]) received := by
  unfold Conserves at holds ⊢
  rw [holds, send_items step, List.append_assoc]

theorem conserves_receive {queue queue' : Queue α capacity} {sent received : List α} {item : α}
    (holds : queue.Conserves sent received) (step : queue.receive = some (item, queue')) :
    queue'.Conserves sent (received ++ [item]) := by
  unfold Conserves at holds ⊢
  rw [holds, receive_items step, List.append_assoc, List.singleton_append]

end Queue
