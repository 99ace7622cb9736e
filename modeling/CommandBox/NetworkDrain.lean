import CommandBox.NetworkEffect
import CommandBox.Lib.Fair
import Mathlib.Logic.Relation

/-! The network without new input. Every task waits for the transmitter at most, which waits
for nobody, and every turn that finds work lowers a sum over all queues. -/
namespace CommandBox

/-- The emissions that ticks may still make. -/
def budget (box : Cbox) : Nat := if box.ackPending then box.retriesLeft.toNat + 1 else 0

theorem effect_spends {box box' : Cbox} {o : Observed} (effect : Effect box box' o) :
    65 * o.emitted.length + 66 * budget box' ≤ 66 * budget box +
      match o.call with
      | .button _ _ => 591
      | .message _ _ => 65
      | .tick _ => 0 := by
  cases effect with
  | opened paramValue nowMs pendingEvt free held => simp [budget, free, ackMaxRetries]
  | refused => simp [budget]
  | confirmed message nowMs busy ok => simp [budget]
  | answered => exact Nat.le_of_eq (Nat.add_comm _ _)
  | unanswered | waited => simp
  | gaveUp nowMs busy due spent => simp [budget, busy, spent]
  | retried nowMs busy due left =>
    have one := UInt8.toNat_sub_of_le box.retriesLeft 1 (UInt8.le_iff_toNat_le.mpr left)
    simp [budget, busy, one]
    omega

theorem tick_spends {box box' : Cbox} {o : Observed} (effect : Effect box box' o) {nowMs : UInt32}
    (call : o.call = .tick nowMs) :
    o.emitted = [] ∧ box' = box ∨ 65 * o.emitted.length + 66 * budget box' < 66 * budget box := by
  cases effect with
  | opened | refused | confirmed | answered | unanswered => cases call
  | waited => exact .inl ⟨rfl, rfl⟩
  | retried nowMs busy due left =>
    have one := UInt8.toNat_sub_of_le box.retriesLeft 1 (UInt8.le_iff_toNat_le.mpr left)
    right
    simp [budget, busy, one]
    omega
  | gaveUp nowMs busy due spent =>
    right
    simp [budget, busy]
    omega

namespace Network

/-- The task has something to do and is not kept from it by a full queue. -/
def Ready (n : Network) : NetworkTask → Prop
  | .rxParser =>
    match n.rxPoint with
    | .receiving => n.uartRxQueue.items ≠ []
    | .forwarding => ¬ n.appQueue.Full
    | .replying => ¬ n.uartTxQueue.Full
  | .app =>
    if n.sending = [] then n.buttonQueue.items ≠ [] ∨ n.appQueue.items ≠ []
    else ¬ n.uartTxQueue.Full
  | .uartTx => n.transmitting ≠ [] ∨ n.uartTxQueue.items ≠ []

theorem stuck_unready {n : Network} {task : NetworkTask} (stuck : n.Stuck task) :
    ¬ n.Ready task := by
  rcases stuck with starved | ⟨other, waits⟩
  · cases task with
    | rxParser => simp [Ready, starved.1, starved.2]
    | app => exact False.elim starved
    | uartTx => simp [Ready, starved.1, starved.2]
  · cases waits with
    | forwarding point full => simp [Ready, point, full]
    | replying point full => simp [Ready, point, full]
    | sending busy full => simp [Ready, busy, full]

/-- What the pending action of `task_rx_parser` may still cause. -/
def price : RxPoint → Nat
  | .receiving => 0
  | .forwarding => 71
  | .replying => 65

/-- The turns of `task_app` over an empty queue before it comes to one that is not. -/
def pollsAhead (point : AppPoint) (buttons : List UInt32) (messages : List ProtocolMessage) : Nat :=
  match point with
  | .button => if buttons ≠ [] then 0 else if messages ≠ [] then 1 else 0
  | .message => if messages ≠ [] then 0 else if buttons ≠ [] then 2 else 0
  | .tick => if buttons ≠ [] then 1 else if messages ≠ [] then 2 else 0

/-- A price for all that is on its way, above the price of what it turns into: a queued message
becomes fewer than 64 bytes, a message for the box one emission, a press three and the retries. -/
def work (n : Network) : Nat :=
  72 * n.uartRxQueue.items.length + price n.rxPoint + 68 * n.appQueue.items.length +
    594 * n.buttonQueue.items.length +
    pollsAhead n.appPoint n.buttonQueue.items n.appQueue.items + 65 * n.sending.length +
    66 * budget n.cbox + 64 * n.uartTxQueue.items.length + n.transmitting.length

theorem pollsAhead_le (point : AppPoint) (buttons : List UInt32)
    (messages : List ProtocolMessage) : pollsAhead point buttons messages ≤ 2 := by
  cases point <;> unfold pollsAhead <;> dsimp only <;> repeat' split
  all_goals omega

theorem polls_le (buttons : List UInt32) (messages : List ProtocolMessage) :
    pollsAhead .button buttons messages ≤ pollsAhead .tick buttons messages := by
  unfold pollsAhead
  dsimp only
  split
  · exact Nat.zero_le _
  · split <;> omega

theorem polls_fewer {buttons : List UInt32} {messages : List ProtocolMessage}
    (waiting : ¬ (buttons = [] ∧ messages = [])) :
    pollsAhead .button buttons messages < pollsAhead .tick buttons messages := by
  unfold pollsAhead
  dsimp only
  split
  · exact Nat.one_pos
  · split
    · exact Nat.lt_succ_self 1
    · simp_all

/-- Nothing is on its way and no task has anything to do. -/
def Quiet (n : Network) : Prop :=
  n.uartRxQueue.items = [] ∧ n.appQueue.items = [] ∧ n.buttonQueue.items = [] ∧
    n.uartTxQueue.items = [] ∧ n.rxPoint = .receiving ∧ n.sending = [] ∧ n.transmitting = []

/-- From the transmitter back: with an empty queue behind it each task finds room. -/
theorem quiet_unready {n : Network} (idle : ∀ task, ¬ n.Ready task) : n.Quiet := by
  have tx := idle .uartTx
  have app := idle .app
  have rx := idle .rxParser
  obtain ⟨line, txEmpty⟩ := not_or.mp tx
  have txEmpty := not_ne_iff.mp txEmpty
  have txRoom : ¬ n.uartTxQueue.Full := Queue.empty_not_full (by decide) txEmpty
  by_cases free : n.sending = []
  · simp only [Ready, free, if_true] at app
    obtain ⟨buttons, messages⟩ := not_or.mp app
    have messages := not_ne_iff.mp messages
    have appRoom : ¬ n.appQueue.Full := Queue.empty_not_full (by decide) messages
    cases point : n.rxPoint with
    | receiving =>
      simp only [Ready, point] at rx
      exact ⟨not_ne_iff.mp rx, messages, not_ne_iff.mp buttons, txEmpty, point, free,
        not_ne_iff.mp line⟩
    | forwarding =>
      simp only [Ready, point] at rx
      exact absurd appRoom rx
    | replying =>
      simp only [Ready, point] at rx
      exact absurd txRoom rx
  · simp only [Ready, free, if_false] at app
    exact absurd txRoom app

def Helps (n n' : Network) (task : NetworkTask) : Prop :=
  work n' < work n ∨ work n' = work n ∧ ¬ n.Ready task ∧ ∀ other, n.Ready other → n'.Ready other

theorem poll_helps {n : Network} (free : n.sending = []) (buttons : n.buttonQueue.items = [])
    (messages : n.appQueue.items = []) (point : AppPoint) :
    Helps n { n with appPoint := point } .app := by
  have none : ∀ p, pollsAhead p [] [] = 0 := by
    intro p
    cases p <;> rfl
  right
  refine ⟨?_, ?_, ?_⟩
  · simp only [work, buttons, messages, none]
  · simp [Ready, free, buttons, messages]
  · intro other ready
    cases other <;> exact ready

theorem rx_helps {n n' : Network} {event : NetworkEvent}
    (moves : Moves n (.turn .rxParser) n' event) : Helps n n' .rxParser := by
  cases moves with
  | waits stuck => exact .inr ⟨rfl, stuck_unready stuck, fun _ ready => ready⟩
  | read point received | completed point received | failed point received =>
    left
    simp only [work, point, price, Queue.receive_items received, List.length_cons]
    omega
  | @forwarded queue point room =>
    have polls := pollsAhead_le n.appPoint n.buttonQueue.items queue.items
    left
    simp only [Queue.send_items room] at polls
    simp only [work, point, price, Queue.send_items room, List.length_append, List.length_singleton]
    omega
  | replied point held room =>
    left
    simp only [work, point, price, Queue.send_items room, List.length_append, List.length_singleton]
    omega

theorem app_helps {n n' : Network} {event : NetworkEvent} {paramValue : UInt8} {nowMs : UInt32}
    (moves : Moves n (.turn (.app paramValue nowMs)) n' event) : Helps n n' .app := by
  cases moves with
  | waits stuck => exact .inr ⟨rfl, stuck_unready stuck, fun _ ready => ready⟩
  | sent _ _ busy held room =>
    left
    simp only [work, busy, Queue.send_items room, List.length_append, List.length_cons,
      List.length_nil]
    omega
  | noPress _ _ free point buttons =>
    by_cases messages : n.appQueue.items = []
    · exact poll_helps free buttons messages .message
    · left
      simp [work, point, pollsAhead, buttons, messages]
  | noMessage _ _ free point messages =>
    by_cases buttons : n.buttonQueue.items = []
    · exact poll_helps free buttons messages .tick
    · left
      simp [work, point, pollsAhead, buttons, messages]
  | @onButton _ _ timestampMs queue box o free point received effect call =>
    have spent := effect_spends effect
    have polls := pollsAhead_le .message queue.items n.appQueue.items
    left
    simp only [call] at spent
    simp only [work, free, Queue.receive_items received, List.length_cons, List.length_nil]
    omega
  | @onMessage _ _ message queue box o free point received effect call =>
    have spent := effect_spends effect
    have polls := pollsAhead_le .tick n.buttonQueue.items queue.items
    left
    simp only [call] at spent
    simp only [work, free, Queue.receive_items received, List.length_cons, List.length_nil]
    omega
  | @onTick _ _ box o free point effect call =>
    -- a tick that emits nothing helps only as a step towards a queue that is not empty
    rcases tick_spends effect call with ⟨silent, rfl⟩ | spent
    · by_cases idle : n.buttonQueue.items = [] ∧ n.appQueue.items = []
      · have polled := poll_helps free idle.1 idle.2 .button
        simpa only [silent, free] using polled
      · have fewer := polls_fewer idle
        left
        simp only [work, silent, point, free, List.length_nil]
        omega
    · have fewer := polls_le n.buttonQueue.items n.appQueue.items
      left
      simp only [work, free, point, List.length_nil]
      omega

theorem uartTx_helps {n n' : Network} {event : NetworkEvent}
    (moves : Moves n (.turn .uartTx) n' event) : Helps n n' .uartTx := by
  cases moves with
  | waits stuck => exact .inr ⟨rfl, stuck_unready stuck, fun _ ready => ready⟩
  | transmitted line =>
    left
    simp only [work, line, List.length_cons]
    omega
  | taken buffer silent received held =>
    have short := Emission.frame_short held
    left
    simp only [work, silent, Queue.receive_items received, List.length_cons, List.length_nil]
    omega

theorem turn_helps {n n' : Network} {turn : TaskTurn} {event : NetworkEvent}
    (moves : n.Moves (.turn turn) n' event) : Helps n n' turn.task := by
  cases turn with
  | rxParser => exact rx_helps moves
  | app paramValue nowMs => exact app_helps moves
  | uartTx => exact uartTx_helps moves

def takeTurn (n : Network) (turn : TaskTurn) : Option (Network × NetworkEvent) :=
  n.step (.turn turn)

theorem turns_help : Fair.Helpful takeTurn TaskTurn.task Sound work Ready := by
  intro n turn sound
  obtain ⟨n', event, taken, moves⟩ := step_does sound (.turn turn)
  refine ⟨n', event, taken, moves_sound sound moves, ?_⟩
  cases turn with
  | rxParser => exact rx_helps moves
  | app paramValue nowMs => exact app_helps moves
  | uartTx => exact uartTx_helps moves

/-- A task that is stuck stays as it is, and nothing else keeps a task waiting. -/
theorem waits_iff {n : Network} (sound : n.Sound) (turn : TaskTurn) :
    n.takeTurn turn = some (n, .waits turn.task) ↔ n.Stuck turn.task := by
  obtain ⟨n', event, taken, moves⟩ := step_does sound (.turn turn)
  have same : n.takeTurn turn = some (n', event) := taken
  rw [same]
  constructor
  · intro waits
    have reported := (Prod.mk.inj (Option.some.inj waits)).2
    cases moves with
    | waits stuck => exact stuck
    | _ => cases reported
  · intro stuck
    have unready := stuck_unready stuck
    cases moves with
    | waits => rfl
    | read point received | completed point received | failed point received =>
      exact absurd (by simp [TaskTurn.task, Ready, point, Queue.receive_items received]) unready
    | forwarded point room | replied point _ room =>
      exact absurd (by simp [TaskTurn.task, Ready, point, Queue.send_not_full room]) unready
    | sent _ _ busy _ room =>
      exact absurd (by simp [TaskTurn.task, Ready, busy, Queue.send_not_full room]) unready
    -- outside a call of the box the app never waits
    | noPress _ _ free | noMessage _ _ free | onButton _ free | onMessage _ free | onTick _ free =>
      rcases stuck with starved | ⟨other, waits⟩
      · exact False.elim starved
      · cases waits with
        | sending busy full => exact absurd free busy
    | transmitted line => exact absurd (by simp [TaskTurn.task, Ready, line]) unready
    | taken _ _ received =>
      exact absurd (by simp [TaskTurn.task, Ready, Queue.receive_items received]) unready

theorem full_moves {n : Network} (full : n.uartTxQueue.Full) : ¬ n.Stuck .uartTx := by
  rintro (starved | ⟨other, waits⟩)
  · exact Queue.empty_not_full (by decide) starved.2 full
  · cases waits

/-- Whoever waits for room waits, through others or not, for a task that moves. -/
theorem chain_moves {n : Network} {task other : NetworkTask} (waits : n.WaitsFor task other) :
    ∃ last, Relation.TransGen n.WaitsFor task last ∧ ¬ n.Stuck last := by
  cases waits with
  | replying point full => exact ⟨_, .single (.replying point full), full_moves full⟩
  | sending busy full => exact ⟨_, .single (.sending busy full), full_moves full⟩
  | forwarding point full =>
    have first : n.WaitsFor .rxParser .app := .forwarding point full
    by_cases stuck : n.Stuck .app
    · rcases stuck with starved | ⟨last, waits⟩
      · exact False.elim starved
      · cases waits with
        | sending busy full' =>
          exact ⟨_, .tail (.single first) (.sending busy full'), full_moves full'⟩
    · exact ⟨_, .single first, stuck⟩

theorem rounds_quiet {n : Network} (sound : n.Sound) {rounds : List (List TaskTurn)}
    (fair : ∀ round ∈ rounds, ∀ task, ∃ turn ∈ round, turn.task = task)
    (enough : n.work < rounds.length) :
    ∃ front back quiet events, rounds = front ++ back ∧
      Machine.run takeTurn n front.flatten = some (quiet, events) ∧ quiet.Quiet := by
  obtain ⟨front, back, quiet, events, split, ran, _, idle⟩ :=
    Fair.rounds_finish turns_help sound fair enough
  exact ⟨front, back, quiet, events, split, ran, quiet_unready idle⟩

end Network

end CommandBox
