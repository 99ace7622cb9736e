import CommandBox.FirmwarePress
import CommandBox.NetworkDrain
import CommandBox.Lib.Fair

/-! The board comes to rest: with the button released and nothing coming in, any rounds in
which every task has a turn use up what is on its way, however long the timer runs between
the turns. -/
namespace CommandBox
open Machine

inductive FirmwareTask where
  | rxParser | app | signals | uartTx

def FirmwareTask.action : FirmwareTask → FirmwareAction
  | .rxParser => .taskRxParser
  | .app => .taskApp
  | .signals => .taskSignals
  | .uartTx => .taskUartTx

def NetworkTask.onBoard : NetworkTask → FirmwareTask
  | .rxParser => .rxParser
  | .app => .app
  | .uartTx => .uartTx

/-- A turn of a task after some runs of the timer, which find the pin low. -/
structure FirmwareTurn where
  timers : List AdcConversion
  task : FirmwareTask

def FirmwareTurn.actions (turn : FirmwareTurn) : List FirmwareAction :=
  turn.timers.map (.tim3Isr false) ++ [turn.task.action]

namespace Firmware

def takeTurn (f : Firmware) (turn : FirmwareTurn) : Option (Firmware × List FirmwareEvent) :=
  run step f turn.actions

/-- The task has something to do; the app also to enter the mode of an accepted press, which
takes it several turns. -/
def Ready (f : Firmware) : FirmwareTask → Prop
  | .rxParser => f.network.Ready .rxParser
  | .app => f.signals.entering ≠ none ∨ (f.network.sending = [] ∧ f.accepted ≠ none) ∨
    f.network.Ready .app
  | .signals => False
  | .uartTx => f.network.Ready .uartTx

/-- The price of a press pays for its acceptance and for entering its mode. -/
def work (f : Firmware) : Nat :=
  7 * f.network.work + 6 * f.accepted.toList.length + f.signals.storesLeft

def Helps (f f' : Firmware) (task : FirmwareTask) : Prop :=
  work f' < work f ∨
    work f' = work f ∧ ¬ f.Ready task ∧ ∀ other, f.Ready other → f'.Ready other

/-- With the pin low no press is confirmed. -/
theorem released_quiet (board : BoardIo) (conversion : AdcConversion) :
    (board.tim3Isr false conversion).2.pressed = none := by
  simp only [BoardIo.tim3Isr, BoardIo.debounce]
  repeat' split
  all_goals simp_all

/-- Runs of the timer with the pin low change the board only. -/
theorem timers_kept (f : Firmware) (timers : List AdcConversion) :
    ∃ board events, run step f (timers.map (.tim3Isr false)) =
      some ({ f with board := board }, events) := by
  induction timers generalizing f with
  | nil => exact ⟨f.board, [], rfl⟩
  | cons conversion timers ih =>
    have first : f.step (.tim3Isr false conversion) =
        some ({ f with board := (f.board.tim3Isr false conversion).1 },
          ⟨some (f.board.tim3Isr false conversion).2, none, none⟩) := by
      simp only [step, tim3Isr, released_quiet]
    obtain ⟨board, events, rest⟩ := ih { f with board := (f.board.tim3Isr false conversion).1 }
    exact ⟨board, _, by rw [List.map_cons, run_cons _ first, rest, Option.map_some]⟩

/-- A task of the network that is not the app leaves the calls of the app alone. -/
theorem other_sending {n n' : Network} {turn : TaskTurn} {event : NetworkEvent}
    (moves : n.Moves (.turn turn) n' event) (other : turn.task ≠ .app) :
    n'.sending = n.sending ∧ event.acceptedPress = none := by
  cases moves with
  | waits | read | completed | failed | forwarded | replied | transmitted | taken => exact ⟨rfl, rfl⟩
  | sent | noPress | noMessage | onButton | onMessage | onTick => exact absurd rfl other

theorem accepted_lowers {n n' : Network} {turn : TaskTurn} {event : NetworkEvent}
    (moves : n.Moves (.turn turn) n' event) (accepted : event.acceptedPress ≠ none) :
    n'.work < n.work := by
  rcases Network.turn_helps moves with lower | ⟨_, idle, _⟩
  · exact lower
  · cases moves with
    | onButton _ free _ received =>
      exact absurd (by simp [TaskTurn.task, Network.Ready, free, Queue.receive_items received]) idle
    | onMessage _ _ _ _ _ call | onTick _ _ _ _ call =>
      simp [NetworkEvent.acceptedPress, call, Call.press] at accepted
    | waits | read | completed | failed | forwarded | replied | sent | noPress | noMessage
      | transmitted | taken => exact absurd rfl accepted

theorem network_helps {f : Firmware} {turn : TaskTurn} {network : Network} {event : NetworkEvent}
    (moves : f.network.Moves (.turn turn) network event)
    (free : turn.task = .app →
      f.signals.entering = none ∧ (f.network.sending = [] → f.accepted = none)) :
    Helps f { f with network := network, accepted := event.acceptedPress <|> f.accepted }
      turn.task.onBoard := by
  cases accepted : event.acceptedPress with
  | some timestampMs =>
    have lower := accepted_lowers moves (by simp [accepted])
    have held : (some timestampMs <|> f.accepted).toList.length = 1 := rfl
    left
    simp only [work, held]
    omega
  | none =>
    have same : (none <|> f.accepted) = f.accepted := rfl
    rw [same]
    rcases Network.turn_helps moves with lower | ⟨same, idle, keeps⟩
    · left
      simp only [work]
      omega
    · right
      refine ⟨by simp only [work, same], ?_, ?_⟩
      · intro ready
        cases mine : turn.task with
        | rxParser | uartTx =>
          rw [mine] at ready idle
          exact idle ready
        | app =>
          rw [mine] at ready idle
          rcases ready with inside | ⟨none, held⟩ | ready
          · exact inside (free mine).1
          · exact held ((free mine).2 none)
          · exact idle ready
      · intro other ready
        cases other with
        | rxParser => exact keeps .rxParser ready
        | uartTx => exact keeps .uartTx ready
        | signals => exact ready
        | app =>
          rcases ready with inside | ⟨none, held⟩ | ready
          · exact .inl inside
          · by_cases mine : turn.task = .app
            · exact absurd ((free mine).2 none) held
            · exact .inr (.inl ⟨(other_sending moves mine).1.trans none, held⟩)
          · exact .inr (.inr (keeps .app ready))

theorem onNetwork_helps {f : Firmware} (sound : f.network.Sound) (turn : TaskTurn)
    (free : turn.task = .app →
      f.signals.entering = none ∧ (f.network.sending = [] → f.accepted = none)) :
    ∃ f' e, f.onNetwork (.turn turn) = some (f', e) ∧ Helps f f' turn.task.onBoard := by
  obtain ⟨network, event, taken, moves⟩ := Network.step_does sound (.turn turn)
  exact ⟨_, _, by rw [onNetwork, taken, Option.map_some], network_helps moves free⟩

/-- A turn of `task_signals` leaves the others their work. -/
theorem signals_help (f : Firmware) :
    ∃ f' e, f.step FirmwareTask.signals.action = some (f', e) ∧ Helps f f' .signals := by
  have helps (f' : Firmware) (network : f'.network = f.network) (accepted : f'.accepted = f.accepted)
      (entering : f'.signals.entering = f.signals.entering) : Helps f f' .signals := by
    refine .inr ⟨?_, id, ?_⟩
    · simp only [work, SignalsTasks.storesLeft, network, accepted, entering]
    · intro other ready
      cases other with
      | signals => exact ready
      | rxParser | app | uartTx => simpa only [Ready, network, accepted, entering] using ready
  simp only [FirmwareTask.action, step, taskSignals, onSignals]
  cases inside : f.signals.ticking with
  | none =>
    rw [if_pos rfl, SignalsTasks.step_call inside]
    exact ⟨_, _, rfl, helps _ rfl rfl rfl⟩
  | some tick =>
    rw [if_neg (Option.some_ne_none tick), SignalsTasks.step_tick inside]
    exact ⟨_, _, rfl, helps _ rfl rfl (f.signals.tick_keeps tick).2.2.1⟩

theorem task_helps {f : Firmware} (sound : f.network.Sound) (task : FirmwareTask) :
    ∃ f' e, f.step task.action = some (f', e) ∧ Helps f f' task := by
  cases task with
  | rxParser => exact onNetwork_helps sound .rxParser (fun mine => by contradiction)
  | uartTx => exact onNetwork_helps sound .uartTx (fun mine => by contradiction)
  | signals => exact signals_help f
  | app =>
    simp only [FirmwareTask.action, step, taskApp]
    split
    · rename_i busy
      obtain ⟨entry, inside⟩ := Option.ne_none_iff_exists'.mp busy
      rw [onSignals, SignalsTasks.step_store inside, Option.map_some]
      refine ⟨_, _, rfl, .inl ?_⟩
      have fewer := SignalsTasks.store_left inside
      simp only [work]
      omega
    · rename_i idle
      have idle := not_not.mp idle
      split
      · rename_i timestampMs free held
        rw [onSignals, SignalsTasks.step_enter idle, Option.map_some]
        refine ⟨_, _, rfl, .inl ?_⟩
        have one : (some timestampMs).toList.length = 1 := rfl
        have entry := SignalsTasks.enter_left f.signals f.network.cbox.mode timestampMs
        simp only [work, held, one, entry, Option.toList_none, List.length_nil]
        omega
      · rename_i other
        have quiet : f.network.sending = [] → f.accepted = none := by
          intro free
          cases held : f.accepted with
          | none => rfl
          | some timestampMs => exact absurd held (other timestampMs free)
        exact onNetwork_helps sound (.app _ _) fun _ => ⟨idle, quiet⟩

theorem turns_help :
    Fair.Helpful takeTurn FirmwareTurn.task (fun f => ∃ past, PressPath f past) work Ready := by
  rintro f ⟨timers, task⟩ ⟨past, path⟩
  obtain ⟨board, events, elapsed⟩ := timers_kept f timers
  have path' : PressPath { f with board := board } (past ++ events) :=
    run_kept (fun _ _ _ _ _ => step_path) path elapsed
  obtain ⟨f', e, taken, helps⟩ := task_helps path'.sound task
  refine ⟨f', events ++ [e], ?_, ⟨_, step_path path' taken⟩, helps⟩
  rw [takeTurn, FirmwareTurn.actions]
  exact run_snoc elapsed taken

/-- Nothing is on its way, and the signals have entered the mode of the box. -/
def AtRest (f : Firmware) : Prop :=
  f.network.Quiet ∧ f.accepted = none ∧ f.signals.entering = none ∧
    f.signals.mode = f.network.cbox.mode

theorem idle_atRest {f : Firmware} {past : List FirmwareEvent} (path : PressPath f past)
    (idle : ∀ task, ¬ f.Ready task) : f.AtRest := by
  have quiet : f.network.Quiet := Network.quiet_unready fun task ready => by
    cases task with
    | rxParser => exact idle .rxParser ready
    | app => exact idle .app (.inr (.inr ready))
    | uartTx => exact idle .uartTx ready
  have free : f.network.sending = [] := quiet.2.2.2.2.2.1
  have done : f.accepted = none := by
    by_contra held
    exact idle .app (.inr (.inl ⟨free, held⟩))
  refine ⟨quiet, done, not_not.mp fun inside => idle .app (.inl inside), ?_⟩
  have served := path.entered
  rw [done, Option.toList_none, List.append_nil] at served
  rw [path.mode, path.boxMode, ← served, List.length_map]

end Firmware

/-- Every accepted press is served: from every reachable state, with the button released and
nothing coming in, any rounds in which each task has a turn bring the board to rest, within
the work that was on its way, however much time passes between the turns. -/
theorem firmware_settles {board : BoardIo} {raw : Parser} {message : ProtocolMessage}
    {frame : Vector UInt8 protocolMaxFrameLength} {actions : List FirmwareAction} {final : Firmware}
    {events : List FirmwareEvent}
    (h : run Firmware.step (Firmware.start board raw message frame) actions = some (final, events))
    (rounds : List (List FirmwareTurn))
    (fair : ∀ round ∈ rounds, ∀ task, ∃ turn ∈ round, turn.task = task)
    (enough : final.work < rounds.length) :
    ∃ front back rest later, rounds = front ++ back ∧
      run Firmware.takeTurn final front.flatten = some (rest, later) ∧ rest.AtRest := by
  obtain ⟨front, back, rest, later, split, turned, ⟨_, path⟩, idle⟩ :=
    Fair.rounds_finish Firmware.turns_help ⟨_, run_path h⟩ fair enough
  exact ⟨front, back, rest, later, split, turned, Firmware.idle_atRest path idle⟩

/-- Each task once, 10 ms apart. -/
def everyTask : List FirmwareTurn :=
  [.rxParser, .app, .signals, .uartTx].map fun task => ⟨List.replicate 10 ⟨fun _ => false, 0⟩, task⟩

theorem firmware_settles_first : ∃ final events,
    run Firmware.step (Firmware.start (BoardIo.boardIoInit ⟨fun _ => true, 0⟩) blankParser
      blankMessage (Vector.replicate 64 0)) firstPress = some (final, events) ∧
    ∃ front back rest later, List.replicate (final.work + 1) everyTask = front ++ back ∧
      run Firmware.takeTurn final front.flatten = some (rest, later) ∧ rest.AtRest := by
  have runs : (run Firmware.step (Firmware.start (BoardIo.boardIoInit ⟨fun _ => true, 0⟩) blankParser
      blankMessage (Vector.replicate 64 0)) firstPress).isSome = true := by
    decide +kernel
  obtain ⟨⟨final, events⟩, ran⟩ := Option.isSome_iff_exists.mp runs
  have fair : ∀ round ∈ List.replicate (final.work + 1) everyTask, ∀ task, ∃ turn ∈ round,
      turn.task = task := by
    intro round there task
    rw [List.eq_of_mem_replicate there]
    cases task <;> simp [everyTask]
  exact ⟨final, events, ran, firmware_settles ran _ fair (by rw [List.length_replicate]; omega)⟩

end CommandBox
