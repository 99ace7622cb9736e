import CommandBox.BoardIo
import CommandBox.NetworkEffect
import CommandBox.SignalsTasks

/-! The whole board: the interrupts of board_io.c and uart_comm.c and the four tasks of
tasks.c over one state. The tasks read the time and the parameter from the board, a
confirmed press goes to the button queue, and an accepted one on to the signals, whose two
tasks can come between any two steps of each other's calls. -/
namespace CommandBox
open Machine

/-- `accepted` is the time stamp of the event that `task_app` holds from the acceptance by
`cbox_on_button` up to its call of `signals_enter_mode`. -/
structure Firmware where
  board : BoardIo
  network : Network
  signals : SignalsTasks
  accepted : Option UInt32

/-- Interrupts, with what they find in the hardware, and turns of tasks. -/
inductive FirmwareAction where
  | risingEdge
  | exti1Isr
  | tim3Isr (pinHigh : Bool) (conversion : AdcConversion)
  | usart1Isr (byte : UInt8)
  | taskRxParser
  | taskApp
  | taskSignals
  | taskUartTx

/-- What a step did in each of the components. -/
structure FirmwareEvent where
  timer : Option BoardIo.TimerEvent
  network : Option NetworkEvent
  signals : Option SignalsEvent

def Call.press : Call → Option UInt32
  | .button _ timestampMs => some timestampMs
  | .message _ _ | .tick _ => none

/-- The time stamp of a press that the box has accepted. -/
def NetworkEvent.acceptedPress : NetworkEvent → Option UInt32
  | .called o => if o.accepted then o.call.press else none
  | _ => none

def signalsLedOut (board : BoardIo) (dutyPercent : UInt8) : BoardIo :=
  board.boardIoSetLedDuty dutyPercent

def signalsBuzzerOut (board : BoardIo) (on : Bool) : BoardIo := board.boardIoSetBuzzer on

/-- The calls of the callbacks by a call of signals.c. -/
def SignalsOutput.onBoard (output : SignalsOutput) (board : BoardIo) : BoardIo :=
  let board := match output.led with
    | some dutyPercent => signalsLedOut board dutyPercent
    | none => board
  match output.buzzer with
  | some on => signalsBuzzerOut board on
  | none => board

namespace Firmware

def onNetwork (f : Firmware) (action : NetworkAction) : Option (Firmware × FirmwareEvent) :=
  (f.network.step action).map fun r =>
    ({ f with network := r.1, accepted := r.2.acceptedPress <|> f.accepted },
      ⟨none, some r.2, none⟩)

def onSignals (f : Firmware) (action : SignalsAction) : Option (Firmware × FirmwareEvent) :=
  (f.signals.step action).map fun r =>
    ({ f with signals := r.1, board := r.2.output.onBoard f.board }, ⟨none, none, some r.2⟩)

def tim3Isr (f : Firmware) (pinHigh : Bool) (conversion : AdcConversion) :
    Firmware × FirmwareEvent :=
  let (board, run) := f.board.tim3Isr pinHigh conversion
  match run.pressed with
  | none => ({ f with board := board }, ⟨some run, none, none⟩)
  | some timestampMs =>
    let (network, event) := f.network.tim3Isr timestampMs
    ({ f with board := board, network := network }, ⟨some run, some event, none⟩)

/-- The mode of an accepted press is entered once the box has made its calls of the callback. -/
def taskApp (f : Firmware) : Option (Firmware × FirmwareEvent) :=
  if f.signals.entering ≠ none then f.onSignals .proceedEntry
  else match f.network.sending, f.accepted with
  | [], some timestampMs =>
    onSignals { f with accepted := none } (.enterMode f.network.cbox.mode timestampMs)
  | _, _ => f.onNetwork (.turn (.app f.board.boardIoGetParam f.board.uptimeMs))

def taskSignals (f : Firmware) : Option (Firmware × FirmwareEvent) :=
  f.onSignals (if f.signals.ticking = none then .tick f.board.uptimeMs else .proceedTick)

def step (f : Firmware) : FirmwareAction → Option (Firmware × FirmwareEvent)
  | .risingEdge => f.board.risingEdge.map fun board => ({ f with board := board }, ⟨none, none, none⟩)
  | .exti1Isr => f.board.exti1Isr.map fun board => ({ f with board := board }, ⟨none, none, none⟩)
  | .tim3Isr pinHigh conversion => some (f.tim3Isr pinHigh conversion)
  | .usart1Isr byte => f.onNetwork (.usart1Isr byte)
  | .taskRxParser => f.onNetwork (.turn .rxParser)
  | .taskApp => f.taskApp
  | .taskSignals => f.taskSignals
  | .taskUartTx => f.onNetwork (.turn .uartTx)

/-- After `tasks_start`; the board has run since `board_io_init`. -/
def start (board : BoardIo) (raw : Parser) (message : ProtocolMessage)
    (frame : Vector UInt8 protocolMaxFrameLength) : Firmware :=
  ⟨board, Network.tasksStart raw message frame, .start (signalsInit true true), none⟩

/-- The actions of the network that are not a confirmed press, with the readings of the app. -/
def Reads (f : Firmware) : NetworkAction → Prop
  | .turn (.app paramValue nowMs) =>
    paramValue = f.board.boardIoGetParam ∧ nowMs = f.board.uptimeMs ∧
      f.signals.entering = none ∧ (f.network.sending = [] → f.accepted = none)
  | .tim3Isr _ => False
  | _ => True

inductive Moves (f : Firmware) : Firmware → FirmwareEvent → Prop
  | edge {action : BoardAction} {board : BoardIo} (taken : f.board.step action = some (board, none))
      (statement : action = .risingEdge ∨ action = .exti1) :
      Moves f { f with board := board } ⟨none, none, none⟩
  | timer {board : BoardIo} {run : BoardIo.TimerEvent} {pinHigh : Bool} {conversion : AdcConversion}
      (taken : f.board.step (.tim3 pinHigh conversion) = some (board, some run))
      (quiet : run.pressed = none) : Moves f { f with board := board } ⟨some run, none, none⟩
  | press {board : BoardIo} {run : BoardIo.TimerEvent} {pinHigh : Bool}
      {conversion : AdcConversion} {timestampMs : UInt32} {network : Network} {event : NetworkEvent}
      (taken : f.board.step (.tim3 pinHigh conversion) = some (board, some run))
      (pressed : run.pressed = some timestampMs)
      (sent : f.network.step (.tim3Isr timestampMs) = some (network, event)) :
      Moves f { f with board := board, network := network } ⟨some run, some event, none⟩
  | network {action : NetworkAction} {network : Network} {event : NetworkEvent}
      (reads : f.Reads action) (taken : f.network.step action = some (network, event)) :
      Moves f { f with network := network, accepted := event.acceptedPress <|> f.accepted }
        ⟨none, some event, none⟩
  | enters {timestampMs : UInt32} (idle : f.signals.entering = none) (free : f.network.sending = [])
      (held : f.accepted = some timestampMs) :
      Moves f
        { f with accepted := none, signals := f.signals.enter f.network.cbox.mode timestampMs }
        ⟨none, none, some (.entered f.network.cbox.mode timestampMs f.signals.ticking.isSome)⟩
  | stores {entry : ModeEntry} (inside : f.signals.entering = some entry) :
      Moves f { f with signals := f.signals.store entry } ⟨none, none, some .stored⟩
  | calls (idle : f.signals.ticking = none) :
      Moves f { f with signals := f.signals.call f.board.uptimeMs }
        ⟨none, none, some (.called f.board.uptimeMs f.signals.entering.isSome)⟩
  | ticks {tick : SignalsTick} (inside : f.signals.ticking = some tick) :
      Moves f
        { f with
          signals := (f.signals.tick tick).1
          board := (f.signals.tick tick).2.onBoard f.board }
        ⟨none, none, some (.ticked (f.signals.tick tick).2)⟩

theorem onNetwork_moves {f f' : Firmware} {action : NetworkAction} {e : FirmwareEvent}
    (h : f.onNetwork action = some (f', e)) (reads : f.Reads action) : Moves f f' e := by
  obtain ⟨⟨network, event⟩, taken, made⟩ := Option.map_eq_some_iff.mp h
  cases made
  exact .network reads taken

theorem taskApp_moves {f f' : Firmware} {e : FirmwareEvent} (h : f.taskApp = some (f', e)) :
    Moves f f' e := by
  unfold taskApp at h
  split at h
  · rename_i busy
    obtain ⟨entry, inside⟩ := Option.ne_none_iff_exists'.mp busy
    simp only [onSignals, SignalsTasks.step, inside, Option.map_some, Option.some.injEq] at h
    cases h
    exact .stores inside
  · rename_i idle
    have idle := not_not.mp idle
    split at h
    · rename_i timestampMs free held
      simp only [onSignals, SignalsTasks.step, if_pos idle, Option.map_some, Option.some.injEq] at h
      cases h
      exact .enters idle free held
    · rename_i other
      have quiet : f.network.sending = [] → f.accepted = none := by
        intro free
        cases held : f.accepted with
        | none => rfl
        | some timestampMs => exact absurd held (other timestampMs free)
      exact onNetwork_moves h ⟨rfl, rfl, idle, quiet⟩

theorem taskSignals_moves {f f' : Firmware} {e : FirmwareEvent}
    (h : f.taskSignals = some (f', e)) : Moves f f' e := by
  unfold taskSignals onSignals at h
  cases inside : f.signals.ticking with
  | none =>
    simp only [SignalsTasks.step, inside, if_true, Option.map_some, Option.some.injEq] at h
    cases h
    exact .calls inside
  | some tick =>
    rw [inside, if_neg (Option.some_ne_none tick)] at h
    simp only [SignalsTasks.step, inside, Option.map_some, Option.some.injEq] at h
    cases h
    exact .ticks inside

/-- All that a step of the board can do. -/
theorem step_moves {f f' : Firmware} {action : FirmwareAction} {e : FirmwareEvent}
    (h : f.step action = some (f', e)) : Moves f f' e := by
  cases action with
  | risingEdge =>
    obtain ⟨board, taken, made⟩ := Option.map_eq_some_iff.mp h
    cases made
    have stepped : f.board.step .risingEdge = some (board, none) := by
      simp only [BoardIo.step, taken, Option.map_some]
    exact .edge stepped (.inl rfl)
  | exti1Isr =>
    obtain ⟨board, taken, made⟩ := Option.map_eq_some_iff.mp h
    cases made
    have stepped : f.board.step .exti1 = some (board, none) := by
      simp only [BoardIo.step, taken, Option.map_some]
    exact .edge stepped (.inr rfl)
  | tim3Isr pinHigh conversion =>
    have made := Option.some.inj h
    unfold tim3Isr at made
    generalize ran : f.board.tim3Isr pinHigh conversion = r at made
    obtain ⟨board, run⟩ := r
    have taken : f.board.step (.tim3 pinHigh conversion) = some (board, some run) := by
      simp only [BoardIo.step, ran]
    cases pressed : run.pressed with
    | none =>
      simp only [pressed] at made
      cases made
      exact .timer taken pressed
    | some timestampMs =>
      simp only [pressed] at made
      cases made
      exact .press taken pressed rfl
  | usart1Isr byte => exact onNetwork_moves h trivial
  | taskRxParser => exact onNetwork_moves h trivial
  | taskApp => exact taskApp_moves h
  | taskSignals => exact taskSignals_moves h
  | taskUartTx => exact onNetwork_moves h trivial

end Firmware

end CommandBox
