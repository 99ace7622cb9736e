import CommandBox.BridgeMain
import CommandBox.NetworkFlow

/-! The box with its tasks and the bridge with its main loop, joined by a serial line that
keeps every byte and the order of the bytes in each direction. Any delay is possible, and
either side may be arbitrarily slow. -/
namespace CommandBox

/-- The argument of `ser.read` in `main`. -/
abbrev readSize : Nat := 256

/-- `toBridge` was sent by USART1 and is still to be read, `toBox` was written by the bridge
and is still to arrive; `buffer` is the variable of `main`. -/
structure Exchange where
  network : Network
  toBridge : List UInt8
  buffer : List UInt8
  toBox : List UInt8

/-- `read` is a pass of the outer loop in which `ser.read` finds at most `count` bytes. -/
inductive ExchangeAction where
  | usart1Isr
  | tim3Isr (timestampMs : UInt32)
  | turn (turn : TaskTurn)
  | read (count : Nat)
  deriving DecidableEq

inductive ExchangeEvent where
  | network (event : NetworkEvent)
  | read (chunk : List UInt8) (output : BridgeOutput)
  | nothing
  deriving DecidableEq

namespace Exchange

def onNetwork (s : Exchange) (action : NetworkAction) : Option (Exchange × ExchangeEvent) :=
  (s.network.step action).map fun r =>
    ({ s with network := r.1, toBridge := s.toBridge ++ bytesTransmitted [r.2] }, .network r.2)

def step (noAck : Bool) (s : Exchange) : ExchangeAction → Option (Exchange × ExchangeEvent)
  | .usart1Isr =>
    match s.toBox with
    | [] => some (s, .nothing)
    | byte :: rest => { s with toBox := rest }.onNetwork (.usart1Isr byte)
  | .tim3Isr timestampMs => s.onNetwork (.tim3Isr timestampMs)
  | .turn turn => s.onNetwork (.turn turn)
  | .read count => do
    let chunk := s.toBridge.take (min count readSize)
    let (buffer, output) ← bridgeRead noAck s.buffer chunk
    some ({ s with
      toBridge := s.toBridge.drop (min count readSize)
      buffer := buffer
      toBox := s.toBox ++ output.written }, .read chunk output)

/-- The board after `tasks_start`, and `main` before its first pass. -/
def start (raw : Parser) (message : ProtocolMessage)
    (frame : Vector UInt8 protocolMaxFrameLength) : Exchange :=
  ⟨Network.tasksStart raw message frame, [], [], []⟩

/- What a step does. -/

/-- What an action asks of the network, and the line behind it. -/
def asks : ExchangeAction → List UInt8 → Option (NetworkAction × List UInt8)
  | .usart1Isr, byte :: rest => some (.usart1Isr byte, rest)
  | .usart1Isr, [] => none
  | .tim3Isr timestampMs, line => some (.tim3Isr timestampMs, line)
  | .turn turn, line => some (.turn turn, line)
  | .read _, _ => none

inductive Moves (noAck : Bool) (s : Exchange) : ExchangeAction → Exchange → ExchangeEvent → Prop
  | acts {action : ExchangeAction} {act : NetworkAction} {rest : List UInt8} {n' : Network}
      {event : NetworkEvent} (asked : asks action s.toBox = some (act, rest))
      (moves : s.network.Moves act n' event) :
      Moves noAck s action
        { s with network := n', toBridge := s.toBridge ++ bytesTransmitted [event], toBox := rest }
        (.network event)
  | reads (count : Nat) {chunk rest : List UInt8} (line : s.toBridge = chunk ++ rest)
      (some' : 0 < count → chunk = [] → s.toBridge = []) :
      Moves noAck s (.read count)
        { s with
          toBridge := rest
          buffer := (Lines.cut protocolEndChar (s.buffer ++ chunk)).2
          toBox := s.toBox ++ (streamOutput noAck (s.buffer ++ chunk)).written }
        (.read chunk (streamOutput noAck (s.buffer ++ chunk)))
  | nothing (silent : s.toBox = []) : Moves noAck s .usart1Isr s .nothing

theorem onNetwork_does {noAck : Bool} {s : Exchange} (sound : s.network.Sound)
    (action : ExchangeAction) {act : NetworkAction} {rest : List UInt8}
    (asked : asks action s.toBox = some (act, rest)) :
    ∃ s' event, { s with toBox := rest }.onNetwork act = some (s', event) ∧
      Moves noAck s action s' event := by
  obtain ⟨n', event, taken, moves⟩ := Network.step_does sound act
  refine ⟨_, _, ?_, .acts asked moves⟩
  simp only [onNetwork, taken, Option.map_some]

theorem step_does (noAck : Bool) {s : Exchange} (sound : s.network.Sound)
    (action : ExchangeAction) :
    ∃ s' event, s.step noAck action = some (s', event) ∧ Moves noAck s action s' event := by
  cases action with
  | usart1Isr =>
    cases line : s.toBox with
    | nil =>
      refine ⟨s, .nothing, ?_, .nothing line⟩
      simp only [step, line]
    | cons byte rest =>
      have asked : asks .usart1Isr s.toBox = some (.usart1Isr byte, rest) := by rw [line]; rfl
      obtain ⟨s', event, taken, moves⟩ := onNetwork_does sound .usart1Isr asked
      refine ⟨s', event, ?_, moves⟩
      simp only [step, line]
      exact taken
  | tim3Isr timestampMs => exact onNetwork_does sound (.tim3Isr timestampMs) rfl
  | turn turn => exact onNetwork_does sound (.turn turn) rfl
  | read count =>
    have taken := read_cut noAck s.buffer (s.toBridge.take (min count readSize))
    have line := (List.take_append_drop (min count readSize) s.toBridge).symm
    refine ⟨_, _, ?_, .reads count line ?_⟩
    · exact Memory.then_some taken rfl
    · intro positive empty
      have size : readSize = 256 := rfl
      rcases List.take_eq_nil_iff.mp empty with none | done
      · exact absurd none (by omega)
      · exact done

end Exchange

end CommandBox
