import CommandBox.Box
import CommandBox.Parser

/-! The tasks of tasks.c, one pass of a task loop at a time. A pass that finds its queue
empty is `none`, as is a fault. The queues have no bound here, so no send blocks; `Network`
bounds them, and `TaskPasses` shows that both do the same while there is room. -/
namespace CommandBox
open Memory

/-- The globals of tasks.c and the locals that live across the passes of a loop;
`uartRxQueue` is everything on its way in, the line included. -/
structure Board where
  uartRxQueue : List UInt8
  parser : Parser
  message : ProtocolMessage
  parserErrorCount : UInt32
  appQueue : List ProtocolMessage
  cbox : Cbox
  uartTxQueue : List ProtocolMessage
  frame : Vector UInt8 protocolMaxFrameLength

/-- The local message starts uninitialised, here blank; it is sent only when it was set. -/
def cboxSendToTxQueue (board : Board) (type : ProtocolType) (payload : List UInt8) :
    Option Board := do
  let (message, valid) ← protocolMessageSet blankMessage type payload
  some (if valid then { board with uartTxQueue := board.uartTxQueue ++ [message] } else board)

def taskRxParser (board : Board) : Option Board :=
  match board.uartRxQueue with
  | [] => none
  | byte :: rest => do
    let c ← parserConsumeByte board.parser byte board.message
    let board := { board with uartRxQueue := rest, parser := c.parser, message := c.message }
    match c.result with
    | .messageReady => some { board with appQueue := board.appQueue ++ [c.message] }
    | .error =>
      let board := { board with parserErrorCount := board.parserErrorCount + 1 }
      cboxSendToTxQueue board .err (literal "bounds")
    | .inProgress => some board

def sendEmissions (board : Board) : List Emission → Option Board
  | [] => some board
  | e :: rest => do
    let board ← cboxSendToTxQueue board e.type (e.payload ++ [0])
    sendEmissions board rest

/-- The part of a pass of `task_app` that takes a message from its queue. -/
def taskAppMessage (board : Board) (nowMs : UInt32) : Option Board :=
  match board.appQueue with
  | [] => none
  | message :: rest => do
    let (cbox, emitted) ← cboxOnMessage board.cbox message nowMs
    sendEmissions { board with appQueue := rest, cbox := cbox } emitted

/-- The board and the bytes given to `uart_comm_send_bytes`, if it is called. -/
def taskUartTx (board : Board) : Option (Board × Option (List UInt8)) :=
  match board.uartTxQueue with
  | [] => none
  | message :: rest => do
    let r ← protocolEncodeFrame message board.frame
    let board := { board with uartTxQueue := rest, frame := r.frame }
    some (board, if r.success then some (r.frame.toList.take r.frameLength) else none)

end CommandBox
