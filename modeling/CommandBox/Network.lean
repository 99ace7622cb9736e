import CommandBox.Box
import CommandBox.Parser
import CommandBox.RoundTrip
import CommandBox.Lib.Queue

/-! The tasks of tasks.c and their four queues, every action between two queue operations
as one step. A task whose turn finds it blocked waits. `ETAPA2_ADC_REPORT` is 0, and
the delay of `task_app` between its passes is any time without a turn. -/
namespace CommandBox

abbrev uartRxIsrQueueLength : Nat := 64
abbrev uartTxQueueLength : Nat := 8
abbrev appMessageQueueLength : Nat := 8
abbrev buttonEventQueueLength : Nat := 4

/-- What `task_rx_parser` does next: take a byte, hand the message on, or report an error. -/
inductive RxPoint where
  | receiving | forwarding | replying
  deriving DecidableEq, Repr

/-- The call of the pass of `task_app` that comes next. -/
inductive AppPoint where
  | button | message | tick
  deriving DecidableEq, Repr

/-- The globals of tasks.c and the locals of the tasks. `sending` are the calls of the
callback that the current call of the box has still to make, `transmitting` the bytes that
`uart_comm_send_bytes` has still to send. A button event is its time stamp. -/
structure Network where
  uartRxQueue : Queue UInt8 uartRxIsrQueueLength
  uartRxIrqCount : UInt32
  uartRxDropCount : UInt32
  rxPoint : RxPoint
  parser : Parser
  message : ProtocolMessage
  parserErrorCount : UInt32
  appQueue : Queue ProtocolMessage appMessageQueueLength
  buttonQueue : Queue UInt32 buttonEventQueueLength
  appPoint : AppPoint
  cbox : Cbox
  sending : List Emission
  uartTxQueue : Queue ProtocolMessage uartTxQueueLength
  frame : Vector UInt8 protocolMaxFrameLength
  transmitting : List UInt8

inductive NetworkTask where
  | rxParser | app | uartTx
  deriving DecidableEq, Repr

/-- A turn of a task; the readings are what the app reads from the board. -/
inductive TaskTurn where
  | rxParser
  | app (paramValue : UInt8) (nowMs : UInt32)
  | uartTx
  deriving DecidableEq

def TaskTurn.task : TaskTurn → NetworkTask
  | .rxParser => .rxParser
  | .app _ _ => .app
  | .uartTx => .uartTx

inductive NetworkAction where
  | usart1Isr (byte : UInt8)
  | tim3Isr (timestampMs : UInt32)
  | turn (turn : TaskTurn)
  deriving DecidableEq

/-- What a step did. `sent` is a return from `cbox_send_to_tx_queue`, with the queued message
if `protocol_message_set` made one; `taken` has the flag of `protocol_encode_frame`. -/
inductive NetworkEvent where
  | arrived (byte : UInt8)
  | dropped (byte : UInt8)
  | pressed (timestampMs : UInt32)
  | missed (timestampMs : UInt32)
  | waits (task : NetworkTask)
  | polled
  | parsed (byte : UInt8) (reply : Reply)
  | forwarded (message : ProtocolMessage)
  | called (observed : Observed)
  | sent (task : NetworkTask) (emission : Emission) (queued : Option ProtocolMessage)
  | taken (message : ProtocolMessage) (success : Bool)
  | transmitted (byte : UInt8)
  deriving DecidableEq

def errBoundsEmission : Emission := ⟨.err, ascii "bounds"⟩

namespace Network

/-- The queue after the call and what was queued, or `none` while the queue is full. -/
def cboxSendToTxQueue (queue : Queue ProtocolMessage uartTxQueueLength) (type : ProtocolType)
    (payload : List UInt8) :
    Option (Option (Queue ProtocolMessage uartTxQueueLength × Option ProtocolMessage)) := do
  let (message, valid) ← protocolMessageSet blankMessage type payload
  if valid then some ((queue.send message).map fun queue => (queue, some message))
  else some (some (queue, none))

def usart1Isr (network : Network) (byte : UInt8) : Network × NetworkEvent :=
  let network := { network with uartRxIrqCount := network.uartRxIrqCount + 1 }
  match network.uartRxQueue.send byte with
  | some queue => ({ network with uartRxQueue := queue }, .arrived byte)
  | none => ({ network with uartRxDropCount := network.uartRxDropCount + 1 }, .dropped byte)

/-- A confirmed press; nobody counts the one that finds the queue full. -/
def tim3Isr (network : Network) (timestampMs : UInt32) : Network × NetworkEvent :=
  match network.buttonQueue.send timestampMs with
  | some queue => ({ network with buttonQueue := queue }, .pressed timestampMs)
  | none => (network, .missed timestampMs)

def taskRxParser (network : Network) : Option (Network × NetworkEvent) :=
  match network.rxPoint with
  | .receiving =>
    match network.uartRxQueue.receive with
    | none => some (network, .waits .rxParser)
    | some (byte, queue) => do
      let c ← parserConsumeByte network.parser byte network.message
      let network := { network with uartRxQueue := queue, parser := c.parser, message := c.message }
      let event := .parsed byte ⟨c.result, c.message⟩
      match c.result with
      | .messageReady => some ({ network with rxPoint := .forwarding }, event)
      | .error =>
        some ({ network with parserErrorCount := network.parserErrorCount + 1,
                             rxPoint := .replying }, event)
      | .inProgress => some (network, event)
  | .forwarding =>
    match network.appQueue.send network.message with
    | none => some (network, .waits .rxParser)
    | some queue =>
      some ({ network with appQueue := queue, rxPoint := .receiving }, .forwarded network.message)
  | .replying => do
    match ← cboxSendToTxQueue network.uartTxQueue .err (literal "bounds") with
    | none => some (network, .waits .rxParser)
    | some (queue, queued) =>
      some ({ network with uartTxQueue := queue, rxPoint := .receiving },
        .sent .rxParser errBoundsEmission queued)

/-- A call on the box up to its first call of the callback. -/
def callBox (network : Network) (call : Call) : Option (Network × NetworkEvent) :=
  (cboxCall network.cbox call).map fun r =>
    ({ network with cbox := r.1, sending := r.2.emitted }, .called r.2)

def taskApp (network : Network) (paramValue : UInt8) (nowMs : UInt32) :
    Option (Network × NetworkEvent) :=
  match network.sending with
  | emission :: rest => do
    -- still inside the call of the box: the callback blocks while the queue is full
    match ← cboxSendToTxQueue network.uartTxQueue emission.type (emission.payload ++ [0]) with
    | none => some (network, .waits .app)
    | some (queue, queued) =>
      some ({ network with uartTxQueue := queue, sending := rest }, .sent .app emission queued)
  | [] =>
    match network.appPoint with
    | .button =>
      let network := { network with appPoint := .message }
      match network.buttonQueue.receive with
      | none => some (network, .polled)
      | some (timestampMs, queue) =>
        callBox { network with buttonQueue := queue } (.button paramValue timestampMs)
    | .message =>
      let network := { network with appPoint := .tick }
      match network.appQueue.receive with
      | none => some (network, .polled)
      | some (message, queue) => callBox { network with appQueue := queue } (.message message nowMs)
    | .tick => callBox { network with appPoint := .button } (.tick nowMs)

def taskUartTx (network : Network) : Option (Network × NetworkEvent) :=
  match network.transmitting with
  | byte :: rest => some ({ network with transmitting := rest }, .transmitted byte)
  | [] =>
    match network.uartTxQueue.receive with
    | none => some (network, .waits .uartTx)
    | some (message, queue) => do
      -- the bytes are copied out of `frame`, which nobody writes while they are sent
      let r ← protocolEncodeFrame message network.frame
      some ({ network with
        uartTxQueue := queue
        frame := r.frame
        transmitting := if r.success then r.written else [] }, .taken message r.success)

def step (network : Network) : NetworkAction → Option (Network × NetworkEvent)
  | .usart1Isr byte => some (network.usart1Isr byte)
  | .tim3Isr timestampMs => some (network.tim3Isr timestampMs)
  | .turn .rxParser => network.taskRxParser
  | .turn (.app paramValue nowMs) => network.taskApp paramValue nowMs
  | .turn .uartTx => network.taskUartTx

/-- `tasks_start`; `raw`, `message` and `frame` are the objects the tasks find in memory. -/
def tasksStart (raw : Parser) (message : ProtocolMessage)
    (frame : Vector UInt8 protocolMaxFrameLength) : Network where
  uartRxQueue := .empty
  uartRxIrqCount := 0
  uartRxDropCount := 0
  rxPoint := .receiving
  parser := parserInit raw
  message := message
  parserErrorCount := 0
  appQueue := .empty
  buttonQueue := .empty
  appPoint := .button
  cbox := cboxInit true
  sending := []
  uartTxQueue := .empty
  frame := frame
  transmitting := []

end Network

end CommandBox
