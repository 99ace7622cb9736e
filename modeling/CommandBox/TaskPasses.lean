import CommandBox.BackToBack
import CommandBox.NetworkFlow

/-! A pass of a task loop as turns of the network. While the queues of tasks.c have room, the
tasks over queues without a bound do what those of the network do. -/
namespace CommandBox
open Memory Machine

namespace Board

/-- The queues of tasks.c could hold what those of the board do. -/
structure Fits (board : Board) : Prop where
  uartRx : board.uartRxQueue.length ≤ uartRxIsrQueueLength
  app : board.appQueue.length ≤ appMessageQueueLength
  uartTx : board.uartTxQueue.length ≤ uartTxQueueLength

instance (board : Board) : Decidable board.Fits :=
  decidable_of_iff (board.uartRxQueue.length ≤ uartRxIsrQueueLength ∧
      board.appQueue.length ≤ appMessageQueueLength ∧
      board.uartTxQueue.length ≤ uartTxQueueLength)
    ⟨fun h => ⟨h.1, h.2.1, h.2.2⟩, fun h => ⟨h.1, h.2, h.3⟩⟩

end Board

namespace Network

/-- The network between two passes, its queues without their bounds. -/
def board (network : Network) : Board where
  uartRxQueue := network.uartRxQueue.items
  parser := network.parser
  message := network.message
  parserErrorCount := network.parserErrorCount
  appQueue := network.appQueue.items
  cbox := network.cbox
  uartTxQueue := network.uartTxQueue.items
  frame := network.frame

/-- No task is in the middle of a pass, `task_app` looks at its messages next, and no press
waits. -/
structure Between (network : Network) : Prop where
  receiving : network.rxPoint = .receiving
  message : network.appPoint = .message
  sending : network.sending = []
  transmitting : network.transmitting = []
  noPress : network.buttonQueue.items = []

/-- The tasks are there after their first look at the buttons. -/
theorem start_between (raw : Parser) (message : ProtocolMessage)
    (frame : Vector UInt8 protocolMaxFrameLength) :
    ∃ network events, run step (tasksStart raw message frame) [.turn (.app 0 0)] =
      some (network, events) ∧ network.Between :=
  ⟨_, _, rfl, rfl, rfl, rfl, rfl, rfl⟩

/-- Turns of one task take the network to the board and send the bytes. -/
def Passes (network : Network) (task : NetworkTask) (board : Board) (bytes : List UInt8) : Prop :=
  ∃ (turns : List TaskTurn) (network' : Network) (events : List NetworkEvent),
    run step network (turns.map .turn) = some (network', events) ∧
    (∀ turn ∈ turns, turn.task = task) ∧ network'.Between ∧ network'.board = board ∧
    bytesTransmitted events = bytes

/-- A call of the callback that has room: the message is queued, or there is none. -/
theorem send_fits (queue : Queue ProtocolMessage uartTxQueueLength) {board board' : Board}
    (same : board.uartTxQueue = queue.items) {type : ProtocolType} {payload : List UInt8}
    (sent : CommandBox.cboxSendToTxQueue board type payload = some board')
    (fits : board'.uartTxQueue.length ≤ uartTxQueueLength) :
    ∃ queue' queued, cboxSendToTxQueue queue type payload = some (some (queue', queued)) ∧
      board' = { board with uartTxQueue := queue'.items } := by
  simp only [CommandBox.cboxSendToTxQueue, Option.bind_eq_bind, Option.bind_eq_some_iff] at sent
  obtain ⟨⟨message, valid⟩, set, sent⟩ := sent
  cases valid with
  | true =>
    cases sent
    rw [if_pos rfl, same] at fits
    obtain ⟨queue', queued, items⟩ := Queue.send_fits fits
    refine ⟨queue', some message, ?_, ?_⟩
    · simp only [cboxSendToTxQueue, set, Option.bind_eq_bind, Option.bind_some, if_true, queued,
        Option.map_some]
    · rw [items, same]
      rfl
  | false =>
    cases sent
    refine ⟨queue, none, ?_, ?_⟩
    · simp only [cboxSendToTxQueue, set, Option.bind_eq_bind, Option.bind_some, Bool.false_eq_true,
        if_false]
    · rw [← same]
      rfl

theorem emissions_grow {board board' : Board} {emissions : List Emission}
    (sent : sendEmissions board emissions = some board') :
    board.uartTxQueue.length ≤ board'.uartTxQueue.length := by
  induction emissions generalizing board with
  | nil =>
    cases sent
    exact Nat.le_refl _
  | cons e rest ih =>
    simp only [sendEmissions, Option.bind_eq_bind, Option.bind_eq_some_iff] at sent
    obtain ⟨next, one, more⟩ := sent
    refine Nat.le_trans ?_ (ih more)
    simp only [CommandBox.cboxSendToTxQueue, Option.bind_eq_bind, Option.bind_eq_some_iff] at one
    obtain ⟨⟨message, valid⟩, _, one⟩ := one
    cases one
    split <;> simp

/-- The calls of the callback inside one call of the box. -/
theorem emissions_turns (paramValue : UInt8) (nowMs : UInt32) (network : Network)
    {emissions : List Emission} {board' : Board}
    (sent : sendEmissions network.board emissions = some board')
    (fits : board'.uartTxQueue.length ≤ uartTxQueueLength) :
    ∃ queue events,
      run step { network with sending := emissions }
        (List.replicate emissions.length (.turn (.app paramValue nowMs))) =
        some ({ network with uartTxQueue := queue, sending := [] }, events) ∧
      board' = { network.board with uartTxQueue := queue.items } ∧
      bytesTransmitted events = [] := by
  induction emissions generalizing network with
  | nil =>
    cases sent
    exact ⟨network.uartTxQueue, [], rfl, rfl, rfl⟩
  | cons e rest ih =>
    simp only [sendEmissions, Option.bind_eq_bind, Option.bind_eq_some_iff] at sent
    obtain ⟨next, one, more⟩ := sent
    obtain ⟨queue, queued, called, rfl⟩ :=
      send_fits network.uartTxQueue rfl one (Nat.le_trans (emissions_grow more) fits)
    obtain ⟨queue', events, ran, last, silent⟩ :=
      ih { network with uartTxQueue := queue } more
    have turn : step { network with sending := e :: rest } (.turn (.app paramValue nowMs)) =
        some ({ network with uartTxQueue := queue, sending := rest }, .sent .app e queued) := by
      simp only [step, taskApp, called, Option.bind_eq_bind, Option.bind_some]
    refine ⟨queue', .sent .app e queued :: events, ?_, last, silent⟩
    rw [List.length_cons, List.replicate_succ, run_cons _ turn, ran, Option.map_some]

theorem forward_turn {network : Network} (point : network.rxPoint = .forwarding)
    {queue : Queue ProtocolMessage appMessageQueueLength}
    (queued : network.appQueue.send network.message = some queue) :
    network.step (.turn .rxParser) =
      some ({ network with appQueue := queue, rxPoint := .receiving },
        .forwarded network.message) := by
  simp only [step, taskRxParser, point, queued]

theorem reply_turn (network : Network) (point : network.rxPoint = .replying)
    {queue : Queue ProtocolMessage uartTxQueueLength} {queued : Option ProtocolMessage}
    (called : cboxSendToTxQueue network.uartTxQueue .err (literal "bounds") =
      some (some (queue, queued))) :
    network.step (.turn .rxParser) =
      some ({ network with uartTxQueue := queue, rxPoint := .receiving },
        .sent .rxParser errBoundsEmission queued) := by
  simp only [step, taskRxParser, point, called, Option.bind_eq_bind, Option.bind_some]

/-- A message is handed on, and an error reported, in a second turn. -/
theorem rx_pass {network : Network} (between : network.Between) {board : Board}
    (pass : CommandBox.taskRxParser network.board = some board) (fits : board.Fits) :
    network.Passes .rxParser board [] := by
  cases received : network.uartRxQueue.receive with
  | none =>
    have drained : network.board.uartRxQueue = [] := (Queue.receive_none _).mp received
    rw [CommandBox.taskRxParser, drained] at pass
    contradiction
  | some next =>
    obtain ⟨byte, queue⟩ := next
    have line : network.board.uartRxQueue = byte :: queue.items := Queue.receive_items received
    simp only [CommandBox.taskRxParser, line, Option.bind_eq_bind, Option.bind_eq_some_iff] at pass
    obtain ⟨c, consumed, pass⟩ := pass
    have consumed : parserConsumeByte network.parser byte network.message = some c := consumed
    have turn : network.step (.turn .rxParser) = network.taskRxParser := rfl
    simp only [taskRxParser, between.receiving, received, consumed, Option.bind_eq_bind,
      Option.bind_some] at turn
    obtain ⟨_, message, sending, transmitting, noPress⟩ := between
    cases result : c.result with
    | inProgress =>
      simp only [result] at pass turn
      cases pass
      exact ⟨[.rxParser], _, _, run_cons [] turn, by simp [TaskTurn.task],
        ⟨rfl, message, sending, transmitting, noPress⟩, rfl, rfl⟩
    | messageReady =>
      simp only [result] at pass turn
      cases pass
      obtain ⟨queue', queued, items⟩ := Queue.send_fits fits.app
      have whole := run_cons [.turn .rxParser] turn
      rw [run_cons [] (forward_turn rfl queued)] at whole
      refine ⟨[.rxParser, .rxParser], _, _, whole, by simp [TaskTurn.task],
        ⟨rfl, message, sending, transmitting, noPress⟩, ?_, rfl⟩
      exact congrArg (fun items => { network.board with
        uartRxQueue := queue.items, parser := c.parser, message := c.message, appQueue := items })
        items
    | error =>
      simp only [result] at pass turn
      obtain ⟨queue', queued, called, rfl⟩ :=
        send_fits network.uartTxQueue rfl pass fits.uartTx
      have again := reply_turn { network with
        uartRxQueue := queue, parser := c.parser, message := c.message,
        parserErrorCount := network.parserErrorCount + 1, rxPoint := .replying } rfl called
      have whole := run_cons [.turn .rxParser] turn
      rw [run_cons [] again] at whole
      exact ⟨[.rxParser, .rxParser], _, _, whole, by simp [TaskTurn.task],
        ⟨rfl, message, sending, transmitting, noPress⟩, rfl, rfl⟩

/-- Until its deadline the box lets the time pass. -/
theorem tick_waits (box : Cbox) : cboxOnTick box (box.ackDeadlineMs - 1) = some (box, []) := by
  have early : (box.ackDeadlineMs - 1 - box.ackDeadlineMs).toInt32 < 0 := by
    have one : box.ackDeadlineMs - 1 - box.ackDeadlineMs = -1 := by grind
    rw [one]
    decide
  simp only [cboxOnTick, early, if_true]
  split <;> rfl

/-- The rest of the pass of `task_app`, at a time at which nothing is due. -/
theorem tick_turns (paramValue : UInt8) (network : Network) (point : network.appPoint = .tick)
    (sending : network.sending = []) (noPress : network.buttonQueue.items = []) :
    ∃ events, run step network
        [.turn (.app paramValue (network.cbox.ackDeadlineMs - 1)), .turn (.app paramValue 0)] =
        some ({ network with appPoint := .message }, events) ∧
      bytesTransmitted events = [] := by
  have none_ := (Queue.receive_none network.buttonQueue).mpr noPress
  have tick : network.step (.turn (.app paramValue (network.cbox.ackDeadlineMs - 1))) =
      some ({ network with appPoint := .button, sending := [] },
        .called ⟨.tick (network.cbox.ackDeadlineMs - 1), false, []⟩) := by
    simp only [step, taskApp, sending, point, callBox, cboxCall, tick_waits, Option.map_some]
  have poll : step { network with appPoint := .button, sending := [] }
      (.turn (.app paramValue 0)) =
      some ({ network with appPoint := .message, sending := [] }, .polled) := by
    simp only [step, taskApp, none_]
  refine ⟨[.called ⟨.tick (network.cbox.ackDeadlineMs - 1), false, []⟩, .polled], ?_, rfl⟩
  rw [run_cons _ tick, run_cons _ poll, ← sending]
  rfl

/-- A message with all that the box sends for it, then the rest of the pass. -/
theorem app_pass {network : Network} (between : network.Between) {nowMs : UInt32} {board : Board}
    (pass : taskAppMessage network.board nowMs = some board) (fits : board.Fits) :
    network.Passes .app board [] := by
  cases received : network.appQueue.receive with
  | none =>
    have drained : network.board.appQueue = [] := (Queue.receive_none _).mp received
    rw [taskAppMessage, drained] at pass
    contradiction
  | some next =>
    obtain ⟨message, queue⟩ := next
    have line : network.board.appQueue = message :: queue.items := Queue.receive_items received
    simp only [taskAppMessage, line, Option.bind_eq_bind, Option.bind_eq_some_iff] at pass
    obtain ⟨⟨cbox, emitted⟩, handled, pass⟩ := pass
    have called : cboxCall network.cbox (.message message nowMs) =
        some (cbox, ⟨.message message nowMs, false, emitted⟩) := by
      have handled : cboxOnMessage network.cbox message nowMs = some (cbox, emitted) := handled
      rw [cboxCall, handled]
      rfl
    have turn : network.step (.turn (.app 0 nowMs)) =
        some ({ network with
          appPoint := .tick, appQueue := queue, cbox := cbox, sending := emitted },
          .called ⟨.message message nowMs, false, emitted⟩) := by
      simp only [step, taskApp, between.sending, between.message, received, callBox, called,
        Option.map_some]
    obtain ⟨queue', events, sends, rfl, silent⟩ := emissions_turns 0 nowMs
      { network with appPoint := .tick, appQueue := queue, cbox := cbox } pass
      fits.uartTx
    obtain ⟨ticks, rest, still⟩ := tick_turns 0 { network with
      appPoint := .tick, appQueue := queue, cbox := cbox, uartTxQueue := queue', sending := [] }
      rfl rfl between.noPress
    have whole := run_cons (List.replicate emitted.length (.turn (.app 0 nowMs)) ++
      [.turn (.app 0 (cbox.ackDeadlineMs - 1)), .turn (.app 0 0)]) turn
    rw [run_append sends, rest] at whole
    have mapped : (TaskTurn.app 0 nowMs :: (List.replicate emitted.length (.app 0 nowMs) ++
          [.app 0 (cbox.ackDeadlineMs - 1), .app 0 0])).map NetworkAction.turn =
        .turn (.app 0 nowMs) :: (List.replicate emitted.length (.turn (.app 0 nowMs)) ++
          [.turn (.app 0 (cbox.ackDeadlineMs - 1)), .turn (.app 0 0)]) := by
      rw [List.map_cons, List.map_append, List.map_replicate]
      rfl
    have quiet : bytesTransmitted (events ++ ticks) = [] :=
      List.filterMap_append.trans (congrArg₂ (· ++ ·) silent still)
    exact ⟨_, _, _, (congrArg (run step network) mapped).trans whole,
      by simp [or_imp, forall_and, TaskTurn.task], ⟨between.receiving, rfl, rfl,
        between.transmitting, between.noPress⟩, rfl, quiet⟩

/-- The bytes go out one by one. -/
theorem transmitting_turns (network : Network) (bytes : List UInt8) :
    run step { network with transmitting := bytes }
        (List.replicate bytes.length (.turn .uartTx)) =
      some ({ network with transmitting := [] }, bytes.map .transmitted) := by
  induction bytes with
  | nil => rfl
  | cons byte rest ih =>
    have turn : step { network with transmitting := byte :: rest } (.turn .uartTx) =
        some ({ network with transmitting := rest }, .transmitted byte) := rfl
    rw [List.length_cons, List.replicate_succ, run_cons _ turn, ih]
    rfl

theorem transmitted_bytes (bytes : List UInt8) :
    bytesTransmitted (bytes.map .transmitted) = bytes := by
  rw [bytesTransmitted, List.filterMap_map]
  exact List.filterMap_some

theorem tx_pass {network : Network} (between : network.Between) {board : Board}
    {sent : Option (List UInt8)}
    (pass : CommandBox.taskUartTx network.board = some (board, sent)) :
    network.Passes .uartTx board (sent.getD []) := by
  cases received : network.uartTxQueue.receive with
  | none =>
    have drained : network.board.uartTxQueue = [] := (Queue.receive_none _).mp received
    rw [CommandBox.taskUartTx, drained] at pass
    contradiction
  | some next =>
    obtain ⟨message, queue⟩ := next
    have line : network.board.uartTxQueue = message :: queue.items := Queue.receive_items received
    simp only [CommandBox.taskUartTx, line, Option.bind_eq_bind, Option.bind_eq_some_iff] at pass
    obtain ⟨r, encoded, pass⟩ := pass
    have encoded : protocolEncodeFrame message network.frame = some r := encoded
    have turn : network.step (.turn .uartTx) =
        some ({ network with
          uartTxQueue := queue, frame := r.frame,
          transmitting := if r.success then r.written else [] }, .taken message r.success) := by
      simp only [step, taskUartTx, between.transmitting, received, encoded, Option.bind_eq_bind,
        Option.bind_some]
    obtain ⟨bytes, sends⟩ : ∃ bytes, bytes = if r.success then r.written else [] := ⟨_, rfl⟩
    rw [← sends] at turn
    have whole := run_cons (List.replicate bytes.length (.turn .uartTx)) turn
    rw [transmitting_turns { network with uartTxQueue := queue, frame := r.frame }] at whole
    have mapped : (TaskTurn.uartTx :: List.replicate bytes.length .uartTx).map NetworkAction.turn =
        .turn .uartTx :: List.replicate bytes.length (.turn .uartTx) := by
      rw [List.map_cons, List.map_replicate]
    have same : bytes = sent.getD [] := by
      cases success : r.success <;> rw [success] at sends pass <;> cases pass <;> exact sends
    cases pass
    exact ⟨_, _, _, (congrArg (run step network) mapped).trans whole, by simp [TaskTurn.task],
      ⟨between.receiving, between.message, between.sending, rfl, between.noPress⟩, rfl,
      (transmitted_bytes bytes).trans same⟩

/-- A turn of one of two networks; the byte that it transmits arrives at the other. -/
def lineTurn (s : Network × Network) (turn : TaskTurn) :
    Option ((Network × Network) × NetworkEvent) := do
  let (own, event) ← s.1.step (.turn turn)
  match event with
  | .transmitted byte => some ((own, (s.2.usart1Isr byte).1), event)
  | _ => some ((own, s.2), event)

def arriving (network : Network) (bytes : List UInt8) : Network :=
  bytes.foldl (fun network byte => (network.usart1Isr byte).1) network

theorem line_run {own own' other : Network} {turns : List TaskTurn} {events : List NetworkEvent}
    (ran : run step own (turns.map .turn) = some (own', events)) :
    run lineTurn (own, other) turns =
      some ((own', other.arriving (bytesTransmitted events)), events) := by
  induction turns generalizing own other events with
  | nil =>
    cases ran
    rfl
  | cons turn rest ih =>
    simp only [List.map_cons, run, Option.bind_eq_bind, Option.bind_eq_some_iff] at ran
    obtain ⟨⟨next, event⟩, one, ⟨last, others⟩, tail, out⟩ := ran
    cases out
    have both : lineTurn (own, other) turn =
        some ((next, other.arriving (bytesTransmitted [event])), event) := by
      simp only [lineTurn, one, Option.bind_eq_bind, Option.bind_some]
      cases event <;> rfl
    rw [run_cons _ both, ih tail]
    cases event <;> rfl

/-- Bytes for which there is room all get into the queue. -/
theorem arriving_fits {network : Network} {bytes : List UInt8}
    (fits : (network.uartRxQueue.items ++ bytes).length ≤ uartRxIsrQueueLength) :
    (network.arriving bytes).board =
        { network.board with uartRxQueue := network.board.uartRxQueue ++ bytes } ∧
      (network.Between → (network.arriving bytes).Between) := by
  induction bytes generalizing network with
  | nil =>
    rw [List.append_nil]
    exact ⟨rfl, id⟩
  | cons byte rest ih =>
    rw [← List.singleton_append, ← List.append_assoc] at fits
    obtain ⟨queue, queued, items⟩ := Queue.send_fits
      (Nat.le_trans (List.prefix_append _ rest).length_le fits)
    let next : Network := { network with
      uartRxIrqCount := network.uartRxIrqCount + 1, uartRxQueue := queue }
    have first : (network.usart1Isr byte).1 = next := by simp only [usart1Isr, queued, next]
    have more : (next.uartRxQueue.items ++ rest).length ≤ uartRxIsrQueueLength := by rwa [items]
    obtain ⟨same, between⟩ := ih more
    change ((network.usart1Isr byte).1.arriving rest).board = _ ∧
      (_ → ((network.usart1Isr byte).1.arriving rest).Between)
    rw [first]
    refine ⟨same.trans ?_, fun h => between ⟨h.1, h.2, h.3, h.4, h.5⟩⟩
    show ({ network.board with uartRxQueue := queue.items ++ rest } : Board) =
      { network.board with uartRxQueue := network.uartRxQueue.items ++ byte :: rest }
    rw [items, List.append_assoc, List.singleton_append]

/-- A pass next to another network, which receives what is sent. -/
theorem Passes.beside {own other : Network} {task : NetworkTask} {board : Board}
    {bytes : List UInt8} (passes : own.Passes task board bytes) (between : other.Between)
    (fits : (other.uartRxQueue.items ++ bytes).length ≤ uartRxIsrQueueLength) :
    ∃ turns own' other' events, run lineTurn (own, other) turns = some ((own', other'), events) ∧
      own'.Between ∧ other'.Between ∧ own'.board = board ∧
      other'.board = { other.board with uartRxQueue := other.board.uartRxQueue ++ bytes } ∧
      bytesTransmitted events = bytes := by
  obtain ⟨turns, own', events, ran, _, after, shows_, sends⟩ := passes
  obtain ⟨arrived, still⟩ := arriving_fits fits
  rw [← sends] at arrived still
  exact ⟨turns, own', _, events, line_run ran, after, still between, shows_, sends ▸ arrived, sends⟩

/-- A pass of one of two boards, as turns of the network that it is. -/
theorem pass_turns {own other : Network} (between : own.Between) (between' : other.Between)
    {task : BoardTask} {own' other' : Board} {sent : Option (List UInt8)}
    (pass : boardTurn own.board other.board task = some ((own', other'), sent))
    (fits : own'.Fits) (fits' : other'.Fits) :
    ∃ turns own'' other'' events,
      run lineTurn (own, other) turns = some ((own'', other''), events) ∧
      own''.Between ∧ other''.Between ∧ own''.board = own' ∧ other''.board = other' ∧
      bytesTransmitted events = sent.getD [] := by
  have silent : (other.uartRxQueue.items ++ []).length ≤ uartRxIsrQueueLength := by
    rw [List.append_nil]
    exact other.uartRxQueue.bounded
  have same : { other.board with uartRxQueue := other.board.uartRxQueue ++ [] } = other.board := by
    rw [List.append_nil]
  cases task with
  | rxParser =>
    obtain ⟨board, one, made⟩ := Option.map_eq_some_iff.mp pass
    cases made
    exact same ▸ (rx_pass between one fits).beside between' silent
  | app nowMs =>
    obtain ⟨board, one, made⟩ := Option.map_eq_some_iff.mp pass
    cases made
    exact same ▸ (app_pass between one fits).beside between' silent
  | uartTx =>
    obtain ⟨⟨board, bytes⟩, one, made⟩ := Option.map_eq_some_iff.mp pass
    cases made
    exact (tx_pass between one).beside between' fits'.uartRx

end Network

/- Two networks, each on the line of the other. -/

inductive PairTurn where
  | left (turn : TaskTurn)
  | right (turn : TaskTurn)
  deriving DecidableEq

def pairTurn (s : Network × Network) : PairTurn → Option ((Network × Network) × NetworkEvent)
  | .left turn => Network.lineTurn s turn
  | .right turn => (Network.lineTurn s.swap turn).map fun r => (r.1.swap, r.2)

theorem right_run {s s' : Network × Network} {turns : List TaskTurn} {events : List NetworkEvent}
    (ran : run Network.lineTurn s turns = some (s', events)) :
    run pairTurn s.swap (turns.map .right) = some (s'.swap, events) := by
  induction turns generalizing s events with
  | nil =>
    cases ran
    rfl
  | cons turn rest ih =>
    simp only [run, Option.bind_eq_bind, Option.bind_eq_some_iff] at ran
    obtain ⟨⟨next, event⟩, one, ⟨last, others⟩, tail, out⟩ := ran
    cases out
    have both : pairTurn s.swap (.right turn) = some (next.swap, event) := by
      rw [pairTurn, Prod.swap_swap, one, Option.map_some]
    rw [List.map_cons, run_cons _ both, ih tail]
    rfl

/-- The boards of both networks. -/
def boards (s : Network × Network) : Board × Board := (s.1.board, s.2.board)

theorem action_turns {s : Network × Network} (left : s.1.Between) (right : s.2.Between)
    {action : PairAction} {final : Board × Board} {sent : Option (List UInt8)}
    (step : pairStep (boards s) action = some (final, sent)) (fits : final.1.Fits ∧ final.2.Fits) :
    ∃ turns s' events, run pairTurn s turns = some (s', events) ∧ s'.1.Between ∧ s'.2.Between ∧
      boards s' = final ∧ bytesTransmitted events = sent.getD [] := by
  cases action with
  | left task =>
    obtain ⟨turns, own, other, events, ran, between, between', shows_, shows', sends⟩ :=
      Network.pass_turns left right step fits.1 fits.2
    refine ⟨turns.map .left, (own, other), events, ?_, between, between', ?_, sends⟩
    · rw [← run_map]
      exact ran
    · exact Prod.ext shows_ shows'
  | right task =>
    obtain ⟨⟨next, bytes⟩, pass, same⟩ := Option.map_eq_some_iff.mp step
    cases same
    obtain ⟨turns, own, other, events, ran, between, between', shows_, shows', sends⟩ :=
      Network.pass_turns right left pass fits.2 fits.1
    exact ⟨turns.map .right, (other, own), events, right_run ran, between', between,
      Prod.ext shows' shows_, sends⟩

/-- A step of the two boards after which the queues of tasks.c would still hold what is in
theirs. -/
def roomyStep (s : Board × Board) (action : PairAction) :
    Option ((Board × Board) × Option (List UInt8)) :=
  (pairStep s action).filter fun r => decide (r.1.1.Fits ∧ r.1.2.Fits)

/-- Two boards do what two networks can do: each of their runs in which there is room is a run
of the turns of these, in the same order and with the same bytes sent. -/
theorem pair_turns {s : Network × Network} (left : s.1.Between) (right : s.2.Between)
    {actions : List PairAction} {final : Board × Board} {sent : List (Option (List UInt8))}
    (ran : run roomyStep (boards s) actions = some (final, sent)) :
    ∃ turns s' events, run pairTurn s turns = some (s', events) ∧ s'.1.Between ∧ s'.2.Between ∧
      boards s' = final ∧ bytesTransmitted events = sent.flatMap fun frame => frame.getD [] := by
  have initial : s.1.Between ∧ s.2.Between ∧ boards s = boards s ∧
      bytesTransmitted [] = ([] : List (Option (List UInt8))).flatMap fun frame => frame.getD [] :=
    ⟨left, right, rfl, rfl⟩
  refine run_follows (R := fun seen past s told => s.1.Between ∧ s.2.Between ∧ boards s = seen ∧
    bytesTransmitted told = past.flatMap fun frame => frame.getD []) ?_ initial ran
  rintro _ past s told action final frame ⟨left, right, rfl, same⟩ one
  obtain ⟨step, fits⟩ := Option.filter_eq_some_iff.mp one
  obtain ⟨turns, s', events, went, left', right', shows_, sends⟩ :=
    action_turns left right step (of_decide_eq_true fits)
  refine ⟨turns, s', events, went, left', right', shows_, ?_⟩
  rw [List.flatMap_append, List.flatMap_singleton, ← same, ← sends]
  exact List.filterMap_append

/-- There is room for two broken frames and both replies. -/
example : (run roomyStep ({ quietBoard with uartRxQueue := [0x40, 0x40, 0x0A] }, quietBoard)
    strayBytes).isSome = true := by
  decide +kernel

end CommandBox
