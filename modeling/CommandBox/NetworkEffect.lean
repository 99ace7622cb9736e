import CommandBox.Network
import CommandBox.Messages

/-! What one step of the network can do. Every later result about the network is a case
analysis on `Moves`; no proof unfolds the tasks again. -/
namespace CommandBox
open Memory

namespace Emission

def frame (e : Emission) : List UInt8 := frameText e.type e.payload

def Sendable (e : Emission) : Prop := ∃ m : WireMessage, m.type = e.type ∧ m.payload = e.payload

def HeldBy (e : Emission) (message : ProtocolMessage) : Prop :=
  ∃ m : WireMessage, m.type = e.type ∧ m.payload = e.payload ∧ Carries message m

theorem sendable_text {e : Emission} (known : protocolTypeIsValid e.type = true)
    (short : e.payload.length ≤ protocolMaxPayloadLength) (clean : ∀ b ∈ e.payload, IsTextByte b) :
    e.Sendable :=
  ⟨⟨e.type, e.payload, known, short, clean⟩, rfl, rfl⟩

theorem held_encodes {e : Emission} {message : ProtocolMessage} (held : e.HeldBy message)
    (buffer : Vector UInt8 protocolMaxFrameLength) :
    ∃ r, protocolEncodeFrame message buffer = some r ∧ r.success = true ∧ r.written = e.frame := by
  obtain ⟨m, type, payload, carries⟩ := held
  obtain ⟨r, encoded, success, written⟩ := encode_written carries buffer
  have text : m.frame = e.frame := by
    rw [frame_spelled, type, payload]
    rfl
  exact ⟨r, encoded, success, written.trans text⟩

/-- A queued message leaves room for its line feed in the 64 bytes. -/
theorem frame_short {e : Emission} {message : ProtocolMessage} (held : e.HeldBy message) :
    e.frame.length < 64 := by
  obtain ⟨m, type, payload, _⟩ := held
  have size := frame_fits m
  rw [frame_spelled, type, payload] at size
  exact size

end Emission

theorem mode_sendable (mode : CboxMode) :
    (evtEmission mode).Sendable ∧ (stsEmission mode).Sendable := by
  cases mode with
  | modePatrol | modeStop | modeDeploy | modeReturn | modeCount =>
    constructor
    · exact Emission.sendable_text rfl (by decide) (by decide +kernel)
    · exact Emission.sendable_text rfl (by decide) (by decide +kernel)
  | other raw =>
    have silent : ∀ b ∈ ([] : List UInt8), IsTextByte b := by simp
    constructor
    · exact Emission.sendable_text rfl (Nat.zero_le _) silent
    · exact Emission.sendable_text rfl (Nat.zero_le _) silent

theorem param_clean (paramValue : UInt8) : ∀ b ∈ paramText paramValue, IsTextByte b := by
  have label : ∀ b ∈ ascii "param=", IsTextByte b := by decide +kernel
  have digits : ∀ v : UInt8, (threeDigits v.toNat).all (fun b => decide (IsTextByte b)) = true := by
    decide +kernel
  intro b hb
  rcases List.mem_append.mp hb with hb | hb
  · exact label b hb
  · exact of_decide_eq_true (List.all_eq_true.mp (digits paramValue) b hb)

theorem param_sendable (paramValue : UInt8) : (datEmission paramValue).Sendable := by
  have short : (paramText paramValue).length ≤ 48 := by
    have := (param_text paramValue).2
    omega
  exact ⟨⟨.dat, paramText paramValue, rfl, short, param_clean paramValue⟩, rfl, rfl⟩

theorem literal_sendable : ∀ e ∈ [ackReply, errTimeout, errBoundsEmission], e.Sendable := by
  intro e he
  have clean : ∀ e ∈ [ackReply, errTimeout, errBoundsEmission], ∀ b ∈ e.payload, IsTextByte b := by
    decide +kernel
  have short : ∀ e ∈ [ackReply, errTimeout, errBoundsEmission],
      protocolTypeIsValid e.type = true ∧ e.payload.length ≤ protocolMaxPayloadLength := by decide
  exact Emission.sendable_text (short e he).1 (short e he).2 (clean e he)

theorem effect_sendable {box box' : Cbox} {o : Observed} (effect : Effect box box' o) :
    ∀ e ∈ o.emitted, e.Sendable := by
  cases effect with
  | opened paramValue nowMs pendingEvt free held =>
    have texts := mode_sendable (nextMode box.mode)
    simp [texts.1, texts.2, param_sendable paramValue]
  | refused | confirmed | unanswered | waited => simp
  | answered => simp [literal_sendable]
  | retried => simp [(mode_sendable box.mode).1]
  | gaveUp => simp [literal_sendable]

theorem queue_emission {e : Emission} (sendable : e.Sendable) :
    ∃ message, e.HeldBy message ∧ ∀ queue,
      Network.cboxSendToTxQueue queue e.type (e.payload ++ [0]) =
        some ((queue.send message).map fun queue => (queue, some message)) := by
  obtain ⟨m, type, payload⟩ := sendable
  obtain ⟨message, set, delivered⟩ := message_set blankMessage m
  rw [type, payload] at set
  refine ⟨message, ⟨m, type, payload, delivered_carries delivered⟩, ?_⟩
  intro queue
  exact then_some set rfl

namespace Network

/-- The task waits for an item in its own queue. -/
def Starved (n : Network) : NetworkTask → Prop
  | .rxParser => n.rxPoint = .receiving ∧ n.uartRxQueue.items = []
  | .app => False
  | .uartTx => n.transmitting = [] ∧ n.uartTxQueue.items = []

/-- The first task waits for room in a queue that only the second one empties. -/
inductive WaitsFor (n : Network) : NetworkTask → NetworkTask → Prop
  | forwarding (point : n.rxPoint = .forwarding) (full : n.appQueue.Full) :
      WaitsFor n .rxParser .app
  | replying (point : n.rxPoint = .replying) (full : n.uartTxQueue.Full) :
      WaitsFor n .rxParser .uartTx
  | sending (busy : n.sending ≠ []) (full : n.uartTxQueue.Full) : WaitsFor n .app .uartTx

def Stuck (n : Network) (task : NetworkTask) : Prop :=
  n.Starved task ∨ ∃ other, n.WaitsFor task other

structure Sound (network : Network) : Prop where
  tracks : ∃ p, Tracks (network.parser, network.message) p
  ready : BoxReady network.cbox
  sendable : ∀ e ∈ network.sending, e.Sendable
  held : ∀ message ∈ network.uartTxQueue.items, ∃ e : Emission, e.HeldBy message

theorem start_sound (raw : Parser) (message : ProtocolMessage)
    (frame : Vector UInt8 protocolMaxFrameLength) : (tasksStart raw message frame).Sound where
  tracks := ⟨_, init_tracks raw message⟩
  ready := init_ready
  sendable := by simp [tasksStart]
  held := by simp [tasksStart]

inductive Moves (n : Network) : NetworkAction → Network → NetworkEvent → Prop
  | arrived (byte : UInt8) {queue : Queue UInt8 uartRxIsrQueueLength}
      (room : n.uartRxQueue.send byte = some queue) :
      Moves n (.usart1Isr byte)
        { n with uartRxIrqCount := n.uartRxIrqCount + 1, uartRxQueue := queue } (.arrived byte)
  | dropped (byte : UInt8) (full : n.uartRxQueue.Full) :
      Moves n (.usart1Isr byte)
        { n with
          uartRxIrqCount := n.uartRxIrqCount + 1
          uartRxDropCount := n.uartRxDropCount + 1 } (.dropped byte)
  | pressed (timestampMs : UInt32) {queue : Queue UInt32 buttonEventQueueLength}
      (room : n.buttonQueue.send timestampMs = some queue) :
      Moves n (.tim3Isr timestampMs) { n with buttonQueue := queue } (.pressed timestampMs)
  | missed (timestampMs : UInt32) (full : n.buttonQueue.Full) :
      Moves n (.tim3Isr timestampMs) n (.missed timestampMs)
  | waits {turn : TaskTurn} (stuck : n.Stuck turn.task) :
      Moves n (.turn turn) n (.waits turn.task)
  | read {byte : UInt8} {queue : Queue UInt8 uartRxIsrQueueLength} {c : Consumed}
      (point : n.rxPoint = .receiving) (received : n.uartRxQueue.receive = some (byte, queue))
      (consumed : parserConsumeByte n.parser byte n.message = some c)
      (tracks : ∃ p, Tracks (c.parser, c.message) p) (result : c.result = .inProgress) :
      Moves n (.turn .rxParser)
        { n with
          uartRxQueue := queue
          parser := c.parser
          message := c.message
          rxPoint := .receiving } (.parsed byte ⟨c.result, c.message⟩)
  | completed {byte : UInt8} {queue : Queue UInt8 uartRxIsrQueueLength} {c : Consumed}
      (point : n.rxPoint = .receiving) (received : n.uartRxQueue.receive = some (byte, queue))
      (consumed : parserConsumeByte n.parser byte n.message = some c)
      (tracks : ∃ p, Tracks (c.parser, c.message) p) (result : c.result = .messageReady) :
      Moves n (.turn .rxParser)
        { n with
          uartRxQueue := queue
          parser := c.parser
          message := c.message
          rxPoint := .forwarding } (.parsed byte ⟨c.result, c.message⟩)
  | failed {byte : UInt8} {queue : Queue UInt8 uartRxIsrQueueLength} {c : Consumed}
      (point : n.rxPoint = .receiving) (received : n.uartRxQueue.receive = some (byte, queue))
      (consumed : parserConsumeByte n.parser byte n.message = some c)
      (tracks : ∃ p, Tracks (c.parser, c.message) p) (result : c.result = .error) :
      Moves n (.turn .rxParser)
        { n with
          uartRxQueue := queue
          parser := c.parser
          message := c.message
          parserErrorCount := n.parserErrorCount + 1
          rxPoint := .replying } (.parsed byte ⟨c.result, c.message⟩)
  | forwarded {queue : Queue ProtocolMessage appMessageQueueLength}
      (point : n.rxPoint = .forwarding) (room : n.appQueue.send n.message = some queue) :
      Moves n (.turn .rxParser) { n with appQueue := queue, rxPoint := .receiving }
        (.forwarded n.message)
  | replied {message : ProtocolMessage} {queue : Queue ProtocolMessage uartTxQueueLength}
      (point : n.rxPoint = .replying) (held : errBoundsEmission.HeldBy message)
      (room : n.uartTxQueue.send message = some queue) :
      Moves n (.turn .rxParser) { n with uartTxQueue := queue, rxPoint := .receiving }
        (.sent .rxParser errBoundsEmission (some message))
  | sent (paramValue : UInt8) (nowMs : UInt32) {e : Emission} {rest : List Emission}
      {message : ProtocolMessage} {queue : Queue ProtocolMessage uartTxQueueLength}
      (busy : n.sending = e :: rest) (held : e.HeldBy message)
      (room : n.uartTxQueue.send message = some queue) :
      Moves n (.turn (.app paramValue nowMs)) { n with uartTxQueue := queue, sending := rest }
        (.sent .app e (some message))
  | noPress (paramValue : UInt8) (nowMs : UInt32) (free : n.sending = [])
      (point : n.appPoint = .button) (none : n.buttonQueue.items = []) :
      Moves n (.turn (.app paramValue nowMs)) { n with appPoint := .message } .polled
  | noMessage (paramValue : UInt8) (nowMs : UInt32) (free : n.sending = [])
      (point : n.appPoint = .message) (none : n.appQueue.items = []) :
      Moves n (.turn (.app paramValue nowMs)) { n with appPoint := .tick } .polled
  | onButton {paramValue : UInt8} (nowMs : UInt32) {timestampMs : UInt32}
      {queue : Queue UInt32 buttonEventQueueLength} {box : Cbox} {o : Observed}
      (free : n.sending = []) (point : n.appPoint = .button)
      (received : n.buttonQueue.receive = some (timestampMs, queue))
      (effect : Effect n.cbox box o) (call : o.call = .button paramValue timestampMs) :
      Moves n (.turn (.app paramValue nowMs))
        { n with
          appPoint := .message
          buttonQueue := queue
          cbox := box
          sending := o.emitted } (.called o)
  | onMessage (paramValue : UInt8) {nowMs : UInt32} {message : ProtocolMessage}
      {queue : Queue ProtocolMessage appMessageQueueLength} {box : Cbox} {o : Observed}
      (free : n.sending = []) (point : n.appPoint = .message)
      (received : n.appQueue.receive = some (message, queue))
      (effect : Effect n.cbox box o) (call : o.call = .message message nowMs) :
      Moves n (.turn (.app paramValue nowMs))
        { n with
          appPoint := .tick
          appQueue := queue
          cbox := box
          sending := o.emitted } (.called o)
  | onTick (paramValue : UInt8) {nowMs : UInt32} {box : Cbox} {o : Observed}
      (free : n.sending = []) (point : n.appPoint = .tick)
      (effect : Effect n.cbox box o) (call : o.call = .tick nowMs) :
      Moves n (.turn (.app paramValue nowMs))
        { n with appPoint := .button, cbox := box, sending := o.emitted } (.called o)
  | transmitted {byte : UInt8} {rest : List UInt8} (line : n.transmitting = byte :: rest) :
      Moves n (.turn .uartTx) { n with transmitting := rest } (.transmitted byte)
  | taken {e : Emission} {message : ProtocolMessage}
      {queue : Queue ProtocolMessage uartTxQueueLength}
      (buffer : Vector UInt8 protocolMaxFrameLength) (silent : n.transmitting = [])
      (received : n.uartTxQueue.receive = some (message, queue)) (held : e.HeldBy message) :
      Moves n (.turn .uartTx)
        { n with uartTxQueue := queue, frame := buffer, transmitting := e.frame }
        (.taken message true)

def Does (n : Network) (action : NetworkAction) : Prop :=
  ∃ n' event, n.step action = some (n', event) ∧ Moves n action n' event

theorem usart1_does (n : Network) (byte : UInt8) : n.Does (.usart1Isr byte) := by
  cases queued : n.uartRxQueue.send byte with
  | none =>
    refine ⟨_, _, ?_, .dropped byte ((Queue.send_none _ _).mp queued)⟩
    simp only [step, usart1Isr, queued]
  | some queue =>
    refine ⟨_, _, ?_, .arrived byte queued⟩
    simp only [step, usart1Isr, queued]

theorem tim3_does (n : Network) (timestampMs : UInt32) : n.Does (.tim3Isr timestampMs) := by
  cases queued : n.buttonQueue.send timestampMs with
  | none =>
    refine ⟨_, _, ?_, .missed timestampMs ((Queue.send_none _ _).mp queued)⟩
    simp only [step, tim3Isr, queued]
  | some queue =>
    refine ⟨_, _, ?_, .pressed timestampMs queued⟩
    simp only [step, tim3Isr, queued]

theorem read_does {n : Network} (sound : n.Sound) (point : n.rxPoint = .receiving) :
    n.Does (.turn .rxParser) := by
  cases received : n.uartRxQueue.receive with
  | none =>
    have stuck : n.Stuck .rxParser := .inl ⟨point, (Queue.receive_none _).mp received⟩
    refine ⟨_, _, ?_, .waits stuck⟩
    simp only [step, taskRxParser, point, received]
    rfl
  | some next =>
    obtain ⟨byte, queue⟩ := next
    obtain ⟨p, tracks⟩ := sound.tracks
    obtain ⟨c, consumed, tracks', _⟩ := track_step tracks byte
    have called : n.step (.turn .rxParser) = n.taskRxParser := rfl
    simp only [taskRxParser, point, received, consumed, Option.bind_eq_bind,
      Option.bind_some] at called
    cases result : c.result with
    | inProgress =>
      simp only [result] at called
      exact ⟨_, _, called, result ▸ .read point received consumed ⟨_, tracks'⟩ result⟩
    | messageReady =>
      simp only [result] at called
      exact ⟨_, _, called, result ▸ .completed point received consumed ⟨_, tracks'⟩ result⟩
    | error =>
      simp only [result] at called
      exact ⟨_, _, called, result ▸ .failed point received consumed ⟨_, tracks'⟩ result⟩

theorem rxParser_does {n : Network} (sound : n.Sound) : n.Does (.turn .rxParser) := by
  cases point : n.rxPoint with
  | receiving => exact read_does sound point
  | forwarding =>
    cases room : n.appQueue.send n.message with
    | none =>
      have stuck : n.Stuck .rxParser :=
        .inr ⟨_, .forwarding point ((Queue.send_none _ _).mp room)⟩
      refine ⟨_, _, ?_, .waits stuck⟩
      simp only [step, taskRxParser, point, room]
      rfl
    | some queue =>
      refine ⟨_, _, ?_, .forwarded point room⟩
      simp only [step, taskRxParser, point, room]
  | replying =>
    obtain ⟨message, held, sends⟩ :=
      queue_emission (literal_sendable errBoundsEmission (by simp))
    have called : cboxSendToTxQueue n.uartTxQueue .err (literal "bounds") =
        some ((n.uartTxQueue.send message).map fun queue => (queue, some message)) :=
      sends n.uartTxQueue
    cases room : n.uartTxQueue.send message with
    | none =>
      have stuck : n.Stuck .rxParser := .inr ⟨_, .replying point ((Queue.send_none _ _).mp room)⟩
      refine ⟨_, _, ?_, .waits stuck⟩
      simp only [step, taskRxParser, point, called, room, Option.map_none, Option.bind_eq_bind,
        Option.bind_some]
      rfl
    | some queue =>
      refine ⟨_, _, ?_, .replied point held room⟩
      simp only [step, taskRxParser, point, called, room, Option.map_some, Option.bind_eq_bind,
        Option.bind_some]

theorem app_does {n : Network} (sound : n.Sound) (paramValue : UInt8) (nowMs : UInt32) :
    n.Does (.turn (.app paramValue nowMs)) := by
  cases busy : n.sending with
  | cons e rest =>
    obtain ⟨message, held, sends⟩ := queue_emission (sound.sendable e (by simp [busy]))
    cases room : n.uartTxQueue.send message with
    | none =>
      have stuck : n.Stuck .app :=
        .inr ⟨_, .sending (by simp [busy]) ((Queue.send_none _ _).mp room)⟩
      refine ⟨_, _, ?_, .waits stuck⟩
      simp only [step, taskApp, busy, sends, room, Option.map_none, Option.bind_eq_bind,
        Option.bind_some]
      rfl
    | some queue =>
      refine ⟨_, _, ?_, .sent paramValue nowMs busy held room⟩
      simp only [step, taskApp, busy, sends, room, Option.map_some, Option.bind_eq_bind,
        Option.bind_some]
  | nil =>
    have pass : n.step (.turn (.app paramValue nowMs)) = n.taskApp paramValue nowMs := rfl
    cases point : n.appPoint with
    | button =>
      cases received : n.buttonQueue.receive with
      | none =>
        refine ⟨_, _, ?_, .noPress paramValue nowMs busy point ((Queue.receive_none _).mp received)⟩
        simp only [pass, taskApp, busy, point, received]
      | some next =>
        obtain ⟨timestampMs, queue⟩ := next
        obtain ⟨box, o, called, effect⟩ := call_effect sound.ready (.button paramValue timestampMs)
        refine ⟨_, _, ?_, .onButton nowMs busy point received effect (call_observed called)⟩
        simp only [pass, taskApp, busy, point, received, callBox, called, Option.map_some]
    | message =>
      cases received : n.appQueue.receive with
      | none =>
        refine ⟨_, _, ?_, .noMessage paramValue nowMs busy point ((Queue.receive_none _).mp received)⟩
        simp only [pass, taskApp, busy, point, received]
      | some next =>
        obtain ⟨message, queue⟩ := next
        obtain ⟨box, o, called, effect⟩ := call_effect sound.ready (.message message nowMs)
        refine ⟨_, _, ?_, .onMessage paramValue busy point received effect (call_observed called)⟩
        simp only [pass, taskApp, busy, point, received, callBox, called, Option.map_some]
    | tick =>
      obtain ⟨box, o, called, effect⟩ := call_effect sound.ready (.tick nowMs)
      refine ⟨_, _, ?_, .onTick paramValue busy point effect (call_observed called)⟩
      simp only [pass, taskApp, busy, point, callBox, called, Option.map_some]

theorem uartTx_does {n : Network} (sound : n.Sound) : n.Does (.turn .uartTx) := by
  cases line : n.transmitting with
  | cons byte rest =>
    refine ⟨_, _, ?_, .transmitted line⟩
    simp only [step, taskUartTx, line]
  | nil =>
    cases received : n.uartTxQueue.receive with
    | none =>
      have stuck : n.Stuck .uartTx := .inl ⟨line, (Queue.receive_none _).mp received⟩
      refine ⟨_, _, ?_, .waits stuck⟩
      simp only [step, taskUartTx, line, received]
      rfl
    | some next =>
      obtain ⟨message, queue⟩ := next
      have first : message ∈ n.uartTxQueue.items := by simp [Queue.receive_items received]
      obtain ⟨e, held⟩ := sound.held message first
      obtain ⟨r, encoded, success, written⟩ := Emission.held_encodes held n.frame
      refine ⟨_, _, ?_, .taken r.frame line received held⟩
      simp only [step, taskUartTx, line, received, encoded, Option.bind_eq_bind, Option.bind_some,
        success, if_true, written]

theorem step_does {n : Network} (sound : n.Sound) (action : NetworkAction) : n.Does action := by
  cases action with
  | usart1Isr byte => exact usart1_does n byte
  | tim3Isr timestampMs => exact tim3_does n timestampMs
  | turn turn =>
    cases turn with
    | rxParser => exact rxParser_does sound
    | app paramValue nowMs => exact app_does sound paramValue nowMs
    | uartTx => exact uartTx_does sound

theorem held_queued {queue queue' : Queue ProtocolMessage uartTxQueueLength}
    {message : ProtocolMessage} {e : Emission}
    (each : ∀ m ∈ queue.items, ∃ e : Emission, e.HeldBy m) (held : e.HeldBy message)
    (room : queue.send message = some queue') : ∀ m ∈ queue'.items, ∃ e : Emission, e.HeldBy m := by
  intro m hm
  rw [Queue.send_items room] at hm
  rcases List.mem_append.mp hm with hm | hm
  · exact each m hm
  · cases List.mem_singleton.mp hm
    exact ⟨e, held⟩

theorem moves_sound {n n' : Network} {action : NetworkAction} {event : NetworkEvent}
    (sound : n.Sound) (moves : Moves n action n' event) : n'.Sound := by
  obtain ⟨tracks, ready, sendable, held⟩ := sound
  cases moves with
  | arrived | dropped | pressed | missed | waits | forwarded | noPress | noMessage =>
    exact ⟨tracks, ready, sendable, held⟩
  | read _ _ _ tracks' | completed _ _ _ tracks' | failed _ _ _ tracks' =>
    exact ⟨tracks', ready, sendable, held⟩
  | replied _ carries room => exact ⟨tracks, ready, sendable, held_queued held carries room⟩
  | sent _ _ busy carries room =>
    have rest := fun e he => sendable e (busy ▸ List.mem_cons_of_mem _ he)
    exact ⟨tracks, ready, rest, held_queued held carries room⟩
  | onButton _ _ _ _ effect | onMessage _ _ _ _ effect | onTick _ _ _ effect =>
    exact ⟨tracks, effect_ready ready effect, effect_sendable effect, held⟩
  | transmitted => exact ⟨tracks, ready, sendable, held⟩
  | taken _ _ received =>
    have rest := fun m hm => held m (Queue.receive_items received ▸ List.mem_cons_of_mem _ hm)
    exact ⟨tracks, ready, sendable, rest⟩

end Network

end CommandBox
