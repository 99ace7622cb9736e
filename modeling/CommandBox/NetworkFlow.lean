import CommandBox.NetworkDrain
import CommandBox.BoxTrace

/-! The network over any interleaving. What came in, what the box was called with, what it
emitted and what went out are lists over the events of a run, and what is still in a
queue or in the hands of a task is the difference between them. -/
namespace CommandBox
open Machine

/- The actions and the events of a run. -/

def NetworkAction.byte : NetworkAction → Option UInt8
  | .usart1Isr byte => some byte
  | _ => none

def bytesReceived (actions : List NetworkAction) : List UInt8 := actions.filterMap NetworkAction.byte

def NetworkEvent.byte : NetworkEvent → Option UInt8
  | .arrived byte | .dropped byte => some byte
  | _ => none

def bytesDropped (events : List NetworkEvent) : List UInt8 :=
  events.filterMap fun
    | .dropped byte => some byte
    | _ => none

def bytesQueued (events : List NetworkEvent) : List UInt8 :=
  events.filterMap fun
    | .arrived byte => some byte
    | _ => none

def bytesParsed (events : List NetworkEvent) : List UInt8 :=
  events.filterMap fun
    | .parsed byte _ => some byte
    | _ => none

def parserReplies (events : List NetworkEvent) : List Reply :=
  events.filterMap fun
    | .parsed _ reply => some reply
    | _ => none

def boxCalls (events : List NetworkEvent) : List Observed :=
  events.filterMap fun
    | .called observed => some observed
    | _ => none

/-- The messages that `cbox_on_message` was called with. -/
def handled (events : List NetworkEvent) : List ProtocolMessage :=
  (boxCalls events).filterMap fun o =>
    match o.call with
    | .message message _ => some message
    | _ => none

/-- The emissions in the order in which they entered the transmit queue. -/
def queuedEmissions (events : List NetworkEvent) : List Emission :=
  events.filterMap fun
    | .sent _ emission (some _) => some emission
    | _ => none

def sentBy (task : NetworkTask) (events : List NetworkEvent) : List Emission :=
  events.filterMap fun
    | .sent sender emission (some _) => if sender = task then some emission else none
    | _ => none

def bytesTransmitted (events : List NetworkEvent) : List UInt8 :=
  events.filterMap fun
    | .transmitted byte => some byte
    | _ => none

/-- The message that `task_rx_parser` holds until the app queue has room. -/
def Network.holding (n : Network) : List ProtocolMessage :=
  if n.rxPoint = .forwarding then [n.message] else []

/-- The error that `task_rx_parser` has still to report. -/
def Network.owing (n : Network) : List Emission :=
  if n.rxPoint = .replying then [errBoundsEmission] else []

theorem feed_snoc {parser p : Parser} {message m : ProtocolMessage} {bytes : List UInt8}
    {replies : List Reply} (fed : feed parser message bytes = some ((p, m), replies)) {byte : UInt8}
    {c : Consumed} (consumed : parserConsumeByte p byte m = some c) :
    feed parser message (bytes ++ [byte]) =
      some ((c.parser, c.message), replies ++ [⟨c.result, c.message⟩]) := by
  have last : consume (p, m) byte = some ((c.parser, c.message), ⟨c.result, c.message⟩) := by
    simp only [consume, consumed, Option.map_some]
  unfold feed at fed ⊢
  exact run_snoc fed last

theorem deliveries_append (xs ys : List Reply) :
    deliveries (xs ++ ys) = deliveries xs ++ deliveries ys := by
  simp [deliveries]

theorem handled_append (xs ys : List NetworkEvent) :
    handled (xs ++ ys) = handled xs ++ handled ys := by
  simp [handled, boxCalls]

theorem sentBy_append (task : NetworkTask) (xs ys : List NetworkEvent) :
    sentBy task (xs ++ ys) = sentBy task xs ++ sentBy task ys := List.filterMap_append

theorem countResult_snoc (replies : List Reply) (reply : Reply) (result : ParserResult) :
    countResult (replies ++ [reply]) result =
      countResult replies result + if reply.result = result then 1 else 0 := by
  simp [countResult, List.countP_append, List.countP_cons]

/-- From the line to the box. -/
structure Inbound (raw : Parser) (first : ProtocolMessage) (n : Network)
    (past : List NetworkEvent) : Prop where
  bytes : n.uartRxQueue.Conserves (bytesQueued past) (bytesParsed past)
  parser : feed (parserInit raw) first (bytesParsed past) =
    some ((n.parser, n.message), parserReplies past)
  messages : deliveries (parserReplies past) = handled past ++ n.appQueue.items ++ n.holding
  errors : sentBy .rxParser past ++ n.owing =
    List.replicate (countResult (parserReplies past) .error) errBoundsEmission

theorem start_inbound (raw : Parser) (first : ProtocolMessage)
    (frame : Vector UInt8 protocolMaxFrameLength) :
    Inbound raw first (Network.tasksStart raw first frame) [] := by
  constructor <;> rfl

theorem parsed_inbound {raw : Parser} {first : ProtocolMessage} {n n' : Network}
    {past : List NetworkEvent} (before : Inbound raw first n past) (point : n.rxPoint = .receiving)
    {byte : UInt8} {c : Consumed} (received : n.uartRxQueue.receive = some (byte, n'.uartRxQueue))
    (consumed : parserConsumeByte n.parser byte n.message = some c)
    (state : (n'.parser, n'.message) = (c.parser, c.message)) (queue : n'.appQueue = n.appQueue)
    (holds : n'.holding = if c.result = .messageReady then [c.message] else [])
    (owes : n'.owing = if c.result = .error then [errBoundsEmission] else []) :
    Inbound raw first n' (past ++ [.parsed byte ⟨c.result, c.message⟩]) := by
  obtain ⟨bytes, parser, messages, errors⟩ := before
  have nothing : n.holding = [] ∧ n.owing = [] := by simp [Network.holding, Network.owing, point]
  rw [nothing.1, List.append_nil] at messages
  rw [nothing.2, List.append_nil] at errors
  have replies : parserReplies (past ++ [.parsed byte ⟨c.result, c.message⟩]) =
      parserReplies past ++ [⟨c.result, c.message⟩] := by simp [parserReplies]
  constructor
  · simpa [bytesQueued, bytesParsed] using Queue.conserves_receive bytes received
  · rw [state, replies]
    simpa [bytesParsed] using feed_snoc parser consumed
  · have more : deliveries [⟨c.result, c.message⟩] = n'.holding := by
      rw [holds]
      simp only [deliveries, List.filter_cons, List.filter_nil]
      split <;> simp_all
    have calls : handled (past ++ [.parsed byte ⟨c.result, c.message⟩]) = handled past := by
      simp [handled, boxCalls]
    rw [replies, deliveries_append, more, messages, calls, queue]
  · have sent : sentBy .rxParser (past ++ [.parsed byte ⟨c.result, c.message⟩]) =
        sentBy .rxParser past := by simp [sentBy]
    rw [replies, countResult_snoc, sent, errors, owes]
    split
    · exact List.replicate_succ'.symm
    · exact List.append_nil _

/-- The parser is not involved: what leaves the queue or the hands of the task shows in the event. -/
theorem unparsed_inbound {raw : Parser} {first : ProtocolMessage} {n n' : Network}
    {past : List NetworkEvent} {event : NetworkEvent} (before : Inbound raw first n past)
    (line : n'.uartRxQueue = n.uartRxQueue) (state : (n'.parser, n'.message) = (n.parser, n.message))
    (silent : bytesQueued [event] = [] ∧ bytesParsed [event] = [] ∧ parserReplies [event] = [])
    (messages : handled [event] ++ n'.appQueue.items ++ n'.holding = n.appQueue.items ++ n.holding)
    (errors : sentBy .rxParser [event] ++ n'.owing = n.owing) :
    Inbound raw first n' (past ++ [event]) := by
  have queued : bytesQueued (past ++ [event]) = bytesQueued past ++ bytesQueued [event] :=
    List.filterMap_append
  have parsed : bytesParsed (past ++ [event]) = bytesParsed past ++ bytesParsed [event] :=
    List.filterMap_append
  have replies : parserReplies (past ++ [event]) = parserReplies past ++ parserReplies [event] :=
    List.filterMap_append
  rw [silent.1, List.append_nil] at queued
  rw [silent.2.1, List.append_nil] at parsed
  rw [silent.2.2, List.append_nil] at replies
  constructor
  · rw [queued, parsed, line]
    exact before.bytes
  · rw [parsed, replies, state]
    exact before.parser
  · rw [replies, before.messages, handled_append]
    simp only [List.append_assoc] at messages ⊢
    rw [messages]
  · rw [replies, ← before.errors, sentBy_append, List.append_assoc, errors]

theorem moves_inbound {raw : Parser} {first : ProtocolMessage} {n n' : Network}
    {past : List NetworkEvent} {action : NetworkAction} {event : NetworkEvent}
    (before : Inbound raw first n past) (moves : n.Moves action n' event) :
    Inbound raw first n' (past ++ [event]) := by
  cases moves with
  | arrived byte room =>
    -- the only event that puts a byte into the queue
    obtain ⟨bytes, parser, messages, errors⟩ := before
    constructor
    · simpa [bytesQueued, bytesParsed] using Queue.conserves_send bytes room
    · simpa [bytesParsed, parserReplies] using parser
    · simpa [parserReplies, handled, boxCalls, Network.holding] using messages
    · simpa [sentBy, parserReplies, Network.owing] using errors
  | read point received consumed tracks result | completed point received consumed tracks result
  | failed point received consumed tracks result =>
    refine parsed_inbound before point received consumed (by rfl) (by rfl) ?_ ?_
    · simp [Network.holding, result]
    · simp [Network.owing, result]
  | dropped | pressed | missed | waits | noPress | noMessage | transmitted | taken | sent =>
    exact unparsed_inbound before (by rfl) (by rfl) ⟨rfl, rfl, rfl⟩ rfl rfl
  | forwarded point room =>
    refine unparsed_inbound before (by rfl) (by rfl) ⟨rfl, rfl, rfl⟩ ?_ ?_
    · simp [handled, boxCalls, Network.holding, point, Queue.send_items room]
    · simp [sentBy, Network.owing, point]
  | replied point held room =>
    refine unparsed_inbound before (by rfl) (by rfl) ⟨rfl, rfl, rfl⟩ ?_ ?_
    · simp [handled, boxCalls, Network.holding, point]
    · simp [sentBy, Network.owing, point]
  | onButton _ _ _ _ _ call | onTick _ _ _ _ call =>
    refine unparsed_inbound before (by rfl) (by rfl) ⟨rfl, rfl, rfl⟩ ?_ (by rfl)
    simp [handled, boxCalls, call, Network.holding]
  | onMessage _ _ _ received _ call =>
    refine unparsed_inbound before (by rfl) (by rfl) ⟨rfl, rfl, rfl⟩ ?_ (by rfl)
    simp [handled, boxCalls, call, Network.holding, Queue.receive_items received]

/-- What is promised of a single event. -/
def NetworkEvent.Proper : NetworkEvent → Prop
  | .called o => o.accepted = true →
    ∃ mode paramValue, o.emitted = [evtEmission mode, stsEmission mode, datEmission paramValue]
  | .sent _ e queued => ∃ message, queued = some message ∧ e.HeldBy message
  | .taken _ success => success = true
  | _ => True

/-- The frames of the first queued emissions were sent, the last of them perhaps in part,
and the transmit queue holds the others. -/
structure Framed (n : Network) (past : List NetworkEvent) (done waiting : List Emission) :
    Prop where
  order : queuedEmissions past = done ++ waiting
  held : List.Forall₂ Emission.HeldBy waiting n.uartTxQueue.items
  sent : bytesTransmitted past ++ n.transmitting = done.flatMap Emission.frame
  current : n.transmitting = [] ∨
    ∃ front last, done = front ++ [last] ∧ n.transmitting <:+ last.frame

/-- From the box to the line. -/
structure Outbound (n : Network) (past : List NetworkEvent) : Prop where
  proper : ∀ event ∈ past, event.Proper
  calls : emissions (boxCalls past) = sentBy .app past ++ n.sending
  frames : ∃ done waiting, Framed n past done waiting

theorem start_outbound (raw : Parser) (first : ProtocolMessage)
    (frame : Vector UInt8 protocolMaxFrameLength) :
    Outbound (Network.tasksStart raw first frame) [] where
  proper := by simp
  calls := rfl
  frames := ⟨[], [], ⟨rfl, .nil, rfl, .inl rfl⟩⟩

theorem moves_proper {n n' : Network} {action : NetworkAction} {event : NetworkEvent}
    (moves : n.Moves action n' event) : event.Proper := by
  cases moves with
  | arrived | dropped | pressed | missed | waits | read | completed | failed | forwarded
  | noPress | noMessage | transmitted => exact True.intro
  | replied _ held | sent _ _ _ held => exact ⟨_, rfl, held⟩
  | taken => exact rfl
  | onButton _ _ _ _ effect | onMessage _ _ _ _ effect | onTick _ _ _ effect =>
    intro accepted
    cases effect with
    | opened => exact ⟨_, _, rfl⟩
    | refused | confirmed | answered | unanswered | waited | retried | gaveUp => cases accepted

theorem moves_calls {n n' : Network} {past : List NetworkEvent} {action : NetworkAction}
    {event : NetworkEvent} (before : emissions (boxCalls past) = sentBy .app past ++ n.sending)
    (moves : n.Moves action n' event) :
    emissions (boxCalls (past ++ [event])) = sentBy .app (past ++ [event]) ++ n'.sending := by
  have calls : boxCalls (past ++ [event]) = boxCalls past ++ boxCalls [event] :=
    List.filterMap_append
  rw [calls, emissions_append, before, sentBy_append, List.append_assoc, List.append_assoc]
  congr 1
  cases moves with
  | arrived | dropped | pressed | missed | waits | read | completed | failed | forwarded | replied
  | noPress | noMessage | transmitted | taken => simp [boxCalls, emissions, sentBy]
  | sent _ _ busy => simp [boxCalls, emissions, sentBy, busy]
  | onButton _ free | onMessage _ free | onTick _ free => simp [boxCalls, emissions, sentBy, free]

theorem held_unique {e e' : Emission} {message : ProtocolMessage} (held : e.HeldBy message)
    (held' : e'.HeldBy message) : e = e' := by
  obtain ⟨m, type, payload, carries⟩ := held
  obtain ⟨m', type', payload', carries'⟩ := held'
  have types : m.type = m'.type := carries.1.symm.trans carries'.1
  have payloads : m.payload = m'.payload := (carries_take carries).symm.trans (carries_take carries')
  cases e
  cases e'
  simp_all

theorem enqueued_framed {n n' : Network} {past : List NetworkEvent} {done waiting : List Emission}
    {e : Emission} {message : ProtocolMessage} {task : NetworkTask}
    (before : Framed n past done waiting) (held : e.HeldBy message)
    (room : n.uartTxQueue.send message = some n'.uartTxQueue)
    (line : n'.transmitting = n.transmitting) :
    Framed n' (past ++ [.sent task e (some message)]) done (waiting ++ [e]) := by
  have queued : queuedEmissions (past ++ [.sent task e (some message)]) =
      queuedEmissions past ++ [e] := List.filterMap_append
  constructor
  · rw [queued, before.order, List.append_assoc]
  · rw [Queue.send_items room]
    exact List.rel_append before.held (.cons held .nil)
  · simpa [bytesTransmitted, line] using before.sent
  · rw [line]
    exact before.current

theorem unsent_framed {n n' : Network} {past : List NetworkEvent} {event : NetworkEvent}
    {done waiting : List Emission} (before : Framed n past done waiting)
    (silent : queuedEmissions [event] = [] ∧ bytesTransmitted [event] = [])
    (queue : n'.uartTxQueue = n.uartTxQueue) (line : n'.transmitting = n.transmitting) :
    Framed n' (past ++ [event]) done waiting := by
  have queued : queuedEmissions (past ++ [event]) =
      queuedEmissions past ++ queuedEmissions [event] := List.filterMap_append
  have sent : bytesTransmitted (past ++ [event]) =
      bytesTransmitted past ++ bytesTransmitted [event] := List.filterMap_append
  constructor
  · rw [queued, silent.1, List.append_nil]
    exact before.order
  · rw [queue]
    exact before.held
  · rw [sent, silent.2, List.append_nil, line]
    exact before.sent
  · rw [line]
    exact before.current

theorem moves_framed {n n' : Network} {past : List NetworkEvent} {action : NetworkAction}
    {event : NetworkEvent} {done waiting : List Emission} (before : Framed n past done waiting)
    (moves : n.Moves action n' event) :
    ∃ done waiting, Framed n' (past ++ [event]) done waiting := by
  cases moves with
  | arrived | dropped | pressed | missed | waits | read | completed | failed | forwarded
  | noPress | noMessage | onButton | onMessage | onTick =>
    exact ⟨done, waiting, unsent_framed before ⟨rfl, rfl⟩ rfl rfl⟩
  | replied _ held room | sent _ _ _ held room =>
    exact ⟨done, _, enqueued_framed before held room rfl⟩
  | @transmitted byte rest line =>
    refine ⟨done, waiting, ?_, before.held, ?_, ?_⟩
    · simpa [queuedEmissions] using before.order
    · simpa [bytesTransmitted, line] using before.sent
    · rcases before.current with silent | ⟨front, last, split, inside⟩
      · rw [line] at silent
        contradiction
      · rw [line] at inside
        exact .inr ⟨front, last, split, (List.suffix_cons byte rest).trans inside⟩
  | @taken e message queue buffer silent received held =>
    have first := before.held
    rw [Queue.receive_items received] at first
    cases first with
    | @cons e' _ waiting _ held' rest =>
      -- what the transmitter sends is the frame of the oldest emission that waits
      cases held_unique held held'
      refine ⟨done ++ [e], waiting, ?_, rest, ?_, ?_⟩
      · simpa [queuedEmissions] using before.order
      · have sent := before.sent
        rw [silent, List.append_nil] at sent
        simp [bytesTransmitted] at sent ⊢
        rw [sent]
      · exact .inr ⟨done, e, rfl, List.suffix_refl _⟩

theorem moves_outbound {n n' : Network} {past : List NetworkEvent} {action : NetworkAction}
    {event : NetworkEvent} (before : Outbound n past) (moves : n.Moves action n' event) :
    Outbound n' (past ++ [event]) := by
  obtain ⟨proper, calls, done, waiting, framed⟩ := before
  constructor
  · intro e member
    rcases List.mem_append.mp member with member | member
    · exact proper e member
    · cases List.mem_singleton.mp member
      exact moves_proper moves
  · exact moves_calls calls moves
  · exact moves_framed framed moves

/- Every run. -/

theorem kept_queued {events : List NetworkEvent} (kept : bytesDropped events = []) :
    events.filterMap NetworkEvent.byte = bytesQueued events := by
  induction events with
  | nil => rfl
  | cons event events ih =>
    simp only [bytesDropped, bytesQueued] at ih kept ⊢
    cases event with
    | dropped byte => simp at kept
    | _ => simp_all [List.filterMap_cons, NetworkEvent.byte]

theorem received_queued {n final : Network} {actions : List NetworkAction}
    {events : List NetworkEvent} (sound : n.Sound)
    (ran : run Network.step n actions = some (final, events)) (kept : bytesDropped events = []) :
    bytesReceived actions = bytesQueued events := by
  have selects : ∀ (n : Network) action n' event, n.Sound → n.step action = some (n', event) →
      n'.Sound ∧ action.byte = event.byte := by
    intro n action n' event sound taken
    obtain ⟨_, _, taken', moves⟩ := Network.step_does sound action
    cases taken.symm.trans taken'
    refine ⟨Network.moves_sound sound moves, ?_⟩
    cases moves <;> rfl
  rw [← kept_queued kept]
  exact run_selects selects sound ran

theorem sentBy_order (task : NetworkTask) (events : List NetworkEvent) :
    (sentBy task events).Sublist (queuedEmissions events) := by
  induction events with
  | nil => exact .refl _
  | cons event events ih =>
    simp only [sentBy, queuedEmissions] at ih ⊢
    cases event with
    | sent sender e queued =>
      cases queued with
      | none => simpa using ih
      | some message =>
        by_cases mine : sender = task
        · simpa [mine] using ih
        · simpa [mine] using ih.cons e
    | _ => simpa using ih

/-- The box has handled the first of the messages that the parser delivers on the bytes so
far, and each of the others is in a queue or in the hands of `task_rx_parser`. -/
structure InOrder (raw : Parser) (first : ProtocolMessage) (actions : List NetworkAction)
    (final : Network) (events : List NetworkEvent) : Prop where
  begins : ∃ last replies,
    feed (parserInit raw) first (bytesReceived actions) = some (last, replies) ∧
    handled events <+: deliveries replies
  others : ∃ read replies, bytesReceived actions = read ++ final.uartRxQueue.items ∧
    feed (parserInit raw) first read = some ((final.parser, final.message), replies) ∧
    deliveries replies = handled events ++ final.appQueue.items ++ final.holding

theorem inbound_ordered {raw : Parser} {first : ProtocolMessage} {actions : List NetworkAction}
    {final : Network} {events : List NetworkEvent} (sound : final.Sound)
    (inbound : Inbound raw first final events)
    (received : bytesReceived actions = bytesQueued events) :
    InOrder raw first actions final events := by
  obtain ⟨bytes, parser, messages, _⟩ := inbound
  have line : bytesReceived actions = bytesParsed events ++ final.uartRxQueue.items :=
    received.trans bytes
  constructor
  · obtain ⟨p, tracks⟩ := sound.tracks
    obtain ⟨last, replies, fed, _⟩ := feed_trace tracks final.uartRxQueue.items
    refine ⟨last, parserReplies events ++ replies, ?_, ?_⟩
    · unfold feed at parser fed ⊢
      rw [line, run_append parser, fed]
      rfl
    · rw [deliveries_append, messages, List.append_assoc, List.append_assoc]
      exact List.prefix_append _ _
  · exact ⟨_, _, line, parser, messages⟩

/-- All that was emitted is accepted by `protocol_message_set` and `protocol_encode_frame`,
whatever the frame buffer holds, and is transmitted as whole frames in the order of the
queue; there the box keeps its own order and every error of the parser has its report. -/
structure WholeFrames (final : Network) (events : List NetworkEvent) : Prop where
  made : ∀ task e queued, .sent task e queued ∈ events → ∃ message, queued = some message ∧
    ∀ buffer : Vector UInt8 protocolMaxFrameLength, ∃ r,
      protocolEncodeFrame message buffer = some r ∧ r.success = true ∧ r.written = e.frame
  encoded : ∀ message success, .taken message success ∈ events → success = true
  frames : ∃ done waiting, queuedEmissions events = done ++ waiting ∧
    waiting.length = final.uartTxQueue.items.length ∧
    bytesTransmitted events ++ final.transmitting = done.flatMap Emission.frame ∧
    (final.transmitting = [] ∨
      ∃ front last, done = front ++ [last] ∧ final.transmitting <:+ last.frame)
  order : ∀ task, (sentBy task events).Sublist (queuedEmissions events)
  box : emissions (boxCalls events) = sentBy .app events ++ final.sending
  triples : ∀ o ∈ boxCalls events, o.accepted = true →
    ∃ mode paramValue, o.emitted = [evtEmission mode, stsEmission mode, datEmission paramValue]
  errors : sentBy .rxParser events ++ final.owing =
    List.replicate (countResult (parserReplies events) .error) errBoundsEmission

theorem outbound_whole {raw : Parser} {first : ProtocolMessage} {final : Network}
    {events : List NetworkEvent} (inbound : Inbound raw first final events)
    (outbound : Outbound final events) : WholeFrames final events := by
  obtain ⟨proper, calls, done, waiting, framed⟩ := outbound
  constructor
  · intro task e queued sent
    obtain ⟨message, made, held⟩ := proper _ sent
    exact ⟨message, made, Emission.held_encodes held⟩
  · exact fun message success taken => proper _ taken
  · exact ⟨done, waiting, framed.order, framed.held.length_eq, framed.sent, framed.current⟩
  · exact fun task => sentBy_order task events
  · exact calls
  · intro o called
    obtain ⟨event, member, call⟩ := List.mem_filterMap.mp called
    have promise := proper event member
    cases event with
    | called o' =>
      cases call
      exact promise
    | _ => cases call
  · exact inbound.errors

/-- A task that does not move has nothing to read or waits for another; whoever waits for
another waits for one that moves in the end; and without new input any rounds in which
every task has a turn bring the network to rest. -/
structure DeadlockFree (n : Network) : Prop where
  waits : ∀ turn, n.takeTurn turn = some (n, .waits turn.task) ↔ n.Stuck turn.task
  chain : ∀ task other, n.WaitsFor task other →
    ∃ last, Relation.TransGen n.WaitsFor task last ∧ ¬ n.Stuck last
  drains : ∀ rounds : List (List TaskTurn),
    (∀ round ∈ rounds, ∀ task, ∃ turn ∈ round, turn.task = task) → n.work < rounds.length →
    ∃ front back quiet events, rounds = front ++ back ∧
      run Network.takeTurn n front.flatten = some (quiet, events) ∧ quiet.Quiet

/-- No interleaving loses, doubles or reorders anything or blocks for good, if the receive
interrupt drops no byte; without that condition all but the first part still holds. -/
theorem network_conserves (raw : Parser) (first : ProtocolMessage)
    (frame : Vector UInt8 protocolMaxFrameLength) (actions : List NetworkAction) :
    ∃ final events,
      run Network.step (Network.tasksStart raw first frame) actions = some (final, events) ∧
      (bytesDropped events = [] → InOrder raw first actions final events) ∧
      WholeFrames final events ∧ DeadlockFree final := by
  have keeps : ∀ (n : Network) past action,
      (n.Sound ∧ Inbound raw first n past ∧ Outbound n past) →
      ∃ n' event, n.step action = some (n', event) ∧ n'.Sound ∧
        Inbound raw first n' (past ++ [event]) ∧ Outbound n' (past ++ [event]) := by
    rintro n past action ⟨sound, inbound, outbound⟩
    obtain ⟨n', event, taken, moves⟩ := Network.step_does sound action
    exact ⟨n', event, taken, Network.moves_sound sound moves, moves_inbound inbound moves,
      moves_outbound outbound moves⟩
  have begun := Network.start_sound raw first frame
  obtain ⟨final, events, ran, sound, inbound, outbound⟩ := run_history keeps
    ⟨begun, start_inbound raw first frame, start_outbound raw first frame⟩ actions
  rw [List.nil_append] at inbound outbound
  have ordered : bytesDropped events = [] → InOrder raw first actions final events :=
    fun kept => inbound_ordered sound inbound (received_queued begun ran kept)
  refine ⟨final, events, ran, ordered, outbound_whole inbound outbound, ?_⟩
  constructor
  · exact Network.waits_iff sound
  · exact fun task other => Network.chain_moves
  · exact fun rounds => Network.rounds_quiet sound

/-- A command, byte by byte, and the turns that answer it. -/
def answeredCommand : List NetworkAction :=
  (frameText .cmd (ascii "go")).flatMap (fun byte => [.usart1Isr byte, .turn .rxParser]) ++
    [.turn .rxParser, .turn (.app 0 0), .turn (.app 0 0), .turn (.app 0 0)] ++
    List.replicate 15 (.turn .uartTx)

theorem network_conserves_command : ∃ final events,
    run Network.step (Network.tasksStart blankParser blankMessage (Vector.replicate 64 0))
      answeredCommand = some (final, events) ∧
    InOrder blankParser blankMessage answeredCommand final events ∧ (handled events).length = 1 ∧
    bytesTransmitted events = ackReply.frame := by
  obtain ⟨final, events, ran, inOrder, _⟩ :=
    network_conserves blankParser blankMessage (Vector.replicate 64 0) answeredCommand
  have shown : (run Network.step
      (Network.tasksStart blankParser blankMessage (Vector.replicate 64 0)) answeredCommand).any
      (fun r => decide (bytesDropped r.2 = [] ∧ (handled r.2).length = 1 ∧
        bytesTransmitted r.2 = ackReply.frame)) = true := by decide +kernel
  rw [ran, Option.any_some] at shown
  obtain ⟨kept, calls, sent⟩ := of_decide_eq_true shown
  exact ⟨final, events, ran, inOrder kept, calls, sent⟩

end CommandBox
