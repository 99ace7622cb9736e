import CommandBox.Exchange

/-! What the two ends have of each other. The lines carry whole frames end to end, so
counting frames counts transactions: an `EVT` queued by the box is one line at the bridge, and
a line answered there is one `ACK:ok` for the box. -/
namespace CommandBox
open Machine Progress

/- Streams that end anywhere in a sequence of frames. -/

theorem frames_begun {ms : List WireMessage} {bytes : List UInt8}
    (begins : bytes <+: ms.flatMap WireMessage.frame) :
    ∃ whole later last, ms = whole ++ later ∧ bytes = whole.flatMap WireMessage.frame ++ last ∧
      protocolEndChar ∉ last := by
  induction ms generalizing bytes with
  | nil => exact ⟨[], [], [], rfl, List.prefix_nil.mp begins, List.not_mem_nil⟩
  | cons m ms ih =>
    rw [List.flatMap_cons, frame_line, List.append_assoc] at begins
    by_cases inside : bytes.length ≤ m.line.length
    · have part := List.prefix_of_prefix_length_le begins (List.prefix_append _ _) inside
      exact ⟨[], m :: ms, bytes, rfl, rfl, fun hm => line_unbroken m (part.subset hm)⟩
    · have full : m.line ++ [protocolEndChar] <+: bytes := by
        rw [← List.append_assoc] at begins
        apply List.prefix_of_prefix_length_le (List.prefix_append _ _) begins
        simp
        omega
      obtain ⟨rest, rfl⟩ := full
      rw [List.append_assoc, List.prefix_append_right_inj, List.prefix_append_right_inj] at begins
      obtain ⟨whole, later, last, rfl, rfl, clean⟩ := ih begins
      refine ⟨m :: whole, later, last, rfl, ?_, clean⟩
      rw [List.flatMap_cons, frame_line, List.append_assoc, List.append_assoc, List.append_assoc]

theorem begun_output (noAck : Bool) (whole : List WireMessage) {last : List UInt8}
    (clean : protocolEndChar ∉ last) :
    streamOutput noAck (whole.flatMap WireMessage.frame ++ last) =
      .join (whole.map (messageOutput noAck)) := by
  rw [streamOutput, frames_cut, Lines.cut_clean clean, List.append_nil, List.map_map]
  congr 1
  apply List.map_congr_left
  intro m _
  exact line_message noAck m

theorem trace_begun {xs ys : List UInt8} (begins : xs <+: ys) (p : Progress) :
    (Machine.trace next p xs).2 <+: (Machine.trace next p ys).2 := by
  obtain ⟨rest, rfl⟩ := begins
  rw [Machine.trace_append]
  exact List.prefix_append _ _

theorem ack_outcomes (k : Nat) (o : Outcome)
    (member : o ∈ streamOutcomes .waitStart (List.replicate k ackWire)) :
    o = .inProgress ∨ o = .ready .ack (ascii "ok") := by
  induction k with
  | zero => exact absurd member List.not_mem_nil
  | succ k ih =>
    rw [List.replicate_succ, streamOutcomes, if_pos rfl, List.mem_cons, List.mem_append,
      List.mem_replicate, List.mem_cons] at member
    rcases member with opens | ⟨_, inside⟩ | ready | later
    · exact .inl opens
    · exact .inl inside
    · exact .inr ready
    · exact ih later

theorem delivered_ackOk {message : ProtocolMessage} (given : Delivered message .ack (ascii "ok")) :
    IsAckOk message := ⟨given.1, given.2.2⟩

/-- What the box makes of answers that have come in whole or in part. -/
theorem acks_delivered {k : Nat} {bytes : List UInt8}
    (begins : bytes <+: (List.replicate k ackFrame).flatten) {raw : Parser}
    {first : ProtocolMessage} {final : Parser × ProtocolMessage} {replies : List Reply}
    (fed : feed (parserInit raw) first bytes = some (final, replies)) :
    countResult replies .error = 0 ∧ (∀ message ∈ deliveries replies, IsAckOk message) ∧
      (deliveries replies).length ≤ k ∧
      (bytes = (List.replicate k ackFrame).flatten → (deliveries replies).length = k) := by
  obtain ⟨final', replies', fed', _, answered⟩ := feed_trace (init_tracks raw first) bytes
  rw [fed] at fed'
  cases fed'
  have frames : ((List.replicate k ackWire).map WireMessage.frame).flatten =
      (List.replicate k ackFrame).flatten := by rw [List.map_replicate, ackWire_frame]
  have all := trace_frames .waitStart (List.replicate k ackWire)
  rw [frames] at all
  have outcomes := trace_begun begins .waitStart
  rw [all] at outcomes
  have each : ∀ o ∈ (Machine.trace next .waitStart bytes).2,
      o = .inProgress ∨ o = .ready .ack (ascii "ok") :=
    fun o ho => ack_outcomes k o (outcomes.subset ho)
  have given := deliveries_answered answered
  have total := delivered_outcomes .waitStart (List.replicate k ackWire)
  refine ⟨?_, ?_, ?_, ?_⟩
  · have results := answered_results answered
    have counted : countResult replies .error =
        (replies.map Reply.result).countP fun r => r = .error := by
      rw [List.countP_map]
      rfl
    rw [counted, results, List.countP_eq_zero]
    intro r hr
    obtain ⟨o, ho, rfl⟩ := List.mem_map.mp hr
    rcases each o ho with rfl | rfl <;> simp [Outcome.result]
  · intro message member
    obtain ⟨d, hd, delivered⟩ := mem_deliveries answered member
    obtain ⟨o, ho, kept⟩ := List.mem_filterMap.mp hd
    rcases each o ho with rfl | rfl
    · cases kept
    · cases kept
      exact delivered_ackOk delivered
  · have fewer := (outcomes.sublist.filterMap Outcome.delivered).length_le
    rw [total, List.length_map, List.length_replicate] at fewer
    rw [given.length_eq]
    exact fewer
  · intro whole
    rw [given.length_eq, whole, all, total, List.length_map, List.length_replicate]

/- The events of a run. -/

def WireMessage.emission (m : WireMessage) : Emission := ⟨m.type, m.payload⟩

theorem emission_frame (m : WireMessage) : m.emission.frame = m.frame := (frame_spelled m).symm

theorem sendable_messages {es : List Emission} (each : ∀ e ∈ es, e.Sendable) :
    ∃ ms : List WireMessage, ms.map WireMessage.emission = es := by
  induction es with
  | nil => exact ⟨[], rfl⟩
  | cons e es ih =>
    obtain ⟨m, type, payload⟩ := each e List.mem_cons_self
    obtain ⟨ms, rfl⟩ := ih fun e' he => each e' (List.mem_cons_of_mem e he)
    refine ⟨m :: ms, ?_⟩
    rw [List.map_cons, WireMessage.emission, type, payload]

theorem emissions_frames (ms : List WireMessage) :
    (ms.map WireMessage.emission).flatMap Emission.frame = ms.flatMap WireMessage.frame := by
  rw [List.flatMap_map]
  simp only [emission_frame]

def evtCount (es : List Emission) : Nat := es.countP fun e => e.type = .evt

theorem evtCount_append (xs ys : List Emission) : evtCount (xs ++ ys) = evtCount xs + evtCount ys :=
  List.countP_append

def networkEvents (events : List ExchangeEvent) : List NetworkEvent :=
  events.filterMap fun
    | .network event => some event
    | _ => none

def bytesRead (events : List ExchangeEvent) : List UInt8 :=
  events.flatMap fun
    | .read chunk _ => chunk
    | _ => []

/-- All that the bridge has printed and written. -/
def heard (events : List ExchangeEvent) : BridgeOutput :=
  .join (events.filterMap fun
    | .read _ output => some output
    | _ => none)

def bytesArrived (events : List NetworkEvent) : List UInt8 := events.filterMap NetworkEvent.byte

/-- Both ends and the lines between them, against the events so far. -/
structure Exchanged (noAck : Bool) (raw : Parser) (first : ProtocolMessage) (s : Exchange)
    (past : List ExchangeEvent) : Prop where
  sound : s.network.Sound
  inbound : Inbound raw first s.network (networkEvents past)
  outbound : Outbound s.network (networkEvents past)
  evts : evtCount (queuedEmissions (networkEvents past)) + evtCount s.network.sending =
    evtCount (emissions (boxCalls (networkEvents past)))
  outward : bytesTransmitted (networkEvents past) = bytesRead past ++ s.toBridge
  buffered : s.buffer = (Lines.cut protocolEndChar (bytesRead past)).2
  output : heard past = streamOutput noAck (bytesRead past)
  homeward : (heard past).written = bytesArrived (networkEvents past) ++ s.toBox

theorem start_exchanged (noAck : Bool) (raw : Parser) (first : ProtocolMessage)
    (frame : Vector UInt8 protocolMaxFrameLength) :
    Exchanged noAck raw first (Exchange.start raw first frame) [] where
  sound := Network.start_sound raw first frame
  inbound := start_inbound raw first frame
  outbound := start_outbound raw first frame
  evts := rfl
  outward := rfl
  buffered := rfl
  output := rfl
  homeward := rfl

/-- Every `EVT` in the transmit queue was handed over by a call of the box. -/
theorem moves_evts {n n' : Network} {past : List NetworkEvent} {action : NetworkAction}
    {event : NetworkEvent}
    (before : evtCount (queuedEmissions past) + evtCount n.sending =
      evtCount (emissions (boxCalls past))) (moves : n.Moves action n' event) :
    evtCount (queuedEmissions (past ++ [event])) + evtCount n'.sending =
      evtCount (emissions (boxCalls (past ++ [event]))) := by
  have queued : queuedEmissions (past ++ [event]) =
      queuedEmissions past ++ queuedEmissions [event] := List.filterMap_append
  have calls : boxCalls (past ++ [event]) = boxCalls past ++ boxCalls [event] :=
    List.filterMap_append
  rw [queued, calls, emissions_append, evtCount_append, evtCount_append]
  cases moves with
  | arrived | dropped | pressed | missed | waits | read | completed | failed | forwarded
  | noPress | noMessage | transmitted | taken => exact before
  | @replied message =>
    have other : evtCount (queuedEmissions [.sent .rxParser errBoundsEmission (some message)]) = 0 :=
      rfl
    rw [other]
    exact before
  | sent _ _ busy =>
    rw [busy] at before
    simp only [evtCount, queuedEmissions, boxCalls, emissions, List.filterMap_cons,
      List.filterMap_nil, List.countP_cons, List.countP_nil, List.flatMap_nil] at before ⊢
    omega
  | onButton _ free | onMessage _ free | onTick _ free =>
    rw [free] at before
    simp only [evtCount, queuedEmissions, boxCalls, emissions, List.filterMap_cons,
      List.filterMap_nil, List.countP_nil, List.flatMap_cons, List.flatMap_nil,
      List.append_nil] at before ⊢
    omega

theorem asks_arrived {s : Exchange} {action : ExchangeAction} {act : NetworkAction}
    {rest : List UInt8} {n' : Network} {event : NetworkEvent}
    (asked : Exchange.asks action s.toBox = some (act, rest))
    (moves : s.network.Moves act n' event) : s.toBox = bytesArrived [event] ++ rest := by
  cases action with
  | usart1Isr =>
    generalize s.toBox = line at asked
    cases line with
    | nil => cases asked
    | cons byte line =>
      cases asked
      cases moves <;> rfl
  | tim3Isr | turn =>
    cases asked
    cases moves <;> rfl
  | read => cases asked

theorem moves_exchanged {noAck : Bool} {raw : Parser} {first : ProtocolMessage} {s s' : Exchange}
    {past : List ExchangeEvent} {action : ExchangeAction} {event : ExchangeEvent}
    (before : Exchanged noAck raw first s past) (moves : s.Moves noAck action s' event) :
    Exchanged noAck raw first s' (past ++ [event]) := by
  obtain ⟨sound, inbound, outbound, evts, outward, buffered, output, homeward⟩ := before
  cases moves with
  | @acts action act rest n' event asked moves =>
    have line := asks_arrived asked moves
    have network : networkEvents (past ++ [.network event]) = networkEvents past ++ [event] :=
      List.filterMap_append
    have reads : bytesRead (past ++ [.network event]) = bytesRead past := by simp [bytesRead]
    have hears : heard (past ++ [.network event]) = heard past := by simp [heard]
    constructor
    · exact Network.moves_sound sound moves
    · rw [network]
      exact moves_inbound inbound moves
    · rw [network]
      exact moves_outbound outbound moves
    · rw [network]
      exact moves_evts evts moves
    · rw [network, reads, ← List.append_assoc, ← outward]
      exact List.filterMap_append
    · rw [reads]
      exact buffered
    · rw [reads, hears]
      exact output
    · have arrived : bytesArrived (networkEvents past ++ [event]) =
          bytesArrived (networkEvents past) ++ bytesArrived [event] := List.filterMap_append
      rw [network, hears, homeward, line, arrived, List.append_assoc]
  | @reads count chunk rest line some' =>
    have network : networkEvents (past ++ [.read chunk (streamOutput noAck (s.buffer ++ chunk))]) =
        networkEvents past := by simp [networkEvents]
    have reads : bytesRead (past ++ [.read chunk (streamOutput noAck (s.buffer ++ chunk))]) =
        bytesRead past ++ chunk := by simp [bytesRead]
    have hears : heard (past ++ [.read chunk (streamOutput noAck (s.buffer ++ chunk))]) =
        (heard past).append (streamOutput noAck (s.buffer ++ chunk)) := by
      simp [heard, BridgeOutput.join, BridgeOutput.append]
    have cut := Lines.cut_append protocolEndChar (bytesRead past) chunk
    rw [← buffered] at cut
    constructor
    · exact sound
    · rw [network]
      exact inbound
    · rw [network]
      exact outbound
    · rw [network]
      exact evts
    · rw [network, reads, outward, line, List.append_assoc]
    · rw [reads, cut]
    · rw [reads, hears, output, streamOutput_append noAck (bytesRead past), ← buffered]
    · rw [network, hears, BridgeOutput.append]
      dsimp only
      rw [homeward, List.append_assoc]
  | nothing silent =>
    have network : networkEvents (past ++ [.nothing]) = networkEvents past := by
      simp [networkEvents]
    have reads : bytesRead (past ++ [.nothing]) = bytesRead past := by simp [bytesRead]
    have hears : heard (past ++ [.nothing]) = heard past := by simp [heard]
    constructor
    · exact sound
    · rw [network]
      exact inbound
    · rw [network]
      exact outbound
    · rw [network]
      exact evts
    · rw [network, reads]
      exact outward
    · rw [reads]
      exact buffered
    · rw [reads, hears]
      exact output
    · rw [network, hears]
      exact homeward

/- What the bridge has heard. -/

def Exchange.AtRest (s : Exchange) : Prop := s.network.Quiet ∧ s.toBridge = [] ∧ s.toBox = []

theorem queued_sendable {n : Network} {past : List NetworkEvent} (outbound : Outbound n past) :
    ∀ e ∈ queuedEmissions past, e.Sendable := by
  intro e he
  obtain ⟨event, member, queued⟩ := List.mem_filterMap.mp he
  have proper := outbound.proper event member
  cases event with
  | sent task e' message =>
    cases message with
    | none => cases queued
    | some message =>
      cases queued
      obtain ⟨_, _, m, type, payload, _⟩ := proper
      exact ⟨m, type, payload⟩
  | _ => cases queued

/-- The bridge has read the first of the queued messages, each as what it is; what is on the
way to it are whole frames again, the first of them perhaps cut by its buffer. -/
theorem exchanged_frames {noAck : Bool} {raw : Parser} {first : ProtocolMessage} {s : Exchange}
    {past : List ExchangeEvent} (exchanged : Exchanged noAck raw first s past) :
    ∃ whole later back : List WireMessage,
      queuedEmissions (networkEvents past) = (whole ++ (later ++ back)).map WireMessage.emission ∧
      heard past = .join (whole.map (messageOutput noAck)) ∧ protocolEndChar ∉ s.buffer ∧
      s.buffer ++ s.toBridge ++ s.network.transmitting = later.flatMap WireMessage.frame ∧
      back.length = s.network.uartTxQueue.items.length := by
  obtain ⟨done, waiting, order, held, sent, current⟩ := exchanged.outbound.frames
  obtain ⟨ms, same⟩ := sendable_messages (queued_sendable exchanged.outbound)
  obtain ⟨front, back, rfl, rfl, rfl⟩ := List.map_eq_append_iff.mp (same.trans order)
  rw [emissions_frames, exchanged.outward] at sent
  have begins : bytesRead past <+: front.flatMap WireMessage.frame := by
    rw [← sent, List.append_assoc]
    exact List.prefix_append _ _
  obtain ⟨whole, later, last, rfl, read, clean⟩ := frames_begun begins
  have buffered : s.buffer = last := by
    rw [exchanged.buffered, read, frames_cut, Lines.cut_clean clean]
  refine ⟨whole, later, back, ?_, ?_, ?_, ?_, ?_⟩
  · rw [← List.append_assoc]
    exact same.symm
  · rw [exchanged.output, read]
    exact begun_output noAck whole clean
  · rw [buffered]
    exact clean
  · rw [read, List.flatMap_append, List.append_assoc, List.append_assoc,
      List.append_cancel_left_eq] at sent
    rw [buffered, List.append_assoc]
    exact sent
  · rw [← held.length_eq, List.length_map]

theorem no_frames {ms : List WireMessage} (clean : protocolEndChar ∉ ms.flatMap WireMessage.frame) :
    ms = [] := by
  cases ms with
  | nil => rfl
  | cons m ms =>
    refine absurd ?_ clean
    simp [frame_line]

theorem heard_messages {noAck : Bool} {raw : Parser} {first : ProtocolMessage} {s : Exchange}
    {past : List ExchangeEvent} (exchanged : Exchanged noAck raw first s past) :
    ∃ whole later : List WireMessage,
      queuedEmissions (networkEvents past) = (whole ++ later).map WireMessage.emission ∧
      heard past = .join (whole.map (messageOutput noAck)) ∧ (s.AtRest → later = []) := by
  obtain ⟨whole, later, back, queued, output, clean, line, size⟩ := exchanged_frames exchanged
  refine ⟨whole, later ++ back, queued, output, ?_⟩
  rintro ⟨⟨_, _, _, queue, _, _, silent⟩, outward, _⟩
  rw [outward, silent, List.append_nil, List.append_nil] at line
  rw [queue, List.length_nil] at size
  rw [line] at clean
  rw [no_frames clean, List.eq_nil_of_length_eq_zero size]
  rfl

/- What the box gets back. -/

theorem messages_answers (noAck : Bool) (ms : List WireMessage) :
    (BridgeOutput.join (ms.map (messageOutput noAck))).written =
      (List.replicate (if noAck then 0 else evtCount (ms.map WireMessage.emission))
        ackFrame).flatten := by
  induction ms with
  | nil => cases noAck <;> rfl
  | cons m ms ih =>
    rw [List.map_cons, BridgeOutput.join_cons, BridgeOutput.append]
    dsimp only
    rw [ih, messageOutput, bridgeReply]
    cases noAck with
    | true => simp
    | false =>
      by_cases evt : m.type = .evt
      · simp [evt, evtCount, WireMessage.emission, List.replicate_succ]
        rfl
      · simp [evt, evtCount, WireMessage.emission]

/-- While the receive interrupt drops nothing, the box gets nothing but answers to its own
`EVT`s, at most one for each, and all of them once everything has come to rest. -/
structure Answered (noAck : Bool) (s : Exchange) (past : List NetworkEvent) : Prop where
  clean : countResult (parserReplies past) .error = 0
  acks : ∀ message ∈ handled past, IsAckOk message
  bounded : (handled past).length ≤ evtCount (emissions (boxCalls past))
  mute : noAck = true → handled past = []
  settled : noAck = false → s.AtRest → (handled past).length = evtCount (emissions (boxCalls past))

theorem exchanged_answered {noAck : Bool} {raw : Parser} {first : ProtocolMessage} {s : Exchange}
    {past : List ExchangeEvent} (exchanged : Exchanged noAck raw first s past)
    (kept : bytesDropped (networkEvents past) = []) : Answered noAck s (networkEvents past) := by
  obtain ⟨whole, later, queued, output, finished⟩ := heard_messages exchanged
  have homeward := exchanged.homeward
  have arrived : bytesArrived (networkEvents past) = bytesParsed (networkEvents past) ++
      s.network.uartRxQueue.items := (kept_queued kept).trans exchanged.inbound.bytes
  rw [output, messages_answers, arrived, List.append_assoc] at homeward
  generalize answered : (if noAck then 0 else evtCount (whole.map WireMessage.emission)) = k
    at homeward
  have begins : bytesParsed (networkEvents past) <+: (List.replicate k ackFrame).flatten :=
    homeward ▸ List.prefix_append _ _
  obtain ⟨clean, acks, fewer, all⟩ := acks_delivered begins exchanged.inbound.parser
  have evts := exchanged.evts
  rw [queued, List.map_append, evtCount_append] at evts
  rw [exchanged.inbound.messages] at acks fewer all
  simp only [List.length_append] at fewer all
  constructor
  · exact clean
  · intro message member
    exact acks message (List.mem_append_left _ (List.mem_append_left _ member))
  · have total : k ≤ evtCount (whole.map WireMessage.emission) := by
      rw [← answered]
      split <;> omega
    omega
  · rintro rfl
    rw [if_pos rfl] at answered
    exact List.eq_nil_of_length_eq_zero (by omega)
  · rintro rfl rest
    obtain ⟨⟨line, app, _, _, point, free, _⟩, _, back⟩ := id rest
    rw [line, back, List.append_nil, List.append_nil] at homeward
    have counted := all homeward.symm
    have none : evtCount [] = 0 := rfl
    have nothing : s.network.holding = [] := by simp [Network.holding, point]
    rw [app, nothing, List.length_nil] at counted
    rw [finished rest, List.map_nil, free, none] at evts
    rw [if_neg Bool.false_ne_true] at answered
    omega

/-- A pending transaction has an `EVT` out that no answer has come for. -/
theorem moves_unanswered {n n' : Network} {past : List NetworkEvent} {action : NetworkAction}
    {event : NetworkEvent} (bounded : (handled past).length ≤ evtCount (emissions (boxCalls past)))
    (before : n.cbox.ackPending = true →
      (handled past).length < evtCount (emissions (boxCalls past)))
    (acks : ∀ message ∈ handled (past ++ [event]), IsAckOk message)
    (moves : n.Moves action n' event) (pending : n'.cbox.ackPending = true) :
    (handled (past ++ [event])).length < evtCount (emissions (boxCalls (past ++ [event]))) := by
  have calls : boxCalls (past ++ [event]) = boxCalls past ++ boxCalls [event] :=
    List.filterMap_append
  rw [handled_append] at acks
  rw [handled_append, calls, emissions_append, evtCount_append, List.length_append]
  cases moves with
  | arrived | dropped | pressed | missed | waits | read | completed | failed | forwarded | replied
  | sent | noPress | noMessage | transmitted | taken => exact before pending
  | onButton _ _ _ _ effect call | onTick _ _ _ effect call =>
    cases effect with
    | opened | retried => exact Nat.lt_succ_of_le bounded
    | refused | waited => exact before pending
    | gaveUp => cases pending
    | confirmed | answered | unanswered => cases call
  | onMessage _ _ _ _ effect call =>
    cases effect with
    | opened | refused | waited | retried | gaveUp => cases call
    | confirmed => cases pending
    | answered message nowMs type =>
      have ok := acks message (by simp [handled, boxCalls])
      rw [ok.1] at type
      exact absurd type (by decide)
    | unanswered message nowMs type stray =>
      have ok := acks message (by simp [handled, boxCalls])
      exact absurd ok (stray pending)

/-- What a pending transaction says of the answers, while no byte is dropped. -/
def Owed (s : Exchange) (past : List NetworkEvent) : Prop :=
  bytesDropped past = [] → s.network.cbox.ackPending = true →
    (handled past).length < evtCount (emissions (boxCalls past))

theorem moves_owed {noAck : Bool} {raw : Parser} {first : ProtocolMessage} {s s' : Exchange}
    {past : List ExchangeEvent} {action : ExchangeAction} {event : ExchangeEvent}
    (before : Exchanged noAck raw first s past) (owed : Owed s (networkEvents past))
    (moves : s.Moves noAck action s' event) : Owed s' (networkEvents (past ++ [event])) := by
  have after := moves_exchanged before moves
  intro kept pending
  have earlier : bytesDropped (networkEvents past) = [] := by
    simp only [networkEvents, bytesDropped, List.filterMap_append] at kept ⊢
    exact (List.append_eq_nil_iff.mp kept).1
  have acks := (exchanged_answered after kept).acks
  cases moves with
  | @acts action act rest n' event asked moves =>
    have network : networkEvents (past ++ [.network event]) = networkEvents past ++ [event] :=
      List.filterMap_append
    rw [network] at acks ⊢
    exact moves_unanswered (exchanged_answered before earlier).bounded (owed earlier) acks moves
      pending
  | reads | nothing =>
    simp only [networkEvents, List.filterMap_append, List.filterMap_cons, List.filterMap_nil,
      List.append_nil]
    exact owed earlier pending

theorem exchange_runs (noAck : Bool) (raw : Parser) (first : ProtocolMessage)
    (frame : Vector UInt8 protocolMaxFrameLength) (actions : List ExchangeAction) :
    ∃ final events, run (Exchange.step noAck) (Exchange.start raw first frame) actions =
        some (final, events) ∧
      Exchanged noAck raw first final events ∧ Owed final (networkEvents events) := by
  have keeps : ∀ (s : Exchange) past action,
      (Exchanged noAck raw first s past ∧ Owed s (networkEvents past)) →
      ∃ s' event, s.step noAck action = some (s', event) ∧
        Exchanged noAck raw first s' (past ++ [event]) ∧ Owed s' (networkEvents (past ++ [event])) := by
    rintro s past action ⟨exchanged, owed⟩
    obtain ⟨s', event, taken, moves⟩ := Exchange.step_does noAck exchanged.sound action
    exact ⟨s', event, taken, moves_exchanged exchanged moves, moves_owed exchanged owed moves⟩
  have initially : Owed (Exchange.start raw first frame) (networkEvents []) :=
    fun _ pending => absurd pending (by simp [Exchange.start, Network.tasksStart, cboxInit])
  exact run_history keeps ⟨start_exchanged noAck raw first frame, initially⟩ actions

/-- In no run does the bridge read anything but what the box has queued, in the same order and
with no line it finds invalid, whatever the serial line does to the timing. -/
theorem exchange_heard (noAck : Bool) (raw : Parser) (first : ProtocolMessage)
    (frame : Vector UInt8 protocolMaxFrameLength) (actions : List ExchangeAction) :
    ∃ final events, run (Exchange.step noAck) (Exchange.start raw first frame) actions =
        some (final, events) ∧
      ∃ read waiting, queuedEmissions (networkEvents events) = read ++ waiting ∧
        (heard events).reports = read.map (fun e => .received (protocolTypeToText e.type) e.payload) ∧
        (heard events).written =
          (List.replicate (if noAck then 0 else evtCount read) ackFrame).flatten ∧
        (final.AtRest → waiting = []) := by
  obtain ⟨final, events, ran, exchanged, _⟩ := exchange_runs noAck raw first frame actions
  obtain ⟨whole, later, queued, output, finished⟩ := heard_messages exchanged
  refine ⟨final, events, ran, whole.map WireMessage.emission, later.map WireMessage.emission, ?_, ?_,
    ?_, ?_⟩
  · rw [queued, List.map_append]
  · rw [output, List.map_map]
    simp [BridgeOutput.join, List.flatMap_map, messageOutput, WireMessage.emission,
      ← List.map_eq_flatMap]
  · rw [output, messages_answers]
  · intro rest
    rw [finished rest]
    rfl

/-- Transactions at both ends: while the receive interrupt drops nothing, the box handles at
most one `ACK:ok` for each `EVT` it has emitted and nothing else, a pending transaction has an
`EVT` not yet answered, and where everything has come to rest nothing is pending. -/
theorem exchange_answers (noAck : Bool) (raw : Parser) (first : ProtocolMessage)
    (frame : Vector UInt8 protocolMaxFrameLength) (actions : List ExchangeAction) :
    ∃ final events, run (Exchange.step noAck) (Exchange.start raw first frame) actions =
        some (final, events) ∧
      (bytesDropped (networkEvents events) = [] →
        Answered noAck final (networkEvents events) ∧
        (final.network.cbox.ackPending = true →
          (handled (networkEvents events)).length <
            evtCount (emissions (boxCalls (networkEvents events)))) ∧
        (noAck = false → final.AtRest → final.network.cbox.ackPending = false)) := by
  obtain ⟨final, events, ran, exchanged, owed⟩ := exchange_runs noAck raw first frame actions
  refine ⟨final, events, ran, ?_⟩
  intro kept
  have answered := exchanged_answered exchanged kept
  refine ⟨answered, owed kept, ?_⟩
  intro replies rest
  cases pending : final.network.cbox.ackPending with
  | false => rfl
  | true =>
    have fewer := owed kept pending
    rw [answered.settled replies rest] at fewer
    exact absurd fewer (Nat.lt_irrefl _)

instance (n : Network) : Decidable n.Quiet :=
  inferInstanceAs (Decidable (_ ∧ _ ∧ _ ∧ _ ∧ _ ∧ _ ∧ _))

instance (s : Exchange) : Decidable s.AtRest := inferInstanceAs (Decidable (_ ∧ _ ∧ _))

/-- A press, the turns that send its three frames, and the answer on its way back. -/
def answeredPress : List ExchangeAction :=
  .tim3Isr 5 :: List.replicate 4 (.turn (.app 7 5)) ++ List.replicate 69 (.turn .uartTx) ++
    .read 256 :: (List.replicate 14 [.usart1Isr, .turn .rxParser]).flatten ++
    [.turn .rxParser, .turn (.app 7 9)]

theorem exchange_answers_press : ∃ final events,
    run (Exchange.step false) (Exchange.start blankParser blankMessage (Vector.replicate 64 0))
      answeredPress = some (final, events) ∧
    Answered false final (networkEvents events) ∧ final.AtRest ∧
    (handled (networkEvents events)).length = 1 ∧ final.network.cbox.ackPending = false := by
  obtain ⟨final, events, ran, law⟩ :=
    exchange_answers false blankParser blankMessage (Vector.replicate 64 0) answeredPress
  have shown : (run (Exchange.step false)
      (Exchange.start blankParser blankMessage (Vector.replicate 64 0)) answeredPress).any
      (fun r => decide (bytesDropped (networkEvents r.2) = [] ∧ r.1.AtRest ∧
        (handled (networkEvents r.2)).length = 1)) = true := by decide +kernel
  rw [ran, Option.any_some] at shown
  obtain ⟨kept, rest, one⟩ := of_decide_eq_true shown
  obtain ⟨answered, _, settled⟩ := law kept
  exact ⟨final, events, ran, answered, rest, one, settled rfl rest⟩

end CommandBox
