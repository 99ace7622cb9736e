import CommandBox.BoxTrace
import CommandBox.FirmwarePress
import CommandBox.NetworkFlow

/-! The diagnostic counters of the board against its history: where every received byte and
every confirmed press has gone. -/
namespace CommandBox
open Clock Machine

/-- The presses that found the button queue full, and those the box refused. -/
def NetworkEvent.missedPress : NetworkEvent → Option UInt32
  | .missed timestampMs => some timestampMs
  | _ => none

def missedPresses (events : List NetworkEvent) : List UInt32 :=
  events.filterMap NetworkEvent.missedPress

def refusedPresses (events : List NetworkEvent) : List Observed :=
  (boxCalls events).filter refusedPress

theorem stamp_zero (x : UInt32) : x = x + stamp 0 := (UInt32.add_zero x).symm

/-- What one step of the network adds to its counters and queues. -/
structure CountStep (n n' : Network) (event : NetworkEvent) : Prop where
  irq : n'.uartRxIrqCount =
    n.uartRxIrqCount + stamp ((bytesQueued [event]).length + (bytesDropped [event]).length)
  drop : n'.uartRxDropCount = n.uartRxDropCount + stamp (bytesDropped [event]).length
  fifo : n.uartRxQueue.items ++ bytesQueued [event] = bytesParsed [event] ++ n'.uartRxQueue.items
  errors : n'.parserErrorCount =
    n.parserErrorCount + stamp (countResult (parserReplies [event]) .error)

theorem moves_count {n n' : Network} {action : NetworkAction} {event : NetworkEvent}
    (h : n.Moves action n' event) : CountStep n n' event := by
  cases h with
  | arrived byte room =>
    refine ⟨rfl, stamp_zero _, ?_, stamp_zero _⟩
    simp [bytesQueued, bytesParsed, Queue.send_items room]
  | dropped byte full =>
    refine ⟨rfl, rfl, ?_, stamp_zero _⟩
    simp [bytesQueued, bytesParsed]
  | read point received consumed tracks result | completed point received consumed tracks result =>
    refine ⟨stamp_zero _, stamp_zero _, ?_, ?_⟩
    · simp [bytesQueued, bytesParsed, Queue.receive_items received]
    · simp only [parserReplies, List.filterMap_cons, List.filterMap_nil, countResult, result]
      exact stamp_zero _
  | failed point received consumed tracks result =>
    refine ⟨stamp_zero _, stamp_zero _, ?_, ?_⟩
    · simp [bytesQueued, bytesParsed, Queue.receive_items received]
    · simp only [parserReplies, List.filterMap_cons, List.filterMap_nil, countResult, result]
      rfl
  | pressed | missed | waits | forwarded | replied | sent | noPress | noMessage | onButton
    | onMessage | onTick | transmitted | taken =>
    refine ⟨stamp_zero _, stamp_zero _, ?_, stamp_zero _⟩
    simp [bytesQueued, bytesParsed]

theorem moves_box {n n' : Network} {action : NetworkAction} {event : NetworkEvent}
    (h : n.Moves action n' event) :
    (boxCalls [event] = [] ∧ n'.cbox = n.cbox) ∨
      ∃ o, boxCalls [event] = [o] ∧ Effect n.cbox n'.cbox o := by
  cases h with
  | onButton _ _ _ _ effect | onMessage _ _ _ _ effect | onTick _ _ _ effect =>
    exact .inr ⟨_, rfl, effect⟩
  | arrived | dropped | pressed | missed | waits | read | completed | failed | forwarded | replied
    | sent | noPress | noMessage | transmitted | taken => exact .inl ⟨rfl, rfl⟩

structure Accounted (n : Network) (past : List NetworkEvent) : Prop where
  sound : n.Sound
  irq : n.uartRxIrqCount = stamp ((bytesQueued past).length + (bytesDropped past).length)
  drop : n.uartRxDropCount = stamp (bytesDropped past).length
  fifo : bytesQueued past = bytesParsed past ++ n.uartRxQueue.items
  errors : n.parserErrorCount = stamp (countResult (parserReplies past) .error)
  box : Counted n.cbox (boxCalls past)
  accepted : (boxCalls past).countP Observed.accepted =
    (past.filterMap NetworkEvent.acceptedPress).length

theorem start_accounted (raw : Parser) (message : ProtocolMessage)
    (frame : Vector UInt8 protocolMaxFrameLength) :
    Accounted (Network.tasksStart raw message frame) [] :=
  ⟨Network.start_sound raw message frame, rfl, rfl, rfl, rfl, ⟨rfl, rfl, rfl, rfl⟩, rfl⟩

/-- Only a press is ever accepted. -/
theorem accepted_one {n n' : Network} {action : NetworkAction} {event : NetworkEvent}
    (h : n.Moves action n' event) :
    (boxCalls [event]).countP Observed.accepted = event.acceptedPress.toList.length := by
  have called {box box' : Cbox} {o : Observed} (effect : Effect box box' o) :
      (boxCalls [.called o]).countP Observed.accepted =
        (NetworkEvent.called o).acceptedPress.toList.length := by
    cases effect <;> rfl
  cases h with
  | onButton _ _ _ _ effect | onMessage _ _ _ _ effect | onTick _ _ _ effect => exact called effect
  | arrived | dropped | pressed | missed | waits | read | completed | failed | forwarded | replied
    | sent | noPress | noMessage | transmitted | taken => rfl

theorem step_accounted (n : Network) (past : List NetworkEvent) (action : NetworkAction)
    (n' : Network) (event : NetworkEvent) (h : Accounted n past)
    (taken : n.step action = some (n', event)) : Accounted n' (past ++ [event]) := by
  have moves := Network.step_moves h.sound taken
  obtain ⟨irq, drop, fifo, errors⟩ := moves_count moves
  have queued' : bytesQueued (past ++ [event]) = bytesQueued past ++ bytesQueued [event] :=
    List.filterMap_append
  have dropped' : bytesDropped (past ++ [event]) = bytesDropped past ++ bytesDropped [event] :=
    List.filterMap_append
  have parsed' : bytesParsed (past ++ [event]) = bytesParsed past ++ bytesParsed [event] :=
    List.filterMap_append
  have replies' : parserReplies (past ++ [event]) = parserReplies past ++ parserReplies [event] :=
    List.filterMap_append
  have calls' : boxCalls (past ++ [event]) = boxCalls past ++ boxCalls [event] :=
    List.filterMap_append
  constructor
  · exact Network.moves_sound h.sound moves
  · rw [irq, h.irq, queued', dropped', List.length_append, List.length_append, stamp, stamp,
      ← UInt32.ofNat_add, Nat.add_add_add_comm]
    rfl
  · rw [drop, h.drop, dropped', List.length_append]
    exact stamp_add _ _
  · rw [queued', parsed', h.fifo, List.append_assoc, fifo, List.append_assoc]
  · rw [errors, h.errors, replies', countResult, countResult, countResult, List.countP_append]
    exact stamp_add _ _
  · rw [calls']
    rcases moves_box moves with ⟨none, same⟩ | ⟨o, one, effect⟩
    · rw [none, same, List.append_nil]
      exact h.box
    · rw [one]
      exact counted_step h.box effect
  · rw [calls', List.countP_append, h.accepted, accepted_one moves, List.filterMap_append,
      List.length_append]
    cases found : event.acceptedPress <;> simp [found]

/-- The box accepts or refuses each press that it reads. -/
theorem taken_one (event : NetworkEvent) :
    event.takenPress.toList.length =
      event.acceptedPress.toList.length + (refusedPresses [event]).length := by
  cases event with
  | called o =>
    obtain ⟨call, accepted, emitted⟩ := o
    cases call <;> cases accepted <;> rfl
  | _ => rfl

/-- Each confirmed press is queued or missed, and each that was taken accepted or refused. -/
structure PressesCounted (f : Firmware) (past : List FirmwareEvent) : Prop where
  path : PressPath f past
  confirmed : (confirmedPresses past).length =
    (queuedPresses past).length + (missedPresses (taskEvents past)).length
  taken : (takenPresses past).length =
    (acceptedPresses past).length + (refusedPresses (taskEvents past)).length

theorem start_pressesCounted (board : BoardIo) (raw : Parser) (message : ProtocolMessage)
    (frame : Vector UInt8 protocolMaxFrameLength) :
    PressesCounted (Firmware.start board raw message frame) [] :=
  ⟨start_path board raw message frame, rfl, rfl⟩

/-- What the timer confirms goes to the network in the same step. -/
theorem confirmed_one {f f' : Firmware} {past : List FirmwareEvent} {action : FirmwareAction}
    {e : FirmwareEvent} (path : PressPath f past) (taken : f.step action = some (f', e)) :
    (e.timer.bind BoardIo.TimerEvent.pressed).toList.length =
      (e.network.bind NetworkEvent.queuedPress).toList.length +
        (e.network.bind NetworkEvent.missedPress).toList.length := by
  cases Firmware.step_moves taken with
  | edge | enters | stores | calls | ticks => rfl
  | timer _ quiet => simp [quiet]
  | press _ pressed sent =>
    cases Network.step_moves path.sound sent with
    | pressed | missed => simp [pressed, NetworkEvent.queuedPress, NetworkEvent.missedPress]
  | network reads stepped =>
    cases Network.step_moves path.sound stepped with
    | pressed | missed => exact reads.elim
    | _ => rfl

theorem step_pressesCounted (f : Firmware) (past : List FirmwareEvent) (action : FirmwareAction)
    (f' : Firmware) (e : FirmwareEvent) (h : PressesCounted f past)
    (stepped : f.step action = some (f', e)) : PressesCounted f' (past ++ [e]) := by
  have confirmed' : confirmedPresses (past ++ [e]) = confirmedPresses past ++
      (e.timer.bind BoardIo.TimerEvent.pressed).toList := filterMap_snoc _ _ _ _
  have queued' : queuedPresses (past ++ [e]) = queuedPresses past ++
      (e.network.bind NetworkEvent.queuedPress).toList := filterMap_snoc _ _ _ _
  have missed' : missedPresses (taskEvents (past ++ [e])) = missedPresses (taskEvents past) ++
      (e.network.bind NetworkEvent.missedPress).toList := filterMap_snoc _ _ _ _
  have taken' : takenPresses (past ++ [e]) = takenPresses past ++
      (e.network.bind NetworkEvent.takenPress).toList := filterMap_snoc _ _ _ _
  have accepted' : acceptedPresses (past ++ [e]) = acceptedPresses past ++
      (e.network.bind NetworkEvent.acceptedPress).toList := filterMap_snoc _ _ _ _
  have refused' : refusedPresses (taskEvents (past ++ [e])) =
      refusedPresses (taskEvents past) ++ refusedPresses e.network.toList := by
    have events : taskEvents (past ++ [e]) = taskEvents past ++ e.network.toList := by
      cases found : e.network <;> simp [taskEvents, found]
    rw [events, refusedPresses, boxCalls, List.filterMap_append, List.filter_append]
    rfl
  constructor
  · exact step_path h.path stepped
  · have one := confirmed_one h.path stepped
    rw [confirmed', queued', missed', List.length_append, List.length_append, List.length_append,
      h.confirmed, one]
    omega
  · have one : (e.network.bind NetworkEvent.takenPress).toList.length =
        (e.network.bind NetworkEvent.acceptedPress).toList.length +
          (refusedPresses e.network.toList).length := by
      cases e.network with
      | none => rfl
      | some event => exact taken_one event
    rw [taken', accepted', refused', List.length_append, List.length_append, List.length_append,
      h.taken, one]
    omega

/-- In every run of the board the counters count, modulo 2^32, what they are named after, and
with them every byte and every press is accounted for: a received byte was dropped, or parsed,
or is in the queue, and a confirmed press was accepted, or refused, or is in the queue, or was
missed, which no counter counts. -/
theorem counters_account {board : BoardIo} {raw : Parser} {message : ProtocolMessage}
    {frame : Vector UInt8 protocolMaxFrameLength} {actions : List FirmwareAction} {final : Firmware}
    {events : List FirmwareEvent}
    (h : run Firmware.step (Firmware.start board raw message frame) actions = some (final, events)) :
    final.network.uartRxIrqCount = stamp ((bytesDropped (taskEvents events)).length +
        (bytesParsed (taskEvents events)).length + final.network.uartRxQueue.items.length) ∧
      final.network.uartRxDropCount = stamp (bytesDropped (taskEvents events)).length ∧
      final.network.parserErrorCount =
        stamp (countResult (parserReplies (taskEvents events)) .error) ∧
      (confirmedPresses events).length = (acceptedPresses events).length +
        (refusedPresses (taskEvents events)).length + final.network.buttonQueue.items.length +
        (missedPresses (taskEvents events)).length ∧
      final.network.cbox.modeChanges = stamp (acceptedPresses events).length ∧
      final.network.cbox.ignoredButtonPresses =
        stamp (refusedPresses (taskEvents events)).length ∧
      final.network.cbox.ackTimeouts =
        stamp ((emissions (boxCalls (taskEvents events))).count errTimeout) := by
  obtain ⟨networkActions, ran⟩ := Firmware.run_network h
  have account := run_kept step_accounted (start_accounted raw message frame) ran
  rw [List.nil_append] at account
  obtain ⟨path, confirmed, taken⟩ :=
    run_kept step_pressesCounted (start_pressesCounted board raw message frame) h
  rw [List.nil_append] at path confirmed taken
  have queued := congrArg List.length path.fifo
  have arrived := congrArg List.length account.fifo
  rw [List.length_append] at queued arrived
  refine ⟨?_, account.drop, account.errors, by omega, ?_, ?_, account.box.timeouts⟩
  · rw [account.irq, arrived]
    congr 1
    omega
  · rw [account.box.changes, account.accepted]
    rfl
  · rw [account.box.refused, refusedPresses, List.countP_eq_length_filter]
    rfl

/-- Two bytes too many for the queue, a frame attempt that fails, and two presses. -/
def busyBoard : List FirmwareAction :=
  List.replicate 66 (.usart1Isr protocolStartChar) ++ List.replicate 3 .taskRxParser ++
    (List.replicate 2 ([.risingEdge, .exti1Isr, .exti1Isr, .exti1Isr, .exti1Isr] ++
      List.replicate 50 (.tim3Isr true ⟨fun _ => true, 0⟩))).flatten ++ List.replicate 13 .taskApp

theorem counters_account_busy : ∃ final events,
    run Firmware.step (Firmware.start (BoardIo.boardIoInit ⟨fun _ => true, 0⟩) blankParser
      blankMessage (Vector.replicate 64 0)) busyBoard = some (final, events) ∧
    final.network.uartRxIrqCount = stamp 66 ∧ final.network.uartRxDropCount = stamp 2 ∧
    final.network.parserErrorCount = stamp 1 ∧ (confirmedPresses events).length = 1 + 1 + 0 + 0 := by
  have ends : (run Firmware.step (Firmware.start (BoardIo.boardIoInit ⟨fun _ => true, 0⟩) blankParser
      blankMessage (Vector.replicate 64 0)) busyBoard).any
      (fun r => decide ((bytesDropped (taskEvents r.2)).length = 2 ∧
        (bytesParsed (taskEvents r.2)).length = 2 ∧ r.1.network.uartRxQueue.items.length = 62 ∧
        countResult (parserReplies (taskEvents r.2)) .error = 1 ∧
        (acceptedPresses r.2).length = 1 ∧ (refusedPresses (taskEvents r.2)).length = 1 ∧
        r.1.network.buttonQueue.items.length = 0 ∧
        (missedPresses (taskEvents r.2)).length = 0)) = true := by
    decide +kernel
  obtain ⟨⟨final, events⟩, ran, ends⟩ := (Option.any_eq_true _ _).mp ends
  obtain ⟨dropped, parsed, queued, errors, accepted, refused, waiting, missed⟩ :=
    of_decide_eq_true ends
  obtain ⟨irq, drop, error, presses, _⟩ := counters_account ran
  rw [dropped, parsed, queued] at irq
  rw [dropped] at drop
  rw [errors] at error
  rw [accepted, refused, waiting, missed] at presses
  exact ⟨final, events, ran, irq, drop, error, presses⟩

end CommandBox
