import CommandBox.ExchangeFlow

/-! The exchange without new presses. The work of the network is counted twice, so that a byte
sent leaves room for the byte to be read; what an `EVT` may still bring back is priced on top,
from the press on. -/
namespace CommandBox
open Machine

inductive ExchangeParty where
  | line | board (task : NetworkTask) | bridge
  deriving DecidableEq, Repr

/-- A turn: a byte arrives, a task of the box runs, or the bridge reads at most `more + 1` bytes. -/
inductive ExchangeTurn where
  | line
  | board (turn : TaskTurn)
  | bridge (more : Nat)
  deriving DecidableEq

def ExchangeTurn.party : ExchangeTurn → ExchangeParty
  | .line => .line
  | .board turn => .board turn.task
  | .bridge _ => .bridge

def ExchangeTurn.action : ExchangeTurn → ExchangeAction
  | .line => .usart1Isr
  | .board turn => .turn turn
  | .bridge more => .read (more + 1)

/- The `EVT`s of the box. -/

/-- The `EVT`s that are still to be transmitted, or may still come out of the box. -/
def Network.evtDebt (n : Network) : Nat :=
  evtCount n.sending + n.uartTxQueue.items.countP (fun m => m.type = .evt) + budget n.cbox +
    7 * n.buttonQueue.items.length

def NetworkEvent.startsEvt : NetworkEvent → Nat
  | .taken message _ => if message.type = .evt then 1 else 0
  | _ => 0

theorem effect_debt {box box' : Cbox} {o : Observed} (effect : Effect box box' o) :
    evtCount o.emitted + budget box' ≤ budget box +
      match o.call with
      | .button _ _ => 7
      | _ => 0 := by
  cases effect with
  | opened paramValue nowMs pendingEvt free held =>
    simp [evtCount, evtEmission, stsEmission, datEmission, budget, free, ackMaxRetries]
  | refused => simp [evtCount, budget]
  | confirmed message nowMs busy ok => simp [evtCount, budget]
  | answered => simp [evtCount, ackReply]
  | unanswered | waited => simp [evtCount]
  | gaveUp nowMs busy due spent => simp [evtCount, errTimeout, budget]
  | retried nowMs busy due left =>
    have one := UInt8.toNat_sub_of_le box.retriesLeft 1 (UInt8.le_iff_toNat_le.mpr left)
    simp [evtCount, evtEmission, budget, busy, one]
    omega

theorem held_evt {e : Emission} {message : ProtocolMessage} (held : e.HeldBy message) :
    message.type = e.type := by
  obtain ⟨m, type, _, carries⟩ := held
  exact carries.1.trans type

/-- No turn adds to the debt, and the transmission of an `EVT` pays one off. -/
theorem turn_debt {n n' : Network} {turn : TaskTurn} {event : NetworkEvent}
    (moves : n.Moves (.turn turn) n' event) :
    n'.evtDebt + event.startsEvt ≤ n.evtDebt := by
  cases moves with
  | waits | read | completed | failed | forwarded | noPress | noMessage | transmitted =>
    exact Nat.le_refl _
  | replied _ held room =>
    have type := held_evt held
    simp [Network.evtDebt, NetworkEvent.startsEvt, Queue.send_items room, type, errBoundsEmission]
  | sent _ _ busy held room =>
    have type := held_evt held
    simp [Network.evtDebt, NetworkEvent.startsEvt, Queue.send_items room, type, busy, evtCount,
      List.countP_cons]
    omega
  | onButton _ free _ received effect call =>
    have spent := effect_debt effect
    simp only [call] at spent
    simp [Network.evtDebt, NetworkEvent.startsEvt, free, Queue.receive_items received, evtCount]
      at spent ⊢
    omega
  | onMessage _ free _ _ effect call | onTick _ free _ effect call =>
    have spent := effect_debt effect
    simp only [call] at spent
    simp [Network.evtDebt, NetworkEvent.startsEvt, free, evtCount] at spent ⊢
    omega
  | taken _ _ received =>
    simp [Network.evtDebt, NetworkEvent.startsEvt, Queue.receive_items received, List.countP_cons]
    omega

namespace Exchange

/-- The bytes that the bridge will write for what is on its way to it. -/
def answersAhead (noAck : Bool) (s : Exchange) : Nat :=
  (streamOutput noAck (s.buffer ++ s.toBridge ++ s.network.transmitting)).written.length

/-- A byte for the box costs the network 72, counted twice, and its arrival. -/
def work (noAck : Bool) (s : Exchange) : Nat :=
  2 * s.network.work + s.toBridge.length + 145 * (s.toBox.length + s.answersAhead noAck) +
    2031 * s.network.evtDebt

def Ready (s : Exchange) : ExchangeParty → Prop
  | .line => s.toBox ≠ []
  | .board task => s.network.Ready task
  | .bridge => s.toBridge ≠ []

def Helps (noAck : Bool) (s s' : Exchange) (party : ExchangeParty) : Prop :=
  work noAck s' < work noAck s ∨
    work noAck s' = work noAck s ∧ ¬ s.Ready party ∧ ∀ other, s.Ready other → s'.Ready other

theorem line_helps {noAck : Bool} {s s' : Exchange} {event : ExchangeEvent}
    (moves : s.Moves noAck .usart1Isr s' event) : Helps noAck s s' .line := by
  cases moves with
  | @acts _ act rest n' event asked moves =>
    left
    cases line : s.toBox with
    | nil =>
      rw [line] at asked
      cases asked
    | cons byte rest' =>
      rw [line] at asked
      cases asked
      cases moves with
      | arrived _ room =>
        simp [work, answersAhead, Network.work, Network.evtDebt, line, bytesTransmitted,
          Queue.send_items room]
        omega
      | dropped =>
        simp [work, answersAhead, Network.work, Network.evtDebt, line, bytesTransmitted]
  | nothing silent => exact .inr ⟨rfl, not_not.mpr silent, fun _ ready => ready⟩

theorem bridge_helps {noAck : Bool} {s s' : Exchange} {more : Nat} {event : ExchangeEvent}
    (moves : s.Moves noAck (.read (more + 1)) s' event) : Helps noAck s s' .bridge := by
  cases moves with
  | acts asked => cases asked
  | @reads _ chunk rest line some' =>
    have split : s.buffer ++ s.toBridge ++ s.network.transmitting =
        (s.buffer ++ chunk) ++ (rest ++ s.network.transmitting) := by simp [line]
    have ahead : (streamOutput noAck (s.buffer ++ s.toBridge ++ s.network.transmitting)).written.length =
        (streamOutput noAck (s.buffer ++ chunk)).written.length +
        (streamOutput noAck ((Lines.cut protocolEndChar (s.buffer ++ chunk)).2 ++ rest ++
          s.network.transmitting)).written.length := by
      rw [split, streamOutput_append, BridgeOutput.append, List.length_append, List.append_assoc]
    have size : s.toBridge.length = chunk.length + rest.length := by simp [line]
    by_cases empty : chunk = []
    · have done := some' (Nat.succ_pos more) empty
      right
      refine ⟨?_, not_not.mpr done, ?_⟩
      · rw [empty, List.length_nil] at size
        simp only [work, answersAhead, ahead, List.length_append, size]
        omega
      · intro other ready
        cases other with
        | line => exact fun nothing => ready (List.append_eq_nil_iff.mp nothing).1
        | board task => exact ready
        | bridge => exact absurd done ready
    · have positive := List.length_pos_iff.mpr empty
      left
      simp only [work, answersAhead, ahead, List.length_append, size]
      omega

/-- Only a transmission adds a byte to the line, and it was work before. -/
theorem transmission_lowers {n n' : Network} {turn : TaskTurn} {event : NetworkEvent}
    (moves : n.Moves (.turn turn) n' event) :
    bytesTransmitted [event] = [] ∨
      (bytesTransmitted [event]).length = 1 ∧ n'.work < n.work := by
  cases moves with
  | transmitted line =>
    right
    refine ⟨rfl, ?_⟩
    simp [Network.work, line]
  | _ => exact .inl rfl

theorem frames_answers (noAck : Bool) (ms : List WireMessage) :
    (streamOutput noAck (ms.flatMap WireMessage.frame)).written.length =
      14 * (if noAck then 0 else evtCount (ms.map WireMessage.emission)) := by
  have none : protocolEndChar ∉ ([] : List UInt8) := List.not_mem_nil
  have output := begun_output noAck ms none
  rw [List.append_nil] at output
  rw [output, messages_answers, List.length_flatten, List.map_replicate, List.sum_replicate]
  exact Nat.mul_comm _ _

/-- The answers ahead grow only when the transmission of an `EVT` starts, by one frame. -/
theorem turn_ahead {noAck : Bool} {raw : Parser} {first : ProtocolMessage} {s : Exchange}
    {past : List ExchangeEvent} (exchanged : Exchanged noAck raw first s past) {turn : TaskTurn}
    {n' : Network} {event : NetworkEvent} (moves : s.network.Moves (.turn turn) n' event) :
    answersAhead noAck
        { s with network := n', toBridge := s.toBridge ++ bytesTransmitted [event] } ≤
      s.answersAhead noAck + 14 * event.startsEvt := by
  cases moves with
  | transmitted line => simp [answersAhead, bytesTransmitted, line]
  | @taken e message queue buffer silent received held =>
    obtain ⟨whole, later, back, _, _, _, frames, _⟩ := exchanged_frames exchanged
    obtain ⟨m, type, payload, carries⟩ := held
    have text : e.frame = m.frame := by
      rw [frame_spelled, type, payload]
      rfl
    rw [silent, List.append_nil] at frames
    have before : s.answersAhead noAck =
        14 * (if noAck then 0 else evtCount (later.map WireMessage.emission)) := by
      rw [answersAhead, silent, List.append_nil, frames, frames_answers]
    have after : s.buffer ++ (s.toBridge ++ []) ++ e.frame =
        (later ++ [m]).flatMap WireMessage.frame := by
      rw [List.append_nil, frames, text, List.flatMap_append, List.flatMap_singleton]
    have kind : message.type = m.type := carries.1
    change (streamOutput noAck (s.buffer ++ (s.toBridge ++ []) ++ e.frame)).written.length ≤
      s.answersAhead noAck + 14 * (if message.type = .evt then 1 else 0)
    rw [before, after, frames_answers, List.map_append, evtCount_append, kind]
    cases noAck with
    | true => simp
    | false =>
      by_cases evt : m.type = .evt
      · simp [evtCount, WireMessage.emission, evt]
        omega
      · simp [evtCount, WireMessage.emission, evt]
  | _ => simp [answersAhead, bytesTransmitted]

theorem board_helps {noAck : Bool} {raw : Parser} {first : ProtocolMessage} {s s' : Exchange}
    {past : List ExchangeEvent} (exchanged : Exchanged noAck raw first s past) {turn : TaskTurn}
    {event : ExchangeEvent} (moves : s.Moves noAck (.turn turn) s' event) :
    Helps noAck s s' (.board turn.task) := by
  cases moves with
  | @acts _ act rest n' event asked moves =>
    cases asked
    have debt := turn_debt moves
    have ahead := turn_ahead exchanged moves
    have size : (s.toBridge ++ bytesTransmitted [event]).length =
        s.toBridge.length + (bytesTransmitted [event]).length := List.length_append
    have sent := transmission_lowers moves
    rcases Network.turn_helps moves with lower | ⟨same, idle, keeps⟩
    · left
      have short : (bytesTransmitted [event]).length ≤ 1 := by
        rcases sent with none | ⟨one, _⟩
        · simp [none]
        · omega
      simp only [work, size]
      omega
    · have silent : bytesTransmitted [event] = [] := by
        rcases sent with none | ⟨_, lower⟩
        · exact none
        · omega
      rw [silent, List.append_nil] at ahead
      have order : work noAck { s with network := n' } ≤ work noAck s := by
        simp only [work]
        omega
      rw [silent, List.append_nil]
      rcases Nat.lt_or_eq_of_le order with lower | equal
      · exact .inl lower
      · refine .inr ⟨equal, idle, ?_⟩
        intro other ready
        cases other with
        | board task => exact keeps task ready
        | line | bridge => exact ready

def takeTurn (noAck : Bool) (s : Exchange) (turn : ExchangeTurn) :
    Option (Exchange × ExchangeEvent) := s.step noAck turn.action

theorem exchange_turns_help (noAck : Bool) (raw : Parser) (first : ProtocolMessage) :
    Fair.Helpful (takeTurn noAck) ExchangeTurn.party (fun s => ∃ past, Exchanged noAck raw first s past)
      (work noAck) Ready := by
  rintro s turn ⟨past, exchanged⟩
  obtain ⟨s', event, taken, moves⟩ := step_does noAck exchanged.sound turn.action
  refine ⟨s', event, taken, ⟨_, moves_exchanged exchanged moves⟩, ?_⟩
  cases turn with
  | line => exact line_helps moves
  | board turn => exact board_helps exchanged moves
  | bridge more => exact bridge_helps moves

/-- Where no work is left no byte can come that would be dropped. -/
theorem spent_drops {noAck : Bool} {raw : Parser} {first : ProtocolMessage} {s s' : Exchange}
    {turns : List ExchangeTurn} {later : List ExchangeEvent}
    (exchanged : ∃ past, Exchanged noAck raw first s past) (spent : s.work noAck = 0)
    (went : run (takeTurn noAck) s turns = some (s', later)) :
    bytesDropped (networkEvents later) = [] := by
  induction turns generalizing s later with
  | nil =>
    cases went
    rfl
  | cons turn turns ih =>
    obtain ⟨past, holds⟩ := exchanged
    obtain ⟨s₁, event, taken, kept, lower⟩ := exchange_turns_help noAck raw first s turn ⟨past, holds⟩
    obtain ⟨_, _, taken', moves⟩ := step_does noAck holds.sound turn.action
    obtain ⟨rfl, rfl⟩ := Prod.mk.inj (Option.some.inj (taken.symm.trans taken'))
    rw [run_cons _ taken] at went
    obtain ⟨⟨last, others⟩, rest, made⟩ := Option.map_eq_some_iff.mp went
    cases made
    have none := ih kept (by omega) rest
    have quiet : bytesDropped (networkEvents [event]) = [] := by
      have empty : s.toBox = [] := by
        refine List.length_eq_zero_iff.mp ?_
        simp only [work] at spent
        omega
      cases turn with
      | line =>
        cases moves with
        | acts asked =>
          rw [empty] at asked
          cases asked
        | nothing => rfl
      | board turn =>
        cases moves with
        | acts asked moves =>
          cases asked
          cases moves <;> rfl
      | bridge more =>
        cases moves with
        | acts asked => cases asked
        | reads => rfl
    have parts : networkEvents (event :: others) =
        networkEvents [event] ++ networkEvents others := by
      rw [networkEvents, ← List.singleton_append, List.filterMap_append]
      rfl
    rw [parts, bytesDropped, List.filterMap_append]
    exact List.append_eq_nil_iff.mpr ⟨quiet, none⟩

end Exchange

/-- Any rounds in which the line, every task and the bridge have a turn bring both ends to
rest, with every `EVT` answered and nothing pending if no byte was ever dropped. -/
theorem exchange_settles (noAck : Bool) (raw : Parser) (first : ProtocolMessage)
    (frame : Vector UInt8 protocolMaxFrameLength) (actions : List ExchangeAction) :
    ∃ final events, run (Exchange.step noAck) (Exchange.start raw first frame) actions =
        some (final, events) ∧
      ∀ rounds : List (List ExchangeTurn),
        (∀ round ∈ rounds, ∀ party, ∃ turn ∈ round, turn.party = party) →
        final.work noAck < rounds.length →
        ∃ front back rest later, rounds = front ++ back ∧
          run (Exchange.takeTurn noAck) final front.flatten = some (rest, later) ∧ rest.AtRest ∧
          (noAck = false → bytesDropped (networkEvents (events ++ later)) = [] →
            rest.network.cbox.ackPending = false ∧
            (handled (networkEvents (events ++ later))).length =
              evtCount (emissions (boxCalls (networkEvents (events ++ later))))) := by
  obtain ⟨final, events, ran, exchanged, _⟩ := exchange_runs noAck raw first frame actions
  refine ⟨final, events, ran, ?_⟩
  intro rounds fair enough
  obtain ⟨front, back, rest, later, split, turned, _, idle⟩ :=
    Fair.rounds_finish (Exchange.exchange_turns_help noAck raw first) ⟨_, exchanged⟩ fair enough
  have settled : rest.AtRest := by
    refine ⟨Network.quiet_unready fun task => idle (.board task), ?_, ?_⟩
    · exact not_not.mp (idle .bridge)
    · exact not_not.mp (idle .line)
  refine ⟨front, back, rest, later, split, turned, settled, ?_⟩
  intro replies kept
  obtain ⟨rest', all, ran', law⟩ :=
    exchange_runs noAck raw first frame (actions ++ front.flatten.map ExchangeTurn.action)
  have mapped : run (Exchange.step noAck) final (front.flatten.map ExchangeTurn.action) =
      some (rest, later) := (run_map _ _ _ _).symm.trans turned
  rw [run_append ran, mapped] at ran'
  cases ran'
  have answered := (exchanged_answered law.1 kept).settled replies settled
  refine ⟨?_, answered⟩
  cases pending : rest.network.cbox.ackPending with
  | false => rfl
  | true => exact absurd (law.2 kept pending) (by omega)

/-- After a press: its three frames, the answer, and its way back. -/
def answerRound : List ExchangeTurn :=
  List.replicate 4 (.board (.app 7 5)) ++ List.replicate 69 (.board .uartTx) ++
    .bridge 255 :: (List.replicate 14 [.line, .board .rxParser]).flatten ++
    [.board .rxParser, .board (.app 7 9)]

def everyParty : List ExchangeTurn :=
  [.line, .board .rxParser, .board (.app 7 9), .board .uartTx, .bridge 0]

theorem exchange_settles_press : ∃ final events,
    run (Exchange.step false) (Exchange.start blankParser blankMessage (Vector.replicate 64 0))
      [.tim3Isr 5] = some (final, events) ∧
    ∃ front back rest later,
      answerRound :: List.replicate (final.work false) everyParty = front ++ back ∧
      run (Exchange.takeTurn false) final front.flatten = some (rest, later) ∧ rest.AtRest ∧
      rest.network.cbox.ackPending = false ∧
      (handled (networkEvents (events ++ later))).length =
        evtCount (emissions (boxCalls (networkEvents (events ++ later)))) := by
  obtain ⟨final, events, ran, settles⟩ :=
    exchange_settles false blankParser blankMessage (Vector.replicate 64 0) [.tim3Isr 5]
  have fair : ∀ round ∈ answerRound :: List.replicate (final.work false) everyParty,
      ∀ party, ∃ turn ∈ round, turn.party = party := by
    intro round there party
    rcases List.mem_cons.mp there with rfl | idle
    · rcases party with _ | (_ | _ | _) | _ <;> decide
    · rw [List.eq_of_mem_replicate idle]
      rcases party with _ | (_ | _ | _) | _ <;> decide
  obtain ⟨front, back, rest, later, split, turned, settled, answers⟩ :=
    settles _ fair (by simp)
  refine ⟨final, events, ran, front, back, rest, later, split, turned, settled, answers rfl ?_⟩
  -- no byte is dropped up to the answer, and none after it
  obtain ⟨mid, all, whole, exchanged, _⟩ := exchange_runs false blankParser blankMessage
    (Vector.replicate 64 0) ([.tim3Isr 5] ++ answerRound.map ExchangeTurn.action)
  have shown : (run (Exchange.step false)
      (Exchange.start blankParser blankMessage (Vector.replicate 64 0))
      ([.tim3Isr 5] ++ answerRound.map ExchangeTurn.action)).any (fun r =>
        decide (r.1.work false = 0 ∧ bytesDropped (networkEvents r.2) = [])) = true := by
    decide +kernel
  rw [whole, Option.any_some] at shown
  obtain ⟨spent, kept⟩ := of_decide_eq_true shown
  rw [run_append ran] at whole
  obtain ⟨⟨answered, told⟩, ran', made⟩ := Option.map_eq_some_iff.mp whole
  cases made
  rw [networkEvents, bytesDropped, List.filterMap_append, List.filterMap_append] at kept ⊢
  obtain ⟨before, during⟩ := List.append_eq_nil_iff.mp kept
  refine List.append_eq_nil_iff.mpr ⟨before, ?_⟩
  cases front with
  | nil =>
    cases turned
    rfl
  | cons round front =>
    obtain ⟨rfl, _⟩ := List.cons.inj split
    have first : run (Exchange.takeTurn false) final answerRound = some (answered, told) :=
      (run_map (Exchange.step false) ExchangeTurn.action final answerRound).trans ran'
    rw [List.flatten_cons, run_append first] at turned
    obtain ⟨⟨_, more⟩, rested, made⟩ := Option.map_eq_some_iff.mp turned
    cases made
    rw [List.filterMap_append, List.filterMap_append]
    exact List.append_eq_nil_iff.mpr ⟨during, Exchange.spent_drops ⟨_, exchanged⟩ spent rested⟩

end CommandBox
