import CommandBox.RoundTrip
import CommandBox.BoxEffect
import CommandBox.Tasks
import Mathlib.Algebra.Order.BigOperators.Group.List
import Mathlib.Algebra.Order.Group.Nat

/-! Two boards, each on the line of the other. A reply is never answered but may cut off
a frame, so what a board still owes counts the attempt its input will leave open. -/
namespace CommandBox
open Memory Progress

inductive BoardTask where
  | rxParser
  | app (nowMs : UInt32)
  | uartTx
  deriving DecidableEq

/-- A turn of one task on `own`; what it transmits arrives at `other` whole. -/
def boardTurn (own other : Board) : BoardTask → Option ((Board × Board) × Option (List UInt8))
  | .rxParser => (taskRxParser own).map fun own => ((own, other), none)
  | .app nowMs => (taskAppMessage own nowMs).map fun own => ((own, other), none)
  | .uartTx => (taskUartTx own).map fun r =>
      ((r.1, { other with uartRxQueue := other.uartRxQueue ++ r.2.getD [] }), r.2)

inductive PairAction where
  | left (task : BoardTask)
  | right (task : BoardTask)
  deriving DecidableEq

/-- One step of the two boards and the frame it sends. -/
def pairStep (s : Board × Board) : PairAction → Option ((Board × Board) × Option (List UInt8))
  | .left task => boardTurn s.1 s.2 task
  | .right task => (boardTurn s.2 s.1 task).map fun r => (r.1.swap, r.2)

/-- A parser state that some stream leads to. -/
def ReachableParser (parser : Parser) : Prop :=
  ∃ raw message stream message' replies,
    feed (parserInit raw) message stream = some ((parser, message'), replies)

/-- Nothing is under way on the board but the bytes of its line. -/
structure AtRest (board : Board) : Prop where
  reachable : ReachableParser board.parser
  sends : board.cbox.send = true
  noMessage : board.appQueue = []
  noReply : board.uartTxQueue = []

/-- The start characters on the line, and the frame that the parser is inside of. -/
def openAttempts (board : Board) : Nat :=
  board.uartRxQueue.count protocolStartChar + if board.parser.state = .waitStart then 0 else 1

def Drained (board : Board) : Prop :=
  board.uartRxQueue = [] ∧ board.appQueue = [] ∧ board.uartTxQueue = []

def errBounds : WireMessage where
  type := .err
  payload := ascii "bounds"
  known := rfl
  short := by decide
  clean := by decide +kernel

def ackWire : WireMessage where
  type := .ack
  payload := ascii "ok"
  known := rfl
  short := by decide
  clean := by decide +kernel

/-- The two messages a board replies with; it answers neither. -/
def IsReply (message : ProtocolMessage) : Prop :=
  ∃ m ∈ [errBounds, ackWire], Carries message m

theorem reply_unanswered {m : WireMessage} (h : m ∈ [errBounds, ackWire]) :
    m.type ∉ answeredTypes := by
  rcases List.mem_pair.mp h with rfl | rfl <;> decide

theorem reply_short {m : WireMessage} (h : m ∈ [errBounds, ackWire]) : m.frame.length ≤ 18 := by
  rw [WireMessage.frame, frame_length, m.body_length]
  rcases List.mem_pair.mp h with rfl | rfl <;> decide

/- What a board owes. -/

def Outcome.owes : Outcome → Nat
  | .inProgress => 0
  | .ready type _ => if type ∈ answeredTypes then 1 else 0
  | .error => 1

def Progress.owes (p : Progress) (stream : List UInt8) : Nat :=
  ((Machine.trace next p stream).2.map Outcome.owes).sum + attempts (Machine.trace next p stream).1

theorem owes_cons (p : Progress) (b : UInt8) (rest : List UInt8) :
    p.owes (b :: rest) = (next p b).2.owes + (next p b).1.owes rest := by
  simp only [Progress.owes, Machine.trace_cons, List.map_cons, List.sum_cons]
  omega

/-- A reply behind the stream answers the attempt that the stream leaves open, no more. -/
theorem owes_reply {m : WireMessage} (h : m ∈ [errBounds, ackWire]) (p : Progress)
    (stream : List UInt8) : p.owes (stream ++ m.frame) = p.owes stream := by
  have quiet : Outcome.owes (.ready m.type m.payload) = 0 := if_neg (reply_unanswered h)
  have first : Outcome.owes (if (Machine.trace next p stream).1 = .waitStart then .inProgress
      else .error) = attempts (Machine.trace next p stream).1 := by
    unfold attempts
    split <;> rfl
  have silent : Outcome.owes .inProgress = 0 := rfl
  have closed : attempts .waitStart = 0 := rfl
  simp only [Progress.owes, Machine.trace_append, WireMessage.frame, trace_frame, List.map_append,
    List.map_cons, List.map_nil, List.map_replicate, List.sum_append, List.sum_cons, List.sum_nil,
    List.sum_replicate_nat, quiet, first, silent, closed]
  omega

/-- A stream without replies under way owes at most its attempts. -/
theorem owes_attempts (p : Progress) (stream : List UInt8) :
    p.owes stream ≤ stream.count protocolStartChar + attempts p := by
  have conserved := trace_conserves p stream
  have less : ((Machine.trace next p stream).2.map Outcome.owes).sum ≤
      ((Machine.trace next p stream).2.map Outcome.finished).sum := by
    apply List.sum_le_sum
    intro o _
    cases o with
    | inProgress | error => exact Nat.le_refl _
    | ready type payload =>
      simp only [Outcome.owes, Outcome.finished]
      split
      · exact Nat.le_refl 1
      · exact Nat.zero_le 1
  simp only [Progress.owes]
  omega

/- One turn. -/

structure BoardTracks (board : Board) (p : Progress) : Prop where
  tracks : Tracks (board.parser, board.message) p
  sends : board.cbox.send = true
  replies : ∀ message ∈ board.uartTxQueue, IsReply message

/-- The replies that are still to be transmitted, were the line to fall silent. -/
def owed (board : Board) (p : Progress) : Nat :=
  p.owes board.uartRxQueue + board.appQueue.countP (fun message => message.type ∈ answeredTypes) +
    board.uartTxQueue.length

def unread (board : Board) : Nat := 2 * board.uartRxQueue.length + board.appQueue.length

/-- Each turn lowers the sum of this; a reply becomes at most 18 bytes. -/
def work (board : Board) (p : Progress) : Nat := unread board + 37 * owed board p

theorem send_reply {m : WireMessage} (h : m ∈ [errBounds, ackWire]) :
    ∃ message, IsReply message ∧ ∀ board, cboxSendToTxQueue board m.type (m.payload ++ [0]) =
      some { board with uartTxQueue := board.uartTxQueue ++ [message] } := by
  obtain ⟨message, set, delivered⟩ := message_set blankMessage m
  refine ⟨message, ⟨m, h, delivered_carries delivered⟩, ?_⟩
  intro board
  exact then_some set rfl

theorem queue_reply {queue : List ProtocolMessage} {message : ProtocolMessage}
    (each : ∀ m ∈ queue, IsReply m) (new : IsReply message) :
    ∀ m ∈ queue ++ [message], IsReply m := by
  intro m hm
  rcases List.mem_append.mp hm with hm | hm
  · exact each m hm
  · cases List.mem_singleton.mp hm
    exact new

theorem rx_turn {board : Board} {p : Progress} (h : BoardTracks board p) {byte : UInt8}
    {rest : List UInt8} (line : board.uartRxQueue = byte :: rest) :
    ∃ board' p', taskRxParser board = some board' ∧ BoardTracks board' p' ∧
      owed board' p' = owed board p ∧ unread board' < unread board := by
  obtain ⟨c, step, tracks, replies⟩ := track_step h.tracks byte
  have count := owes_cons p byte rest
  cases outcome : (next p byte).2 with
  | inProgress =>
    rw [outcome] at replies count
    have turn : taskRxParser board = some
        { board with uartRxQueue := rest, parser := c.parser, message := c.message } := by
      simp only [taskRxParser, line, step, Option.bind_eq_bind, Option.bind_some, replies.1]
    refine ⟨_, _, turn, ⟨tracks, h.sends, h.replies⟩, ?_, ?_⟩
    · simp only [owed, line, count, Outcome.owes]
      omega
    · simp only [unread, line, List.length_cons]
      omega
  | ready type payload =>
    rw [outcome] at replies count
    obtain ⟨result, delivered⟩ := replies
    have turn : taskRxParser board = some
        { board with
          uartRxQueue := rest
          parser := c.parser
          message := c.message
          appQueue := board.appQueue ++ [c.message] } := by
      simp only [taskRxParser, line, step, Option.bind_eq_bind, Option.bind_some, result]
    have answered : [c.message].countP (fun message => message.type ∈ answeredTypes) =
        Outcome.owes (.ready type payload) := by
      simp [Outcome.owes, List.countP_cons, delivered.1]
    refine ⟨_, _, turn, ⟨tracks, h.sends, h.replies⟩, ?_, ?_⟩
    · simp only [owed, line, count, List.countP_append, answered]
      omega
    · simp only [unread, line, List.length_append, List.length_cons, List.length_nil]
      omega
  | error =>
    rw [outcome] at replies count
    obtain ⟨message, isReply, sent⟩ := send_reply (List.mem_cons_self : errBounds ∈ _)
    have begun : taskRxParser board = cboxSendToTxQueue
        { board with
          uartRxQueue := rest
          parser := c.parser
          message := c.message
          parserErrorCount := board.parserErrorCount + 1 }
        errBounds.type (errBounds.payload ++ [0]) := by
      simp only [taskRxParser, line, step, Option.bind_eq_bind, Option.bind_some, replies.1]
      rfl
    refine ⟨_, _, begun.trans (sent _), ⟨tracks, h.sends, queue_reply h.replies isReply⟩, ?_, ?_⟩
    · simp only [owed, line, count, Outcome.owes, List.length_append, List.length_cons,
        List.length_nil]
      omega
    · simp only [unread, line, List.length_cons]
      omega

theorem app_turn {board : Board} {p : Progress} (h : BoardTracks board p) (nowMs : UInt32)
    {message : ProtocolMessage} {rest : List ProtocolMessage}
    (waiting : board.appQueue = message :: rest) :
    ∃ board', taskAppMessage board nowMs = some board' ∧ BoardTracks board' p ∧
      owed board' p = owed board p ∧ unread board' < unread board := by
  obtain ⟨cbox, emitted, handled, sends, text⟩ := message_emits h.sends message nowMs
  have count : board.appQueue.countP (fun m => m.type ∈ answeredTypes) =
      rest.countP (fun m => m.type ∈ answeredTypes) +
        if message.type ∈ answeredTypes then 1 else 0 := by
    simp [waiting, List.countP_cons]
  by_cases answered : message.type ∈ answeredTypes
  · rw [if_pos answered] at text count
    obtain ⟨reply, isReply, sent⟩ := send_reply (List.mem_cons_of_mem _ List.mem_cons_self :
      ackWire ∈ [errBounds, ackWire])
    have turn : taskAppMessage board nowMs = some
        { board with
          appQueue := rest
          cbox := cbox
          uartTxQueue := board.uartTxQueue ++ [reply] } := by
      simp only [taskAppMessage, waiting, handled, text, Option.bind_eq_bind, Option.bind_some]
      exact then_some (sent _) rfl
    refine ⟨_, turn, ⟨h.tracks, sends, queue_reply h.replies isReply⟩, ?_, ?_⟩
    · simp only [owed, count, List.length_append, List.length_cons, List.length_nil]
      omega
    · simp only [unread, waiting, List.length_cons]
      omega
  · rw [if_neg answered] at text count
    have turn : taskAppMessage board nowMs = some
        { board with appQueue := rest, cbox := cbox } := by
      simp only [taskAppMessage, waiting, handled, text, Option.bind_eq_bind, Option.bind_some]
      rfl
    refine ⟨_, turn, ⟨h.tracks, sends, h.replies⟩, ?_, ?_⟩
    · simp only [owed, count]
      omega
    · simp only [unread, waiting, List.length_cons]
      omega

theorem tx_turn {board : Board} {p : Progress} (h : BoardTracks board p) {message : ProtocolMessage}
    {rest : List ProtocolMessage} (waiting : board.uartTxQueue = message :: rest) :
    ∃ board' m, taskUartTx board = some (board', some m.frame) ∧ m ∈ [errBounds, ackWire] ∧
      BoardTracks board' p ∧ owed board' p + 1 = owed board p ∧ unread board' = unread board := by
  obtain ⟨m, isReply, holds⟩ := h.replies message (waiting ▸ List.mem_cons_self)
  obtain ⟨r, encoded, ok, written⟩ := encode_written holds board.frame
  have turn : taskUartTx board = some
      ({ board with uartTxQueue := rest, frame := r.frame }, some m.frame) := by
    simp only [taskUartTx, waiting, encoded, ok, Option.bind_eq_bind, Option.bind_some, if_true,
      ← written]
    rfl
  refine ⟨_, m, turn, isReply, ⟨h.tracks, h.sends, ?_⟩, ?_, rfl⟩
  · intro message' hm
    exact h.replies message' (waiting ▸ List.mem_cons_of_mem message hm)
  · simp only [owed, waiting, List.length_cons]
    omega

/-- A turn moves what is owed and loses none of it. -/
theorem turn_spends {own other : Board} {p q : Progress} (h : BoardTracks own p)
    (h' : BoardTracks other q) {task : BoardTask} {own' other' : Board} {sent : Option (List UInt8)}
    (turn : boardTurn own other task = some ((own', other'), sent)) :
    ∃ p', BoardTracks own' p' ∧ BoardTracks other' q ∧
      [sent].countP Option.isSome + owed own' p' + owed other' q = owed own p + owed other q ∧
      work own' p' + work other' q < work own p + work other q := by
  cases task with
  | rxParser =>
    obtain ⟨board, taken, result⟩ := Option.map_eq_some_iff.mp turn
    cases result
    cases line : own.uartRxQueue with
    | nil =>
      rw [taskRxParser, line] at taken
      contradiction
    | cons byte rest =>
      obtain ⟨board, p', step, tracks, same, less⟩ := rx_turn h line
      cases taken.symm.trans step
      refine ⟨p', tracks, h', by simp [same], ?_⟩
      simp only [work, same]
      omega
  | app nowMs =>
    obtain ⟨board, taken, result⟩ := Option.map_eq_some_iff.mp turn
    cases result
    cases waiting : own.appQueue with
    | nil =>
      rw [taskAppMessage, waiting] at taken
      contradiction
    | cons message rest =>
      obtain ⟨board, step, tracks, same, less⟩ := app_turn h nowMs waiting
      cases taken.symm.trans step
      refine ⟨p, tracks, h', by simp [same], ?_⟩
      simp only [work, same]
      omega
  | uartTx =>
    obtain ⟨⟨board, bytes⟩, taken, result⟩ := Option.map_eq_some_iff.mp turn
    cases result
    cases waiting : own.uartTxQueue with
    | nil =>
      rw [taskUartTx, waiting] at taken
      contradiction
    | cons message rest =>
      obtain ⟨board, m, step, isReply, tracks, paid, same⟩ := tx_turn h waiting
      cases taken.symm.trans step
      have arrived := owes_reply isReply q other.uartRxQueue
      have short := reply_short isReply
      refine ⟨p, tracks, ⟨h'.tracks, h'.sends, h'.replies⟩, ?_, ?_⟩
      · simp only [owed, Option.getD_some, arrived] at paid ⊢
        simp
        omega
      · simp only [work, owed, unread, Option.getD_some, arrived, List.length_append] at paid same ⊢
        omega

/-- The two boards after some steps that sent these frames. -/
def Spent (replies steps : Nat) (s : Board × Board) (frames : List (Option (List UInt8))) : Prop :=
  ∃ p q, BoardTracks s.1 p ∧ BoardTracks s.2 q ∧
    frames.countP Option.isSome + owed s.1 p + owed s.2 q = replies ∧
    frames.length + work s.1 p + work s.2 q ≤ steps

theorem pair_spends (replies steps : Nat) (s : Board × Board)
    (frames : List (Option (List UInt8))) (action : PairAction) (s' : Board × Board)
    (sent : Option (List UInt8)) (h : Spent replies steps s frames)
    (step : pairStep s action = some (s', sent)) : Spent replies steps s' (frames ++ [sent]) := by
  obtain ⟨p, q, left, right, owes, works⟩ := h
  cases action with
  | left task =>
    obtain ⟨p', left', right', same, less⟩ := turn_spends left right step
    refine ⟨p', q, left', right', ?_, ?_⟩
    · rw [List.countP_append]
      omega
    · rw [List.length_append, List.length_singleton]
      omega
  | right task =>
    obtain ⟨⟨⟨own, other⟩, bytes⟩, turn, result⟩ := Option.map_eq_some_iff.mp step
    cases result
    obtain ⟨q', right', left', same, less⟩ := turn_spends right left turn
    refine ⟨p, q', left', right', ?_, ?_⟩
    · simp only [List.countP_append, Prod.fst_swap, Prod.snd_swap]
      omega
    · simp only [List.length_append, List.length_singleton, Prod.fst_swap, Prod.snd_swap]
      omega

theorem board_continues {own : Board} {p : Progress} (h : BoardTracks own p) (other : Board) :
    Drained own ∨ ∃ task, boardTurn own other task ≠ none := by
  cases line : own.uartRxQueue with
  | cons byte rest =>
    obtain ⟨_, _, step, _⟩ := rx_turn h line
    exact .inr ⟨.rxParser, by simp [boardTurn, step]⟩
  | nil =>
    cases waiting : own.appQueue with
    | cons message rest =>
      obtain ⟨_, step, _⟩ := app_turn h 0 waiting
      exact .inr ⟨.app 0, by simp [boardTurn, step]⟩
    | nil =>
      cases replies : own.uartTxQueue with
      | cons message rest =>
        obtain ⟨_, _, step, _⟩ := tx_turn h replies
        exact .inr ⟨.uartTx, by simp [boardTurn, step]⟩
      | nil => exact .inl ⟨line, waiting, replies⟩

theorem rest_tracks {board : Board} (h : AtRest board) :
    ∃ p, BoardTracks board p ∧ owed board p ≤ openAttempts board ∧
      unread board = 2 * board.uartRxQueue.length := by
  obtain ⟨raw, message, stream, message', replies, read⟩ := h.reachable
  obtain ⟨final, replies', read', tracks, _⟩ := feed_trace (init_tracks raw message) stream
  cases read.symm.trans read'
  have now : Tracks (board.parser, board.message) _ := tracks
  have waiting := waitStart_iff now
  have bound := owes_attempts (Machine.trace next .waitStart stream).1 board.uartRxQueue
  refine ⟨_, ⟨now, h.sends, by simp [h.noReply]⟩, ?_, by simp [unread, h.noMessage]⟩
  simp only [owed, h.noMessage, h.noReply, openAttempts, waiting, attempts, List.countP_nil,
    List.length_nil] at bound ⊢
  omega

/-- Two boards at rest exchange at most one reply for each start character on the lines
and each parser inside a frame, and then everything is drained. -/
theorem no_reply_storm {left right : Board} (hl : AtRest left) (hr : AtRest right)
    (actions : List PairAction) {final : Board × Board} {frames : List (Option (List UInt8))}
    (h : Machine.run pairStep (left, right) actions = some (final, frames)) :
    frames.countP Option.isSome ≤ openAttempts left + openAttempts right ∧
    actions.length ≤ 2 * (left.uartRxQueue.length + right.uartRxQueue.length) +
      37 * (openAttempts left + openAttempts right) ∧
    ((Drained final.1 ∧ Drained final.2) ∨ ∃ action, pairStep final action ≠ none) := by
  obtain ⟨p, tracksLeft, owesLeft, readLeft⟩ := rest_tracks hl
  obtain ⟨q, tracksRight, owesRight, readRight⟩ := rest_tracks hr
  have start : Spent (owed left p + owed right q) (work left p + work right q) (left, right) [] :=
    ⟨p, q, tracksLeft, tracksRight, by simp, by simp⟩
  obtain ⟨p', q', tracksLeft', tracksRight', owes, works⟩ :=
    Machine.run_kept (pair_spends _ _) start h
  have length := Machine.run_length h
  refine ⟨?_, ?_, ?_⟩
  · simp only [List.nil_append] at owes
    omega
  · simp only [List.nil_append, work] at works
    omega
  · rcases board_continues tracksLeft' final.2 with drained | ⟨task, turn⟩
    · rcases board_continues tracksRight' final.1 with drained' | ⟨task, turn⟩
      · exact .inl ⟨drained, drained'⟩
      · refine .inr ⟨.right task, ?_⟩
        simpa [pairStep] using turn
    · exact .inr ⟨.left task, turn⟩

def quietBoard : Board :=
  ⟨[], blankParser, blankMessage, 0, [], cboxInit true, [], Vector.replicate 64 0⟩

theorem quiet_rest (line : List UInt8) : AtRest { quietBoard with uartRxQueue := line } :=
  ⟨⟨blankParser, blankMessage, [], blankMessage, [], rfl⟩, rfl, rfl, rfl⟩

/-- Two broken frames on the left line; both replies are read on the right. -/
def strayBytes : List PairAction :=
  List.replicate 3 (.left .rxParser) ++ List.replicate 2 (.left .uartTx) ++
    List.replicate 36 (.right .rxParser) ++ List.replicate 2 (.right (.app 7))

theorem no_reply_storm_stray :
    ∃ final frames, Machine.run pairStep
        ({ quietBoard with uartRxQueue := [0x40, 0x40, 0x0A] }, quietBoard) strayBytes =
          some (final, frames) ∧ frames.countP Option.isSome ≤ 2 := by
  have goes : (Machine.run pairStep
      ({ quietBoard with uartRxQueue := [0x40, 0x40, 0x0A] }, quietBoard) strayBytes).isSome = true := by
    decide +kernel
  obtain ⟨⟨final, frames⟩, h⟩ := Option.isSome_iff_exists.mp goes
  exact ⟨final, frames, h, (no_reply_storm (quiet_rest _) (quiet_rest []) strayBytes h).1⟩

end CommandBox
