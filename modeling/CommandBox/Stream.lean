import CommandBox.Refinement

/-! Streams of bytes. A call delivers exactly when the bytes up to it end in a
well-formed frame, and every start character is answered once. -/
namespace CommandBox
open Memory Progress

namespace Progress

theorem next_start (p : Progress) :
    next p protocolStartChar = (.lenHi, if p = .waitStart then .inProgress else .error) := by
  by_cases inside : p = .waitStart
  · subst inside
    rfl
  · rw [if_neg inside]
    rcases next_cases p protocolStartChar inside with hn | ⟨_, _, hb⟩ | ⟨_, _, _, hb, _⟩
    · rw [hn]
      rfl
    · exact absurd rfl hb
    · exact absurd hb (by decide)

theorem reads_trace {p : Progress} {before : List UInt8} (read : Reads p before)
    (stream : List UInt8) : Reads (Machine.trace next p stream).1 (before ++ stream) := by
  induction stream generalizing p before with
  | nil => simpa using read
  | cons b rest ih =>
    have step := ih (reads_next p before b read)
    simpa using step

theorem valid_trace {p : Progress} (valid : Valid p) (stream : List UInt8) :
    Valid (Machine.trace next p stream).1 :=
  Machine.trace_invariant next Valid (fun p b => valid_next p b) valid stream

/-- A frame is read to its end from every state; only its start may be answered by an error. -/
theorem trace_frame (p : Progress) (m : WireMessage) (crs : Nat) :
    Machine.trace next p (m.frameWith crs) =
      (.waitStart, (if p = .waitStart then .inProgress else .error) ::
        (List.replicate (m.body.length + 6 + crs) .inProgress ++ [.ready m.type m.payload])) := by
  simp only [WireMessage.frameWith, Machine.trace_cons, next_start, trace_tail]

theorem ready_iff_frame (stream : List UInt8) (b : UInt8) (type : ProtocolType)
    (payload : List UInt8) :
    (next (Machine.trace next .waitStart stream).1 b).2 = .ready type payload ↔
      ∃ (m : WireMessage) (crs : Nat), m.type = type ∧ m.payload = payload ∧
        m.frameWith crs <:+ stream ++ [b] := by
  constructor
  · intro h
    have read : Reads (Machine.trace next .waitStart stream).1 ([] ++ stream) :=
      reads_trace (.inl rfl) stream
    have valid : Valid (Machine.trace next .waitStart stream).1 :=
      valid_trace (p := .waitStart) True.intro stream
    obtain ⟨m, crs, before, ht, hp, hs⟩ := ready_frame valid read h
    exact ⟨m, crs, ht, hp, before, hs.symm⟩
  · rintro ⟨m, crs, rfl, rfl, before, hs⟩
    have outputs := congrArg (fun s => (Machine.trace next .waitStart s).2.getLast?) hs
    simp only [Machine.trace_append, trace_frame] at outputs
    simpa [List.getLast?_cons] using outputs.symm

end Progress

theorem ready_iff_wellFormed (stream : List UInt8) (b : UInt8) (type : ProtocolType)
    (payload : List UInt8) :
    (next (Machine.trace next .waitStart stream).1 b).2 = .ready type payload ↔
      ∃ frame, frame <:+ stream ++ [b] ∧ WellFormedFrame frame type payload := by
  rw [ready_iff_frame]
  constructor
  · rintro ⟨m, crs, ht, hp, hs⟩
    exact ⟨_, hs, (wellFormed_iff _ _ _).mpr ⟨m, crs, ht, hp, rfl⟩⟩
  · rintro ⟨frame, hs, form⟩
    obtain ⟨m, crs, ht, hp, rfl⟩ := (wellFormed_iff _ _ _).mp form
    exact ⟨m, crs, ht, hp, hs⟩

theorem feed_outputs {parser : Parser} {message : ProtocolMessage} {p : Progress}
    (tracks : Tracks (parser, message) p) (stream : List UInt8) :
    ∃ final replies, feed parser message stream = some (final, replies) ∧
      Tracks final (Machine.trace next p stream).1 ∧ replies.length = stream.length ∧
      ∀ n (h : n < replies.length) (h' : n < stream.length),
        Answers replies[n] (next (Machine.trace next p (stream.take n)).1 stream[n]).2 :=
  Machine.run_outputs consume_matches tracks stream

theorem answers_ready {reply : Reply} {o : Outcome} (h : Answers reply o) :
    reply.result = .messageReady ↔ ∃ type payload, o = .ready type payload := by
  cases o with
  | inProgress | error =>
    have result : reply.result = _ := h
    simp [result]
  | ready type payload => simp [h.1]

/-- A call delivers if and only if the bytes up to it end in a well-formed frame, and
then it delivers the message of that frame. -/
theorem parser_delivers_exactly (raw : Parser) (message : ProtocolMessage) (stream : List UInt8) :
    ∃ final replies, feed (parserInit raw) message stream = some (final, replies) ∧
      replies.length = stream.length ∧
      ∀ n (h : n < replies.length),
        (replies[n].result = .messageReady ↔
          ∃ frame type payload, frame <:+ stream.take (n + 1) ∧
            WellFormedFrame frame type payload) ∧
        ∀ frame type payload, frame <:+ stream.take (n + 1) →
          WellFormedFrame frame type payload → Delivered replies[n].message type payload := by
  obtain ⟨final, replies, hfeed, _, size, each⟩ := feed_outputs (init_tracks raw message) stream
  refine ⟨final, replies, hfeed, size, ?_⟩
  intro n h
  have inside : n < stream.length := size ▸ h
  have answer := each n h inside
  have law := ready_iff_wellFormed (stream.take n) stream[n]
  rw [← List.take_append_getElem inside]
  constructor
  · rw [answers_ready answer]
    constructor
    · rintro ⟨type, payload, ho⟩
      obtain ⟨frame, hs, form⟩ := (law type payload).mp ho
      exact ⟨frame, type, payload, hs, form⟩
    · rintro ⟨frame, type, payload, hs, form⟩
      exact ⟨type, payload, (law type payload).mpr ⟨frame, hs, form⟩⟩
  · intro frame type payload hs form
    have ho := (law type payload).mpr ⟨frame, hs, form⟩
    rw [ho] at answer
    exact answer.2

/- Conservation. -/

def countResult (replies : List Reply) (result : ParserResult) : Nat :=
  replies.countP fun reply => reply.result = result

theorem finished_counts {replies : List Reply} {outcomes : List Outcome}
    (answered : List.Forall₂ Answers replies outcomes) :
    (outcomes.map Outcome.finished).sum =
      countResult replies .messageReady + countResult replies .error := by
  induction answered with
  | nil => rfl
  | @cons reply o replies outcomes answer _ ih =>
    simp only [countResult] at ih
    cases o with
    | inProgress =>
      have result : reply.result = .inProgress := answer
      simp [countResult, Outcome.finished, result, ih]
    | ready type payload =>
      simp [countResult, Outcome.finished, answer.1, ih]
      omega
    | error =>
      have result : reply.result = .error := answer
      simp [countResult, Outcome.finished, result, ih]
      omega

/-- Every start character is answered by one delivery or one error, or is still open;
nothing else is answered. -/
theorem parser_conserves_attempts (raw : Parser) (message : ProtocolMessage)
    (stream : List UInt8) :
    ∃ final replies, feed (parserInit raw) message stream = some (final, replies) ∧
      stream.count protocolStartChar =
        countResult replies .messageReady + countResult replies .error +
          (if final.1.state = .waitStart then 0 else 1) ∧
      (protocolStartChar ∉ stream → ∀ reply ∈ replies, reply.result ≠ .error) := by
  obtain ⟨final, replies, hfeed, tracks, answered⟩ := feed_trace (init_tracks raw message) stream
  have conserved := trace_conserves .waitStart stream
  rw [finished_counts answered] at conserved
  have last := waitStart_iff tracks
  simp only [attempts, if_true, Nat.zero_add] at conserved
  have counted : stream.count protocolStartChar =
      countResult replies .messageReady + countResult replies .error +
        (if final.1.state = .waitStart then 0 else 1) := by
    simp only [last]
    omega
  refine ⟨final, replies, hfeed, counted, ?_⟩
  intro none reply hr
  have zero : countResult replies .error = 0 := by
    rw [List.count_eq_zero.mpr none] at counted
    omega
  simpa using List.countP_eq_zero.mp zero reply hr

end CommandBox
