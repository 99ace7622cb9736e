import CommandBox.Stream

/-! Encoder against parser. Frames written for valid messages are read back from every
reachable state, and what the parser delivers is encoded to the bytes it came from. -/
namespace CommandBox
open Memory Progress

/-- What `protocol_encode_frame` is asked to send. -/
def ValidMessage (message : ProtocolMessage) : Prop :=
  protocolTypeIsValid message.type = true ∧ message.payloadLength.toNat ≤ protocolMaxPayloadLength ∧
    ∀ b ∈ message.payload.toList.take message.payloadLength.toNat, IsTextByte b

instance (message : ProtocolMessage) : Decidable (ValidMessage message) :=
  inferInstanceAs (Decidable (_ ∧ _ ∧ _))

/-- The bytes of the buffer that the caller sends. -/
def EncodeResult.written {size : Nat} (r : EncodeResult size) : List UInt8 :=
  r.frame.toList.take r.frameLength

/-- The frames of a list of messages, each with the buffer it is written to. -/
def encodeEach : List (ProtocolMessage × Vector UInt8 protocolMaxFrameSize) →
    Option (List (List UInt8))
  | [] => some []
  | (message, buffer) :: jobs => do
    let r ← protocolEncodeFrame message buffer
    if !r.success then none
    else
      let frames ← encodeEach jobs
      some (r.written :: frames)

/-- `MESSAGE_READY` at the last byte of each frame and nowhere else, `ERROR` at most at
the first byte of all, when the parser was inside a frame. -/
def streamResults (state : ParserState) : List (List UInt8) → List ParserResult
  | [] => []
  | frame :: frames =>
    (if state = .waitStart then .inProgress else .error) ::
      (List.replicate (frame.length - 2) .inProgress ++
        .messageReady :: streamResults .waitStart frames)

def deliveries (replies : List Reply) : List ProtocolMessage :=
  (replies.filter fun reply => reply.result = .messageReady).map Reply.message

/-- Same type, length and payload bytes, and a terminator behind the payload. -/
def SameMessage (received sent : ProtocolMessage) : Prop :=
  received.type = sent.type ∧ received.payloadLength = sent.payloadLength ∧
    received.payload.toList.take received.payloadLength.toNat =
      sent.payload.toList.take sent.payloadLength.toNat ∧
    received.payload[received.payloadLength.toNat]? = some 0

theorem valid_wire {message : ProtocolMessage} (h : ValidMessage message) :
    ∃ m : WireMessage, Carries message m := by
  obtain ⟨known, short, clean⟩ := h
  have fits : message.payloadLength.toNat ≤ message.payload.toList.length := by
    simp only [Vector.length_toList]
    exact Nat.le_succ_of_le short
  have size : (message.payload.toList.take message.payloadLength.toNat).length =
      message.payloadLength.toNat := List.length_take_of_le fits
  refine ⟨⟨message.type, message.payload.toList.take message.payloadLength.toNat, known, ?_, clean⟩,
    rfl, size.symm, List.take_prefix _ _⟩
  rw [size]
  exact short

theorem carries_take {message : ProtocolMessage} {m : WireMessage} (h : Carries message m) :
    message.payload.toList.take message.payloadLength.toNat = m.payload := by
  rw [h.2.1]
  exact (List.prefix_iff_eq_take.mp h.2.2).symm

theorem frame_length (m : WireMessage) (crs : Nat) :
    (m.frameWith crs).length = m.body.length + 8 + crs := by
  simp only [WireMessage.frameWith, List.length_cons, m.tail_length]
  omega

theorem frame_fits (m : WireMessage) : m.frame.length < protocolMaxFrameSize := by
  have high := m.body_bounds.2
  rw [WireMessage.frame, frame_length]
  change m.body.length + 8 + 0 < 64
  omega

theorem encode_written {message : ProtocolMessage} {m : WireMessage} (holds : Carries message m)
    (buffer : Vector UInt8 protocolMaxFrameSize) :
    ∃ r, protocolEncodeFrame message buffer = some r ∧ r.success = true ∧ r.written = m.frame := by
  obtain ⟨frame, he, hw⟩ := encode_frame holds buffer (Nat.le_of_lt (frame_fits m))
  refine ⟨_, he, rfl, ?_⟩
  have starts := written_starts hw
  exact (List.prefix_iff_eq_take.mp ((List.prefix_append _ _).trans starts)).symm

theorem encode_each {jobs : List (ProtocolMessage × Vector UInt8 protocolMaxFrameSize)}
    {ms : List WireMessage} (carried : List.Forall₂ (fun job m => Carries job.1 m) jobs ms) :
    encodeEach jobs = some (ms.map WireMessage.frame) := by
  induction carried with
  | nil => rfl
  | @cons job m jobs ms holds _ ih =>
    obtain ⟨r, he, ok, hw⟩ := encode_written holds job.2
    unfold encodeEach
    apply then_some he
    rw [if_neg (by simp [ok]), hw]
    exact then_some ih rfl

def streamOutcomes (p : Progress) : List WireMessage → List Outcome
  | [] => []
  | m :: ms =>
    (if p = .waitStart then .inProgress else .error) ::
      (List.replicate (m.body.length + 6) .inProgress ++
        .ready m.type m.payload :: streamOutcomes .waitStart ms)

theorem trace_frames (p : Progress) (ms : List WireMessage) :
    (Machine.trace next p (ms.map WireMessage.frame).flatten).2 = streamOutcomes p ms := by
  induction ms generalizing p with
  | nil => rfl
  | cons m ms ih =>
    simp [WireMessage.frame, Machine.trace_append, trace_frame, streamOutcomes, ih]

def Outcome.result : Outcome → ParserResult
  | .inProgress => .inProgress
  | .ready _ _ => .messageReady
  | .error => .error

theorem answers_result {reply : Reply} {o : Outcome} (h : Answers reply o) :
    reply.result = o.result := by
  cases o with
  | inProgress | error => exact h
  | ready type payload => exact h.1

theorem answered_results {replies : List Reply} {outcomes : List Outcome}
    (answered : List.Forall₂ Answers replies outcomes) :
    replies.map Reply.result = outcomes.map Outcome.result := by
  induction answered with
  | nil => rfl
  | cons answer _ ih => rw [List.map_cons, List.map_cons, answers_result answer, ih]

theorem outcomes_results {parser : Parser} {message : ProtocolMessage} {p : Progress}
    (tracks : Tracks (parser, message) p) (ms : List WireMessage) :
    (streamOutcomes p ms).map Outcome.result =
      streamResults parser.state (ms.map WireMessage.frame) := by
  have later (ms : List WireMessage) : (streamOutcomes .waitStart ms).map Outcome.result =
      streamResults .waitStart (ms.map WireMessage.frame) := by
    induction ms with
    | nil => rfl
    | cons m ms ih =>
      simp [streamOutcomes, streamResults, Outcome.result, WireMessage.frame, frame_length, ih]
  cases ms with
  | nil => rfl
  | cons m ms =>
    have state : parser.state = .waitStart ↔ p = .waitStart := waitStart_iff tracks
    by_cases started : p = .waitStart
    · simp [streamOutcomes, streamResults, Outcome.result, WireMessage.frame, frame_length, later ms,
        state, started]
    · simp [streamOutcomes, streamResults, Outcome.result, WireMessage.frame, frame_length, later ms,
        state, started]

def Outcome.delivered : Outcome → Option (ProtocolType × List UInt8)
  | .ready type payload => some (type, payload)
  | _ => none

theorem deliveries_answered {replies : List Reply} {outcomes : List Outcome}
    (answered : List.Forall₂ Answers replies outcomes) :
    List.Forall₂ (fun message d => Delivered message d.1 d.2) (deliveries replies)
      (outcomes.filterMap Outcome.delivered) := by
  induction answered with
  | nil => exact .nil
  | @cons reply o replies outcomes answer _ ih =>
    have result := answers_result answer
    cases o with
    | inProgress | error =>
      have skip : deliveries (reply :: replies) = deliveries replies := by
        simp [deliveries, result, Outcome.result]
      rw [skip, List.filterMap_cons_none rfl]
      exact ih
    | ready type payload =>
      have kept : deliveries (reply :: replies) = reply.message :: deliveries replies := by
        simp [deliveries, result, Outcome.result]
      have sent : Outcome.delivered (.ready type payload) = some (type, payload) := rfl
      rw [kept, List.filterMap_cons_some sent]
      exact .cons answer.2 ih

theorem mem_deliveries {replies : List Reply} {outcomes : List Outcome}
    (answered : List.Forall₂ Answers replies outcomes) {message : ProtocolMessage}
    (h : message ∈ deliveries replies) :
    ∃ d ∈ outcomes.filterMap Outcome.delivered, Delivered message d.1 d.2 := by
  have given := deliveries_answered answered
  obtain ⟨n, hn, rfl⟩ := List.getElem_of_mem h
  have hn' := given.length_eq ▸ hn
  exact ⟨_, List.getElem_mem hn', given.get hn hn'⟩

theorem delivered_outcomes (p : Progress) (ms : List WireMessage) :
    (streamOutcomes p ms).filterMap Outcome.delivered = ms.map fun m => (m.type, m.payload) := by
  induction ms generalizing p with
  | nil => rfl
  | cons m ms ih =>
    have opening : Outcome.delivered (if p = .waitStart then .inProgress else .error) = none := by
      split <;> rfl
    have kept : Outcome.delivered (.ready m.type m.payload) = some (m.type, m.payload) := rfl
    have inside : Outcome.delivered .inProgress = none := rfl
    rw [streamOutcomes, List.filterMap_cons_none opening, List.filterMap_append,
      List.filterMap_replicate_of_none inside, List.nil_append, List.filterMap_cons_some kept, ih,
      List.map_cons]

theorem delivered_same {received sent : ProtocolMessage} {m : WireMessage}
    (given : Delivered received m.type m.payload) (carried : Carries sent m) :
    SameMessage received sent := by
  have lengths : received.payloadLength = sent.payloadLength :=
    UInt8.toNat_inj.mp (given.2.1.trans carried.2.1.symm)
  refine ⟨given.1.trans carried.1.symm, lengths, ?_, ?_⟩
  · rw [carries_take (delivered_carries given), carries_take carried]
  · have bound : received.payloadLength.toNat < protocolMaxPayloadLength + 1 := by
      rw [given.2.1]
      exact Nat.lt_succ_of_le m.short
    rw [Vector.getElem?_eq_getElem bound, Option.some.injEq,
      cell_of_starts given.2.2 _ (by simp [given.2.1]) bound]
    simp [given.2.1]

theorem received_sent {received : List ProtocolMessage} {ms : List WireMessage}
    {jobs : List (ProtocolMessage × Vector UInt8 protocolMaxFrameSize)}
    (given : List.Forall₂ (fun message m => Delivered message m.type m.payload) received ms)
    (carried : List.Forall₂ (fun job m => Carries job.1 m) jobs ms) :
    List.Forall₂ SameMessage received (jobs.map Prod.fst) := by
  induction carried generalizing received with
  | nil =>
    cases given
    exact .nil
  | cons holds _ ih =>
    cases given with
    | cons head tail => exact .cons (delivered_same head holds) (ih tail)

theorem jobs_wire {jobs : List (ProtocolMessage × Vector UInt8 protocolMaxFrameSize)}
    (valid : ∀ job ∈ jobs, ValidMessage job.1) :
    ∃ ms, List.Forall₂ (fun job m => Carries job.1 m) jobs ms := by
  induction jobs with
  | nil => exact ⟨[], .nil⟩
  | cons job jobs ih =>
    obtain ⟨m, holds⟩ := valid_wire (valid job List.mem_cons_self)
    obtain ⟨ms, carried⟩ := ih fun other hm => valid other (List.mem_cons_of_mem _ hm)
    exact ⟨m :: ms, .cons holds carried⟩

/-- From any reachable state the parser reads a list of encoded messages back, in order. -/
theorem decode_undoes_encode (raw : Parser) (first : ProtocolMessage) (before : List UInt8)
    {parser : Parser} {last : ProtocolMessage} {past : List Reply}
    (reached : feed (parserInit raw) first before = some ((parser, last), past))
    (message : ProtocolMessage) (jobs : List (ProtocolMessage × Vector UInt8 protocolMaxFrameSize))
    (valid : ∀ job ∈ jobs, ValidMessage job.1) :
    ∃ frames final replies, encodeEach jobs = some frames ∧
      feed parser message frames.flatten = some (final, replies) ∧
      replies.map Reply.result = streamResults parser.state frames ∧
      List.Forall₂ SameMessage (deliveries replies) (jobs.map Prod.fst) := by
  obtain ⟨_, _, hbefore, tracks, _⟩ := feed_trace (init_tracks raw first) before
  rw [reached] at hbefore
  obtain ⟨rfl, rfl⟩ := Prod.mk.inj (Option.some.inj hbefore)
  have inside : Tracks (parser, message) (Machine.trace next .waitStart before).1 := tracks
  obtain ⟨ms, carried⟩ := jobs_wire valid
  obtain ⟨final, replies, hfeed, _, answered⟩ :=
    feed_trace inside (ms.map WireMessage.frame).flatten
  rw [trace_frames] at answered
  refine ⟨_, final, replies, encode_each carried, hfeed, ?_, ?_⟩
  · rw [← outcomes_results inside ms]
    exact answered_results answered
  · have received := deliveries_answered answered
    rw [delivered_outcomes, List.forall₂_map_right_iff] at received
    exact received_sent received carried

def ackOk : ProtocolMessage :=
  ⟨.ack, (blankMessage.payload.set 0 0x6F).set 1 0x6B, 2⟩

/-- Two frames after a start character and one digit of a lost frame. -/
theorem decode_undoes_encode_resync :
    ∃ frames final replies,
      encodeEach [(ackOk, Vector.replicate 64 0), (ackOk, Vector.replicate 64 7)] = some frames ∧
      feed { blankParser with state := .readLenLo, lengthField := #v[0x30, 0, 0] } blankMessage
        frames.flatten = some (final, replies) ∧
      replies.map Reply.result = streamResults .readLenLo frames ∧
      List.Forall₂ SameMessage (deliveries replies) [ackOk, ackOk] :=
  decode_undoes_encode blankParser blankMessage [0x40, 0x30] rfl blankMessage
    [(ackOk, Vector.replicate 64 0), (ackOk, Vector.replicate 64 7)] (by decide +kernel)

/-- A delivered message is encoded to the bytes received since the last start character,
without the carriage returns before the line feed. -/
theorem encode_undoes_decode (raw : Parser) (message : ProtocolMessage) (stream : List UInt8) :
    ∃ final replies, feed (parserInit raw) message stream = some (final, replies) ∧
      ∀ n (h : n < replies.length), replies[n].result = .messageReady →
        ∃ before core crs,
          stream.take (n + 1) = before ++ protocolStartChar ::
            (core ++ (List.replicate crs carriageReturn ++ [protocolEndChar])) ∧
          protocolStartChar ∉ core ∧ carriageReturn ∉ core ∧
          ∀ buffer : Vector UInt8 protocolMaxFrameSize,
            ∃ r, protocolEncodeFrame replies[n].message buffer = some r ∧ r.success = true ∧
              r.written = protocolStartChar :: (core ++ [protocolEndChar]) := by
  obtain ⟨final, replies, hfeed, _, size, each⟩ := feed_outputs (init_tracks raw message) stream
  refine ⟨final, replies, hfeed, ?_⟩
  intro n h hr
  have inside : n < stream.length := size ▸ h
  have answer := each n h inside
  obtain ⟨type, payload, ho⟩ := (answers_ready answer).mp hr
  obtain ⟨m, crs, rfl, rfl, before, hs⟩ := (ready_iff_frame _ _ _ _).mp ho
  rw [ho] at answer
  have clean := m.core_clean
  refine ⟨before, m.core, crs, ?_, ?_, ?_, ?_⟩
  · rw [← List.take_append_getElem inside, ← hs]
    rfl
  · intro hm
    exact (clean _ hm).2.2 rfl
  · intro hm
    exact absurd (clean _ hm).1 (by decide)
  · intro buffer
    obtain ⟨r, he, ok, hw⟩ := encode_written (delivered_carries answer.2) buffer
    refine ⟨r, he, ok, ?_⟩
    rw [hw]
    rfl

end CommandBox
