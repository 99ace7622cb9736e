import CommandBox.RoundTrip
import CommandBox.BoxEffect

/-! The promises of protocol.c to its callers: what an encoder call writes, and that a
message object is either filled with a well-formed message or left alone. -/
namespace CommandBox
open Memory Progress

/-- The bytes of the payload that the length field counts. -/
def ProtocolMessage.text (message : ProtocolMessage) : List UInt8 :=
  message.payload.toList.take message.payloadLength.toNat

/-- The text `TTT:PAYLOAD` of a type and a payload. -/
def bodyText (type : ProtocolType) (payload : List UInt8) : List UInt8 :=
  protocolTypeToText type ++ protocolSeparatorChar :: payload

/-- The text `@LL:TTT:PAYLOAD:CC` and a line feed. -/
def frameText (type : ProtocolType) (payload : List UInt8) : List UInt8 :=
  let checked := Hex.text (payload.length + 4) ++ protocolSeparatorChar :: bodyText type payload
  protocolStartChar :: (checked ++ protocolSeparatorChar ::
    (Hex.text (Xor.sum checked).toNat ++ [protocolEndChar]))

theorem frame_spelled (m : WireMessage) : m.frame = frameText m.type m.payload := by
  have body : m.body = bodyText m.type m.payload := rfl
  have size := m.body_length
  rw [body] at size
  simp [WireMessage.frame, WireMessage.frameWith, WireMessage.tailWith, WireMessage.core,
    WireMessage.check, checkedText, frameText, size, body]

theorem frameText_length (type : ProtocolType) (payload : List UInt8) :
    (frameText type payload).length = payload.length + 12 := by
  simp [frameText, bodyText, type_text_length]
  omega

theorem text_length {message : ProtocolMessage} (short : message.payloadLength.toNat ≤ 48) :
    message.text.length = message.payloadLength.toNat := by
  rw [ProtocolMessage.text, List.length_take, Vector.length_toList]
  exact Nat.min_eq_left (Nat.le_succ_of_le short)

theorem encode_invalid {size : Nat} {message : ProtocolMessage} (frame : Vector UInt8 size)
    (invalid : ¬ ValidMessage message) :
    protocolEncodeFrame message frame = some ⟨false, frame, 0⟩ := by
  unfold protocolEncodeFrame
  by_cases known : protocolTypeIsValid message.type = true
  · rw [if_neg (by simp [known])]
    by_cases long : message.payloadLength.toNat > protocolMaxPayloadLength
    · exact if_pos long
    · rw [if_neg long]
      have short : message.payloadLength.toNat ≤ 48 := Nat.not_lt.mp long
      have dirty : ¬ ∀ b ∈ message.text, IsTextByte b := fun clean => invalid ⟨known, short, clean⟩
      have scanned := payloadScan_eq message.text (message.payload.toList.drop message.payloadLength.toNat)
      rw [ProtocolMessage.text, List.take_append_drop, ← ProtocolMessage.text, text_length short,
        decide_eq_false dirty] at scanned
      exact then_some scanned rfl
  · exact if_pos (by simp [known])

theorem encode_short {size : Nat} {message : ProtocolMessage} {m : WireMessage}
    (holds : Carries message m) (frame : Vector UInt8 size) (room : size < m.frame.length) :
    protocolEncodeFrame message frame = some ⟨false, frame, 0⟩ := by
  obtain ⟨ht, hl, rest, hp⟩ := holds
  have short : m.payload.length ≤ 48 := m.short
  have total : m.frame.length = m.payload.length + 12 := by
    rw [frame_spelled, frameText_length]
  have known : ¬ (!protocolTypeIsValid message.type) = true := by simp [ht, m.known]
  have fits : ¬ message.payloadLength.toNat > protocolMaxPayloadLength := by
    rw [hl]
    exact Nat.not_lt.mpr m.short
  have clean : payloadIsValid message.payload.toList message.payloadLength = some true := by
    rw [payloadIsValid, hl, ← hp, payloadScan_eq, decide_eq_true m.clean]
  have outside : (UInt8.ofNat (protocolTypeLength + 1 + message.payloadLength.toNat)).toNat >
      protocolMaxBodySize ∨
      size < (UInt8.ofNat (protocolTypeLength + 1 + message.payloadLength.toNat)).toNat + 8 := by
    right
    change size < (3 + 1 + message.payloadLength.toNat) % 256 + 8
    omega
  unfold protocolEncodeFrame
  rw [if_neg known, if_neg fits]
  apply then_some clean
  rw [if_neg (by decide)]
  exact if_pos outside

theorem written_cell {n : Nat} {before after : Vector UInt8 n} {w : List UInt8}
    (h : Written before after w) (i : Nat) :
    after[i]? = if i < w.length then w[i]? else before[i]? := by
  rw [← Vector.getElem?_toList, h]
  split
  · rename_i inside
    exact List.getElem?_append_left inside
  · rename_i outside
    rw [List.getElem?_append_right (Nat.not_lt.mp outside), List.getElem?_drop,
      Nat.add_sub_cancel' (Nat.not_lt.mp outside), Vector.getElem?_toList]

/-- The cells of a frame that fits: the frame, one terminator if there is room, the rest as before. -/
theorem encode_cells {size : Nat} {message : ProtocolMessage} {m : WireMessage}
    (holds : Carries message m) (frame : Vector UInt8 size) (room : m.frame.length ≤ size) :
    ∃ frame', protocolEncodeFrame message frame = some ⟨true, frame', m.frame.length⟩ ∧
      ∀ i < size, frame'[i]? =
        if i < m.frame.length then m.frame[i]?
        else if i = m.frame.length then some 0
        else frame[i]? := by
  obtain ⟨frame', encoded, written⟩ := encode_frame holds frame room
  refine ⟨frame', encoded, ?_⟩
  intro i inside
  rw [written_cell written]
  by_cases early : i < m.frame.length
  · rw [if_pos early, if_pos (by simp; omega), List.getElem?_append_left early]
  · rw [if_neg early]
    by_cases last : i = m.frame.length
    · subst last
      simp [inside]
    · rw [if_neg last, if_neg (by split <;> simp <;> omega)]

theorem validMessage_iff (message : ProtocolMessage) :
    ValidMessage message ↔ message.type ∈ [.cmd, .dat, .evt, .sts, .ack, .err] ∧
      message.payloadLength.toNat ≤ 48 ∧
      ∀ b ∈ message.text, 0x20 ≤ b ∧ b ≤ 0x7E ∧ b ≠ protocolStartChar := by
  rw [ValidMessage, type_known_iff]
  rfl

/-- The encoder succeeds exactly on valid messages that fit into the buffer, writes the
frame and, where a cell is left, one terminator, and otherwise writes nothing. -/
theorem encode_writes_frame_only {size : Nat} (message : ProtocolMessage)
    (frame : Vector UInt8 size) :
    ∃ r, protocolEncodeFrame message frame = some r ∧
      (r.success = true ↔ message.type ∈ [.cmd, .dat, .evt, .sts, .ack, .err] ∧
        message.payloadLength.toNat ≤ 48 ∧
        (∀ b ∈ message.text, 0x20 ≤ b ∧ b ≤ 0x7E ∧ b ≠ protocolStartChar) ∧
        message.payloadLength.toNat + 12 ≤ size) ∧
      (r.success = true → r.frameLength = message.payloadLength.toNat + 12 ∧
        (frameText message.type message.text).length = r.frameLength ∧
        ∀ i < size, r.frame[i]? =
          if i < r.frameLength then (frameText message.type message.text)[i]?
          else if i = r.frameLength then some 0
          else frame[i]?) ∧
      (r.success = false → r.frameLength = 0 ∧ r.frame = frame) := by
  by_cases valid : ValidMessage message
  · obtain ⟨m, holds⟩ := valid_wire valid
    have rules := (validMessage_iff message).mp valid
    have payload : message.text = m.payload := carries_take holds
    have total : m.frame.length = message.payloadLength.toNat + 12 := by
      rw [frame_spelled, frameText_length, holds.2.1]
    by_cases room : m.frame.length ≤ size
    · obtain ⟨frame', encoded, cells⟩ := encode_cells holds frame room
      refine ⟨_, encoded, ?_, ?_, ?_⟩
      · simp only [true_iff]
        exact ⟨rules.1, rules.2.1, rules.2.2, total ▸ room⟩
      · intro _
        rw [payload, holds.1, ← frame_spelled]
        exact ⟨total, rfl, cells⟩
      · intro failed
        contradiction
    · refine ⟨_, encode_short holds frame (Nat.not_le.mp room), ?_, ?_, fun _ => ⟨rfl, rfl⟩⟩
      · constructor
        · intro success
          contradiction
        · rintro ⟨_, _, _, fits⟩
          exact absurd (total ▸ fits) room
      · intro success
        contradiction
  · refine ⟨_, encode_invalid frame valid, ?_, ?_, fun _ => ⟨rfl, rfl⟩⟩
    · constructor
      · intro success
        contradiction
      · rintro ⟨known, short, clean, _⟩
        exact absurd ((validMessage_iff message).mpr ⟨known, short, clean⟩) valid
    · intro success
      contradiction

/- What is behind the pointer after a call. -/

structure WellFormed (message : ProtocolMessage) : Prop where
  known : message.type ∈ [.cmd, .dat, .evt, .sts, .ack, .err]
  short : message.payloadLength.toNat ≤ 48
  clean : ∀ b ∈ message.text, 0x20 ≤ b ∧ b ≤ 0x7E ∧ b ≠ protocolStartChar
  terminated : message.payload[message.payloadLength.toNat]? = some 0

/-- A well-formed message with this type and this payload. -/
def FilledWith (message : ProtocolMessage) (type : ProtocolType) (payload : List UInt8) : Prop :=
  WellFormed message ∧ message.type = type ∧ message.text = payload

theorem delivered_filled {message : ProtocolMessage} {m : WireMessage}
    (given : Delivered message m.type m.payload) : FilledWith message m.type m.payload := by
  have carried := delivered_carries given
  have same := delivered_same given carried
  have payload : message.text = m.payload := carries_take carried
  refine ⟨⟨?_, ?_, ?_, same.2.2.2⟩, given.1, payload⟩
  · rw [given.1]
    exact (type_known_iff m.type).mp m.known
  · rw [given.2.1]
    exact m.short
  · rw [payload]
    exact m.clean

theorem wellFormed_cells {message : ProtocolMessage} (h : WellFormed message) :
    message.text ++ [0] <+: message.payload.toList := by
  have cell := h.terminated
  rw [← Vector.getElem?_toList] at cell
  obtain ⟨bound, zero⟩ := List.getElem?_eq_some_iff.mp cell
  refine ⟨message.payload.toList.drop (message.payloadLength.toNat + 1), ?_⟩
  rw [List.append_assoc, List.singleton_append, ← zero, ← List.drop_eq_getElem_cons bound,
    ProtocolMessage.text, List.take_append_drop]

/-- The payload of a well-formed message is a C string of its length. -/
theorem wellFormed_strlen {message : ProtocolMessage} (h : WellFormed message) :
    strlen message.payload.toList = some message.payloadLength.toNat := by
  obtain ⟨rest, cells⟩ := wellFormed_cells h
  have clean : ∀ b ∈ message.text, IsTextByte b := h.clean
  rw [← cells, List.append_assoc, List.singleton_append,
    strlen_terminated (text_no_terminator clean), text_length h.short]

theorem message_set_refused (message : ProtocolMessage) (type : ProtocolType) (text rest : List UInt8)
    (clean : 0 ∉ text)
    (invalid : ¬ (protocolTypeIsValid type = true ∧ text.length ≤ 48 ∧ ∀ b ∈ text, IsTextByte b)) :
    protocolMessageSet message type (text ++ 0 :: rest) = some (message, false) := by
  unfold protocolMessageSet
  by_cases known : protocolTypeIsValid type = true
  · rw [if_neg (by simp [known])]
    apply then_some (strlen_terminated clean)
    by_cases long : text.length > protocolMaxPayloadLength
    · exact if_pos long
    · rw [if_neg long]
      have short : text.length ≤ 48 := Nat.not_lt.mp long
      have length : (UInt8.ofNat text.length).toNat = text.length := by
        rw [UInt8.toNat_ofNat']
        exact Nat.mod_eq_of_lt (by omega)
      have scanned := payloadScan_eq text (0 :: rest)
      rw [decide_eq_false fun printable => invalid ⟨known, short, printable⟩, ← length] at scanned
      exact then_some scanned rfl
  · exact if_pos (by simp [known])

theorem message_set_outcome (message : ProtocolMessage) (type : ProtocolType)
    (text rest : List UInt8) (clean : 0 ∉ text) :
    ∃ message' flag, protocolMessageSet message type (text ++ 0 :: rest) = some (message', flag) ∧
      if flag = true then FilledWith message' type text else message' = message := by
  by_cases valid : protocolTypeIsValid type = true ∧ text.length ≤ 48 ∧ ∀ b ∈ text, IsTextByte b
  · obtain ⟨known, short, printable⟩ := valid
    let m : WireMessage := ⟨type, text, known, short, printable⟩
    obtain ⟨message', taken, given⟩ := message_set_string message m rest
    exact ⟨message', true, taken, delivered_filled given⟩
  · exact ⟨message, false, message_set_refused message type text rest clean valid, rfl⟩

theorem decode_body_outcome (memory : List UInt8) (bodyLength : UInt8) (message : ProtocolMessage)
    (held : bodyLength.toNat ≤ memory.length) :
    ∃ message' flag, protocolDecodeBody memory bodyLength message = some (message', flag) ∧
      if flag = true then
        ∃ type payload, memory.take bodyLength.toNat = bodyText type payload ∧
          FilledWith message' type payload
      else message' = message := by
  have size : bodyLength.toNat = (memory.take bodyLength.toNat).length :=
    (List.length_take_of_le held).symm
  have outcome := decode_body (memory.take bodyLength.toNat) (memory.drop bodyLength.toNat) bodyLength
    message size
  rw [List.take_append_drop] at outcome
  rcases outcome with ⟨type, payload, message', parts, high, clean, given, decoded⟩ | ⟨_, decoded⟩
  · obtain ⟨known, body⟩ := splitBody_some parts
    have short : payload.length ≤ 48 := by
      rw [body] at high
      simp only [List.length_append, List.length_cons, type_text_length] at high
      omega
    let m : WireMessage := ⟨type, payload, known, short, clean⟩
    refine ⟨message', true, decoded, ?_⟩
    rw [if_pos rfl]
    exact ⟨type, payload, body, delivered_filled (m := m) given⟩
  · exact ⟨message, false, decoded, rfl⟩

/-- One call at a state the parser can be in after the stream `before`. -/
theorem consume_outcome {parser : Parser} {last : ProtocolMessage} {before : List UInt8}
    (tracks : Tracks (parser, last) (Machine.trace next .waitStart before).1)
    (message : ProtocolMessage) (byte : UInt8) :
    ∃ c, parserConsumeByte parser byte message = some c ∧
      if c.result = .messageReady then
        ∃ frame type payload, frame <:+ before ++ [byte] ∧ WellFormedFrame frame type payload ∧
          FilledWith c.message type payload
      else c.message = message := by
  have inside : Tracks (parser, message) (Machine.trace next .waitStart before).1 := tracks
  obtain ⟨c, step, _, replies⟩ := track_step inside byte
  refine ⟨c, step, ?_⟩
  cases ho : (next (Machine.trace next .waitStart before).1 byte).2 with
  | inProgress | error =>
    rw [ho] at replies
    have result : c.result = _ := replies.1
    rw [if_neg (by simp [result])]
    exact replies.2
  | ready type payload =>
    rw [ho] at replies
    obtain ⟨m, crs, rfl, rfl, suffix⟩ := (ready_iff_frame before byte type payload).mp ho
    rw [if_pos replies.1]
    refine ⟨m.frameWith crs, m.type, m.payload, suffix, ?_, delivered_filled replies.2⟩
    exact (wellFormed_iff _ _ _).mpr ⟨m, crs, rfl, rfl, rfl⟩

theorem filled_ackOk {message : ProtocolMessage} {type : ProtocolType} {payload : List UInt8}
    (filled : FilledWith message type payload) :
    IsAckOk message ↔ bodyText type payload = ascii "ACK:ok" := by
  obtain ⟨form, ht, hp⟩ := filled
  have clean : ∀ b ∈ message.text, IsTextByte b := form.clean
  have read : cstring message.payload.toList = some message.text :=
    cstring_starts (text_no_terminator clean) (wellFormed_cells form)
  constructor
  · rintro ⟨ack, ok⟩
    have same : cstring message.payload.toList = some (ascii "ok") := cstring_starts (by decide) ok
    rw [read, Option.some.injEq] at same
    rw [← ht, ← hp, ack, same]
    rfl
  · intro body
    have split : protocolTypeToText type ++ protocolSeparatorChar :: payload =
        ascii "ACK" ++ ascii ":ok" := body
    obtain ⟨letters, tail⟩ := List.append_inj split (type_text_length type)
    have known : protocolTypeIsValid type = true := (type_known_iff type).mpr (ht ▸ form.known)
    have ack : some type = some ProtocolType.ack := by
      rw [← typeOf_text type known, letters]
      rfl
    have ok : payload = ascii "ok" := (List.cons.inj tail).2
    constructor
    · rw [ht, Option.some.inj ack]
    · have cells := wellFormed_cells form
      rw [hp, ok] at cells
      exact cells

theorem message_closes {box : Cbox} (busy : box.ackPending = true) (message : ProtocolMessage)
    (nowMs : UInt32) :
    ∃ box' emitted, cboxOnMessage box message nowMs = some (box', emitted) ∧
      (box'.ackPending = false ↔ IsAckOk message) := by
  have reply : ∃ out, cboxEmit box .ack (literal "ok") = some out := by
    cases sends : box.send with
    | true => exact ⟨_, reply_text sends⟩
    | false => exact ⟨[], by simp [cboxEmit, sends]⟩
  obtain ⟨out, emitted⟩ := reply
  cases type : message.type with
  | cmd | dat | evt | sts =>
    refine ⟨box, out, by simp [cboxOnMessage, type, emitted], ?_⟩
    simp [busy, IsAckOk, type]
  | err | invalid | other raw =>
    refine ⟨box, [], by simp [cboxOnMessage, type], ?_⟩
    simp [busy, IsAckOk, type]
  | ack =>
    have compared := ackOk_compared message
    by_cases ok : literal "ok" <+: message.payload.toList
    · refine ⟨{ box with ackPending := false }, [], ?_, ?_⟩
      · simp [cboxOnMessage, type, busy, compared, ok]
      · simp [IsAckOk, type, ok]
    · refine ⟨box, [], ?_, ?_⟩
      · simp [cboxOnMessage, type, busy, compared, ok]
      · simp [IsAckOk, type, ok, busy]

/-- Each producer of a message either fills it completely or leaves it as it was; so the
box closes its transaction on exactly the frames whose body is `ACK:ok`. -/
theorem message_filled_or_kept :
    (∀ message type text rest, 0 ∉ text →
      ∃ message' flag, protocolMessageSet message type (text ++ 0 :: rest) = some (message', flag) ∧
        if flag = true then FilledWith message' type text else message' = message) ∧
    (∀ memory bodyLength message, bodyLength.toNat ≤ memory.length →
      ∃ message' flag, protocolDecodeBody memory bodyLength message = some (message', flag) ∧
        if flag = true then
          ∃ type payload, memory.take bodyLength.toNat = bodyText type payload ∧
            FilledWith message' type payload
        else message' = message) ∧
    (∀ raw first before, ∃ parser last past,
      feed (parserInit raw) first before = some ((parser, last), past) ∧
      ∀ message byte, ∃ c, parserConsumeByte parser byte message = some c ∧
        if c.result = .messageReady then
          ∃ frame type payload, frame <:+ before ++ [byte] ∧ WellFormedFrame frame type payload ∧
            FilledWith c.message type payload ∧
            ∀ box nowMs, box.ackPending = true →
              ∃ box' emitted, cboxOnMessage box c.message nowMs = some (box', emitted) ∧
                (box'.ackPending = false ↔ bodyText type payload = ascii "ACK:ok")
        else c.message = message) := by
  refine ⟨message_set_outcome, decode_body_outcome, ?_⟩
  intro raw first before
  obtain ⟨⟨parser, last⟩, past, fed, tracks, _⟩ := feed_trace (init_tracks raw first) before
  refine ⟨parser, last, past, fed, ?_⟩
  intro message byte
  obtain ⟨c, step, outcome⟩ := consume_outcome tracks message byte
  refine ⟨c, step, ?_⟩
  by_cases ready : c.result = .messageReady
  · rw [if_pos ready] at outcome
    obtain ⟨frame, type, payload, suffix, form, filled⟩ := outcome
    rw [if_pos ready]
    refine ⟨frame, type, payload, suffix, form, filled, ?_⟩
    intro box nowMs busy
    obtain ⟨box', emitted, handled, closes⟩ := message_closes busy c.message nowMs
    exact ⟨box', emitted, handled, closes.trans (filled_ackOk filled)⟩
  · rw [if_neg ready] at outcome
    rw [if_neg ready]
    exact outcome

end CommandBox
