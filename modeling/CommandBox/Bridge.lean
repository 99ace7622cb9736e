import CommandBox.RoundTrip
import CommandBox.Lib.PyText

/-! The bridge of bridge_sim.py and the box speak of the same frames. Its texts are
ASCII, so a text here is the list of its code points. -/
namespace CommandBox
open Memory Progress PyText

/-- `VALID_TYPES` -/
def validTypes : List (List UInt8) :=
  [ascii "CMD", ascii "DAT", ascii "EVT", ascii "STS", ascii "ACK", ascii "ERR"]

/-- `checksum` -/
def bridgeChecksum (text : List UInt8) : Nat := text.foldl (fun value c => value ^^^ c.toNat) 0

/-- `encode` -/
def bridgeEncode (msgType payload : List UInt8) : Option (List UInt8) :=
  let body := msgType ++ protocolSeparatorChar :: payload
  let ll := hex02 body.length
  let cc := hex02 (bridgeChecksum (ll ++ protocolSeparatorChar :: body))
  encodeAscii (protocolStartChar :: (ll ++ protocolSeparatorChar :: (body ++
    protocolSeparatorChar :: (cc ++ [protocolEndChar]))))

/-- `parse`, which turns a `ValueError` into `None`. -/
def bridgeParse (line : List UInt8) : Option (List UInt8 × List UInt8) :=
  if line.head? ≠ some protocolStartChar ∨ line.length < 10 then none
  else do
    let (llText, bodyAndCc) ← unpack (split line.tail protocolSeparatorChar)
    let (body, ccText) ← unpack (rsplit bodyAndCc protocolSeparatorChar)
    if llText.length ≠ 2 ∨ ccText.length ≠ 2 then none
    else if (← int16 llText) ≠ body.length then none
    else if (← int16 ccText) ≠ bridgeChecksum (llText ++ protocolSeparatorChar :: body) then none
    else
      let (msgType, payload) ← unpack (split body protocolSeparatorChar)
      if msgType ∉ validTypes then none else some (msgType, payload)

/-- What the loop of `main` gives to `parse` for the bytes before a line feed. -/
def bridgeLine (raw : List UInt8) : List UInt8 := strip raw

theorem bridgeChecksum_sum (text : List UInt8) : bridgeChecksum text = (Xor.sum text).toNat := by
  have along : ∀ value : UInt8, text.foldl (fun value c => value ^^^ c.toNat) value.toNat =
      (text.foldl (fun checksum c => checksum ^^^ c) value).toNat := by
    induction text with
    | nil => exact fun _ => rfl
    | cons c text ih =>
      intro value
      rw [List.foldl_cons, List.foldl_cons, ← UInt8.toNat_xor, ih]
  exact along 0

theorem validTypes_iff (text : List UInt8) :
    text ∈ validTypes ↔ ∃ type, protocolTypeIsValid type = true ∧ protocolTypeToText type = text := by
  constructor
  · intro listed
    simp only [validTypes, List.mem_cons, List.not_mem_nil, or_false] at listed
    rcases listed with rfl | rfl | rfl | rfl | rfl | rfl
    · exact ⟨.cmd, rfl, rfl⟩
    · exact ⟨.dat, rfl, rfl⟩
    · exact ⟨.evt, rfl, rfl⟩
    · exact ⟨.sts, rfl, rfl⟩
    · exact ⟨.ack, rfl, rfl⟩
    · exact ⟨.err, rfl, rfl⟩
  · rintro ⟨type, known, rfl⟩
    cases type with
    | cmd | dat | evt | sts | ack | err => simp [validTypes, protocolTypeToText]
    | invalid | other => contradiction

theorem separator_not_digit (v : Nat) : protocolSeparatorChar ∉ Hex.text v := by
  intro hm
  obtain ⟨d, hd⟩ := Hex.mem_text hm
  exact absurd hd.symm (Hex.digit_text d).2.2.2

theorem separator_not_type (type : ProtocolType) :
    protocolSeparatorChar ∉ protocolTypeToText type := by
  have all : ∀ t ∈ [ascii "CMD", ascii "DAT", ascii "EVT", ascii "STS", ascii "ACK", ascii "ERR",
      ascii "INV"], protocolSeparatorChar ∉ t := by decide
  exact all _ (type_text_cases type)

/-- The line of a frame: everything before the line feed. -/
def WireMessage.line (m : WireMessage) : List UInt8 := protocolStartChar :: m.core

theorem frame_line (m : WireMessage) : m.frame = m.line ++ [protocolEndChar] := by
  simp [WireMessage.frame, WireMessage.frameWith, WireMessage.tailWith, WireMessage.line]

theorem bridgeEncode_frame (m : WireMessage) :
    bridgeEncode (protocolTypeToText m.type) m.payload = some m.frame := by
  have bounds := m.body_bounds
  have ll : hex02 m.body.length = Hex.text m.body.length := hex02_text _ (by omega)
  have cc : hex02 (bridgeChecksum (checkedText m.body)) = Hex.text m.check := by
    rw [bridgeChecksum_sum]
    exact hex02_text _ m.check_small
  have ascii : ∀ c ∈ m.frame, c < 0x80 := by
    intro c hc
    rw [frame_line, List.mem_append, WireMessage.line, List.mem_cons, List.mem_singleton] at hc
    rcases hc with (rfl | hc) | rfl
    · decide
    · exact UInt8.lt_of_le_of_lt (m.core_clean c hc).2.1 (by decide)
    · decide
  have text : protocolStartChar :: (Hex.text m.body.length ++ protocolSeparatorChar :: (m.body ++
      protocolSeparatorChar :: (Hex.text m.check ++ [protocolEndChar]))) = m.frame := by
    simp [WireMessage.frame, WireMessage.frameWith, WireMessage.tailWith, WireMessage.core, checkedText]
  change encodeAscii (protocolStartChar :: (hex02 m.body.length ++ protocolSeparatorChar ::
    (m.body ++ protocolSeparatorChar :: (hex02 (bridgeChecksum (hex02 m.body.length ++
      protocolSeparatorChar :: m.body)) ++ [protocolEndChar])))) = some m.frame
  rw [ll, ← checkedText, cc, text, encodeAscii, if_pos ascii]

theorem line_parts (m : WireMessage) : m.line = protocolStartChar :: (Hex.text m.body.length ++
    protocolSeparatorChar :: (m.body ++ protocolSeparatorChar :: Hex.text m.check)) := by
  simp [WireMessage.line, WireMessage.core, checkedText]

theorem line_length (m : WireMessage) : m.line.length = m.body.length + 7 := by
  simp [line_parts]
  omega

theorem bridgeLine_kept (m : WireMessage) : bridgeLine m.line = m.line := by
  have digit : ∀ d, isSpace (Hex.digit d) = false := by decide
  have ends : ∃ middle d, m.line = protocolStartChar :: (middle ++ [Hex.digit d]) := by
    refine ⟨Hex.text m.body.length ++ protocolSeparatorChar :: (m.body ++ [protocolSeparatorChar,
      Hex.digit (Fin.ofNat 16 (m.check / 16))]), Fin.ofNat 16 m.check, ?_⟩
    rw [line_parts]
    simp [Hex.text]
  obtain ⟨middle, d, hl⟩ := ends
  rw [hl]
  exact strip_kept (by decide) (digit d)

theorem bridgeParse_line (m : WireMessage) :
    bridgeParse m.line = some (protocolTypeToText m.type, m.payload) := by
  have bounds := m.body_bounds
  have size := line_length m
  have ll : unpack (split m.line.tail protocolSeparatorChar) =
      some (Hex.text m.body.length, m.body ++ protocolSeparatorChar :: Hex.text m.check) := by
    rw [line_parts, List.tail_cons, split_first (separator_not_digit _)]
    rfl
  have cc : unpack (rsplit (m.body ++ protocolSeparatorChar :: Hex.text m.check)
      protocolSeparatorChar) = some (m.body, Hex.text m.check) := by
    rw [rsplit_last (separator_not_digit _)]
    rfl
  have parts : unpack (split m.body protocolSeparatorChar) =
      some (protocolTypeToText m.type, m.payload) := by
    rw [WireMessage.body, split_first (separator_not_type _)]
    rfl
  have opens : ¬ (m.line.head? ≠ some protocolStartChar ∨ m.line.length < 10) := by
    rintro (other | short)
    · exact other rfl
    · omega
  have pair : ¬ ((Hex.text m.body.length).length ≠ 2 ∨ (Hex.text m.check).length ≠ 2) := by simp
  have sum : bridgeChecksum (Hex.text m.body.length ++ protocolSeparatorChar :: m.body) = m.check :=
    bridgeChecksum_sum (checkedText m.body)
  have listed : protocolTypeToText m.type ∈ validTypes := (validTypes_iff _).mpr ⟨m.type, m.known, rfl⟩
  unfold bridgeParse
  rw [if_neg opens]
  apply then_some ll
  apply then_some cc
  refine (if_neg pair).trans ?_
  apply then_some (int16_text _ (by omega))
  rw [if_neg (not_not.mpr rfl)]
  apply then_some (int16_text _ m.check_small)
  rw [sum, if_neg (not_not.mpr rfl)]
  apply then_some parts
  exact if_neg (not_not.mpr listed)

/-- Both ends write the same bytes for a message, and the bridge reads back what the box
writes. -/
theorem bridge_same_format (type : ProtocolType) (payload : List UInt8)
    (known : type ∈ [.cmd, .dat, .evt, .sts, .ack, .err]) (short : payload.length ≤ 48)
    (clean : ∀ b ∈ payload, 0x20 ≤ b ∧ b ≤ 0x7E ∧ b ≠ protocolStartChar)
    (raw : ProtocolMessage) (buffer : Vector UInt8 protocolMaxFrameSize) :
    ∃ message r, protocolMessageSet raw type (payload ++ [0]) = some (message, true) ∧
      protocolEncodeFrame message buffer = some r ∧ r.success = true ∧
      bridgeEncode (protocolTypeToText type) payload = some r.written ∧
      r.written.getLast? = some protocolEndChar ∧
      bridgeParse (bridgeLine r.written.dropLast) = some (protocolTypeToText type, payload) := by
  let m : WireMessage := ⟨type, payload, (type_known_iff type).mpr known, short, clean⟩
  obtain ⟨message, taken, given⟩ := message_set raw m
  obtain ⟨r, encoded, success, written⟩ := encode_written (delivered_carries given) buffer
  refine ⟨message, r, taken, encoded, success, ?_, ?_, ?_⟩
  · rw [written]
    exact bridgeEncode_frame m
  · rw [written, frame_line, List.getLast?_concat]
  · rw [written, frame_line, List.dropLast_concat, bridgeLine_kept]
    exact bridgeParse_line m

/-- A payload that looks like the rest of a frame. -/
theorem bridge_same_format_colons :
    ∃ message r, protocolMessageSet blankMessage .dat (ascii ":4B: " ++ [0]) = some (message, true) ∧
      protocolEncodeFrame message (Vector.replicate 64 0) = some r ∧ r.success = true ∧
      bridgeEncode (protocolTypeToText .dat) (ascii ":4B: ") = some r.written ∧
      r.written.getLast? = some protocolEndChar ∧
      bridgeParse (bridgeLine r.written.dropLast) = some (protocolTypeToText .dat, ascii ":4B: ") :=
  bridge_same_format .dat (ascii ":4B: ") (by decide) (by decide +kernel) (by decide +kernel)
    blankMessage
    (Vector.replicate 64 0)

/- What `parse` accepts and the box does not. -/

structure Parsed (line : List UInt8) (type : ProtocolType) (payload ll cc : List UInt8) : Prop where
  known : protocolTypeIsValid type = true
  text : line = protocolStartChar :: (ll ++ protocolSeparatorChar ::
    (protocolTypeToText type ++ protocolSeparatorChar :: payload ++ protocolSeparatorChar :: cc))
  pairs : ll.length = 2 ∧ cc.length = 2
  size : int16 ll = some ((payload.length + 4 : Nat) : Int)
  sum : int16 cc = some (bridgeChecksum (ll ++ protocolSeparatorChar ::
    (protocolTypeToText type ++ protocolSeparatorChar :: payload)) : Int)

theorem parse_inverted {line msgType payload : List UInt8}
    (h : bridgeParse line = some (msgType, payload)) :
    ∃ type ll cc, protocolTypeToText type = msgType ∧ Parsed line type payload ll cc := by
  simp only [bridgeParse, Option.bind_eq_bind, Option.ite_none_left_eq_some,
    Option.bind_eq_some_iff] at h
  obtain ⟨opens, ⟨ll, rest⟩, cut, ⟨body, cc⟩, cut', pairs, value, size, long, value', sum, check,
    ⟨name, rest'⟩, cut'', listed, result⟩ := h
  cases result
  obtain ⟨whole, _⟩ := split_unpacked cut
  obtain ⟨rfl, _⟩ := rsplit_unpacked cut'
  obtain ⟨rfl, _⟩ := split_unpacked cut''
  obtain ⟨type, known, rfl⟩ := (validTypes_iff _).mp (not_not.mp listed)
  rw [not_or, not_not, not_not] at pairs
  rw [not_not] at long check
  refine ⟨type, ll, cc, rfl, known, ?_, pairs, ?_, ?_⟩
  · cases line with
    | nil => simp at opens
    | cons first line =>
      rw [not_or, List.head?_cons, not_not, Option.some.injEq] at opens
      rw [opens.1]
      exact congrArg (List.cons protocolStartChar) whole
  · rw [size, long]
    simp [type_text_length]
    omega
  · rw [sum, check]

/-- A line the box can read as well: short enough, printable behind its first character, and
with the digits of length and checksum in the one spelling of the box. -/
def BoxReadable (line : List UInt8) : Prop :=
  line.length ≤ 59 ∧ (∀ b ∈ line.tail, IsTextByte b) ∧
    ∀ b ∈ line.tail.take 2 ++ line.drop (line.length - 2), isHexDigit b = true

theorem digit_pair {pair : List UInt8} (two : pair.length = 2)
    (digits : ∀ b ∈ pair, isHexDigit b = true) : ∃ v < 256, pair = Hex.text v := by
  obtain ⟨a, b, rfl⟩ := List.length_eq_two.mp two
  have ha := digits a (by simp)
  have hb := digits b (by simp)
  rw [isHexDigit_eq] at ha hb
  obtain ⟨hi, rhi⟩ := Option.isSome_iff_exists.mp ha
  obtain ⟨lo, rlo⟩ := Option.isSome_iff_exists.mp hb
  refine ⟨16 * hi.val + lo.val, by omega, ?_⟩
  rw [Hex.text_pair, Hex.digit_of_read rhi, Hex.digit_of_read rlo]

theorem parsed_fields {line payload ll cc : List UInt8} {type : ProtocolType}
    (parsed : Parsed line type payload ll cc) :
    line.length = payload.length + 11 ∧
      line.tail.take 2 ++ line.drop (line.length - 2) = ll ++ cc := by
  obtain ⟨_, text, ⟨two, two'⟩, _, _⟩ := parsed
  have letters := type_text_length type
  have length : line.length = payload.length + 11 := by
    simp [text, two, two', letters]
    omega
  have front : line.tail.take 2 = ll := by
    rw [text, List.tail_cons, ← two, List.take_left]
  have split : line = (protocolStartChar :: (ll ++ protocolSeparatorChar ::
      (protocolTypeToText type ++ protocolSeparatorChar :: payload ++ [protocolSeparatorChar]))) ++
        cc := by
    simp [text]
  have back : line.drop (line.length - 2) = cc := by
    rw [length, split, List.drop_left']
    simp [two, letters]
    omega
  exact ⟨length, by rw [front, back]⟩

theorem readable_line {line payload ll cc : List UInt8} {type : ProtocolType}
    (parsed : Parsed line type payload ll cc) (readable : BoxReadable line) :
    ∃ m : WireMessage, m.type = type ∧ m.payload = payload ∧ line = m.line := by
  obtain ⟨length, fields⟩ := parsed_fields parsed
  obtain ⟨known, text, ⟨two, two'⟩, size, sum⟩ := parsed
  obtain ⟨short, printable, digits⟩ := readable
  rw [fields] at digits
  have clean : ∀ b ∈ payload, IsTextByte b := by
    intro b hb
    apply printable
    rw [text]
    simp [hb]
  let m : WireMessage := ⟨type, payload, known, show payload.length ≤ 48 by omega, clean⟩
  have total : m.body.length = payload.length + 4 := m.body_length
  obtain ⟨v, small, rfl⟩ := digit_pair two fun b hb => digits b (List.mem_append_left _ hb)
  obtain ⟨w, small', rfl⟩ := digit_pair two' fun b hb => digits b (List.mem_append_right _ hb)
  rw [int16_text v small, Option.some.injEq, Int.natCast_inj, ← total] at size
  rw [size] at text sum
  have check : bridgeChecksum (checkedText m.body) = m.check := bridgeChecksum_sum _
  rw [int16_text w small', Option.some.injEq, Int.natCast_inj] at sum
  have same : w = m.check := sum.trans check
  refine ⟨m, rfl, rfl, ?_⟩
  rw [line_parts, ← same, text]
  simp [WireMessage.body, m]

theorem line_readable (m : WireMessage) : BoxReadable m.line := by
  have bounds := m.body_bounds
  have length := line_length m
  have total := m.body_length
  have size : int16 (Hex.text m.body.length) = some ((m.payload.length + 4 : Nat) : Int) := by
    rw [int16_text _ (by omega), total]
  have sum : int16 (Hex.text m.check) = some (bridgeChecksum (checkedText m.body) : Int) := by
    rw [int16_text _ m.check_small, bridgeChecksum_sum]
    rfl
  have parsed : Parsed m.line m.type m.payload (Hex.text m.body.length) (Hex.text m.check) :=
    ⟨m.known, line_parts m, ⟨rfl, rfl⟩, size, sum⟩
  refine ⟨by omega, m.core_clean, ?_⟩
  rw [(parsed_fields parsed).2]
  intro b hb
  rw [isHexDigit_eq]
  rcases List.mem_append.mp hb with hb | hb
  · obtain ⟨d, rfl⟩ := Hex.mem_text hb
    rw [Hex.read_digit]
    rfl
  · obtain ⟨d, rfl⟩ := Hex.mem_text hb
    rw [Hex.read_digit]
    rfl

/-- The call on the line feed delivers this message. -/
def DeliversLine (parser : Parser) (message : ProtocolMessage) (line msgType payload : List UInt8) :
    Prop :=
  ∃ final replies reply type, feed parser message (line ++ [protocolEndChar]) = some (final, replies) ∧
    replies.getLast? = some reply ∧ reply.result = .messageReady ∧
    protocolTypeToText type = msgType ∧ Delivered reply.message type payload

theorem delivered_unique {message : ProtocolMessage} {type type' : ProtocolType}
    {payload payload' : List UInt8} (given : Delivered message type payload)
    (given' : Delivered message type' payload') : type = type' ∧ payload = payload' := by
  obtain ⟨ht, hl, hp⟩ := given
  obtain ⟨ht', hl', hp'⟩ := given'
  have text := (List.prefix_append payload [0]).trans hp
  have text' := (List.prefix_append payload' [0]).trans hp'
  constructor
  · exact ht.symm.trans ht'
  · rw [List.prefix_iff_eq_take.mp text, List.prefix_iff_eq_take.mp text', ← hl, ← hl']

/-- The last answer of a waiting parser is the outcome of the machine. -/
theorem delivers_iff {parser : Parser} (waiting : parser.state = .waitStart)
    (message : ProtocolMessage) (line msgType payload : List UInt8) :
    DeliversLine parser message line msgType payload ↔
      ∃ type, protocolTypeToText type = msgType ∧
        (Progress.next (Machine.trace Progress.next .waitStart line).1 protocolEndChar).2 =
          .ready type payload := by
  obtain ⟨final, replies, fed, _, size, each⟩ :=
    feed_outputs (waiting_tracks message waiting) (line ++ [protocolEndChar])
  have inside : line.length < replies.length := by simp [size]
  have answer := each line.length inside (by simp)
  rw [List.take_left, List.getElem_concat_length rfl] at answer
  have last : replies.getLast? = some replies[line.length] := by
    rw [List.getLast?_eq_getElem?, size, List.length_append, List.length_singleton,
      Nat.add_sub_cancel, List.getElem?_eq_getElem inside]
  constructor
  · rintro ⟨final', replies', reply, type, fed', last', ready, named, given⟩
    rw [fed] at fed'
    cases fed'
    cases Option.some.inj (last.symm.trans last')
    obtain ⟨type', payload', ho⟩ := (answers_ready answer).mp ready
    rw [ho] at answer
    obtain ⟨rfl, rfl⟩ := delivered_unique given answer.2
    exact ⟨type, named, ho⟩
  · rintro ⟨type, named, ho⟩
    rw [ho] at answer
    exact ⟨final, replies, _, type, fed, last, answer.1, named, answer.2⟩

/-- The box delivers what `parse` returns for a line, if and only if the line is readable. -/
theorem bridge_accepts_readable {line msgType payload : List UInt8}
    (parsed : bridgeParse line = some (msgType, payload)) {parser : Parser}
    (waiting : parser.state = .waitStart) (message : ProtocolMessage) :
    DeliversLine parser message line msgType payload ↔ BoxReadable line := by
  rw [delivers_iff waiting]
  obtain ⟨type, ll, cc, rfl, fields⟩ := parse_inverted parsed
  constructor
  · rintro ⟨type', named, ho⟩
    obtain ⟨m, crs, rfl, rfl, suffix⟩ := (ready_iff_frame _ _ _ _).mp ho
    -- the frame is as long as the line, so it is the line and has no carriage returns
    have length := (parsed_fields fields).1
    have total := m.body_length
    have frames := suffix.length_le
    rw [frame_length, List.length_append, List.length_singleton] at frames
    have none : crs = 0 := by omega
    subst none
    have whole : m.frameWith 0 = line ++ [protocolEndChar] := by
      apply suffix.eq_of_length
      rw [frame_length, List.length_append, List.length_singleton]
      omega
    have frame : m.frame = m.line ++ [protocolEndChar] := frame_line m
    rw [WireMessage.frame, whole] at frame
    rw [List.append_cancel_right frame]
    exact line_readable m
  · intro readable
    obtain ⟨m, rfl, rfl, rfl⟩ := readable_line fields readable
    refine ⟨m.type, rfl, (ready_iff_frame _ _ _ _).mpr ⟨m, 0, rfl, rfl, ?_⟩⟩
    rw [← frame_line]
    exact List.suffix_refl _

theorem bridge_accepts_readable_ack :
    DeliversLine blankParser blankMessage (ascii "@06:ACK:ok:4B") (ascii "ACK") (ascii "ok") ↔
      BoxReadable (ascii "@06:ACK:ok:4B") :=
  bridge_accepts_readable (by decide +kernel) rfl blankMessage

/-- A checksum in lower case, which only the bridge takes. -/
theorem bridge_accepts_lower_case :
    ¬ ∀ line msgType payload, (∀ c ∈ line, c < 0x80) → protocolEndChar ∉ line →
      bridgeParse line = some (msgType, payload) →
      ∀ parser : Parser, parser.state = .waitStart → ∀ message,
        DeliversLine parser message line msgType payload := by
  intro h
  have parsed : bridgeParse (ascii "@06:ACK:ok:4b") = some (ascii "ACK", ascii "ok") := by
    decide +kernel
  have delivered := h _ _ _ (by decide +kernel) (by decide +kernel) parsed blankParser rfl blankMessage
  obtain ⟨type, _, ready⟩ := (delivers_iff rfl _ _ _ _).mp delivered
  have refused : (Progress.next (Machine.trace Progress.next .waitStart (ascii "@06:ACK:ok:4b")).1
      protocolEndChar).2 = .inProgress := by decide +kernel
  rw [refused] at ready
  contradiction

end CommandBox
