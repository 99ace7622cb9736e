import CommandBox.Codec

/-! The parser of the box refines the machine of `Progress`: a step lemma for each
state, and from it every stream, for every content of the buffers. -/
namespace CommandBox
open Memory Progress

def LengthRead (parser : Parser) (len : Nat) : Prop :=
  Hex.text len <+: parser.lengthField.toList ∧ parser.expectedBodyLength.toNat = len

def BodyRead (parser : Parser) (body : List UInt8) : Prop :=
  LengthRead parser body.length ∧ body <+: parser.body.toList

/-- The buffers hold what was read since the start character; the other cells, and in
`waitStart` all of them, are arbitrary. -/
def Represents (parser : Parser) : Progress → Prop
  | .waitStart => parser.state = .waitStart
  | .lenHi => parser.state = .readLenHi
  | .lenLo hi => parser.state = .readLenLo ∧ [Hex.digit hi] <+: parser.lengthField.toList
  | .lenSeparator len => parser.state = .expectLenSeparator ∧ LengthRead parser len
  | .readBody len read => parser.state = .readBody ∧ LengthRead parser len ∧
      parser.bodyIndex.toNat = read.length ∧ read <+: parser.body.toList
  | .checkSeparator body => parser.state = .expectCheckSeparator ∧ BodyRead parser body
  | .checkHi body => parser.state = .readCheckHi ∧ BodyRead parser body
  | .checkLo body hi => parser.state = .readCheckLo ∧ BodyRead parser body ∧
      [Hex.digit hi] <+: parser.checksumField.toList
  | .frameEnd body check => parser.state = .expectEnd ∧ BodyRead parser body ∧
      Hex.text check <+: parser.checksumField.toList

/-- A call answers as the machine does; only a delivery changes the message. -/
def Replies (message : ProtocolMessage) (c : Consumed) : Outcome → Prop
  | .inProgress => c.result = .inProgress ∧ c.message = message
  | .ready type payload => c.result = .messageReady ∧ Delivered c.message type payload
  | .error => c.result = .error ∧ c.message = message

def Simulated (parser : Parser) (message : ProtocolMessage) (b : UInt8) (p : Progress) : Prop :=
  ∃ c, parserConsumeByte parser b message = some c ∧ Represents c.parser (next p b).1 ∧
    Replies message c (next p b).2

theorem isHexDigit_eq : ∀ b : UInt8, isHexDigit b = (Hex.read b).isSome := by decide +kernel

theorem isBodyByteAllowed_eq (b : UInt8) : isBodyByteAllowed b = decide (IsTextByte b) := by
  simp only [isBodyByteAllowed, IsTextByte]
  grind

theorem pair_of_digits : ∀ hi lo : Fin 16,
    ((UInt8.ofInt (hexCharToNibble (Hex.digit hi)) <<< 4) |||
      UInt8.ofInt (hexCharToNibble (Hex.digit lo))).toNat = 16 * hi.val + lo.val := by
  decide +kernel

theorem field_cells {n v : Nat} {field : Vector UInt8 n} (room : 1 < n)
    (held : Hex.text v <+: field.toList) :
    field[0] = Hex.digit (Fin.ofNat 16 (v / 16)) ∧ field[1] = Hex.digit (Fin.ofNat 16 v) :=
  ⟨cell_of_starts held 0 (by simp) _, cell_of_starts held 1 (by simp) room⟩

theorem pair_of_field {field : Vector UInt8 3} {v : Nat} (small : v < 256)
    (held : Hex.text v <+: field.toList) : (hexPairToValue field).toNat = v := by
  obtain ⟨high, low⟩ := field_cells (by decide) held
  simp only [hexPairToValue, high, low, pair_of_digits]
  exact (Hex.pair_value v small).symm

theorem field_started {n : Nat} (field : Vector UInt8 n) (b : UInt8) (room : 0 < n) :
    [b] <+: (field.set 0 b).toList :=
  written_starts (set_written (written_nil field) b room)

theorem field_completed {n : Nat} {field : Vector UInt8 n} {hi lo : Fin 16} {b : UInt8}
    (room : 2 < n) (held : [Hex.digit hi] <+: field.toList) (read : Hex.read b = some lo) :
    Hex.text (16 * hi.val + lo.val) <+: ((field.set 1 b).set 2 0).toList := by
  have first := set_written (written_held held) b (Nat.lt_of_succ_lt room)
  have both := set_written first 0 room
  rw [Hex.text_pair, ← Hex.digit_of_read read]
  rw [← Hex.digit_of_read read] at both
  exact (List.prefix_append _ _).trans (written_starts both)

theorem fail_represents (parser : Parser) (b : UInt8) (error : ParserError) :
    Represents (parserFail parser b error).1 (reject b).1 := by
  unfold parserFail reject
  split <;> rfl

theorem fail_result (parser : Parser) (b : UInt8) (error : ParserError) :
    (parserFail parser b error).2 = .error := by
  unfold parserFail
  split <;> rfl

theorem simulated_reject {parser : Parser} {message : ProtocolMessage} {b : UInt8}
    {p : Progress} (parser' : Parser) (error : ParserError) (rejects : next p b = reject b)
    (fails : parserConsumeByte parser b message = some (.keep message (parserFail parser' b error))) :
    Simulated parser message b p := by
  refine ⟨_, fails, ?_, ?_⟩
  · rw [rejects]
    exact fail_represents parser' b error
  · rw [rejects]
    exact ⟨fail_result parser' b error, rfl⟩

theorem simulated_progress {parser parser' : Parser} {message : ProtocolMessage} {b : UInt8}
    {p p' : Progress} (goes : next p b = (p', .inProgress))
    (step : parserConsumeByte parser b message = some ⟨parser', message, .inProgress⟩)
    (holds : Represents parser' p') : Simulated parser message b p := by
  refine ⟨_, step, ?_, ?_⟩
  · rw [goes]
    exact holds
  · rw [goes]
    exact ⟨rfl, rfl⟩

section Steps
variable {parser : Parser} (message : ProtocolMessage) {b : UInt8}

theorem step_waitStart (h : Represents parser .waitStart) :
    Simulated parser message b .waitStart := by
  have state : parser.state = .waitStart := h
  by_cases hb : b = protocolStartChar
  · have goes : next .waitStart b = (.lenHi, .inProgress) := by simp [next, hb]
    have step : parserConsumeByte parser b message =
        some ⟨{ parserReset parser with state := .readLenHi }, message, .inProgress⟩ := by
      simp [parserConsumeByte, state, hb]
    exact simulated_progress goes step rfl
  · have goes : next .waitStart b = (.waitStart, .inProgress) := by simp [next, hb]
    have step : parserConsumeByte parser b message = some ⟨parser, message, .inProgress⟩ := by
      simp [parserConsumeByte, state, hb]
    exact simulated_progress goes step state

theorem step_lenHi (h : Represents parser .lenHi) : Simulated parser message b .lenHi := by
  have state : parser.state = .readLenHi := h
  have digit := isHexDigit_eq b
  cases hr : Hex.read b with
  | none =>
    apply simulated_reject parser .format
    · simp [next, hr]
    · simp [parserConsumeByte, state, digit, hr]
  | some hi =>
    have goes : next .lenHi b = (.lenLo hi, .inProgress) := by simp [next, hr]
    have step : parserConsumeByte parser b message =
        some ⟨{ parser with lengthField := parser.lengthField.set 0 b, state := .readLenLo },
          message, .inProgress⟩ := by
      simp [parserConsumeByte, state, digit, hr]
    refine simulated_progress goes step ⟨rfl, ?_⟩
    rw [Hex.digit_of_read hr]
    exact field_started _ b (by decide)

theorem step_lenLo {hi : Fin 16} (h : Represents parser (.lenLo hi)) :
    Simulated parser message b (.lenLo hi) := by
  obtain ⟨state, held⟩ := h
  have digit := isHexDigit_eq b
  cases hr : Hex.read b with
  | none =>
    apply simulated_reject parser .format
    · simp [next, hr]
    · simp [parserConsumeByte, state, digit, hr]
  | some lo =>
    have field := field_completed (by decide) held hr
    have value := pair_of_field (by omega) field
    let read : Parser := { parser with
      lengthField := (parser.lengthField.set 1 b).set 2 0,
      expectedBodyLength := hexPairToValue ((parser.lengthField.set 1 b).set 2 0) }
    by_cases bounds : 4 ≤ 16 * hi.val + lo.val ∧ 16 * hi.val + lo.val ≤ 52
    · have goes : next (.lenLo hi) b = (.lenSeparator (16 * hi.val + lo.val), .inProgress) := by
        simp [next, hr, bounds]
      have low : ¬ 16 * hi.val + lo.val < protocolTypeLength + 1 := Nat.not_lt.mpr bounds.1
      have high : ¬ protocolMaxBodySize < 16 * hi.val + lo.val := Nat.not_lt.mpr bounds.2
      have step : parserConsumeByte parser b message =
          some ⟨{ read with state := .expectLenSeparator }, message, .inProgress⟩ := by
        simp [parserConsumeByte, state, digit, hr, value, low, high, read]
      exact simulated_progress goes step ⟨rfl, field, value⟩
    · apply simulated_reject read .length
      · simp [next, hr, bounds]
      · have outside : 16 * hi.val + lo.val < protocolTypeLength + 1 ∨
            protocolMaxBodySize < 16 * hi.val + lo.val := by
          change _ < 4 ∨ 52 < _
          omega
        rcases outside with low | high
        · simp [parserConsumeByte, state, digit, hr, value, low, read]
        · simp [parserConsumeByte, state, digit, hr, value, high, read]

theorem step_lenSeparator {len : Nat} (h : Represents parser (.lenSeparator len)) :
    Simulated parser message b (.lenSeparator len) := by
  obtain ⟨state, length⟩ := h
  by_cases hb : b = protocolSeparatorChar
  · have goes : next (.lenSeparator len) b = (.readBody len [], .inProgress) := by simp [next, hb]
    have step : parserConsumeByte parser b message =
        some ⟨{ parser with bodyIndex := 0, state := .readBody }, message, .inProgress⟩ := by
      simp [parserConsumeByte, state, hb]
    exact simulated_progress goes step ⟨rfl, length, rfl, List.nil_prefix⟩
  · apply simulated_reject parser .format
    · simp [next, hb]
    · simp [parserConsumeByte, state, hb]

theorem step_readBody {len : Nat} {read : List UInt8} (valid : Valid (.readBody len read))
    (h : Represents parser (.readBody len read)) :
    Simulated parser message b (.readBody len read) := by
  obtain ⟨state, length, index, held⟩ := h
  obtain ⟨_, high, more, _⟩ := valid
  have allowed := isBodyByteAllowed_eq b
  by_cases hb : IsTextByte b
  · have room : ¬ protocolMaxBodySize ≤ parser.bodyIndex.toNat := by
      change ¬ 52 ≤ parser.bodyIndex.toNat
      omega
    obtain ⟨body, stored, written⟩ := store_written (i := parser.bodyIndex.toNat)
      (written_held held) b index (by omega)
    have count : (parser.bodyIndex + 1).toNat = read.length + 1 := by
      have one : (1 : UInt8).toNat = 1 := rfl
      rw [UInt8.toNat_add, index, one]
      exact Nat.mod_eq_of_lt (by omega)
    by_cases full : read.length + 1 = len
    · obtain ⟨body', ended, written'⟩ := store_written (i := (parser.bodyIndex + 1).toNat) written 0
        (by simp [count]) (by omega)
      have reached : parser.bodyIndex + 1 = parser.expectedBodyLength :=
        UInt8.toNat_inj.mp (by rw [count, full, length.2])
      have goes : next (.readBody len read) b = (.checkSeparator (read ++ [b]), .inProgress) := by
        simp [next, hb, full]
      have step : parserConsumeByte parser b message =
          some ⟨{ parser with body := body', bodyIndex := parser.bodyIndex + 1,
                              state := .expectCheckSeparator }, message, .inProgress⟩ := by
        rw [reached] at ended
        simp [parserConsumeByte, state, allowed, hb, room, stored, reached, ended]
      refine simulated_progress goes step ⟨rfl, ?_, ?_⟩
      · rw [List.length_append, List.length_singleton, full]
        exact length
      · exact (List.prefix_append _ _).trans (written_starts written')
    · have reached : parser.bodyIndex + 1 ≠ parser.expectedBodyLength := by
        intro e
        rw [e, length.2] at count
        exact full count.symm
      have goes : next (.readBody len read) b = (.readBody len (read ++ [b]), .inProgress) := by
        simp [next, hb, full]
      have step : parserConsumeByte parser b message =
          some ⟨{ parser with body := body, bodyIndex := parser.bodyIndex + 1 },
            message, .inProgress⟩ := by
        simp [parserConsumeByte, state, allowed, hb, room, stored, reached]
      refine simulated_progress goes step ⟨state, length, ?_, written_starts written⟩
      simpa using count
  · apply simulated_reject parser .body
    · simp [next, hb]
    · simp [parserConsumeByte, state, allowed, hb]

theorem step_checkSeparator {body : List UInt8} (h : Represents parser (.checkSeparator body)) :
    Simulated parser message b (.checkSeparator body) := by
  obtain ⟨state, held⟩ := h
  by_cases hb : b = protocolSeparatorChar
  · have goes : next (.checkSeparator body) b = (.checkHi body, .inProgress) := by simp [next, hb]
    have step : parserConsumeByte parser b message =
        some ⟨{ parser with state := .readCheckHi }, message, .inProgress⟩ := by
      simp [parserConsumeByte, state, hb]
    exact simulated_progress goes step ⟨rfl, held⟩
  · apply simulated_reject parser .format
    · simp [next, hb]
    · simp [parserConsumeByte, state, hb]

theorem step_checkHi {body : List UInt8} (h : Represents parser (.checkHi body)) :
    Simulated parser message b (.checkHi body) := by
  obtain ⟨state, held⟩ := h
  have digit := isHexDigit_eq b
  cases hr : Hex.read b with
  | none =>
    apply simulated_reject parser .format
    · simp [next, hr]
    · simp [parserConsumeByte, state, digit, hr]
  | some hi =>
    have goes : next (.checkHi body) b = (.checkLo body hi, .inProgress) := by simp [next, hr]
    have step : parserConsumeByte parser b message =
        some ⟨{ parser with checksumField := parser.checksumField.set 0 b, state := .readCheckLo },
          message, .inProgress⟩ := by
      simp [parserConsumeByte, state, digit, hr]
    refine simulated_progress goes step ⟨rfl, held, ?_⟩
    rw [Hex.digit_of_read hr]
    exact field_started _ b (by decide)

theorem step_checkLo {body : List UInt8} {hi : Fin 16} (h : Represents parser (.checkLo body hi)) :
    Simulated parser message b (.checkLo body hi) := by
  obtain ⟨state, held, first⟩ := h
  have digit := isHexDigit_eq b
  cases hr : Hex.read b with
  | none =>
    apply simulated_reject parser .format
    · simp [next, hr]
    · simp [parserConsumeByte, state, digit, hr]
  | some lo =>
    have goes : next (.checkLo body hi) b =
        (.frameEnd body (16 * hi.val + lo.val), .inProgress) := by
      simp [next, hr]
    have step : parserConsumeByte parser b message =
        some ⟨{ parser with checksumField := (parser.checksumField.set 1 b).set 2 0,
                            state := .expectEnd }, message, .inProgress⟩ := by
      simp [parserConsumeByte, state, digit, hr]
    exact simulated_progress goes step ⟨rfl, held, field_completed (by decide) first hr⟩

theorem finish_sum {body : List UInt8} {check : Nat} (valid : Valid (.frameEnd body check))
    (h : Represents parser (.frameEnd body check)) :
    parserFinish parser message =
      if hexPairToValue parser.checksumField ≠ Xor.sum (checkedText body) then
        some ⟨{ parserReset parser with lastError := .checksum }, message, .error⟩
      else (do
        let (decoded, valid) ←
          protocolDecodeBody parser.body.toList parser.expectedBodyLength message
        if !valid then some ⟨{ parserReset parser with lastError := .body }, decoded, .error⟩
        else some ⟨parserReset parser, decoded, .messageReady⟩) := by
  obtain ⟨_, ⟨⟨digits, size⟩, held⟩, _⟩ := h
  obtain ⟨_, high, _, _⟩ := valid
  obtain ⟨d₁, d₂⟩ := field_cells (by decide) digits
  obtain ⟨i₁, e₁, w₁⟩ := store_written (i := 0) (written_nil (Vector.replicate 55 (0 : UInt8)))
    parser.lengthField[0] rfl (by decide)
  obtain ⟨i₂, e₂, w₂⟩ := store_written (i := 1) w₁ parser.lengthField[1] rfl (by decide)
  obtain ⟨i₃, e₃, w₃⟩ := store_written (i := 2) w₂ protocolSeparatorChar rfl (by decide)
  obtain ⟨input, filled, written⟩ := memcpy_written (i := 3) w₃ body rfl (by omega)
  have text : checkedText body <+: input.toList := by
    have starts := written_starts written
    simpa [checkedText, Hex.text, d₁, d₂] using starts
  have bytes := load_start held size
  have sum := protocolChecksum_eq text
    (show parser.expectedBodyLength.toNat + 3 = (checkedText body).length by
      rw [checkedText_length, size])
  apply then_some e₁
  apply then_some e₂
  apply then_some e₃
  apply then_some bytes
  apply then_some filled
  exact then_some sum rfl

theorem finish_frame {body : List UInt8} {check : Nat} (valid : Valid (.frameEnd body check))
    (h : Represents parser (.frameEnd body check)) :
    ∃ c, parserFinish parser message = some c ∧ c.parser.state = .waitStart ∧
      Replies message c (deliver body check) := by
  rw [finish_sum message valid h]
  obtain ⟨_, ⟨⟨_, size⟩, held⟩, field⟩ := h
  obtain ⟨_, high, clean, small⟩ := valid
  have value := pair_of_field small field
  have whole : parser.body.toList = body ++ parser.body.toList.drop body.length := by
    obtain ⟨rest, hr⟩ := held
    rw [← hr, List.drop_left]
  by_cases same : hexPairToValue parser.checksumField = Xor.sum (checkedText body)
  · have right : check = (Xor.sum (checkedText body)).toNat := by rw [← same, value]
    have decoded := decode_body body (parser.body.toList.drop body.length) parser.expectedBodyLength
      message size
    rw [← whole] at decoded
    rw [if_neg (not_not.mpr same)]
    rcases decoded with ⟨type, payload, message', parts, _, _, given, hd⟩ | ⟨refused, hd⟩
    · refine ⟨⟨parserReset parser, message', .messageReady⟩, then_some hd rfl, rfl, ?_⟩
      simp only [deliver, if_pos right, parts]
      exact ⟨rfl, given⟩
    · have parts : splitBody body = none := by
        apply Option.eq_none_iff_forall_ne_some.mpr
        rintro ⟨type, payload⟩ found
        apply refused type payload found high
        intro x hx
        exact clean x (by rw [(splitBody_some found).2]; simp [hx])
      refine ⟨⟨{ parserReset parser with lastError := .body }, message, .error⟩,
        then_some hd rfl, rfl, ?_⟩
      simp only [deliver, if_pos right, parts]
      exact ⟨rfl, rfl⟩
  · have wrong : check ≠ (Xor.sum (checkedText body)).toNat := by
      intro e
      exact same (UInt8.toNat_inj.mp (value.trans e))
    rw [if_pos same]
    refine ⟨_, rfl, rfl, ?_⟩
    simp only [deliver, if_neg wrong]
    exact ⟨rfl, rfl⟩

theorem step_frameEnd {body : List UInt8} {check : Nat} (valid : Valid (.frameEnd body check))
    (h : Represents parser (.frameEnd body check)) :
    Simulated parser message b (.frameEnd body check) := by
  have state : parser.state = .expectEnd := h.1
  by_cases hr : b = carriageReturn
  · have goes : next (.frameEnd body check) b = (.frameEnd body check, .inProgress) := by
      simp [next, hr]
    have step : parserConsumeByte parser b message = some ⟨parser, message, .inProgress⟩ := by
      simp [parserConsumeByte, state, hr, carriageReturn]
    exact simulated_progress goes step h
  · have other : b ≠ 0x0D := hr
    by_cases hb : b = protocolEndChar
    · subst hb
      obtain ⟨c, finish, started, replies⟩ := finish_frame message valid h
      have ends : next (.frameEnd body check) protocolEndChar = (.waitStart, deliver body check) := by
        simp [next, hr]
      refine ⟨c, ?_, ?_, ?_⟩
      · simp [parserConsumeByte, state, other, finish]
      · rw [ends]
        exact started
      · rw [ends]
        exact replies
    · apply simulated_reject parser .format
      · simp [next, hr, hb]
      · simp [parserConsumeByte, state, other, hb]

theorem consume_step {p : Progress} (valid : Valid p) (h : Represents parser p) :
    Simulated parser message b p := by
  cases p with
  | waitStart => exact step_waitStart message h
  | lenHi => exact step_lenHi message h
  | lenLo hi => exact step_lenLo message h
  | lenSeparator len => exact step_lenSeparator message h
  | readBody len read => exact step_readBody message valid h
  | checkSeparator body => exact step_checkSeparator message h
  | checkHi body => exact step_checkHi message h
  | checkLo body hi => exact step_checkLo message h
  | frameEnd body check => exact step_frameEnd message valid h

end Steps

/-- What a reply says about the outcome of the machine. -/
def Answers (reply : Reply) : Outcome → Prop
  | .inProgress => reply.result = .inProgress
  | .ready type payload => reply.result = .messageReady ∧ Delivered reply.message type payload
  | .error => reply.result = .error

def Tracks (s : Parser × ProtocolMessage) (p : Progress) : Prop := Valid p ∧ Represents s.1 p

theorem track_step {parser : Parser} {message : ProtocolMessage} {p : Progress}
    (h : Tracks (parser, message) p) (b : UInt8) :
    ∃ c, parserConsumeByte parser b message = some c ∧ Tracks (c.parser, c.message) (next p b).1 ∧
      Replies message c (next p b).2 := by
  obtain ⟨c, step, represents, replies⟩ := consume_step message (b := b) h.1 h.2
  exact ⟨c, step, ⟨valid_next p b h.1, represents⟩, replies⟩

theorem replies_answers {message : ProtocolMessage} {c : Consumed} {o : Outcome}
    (h : Replies message c o) : Answers ⟨c.result, c.message⟩ o := by
  cases o with
  | inProgress | error => exact h.1
  | ready type payload => exact h

theorem consume_matches : Machine.Matches consume next Tracks Answers := by
  intro ⟨parser, message⟩ p b tracks
  obtain ⟨c, step, tracks', replies⟩ := track_step tracks b
  refine ⟨(c.parser, c.message), ⟨c.result, c.message⟩, ?_, tracks', replies_answers replies⟩
  simp only [consume, step, Option.map_some]

/-- Feeding any stream never faults, and every call answers as the machine does. -/
theorem feed_trace {parser : Parser} {message : ProtocolMessage} {p : Progress}
    (tracks : Tracks (parser, message) p) (stream : List UInt8) :
    ∃ final replies, feed parser message stream = some (final, replies) ∧
      Tracks final (Machine.trace next p stream).1 ∧
      List.Forall₂ Answers replies (Machine.trace next p stream).2 :=
  Machine.run_matches consume_matches tracks stream

theorem waiting_tracks {parser : Parser} (message : ProtocolMessage)
    (state : parser.state = .waitStart) : Tracks (parser, message) .waitStart :=
  ⟨True.intro, state⟩

theorem init_tracks (raw : Parser) (message : ProtocolMessage) :
    Tracks (parserInit raw, message) .waitStart :=
  waiting_tracks message rfl

theorem waitStart_iff {s : Parser × ProtocolMessage} {p : Progress} (tracks : Tracks s p) :
    s.1.state = .waitStart ↔ p = .waitStart := by
  have holds := tracks.2
  cases p with
  | waitStart => exact ⟨fun _ => rfl, fun _ => holds⟩
  | lenHi =>
    have state : s.1.state = .readLenHi := holds
    simp [state]
  | lenLo _ | lenSeparator _ | readBody _ _ | checkSeparator _ | checkHi _ | checkLo _ _
  | frameEnd _ _ => simp [holds.1]

end CommandBox
