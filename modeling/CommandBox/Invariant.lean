import CommandBox.Refinement

/-! The representation invariant of `parser_t`. Most of it is what the buffers hold in a
run of the machine of `Progress`; the end of a complete body is kept by the calls alone. -/
namespace CommandBox
open Memory Progress

/-- The states from `EXPECT_CHECK_SEPARATOR` on. -/
def bodyComplete : List ParserState := [.expectCheckSeparator, .readCheckHi, .readCheckLo, .expectEnd]

/-- The states from `READ_BODY` on. -/
def bodyStarted : List ParserState := .readBody :: bodyComplete

/-- The states from `EXPECT_LEN_SEPARATOR` on. -/
def lengthKnown : List ParserState := .expectLenSeparator :: bodyStarted

structure Consistent (parser : Parser) : Prop where
  enumerated : ∀ raw, parser.state ≠ .other raw
  length : parser.state ∈ lengthKnown →
    Hex.text parser.expectedBodyLength.toNat <+: parser.lengthField.toList ∧
      4 ≤ parser.expectedBodyLength.toNat ∧ parser.expectedBodyLength.toNat ≤ 52
  reading : parser.state = .readBody → parser.bodyIndex.toNat < parser.expectedBodyLength.toNat
  complete : parser.state ∈ bodyComplete →
    parser.bodyIndex = parser.expectedBodyLength ∧ parser.body[parser.bodyIndex.toNat]? = some 0
  clean : parser.state ∈ bodyStarted → ∀ b ∈ parser.body.toList.take parser.bodyIndex.toNat,
    0x20 ≤ b ∧ b ≤ 0x7E ∧ b ≠ protocolStartChar
  check : parser.state = .expectEnd → ∃ v < 256, Hex.text v <+: parser.checksumField.toList

/-- The text that a call of `parser_consume_byte` gives to `hex_pair_to_value`, if any. -/
def hexPairArgument (parser : Parser) (byte : UInt8) : Option (Vector UInt8 3) :=
  match parser.state with
  | .readLenLo =>
    if isHexDigit byte then do store (← store parser.lengthField 1 byte) 2 0 else none
  | .expectEnd => if byte = protocolEndChar then some parser.checksumField else none
  | _ => none

/-- In `PARSER_STATE_READ_LEN_LO` the argument becomes the length field, and its value the
length of the body. -/
theorem argument_length {parser : Parser} {byte : UInt8} {text : Vector UInt8 3}
    (state : parser.state = .readLenLo) (given : hexPairArgument parser byte = some text)
    (message : ProtocolMessage) :
    parserConsumeByte parser byte message =
      let parser := { parser with lengthField := text, expectedBodyLength := hexPairToValue text }
      some (if (hexPairToValue text).toNat < protocolTypeLength + 1 ∨
          protocolMaxBodySize < (hexPairToValue text).toNat then
        .keep message (parserFail parser byte .length)
      else ⟨{ parser with state := .expectLenSeparator }, message, .inProgress⟩) := by
  simp only [hexPairArgument, state] at given
  split at given
  · rename_i digit
    have text_eq : (parser.lengthField.set 1 byte).set 2 0 = text := Option.some.inj given
    subst text_eq
    unfold parserConsumeByte
    rw [if_neg (by simp [state])]
    simp only [state, digit, Bool.not_true, Bool.false_eq_true, if_false]
    by_cases short : (hexPairToValue ((parser.lengthField.set 1 byte).set 2 0)).toNat <
        protocolTypeLength + 1
    · rw [if_pos short, if_pos (.inl short)]
    · rw [if_neg short]
      by_cases long : protocolMaxBodySize <
          (hexPairToValue ((parser.lengthField.set 1 byte).set 2 0)).toNat
      · rw [if_pos long, if_pos (.inr long)]
      · rw [if_neg long, if_neg (not_or.mpr ⟨short, long⟩)]
  · contradiction

/-- In `PARSER_STATE_EXPECT_END` it is the checksum field of the frame that ends. -/
theorem argument_check {parser : Parser} {byte : UInt8} {text : Vector UInt8 3}
    (state : parser.state = .expectEnd) (given : hexPairArgument parser byte = some text)
    (message : ProtocolMessage) :
    text = parser.checksumField ∧
      parserConsumeByte parser byte message = parserFinish parser message := by
  simp only [hexPairArgument, state] at given
  split at given
  · rename_i ends
    subst ends
    refine ⟨(Option.some.inj given).symm, ?_⟩
    simp only [parserConsumeByte, state]
    rfl
  · contradiction

theorem fail_length (parser : Parser) (byte : UInt8) (error : ParserError) :
    (parserFail parser byte error).2 = .error ∧
      (parserFail parser byte error).1.expectedBodyLength = 0 := by
  unfold parserFail
  split <;> exact ⟨rfl, rfl⟩

/-- Without an argument no length is read and no frame is finished. -/
theorem argument_none {parser : Parser} {byte : UInt8} {message : ProtocolMessage} {c : Consumed}
    (none : hexPairArgument parser byte = none)
    (step : parserConsumeByte parser byte message = some c) :
    c.result ≠ .messageReady ∧ (c.parser.expectedBodyLength = parser.expectedBodyLength ∨
      c.parser.expectedBodyLength = 0) := by
  have fails (failed : Parser) (error : ParserError) :
      (Consumed.keep message (parserFail failed byte error)).result ≠ .messageReady ∧
        ((Consumed.keep message (parserFail failed byte error)).parser.expectedBodyLength =
            parser.expectedBodyLength ∨
          (Consumed.keep message (parserFail failed byte error)).parser.expectedBodyLength = 0) := by
    obtain ⟨result, length⟩ := fail_length failed byte error
    exact ⟨by simp [Consumed.keep, result], .inr length⟩
  unfold parserConsumeByte at step
  split at step
  · cases step
    exact ⟨by simp, .inl rfl⟩
  · split at step
    · split at step <;> cases step
      · exact ⟨by simp, .inr rfl⟩
      · exact ⟨by simp, .inl rfl⟩
    · split at step <;> cases step
      · exact fails _ _
      · exact ⟨by simp, .inl rfl⟩
    · rename_i state
      split at step
      · cases step
        exact fails _ _
      · rename_i digit
        simp only [hexPairArgument, state, Bool.not_eq_true', Bool.not_eq_false] at none digit
        rw [if_pos digit] at none
        contradiction
    · split at step <;> cases step
      · exact fails _ _
      · exact ⟨by simp, .inl rfl⟩
    · split at step
      · cases step
        exact fails _ _
      · split at step
        · cases step
          exact fails _ _
        · simp only [Option.bind_eq_bind, Option.bind_eq_some_iff] at step
          obtain ⟨body, _, step⟩ := step
          split at step
          · obtain ⟨_, _, step⟩ := Option.bind_eq_some_iff.mp step
            cases step
            exact ⟨by simp, .inl rfl⟩
          · cases step
            exact ⟨by simp, .inl rfl⟩
    · split at step <;> cases step
      · exact fails _ _
      · exact ⟨by simp, .inl rfl⟩
    · split at step <;> cases step
      · exact fails _ _
      · exact ⟨by simp, .inl rfl⟩
    · split at step <;> cases step
      · exact fails _ _
      · exact ⟨by simp, .inl rfl⟩
    · rename_i state
      split at step
      · cases step
        exact fails _ _
      · rename_i ends
        simp only [hexPairArgument, state, if_pos (not_not.mp ends)] at none
        contradiction
    · cases step
      exact ⟨by simp, .inr rfl⟩

/-- A complete body ends in a terminator at its index. -/
def Terminated (parser : Parser) : Prop :=
  parser.state ∈ bodyComplete →
    parser.bodyIndex = parser.expectedBodyLength ∧ parser.body[parser.bodyIndex.toNat]? = some 0

theorem terminated_early {parser : Parser} (early : parser.state ∉ bodyComplete) :
    Terminated parser := fun late => absurd late early

theorem fail_terminated (parser : Parser) (byte : UInt8) (error : ParserError) :
    Terminated (parserFail parser byte error).1 := by
  apply terminated_early
  unfold parserFail
  split <;> simp [bodyComplete, parserReset]

theorem finish_terminated {parser : Parser} {message : ProtocolMessage} {c : Consumed}
    (h : parserFinish parser message = some c) : Terminated c.parser := by
  apply terminated_early
  simp only [parserFinish, Option.bind_eq_bind, Option.bind_eq_some_iff] at h
  obtain ⟨_, _, _, _, _, _, _, _, _, _, _, _, h⟩ := h
  split at h
  · cases h
    simp [bodyComplete, parserReset]
  · obtain ⟨⟨decoded, valid⟩, _, h⟩ := Option.bind_eq_some_iff.mp h
    dsimp only at h
    split at h
    · cases h
      simp [bodyComplete, parserReset]
    · cases h
      simp [bodyComplete, parserReset]

theorem store_cell {n : Nat} {a b : Vector UInt8 n} {i : Nat} {x : UInt8}
    (h : store a i x = some b) : b[i]? = some x := by
  unfold store at h
  split at h
  · cases h
    simp [*]
  · contradiction

/-- A branch that either rejects the byte or goes on. -/
theorem rejects_terminated {stop : Prop} [Decidable stop] {parser : Parser} {byte : UInt8}
    {error : ParserError} {message : ProtocolMessage} {rest : Option Consumed} {c : Consumed}
    (h : (if stop then some (.keep message (parserFail parser byte error)) else rest) = some c)
    (goesOn : rest = some c → Terminated c.parser) : Terminated c.parser := by
  split at h
  · cases h
    exact fail_terminated parser byte error
  · exact goesOn h

theorem body_terminated {parser : Parser} {byte : UInt8} {message : ProtocolMessage} {c : Consumed}
    (reading : parser.state = .readBody) (inside : ¬ (byte = 0x0D ∧ parser.state = .expectEnd))
    (h : parserConsumeByte parser byte message = some c) : Terminated c.parser := by
  rw [parserConsumeByte, if_neg inside] at h
  simp only [reading] at h
  apply rejects_terminated h
  intro allowed
  apply rejects_terminated allowed
  intro stored
  obtain ⟨body, _, stored⟩ := Option.bind_eq_some_iff.mp stored
  split at stored
  · -- the full body is terminated by the call that fills it
    rename_i full
    obtain ⟨body', ended, last⟩ := Option.bind_eq_some_iff.mp stored
    cases last
    exact fun _ => ⟨full, store_cell ended⟩
  · cases stored
    exact terminated_early (by simp [bodyComplete])

theorem consume_terminated {parser : Parser} {byte : UInt8} {message : ProtocolMessage}
    {c : Consumed} (held : Terminated parser)
    (h : parserConsumeByte parser byte message = some c) : Terminated c.parser := by
  by_cases returned : byte = 0x0D ∧ parser.state = .expectEnd
  · rw [parserConsumeByte, if_pos returned] at h
    cases h
    exact held
  have called := h
  rw [parserConsumeByte, if_neg returned] at h
  cases state : parser.state with
  | readBody => exact body_terminated state returned called
  | waitStart =>
    simp only [state] at h
    split at h
    · cases h
      exact terminated_early (by simp [bodyComplete])
    · cases h
      exact held
  | readLenHi | expectLenSeparator =>
    simp only [state] at h
    apply rejects_terminated h
    intro accepted
    cases accepted
    exact terminated_early (by simp [bodyComplete])
  | readLenLo =>
    simp only [state] at h
    apply rejects_terminated h
    intro digit
    apply rejects_terminated digit
    intro low
    apply rejects_terminated low
    intro accepted
    cases accepted
    exact terminated_early (by simp [bodyComplete])
  | expectCheckSeparator | readCheckHi | readCheckLo =>
    simp only [state] at h
    apply rejects_terminated h
    intro accepted
    cases accepted
    exact fun _ => held (by simp [bodyComplete, state])
  | expectEnd =>
    simp only [state] at h
    exact rejects_terminated h finish_terminated
  | other raw =>
    simp only [state] at h
    cases h
    exact terminated_early (by simp [bodyComplete, parserReset])

theorem take_of_held {held body : List UInt8} {k : Nat} (h : held <+: body) (size : k = held.length) :
    body.take k = held := by
  rw [size]
  exact (List.prefix_iff_eq_take.mp h).symm

/-- Before the length is known nothing is promised of the buffers. -/
theorem early_consistent {parser : Parser}
    (early : parser.state ∈ [.waitStart, .readLenHi, .readLenLo]) : Consistent parser := by
  have outside : parser.state ∉ lengthKnown := by
    intro known
    simp only [lengthKnown, bodyStarted, bodyComplete, List.mem_cons, List.not_mem_nil, or_false]
      at known early
    rcases early with e | e | e <;> simp [e] at known
  constructor
  · intro raw e
    simp [e] at early
  · exact fun known => absurd known outside
  · intro e
    simp [e] at early
  · exact fun late => absurd (.tail _ (.tail _ late)) outside
  · exact fun started => absurd (.tail _ started) outside
  · intro e
    simp [e] at early

theorem late_consistent {parser : Parser} {body : List UInt8} (late : parser.state ∈ bodyComplete)
    (read : BodyRead parser body)
    (valid : 4 ≤ body.length ∧ body.length ≤ 52 ∧ ∀ b ∈ body, IsTextByte b)
    (terminated : Terminated parser)
    (check : parser.state = .expectEnd → ∃ v < 256, Hex.text v <+: parser.checksumField.toList) :
    Consistent parser := by
  obtain ⟨⟨text, size⟩, held⟩ := read
  obtain ⟨low, high, clean⟩ := valid
  have index : parser.bodyIndex.toNat = body.length := by
    rw [(terminated late).1, size]
  constructor
  · intro raw e
    simp [e, bodyComplete] at late
  · rw [size]
    exact fun _ => ⟨text, low, high⟩
  · intro e
    simp [e, bodyComplete] at late
  · exact terminated
  · rw [take_of_held held index]
    exact fun _ => clean
  · exact check

/-- In a run the parser is where the machine is, so its fields are as promised. -/
theorem represents_consistent {parser : Parser} {p : Progress} (valid : Valid p)
    (holds : Represents parser p) (terminated : Terminated parser) : Consistent parser := by
  cases p with
  | waitStart =>
    have state : parser.state = .waitStart := holds
    exact early_consistent (by simp [state])
  | lenHi =>
    have state : parser.state = .readLenHi := holds
    exact early_consistent (by simp [state])
  | lenLo hi => exact early_consistent (by simp [holds.1])
  | lenSeparator len =>
    obtain ⟨state, text, size⟩ := holds
    constructor
    · simp [state]
    · rw [size]
      exact fun _ => ⟨text, valid⟩
    · simp [state]
    · exact terminated
    · simp [state, bodyStarted, bodyComplete]
    · simp [state]
  | readBody len read =>
    obtain ⟨state, ⟨text, size⟩, index, held⟩ := holds
    obtain ⟨low, high, more, clean⟩ := valid
    constructor
    · simp [state]
    · rw [size]
      exact fun _ => ⟨text, low, high⟩
    · rw [size, index]
      exact fun _ => more
    · exact terminated
    · rw [take_of_held held index]
      exact fun _ => clean
    · simp [state]
  | checkSeparator body =>
    obtain ⟨state, read⟩ := holds
    exact late_consistent (by simp [state, bodyComplete]) read valid terminated (by simp [state])
  | checkHi body =>
    obtain ⟨state, read⟩ := holds
    exact late_consistent (by simp [state, bodyComplete]) read valid terminated (by simp [state])
  | checkLo body hi =>
    obtain ⟨state, read, _⟩ := holds
    exact late_consistent (by simp [state, bodyComplete]) read valid terminated (by simp [state])
  | frameEnd body check =>
    obtain ⟨state, read, text⟩ := holds
    obtain ⟨low, high, clean, small⟩ := valid
    exact late_consistent (by simp [state, bodyComplete]) read ⟨low, high, clean⟩ terminated
      fun _ => ⟨check, small, text⟩

theorem feed_terminated {parser : Parser} {message : ProtocolMessage} {p : Progress}
    (tracks : Tracks (parser, message) p) (terminated : Terminated parser) (stream : List UInt8) :
    ∃ final replies, feed parser message stream = some (final, replies) ∧
      Tracks final (Machine.trace next p stream).1 ∧ Terminated final.1 := by
  have step : Machine.Matches consume next (fun s p => Tracks s p ∧ Terminated s.1)
      (fun _ _ => True) := by
    intro ⟨parser, message⟩ p b ⟨tracks, terminated⟩
    obtain ⟨c, consumed, tracks', _⟩ := track_step tracks b
    refine ⟨(c.parser, c.message), ⟨c.result, c.message⟩, ?_, ⟨tracks', ?_⟩, True.intro⟩
    · simp only [consume, consumed, Option.map_some]
    · exact consume_terminated terminated consumed
  obtain ⟨final, replies, fed, ⟨tracks', terminated'⟩, _⟩ :=
    Machine.run_matches step ⟨tracks, terminated⟩ stream
  exact ⟨final, replies, fed, tracks', terminated'⟩

theorem text_digits {v : Nat} {n : Nat} {field : Vector UInt8 n} (held : Hex.text v <+: field.toList) :
    ∀ digit ∈ field.toList.take 2, isHexDigit digit = true := by
  rw [take_of_held held (Hex.text_length v).symm]
  intro digit hd
  obtain ⟨d, rfl⟩ := Hex.mem_text hd
  rw [isHexDigit_eq, Hex.read_digit]
  rfl

theorem argument_digits {parser : Parser} {p : Progress} (valid : Valid p)
    (holds : Represents parser p) {byte : UInt8} {text : Vector UInt8 3}
    (given : hexPairArgument parser byte = some text) :
    ∀ digit ∈ text.toList.take 2, isHexDigit digit = true := by
  cases p with
  | waitStart =>
    have state : parser.state = .waitStart := holds
    simp [hexPairArgument, state] at given
  | lenHi =>
    have state : parser.state = .readLenHi := holds
    simp [hexPairArgument, state] at given
  | lenLo hi =>
    obtain ⟨state, held⟩ := holds
    simp only [hexPairArgument, state] at given
    split at given
    · rename_i digit
      rw [isHexDigit_eq] at digit
      obtain ⟨lo, read⟩ := Option.isSome_iff_exists.mp digit
      obtain ⟨first, e₁, w₁⟩ := store_written (i := 1) (written_held held) byte rfl (by decide)
      obtain ⟨both, e₂, w₂⟩ := store_written (i := 2) w₁ 0 rfl (by decide)
      simp only [e₁, e₂, Option.bind_eq_bind, Option.bind_some, Option.some.injEq] at given
      have starts := (List.prefix_append _ _).trans (written_starts w₂)
      rw [← Hex.digit_of_read read, List.singleton_append, ← Hex.text_pair] at starts
      rw [← given]
      exact text_digits starts
    · contradiction
  | frameEnd body check =>
    obtain ⟨state, _, held⟩ := holds
    simp only [hexPairArgument, state] at given
    split at given
    · cases given
      exact text_digits held
    · contradiction
  | lenSeparator _ | readBody _ _ | checkSeparator _ | checkHi _ | checkLo _ _ =>
    have state := holds.1
    simp [hexPairArgument, state] at given

/-- After every byte of every stream the parser is consistent. Its next call then faults on
nothing, reads digits only as digits and takes neither of the two defensive branches. -/
theorem parser_consistent (raw : Parser) (first : ProtocolMessage) (stream : List UInt8) :
    ∃ final replies, feed (parserInit raw) first stream = some (final, replies) ∧
      Consistent final.1 ∧
      (final.1.state = .readBody → final.1.bodyIndex.toNat < protocolMaxBodySize) ∧
      ∀ byte message,
        (∃ c, parserConsumeByte final.1 byte message = some c) ∧
        ∀ text, hexPairArgument final.1 byte = some text →
          ∀ digit ∈ text.toList.take 2, isHexDigit digit = true := by
  have start : Terminated (parserInit raw) :=
    terminated_early (by simp [parserInit, parserReset, bodyComplete])
  obtain ⟨⟨parser, last⟩, replies, fed, ⟨valid, holds⟩, terminated⟩ :=
    feed_terminated (init_tracks raw first) start stream
  have consistent : Consistent parser := represents_consistent valid holds terminated
  refine ⟨(parser, last), replies, fed, consistent, ?_, ?_⟩
  · intro (state : parser.state = .readBody)
    have more := consistent.reading state
    have bounds := consistent.length (by simp [state, lengthKnown, bodyStarted])
    change parser.bodyIndex.toNat < 52
    omega
  · intro byte message
    have inside : Tracks (parser, message) (Machine.trace next .waitStart stream).1 := ⟨valid, holds⟩
    obtain ⟨c, step, _⟩ := track_step inside byte
    exact ⟨⟨c, step⟩, fun text given => argument_digits valid holds given⟩

end CommandBox
