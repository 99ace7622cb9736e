import CommandBox.Messages
import CommandBox.Validate

/-! The text interface of protocol.c: `protocol_encode`, and that it and `protocol_validate`
are inverse to each other. -/
namespace CommandBox
open Memory Progress

/-- The returned length or -1, and the buffer; `message` is the local of the source. -/
def protocolEncode {size : Nat} (message : ProtocolMessage) (typeText payload : List UInt8)
    (buf : Vector UInt8 size) : Option (Int × Vector UInt8 size) := do
  let type ← protocolTypeFromText typeText
  let (message, valid) ← protocolMessageSet message type payload
  if !valid then some (-1, buf)
  else
    let r ← protocolEncodeFrame message buf
    if !r.success then some (-1, r.frame) else some (r.frameLength, r.frame)

theorem typeOf_length {letters : List UInt8} (size : letters.length ≠ 3) : typeOf letters = none := by
  cases found : typeOf letters with
  | none => rfl
  | some type =>
    obtain ⟨_, spelled⟩ := typeOf_some found
    rw [← spelled] at size
    exact absurd (type_text_length type) size

/-- Any string, not only one of three letters. -/
theorem typeFromText_string {text : List UInt8} (clean : 0 ∉ text) (rest : List UInt8) :
    protocolTypeFromText (text ++ 0 :: rest) = some ((typeOf text).getD .invalid) := by
  have size : strlen (text ++ 0 :: rest) = some text.length := strlen_terminated clean
  by_cases three : text.length = 3
  · match text, three with
    | [a, b, c], _ =>
      have size' : strlen ([a, b, c] ++ [0]) = some 3 := strlen_terminated clean
      rw [← typeFromText_letters]
      simp only [protocolTypeFromText, size, size']
      rfl
  · rw [typeOf_length three]
    simp only [protocolTypeFromText, size, Option.bind_eq_bind, Option.bind_some]
    exact if_pos three

/-- What the text interface takes: the name of a type, a payload, and room for the frame. -/
def Encodable (type : ProtocolType) (typeText payload : List UInt8) (size : Nat) : Prop :=
  type ∈ [.cmd, .dat, .evt, .sts, .ack, .err] ∧ protocolTypeToText type = typeText ∧
    payload.length ≤ 48 ∧ (∀ b ∈ payload, 0x20 ≤ b ∧ b ≤ 0x7E ∧ b ≠ protocolStartChar) ∧
    payload.length + 12 ≤ size

section Strings

variable {size : Nat} (message : ProtocolMessage) (buf : Vector UInt8 size)
  {typeText payload : List UInt8} (typeRest payloadRest : List UInt8)

theorem encode_text {m : WireMessage} (named : protocolTypeToText m.type = typeText)
    (room : m.frame.length ≤ size) :
    ∃ buf', protocolEncode message (typeText ++ 0 :: typeRest) (m.payload ++ 0 :: payloadRest) buf =
        some ((m.frame.length : Int), buf') ∧
      Written buf buf' (m.frame ++ if m.frame.length < size then [0] else []) ∧
      ∀ i < size, buf'[i]? = if i < m.frame.length then m.frame[i]?
        else if i = m.frame.length then some 0 else buf[i]? := by
  have clean : 0 ∉ typeText := named ▸ text_no_terminator (type_text_clean m.type)
  have type : protocolTypeFromText (typeText ++ 0 :: typeRest) = some m.type := by
    rw [typeFromText_string clean, ← named, typeOf_text m.type m.known]
    rfl
  obtain ⟨message', set, given⟩ := message_set_string message m payloadRest
  obtain ⟨buf', encoded, written⟩ := encode_frame (delivered_carries given) buf room
  obtain ⟨buf'', encoded', cells⟩ := encode_cells (delivered_carries given) buf room
  cases encoded.symm.trans encoded'
  refine ⟨buf', ?_, written, cells⟩
  unfold protocolEncode
  apply then_some type
  apply then_some set
  exact then_some encoded rfl

/-- Whatever is wrong, the caller's buffer is left alone. -/
theorem encode_text_refused (typeClean : 0 ∉ typeText) (payloadClean : 0 ∉ payload)
    (refused : ∀ type, ¬ Encodable type typeText payload size) :
    protocolEncode message (typeText ++ 0 :: typeRest) (payload ++ 0 :: payloadRest) buf =
      some (-1, buf) := by
  unfold protocolEncode
  apply then_some (typeFromText_string typeClean typeRest)
  by_cases valid : protocolTypeIsValid ((typeOf typeText).getD .invalid) = true ∧
      payload.length ≤ 48 ∧ ∀ b ∈ payload, IsTextByte b
  · obtain ⟨known, short, clean⟩ := valid
    rw [known_typeOf] at known
    obtain ⟨type, found⟩ := Option.isSome_iff_exists.mp known
    obtain ⟨known, named⟩ := typeOf_some found
    let m : WireMessage := ⟨type, payload, known, short, clean⟩
    have room : size < m.frame.length := by
      rw [frame_spelled, frameText_length]
      by_contra fits
      exact refused type ⟨(type_known_iff type).mp known, named, short, clean, Nat.not_lt.mp fits⟩
    obtain ⟨message', set, given⟩ := message_set_string message m payloadRest
    rw [found]
    apply then_some set
    exact then_some (encode_short (delivered_carries given) buf room) rfl
  · exact then_some (message_set_refused message _ payload payloadRest payloadClean valid) rfl

end Strings

/-- The frame in the buffer is what `protocol_validate` accepts behind its first byte, and its
body what `protocol_decode_body` takes apart. -/
theorem written_accepted {size : Nat} {before after : Vector UInt8 size} {m : WireMessage}
    {tail : List UInt8} (written : Written before after (m.frame ++ tail)) (raw : Parser)
    (scratch : ProtocolMessage) :
    protocolValidate raw scratch (after.toList.drop 1) (m.payload.length + 10) = some 0 ∧
      ∃ message', protocolDecodeBody (after.toList.drop 4) (UInt8.ofNat (m.payload.length + 4))
          scratch = some (message', true) ∧ FilledWith message' m.type m.payload := by
  obtain ⟨rest, cells⟩ := written_starts written
  have short : m.payload.length ≤ 48 := m.short
  have total := m.body_length
  have core := m.core_length
  constructor
  · have line : after.toList.drop 1 = m.core ++ (protocolEndChar :: (tail ++ rest)) := by
      rw [← cells]
      simp [WireMessage.frame, WireMessage.frameWith, WireMessage.tailWith]
    have passes : Passes m.core := by
      have last := Passes.last m 0
      rwa [List.replicate_zero, List.append_nil] at last
    have length : m.core.length = m.payload.length + 10 := by omega
    rw [line, ← length]
    rcases validate_result raw scratch m.core (protocolEndChar :: (tail ++ rest)) with
      ⟨_, _, accepted⟩ | ⟨fails, _⟩
    · exact accepted
    · exact absurd ⟨passes, by omega⟩ fails
  · have body : after.toList.drop 4 = m.body ++ (protocolSeparatorChar :: (Hex.text m.check ++
        ([protocolEndChar] ++ (tail ++ rest)))) := by
      rw [← cells]
      simp [WireMessage.frame, WireMessage.frameWith, WireMessage.tailWith, WireMessage.core,
        checkedText, Hex.text]
    have length : (UInt8.ofNat (m.payload.length + 4)).toNat = m.body.length := by
      rw [UInt8.toNat_ofNat']
      omega
    rw [body]
    rcases decode_body m.body (protocolSeparatorChar :: (Hex.text m.check ++
        ([protocolEndChar] ++ (tail ++ rest)))) _ scratch length with
      ⟨type, payload, message', split, _, _, given, decoded⟩ | ⟨fails, _⟩
    · rw [splitBody_message] at split
      cases split
      exact ⟨message', decoded, delivered_filled given⟩
    · exact absurd m.clean (fails m.type m.payload (splitBody_message m) (by omega))

/-- The two ends of the text interface are inverse: what `protocol_encode` writes, and it
writes exactly where it can and nothing else, is accepted and taken apart again; and every
line that `protocol_validate` accepts, without a second frame and without carriage returns, is
written by `protocol_encode` for some type and payload. -/
theorem text_api_inverse (message scratch : ProtocolMessage) (raw : Parser) {size : Nat}
    (buf : Vector UInt8 size) :
    (∀ typeText payload typeRest payloadRest, 0 ∉ typeText → 0 ∉ payload →
      (∀ type, Encodable type typeText payload size → ∃ buf',
        protocolEncode message (typeText ++ 0 :: typeRest) (payload ++ 0 :: payloadRest) buf =
          some ((payload.length : Int) + 12, buf') ∧
        (∀ i < size, buf'[i]? =
          if i < payload.length + 12 then (frameText type payload)[i]?
          else if i = payload.length + 12 then some 0 else buf[i]?) ∧
        protocolValidate raw scratch (buf'.toList.drop 1) (payload.length + 10) = some 0 ∧
        ∃ message', protocolDecodeBody (buf'.toList.drop 4) (UInt8.ofNat (payload.length + 4))
          scratch = some (message', true) ∧ FilledWith message' type payload) ∧
      ((∀ type, ¬ Encodable type typeText payload size) →
        protocolEncode message (typeText ++ 0 :: typeRest) (payload ++ 0 :: payloadRest) buf =
          some (-1, buf))) ∧
    ∀ line rest, protocolValidate raw scratch (line ++ rest) line.length = some 0 →
      protocolStartChar ∉ line → carriageReturn ∉ line → line.length + 2 ≤ size →
      ∃ type payload, ∀ typeRest payloadRest, ∃ buf',
        protocolEncode message (protocolTypeToText type ++ 0 :: typeRest)
          (payload ++ 0 :: payloadRest) buf = some ((line.length : Int) + 2, buf') ∧
        protocolStartChar :: (line ++ [protocolEndChar]) <+: buf'.toList := by
  constructor
  · intro typeText payload typeRest payloadRest typeClean payloadClean
    constructor
    · rintro type ⟨known, named, short, clean, room⟩
      let m : WireMessage := ⟨type, payload, (type_known_iff type).mpr known, short, clean⟩
      have total : m.frame.length = payload.length + 12 := by
        rw [frame_spelled, frameText_length]
      obtain ⟨buf', encoded, written, cells⟩ :=
        encode_text message buf typeRest payloadRest (m := m) named (total ▸ room)
      refine ⟨buf', ?_, ?_, written_accepted written raw scratch⟩
      · rw [total] at encoded
        exact encoded
      · intro i inside
        have spelled : frameText type payload = m.frame := (frame_spelled m).symm
        rw [spelled, ← total]
        exact cells i inside
    · exact encode_text_refused message buf typeRest payloadRest typeClean payloadClean
  · intro line rest accepted single plain room
    rcases validate_result raw scratch line rest with ⟨passes, _, _⟩ | ⟨_, refused⟩
    · have alone : ¬ FurtherFrames line := fun further => single (further_frames_start further)
      obtain ⟨type, payload, form⟩ := ((passes_cases line).mp passes).resolve_right alone
      obtain ⟨m, crs, rfl, rfl, whole⟩ := (wellFormed_iff _ _ _).mp form
      rw [WireMessage.frameWith, WireMessage.tailWith, ← List.append_assoc] at whole
      have text := List.append_cancel_right (List.cons.inj whole).2
      have none : crs = 0 := by
        by_contra some
        exact plain (text ▸ List.mem_append_right _ (List.mem_replicate.mpr ⟨some, rfl⟩))
      subst none
      have frame : m.frame = protocolStartChar :: (line ++ [protocolEndChar]) := by
        rw [text]
        simp [WireMessage.frame, WireMessage.frameWith, WireMessage.tailWith]
      have total : m.frame.length = line.length + 2 := by
        simp [frame]
      refine ⟨m.type, m.payload, ?_⟩
      intro typeRest payloadRest
      obtain ⟨buf', encoded, written, _⟩ :=
        encode_text message buf typeRest payloadRest (m := m) rfl (total ▸ room)
      rw [total] at encoded
      refine ⟨buf', encoded, ?_⟩
      rw [← frame]
      exact (List.prefix_append _ _).trans (written_starts written)
    · rw [refused] at accepted
      contradiction

example : (protocolEncode blankMessage (literal "DAT") (literal "adc=2048") (Vector.replicate 65 0)).map
    (fun r => (r.1, r.2.toList.take 21)) = some (20, ascii "@0C:DAT:adc=2048:77\n" ++ [0]) := by
  decide +kernel

end CommandBox
