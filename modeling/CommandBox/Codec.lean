import CommandBox.Parser
import CommandBox.Progress

/-! What the message functions of protocol.c compute, in terms of wire messages: one
theorem for each function, and no caller unfolds the function again. -/
namespace CommandBox
open Memory

/-- The struct holds this type and payload; cells behind the payload are arbitrary. -/
def Carries (message : ProtocolMessage) (m : WireMessage) : Prop :=
  message.type = m.type ∧ message.payloadLength.toNat = m.payload.length ∧
    m.payload <+: message.payload.toList

/-- As `Carries`, and the payload is a terminated string. -/
def Delivered (message : ProtocolMessage) (type : ProtocolType) (payload : List UInt8) : Prop :=
  message.type = type ∧ message.payloadLength.toNat = payload.length ∧
    payload ++ [0] <+: message.payload.toList

theorem delivered_carries {message : ProtocolMessage} {m : WireMessage}
    (h : Delivered message m.type m.payload) : Carries message m :=
  ⟨h.1, h.2.1, (List.prefix_append _ _).trans h.2.2⟩

theorem nibbles_of_byte : ∀ v : UInt8,
    nibbleToHex (v >>> 4) = Hex.digit (Fin.ofNat 16 (v.toNat / 16)) ∧
      nibbleToHex (v &&& 0x0F) = Hex.digit (Fin.ofNat 16 v.toNat) := by
  decide +kernel

theorem payloadScan_eq (payload rest : List UInt8) :
    payloadScan (payload ++ rest) payload.length = some (decide (∀ b ∈ payload, IsTextByte b)) := by
  induction payload with
  | nil => cases rest <;> simp [payloadScan]
  | cons c payload ih =>
    have rule : (c < 0x20 ∨ c > 0x7E ∨ c = protocolStartChar) ↔ ¬ IsTextByte c := by
      simp only [IsTextByte, not_and_or, UInt8.not_le, not_not, gt_iff_lt, ne_eq]
    by_cases hc : IsTextByte c
    · have pass : ¬ (c < 0x20 ∨ c > 0x7E ∨ c = protocolStartChar) := fun h => rule.mp h hc
      simp only [List.cons_append, List.length_cons, payloadScan, if_neg pass, ih]
      simp [hc]
    · simp only [List.cons_append, List.length_cons, payloadScan, if_pos (rule.mpr hc)]
      simp [hc]

theorem protocolChecksum_eq {source w : List UInt8} {len : Nat} (held : w <+: source)
    (size : len = w.length) : protocolComputeChecksum source len = some (Xor.sum w) := by
  simp only [protocolComputeChecksum, protocolChecksum, load_start held size, Option.map_some]
  rfl

theorem strlen_letters {a b c : UInt8} (clean : 0 ∉ [a, b, c]) : strlen [a, b, c, 0] = some 3 :=
  strlen_terminated clean

theorem strlen_short {a b c : UInt8} (zero : 0 ∈ [a, b, c]) :
    ∃ k, strlen [a, b, c, 0] = some k ∧ k ≠ 3 := by
  by_cases ha : a = 0
  · exact ⟨0, by simp [strlen, List.findIdx?_cons, ha], by decide⟩
  · by_cases hb : b = 0
    · exact ⟨1, by simp [strlen, List.findIdx?_cons, ha, hb], by decide⟩
    · have hc : c = 0 := by
        simp only [List.mem_cons, List.not_mem_nil, or_false] at zero
        rcases zero with e | e | e
        · exact absurd e.symm ha
        · exact absurd e.symm hb
        · exact e.symm
      exact ⟨2, by simp [strlen, List.findIdx?_cons, ha, hb, hc], by decide⟩

theorem typeFromText_letters (a b c : UInt8) :
    protocolTypeFromText ([a, b, c] ++ [0]) = some ((typeOf [a, b, c]).getD .invalid) := by
  cases h : typeOf [a, b, c] with
  | some type =>
    obtain ⟨known, spelled⟩ := typeOf_some h
    rw [← spelled]
    cases type with
    | cmd | dat | evt | sts | ack | err => rfl
    | invalid => cases known
    | other raw => cases known
  | none =>
    have unknown : ∀ type ∈ [.cmd, .dat, .evt, .sts, .ack, .err],
        [a, b, c] ≠ protocolTypeToText type := by
      intro type listed e
      have miss := List.find?_eq_none.mp h type listed
      simp [e] at miss
    by_cases zero : 0 ∈ [a, b, c]
    · obtain ⟨k, hk, ne⟩ := strlen_short zero
      simp [protocolTypeFromText, hk, ne]
    · have size := strlen_letters zero
      simp only [List.mem_cons, List.not_mem_nil, or_false, forall_eq_or_imp, forall_eq,
        protocolTypeToText] at unknown
      simp [protocolTypeFromText, size, unknown]

theorem splitBody_cons (a b c separator : UInt8) (payload : List UInt8) :
    splitBody (a :: b :: c :: separator :: payload) =
      if separator = protocolSeparatorChar then (typeOf [a, b, c]).map fun type => (type, payload)
      else none := rfl

theorem long_body {body : List UInt8} (long : 4 ≤ body.length) :
    ∃ a b c separator payload, body = a :: b :: c :: separator :: payload := by
  match body, long with
  | a :: b :: c :: separator :: payload, _ => exact ⟨a, b, c, separator, payload, rfl⟩

theorem payload_size {bodyLength : UInt8} {size : Nat} (h : bodyLength.toNat = size + 4) :
    (bodyLength - 3 - 1).toNat = size := by
  have small := bodyLength.toNat_lt
  have three : (3 : UInt8).toNat = 3 := rfl
  have one : (1 : UInt8).toNat = 1 := rfl
  rw [UInt8.toNat_sub, UInt8.toNat_sub, three, one]
  omega

theorem known_typeOf (letters : List UInt8) :
    protocolTypeIsValid ((typeOf letters).getD .invalid) = (typeOf letters).isSome := by
  cases h : typeOf letters with
  | none => rfl
  | some type => simpa using (typeOf_some h).1

theorem decode_inside (a b c separator : UInt8) (payload rest : List UInt8) (bodyLength : UInt8)
    (message : ProtocolMessage) (size : bodyLength.toNat = payload.length + 4)
    (fits : payload.length ≤ 48) :
    protocolDecodeBody (a :: b :: c :: separator :: (payload ++ rest)) bodyLength message =
      if separator = protocolSeparatorChar ∧ (typeOf [a, b, c]).isSome ∧
          ∀ x ∈ payload, IsTextByte x then do
        let stored ← memcpy message.payload 0 payload
        let stored ← store stored payload.length 0
        some (⟨(typeOf [a, b, c]).getD .invalid, stored, bodyLength - 3 - 1⟩, true)
      else some (message, false) := by
  have inside : ¬ (bodyLength.toNat < protocolTypeLength + 1 ∨
      bodyLength.toNat > protocolMaxBodySize) := by
    change ¬ (bodyLength.toNat < 4 ∨ bodyLength.toNat > 52)
    omega
  have fourth : (a :: b :: c :: separator :: (payload ++ rest))[protocolTypeLength]? =
      some separator := rfl
  have letters : load (a :: b :: c :: separator :: (payload ++ rest)) 3 = some [a, b, c] :=
    load_start ⟨separator :: (payload ++ rest), rfl⟩ rfl
  have bytes : load (payload ++ rest) payload.length = some payload :=
    load_start (List.prefix_append _ _) rfl
  simp only [protocolDecodeBody, if_neg inside, fourth, letters, typeFromText_letters,
    payloadIsValid, payload_size size, List.drop_succ_cons, List.drop_zero, payloadScan_eq, bytes,
    known_typeOf, Option.bind_eq_bind, Option.bind_some]
  by_cases hs : separator = protocolSeparatorChar
  · rw [if_neg (not_not.mpr hs)]
    by_cases ht : (typeOf [a, b, c]).isSome
    · by_cases hc : ∀ x ∈ payload, IsTextByte x
      · rw [if_pos (And.intro hs ⟨ht, hc⟩), decide_eq_true hc, ht]
        rfl
      · rw [if_neg (fun rules : _ ∧ _ ∧ _ => hc rules.2.2), decide_eq_false hc, ht]
        rfl
    · simp [ht]
  · simp [hs]

/-- `protocol_decode_body` accepts exactly the bodies that split into a known type and a
clean payload, and otherwise leaves the message untouched. -/
theorem decode_body (body rest : List UInt8) (bodyLength : UInt8) (message : ProtocolMessage)
    (size : bodyLength.toNat = body.length) :
    (∃ type payload message', splitBody body = some (type, payload) ∧ body.length ≤ 52 ∧
      (∀ b ∈ payload, IsTextByte b) ∧ Delivered message' type payload ∧
      protocolDecodeBody (body ++ rest) bodyLength message = some (message', true)) ∨
    ((∀ type payload, splitBody body = some (type, payload) → body.length ≤ 52 →
        ¬ ∀ b ∈ payload, IsTextByte b) ∧
      protocolDecodeBody (body ++ rest) bodyLength message = some (message, false)) := by
  by_cases bounds : 4 ≤ body.length ∧ body.length ≤ 52
  · obtain ⟨a, b, c, separator, payload, rfl⟩ := long_body bounds.1
    have fits : payload.length ≤ 48 := by
      have high := bounds.2
      simp only [List.length_cons] at high
      omega
    have inside := decode_inside a b c separator payload rest bodyLength message size fits
    simp only [List.cons_append]
    split at inside
    · rename_i rules
      obtain ⟨type, ht⟩ := Option.isSome_iff_exists.mp rules.2.1
      have room : payload.length < protocolMaxPayloadLength + 1 := Nat.lt_succ_of_le fits
      obtain ⟨copied, hm, wm⟩ := memcpy_front message.payload payload (Nat.le_of_lt room)
      obtain ⟨stored, hs, ws⟩ := store_written wm 0 rfl room
      left
      refine ⟨type, payload, ⟨type, stored, bodyLength - 3 - 1⟩, ?_, bounds.2, rules.2.2, ?_, ?_⟩
      · rw [splitBody_cons, if_pos rules.1, ht]
        rfl
      · exact ⟨rfl, payload_size size, written_starts ws⟩
      · rw [inside, hm, ht]
        simp only [Option.bind_eq_bind, Option.bind_some, hs, Option.getD_some]
    · rename_i broken
      right
      refine ⟨?_, inside⟩
      intro type payload' split _ clean
      rw [splitBody_cons] at split
      by_cases hs : separator = protocolSeparatorChar
      · rw [if_pos hs] at split
        obtain ⟨t, ht, hp⟩ := Option.map_eq_some_iff.mp split
        cases hp
        exact broken ⟨hs, by rw [ht]; rfl, clean⟩
      · rw [if_neg hs] at split
        contradiction
  · right
    have outside : bodyLength.toNat < protocolTypeLength + 1 ∨
        bodyLength.toNat > protocolMaxBodySize := by
      change bodyLength.toNat < 4 ∨ bodyLength.toNat > 52
      omega
    refine ⟨?_, by simp only [protocolDecodeBody, if_pos outside]⟩
    intro type payload split high _
    obtain ⟨_, hb⟩ := splitBody_some split
    have low : 4 ≤ body.length := by
      rw [hb]; simp [type_text_length]; omega
    exact bounds ⟨low, high⟩

theorem text_no_terminator {text : List UInt8} (clean : ∀ b ∈ text, IsTextByte b) : 0 ∉ text :=
  fun hm => absurd (clean 0 hm).1 (by decide)

/-- `protocol_message_set` takes every valid type and text, whatever is behind the terminator. -/
theorem message_set_string (message : ProtocolMessage) (m : WireMessage) (rest : List UInt8) :
    ∃ message', protocolMessageSet message m.type (m.payload ++ 0 :: rest) = some (message', true) ∧
      Delivered message' m.type m.payload := by
  have short : m.payload.length ≤ 48 := m.short
  have known : ¬ (!protocolTypeIsValid m.type) = true := by simp [m.known]
  have size : strlen (m.payload ++ 0 :: rest) = some m.payload.length :=
    strlen_terminated (text_no_terminator m.clean)
  have fits : ¬ m.payload.length > protocolMaxPayloadLength := Nat.not_lt.mpr m.short
  have length : (UInt8.ofNat m.payload.length).toNat = m.payload.length := by
    rw [UInt8.toNat_ofNat']
    exact Nat.mod_eq_of_lt (by omega)
  have clean : payloadIsValid (m.payload ++ 0 :: rest) (UInt8.ofNat m.payload.length) = some true := by
    rw [payloadIsValid, length, payloadScan_eq, decide_eq_true m.clean]
  have bytes : load (m.payload ++ 0 :: rest) (m.payload.length + 1) = some (m.payload ++ [0]) :=
    load_start ⟨rest, by simp⟩ (by simp)
  obtain ⟨stored, hm, hw⟩ := memcpy_front message.payload (m.payload ++ [0])
    (by simp; omega)
  refine ⟨⟨m.type, stored, UInt8.ofNat m.payload.length⟩, ?_, rfl, length, written_starts hw⟩
  unfold protocolMessageSet
  rw [if_neg known]
  apply then_some size
  rw [if_neg fits]
  apply then_some clean
  rw [if_neg (by decide)]
  exact then_some bytes <| then_some hm rfl

theorem message_set (message : ProtocolMessage) (m : WireMessage) :
    ∃ message', protocolMessageSet message m.type (m.payload ++ [0]) = some (message', true) ∧
      Delivered message' m.type m.payload :=
  message_set_string message m []

theorem message_set_type {message message' : ProtocolMessage} {type : ProtocolType}
    {payload : List UInt8} (h : protocolMessageSet message type payload = some (message', true)) :
    message'.type = type := by
  unfold protocolMessageSet at h
  split at h
  · simp at h
  · simp only [Option.bind_eq_bind, Option.bind_eq_some_iff] at h
    obtain ⟨length, _, h⟩ := h
    split at h
    · simp at h
    · obtain ⟨valid, _, h⟩ := Option.bind_eq_some_iff.mp h
      split at h
      · simp at h
      · simp only [Option.bind_eq_some_iff] at h
        obtain ⟨bytes, _, stored, _, h⟩ := h
        cases h
        rfl

/- Encoding. Each write appends one piece to the text written so far. -/

def Filled {size : Nat} (before : Vector UInt8 size) (out : Vector UInt8 size × Nat)
    (w : List UInt8) : Prop :=
  Written before out.1 w ∧ out.2 = w.length

theorem put_filled {size : Nat} {before : Vector UInt8 size} {out : Vector UInt8 size × Nat}
    {w : List UInt8} (h : Filled before out w) (c : UInt8) (room : w.length < size) :
    ∃ out', put out c = some out' ∧ Filled before out' (w ++ [c]) := by
  obtain ⟨frame, hs, ws⟩ := store_written h.1 c h.2 (h.2 ▸ room)
  exact ⟨(frame, out.2 + 1), by simp only [put, hs, Option.map_some], ws, by simp [h.2]⟩

theorem digits_of_byte (v : UInt8) :
    [nibbleToHex (v >>> 4), nibbleToHex (v &&& 0x0F)] = Hex.text v.toNat := by
  obtain ⟨high, low⟩ := nibbles_of_byte v
  rw [high, low, Hex.text]

theorem encode_body {message : ProtocolMessage} {m : WireMessage} (holds : Carries message m)
    {bodyLength : UInt8} (size : bodyLength.toNat = m.body.length) :
    ∃ body input, encodeBody message bodyLength = some (body, input) ∧
      m.body <+: body.toList ∧ checkedText m.body <+: input.toList := by
  obtain ⟨ht, hl, hp⟩ := holds
  have bounds := m.body_bounds
  have letters := type_text_length m.type
  have total := m.body_length
  have hload : load (protocolTypeToText m.type) 3 = some (protocolTypeToText m.type) :=
    load_start (List.prefix_refl _) letters.symm
  obtain ⟨b₁, e₁, w₁⟩ := memcpy_front (Vector.replicate 53 (0 : UInt8)) (protocolTypeToText m.type)
    (by omega)
  obtain ⟨b₂, e₂, w₂⟩ := store_written (i := 3) w₁ protocolSeparatorChar letters.symm (by decide)
  have hpay := load_start hp hl
  obtain ⟨b₃, e₃, w₃⟩ := memcpy_written (i := 4) w₂ m.payload (by simp [letters]) (by omega)
  have whole : protocolTypeToText m.type ++ [protocolSeparatorChar] ++ m.payload = m.body := by
    simp [WireMessage.body]
  rw [whole] at w₃
  obtain ⟨b₄, e₄, w₄⟩ := store_written w₃ 0 size (by omega)
  have hbody : m.body <+: b₄.toList := (List.prefix_append _ _).trans (written_starts w₄)
  obtain ⟨c₁, f₁, v₁⟩ := store_written (i := 0) (written_nil (Vector.replicate 55 (0 : UInt8)))
    (nibbleToHex (bodyLength >>> 4)) rfl (by decide)
  obtain ⟨c₂, f₂, v₂⟩ := store_written (i := 1) v₁ (nibbleToHex (bodyLength &&& 0x0F)) rfl (by decide)
  obtain ⟨c₃, f₃, v₃⟩ := store_written (i := 2) v₂ protocolSeparatorChar rfl (by decide)
  obtain ⟨c₄, f₄, v₄⟩ := memcpy_written (i := 3) v₃ m.body rfl (by omega)
  have digits := digits_of_byte bodyLength
  rw [size] at digits
  refine ⟨b₄, c₄, ?_, hbody, ?_⟩
  · have hbytes := load_start hbody size
    unfold encodeBody
    rw [ht]
    exact then_some hload <| then_some e₁ <| then_some e₂ <| then_some hpay <| then_some e₃ <|
      then_some e₄ <| then_some f₁ <| then_some f₂ <| then_some f₃ <| then_some hbytes <|
      then_some f₄ rfl
  · have text := written_starts v₄
    simpa [checkedText, ← digits] using text

theorem encode_output {size : Nat} {m : WireMessage} {bodyLength checksum : UInt8}
    {body : Vector UInt8 (protocolMaxBodySize + 1)} {input : Vector UInt8 (3 + protocolMaxBodySize)}
    (length : bodyLength.toNat = m.body.length) (hbody : m.body <+: body.toList)
    (hinput : checkedText m.body <+: input.toList) (hcheck : checksum.toNat = m.check)
    (frame : Vector UInt8 size) (room : m.frame.length ≤ size) :
    ∃ frame', encodeOutput frame body input bodyLength checksum =
        some ⟨true, frame', m.frame.length⟩ ∧
      Written frame frame' (m.frame ++ if m.frame.length < size then [0] else []) := by
  have spelled : m.frame = protocolStartChar :: (Hex.text m.body.length ++ protocolSeparatorChar ::
      (m.body ++ protocolSeparatorChar :: (Hex.text m.check ++ [protocolEndChar]))) := by
    simp [WireMessage.frame, WireMessage.frameWith, WireMessage.tailWith, WireMessage.core, checkedText]
  have total : m.frame.length = m.body.length + 8 := by
    simp [spelled]
    omega
  have high := cell_of_starts hinput 0 (by simp) (by decide)
  have low := cell_of_starts hinput 1 (by simp) (by decide)
  have digits : [input[0], input[1]] = Hex.text m.body.length := by
    rw [high, low]
    rfl
  have checkDigits := digits_of_byte checksum
  rw [hcheck] at checkDigits
  have start : Filled frame (frame, 0) [] := ⟨written_nil frame, rfl⟩
  obtain ⟨o₁, e₁, w₁⟩ := put_filled start protocolStartChar (by simp only [List.length_nil]; omega)
  obtain ⟨o₂, e₂, w₂⟩ := put_filled w₁ input[0] (by simp; omega)
  obtain ⟨o₃, e₃, w₃⟩ := put_filled w₂ input[1] (by simp; omega)
  obtain ⟨o₄, e₄, w₄⟩ := put_filled w₃ protocolSeparatorChar (by simp; omega)
  have hbytes := load_start hbody length
  obtain ⟨copied, e₅, w₅⟩ := memcpy_written w₄.1 m.body w₄.2 (by rw [w₄.2]; simp; omega)
  have filled : Filled frame (copied, o₄.2 + bodyLength.toNat) _ :=
    ⟨w₅, by simp [w₄.2, length]; omega⟩
  obtain ⟨o₆, e₆, w₆⟩ := put_filled filled protocolSeparatorChar (by simp; omega)
  obtain ⟨o₇, e₇, w₇⟩ := put_filled w₆ (nibbleToHex (checksum >>> 4)) (by simp; omega)
  obtain ⟨o₈, e₈, w₈⟩ := put_filled w₇ (nibbleToHex (checksum &&& 0x0F)) (by simp; omega)
  obtain ⟨o₉, e₉, w₉⟩ := put_filled w₈ protocolEndChar (by simp; omega)
  have written : Filled frame o₉ m.frame := by
    simpa [spelled, ← digits, ← checkDigits] using w₉
  unfold encodeOutput
  by_cases spare : m.frame.length < size
  · obtain ⟨last, e₀, w₀⟩ := store_written written.1 0 written.2 (written.2 ▸ spare)
    refine ⟨last, ?_, by rw [if_pos spare]; exact w₀⟩
    refine then_some e₁ <| then_some e₂ <| then_some e₃ <| then_some e₄ <| then_some hbytes <|
      then_some e₅ <| then_some e₆ <| then_some e₇ <| then_some e₈ <| then_some e₉ ?_
    rw [if_pos (show size > o₉.2 from written.2 ▸ spare)]
    exact then_some e₀ (by rw [written.2])
  · refine ⟨o₉.1, ?_, by rw [if_neg spare, List.append_nil]; exact written.1⟩
    refine then_some e₁ <| then_some e₂ <| then_some e₃ <| then_some e₄ <| then_some hbytes <|
      then_some e₅ <| then_some e₆ <| then_some e₇ <| then_some e₈ <| then_some e₉ ?_
    rw [if_neg (show ¬ size > o₉.2 from written.2 ▸ spare), written.2]

/-- `protocol_encode_frame` writes the frame of the message and, where a cell is left, a
terminator behind it; all other cells are kept. -/
theorem encode_frame {size : Nat} {message : ProtocolMessage} {m : WireMessage}
    (holds : Carries message m) (frame : Vector UInt8 size) (room : m.frame.length ≤ size) :
    ∃ frame', protocolEncodeFrame message frame = some ⟨true, frame', m.frame.length⟩ ∧
      Written frame frame' (m.frame ++ if m.frame.length < size then [0] else []) := by
  obtain ⟨ht, hl, rest, hp⟩ := holds
  have short : m.payload.length ≤ 48 := m.short
  have total := m.body_length
  have spelled : m.frame.length = m.body.length + 8 := by
    simp only [WireMessage.frame, WireMessage.frameWith, List.length_cons, m.tail_length]
  have known : ¬ (!protocolTypeIsValid message.type) = true := by simp [ht, m.known]
  have fits : ¬ message.payloadLength.toNat > protocolMaxPayloadLength := by
    rw [hl]
    exact Nat.not_lt.mpr m.short
  have clean : payloadIsValid message.payload.toList message.payloadLength = some true := by
    rw [payloadIsValid, hl, ← hp, payloadScan_eq, decide_eq_true m.clean]
  let bodyLength : UInt8 := UInt8.ofNat (protocolTypeLength + 1 + message.payloadLength.toNat)
  have size' : bodyLength.toNat = m.body.length := by
    change (3 + 1 + message.payloadLength.toNat) % 256 = m.body.length
    omega
  have inside : ¬ (bodyLength.toNat > protocolMaxBodySize ∨ size < bodyLength.toNat + 8) := by
    change ¬ (bodyLength.toNat > 52 ∨ size < bodyLength.toNat + 8)
    omega
  obtain ⟨body, input, he, hbody, hinput⟩ := encode_body ⟨ht, hl, rest, hp⟩ size'
  have hcheck := protocolChecksum_eq hinput
    (show bodyLength.toNat + 3 = (checkedText m.body).length by rw [checkedText_length, size'])
  obtain ⟨frame', ho, hw⟩ := encode_output size' hbody hinput rfl frame room
  refine ⟨frame', ?_, hw⟩
  unfold protocolEncodeFrame
  rw [if_neg known, if_neg fits]
  apply then_some clean
  rw [if_neg (by decide)]
  refine (if_neg inside).trans ?_
  exact then_some he <| then_some hcheck ho

end CommandBox
