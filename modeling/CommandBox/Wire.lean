import CommandBox.Protocol
import CommandBox.Lib.Hex
import CommandBox.Lib.Xor

/-! What travels on the line. A `WireMessage` carries the rules of the protocol as
fields, so only valid messages can be written down; `frameWith` is its text. The
definitions here are the specification: none of them runs the code of the box. -/
namespace CommandBox

def carriageReturn : UInt8 := 0x0D

/-- A printable ASCII byte other than the start character. -/
def IsTextByte (b : UInt8) : Prop := 0x20 ≤ b ∧ b ≤ 0x7E ∧ b ≠ protocolStartChar

instance (b : UInt8) : Decidable (IsTextByte b) := inferInstanceAs (Decidable (_ ∧ _ ∧ _))

/-- The text `LL:BODY` that the checksum protects. -/
def checkedText (body : List UInt8) : List UInt8 :=
  Hex.text body.length ++ protocolSeparatorChar :: body

@[ext] structure WireMessage where
  type : ProtocolType
  payload : List UInt8
  known : protocolTypeIsValid type = true
  short : payload.length ≤ protocolMaxPayloadLength
  clean : ∀ b ∈ payload, IsTextByte b

namespace WireMessage

def body (m : WireMessage) : List UInt8 :=
  protocolTypeToText m.type ++ protocolSeparatorChar :: m.payload

def check (m : WireMessage) : Nat := (Xor.sum (checkedText m.body)).toNat

/-- Everything between the start character and the end of the line. -/
def core (m : WireMessage) : List UInt8 :=
  checkedText m.body ++ protocolSeparatorChar :: Hex.text m.check

/-- Everything after the start character, with `crs` carriage returns before the line feed. -/
def tailWith (m : WireMessage) (crs : Nat) : List UInt8 :=
  m.core ++ (List.replicate crs carriageReturn ++ [protocolEndChar])

def frameWith (m : WireMessage) (crs : Nat) : List UInt8 := protocolStartChar :: m.tailWith crs

/-- The form without carriage returns, the only one the encoder writes. -/
def frame (m : WireMessage) : List UInt8 := m.frameWith 0

end WireMessage

/-- A frame spelled out: start, two length digits, separator, body, separator, two
check digits, any carriage returns, line feed. -/
def WellFormedFrame (frame : List UInt8) (type : ProtocolType) (payload : List UInt8) : Prop :=
  ∃ (l₁ l₂ c₁ c₂ : Fin 16) (crs : Nat) (body : List UInt8),
    frame = protocolStartChar :: Hex.digit l₁ :: Hex.digit l₂ :: protocolSeparatorChar ::
      (body ++ protocolSeparatorChar :: Hex.digit c₁ :: Hex.digit c₂ ::
        (List.replicate crs carriageReturn ++ [protocolEndChar])) ∧
    body = protocolTypeToText type ++ protocolSeparatorChar :: payload ∧
    type ∈ [.cmd, .dat, .evt, .sts, .ack, .err] ∧
    (∀ b ∈ payload, 0x20 ≤ b ∧ b ≤ 0x7E ∧ b ≠ protocolStartChar) ∧
    16 * l₁.val + l₂.val = body.length ∧ 4 ≤ body.length ∧ body.length ≤ 52 ∧
    16 * c₁.val + c₂.val =
      (Xor.sum (Hex.digit l₁ :: Hex.digit l₂ :: protocolSeparatorChar :: body)).toNat

theorem type_text_cases (type : ProtocolType) :
    protocolTypeToText type ∈
      [ascii "CMD", ascii "DAT", ascii "EVT", ascii "STS", ascii "ACK", ascii "ERR", ascii "INV"] := by
  cases type <;> simp [protocolTypeToText]

theorem type_text_length (type : ProtocolType) : (protocolTypeToText type).length = 3 := by
  cases type <;> rfl

theorem type_known_iff (type : ProtocolType) :
    protocolTypeIsValid type = true ↔ type ∈ [.cmd, .dat, .evt, .sts, .ack, .err] := by
  cases type <;> simp [protocolTypeIsValid]

theorem separator_text : IsTextByte protocolSeparatorChar := by decide

theorem digit_is_text (d : Fin 16) : IsTextByte (Hex.digit d) := by
  have h := Hex.digit_text d
  exact ⟨h.1, h.2.1, h.2.2.1⟩

theorem type_text_clean (type : ProtocolType) : ∀ b ∈ protocolTypeToText type, IsTextByte b := by
  have all : ∀ t ∈ [ascii "CMD", ascii "DAT", ascii "EVT", ascii "STS", ascii "ACK", ascii "ERR",
      ascii "INV"], ∀ b ∈ t, IsTextByte b := by decide +kernel
  exact all _ (type_text_cases type)

@[simp] theorem checkedText_length (body : List UInt8) :
    (checkedText body).length = body.length + 3 := by
  simp [checkedText]
  omega

theorem checkedText_clean {body : List UInt8} (clean : ∀ b ∈ body, IsTextByte b) :
    ∀ b ∈ checkedText body, IsTextByte b := by
  intro b hb
  simp only [checkedText, List.mem_append, List.mem_cons] at hb
  rcases hb with hb | rfl | hb
  · obtain ⟨d, rfl⟩ := Hex.mem_text hb
    exact digit_is_text d
  · exact separator_text
  · exact clean b hb

namespace WireMessage

theorem body_length (m : WireMessage) : m.body.length = m.payload.length + 4 := by
  simp [body, type_text_length]
  omega

theorem body_bounds (m : WireMessage) : 4 ≤ m.body.length ∧ m.body.length ≤ 52 := by
  have short : m.payload.length ≤ 48 := m.short
  rw [body_length]
  omega

theorem body_clean (m : WireMessage) : ∀ b ∈ m.body, IsTextByte b := by
  intro b hb
  simp only [body, List.mem_append, List.mem_cons] at hb
  rcases hb with hb | rfl | hb
  · exact type_text_clean _ b hb
  · exact separator_text
  · exact m.clean b hb

theorem check_small (m : WireMessage) : m.check < 256 := UInt8.toNat_lt _

theorem core_length (m : WireMessage) : m.core.length = m.body.length + 6 := by
  simp [core]

theorem tail_length (m : WireMessage) (crs : Nat) :
    (m.tailWith crs).length = m.body.length + 7 + crs := by
  simp [tailWith, core_length]
  omega

theorem core_clean (m : WireMessage) : ∀ b ∈ m.core, IsTextByte b := by
  intro b hb
  simp only [core, List.mem_append, List.mem_cons] at hb
  rcases hb with hb | rfl | hb
  · exact checkedText_clean m.body_clean b hb
  · exact separator_text
  · obtain ⟨d, rfl⟩ := Hex.mem_text hb
    exact digit_is_text d

theorem tail_no_start (m : WireMessage) (crs : Nat) : protocolStartChar ∉ m.tailWith crs := by
  intro hb
  simp only [tailWith, List.mem_append, List.mem_replicate, List.mem_singleton] at hb
  rcases hb with hb | ⟨_, hb⟩ | hb
  · exact (m.core_clean _ hb).2.2 rfl
  · exact absurd hb (by decide)
  · exact absurd hb (by decide)

theorem body_length_of_digits {m m' : WireMessage}
    (same : Hex.text m.body.length = Hex.text m'.body.length) :
    m.body.length = m'.body.length := by
  have high := m.body_bounds.2
  have high' := m'.body_bounds.2
  exact Hex.text_injective (by omega) (by omega) same

theorem core_unique {m m' : WireMessage} (same : m.core = m'.core) : m.body = m'.body := by
  have heads : Hex.text m.body.length = Hex.text m'.body.length := by
    simp only [core, checkedText, List.append_assoc] at same
    exact List.append_inj_left same rfl
  have lengths := body_length_of_digits heads
  simp only [core, checkedText, List.append_assoc, heads, List.append_cancel_left_eq,
    List.cons_append, List.cons.injEq, true_and] at same
  exact (List.append_inj same lengths).1

end WireMessage

/-- The spelled-out form and the text of a valid message are the same thing. -/
theorem wellFormed_iff (frame : List UInt8) (type : ProtocolType) (payload : List UInt8) :
    WellFormedFrame frame type payload ↔
      ∃ (m : WireMessage) (crs : Nat), m.type = type ∧ m.payload = payload ∧
        frame = m.frameWith crs := by
  constructor
  · rintro ⟨l₁, l₂, c₁, c₂, crs, body, hf, hb, known, clean, hlen, _, high, hcheck⟩
    have size : body.length = payload.length + 4 := by
      rw [hb]; simp [type_text_length]; omega
    have short : payload.length ≤ 48 := by omega
    refine ⟨⟨type, payload, (type_known_iff type).mpr known, short, clean⟩, crs, rfl, rfl, ?_⟩
    have digits : Hex.text body.length = [Hex.digit l₁, Hex.digit l₂] := by
      rw [← hlen, Hex.text_pair]
    have protectedText : checkedText body =
        Hex.digit l₁ :: Hex.digit l₂ :: protocolSeparatorChar :: body := by
      simp [checkedText, digits]
    have checkDigits : Hex.text (Xor.sum
        (Hex.digit l₁ :: Hex.digit l₂ :: protocolSeparatorChar :: body)).toNat =
          [Hex.digit c₁, Hex.digit c₂] := by rw [← hcheck, Hex.text_pair]
    simp only [WireMessage.frameWith, WireMessage.tailWith, WireMessage.core, WireMessage.check,
      WireMessage.body, ← hb, protectedText, checkDigits, hf, List.append_assoc, List.cons_append,
      List.nil_append]
  · rintro ⟨m, crs, rfl, rfl, rfl⟩
    have bounds := m.body_bounds
    have hl := Hex.pair_value m.body.length (by omega)
    have hc := Hex.pair_value m.check m.check_small
    refine ⟨_, _, _, _, crs, m.body, ?_, rfl, (type_known_iff _).mp m.known, m.clean, hl.symm,
      bounds.1, bounds.2, hc.symm.trans ?_⟩
    · simp [WireMessage.frameWith, WireMessage.tailWith, WireMessage.core, checkedText, Hex.text]
    · simp [WireMessage.check, checkedText, Hex.text]

end CommandBox
