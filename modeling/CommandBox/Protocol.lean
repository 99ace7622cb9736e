import CommandBox.Lib.Memory

/-! The wire protocol of the box, from protocol.h and protocol.c: frames
@LL:TTT:PAYLOAD:CC and a line feed. A pointer argument is the object it points to,
so the tests for NULL have no counterpart; `none` is an access out of bounds. -/
namespace CommandBox
open Memory

abbrev protocolMaxPayloadLength : Nat := 48
abbrev protocolMaxFrameLength : Nat := 64
abbrev protocolTypeLength : Nat := 3
abbrev protocolMaxBodySize : Nat := protocolTypeLength + 1 + protocolMaxPayloadLength
abbrev protocolMaxFrameSize : Nat := protocolMaxFrameLength

def protocolStartChar : UInt8 := 0x40
def protocolEndChar : UInt8 := 0x0A
def protocolSeparatorChar : UInt8 := 0x3A

/-- The bytes of a literal, without its terminator. -/
def ascii (text : String) : List UInt8 := text.toList.map fun c => UInt8.ofNat c.toNat

/-- `protocol_type_t`. A C object of this type may also hold a value outside the
enumerators; the default branches of the source are for `other`. -/
inductive ProtocolType where
  | cmd | dat | evt | sts | ack | err | invalid
  | other (raw : UInt32)
  deriving DecidableEq, Repr

/-- `protocol_message_t` -/
structure ProtocolMessage where
  type : ProtocolType
  payload : Vector UInt8 (protocolMaxPayloadLength + 1)
  payloadLength : UInt8
  deriving DecidableEq

/-- A message object in zeroed memory, with the type `protocol_type_from_text` gives
to an unknown text. -/
def blankMessage : ProtocolMessage := ⟨.invalid, Vector.replicate (protocolMaxPayloadLength + 1) 0, 0⟩

def nibbleToHex (value : UInt8) : UInt8 :=
  if value < 10 then 0x30 + value else 0x41 + (value - 10)

def protocolTypeIsValid : ProtocolType → Bool
  | .cmd | .dat | .evt | .sts | .ack | .err => true
  | _ => false

/-- The loop of `payload_is_valid`, which stops at the first byte that breaks a rule. -/
def payloadScan : List UInt8 → Nat → Option Bool
  | _, 0 => some true
  | [], _ + 1 => none
  | c :: rest, left + 1 =>
    if c < 0x20 ∨ c > 0x7E ∨ c = protocolStartChar then some false else payloadScan rest left

def payloadIsValid (payload : List UInt8) (payloadLength : UInt8) : Option Bool :=
  payloadScan payload payloadLength.toNat

def hexCharToNibble (c : UInt8) : Int :=
  if c ≥ 0x30 ∧ c ≤ 0x39 then (c.toNat : Int) - 0x30
  else if c ≥ 0x41 ∧ c ≤ 0x46 then (c.toNat : Int) - 0x41 + 10
  else -1

def protocolChecksum (input : List UInt8) (len : Nat) : Option UInt8 :=
  (load input len).map fun bytes => bytes.foldl (fun checksum c => checksum ^^^ c) 0

def protocolComputeChecksum (data : List UInt8) (length : Nat) : Option UInt8 :=
  protocolChecksum data length

def protocolTypeToText : ProtocolType → List UInt8
  | .cmd => ascii "CMD"
  | .dat => ascii "DAT"
  | .evt => ascii "EVT"
  | .sts => ascii "STS"
  | .ack => ascii "ACK"
  | .err => ascii "ERR"
  | _ => ascii "INV"

/-- A text of length three is compared on exactly these three letters. -/
def protocolTypeFromText (text : List UInt8) : Option ProtocolType := do
  let length ← strlen text
  if length ≠ protocolTypeLength then some .invalid
  else if text.take protocolTypeLength = ascii "CMD" then some .cmd
  else if text.take protocolTypeLength = ascii "DAT" then some .dat
  else if text.take protocolTypeLength = ascii "EVT" then some .evt
  else if text.take protocolTypeLength = ascii "STS" then some .sts
  else if text.take protocolTypeLength = ascii "ACK" then some .ack
  else if text.take protocolTypeLength = ascii "ERR" then some .err
  else some .invalid

/-- The message after the call and the returned flag. -/
def protocolMessageSet (message : ProtocolMessage) (type : ProtocolType) (payload : List UInt8) :
    Option (ProtocolMessage × Bool) :=
  if !protocolTypeIsValid type then some (message, false)
  else do
    let payloadLength ← strlen payload
    if payloadLength > protocolMaxPayloadLength then some (message, false)
    else
      let valid ← payloadIsValid payload (UInt8.ofNat payloadLength)
      if !valid then some (message, false)
      else
        let bytes ← load payload (payloadLength + 1)
        let stored ← memcpy message.payload 0 bytes
        some (⟨type, stored, UInt8.ofNat payloadLength⟩, true)

/-- The frame buffer with its running write position: `frame[index++] = c`. -/
def put {size : Nat} (out : Vector UInt8 size × Nat) (c : UInt8) :
    Option (Vector UInt8 size × Nat) :=
  (store out.1 out.2 c).map fun frame => (frame, out.2 + 1)

/-- The result of `protocol_encode_frame`: its flag, the buffer and `*frame_length`. -/
structure EncodeResult (size : Nat) where
  success : Bool
  frame : Vector UInt8 size
  frameLength : Nat

/-- The text `LL:TTT:PAYLOAD` in the local buffers of `protocol_encode_frame`: the
filled `body` and `checksum_input`. Both start as uninitialised locals, here zero;
nothing is read from them before it is written. -/
def encodeBody (message : ProtocolMessage) (bodyLength : UInt8) :
    Option (Vector UInt8 (protocolMaxBodySize + 1) × Vector UInt8 (3 + protocolMaxBodySize)) := do
  let typeText ← load (protocolTypeToText message.type) protocolTypeLength
  let body ← memcpy (Vector.replicate (protocolMaxBodySize + 1) 0) 0 typeText
  let body ← store body protocolTypeLength protocolSeparatorChar
  let payload ← load message.payload.toList message.payloadLength.toNat
  let body ← memcpy body (protocolTypeLength + 1) payload
  let body ← store body bodyLength.toNat 0
  let input ← store (Vector.replicate (3 + protocolMaxBodySize) 0) 0 (nibbleToHex (bodyLength >>> 4))
  let input ← store input 1 (nibbleToHex (bodyLength &&& 0x0F))
  let input ← store input 2 protocolSeparatorChar
  let bytes ← load body.toList bodyLength.toNat
  let input ← memcpy input 3 bytes
  some (body, input)

/-- The writes of `protocol_encode_frame` into the buffer of the caller. -/
def encodeOutput {size : Nat} (frame : Vector UInt8 size)
    (body : Vector UInt8 (protocolMaxBodySize + 1)) (input : Vector UInt8 (3 + protocolMaxBodySize))
    (bodyLength checksum : UInt8) : Option (EncodeResult size) := do
  let out ← put (frame, 0) protocolStartChar
  let out ← put out input[0]
  let out ← put out input[1]
  let out ← put out protocolSeparatorChar
  let bytes ← load body.toList bodyLength.toNat
  let copied ← memcpy out.1 out.2 bytes
  let out ← put (copied, out.2 + bodyLength.toNat) protocolSeparatorChar
  let out ← put out (nibbleToHex (checksum >>> 4))
  let out ← put out (nibbleToHex (checksum &&& 0x0F))
  let out ← put out protocolEndChar
  if size > out.2 then
    let frame ← store out.1 out.2 0
    some ⟨true, frame, out.2⟩
  else some ⟨true, out.1, out.2⟩

/-- The buffer has exactly `frame_size` bytes. -/
def protocolEncodeFrame {size : Nat} (message : ProtocolMessage) (frame : Vector UInt8 size) :
    Option (EncodeResult size) :=
  if !protocolTypeIsValid message.type then some ⟨false, frame, 0⟩
  else if message.payloadLength.toNat > protocolMaxPayloadLength then some ⟨false, frame, 0⟩
  else do
    let valid ← payloadIsValid message.payload.toList message.payloadLength
    if !valid then some ⟨false, frame, 0⟩
    else
      let bodyLength : UInt8 := UInt8.ofNat (protocolTypeLength + 1 + message.payloadLength.toNat)
      let requiredFrameLength := bodyLength.toNat + 8
      if bodyLength.toNat > protocolMaxBodySize ∨ size < requiredFrameLength then
        some ⟨false, frame, 0⟩
      else
        let (body, input) ← encodeBody message bodyLength
        let checksum ← protocolComputeChecksum input.toList (bodyLength.toNat + 3)
        encodeOutput frame body input bodyLength checksum

/-- The message after the call and the returned flag. -/
def protocolDecodeBody (body : List UInt8) (bodyLength : UInt8) (message : ProtocolMessage) :
    Option (ProtocolMessage × Bool) :=
  if bodyLength.toNat < protocolTypeLength + 1 ∨ bodyLength.toNat > protocolMaxBodySize then
    some (message, false)
  else do
    let separator ← body[protocolTypeLength]?
    if separator ≠ protocolSeparatorChar then some (message, false)
    else
      let letters ← load body protocolTypeLength
      let type ← protocolTypeFromText (letters ++ [0])
      if !protocolTypeIsValid type then some (message, false)
      else
        let payloadLength := bodyLength - 3 - 1
        let valid ← payloadIsValid (body.drop (protocolTypeLength + 1)) payloadLength
        if !valid then some (message, false)
        else
          let bytes ← load (body.drop (protocolTypeLength + 1)) payloadLength.toNat
          let stored ← memcpy message.payload 0 bytes
          let stored ← store stored payloadLength.toNat 0
          some (⟨type, stored, payloadLength⟩, true)

end CommandBox
