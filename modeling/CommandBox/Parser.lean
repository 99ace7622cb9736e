import CommandBox.Protocol
import CommandBox.Lib.Machine

/-! The incremental parser, from parser.h and parser.c, and `protocol_validate`,
which drives it over a buffer. -/
namespace CommandBox
open Memory

/-- `parser_state_t`; `other` is a value outside the enumerators, which only the
default branch of the state machine receives. -/
inductive ParserState where
  | waitStart | readLenHi | readLenLo | expectLenSeparator | readBody | expectCheckSeparator
  | readCheckHi | readCheckLo | expectEnd
  | other (raw : UInt32)
  deriving DecidableEq, Repr

inductive ParserResult where
  | inProgress | messageReady | error
  deriving DecidableEq, Repr

inductive ParserError where
  | none | format | length | body | checksum
  deriving DecidableEq, Repr

/-- `parser_t` -/
structure Parser where
  state : ParserState
  lengthField : Vector UInt8 3
  body : Vector UInt8 (protocolMaxBodySize + 1)
  checksumField : Vector UInt8 3
  expectedBodyLength : UInt8
  bodyIndex : UInt8
  lastError : ParserError
  deriving DecidableEq

def isHexDigit (byte : UInt8) : Bool :=
  if byte ≥ 0x30 ∧ byte ≤ 0x39 then true
  else if byte ≥ 0x41 ∧ byte ≤ 0x46 then true
  else false

def hexPairToValue (text : Vector UInt8 3) : UInt8 :=
  let hi := hexCharToNibble text[0]
  let lo := hexCharToNibble text[1]
  (UInt8.ofInt hi <<< 4) ||| UInt8.ofInt lo

def isBodyByteAllowed (byte : UInt8) : Bool :=
  if byte < 0x20 ∨ byte > 0x7E then false
  else if byte = protocolStartChar then false
  else true

def parserReset (parser : Parser) : Parser where
  state := .waitStart
  lengthField := #v[0, 0, 0]
  body := parser.body.set 0 0
  checksumField := #v[0, 0, 0]
  expectedBodyLength := 0
  bodyIndex := 0
  lastError := .none

def blankParser : Parser where
  state := .waitStart
  lengthField := #v[0, 0, 0]
  body := Vector.replicate (protocolMaxBodySize + 1) 0
  checksumField := #v[0, 0, 0]
  expectedBodyLength := 0
  bodyIndex := 0
  lastError := .none

/-- Initialising an object with arbitrary contents. -/
def parserInit (parser : Parser) : Parser := parserReset parser

def parserFail (parser : Parser) (byte : UInt8) (error : ParserError) : Parser × ParserResult :=
  let parser := { parserReset parser with lastError := error }
  if byte = protocolStartChar then ({ parser with state := .readLenHi }, .error)
  else (parser, .error)

/-- The parser and the message after one byte, and the returned result. -/
structure Consumed where
  parser : Parser
  message : ProtocolMessage
  result : ParserResult
  deriving DecidableEq

/-- The exits of `parser_consume_byte` that leave the output message alone. -/
def Consumed.keep (message : ProtocolMessage) (r : Parser × ParserResult) : Consumed :=
  ⟨r.1, message, r.2⟩

/-- `PARSER_STATE_EXPECT_END` on the line feed: check the frame and decode it. The
local `checksum_input` starts uninitialised, here zero, and is filled before it is read. -/
def parserFinish (parser : Parser) (message : ProtocolMessage) : Option Consumed := do
  let input := Vector.replicate (3 + protocolMaxBodySize) (0 : UInt8)
  let input ← store input 0 parser.lengthField[0]
  let input ← store input 1 parser.lengthField[1]
  let input ← store input 2 protocolSeparatorChar
  let bytes ← load parser.body.toList parser.expectedBodyLength.toNat
  let input ← memcpy input 3 bytes
  let receivedChecksum := hexPairToValue parser.checksumField
  let computedChecksum ←
    protocolComputeChecksum input.toList (parser.expectedBodyLength.toNat + 3)
  if receivedChecksum ≠ computedChecksum then
    some ⟨{ parserReset parser with lastError := .checksum }, message, .error⟩
  else
    let (decoded, valid) ←
      protocolDecodeBody parser.body.toList parser.expectedBodyLength message
    if !valid then some ⟨{ parserReset parser with lastError := .body }, decoded, .error⟩
    else some ⟨parserReset parser, decoded, .messageReady⟩

def parserConsumeByte (parser : Parser) (byte : UInt8) (message : ProtocolMessage) :
    Option Consumed :=
  if byte = 0x0D ∧ parser.state = .expectEnd then some ⟨parser, message, .inProgress⟩
  else match parser.state with
  | .waitStart =>
    if byte = protocolStartChar then
      some ⟨{ parserReset parser with state := .readLenHi }, message, .inProgress⟩
    else some ⟨parser, message, .inProgress⟩
  | .readLenHi =>
    if !isHexDigit byte then some (.keep message (parserFail parser byte .format))
    else some ⟨{ parser with lengthField := parser.lengthField.set 0 byte, state := .readLenLo },
      message, .inProgress⟩
  | .readLenLo =>
    if !isHexDigit byte then some (.keep message (parserFail parser byte .format))
    else
      let lengthField := (parser.lengthField.set 1 byte).set 2 0
      let parser := { parser with
        lengthField := lengthField, expectedBodyLength := hexPairToValue lengthField }
      if parser.expectedBodyLength.toNat < protocolTypeLength + 1 then
        some (.keep message (parserFail parser byte .length))
      else if parser.expectedBodyLength.toNat > protocolMaxBodySize then
        some (.keep message (parserFail parser byte .length))
      else some ⟨{ parser with state := .expectLenSeparator }, message, .inProgress⟩
  | .expectLenSeparator =>
    if byte ≠ protocolSeparatorChar then some (.keep message (parserFail parser byte .format))
    else some ⟨{ parser with bodyIndex := 0, state := .readBody }, message, .inProgress⟩
  | .readBody =>
    if !isBodyByteAllowed byte then some (.keep message (parserFail parser byte .body))
    else if parser.bodyIndex.toNat ≥ protocolMaxBodySize then
      some (.keep message (parserFail parser byte .length))
    else do
      let body ← store parser.body parser.bodyIndex.toNat byte
      let parser := { parser with body := body, bodyIndex := parser.bodyIndex + 1 }
      if parser.bodyIndex = parser.expectedBodyLength then
        let body ← store parser.body parser.bodyIndex.toNat 0
        some ⟨{ parser with body := body, state := .expectCheckSeparator }, message, .inProgress⟩
      else some ⟨parser, message, .inProgress⟩
  | .expectCheckSeparator =>
    if byte ≠ protocolSeparatorChar then some (.keep message (parserFail parser byte .format))
    else some ⟨{ parser with state := .readCheckHi }, message, .inProgress⟩
  | .readCheckHi =>
    if !isHexDigit byte then some (.keep message (parserFail parser byte .format))
    else some ⟨{ parser with checksumField := parser.checksumField.set 0 byte,
                             state := .readCheckLo }, message, .inProgress⟩
  | .readCheckLo =>
    if !isHexDigit byte then some (.keep message (parserFail parser byte .format))
    else some ⟨{ parser with checksumField := (parser.checksumField.set 1 byte).set 2 0,
                             state := .expectEnd }, message, .inProgress⟩
  | .expectEnd =>
    if byte ≠ protocolEndChar then some (.keep message (parserFail parser byte .format))
    else parserFinish parser message
  | .other _ => some ⟨{ parserReset parser with lastError := .format }, message, .error⟩

/-- What the caller sees of one call: the result and its message after the call. -/
structure Reply where
  result : ParserResult
  message : ProtocolMessage
  deriving DecidableEq

/-- One call on a parser and a message that live across calls. -/
def consume (s : Parser × ProtocolMessage) (byte : UInt8) :
    Option ((Parser × ProtocolMessage) × Reply) :=
  (parserConsumeByte s.1 byte s.2).map fun c => ((c.parser, c.message), ⟨c.result, c.message⟩)

/-- Feed a stream byte by byte: the final parser and message, and what each call did. -/
def feed (parser : Parser) (message : ProtocolMessage) (stream : List UInt8) :
    Option ((Parser × ProtocolMessage) × List Reply) :=
  Machine.run consume (parser, message) stream

/-- The loop of `protocol_validate`, which gives up at the first error. -/
def validateLoop (parser : Parser) (message : ProtocolMessage) :
    List UInt8 → Option (Option (Parser × ProtocolMessage))
  | [] => some (some (parser, message))
  | byte :: rest => do
    let c ← parserConsumeByte parser byte message
    if c.result = .error then some none else validateLoop c.parser c.message rest

/-- `parser` and `message` are the uninitialised locals of the source. -/
def protocolValidate (parser : Parser) (message : ProtocolMessage) (frame : List UInt8)
    (frameLen : Nat) : Option Int :=
  if frameLen = 0 ∨ frameLen > protocolMaxFrameSize - 2 then some (-1)
  else do
    let bytes ← load frame frameLen
    let c ← parserConsumeByte (parserInit parser) protocolStartChar message
    match ← validateLoop c.parser c.message bytes with
    | none => some (-1)
    | some (parser, message) =>
      let c ← parserConsumeByte parser protocolEndChar message
      some (if c.result = .messageReady then 0 else -1)

end CommandBox
