import CommandBox.Protocol

/-! The command box, from command_box.h and command_box.c: one pending mode change at a
time, its retries, and the replies to messages of the other side. -/
namespace CommandBox
open Memory

def ackRetryPeriodMs : UInt32 := 500
def ackMaxRetries : UInt8 := 5

/-- `cbox_mode_t`; `modeCount` and `other` are the values from `CBOX_MODE_COUNT` on. -/
inductive CboxMode where
  | modePatrol | modeStop | modeDeploy | modeReturn | modeCount
  | other (raw : UInt32)
  deriving DecidableEq, Repr

def CboxMode.value : CboxMode → UInt32
  | .modePatrol => 0
  | .modeStop => 1
  | .modeDeploy => 2
  | .modeReturn => 3
  | .modeCount => 4
  | .other raw => raw

def CboxMode.ofValue (v : UInt32) : CboxMode :=
  if v = 0 then .modePatrol
  else if v = 1 then .modeStop
  else if v = 2 then .modeDeploy
  else if v = 3 then .modeReturn
  else if v = 4 then .modeCount
  else .other v

/-- A string literal of the source, with its terminator. -/
def literal (text : String) : List UInt8 := ascii text ++ [0]

def cboxModeToEvtPayload : CboxMode → List UInt8
  | .modePatrol => literal "cmd_patrol"
  | .modeStop => literal "cmd_stop"
  | .modeDeploy => literal "cmd_deploy"
  | .modeReturn => literal "cmd_return"
  | _ => literal ""

def cboxModeToStsPayload : CboxMode → List UInt8
  | .modePatrol => literal "mode=PATROL"
  | .modeStop => literal "mode=STOP"
  | .modeDeploy => literal "mode=DEPLOY"
  | .modeReturn => literal "mode=STOP"
  | _ => literal ""

/-- The decimal digits of `%03u`. -/
def threeDigits (v : Nat) : List UInt8 :=
  let digits := (Nat.toDigits 10 v).map fun c => UInt8.ofNat c.toNat
  List.replicate (3 - digits.length) 0x30 ++ digits

/-- `cbox_t`; `send` says whether the callback is set, its context is opaque. -/
structure Cbox where
  mode : CboxMode
  ackPending : Bool
  pendingEvt : Vector UInt8 13
  ackDeadlineMs : UInt32
  retriesLeft : UInt8
  modeChanges : UInt32
  ackTimeouts : UInt32
  ignoredButtonPresses : UInt32
  send : Bool
  deriving DecidableEq

/-- One call of the callback: the type and the text behind the payload pointer. -/
structure Emission where
  type : ProtocolType
  payload : List UInt8
  deriving DecidableEq

def cboxInit (send : Bool) : Cbox where
  mode := .modeStop
  ackPending := false
  pendingEvt := Vector.replicate 13 0
  ackDeadlineMs := 0
  retriesLeft := 0
  modeChanges := 0
  ackTimeouts := 0
  ignoredButtonPresses := 0
  send := send

def cboxEmit (box : Cbox) (type : ProtocolType) (payload : List UInt8) : Option (List Emission) :=
  if box.send then (cstring payload).map fun text => [⟨type, text⟩] else some []

/-- The box, the returned flag and the emissions. -/
def cboxOnButton (box : Cbox) (paramValue : UInt8) (nowMs : UInt32) :
    Option (Cbox × Bool × List Emission) :=
  if box.ackPending then
    some ({ box with ignoredButtonPresses := box.ignoredButtonPresses + 1 }, false, [])
  else do
    let box := { box with
      mode := .ofValue ((box.mode.value + 1) % CboxMode.modeCount.value)
      modeChanges := box.modeChanges + 1 }
    let datPayload ← snprintf (Vector.replicate 13 0) (ascii "param=" ++ threeDigits paramValue.toNat)
    let evt ← cboxEmit box .evt (cboxModeToEvtPayload box.mode)
    let sts ← cboxEmit box .sts (cboxModeToStsPayload box.mode)
    let dat ← cboxEmit box .dat datPayload.toList
    let text ← cstring (cboxModeToEvtPayload box.mode)
    let pendingEvt ← snprintf box.pendingEvt text
    some ({ box with
      pendingEvt := pendingEvt
      ackPending := true
      retriesLeft := ackMaxRetries
      ackDeadlineMs := nowMs + ackRetryPeriodMs }, true, evt ++ sts ++ dat)

def cboxOnMessage (box : Cbox) (message : ProtocolMessage) (_nowMs : UInt32) :
    Option (Cbox × List Emission) :=
  match message.type with
  | .ack =>
    if box.ackPending then do
      if ← streq message.payload.toList (literal "ok") then some ({ box with ackPending := false }, [])
      else some (box, [])
    else some (box, [])
  | .cmd | .dat | .evt | .sts => (cboxEmit box .ack (literal "ok")).map fun out => (box, out)
  | _ => some (box, [])

def cboxOnTick (box : Cbox) (nowMs : UInt32) : Option (Cbox × List Emission) :=
  if !box.ackPending then some (box, [])
  else if (nowMs - box.ackDeadlineMs).toInt32 < 0 then some (box, [])
  else if box.retriesLeft > 0 then do
    let out ← cboxEmit box .evt box.pendingEvt.toList
    some ({ box with
      retriesLeft := box.retriesLeft - 1
      ackDeadlineMs := nowMs + ackRetryPeriodMs }, out)
  else do
    let out ← cboxEmit box .err (literal "timeout")
    some ({ box with ackPending := false, ackTimeouts := box.ackTimeouts + 1 }, out)

inductive Call where
  | button (paramValue : UInt8) (nowMs : UInt32)
  | message (message : ProtocolMessage) (nowMs : UInt32)
  | tick (nowMs : UInt32)
  deriving DecidableEq

/-- A call with what came of it; `accepted` is the flag `cbox_on_button` returns. -/
structure Observed where
  call : Call
  accepted : Bool
  emitted : List Emission
  deriving DecidableEq

def cboxCall (box : Cbox) (call : Call) : Option (Cbox × Observed) :=
  match call with
  | .button paramValue nowMs =>
    (cboxOnButton box paramValue nowMs).map fun r => (r.1, ⟨call, r.2.1, r.2.2⟩)
  | .message message nowMs =>
    (cboxOnMessage box message nowMs).map fun r => (r.1, ⟨call, false, r.2⟩)
  | .tick nowMs => (cboxOnTick box nowMs).map fun r => (r.1, ⟨call, false, r.2⟩)

end CommandBox
