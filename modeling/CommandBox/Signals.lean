import CommandBox.Box
import CommandBox.Lib.Machine

/-! The signals of the box, from signals.h and signals.c: the LED pattern of the current
mode and the beep code of the last mode entry, both driven by ticks. -/
namespace CommandBox

def beepOnMs : UInt32 := 120
def beepOffMs : UInt32 := 120
def patternPatrolHalfMs : UInt32 := 500
def patternDeployHalfMs : UInt32 := 125
def patternReturnFlashMs : UInt32 := 100
def patternReturnPauseMs : UInt32 := 700
def ledOnDutyPercent : UInt8 := 100

def cboxModeBeepCount : CboxMode → UInt8
  | .modePatrol => 1
  | .modeStop => 2
  | .modeDeploy => 3
  | .modeReturn => 4
  | _ => 0

/-- `signals_t`; `setLed` and `setBuzzer` say whether the callbacks are set, their context
is opaque. -/
structure Signals where
  mode : CboxMode
  patternStartMs : UInt32
  beepsRemaining : UInt8
  beepOn : Bool
  beepEdgeMs : UInt32
  setLed : Bool
  setBuzzer : Bool
  deriving DecidableEq

/-- The values a tick passes to the callbacks that are set. -/
structure SignalsOutput where
  led : Option UInt8
  buzzer : Option Bool
  deriving DecidableEq

def signalsInit (setLed setBuzzer : Bool) : Signals where
  mode := .modeStop
  patternStartMs := 0
  beepsRemaining := 0
  beepOn := false
  beepEdgeMs := 0
  setLed := setLed
  setBuzzer := setBuzzer

def signalsEnterMode (signals : Signals) (mode : CboxMode) (nowMs : UInt32) : Signals :=
  { signals with
    mode := mode
    patternStartMs := nowMs
    beepsRemaining := cboxModeBeepCount mode
    beepOn := cboxModeBeepCount mode > 0
    beepEdgeMs := nowMs + beepOnMs }

def ledPatternIsOn (mode : CboxMode) (phaseMs : UInt32) : Bool :=
  match mode with
  | .modePatrol => phaseMs % (2 * patternPatrolHalfMs) < patternPatrolHalfMs
  | .modeStop => true
  | .modeDeploy => phaseMs % (2 * patternDeployHalfMs) < patternDeployHalfMs
  | .modeReturn =>
    let f := patternReturnFlashMs
    let phaseMs := phaseMs % (3 * f + patternReturnPauseMs)
    if phaseMs < f then true
    else if phaseMs < 2 * f then false
    else if phaseMs < 3 * f then true
    else false
  | _ => false

/-- The part of `signals_tick` that moves the beep code. -/
def beepTick (signals : Signals) (nowMs : UInt32) : Signals :=
  if signals.beepsRemaining > 0 then
    if (nowMs - signals.beepEdgeMs).toInt32 ≥ 0 then
      if signals.beepOn then
        { signals with
          beepOn := false
          beepsRemaining := signals.beepsRemaining - 1
          beepEdgeMs := nowMs + beepOffMs }
      else if signals.beepsRemaining > 0 then
        { signals with beepOn := true, beepEdgeMs := nowMs + beepOnMs }
      else signals
    else signals
  else signals

def signalsTick (signals : Signals) (nowMs : UInt32) : Signals × SignalsOutput :=
  let ledOn := ledPatternIsOn signals.mode (nowMs - signals.patternStartMs)
  let led := if signals.setLed then some (if ledOn then ledOnDutyPercent else 0) else none
  let signals := beepTick signals nowMs
  let buzzer :=
    if signals.setBuzzer then some (decide (signals.beepsRemaining > 0) && signals.beepOn) else none
  (signals, ⟨led, buzzer⟩)

inductive SignalsCall where
  | enterMode (mode : CboxMode) (nowMs : UInt32)
  | tick (nowMs : UInt32)

def signalsCall (signals : Signals) : SignalsCall → Signals × SignalsOutput
  | .enterMode mode nowMs => (signalsEnterMode signals mode nowMs, ⟨none, none⟩)
  | .tick nowMs => signalsTick signals nowMs

/-- A history of calls: the state it leaves and what each call passed on. -/
def runSignals (signals : Signals) (calls : List SignalsCall) : Signals × List SignalsOutput :=
  Machine.trace signalsCall signals calls

theorem beepTick_kept (signals : Signals) (nowMs : UInt32) :
    (beepTick signals nowMs).mode = signals.mode ∧
      (beepTick signals nowMs).patternStartMs = signals.patternStartMs ∧
      (beepTick signals nowMs).setLed = signals.setLed ∧
      (beepTick signals nowMs).setBuzzer = signals.setBuzzer := by
  unfold beepTick
  repeat' split
  all_goals exact ⟨rfl, rfl, rfl, rfl⟩

theorem call_callbacks (signals : Signals) (call : SignalsCall) :
    (signalsCall signals call).1.setLed = signals.setLed ∧
      (signalsCall signals call).1.setBuzzer = signals.setBuzzer := by
  cases call with
  | enterMode mode nowMs => exact ⟨rfl, rfl⟩
  | tick nowMs => exact (beepTick_kept signals nowMs).2.2

theorem run_callbacks (signals : Signals) (calls : List SignalsCall) :
    (runSignals signals calls).1.setLed = signals.setLed ∧
      (runSignals signals calls).1.setBuzzer = signals.setBuzzer := by
  apply Machine.trace_invariant signalsCall
    (fun s => s.setLed = signals.setLed ∧ s.setBuzzer = signals.setBuzzer)
  · rintro s call ⟨led, buzzer⟩
    have kept := call_callbacks s call
    exact ⟨kept.1.trans led, kept.2.trans buzzer⟩
  · exact ⟨rfl, rfl⟩

end CommandBox
