import CommandBox.Debounce
import CommandBox.Lib.Clock

/-! The board, from board_io.c: the millisecond time base with its ADC samples and the
debounce of the button, and the compare registers of the LED and the buzzer. -/
namespace CommandBox
open Clock

def adcSamplePeriodMs : UInt16 := 500
def adcMaxValue : UInt32 := 4095
def adcEocTimeoutLoops : Nat := 10000
def ledPwmArr : UInt32 := 999
def buzzerPwmArr : UInt32 := 499
def buzzerOnCcr : UInt32 := (buzzerPwmArr + 1) / 2

/-- What the ADC shows after the start of a conversion: its flag at each reading, and the 12
bits of its data register. -/
structure AdcConversion where
  eoc : Nat → Bool
  data : BitVec 12

/-- The statics of board_io.c and the two compare registers. `extiPoint` is where `exti1_isr`
is. -/
structure BoardIo where
  uptimeMs : UInt32
  adcRaw : UInt16
  adcTimeoutCount : UInt32
  adcElapsedMs : UInt16
  debounceActive : Bool
  debounceRemainingMs : UInt16
  extiPoint : IsrPoint
  ledCcr : UInt32
  buzzerCcr : UInt32
  deriving DecidableEq

/-- The loop of `adc_sample_once`: how often it has read the flag in the end. -/
def pollEoc (eoc : Nat → Bool) : Nat → Nat → Nat
  | 0, polls => polls + 1
  | remaining + 1, polls => if !eoc polls then pollEoc eoc remaining (polls + 1) else polls + 1

namespace BoardIo

def adcSampleOnce (board : BoardIo) (conversion : AdcConversion) : BoardIo × Bool :=
  let polls := pollEoc conversion.eoc adcEocTimeoutLoops 0
  if !conversion.eoc polls then
    ({ board with adcTimeoutCount := board.adcTimeoutCount + 1 }, false)
  else ({ board with adcRaw := conversion.data.toNat.toUInt16 }, true)

/-- `board_io_init`, with the first conversion of `adc_setup`. -/
def boardIoInit (first : AdcConversion) : BoardIo :=
  (adcSampleOnce ⟨0, 0, 0, 0, false, 0, .idle, 0, 0⟩ first).1

def boardIoGetParam (board : BoardIo) : UInt8 :=
  (board.adcRaw.toUInt32 * 255 / adcMaxValue).toUInt8

def boardIoSetLedDuty (board : BoardIo) (dutyPercent : UInt8) : BoardIo :=
  let dutyPercent := if dutyPercent > 100 then 100 else dutyPercent
  { board with ledCcr := dutyPercent.toUInt32 * (ledPwmArr + 1) / 100 }

def boardIoSetBuzzer (board : BoardIo) (on : Bool) : BoardIo :=
  { board with buzzerCcr := if on then buzzerOnCcr else 0 }

/-- The edge is taken where `exti1_isr` is not running. -/
def risingEdge (board : BoardIo) : Option BoardIo :=
  if board.extiPoint = .idle then some { board with extiPoint := .resetRequest } else none

/-- The next statement of `exti1_isr`. -/
def exti1Isr (board : BoardIo) : Option BoardIo :=
  match board.extiPoint with
  | .idle => none
  | .resetRequest => some { board with extiPoint := .testActive }
  | .testActive =>
    some { board with extiPoint := if !board.debounceActive then .setActive else .idle }
  | .setActive => some { board with debounceActive := true, extiPoint := .setRemaining }
  | .setRemaining =>
    some { board with debounceRemainingMs := buttonDebounceMs, extiPoint := .idle }

/-- The part of `tim3_isr` for the ADC, and what it sampled if it did: a value, or nothing in
the time it waits. -/
def adcPeriod (board : BoardIo) (conversion : AdcConversion) : BoardIo × Option (Option UInt16) :=
  let board := { board with adcElapsedMs := board.adcElapsedMs + 1 }
  if board.adcElapsedMs ≥ adcSamplePeriodMs then
    let (board, success) := adcSampleOnce { board with adcElapsedMs := 0 } conversion
    (board, some (if success then some board.adcRaw else none))
  else (board, none)

/-- The part of `tim3_isr` for the button; the flag says that a press was confirmed. -/
def debounce (board : BoardIo) (pinHigh : Bool) : BoardIo × Bool :=
  if board.debounceActive then
    let board := { board with debounceRemainingMs :=
      if board.debounceRemainingMs > 0 then board.debounceRemainingMs - 1
      else board.debounceRemainingMs }
    if board.debounceRemainingMs = 0 then ({ board with debounceActive := false }, pinHigh)
    else (board, false)
  else (board, false)

/-- What a run of `tim3_isr` did: the statement of `exti1_isr` it came before, the sample of
the ADC, and the time stamp of a confirmed press. -/
structure TimerEvent where
  interrupted : IsrPoint
  sampled : Option (Option UInt16)
  pressed : Option UInt32
  deriving DecidableEq

/-- A run of `tim3_isr` with its flag set, up to the sending of the button event. -/
def tim3Isr (board : BoardIo) (pinHigh : Bool) (conversion : AdcConversion) : BoardIo × TimerEvent :=
  let interrupted := board.extiPoint
  let board := { board with uptimeMs := board.uptimeMs + 1 }
  let (board, sampled) := adcPeriod board conversion
  let (board, confirmed) := debounce board pinHigh
  (board, ⟨interrupted, sampled, if confirmed then some board.uptimeMs else none⟩)

end BoardIo

inductive BoardAction where
  | risingEdge
  | exti1
  | tim3 (pinHigh : Bool) (conversion : AdcConversion)
  | setLedDuty (dutyPercent : UInt8)
  | setBuzzer (on : Bool)

namespace BoardIo

/-- The event of a step is that of `tim3_isr`, if it ran. -/
def step (board : BoardIo) : BoardAction → Option (BoardIo × Option TimerEvent)
  | .risingEdge => board.risingEdge.map fun board => (board, none)
  | .exti1 => board.exti1Isr.map fun board => (board, none)
  | .tim3 pinHigh conversion =>
    let r := board.tim3Isr pinHigh conversion
    some (r.1, some r.2)
  | .setLedDuty dutyPercent => some (board.boardIoSetLedDuty dutyPercent, none)
  | .setBuzzer on => some (board.boardIoSetBuzzer on, none)

end BoardIo

end CommandBox
