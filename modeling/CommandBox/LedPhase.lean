import CommandBox.Signals
import CommandBox.Lib.Clock

/-! The phase of the LED patterns. The code takes the phase from a 32-bit difference, so
each wrap of the counter since the mode entry sets it back by 2^32 modulo the period. -/
namespace CommandBox
open Clock

/-- The pattern of a mode, `elapsed` milliseconds after its entry. -/
def PatternLit (mode : CboxMode) (elapsed : Nat) : Prop :=
  match mode with
  | .modeStop => True
  | .modePatrol => elapsed % 1000 < 500
  | .modeDeploy => elapsed % 250 < 125
  | .modeReturn => elapsed % 1000 < 100 ∨ (200 ≤ elapsed % 1000 ∧ elapsed % 1000 < 300)
  | _ => False

instance : (mode : CboxMode) → (elapsed : Nat) → Decidable (PatternLit mode elapsed)
  | .modeStop, _ => inferInstanceAs (Decidable True)
  | .modePatrol, _ | .modeDeploy, _ => inferInstanceAs (Decidable (_ < _))
  | .modeReturn, _ => inferInstanceAs (Decidable (_ ∨ _))
  | .modeCount, _ | .other _, _ => inferInstanceAs (Decidable False)

def patternPeriod : CboxMode → Nat
  | .modePatrol | .modeReturn => 1000
  | .modeDeploy => 250
  | _ => 1

/-- How far the counter's wraps since the entry have set the phase back. -/
def phaseLag (mode : CboxMode) (elapsed : Nat) : Nat :=
  elapsed / 2 ^ 32 * (2 ^ 32 % patternPeriod mode) % patternPeriod mode

theorem ledPattern_lit (mode : CboxMode) (phase : UInt32) :
    ledPatternIsOn mode phase = decide (PatternLit mode phase.toNat) := by
  cases mode with
  | modePatrol =>
    have value : (phase % (2 * patternPatrolHalfMs)).toNat = phase.toNat % 1000 := UInt32.toNat_mod _ _
    have half : patternPatrolHalfMs.toNat = 500 := rfl
    simp only [ledPatternIsOn, PatternLit, UInt32.lt_iff_toNat_lt, value, half]
    exact decide_eq_decide.mpr Iff.rfl
  | modeStop => rfl
  | modeDeploy =>
    have value : (phase % (2 * patternDeployHalfMs)).toNat = phase.toNat % 250 := UInt32.toNat_mod _ _
    have half : patternDeployHalfMs.toNat = 125 := rfl
    simp only [ledPatternIsOn, PatternLit, UInt32.lt_iff_toNat_lt, value, half]
    exact decide_eq_decide.mpr Iff.rfl
  | modeReturn =>
    have value : (phase % (3 * patternReturnFlashMs + patternReturnPauseMs)).toNat =
        phase.toNat % 1000 := UInt32.toNat_mod _ _
    have one : patternReturnFlashMs.toNat = 100 := rfl
    have two : (2 * patternReturnFlashMs).toNat = 200 := rfl
    have three : (3 * patternReturnFlashMs).toNat = 300 := rfl
    simp only [ledPatternIsOn, PatternLit, UInt32.lt_iff_toNat_lt, value, one, two, three]
    grind
  | modeCount | other raw => rfl

theorem lit_wrapped (mode : CboxMode) (elapsed : Nat) :
    PatternLit mode (elapsed % 2 ^ 32) ↔
      PatternLit mode (elapsed + (patternPeriod mode - phaseLag mode elapsed)) := by
  cases mode with
  | modeStop | modeCount | other raw => rfl
  | modePatrol =>
    have same : elapsed % 2 ^ 32 % 1000 =
        (elapsed + (1000 - elapsed / 2 ^ 32 * (2 ^ 32 % 1000) % 1000)) % 1000 := by omega
    simp only [PatternLit, same, phaseLag, patternPeriod]
  | modeDeploy =>
    have same : elapsed % 2 ^ 32 % 250 =
        (elapsed + (250 - elapsed / 2 ^ 32 * (2 ^ 32 % 250) % 250)) % 250 := by omega
    simp only [PatternLit, same, phaseLag, patternPeriod]
  | modeReturn =>
    have same : elapsed % 2 ^ 32 % 1000 =
        (elapsed + (1000 - elapsed / 2 ^ 32 * (2 ^ 32 % 1000) % 1000)) % 1000 := by omega
    simp only [PatternLit, same, phaseLag, patternPeriod]

theorem ticks_pattern (signals : Signals) (later : List UInt32) :
    (runSignals signals (later.map .tick)).1.mode = signals.mode ∧
      (runSignals signals (later.map .tick)).1.patternStartMs = signals.patternStartMs := by
  induction later generalizing signals with
  | nil => exact ⟨rfl, rfl⟩
  | cons nowMs later ih =>
    have kept := beepTick_kept signals nowMs
    have tail := ih (beepTick signals nowMs)
    exact ⟨tail.1.trans kept.1, tail.2.trans kept.2.1⟩

/-- The state when the pattern of the last entry has run for some ticks. -/
def ledState (setBuzzer : Bool) (before : List SignalsCall) (mode : CboxMode) (start : Nat)
    (later : List UInt32) : Signals :=
  (runSignals (signalsInit true setBuzzer)
    (before ++ .enterMode mode (stamp start) :: later.map .tick)).1

theorem ledState_fields (setBuzzer : Bool) (before : List SignalsCall) (mode : CboxMode)
    (start : Nat) (later : List UInt32) :
    (ledState setBuzzer before mode start later).mode = mode ∧
      (ledState setBuzzer before mode start later).patternStartMs = stamp start ∧
      (ledState setBuzzer before mode start later).setLed = true := by
  have callbacks := run_callbacks (signalsInit true setBuzzer)
    (before ++ .enterMode mode (stamp start) :: later.map .tick)
  have pattern := ticks_pattern
    (signalsEnterMode (runSignals (signalsInit true setBuzzer) before).1 mode (stamp start)) later
  have state : ledState setBuzzer before mode start later = (runSignals (signalsEnterMode
      (runSignals (signalsInit true setBuzzer) before).1 mode (stamp start)) (later.map .tick)).1 := by
    simp only [ledState, runSignals, Machine.trace_append, Machine.trace_cons, signalsCall]
  rw [state]
  exact ⟨pattern.1, pattern.2, state ▸ callbacks.1⟩

theorem led_duty (setBuzzer : Bool) (before : List SignalsCall) (mode : CboxMode) (start now : Nat)
    (later : List UInt32) (order : start ≤ now) :
    (signalsTick (ledState setBuzzer before mode start later) (stamp now)).2.led =
      some (if PatternLit mode ((now - start) % 2 ^ 32) then ledOnDutyPercent else 0) := by
  obtain ⟨current, began, set⟩ := ledState_fields setBuzzer before mode start later
  simp only [signalsTick, current, began, set, ledPattern_lit, elapsed_mod order, if_true,
    decide_eq_true_eq]

/-- Until the counter has gone round once since the entry there is no lag. -/
theorem led_first_round (setBuzzer : Bool) (before : List SignalsCall) (mode : CboxMode)
    (start now : Nat) (later : List UInt32) (order : start ≤ now) (near : now < start + 2 ^ 32) :
    (signalsTick (ledState setBuzzer before mode start later) (stamp now)).2.led =
      some (if PatternLit mode (now - start) then ledOnDutyPercent else 0) := by
  rw [led_duty setBuzzer before mode start now later order, Nat.mod_eq_of_lt (by omega)]

/-- The LED shows the pattern of the elapsed time if and only if the lag that the wraps have
left does not change its half of the period. -/
theorem led_shows_pattern (setBuzzer : Bool) (before : List SignalsCall) (mode : CboxMode)
    (start now : Nat) (later : List UInt32) (order : start ≤ now) :
    (signalsTick (ledState setBuzzer before mode start later) (stamp now)).2.led =
        some (if PatternLit mode (now - start) then ledOnDutyPercent else 0) ↔
      (PatternLit mode (now - start) ↔ PatternLit mode
        (now - start + (patternPeriod mode - phaseLag mode (now - start)))) := by
  have lit : ledOnDutyPercent ≠ 0 := by decide
  rw [led_duty setBuzzer before mode start now later order, ← lit_wrapped, Option.some.injEq]
  by_cases there : PatternLit mode (now - start)
  · rw [if_pos there, iff_true_left there]
    by_cases here : PatternLit mode ((now - start) % 2 ^ 32)
    · rw [if_pos here]
      exact iff_of_true rfl here
    · rw [if_neg here]
      exact iff_of_false lit.symm here
  · rw [if_neg there, iff_false_left there]
    by_cases here : PatternLit mode ((now - start) % 2 ^ 32)
    · rw [if_pos here]
      exact iff_of_false lit (not_not.mpr here)
    · rw [if_neg here]
      exact iff_of_true rfl here

theorem led_shows_pattern_patrol :
    (signalsTick (ledState true [] .modePatrol 100 []) (stamp 700)).2.led =
        some (if PatternLit .modePatrol (700 - 100) then ledOnDutyPercent else 0) ↔
      (PatternLit .modePatrol (700 - 100) ↔ PatternLit .modePatrol
        (700 - 100 + (patternPeriod .modePatrol - phaseLag .modePatrol (700 - 100)))) :=
  led_shows_pattern true [] .modePatrol 100 700 [] (by decide)

/-- One wrap and 300 ms after the entry the true phase is 596 ms, and the LED should be dark. -/
theorem led_wrap_loses_phase :
    ¬ ∀ setBuzzer before mode start now later, start ≤ now →
      (signalsTick (ledState setBuzzer before mode start later) (stamp now)).2.led =
        some (if PatternLit mode (now - start) then ledOnDutyPercent else 0) := by
  intro h
  have claimed := h true [] .modePatrol 0 (2 ^ 32 + 300) [] (by decide)
  have shown : (signalsTick (ledState true [] .modePatrol 0 []) (stamp (2 ^ 32 + 300))).2.led =
      some ledOnDutyPercent := by decide +kernel
  rw [shown] at claimed
  exact absurd claimed (by decide +kernel)

end CommandBox
