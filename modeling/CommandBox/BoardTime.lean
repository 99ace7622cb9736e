import CommandBox.BoardIo

/-! The time base of the board over its runs: the uptime, the period of the ADC samples and
what is kept of them, whatever the interrupts and the tasks do in between. -/
namespace CommandBox
open Clock Machine

/-- The value of a conversion, if the flag is up when the waiting ends. -/
def AdcConversion.sampled (conversion : AdcConversion) : Option UInt16 :=
  if conversion.eoc (pollEoc conversion.eoc adcEocTimeoutLoops 0) then
    some conversion.data.toNat.toUInt16
  else none

/-- The polling ends, whatever the ADC does, and early only because the flag is up. -/
theorem pollEoc_bounds (eoc : Nat → Bool) (remaining polls : Nat) :
    polls < pollEoc eoc remaining polls ∧ pollEoc eoc remaining polls ≤ polls + remaining + 1 ∧
      (pollEoc eoc remaining polls ≤ polls + remaining →
        eoc (pollEoc eoc remaining polls - 1) = true) := by
  induction remaining generalizing polls with
  | zero =>
    refine ⟨Nat.lt_succ_self polls, Nat.le_refl _, ?_⟩
    intro early
    simp only [pollEoc] at early
    omega
  | succ remaining ih =>
    unfold pollEoc
    obtain ⟨more, most, up⟩ := ih (polls + 1)
    split
    · refine ⟨by omega, by omega, ?_⟩
      intro early
      exact up (by omega)
    · rename_i on
      refine ⟨by omega, by omega, ?_⟩
      intro _
      simpa using on

theorem flag_stays {eoc : Nat → Bool} (stays : ∀ n, eoc n = true → eoc (n + 1) = true) {m n : Nat}
    (order : m ≤ n) (up : eoc m = true) : eoc n = true := by
  induction order with
  | refl => exact up
  | step _ ih => exact stays _ ih

/-- A flag that stays up until the data is read: the sample is taken if and only if the
conversion has ended by the last reading that the loop can make. -/
theorem sampled_iff {conversion : AdcConversion}
    (stays : ∀ n, conversion.eoc n = true → conversion.eoc (n + 1) = true) :
    conversion.sampled.isSome = conversion.eoc (adcEocTimeoutLoops + 1) := by
  obtain ⟨_, most, up⟩ := pollEoc_bounds conversion.eoc adcEocTimeoutLoops 0
  have last : conversion.sampled.isSome =
      conversion.eoc (pollEoc conversion.eoc adcEocTimeoutLoops 0) := by
    unfold AdcConversion.sampled
    split <;> simp_all
  rw [last]
  rw [Nat.zero_add] at most up
  rcases Nat.eq_or_lt_of_le most with whole | early
  · rw [whole]
  · have ended := up (Nat.le_of_lt_succ early)
    rw [flag_stays stays (Nat.sub_le _ 1) ended]
    exact (flag_stays stays (by omega) ended).symm

/-- The runs of `tim3_isr` in a history. -/
def timerRuns (events : List (Option BoardIo.TimerEvent)) : List BoardIo.TimerEvent :=
  events.filterMap id

theorem timerRuns_other (events : List (Option BoardIo.TimerEvent)) :
    timerRuns (events ++ [none]) = timerRuns events := by
  simp [timerRuns]

theorem timerRuns_timer (events : List (Option BoardIo.TimerEvent)) (e : BoardIo.TimerEvent) :
    timerRuns (events ++ [some e]) = timerRuns events ++ [e] := by
  simp [timerRuns]

/-- All samples so far, with the one of `adc_setup` in front. -/
def adcSamples (first : AdcConversion) (runs : List BoardIo.TimerEvent) : List (Option UInt16) :=
  first.sampled :: runs.filterMap BoardIo.TimerEvent.sampled

namespace BoardIo

/-- The raw value and the count of timeouts after some samples. -/
def Sampled (board : BoardIo) (samples : List (Option UInt16)) : Prop :=
  board.adcRaw = (samples.filterMap id).getLast?.getD 0 ∧ board.adcRaw.toNat ≤ 4095 ∧
    board.adcTimeoutCount = stamp (samples.count none)

theorem sampled_range {conversion : AdcConversion} {raw : UInt16}
    (taken : conversion.sampled = some raw) : raw.toNat ≤ 4095 := by
  unfold AdcConversion.sampled at taken
  split at taken
  · cases taken
    have bits := conversion.data.isLt
    rw [Nat.toUInt16, UInt16.toNat_ofNat']
    omega
  · contradiction

/-- One more conversion: what it sampled is the next of the samples. -/
theorem sampleOnce_sampled {board : BoardIo} {samples : List (Option UInt16)}
    (h : Sampled board samples) (conversion : AdcConversion) :
    Sampled (adcSampleOnce board conversion).1 (samples ++ [conversion.sampled]) ∧
      (adcSampleOnce board conversion).2 = conversion.sampled.isSome ∧
      ∀ raw, conversion.sampled = some raw → (adcSampleOnce board conversion).1.adcRaw = raw := by
  obtain ⟨last, range, timeouts⟩ := h
  by_cases up : conversion.eoc (pollEoc conversion.eoc adcEocTimeoutLoops 0) = true
  · have taken : conversion.sampled = some conversion.data.toNat.toUInt16 := if_pos up
    have after : adcSampleOnce board conversion =
        ({ board with adcRaw := conversion.data.toNat.toUInt16 }, true) := by
      simp [adcSampleOnce, up]
    rw [taken, after]
    refine ⟨⟨?_, sampled_range taken, ?_⟩, rfl, fun raw same => Option.some.inj same⟩
    · simp
    · simpa using timeouts
  · have missed : conversion.sampled = none := if_neg up
    have after : adcSampleOnce board conversion =
        ({ board with adcTimeoutCount := board.adcTimeoutCount + 1 }, false) := by
      simp [adcSampleOnce, up]
    rw [missed, after]
    refine ⟨⟨?_, range, ?_⟩, rfl, fun raw same => by contradiction⟩
    · simpa using last
    · simp only [List.count_append, List.count_cons_self, List.count_nil, timeouts]
      exact stamp_add _ 1

theorem sampleOnce_kept (board : BoardIo) (conversion : AdcConversion) :
    (adcSampleOnce board conversion).1.uptimeMs = board.uptimeMs ∧
      (adcSampleOnce board conversion).1.adcElapsedMs = board.adcElapsedMs := by
  simp only [adcSampleOnce]
  split <;> exact ⟨rfl, rfl⟩

theorem debounce_kept (board : BoardIo) (pinHigh : Bool) :
    (debounce board pinHigh).1.uptimeMs = board.uptimeMs ∧
      (debounce board pinHigh).1.adcElapsedMs = board.adcElapsedMs ∧
      (debounce board pinHigh).1.adcRaw = board.adcRaw ∧
      (debounce board pinHigh).1.adcTimeoutCount = board.adcTimeoutCount := by
  simp only [debounce]
  repeat' split
  all_goals exact ⟨rfl, rfl, rfl, rfl⟩

/-- What the statics say of the conversions and the runs of `tim3_isr` so far: the uptime
counts the runs, every 500th of them samples, and a press has the uptime of its run. -/
structure Timed (first : AdcConversion) (board : BoardIo) (conversions : List AdcConversion)
    (runs : List TimerEvent) : Prop where
  uptime : board.uptimeMs = stamp runs.length
  elapsed : board.adcElapsedMs.toNat = runs.length % 500
  samples : Sampled board (adcSamples first runs)
  length : conversions.length = runs.length
  each : ∀ n conversion run, conversions[n]? = some conversion → runs[n]? = some run →
    run.sampled = (if (n + 1) % 500 = 0 then some conversion.sampled else none) ∧
      ∀ timestampMs, run.pressed = some timestampMs → timestampMs = stamp (n + 1)

theorem init_timed (first : AdcConversion) : Timed first (boardIoInit first) [] [] := by
  have reset : Sampled ⟨0, 0, 0, 0, false, 0, .idle, 0, 0⟩ [] := ⟨rfl, Nat.zero_le _, rfl⟩
  have kept := sampleOnce_kept ⟨0, 0, 0, 0, false, 0, .idle, 0, 0⟩ first
  constructor
  · exact kept.1
  · exact congrArg UInt16.toNat kept.2
  · exact (sampleOnce_sampled reset first).1
  · rfl
  · intro n conversion run there
    contradiction

/-- The part for the ADC counts to 500, and then samples. -/
theorem adcPeriod_timed (board : BoardIo) {samples : List (Option UInt16)} {n : Nat}
    (elapsed : board.adcElapsedMs.toNat = n % 500) (h : Sampled board samples)
    (conversion : AdcConversion) :
    (adcPeriod board conversion).1.adcElapsedMs.toNat = (n + 1) % 500 ∧
      (adcPeriod board conversion).1.uptimeMs = board.uptimeMs ∧
      Sampled (adcPeriod board conversion).1
        (samples ++ (adcPeriod board conversion).2.toList) ∧
      (adcPeriod board conversion).2 =
        if (n + 1) % 500 = 0 then some conversion.sampled else none := by
  have next : (board.adcElapsedMs + 1).toNat = board.adcElapsedMs.toNat + 1 := by
    rw [UInt16.toNat_add, UInt16.toNat_one]
    omega
  have period : adcSamplePeriodMs.toNat = 500 := rfl
  by_cases due : board.adcElapsedMs + 1 ≥ adcSamplePeriodMs
  · have whole := UInt16.le_iff_toNat_le.mp due
    have restarted : Sampled { board with adcElapsedMs := 0 } samples := h
    obtain ⟨sampled, success, value⟩ := sampleOnce_sampled restarted conversion
    have kept := sampleOnce_kept { board with adcElapsedMs := 0 } conversion
    have taken : (adcPeriod board conversion).2 = some conversion.sampled := by
      simp only [adcPeriod, if_pos due, success]
      cases raw : conversion.sampled with
      | none => rfl
      | some raw' => simp [value raw' raw]
    have after : (adcPeriod board conversion).1 =
        (adcSampleOnce { board with adcElapsedMs := 0 } conversion).1 := by
      simp only [adcPeriod, if_pos due]
    rw [taken, after]
    have zero : (0 : UInt16).toNat = 0 := rfl
    refine ⟨?_, kept.1, sampled, ?_⟩
    · rw [kept.2, zero]
      omega
    · rw [if_pos]
      omega
  · have short := mt UInt16.le_iff_toNat_le.mpr due
    have after : adcPeriod board conversion =
        ({ board with adcElapsedMs := board.adcElapsedMs + 1 }, none) := by
      simp only [adcPeriod, if_neg due]
    rw [after]
    refine ⟨?_, rfl, ?_, ?_⟩
    · simp only [next]
      omega
    · rw [Option.toList_none, List.append_nil]
      exact h
    · rw [if_neg]
      omega

theorem tim3_timed {first : AdcConversion} {board : BoardIo} {conversions : List AdcConversion}
    {runs : List TimerEvent} (h : Timed first board conversions runs) (pinHigh : Bool)
    (conversion : AdcConversion) :
    Timed first (board.tim3Isr pinHigh conversion).1 (conversions ++ [conversion])
      (runs ++ [(board.tim3Isr pinHigh conversion).2]) := by
  have counted : Sampled { board with uptimeMs := board.uptimeMs + 1 } (adcSamples first runs) :=
    h.samples
  obtain ⟨elapsed, uptime, samples, sampled⟩ :=
    adcPeriod_timed { board with uptimeMs := board.uptimeMs + 1 } h.elapsed counted conversion
  obtain ⟨uptime', elapsed', raw, timeouts⟩ := debounce_kept
    (adcPeriod { board with uptimeMs := board.uptimeMs + 1 } conversion).1 pinHigh
  have now : (board.tim3Isr pinHigh conversion).1.uptimeMs = stamp (runs.length + 1) := by
    rw [← stamp_add, ← h.uptime]
    exact uptime'.trans uptime
  constructor
  · rw [List.length_append]
    exact now
  · rw [List.length_append]
    exact (congrArg UInt16.toNat elapsed').trans elapsed
  · have list : adcSamples first (runs ++ [(board.tim3Isr pinHigh conversion).2]) =
        adcSamples first runs ++
          (adcPeriod { board with uptimeMs := board.uptimeMs + 1 } conversion).2.toList := by
      simp only [adcSamples, List.filterMap_append, List.cons_append, tim3Isr]
      cases (adcPeriod { board with uptimeMs := board.uptimeMs + 1 } conversion).2 <;> rfl
    rw [list]
    obtain ⟨last, range, count⟩ := samples
    exact ⟨raw.trans last, by rw [tim3Isr]; exact raw ▸ range, timeouts.trans count⟩
  · rw [List.length_append, List.length_append, h.length]
    rfl
  · intro n read run there ran
    rcases Nat.lt_trichotomy n runs.length with old | this | past
    · rw [List.getElem?_append_left (h.length ▸ old)] at there
      rw [List.getElem?_append_left old] at ran
      exact h.each n read run there ran
    · subst this
      rw [← h.length, List.getElem?_concat_length] at there
      rw [List.getElem?_concat_length] at ran
      cases there
      cases ran
      refine ⟨sampled, ?_⟩
      intro timestampMs pressed
      rw [← now]
      simp only [tim3Isr] at pressed
      split at pressed
      · exact (Option.some.inj pressed).symm
      · contradiction
    · rw [List.getElem?_eq_none (by simp; omega)] at ran
      contradiction

end BoardIo

/-- The conversion that a run of `tim3_isr` reads if it samples. -/
def BoardAction.conversion : BoardAction → Option AdcConversion
  | .tim3 _ conversion => some conversion
  | _ => none

namespace BoardIo

/-- No other step touches these statics. -/
theorem other_timed {first : AdcConversion} {board board' : BoardIo} {read : List BoardAction}
    {past : List (Option TimerEvent)} {action : BoardAction}
    (h : Timed first board (read.filterMap BoardAction.conversion) (timerRuns past))
    (quiet : action.conversion = none) (uptime : board'.uptimeMs = board.uptimeMs)
    (elapsed : board'.adcElapsedMs = board.adcElapsedMs) (raw : board'.adcRaw = board.adcRaw)
    (timeouts : board'.adcTimeoutCount = board.adcTimeoutCount) :
    Timed first board' ((read ++ [action]).filterMap BoardAction.conversion)
      (timerRuns (past ++ [none])) := by
  have none_read : [action].filterMap BoardAction.conversion = [] :=
    List.filterMap_cons_none quiet
  rw [List.filterMap_append, none_read, List.append_nil, timerRuns_other]
  obtain ⟨last, range, count⟩ := h.samples
  exact ⟨uptime.trans h.uptime, elapsed ▸ h.elapsed,
    ⟨raw.trans last, raw ▸ range, timeouts.trans count⟩, h.length, h.each⟩

theorem step_timed (first : AdcConversion) (board : BoardIo) (read : List BoardAction)
    (past : List (Option TimerEvent)) (action : BoardAction) (board' : BoardIo)
    (event : Option TimerEvent)
    (h : Timed first board (read.filterMap BoardAction.conversion) (timerRuns past))
    (taken : board.step action = some (board', event)) :
    Timed first board' ((read ++ [action]).filterMap BoardAction.conversion)
      (timerRuns (past ++ [event])) := by
  cases action with
  | risingEdge =>
    simp only [step, risingEdge] at taken
    split at taken
    · cases taken
      exact other_timed h rfl rfl rfl rfl rfl
    · contradiction
  | exti1 =>
    simp only [step, exti1Isr] at taken
    split at taken
    · contradiction
    all_goals
      cases taken
      exact other_timed h rfl rfl rfl rfl rfl
  | tim3 pinHigh conversion =>
    cases taken
    rw [List.filterMap_append, timerRuns_timer]
    exact tim3_timed h pinHigh conversion
  | setLedDuty dutyPercent =>
    cases taken
    exact other_timed h rfl rfl rfl rfl rfl
  | setBuzzer on =>
    cases taken
    exact other_timed h rfl rfl rfl rfl rfl

theorem getParam_value (board : BoardIo) (range : board.adcRaw.toNat ≤ 4095) :
    board.boardIoGetParam.toNat = board.adcRaw.toNat * 255 / 4095 := by
  have max : adcMaxValue.toNat = 4095 := rfl
  have scale : (255 : UInt32).toNat = 255 := rfl
  unfold boardIoGetParam
  rw [UInt32.toNat_toUInt8, UInt32.toNat_div, UInt32.toNat_mul, UInt16.toNat_toUInt32, max, scale,
    Nat.mod_eq_of_lt (a := board.adcRaw.toNat * 255) (by omega)]
  exact Nat.mod_eq_of_lt (by omega)

theorem run_timed (first : AdcConversion) (actions : List BoardAction) {board : BoardIo}
    {events : List (Option TimerEvent)}
    (h : Machine.run step (boardIoInit first) actions = some (board, events)) :
    Timed first board (actions.filterMap BoardAction.conversion) (timerRuns events) := by
  have start : Timed first (boardIoInit first)
      (([] : List BoardAction).filterMap BoardAction.conversion) (timerRuns []) := init_timed first
  exact run_reads (I := fun board read past =>
      Timed first board (read.filterMap BoardAction.conversion) (timerRuns past))
    (step_timed first) start h

theorem timed_presses {first : AdcConversion} {board : BoardIo} {conversions : List AdcConversion}
    {runs : List TimerEvent} (h : Timed first board conversions runs) (n : Nat) (run : TimerEvent)
    (ran : runs[n]? = some run) (timestampMs : UInt32) (pressed : run.pressed = some timestampMs) :
    timestampMs = stamp (n + 1) := by
  have inside : n < conversions.length := by
    rw [h.length]
    exact (List.getElem?_eq_some_iff.mp ran).1
  exact (h.each n conversions[n] run (List.getElem?_eq_getElem inside) ran).2 timestampMs pressed

/-- After every run, whatever the interrupts, the tasks and the ADC do: the uptime counts the
runs of `tim3_isr`, every 500th of them samples and no other, each press is stamped with its
own run, the parameter is the last sample in time on the scale of 255, and each sample that
came too late is counted. -/
theorem time_base (first : AdcConversion) (actions : List BoardAction) {board : BoardIo}
    {events : List (Option TimerEvent)}
    (h : Machine.run step (boardIoInit first) actions = some (board, events)) :
    board.uptimeMs = stamp (timerRuns events).length ∧
      (∀ n conversion run, (actions.filterMap BoardAction.conversion)[n]? = some conversion →
        (timerRuns events)[n]? = some run →
          run.sampled = (if (n + 1) % 500 = 0 then some conversion.sampled else none) ∧
          ∀ timestampMs, run.pressed = some timestampMs → timestampMs = stamp (n + 1)) ∧
      board.boardIoGetParam.toNat =
        (((adcSamples first (timerRuns events)).filterMap id).getLast?.getD 0).toNat * 255 / 4095 ∧
      board.adcTimeoutCount = stamp ((adcSamples first (timerRuns events)).count none) := by
  have timed := run_timed first actions h
  obtain ⟨last, range, timeouts⟩ := timed.samples
  refine ⟨timed.uptime, timed.each, ?_, timeouts⟩
  rw [getParam_value board range, last]

/-- Half of the range at the start, a conversion that does not end after 500 ms, and the
upper end of the range after 1000 ms; the button is held from the start. -/
def heldSecond : List BoardAction :=
  [.risingEdge, .exti1, .exti1, .exti1, .exti1] ++
    List.replicate 999 (.tim3 true ⟨fun _ => false, 7⟩) ++ [.tim3 true ⟨fun n => 2 < n, 4095⟩]

theorem time_base_held : ∃ board events,
    Machine.run step (boardIoInit ⟨fun _ => true, 2048⟩) heldSecond = some (board, events) ∧
      (timerRuns events).filterMap TimerEvent.pressed = [50] ∧ board.uptimeMs = stamp 1000 ∧
      board.boardIoGetParam = 255 ∧ board.adcTimeoutCount = 1 := by
  have shown : (Machine.run step (boardIoInit ⟨fun _ => true, 2048⟩) heldSecond).any
      (fun r => decide ((timerRuns r.2).filterMap TimerEvent.pressed = [50] ∧
        (timerRuns r.2).length = 1000 ∧ r.1.boardIoGetParam = 255 ∧ r.1.adcTimeoutCount = 1)) =
      true := by
    decide +kernel
  obtain ⟨⟨board, events⟩, ran, shown⟩ := (Option.any_eq_true _ _).mp shown
  obtain ⟨pressed, length, param, timeouts⟩ := of_decide_eq_true shown
  refine ⟨board, events, ran, pressed, ?_, param, timeouts⟩
  rw [(time_base _ heldSecond ran).1, length]

end BoardIo

end CommandBox
