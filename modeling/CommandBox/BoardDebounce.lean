import CommandBox.BoardTime

/-! The button on the whole board: it does what the model of the button path alone does, so
confirmed presses are a window apart unless a timer run comes between the two assignments of
`exti1_isr`. -/
namespace CommandBox
open Clock Machine

/-- The numbers of the runs that confirmed a press; `earlier` runs went before. -/
def pressTimes (earlier : Nat) : List BoardIo.TimerEvent → List Nat
  | [] => []
  | run :: rest =>
    (if run.pressed.isSome then [earlier + 1] else []) ++ pressTimes (earlier + 1) rest

theorem pressTimes_append (earlier : Nat) (xs ys : List BoardIo.TimerEvent) :
    pressTimes earlier (xs ++ ys) = pressTimes earlier xs ++ pressTimes (earlier + xs.length) ys := by
  induction xs generalizing earlier with
  | nil => rfl
  | cons run xs ih =>
    simp only [List.cons_append, pressTimes, ih, List.append_assoc, List.length_cons]
    rw [Nat.add_right_comm, Nat.add_assoc]

theorem pressTimes_bounds (earlier : Nat) (runs : List BoardIo.TimerEvent) :
    ∀ t ∈ pressTimes earlier runs, earlier < t ∧ t ≤ earlier + runs.length := by
  induction runs generalizing earlier with
  | nil => exact fun t ht => absurd ht List.not_mem_nil
  | cons run rest ih =>
    intro t ht
    rw [List.length_cons]
    rcases List.mem_append.mp ht with this | later
    · split at this
      · rw [List.mem_singleton.mp this]
        omega
      · contradiction
    · have bounds := ih (earlier + 1) t later
      omega

theorem pressTimes_stamps (earlier : Nat) (runs : List BoardIo.TimerEvent)
    (each : ∀ n run, runs[n]? = some run → ∀ timestampMs, run.pressed = some timestampMs →
      timestampMs = stamp (earlier + n + 1)) :
    runs.filterMap BoardIo.TimerEvent.pressed = (pressTimes earlier runs).map stamp := by
  induction runs generalizing earlier with
  | nil => rfl
  | cons run rest ih =>
    have tail := ih (earlier + 1) fun n run there timestampMs pressed => by
      rw [each (n + 1) run there timestampMs pressed, Nat.add_right_comm earlier 1 n, Nat.add_assoc earlier n 1]
    cases pressed : run.pressed with
    | none => simp [pressTimes, pressed, tail]
    | some timestampMs => simp [pressTimes, pressed, tail, each 0 run rfl timestampMs pressed]

namespace BoardIo

/-- The state of the button path, and the presses it has queued, newest first. -/
structure Shows (board : BoardIo) (past : List (Option TimerEvent)) (s : Debounce)
    (told : List ButtonTurn) : Prop where
  active : s.debounceActive = board.debounceActive
  remaining : s.debounceRemainingMs = board.debounceRemainingMs
  point : s.point = board.extiPoint
  runs : s.runs = (timerRuns past).length
  presses : s.buttonQueue.map ButtonEvent.run = (pressTimes 0 (timerRuns past)).reverse
  torn : ∀ t ∈ told, Torn t → ∃ run ∈ timerRuns past, run.interrupted = .setRemaining

theorem init_shows (first : AdcConversion) : Shows (boardIoInit first) [] .start [] := by
  unfold boardIoInit adcSampleOnce
  simp only
  split <;> exact ⟨rfl, rfl, rfl, rfl, rfl, fun t ht => absurd ht List.not_mem_nil⟩

theorem adcPeriod_button (board : BoardIo) (conversion : AdcConversion) :
    (adcPeriod board conversion).1.debounceActive = board.debounceActive ∧
      (adcPeriod board conversion).1.debounceRemainingMs = board.debounceRemainingMs ∧
      (adcPeriod board conversion).1.extiPoint = board.extiPoint := by
  simp only [adcPeriod, adcSampleOnce]
  repeat' split
  all_goals exact ⟨rfl, rfl, rfl⟩

/-- The part for the button is the one of the button path with a queue that has room. -/
theorem debounce_agrees {board : BoardIo} {s : Debounce}
    (active : s.debounceActive = board.debounceActive)
    (remaining : s.debounceRemainingMs = board.debounceRemainingMs) (pinHigh : Bool) :
    (CommandBox.tim3Isr s pinHigh true).debounceActive = (debounce board pinHigh).1.debounceActive ∧
      (CommandBox.tim3Isr s pinHigh true).debounceRemainingMs =
        (debounce board pinHigh).1.debounceRemainingMs ∧
      (CommandBox.tim3Isr s pinHigh true).point = s.point ∧
      (debounce board pinHigh).1.extiPoint = board.extiPoint ∧
      (CommandBox.tim3Isr s pinHigh true).runs = s.runs + 1 ∧
      (CommandBox.tim3Isr s pinHigh true).buttonQueue.map ButtonEvent.run =
        (if (debounce board pinHigh).2 then [s.runs + 1] else []) ++
          s.buttonQueue.map ButtonEvent.run := by
  simp only [CommandBox.tim3Isr, debounce, active, remaining, Bool.and_true]
  cases on : board.debounceActive with
  | false => simp [on]
  | true =>
    simp only [if_true]
    generalize (if board.debounceRemainingMs > 0 then board.debounceRemainingMs - 1
      else board.debounceRemainingMs) = left
    by_cases ended : left = 0
    · cases pinHigh <;> simp [ended]
    · simp [ended]

theorem tim3_shows {board : BoardIo} {past : List (Option TimerEvent)} {s : Debounce}
    {told : List ButtonTurn} (h : Shows board past s told) (pinHigh : Bool)
    (conversion : AdcConversion) :
    Shows (board.tim3Isr pinHigh conversion).1
      (past ++ [some (board.tim3Isr pinHigh conversion).2]) (CommandBox.tim3Isr s pinHigh true)
      (told ++ [⟨s, .tim3 pinHigh true, CommandBox.tim3Isr s pinHigh true⟩]) := by
  have same := adcPeriod_button { board with uptimeMs := board.uptimeMs + 1 } conversion
  obtain ⟨active, remaining, point, edge, runs, presses⟩ := debounce_agrees
    (h.active.trans same.1.symm) (h.remaining.trans same.2.1.symm) pinHigh
  have pressed : (board.tim3Isr pinHigh conversion).2.pressed.isSome = (debounce
      (adcPeriod { board with uptimeMs := board.uptimeMs + 1 } conversion).1 pinHigh).2 := by
    simp only [tim3Isr]
    split <;> simp_all
  constructor
  · exact active
  · exact remaining
  · exact (point.trans h.point).trans (edge.trans same.2.2).symm
  · rw [runs, h.runs, timerRuns_timer, List.length_append, List.length_singleton]
  · rw [presses, h.presses, h.runs, timerRuns_timer, pressTimes_append, List.reverse_append,
      Nat.zero_add]
    simp only [pressTimes, pressed, List.append_nil]
    split <;> rfl
  · intro t ht torn
    rw [timerRuns_timer]
    rcases List.mem_append.mp ht with old | this
    · obtain ⟨run, there, interrupted⟩ := h.torn t old torn
      exact ⟨run, List.mem_append_left _ there, interrupted⟩
    · rw [List.mem_singleton.mp this] at torn
      exact ⟨_, List.mem_append_right _ List.mem_cons_self, h.point.symm.trans torn.2.1⟩

/-- The other steps: one of the button path, or none. -/
theorem other_shows {board board' : BoardIo} {past : List (Option TimerEvent)} {s s' : Debounce}
    {told : List ButtonTurn} {new : List ButtonTurn} (h : Shows board past s told)
    (active : s'.debounceActive = board'.debounceActive)
    (remaining : s'.debounceRemainingMs = board'.debounceRemainingMs)
    (point : s'.point = board'.extiPoint) (runs : s'.runs = s.runs)
    (queue : s'.buttonQueue = s.buttonQueue)
    (whole : ∀ t ∈ new, ∀ hasRoom, t.action ≠ .tim3 true hasRoom) :
    Shows board' (past ++ [none]) s' (told ++ new) := by
  constructor
  · exact active
  · exact remaining
  · exact point
  · rw [timerRuns_other, runs]
    exact h.runs
  · rw [timerRuns_other, queue]
    exact h.presses
  · intro t ht torn
    rw [timerRuns_other]
    rcases List.mem_append.mp ht with old | this
    · exact h.torn t old torn
    · exact absurd torn.1 (whole t this true)

theorem step_shows (board : BoardIo) (past : List (Option TimerEvent)) (s : Debounce)
    (told : List ButtonTurn) (action : BoardAction) (board' : BoardIo) (event : Option TimerEvent)
    (h : Shows board past s told) (taken : board.step action = some (board', event)) :
    ∃ actions s' new, run (record buttonStep) s actions = some (s', new) ∧
      Shows board' (past ++ [event]) s' (told ++ new) := by
  cases action with
  | risingEdge =>
    simp only [step, risingEdge] at taken
    split at taken
    · rename_i idle
      cases taken
      have stepped : record buttonStep s .risingEdge = some ({ s with
          point := .resetRequest, activatedAt := s.runs }, ⟨s, .risingEdge, { s with
          point := .resetRequest, activatedAt := s.runs }⟩) := by
        simp [record, buttonStep, h.point, idle]
      refine ⟨[.risingEdge], _, _, run_cons [] stepped, ?_⟩
      exact other_shows h h.active h.remaining rfl rfl rfl (by simp)
    · contradiction
  | exti1 =>
    have follow : ∀ s', CommandBox.exti1Isr s = some s' →
        s'.debounceActive = board'.debounceActive →
        s'.debounceRemainingMs = board'.debounceRemainingMs → s'.point = board'.extiPoint →
        s'.runs = s.runs → s'.buttonQueue = s.buttonQueue → event = none →
        ∃ actions s' new, run (record buttonStep) s actions = some (s', new) ∧
          Shows board' (past ++ [event]) s' (told ++ new) := by
      rintro s' moved active remaining point runs queue rfl
      have stepped : record buttonStep s .exti1 = some (s', ⟨s, .exti1, s'⟩) := by
        simp [record, buttonStep, moved]
      exact ⟨[.exti1], _, _, run_cons [] stepped,
        other_shows h active remaining point runs queue (by simp)⟩
    simp only [step, exti1Isr] at taken
    have at' := h.point
    cases point : board.extiPoint with
    | idle =>
      rw [point] at taken
      contradiction
    | resetRequest =>
      rw [point] at taken at'
      cases taken
      exact follow { s with point := .testActive } (by simp only [CommandBox.exti1Isr, at'])
        h.active h.remaining rfl rfl rfl rfl
    | testActive =>
      rw [point] at taken at'
      cases taken
      exact follow { s with point := if !s.debounceActive then .setActive else .idle }
        (by simp only [CommandBox.exti1Isr, at']) h.active h.remaining (by simp only [h.active])
        rfl rfl rfl
    | setActive =>
      rw [point] at taken at'
      cases taken
      exact follow { s with
          debounceActive := true, point := .setRemaining
          windows := s.windows + 1, armedAt := s.activatedAt }
        (by simp only [CommandBox.exti1Isr, at']) rfl h.remaining rfl rfl rfl rfl
    | setRemaining =>
      rw [point] at taken at'
      cases taken
      exact follow { s with debounceRemainingMs := buttonDebounceMs, point := .idle }
        (by simp only [CommandBox.exti1Isr, at']) h.active rfl rfl rfl rfl rfl
  | tim3 pinHigh conversion =>
    cases taken
    exact ⟨[.tim3 pinHigh true], _, _, rfl, tim3_shows h pinHigh conversion⟩
  | setLedDuty | setBuzzer =>
    cases taken
    exact ⟨[], s, [], rfl, other_shows h h.active h.remaining h.point rfl rfl (by simp)⟩

/-- Every run of the board is a run of the button path, press by press. -/
theorem run_button (first : AdcConversion) (actions : List BoardAction) {board : BoardIo}
    {events : List (Option TimerEvent)}
    (h : Machine.run step (boardIoInit first) actions = some (board, events)) :
    ∃ buttonActions s turns, runButton buttonActions = some (s, turns) ∧
      Shows board events s turns := by
  exact run_follows step_shows (init_shows first) h

/-- Presses are at least a window apart, unless a timer run interrupts `exti1_isr` before its
last assignment. -/
theorem presses_apart (first : AdcConversion) (actions : List BoardAction) {board : BoardIo}
    {events : List (Option TimerEvent)}
    (h : Machine.run step (boardIoInit first) actions = some (board, events))
    (whole : ∀ run ∈ timerRuns events, run.interrupted ≠ .setRemaining) :
    (pressTimes 0 (timerRuns events)).Pairwise fun earlier later => earlier + 50 ≤ later := by
  obtain ⟨buttonActions, s, turns, ran, shows⟩ := run_button first actions h
  have untorn : ∀ t ∈ turns, ¬ Torn t := by
    intro t ht torn
    obtain ⟨run, there, interrupted⟩ := shows.torn t ht torn
    exact whole run there interrupted
  have guarded := (recorded_invariant button_guarded start_guarded ran untorn).1
  have apart : (s.buttonQueue.map ButtonEvent.run).Pairwise fun later earlier =>
      earlier + 50 ≤ later := List.pairwise_map.mpr guarded.respected.2.2
  rw [shows.presses, List.pairwise_reverse] at apart
  exact apart

end BoardIo

end CommandBox
