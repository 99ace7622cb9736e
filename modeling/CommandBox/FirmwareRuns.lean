import CommandBox.Firmware
import CommandBox.BoardTime

/-! A run of the whole board seen from each of its components: the board, the network and
the signals run on their own, and no task can fault. -/
namespace CommandBox
open Machine

theorem onBoard_run (output : SignalsOutput) (board : BoardIo) :
    ∃ actions, run BoardIo.step board actions =
      some (output.onBoard board, actions.map fun _ => none) := by
  obtain ⟨led, buzzer⟩ := output
  cases led with
  | none =>
    cases buzzer with
    | none => exact ⟨[], rfl⟩
    | some on => exact ⟨[.setBuzzer on], rfl⟩
  | some dutyPercent =>
    cases buzzer with
    | none => exact ⟨[.setLedDuty dutyPercent], rfl⟩
    | some on => exact ⟨[.setLedDuty dutyPercent, .setBuzzer on], rfl⟩

/-- The part of each component in a history. -/
def timerEvents (events : List FirmwareEvent) : List BoardIo.TimerEvent :=
  events.filterMap FirmwareEvent.timer

def taskEvents (events : List FirmwareEvent) : List NetworkEvent :=
  events.filterMap FirmwareEvent.network

def signalsEvents (events : List FirmwareEvent) : List SignalsEvent :=
  events.filterMap FirmwareEvent.signals

namespace Network

theorem step_moves {n n' : Network} (sound : n.Sound) {action : NetworkAction} {event : NetworkEvent}
    (h : n.step action = some (n', event)) : Moves n action n' event := by
  obtain ⟨n₁, event₁, taken, moves⟩ := step_does sound action
  obtain ⟨rfl, rfl⟩ := Prod.mk.inj (Option.some.inj (taken.symm.trans h))
  exact moves

theorem run_sound {n final : Network} {actions : List NetworkAction} {events : List NetworkEvent}
    (sound : n.Sound) (h : run step n actions = some (final, events)) : final.Sound := by
  induction actions generalizing n events with
  | nil =>
    cases h
    exact sound
  | cons action actions ih =>
    simp only [run, Option.bind_eq_bind, Option.bind_eq_some_iff] at h
    obtain ⟨⟨n', event⟩, taken, ⟨_, _⟩, ran, ends⟩ := h
    cases ends
    exact ih (moves_sound sound (step_moves sound taken)) ran

end Network

namespace Firmware

theorem run_board {f final : Firmware} {actions : List FirmwareAction} {events : List FirmwareEvent}
    (h : run step f actions = some (final, events)) :
    ∃ boardActions told, run BoardIo.step f.board boardActions = some (final.board, told) ∧
      timerRuns told = timerEvents events := by
  have each : ∀ (f : Firmware) (past : List FirmwareEvent) (board : BoardIo)
      (told : List (Option BoardIo.TimerEvent)) (action : FirmwareAction) (f' : Firmware)
      (e : FirmwareEvent), (f.board = board ∧ timerRuns told = timerEvents past) →
      f.step action = some (f', e) → ∃ bs board' new, run BoardIo.step board bs = some (board', new) ∧
        f'.board = board' ∧ timerRuns (told ++ new) = timerEvents (past ++ [e]) := by
    rintro f past _ told action f' e ⟨rfl, same⟩ taken
    have quiet (bs : List BoardAction) : timerRuns (told ++ bs.map fun _ => none) = timerEvents past := by
      rw [← same]
      simp [timerRuns]
    cases step_moves taken with
    | edge stepped =>
      refine ⟨_, _, _, run_cons [] stepped, rfl, ?_⟩
      simpa [timerEvents] using quiet [.risingEdge]
    | timer stepped | press stepped =>
      refine ⟨_, _, _, run_cons [] stepped, rfl, ?_⟩
      simp [timerRuns, timerEvents] at same ⊢
      exact same
    | network | enters | stores | calls =>
      refine ⟨[], _, [], rfl, rfl, ?_⟩
      simpa [timerEvents] using same
    | @ticks tick inside =>
      obtain ⟨bs, ran⟩ := onBoard_run (f.signals.tick tick).2 f.board
      refine ⟨bs, _, _, ran, rfl, ?_⟩
      simpa [timerEvents] using quiet bs
  have start : f.board = f.board ∧ timerRuns [] = timerEvents [] := ⟨rfl, rfl⟩
  obtain ⟨boardActions, board, told, ran, rfl, same⟩ := run_follows
    (R := fun f past board told => f.board = board ∧ timerRuns told = timerEvents past) each start h
  exact ⟨boardActions, told, ran, same⟩

/-- The board from its power-up on, the time before the tasks included. -/
theorem run_boot {first : AdcConversion} {boot : List BoardAction} {f final : Firmware}
    {booted : List (Option BoardIo.TimerEvent)} {actions : List FirmwareAction}
    {events : List FirmwareEvent}
    (up : run BoardIo.step (BoardIo.boardIoInit first) boot = some (f.board, booted))
    (h : run step f actions = some (final, events)) :
    ∃ boardActions told,
      run BoardIo.step (BoardIo.boardIoInit first) boardActions = some (final.board, told) ∧
      timerRuns told = timerRuns booted ++ timerEvents events := by
  obtain ⟨boardActions, told, ran, timers⟩ := run_board h
  refine ⟨boot ++ boardActions, booted ++ told, ?_, ?_⟩
  · rw [run_append up, ran, Option.map_some]
  · rw [← timers]
    exact List.filterMap_append

theorem run_network {f final : Firmware} {actions : List FirmwareAction} {events : List FirmwareEvent}
    (h : run step f actions = some (final, events)) :
    ∃ networkActions, run Network.step f.network networkActions =
      some (final.network, taskEvents events) := by
  have each : ∀ (f : Firmware) (past : List FirmwareEvent) (network : Network)
      (told : List NetworkEvent) (action : FirmwareAction) (f' : Firmware) (e : FirmwareEvent),
      (f.network = network ∧ told = taskEvents past) → f.step action = some (f', e) →
      ∃ bs network' new, run Network.step network bs = some (network', new) ∧
        f'.network = network' ∧ told ++ new = taskEvents (past ++ [e]) := by
    rintro f past _ _ action f' e ⟨rfl, rfl⟩ taken
    cases step_moves taken with
    | edge | timer =>
      refine ⟨[], _, [], rfl, rfl, ?_⟩
      simp [taskEvents]
    | press _ _ sent =>
      refine ⟨_, _, _, run_cons [] sent, rfl, ?_⟩
      simp [taskEvents]
    | network _ stepped =>
      refine ⟨_, _, _, run_cons [] stepped, rfl, ?_⟩
      simp [taskEvents]
    | enters | stores | calls | ticks =>
      refine ⟨[], _, [], rfl, rfl, ?_⟩
      simp [taskEvents]
  have start : f.network = f.network ∧ [] = taskEvents [] := ⟨rfl, rfl⟩
  obtain ⟨networkActions, network, told, ran, rfl, same⟩ := run_follows
    (R := fun f past network told => f.network = network ∧ told = taskEvents past) each start h
  rw [List.nil_append] at same
  exact ⟨networkActions, same ▸ ran⟩

theorem run_signals {f final : Firmware} {actions : List FirmwareAction} {events : List FirmwareEvent}
    (h : run step f actions = some (final, events)) :
    ∃ signalsActions, run SignalsTasks.step f.signals signalsActions =
      some (final.signals, signalsEvents events) := by
  have each : ∀ (f : Firmware) (past : List FirmwareEvent) (signals : SignalsTasks)
      (told : List SignalsEvent) (action : FirmwareAction) (f' : Firmware) (e : FirmwareEvent),
      (f.signals = signals ∧ told = signalsEvents past) → f.step action = some (f', e) →
      ∃ bs signals' new, run SignalsTasks.step signals bs = some (signals', new) ∧
        f'.signals = signals' ∧ told ++ new = signalsEvents (past ++ [e]) := by
    rintro f past _ _ action f' e ⟨rfl, rfl⟩ taken
    cases step_moves taken with
    | edge | timer | press | network =>
      refine ⟨[], _, [], rfl, rfl, ?_⟩
      simp [signalsEvents]
    | enters idle =>
      refine ⟨_, _, _, run_cons [] (SignalsTasks.step_enter idle _ _), rfl, ?_⟩
      simp [signalsEvents]
    | stores inside =>
      refine ⟨_, _, _, run_cons [] (SignalsTasks.step_store inside), rfl, ?_⟩
      simp [signalsEvents]
    | calls idle =>
      refine ⟨_, _, _, run_cons [] (SignalsTasks.step_call idle _), rfl, ?_⟩
      simp [signalsEvents]
    | ticks inside =>
      refine ⟨_, _, _, run_cons [] (SignalsTasks.step_tick inside), rfl, ?_⟩
      simp [signalsEvents]
  have start : f.signals = f.signals ∧ [] = signalsEvents [] := ⟨rfl, rfl⟩
  obtain ⟨signalsActions, signals, told, ran, rfl, same⟩ := run_follows
    (R := fun f past signals told => f.signals = signals ∧ told = signalsEvents past) each start h
  rw [List.nil_append] at same
  exact ⟨signalsActions, same ▸ ran⟩

/-- An edge of the button waits for the end of its handler; nothing else ever waits here. -/
def Enabled (f : Firmware) : FirmwareAction → Prop
  | .risingEdge => f.board.extiPoint = .idle
  | .exti1Isr => f.board.extiPoint ≠ .idle
  | _ => True

theorem onNetwork_enabled {f : Firmware} (sound : f.network.Sound) (action : NetworkAction) :
    (f.onNetwork action).isSome = true := by
  obtain ⟨network, event, taken, _⟩ := Network.step_does sound action
  simp [onNetwork, taken]

theorem step_enabled {f : Firmware} (sound : f.network.Sound) (action : FirmwareAction) :
    (f.step action).isSome = true ↔ f.Enabled action := by
  cases action with
  | risingEdge => simp [step, BoardIo.risingEdge, Enabled]
  | exti1Isr =>
    simp only [step, BoardIo.exti1Isr, Enabled]
    cases f.board.extiPoint <;> simp
  | tim3Isr => exact iff_of_true rfl trivial
  | usart1Isr | taskRxParser | taskUartTx => exact iff_of_true (onNetwork_enabled sound _) trivial
  | taskApp =>
    refine iff_of_true ?_ trivial
    simp only [step, taskApp]
    split
    · rename_i busy
      obtain ⟨entry, inside⟩ := Option.ne_none_iff_exists'.mp busy
      simp [onSignals, SignalsTasks.step_store inside]
    · rename_i idle
      split
      · simp [onSignals, SignalsTasks.step_enter (not_not.mp idle)]
      · exact onNetwork_enabled sound _
  | taskSignals =>
    refine iff_of_true ?_ trivial
    simp only [step, taskSignals, onSignals]
    cases inside : f.signals.ticking with
    | none => simp [SignalsTasks.step_call inside]
    | some tick => simp [SignalsTasks.step_tick inside]

end Firmware

/-- The whole board refines its components: what the board, the network and the signals do in
any run of it, each of them does in a run of its own. Where no call of signals.c begins inside
another, the signals do what whole calls do. No task and no interrupt ever faults. -/
theorem firmware_components {board : BoardIo} {raw : Parser} {message : ProtocolMessage}
    {frame : Vector UInt8 protocolMaxFrameLength} {actions : List FirmwareAction} {final : Firmware}
    {events : List FirmwareEvent}
    (h : run Firmware.step (Firmware.start board raw message frame) actions = some (final, events)) :
    (∃ boardActions told, run BoardIo.step board boardActions = some (final.board, told) ∧
        timerRuns told = timerEvents events) ∧
      (∃ networkActions, run Network.step (Network.tasksStart raw message frame) networkActions =
        some (final.network, taskEvents events)) ∧
      (∃ signalsActions, run SignalsTasks.step (.start (signalsInit true true)) signalsActions =
        some (final.signals, signalsEvents events)) ∧
      ((∀ e ∈ signalsEvents events, e.overlaps = false) →
        let whole := runSignals (signalsInit true true)
          ((signalsEvents events).filterMap SignalsEvent.begins)
        whole.1 = final.signals.settled.1 ∧
          whole.2.flatMap SignalsOutput.callbacks =
            (signalsEvents events).flatMap (fun e => e.output.callbacks) ++
              final.signals.settled.2.callbacks) ∧
      ∀ action, (final.step action).isSome = true ↔ final.Enabled action := by
  obtain ⟨networkActions, ran⟩ := Firmware.run_network h
  obtain ⟨signalsActions, signalled⟩ := Firmware.run_signals h
  have sound := Network.run_sound (Network.start_sound raw message frame) ran
  refine ⟨Firmware.run_board h, ⟨networkActions, ran⟩, ⟨signalsActions, signalled⟩, ?_,
    Firmware.step_enabled sound⟩
  intro apart
  have whole := SignalsTasks.run_whole signalled apart
  exact ⟨whole.state, whole.callbacks⟩

theorem firmware_components_edge : ∃ final events,
    run Firmware.step (Firmware.start (BoardIo.boardIoInit ⟨fun _ => true, 0⟩) blankParser
      blankMessage (Vector.replicate 64 0)) [.taskApp, .risingEdge, .usart1Isr 0x40] =
        some (final, events) ∧
    (final.step .exti1Isr).isSome = true ∧ (final.step .risingEdge).isSome = false := by
  have ends : (run Firmware.step (Firmware.start (BoardIo.boardIoInit ⟨fun _ => true, 0⟩) blankParser
      blankMessage (Vector.replicate 64 0)) [.taskApp, .risingEdge, .usart1Isr 0x40]).any
      (fun r => decide (r.1.board.extiPoint = .resetRequest)) = true := by
    decide +kernel
  obtain ⟨⟨final, events⟩, ran, ends⟩ := (Option.any_eq_true _ _).mp ends
  have point : final.board.extiPoint = .resetRequest := of_decide_eq_true ends
  obtain ⟨_, _, _, _, enabled⟩ := firmware_components ran
  refine ⟨final, events, ran, (enabled .exti1Isr).mpr (by simp [Firmware.Enabled, point]), ?_⟩
  apply Bool.eq_false_iff.mpr
  intro taken
  have idle : final.board.extiPoint = .idle := (enabled .risingEdge).mp taken
  rw [point] at idle
  contradiction

end CommandBox
