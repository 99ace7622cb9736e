import CommandBox.Lib.Machine
import Mathlib.Data.List.Nodup

/-! The button path of board_io.c: `exti1_isr` arms a window one statement at a time, and
`tim3_isr`, which preempts it, counts the window down. -/
namespace CommandBox

def buttonDebounceMs : UInt16 := 50

/-- The statement of `exti1_isr` that runs next. -/
inductive IsrPoint where
  | idle | resetRequest | testActive | setActive | setRemaining
  deriving DecidableEq, Repr

/-- `button_event_t`, with what the log knows of it: the number of the `tim3_isr` run that
queued it, the window it ended, the runs before the activation that armed this window, and
the pin level that was read. -/
structure ButtonEvent where
  timestampMs : UInt32
  run : Nat
  window : Nat
  armedAt : Nat
  pinHigh : Bool
  deriving DecidableEq

/-- The last four fields count for the log; the handlers do not read them. -/
structure Debounce where
  debounceActive : Bool
  debounceRemainingMs : UInt16
  uptimeMs : UInt32
  point : IsrPoint
  buttonQueue : List ButtonEvent
  runs : Nat
  activatedAt : Nat
  windows : Nat
  armedAt : Nat
  deriving DecidableEq

def Debounce.start : Debounce := ⟨false, 0, 0, .idle, [], 0, 0, 0, 0⟩

def exti1Isr (s : Debounce) : Option Debounce :=
  match s.point with
  | .idle => none
  | .resetRequest => some { s with point := .testActive }
  | .testActive => some { s with point := if !s.debounceActive then .setActive else .idle }
  | .setActive => some { s with
      debounceActive := true, point := .setRemaining
      windows := s.windows + 1, armedAt := s.activatedAt }
  | .setRemaining => some { s with debounceRemainingMs := buttonDebounceMs, point := .idle }

/-- A run of `tim3_isr` with its flag set. `hasRoom` says that the queue exists and is not full. -/
def tim3Isr (s : Debounce) (pinHigh hasRoom : Bool) : Debounce :=
  let s := { s with uptimeMs := s.uptimeMs + 1, runs := s.runs + 1 }
  if s.debounceActive then
    let s := { s with debounceRemainingMs :=
      if s.debounceRemainingMs > 0 then s.debounceRemainingMs - 1 else s.debounceRemainingMs }
    if s.debounceRemainingMs = 0 then
      let s := { s with debounceActive := false }
      if pinHigh && hasRoom then
        { s with buttonQueue := ⟨s.uptimeMs, s.runs, s.windows, s.armedAt, pinHigh⟩ :: s.buttonQueue }
      else s
    else s
  else s

inductive ButtonAction where
  | risingEdge
  | exti1
  | tim3 (pinHigh hasRoom : Bool)
  deriving DecidableEq

def buttonStep (s : Debounce) : ButtonAction → Option Debounce
  | .risingEdge =>
    if s.point = .idle then some { s with point := .resetRequest, activatedAt := s.runs } else none
  | .exti1 => exti1Isr s
  | .tim3 pinHigh hasRoom => some (tim3Isr s pinHigh hasRoom)

abbrev ButtonTurn := Machine.Transition Debounce ButtonAction

def runButton (actions : List ButtonAction) : Option (Debounce × List ButtonTurn) :=
  Machine.run (Machine.record buttonStep) .start actions

/-- Newest first: each event has the pin high and its window behind it, no window has two
events, and events are a window apart. -/
def WindowsRespected (log : List ButtonEvent) : Prop :=
  (∀ e ∈ log, e.pinHigh = true ∧ e.armedAt + 50 ≤ e.run) ∧ (log.map ButtonEvent.window).Nodup ∧
    log.Pairwise fun later earlier => earlier.run + 50 ≤ later.run

instance (log : List ButtonEvent) : Decidable (WindowsRespected log) :=
  inferInstanceAs (Decidable (_ ∧ _ ∧ _))

/-- A run of `tim3_isr` that can queue an event falls between the two assignments of
`exti1_isr`, while the remaining time is still zero. -/
def Torn (t : ButtonTurn) : Prop :=
  t.action = .tim3 true true ∧ t.before.point = .setRemaining ∧ t.before.debounceActive = true ∧
    t.before.debounceRemainingMs = 0

instance (t : ButtonTurn) : Decidable (Torn t) := inferInstanceAs (Decidable (_ ∧ _ ∧ _ ∧ _))

theorem counted_down {left : UInt16} (some : left > 0) : (left - 1).toNat + 1 = left.toNat := by
  have pos := UInt16.lt_iff_toNat_lt.mp some
  have zero : (0 : UInt16).toNat = 0 := rfl
  have one : (1 : UInt16).toNat = 1 := rfl
  rw [UInt16.toNat_sub_of_le _ _ (UInt16.le_iff_toNat_le.mpr (by omega))]
  omega

/-- What one run of `tim3_isr` does: no window is open, the window goes on, or it ends
without or with an event. -/
theorem tim3_cases (s : Debounce) (pinHigh hasRoom : Bool) :
    (s.debounceActive = false ∧
      tim3Isr s pinHigh hasRoom = { s with uptimeMs := s.uptimeMs + 1, runs := s.runs + 1 }) ∨
    (s.debounceActive = true ∧ ∃ left, left.toNat + 1 = s.debounceRemainingMs.toNat ∧
      tim3Isr s pinHigh hasRoom = { s with
        uptimeMs := s.uptimeMs + 1, runs := s.runs + 1, debounceRemainingMs := left }) ∨
    (s.debounceActive = true ∧ s.debounceRemainingMs.toNat ≤ 1 ∧
      tim3Isr s pinHigh hasRoom = { s with
        uptimeMs := s.uptimeMs + 1, runs := s.runs + 1, debounceRemainingMs := 0
        debounceActive := false }) ∨
    (s.debounceActive = true ∧ s.debounceRemainingMs.toNat ≤ 1 ∧ pinHigh = true ∧ hasRoom = true ∧
      tim3Isr s pinHigh hasRoom = { s with
        uptimeMs := s.uptimeMs + 1, runs := s.runs + 1, debounceRemainingMs := 0
        debounceActive := false
        buttonQueue := ⟨s.uptimeMs + 1, s.runs + 1, s.windows, s.armedAt, true⟩ :: s.buttonQueue }) := by
  cases active : s.debounceActive with
  | false =>
    left
    refine ⟨rfl, ?_⟩
    simp [tim3Isr, active]
  | true =>
    right
    have zero : (0 : UInt16).toNat = 0 := rfl
    generalize next : (if s.debounceRemainingMs > 0 then s.debounceRemainingMs - 1
      else s.debounceRemainingMs) = left
    by_cases ended : left = 0
    · have spent : s.debounceRemainingMs.toNat ≤ 1 := by
        split at next
        · rename_i some
          have count := counted_down some
          rw [next, ended] at count
          omega
        · rw [next, ended]
          exact Nat.zero_le 1
      right
      by_cases queued : pinHigh = true ∧ hasRoom = true
      · right
        refine ⟨rfl, spent, queued.1, queued.2, ?_⟩
        simp [tim3Isr, active, next, ended, queued.1, queued.2]
      · left
        refine ⟨rfl, spent, ?_⟩
        simp [tim3Isr, active, next, ended, queued]
    · left
      refine ⟨rfl, left, ?_, ?_⟩
      · split at next
        · rename_i some
          rw [← next]
          exact counted_down some
        · rename_i none
          have small := mt UInt16.lt_iff_toNat_lt.mpr none
          exact absurd (UInt16.toNat_inj.mp (by rw [← next]; omega)) ended
      · simp [tim3Isr, active, next, ended]

/- The countdown of an open window, and the log. -/

/-- From `openedAt` on, when the window was opened, a full countdown has to pass; only
between the two assignments it may not have been loaded yet. -/
def Countdown (s : Debounce) (openedAt : Nat) : Prop :=
  s.armedAt ≤ openedAt ∧ openedAt ≤ s.runs ∧
    (∀ e ∈ s.buttonQueue, e.run ≤ openedAt ∧ e.window < s.windows) ∧
    (openedAt + 50 ≤ s.runs + s.debounceRemainingMs.toNat ∨
      (s.point = .setRemaining ∧ s.debounceRemainingMs = 0))

structure Guarded (s : Debounce) : Prop where
  reloaded : s.debounceActive = false → s.debounceRemainingMs = 0 ∨ s.debounceRemainingMs = 50
  closed : s.point = .setActive → s.debounceActive = false
  activated : s.activatedAt ≤ s.runs
  counting : s.debounceActive = true → ∃ openedAt, Countdown s openedAt
  past : ∀ e ∈ s.buttonQueue, e.run ≤ s.runs ∧ e.window ≤ s.windows
  respected : WindowsRespected s.buttonQueue

theorem start_guarded : Guarded Debounce.start := by
  constructor
  · exact fun _ => .inl rfl
  · exact fun h => by cases h
  · exact Nat.le_refl 0
  · exact fun h => by cases h
  · simp [Debounce.start]
  · simp [Debounce.start, WindowsRespected]

theorem moved_guarded {s : Debounce} (h : Guarded s) (outside : s.point ≠ .setRemaining)
    (point : IsrPoint) (closed : point = .setActive → s.debounceActive = false)
    (activatedAt : Nat) (activated : activatedAt ≤ s.runs) :
    Guarded { s with point := point, activatedAt := activatedAt } := by
  constructor
  · exact h.reloaded
  · exact closed
  · exact activated
  · intro active
    obtain ⟨openedAt, low, high, past, loaded | ⟨torn, _⟩⟩ := h.counting active
    · exact ⟨openedAt, low, high, past, .inl loaded⟩
    · exact absurd torn outside
  · exact h.past
  · exact h.respected

theorem exti1_guarded {s s' : Debounce} (h : Guarded s) (step : exti1Isr s = some s') :
    Guarded s' := by
  unfold exti1Isr at step
  cases point : s.point with
  | idle =>
    rw [point] at step
    contradiction
  | resetRequest =>
    rw [point] at step
    cases Option.some.inj step
    exact moved_guarded h (by simp [point]) _ (fun at' => by cases at') _ h.activated
  | testActive =>
    rw [point] at step
    cases Option.some.inj step
    refine moved_guarded h (by simp [point]) _ ?_ _ h.activated
    intro at'
    cases active : s.debounceActive with
    | false => rfl
    | true =>
      rw [active] at at'
      contradiction
  | setActive =>
    rw [point] at step
    cases Option.some.inj step
    have inactive := h.closed point
    constructor
    · exact fun active => by cases active
    · exact fun at' => by cases at'
    · exact h.activated
    · intro _
      refine ⟨s.runs, h.activated, Nat.le_refl _, ?_, ?_⟩
      · intro e he
        obtain ⟨run, window⟩ := h.past e he
        exact ⟨run, Nat.lt_succ_of_le window⟩
      · rcases h.reloaded inactive with zero | full
        · exact .inr ⟨rfl, zero⟩
        · left
          simp only [full]
          exact Nat.le_refl _
    · intro e he
      obtain ⟨run, window⟩ := h.past e he
      exact ⟨run, Nat.le_succ_of_le window⟩
    · exact h.respected
  | setRemaining =>
    rw [point] at step
    cases Option.some.inj step
    constructor
    · exact fun _ => .inr rfl
    · exact fun at' => by cases at'
    · exact h.activated
    · intro active
      obtain ⟨openedAt, low, high, past, _⟩ := h.counting active
      exact ⟨openedAt, low, high, past, .inl (Nat.add_le_add_right high 50)⟩
    · exact h.past
    · exact h.respected

/-- The event of a window that counted down is a full window after its opening, hence
after the activation and after every earlier event. -/
theorem queued_respected {s : Debounce} (h : Guarded s) {openedAt : Nat}
    (countdown : Countdown s openedAt) (full : openedAt + 50 ≤ s.runs + 1) (timestampMs : UInt32) :
    WindowsRespected (⟨timestampMs, s.runs + 1, s.windows, s.armedAt, true⟩ :: s.buttonQueue) := by
  obtain ⟨low, _, past, _⟩ := countdown
  obtain ⟨windows, distinct, apart⟩ := h.respected
  refine ⟨?_, ?_, ?_⟩
  · intro e he
    rcases List.mem_cons.mp he with rfl | he
    · exact ⟨rfl, by simp only; omega⟩
    · exact windows e he
  · apply List.nodup_cons.mpr
    refine ⟨?_, distinct⟩
    intro hm
    obtain ⟨e, he, same⟩ := List.mem_map.mp hm
    exact absurd same (Nat.ne_of_lt (past e he).2)
  · apply List.pairwise_cons.mpr
    refine ⟨?_, apart⟩
    intro e he
    have earlier := (past e he).1
    simp only
    omega

theorem tim3_guarded {s : Debounce} (h : Guarded s) (pinHigh hasRoom : Bool)
    (whole : ¬ Torn ⟨s, .tim3 pinHigh hasRoom, tim3Isr s pinHigh hasRoom⟩) :
    Guarded (tim3Isr s pinHigh hasRoom) := by
  have activated : s.activatedAt ≤ s.runs + 1 := Nat.le_succ_of_le h.activated
  have past : ∀ e ∈ s.buttonQueue, e.run ≤ s.runs + 1 ∧ e.window ≤ s.windows := by
    intro e he
    obtain ⟨run, window⟩ := h.past e he
    exact ⟨Nat.le_succ_of_le run, window⟩
  rcases tim3_cases s pinHigh hasRoom with ⟨inactive, after⟩ | ⟨active, left, count, after⟩ |
    ⟨active, spent, after⟩ | ⟨active, spent, rfl, rfl, after⟩
  · rw [after]
    refine ⟨h.reloaded, h.closed, activated, ?_, past, h.respected⟩
    intro active
    rw [inactive] at active
    contradiction
  · rw [after]
    refine ⟨?_, h.closed, activated, ?_, past, h.respected⟩
    · intro inactive
      rw [active] at inactive
      contradiction
    · intro _
      obtain ⟨openedAt, low, high, earlier, loaded | ⟨_, zero⟩⟩ := h.counting active
      · refine ⟨openedAt, low, Nat.le_succ_of_le high, earlier, .inl ?_⟩
        simp only
        omega
      · rw [zero] at count
        contradiction
  · rw [after]
    refine ⟨fun _ => .inl rfl, fun _ => rfl, activated, ?_, past, h.respected⟩
    intro active'
    cases active'
  · rw [after]
    obtain ⟨openedAt, countdown⟩ := h.counting active
    have full : openedAt + 50 ≤ s.runs + 1 := by
      rcases countdown.2.2.2 with loaded | ⟨torn, zero⟩
      · omega
      · exact absurd ⟨rfl, torn, active, zero⟩ whole
    refine ⟨fun _ => .inl rfl, fun _ => rfl, activated, ?_, ?_, queued_respected h countdown full _⟩
    · intro active'
      cases active'
    · intro e he
      rcases List.mem_cons.mp he with rfl | he
      · exact ⟨Nat.le_refl _, Nat.le_refl _⟩
      · exact past e he

theorem button_guarded (s : Debounce) (action : ButtonAction) (s' : Debounce) (h : Guarded s)
    (whole : ¬ Torn ⟨s, action, s'⟩) (step : buttonStep s action = some s') : Guarded s' := by
  cases action with
  | risingEdge =>
    simp only [buttonStep] at step
    split at step
    · rename_i idle
      cases Option.some.inj step
      exact moved_guarded h (by simp [idle]) _ (fun at' => by cases at') _ (Nat.le_refl _)
    · contradiction
  | exti1 => exact exti1_guarded h step
  | tim3 pinHigh hasRoom =>
    cases Option.some.inj step
    exact tim3_guarded h pinHigh hasRoom whole

/-- Where no `tim3_isr` run tears the two assignments apart, the debounce window holds in
every state reached, each of which ends such a run. -/
theorem windows_respected (actions : List ButtonAction) {final : Debounce} {turns : List ButtonTurn}
    (h : runButton actions = some (final, turns)) (whole : ∀ t ∈ turns, ¬ Torn t) :
    WindowsRespected final.buttonQueue :=
  (Machine.recorded_invariant button_guarded start_guarded h whole).1.respected

def heldPress : List ButtonAction :=
  [.risingEdge, .exti1, .exti1, .exti1, .exti1] ++ List.replicate 60 (.tim3 true true)

theorem windows_respected_held :
    ∃ final turns, runButton heldPress = some (final, turns) ∧ final.buttonQueue.length = 1 ∧
      WindowsRespected final.buttonQueue := by
  have whole : (runButton heldPress).any
      (fun r => decide (r.1.buttonQueue.length = 1 ∧ ∀ t ∈ r.2, ¬ Torn t)) = true := by
    decide +kernel
  obtain ⟨⟨final, turns⟩, found, whole⟩ := (Option.any_eq_true _ _).mp whole
  obtain ⟨one, whole⟩ := of_decide_eq_true whole
  exact ⟨final, turns, found, one, windows_respected heldPress found whole⟩

/-- The timer interrupt comes between the two assignments of the first press. -/
def tornPress : List ButtonAction := [.risingEdge, .exti1, .exti1, .exti1, .tim3 true true]

theorem torn_press_skips_window :
    ¬ ∀ actions final turns, runButton actions = some (final, turns) →
      WindowsRespected final.buttonQueue := by
  intro h
  have broken : (runButton tornPress).any (fun r => !decide (WindowsRespected r.1.buttonQueue)) = true := by
    decide +kernel
  obtain ⟨⟨final, turns⟩, found, broken⟩ := (Option.any_eq_true _ _).mp broken
  rw [decide_eq_true (h tornPress final turns found)] at broken
  contradiction

end CommandBox
