import CommandBox.BoardDebounce
import CommandBox.FirmwareRuns
import CommandBox.LedPhase

/-! The way of a press through the board: confirmed by `tim3_isr`, queued, taken and accepted
by `task_app`, entered as a mode of the signals, and shown by the LED. -/
namespace CommandBox
open Clock Machine

def NetworkEvent.queuedPress : NetworkEvent → Option UInt32
  | .pressed timestampMs => some timestampMs
  | _ => none

/-- The press that a call of the box reads, accepted or not. -/
def NetworkEvent.takenPress : NetworkEvent → Option UInt32
  | .called o => o.call.press
  | _ => none

def enteredMode : SignalsEvent → Option (CboxMode × UInt32)
  | .entered mode nowMs _ => some (mode, nowMs)
  | _ => none

/-- The stations of a press, each as the time stamps that have passed it. -/
def confirmedPresses (events : List FirmwareEvent) : List UInt32 :=
  (timerEvents events).filterMap BoardIo.TimerEvent.pressed

def queuedPresses (events : List FirmwareEvent) : List UInt32 :=
  (taskEvents events).filterMap NetworkEvent.queuedPress

def takenPresses (events : List FirmwareEvent) : List UInt32 :=
  (taskEvents events).filterMap NetworkEvent.takenPress

def acceptedPresses (events : List FirmwareEvent) : List UInt32 :=
  (taskEvents events).filterMap NetworkEvent.acceptedPress

def enteredModes (events : List FirmwareEvent) : List (CboxMode × UInt32) :=
  (signalsEvents events).filterMap enteredMode

namespace Network

theorem effect_presses {box box' : Cbox} {o : Observed} (effect : Effect box box' o) :
    (∀ timestampMs, (NetworkEvent.called o).acceptedPress = some timestampMs →
      (NetworkEvent.called o).takenPress = some timestampMs ∧ box'.mode = nextMode box.mode) ∧
    ((NetworkEvent.called o).acceptedPress = none → box'.mode = box.mode) := by
  cases effect with
  | opened =>
    refine ⟨fun timestampMs accepted => ⟨accepted, rfl⟩, fun accepted => ?_⟩
    contradiction
  | refused | confirmed | answered | unanswered | waited | retried | gaveUp =>
    exact ⟨fun timestampMs accepted => by contradiction, fun _ => rfl⟩

/-- A step of the network and the presses: in at the end of the queue, out at its front, and
accepted only when the app is free. -/
structure PressStep (n n' : Network) (event : NetworkEvent) : Prop where
  fifo : n.buttonQueue.items ++ event.queuedPress.toList =
    event.takenPress.toList ++ n'.buttonQueue.items
  accepted : ∀ timestampMs, event.acceptedPress = some timestampMs →
    event.takenPress = some timestampMs ∧ n.sending = [] ∧ n'.cbox.mode = nextMode n.cbox.mode
  kept : event.acceptedPress = none → n'.cbox.mode = n.cbox.mode

theorem quiet_presses {n n' : Network} {event : NetworkEvent} (queued : event.queuedPress = none)
    (taken : event.takenPress = none) (accepted : event.acceptedPress = none)
    (queue : n'.buttonQueue = n.buttonQueue) (mode : n'.cbox.mode = n.cbox.mode) :
    PressStep n n' event := by
  constructor
  · simp [queued, taken, queue]
  · intro timestampMs there
    rw [accepted] at there
    contradiction
  · exact fun _ => mode

theorem called_presses {n n' : Network} {o : Observed} (free : n.sending = [])
    (effect : Effect n.cbox n'.cbox o)
    (fifo : n.buttonQueue.items = (NetworkEvent.called o).takenPress.toList ++ n'.buttonQueue.items) :
    PressStep n n' (.called o) := by
  obtain ⟨accepted, kept⟩ := effect_presses effect
  constructor
  · simpa [NetworkEvent.queuedPress] using fifo
  · intro timestampMs there
    obtain ⟨taken, mode⟩ := accepted timestampMs there
    exact ⟨taken, free, mode⟩
  · exact kept

theorem moves_presses {n n' : Network} {action : NetworkAction} {event : NetworkEvent}
    (h : Moves n action n' event) : PressStep n n' event := by
  cases h with
  | pressed timestampMs room =>
    refine ⟨?_, fun _ there => by contradiction, fun _ => rfl⟩
    simpa [NetworkEvent.queuedPress, NetworkEvent.takenPress] using (Queue.send_items room).symm
  | onButton nowMs free point received effect call =>
    apply called_presses free effect
    simpa [NetworkEvent.takenPress, call, Call.press] using Queue.receive_items received
  | onMessage paramValue free point received effect call =>
    apply called_presses free effect
    simp [NetworkEvent.takenPress, call, Call.press]
  | onTick paramValue free point effect call =>
    apply called_presses free effect
    simp [NetworkEvent.takenPress, call, Call.press]
  | arrived | dropped | missed | waits | read | completed | failed | forwarded | replied | sent
    | noPress | noMessage | transmitted | taken =>
    exact quiet_presses rfl rfl rfl rfl rfl

/-- Only `tim3_isr` queues a press. -/
theorem queued_tim3 {n n' : Network} {action : NetworkAction} {event : NetworkEvent}
    (h : Moves n action n' event) {timestampMs : UInt32}
    (queued : event.queuedPress = some timestampMs) : action = .tim3Isr timestampMs := by
  cases h with
  | pressed =>
    cases queued
    rfl
  | arrived | dropped | missed | waits | read | completed | failed | forwarded | replied | sent
    | noPress | noMessage | onButton | onMessage | onTick | transmitted | taken => contradiction

theorem accepted_app {n n' : Network} {action : NetworkAction} {event : NetworkEvent}
    (h : Moves n action n' event) (accepted : event.acceptedPress ≠ none) :
    ∃ paramValue nowMs, action = .turn (.app paramValue nowMs) := by
  cases h with
  | onButton | onMessage | onTick => exact ⟨_, _, rfl⟩
  | arrived | dropped | pressed | missed | waits | read | completed | failed | forwarded | replied
    | sent | noPress | noMessage | transmitted | taken => contradiction

end Network

/-- The steps of a tick that finds no beeps left. -/
def TickPoint.quiet : TickPoint → Bool
  | .patternStart | .mode _ | .setLed _ | .remaining | .readOut | .setBuzzer _ => true
  | _ => false

namespace SignalsTasks

/-- No mode has been entered yet. -/
structure Silent (s : SignalsTasks) : Prop where
  beeps : s.beepsRemaining = 0
  entering : s.entering = none
  ticking : ∀ tick, s.ticking = some tick → tick.point.quiet = true

/-- A tick leaves the mode and the start of its pattern alone. -/
theorem tick_keeps (s : SignalsTasks) (tick : SignalsTick) :
    (s.tick tick).1.mode = s.mode ∧ (s.tick tick).1.patternStartMs = s.patternStartMs ∧
      (s.tick tick).1.entering = s.entering ∧ (s.tick tick).1.setLed = s.setLed ∧
      (s.tick tick).1.setBuzzer = s.setBuzzer := by
  obtain ⟨nowMs, point⟩ := tick
  cases point with
  | readOut =>
    simp only [SignalsTasks.tick, SignalsTick.step]
    split <;> simp
  | _ => exact ⟨rfl, rfl, rfl, rfl, rfl⟩

theorem Silent.tick {s : SignalsTasks} (h : s.Silent) {tick : SignalsTick}
    (inside : s.ticking = some tick) : (s.tick tick).1.Silent := by
  have quiet := h.ticking tick inside
  obtain ⟨nowMs, point⟩ := tick
  have none : ¬ s.beepsRemaining > 0 := by simp [h.beeps]
  cases point with
  | edge | sounding | silence | readCount | writeCount | silenceEdge | stillRemaining | sound
    | soundEdge | readOn => contradiction
  | readOut =>
    simp only [SignalsTasks.tick, SignalsTick.step, if_neg none]
    split
    · refine ⟨h.beeps, h.entering, ?_⟩
      rintro _ ⟨⟩
      rfl
    · refine ⟨h.beeps, h.entering, ?_⟩
      rintro _ ⟨⟩
  | setBuzzer on =>
    refine ⟨h.beeps, h.entering, ?_⟩
    rintro _ ⟨⟩
  | patternStart | mode phaseMs | setLed on =>
    refine ⟨h.beeps, h.entering, ?_⟩
    rintro _ ⟨⟩
    rfl
  | remaining =>
    simp only [SignalsTasks.tick, SignalsTick.step, if_neg none]
    refine ⟨h.beeps, h.entering, ?_⟩
    rintro _ ⟨⟩
    rfl

/-- A store of `signals_enter_mode` behind that of the mode. -/
theorem store_keeps (s : SignalsTasks) (entry : ModeEntry) :
    (s.store entry).mode = s.mode ∧
      (s.store entry).patternStartMs =
        (if entry.point = .patternStart then entry.nowMs else s.patternStartMs) ∧
      (s.store entry).setLed = s.setLed ∧ (s.store entry).setBuzzer = s.setBuzzer ∧
      ∀ later, (s.store entry).entering = some later →
        later.nowMs = entry.nowMs ∧ later.point ≠ .patternStart := by
  obtain ⟨mode, nowMs, point⟩ := entry
  cases point <;>
    simp [store, ModeEntry.step]

end SignalsTasks

/-- Where the presses of a history are: in order, each station has a part of what the one
before it had, and the state holds what is on its way. -/
structure PressPath (f : Firmware) (past : List FirmwareEvent) : Prop where
  sound : f.network.Sound
  confirmed : (queuedPresses past).Sublist (confirmedPresses past)
  fifo : queuedPresses past = takenPresses past ++ f.network.buttonQueue.items
  accepted : (acceptedPresses past).Sublist (takenPresses past)
  entered : (enteredModes past).map Prod.snd ++ f.accepted.toList = acceptedPresses past
  boxMode : f.network.cbox.mode = modeNumber (acceptedPresses past).length
  modes : (enteredModes past).map Prod.fst =
    (List.range (enteredModes past).length).map fun k => modeNumber (k + 1)
  mode : f.signals.mode = modeNumber (enteredModes past).length
  inside : ∀ entry, f.signals.entering = some entry →
    ((enteredModes past).map Prod.snd).getLast? = some entry.nowMs
  began : (∀ entry, f.signals.entering = some entry → entry.point ≠ .patternStart) →
    f.signals.patternStartMs = ((enteredModes past).map Prod.snd).getLast?.getD 0
  silent : enteredModes past = [] → f.signals.Silent
  callbacks : f.signals.setLed = true ∧ f.signals.setBuzzer = true

theorem filterMap_snoc {A B C : Type} (f : A → Option B) (g : B → Option C) (xs : List A) (x : A) :
    ((xs ++ [x]).filterMap f).filterMap g = (xs.filterMap f).filterMap g ++ ((f x).bind g).toList := by
  cases found : f x with
  | none => simp [found]
  | some y => cases kept : g y <;> simp [found, kept]

theorem start_path (board : BoardIo) (raw : Parser) (message : ProtocolMessage)
    (frame : Vector UInt8 protocolMaxFrameLength) :
    PressPath (Firmware.start board raw message frame) [] where
  sound := Network.start_sound raw message frame
  confirmed := .slnil
  fifo := rfl
  accepted := .slnil
  entered := rfl
  boxMode := rfl
  modes := rfl
  mode := rfl
  inside _ entering := by contradiction
  began _ := rfl
  silent _ := ⟨rfl, rfl, fun _ ticking => by contradiction⟩
  callbacks := ⟨rfl, rfl⟩

/-- A step that no press takes part in. -/
theorem quiet_path {f f' : Firmware} {past : List FirmwareEvent} {e : FirmwareEvent}
    (h : PressPath f past) (confirmed : e.timer.bind BoardIo.TimerEvent.pressed = none)
    (network : e.network = none) (entered : e.signals.bind enteredMode = none)
    (same : f'.network = f.network) (held : f'.accepted = f.accepted)
    (mode : f'.signals.mode = f.signals.mode)
    (inside : ∀ entry, f'.signals.entering = some entry →
      ((enteredModes past).map Prod.snd).getLast? = some entry.nowMs)
    (began : (∀ entry, f'.signals.entering = some entry → entry.point ≠ .patternStart) →
      f'.signals.patternStartMs = ((enteredModes past).map Prod.snd).getLast?.getD 0)
    (silent : enteredModes past = [] → f'.signals.Silent)
    (callbacks : f'.signals.setLed = f.signals.setLed ∧ f'.signals.setBuzzer = f.signals.setBuzzer) :
    PressPath f' (past ++ [e]) := by
  have confirmed' : confirmedPresses (past ++ [e]) = confirmedPresses past := by
    rw [confirmedPresses, timerEvents, filterMap_snoc, confirmed]
    exact List.append_nil _
  have network' : taskEvents (past ++ [e]) = taskEvents past := by
    simp [taskEvents, network]
  have entered' : enteredModes (past ++ [e]) = enteredModes past := by
    rw [enteredModes, signalsEvents, filterMap_snoc, entered]
    exact List.append_nil _
  constructor
  · rw [same]
    exact h.sound
  · rw [confirmed', queuedPresses, network']
    exact h.confirmed
  · rw [queuedPresses, takenPresses, network', same]
    exact h.fifo
  · rw [acceptedPresses, takenPresses, network']
    exact h.accepted
  · rw [entered', acceptedPresses, network', held]
    exact h.entered
  · rw [acceptedPresses, network', same]
    exact h.boxMode
  · rw [entered']
    exact h.modes
  · rw [entered', mode]
    exact h.mode
  · rw [entered']
    exact inside
  · rw [entered']
    exact began
  · rw [entered']
    exact silent
  · rw [callbacks.1, callbacks.2]
    exact h.callbacks

/-- A step of the network, and of the timer where it confirmed the press that is queued. -/
theorem network_path {f : Firmware} {past : List FirmwareEvent} (h : PressPath f past)
    {board : BoardIo} {action : NetworkAction} {network : Network} {event : NetworkEvent}
    {timer : Option BoardIo.TimerEvent}
    (moves : Network.Moves f.network action network event)
    (confirmed : event.queuedPress.toList.Sublist (timer.bind BoardIo.TimerEvent.pressed).toList)
    (free : f.network.sending = [] → event.acceptedPress ≠ none → f.accepted = none) :
    PressPath { f with
        board := board, network := network, accepted := event.acceptedPress <|> f.accepted }
      (past ++ [⟨timer, some event, none⟩]) := by
  obtain ⟨fifo, accepted, kept⟩ := Network.moves_presses moves
  have queued' : queuedPresses (past ++ [⟨timer, some event, none⟩]) =
      queuedPresses past ++ event.queuedPress.toList := filterMap_snoc _ _ _ _
  have taken' : takenPresses (past ++ [⟨timer, some event, none⟩]) =
      takenPresses past ++ event.takenPress.toList := filterMap_snoc _ _ _ _
  have accepted' : acceptedPresses (past ++ [⟨timer, some event, none⟩]) =
      acceptedPresses past ++ event.acceptedPress.toList := filterMap_snoc _ _ _ _
  have entered' : enteredModes (past ++ [⟨timer, some event, none⟩]) = enteredModes past := by
    simp [enteredModes, signalsEvents]
  constructor
  · exact Network.moves_sound h.sound moves
  · rw [queued', confirmedPresses, timerEvents, filterMap_snoc]
    exact h.confirmed.append confirmed
  · rw [queued', taken', h.fifo, List.append_assoc, fifo, List.append_assoc]
  · rw [accepted', taken']
    apply h.accepted.append
    cases found : event.acceptedPress with
    | none => exact List.nil_sublist _
    | some timestampMs => simp [(accepted timestampMs found).1]
  · rw [entered', accepted', ← h.entered]
    cases found : event.acceptedPress with
    | none => simp
    | some timestampMs =>
      simp [free (accepted timestampMs found).2.1 (by simp [found])]
  · rw [accepted']
    cases found : event.acceptedPress with
    | none => simpa [kept found] using h.boxMode
    | some timestampMs =>
      simp only [(accepted timestampMs found).2.2, h.boxMode, nextMode_number]
      simp
  · rw [entered']
    exact h.modes
  · rw [entered']
    exact h.mode
  · rw [entered']
    exact h.inside
  · rw [entered']
    exact h.began
  · rw [entered']
    exact h.silent
  · exact h.callbacks

theorem enters_path {f : Firmware} {past : List FirmwareEvent} (h : PressPath f past)
    {timestampMs : UInt32} (held : f.accepted = some timestampMs) (overlaps : Bool) :
    PressPath { f with accepted := none, signals := f.signals.enter f.network.cbox.mode timestampMs }
      (past ++ [⟨none, none, some (.entered f.network.cbox.mode timestampMs overlaps)⟩]) := by
  have network' : ∀ e : FirmwareEvent, e.network = none →
      taskEvents (past ++ [e]) = taskEvents past := by
    intro e network
    simp [taskEvents, network]
  have entered' : enteredModes (past ++ [⟨none, none,
      some (.entered f.network.cbox.mode timestampMs overlaps)⟩]) =
      enteredModes past ++ [(f.network.cbox.mode, timestampMs)] := filterMap_snoc _ _ _ _
  have count : (acceptedPresses past).length = (enteredModes past).length + 1 := by
    simp [← h.entered, held]
  constructor
  · exact h.sound
  · rw [queuedPresses, network' _ rfl, confirmedPresses, timerEvents, filterMap_snoc]
    exact h.confirmed.trans (List.sublist_append_left _ _)
  · rw [queuedPresses, takenPresses, network' _ rfl]
    exact h.fifo
  · rw [acceptedPresses, takenPresses, network' _ rfl]
    exact h.accepted
  · rw [entered', acceptedPresses, network' _ rfl]
    have whole := h.entered
    rw [held] at whole
    rw [List.map_append]
    exact (List.append_nil _).trans whole
  · rw [acceptedPresses, network' _ rfl]
    exact h.boxMode
  · rw [entered', List.map_append, h.modes, List.length_append, List.length_singleton,
      List.range_succ, List.map_append, h.boxMode, count]
    rfl
  · rw [entered', List.length_append, List.length_singleton, ← count, ← h.boxMode]
    rfl
  · rw [entered']
    rintro entry ⟨⟩
    simp
  · intro apart
    exact absurd rfl (apart _ rfl)
  · rw [entered']
    intro none
    simp at none
  · exact h.callbacks

theorem stores_path {f : Firmware} {past : List FirmwareEvent} (h : PressPath f past)
    {entry : ModeEntry} (entering : f.signals.entering = some entry) :
    PressPath { f with signals := f.signals.store entry }
      (past ++ [⟨none, none, some .stored⟩]) := by
  obtain ⟨mode, began, setLed, setBuzzer, later⟩ := f.signals.store_keeps entry
  have last := h.inside entry entering
  refine quiet_path h rfl rfl rfl rfl rfl mode ?_ ?_ ?_ ⟨setLed, setBuzzer⟩
  · intro next there
    rw [(later next there).1]
    exact last
  · intro _
    refine began.trans ?_
    split
    · rw [last]
      rfl
    · rename_i past
      refine h.began fun other there => ?_
      rw [entering] at there
      cases there
      exact past
  · intro none
    have idle := (h.silent none).entering
    rw [entering] at idle
    contradiction

theorem step_path {f f' : Firmware} {past : List FirmwareEvent} {action : FirmwareAction}
    {e : FirmwareEvent} (h : PressPath f past) (taken : f.step action = some (f', e)) :
    PressPath f' (past ++ [e]) := by
  cases Firmware.step_moves taken with
  | edge => exact quiet_path h rfl rfl rfl rfl rfl rfl h.inside h.began h.silent ⟨rfl, rfl⟩
  | timer stepped quiet =>
    exact quiet_path h quiet rfl rfl rfl rfl rfl h.inside h.began h.silent ⟨rfl, rfl⟩
  | press stepped pressed sent =>
    have moves := Network.step_moves h.sound sent
    cases moves with
    | pressed _ room =>
      refine network_path h (.pressed _ room) ?_ (fun _ some => absurd rfl some)
      simp [NetworkEvent.queuedPress, pressed]
    | missed _ full =>
      refine network_path h (.missed _ full) ?_ (fun _ some => absurd rfl some)
      exact List.nil_sublist _
  | network reads stepped =>
    have moves := Network.step_moves h.sound stepped
    refine network_path h moves ?_ ?_
    · cases queued : NetworkEvent.queuedPress _ with
      | none => exact List.nil_sublist _
      | some timestampMs =>
        rw [Network.queued_tim3 moves queued] at reads
        exact reads.elim
    · intro free accepted
      obtain ⟨paramValue, nowMs, rfl⟩ := Network.accepted_app moves accepted
      exact reads.2.2.2 free
  | enters idle free held => exact enters_path h held _
  | stores entering => exact stores_path h entering
  | calls idle =>
    refine quiet_path h rfl rfl rfl rfl rfl rfl h.inside h.began ?_ ⟨rfl, rfl⟩
    intro none
    obtain ⟨beeps, entering, _⟩ := h.silent none
    refine ⟨beeps, entering, ?_⟩
    rintro _ ⟨⟩
    rfl
  | @ticks tick inside =>
    obtain ⟨mode, began, entering, callbacks⟩ := f.signals.tick_keeps tick
    refine quiet_path h rfl rfl rfl rfl rfl mode ?_ ?_ (fun none => (h.silent none).tick inside)
      callbacks
    · intro entry there
      exact h.inside entry (entering ▸ there)
    · intro apart
      exact began.trans (h.began fun entry there => apart entry (entering.trans there))

theorem run_path {board : BoardIo} {raw : Parser} {message : ProtocolMessage}
    {frame : Vector UInt8 protocolMaxFrameLength} {actions : List FirmwareAction} {final : Firmware}
    {events : List FirmwareEvent}
    (h : run Firmware.step (Firmware.start board raw message frame) actions = some (final, events)) :
    PressPath final events :=
  run_kept (fun _ _ _ _ _ => step_path) (start_path board raw message frame) h

theorem zipped {modes : List (CboxMode × UInt32)} {times : List Nat}
    (numbers : modes.map Prod.fst = (List.range modes.length).map fun k => modeNumber (k + 1))
    (stamps : modes.map Prod.snd = times.map stamp) :
    modes = times.zipIdx.map fun t => (modeNumber (t.2 + 1), stamp t.1) := by
  have size : modes.length = times.length := by simpa using congrArg List.length stamps
  apply List.ext_getElem
  · simp [size]
  · intro n inside inside'
    have number : modes[n].1 = modeNumber (n + 1) := by
      simpa [inside] using congrArg (fun l => l[n]?) numbers
    have reached : n < times.length := size ▸ inside
    have time : modes[n].2 = stamp times[n] := by
      simpa [inside, reached] using congrArg (fun l => l[n]?) stamps
    simp [Prod.ext_iff, number, time]

theorem shown_both (board : BoardIo) (lit : Prop) [Decidable lit] (on : Bool) :
    let shown := SignalsOutput.onBoard ⟨some (if lit then ledOnDutyPercent else 0), some on⟩ board
    shown.ledCcr = (if lit then 1000 else 0) ∧ shown.buzzerCcr = if on then buzzerOnCcr else 0 := by
  refine ⟨?_, rfl⟩
  by_cases bright : lit
  · simp only [if_pos bright]
    rfl
  · simp only [if_neg bright]
    rfl

theorem onBoard_followedBy (output later : SignalsOutput) (board : BoardIo) :
    (output.followedBy later).onBoard board = later.onBoard (output.onBoard board) := by
  obtain ⟨led, buzzer⟩ := output
  obtain ⟨led', buzzer'⟩ := later
  cases led <;> cases buzzer <;> cases led' <;> cases buzzer' <;> rfl

/-- What the LED and the buzzer show. -/
def BoardIo.shown (board : BoardIo) : UInt32 × UInt32 := (board.ledCcr, board.buzzerCcr)

theorem onBoard_shown (output : SignalsOutput) {board board' : BoardIo}
    (same : board'.shown = board.shown) :
    (output.onBoard board').shown = (output.onBoard board).shown := by
  obtain ⟨led, buzzer⟩ := output
  obtain ⟨sameLed, sameBuzzer⟩ := Prod.mk.inj same
  cases led <;> cases buzzer <;>
    simp [SignalsOutput.onBoard, signalsLedOut, signalsBuzzerOut, BoardIo.shown,
      BoardIo.boardIoSetLedDuty, BoardIo.boardIoSetBuzzer, sameLed, sameBuzzer]

theorem tim3_shown (board : BoardIo) (pinHigh : Bool) (conversion : AdcConversion) :
    (board.tim3Isr pinHigh conversion).1.shown = board.shown := by
  simp only [BoardIo.tim3Isr, BoardIo.debounce, BoardIo.adcPeriod, BoardIo.adcSampleOnce]
  repeat' split
  all_goals rfl

theorem exti1_shown {board board' : BoardIo} (taken : board.exti1Isr = some board') :
    board'.shown = board.shown := by
  unfold BoardIo.exti1Isr at taken
  split at taken <;> cases taken <;> rfl

namespace Firmware

/-- Steps in which the call of `signals_tick` returns and none is of `signals_enter_mode`. -/
inductive TickReturns : Firmware → Firmware → Prop
  | last {f shown : Firmware} {e : FirmwareEvent} (turn : f.step .taskSignals = some (shown, e))
      (out : shown.signals.ticking = none) : TickReturns f shown
  | next {f g shown : Firmware} {e : FirmwareEvent} (turn : f.step .taskSignals = some (g, e))
      (inside : g.signals.ticking ≠ none) (rest : TickReturns g shown) : TickReturns f shown
  | between {f g shown : Firmware} {action : FirmwareAction} {e : FirmwareEvent}
      (other : f.step action = some (g, e)) (quiet : e.signals = none)
      (rest : TickReturns g shown) : TickReturns f shown

theorem between_keeps {f g : Firmware} {action : FirmwareAction} {e : FirmwareEvent}
    (other : f.step action = some (g, e)) (quiet : e.signals = none) :
    g.signals = f.signals ∧ g.board.shown = f.board.shown := by
  cases step_moves other with
  | edge taken statement =>
    rcases statement with rfl | rfl
    · obtain ⟨board, edge, made⟩ := Option.map_eq_some_iff.mp taken
      cases made
      obtain ⟨_, made⟩ := Option.ite_none_right_eq_some.mp edge
      cases made
      exact ⟨rfl, rfl⟩
    · obtain ⟨board, statement, made⟩ := Option.map_eq_some_iff.mp taken
      cases made
      exact ⟨rfl, exti1_shown statement⟩
  | timer taken | press taken =>
    cases taken
    exact ⟨rfl, tim3_shown _ _ _⟩
  | network => exact ⟨rfl, rfl⟩
  | enters | stores | calls | ticks => contradiction

theorem step_calls {f : Firmware} (idle : f.signals.ticking = none) :
    f.step .taskSignals = some ({ f with signals := f.signals.call f.board.uptimeMs },
      ⟨none, none, some (.called f.board.uptimeMs f.signals.entering.isSome)⟩) := by
  simp only [step, taskSignals, onSignals, if_pos idle, SignalsTasks.step_call idle]
  rfl

theorem step_ticks {f : Firmware} {tick : SignalsTick} (inside : f.signals.ticking = some tick) :
    f.step .taskSignals = some
      ({ f with
        signals := (f.signals.tick tick).1
        board := (f.signals.tick tick).2.onBoard f.board },
        ⟨none, none, some (.ticked (f.signals.tick tick).2)⟩) := by
  simp only [step, taskSignals, onSignals]
  rw [inside, if_neg (Option.some_ne_none tick), SignalsTasks.step_tick inside]
  rfl

/-- A call that is in progress can always return. -/
theorem can_return {f : Firmware} {tick : SignalsTick} (inside : f.signals.ticking = some tick) :
    ∃ shown, TickReturns f shown := by
  induction size : tick.point.left using Nat.strong_induction_on generalizing f tick with
  | h left ih =>
  cases after : (f.signals.tick tick).1.ticking with
  | none => exact ⟨_, .last (step_ticks inside) after⟩
  | some later =>
    obtain ⟨shown, rest⟩ := ih _ (size ▸ SignalsTasks.tick_left after) (f := { f with
      signals := (f.signals.tick tick).1
      board := (f.signals.tick tick).2.onBoard f.board }) after rfl
    exact ⟨shown, .next (step_ticks inside) (by simp [after]) rest⟩

/-- What such steps come to is the rest of the call. -/
theorem tick_returns {f shown : Firmware} (returns : TickReturns f shown) {tick : SignalsTick}
    (inside : f.signals.ticking = some tick) :
    shown.board.shown = ((tick.rest f.signals.toSignals).2.onBoard f.board).shown := by
  induction returns generalizing tick with
  | @last f shown e turn out =>
    rw [step_ticks inside] at turn
    cases turn
    rcases went : tick.step f.signals.toSignals with ⟨ticked, _ | later, output⟩
    · rw [tick_rest, went]
      simp only [SignalsTasks.tick, went]
    · simp [SignalsTasks.tick, went] at out
  | @next f g shown e turn going rest ih =>
    rw [step_ticks inside] at turn
    cases turn
    rcases went : tick.step f.signals.toSignals with ⟨ticked, _ | later, output⟩
    · simp [SignalsTasks.tick, went] at going
    · have ticks : (f.signals.tick tick).1.ticking = some later := by simp [SignalsTasks.tick, went]
      rw [ih ticks, tick_rest tick, went, onBoard_followedBy]
      simp only [SignalsTasks.tick, went]
  | @between f g shown action e other quiet rest ih =>
    obtain ⟨same, board⟩ := between_keeps other quiet
    rw [ih (same ▸ inside), same]
    exact onBoard_shown _ board

end Firmware

/-- What a call of `signals_tick` puts out, `last` and `now` being true times. -/
theorem signals_out {f called shown : Firmware} {past : List FirmwareEvent} {e : FirmwareEvent}
    {last now : Nat} (h : PressPath f past) (began : f.signals.patternStartMs = stamp last)
    (uptime : f.board.uptimeMs = stamp now) (order : last ≤ now) (idle : f.signals.ticking = none)
    (turn : f.step .taskSignals = some (called, e)) (returns : called.TickReturns shown) :
    shown.board.ledCcr = (if PatternLit f.signals.mode ((now - last) % 2 ^ 32) then 1000 else 0) ∧
      (f.signals.beepsRemaining = 0 → shown.board.buzzerCcr = 0) := by
  rw [Firmware.step_calls idle] at turn
  cases turn
  have whole := Firmware.tick_returns returns rfl
  have atomic : SignalsTick.rest ⟨f.board.uptimeMs, .patternStart⟩ f.signals.toSignals =
      signalsTick f.signals.toSignals (stamp now) :=
    uptime ▸ call_rest f.signals f.board.uptimeMs
  obtain ⟨setLed, setBuzzer⟩ := h.callbacks
  have led : (signalsTick f.signals.toSignals (stamp now)).2.led =
      some (if PatternLit f.signals.mode ((now - last) % 2 ^ 32) then ledOnDutyPercent else 0) := by
    simp only [signalsTick, setLed, if_true, ledPattern_lit, began, elapsed_mod order,
      decide_eq_true_eq]
  generalize ticked : signalsTick f.signals.toSignals (stamp now) = r at led atomic
  have buzzer : ∃ on, r.2.buzzer = some on ∧ (f.signals.beepsRemaining = 0 → on = false) := by
    rw [← ticked]
    have kept := (beepTick_kept f.signals.toSignals (stamp now)).2.2.2
    simp only [signalsTick, kept, setBuzzer, if_true]
    refine ⟨_, rfl, ?_⟩
    intro none
    simp [beepTick, none]
  obtain ⟨on, buzzer, silent⟩ := buzzer
  have output : r.2 = ⟨some (if PatternLit f.signals.mode ((now - last) % 2 ^ 32) then
      ledOnDutyPercent else 0), some on⟩ := by rw [← led, ← buzzer]
  obtain ⟨lit, sounds⟩ := shown_both f.board
    (PatternLit f.signals.mode ((now - last) % 2 ^ 32)) on
  have both : shown.board.shown = (r.2.onBoard f.board).shown := whole.trans (by rw [← atomic]; rfl)
  rw [output] at both
  obtain ⟨ledCcr, buzzerCcr⟩ := Prod.mk.inj both
  refine ⟨ledCcr.trans lit, ?_⟩
  intro none
  rw [buzzerCcr, sounds, silent none]
  rfl

/-- From the pin to the LED, in every run of the whole board. The modes that the signals have
entered are those of accepted presses, each stamped with the time at which `tim3_isr`
confirmed it; none is invented, doubled or overtaken, and they are a window apart where no
timer run tears `exti1_isr`. The box is at most the one press ahead that `task_app` holds. A
call of `signals_tick`, whatever else goes on meanwhile but steps of `signals_enter_mode`, makes
the LED show the pattern of the last mode, from the time of its press on, unless it comes between
the first two stores of an entry; and the buzzer is silent before the first. -/
theorem press_to_led (first : AdcConversion) (boot : List BoardAction) (raw : Parser)
    (message : ProtocolMessage) (frame : Vector UInt8 protocolMaxFrameLength)
    (actions : List FirmwareAction) {board : BoardIo} {booted : List (Option BoardIo.TimerEvent)}
    {final : Firmware} {events : List FirmwareEvent}
    (up : run BoardIo.step (BoardIo.boardIoInit first) boot = some (board, booted))
    (h : run Firmware.step (Firmware.start board raw message frame) actions =
      some (final, events)) :
    ∃ times : List Nat,
      times.Sublist (pressTimes (timerRuns booted).length (timerEvents events)) ∧
      ((∀ run ∈ timerRuns booted ++ timerEvents events, run.interrupted ≠ .setRemaining) →
        times.Pairwise fun earlier later => earlier + 50 ≤ later) ∧
      enteredModes events = times.zipIdx.map (fun t => (modeNumber (t.2 + 1), stamp t.1)) ∧
      times.map stamp ++ final.accepted.toList = acceptedPresses events ∧
      final.network.cbox.mode = modeNumber (acceptedPresses events).length ∧
      ∀ called e shown, final.signals.ticking = none →
        (∀ entry, final.signals.entering = some entry → entry.point ≠ .patternStart) →
        final.step .taskSignals = some (called, e) → called.TickReturns shown →
        shown.board.ledCcr = (if PatternLit (modeNumber times.length)
          (((timerRuns booted).length + (timerEvents events).length - times.getLast?.getD 0) % 2 ^ 32)
          then 1000 else 0) ∧
        (times = [] → shown.board.buzzerCcr = 0) := by
  have path := run_path h
  obtain ⟨boardActions, told, ran, timers⟩ := Firmware.run_boot up h
  have timed := BoardIo.run_timed first boardActions ran
  rw [timers] at timed
  have stamps : confirmedPresses events =
      (pressTimes (timerRuns booted).length (timerEvents events)).map stamp := by
    apply pressTimes_stamps
    intro n run there timestampMs pressed
    refine BoardIo.timed_presses timed _ run ?_ timestampMs pressed
    rw [List.getElem?_append_right (Nat.le_add_right _ _), Nat.add_sub_cancel_left]
    exact there
  have passed : ((enteredModes events).map Prod.snd).Sublist (confirmedPresses events) := by
    have toQueue := path.fifo ▸ List.sublist_append_left _ _
    exact (path.entered ▸ List.sublist_append_left _ _).trans
      (path.accepted.trans (toQueue.trans path.confirmed))
  rw [stamps] at passed
  obtain ⟨times, among, entered⟩ := List.sublist_map_iff.mp passed
  have count : times.length = (enteredModes events).length := by
    rw [← List.length_map (f := stamp), ← entered, List.length_map]
  refine ⟨times, among, ?_, ?_, ?_, path.boxMode, ?_⟩
  · intro whole
    rw [← timers] at whole
    have apart := BoardIo.presses_apart first boardActions ran whole
    rw [timers, pressTimes_append, Nat.zero_add] at apart
    exact apart.sublist (among.trans (List.sublist_append_right _ _))
  · exact zipped path.modes entered
  · rw [← entered]
    exact path.entered
  · intro called e shown idle apart turn returns
    have last : times.getLast?.getD 0 ≤ (timerRuns booted ++ timerEvents events).length := by
      cases found : times.getLast? with
      | none => exact Nat.zero_le _
      | some t =>
        have there := among.subset (List.mem_of_getLast? found)
        rw [List.length_append]
        exact (pressTimes_bounds _ _ t there).2
    have began : final.signals.patternStartMs = stamp (times.getLast?.getD 0) := by
      rw [path.began apart, entered, List.getLast?_map]
      cases times.getLast? <;> rfl
    rw [count, ← path.mode, ← List.length_append]
    obtain ⟨lit, silent⟩ := signals_out path began timed.uptime last idle turn returns
    refine ⟨lit, ?_⟩
    rintro rfl
    exact silent (path.silent (List.length_eq_zero_iff.mp count.symm)).beeps

/-- A press, its way to the signals, and 130 ms more. -/
def firstPress : List FirmwareAction :=
  [.risingEdge, .exti1Isr, .exti1Isr, .exti1Isr, .exti1Isr] ++
    List.replicate 50 (.tim3Isr true ⟨fun _ => true, 0⟩) ++ List.replicate 10 .taskApp ++
    List.replicate 130 (.tim3Isr true ⟨fun _ => true, 0⟩)

theorem press_to_led_first : ∃ final events,
    run Firmware.step (Firmware.start (BoardIo.boardIoInit ⟨fun _ => true, 0⟩) blankParser
      blankMessage (Vector.replicate 64 0)) firstPress = some (final, events) ∧
    enteredModes events = [(.modeDeploy, stamp 50)] ∧
    ∃ called e shown, final.step .taskSignals = some (called, e) ∧ called.TickReturns shown ∧
      shown.board.ledCcr = 0 := by
  have ends : (run Firmware.step (Firmware.start (BoardIo.boardIoInit ⟨fun _ => true, 0⟩) blankParser
      blankMessage (Vector.replicate 64 0)) firstPress).any
      (fun r => decide ((timerEvents r.2).length = 180 ∧
        pressTimes 0 (timerEvents r.2) = [50] ∧ (enteredModes r.2).length = 1 ∧
        r.1.signals.ticking = none ∧ r.1.signals.entering = none)) = true := by
    decide +kernel
  obtain ⟨⟨final, events⟩, ran, ends⟩ := (Option.any_eq_true _ _).mp ends
  obtain ⟨length, press, entered, idle, stored⟩ := of_decide_eq_true ends
  have up : run BoardIo.step (BoardIo.boardIoInit ⟨fun _ => true, 0⟩) [] =
      some (BoardIo.boardIoInit ⟨fun _ => true, 0⟩, []) := rfl
  obtain ⟨times, among, _, modes, _, _, shows⟩ := press_to_led ⟨fun _ => true, 0⟩ [] blankParser
    blankMessage (Vector.replicate 64 0) firstPress up ran
  have count : times.length = 1 := by
    rw [modes] at entered
    simpa using entered
  have once : times = [50] := by
    have among' : times.Sublist [50] := press ▸ among
    exact among'.eq_of_length count
  subst once
  have turn := Firmware.step_calls idle
  have inside : (final.signals.call final.board.uptimeMs).ticking =
      some ⟨final.board.uptimeMs, .patternStart⟩ := rfl
  obtain ⟨shown, returns⟩ := Firmware.can_return (f := { final with
    signals := final.signals.call final.board.uptimeMs }) inside
  refine ⟨final, events, ran, modes, _, _, shown, turn, returns, ?_⟩
  have apart : ∀ entry, final.signals.entering = some entry → entry.point ≠ .patternStart := by
    rw [stored]
    exact fun entry there => absurd there.symm (Option.some_ne_none entry)
  obtain ⟨led, _⟩ := shows _ _ shown idle apart turn returns
  simp only [length] at led
  exact led

/-- A press, the turns of `task_app`, and `task_signals` 210 ms later: the phase is 210 of 250. -/
def tickAfter (turns : List FirmwareAction) : Option UInt32 :=
  (run Firmware.step (Firmware.start (BoardIo.boardIoInit ⟨fun _ => true, 0⟩) blankParser
    blankMessage (Vector.replicate 64 0)) (firstPress.take 55 ++ turns ++
      List.replicate 210 (.tim3Isr true ⟨fun _ => true, 0⟩) ++ List.replicate 4 .taskSignals)).map
    fun r => r.1.board.ledCcr

-- Between the first two stores the new pattern starts at the old time.
example : tickAfter (List.replicate 5 .taskApp) = some 1000 ∧
    tickAfter (List.replicate 6 .taskApp) = some 0 := by
  decide +kernel

end CommandBox
