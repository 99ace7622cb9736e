import CommandBox.Signals

/-! The calls of signals.c as two tasks make them on one `signals_t` that nothing protects:
`task_app` enters modes and `task_signals` ticks. A step reads or writes it once, in the order
of the source, and the other task can come between any two. -/
namespace CommandBox

/-- The next step of `signals_enter_mode`, after its store of the mode. -/
inductive EntryPoint where
  | patternStart
  | beepsRemaining
  | readBeeps
  | beepOn (on : Bool)
  | beepEdge
  deriving DecidableEq

/-- The steps that are left. -/
def EntryPoint.left : EntryPoint → Nat
  | .patternStart => 5
  | .beepsRemaining => 4
  | .readBeeps => 3
  | .beepOn _ => 2
  | .beepEdge => 1

structure ModeEntry where
  mode : CboxMode
  nowMs : UInt32
  point : EntryPoint
  deriving DecidableEq

/-- The next step of `signals_tick`, with what it has read. -/
inductive TickPoint where
  | patternStart
  | mode (phaseMs : UInt32)
  | setLed (on : Bool)
  | remaining
  | edge
  | sounding
  | silence
  | readCount
  | writeCount (beeps : UInt8)
  | silenceEdge
  | stillRemaining
  | sound
  | soundEdge
  | readOut
  | readOn
  | setBuzzer (on : Bool)
  deriving DecidableEq

/-- A bound on the steps that are left. -/
def TickPoint.left : TickPoint → Nat
  | .patternStart => 16
  | .mode _ => 15
  | .setLed _ => 14
  | .remaining => 13
  | .edge => 12
  | .sounding => 11
  | .silence => 10
  | .readCount => 9
  | .writeCount _ => 8
  | .silenceEdge => 7
  | .stillRemaining => 6
  | .sound => 5
  | .soundEdge => 4
  | .readOut => 3
  | .readOn => 2
  | .setBuzzer _ => 1

structure SignalsTick where
  nowMs : UInt32
  point : TickPoint
  deriving DecidableEq

/-- `signals_t` and where the two tasks are in their calls. -/
structure SignalsTasks extends Signals where
  entering : Option ModeEntry
  ticking : Option SignalsTick
  deriving DecidableEq

inductive SignalsAction where
  | enterMode (mode : CboxMode) (nowMs : UInt32)
  | proceedEntry
  | tick (nowMs : UInt32)
  | proceedTick

/-- What a step did. The start of a call says whether the other task is inside one. -/
inductive SignalsEvent where
  | entered (mode : CboxMode) (nowMs : UInt32) (inside : Bool)
  | stored
  | called (nowMs : UInt32) (inside : Bool)
  | ticked (output : SignalsOutput)
  deriving DecidableEq

def SignalsOutput.nothing : SignalsOutput := ⟨none, none⟩

/-- The value that is passed last stays. -/
def SignalsOutput.followedBy (output later : SignalsOutput) : SignalsOutput :=
  ⟨later.led <|> output.led, later.buzzer <|> output.buzzer⟩

def SignalsEvent.output : SignalsEvent → SignalsOutput
  | .ticked output => output
  | _ => .nothing

def ledOutput (signals : Signals) (on : Bool) : Option UInt8 :=
  if signals.setLed then some (if on then ledOnDutyPercent else 0) else none

def ModeEntry.step (entry : ModeEntry) (signals : Signals) : Signals × Option ModeEntry :=
  let next (point : EntryPoint) := some { entry with point := point }
  match entry.point with
  | .patternStart => ({ signals with patternStartMs := entry.nowMs }, next .beepsRemaining)
  | .beepsRemaining =>
    ({ signals with beepsRemaining := cboxModeBeepCount entry.mode }, next .readBeeps)
  | .readBeeps => (signals, next (.beepOn (signals.beepsRemaining > 0)))
  | .beepOn on => ({ signals with beepOn := on }, next .beepEdge)
  | .beepEdge => ({ signals with beepEdgeMs := entry.nowMs + beepOnMs }, none)

def SignalsTick.step (tick : SignalsTick) (signals : Signals) :
    Signals × Option SignalsTick × SignalsOutput :=
  let next (signals : Signals) (point : TickPoint) : Signals × Option SignalsTick × SignalsOutput :=
    (signals, some { tick with point := point }, .nothing)
  match tick.point with
  | .patternStart => next signals (.mode (tick.nowMs - signals.patternStartMs))
  | .mode phaseMs => next signals (.setLed (ledPatternIsOn signals.mode phaseMs))
  | .setLed on => (signals, some { tick with point := .remaining }, ⟨ledOutput signals on, none⟩)
  | .remaining => next signals (if signals.beepsRemaining > 0 then .edge else .readOut)
  | .edge =>
    next signals (if (tick.nowMs - signals.beepEdgeMs).toInt32 ≥ 0 then .sounding else .readOut)
  | .sounding => next signals (if signals.beepOn then .silence else .stillRemaining)
  | .silence => next { signals with beepOn := false } .readCount
  | .readCount => next signals (.writeCount (signals.beepsRemaining - 1))
  | .writeCount beeps => next { signals with beepsRemaining := beeps } .silenceEdge
  | .silenceEdge => next { signals with beepEdgeMs := tick.nowMs + beepOffMs } .readOut
  | .stillRemaining => next signals (if signals.beepsRemaining > 0 then .sound else .readOut)
  | .sound => next { signals with beepOn := true } .soundEdge
  | .soundEdge => next { signals with beepEdgeMs := tick.nowMs + beepOnMs } .readOut
  | .readOut =>
    if signals.setBuzzer then
      next signals (if signals.beepsRemaining > 0 then .readOn else .setBuzzer false)
    else (signals, none, .nothing)
  | .readOn => next signals (.setBuzzer signals.beepOn)
  | .setBuzzer on => (signals, none, ⟨none, some on⟩)

namespace SignalsTasks

def start (signals : Signals) : SignalsTasks := ⟨signals, none, none⟩

def enter (s : SignalsTasks) (mode : CboxMode) (nowMs : UInt32) : SignalsTasks :=
  { s with mode := mode, entering := some ⟨mode, nowMs, .patternStart⟩ }

def store (s : SignalsTasks) (entry : ModeEntry) : SignalsTasks :=
  let stored := entry.step s.toSignals
  { s with toSignals := stored.1, entering := stored.2 }

/-- The argument has been read, and nothing of the signals yet. -/
def call (s : SignalsTasks) (nowMs : UInt32) : SignalsTasks :=
  { s with ticking := some ⟨nowMs, .patternStart⟩ }

def tick (s : SignalsTasks) (tick : SignalsTick) : SignalsTasks × SignalsOutput :=
  let ticked := tick.step s.toSignals
  ({ s with toSignals := ticked.1, ticking := ticked.2.1 }, ticked.2.2)

def step (s : SignalsTasks) : SignalsAction → Option (SignalsTasks × SignalsEvent)
  | .enterMode mode nowMs =>
    if s.entering = none then
      some (s.enter mode nowMs, .entered mode nowMs s.ticking.isSome)
    else none
  | .proceedEntry => s.entering.map fun entry => (s.store entry, .stored)
  | .tick nowMs =>
    if s.ticking = none then some (s.call nowMs, .called nowMs s.entering.isSome) else none
  | .proceedTick => s.ticking.map fun tick => ((s.tick tick).1, .ticked (s.tick tick).2)

variable {s : SignalsTasks}

/-- The steps that are left of a call of `signals_enter_mode`. -/
def storesLeft (s : SignalsTasks) : Nat := (s.entering.map fun entry => entry.point.left).getD 0

theorem step_enter (idle : s.entering = none) (mode : CboxMode) (nowMs : UInt32) :
    s.step (.enterMode mode nowMs) =
      some (s.enter mode nowMs, .entered mode nowMs s.ticking.isSome) := if_pos idle

theorem step_store {entry : ModeEntry} (inside : s.entering = some entry) :
    s.step .proceedEntry = some (s.store entry, .stored) := by
  rw [step, inside, Option.map_some]

theorem step_call (idle : s.ticking = none) (nowMs : UInt32) :
    s.step (.tick nowMs) = some (s.call nowMs, .called nowMs s.entering.isSome) := if_pos idle

theorem step_tick {tick : SignalsTick} (inside : s.ticking = some tick) :
    s.step .proceedTick = some ((s.tick tick).1, .ticked (s.tick tick).2) := by
  rw [step, inside, Option.map_some]

theorem enter_left (s : SignalsTasks) (mode : CboxMode) (nowMs : UInt32) :
    (s.enter mode nowMs).storesLeft = 5 := rfl

theorem store_left {entry : ModeEntry} (inside : s.entering = some entry) :
    (s.store entry).storesLeft < s.storesLeft := by
  obtain ⟨mode, nowMs, point⟩ := entry
  rw [storesLeft, storesLeft, inside]
  cases point <;> exact Nat.lt_succ_self _

theorem tick_left {tick later : SignalsTick} (goes : (s.tick tick).1.ticking = some later) :
    later.point.left < tick.point.left := by
  obtain ⟨nowMs, point⟩ := tick
  cases point with
  | remaining | edge | sounding | stillRemaining =>
    cases goes
    dsimp only
    split <;> simp [TickPoint.left]
  | readOut =>
    simp only [SignalsTasks.tick, SignalsTick.step] at goes
    split at goes
    · cases goes
      dsimp only
      split <;> simp [TickPoint.left]
    · cases goes
  | setBuzzer on => cases goes
  | patternStart | mode | setLed | silence | readCount | writeCount | silenceEdge | sound | soundEdge
    | readOn =>
    cases goes
    simp [TickPoint.left]

end SignalsTasks

/- What a call still does when it is left alone. -/

def ModeEntry.rest (entry : ModeEntry) (signals : Signals) : Signals :=
  match entry.point with
  | .patternStart =>
    { signals with
      patternStartMs := entry.nowMs
      beepsRemaining := cboxModeBeepCount entry.mode
      beepOn := cboxModeBeepCount entry.mode > 0
      beepEdgeMs := entry.nowMs + beepOnMs }
  | .beepsRemaining =>
    { signals with
      beepsRemaining := cboxModeBeepCount entry.mode
      beepOn := cboxModeBeepCount entry.mode > 0
      beepEdgeMs := entry.nowMs + beepOnMs }
  | .readBeeps =>
    { signals with beepOn := signals.beepsRemaining > 0, beepEdgeMs := entry.nowMs + beepOnMs }
  | .beepOn on => { signals with beepOn := on, beepEdgeMs := entry.nowMs + beepOnMs }
  | .beepEdge => { signals with beepEdgeMs := entry.nowMs + beepOnMs }

def buzzerOutput (signals : Signals) : Option Bool :=
  if signals.setBuzzer then some (decide (signals.beepsRemaining > 0) && signals.beepOn) else none

def SignalsTick.rest (tick : SignalsTick) (signals : Signals) : Signals × SignalsOutput :=
  let sounds (signals : Signals) : Signals × SignalsOutput :=
    (signals, ⟨none, buzzerOutput signals⟩)
  let ended := { signals with beepEdgeMs := tick.nowMs + beepOffMs }
  let begun := { signals with beepOn := true, beepEdgeMs := tick.nowMs + beepOnMs }
  let still := if signals.beepsRemaining > 0 then begun else signals
  let half :=
    if signals.beepOn then
      { ended with beepOn := false, beepsRemaining := signals.beepsRemaining - 1 }
    else still
  match tick.point with
  | .patternStart =>
    let ticked := beepTick signals tick.nowMs
    let phaseMs := tick.nowMs - signals.patternStartMs
    (ticked, ⟨ledOutput signals (ledPatternIsOn signals.mode phaseMs), buzzerOutput ticked⟩)
  | .mode phaseMs =>
    let ticked := beepTick signals tick.nowMs
    (ticked, ⟨ledOutput signals (ledPatternIsOn signals.mode phaseMs), buzzerOutput ticked⟩)
  | .setLed on =>
    let ticked := beepTick signals tick.nowMs
    (ticked, ⟨ledOutput signals on, buzzerOutput ticked⟩)
  | .remaining => sounds (beepTick signals tick.nowMs)
  | .edge => sounds (if (tick.nowMs - signals.beepEdgeMs).toInt32 ≥ 0 then half else signals)
  | .sounding => sounds half
  | .silence => sounds { ended with beepOn := false, beepsRemaining := signals.beepsRemaining - 1 }
  | .readCount => sounds { ended with beepsRemaining := signals.beepsRemaining - 1 }
  | .writeCount beeps => sounds { ended with beepsRemaining := beeps }
  | .silenceEdge => sounds ended
  | .stillRemaining => sounds still
  | .sound => sounds begun
  | .soundEdge => sounds { signals with beepEdgeMs := tick.nowMs + beepOnMs }
  | .readOut => sounds signals
  | .readOn => (signals, ⟨none, some signals.beepOn⟩)
  | .setBuzzer on => (signals, ⟨none, some on⟩)

theorem entry_rest (entry : ModeEntry) (signals : Signals) :
    entry.rest signals = match entry.step signals with
      | (stored, none) => stored
      | (stored, some later) => later.rest stored := by
  obtain ⟨mode, nowMs, point⟩ := entry
  cases point <;> rfl

theorem followedBy_nothing (output : SignalsOutput) :
    SignalsOutput.nothing.followedBy output = output := by
  obtain ⟨led, buzzer⟩ := output
  cases led <;> cases buzzer <;> rfl

/-- The buzzer of a call that reads on is the one it would set. -/
theorem tick_rest (tick : SignalsTick) (signals : Signals) :
    tick.rest signals = match tick.step signals with
      | (ticked, none, output) => (ticked, output)
      | (ticked, some later, output) =>
        ((later.rest ticked).1, output.followedBy (later.rest ticked).2) := by
  obtain ⟨nowMs, point⟩ := tick
  cases point with
  | readOut =>
    simp only [SignalsTick.step, SignalsTick.rest, buzzerOutput]
    cases signals.setBuzzer with
    | false => rfl
    | true => by_cases more : signals.beepsRemaining > 0 <;> simp [more, followedBy_nothing]
  | remaining =>
    simp only [SignalsTick.step, SignalsTick.rest, followedBy_nothing, beepTick]
    by_cases more : signals.beepsRemaining > 0 <;> simp [more]
  | edge =>
    simp only [SignalsTick.step, SignalsTick.rest, followedBy_nothing]
    by_cases due : (nowMs - signals.beepEdgeMs).toInt32 ≥ 0
    · simp only [if_pos due]
    · simp only [if_neg due]
  | sounding =>
    simp only [SignalsTick.step, SignalsTick.rest, followedBy_nothing]
    by_cases on : signals.beepOn = true <;> simp [on]
  | stillRemaining =>
    simp only [SignalsTick.step, SignalsTick.rest, followedBy_nothing]
    by_cases more : signals.beepsRemaining > 0 <;> simp [more]
  | setLed on =>
    simp only [SignalsTick.step, SignalsTick.rest, SignalsOutput.followedBy]
    cases buzzerOutput (beepTick signals nowMs) <;> rfl
  | patternStart | mode | silence | readCount | writeCount | silenceEdge | sound | soundEdge | readOn
    | setBuzzer =>
    simp [SignalsTick.step, SignalsTick.rest, followedBy_nothing, buzzerOutput, ledOutput]

/-- A call of `signals_tick` that is left alone is one step of the signals. -/
theorem call_rest (s : SignalsTasks) (nowMs : UInt32) :
    SignalsTick.rest ⟨nowMs, .patternStart⟩ s.toSignals =
      signalsTick s.toSignals nowMs := rfl

def SignalsEvent.begins : SignalsEvent → Option SignalsCall
  | .entered mode nowMs _ => some (.enterMode mode nowMs)
  | .called nowMs _ => some (.tick nowMs)
  | .stored | .ticked _ => none

/-- A call that begins while the other task is inside one. -/
def SignalsEvent.overlaps : SignalsEvent → Bool
  | .entered _ _ inside | .called _ inside => inside
  | .stored | .ticked _ => false

/-- The calls of the callbacks, in their order. -/
def SignalsOutput.callbacks (output : SignalsOutput) : List (UInt8 ⊕ Bool) :=
  (output.led.map Sum.inl).toList ++ (output.buzzer.map Sum.inr).toList

theorem rest_callbacks {tick later : SignalsTick} {signals ticked : Signals}
    {output : SignalsOutput} (goes : tick.step signals = (ticked, some later, output)) :
    (tick.rest signals).2.callbacks = output.callbacks ++ (later.rest ticked).2.callbacks := by
  have whole := tick_rest tick signals
  rw [goes] at whole
  have parted : output = .nothing ∨ output.buzzer = none ∧ (later.rest ticked).2.led = none := by
    obtain ⟨nowMs, point⟩ := tick
    cases point with
    | setLed on =>
      cases goes
      exact .inr ⟨rfl, rfl⟩
    | readOut =>
      left
      simp only [SignalsTick.step] at goes
      split at goes
      · cases goes
        rfl
      · cases goes
    | setBuzzer on => cases goes
    | patternStart | mode | remaining | edge | sounding | silence | readCount | writeCount
      | silenceEdge | stillRemaining | sound | soundEdge | readOn =>
      cases goes
      exact .inl rfl
  rw [whole]
  dsimp only
  rcases parted with rfl | ⟨silent, dark⟩
  · rw [followedBy_nothing]
    rfl
  · simp [SignalsOutput.callbacks, SignalsOutput.followedBy, silent, dark]

namespace SignalsTasks

/-- The state and the callbacks once the call in progress has returned. -/
def settled (s : SignalsTasks) : Signals × SignalsOutput :=
  match s.entering, s.ticking with
  | some entry, _ => (entry.rest s.toSignals, .nothing)
  | none, some tick => tick.rest s.toSignals
  | none, none => (s.toSignals, .nothing)

/-- The calls so far, taken whole, lead to what the call in progress will lead to. -/
structure Whole (first : Signals) (s : SignalsTasks) (past : List SignalsEvent) : Prop where
  alone : s.entering = none ∨ s.ticking = none
  state : (runSignals first (past.filterMap SignalsEvent.begins)).1 = s.settled.1
  callbacks : (runSignals first (past.filterMap SignalsEvent.begins)).2.flatMap
      SignalsOutput.callbacks =
    past.flatMap (fun e => e.output.callbacks) ++ s.settled.2.callbacks

/-- A call begins where no other is in progress. -/
theorem Whole.begins {first : Signals} {s s' : SignalsTasks} {past : List SignalsEvent}
    {e : SignalsEvent} {call : SignalsCall} (h : Whole first s past)
    (idle : s.entering = none ∧ s.ticking = none) (made : e.begins = some call)
    (alone : s'.entering = none ∨ s'.ticking = none)
    (rest : s'.settled = signalsCall s.toSignals call) : Whole first s' (past ++ [e]) := by
  have before : s.settled = (s.toSignals, .nothing) := by
    rw [settled, idle.1, idle.2]
  have quiet : e.output = .nothing := by
    cases e <;> first | rfl | cases made
  have calls : (past ++ [e]).filterMap SignalsEvent.begins =
      past.filterMap SignalsEvent.begins ++ [call] := by simp [made]
  have state : (Machine.trace signalsCall first (past.filterMap SignalsEvent.begins)).1 =
      s.toSignals := h.state.trans (congrArg Prod.fst before)
  have callbacks : (Machine.trace signalsCall first
      (past.filterMap SignalsEvent.begins)).2.flatMap SignalsOutput.callbacks =
        past.flatMap (fun e => e.output.callbacks) := by
    have told := h.callbacks
    rw [before] at told
    exact told.trans (List.append_nil _)
  refine ⟨alone, ?_, ?_⟩
  · rw [calls, runSignals, Machine.trace_append, rest, state]
    rfl
  · rw [calls, runSignals, Machine.trace_append, List.flatMap_append, List.flatMap_append, rest,
      state, callbacks]
    simp [quiet, SignalsOutput.nothing, SignalsOutput.callbacks, Machine.trace]

/-- A step of a call in progress. -/
theorem Whole.goes {first : Signals} {s s' : SignalsTasks} {past : List SignalsEvent}
    {e : SignalsEvent} (h : Whole first s past) (none : e.begins = none)
    (alone : s'.entering = .none ∨ s'.ticking = .none) (state : s'.settled.1 = s.settled.1)
    (callbacks : s.settled.2.callbacks = e.output.callbacks ++ s'.settled.2.callbacks) :
    Whole first s' (past ++ [e]) := by
  have calls : (past ++ [e]).filterMap SignalsEvent.begins =
      past.filterMap SignalsEvent.begins := by simp [none]
  refine ⟨alone, ?_, ?_⟩
  · rw [calls, h.state, state]
  · rw [calls, h.callbacks, callbacks]
    simp

theorem step_whole {first : Signals} {s s' : SignalsTasks} {past : List SignalsEvent}
    {action : SignalsAction} {e : SignalsEvent} (h : Whole first s past)
    (apart : e.overlaps = false) (taken : s.step action = some (s', e)) :
    Whole first s' (past ++ [e]) := by
  cases action with
  | enterMode mode nowMs =>
    obtain ⟨idle, made⟩ := Option.ite_none_right_eq_some.mp taken
    cases made
    have still : s.ticking = none := Option.not_isSome_iff_eq_none.mp (Bool.not_eq_true _ ▸ apart)
    exact h.begins ⟨idle, still⟩ rfl (.inr still) rfl
  | tick nowMs =>
    obtain ⟨idle, made⟩ := Option.ite_none_right_eq_some.mp taken
    cases made
    have still : s.entering = none := Option.not_isSome_iff_eq_none.mp (Bool.not_eq_true _ ▸ apart)
    refine h.begins ⟨still, idle⟩ rfl (.inl still) ?_
    rw [settled, call, still]
    rfl
  | proceedEntry =>
    obtain ⟨entry, inside, made⟩ := Option.map_eq_some_iff.mp taken
    cases made
    have still : s.ticking = none := h.alone.resolve_left (by simp [inside])
    have before : s.settled = (entry.rest s.toSignals, .nothing) := by rw [settled, inside]
    have after : (s.store entry).settled = (entry.rest s.toSignals, .nothing) := by
      rw [entry_rest]
      rcases went : entry.step s.toSignals with ⟨stored, _ | later⟩ <;>
        simp [settled, store, went, still]
    exact h.goes rfl (.inr still) (by rw [after, before]) (by rw [after, before]; rfl)
  | proceedTick =>
    obtain ⟨tick, inside, made⟩ := Option.map_eq_some_iff.mp taken
    cases made
    have still : s.entering = none := h.alone.resolve_right (by simp [inside])
    have before : s.settled = tick.rest s.toSignals := by rw [settled, still, inside]
    refine h.goes rfl (.inl still) ?_ ?_
    · rw [before, tick_rest]
      rcases went : tick.step s.toSignals with ⟨ticked, _ | later, output⟩ <;>
        simp [settled, SignalsTasks.tick, went, still]
    · rw [before]
      rcases went : tick.step s.toSignals with ⟨ticked, _ | later, output⟩
      · rw [tick_rest, went]
        simp [settled, SignalsTasks.tick, went, still, SignalsEvent.output, SignalsOutput.nothing,
          SignalsOutput.callbacks]
      · rw [rest_callbacks went]
        simp [settled, SignalsTasks.tick, went, still, SignalsEvent.output]

/-- Where no call begins inside another, the two tasks make their calls one after the other. -/
theorem run_whole {first : Signals} {s : SignalsTasks} {actions : List SignalsAction}
    {events : List SignalsEvent}
    (ran : Machine.run step (start first) actions = some (s, events))
    (apart : ∀ e ∈ events, e.overlaps = false) : Whole first s events := by
  have initial : (∀ e ∈ ([] : List SignalsEvent), e.overlaps = false) →
      Whole first (start first) [] := fun _ => ⟨.inl rfl, rfl, rfl⟩
  refine Machine.run_kept (I := fun s past => (∀ e ∈ past, e.overlaps = false) → Whole first s past)
    ?_ initial ran apart
  intro s past action s' e h taken apart
  refine step_whole (h fun e inside => apart e (List.mem_append_left _ inside)) ?_ taken
  exact apart e (List.mem_append_right _ List.mem_cons_self)

end SignalsTasks

end CommandBox
