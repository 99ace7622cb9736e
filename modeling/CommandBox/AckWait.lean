import CommandBox.RetrySchedule

/-! The wait for an acknowledgement, as the loop of task_app drives the box: a press comes
with the time stamp of its interrupt, everything else with the uptime of the loop. -/
namespace CommandBox
open Clock

/-- A call the loop makes, in true time. The event of a press was stored at `timestamp`, its
first message is emitted at `uptime`. -/
inductive LoopCall where
  | button (paramValue : UInt8) (timestamp uptime : Nat)
  | message (message : ProtocolMessage) (uptime : Nat)
  | tick (uptime : Nat)
  deriving DecidableEq

namespace LoopCall

def uptime : LoopCall → Nat
  | button _ _ uptime | message _ uptime | tick uptime => uptime

def call : LoopCall → Call
  | button paramValue timestamp _ => .button paramValue (stamp timestamp)
  | message received uptime => .message received (stamp uptime)
  | tick uptime => .tick (stamp uptime)

/-- No event is taken before it was stored. -/
def Causal : LoopCall → Prop
  | button _ timestamp uptime => timestamp ≤ uptime
  | _ => True

instance : (c : LoopCall) → Decidable c.Causal
  | button _ timestamp uptime => inferInstanceAs (Decidable (timestamp ≤ uptime))
  | message _ _ | tick _ => inferInstanceAs (Decidable True)

/-- The counter shows no delay between the event and its emission, or one so long that the
signed test takes it for an event of the future. -/
def Prompt : LoopCall → Prop
  | button _ timestamp uptime => (uptime - timestamp) % 2 ^ 32 = 0 ∨
      2 ^ 31 + ackRetryPeriodMs.toNat ≤ (uptime - timestamp) % 2 ^ 32
  | _ => True

instance : (c : LoopCall) → Decidable c.Prompt
  | button _ _ _ => inferInstanceAs (Decidable (_ ∨ _))
  | message _ _ | tick _ => inferInstanceAs (Decidable True)

end LoopCall

/-- An event of g_button_queue that a pass has taken. -/
structure PressTaken where
  paramValue : UInt8
  timestamp : Nat
  uptime : Nat

/-- What one pass of task_app takes from its queues, and the reading of its tick. -/
structure AppPass where
  button : Option PressTaken
  message : Option (ProtocolMessage × Nat)
  uptime : Nat

def AppPass.calls (pass : AppPass) : List LoopCall :=
  (pass.button.map fun b => .button b.paramValue b.timestamp b.uptime).toList ++
    ((pass.message.map fun m => .message m.1 m.2).toList ++ [.tick pass.uptime])

/-- The box and the last uptime the loop has read. -/
structure AppLoop where
  cbox : Cbox
  uptime : Nat

structure LoopEvent where
  call : LoopCall
  observed : Observed
  deriving DecidableEq

/-- One call of the loop; readings do not go back. -/
def loopCall (loop : AppLoop) (c : LoopCall) : Option (AppLoop × LoopEvent) :=
  if loop.uptime ≤ c.uptime ∧ c.Causal then
    (cboxCall loop.cbox c.call).map fun r => (⟨r.1, c.uptime⟩, ⟨c, r.2⟩)
  else none

def LoopEvent.isRetry (e : LoopEvent) : Bool :=
  match e.call with
  | .tick _ => e.observed.emitted.any fun x => x.type = .evt
  | _ => false

/-- Every retry comes a period or more after the emission it repeats, which is at the uptime
of the last accepted press. -/
def WaitsForAck (sent : Option Nat) : List LoopEvent → Prop
  | [] => True
  | e :: rest =>
    (e.isRetry = true → ∀ u ∈ sent, u + ackRetryPeriodMs.toNat ≤ e.call.uptime) ∧
      WaitsForAck (if e.observed.accepted then some e.call.uptime else sent) rest

instance : (sent : Option Nat) → (events : List LoopEvent) → Decidable (WaitsForAck sent events)
  | _, [] => inferInstanceAs (Decidable True)
  | sent, e :: rest =>
    have := instDecidableWaitsForAck (if e.observed.accepted then some e.call.uptime else sent) rest
    inferInstanceAs (Decidable (_ ∧ _))

theorem prompt_waits {timestamp uptime now : Nat} (causal : timestamp ≤ uptime)
    (prompt : (uptime - timestamp) % 2 ^ 32 = 0 ∨ 2 ^ 31 + 500 ≤ (uptime - timestamp) % 2 ^ 32)
    (later : uptime ≤ now) (early : now < uptime + 500) :
    (stamp now - stamp (timestamp + 500)).toInt32 < 0 := by
  rw [negative_iff, UInt32.toNat_sub, stamp_toNat, stamp_toNat]
  omega

theorem late_fires {timestamp uptime : Nat} (causal : timestamp ≤ uptime)
    (late : ¬ ((uptime - timestamp) % 2 ^ 32 = 0 ∨ 2 ^ 31 + 500 ≤ (uptime - timestamp) % 2 ^ 32)) :
    ∃ now, uptime ≤ now ∧ now < uptime + 500 ∧
      ¬ (stamp now - stamp (timestamp + 500)).toInt32 < 0 := by
  by_cases short : (uptime - timestamp) % 2 ^ 32 ≤ 2 ^ 31
  · refine ⟨uptime + 499, by omega, by omega, ?_⟩
    rw [negative_iff, UInt32.toNat_sub, stamp_toNat, stamp_toNat]
    omega
  · refine ⟨uptime, by omega, by omega, ?_⟩
    rw [negative_iff, UInt32.toNat_sub, stamp_toNat, stamp_toNat]
    omega

/-- An accepted press is waited for over its whole first period, at whatever time the ticks
come, if and only if it is taken promptly. -/
theorem press_waits_iff {box : Cbox} (ready : BoxReady box) (free : box.ackPending = false)
    (paramValue : UInt8) {timestamp uptime : Nat} (causal : timestamp ≤ uptime) :
    ∃ opened emitted, cboxOnButton box paramValue (stamp timestamp) = some (opened, true, emitted) ∧
      ((∀ now, uptime ≤ now → now < uptime + 500 →
          cboxOnTick opened (stamp now) = some (opened, [])) ↔
        (LoopCall.button paramValue timestamp uptime).Prompt) := by
  obtain ⟨opened, pressed, waits⟩ := press_awaits ready free paramValue timestamp
  refine ⟨opened, _, pressed, ?_⟩
  constructor
  · intro quiet
    apply Classical.byContradiction
    intro late
    obtain ⟨now, begun, early, due⟩ := late_fires causal late
    obtain ⟨box', emitted, ticked, effect⟩ := tick_cases waits.ready (stamp now)
    have silent : [] = emitted :=
      (Prod.mk.inj (Option.some.inj ((quiet now begun early).symm.trans ticked))).2
    cases effect with
    | waited _ before =>
      have ahead := before waits.busy
      rw [waits.deadline] at ahead
      exact due ahead
    | retried | gaveUp => contradiction
  · intro prompt now begun early
    obtain ⟨box', emitted, ticked, effect⟩ := tick_cases waits.ready (stamp now)
    have before := prompt_waits causal prompt begun early
    cases effect with
    | waited => exact ticked
    | retried _ _ due | gaveUp _ _ due =>
      rw [waits.deadline] at due
      exact absurd before due

/-- With an open transaction, the period since its emission is over or still kept by the deadline. -/
structure Covered (loop : AppLoop) (sent : Option Nat) : Prop where
  ready : BoxReady loop.cbox
  waits : loop.cbox.ackPending = true → ∃ u, sent = some u ∧
    (u + 500 ≤ loop.uptime ∨ u ≤ loop.uptime ∧ ∃ timestamp, timestamp ≤ u ∧
      ((u - timestamp) % 2 ^ 32 = 0 ∨ 2 ^ 31 + 500 ≤ (u - timestamp) % 2 ^ 32) ∧
      loop.cbox.ackDeadlineMs = stamp (timestamp + 500))

theorem loop_cases {loop loop' : AppLoop} {c : LoopCall} {e : LoopEvent}
    (ready : BoxReady loop.cbox) (h : loopCall loop c = some (loop', e)) :
    loop.uptime ≤ c.uptime ∧ c.Causal ∧ loop'.uptime = c.uptime ∧ e.call = c ∧
      e.observed.call = c.call ∧ Effect loop.cbox loop'.cbox e.observed := by
  unfold loopCall at h
  split at h
  · rename_i order
    obtain ⟨⟨box', o⟩, called, result⟩ := Option.map_eq_some_iff.mp h
    cases result
    obtain ⟨box'', o', called', effect⟩ := call_effect ready c.call
    rw [called] at called'
    cases called'
    exact ⟨order.1, order.2, rfl, rfl, call_observed called, effect⟩
  · contradiction

/-- A call that leaves an open transaction open has kept its deadline. -/
theorem covered_moved {loop : AppLoop} {sent : Option Nat} {uptime : Nat} {box : Cbox}
    (covered : Covered loop sent) (order : loop.uptime ≤ uptime) (ready : BoxReady box)
    (same : box.ackPending = true →
      loop.cbox.ackPending = true ∧ box.ackDeadlineMs = loop.cbox.ackDeadlineMs) :
    Covered ⟨box, uptime⟩ sent := by
  refine ⟨ready, ?_⟩
  intro pending
  obtain ⟨busy, deadline⟩ := same pending
  obtain ⟨u, last, passed | ⟨begun, timestamp, before, delay, kept⟩⟩ := covered.waits busy
  · exact ⟨u, last, .inl (Nat.le_trans passed order)⟩
  · exact ⟨u, last, .inr ⟨Nat.le_trans begun order, timestamp, before, delay, deadline.trans kept⟩⟩

/-- The deadline, or an earlier retry, has kept a tick that fires from coming early. -/
theorem fires_late {loop : AppLoop} {sent : Option Nat} {uptime : Nat} (covered : Covered loop sent)
    (order : loop.uptime ≤ uptime) (busy : loop.cbox.ackPending = true)
    (due : ¬ (stamp uptime - loop.cbox.ackDeadlineMs).toInt32 < 0) :
    ∃ u, sent = some u ∧ u + 500 ≤ uptime := by
  obtain ⟨u, last, passed | ⟨begun, timestamp, before, delay, deadline⟩⟩ := covered.waits busy
  · exact ⟨u, last, Nat.le_trans passed order⟩
  · refine ⟨u, last, Nat.not_lt.mp ?_⟩
    intro early
    rw [deadline] at due
    exact due (prompt_waits before delay (Nat.le_trans begun order) early)

theorem loop_covered {loop loop' : AppLoop} {sent : Option Nat} {c : LoopCall} {e : LoopEvent}
    (covered : Covered loop sent) (h : loopCall loop c = some (loop', e))
    (prompt : e.observed.accepted = true → c.Prompt) :
    (e.isRetry = true → ∀ u ∈ sent, u + 500 ≤ e.call.uptime) ∧
      Covered loop' (if e.observed.accepted then some e.call.uptime else sent) := by
  obtain ⟨order, causal, now, called, asked, effect⟩ := loop_cases covered.ready h
  have ready := effect_ready covered.ready effect
  obtain ⟨call, o⟩ := e
  obtain ⟨box', uptime'⟩ := loop'
  simp only at now called asked effect prompt ready
  subst now called
  cases effect with
  | opened paramValue nowMs pendingEvt free held =>
    cases call with
    | message | tick => cases asked
    | button param timestamp uptime =>
      cases asked
      refine ⟨fun retry => absurd retry Bool.false_ne_true, ready, fun _ => ?_⟩
      exact ⟨uptime, rfl, .inr ⟨Nat.le_refl _, timestamp, causal, prompt rfl, stamp_add timestamp 500⟩⟩
  | refused =>
    cases call with
    | message | tick => cases asked
    | button =>
      exact ⟨fun retry => absurd retry Bool.false_ne_true,
        covered_moved covered order ready fun busy => ⟨busy, rfl⟩⟩
  | confirmed =>
    cases call with
    | button | tick => cases asked
    | message =>
      exact ⟨fun retry => absurd retry Bool.false_ne_true,
        covered_moved covered order ready fun busy => absurd busy Bool.false_ne_true⟩
  | answered | unanswered =>
    cases call with
    | button | tick => cases asked
    | message =>
      exact ⟨fun retry => absurd retry Bool.false_ne_true,
        covered_moved covered order ready fun busy => ⟨busy, rfl⟩⟩
  | waited =>
    cases call with
    | button | message => cases asked
    | tick =>
      exact ⟨fun retry => absurd retry Bool.false_ne_true,
        covered_moved covered order ready fun busy => ⟨busy, rfl⟩⟩
  | gaveUp =>
    cases call with
    | button | message => cases asked
    | tick =>
      exact ⟨fun retry => absurd retry Bool.false_ne_true,
        covered_moved covered order ready fun busy => absurd busy Bool.false_ne_true⟩
  | retried nowMs busy due left =>
    cases call with
    | button | message => cases asked
    | tick uptime =>
      cases asked
      obtain ⟨u, rfl, late⟩ := fires_late covered order busy due
      refine ⟨?_, ready, fun _ => ⟨u, rfl, .inl late⟩⟩
      intro _ last same
      cases same
      exact late

theorem run_waits {loop final : AppLoop} {sent : Option Nat} {calls : List LoopCall}
    {events : List LoopEvent} (covered : Covered loop sent)
    (h : Machine.run loopCall loop calls = some (final, events))
    (prompt : ∀ e ∈ events, e.observed.accepted = true → e.call.Prompt) :
    WaitsForAck sent events := by
  induction calls generalizing loop sent events with
  | nil =>
    cases h
    exact True.intro
  | cons c calls ih =>
    simp only [Machine.run, Option.bind_eq_bind, Option.bind_eq_some_iff] at h
    obtain ⟨⟨loop', e⟩, turn, ⟨t, rest⟩, tail, out⟩ := h
    cases out
    have called := (loop_cases covered.ready turn).2.2.2.1
    obtain ⟨late, covered'⟩ := loop_covered covered turn
      fun accepted => called ▸ prompt e List.mem_cons_self accepted
    exact ⟨late, ih covered' tail fun e he => prompt e (List.mem_cons_of_mem _ he)⟩

theorem start_covered (uptime : Nat) : Covered ⟨cboxInit true, uptime⟩ none :=
  ⟨init_ready, fun busy => absurd busy Bool.false_ne_true⟩

/-- If every accepted press is taken without a delay the counter can show, no retry comes
before the period since the emission is over. -/
theorem ack_wait_kept {passes : List AppPass} {final : AppLoop} {events : List LoopEvent}
    (ran : Machine.run loopCall ⟨cboxInit true, 0⟩ (passes.flatMap AppPass.calls) =
      some (final, events))
    (prompt : ∀ e ∈ events, e.observed.accepted = true → e.call.Prompt) :
    WaitsForAck none events :=
  run_waits (start_covered 0) ran prompt

/-- A press taken in the millisecond it was stored, and sent again a period later. -/
def promptPasses : List AppPass :=
  [⟨some ⟨42, 1000, 1000⟩, none, 1000⟩, ⟨none, none, 1490⟩, ⟨none, none, 1500⟩]

theorem ack_wait_kept_prompt :
    ∃ final events, Machine.run loopCall ⟨cboxInit true, 0⟩ (promptPasses.flatMap AppPass.calls) =
      some (final, events) ∧ WaitsForAck none events := by
  have prompt : (Machine.run loopCall ⟨cboxInit true, 0⟩ (promptPasses.flatMap AppPass.calls)).any
      (fun r => decide (∀ e ∈ r.2, e.observed.accepted = true → e.call.Prompt)) = true := by
    decide +kernel
  obtain ⟨⟨final, events⟩, ran, prompt⟩ := (Option.any_eq_true _ _).mp prompt
  exact ⟨final, events, ran, ack_wait_kept ran (of_decide_eq_true prompt)⟩

/-- The loop takes the press 7 ms after it was stored, and sends it again 493 ms later. -/
def latePasses : List AppPass :=
  [⟨some ⟨42, 1000, 1007⟩, none, 1007⟩, ⟨none, none, 1500⟩]

theorem late_press_short_wait :
    ¬ ∀ (passes : List AppPass) final events,
      Machine.run loopCall ⟨cboxInit true, 0⟩ (passes.flatMap AppPass.calls) = some (final, events) →
      WaitsForAck none events := by
  intro h
  have broken : (Machine.run loopCall ⟨cboxInit true, 0⟩ (latePasses.flatMap AppPass.calls)).any
      (fun r => !decide (WaitsForAck none r.2)) = true := by
    decide +kernel
  obtain ⟨⟨final, events⟩, ran, broken⟩ := (Option.any_eq_true _ _).mp broken
  rw [decide_eq_true (h latePasses final events ran)] at broken
  contradiction

end CommandBox
