import CommandBox.Box
import Mathlib.Data.FinEnum

/-! What one call on the box can do. Every later result about the box is a case
analysis on `Effect`; no proof unfolds the calls again. -/
namespace CommandBox
open Memory

/-- The texts of the payload tables, without their terminators. -/
def evtText (mode : CboxMode) : List UInt8 := (cboxModeToEvtPayload mode).dropLast
def stsText (mode : CboxMode) : List UInt8 := (cboxModeToStsPayload mode).dropLast
def paramText (paramValue : UInt8) : List UInt8 := ascii "param=" ++ threeDigits paramValue.toNat

def evtEmission (mode : CboxMode) : Emission := ⟨.evt, evtText mode⟩
def stsEmission (mode : CboxMode) : Emission := ⟨.sts, stsText mode⟩
def datEmission (paramValue : UInt8) : Emission := ⟨.dat, paramText paramValue⟩
def ackReply : Emission := ⟨.ack, ascii "ok"⟩
def errTimeout : Emission := ⟨.err, ascii "timeout"⟩

def nextMode (mode : CboxMode) : CboxMode :=
  .ofValue ((mode.value + 1) % CboxMode.modeCount.value)

/-- Mode number `(1 + k) mod 4`. -/
def modeNumber (k : Nat) : CboxMode := .ofValue (UInt32.ofNat ((1 + k) % 4))

def IsAckOk (message : ProtocolMessage) : Prop :=
  message.type = .ack ∧ literal "ok" <+: message.payload.toList

instance (message : ProtocolMessage) : Decidable (IsAckOk message) :=
  inferInstanceAs (Decidable (_ ∧ _))

def answeredTypes : List ProtocolType := [.cmd, .dat, .evt, .sts]

theorem evt_payload (mode : CboxMode) : cboxModeToEvtPayload mode = evtText mode ++ [0] ∧
    0 ∉ evtText mode ∧ (evtText mode).length < 13 := by
  cases mode with
  | modePatrol | modeStop | modeDeploy | modeReturn | modeCount => decide
  | other raw =>
    have none : evtText (.other raw) = [] := rfl
    simp [none, cboxModeToEvtPayload, literal, ascii]

theorem sts_payload (mode : CboxMode) : cboxModeToStsPayload mode = stsText mode ++ [0] ∧
    0 ∉ stsText mode := by
  cases mode with
  | modePatrol | modeStop | modeDeploy | modeReturn | modeCount => decide
  | other raw =>
    have none : stsText (.other raw) = [] := rfl
    simp [none, cboxModeToStsPayload, literal, ascii]

theorem param_text : ∀ v : UInt8, 0 ∉ paramText v ∧ (paramText v).length < 13 := by
  decide +kernel

theorem nextMode_number (k : Nat) : nextMode (modeNumber k) = modeNumber (k + 1) := by
  have cases : (1 + k) % 4 = 0 ∨ (1 + k) % 4 = 1 ∨ (1 + k) % 4 = 2 ∨ (1 + k) % 4 = 3 := by omega
  have next : (1 + (k + 1)) % 4 = ((1 + k) % 4 + 1) % 4 := by omega
  simp only [modeNumber, next]
  rcases cases with h | h | h | h <;> rw [h] <;> rfl

theorem emit_text {box : Cbox} (sends : box.send = true) (type : ProtocolType)
    {text memory : List UInt8} (clean : 0 ∉ text) (held : text ++ [0] <+: memory) :
    cboxEmit box type memory = some [⟨type, text⟩] := by
  simp only [cboxEmit, sends, if_true, cstring_starts clean held, Option.map_some]

/-- The callback is set, and an open transaction has its text and at most the allowed retries. -/
structure BoxReady (box : Cbox) : Prop where
  sends : box.send = true
  pending : box.ackPending = true → evtText box.mode ++ [0] <+: box.pendingEvt.toList
  retries : box.ackPending = true → box.retriesLeft.toNat ≤ ackMaxRetries.toNat

inductive Effect (box : Cbox) : Cbox → Observed → Prop
  | opened (paramValue : UInt8) (nowMs : UInt32) (pendingEvt : Vector UInt8 13)
      (free : box.ackPending = false)
      (held : evtText (nextMode box.mode) ++ [0] <+: pendingEvt.toList) :
      Effect box
        { box with
          mode := nextMode box.mode
          modeChanges := box.modeChanges + 1
          pendingEvt := pendingEvt
          ackPending := true
          retriesLeft := ackMaxRetries
          ackDeadlineMs := nowMs + ackRetryPeriodMs }
        ⟨.button paramValue nowMs, true, [evtEmission (nextMode box.mode),
          stsEmission (nextMode box.mode), datEmission paramValue]⟩
  | refused (paramValue : UInt8) (nowMs : UInt32) (busy : box.ackPending = true) :
      Effect box { box with ignoredButtonPresses := box.ignoredButtonPresses + 1 }
        ⟨.button paramValue nowMs, false, []⟩
  | confirmed (message : ProtocolMessage) (nowMs : UInt32) (busy : box.ackPending = true)
      (ok : IsAckOk message) :
      Effect box { box with ackPending := false } ⟨.message message nowMs, false, []⟩
  | answered (message : ProtocolMessage) (nowMs : UInt32) (type : message.type ∈ answeredTypes) :
      Effect box box ⟨.message message nowMs, false, [ackReply]⟩
  | unanswered (message : ProtocolMessage) (nowMs : UInt32) (type : message.type ∉ answeredTypes)
      (stray : box.ackPending = true → ¬ IsAckOk message) :
      Effect box box ⟨.message message nowMs, false, []⟩
  | waited (nowMs : UInt32)
      (early : box.ackPending = true → (nowMs - box.ackDeadlineMs).toInt32 < 0) :
      Effect box box ⟨.tick nowMs, false, []⟩
  | retried (nowMs : UInt32) (busy : box.ackPending = true)
      (due : ¬ (nowMs - box.ackDeadlineMs).toInt32 < 0) (left : 0 < box.retriesLeft.toNat) :
      Effect box
        { box with
          retriesLeft := box.retriesLeft - 1
          ackDeadlineMs := nowMs + ackRetryPeriodMs }
        ⟨.tick nowMs, false, [evtEmission box.mode]⟩
  | gaveUp (nowMs : UInt32) (busy : box.ackPending = true)
      (due : ¬ (nowMs - box.ackDeadlineMs).toInt32 < 0) (spent : box.retriesLeft.toNat = 0) :
      Effect box { box with ackPending := false, ackTimeouts := box.ackTimeouts + 1 }
        ⟨.tick nowMs, false, [errTimeout]⟩

theorem button_effect {box : Cbox} (ready : BoxReady box) (paramValue : UInt8) (nowMs : UInt32) :
    ∃ box' o, cboxCall box (.button paramValue nowMs) = some (box', o) ∧ Effect box box' o := by
  cases busy : box.ackPending with
  | true =>
    refine ⟨_, _, ?_, .refused paramValue nowMs busy⟩
    simp [cboxCall, cboxOnButton, busy]
  | false =>
    obtain ⟨evt, evtClean, evtFits⟩ := evt_payload (nextMode box.mode)
    obtain ⟨sts, stsClean⟩ := sts_payload (nextMode box.mode)
    obtain ⟨datClean, datFits⟩ := param_text paramValue
    obtain ⟨dat, hd, hdat⟩ := snprintf_starts (Vector.replicate 13 0) datFits
    obtain ⟨pendingEvt, hp, held⟩ := snprintf_starts box.pendingEvt evtFits
    refine ⟨_, _, ?_, .opened paramValue nowMs pendingEvt busy held⟩
    have button : cboxOnButton box paramValue nowMs = some
        ({ box with
          mode := nextMode box.mode
          modeChanges := box.modeChanges + 1
          pendingEvt := pendingEvt
          ackPending := true
          retriesLeft := ackMaxRetries
          ackDeadlineMs := nowMs + ackRetryPeriodMs }, true,
          [evtEmission (nextMode box.mode)] ++ [stsEmission (nextMode box.mode)] ++
            [datEmission paramValue]) := by
      unfold cboxOnButton
      rw [if_neg (by simp [busy])]
      refine then_some hd <| then_some (emit_text ready.sends _ evtClean ?_) <|
        then_some (emit_text ready.sends _ stsClean ?_) <|
        then_some (emit_text ready.sends _ datClean hdat) <|
        then_some (cstring_starts evtClean ?_) <| then_some hp rfl
      · exact evt ▸ List.prefix_refl _
      · exact sts ▸ List.prefix_refl _
      · exact evt ▸ List.prefix_refl _
    simp only [cboxCall, button, Option.map_some]
    rfl

theorem reply_text {box : Cbox} (sends : box.send = true) :
    cboxEmit box .ack (literal "ok") = some [ackReply] :=
  emit_text sends .ack (by decide) (List.prefix_refl _)

theorem ackOk_compared (message : ProtocolMessage) :
    streq message.payload.toList (literal "ok") =
      some (decide (literal "ok" <+: message.payload.toList)) := by
  apply streq_literal
  · decide
  · rw [Vector.length_toList]
    decide

theorem message_effect {box : Cbox} (sends : box.send = true) (message : ProtocolMessage)
    (nowMs : UInt32) :
    ∃ box' o, cboxCall box (.message message nowMs) = some (box', o) ∧ Effect box box' o := by
  cases type : message.type with
  | cmd | dat | evt | sts =>
    refine ⟨_, _, ?_, .answered message nowMs (by simp [answeredTypes, type])⟩
    simp only [cboxCall, cboxOnMessage, type, reply_text sends, Option.map_some]
  | err | invalid | other raw =>
    refine ⟨_, _, ?_, .unanswered message nowMs (by simp [answeredTypes, type]) ?_⟩
    · simp only [cboxCall, cboxOnMessage, type, Option.map_some]
    · intro _ ok
      rw [IsAckOk, type] at ok
      exact absurd ok.1 (by simp)
  | ack =>
    have compared := ackOk_compared message
    cases busy : box.ackPending with
    | false =>
      refine ⟨_, _, ?_, .unanswered message nowMs (by simp [answeredTypes, type]) ?_⟩
      · simp only [cboxCall, cboxOnMessage, type, busy, Bool.false_eq_true, if_false,
          Option.map_some]
      · intro pending
        rw [busy] at pending
        contradiction
    | true =>
      by_cases ok : literal "ok" <+: message.payload.toList
      · refine ⟨_, _, ?_, .confirmed message nowMs busy ⟨type, ok⟩⟩
        simp [cboxCall, cboxOnMessage, type, busy, compared, ok]
      · refine ⟨_, _, ?_, .unanswered message nowMs (by simp [answeredTypes, type]) fun _ h => ok h.2⟩
        simp [cboxCall, cboxOnMessage, type, busy, compared, ok]

/-- The callback stays set, and a message is answered by its type alone. -/
theorem message_emits {box : Cbox} (sends : box.send = true) (message : ProtocolMessage)
    (nowMs : UInt32) :
    ∃ box' emitted, cboxOnMessage box message nowMs = some (box', emitted) ∧ box'.send = true ∧
      emitted = if message.type ∈ answeredTypes then [ackReply] else [] := by
  obtain ⟨box', o, call, effect⟩ := message_effect sends message nowMs
  obtain ⟨⟨box'', emitted⟩, handled, result⟩ := Option.map_eq_some_iff.mp call
  obtain ⟨rfl, rfl⟩ := Prod.mk.inj result
  refine ⟨box'', emitted, handled, ?_⟩
  cases effect with
  | confirmed _ _ busy ok =>
    have other : message.type ∉ answeredTypes := by
      rw [ok.1]
      decide
    exact ⟨sends, (if_neg other).symm⟩
  | answered _ _ type => exact ⟨sends, (if_pos type).symm⟩
  | unanswered _ _ type => exact ⟨sends, (if_neg type).symm⟩

theorem tick_effect {box : Cbox} (ready : BoxReady box) (nowMs : UInt32) :
    ∃ box' o, cboxCall box (.tick nowMs) = some (box', o) ∧ Effect box box' o := by
  cases busy : box.ackPending with
  | false =>
    refine ⟨_, _, ?_, .waited nowMs ?_⟩
    · simp [cboxCall, cboxOnTick, busy]
    · intro pending
      rw [busy] at pending
      contradiction
  | true =>
    by_cases early : (nowMs - box.ackDeadlineMs).toInt32 < 0
    · refine ⟨_, _, ?_, .waited nowMs fun _ => early⟩
      simp only [cboxCall, cboxOnTick, busy, Bool.not_true, Bool.false_eq_true, if_false,
        if_pos early, Option.map_some]
    · by_cases left : box.retriesLeft > 0
      · have text := emit_text ready.sends .evt (evt_payload box.mode).2.1 (ready.pending busy)
        refine ⟨_, _, ?_, .retried nowMs busy early (UInt8.lt_iff_toNat_lt.mp left)⟩
        simp only [cboxCall, cboxOnTick, busy, Bool.not_true, Bool.false_eq_true, if_false,
          if_neg early, if_pos left, text, Option.bind_eq_bind, Option.bind_some, Option.map_some]
        rfl
      · have text : cboxEmit box .err (literal "timeout") = some [errTimeout] :=
          emit_text ready.sends .err (by decide) (List.prefix_refl _)
        have spent : box.retriesLeft.toNat = 0 := by
          have small := mt UInt8.lt_iff_toNat_lt.mpr left
          have zero : (0 : UInt8).toNat = 0 := rfl
          omega
        refine ⟨_, _, ?_, .gaveUp nowMs busy early spent⟩
        simp only [cboxCall, cboxOnTick, busy, Bool.not_true, Bool.false_eq_true, if_false,
          if_neg early, if_neg left, text, Option.bind_eq_bind, Option.bind_some, Option.map_some]

theorem call_effect {box : Cbox} (ready : BoxReady box) (call : Call) :
    ∃ box' o, cboxCall box call = some (box', o) ∧ Effect box box' o := by
  cases call with
  | button paramValue nowMs => exact button_effect ready paramValue nowMs
  | message message nowMs => exact message_effect ready.sends message nowMs
  | tick nowMs => exact tick_effect ready nowMs

theorem call_observed {box box' : Cbox} {call : Call} {o : Observed}
    (h : cboxCall box call = some (box', o)) : o.call = call := by
  cases call with
  | button | message | tick =>
    obtain ⟨r, _, hr⟩ := Option.map_eq_some_iff.mp h
    cases hr
    rfl

theorem init_ready : BoxReady (cboxInit true) where
  sends := rfl
  pending := by simp [cboxInit]
  retries := by simp [cboxInit]

theorem effect_ready {box box' : Cbox} {o : Observed} (ready : BoxReady box)
    (effect : Effect box box' o) : BoxReady box' := by
  cases effect with
  | opened paramValue nowMs pendingEvt free held =>
    exact ⟨ready.sends, fun _ => held, fun _ => Nat.le_refl _⟩
  | refused => exact ⟨ready.sends, ready.pending, ready.retries⟩
  | confirmed message nowMs busy ok => exact ⟨ready.sends, by simp, by simp⟩
  | answered | unanswered | waited => exact ready
  | retried nowMs busy due left =>
    refine ⟨ready.sends, ready.pending, ?_⟩
    intro pending
    have bound := ready.retries pending
    have small := UInt8.toNat_sub_of_le box.retriesLeft 1 (UInt8.le_iff_toNat_le.mpr left)
    simp only [small]
    omega
  | gaveUp nowMs busy due spent => exact ⟨ready.sends, by simp, by simp⟩

theorem effect_accepted {box box' : Cbox} {o : Observed} (effect : Effect box box' o)
    (accepted : o.accepted = true) :
    box.ackPending = false ∧ ∃ paramValue nowMs, o.call = .button paramValue nowMs := by
  cases effect with
  | opened paramValue nowMs pendingEvt free held => exact ⟨free, paramValue, nowMs, rfl⟩
  | refused | confirmed | answered | unanswered | waited | retried | gaveUp => cases accepted

theorem effect_confirms {box box' : Cbox} {o : Observed} (effect : Effect box box' o)
    (busy : box.ackPending = true) (done : box'.ackPending = false) {message : ProtocolMessage}
    {nowMs : UInt32} (call : o.call = .message message nowMs) : IsAckOk message := by
  cases effect with
  | confirmed message' nowMs' busy ok =>
    cases call
    exact ok
  | answered | unanswered =>
    rw [busy] at done
    contradiction
  | opened | refused | waited | retried | gaveUp => cases call

end CommandBox
