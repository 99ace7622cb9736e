import CommandBox.BoxEffect
import CommandBox.Codec
import CommandBox.Lib.Machine

/-! The box and the bridge of bridge_sim.py over two message channels that keep the order
but may delay and lose messages. Each message carries, as a ghost that neither side reads,
the number of the transaction it belongs to. -/
namespace CommandBox
open Memory

/-- The loop body of `main` in bridge_sim.py for a parsed line. -/
def bridgeReply (noAck : Bool) (message : Emission) : List Emission :=
  if message.type = .evt ∧ ¬ noAck then [ackReply] else []

/-- The message the other end gets for a text on the line. -/
def received (e : Emission) : Option ProtocolMessage :=
  match protocolMessageSet blankMessage e.type (e.payload ++ [0]) with
  | some (message, true) => some message
  | _ => none

structure Tagged where
  message : Emission
  transaction : Nat
  deriving DecidableEq

/-- `presses` counts the accepted presses, so it is the number of the latest transaction;
`processed` lists the transactions of the `EVT`s the bridge has processed. -/
structure Link where
  box : Cbox
  toBridge : List Tagged
  toBox : List Tagged
  lastMs : Nat
  presses : Nat
  processed : List Nat
  deriving DecidableEq

inductive LinkAction where
  | button (paramValue : UInt8) (nowMs : Nat)
  | tick (nowMs : Nat)
  | deliverToBridge
  | deliverToBox (nowMs : Nat)
  | loseToBridge (i : Nat)
  | loseToBox (i : Nat)
  deriving DecidableEq

def Link.start : Link := ⟨cboxInit true, [], [], 0, 0, []⟩

/-- A call on the box at a time that does not go back; its emissions enter the channel. -/
def boxTurn (s : Link) (nowMs : Nat) (call : Call) : Option Link :=
  if nowMs < s.lastMs then none
  else do
    let (box, o) ← cboxCall s.box call
    let presses := if o.accepted then s.presses + 1 else s.presses
    some { s with
      box := box
      toBridge := s.toBridge ++ o.emitted.map fun e => ⟨e, presses⟩
      lastMs := nowMs
      presses := presses }

def linkStep (noAck : Bool) (s : Link) : LinkAction → Option Link
  | .button paramValue nowMs => boxTurn s nowMs (.button paramValue (UInt32.ofNat nowMs))
  | .tick nowMs => boxTurn s nowMs (.tick (UInt32.ofNat nowMs))
  | .deliverToBridge =>
    match s.toBridge with
    | [] => none
    | m :: rest => some { s with
        toBridge := rest
        toBox := s.toBox ++ (bridgeReply noAck m.message).map fun e => ⟨e, m.transaction⟩
        processed := if m.message.type = .evt then m.transaction :: s.processed else s.processed }
  | .deliverToBox nowMs =>
    match s.toBox with
    | [] => none
    | m :: rest => do
      let message ← received m.message
      boxTurn { s with toBox := rest } nowMs (.message message (UInt32.ofNat nowMs))
  | .loseToBridge i =>
    if i < s.toBridge.length then some { s with toBridge := s.toBridge.eraseIdx i } else none
  | .loseToBox i =>
    if i < s.toBox.length then some { s with toBox := s.toBox.eraseIdx i } else none

def LinkAction.presses : LinkAction → Bool
  | .button _ _ => true
  | _ => false

def LinkAction.callsOnMessage : LinkAction → Bool
  | .deliverToBox _ => true
  | _ => false

abbrev LinkTurn := Machine.Transition Link LinkAction

/-- `cbox_on_message` clears the pending transaction, the one of the latest press. -/
def Confirms (t : LinkTurn) : Prop :=
  t.action.callsOnMessage = true ∧ t.before.box.ackPending = true ∧ t.after.box.ackPending = false

def Justified (t : LinkTurn) : Prop := Confirms t → t.before.presses ∈ t.before.processed

/-- A press that will be accepted finds no `EVT` and no `ACK` left in flight. -/
def Clear (t : LinkTurn) : Prop :=
  t.action.presses = true → t.before.box.ackPending = false →
    (∀ m ∈ t.before.toBridge, m.message.type ≠ .evt) ∧ ∀ m ∈ t.before.toBox, m.message.type ≠ .ack

instance (t : LinkTurn) : Decidable (Confirms t) := inferInstanceAs (Decidable (_ ∧ _ ∧ _))
instance (t : LinkTurn) : Decidable (Justified t) := inferInstanceAs (Decidable (_ → _))
instance (t : LinkTurn) : Decidable (Clear t) := inferInstanceAs (Decidable (_ → _ → _ ∧ _))

/-- A run of the link with the steps it took. -/
def runLink (noAck : Bool) (actions : List LinkAction) : Option (Link × List LinkTurn) :=
  Machine.run (Machine.record (linkStep noAck)) Link.start actions

/- One step. -/

theorem received_type {e : Emission} {message : ProtocolMessage} (h : received e = some message) :
    message.type = e.type := by
  unfold received at h
  split at h
  · rename_i found
    cases Option.some.inj h
    exact message_set_type found
  · contradiction

/-- The reverse direction of a lossy channel cannot confirm what was never processed. -/
structure LinkSafe (s : Link) : Prop where
  ready : BoxReady s.box
  current : ∀ m ∈ s.toBridge, m.message.type = .evt → m.transaction = s.presses
  answered : ∀ m ∈ s.toBox, m.message.type = .ack → s.presses ∈ s.processed

theorem start_safe : LinkSafe Link.start := ⟨init_ready, by simp [Link.start], by simp [Link.start]⟩

/-- A call that is no accepted press emits only `EVT`s of the latest transaction. -/
theorem boxTurn_cases {s s' : Link} {nowMs : Nat} {call : Call} (ready : BoxReady s.box)
    (h : boxTurn s nowMs call = some s') :
    ∃ o, Effect s.box s'.box o ∧ o.call = call ∧
      s'.presses = (if o.accepted then s.presses + 1 else s.presses) ∧
      s'.toBridge = s.toBridge ++ o.emitted.map (fun e => ⟨e, s'.presses⟩) ∧
      s'.toBox = s.toBox ∧ s'.processed = s.processed := by
  unfold boxTurn at h
  split at h
  · contradiction
  · obtain ⟨box', o, step, effect⟩ := call_effect ready call
    have same := call_observed step
    rw [step] at h
    cases Option.some.inj h
    exact ⟨o, effect, same, rfl, rfl, rfl, rfl⟩

theorem turn_safe {s s' : Link} {nowMs : Nat} {call : Call} (h : LinkSafe s)
    (clear : ∀ paramValue at', call = .button paramValue at' → s.box.ackPending = false →
      (∀ m ∈ s.toBridge, m.message.type ≠ .evt) ∧ ∀ m ∈ s.toBox, m.message.type ≠ .ack)
    (step : boxTurn s nowMs call = some s') : LinkSafe s' := by
  obtain ⟨o, effect, same, presses, toBridge, toBox, processed⟩ := boxTurn_cases h.ready step
  have ready := effect_ready h.ready effect
  cases accepted : o.accepted with
  | true =>
    obtain ⟨free, paramValue, at', press⟩ := effect_accepted effect accepted
    obtain ⟨noEvt, noAck⟩ := clear paramValue at' (same ▸ press) free
    constructor
    · exact ready
    · intro m hm evt
      rw [toBridge, List.mem_append] at hm
      rcases hm with hm | hm
      · exact absurd evt (noEvt m hm)
      · obtain ⟨e, _, rfl⟩ := List.mem_map.mp hm
        rfl
    · intro m hm ack
      rw [toBox] at hm
      exact absurd ack (noAck m hm)
  | false =>
    rw [accepted] at presses
    have unchanged : s'.presses = s.presses := presses
    constructor
    · exact ready
    · intro m hm evt
      rw [toBridge, List.mem_append] at hm
      rcases hm with hm | hm
      · rw [unchanged]
        exact h.current m hm evt
      · obtain ⟨e, _, rfl⟩ := List.mem_map.mp hm
        rfl
    · intro m hm ack
      rw [toBox] at hm
      rw [unchanged, processed]
      exact h.answered m hm ack

theorem link_safe {noAck : Bool} {s s' : Link} {action : LinkAction} (h : LinkSafe s)
    (clear : Clear ⟨s, action, s'⟩) (step : linkStep noAck s action = some s') :
    LinkSafe s' := by
  cases action with
  | button paramValue nowMs =>
    apply turn_safe h _ step
    intro _ _ _ free
    exact clear rfl free
  | tick nowMs =>
    apply turn_safe h _ step
    intro _ _ call
    cases call
  | deliverToBridge =>
    simp only [linkStep] at step
    split at step
    · contradiction
    · rename_i m rest found
      cases Option.some.inj step
      have head : m ∈ s.toBridge := found ▸ List.mem_cons_self
      constructor
      · exact h.ready
      · intro m' hm
        exact h.current m' (found ▸ List.mem_cons_of_mem m hm)
      · intro m' hm ack
        by_cases evt : m.message.type = .evt
        · simp only [if_pos evt, ← h.current m head evt]
          exact List.mem_cons_self
        · simp only [bridgeReply, evt, false_and, if_false, List.map_nil, List.append_nil] at hm ⊢
          exact h.answered m' hm ack
  | deliverToBox nowMs =>
    simp only [linkStep] at step
    split at step
    · contradiction
    · rename_i m rest found
      obtain ⟨message, _, turn⟩ := Option.bind_eq_some_iff.mp step
      have shorter : LinkSafe { s with toBox := rest } := by
        refine ⟨h.ready, h.current, ?_⟩
        intro m' hm
        exact h.answered m' (found ▸ List.mem_cons_of_mem m hm)
      apply turn_safe shorter _ turn
      intro _ _ call
      cases call
  | loseToBridge i =>
    simp only [linkStep] at step
    split at step
    · cases Option.some.inj step
      refine ⟨h.ready, ?_, h.answered⟩
      intro m hm
      exact h.current m (List.mem_of_mem_eraseIdx hm)
    · contradiction
  | loseToBox i =>
    simp only [linkStep] at step
    split at step
    · cases Option.some.inj step
      refine ⟨h.ready, h.current, ?_⟩
      intro m hm
      exact h.answered m (List.mem_of_mem_eraseIdx hm)
    · contradiction

theorem safe_justified {noAck : Bool} {s s' : Link} {action : LinkAction} (h : LinkSafe s)
    (step : linkStep noAck s action = some s') : Justified ⟨s, action, s'⟩ := by
  rintro ⟨delivery, busy, done⟩
  cases action with
  | deliverToBox nowMs =>
    simp only [linkStep] at step
    split at step
    · contradiction
    · rename_i m rest found
      obtain ⟨message, taken, turn⟩ := Option.bind_eq_some_iff.mp step
      obtain ⟨o, effect, call, _⟩ := boxTurn_cases (s := { s with toBox := rest }) h.ready turn
      have ok := effect_confirms effect busy done call
      have type := received_type taken
      exact h.answered m (found ▸ List.mem_cons_self) (type ▸ ok.1)
  | button | tick | deliverToBridge | loseToBridge | loseToBox => cases delivery

/-- In a run whose accepted presses find no `EVT` and no `ACK` in flight, every
confirmation is of a transaction the bridge has processed. -/
theorem ack_confirms_own_transaction (noAck : Bool) (actions : List LinkAction) {final : Link}
    {turns : List LinkTurn} (h : runLink noAck actions = some (final, turns))
    (clear : ∀ t ∈ turns, Clear t) : ∀ t ∈ turns, Justified t := by
  obtain ⟨_, each⟩ := Machine.recorded_invariant (fun _ _ _ => link_safe) start_safe h clear
  intro t ht
  obtain ⟨safe, step⟩ := each t ht
  exact safe_justified safe step

/-- One press, answered before the next. -/
def oneAck : List LinkAction :=
  [.button 7 0, .deliverToBridge, .deliverToBox 20, .deliverToBridge, .deliverToBridge, .button 9 40]

theorem ack_confirms_own_transaction_once :
    ∃ final turns, runLink false oneAck = some (final, turns) ∧ ∀ t ∈ turns, Justified t := by
  have clear : (runLink false oneAck).any (fun r => decide (∀ t ∈ r.2, Clear t)) = true := by
    decide +kernel
  obtain ⟨⟨final, turns⟩, found, clear⟩ := (Option.any_eq_true _ _).mp clear
  exact ⟨final, turns, found,
    ack_confirms_own_transaction false oneAck found (of_decide_eq_true clear)⟩

/-- A press whose `EVT` is retried before the bridge gets to the original: two `ACK`s
come back for it, and the second one meets the next transaction. -/
def lateAck : List LinkAction :=
  [.button 7 0, .tick 500, .deliverToBridge, .deliverToBridge, .deliverToBridge, .deliverToBridge,
    .deliverToBox 510, .button 7 520, .deliverToBox 530]

theorem late_ack_confirms_next :
    ¬ ∀ actions final turns, runLink false actions = some (final, turns) →
      ∀ t ∈ turns, Justified t := by
  intro h
  have broken : (runLink false lateAck).any (fun r => !decide (∀ t ∈ r.2, Justified t)) = true := by
    decide +kernel
  obtain ⟨⟨final, turns⟩, found, broken⟩ := (Option.any_eq_true _ _).mp broken
  rw [decide_eq_true (h lateAck final turns found)] at broken
  contradiction

end CommandBox
