import CommandBox.BoxEffect
import CommandBox.Lib.Machine

/-! The trace of the box over any sequence of calls: it splits into one block for each
accepted press, and the counters count what the trace shows. -/
namespace CommandBox
open Memory

def runBox (box : Cbox) (calls : List Call) : Option (Cbox × List Observed) :=
  Machine.run cboxCall box calls

inductive Closing where
  | pending | acked | timedOut
  deriving DecidableEq

structure Block where
  mode : CboxMode
  paramValue : UInt8
  retries : Nat
  closing : Closing

def Block.text (b : Block) : List Emission :=
  [evtEmission b.mode, stsEmission b.mode, datEmission b.paramValue] ++
    List.replicate b.retries (evtEmission b.mode) ++
    if b.closing = .timedOut then [errTimeout] else []

/-- At most the allowed retries, and a timeout only after all of them. -/
def Block.Lawful (b : Block) : Prop :=
  b.retries ≤ ackMaxRetries.toNat ∧ (b.closing = .timedOut → b.retries = ackMaxRetries.toNat)

def emissions (observed : List Observed) : List Emission := observed.flatMap Observed.emitted

/-- The emissions without the `ACK:ok` replies. -/
def notReplies (observed : List Observed) : List Emission :=
  (emissions observed).filter fun e => e ≠ ackReply

def ReceivesAckOk (o : Observed) : Prop := ∃ message nowMs, o.call = .message message nowMs ∧ IsAckOk message

/-- The calls of one transaction: the accepted press first, no other after it, emissions
as in the block, and an `ACK:ok` among them exactly when it was closed by one or closed already. -/
def Spans (b : Block) (span : List Observed) : Prop :=
  ∃ press rest nowMs, span = press :: rest ∧ press.call = .button b.paramValue nowMs ∧
    press.accepted = true ∧ (∀ o ∈ rest, o.accepted = false) ∧ notReplies span = b.text ∧
    (b.closing = .acked → ∃ o ∈ rest, ReceivesAckOk o) ∧
    (b.closing = .pending → ∀ o ∈ rest, ¬ ReceivesAckOk o)

/-- A history cut at the accepted presses; every block but the last is closed. -/
inductive Account : List Observed → List Block → Prop
  | idle {os : List Observed} (unaccepted : ∀ o ∈ os, o.accepted = false)
      (silent : notReplies os = []) : Account os []
  | block {os span : List Observed} {blocks : List Block} {b : Block} (past : Account os blocks)
      (closed : ∀ c ∈ blocks, c.closing ≠ .pending) (mode : b.mode = modeNumber (blocks.length + 1))
      (lawful : b.Lawful) (spans : Spans b span) : Account (os ++ span) (blocks ++ [b])

theorem emissions_append (os ps : List Observed) :
    emissions (os ++ ps) = emissions os ++ emissions ps := List.flatMap_append

theorem notReplies_append (os ps : List Observed) :
    notReplies (os ++ ps) = notReplies os ++ notReplies ps := by
  simp [notReplies, emissions_append]

theorem account_nil {os : List Observed} (h : Account os []) :
    (∀ o ∈ os, o.accepted = false) ∧ notReplies os = [] := by
  generalize whole : [] = blocks at h
  cases h with
  | idle unaccepted silent => exact ⟨unaccepted, silent⟩
  | block => simp at whole

theorem account_text {os : List Observed} {blocks : List Block} (h : Account os blocks) :
    notReplies os = blocks.flatMap Block.text := by
  induction h with
  | idle _ silent => exact silent
  | block _ _ _ _ spans ih =>
    obtain ⟨_, _, _, _, _, _, _, text, _, _⟩ := spans
    rw [notReplies_append, ih, text, List.flatMap_append, List.flatMap_singleton]

theorem account_lawful {os : List Observed} {blocks : List Block} (h : Account os blocks) :
    ∀ b ∈ blocks, b.Lawful := by
  induction h with
  | idle => exact fun b hb => absurd hb List.not_mem_nil
  | block _ _ _ lawful _ ih =>
    intro c hc
    rcases List.mem_append.mp hc with hc | hc
    · exact ih c hc
    · rw [List.mem_singleton.mp hc]
      exact lawful

theorem account_modes {os : List Observed} {blocks : List Block} (h : Account os blocks) :
    blocks.map Block.mode = (List.range blocks.length).map fun k => modeNumber (k + 1) := by
  induction h with
  | idle => rfl
  | block _ _ mode _ _ ih =>
    rw [List.map_append, ih, List.length_append, List.length_singleton, List.range_succ,
      List.map_append, List.map_singleton, List.map_singleton, mode]

theorem account_closed {os : List Observed} {blocks : List Block} (h : Account os blocks) :
    ∀ b ∈ blocks.dropLast, b.closing ≠ .pending := by
  cases h with
  | idle => exact fun b hb => absurd hb List.not_mem_nil
  | block _ closed _ _ _ =>
    rw [List.dropLast_concat]
    exact closed

theorem account_accepted {os : List Observed} {blocks : List Block} (h : Account os blocks) :
    os.countP Observed.accepted = blocks.length := by
  induction h with
  | idle unaccepted _ =>
    apply List.countP_eq_zero.mpr
    intro o ho
    simp [unaccepted o ho]
  | block _ _ _ _ spans ih =>
    obtain ⟨press, rest, _, rfl, _, accepted, unaccepted, _, _, _⟩ := spans
    have none : rest.countP Observed.accepted = 0 := by
      apply List.countP_eq_zero.mpr
      intro o ho
      simp [unaccepted o ho]
    rw [List.countP_append, List.countP_cons_of_pos accepted, ih, none, List.length_append,
      List.length_singleton]

theorem account_spans {os : List Observed} {blocks : List Block} (h : Account os blocks) :
    ∃ idle spans, os = idle ++ spans.flatten ∧ (∀ o ∈ idle, o.accepted = false) ∧
      List.Forall₂ Spans blocks spans := by
  induction h with
  | idle unaccepted _ => exact ⟨_, [], by simp, unaccepted, .nil⟩
  | @block _ span _ _ _ _ _ _ hs ih =>
    obtain ⟨idle, spans, rfl, unaccepted, each⟩ := ih
    exact ⟨idle, spans ++ [span], by simp, unaccepted, List.rel_append each (.cons hs .nil)⟩

theorem account_last {os : List Observed} {blocks : List Block} {b b' : Block} {o : Observed}
    (h : Account os (blocks ++ [b])) (unaccepted : o.accepted = false) (mode : b'.mode = b.mode)
    (param : b'.paramValue = b.paramValue) (text : b'.text = b.text ++ notReplies [o])
    (lawful : b'.Lawful) (acked : b'.closing = .acked → b.closing = .acked ∨ ReceivesAckOk o)
    (pending : b'.closing = .pending → b.closing = .pending ∧ ¬ ReceivesAckOk o) :
    Account (os ++ [o]) (blocks ++ [b']) := by
  generalize whole : blocks ++ [b] = all at h
  cases h with
  | idle => simp at whole
  | @block os span past c account closed number _ spans =>
    obtain ⟨rfl, rfl⟩ := List.append_singleton_inj.mp whole
    obtain ⟨press, rest, nowMs, rfl, call, accepted, none, written, wasAcked, wasPending⟩ := spans
    rw [List.append_assoc]
    refine .block account closed (mode.trans number) lawful
      ⟨press, rest ++ [o], nowMs, rfl, by rw [param, call], accepted, ?_, ?_, ?_, ?_⟩
    · intro q hq
      rcases List.mem_append.mp hq with hq | hq
      · exact none q hq
      · rw [List.mem_singleton.mp hq, unaccepted]
    · rw [notReplies_append, written, text]
    · intro closes
      rcases acked closes with before | now
      · obtain ⟨q, hq, receives⟩ := wasAcked before
        exact ⟨q, List.mem_append_left _ hq, receives⟩
      · exact ⟨o, List.mem_append_right _ (List.mem_singleton_self o), now⟩
    · intro waits q hq
      rcases List.mem_append.mp hq with hq | hq
      · exact wasPending (pending waits).1 q hq
      · rw [List.mem_singleton.mp hq]
        exact (pending waits).2

theorem account_quiet {os : List Observed} {blocks : List Block} {o : Observed}
    (h : Account os blocks) (unaccepted : o.accepted = false) (silent : notReplies [o] = [])
    (stray : ∀ b, blocks.getLast? = some b → b.closing = .pending → ¬ ReceivesAckOk o) :
    Account (os ++ [o]) blocks := by
  rcases List.eq_nil_or_concat' blocks with rfl | ⟨past, b, rfl⟩
  · obtain ⟨before, quiet⟩ := account_nil h
    apply Account.idle
    · intro q hq
      rcases List.mem_append.mp hq with hq | hq
      · exact before q hq
      · rw [List.mem_singleton.mp hq, unaccepted]
    · rw [notReplies_append, quiet, silent, List.append_nil]
  · apply account_last h unaccepted rfl rfl
    · rw [silent, List.append_nil]
    · exact account_lawful h b (List.mem_append_right _ (List.mem_singleton_self b))
    · exact fun acked => .inl acked
    · exact fun waits => ⟨waits, stray b (by simp) waits⟩

structure Tracked (box : Cbox) (os : List Observed) (blocks : List Block) : Prop where
  ready : BoxReady box
  account : Account os blocks
  mode : box.mode = modeNumber blocks.length
  last : box.ackPending = true ↔ ∃ b, blocks.getLast? = some b ∧ b.closing = .pending
  left : ∀ b, blocks.getLast? = some b → b.closing = .pending →
    b.retries + box.retriesLeft.toNat = ackMaxRetries.toNat

theorem tracked_closed {box : Cbox} {os : List Observed} {blocks : List Block}
    (h : Tracked box os blocks) (free : box.ackPending = false) :
    ∀ b ∈ blocks, b.closing ≠ .pending := by
  rcases List.eq_nil_or_concat' blocks with rfl | ⟨past, b, rfl⟩
  · exact fun b hb => absurd hb List.not_mem_nil
  · have closed := account_closed h.account
    rw [List.dropLast_concat] at closed
    intro c hc
    rcases List.mem_append.mp hc with hc | hc
    · exact closed c hc
    · rw [List.mem_singleton.mp hc]
      intro waits
      have busy := h.last.mpr ⟨b, by simp, waits⟩
      rw [free] at busy
      contradiction

theorem tracked_opened {box : Cbox} {os : List Observed} {blocks : List Block}
    (h : Tracked box os blocks) (paramValue : UInt8) (nowMs : UInt32)
    (free : box.ackPending = false) :
    Account (os ++ [⟨.button paramValue nowMs, true, [evtEmission (nextMode box.mode),
        stsEmission (nextMode box.mode), datEmission paramValue]⟩])
      (blocks ++ [⟨nextMode box.mode, paramValue, 0, .pending⟩]) := by
  have number : nextMode box.mode = modeNumber (blocks.length + 1) := by
    rw [h.mode, nextMode_number]
  refine .block h.account (tracked_closed h free) number ⟨Nat.zero_le _, by simp⟩
    ⟨_, [], nowMs, rfl, rfl, rfl, by simp, ?_, by simp, by simp⟩
  simp [notReplies, emissions, Block.text, evtEmission, stsEmission, datEmission, ackReply]

theorem tracked_pending {box : Cbox} {os : List Observed} {blocks : List Block}
    (h : Tracked box os blocks) (busy : box.ackPending = true) :
    ∃ past b, blocks = past ++ [b] ∧ b.closing = .pending ∧ b.mode = box.mode ∧
      b.retries + box.retriesLeft.toNat = ackMaxRetries.toNat := by
  obtain ⟨b, found, waits⟩ := h.last.mp busy
  obtain ⟨past, rfl⟩ := List.getLast?_eq_some_iff.mp found
  refine ⟨past, b, rfl, waits, ?_, h.left b found waits⟩
  have modes := account_modes h.account
  rw [List.map_append, List.length_append, List.length_singleton, List.range_succ,
    List.map_append] at modes
  have number := List.singleton_inj.mp (List.append_inj' modes rfl).2
  rw [h.mode, List.length_append, List.length_singleton]
  exact number

theorem tracked_quiet {box box' : Cbox} {os : List Observed} {blocks : List Block} {o : Observed}
    (h : Tracked box os blocks) (ready : BoxReady box') (mode : box'.mode = box.mode)
    (pending : box'.ackPending = box.ackPending) (left : box'.retriesLeft = box.retriesLeft)
    (unaccepted : o.accepted = false) (silent : notReplies [o] = [])
    (stray : box.ackPending = true → ¬ ReceivesAckOk o) : Tracked box' (os ++ [o]) blocks := by
  constructor
  · exact ready
  · apply account_quiet h.account unaccepted silent
    intro b found waits
    exact stray (h.last.mpr ⟨b, found, waits⟩)
  · rw [mode]
    exact h.mode
  · rw [pending]
    exact h.last
  · rw [left]
    exact h.left

theorem tracked_step {box box' : Cbox} {os : List Observed} {blocks : List Block} {o : Observed}
    (h : Tracked box os blocks) (effect : Effect box box' o) :
    ∃ blocks', Tracked box' (os ++ [o]) blocks' := by
  have ready := effect_ready h.ready effect
  cases effect with
  | opened paramValue nowMs pendingEvt free held =>
    refine ⟨_, ready, tracked_opened h paramValue nowMs free, ?_, ?_, ?_⟩
    · rw [List.length_append, List.length_singleton, ← nextMode_number, ← h.mode]
    · simp
    · simp
  | refused paramValue nowMs busy =>
    refine ⟨blocks, tracked_quiet h ready rfl rfl rfl rfl rfl ?_⟩
    rintro _ ⟨message, nowMs, call, _⟩
    contradiction
  | confirmed message nowMs busy ok =>
    obtain ⟨past, b, rfl, waits, mode, left⟩ := tracked_pending h busy
    refine ⟨past ++ [{ b with closing := .acked }], ready, ?_, ?_, by simp, by simp⟩
    · apply account_last h.account
      · rfl
      · rfl
      · rfl
      · simp [Block.text, waits, notReplies, emissions]
      · exact ⟨(account_lawful h.account b (by simp)).1, by simp⟩
      · exact fun _ => .inr ⟨message, nowMs, rfl, ok⟩
      · simp
    · simpa using h.mode
  | answered message nowMs type =>
    have silent : notReplies [⟨.message message nowMs, false, [ackReply]⟩] = [] := by
      simp [notReplies, emissions]
    refine ⟨blocks, tracked_quiet h ready rfl rfl rfl rfl silent ?_⟩
    rintro _ ⟨message', nowMs', call, ok⟩
    cases call
    rw [ok.1] at type
    exact absurd type (by decide)
  | unanswered message nowMs type stray =>
    refine ⟨blocks, tracked_quiet h ready rfl rfl rfl rfl rfl ?_⟩
    rintro busy ⟨message', nowMs', call, ok⟩
    cases call
    exact stray busy ok
  | waited nowMs early =>
    refine ⟨blocks, tracked_quiet h ready rfl rfl rfl rfl rfl ?_⟩
    rintro _ ⟨message, nowMs', call, _⟩
    contradiction
  | retried nowMs busy due spare =>
    obtain ⟨past, b, rfl, waits, mode, left⟩ := tracked_pending h busy
    have fewer := UInt8.toNat_sub_of_le box.retriesLeft 1 (UInt8.le_iff_toNat_le.mpr spare)
    have one : (1 : UInt8).toNat = 1 := rfl
    have five : ackMaxRetries.toNat = 5 := rfl
    refine ⟨past ++ [{ b with retries := b.retries + 1 }], ready, ?_, ?_, ?_, ?_⟩
    · apply account_last h.account
      · rfl
      · rfl
      · rfl
      · simp [Block.text, waits, notReplies, emissions, mode, List.replicate_succ', evtEmission,
          ackReply]
      · refine ⟨?_, by simp [waits]⟩
        simp only
        omega
      · simp [waits]
      · intro _
        refine ⟨waits, ?_⟩
        rintro ⟨message, nowMs', call, _⟩
        contradiction
    · simpa using h.mode
    · simpa [busy] using waits
    · simp only [List.getLast?_concat, Option.some.injEq, forall_eq']
      intro _
      omega
  | gaveUp nowMs busy due spent =>
    obtain ⟨past, b, rfl, waits, mode, left⟩ := tracked_pending h busy
    refine ⟨past ++ [{ b with closing := .timedOut }], ready, ?_, ?_, by simp, by simp⟩
    · apply account_last h.account
      · rfl
      · rfl
      · rfl
      · simp [Block.text, waits, notReplies, emissions, errTimeout, ackReply]
      · refine ⟨(account_lawful h.account b (by simp)).1, fun _ => ?_⟩
        simp only
        omega
      · simp
      · simp
    · simpa using h.mode

def refusedPress (o : Observed) : Bool :=
  match o.call with
  | .button _ _ => !o.accepted
  | _ => false

def answeredMessage (o : Observed) : Bool :=
  match o.call with
  | .message message _ => decide (message.type ∈ answeredTypes)
  | _ => false

/-- The diagnostic counters and the replies against the history. -/
structure Counted (box : Cbox) (os : List Observed) : Prop where
  changes : box.modeChanges = UInt32.ofNat (os.countP Observed.accepted)
  timeouts : box.ackTimeouts = UInt32.ofNat ((emissions os).count errTimeout)
  refused : box.ignoredButtonPresses = UInt32.ofNat (os.countP refusedPress)
  replies : (emissions os).count ackReply = os.countP answeredMessage

theorem counted_append {box box' : Cbox} {os : List Observed} {o : Observed} (h : Counted box os)
    (changes : box'.modeChanges = box.modeChanges + UInt32.ofNat ([o].countP Observed.accepted))
    (timeouts : box'.ackTimeouts = box.ackTimeouts + UInt32.ofNat (o.emitted.count errTimeout))
    (refused : box'.ignoredButtonPresses =
      box.ignoredButtonPresses + UInt32.ofNat ([o].countP refusedPress))
    (replies : o.emitted.count ackReply = [o].countP answeredMessage) : Counted box' (os ++ [o]) := by
  have single : emissions [o] = o.emitted := by simp [emissions]
  constructor
  · rw [changes, h.changes, List.countP_append, UInt32.ofNat_add]
  · rw [timeouts, h.timeouts, emissions_append, single, List.count_append, UInt32.ofNat_add]
  · rw [refused, h.refused, List.countP_append, UInt32.ofNat_add]
  · rw [emissions_append, single, List.count_append, List.countP_append, h.replies, replies]

theorem counted_still {box box' : Cbox} {os : List Observed} {o : Observed} (h : Counted box os)
    (counters : box'.modeChanges = box.modeChanges ∧ box'.ackTimeouts = box.ackTimeouts ∧
      box'.ignoredButtonPresses = box.ignoredButtonPresses)
    (unaccepted : o.accepted = false) (inTime : errTimeout ∉ o.emitted)
    (unrefused : refusedPress o = false)
    (replies : o.emitted.count ackReply = [o].countP answeredMessage) : Counted box' (os ++ [o]) := by
  have same (x : UInt32) : x = x + UInt32.ofNat 0 := (UInt32.add_zero x).symm
  obtain ⟨changes, timeouts, refused⟩ := counters
  apply counted_append h
  · rw [List.countP_singleton, unaccepted, changes]
    exact same _
  · rw [List.count_eq_zero.mpr inTime, timeouts]
    exact same _
  · rw [List.countP_singleton, unrefused, refused]
    exact same _
  · exact replies

theorem counted_step {box box' : Cbox} {os : List Observed} {o : Observed} (h : Counted box os)
    (effect : Effect box box' o) : Counted box' (os ++ [o]) := by
  have same (x : UInt32) : x = x + UInt32.ofNat 0 := (UInt32.add_zero x).symm
  cases effect with
  | opened paramValue nowMs pendingEvt free held =>
    have inTime : [evtEmission (nextMode box.mode), stsEmission (nextMode box.mode),
        datEmission paramValue].count errTimeout = 0 := by
      simp [evtEmission, stsEmission, datEmission, errTimeout]
    apply counted_append h
    · rfl
    · rw [inTime]
      exact same _
    · exact same _
    · simp [evtEmission, stsEmission, datEmission, ackReply, answeredMessage]
  | refused paramValue nowMs busy =>
    apply counted_append h
    · exact same _
    · exact same _
    · rfl
    · rfl
  | confirmed message nowMs busy ok =>
    refine counted_still h ⟨rfl, rfl, rfl⟩ rfl List.not_mem_nil rfl ?_
    simp [answeredMessage, answeredTypes, ok.1]
  | answered message nowMs type =>
    have inTime : errTimeout ∉ [ackReply] := by decide
    refine counted_still h ⟨rfl, rfl, rfl⟩ rfl inTime rfl ?_
    simp [answeredMessage, type]
  | unanswered message nowMs type stray =>
    refine counted_still h ⟨rfl, rfl, rfl⟩ rfl List.not_mem_nil rfl ?_
    simp [answeredMessage, type]
  | waited nowMs early => exact counted_still h ⟨rfl, rfl, rfl⟩ rfl List.not_mem_nil rfl rfl
  | retried nowMs busy due left =>
    have inTime : errTimeout ∉ [evtEmission box.mode] := by simp [evtEmission, errTimeout]
    refine counted_still h ⟨rfl, rfl, rfl⟩ rfl inTime rfl ?_
    simp [evtEmission, ackReply, answeredMessage]
  | gaveUp nowMs busy due spent =>
    apply counted_append h
    · exact same _
    · rfl
    · exact same _
    · rfl

/-- After any calls, in any order and at any times: the history is cut into one block for
each accepted press, and the state of the box says where the last block stands. -/
theorem box_trace_law (calls : List Call) :
    ∃ box observed blocks, runBox (cboxInit true) calls = some (box, observed) ∧
      observed.map Observed.call = calls ∧
      notReplies observed = blocks.flatMap Block.text ∧
      (∃ idle spans, observed = idle ++ spans.flatten ∧ (∀ o ∈ idle, o.accepted = false) ∧
        List.Forall₂ Spans blocks spans) ∧
      observed.countP Observed.accepted = blocks.length ∧
      (∀ b ∈ blocks, b.Lawful) ∧
      blocks.map Block.mode = (List.range blocks.length).map (fun k => modeNumber (k + 1)) ∧
      (∀ b ∈ blocks.dropLast, b.closing ≠ .pending) ∧
      (box.ackPending = true ↔ ∃ b, blocks.getLast? = some b ∧ b.closing = .pending) ∧
      (box.ackPending = true → cstring box.pendingEvt.toList = some (evtText box.mode)) ∧
      box.mode = modeNumber blocks.length ∧
      box.modeChanges = UInt32.ofNat blocks.length ∧
      box.ackTimeouts = UInt32.ofNat ((emissions observed).count errTimeout) ∧
      box.ignoredButtonPresses = UInt32.ofNat (observed.countP refusedPress) ∧
      (emissions observed).count ackReply = observed.countP answeredMessage := by
  have start : Counted (cboxInit true) [] ∧ ∃ blocks, Tracked (cboxInit true) [] blocks := by
    refine ⟨⟨rfl, rfl, rfl, rfl⟩, [], init_ready, .idle (by simp) rfl, rfl, ?_, ?_⟩
    · simp [cboxInit]
    · simp
  have keeps (box : Cbox) (past : List Observed) (call : Call)
      (h : Counted box past ∧ ∃ blocks, Tracked box past blocks) :
      ∃ box' o, cboxCall box call = some (box', o) ∧
        (Counted box' (past ++ [o]) ∧ ∃ blocks, Tracked box' (past ++ [o]) blocks) := by
    obtain ⟨counted, blocks, tracked⟩ := h
    obtain ⟨box', o, step, effect⟩ := call_effect tracked.ready call
    exact ⟨box', o, step, counted_step counted effect, tracked_step tracked effect⟩
  obtain ⟨box, observed, hrun, counted, blocks, tracked⟩ := Machine.run_history keeps start calls
  simp only [List.nil_append] at counted tracked
  have account := tracked.account
  have presses := account_accepted account
  refine ⟨box, observed, blocks, hrun, Machine.run_inputs (fun _ _ _ _ h => call_observed h) hrun,
    account_text account, account_spans account, presses, account_lawful account,
    account_modes account, account_closed account, tracked.last, ?_, tracked.mode,
    presses ▸ counted.changes, counted.timeouts, counted.refused, counted.replies⟩
  intro busy
  exact cstring_starts (evt_payload box.mode).2.1 (tracked.ready.pending busy)

end CommandBox
