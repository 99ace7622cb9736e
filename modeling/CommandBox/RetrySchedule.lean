import CommandBox.BoxTrace
import CommandBox.Lib.Clock

/-! The retries of one transaction in true time. The box sees only the 32-bit readings
of its ticks; the times of its emissions are bounded wherever the counter wraps. -/
namespace CommandBox
open Memory Clock

/-- A tick at a true time, and what it emits with that time. -/
def tickAt (box : Cbox) (t : Nat) : Option (Cbox × List (Nat × Emission)) :=
  (cboxOnTick box (stamp t)).map fun r => (r.1, r.2.map fun e => (t, e))

def ticksOf (T : Nat → Nat) (n : Nat) : List Nat := (List.range n).map T

/-- A box whose open transaction was last sent at true time `sent`. -/
structure Awaits (box : Cbox) (sent left : Nat) : Prop where
  ready : BoxReady box
  busy : box.ackPending = true
  retries : box.retriesLeft.toNat = left
  deadline : box.ackDeadlineMs = stamp (sent + ackRetryPeriodMs.toNat)

theorem ticksOf_split (T : Nat → Nat) (j n : Nat) :
    ticksOf T (j + 1 + n) = ticksOf T j ++ T j :: ticksOf (fun i => T (j + 1 + i)) n := by
  simp [ticksOf, List.range_add, List.range_succ, Function.comp_def]

theorem tick_cases {box : Cbox} (ready : BoxReady box) (nowMs : UInt32) :
    ∃ box' emitted, cboxOnTick box nowMs = some (box', emitted) ∧
      Effect box box' ⟨.tick nowMs, false, emitted⟩ := by
  obtain ⟨box', o, called, effect⟩ := tick_effect ready nowMs
  obtain ⟨r, ticked, result⟩ := Option.map_eq_some_iff.mp called
  cases result
  exact ⟨_, _, ticked, effect⟩

theorem tickAt_eq {box box' : Cbox} {t : Nat} {emitted : List Emission}
    (h : cboxOnTick box (stamp t) = some (box', emitted)) :
    tickAt box t = some (box', emitted.map fun e => (t, e)) := by
  simp only [tickAt, h, Option.map_some]

/-- The signed test of the tick compares true times, wherever the counter wraps. -/
theorem awaits_due {box : Cbox} {sent left t : Nat} (waits : Awaits box sent left)
    (after : sent ≤ t) (near : t < sent + 500 + 2 ^ 31) :
    ¬ (stamp t - box.ackDeadlineMs).toInt32 < 0 ↔ sent + 500 ≤ t := by
  rw [waits.deadline]
  exact due_iff near (by change sent + 500 ≤ t + 2 ^ 31; omega)

theorem tick_early {box : Cbox} {sent left t : Nat} (waits : Awaits box sent left)
    (after : sent ≤ t) (early : t < sent + 500) : tickAt box t = some (box, []) := by
  obtain ⟨box', emitted, ticked, effect⟩ := tick_cases waits.ready (stamp t)
  have due := awaits_due waits after (by omega)
  rw [tickAt_eq ticked]
  cases effect with
  | waited => rfl
  | retried _ _ late | gaveUp _ _ late => exact absurd (due.mp late) (by omega)

theorem tick_retry {box : Cbox} {sent left t : Nat} (waits : Awaits box sent (left + 1))
    (late : sent + 500 ≤ t) (near : t < sent + 500 + 2 ^ 31) :
    ∃ box', tickAt box t = some (box', [(t, evtEmission box.mode)]) ∧ Awaits box' t left ∧
      box'.mode = box.mode := by
  obtain ⟨box', emitted, ticked, effect⟩ := tick_cases waits.ready (stamp t)
  have ready := effect_ready waits.ready effect
  have due := (awaits_due waits (by omega) near).mpr late
  have count := waits.retries
  cases effect with
  | waited _ early => exact absurd (early waits.busy) due
  | gaveUp _ _ _ spent => omega
  | retried nowMs busy _ more =>
    have one : (1 : UInt8).toNat = 1 := rfl
    have less := UInt8.toNat_sub_of_le box.retriesLeft 1 (UInt8.le_iff_toNat_le.mpr more)
    refine ⟨_, tickAt_eq ticked, ⟨ready, busy, ?_, stamp_add t 500⟩, rfl⟩
    simp only [less, count, one]
    rfl

theorem tick_timeout {box : Cbox} {sent t : Nat} (waits : Awaits box sent 0)
    (late : sent + 500 ≤ t) (near : t < sent + 500 + 2 ^ 31) :
    ∃ box', tickAt box t = some (box', [(t, errTimeout)]) ∧ box'.ackPending = false := by
  obtain ⟨box', emitted, ticked, effect⟩ := tick_cases waits.ready (stamp t)
  have due := (awaits_due waits (by omega) near).mpr late
  have spent := waits.retries
  cases effect with
  | waited _ early => exact absurd (early waits.busy) due
  | retried _ _ _ more => omega
  | gaveUp => exact ⟨_, tickAt_eq ticked, rfl⟩

theorem closed_quiet {box : Cbox} (closed : box.ackPending = false) (times : List Nat) :
    ∃ outs, Machine.run tickAt box times = some (box, outs) ∧ outs.flatten = [] := by
  induction times with
  | nil => exact ⟨[], rfl, rfl⟩
  | cons t times ih =>
    obtain ⟨outs, run, silent⟩ := ih
    have tick : tickAt box t = some (box, []) := by simp [tickAt, cboxOnTick, closed]
    refine ⟨[] :: outs, ?_, by simpa using silent⟩
    rw [Machine.run_cons _ tick, run, Option.map_some]

theorem early_quiet {box : Cbox} {sent left : Nat} (waits : Awaits box sent left) (times : List Nat)
    (early : ∀ t ∈ times, sent ≤ t ∧ t < sent + 500) :
    ∃ outs, Machine.run tickAt box times = some (box, outs) ∧ outs.flatten = [] := by
  induction times with
  | nil => exact ⟨[], rfl, rfl⟩
  | cons t times ih =>
    obtain ⟨outs, run, silent⟩ := ih fun u hu => early u (List.mem_cons_of_mem t hu)
    have inside := early t List.mem_cons_self
    refine ⟨[] :: outs, ?_, by simpa using silent⟩
    rw [Machine.run_cons _ (tick_early waits inside.1 inside.2), run, Option.map_some]

theorem run_to_deadline {box box' : Cbox} {sent left j : Nat} {T : Nat → Nat}
    {e : Nat × Emission} (waits : Awaits box sent left) (gap : Nat) (schedule : Schedule T sent gap)
    (early : ∀ i < j, T i < sent + 500) (fires : tickAt box (T j) = some (box', [e])) {n : Nat}
    {final : Cbox} {outs : List (List (Nat × Emission))}
    (rest : Machine.run tickAt box' (ticksOf (fun i => T (j + 1 + i)) n) = some (final, outs)) :
    ∃ all, Machine.run tickAt box (ticksOf T (j + 1 + n)) = some (final, all) ∧
      all.flatten = e :: outs.flatten := by
  have within : ∀ t ∈ ticksOf T j, sent ≤ t ∧ t < sent + 500 := by
    intro t ht
    obtain ⟨i, hi, rfl⟩ := List.mem_map.mp ht
    have first := schedule_mono schedule (Nat.zero_le i)
    exact ⟨Nat.le_trans schedule.first.1 first, early i (List.mem_range.mp hi)⟩
  obtain ⟨quiet, run, silent⟩ := early_quiet waits (ticksOf T j) within
  refine ⟨quiet ++ [e] :: outs, ?_, by simp [silent]⟩
  rw [ticksOf_split, Machine.run_append run, Machine.run_cons _ fires, rest]
  rfl

/-- The emissions of a transaction that is never answered, sent again at `e 1`, `e 2`, ... -/
def retryLog (evt : Emission) (e : Nat → Nat) (retries : Nat) : List (Nat × Emission) :=
  (List.range retries).map (fun i => (e (i + 1), evt)) ++ [(e (retries + 1), errTimeout)]

theorem retryLog_cons (evt : Emission) (sent : Nat) (e : Nat → Nat) (retries : Nat) :
    retryLog evt (precededBy sent e) (retries + 1) = (e 0, evt) :: retryLog evt e retries := by
  simp [retryLog, precededBy, List.range_succ_eq_map, Function.comp_def]

theorem unanswered_runs (left : Nat) {box : Cbox} {sent G : Nat} {T : Nat → Nat}
    (waits : Awaits box sent left) (small : G + 500 < 2 ^ 31) (schedule : Schedule T sent G) :
    ∃ e : Nat → Nat, e 0 = sent ∧
      (∀ i ≤ left, e i + 500 ≤ e (i + 1) ∧ e (i + 1) < e i + 500 + G) ∧
      ∃ N, ∀ n ≥ N, ∃ final outs, Machine.run tickAt box (ticksOf T n) = some (final, outs) ∧
        outs.flatten = retryLog (evtEmission box.mode) e left := by
  -- the induction is on the retries left; the schedule goes on after the tick that fired
  induction left generalizing box sent T with
  | zero =>
    obtain ⟨j, late, bound, early⟩ := schedule_reaches schedule (t := sent + 500) (by omega)
    obtain ⟨box', fires, closed⟩ := tick_timeout waits late (by omega)
    refine ⟨precededBy sent fun _ => T j, rfl, ?_, j + 1, ?_⟩
    · intro i hi
      cases Nat.le_zero.mp hi
      exact ⟨late, bound⟩
    · intro n hn
      obtain ⟨m, rfl⟩ := Nat.exists_eq_add_of_le hn
      obtain ⟨outs, rest, silent⟩ := closed_quiet closed (ticksOf (fun i => T (j + 1 + i)) m)
      obtain ⟨all, run, log⟩ := run_to_deadline waits G schedule early fires rest
      exact ⟨box', all, run, by rw [log, silent]; rfl⟩
  | succ left ih =>
    obtain ⟨j, late, bound, early⟩ := schedule_reaches schedule (t := sent + 500) (by omega)
    obtain ⟨box', fires, waits', mode⟩ := tick_retry waits late (by omega)
    obtain ⟨e, start, bounds, N, runs⟩ := ih waits' (schedule_tail schedule j)
    refine ⟨precededBy sent e, rfl, ?_, j + 1 + N, ?_⟩
    · intro i hi
      cases i with
      | zero =>
        rw [precededBy, precededBy, start]
        exact ⟨late, bound⟩
      | succ i => exact bounds i (Nat.le_of_succ_le_succ hi)
    · intro n hn
      obtain ⟨m, rfl⟩ := Nat.exists_eq_add_of_le hn
      obtain ⟨final, outs, rest, log⟩ := runs (N + m) (Nat.le_add_right N m)
      obtain ⟨all, run, whole⟩ := run_to_deadline waits G schedule early fires rest
      refine ⟨final, all, by rw [Nat.add_assoc]; exact run, ?_⟩
      rw [whole, log, retryLog_cons, start, mode]

theorem runBox_ready {past : List Call} {box : Cbox} {history : List Observed}
    (reached : runBox (cboxInit true) past = some (box, history)) : BoxReady box := by
  have keeps : ∀ box call, BoxReady box →
      ∃ box' o, cboxCall box call = some (box', o) ∧ BoxReady box' := by
    intro box call ready
    obtain ⟨box', o, called, effect⟩ := call_effect ready call
    exact ⟨box', o, called, effect_ready ready effect⟩
  obtain ⟨box', history', run, ready⟩ := Machine.run_safe keeps init_ready past
  rw [runBox, run] at reached
  cases reached
  exact ready

theorem press_awaits {box : Cbox} (ready : BoxReady box) (free : box.ackPending = false)
    (paramValue : UInt8) (t : Nat) :
    ∃ opened, cboxOnButton box paramValue (stamp t) =
        some (opened, true, [evtEmission opened.mode, stsEmission opened.mode,
          datEmission paramValue]) ∧
      Awaits opened t ackMaxRetries.toNat := by
  obtain ⟨box', o, called, effect⟩ := button_effect ready paramValue (stamp t)
  have ready' := effect_ready ready effect
  obtain ⟨⟨opened, accepted, emitted⟩, pressed, result⟩ := Option.map_eq_some_iff.mp called
  cases result
  cases effect with
  | refused _ _ busy =>
    rw [free] at busy
    contradiction
  | opened => exact ⟨_, pressed, ready', rfl, rfl, stamp_add t 500⟩

theorem ack_closes {box : Cbox} (ready : BoxReady box) {message : ProtocolMessage}
    (ok : IsAckOk message) (nowMs : UInt32) :
    ∃ acked, cboxOnMessage box message nowMs = some (acked, []) ∧ acked.ackPending = false := by
  obtain ⟨box', o, called, effect⟩ := message_effect ready.sends message nowMs
  obtain ⟨⟨acked, emitted⟩, handled, result⟩ := Option.map_eq_some_iff.mp called
  cases result
  cases effect with
  | confirmed => exact ⟨_, handled, rfl⟩
  | answered _ _ type =>
    rw [ok.1] at type
    exact absurd type (by decide)
  | unanswered _ _ _ stray =>
    refine ⟨_, handled, ?_⟩
    cases busy : acked.ackPending with
    | false => rfl
    | true => exact absurd ok (stray busy)

theorem ticks_run {box : Cbox} (ready : BoxReady box) (times : List Nat) :
    ∃ box' outs, Machine.run tickAt box times = some (box', outs) ∧ BoxReady box' := by
  have keeps : ∀ box t, BoxReady box →
      ∃ box' o, tickAt box t = some (box', o) ∧ BoxReady box' := by
    intro box t ready
    obtain ⟨box', emitted, ticked, effect⟩ := tick_cases ready (stamp t)
    exact ⟨box', _, tickAt_eq ticked, effect_ready ready effect⟩
  exact Machine.run_safe keeps ready times

/-- An unanswered press is sent again after each period, each time late by less than the
longest gap between two ticks, and then given up; an `ACK:ok` at any point ends this. -/
theorem retry_schedule {past : List Call} {history : List Observed} {box : Cbox}
    (reached : runBox (cboxInit true) past = some (box, history)) (free : box.ackPending = false)
    (paramValue : UInt8) (e₀ G : Nat) (T : Nat → Nat) (small : G + ackRetryPeriodMs.toNat < 2 ^ 31)
    (ticks : Schedule T e₀ G) :
    ∃ opened, cboxOnButton box paramValue (stamp e₀) =
        some (opened, true, [evtEmission opened.mode, stsEmission opened.mode,
          datEmission paramValue]) ∧
      (∃ e : Nat → Nat, e 0 = e₀ ∧
        (∀ i ≤ ackMaxRetries.toNat, e i + ackRetryPeriodMs.toNat ≤ e (i + 1) ∧
          e (i + 1) < e i + ackRetryPeriodMs.toNat + G) ∧
        ∃ N, ∀ n ≥ N, ∃ final outs,
          Machine.run tickAt opened (ticksOf T n) = some (final, outs) ∧
          outs.flatten = retryLog (evtEmission opened.mode) e ackMaxRetries.toNat) ∧
      ∀ k message nowMs, IsAckOk message → ∃ mid outs acked,
        Machine.run tickAt opened (ticksOf T k) = some (mid, outs) ∧
        cboxOnMessage mid message nowMs = some (acked, []) ∧
        ∀ times, ∃ later, Machine.run tickAt acked times = some (acked, later) ∧
          later.flatten = [] := by
  obtain ⟨opened, pressed, waits⟩ := press_awaits (runBox_ready reached) free paramValue e₀
  refine ⟨opened, pressed, unanswered_runs _ waits small ticks, ?_⟩
  intro k message nowMs ok
  obtain ⟨mid, outs, run, ready⟩ := ticks_run waits.ready (ticksOf T k)
  obtain ⟨acked, handled, closed⟩ := ack_closes ready ok nowMs
  exact ⟨mid, outs, acked, run, handled, closed_quiet closed⟩

/-- A press 100 ms before the counter wraps, and a tick every 7 ms. -/
theorem retry_schedule_wrap :
    ∃ opened, cboxOnButton (cboxInit true) 42 (stamp (2 ^ 32 - 100)) =
        some (opened, true, [evtEmission opened.mode, stsEmission opened.mode, datEmission 42]) ∧
      (∃ e : Nat → Nat, e 0 = 2 ^ 32 - 100 ∧
        (∀ i ≤ ackMaxRetries.toNat, e i + ackRetryPeriodMs.toNat ≤ e (i + 1) ∧
          e (i + 1) < e i + ackRetryPeriodMs.toNat + 7) ∧
        ∃ N, ∀ n ≥ N, ∃ final outs,
          Machine.run tickAt opened (ticksOf (fun n => 2 ^ 32 - 100 + 7 * n) n) = some (final, outs) ∧
          outs.flatten = retryLog (evtEmission opened.mode) e ackMaxRetries.toNat) ∧
      ∀ k message nowMs, IsAckOk message → ∃ mid outs acked,
        Machine.run tickAt opened (ticksOf (fun n => 2 ^ 32 - 100 + 7 * n) k) = some (mid, outs) ∧
        cboxOnMessage mid message nowMs = some (acked, []) ∧
        ∀ times, ∃ later, Machine.run tickAt acked times = some (acked, later) ∧
          later.flatten = [] :=
  retry_schedule (show runBox (cboxInit true) [] = some (cboxInit true, []) from rfl) rfl 42
    (2 ^ 32 - 100) 7 _ (by decide)
    ⟨by decide, fun n => by omega, fun t => ⟨t, by omega⟩⟩

end CommandBox
