import CommandBox.Signals
import CommandBox.Lib.Clock

/-! The beep code of a mode entry. `Beep` is the code in true time, without counters that
wrap; the ticks of signals.c play it, and its beeps are counted there. -/
namespace CommandBox
open Clock Machine

/-- A beep or a silence before `edge`, with `after` more beeps to begin behind it (for a
silence, behind the next one); or nothing any more. -/
inductive Beep where
  | sounding (after edge : Nat)
  | silent (after edge : Nat)
  | finished
  deriving DecidableEq

namespace Beep

/-- What follows a beep that ends at a tick. -/
def afterBeep : Nat → Nat → Beep
  | 0, _ => finished
  | after + 1, t => silent after (t + beepOffMs.toNat)

/-- A tick at a true time, and whether the buzzer sounds after it. -/
def next : Beep → Nat → Beep × Bool
  | sounding after edge, t =>
    if edge ≤ t then (afterBeep after t, false) else (sounding after edge, true)
  | silent after edge, t =>
    if edge ≤ t then (sounding after (t + beepOnMs.toNat), true) else (silent after edge, false)
  | finished, _ => (finished, false)

def due : Beep → Nat
  | sounding after _ => after
  | silent after _ => after + 1
  | finished => 0

def sounds : Beep → Bool
  | sounding _ _ => true
  | _ => false

/-- The next edge is ahead of the last tick, by at most the length of a phase. -/
def Ahead : Beep → Nat → Prop
  | sounding _ edge, last | silent _ edge, last => last < edge ∧ edge ≤ last + 120
  | finished, _ => True

theorem afterBeep_silent (after t : Nat) : (afterBeep after t).sounds = false := by
  cases after <;> rfl

theorem afterBeep_due (after t : Nat) : (afterBeep after t).due = after := by
  cases after <;> rfl

theorem afterBeep_ahead (after t : Nat) : (afterBeep after t).Ahead t := by
  cases after with
  | zero => exact True.intro
  | succ after => exact ⟨Nat.lt_add_of_pos_right (by decide), Nat.le_refl _⟩

theorem next_heard (p : Beep) (t : Nat) : (p.next t).2 = (p.next t).1.sounds := by
  cases p with
  | sounding after edge =>
    simp only [next]
    split
    · exact (afterBeep_silent after t).symm
    · rfl
  | silent after edge =>
    simp only [next]
    split <;> rfl
  | finished => rfl

theorem next_ahead {p : Beep} {last t : Nat} (ahead : p.Ahead last) (order : last ≤ t) :
    (p.next t).1.Ahead t := by
  cases p with
  | sounding after edge =>
    simp only [next]
    split
    · exact afterBeep_ahead after t
    · exact ⟨by omega, Nat.le_trans ahead.2 (Nat.add_le_add_right order 120)⟩
  | silent after edge =>
    simp only [next]
    split
    · exact ⟨Nat.lt_add_of_pos_right (by decide), Nat.le_refl _⟩
    · exact ⟨by omega, Nat.le_trans ahead.2 (Nat.add_le_add_right order 120)⟩
  | finished => exact True.intro

theorem next_due (p : Beep) (t : Nat) :
    (p.next t).1.due + (if p.sounds = false ∧ (p.next t).2 = true then 1 else 0) = p.due := by
  cases p with
  | sounding after edge =>
    simp only [next]
    split
    · exact afterBeep_due after t
    · rfl
  | silent after edge =>
    simp only [next]
    split <;> rfl
  | finished => rfl

/- Runs. -/

def heard (T : Nat → Nat) (p : Beep) (n : Nat) : Bool := outputAt next p T n

section Runs
variable {T : Nat → Nat} {start gap : Nat} (p : Beep)


theorem heard_sounds (n : Nat) : heard T p n = (stateAt next p T (n + 1)).sounds :=
  next_heard _ _

theorem ahead_at (schedule : Schedule T start gap) (ahead : p.Ahead start) (n : Nat) :
    (stateAt next p T n).Ahead (precededBy start T n) := by
  induction n with
  | zero => exact ahead
  | succ n ih => exact next_ahead ih (schedule_gap schedule n).1

theorem sounding_lasts (schedule : Schedule T start gap) {n j after edge : Nat}
    (begun : stateAt next p T n = sounding after edge) (order : n ≤ j)
    (ended : heard T p j = false) : edge ≤ T j := by
  apply Nat.not_lt.mp
  intro early
  have held : stateAt next p T j = sounding after edge := by
    apply stateAt_stays begun order
    intro i _ high
    have before := Nat.lt_of_le_of_lt (schedule_mono schedule (Nat.le_of_lt high)) early
    simp [next, Nat.not_le.mpr before]
  simp [heard, outputAt, held, next, Nat.not_le.mpr early] at ended

theorem silence_lasts (schedule : Schedule T start gap) {n j after edge : Nat}
    (begun : stateAt next p T n = silent after edge) (order : n ≤ j)
    (ended : heard T p j = true) : edge ≤ T j := by
  apply Nat.not_lt.mp
  intro early
  have held : stateAt next p T j = silent after edge := by
    apply stateAt_stays begun order
    intro i _ high
    have before := Nat.lt_of_le_of_lt (schedule_mono schedule (Nat.le_of_lt high)) early
    simp [next, Nat.not_le.mpr before]
  simp [heard, outputAt, held, next, Nat.not_le.mpr early] at ended

theorem finished_stays {n j : Nat} (ended : stateAt next p T n = finished) (order : n ≤ j) :
    stateAt next p T j = finished :=
  stateAt_stays ended order fun _ _ _ => rfl

theorem finished_silent {n j : Nat} (ended : stateAt next p T n = finished) (order : n ≤ j) :
    heard T p j = false := by
  rw [heard, outputAt, finished_stays p ended order]
  rfl

theorem rise_begins {n : Nat} (quiet : heard T p n = false) (sound : heard T p (n + 1) = true) :
    ∃ after, stateAt next p T (n + 2) = sounding after (T (n + 1) + beepOnMs.toNat) := by
  rw [heard_sounds] at quiet
  rw [heard, outputAt] at sound
  rw [stateAt]
  cases state : stateAt next p T (n + 1) with
  | sounding after edge =>
    rw [state] at quiet
    contradiction
  | silent after edge =>
    rw [state, next] at sound
    split at sound
    · rename_i late
      exact ⟨after, by rw [next, if_pos late]⟩
    · contradiction
  | finished =>
    rw [state] at sound
    contradiction

theorem fall_ends {n : Nat} (sound : heard T p n = true) (quiet : heard T p (n + 1) = false) :
    ∃ after, stateAt next p T (n + 2) = afterBeep after (T (n + 1)) := by
  rw [heard_sounds] at sound
  rw [heard, outputAt] at quiet
  rw [stateAt]
  cases state : stateAt next p T (n + 1) with
  | sounding after edge =>
    rw [state, next] at quiet
    split at quiet
    · rename_i late
      exact ⟨after, by rw [next, if_pos late]⟩
    · contradiction
  | silent after edge | finished =>
    rw [state] at sound
    contradiction

theorem sounding_ends (schedule : Schedule T start gap) {n after edge : Nat}
    (begun : stateAt next p T n = sounding after edge) :
    ∃ j, edge ≤ T j ∧ stateAt next p T j = sounding after edge := by
  obtain ⟨j, order, late, early⟩ := schedule_first schedule n edge
  refine ⟨j, late, stateAt_stays begun order ?_⟩
  intro i low high
  simp [next, Nat.not_le.mpr (early i low high)]

theorem silence_ends (schedule : Schedule T start gap) {n after edge : Nat}
    (begun : stateAt next p T n = silent after edge) :
    ∃ j, edge ≤ T j ∧ stateAt next p T j = silent after edge := by
  obtain ⟨j, order, late, early⟩ := schedule_first schedule n edge
  refine ⟨j, late, stateAt_stays begun order ?_⟩
  intro i low high
  simp [next, Nat.not_le.mpr (early i low high)]

/-- Ticks that never end take the code to its end. -/
theorem reaches_finished (schedule : Schedule T start gap) {n after edge : Nat}
    (begun : stateAt next p T n = sounding after edge) : ∃ N, stateAt next p T N = finished := by
  induction after generalizing n edge with
  | zero =>
    obtain ⟨j, late, held⟩ := sounding_ends p schedule begun
    exact ⟨j + 1, by rw [stateAt, held, next, if_pos late]; rfl⟩
  | succ after ih =>
    obtain ⟨j, late, held⟩ := sounding_ends p schedule begun
    have paused : stateAt next p T (j + 1) = silent after (T j + beepOffMs.toNat) := by
      rw [stateAt, held, next, if_pos late]
      rfl
    obtain ⟨k, late', held'⟩ := silence_ends p schedule paused
    have again : stateAt next p T (k + 1) = sounding after (T k + beepOnMs.toNat) := by
      rw [stateAt, held', next, if_pos late']
    exact ih again

end Runs

end Beep

/-- The changes from off to on among the first `n` values after a first one. -/
def rises (first : Bool) (v : Nat → Bool) (n : Nat) : Nat :=
  (List.range n).countP fun k => !precededBy first v k && v k

theorem rises_succ (first : Bool) (v : Nat → Bool) (n : Nat) :
    rises first v (n + 1) = rises first v n + if !precededBy first v n && v n then 1 else 0 := by
  simp [rises, List.range_succ, List.countP_append, List.countP_singleton]

/-- Starting on instead of off hides the rise of the first value. -/
theorem rises_hidden {v : Nat → Bool} (sound : v 0 = true) (n : Nat) :
    rises false v (n + 1) = rises true v (n + 1) + 1 := by
  induction n with
  | zero => simp [precededBy, sound, rises]
  | succ n ih =>
    have same : precededBy false v (n + 1) = precededBy true v (n + 1) := rfl
    rw [rises_succ, ih, rises_succ true v (n + 1), same]
    omega

theorem rises_due (T : Nat → Nat) (p : Beep) (n : Nat) :
    rises p.sounds (p.heard T) n + (stateAt Beep.next p T n).due = p.due := by
  induction n with
  | zero => simp [rises, stateAt]
  | succ n ih =>
    have previous : precededBy p.sounds (p.heard T) n = (stateAt Beep.next p T n).sounds := by
      cases n with
      | zero => rfl
      | succ n => exact p.heard_sounds n
    have step := Beep.next_due (stateAt Beep.next p T n) (T n)
    have output : (Beep.next (stateAt Beep.next p T n) (T n)).2 = p.heard T n := rfl
    rw [output] at step
    rw [rises_succ, previous, stateAt]
    simp only [Bool.and_eq_true, Bool.not_eq_true']
    omega

/-- The values `v` that ticks at the times `T` pass to the buzzer, after a first value, are
the code of `count` beeps. The beep of the entry itself is begun by no tick. -/
structure SoundsCode (count : Nat) (first : Bool) (T : Nat → Nat) (v : Nat → Bool) : Prop where
  never_more : ∀ n, rises first v n ≤ count
  complete : ∃ N, ∀ n ≥ N, rises first v n = count ∧ v n = false
  sounding : ∀ i j, v i = false → v (i + 1) = true → i + 1 < j → v j = false →
    T (i + 1) + beepOnMs.toNat ≤ T j
  silence : ∀ i j, v i = true → v (i + 1) = false → i + 1 < j → v j = true →
    T (i + 1) + beepOffMs.toNat ≤ T j

theorem code_empty (T : Nat → Nat) (first : Bool) {v : Nat → Bool} (silent : ∀ n, v n = false) :
    SoundsCode 0 first T v := by
  have none : ∀ n, rises first v n = 0 := by
    intro n
    induction n with
    | zero => rfl
    | succ n ih => rw [rises_succ, ih, silent n, Bool.and_false]; rfl
  constructor
  · exact fun n => Nat.le_of_eq (none n)
  · exact ⟨0, fun n _ => ⟨none n, silent n⟩⟩
  · intro i j _ on
    rw [silent] at on
    contradiction
  · intro i j on
    rw [silent] at on
    contradiction

/-- The code at an entry, with its first beep already begun. -/
def entryBeep (after start : Nat) : Beep := .sounding after (start + beepOnMs.toNat)

theorem entry_rises (T : Nat → Nat) (after start n : Nat) :
    rises true ((entryBeep after start).heard T) n ≤ after := by
  have count := rises_due T (entryBeep after start) n
  simp only [entryBeep, Beep.sounds, Beep.due] at count
  simp only [entryBeep]
  omega

theorem code_complete {T : Nat → Nat} {start gap : Nat} (schedule : Schedule T start gap)
    (prompt : T 0 < start + beepOnMs.toNat) (after : Nat) :
    SoundsCode (after + 1) false T ((entryBeep after start).heard T) := by
  have sound : (entryBeep after start).heard T 0 = true := by
    simp [entryBeep, Beep.heard, outputAt, stateAt, Beep.next, Nat.not_le.mpr prompt]
  constructor
  · intro n
    cases n with
    | zero => exact Nat.zero_le _
    | succ n =>
      rw [rises_hidden sound]
      exact Nat.succ_le_succ (entry_rises T after start (n + 1))
  · have begun : stateAt Beep.next (entryBeep after start) T 0 =
        .sounding after (start + beepOnMs.toNat) := rfl
    obtain ⟨N, ended⟩ := Beep.reaches_finished _ schedule begun
    refine ⟨N + 1, ?_⟩
    intro n hn
    obtain ⟨m, rfl⟩ := Nat.exists_eq_add_of_le' hn
    have last := Beep.finished_stays _ ended (show N ≤ m + (N + 1) by omega)
    have count : rises true ((entryBeep after start).heard T) (m + N + 1) = after := by
      have total := rises_due T (entryBeep after start) (m + (N + 1))
      rw [last] at total
      exact total
    constructor
    · rw [← Nat.add_assoc, rises_hidden sound, count]
    · exact Beep.finished_silent _ ended (by omega)
  · intro i j quiet sound order ended
    obtain ⟨left, begun⟩ := Beep.rise_begins _ quiet sound
    exact Beep.sounding_lasts _ schedule begun order ended
  · intro i j sound quiet order again
    obtain ⟨left, begun⟩ := Beep.fall_ends _ sound quiet
    cases left with
    | zero =>
      rw [Beep.finished_silent _ begun order] at again
      contradiction
    | succ left => exact Beep.silence_lasts _ schedule begun order again

/-- After a value that was on, the first beep is not heard as one. -/
theorem code_merged (T : Nat → Nat) (after start : Nat) :
    ¬ SoundsCode (after + 1) true T ((entryBeep after start).heard T) := by
  intro code
  obtain ⟨N, complete⟩ := code.complete
  have few := entry_rises T after start N
  have all := (complete N (Nat.le_refl N)).1
  omega

/- The code of signals.c. -/

def Plays (signals : Signals) : Beep → Prop
  | .sounding after edge => signals.beepsRemaining.toNat = after + 1 ∧ signals.beepOn = true ∧
      signals.beepEdgeMs = stamp edge
  | .silent after edge => signals.beepsRemaining.toNat = after + 1 ∧ signals.beepOn = false ∧
      signals.beepEdgeMs = stamp edge
  | .finished => signals.beepsRemaining = 0

def timedTick (signals : Signals) (t : Nat) : Signals × SignalsOutput := signalsTick signals (stamp t)

theorem plays_sounds {signals : Signals} {p : Beep} (plays : Plays signals p) :
    (decide (signals.beepsRemaining > 0) && signals.beepOn) = p.sounds := by
  cases p with
  | sounding after edge =>
    have some : signals.beepsRemaining > 0 := UInt8.lt_iff_toNat_lt.mpr (by simp [plays.1])
    simp [some, plays.2.1, Beep.sounds]
  | silent after edge => simp [plays.2.1, Beep.sounds]
  | finished =>
    have none : signals.beepsRemaining = 0 := plays
    simp [none, Beep.sounds]

theorem edge_due {signals : Signals} {edge last t : Nat} (stamped : signals.beepEdgeMs = stamp edge)
    (ahead : last < edge ∧ edge ≤ last + 120) (order : last ≤ t) (near : t < last + 2 ^ 31) :
    (stamp t - signals.beepEdgeMs).toInt32 ≥ 0 ↔ edge ≤ t := by
  rw [stamped, ← due_iff (by omega) (by omega)]
  exact Int32.not_lt.symm

theorem tick_plays {signals : Signals} {p : Beep} {last t : Nat} (plays : Plays signals p)
    (ahead : p.Ahead last) (order : last ≤ t) (near : t < last + 2 ^ 31) :
    Plays (timedTick signals t).1 (p.next t).1 := by
  change Plays (beepTick signals (stamp t)) (p.next t).1
  cases p with
  | sounding after edge =>
    obtain ⟨left, on, stamped⟩ := plays
    have some : signals.beepsRemaining > 0 := UInt8.lt_iff_toNat_lt.mpr (by simp [left])
    have due := edge_due stamped ahead order near
    have less := UInt8.toNat_sub_of_le signals.beepsRemaining 1 (UInt8.le_iff_toNat_le.mpr some)
    rw [left] at less
    by_cases late : edge ≤ t
    · have tick : beepTick signals (stamp t) = { signals with
          beepOn := false
          beepsRemaining := signals.beepsRemaining - 1
          beepEdgeMs := stamp t + beepOffMs } := by
        simp only [beepTick, if_pos some, if_pos (due.mpr late), on, if_true]
      rw [tick, Beep.next, if_pos late]
      cases after with
      | zero => exact UInt8.toNat_inj.mp less
      | succ after => exact ⟨less, rfl, stamp_add t 120⟩
    · have tick : beepTick signals (stamp t) = signals := by
        simp only [beepTick, if_pos some, if_neg (mt due.mp late)]
      rw [tick, Beep.next, if_neg late]
      exact ⟨left, on, stamped⟩
  | silent after edge =>
    obtain ⟨left, off, stamped⟩ := plays
    have some : signals.beepsRemaining > 0 := UInt8.lt_iff_toNat_lt.mpr (by simp [left])
    have due := edge_due stamped ahead order near
    by_cases late : edge ≤ t
    · have tick : beepTick signals (stamp t) = { signals with
          beepOn := true
          beepEdgeMs := stamp t + beepOnMs } := by
        simp only [beepTick, if_pos some, if_pos (due.mpr late), off, Bool.false_eq_true, if_false]
      rw [tick, Beep.next, if_pos late]
      exact ⟨left, rfl, stamp_add t 120⟩
    · have tick : beepTick signals (stamp t) = signals := by
        simp only [beepTick, if_pos some, if_neg (mt due.mp late)]
      rw [tick, Beep.next, if_neg late]
      exact ⟨left, off, stamped⟩
  | finished =>
    have none : signals.beepsRemaining = 0 := plays
    have tick : beepTick signals (stamp t) = signals := by simp [beepTick, none]
    rw [tick]
    exact none

theorem ticks_play {signals : Signals} {p : Beep} {T : Nat → Nat} {start gap : Nat}
    (plays : Plays signals p) (set : signals.setBuzzer = true) (ahead : p.Ahead start)
    (schedule : Schedule T start gap) (small : gap < 2 ^ 31) (n : Nat) :
    (outputAt timedTick signals T n).buzzer = some (p.heard T n) := by
  have along : Plays (stateAt timedTick signals T n) (stateAt Beep.next p T n) ∧
      (stateAt timedTick signals T n).setBuzzer = true := by
    induction n with
    | zero => exact ⟨plays, set⟩
    | succ n ih =>
      have gaps := schedule_gap schedule n
      have tick := tick_plays ih.1 (Beep.ahead_at p schedule ahead n) gaps.1 (by omega)
      exact ⟨tick, (beepTick_kept _ _).2.2.2.trans ih.2⟩
  have gaps := schedule_gap schedule n
  have tick := tick_plays along.1 (Beep.ahead_at p schedule ahead n) gaps.1 (by omega)
  have kept := (beepTick_kept (stateAt timedTick signals T n) (stamp (T n))).2.2.2.trans along.2
  have output : (outputAt timedTick signals T n).buzzer =
      some (decide ((timedTick (stateAt timedTick signals T n) (T n)).1.beepsRemaining > 0) &&
        (timedTick (stateAt timedTick signals T n) (T n)).1.beepOn) := by
    simp only [outputAt, timedTick, signalsTick, kept, if_true]
  rw [output, plays_sounds tick, Beep.heard, outputAt, Beep.next_heard]

/-- The last value passed to the buzzer, off if there was none. -/
def lastBuzzer (outputs : List SignalsOutput) : Bool :=
  (outputs.filterMap SignalsOutput.buzzer).getLast?.getD false

theorem entry_plays {signals : Signals} (set : signals.setBuzzer = true) (mode : CboxMode)
    {T : Nat → Nat} {start gap : Nat} (schedule : Schedule T start gap) (small : gap < 2 ^ 31) :
    ∃ p : Beep, (∀ n, (outputAt timedTick (signalsEnterMode signals mode (stamp start)) T n).buzzer =
        some (p.heard T n)) ∧
      ((cboxModeBeepCount mode).toNat = 0 ∧ p = .finished ∨
        ∃ after, (cboxModeBeepCount mode).toNat = after + 1 ∧ p = entryBeep after start) := by
  cases count : (cboxModeBeepCount mode).toNat with
  | zero =>
    have plays : Plays (signalsEnterMode signals mode (stamp start)) .finished := UInt8.toNat_inj.mp count
    exact ⟨.finished, ticks_play plays set True.intro schedule small, .inl ⟨rfl, rfl⟩⟩
  | succ after =>
    have some : cboxModeBeepCount mode > 0 := UInt8.lt_iff_toNat_lt.mpr (by simp [count])
    have plays : Plays (signalsEnterMode signals mode (stamp start)) (entryBeep after start) :=
      ⟨count, decide_eq_true some, stamp_add start 120⟩
    have ahead : (entryBeep after start).Ahead start :=
      ⟨Nat.lt_add_of_pos_right (by decide), Nat.le_refl _⟩
    exact ⟨_, ticks_play plays set ahead schedule small, .inr ⟨after, rfl, rfl⟩⟩

/-- An entry sounds its own code if and only if the buzzer was off before it, or the mode
has no beeps. -/
theorem beep_code_sounds (setLed : Bool) (before : List SignalsCall) (mode : CboxMode)
    (start : Nat) (T : Nat → Nat) (ticks : Schedule T start (2 ^ 31 - beepOnMs.toNat - 1))
    (prompt : T 0 < start + beepOnMs.toNat) :
    let past := runSignals (signalsInit setLed true) before
    ∃ v : Nat → Bool,
      (∀ n, (outputAt timedTick (signalsEnterMode past.1 mode (stamp start)) T n).buzzer =
        some (v n)) ∧
      (SoundsCode (cboxModeBeepCount mode).toNat (lastBuzzer past.2) T v ↔
        lastBuzzer past.2 = false ∨ cboxModeBeepCount mode = 0) := by
  intro past
  have set : past.1.setBuzzer = true := (run_callbacks (signalsInit setLed true) before).2
  obtain ⟨p, output, found⟩ := entry_plays set mode ticks (by decide)
  refine ⟨p.heard T, output, ?_⟩
  rcases found with ⟨none, rfl⟩ | ⟨after, some, rfl⟩
  · rw [none]
    have zero : cboxModeBeepCount mode = 0 := UInt8.toNat_inj.mp none
    exact ⟨fun _ => .inr zero, fun _ => code_empty T _ (fun n => Beep.finished_silent _ rfl (Nat.zero_le n))⟩
  · rw [some]
    have positive : cboxModeBeepCount mode ≠ 0 := by
      intro zero
      rw [zero] at some
      contradiction
    cases lastBuzzer past.2 with
    | false => exact ⟨fun _ => .inl rfl, fun _ => code_complete ticks prompt after⟩
    | true =>
      constructor
      · intro code
        exact absurd code (code_merged T after start)
      · rintro (off | zero)
        · contradiction
        · exact absurd zero positive

theorem ten_schedule (start : Nat) :
    Schedule (fun n => start + 10 * n) start (2 ^ 31 - beepOnMs.toNat - 1) where
  first := ⟨Nat.le_refl _, Nat.le_add_right _ _⟩
  next := by
    intro n
    have bound : 2 ^ 31 - beepOnMs.toNat - 1 = 2147483527 := by decide
    rw [bound]
    omega
  endless := fun t => ⟨t, by omega⟩

theorem beep_code_sounds_first :
    let past := runSignals (signalsInit true true) []
    ∃ v : Nat → Bool,
      (∀ n, (outputAt timedTick (signalsEnterMode past.1 .modeReturn (stamp 5)) (fun n => 5 + 10 * n)
        n).buzzer = some (v n)) ∧
      (SoundsCode (cboxModeBeepCount .modeReturn).toNat (lastBuzzer past.2) (fun n => 5 + 10 * n) v ↔
        lastBuzzer past.2 = false ∨ cboxModeBeepCount .modeReturn = 0) :=
  beep_code_sounds true [] .modeReturn 5 _ (ten_schedule 5) (by decide)

/-- The mode is entered again 10 ms after its beep has begun. -/
theorem entry_while_sounding :
    ¬ ∀ setLed before mode start T, Schedule T start (2 ^ 31 - beepOnMs.toNat - 1) →
      T 0 < start + beepOnMs.toNat →
      ∃ v : Nat → Bool,
        (∀ n, (outputAt timedTick (signalsEnterMode (runSignals (signalsInit setLed true) before).1 mode
          (stamp start)) T n).buzzer = some (v n)) ∧
        SoundsCode (cboxModeBeepCount mode).toNat
          (lastBuzzer (runSignals (signalsInit setLed true) before).2) T v := by
  intro h
  obtain ⟨v, output, code⟩ := h true [.enterMode .modePatrol 0, .tick 0] .modePatrol 10
    (fun n => 10 + 10 * n) (ten_schedule 10) (by decide)
  have set : (runSignals (signalsInit true true) [.enterMode .modePatrol 0, .tick 0]).1.setBuzzer =
      true := by decide
  have on : lastBuzzer (runSignals (signalsInit true true) [.enterMode .modePatrol 0, .tick 0]).2 =
      true := by decide
  obtain ⟨p, output', found⟩ := entry_plays set .modePatrol (ten_schedule 10) (by decide)
  have same : v = p.heard fun n => 10 + 10 * n := by
    funext n
    exact Option.some.inj ((output n).symm.trans (output' n))
  rw [on, same] at code
  rcases found with ⟨none, _⟩ | ⟨after, some, rfl⟩
  · contradiction
  · rw [some] at code
    exact code_merged _ after 10 code

end CommandBox
