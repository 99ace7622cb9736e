import Mathlib.Data.List.Basic
import Mathlib.Data.List.Forall2

/-! Machines that read one symbol at a time. A transducer gives one output for
each input and may fault (`none`); a reference machine is total. `Matches` is the
simulation between the two, and the run theorems are about every input list. -/
namespace Machine

variable {S T A O P : Type}

/-- Feed a list: the last state with one output for each input, or the fault. -/
def run (step : S → A → Option (S × O)) (s : S) : List A → Option (S × List O)
  | [] => some (s, [])
  | a :: rest => do
    let (next, out) ← step s a
    let (last, outs) ← run step next rest
    some (last, out :: outs)

def trace (next : T → A → T × P) (t : T) : List A → T × List P
  | [] => (t, [])
  | a :: rest => ((trace next (next t a).1 rest).1, (next t a).2 :: (trace next (next t a).1 rest).2)

theorem run_cons {step : S → A → Option (S × O)} {s s' : S} {a : A} {o : O} (rest : List A)
    (h : step s a = some (s', o)) :
    run step s (a :: rest) = (run step s' rest).map (fun r => (r.1, o :: r.2)) := by
  simp only [run, h, Option.bind_eq_bind, Option.bind_some]
  cases run step s' rest <;> rfl

theorem run_append {step : S → A → Option (S × O)} {s s' : S} {xs : List A} {os : List O}
    (h : run step s xs = some (s', os)) (ys : List A) :
    run step s (xs ++ ys) = (run step s' ys).map (fun r => (r.1, os ++ r.2)) := by
  induction xs generalizing s os with
  | nil =>
    obtain ⟨rfl, rfl⟩ := Prod.mk.inj (Option.some.inj h)
    simp
  | cons a xs ih =>
    simp only [run, Option.bind_eq_bind, Option.bind_eq_some_iff] at h
    obtain ⟨⟨s₁, o⟩, hs, ⟨t, rest⟩, tail, out⟩ := h
    obtain ⟨rfl, rfl⟩ := Prod.mk.inj (Option.some.inj out)
    rw [List.cons_append, run_cons _ hs, ih tail]
    simp [Function.comp_def]

theorem run_snoc {step : S → A → Option (S × O)} {s s' t : S} {xs : List A} {os : List O} {a : A}
    {o : O} (h : run step s xs = some (s', os)) (last : step s' a = some (t, o)) :
    run step s (xs ++ [a]) = some (t, os ++ [o]) := by
  rw [run_append h, run_cons [] last]
  rfl

/-- Inputs that stand for others. -/
theorem run_map {B : Type} (step : S → A → Option (S × O)) (f : B → A) (s : S) (xs : List B) :
    run (fun s b => step s (f b)) s xs = run step s (xs.map f) := by
  induction xs generalizing s with
  | nil => rfl
  | cons b xs ih => simp only [run, List.map_cons, ih]

theorem run_length {step : S → A → Option (S × O)} {s t : S} {xs : List A} {os : List O}
    (h : run step s xs = some (t, os)) : os.length = xs.length := by
  induction xs generalizing s os with
  | nil =>
    obtain ⟨rfl, rfl⟩ := Prod.mk.inj (Option.some.inj h)
    rfl
  | cons a xs ih =>
    simp only [run, Option.bind_eq_bind, Option.bind_eq_some_iff] at h
    obtain ⟨⟨s', o⟩, _, ⟨t', os'⟩, hr, hout⟩ := h
    obtain ⟨rfl, rfl⟩ := Prod.mk.inj (Option.some.inj hout)
    simp only [List.length_cons, ih hr]

/-- What holds of a state and its past, and is kept by every step, holds after every run;
and no run faults. -/
theorem run_history {step : S → A → Option (S × O)} {I : S → List O → Prop}
    (keeps : ∀ s past a, I s past → ∃ s' o, step s a = some (s', o) ∧ I s' (past ++ [o]))
    {s : S} {past : List O} (start : I s past) (xs : List A) :
    ∃ s' os, run step s xs = some (s', os) ∧ I s' (past ++ os) := by
  induction xs generalizing s past with
  | nil => exact ⟨s, [], rfl, by simpa using start⟩
  | cons a xs ih =>
    obtain ⟨s₁, o, hs, h₁⟩ := keeps s past a start
    obtain ⟨s', os, hrun, h'⟩ := ih h₁
    exact ⟨s', o :: os, by simp [run_cons _ hs, hrun], by simpa using h'⟩

theorem run_safe {step : S → A → Option (S × O)} {I : S → Prop}
    (keeps : ∀ s a, I s → ∃ s' o, step s a = some (s', o) ∧ I s') {s : S} (start : I s)
    (xs : List A) : ∃ s' os, run step s xs = some (s', os) ∧ I s' := by
  induction xs generalizing s with
  | nil => exact ⟨s, [], rfl, start⟩
  | cons a xs ih =>
    obtain ⟨s₁, o, hs, h₁⟩ := keeps s a start
    obtain ⟨s', os, hrun, h'⟩ := ih h₁
    exact ⟨s', o :: os, by simp [run_cons _ hs, hrun], h'⟩

/-- For a step that may stop: what it keeps holds at the end of every run. -/
theorem run_kept {step : S → A → Option (S × O)} {I : S → List O → Prop}
    (keeps : ∀ s past a s' o, I s past → step s a = some (s', o) → I s' (past ++ [o]))
    {s s' : S} {past os : List O} {xs : List A} (start : I s past)
    (h : run step s xs = some (s', os)) : I s' (past ++ os) := by
  induction xs generalizing s past os with
  | nil =>
    obtain ⟨rfl, rfl⟩ := Prod.mk.inj (Option.some.inj h)
    simpa using start
  | cons a xs ih =>
    simp only [run, Option.bind_eq_bind, Option.bind_eq_some_iff] at h
    obtain ⟨⟨s₁, o⟩, hs, ⟨t, rest⟩, tail, out⟩ := h
    obtain ⟨rfl, rfl⟩ := Prod.mk.inj (Option.some.inj out)
    have next := ih (keeps s past a s₁ o start hs) tail
    simpa using next

/-- What every step keeps of a state, of the inputs read so far and of the outputs. -/
theorem run_reads {step : S → A → Option (S × O)} {I : S → List A → List O → Prop}
    (keeps : ∀ s read past a s' o, I s read past → step s a = some (s', o) →
      I s' (read ++ [a]) (past ++ [o]))
    {s s' : S} {read xs : List A} {past os : List O} (start : I s read past)
    (h : run step s xs = some (s', os)) : I s' (read ++ xs) (past ++ os) := by
  induction xs generalizing s read past os with
  | nil =>
    obtain ⟨rfl, rfl⟩ := Prod.mk.inj (Option.some.inj h)
    simpa using start
  | cons a xs ih =>
    simp only [run, Option.bind_eq_bind, Option.bind_eq_some_iff] at h
    obtain ⟨⟨s₁, o⟩, hs, ⟨t, rest⟩, tail, out⟩ := h
    obtain ⟨rfl, rfl⟩ := Prod.mk.inj (Option.some.inj out)
    have next := ih (keeps s read past a s₁ o start hs) tail
    simpa using next

/-- Outputs that record their input record the whole input. -/
theorem run_inputs {step : S → A → Option (S × O)} {input : O → A}
    (records : ∀ s a s' o, step s a = some (s', o) → input o = a) {s t : S} {xs : List A}
    {os : List O} (h : run step s xs = some (t, os)) : os.map input = xs := by
  induction xs generalizing s os with
  | nil =>
    obtain ⟨rfl, rfl⟩ := Prod.mk.inj (Option.some.inj h)
    rfl
  | cons a xs ih =>
    simp only [run, Option.bind_eq_bind, Option.bind_eq_some_iff] at h
    obtain ⟨⟨s', o⟩, hs, ⟨t', os'⟩, hr, hout⟩ := h
    obtain ⟨rfl, rfl⟩ := Prod.mk.inj (Option.some.inj hout)
    rw [List.map_cons, records s a s' o hs, ih hr]

/-- What one step keeps of its input in its output, a run keeps of the whole input. -/
theorem run_selects {B : Type} {step : S → A → Option (S × O)} {I : S → Prop} {f : A → Option B}
    {g : O → Option B}
    (selects : ∀ s a s' o, I s → step s a = some (s', o) → I s' ∧ f a = g o) {s t : S}
    {xs : List A} {os : List O} (start : I s) (h : run step s xs = some (t, os)) :
    xs.filterMap f = os.filterMap g := by
  induction xs generalizing s os with
  | nil =>
    obtain ⟨rfl, rfl⟩ := Prod.mk.inj (Option.some.inj h)
    rfl
  | cons a xs ih =>
    simp only [run, Option.bind_eq_bind, Option.bind_eq_some_iff] at h
    obtain ⟨⟨s', o⟩, hs, ⟨t', os'⟩, hr, hout⟩ := h
    obtain ⟨rfl, rfl⟩ := Prod.mk.inj (Option.some.inj hout)
    obtain ⟨holds, same⟩ := selects s a s' o start hs
    rw [List.filterMap_cons, List.filterMap_cons, same, ih holds hr]

@[simp] theorem trace_nil (next : T → A → T × P) (t : T) : trace next t [] = (t, []) := rfl

@[simp] theorem trace_cons (next : T → A → T × P) (t : T) (a : A) (rest : List A) :
    trace next t (a :: rest) =
      ((trace next (next t a).1 rest).1, (next t a).2 :: (trace next (next t a).1 rest).2) := rfl

theorem trace_append (next : T → A → T × P) (t : T) (xs ys : List A) :
    trace next t (xs ++ ys) =
      ((trace next (trace next t xs).1 ys).1,
        (trace next t xs).2 ++ (trace next (trace next t xs).1 ys).2) := by
  induction xs generalizing t with
  | nil => rfl
  | cons a xs ih => simp [ih]

@[simp] theorem trace_length (next : T → A → T × P) (t : T) (xs : List A) :
    (trace next t xs).2.length = xs.length := by
  induction xs generalizing t with
  | nil => rfl
  | cons a xs ih => simp [ih]

/-- Output `n` is the output at the state reached by the first `n` inputs. -/
theorem trace_output (next : T → A → T × P) (t : T) (xs : List A) (n : Nat) (h : n < xs.length)
    (h' : n < (trace next t xs).2.length) :
    (trace next t xs).2[n] = (next (trace next t (xs.take n)).1 xs[n]).2 := by
  induction xs generalizing t n with
  | nil => exact absurd h (Nat.not_lt_zero n)
  | cons a xs ih =>
    cases n with
    | zero => rfl
    | succ n =>
      have inside : n < xs.length := Nat.lt_of_succ_lt_succ h
      simpa using ih (next t a).1 n inside (by simpa using inside)

theorem trace_snoc (next : T → A → T × P) (t : T) (xs : List A) (a : A) :
    trace next t (xs ++ [a]) =
      ((next (trace next t xs).1 a).1, (trace next t xs).2 ++ [(next (trace next t xs).1 a).2]) := by
  simp [trace_append]

theorem trace_invariant (next : T → A → T × P) (I : T → Prop)
    (keeps : ∀ t a, I t → I (next t a).1) {t : T} (start : I t) (xs : List A) :
    I (trace next t xs).1 := by
  induction xs generalizing t with
  | nil => exact start
  | cons a xs ih => exact ih (keeps t a start)

/-- The state before input `n` of an endless input. -/
def stateAt (next : T → A → T × P) (t : T) (inputs : Nat → A) : Nat → T
  | 0 => t
  | n + 1 => (next (stateAt next t inputs n) (inputs n)).1

def outputAt (next : T → A → T × P) (t : T) (inputs : Nat → A) (n : Nat) : P :=
  (next (stateAt next t inputs n) (inputs n)).2

theorem stateAt_stays {next : T → A → T × P} {t s : T} {inputs : Nat → A} {n j : Nat}
    (there : stateAt next t inputs n = s) (order : n ≤ j)
    (still : ∀ i, n ≤ i → i < j → (next s (inputs i)).1 = s) : stateAt next t inputs j = s := by
  induction order with
  | refl => exact there
  | @step j order ih =>
    have held := ih fun i low high => still i low (Nat.lt_succ_of_lt high)
    rw [stateAt, held, still j order (Nat.lt_succ_self j)]

/-- Where `R` relates the states, a step of `step` does not fault and does what `next` does. -/
def Matches (step : S → A → Option (S × O)) (next : T → A → T × P) (R : S → T → Prop)
    (Q : O → P → Prop) : Prop :=
  ∀ s t a, R s t → ∃ s' o, step s a = some (s', o) ∧ R s' (next t a).1 ∧ Q o (next t a).2

/-- Stepwise simulation gives a run without faults whose outputs agree one by one. -/
theorem run_matches {step : S → A → Option (S × O)} {next : T → A → T × P} {R : S → T → Prop}
    {Q : O → P → Prop} (sim : Matches step next R Q) {s : S} {t : T} (related : R s t)
    (xs : List A) :
    ∃ s' os, run step s xs = some (s', os) ∧ R s' (trace next t xs).1 ∧
      List.Forall₂ Q os (trace next t xs).2 := by
  induction xs generalizing s t with
  | nil => exact ⟨s, [], rfl, related, .nil⟩
  | cons a xs ih =>
    obtain ⟨s₁, o, hs, hr, hq⟩ := sim s t a related
    obtain ⟨s', os, hrun, hr', hos⟩ := ih hr
    exact ⟨s', o :: os, by simp [run_cons _ hs, hrun], hr', .cons hq hos⟩

theorem run_outputs {step : S → A → Option (S × O)} {next : T → A → T × P} {R : S → T → Prop}
    {Q : O → P → Prop} (sim : Matches step next R Q) {s : S} {t : T} (related : R s t)
    (xs : List A) :
    ∃ s' os, run step s xs = some (s', os) ∧ R s' (trace next t xs).1 ∧ os.length = xs.length ∧
      ∀ n (h : n < os.length) (h' : n < xs.length),
        Q os[n] (next (trace next t (xs.take n)).1 xs[n]).2 := by
  obtain ⟨s', os, hrun, hr, hos⟩ := run_matches sim related xs
  obtain ⟨size, each⟩ := List.forall₂_iff_get.mp hos
  refine ⟨s', os, hrun, hr, by simpa using size, ?_⟩
  intro n h h'
  have inside : n < (trace next t xs).2.length := by simpa using h'
  rw [← trace_output next t xs n h' inside]
  exact each n h inside

/-- A machine that follows another: what one step of the other does, it does in a run of its
own, none or one or many steps. The relation sees both states and both pasts. -/
theorem run_follows {B : Type} {step : S → A → Option (S × O)} {small : T → B → Option (T × P)}
    {R : S → List O → T → List P → Prop}
    (each : ∀ s past t told a s' o, R s past t told → step s a = some (s', o) →
      ∃ bs t' new, run small t bs = some (t', new) ∧ R s' (past ++ [o]) t' (told ++ new))
    {s s' : S} {past os : List O} {t : T} {told : List P} {xs : List A} (start : R s past t told)
    (h : run step s xs = some (s', os)) :
    ∃ bs t' new, run small t bs = some (t', new) ∧ R s' (past ++ os) t' (told ++ new) := by
  induction xs generalizing s past t told os with
  | nil =>
    obtain ⟨rfl, rfl⟩ := Prod.mk.inj (Option.some.inj h)
    exact ⟨[], t, [], rfl, by simpa using start⟩
  | cons a xs ih =>
    simp only [run, Option.bind_eq_bind, Option.bind_eq_some_iff] at h
    obtain ⟨⟨s₁, o⟩, hs, ⟨last, rest⟩, tail, out⟩ := h
    obtain ⟨rfl, rfl⟩ := Prod.mk.inj (Option.some.inj out)
    obtain ⟨bs, t₁, new, went, related⟩ := each s past t told a s₁ o start hs
    obtain ⟨cs, t', more, gone, final⟩ := ih related tail
    refine ⟨bs ++ cs, t', new ++ more, ?_, by simpa using final⟩
    rw [run_append went, gone, Option.map_some]

/-- Two machines that fault together and otherwise keep `R` and show related outputs. -/
theorem run_related {step : S → A → Option (S × O)} {other : T → A → Option (T × P)}
    {R : S → T → Prop} {Q : O → P → Prop}
    (sim : ∀ s t a, R s t →
      Option.Rel (fun c d => R c.1 d.1 ∧ Q c.2 d.2) (step s a) (other t a))
    {s : S} {t : T} (related : R s t) (xs : List A) :
    Option.Rel (fun c d => R c.1 d.1 ∧ List.Forall₂ Q c.2 d.2) (run step s xs) (run other t xs) := by
  induction xs generalizing s t with
  | nil => exact .some ⟨related, .nil⟩
  | cons a xs ih =>
    have first := sim s t a related
    simp only [run]
    generalize step s a = x, other t a = y at first ⊢
    cases first with
    | none => exact .none
    | @some c d both =>
      have rest := ih both.1
      simp only [Option.bind_eq_bind, Option.bind_some]
      generalize run step c.1 xs = x, run other d.1 xs = y at rest ⊢
      cases rest with
      | none => exact .none
      | some later => exact .some ⟨later.1, .cons both.2 later.2⟩

/-- One step of a run, as an observer of both states sees it. -/
structure Transition (S A : Type) where
  before : S
  action : A
  after : S
  deriving DecidableEq

/-- A partial step function that reports its steps. -/
def record (step : S → A → Option S) (s : S) (a : A) : Option (S × Transition S A) :=
  (step s a).map fun s' => (s', ⟨s, a, s'⟩)

/-- What an invariant `I` that the steps with property `C` keep says of a run so far. -/
def Recorded (step : S → A → Option S) (I : S → Prop) (C : Transition S A → Prop) (s : S)
    (ts : List (Transition S A)) : Prop :=
  (∀ t ∈ ts, C t) → I s ∧ ∀ t ∈ ts, I t.before ∧ step t.before t.action = some t.after

theorem recorded_step {step : S → A → Option S} {I : S → Prop} {C : Transition S A → Prop}
    (keeps : ∀ s a s', I s → C ⟨s, a, s'⟩ → step s a = some s' → I s') (s : S)
    (past : List (Transition S A)) (a : A) (s' : S) (t : Transition S A)
    (before : Recorded step I C s past) (turn : record step s a = some (s', t)) :
    Recorded step I C s' (past ++ [t]) := by
  intro clean
  obtain ⟨after, taken, result⟩ := Option.map_eq_some_iff.mp turn
  obtain ⟨rfl, rfl⟩ := Prod.mk.inj result
  obtain ⟨holds, each⟩ := before fun t ht => clean t (List.mem_append_left _ ht)
  have last := clean _ (List.mem_append_right past List.mem_cons_self)
  constructor
  · exact keeps s a after holds last taken
  · intro t ht
    rcases List.mem_append.mp ht with ht | ht
    · exact each t ht
    · cases List.mem_singleton.mp ht
      exact ⟨holds, taken⟩

theorem recorded_invariant {step : S → A → Option S} {I : S → Prop} {C : Transition S A → Prop}
    (keeps : ∀ s a s', I s → C ⟨s, a, s'⟩ → step s a = some s' → I s') {s final : S} {xs : List A}
    {ts : List (Transition S A)} (start : I s) (h : run (record step) s xs = some (final, ts))
    (clean : ∀ t ∈ ts, C t) :
    I final ∧ ∀ t ∈ ts, I t.before ∧ step t.before t.action = some t.after := by
  have initial : Recorded step I C s [] :=
    fun _ => ⟨start, fun t ht => absurd ht List.not_mem_nil⟩
  exact run_kept (recorded_step keeps) initial h clean

end Machine
