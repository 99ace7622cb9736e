import CommandBox.Lib.Machine

/-! Tasks that take turns. Where a turn never raises the work left, and a task with
work to do lowers it at its next turn, any rounds that give every task a turn use the
work up, in whatever order the turns come. -/
namespace Fair
open Machine

variable {S A O K : Type}

/-- `task a` is the task whose turn `a` is, and `Ready s k` that task `k` has work to do. A
turn lowers the work, or its task had none and no other task loses its own. -/
def Helpful (step : S → A → Option (S × O)) (task : A → K) (I : S → Prop) (work : S → Nat)
    (Ready : S → K → Prop) : Prop :=
  ∀ s a, I s → ∃ s' o, step s a = some (s', o) ∧ I s' ∧
    (work s' < work s ∨
      work s' = work s ∧ ¬ Ready s (task a) ∧ ∀ k, Ready s k → Ready s' k)

variable {step : S → A → Option (S × O)} {task : A → K} {I : S → Prop} {work : S → Nat}
  {Ready : S → K → Prop}

theorem turns_never_raise (helpful : Helpful step task I work Ready) {s : S} (start : I s)
    (turns : List A) :
    ∃ s' os, run step s turns = some (s', os) ∧ I s' ∧ work s' ≤ work s := by
  induction turns generalizing s with
  | nil => exact ⟨s, [], rfl, start, Nat.le_refl _⟩
  | cons a turns ih =>
    obtain ⟨s₁, o, taken, holds, spent⟩ := helpful s a start
    obtain ⟨s', os, rest, holds', less⟩ := ih holds
    refine ⟨s', o :: os, by simp [run_cons _ taken, rest], holds', ?_⟩
    omega

/-- The first turn of a task with work finds the work still there, or less of it. -/
theorem turns_lower (helpful : Helpful step task I work Ready) {s : S} (start : I s) {k : K}
    (ready : Ready s k) {turns : List A} (turn : ∃ a ∈ turns, task a = k) :
    ∃ s' os, run step s turns = some (s', os) ∧ I s' ∧ work s' < work s := by
  induction turns generalizing s with
  | nil =>
    obtain ⟨a, member, _⟩ := turn
    contradiction
  | cons a turns ih =>
    obtain ⟨s₁, o, taken, holds, lower | ⟨same, idle, keeps⟩⟩ := helpful s a start
    · obtain ⟨s', os, rest, holds', less⟩ := turns_never_raise helpful holds turns
      exact ⟨s', o :: os, by simp [run_cons _ taken, rest], holds', Nat.lt_of_le_of_lt less lower⟩
    · have later : ∃ b ∈ turns, task b = k := by
        obtain ⟨b, member, mine⟩ := turn
        rcases List.mem_cons.mp member with rfl | member
        · rw [mine] at idle
          contradiction
        · exact ⟨b, member, mine⟩
      obtain ⟨s', os, rest, holds', less⟩ := ih holds (keeps k ready) later
      exact ⟨s', o :: os, by simp [run_cons _ taken, rest], holds', same ▸ less⟩

/-- More rounds than work: after some of them no task has anything to do. -/
theorem rounds_finish (helpful : Helpful step task I work Ready) {s : S} (start : I s)
    {rounds : List (List A)} (fair : ∀ round ∈ rounds, ∀ k, ∃ a ∈ round, task a = k)
    (enough : work s < rounds.length) :
    ∃ front back s' os, rounds = front ++ back ∧ run step s front.flatten = some (s', os) ∧
      I s' ∧ ∀ k, ¬ Ready s' k := by
  induction rounds generalizing s with
  | nil => exact absurd enough (Nat.not_lt_zero _)
  | cons round rounds ih =>
    by_cases finished : ∀ k, ¬ Ready s k
    · exact ⟨[], round :: rounds, s, [], rfl, rfl, start, finished⟩
    · obtain ⟨k, ready⟩ := not_forall_not.mp finished
      obtain ⟨s₁, os₁, taken, holds, lower⟩ :=
        turns_lower helpful start ready (fair round List.mem_cons_self k)
      have enough' : work s₁ < rounds.length := by
        rw [List.length_cons] at enough
        omega
      obtain ⟨front, back, s', os, rfl, rest, holds', idle⟩ :=
        ih holds (fun r hr => fair r (List.mem_cons_of_mem round hr)) enough'
      refine ⟨round :: front, back, s', os₁ ++ os, rfl, ?_, holds', idle⟩
      rw [List.flatten_cons, run_append taken, rest, Option.map_some]

end Fair
