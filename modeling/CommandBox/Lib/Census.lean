import Mathlib.Algebra.Order.BigOperators.Group.Finset
import Mathlib.Data.Fintype.Card

/-! How many of finitely many processes are at a point of a certain kind, and how one
process that moves changes the number. -/
namespace Census

variable {T P : Type} [Fintype T] [DecidableEq T]

def total (weight : P → Nat) (point : T → P) : Nat := ∑ t, weight (point t)

theorem total_update (weight : P → Nat) (point : T → P) (t : T) (p : P) :
    total weight (Function.update point t p) + weight (point t) = total weight point + weight p := by
  have before := Finset.add_sum_erase Finset.univ (fun t => weight (point t)) (Finset.mem_univ t)
  have after := Finset.add_sum_erase Finset.univ
    (fun x => weight (Function.update point t p x)) (Finset.mem_univ t)
  have others : ∑ x ∈ Finset.univ.erase t, weight (Function.update point t p x) =
      ∑ x ∈ Finset.univ.erase t, weight (point x) := by
    apply Finset.sum_congr rfl
    intro x other
    rw [Function.update_of_ne (Finset.ne_of_mem_erase other)]
  simp only [Function.update_self, others] at before after
  unfold total
  omega

theorem total_same {weight : P → Nat} {point : T → P} {t : T} {p : P}
    (same : weight p = weight (point t)) :
    total weight (Function.update point t p) = total weight point := by
  have moved := total_update weight point t p
  omega

omit [DecidableEq T] in
theorem total_zero {weight : P → Nat} {point : T → P} (none : ∀ t, weight (point t) = 0) :
    total weight point = 0 := Finset.sum_eq_zero fun t _ => none t

omit [DecidableEq T] in
theorem total_le {weight : P → Nat} {bound : Nat} (each : ∀ p, weight p ≤ bound) (point : T → P) :
    total weight point ≤ Fintype.card T * bound := by
  have all : total weight point ≤ ∑ _ : T, bound := Finset.sum_le_sum fun t _ => each (point t)
  rwa [Finset.sum_const_nat fun _ _ => rfl, Finset.card_univ] at all

end Census
