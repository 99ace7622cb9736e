import Mathlib.Algebra.GroupWithZero.Nat
import Mathlib.Data.Nat.Find

/-! Time and its readings. True time is a natural number that never wraps; a clock of
32 bits shows it modulo 2^32. A `Schedule` is an endless sequence of moments with bounded
gaps, such as the passes of a polling loop. -/
namespace Clock

/-- The reading of a 32-bit clock at a true time. -/
def stamp (t : Nat) : UInt32 := UInt32.ofNat t

theorem stamp_toNat (t : Nat) : (stamp t).toNat = t % 2 ^ 32 := UInt32.toNat_ofNat'

theorem stamp_add (t d : Nat) : stamp t + UInt32.ofNat d = stamp (t + d) :=
  (UInt32.ofNat_add t d).symm

theorem elapsed_mod {before now : Nat} (order : before ≤ now) :
    (stamp now - stamp before).toNat = (now - before) % 2 ^ 32 := by
  rw [UInt32.toNat_sub, stamp_toNat, stamp_toNat]
  omega

theorem elapsed {before now : Nat} (order : before ≤ now) (near : now < before + 2 ^ 32) :
    (stamp now - stamp before).toNat = now - before := by
  rw [elapsed_mod order]
  exact Nat.mod_eq_of_lt (by omega)

theorem negative_iff (v : UInt32) : v.toInt32 < 0 ↔ 2 ^ 31 ≤ v.toNat := by
  have small := v.toNat_lt
  have value : v.toInt32.toInt = (v.toNat : Int).bmod (2 ^ 32) := BitVec.toInt_eq_toNat_bmod _
  rw [Int32.lt_iff_toInt_lt, value, Int32.toInt_zero, Int.bmod_def]
  split <;> omega

/-- The signed test on wrapping readings is the true one while both are within 2^31. -/
theorem due_iff {deadline now : Nat} (late : now < deadline + 2 ^ 31)
    (early : deadline ≤ now + 2 ^ 31) :
    ¬ (stamp now - stamp deadline).toInt32 < 0 ↔ deadline ≤ now := by
  rw [negative_iff, UInt32.toNat_sub, stamp_toNat, stamp_toNat]
  omega

def precededBy {α : Type} (first : α) (f : Nat → α) : Nat → α
  | 0 => first
  | n + 1 => f n

/-- Endless moments from `start` on, each at most `gap` after the one before. -/
structure Schedule (T : Nat → Nat) (start gap : Nat) : Prop where
  first : start ≤ T 0 ∧ T 0 ≤ start + gap
  next : ∀ n, T n ≤ T (n + 1) ∧ T (n + 1) ≤ T n + gap
  endless : ∀ t, ∃ n, t ≤ T n

theorem schedule_mono {T : Nat → Nat} {start gap : Nat} (h : Schedule T start gap) {m n : Nat}
    (order : m ≤ n) : T m ≤ T n := by
  induction order with
  | refl => exact Nat.le_refl _
  | step _ ih => exact Nat.le_trans ih (h.next _).1

theorem schedule_gap {T : Nat → Nat} {start gap : Nat} (h : Schedule T start gap) (n : Nat) :
    precededBy start T n ≤ T n ∧ T n ≤ precededBy start T n + gap := by
  cases n with
  | zero => exact h.first
  | succ n => exact h.next n

theorem schedule_tail {T : Nat → Nat} {start gap : Nat} (h : Schedule T start gap) (n : Nat) :
    Schedule (fun i => T (n + 1 + i)) (T n) gap where
  first := h.next n
  next := fun i => h.next (n + 1 + i)
  endless := by
    intro t
    obtain ⟨k, hk⟩ := h.endless t
    exact ⟨k, Nat.le_trans hk (schedule_mono h (by omega))⟩

/-- From any moment on, one is the first at or after a time. -/
theorem schedule_first {T : Nat → Nat} {start gap : Nat} (h : Schedule T start gap) (n t : Nat) :
    ∃ j, n ≤ j ∧ t ≤ T j ∧ ∀ i, n ≤ i → i < j → T i < t := by
  have later : ∃ j, n ≤ j ∧ t ≤ T j := by
    obtain ⟨k, hk⟩ := h.endless t
    exact ⟨n + k, Nat.le_add_right n k, Nat.le_trans hk (schedule_mono h (by omega))⟩
  obtain ⟨order, reached⟩ := Nat.find_spec later
  refine ⟨Nat.find later, order, reached, ?_⟩
  intro i low high
  exact Nat.not_le.mp fun early => Nat.find_min later high ⟨low, early⟩

/-- The first moment at or after a later time comes less than one gap after it. -/
theorem schedule_reaches {T : Nat → Nat} {start gap t : Nat} (h : Schedule T start gap)
    (ahead : start < t) : ∃ j, t ≤ T j ∧ T j < t + gap ∧ ∀ i < j, T i < t := by
  obtain ⟨j, _, reached, earlier⟩ := schedule_first h 0 t
  refine ⟨j, reached, ?_, fun i hi => earlier i (Nat.zero_le i) hi⟩
  cases j with
  | zero =>
    have bound := h.first.2
    omega
  | succ k =>
    have before := earlier k (Nat.zero_le k) (Nat.lt_succ_self k)
    have bound := (h.next k).2
    omega

end Clock
