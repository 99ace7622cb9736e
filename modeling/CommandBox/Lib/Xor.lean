import Mathlib.Data.List.Basic

/-! The exclusive or of a byte string, and what it detects. -/
namespace Xor

def sum (bytes : List UInt8) : UInt8 :=
  bytes.foldl (fun checksum c => checksum ^^^ c) 0

theorem foldl_start (bytes : List UInt8) (start : UInt8) :
    bytes.foldl (fun checksum c => checksum ^^^ c) start = start ^^^ sum bytes := by
  induction bytes generalizing start with
  | nil => exact UInt8.xor_zero.symm
  | cons c rest ih =>
    have whole : sum (c :: rest) = (0 ^^^ c) ^^^ sum rest := ih (0 ^^^ c)
    rw [List.foldl_cons, ih, whole, UInt8.zero_xor, UInt8.xor_assoc]

@[simp] theorem sum_nil : sum [] = 0 := rfl

@[simp] theorem sum_cons (c : UInt8) (rest : List UInt8) : sum (c :: rest) = c ^^^ sum rest := by
  have whole : sum (c :: rest) = (0 ^^^ c) ^^^ sum rest := foldl_start rest (0 ^^^ c)
  rw [whole, UInt8.zero_xor]

@[simp] theorem sum_append (xs ys : List UInt8) : sum (xs ++ ys) = sum xs ^^^ sum ys := by
  induction xs with
  | nil => simp
  | cons c rest ih => simp [ih, UInt8.xor_assoc]

theorem xor_left_cancel {a b c : UInt8} (h : a ^^^ b = a ^^^ c) : b = c := by
  have undo := congrArg (fun x => a ^^^ x) h
  simpa [← UInt8.xor_assoc] using undo

theorem xor_right_cancel {a b c : UInt8} (h : a ^^^ c = b ^^^ c) : a = b := by
  rw [UInt8.xor_comm a c, UInt8.xor_comm b c] at h
  exact xor_left_cancel h

/-- Two strings that differ in at most one place and have one sum are equal. -/
theorem substitution_detected {before rest : List UInt8} {a b : UInt8}
    (same : sum (before ++ a :: rest) = sum (before ++ b :: rest)) : a = b := by
  simp only [sum_append, sum_cons] at same
  exact xor_right_cancel (xor_left_cancel same)

theorem set_detected {xs : List UInt8} {i : Nat} {y : UInt8} (inside : i < xs.length)
    (same : sum (xs.set i y) = sum xs) : y = xs[i] := by
  have split : xs = xs.take i ++ xs[i] :: xs.drop (i + 1) := by simp
  rw [List.set_eq_take_append_cons_drop, if_pos inside] at same
  exact substitution_detected (same.trans (congrArg sum split))

end Xor
