import Mathlib.Data.List.Basic

/-! Lines of a stream that ends each of them with a separator. `cut` gives the complete
lines, without their separators, and the unfinished rest. A stream that arrives in parts is
cut into the same lines if the reader keeps the rest. -/
namespace Lines

variable {α : Type} [DecidableEq α]

def push (sep c : α) (parts : List (List α) × List α) : List (List α) × List α :=
  if c = sep then ([] :: parts.1, parts.2)
  else match parts.1 with
    | [] => ([], c :: parts.2)
    | line :: more => ((c :: line) :: more, parts.2)

def cut (sep : α) : List α → List (List α) × List α
  | [] => ([], [])
  | c :: rest => push sep c (cut sep rest)

/-- The text of complete lines. -/
def joined (sep : α) (lines : List (List α)) : List α := lines.flatMap (· ++ [sep])

variable {sep : α}

theorem push_more (c : α) {line : List α} {more : List (List α)} (later : List (List α))
    (rest last : List α) :
    push sep c (line :: more ++ later, rest) =
      ((push sep c (line :: more, last)).1 ++ later, rest) := by
  unfold push
  split <;> rfl

/-- The rest of the first part is the beginning of the second. -/
theorem cut_append (sep : α) (xs ys : List α) :
    cut sep (xs ++ ys) =
      ((cut sep xs).1 ++ (cut sep ((cut sep xs).2 ++ ys)).1, (cut sep ((cut sep xs).2 ++ ys)).2) := by
  induction xs with
  | nil => rfl
  | cons c xs ih =>
    rw [List.cons_append, cut, ih, cut]
    cases lines : (cut sep xs).1 with
    | nil =>
      by_cases end' : c = sep
      · simp [push, end', lines]
      · simp [push, end', lines, cut]
    | cons line more =>
      have same : (push sep c (cut sep xs)).2 = (cut sep xs).2 := by
        unfold push
        rw [lines]
        split <;> rfl
      have front : cut sep xs = (line :: more, (cut sep xs).2) := by rw [← lines]
      rw [same, push_more c _ _ (cut sep xs).2, ← front]

theorem cut_clean {text : List α} (clean : sep ∉ text) : cut sep text = ([], text) := by
  induction text with
  | nil => rfl
  | cons c text ih =>
    rw [List.mem_cons, not_or] at clean
    rw [cut, ih clean.2, push, if_neg (Ne.symm clean.1)]

theorem cut_line {line : List α} (clean : sep ∉ line) (rest : List α) :
    cut sep (line ++ sep :: rest) = (line :: (cut sep rest).1, (cut sep rest).2) := by
  induction line with
  | nil => simp [cut, push]
  | cons c line ih =>
    rw [List.mem_cons, not_or] at clean
    rw [List.cons_append, cut, ih clean.2, push, if_neg (Ne.symm clean.1)]

theorem cut_rest (sep : α) (text : List α) : sep ∉ (cut sep text).2 := by
  induction text with
  | nil => exact List.not_mem_nil
  | cons c text ih =>
    unfold cut push
    by_cases end' : c = sep
    · rw [if_pos end']
      exact ih
    · rw [if_neg end']
      cases (cut sep text).1 with
      | nil => simpa [Ne.symm end'] using ih
      | cons line more => exact ih

theorem joined_cut {lines : List (List α)} (clean : ∀ line ∈ lines, sep ∉ line) (rest : List α) :
    cut sep (joined sep lines ++ rest) = (lines ++ (cut sep rest).1, (cut sep rest).2) := by
  induction lines with
  | nil => rfl
  | cons line lines ih =>
    have first : joined sep (line :: lines) ++ rest = line ++ sep :: (joined sep lines ++ rest) := by
      simp [joined]
    rw [first, cut_line (clean line List.mem_cons_self),
      ih fun l hl => clean l (List.mem_cons_of_mem line hl), List.cons_append]

end Lines
