import Mathlib.Data.List.Infix

/-! Arrays of a fixed size with checked accesses. A pointer that is only read is
the list of elements from it to the end of its object. Every access outside an
object is the fault `none`, so a result `some _` also says that no access was
out of bounds. -/
namespace Memory

variable {α : Type} {n : Nat}

/-- `a[i] = x` -/
def store (a : Vector α n) (i : Nat) (x : α) : Option (Vector α n) :=
  if h : i < n then some (a.set i x h) else none

/-- `memcpy(&a[offset], xs, |xs|)` -/
def memcpy (a : Vector α n) (offset : Nat) (xs : List α) : Option (Vector α n) :=
  if h : offset + xs.length ≤ n then
    some ⟨(a.toList.take offset ++ xs ++ a.toList.drop (offset + xs.length)).toArray, by
      simp; omega⟩
  else none

/-- The `len` elements behind a pointer. -/
def load (source : List α) (len : Nat) : Option (List α) :=
  if len ≤ source.length then some (source.take len) else none

/-- The index of the terminator; a text without one is read past its end. -/
def strlen (text : List UInt8) : Option Nat :=
  text.findIdx? (fun c => c == 0)

/-- The text up to the terminator. -/
def cstring (memory : List UInt8) : Option (List UInt8) :=
  (strlen memory).map memory.take

/-- `strcmp(a, b) == 0`, which stops at the first difference or terminator. -/
def streq : List UInt8 → List UInt8 → Option Bool
  | x :: xs, y :: ys => if x ≠ y then some false else if x = 0 then some true else streq xs ys
  | _, _ => none

/-- `snprintf(buffer, sizeof(buffer), ..)` for a formatted text. -/
def snprintf (buffer : Vector UInt8 n) (text : List UInt8) : Option (Vector UInt8 n) :=
  memcpy buffer 0 (text.take (n - 1) ++ [0])

/-- Run the first command of a block whose accesses are in bounds. -/
theorem then_some {β γ : Type} {x : Option β} {b : β} {next : β → Option γ} {r : Option γ}
    (first : x = some b) (rest : next b = r) : (x >>= next) = r := by
  rw [first]
  exact rest

/-- The first cells of `before` were overwritten by `w`, all others are kept. -/
def Written (before after : Vector α n) (w : List α) : Prop :=
  after.toList = w ++ before.toList.drop w.length

theorem written_nil (a : Vector α n) : Written a a [] := rfl

theorem written_held {a : Vector α n} {w : List α} (held : w <+: a.toList) :
    Written a a w := by
  obtain ⟨rest, hr⟩ := held
  simp only [Written, ← hr, List.drop_left]

theorem written_starts {a b : Vector α n} {w : List α} (h : Written a b w) : w <+: b.toList :=
  ⟨_, h.symm⟩

theorem cell_of_starts {a : Vector α n} {w : List α} (h : w <+: a.toList) (i : Nat)
    (inside : i < w.length) (bound : i < n) : a[i] = w[i] := by
  rw [← Vector.getElem_toList, h.getElem inside]

theorem set_written {a b : Vector α n} {w : List α} (h : Written a b w) (x : α)
    (room : w.length < n) : Written a (b.set w.length x room) (w ++ [x]) := by
  have cell : w.length < a.toList.length := by simpa using room
  rw [Written, Vector.toList_set, h, List.drop_eq_getElem_cons cell, List.set_append_right _ _ (by simp)]
  simp

theorem store_written {a b : Vector α n} {w : List α} {i : Nat} (h : Written a b w) (x : α)
    (position : i = w.length) (room : i < n) :
    ∃ c, store b i x = some c ∧ Written a c (w ++ [x]) := by
  subst position
  exact ⟨b.set w.length x room, dif_pos room, set_written h x room⟩

theorem memcpy_written {a b : Vector α n} {w : List α} {i : Nat} (h : Written a b w) (xs : List α)
    (position : i = w.length) (room : i + xs.length ≤ n) :
    ∃ c, memcpy b i xs = some c ∧ Written a c (w ++ xs) := by
  subst position
  have cells : b.toList = w ++ a.toList.drop w.length := h
  refine ⟨_, dif_pos room, ?_⟩
  simp [Written, cells, List.drop_append]

theorem memcpy_front (a : Vector α n) (xs : List α) (room : xs.length ≤ n) :
    ∃ c, memcpy a 0 xs = some c ∧ Written a c xs :=
  memcpy_written (i := 0) (written_nil a) xs rfl (by omega)

theorem load_start {w source : List α} {len : Nat} (held : w <+: source) (size : len = w.length) :
    load source len = some w := by
  subst size
  simp only [load, if_pos held.length_le, Option.some.injEq]
  exact (List.prefix_iff_eq_take.mp held).symm

theorem strlen_terminated {text rest : List UInt8} (clean : 0 ∉ text) :
    strlen (text ++ 0 :: rest) = some text.length := by
  induction text with
  | nil => rfl
  | cons c text ih =>
    have hc : c ≠ 0 := fun e => clean (e ▸ List.mem_cons_self)
    have ht : 0 ∉ text := fun m => clean (List.mem_cons_of_mem _ m)
    have tail := ih ht
    simp only [strlen] at tail
    simp [strlen, List.findIdx?_cons, hc, tail]

theorem cstring_starts {text memory : List UInt8} (clean : 0 ∉ text) (held : text ++ [0] <+: memory) :
    cstring memory = some text := by
  obtain ⟨rest, rfl⟩ := held
  have size : strlen (text ++ 0 :: rest) = some text.length := strlen_terminated clean
  rw [List.append_assoc, List.singleton_append, cstring, size, Option.map_some, List.take_left]

theorem streq_literal {text memory : List UInt8} (clean : 0 ∉ text) (long : text.length < memory.length) :
    streq memory (text ++ [0]) = some (decide (text ++ [0] <+: memory)) := by
  induction text generalizing memory with
  | nil =>
    cases memory with
    | nil => exact absurd long (Nat.not_lt_zero 0)
    | cons x memory =>
      by_cases hx : x = 0
      · simp [streq, hx]
      · simp [streq, hx, Ne.symm hx]
  | cons y text ih =>
    cases memory with
    | nil => exact absurd long (Nat.not_lt_zero _)
    | cons x memory =>
      have hy : y ≠ 0 := fun e => clean (e ▸ List.mem_cons_self)
      have tail := ih (fun m => clean (List.mem_cons_of_mem y m))
        (Nat.lt_of_succ_lt_succ long)
      by_cases hx : x = y
      · subst hx
        simp [streq, hy, tail]
      · simp [streq, hx, Ne.symm hx]

theorem snprintf_starts (buffer : Vector UInt8 n) {text : List UInt8} (fits : text.length < n) :
    ∃ c, snprintf buffer text = some c ∧ text ++ [0] <+: c.toList := by
  have whole : text.take (n - 1) = text := List.take_of_length_le (by omega)
  obtain ⟨c, hm, hw⟩ := memcpy_front buffer (text ++ [0]) (by simp; omega)
  exact ⟨c, by rw [snprintf, whole, hm], written_starts hw⟩

end Memory
