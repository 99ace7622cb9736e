import CommandBox.Lib.Hex
import Mathlib.Data.List.TakeWhile

/-! Python texts of ASCII characters, as lists of code points, with the methods of `str`
and the conversions that scripts read and write numbers with. `none` is a `ValueError`. -/
namespace PyText

/-- `text.split(sep, 1)` -/
def split (text : List UInt8) (sep : UInt8) : List (List UInt8) :=
  if sep ∈ text then [text.takeWhile (· ≠ sep), (text.dropWhile (· ≠ sep)).tail] else [text]

/-- `text.rsplit(sep, 1)` -/
def rsplit (text : List UInt8) (sep : UInt8) : List (List UInt8) :=
  if sep ∈ text then
    [(text.reverse.dropWhile (· ≠ sep)).tail.reverse, (text.reverse.takeWhile (· ≠ sep)).reverse]
  else [text]

/-- `a, b = parts` -/
def unpack : List (List UInt8) → Option (List UInt8 × List UInt8)
  | [a, b] => some (a, b)
  | _ => none

/-- The white space of `str.strip`. -/
def isSpace (c : UInt8) : Bool := (0x09 ≤ c && c ≤ 0x0D) || (0x1C ≤ c && c ≤ 0x20)

/-- The white space `int` passes over in a text that is ASCII. -/
def isBlank (c : UInt8) : Bool := (0x09 ≤ c && c ≤ 0x0D) || c == 0x20

def trim (space : UInt8 → Bool) (text : List UInt8) : List UInt8 :=
  ((text.dropWhile space).reverse.dropWhile space).reverse

/-- `text.strip()` -/
def strip (text : List UInt8) : List UInt8 := trim isSpace text

/-- A hexadecimal digit of either case. -/
def hexValue (c : UInt8) : Option Nat :=
  if 0x30 ≤ c ∧ c ≤ 0x39 then some (c.toNat - 0x30)
  else if 0x41 ≤ c ∧ c ≤ 0x46 then some (c.toNat - 0x41 + 10)
  else if 0x61 ≤ c ∧ c ≤ 0x66 then some (c.toNat - 0x61 + 10)
  else none

/-- Digits with single underscores between them; `inside` says that a digit came before. -/
def digitsValue (value : Nat) (inside : Bool) : List UInt8 → Option Nat
  | [] => if inside then some value else none
  | c :: rest =>
    if c = 0x5F then (if inside then digitsValue value false rest else none)
    else match hexValue c with
      | some d => digitsValue (16 * value + d) true rest
      | none => none

/-- The optional `0x` with an optional underscore behind it. -/
def dropBase : List UInt8 → List UInt8
  | 0x30 :: x :: 0x5F :: rest => if x = 0x78 ∨ x = 0x58 then rest else 0x30 :: x :: 0x5F :: rest
  | 0x30 :: x :: rest => if x = 0x78 ∨ x = 0x58 then rest else 0x30 :: x :: rest
  | text => text

/-- `int(text, 16)` -/
def int16 (text : List UInt8) : Option Int :=
  match trim isBlank text with
  | 0x2B :: rest => (digitsValue 0 false (dropBase rest)).map fun v => (v : Int)
  | 0x2D :: rest => (digitsValue 0 false (dropBase rest)).map fun v => -(v : Int)
  | rest => (digitsValue 0 false (dropBase rest)).map fun v => (v : Int)

/-- `f"\x7bvalue:02X\x7d"` for a natural number. -/
def hex02 (value : Nat) : List UInt8 :=
  let digits := (Nat.toDigits 16 value).map fun c => UInt8.ofNat c.toUpper.toNat
  List.replicate (2 - digits.length) 0x30 ++ digits

/-- `text.encode("ascii")` -/
def encodeAscii (text : List UInt8) : Option (List UInt8) :=
  if ∀ c ∈ text, c < 0x80 then some text else none

theorem split_first {left right : List UInt8} {sep : UInt8} (none : sep ∉ left) :
    split (left ++ sep :: right) sep = [left, right] := by
  have inside : sep ∈ left ++ sep :: right := by simp
  have keep : ∀ c ∈ left, decide (c ≠ sep) = true := by
    intro c hc
    exact decide_eq_true fun e => none (e ▸ hc)
  rw [split, if_pos inside, List.takeWhile_append_of_pos keep, List.dropWhile_append_of_pos keep]
  simp

theorem rsplit_last {left right : List UInt8} {sep : UInt8} (none : sep ∉ right) :
    rsplit (left ++ sep :: right) sep = [left, right] := by
  have inside : sep ∈ left ++ sep :: right := by simp
  have keep : ∀ c ∈ right.reverse, decide (c ≠ sep) = true := by
    intro c hc
    exact decide_eq_true fun e => none (e ▸ List.mem_reverse.mp hc)
  have turned : (left ++ sep :: right).reverse = right.reverse ++ sep :: left.reverse := by simp
  rw [rsplit, if_pos inside, turned, List.takeWhile_append_of_pos keep,
    List.dropWhile_append_of_pos keep]
  simp

theorem split_unpacked {text left right : List UInt8} {sep : UInt8}
    (h : unpack (split text sep) = some (left, right)) :
    text = left ++ sep :: right ∧ sep ∉ left := by
  by_cases inside : sep ∈ text
  · obtain ⟨before, after, rfl, none⟩ := List.eq_append_cons_of_mem inside
    rw [split_first none] at h
    cases h
    exact ⟨rfl, none⟩
  · rw [split, if_neg inside] at h
    contradiction

theorem rsplit_unpacked {text left right : List UInt8} {sep : UInt8}
    (h : unpack (rsplit text sep) = some (left, right)) :
    text = left ++ sep :: right ∧ sep ∉ right := by
  by_cases inside : sep ∈ text
  · obtain ⟨after, before, turned, none⟩ :=
      List.eq_append_cons_of_mem (List.mem_reverse.mpr inside)
    have none' : sep ∉ after.reverse := fun hm => none (List.mem_reverse.mp hm)
    have whole : text = before.reverse ++ sep :: after.reverse := by
      rw [← List.reverse_reverse text, turned]
      simp
    rw [whole, rsplit_last none'] at h
    cases h
    exact ⟨whole, none'⟩
  · rw [rsplit, if_neg inside] at h
    contradiction

theorem hex02_text : ∀ v < 256, hex02 v = Hex.text v := by decide +kernel

theorem int16_text : ∀ v < 256, int16 (Hex.text v) = some (v : Int) := by decide +kernel

/-- A text that neither starts nor ends with white space is its own `strip`. -/
theorem strip_kept {first last : UInt8} {middle : List UInt8} (hf : isSpace first = false)
    (hl : isSpace last = false) :
    strip (first :: (middle ++ [last])) = first :: (middle ++ [last]) := by
  simp [strip, trim, hf, hl]

end PyText
