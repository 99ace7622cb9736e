import Mathlib.Data.FinEnum

/-! Upper-case hexadecimal. A byte has exactly one spelling of two digits. -/
namespace Hex

def digit (d : Fin 16) : UInt8 :=
  #v[0x30, 0x31, 0x32, 0x33, 0x34, 0x35, 0x36, 0x37, 0x38, 0x39,
    0x41, 0x42, 0x43, 0x44, 0x45, 0x46][d]

def read (b : UInt8) : Option (Fin 16) :=
  (List.finRange 16).find? fun d => digit d = b

/-- The two digits of a value below 256. -/
def text (v : Nat) : List UInt8 :=
  [digit (Fin.ofNat 16 (v / 16)), digit (Fin.ofNat 16 v)]

@[simp] theorem read_digit : ∀ d, read (digit d) = some d := by decide

theorem digit_of_read {b : UInt8} {d : Fin 16} (h : read b = some d) : digit d = b := by
  simpa using List.find?_some h

theorem digit_injective : ∀ d e, digit d = digit e → d = e := by decide

theorem digit_text : ∀ d, 0x20 ≤ digit d ∧ digit d ≤ 0x7E ∧ digit d ≠ 0x40 ∧ digit d ≠ 0x3A := by
  decide

@[simp] theorem text_pair : ∀ hi lo : Fin 16, text (16 * hi.val + lo.val) = [digit hi, digit lo] := by
  decide

@[simp] theorem text_length (v : Nat) : (text v).length = 2 := rfl

theorem pair_value (v : Nat) (small : v < 256) :
    v = 16 * (Fin.ofNat 16 (v / 16)).val + (Fin.ofNat 16 v).val := by
  simp only [Fin.ofNat]
  omega

theorem text_injective {v w : Nat} (hv : v < 256) (hw : w < 256) (h : text v = text w) : v = w := by
  simp only [text, List.cons.injEq, and_true] at h
  rw [pair_value v hv, pair_value w hw, digit_injective _ _ h.1, digit_injective _ _ h.2]

theorem mem_text {b : UInt8} {v : Nat} (h : b ∈ text v) : ∃ d, b = digit d := by
  simp only [text, List.mem_cons, List.not_mem_nil, or_false] at h
  rcases h with h | h
  · exact ⟨_, h⟩
  · exact ⟨_, h⟩

end Hex
