import CommandBox.Lib.Memory
import Mathlib.Data.Nat.ModEq

/-! Ring buffers: items in the cells of an array, read and written round and round, and an
array of bytes as an array of cells of one size. The read index is the cell that was read
last, so the contents start one cell after it. -/
namespace Ring

variable {β : Type} {n r : Nat}

/-- The cell of item `i`. -/
def slot (n r i : Nat) : Nat := (r + 1 + i) % n

theorem slot_lt (i : Nat) (inside : r < n) : slot n r i < n :=
  Nat.mod_lt _ (Nat.lt_of_le_of_lt (Nat.zero_le r) inside)

theorem slot_injective {i j : Nat} (hi : i < n) (hj : j < n) (same : slot n r i = slot n r j) :
    i = j := by
  have shifted : r + 1 + i ≡ r + 1 + j [MOD n] := same
  exact (Nat.ModEq.add_left_cancel' (r + 1) shifted).eq_of_lt_of_lt hi hj

/-- The slots after that of an item. -/
theorem slot_slot (i j : Nat) : slot n (slot n r i) j = slot n r (i + j + 1) := by
  simp only [slot, Nat.add_assoc, Nat.mod_add_mod]
  congr 1
  omega

theorem slot_succ (i : Nat) : slot n (slot n r 0) i = slot n r (i + 1) := by
  rw [slot_slot, Nat.zero_add]

/-- A full ring continues at the cell of its first item. -/
theorem slot_full (inside : r < n) : slot n r (n - 1) = r := by
  have around : r + 1 + (n - 1) = r + n := by omega
  rw [slot, around, Nat.add_mod_right, Nat.mod_eq_of_lt inside]

theorem slot_first (inside : r < n) : slot n r 0 = if r + 1 < n then r + 1 else 0 := by
  unfold slot
  split
  · exact Nat.mod_eq_of_lt ‹_›
  · have last : r + 1 + 0 = n := by omega
    rw [last, Nat.mod_self]

/-- The cell before the one that is read next. -/
def before (n r : Nat) : Nat := if r = 0 then n - 1 else r - 1

theorem slot_before (inside : r < n) : slot n (before n r) 0 = r := by
  unfold before slot
  split
  · have around : n - 1 + 1 + 0 = n := by omega
    rw [around, Nat.mod_self]
    exact Eq.symm ‹_›
  · have back : r - 1 + 1 + 0 = r := by omega
    rw [back, Nat.mod_eq_of_lt inside]

theorem before_lt (inside : r < n) : before n r < n := by
  unfold before
  split <;> omega

/-- The ring of `n` cells that was read last at `r` holds these items. -/
structure Holds (n : Nat) (cells : Nat → β) (r : Nat) (items : List β) : Prop where
  inside : r < n
  room : items.length ≤ n
  stored : ∀ i (h : i < items.length), cells (slot n r i) = items[i]

variable {cells cells' : Nat → β} {items : List β} {x : β}

theorem holds_nil (inside : r < n) : Holds n cells r [] :=
  ⟨inside, Nat.zero_le n, fun _ h => absurd h (Nat.not_lt_zero _)⟩

theorem holds_back (holds : Holds n cells r items) (free : items.length < n)
    (written : cells' (slot n r items.length) = x)
    (kept : ∀ j, j ≠ slot n r items.length → cells' j = cells j) :
    Holds n cells' r (items ++ [x]) := by
  constructor
  · exact holds.inside
  · simpa using Nat.succ_le_of_lt free
  · intro i h
    rcases Nat.lt_or_ge i items.length with old | new
    · have other : slot n r i ≠ slot n r items.length := by
        intro same
        have hit := slot_injective (Nat.lt_trans old free) free same
        omega
      rw [kept _ other, List.getElem_append_left old]
      exact holds.stored i old
    · have last : i = items.length := by simp at h; omega
      subst last
      simpa using written

theorem holds_front (holds : Holds n cells r items) (free : items.length < n)
    (written : cells' r = x) (kept : ∀ j, j ≠ r → cells' j = cells j) :
    Holds n cells' (before n r) (x :: items) := by
  have here := slot_before holds.inside
  constructor
  · exact before_lt holds.inside
  · exact free
  · intro i h
    cases i with
    | zero => rw [here, written, List.getElem_cons_zero]
    | succ i =>
      have old : i < items.length := Nat.lt_of_succ_lt_succ h
      have other : slot n r i ≠ r := by
        intro same
        have hit := slot_injective (Nat.lt_trans old free) (by omega)
          (same.trans (slot_full holds.inside).symm)
        omega
      rw [← slot_succ, here, kept _ other, List.getElem_cons_succ]
      exact holds.stored i old

theorem holds_first (holds : Holds n cells r (x :: items)) : cells (slot n r 0) = x :=
  holds.stored 0 (Nat.succ_pos _)

theorem holds_rest (holds : Holds n cells r (x :: items)) : Holds n cells (slot n r 0) items := by
  constructor
  · exact slot_lt 0 holds.inside
  · exact Nat.le_of_succ_le holds.room
  · intro i h
    rw [slot_succ]
    exact holds.stored (i + 1) (Nat.succ_lt_succ h)

end Ring

namespace Memory

variable {α : Type} {n size : Nat}

/-- The cells of `size` elements that an array consists of. -/
def block (a : Vector α n) (size i : Nat) : List α := (a.toList.drop (i * size)).take size

theorem load_block (a : Vector α n) {i : Nat} (inside : (i + 1) * size ≤ n) :
    load (a.toList.drop (i * size)) size = some (block a size i) := by
  rw [Nat.succ_mul] at inside
  have long : size ≤ (a.toList.drop (i * size)).length := by simp; omega
  rw [load, if_pos long, block]

theorem memcpy_elsewhere {a b : Vector α n} {offset m : Nat} {xs : List α}
    (copied : memcpy a offset xs = some b) (outside : m < offset ∨ offset + xs.length ≤ m) :
    b.toList[m]? = a.toList[m]? := by
  unfold memcpy at copied
  split at copied
  · rename_i room
    cases copied
    have front : (a.toList.take offset).length = offset := by simp; omega
    simp only [Vector.toList_mk, List.append_assoc]
    rcases outside with earlier | later
    · rw [List.getElem?_append_left (by omega), List.getElem?_take_of_lt earlier]
    · rw [List.getElem?_append_right (by omega), List.getElem?_append_right (by omega),
        List.getElem?_drop]
      congr 1
      omega
  · contradiction

/-- Copying one cell writes this cell and no other. -/
theorem memcpy_block (a : Vector α n) {i : Nat} {xs : List α} (whole : xs.length = size)
    (inside : (i + 1) * size ≤ n) :
    ∃ b, memcpy a (i * size) xs = some b ∧ block b size i = xs ∧
      ∀ j, j ≠ i → block b size j = block a size j := by
  rw [Nat.succ_mul] at inside
  have room : i * size + xs.length ≤ n := by omega
  refine ⟨_, dif_pos room, ?_, ?_⟩
  · have front : (a.toList.take (i * size)).length = i * size := by simp; omega
    simp only [block, Vector.toList_mk, List.append_assoc]
    rw [List.drop_left' front, List.take_left' whole]
  · intro j other
    apply List.ext_getElem?
    intro k
    simp only [block, List.getElem?_take, List.getElem?_drop]
    split
    · apply memcpy_elsewhere (dif_pos room)
      rcases Nat.lt_or_gt_of_ne other with less | more
      · have below := Nat.mul_le_mul_right size (Nat.succ_le_of_lt less)
        rw [Nat.succ_mul] at below
        exact .inl (by omega)
      · have above := Nat.mul_le_mul_right size (Nat.succ_le_of_lt more)
        rw [Nat.succ_mul] at above
        exact .inr (by omega)
    · rfl

end Memory
