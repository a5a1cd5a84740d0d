import ByteTape.Tape

/-!
# Operations on tapes

No operation on a tape changes its bound, and none takes a cell away. A move to the right has three
outcomes, told apart by where the pointer stands: at the bound, at the last cell, or before it.
-/

namespace ByteTape

namespace Tape

@[simp] theorem write_bound (tape : Tape) (value : UInt8) : (tape.write value).bound = tape.bound :=
  rfl

@[simp] theorem increment_bound (tape : Tape) : tape.increment.bound = tape.bound := rfl

@[simp] theorem decrement_bound (tape : Tape) : tape.decrement.bound = tape.bound := rfl

@[simp] theorem right_bound (tape : Tape) : tape.right.2.bound = tape.bound := by
  simp only [right]
  split
  · rfl
  · split <;> rfl

@[simp] theorem left_bound (tape : Tape) : tape.left.2.bound = tape.bound := by
  unfold left
  split <;> rfl

theorem right_of_eq_bound {tape : Tape} (h : tape.pointer + 1 = tape.bound) :
    tape.right = (.clamped, tape) := by
  simp [right, h]

theorem right_of_eq_size {tape : Tape} (hroom : tape.pointer + 1 ≠ tape.bound)
    (h : tape.pointer + 1 = tape.size) :
    tape.right.1 = .grew ∧ tape.right.2.cells = tape.cells.push 0 ∧
      tape.right.2.pointer = tape.pointer + 1 := by
  rw [size] at h
  simp only [right, dif_neg hroom, dif_pos h, and_self]

theorem right_of_ne_size {tape : Tape} (hroom : tape.pointer + 1 ≠ tape.bound)
    (h : tape.pointer + 1 ≠ tape.size) :
    tape.right.1 = .moved ∧ tape.right.2.cells = tape.cells ∧
      tape.right.2.pointer = tape.pointer + 1 := by
  rw [size] at h
  simp only [right, dif_neg hroom, dif_neg h, and_self]

theorem right_pointer {tape : Tape} (hroom : tape.pointer + 1 ≠ tape.bound) :
    tape.right.2.pointer = tape.pointer + 1 := by
  by_cases h : tape.pointer + 1 = tape.size
  · exact (right_of_eq_size hroom h).2.2
  · exact (right_of_ne_size hroom h).2.2

theorem right_fst_ne_clamped {tape : Tape} (hroom : tape.pointer + 1 ≠ tape.bound) :
    tape.right.1 ≠ .clamped := by
  by_cases h : tape.pointer + 1 = tape.size
  · simp [(right_of_eq_size hroom h).1]
  · simp [(right_of_ne_size hroom h).1]

theorem left_of_eq_zero {tape : Tape} (h : tape.pointer = 0) : tape.left = (.clamped, tape) := by
  obtain ⟨cells, pointer, bound, hpointer, hsize⟩ := tape
  obtain rfl : pointer = 0 := h
  rfl

theorem left_of_ne_zero {tape : Tape} (h : tape.pointer ≠ 0) :
    tape.left.1 = .moved ∧ tape.left.2.cells = tape.cells ∧
      tape.left.2.pointer = tape.pointer - 1 := by
  obtain ⟨cells, pointer, bound, hpointer, hsize⟩ := tape
  cases pointer with
  | zero => exact absurd rfl h
  | succ pointer => exact ⟨rfl, rfl, rfl⟩

theorem write_cells (tape : Tape) (value : UInt8) :
    (tape.write value).cells = tape.cells.setIfInBounds tape.pointer value := by
  simp [write, Array.setIfInBounds, tape.pointer_lt]

@[simp] theorem write_pointer (tape : Tape) (value : UInt8) :
    (tape.write value).pointer = tape.pointer := rfl

@[simp] theorem write_current (tape : Tape) (value : UInt8) :
    (tape.write value).current = value := by
  simp [current, write]

@[simp] theorem write_size (tape : Tape) (value : UInt8) : (tape.write value).size = tape.size := by
  simp [size, write]

@[simp] theorem increment_size (tape : Tape) : tape.increment.size = tape.size :=
  tape.write_size _

@[simp] theorem decrement_size (tape : Tape) : tape.decrement.size = tape.size :=
  tape.write_size _

theorem size_le_right (tape : Tape) : tape.size ≤ tape.right.2.size := by
  by_cases hroom : tape.pointer + 1 = tape.bound
  · have hsame : tape.right.2 = tape := congrArg Prod.snd (right_of_eq_bound hroom)
    exact Nat.le_of_eq (congrArg size hsame.symm)
  · by_cases hlast : tape.pointer + 1 = tape.size
    · rw [size, size, (right_of_eq_size hroom hlast).2.1, Array.size_push]
      exact Nat.le_succ _
    · exact Nat.le_of_eq (congrArg Array.size (right_of_ne_size hroom hlast).2.1.symm)

@[simp] theorem left_size (tape : Tape) : tape.left.2.size = tape.size := by
  unfold left
  split <;> rfl

end Tape

end ByteTape
