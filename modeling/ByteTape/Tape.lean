/-!
# Tapes

A tape is a row of byte cells with a pointer at one of them. It starts as a single zero cell, gains
a zero cell whenever the pointer moves right off the last one, never shrinks, and never has more
than `bound` cells. A move that would leave the tape is refused and changes nothing. Cells count
modulo 256.

That the pointer is at a cell and that the cells respect the bound is part of the type, so every
access below is in range.
-/

namespace ByteTape

/-- What a move of the pointer came to. -/
inductive Move where
  /-- The pointer is at another cell that was there before. -/
  | moved
  /-- The pointer is at a new zero cell. -/
  | grew
  /-- The move was refused: the pointer is at the end of the tape. -/
  | clamped
  deriving DecidableEq, Repr

/-- Byte cells and a pointer to one of them. -/
structure Tape where
  cells : Array UInt8
  pointer : Nat
  bound : Nat
  pointer_lt : pointer < cells.size
  size_le : cells.size ≤ bound

namespace Tape

/-- The bound of a tape for which none is asked for. -/
def defaultBound : Nat := 300000

/-- A fresh tape: one zero cell, and room for `bound` of them, but at least for that one. -/
def blank (bound : Nat) : Tape where
  cells := #[0]
  pointer := 0
  bound := max bound 1
  pointer_lt := by simp
  size_le := Nat.le_max_right bound 1

/-- How many cells the tape has so far. -/
def size (tape : Tape) : Nat := tape.cells.size

/-- The cell at the pointer. -/
def current (tape : Tape) : UInt8 :=
  have := tape.pointer_lt
  tape.cells[tape.pointer]

/-- Puts a byte into the cell at the pointer. -/
def write (tape : Tape) (value : UInt8) : Tape :=
  match tape with
  | ⟨cells, pointer, bound, pointer_lt, size_le⟩ =>
      ⟨cells.set pointer value pointer_lt, pointer, bound, by simpa using pointer_lt,
        by simpa using size_le⟩

/-- Adds one to the cell at the pointer, modulo 256. -/
def increment (tape : Tape) : Tape := tape.write (tape.current + 1)

/-- Takes one from the cell at the pointer, modulo 256. -/
def decrement (tape : Tape) : Tape := tape.write (tape.current - 1)

/-- Moves the pointer one cell to the right, onto a new cell if there is none yet. -/
def right (tape : Tape) : Move × Tape :=
  match tape with
  | ⟨cells, pointer, bound, pointer_lt, size_le⟩ =>
      if hroom : pointer + 1 = bound then
        (.clamped, ⟨cells, pointer, bound, pointer_lt, size_le⟩)
      else if hlast : pointer + 1 = cells.size then
        (.grew, ⟨cells.push 0, pointer + 1, bound, by simpa using hlast ▸ pointer_lt,
          by simp; omega⟩)
      else
        (.moved, ⟨cells, pointer + 1, bound, by omega, size_le⟩)

/-- Moves the pointer one cell to the left. -/
def left (tape : Tape) : Move × Tape :=
  match tape with
  | ⟨cells, 0, bound, pointer_lt, size_le⟩ => (.clamped, ⟨cells, 0, bound, pointer_lt, size_le⟩)
  | ⟨cells, pointer + 1, bound, pointer_lt, size_le⟩ =>
      (.moved, ⟨cells, pointer, bound, by omega, size_le⟩)

end Tape

end ByteTape
