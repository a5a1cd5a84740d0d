import ByteTape.Instruction
import ByteTape.Proofs.Tape.Refinement

/-!
# Strokes

A stroke is an instruction that works on the tape and on nothing else. What a list of strokes does
is told in advance, by offsets from where the pointer is before it: `offsets` are the places where
the pointer will be, and `change` is what will be added to a cell. As long as none of these places
is off the tape, no move is refused and the strokes do just that (`becomes_performAll`). The tape
grows up to the farthest of these places.

A list of strokes that brings the pointer back can be done again, and then adds the same to the same
cells. `Repeats` says what becomes of the tape after a number of times; the tape grows the first
time only.
-/

namespace ByteTape

/-- The instructions that work on the tape and on nothing else. -/
inductive Stroke where
  | right
  | left
  | increment
  | decrement
  deriving DecidableEq, Repr

namespace Stroke

def toInstruction : Stroke → Instruction
  | right => .right
  | left => .left
  | increment => .increment
  | decrement => .decrement

/-- How far to the right the pointer goes. -/
def shift : Stroke → Int
  | right => 1
  | left => -1
  | _ => 0

/-- How far to the right some strokes bring the pointer in all. -/
def travel : List Stroke → Int
  | [] => 0
  | stroke :: rest => stroke.shift + travel rest

/-- What is added to the cell at the pointer. -/
def gain : Stroke → UInt8
  | increment => 1
  | decrement => -1
  | _ => 0

/-- Where the pointer is before some strokes and behind each of them, if it starts at `offset`. -/
def offsets (offset : Int) : List Stroke → List Int
  | [] => [offset]
  | stroke :: rest => offset :: offsets (offset + stroke.shift) rest

/-- What some strokes add to the cell at `target`, if the pointer starts at `offset`. -/
def change (target offset : Int) : List Stroke → UInt8
  | [] => 0
  | stroke :: rest =>
      (if target = offset then stroke.gain else 0) + change target (offset + stroke.shift) rest

theorem offset_mem_offsets (offset : Int) (strokes : List Stroke) :
    offset ∈ offsets offset strokes := by
  cases strokes <;> exact List.mem_cons_self

end Stroke

open Stroke

namespace Tape

/-- The tape after a stroke. -/
def perform (tape : Tape) : Stroke → Tape
  | .right => tape.right.2
  | .left => tape.left.2
  | .increment => tape.increment
  | .decrement => tape.decrement

/-- The tape after some strokes. -/
def performAll (tape : Tape) (strokes : List Stroke) : Tape := strokes.foldl perform tape

@[simp] theorem performAll_nil (tape : Tape) : tape.performAll [] = tape := rfl

@[simp] theorem performAll_cons (tape : Tape) (stroke : Stroke) (rest : List Stroke) :
    tape.performAll (stroke :: rest) = (tape.perform stroke).performAll rest := rfl

@[simp] theorem perform_bound (tape : Tape) (stroke : Stroke) :
    (tape.perform stroke).bound = tape.bound := by
  cases stroke <;> simp [perform]

theorem perform_pointer {tape : Tape} {stroke : Stroke}
    (hlow : 0 ≤ (tape.pointer : Int) + stroke.shift)
    (hhigh : (tape.pointer : Int) + stroke.shift < tape.bound) :
    ((tape.perform stroke).pointer : Int) = tape.pointer + stroke.shift := by
  cases stroke with
  | right =>
      simp only [shift] at hhigh
      rw [perform, right_pointer (by omega)]
      rfl
  | left =>
      simp only [shift] at hlow ⊢
      rw [perform, (left_of_ne_zero (by omega)).2.2]
      omega
  | increment => exact (Int.add_zero _).symm
  | decrement => exact (Int.add_zero _).symm

theorem cellAt_right (tape : Tape) (position : Nat) :
    tape.right.2.cellAt position = tape.cellAt position := by
  by_cases hroom : tape.pointer + 1 = tape.bound
  · rw [right_of_eq_bound hroom]
  · by_cases hlast : tape.pointer + 1 = tape.size
    · exact cellAt_of_push (right_of_eq_size hroom hlast).2.1 position
    · rw [cellAt, (right_of_ne_size hroom hlast).2.1, cellAt]

theorem cellAt_left (tape : Tape) (position : Nat) :
    tape.left.2.cellAt position = tape.cellAt position := by
  by_cases hzero : tape.pointer = 0
  · rw [left_of_eq_zero hzero]
  · rw [cellAt, (left_of_ne_zero hzero).2.1, cellAt]

theorem cellAt_perform (tape : Tape) (stroke : Stroke) (position : Nat) :
    (tape.perform stroke).cellAt position =
      tape.cellAt position + if position = tape.pointer then stroke.gain else 0 := by
  have hwrite (value : UInt8) : (tape.write (tape.current + value)).cellAt position =
      tape.cellAt position + if position = tape.pointer then value else 0 := by
    rw [cellAt_write]
    split
    · rename_i h
      rw [h, cellAt_pointer]
    · exact (UInt8.add_zero _).symm
  cases stroke with
  | right => simp [perform, cellAt_right, gain]
  | left => simp [perform, cellAt_left, gain]
  | increment => exact hwrite 1
  | decrement =>
      rw [perform, Tape.decrement, UInt8.sub_eq_add_neg]
      exact hwrite (-1)

/-- A tape has a cell wherever its pointer gets. -/
theorem perform_size_le_iff {tape : Tape} {stroke : Stroke}
    (hhigh : (tape.pointer : Int) + stroke.shift < tape.bound) (k : Nat) :
    (tape.perform stroke).size ≤ k ↔
      tape.size ≤ k ∧ (tape.pointer : Int) + stroke.shift < k := by
  have hpointer : tape.pointer < tape.size := tape.pointer_lt
  cases stroke with
  | right =>
      simp only [shift] at hhigh ⊢
      by_cases hlast : tape.pointer + 1 = tape.size
      · rw [perform, size, (right_of_eq_size (by omega) hlast).2.1, Array.size_push, ← size]
        omega
      · rw [perform, size, (right_of_ne_size (by omega) hlast).2.1, ← size]
        omega
  | left =>
      simp only [perform, left_size, shift]
      omega
  | increment =>
      simp only [perform, increment_size, shift]
      omega
  | decrement =>
      simp only [perform, decrement_size, shift]
      omega

/-- What some strokes make of a tape whose pointer is `offset` away from `origin`. -/
structure Becomes (origin offset : Int) (strokes : List Stroke) (before after : Tape) : Prop where
  pointer_eq : (after.pointer : Int) = origin + offset + travel strokes
  bound_eq : after.bound = before.bound
  cell_eq (position : Nat) :
    after.cellAt position = before.cellAt position + change (position - origin) offset strokes
  size_le_iff (k : Nat) :
    after.size ≤ k ↔ before.size ≤ k ∧ ∀ place ∈ offsets offset strokes, origin + place < k

/-- Strokes that keep the pointer on the tape do what their offsets say. -/
theorem becomes_performAll {tape : Tape} {origin offset : Int} {strokes : List Stroke}
    (hpointer : (tape.pointer : Int) = origin + offset)
    (hrange : ∀ place ∈ offsets offset strokes, 0 ≤ origin + place ∧ origin + place < tape.bound) :
    Becomes origin offset strokes tape (tape.performAll strokes) := by
  induction strokes generalizing tape offset with
  | nil =>
      have hlt : tape.pointer < tape.size := tape.pointer_lt
      exact {
        pointer_eq := hpointer.trans (Int.add_zero _).symm
        bound_eq := rfl
        cell_eq := fun position => (UInt8.add_zero _).symm
        size_le_iff := fun k => by
          simp only [offsets, List.mem_singleton, forall_eq, ← hpointer, performAll_nil]
          omega }
  | cons stroke rest ih =>
      have hlt : tape.pointer < tape.size := tape.pointer_lt
      have hnext := hrange _ (List.mem_cons_of_mem _ (offset_mem_offsets _ rest))
      rw [← Int.add_assoc, ← hpointer] at hnext
      have hmoved := perform_pointer hnext.1 hnext.2
      have hrest : Becomes origin (offset + stroke.shift) rest (tape.perform stroke) _ :=
        ih (by rw [hmoved, hpointer, Int.add_assoc])
          (by simpa using fun place hplace => hrange place (List.mem_cons_of_mem _ hplace))
      exact {
        pointer_eq := by
          rw [performAll_cons, hrest.pointer_eq, travel]
          omega
        bound_eq := hrest.bound_eq.trans (perform_bound tape stroke)
        cell_eq := fun position => by
          have hhere : (position : Int) - origin = offset ↔ position = tape.pointer := by omega
          rw [performAll_cons, hrest.cell_eq, cellAt_perform, change, UInt8.add_assoc]
          simp only [hhere]
        size_le_iff := fun k => by
          rw [performAll_cons, hrest.size_le_iff, perform_size_le_iff hnext.2, offsets,
            List.forall_mem_cons, ← hpointer]
          constructor
          · rintro ⟨⟨hsize, -⟩, hplaces⟩
            exact ⟨hsize, by omega, hplaces⟩
          · rintro ⟨hsize, -, hplaces⟩
            have hfirst := hplaces _ (offset_mem_offsets _ rest)
            exact ⟨⟨hsize, by omega⟩, hplaces⟩ }

/-- What some strokes that bring the pointer back make of a tape when they are done a number of
times. -/
structure Repeats (strokes : List Stroke) (times : Nat) (before after : Tape) : Prop where
  pointer_eq : after.pointer = before.pointer
  bound_eq : after.bound = before.bound
  cell_eq (position : Nat) : after.cellAt position =
    before.cellAt position + UInt8.ofNat times * change (position - before.pointer) 0 strokes
  size_le_iff (k : Nat) : after.size ≤ k ↔ before.size ≤ k ∧
    (times ≠ 0 → ∀ place ∈ offsets 0 strokes, (before.pointer : Int) + place < k)

namespace Repeats

variable {strokes : List Stroke} {before middle after : Tape}

theorem zero (strokes : List Stroke) (tape : Tape) : Repeats strokes 0 tape tape where
  pointer_eq := rfl
  bound_eq := rfl
  cell_eq position := by simp
  size_le_iff k := by simp

theorem one (hback : travel strokes = 0) {tape : Tape}
    (hrange : ∀ place ∈ offsets 0 strokes,
      0 ≤ (tape.pointer : Int) + place ∧ (tape.pointer : Int) + place < tape.bound) :
    Repeats strokes 1 tape (tape.performAll strokes) := by
  have h := becomes_performAll (Int.add_zero (tape.pointer : Int)).symm hrange
  exact {
    pointer_eq := by
      have hend := h.pointer_eq
      omega
    bound_eq := h.bound_eq
    cell_eq := fun position => by
      rw [h.cell_eq, show UInt8.ofNat 1 = 1 from rfl, UInt8.one_mul]
    size_le_iff := fun k => by simpa using h.size_le_iff k }

/-- What is done again adds to the cells again, but makes no new cell. -/
theorem trans {times more : Nat} (h : Repeats strokes times before middle)
    (h' : Repeats strokes more middle after) : Repeats strokes (times + more) before after where
  pointer_eq := h'.pointer_eq.trans h.pointer_eq
  bound_eq := h'.bound_eq.trans h.bound_eq
  cell_eq position := by
    rw [h'.cell_eq, h.cell_eq, h.pointer_eq, UInt8.ofNat_add, UInt8.add_mul, UInt8.add_assoc]
  size_le_iff k := by
    rw [h'.size_le_iff, h.size_le_iff, h.pointer_eq]
    constructor
    · rintro ⟨⟨hsize, hfirst⟩, hagain⟩
      refine ⟨hsize, fun hne => ?_⟩
      by_cases hzero : times = 0
      · exact hagain (by omega)
      · exact hfirst hzero
    · rintro ⟨hsize, hplaces⟩
      exact ⟨⟨hsize, fun hne => hplaces (by omega)⟩, fun hne => hplaces (by omega)⟩

theorem current_eq {times : Nat} (h : Repeats strokes times before after) :
    after.current = before.current + UInt8.ofNat times * change 0 0 strokes := by
  rw [← cellAt_pointer, ← cellAt_pointer, h.pointer_eq, h.cell_eq, Int.sub_self]

/-- The tape grows up to the farthest place, if the strokes are done at all. -/
theorem size_eq {times : Nat} (h : Repeats strokes times before after) {farthest : Int}
    (hfarthest : IsGreatest {place | place ∈ offsets 0 strokes} farthest) :
    (after.size : Int) = if times = 0 then (before.size : Int)
      else max before.size (before.pointer + farthest + 1) := by
  obtain ⟨hsize, hplaces⟩ := (h.size_le_iff after.size).mp (Nat.le_refl _)
  split
  · rename_i hzero
    have hle := (h.size_le_iff before.size).mpr ⟨Nat.le_refl _, fun hne => absurd hzero hne⟩
    omega
  · rename_i hne
    have hreached := hplaces hne farthest hfarthest.1
    have hle := (h.size_le_iff (max before.size (before.pointer + farthest + 1).toNat)).mpr
      ⟨Nat.le_max_left _ _, fun _ place hplace => by
        have hbound : place ≤ farthest := hfarthest.2 hplace
        omega⟩
    omega

end Repeats

end Tape

theorem Stroke.exists_isGreatest_offsets (offset : Int) (strokes : List Stroke) :
    ∃ farthest, IsGreatest {place | place ∈ offsets offset strokes} farthest := by
  induction strokes generalizing offset with
  | nil => exact ⟨offset, List.mem_singleton_self offset, by simp [offsets]⟩
  | cons stroke rest ih =>
      obtain ⟨farthest, hfarthest⟩ := ih (offset + stroke.shift)
      have hplaces : {place | place ∈ offsets offset (stroke :: rest)} =
          insert offset {place | place ∈ offsets (offset + stroke.shift) rest} := by
        ext place
        exact List.mem_cons
      exact ⟨_, hplaces ▸ hfarthest.insert offset⟩

end ByteTape
