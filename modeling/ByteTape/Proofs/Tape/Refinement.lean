import ByteTape.Proofs.Tape
import Mathlib.Order.Bounds.Basic

/-!
# The cells that are not there yet

A tape has only the cells its pointer has been at, and a user of the tape cannot tell. `FullTape` is
a tape with all of its cells from the start, whose pointer is held between the first and the last of
them, and which remembers where its pointer has been. It answers every command as the growing tape
does, so the two are the same to whoever gives the commands.

Two views carry this. `Tape.cellAt` reads a cell that is not there yet as zero, and so no growth is
seen in it. `Tracks` says that through it both tapes are alike, and that the cells there are so far
are those that were visited. One command keeps `Tracks` and is answered alike; any list of commands
then is.
-/

namespace ByteTape

/-- What can be asked of a tape. -/
inductive Command where
  | right
  | left
  | increment
  | decrement
  | write (value : UInt8)
  | read
  deriving DecidableEq, Repr

/-- What a tape answers: the outcome of a move, or the byte that was read. -/
inductive Answer where
  | move (move : Move)
  | value (value : UInt8)
  | nothing
  deriving DecidableEq, Repr

namespace Command

variable {State : Type} (obey : State → Command → Answer × State)

/-- What some commands leave of a state that obeys them. -/
def after (state : State) : List Command → State
  | [] => state
  | command :: commands => after (obey state command).2 commands

/-- The answers to some commands, in order. -/
def answers (state : State) : List Command → List Answer
  | [] => []
  | command :: commands => (obey state command).1 :: answers (obey state command).2 commands

theorem after_append (state : State) (commands more : List Command) :
    after obey state (commands ++ more) = after obey (after obey state commands) more := by
  induction commands generalizing state with
  | nil => rfl
  | cons command commands ih => exact ih _

end Command

/-- Carries out one command on a tape. -/
def Tape.obey (tape : Tape) : Command → Answer × Tape
  | .right => (.move tape.right.1, tape.right.2)
  | .left => (.move tape.left.1, tape.left.2)
  | .increment => (.nothing, tape.increment)
  | .decrement => (.nothing, tape.decrement)
  | .write value => (.nothing, tape.write value)
  | .read => (.value tape.current, tape)

/-- A tape that has all of its cells. -/
structure FullTape (size : Nat) where
  cells : Vector UInt8 size
  pointer : Fin size
  /-- Where the pointer has been, its present place included. -/
  visited : List (Fin size)

namespace FullTape

/-- A full tape of zero cells, with its pointer at the first of them. -/
def blank (bound : Nat) : FullTape (max bound 1) where
  cells := Vector.replicate (max bound 1) 0
  pointer := ⟨0, by omega⟩
  visited := [⟨0, by omega⟩]

variable {size : Nat}

def current (full : FullTape size) : UInt8 := full.cells[full.pointer]

def write (full : FullTape size) (value : UInt8) : FullTape size :=
  { full with cells := full.cells.set full.pointer value }

/-- The place nearest to a target, which may lie beyond either end. -/
def clamp (full : FullTape size) (target : Int) : Fin size :=
  ⟨(max 0 (min target (size - 1))).toNat, by
    have := full.pointer.isLt
    omega⟩

def moveTo (full : FullTape size) (place : Fin size) : FullTape size :=
  { full with pointer := place, visited := place :: full.visited }

/-- What a move to a place comes to: nothing if the pointer is there already, and otherwise it
matters whether the pointer has ever been there. -/
def outcome (full : FullTape size) (place : Fin size) : Move :=
  if place = full.pointer then .clamped
  else if place ∈ full.visited then .moved
  else .grew

/-- Carries out one command on a full tape. -/
def obey (full : FullTape size) : Command → Answer × FullTape size
  | .right =>
      let place := full.clamp (full.pointer + 1)
      (.move (full.outcome place), full.moveTo place)
  | .left =>
      let place := full.clamp (full.pointer - 1)
      (.move (full.outcome place), full.moveTo place)
  | .increment => (.nothing, full.write (full.current + 1))
  | .decrement => (.nothing, full.write (full.current - 1))
  | .write value => (.nothing, full.write value)
  | .read => (.value full.current, full)

end FullTape

namespace Tape

/-- The cell at a position; one that is not there yet is zero. -/
def cellAt (tape : Tape) (position : Nat) : UInt8 := tape.cells[position]?.getD 0

theorem cellAt_pointer (tape : Tape) : tape.cellAt tape.pointer = tape.current := by
  simp [cellAt, current, tape.pointer_lt]

theorem cellAt_write (tape : Tape) (value : UInt8) (position : Nat) :
    (tape.write value).cellAt position =
      if position = tape.pointer then value else tape.cellAt position := by
  by_cases h : position = tape.pointer
  · subst h
    simp [cellAt, write, tape.pointer_lt]
  · simp [cellAt, write, h, Ne.symm h]

/-- A new cell was zero before it was there. -/
theorem cellAt_of_push {tape tape' : Tape} (h : tape'.cells = tape.cells.push 0) (position : Nat) :
    tape'.cellAt position = tape.cellAt position := by
  rw [cellAt, cellAt, h, Array.getElem?_push]
  split
  · rename_i hlast
    simp [hlast]
  · rfl

end Tape

/-- A growing tape and a full one that are the same to their user: the cells of the growing one are
those that the full one was asked for. -/
structure Tracks {size : Nat} (tape : Tape) (full : FullTape size) : Prop where
  bound_eq : tape.bound = size
  pointer_eq : tape.pointer = full.pointer
  visited_iff (place : Fin size) : place ∈ full.visited ↔ place < tape.size
  cell_eq (place : Fin size) : full.cells[place] = tape.cellAt place

namespace Tracks

theorem blank (bound : Nat) : Tracks (Tape.blank bound) (FullTape.blank bound) where
  bound_eq := rfl
  pointer_eq := rfl
  visited_iff place := by
    simp [FullTape.blank, Tape.blank, Tape.size, Fin.ext_iff]
  cell_eq place := by
    have hzero : (Tape.blank bound).cellAt place = 0 := by
      by_cases h : (place : Nat) = 0 <;> simp [Tape.cellAt, Tape.blank, h]
    simp [FullTape.blank, hzero]

variable {size : Nat} {tape tape' : Tape} {full : FullTape size}

theorem current_eq (h : Tracks tape full) : tape.current = full.current := by
  rw [← Tape.cellAt_pointer, h.pointer_eq, ← h.cell_eq]
  rfl

theorem write (h : Tracks tape full) (value : UInt8) :
    Tracks (tape.write value) (full.write value) where
  bound_eq := h.bound_eq
  pointer_eq := h.pointer_eq
  visited_iff place := by
    rw [Tape.write_size]
    exact h.visited_iff place
  cell_eq place := by
    rw [Tape.cellAt_write, ← h.cell_eq, h.pointer_eq]
    simp [FullTape.write, Vector.getElem_set, eq_comm]

theorem outcome_eq (h : Tracks tape full) (place : Fin size) :
    full.outcome place =
      if (place : Nat) = tape.pointer then .clamped
      else if (place : Nat) < tape.size then .moved
      else .grew := by
  simp only [FullTape.outcome, h.visited_iff, Fin.ext_iff, h.pointer_eq]

/-- The pointer goes where there is a cell. -/
theorem revisit (h : Tracks tape full) {place : Fin size} (hcells : tape'.cells = tape.cells)
    (hbound : tape'.bound = tape.bound) (hpointer : tape'.pointer = place) :
    Tracks tape' (full.moveTo place) where
  bound_eq := hbound.trans h.bound_eq
  pointer_eq := hpointer
  visited_iff other := by
    have hlt : (place : Nat) < tape.size := by
      rw [← hpointer, Tape.size, ← hcells]
      exact tape'.pointer_lt
    rw [Tape.size, hcells, ← Tape.size, ← h.visited_iff, FullTape.moveTo, List.mem_cons]
    constructor
    · rintro (rfl | hvisited)
      · exact (h.visited_iff other).mpr hlt
      · exact hvisited
    · exact .inr
  cell_eq other := by
    rw [Tape.cellAt, hcells]
    exact h.cell_eq other

/-- The pointer goes onto a new cell, which is the next one. -/
theorem discover (h : Tracks tape full) {place : Fin size}
    (hcells : tape'.cells = tape.cells.push 0) (hbound : tape'.bound = tape.bound)
    (hpointer : tape'.pointer = place) (hplace : (place : Nat) = tape.size) :
    Tracks tape' (full.moveTo place) where
  bound_eq := hbound.trans h.bound_eq
  pointer_eq := hpointer
  visited_iff other := by
    rw [Tape.size, hcells, Array.size_push, ← Tape.size, FullTape.moveTo, List.mem_cons,
      h.visited_iff, Fin.ext_iff]
    omega
  cell_eq other := by
    rw [Tape.cellAt_of_push hcells]
    exact h.cell_eq other

theorem right (h : Tracks tape full) :
    (tape.obey .right).1 = (full.obey .right).1 ∧
      Tracks (tape.obey .right).2 (full.obey .right).2 := by
  have hbound := h.bound_eq
  have hpointer := h.pointer_eq
  have hlt : tape.pointer < tape.size := tape.pointer_lt
  have hplace : (full.clamp (full.pointer + 1) : Nat) =
      if tape.pointer + 1 = tape.bound then tape.pointer else tape.pointer + 1 := by
    simp only [FullTape.clamp]
    split <;> omega
  simp only [Tape.obey, FullTape.obey, h.outcome_eq, Answer.move.injEq]
  -- The clamp asks for the bound only. That the growing tape also asks whether there is a cell yet
  -- is answered by what the full one has visited.
  by_cases hroom : tape.pointer + 1 = tape.bound
  · rw [if_pos hroom] at hplace
    rw [Tape.right_of_eq_bound hroom, if_pos hplace]
    exact ⟨rfl, h.revisit rfl rfl hplace.symm⟩
  · rw [if_neg hroom] at hplace
    rw [if_neg (by omega), hplace]
    by_cases hlast : tape.pointer + 1 = tape.size
    · obtain ⟨hmove, hcells, hnext⟩ := Tape.right_of_eq_size hroom hlast
      rw [if_neg (by omega)]
      exact ⟨hmove, h.discover hcells (Tape.right_bound tape) (hnext.trans hplace.symm)
        (hplace.trans hlast)⟩
    · obtain ⟨hmove, hcells, hnext⟩ := Tape.right_of_ne_size hroom hlast
      rw [if_pos (by omega)]
      exact ⟨hmove, h.revisit hcells (Tape.right_bound tape) (hnext.trans hplace.symm)⟩

theorem left (h : Tracks tape full) :
    (tape.obey .left).1 = (full.obey .left).1 ∧
      Tracks (tape.obey .left).2 (full.obey .left).2 := by
  have hpointer := h.pointer_eq
  have hlt : tape.pointer < tape.size := tape.pointer_lt
  have hplace : (full.clamp (full.pointer - 1) : Nat) = tape.pointer - 1 := by
    simp only [FullTape.clamp]
    omega
  simp only [Tape.obey, FullTape.obey, h.outcome_eq, Answer.move.injEq, hplace]
  by_cases hzero : tape.pointer = 0
  · rw [Tape.left_of_eq_zero hzero, if_pos (by omega)]
    exact ⟨rfl, h.revisit rfl rfl (show tape.pointer = _ by omega)⟩
  · obtain ⟨hmove, hcells, hnext⟩ := Tape.left_of_ne_zero hzero
    rw [if_neg (by omega), if_pos (by omega)]
    exact ⟨hmove, h.revisit hcells (Tape.left_bound tape) (hnext.trans hplace.symm)⟩

/-- One command is answered alike and leaves the tapes alike. -/
theorem obey (h : Tracks tape full) (command : Command) :
    (tape.obey command).1 = (full.obey command).1 ∧
      Tracks (tape.obey command).2 (full.obey command).2 := by
  cases command with
  | right => exact h.right
  | left => exact h.left
  | increment =>
      refine ⟨rfl, ?_⟩
      simp only [Tape.obey, FullTape.obey, Tape.increment, h.current_eq]
      exact h.write _
  | decrement =>
      refine ⟨rfl, ?_⟩
      simp only [Tape.obey, FullTape.obey, Tape.decrement, h.current_eq]
      exact h.write _
  | write value => exact ⟨rfl, h.write value⟩
  | read => exact ⟨congrArg Answer.value h.current_eq, h⟩

theorem after (h : Tracks tape full) (commands : List Command) :
    Command.answers Tape.obey tape commands = Command.answers FullTape.obey full commands ∧
      Tracks (Command.after Tape.obey tape commands)
        (Command.after FullTape.obey full commands) := by
  induction commands generalizing tape full with
  | nil => exact ⟨rfl, h⟩
  | cons command commands ih =>
      obtain ⟨hanswer, hnext⟩ := h.obey command
      obtain ⟨hanswers, hlast⟩ := ih hnext
      exact ⟨congrArg₂ List.cons hanswer hanswers, hlast⟩

/-- The last cell is the farthest place that was visited. -/
theorem exists_isGreatest (h : Tracks tape full) :
    ∃ highest, IsGreatest {place | place ∈ full.visited} highest ∧
      (highest : Nat) + 1 = tape.size := by
  have hlt : tape.pointer < tape.size := tape.pointer_lt
  have hle : tape.size ≤ tape.bound := tape.size_le
  have hbound := h.bound_eq
  refine ⟨⟨tape.size - 1, by omega⟩, ⟨?_, ?_⟩, Nat.sub_add_cancel (by omega)⟩
  · exact (h.visited_iff _).mpr (Nat.sub_lt (by omega) Nat.one_pos)
  · intro place hvisited
    exact Nat.le_sub_one_of_lt ((h.visited_iff place).mp hvisited)

theorem cells_eq (h : Tracks tape full) :
    tape.cells.toList = full.cells.toList.take tape.size := by
  have hle := tape.size_le
  have hbound := h.bound_eq
  apply List.ext_getElem
  · simp only [Array.length_toList, List.length_take, Vector.length_toList, Tape.size]
    omega
  · intro position hposition hposition'
    have hlt : position < tape.cells.size := by simpa using hposition
    have hcell := h.cell_eq ⟨position, by omega⟩
    simp only [Tape.cellAt, Array.getElem?_eq_getElem hlt, Option.getD_some] at hcell
    simpa using hcell.symm

end Tracks

theorem Tape.size_le_obey (tape : Tape) (command : Command) :
    tape.size ≤ (tape.obey command).2.size := by
  cases command with
  | right => exact tape.size_le_right
  | _ => simp [obey]

theorem Tape.size_le_after (tape : Tape) (commands : List Command) :
    tape.size ≤ (Command.after obey tape commands).size := by
  induction commands generalizing tape with
  | nil => exact Nat.le_refl _
  | cons command commands ih => exact Nat.le_trans (tape.size_le_obey command) (ih _)

/-- A tape that grows as it is used is one that was full from the start. To any commands it gives
the answers of a full tape of zero cells, a move being refused exactly where that tape's pointer
stays and growing exactly where it comes to a new place. At every moment the two have the same
pointer and the same current cell, and the growing tape has the cells of the full one up to the
farthest place visited; it never loses a cell, and never has more than its bound, which stays. -/
theorem Tape.answers_eq_full (bound : Nat) (commands : List Command) :
    let tape := Command.after obey (blank bound) commands
    let full := Command.after FullTape.obey (FullTape.blank bound) commands
    Command.answers obey (blank bound) commands =
        Command.answers FullTape.obey (FullTape.blank bound) commands ∧
      tape.pointer = full.pointer ∧ tape.current = full.current ∧
      (∃ highest, IsGreatest {place | place ∈ full.visited} highest ∧
        tape.cells.toList = full.cells.toList.take (highest + 1)) ∧
      1 ≤ tape.pointer + 1 ∧ tape.pointer + 1 ≤ tape.size ∧ tape.size ≤ max bound 1 ∧
      (∀ more, tape.size ≤ (Command.after obey (blank bound) (commands ++ more)).size) ∧
      tape.bound = max bound 1 := by
  intro tape full
  obtain ⟨hanswers, htracks⟩ := (Tracks.blank bound).after commands
  obtain ⟨highest, hgreatest, hsize⟩ := htracks.exists_isGreatest
  refine ⟨hanswers, htracks.pointer_eq, htracks.current_eq, ⟨highest, hgreatest, ?_⟩,
    Nat.le_add_left 1 _, tape.pointer_lt, ?_, fun more => ?_, htracks.bound_eq⟩
  · rw [hsize]
    exact htracks.cells_eq
  · rw [← htracks.bound_eq]
    exact tape.size_le
  · rw [Command.after_append]
    exact size_le_after tape more

end ByteTape
