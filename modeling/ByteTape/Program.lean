import ByteTape.Bracket.Balance
import ByteTape.Error
import ByteTape.Source

/-!
# Programs

A program is a text whose brackets pair up. The check is made once, when the program is built, and
its outcome is part of the type: whoever holds a `Program` holds a balanced text.
-/

namespace ByteTape

/-- A balanced program text. -/
structure Program where
  code : Array UInt8
  balanced : Bracket.firstUnmatched? code.toList = none

namespace Program

/-- A text as a program, unless a bracket of it has no partner. -/
def ofText (text : List UInt8) : Except Error Program :=
  match h : Bracket.firstUnmatched? text with
  | none => .ok ⟨text.toArray, by simpa using h⟩
  | some unmatched => .error (.malformed unmatched)

/-- What was read from a file as a program; a file that cannot be read is reported with its
path. -/
def ofFile (path : List UInt8) (contents : Except String (List UInt8)) : Except Error Program :=
  match contents with
  | .ok text => ofText text
  | .error cause => .error (.load path cause)

/-- Takes a line from a source as a program. What follows the line stays in the source, whether or
not the line is a program. -/
def takeLine (source : Source) : Except Error Program × Source :=
  match source.takeLine with
  | (.ok line, rest) => (ofText line.text, rest)
  | (.error cause, rest) => (.error (.io cause), rest)

/-- The text of a program. -/
def text (program : Program) : List UInt8 := program.code.toList

/-- The length of a program's text, comments included. -/
def size (program : Program) : Nat := program.code.size

/-- How many bytes of a program are instructions. -/
def instructionCount (program : Program) : Nat := program.code.countP Instruction.isInstruction

theorem ofText_eq_ok_iff (text : List UInt8) (program : Program) :
    ofText text = .ok program ↔ program.text = text := by
  unfold ofText
  split
  · rename_i h
    constructor
    · rintro ⟨⟩
      simp [Program.text]
    · rintro rfl
      simp [Program.text]
  · rename_i unmatched h
    constructor
    · rintro ⟨⟩
    · rintro rfl
      exact absurd program.balanced (by simpa [Program.text] using h ▸ Option.some_ne_none _)

theorem ofText_eq_error_iff (text : List UInt8) (error : Error) :
    ofText text = .error error ↔
      ∃ unmatched, Bracket.firstUnmatched? text = some unmatched ∧
        error = .malformed unmatched := by
  unfold ofText
  split
  · rename_i h
    simp [h]
  · rename_i unmatched h
    simp [h, eq_comm]

end Program

end ByteTape
