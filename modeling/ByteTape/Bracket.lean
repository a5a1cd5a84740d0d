import ByteTape.Instruction

/-!
# Brackets

The two loop instructions seen as brackets of the program text. A bracket without a partner is
described by `Unmatched`: which bracket it is and where it stands.
-/

namespace ByteTape

/-- One of the two loop instructions: `[` opens a loop and `]` closes it. -/
inductive Bracket where
  | opening
  | closing
  deriving DecidableEq, Repr

namespace Bracket

/-- The character a bracket is written as. -/
def symbol : Bracket → Char
  | opening => '['
  | closing => ']'

def toInstruction : Bracket → Instruction
  | opening => .loopStart
  | closing => .loopEnd

/-- The bracket an instruction is, if it is one. -/
def ofInstruction? : Instruction → Option Bracket
  | .loopStart => some opening
  | .loopEnd => some closing
  | _ => none

/-- The bracket a byte stands for, if it stands for one. -/
def ofByte? (byte : UInt8) : Option Bracket :=
  (Instruction.ofByte? byte).bind ofInstruction?

theorem ofInstruction?_eq_some_iff (i : Instruction) (b : Bracket) :
    ofInstruction? i = some b ↔ i = b.toInstruction := by
  cases i <;> cases b <;> simp [ofInstruction?, toInstruction]

end Bracket

/-- A bracket of a text that has no partner there. -/
structure Unmatched where
  bracket : Bracket
  position : Nat
  deriving DecidableEq, Repr

end ByteTape
