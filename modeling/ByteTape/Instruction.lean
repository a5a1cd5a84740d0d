/-!
# Instructions

Eight bytes of a program text are instructions and every other byte is a comment. `ofByte?` reads
one byte, `toByte` writes it back, and `ofBytes` is the list of instructions that remains of a text
once its comments are dropped. `ofByte?_eq_some_iff` says that reading and writing are inverse, so
an instruction is the same thing as its byte.
-/

namespace ByteTape

/-- What a program can ask of the machine, one instruction per byte. -/
inductive Instruction where
  | right
  | left
  | increment
  | decrement
  | output
  | input
  | loopStart
  | loopEnd
  deriving DecidableEq, Repr

namespace Instruction

/-- The byte an instruction is written as: `>`, `<`, `+`, `-`, `.`, `,`, `[` and `]`. -/
def toByte : Instruction → UInt8
  | right => 0x3e
  | left => 0x3c
  | increment => 0x2b
  | decrement => 0x2d
  | output => 0x2e
  | input => 0x2c
  | loopStart => 0x5b
  | loopEnd => 0x5d

/-- The instruction a byte stands for; a comment stands for none. -/
def ofByte? (byte : UInt8) : Option Instruction :=
  match byte with
  | 0x3e => some right
  | 0x3c => some left
  | 0x2b => some increment
  | 0x2d => some decrement
  | 0x2e => some output
  | 0x2c => some input
  | 0x5b => some loopStart
  | 0x5d => some loopEnd
  | _ => none

/-- Whether a byte is an instruction rather than a comment. -/
def isInstruction (byte : UInt8) : Bool := (ofByte? byte).isSome

/-- The name under which an instruction appears in reports and prompts. -/
def mnemonic : Instruction → String
  | right => "move_right"
  | left => "move_left"
  | increment => "increment_cell"
  | decrement => "decrement_cell"
  | output => "output"
  | input => "input"
  | loopStart => "loop_start"
  | loopEnd => "loop_end"

/-- The instructions of a text in order, its comments dropped. -/
def ofBytes (text : List UInt8) : List Instruction := text.filterMap ofByte?

@[simp] theorem ofByte?_toByte (i : Instruction) : ofByte? i.toByte = some i := by
  cases i <;> rfl

/-- A byte reads as an instruction exactly when that instruction is written as the byte. -/
theorem ofByte?_eq_some_iff (b : UInt8) (i : Instruction) :
    ofByte? b = some i ↔ b = i.toByte := by
  constructor
  · intro h
    unfold ofByte? at h
    split at h <;> simp_all [toByte]
    all_goals subst h; rfl
  · rintro rfl
    exact ofByte?_toByte i

@[simp] theorem ofBytes_nil : ofBytes [] = [] := rfl

theorem ofBytes_append (t u : List UInt8) : ofBytes (t ++ u) = ofBytes t ++ ofBytes u := by
  simp [ofBytes, List.filterMap_append]

@[simp] theorem ofBytes_map_toByte (is : List Instruction) : ofBytes (is.map toByte) = is := by
  induction is with
  | nil => rfl
  | cons i is ih =>
      rw [List.map_cons, ofBytes, List.filterMap_cons_some (ofByte?_toByte i)]
      exact congrArg (i :: ·) ih

end Instruction

end ByteTape
