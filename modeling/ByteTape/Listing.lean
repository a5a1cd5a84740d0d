import ByteTape.Instruction

/-!
# Listings

A listing shows the instructions of a text without its comments, laid out by nesting. Each bracket
has a line of its own, the instructions between two brackets share one line, and every line is
indented by two blanks per enclosing loop. A `]` that closes nothing stays at the left margin.

The layout is a fold over the instructions: `Draft` holds the finished lines, the depth reached and
the run of plain instructions not yet written out, `Draft.add` takes one instruction and
`Draft.finish` writes out the last run.
-/

namespace ByteTape

namespace Listing

/-- A line of a listing: how many loops enclose it and what it shows. -/
structure Line where
  indent : Nat
  instructions : List Instruction
  deriving DecidableEq, Repr

/-- A listing under construction. -/
structure Draft where
  lines : Array Line := #[]
  depth : Nat := 0
  run : Array Instruction := #[]

namespace Draft

/-- Writes out the run of plain instructions collected so far, if there is one. -/
def finish (draft : Draft) : Draft :=
  if draft.run.isEmpty then draft
  else { draft with lines := draft.lines.push ⟨draft.depth, draft.run.toList⟩, run := #[] }

/-- Takes the next instruction. -/
def add (draft : Draft) : Instruction → Draft
  | .loopStart =>
      let done := draft.finish
      { done with lines := done.lines.push ⟨done.depth, [.loopStart]⟩, depth := done.depth + 1 }
  | .loopEnd =>
      let done := draft.finish
      { done with lines := done.lines.push ⟨done.depth - 1, [.loopEnd]⟩, depth := done.depth - 1 }
  | plain => { draft with run := draft.run.push plain }

end Draft

/-- The lines of the listing of some instructions. -/
def lines (instructions : List Instruction) : List Line :=
  (instructions.foldl Draft.add {}).finish.lines.toList

/-- A line as text, with its indentation and a final newline. -/
def Line.toBytes (line : Line) : List UInt8 :=
  List.replicate (2 * line.indent) 0x20 ++ (line.instructions.map Instruction.toByte ++ [0x0a])

/-- The listing of a program text. -/
def ofText (text : List UInt8) : List UInt8 :=
  (lines (Instruction.ofBytes text)).flatMap Line.toBytes

end Listing

end ByteTape
