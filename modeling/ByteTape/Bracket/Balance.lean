import ByteTape.Bracket

/-!
# Balance

`Balanced` is the language of texts whose brackets pair up, given by its grammar: nothing, a byte
that is no bracket followed by a balanced text, or a loop around a balanced text followed by
another. `firstUnmatched?` decides it in one pass with the stack of the loops still open, and names
the bracket to blame when the text is not balanced: a `]` that closes nothing as soon as it is met,
else the outermost loop that is never closed.
-/

namespace ByteTape

namespace Bracket

/-- Texts in which every bracket has a partner. -/
inductive Balanced : List UInt8 → Prop where
  | nil : Balanced []
  | plain {byte : UInt8} {rest : List UInt8} (h : ofByte? byte = none) (hrest : Balanced rest) :
      Balanced (byte :: rest)
  | loop {body rest : List UInt8} (hbody : Balanced body) (hrest : Balanced rest) :
      Balanced (Instruction.loopStart.toByte :: (body ++ Instruction.loopEnd.toByte :: rest))

/-- The bracket to blame in a text that starts at `position`, when the loops opened before it and
still open start at the positions in `pending`, innermost first. -/
def firstUnmatchedFrom? (pending : List Nat) (position : Nat) :
    List UInt8 → Option Unmatched
  | [] => pending.getLast?.map fun outermost => ⟨.opening, outermost⟩
  | byte :: rest =>
      match ofByte? byte, pending with
      | some .opening, _ => firstUnmatchedFrom? (position :: pending) (position + 1) rest
      | some .closing, [] => some ⟨.closing, position⟩
      | some .closing, _ :: outer => firstUnmatchedFrom? outer (position + 1) rest
      | none, _ => firstUnmatchedFrom? pending (position + 1) rest

/-- The bracket to blame for a text that is not balanced. -/
def firstUnmatched? (text : List UInt8) : Option Unmatched := firstUnmatchedFrom? [] 0 text

end Bracket

end ByteTape
