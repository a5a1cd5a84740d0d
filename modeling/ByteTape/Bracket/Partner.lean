import ByteTape.Bracket

/-!
# Partners

The partner of a bracket is found by walking away from it and counting the loops entered on the
way. `findClosing code depth position` walks right from `position` with `depth` inner loops still
open and stops at the first `]` met with none open; `findOpening` walks left in the same way.
`partnerAfter` and `partnerBefore` start these walks next to a bracket and name that bracket when
the walk leaves the text.
-/

namespace ByteTape

namespace Bracket

/-- The bracket that stands at a position of a text, if one does. -/
def at? (code : Array UInt8) (position : Nat) : Option Bracket :=
  code[position]?.bind ofByte?

/-- The first `]` from `position` on that closes a loop opened before it, when `depth` loops that
were opened after that one are still open. -/
def findClosing (code : Array UInt8) (depth position : Nat) : Option Nat :=
  if position < code.size then
    match at? code position, depth with
    | some .closing, 0 => some position
    | some .closing, inner + 1 => findClosing code inner (position + 1)
    | some .opening, _ => findClosing code (depth + 1) (position + 1)
    | none, _ => findClosing code depth (position + 1)
  else
    none
termination_by code.size - position

/-- The last `[` below `position` that opens a loop closed after it, when `depth` loops that were
closed before that one are still to be opened. -/
def findOpening (code : Array UInt8) (depth : Nat) : (position : Nat) → Option Nat
  | 0 => none
  | position + 1 =>
      match at? code position, depth with
      | some .opening, 0 => some position
      | some .opening, inner + 1 => findOpening code inner position
      | some .closing, _ => findOpening code (depth + 1) position
      | none, _ => findOpening code depth position

/-- The position of the `]` that closes the `[` at `start`. There is none when no `[` stands at
`start` or its loop is never closed; the answer then names `start` as an unmatched `[`. -/
def partnerAfter (code : Array UInt8) (start : Nat) : Except Unmatched Nat :=
  match at? code start with
  | some .opening =>
      match findClosing code 0 (start + 1) with
      | some position => .ok position
      | none => .error ⟨.opening, start⟩
  | _ => .error ⟨.opening, start⟩

/-- The position of the `[` that opens the loop closed by the `]` at `start`. There is none when
no `]` stands at `start` or its loop is never opened; the answer then names `start` as an
unmatched `]`. -/
def partnerBefore (code : Array UInt8) (start : Nat) : Except Unmatched Nat :=
  match at? code start with
  | some .closing =>
      match findOpening code 0 start with
      | some position => .ok position
      | none => .error ⟨.closing, start⟩
  | _ => .error ⟨.closing, start⟩

end Bracket

end ByteTape
