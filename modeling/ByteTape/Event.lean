import ByteTape.Level
import ByteTape.Text.Escape

/-!
# Events

What a machine has to tell about its work. Refused moves, the growth of the tape and the end of a
run are told at level `debug`, every other operation at level `trace`. An event shows as its
message followed by its fields, each as `name=value`.
-/

namespace ByteTape

/-- Something a machine did. Positions are positions in the program, cells are cell numbers. -/
inductive Event where
  /-- A move to the right was refused at the bound of the tape. -/
  | rightRefused (position pointer bound : Nat)
  /-- A move to the left was refused at the first cell. -/
  | leftRefused (position : Nat)
  /-- The tape has a new cell, which makes `size` of them. -/
  | grew (size : Nat)
  | movedRight (pointer : Nat) (value : UInt8)
  | movedLeft (pointer : Nat) (value : UInt8)
  | incremented (cell : Nat) (before after : UInt8)
  | decremented (cell : Nat) (before after : UInt8)
  /-- A cell was put out. -/
  | putOut (cell : Nat) (value : UInt8)
  /-- A byte was read into a cell. -/
  | readIn (cell : Nat) (value : UInt8)
  /-- There was no byte to read, so the cell keeps its value. -/
  | inputExhausted (cell : Nat)
  | loopEntered (start : Nat) (value : UInt8) (depth : Nat)
  /-- The loop at `start` was passed over; the next position is `finish`. -/
  | loopSkipped (start finish : Nat) (value : UInt8) (depth : Nat)
  /-- The loop closed at `position` is done. -/
  | loopLeft (position depth : Nat)
  /-- The loop closed at `start` goes round again from its `[` at `finish`. -/
  | loopRepeated (start finish : Nat) (value : UInt8) (depth : Nat)
  /-- The run came to the end of the program. -/
  | finished (executed pointer size : Nat)
  deriving DecidableEq, Repr

namespace Event

def level : Event → Level
  | rightRefused .. => .debug
  | leftRefused .. => .debug
  | grew .. => .debug
  | finished .. => .debug
  | _ => .trace

def message : Event → String
  | rightRefused .. => "move_right refused at tape bound"
  | leftRefused .. => "move_left attempted past start of tape"
  | grew .. => "tape grew"
  | movedRight .. => "move_right"
  | movedLeft .. => "move_left"
  | incremented .. => "increment_cell"
  | decremented .. => "decrement_cell"
  | putOut .. => "output"
  | readIn .. => "input"
  | inputExhausted .. => "input exhausted, cell unchanged"
  | loopEntered .. => "loop_start: enter"
  | loopSkipped .. => "loop_start: skip"
  | loopLeft .. => "loop_end: exit"
  | loopRepeated .. => "loop_end: jump back"
  | finished .. => "program finished"

/-- The fields of an event as they are shown, in order. -/
def fields : Event → List (String × String)
  | rightRefused position pointer bound =>
      [("at", toString position), ("ptr", toString pointer), ("max_cells", toString bound)]
  | leftRefused position => [("at", toString position)]
  | grew size => [("len", toString size)]
  | movedRight pointer value => [("ptr", toString pointer), ("val", toString value)]
  | movedLeft pointer value => [("ptr", toString pointer), ("val", toString value)]
  | incremented cell before after =>
      [("cell", toString cell), ("from", toString before), ("to", toString after)]
  | decremented cell before after =>
      [("cell", toString cell), ("from", toString before), ("to", toString after)]
  | putOut cell value =>
      [("cell", toString cell), ("val", toString value), ("ascii", Text.escape value)]
  | readIn cell value => [("cell", toString cell), ("val", toString value)]
  | inputExhausted cell => [("cell", toString cell)]
  | loopEntered start value depth =>
      [("start", toString start), ("val", toString value), ("depth", toString depth)]
  | loopSkipped start finish value depth =>
      [("start", toString start), ("finish", toString finish), ("val", toString value),
        ("depth", toString depth)]
  | loopLeft position depth => [("end", toString position), ("depth", toString depth)]
  | loopRepeated start finish value depth =>
      [("start", toString start), ("finish", toString finish), ("val", toString value),
        ("depth", toString depth)]
  | finished executed pointer size =>
      [("instructions", toString executed), ("pointer", toString pointer),
        ("tape_len", toString size)]

/-- The message of an event and its fields on one line. -/
def text (event : Event) : String :=
  event.fields.foldl (fun line field => line ++ " " ++ field.1 ++ "=" ++ field.2) event.message

/-- Whether a machine tells of an event: of a trace event only if it is verbose. -/
def isTold (verbose : Bool) (event : Event) : Bool := verbose || event.level != .trace

end Event

end ByteTape
