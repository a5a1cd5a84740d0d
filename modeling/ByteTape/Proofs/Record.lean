import ByteTape.Event
import ByteTape.Proofs.Text.Decimal

/-!
# Records

An event stands in a log as a record: a message and fields, each with a name and a text. Whoever has
the log has nothing else of the event, so what it says of a machine is read from these texts, a
field by its name. `names` tells for each message which fields a record has.
-/

namespace ByteTape

/-- An event as it stands in a log. -/
structure Record where
  message : String
  fields : List (String × String)
  deriving DecidableEq, Repr

namespace Record

/-- The text of a field. -/
def field? (record : Record) (name : String) : Option String := record.fields.lookup name

/-- The number that a field shows. -/
def number? (record : Record) (name : String) : Option Nat :=
  (record.field? name).bind Text.natural?

/-- The value of a cell that a field shows. -/
def byte? (record : Record) (name : String) : Option UInt8 :=
  ((record.number? name).filter (· < UInt8.size)).map Nat.toUInt8

theorem number?_eq {record : Record} {name : String} {number : Nat}
    (h : record.field? name = some (toString number)) : record.number? name = some number := by
  rw [number?, h, Option.bind_some, Text.natural?_toString]

theorem byte?_eq {record : Record} {name : String} {value : UInt8}
    (h : record.field? name = some (toString value)) : record.byte? name = some value := by
  have hvalue : record.number? name = some value.toNat := number?_eq h
  simp [byte?, hvalue, Option.filter, value.toNat_lt]

/-- The names of the fields that come with a message, in order. -/
def names : (message : String) → List String
  | "move_right refused at tape bound" => ["at", "ptr", "max_cells"]
  | "move_left attempted past start of tape" => ["at"]
  | "tape grew" => ["len"]
  | "move_right" => ["ptr", "val"]
  | "move_left" => ["ptr", "val"]
  | "increment_cell" => ["cell", "from", "to"]
  | "decrement_cell" => ["cell", "from", "to"]
  | "output" => ["cell", "val", "ascii"]
  | "input" => ["cell", "val"]
  | "input exhausted, cell unchanged" => ["cell"]
  | "loop_start: enter" => ["start", "val", "depth"]
  | "loop_start: skip" => ["start", "finish", "val", "depth"]
  | "loop_end: exit" => ["end", "depth"]
  | "loop_end: jump back" => ["start", "finish", "val", "depth"]
  | "program finished" => ["instructions", "pointer", "tape_len"]
  | _ => []

end Record

namespace Event

/-- What of an event stands in a log. -/
def record (event : Event) : Record := ⟨event.message, event.fields⟩

@[simp] theorem record_message (event : Event) : event.record.message = event.message := rfl

@[simp] theorem record_fields (event : Event) : event.record.fields = event.fields := rfl

/-- An event has the fields that come with its message. -/
@[simp] theorem names_message (event : Event) :
    Record.names event.message = event.fields.map Prod.fst := by
  cases event <;> rfl

end Event

end ByteTape
