import ByteTape.Event
import ByteTape.Text.Decimal

/-!
# Log lines

What can be logged, as the log filter sees it: how important it is, where it comes from, and which
fields it carries. The text of a line is itself a field, named `message`.
-/

namespace ByteTape

namespace Cli

/-- A line for the log. -/
structure LogLine where
  level : Level
  /-- The part of the program that tells it. -/
  target : String
  text : String
  /-- The names of the fields the line carries. -/
  fields : List String
  deriving DecidableEq, Repr

namespace LogLine

/-- What the machine tells. -/
def ofEvent (event : Event) : LogLine where
  level := event.level
  target := "bfvm::vm"
  text := event.text
  fields := "message" :: event.fields.map Prod.fst

/-- A warning of the session. -/
def warning (text : String) : LogLine where
  level := .warn
  target := "bfvm"
  text := text
  fields := ["message"]

/-- A line as it is shown. -/
def render (line : LogLine) : String :=
  Text.padLeft 5 line.level.name ++ " " ++ line.target ++ ": " ++ line.text ++ "\n"

end LogLine

end Cli

end ByteTape
