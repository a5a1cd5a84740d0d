import ByteTape.Cli.Directive
import ByteTape.Cli.LogLine

/-!
# Log filters

A log filter says which log lines are shown. It is a list of directives, written with commas
between them. Of the directives that apply to a line the most specific one decides: the one with the
longest target, and of those with the same target the one that names the field last in order, or any
field rather than none. Of two directives for the same target and field the later one counts. A
line is shown if its level reaches the threshold of that directive, and not at all if no directive
applies.

A directive that names a span, or asks for the value of a field, is about lines that are logged
within a span. This program has no spans, so such a directive never applies.
-/

namespace ByteTape

namespace Cli

/-- Directives in the order in which they are given. -/
abbrev LogFilter := List Directive

namespace Directive

/-- Whether a directive is about lines within a span. -/
def needsSpan (directive : Directive) : Bool :=
  directive.span.isSome || directive.field.any (·.pattern.isSome)

/-- Whether a directive applies to a line. -/
def appliesTo (directive : Directive) (line : LogLine) : Bool :=
  !directive.needsSpan &&
    directive.target.all (fun target => target.toList.isPrefixOf line.target.toList) &&
    directive.field.all (fun field => line.fields.contains field.name)

/-- How much of a target a directive speaks of. -/
def reach (directive : Directive) : Nat :=
  match directive.target with
  | none => 0
  | some target => target.utf8ByteSize + 1

/-- Whether a directive gives way to one that comes later, where both apply. -/
def yieldsTo (earlier later : Directive) : Bool :=
  earlier.reach < later.reach ||
    (earlier.reach == later.reach &&
      match earlier.field, later.field with
      | none, _ => true
      | some _, none => false
      | some earlier, some later => !(decide (later.name < earlier.name)))

end Directive

namespace LogFilter

/-- The filter with one threshold for all lines. -/
def ofLevel (level : Level) : LogFilter := [{ threshold := level.rank }]

/-- Reads a filter. One bad directive spoils it; without any directive it shows errors. -/
def parse? (text : String) : Option LogFilter :=
  match ((text.splitOn ",").filter (!·.isEmpty)).mapM Directive.parse? with
  | some [] => some (ofLevel .error)
  | filter => filter

/-- The directive that decides on a line. -/
def decisive? (filter : LogFilter) (line : LogLine) : Option Directive :=
  (filter.filter (·.appliesTo line)).foldl (fun best? directive =>
    match best? with
    | none => some directive
    | some best => if best.yieldsTo directive then some directive else some best) none

/-- Whether a line is shown. -/
def shows (filter : LogFilter) (line : LogLine) : Bool :=
  (filter.decisive? line).any fun directive => line.level.rank ≤ directive.threshold

end LogFilter

end Cli

end ByteTape
