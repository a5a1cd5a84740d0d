import ByteTape.Cli.ValuePattern
import ByteTape.Level
import ByteTape.Text.Blank
import ByteTape.Text.Decimal

/-!
# Log directives

A directive gives a threshold to some of the log lines: to those whose target begins with its own,
that carry the field it names, or that are logged within the span it names. It is written as one of

* `level` or `target`, which asks for everything;
* `target[span{field=pattern}]=level`, where every part but the brackets may be missing, and the
  brackets too if there is a target.

Levels are named in any case, or numbered from `0`, which is `off`, to `5`. A directive without a
level asks for everything.

Blanks around a directive do not count when its marks, the brackets, braces and equals sign, are
looked for. But its parts are then taken from the text as it was given, at the byte offsets at which
they were found: blanks in front shift every part, and blanks behind belong to the last one. A part
that would begin or end inside a character makes the directive unreadable.
-/

namespace ByteTape

namespace Cli

/-- What a directive asks of the fields of a line. -/
structure FieldCondition where
  name : String
  /-- The form the value must have, if any will not do. -/
  pattern : Option String
  deriving DecidableEq, Repr

/-- A threshold, and the lines it is for. -/
structure Directive where
  target : Option String := none
  span : Option String := none
  field : Option FieldCondition := none
  /-- The rank of the least important level shown; `0` shows nothing. -/
  threshold : Nat := Level.trace.rank
  deriving DecidableEq, Repr

namespace Directive

/-- The threshold a level's name or number stands for. -/
def threshold? (text : String) : Option Nat :=
  match Text.natural? text with
  | some number => if number ≤ Level.trace.rank then some number else none
  | none =>
      match String.ofList (text.toList.map Char.toLower) with
      | "off" => some 0
      | "error" => some Level.error.rank
      | "warn" => some Level.warn.rank
      | "info" => some Level.info.rank
      | "debug" => some Level.debug.rank
      | "trace" => some Level.trace.rank
      | _ => none

/-- Whether a target can begin with a character. -/
def canBegin (c : Char) : Bool := Text.isAlphanumeric c || c == '-' || c == ':' || c == '_'

/-- Divides a text at a byte offset, unless that is inside a character or behind the text. -/
def divideAt? : (offset : Nat) → List Char → Option (List Char × List Char)
  | 0, text => some ([], text)
  | _ + 1, [] => none
  | offset + 1, c :: rest =>
      if c.utf8Size ≤ offset + 1 then
        (divideAt? (offset + 1 - c.utf8Size) rest).map fun (front, back) => (c :: front, back)
      else
        none

/-- The part of a text from one byte offset to another. -/
def part? (text : List Char) (start stop : Nat) : Option (List Char) := do
  let (_, rest) ← divideAt? start text
  let (part, _) ← divideAt? (stop - start) rest
  return part

/-- The part of a text from a byte offset to the end. -/
def partFrom? (text : List Char) (start : Nat) : Option (List Char) :=
  (divideAt? start text).map Prod.snd

/-- The first of some marks in the rest of a text that begins at `offset`: its own offset, the mark,
and what follows it. -/
def nextMark? (marks : List Char) (offset : Nat) : List Char → Option (Nat × Char × List Char)
  | [] => none
  | c :: rest =>
      if marks.contains c then some (offset, c, rest)
      else nextMark? marks (offset + c.utf8Size) rest

/-- Reads a field condition: a name, and behind an equals sign a pattern. A second equals sign and
what follows it do not count. -/
def fieldCondition? (text : List Char) : Option FieldCondition :=
  match text.span (· != '=') with
  | ([], []) => none
  | (name, []) => some ⟨String.ofList name, none⟩
  | (name, _ :: rest) =>
      let pattern := rest.takeWhile (· != '=')
      if ValuePattern.isWellFormed pattern then
        some ⟨String.ofList name, some (String.ofList pattern)⟩
      else
        none

/-- Reads what follows the other parts of a directive: nothing, or at `offset` an equals sign and
behind it a level. -/
def withLevel? (text : List Char) (directive : Directive) (offset : Nat) :
    List Char → Option Directive
  | [] => some directive
  | '=' :: _ => do
      let level ← partFrom? text (offset + 1)
      let threshold ←
        if level.isEmpty then some Level.trace.rank else threshold? (String.ofList level)
      return { directive with threshold }
  | _ => none

/-- Reads what follows an opening bracket and begins at `offset`. -/
def withBrackets? (text : List Char) (directive : Directive) (offset : Nat) (rest : List Char) :
    Option Directive :=
  match nextMark? ['\x7b', ']'] offset rest with
  | none => none
  | some (stop, ']', rest) => do
      let span ← part? text offset stop
      withLevel? text { directive with span := some (String.ofList span) } (stop + 1) rest
  | some (stop, _, rest) =>
      match nextMark? ['\x7d'] (stop + 1) rest with
      | some (last, _, ']' :: rest) => do
          let span ← part? text offset stop
          let field ← fieldCondition? (← part? text (stop + 1) last)
          let span? := if span.isEmpty then none else some (String.ofList span)
          withLevel? text { directive with span := span?, field := some field } (last + 2) rest
      | _ => none

/-- Reads a directive. -/
def parse? (text : String) : Option Directive :=
  let given := text.toList
  match Text.trim given with
  | [] => none
  | '[' :: rest => withBrackets? given {} 1 rest
  | c :: rest =>
      if canBegin c then
        match nextMark? ['=', '['] 0 (c :: rest) with
        | none =>
            match threshold? text with
            | some threshold => some { threshold }
            | none => some { target := some text }
        | some (stop, mark, rest) => do
            let target ← part? given 0 stop
            let directive : Directive := { target := some (String.ofList target) }
            if mark = '[' then withBrackets? given directive (stop + 1) rest
            else withLevel? given directive stop (mark :: rest)
      else
        none

end Directive

end Cli

end ByteTape
