import ByteTape.Cli.ValuePattern.Expression
import ByteTape.Text.Alphanumeric
import ByteTape.Text.Blank

/-!
# Reading an expression

`expression?` reads a regular expression up to the end of the text or to a parenthesis that closes a
group around it. Each reader takes what is left of the text and gives what it read with what is
left then, or nothing if the text is not well formed.

Where the flag `ignoreSpace` is on, which the readers are told as `spaced`, blanks and comments do
not count. A comment goes from a number sign to the end of its line.

A repetition with bounds is never read, nor a character in braces: a directive has no room for the
closing brace.
-/

namespace ByteTape

namespace Cli

namespace ValuePattern

/-- A text without the blanks and comments in front. `inComment` says that it begins inside of a
comment. -/
def dropSpace (inComment : Bool) : List Char → List Char
  | [] => []
  | c :: rest =>
      if inComment then dropSpace (c != '\n') rest
      else if c == '#' then dropSpace true rest
      else if Text.isBlank c then dropSpace false rest
      else c :: rest

/-- A text without the blanks and comments in front, if these do not count. -/
def skipSpace (spaced : Bool) (text : List Char) : List Char :=
  if spaced then dropSpace false text else text

/-- The value of a hexadecimal digit. -/
def hexDigit? (c : Char) : Option Nat :=
  if c.isDigit then some (c.toNat - '0'.toNat)
  else if 'a' ≤ c ∧ c ≤ 'f' then some (c.toNat - 'a'.toNat + 10)
  else if 'A' ≤ c ∧ c ≤ 'F' then some (c.toNat - 'A'.toNat + 10)
  else none

/-- Reads the character whose code point is given in `count` hexadecimal digits, continuing a
number that amounts to `value` so far. -/
def hexChar? (spaced : Bool) : (count value : Nat) → List Char → Option (Char × List Char)
  | 0, value, rest => if value.isValidChar then some (Char.ofNat value, rest) else none
  | count + 1, value, text =>
      match skipSpace spaced text with
      | [] => none
      | c :: rest =>
          (hexDigit? c).bind fun digit => hexChar? spaced count (value * 16 + digit) rest

/-- Whether a backslash takes the special meaning from a character: those of ASCII that are neither
letters nor digits nor angle brackets. -/
def isEscapable (c : Char) : Bool := isAscii c && !c.isAlphanum && c != '<' && c != '>'

/-- Reads what follows a backslash. -/
def escape? (spaced : Bool) : List Char → Option (Expression × List Char)
  | [] => none
  | 'x' :: rest => (hexChar? spaced 2 0 rest).map fun (c, rest) => (.char c true, rest)
  | 'u' :: rest => (hexChar? spaced 4 0 rest).map fun (c, rest) => (.char c false, rest)
  | 'U' :: rest => (hexChar? spaced 8 0 rest).map fun (c, rest) => (.char c false, rest)
  | c :: rest =>
      match c with
      | 'a' => some (.char '\x07' false, rest)
      | 'f' => some (.char '\x0c' false, rest)
      | 't' => some (.char '\t' false, rest)
      | 'n' => some (.char '\n' false, rest)
      | 'r' => some (.char '\r' false, rest)
      | 'v' => some (.char '\x0b' false, rest)
      | 'd' | 's' | 'w' => some (.shorthand false, rest)
      | 'D' | 'S' | 'W' => some (.shorthand true, rest)
      | 'A' | 'z' => some (.textBoundary, rest)
      | 'b' | 'B' | '<' | '>' => some (.wordBoundary, rest)
      | _ => if isEscapable c then some (.char c false, rest) else none

/-! ## Classes -/

/-- Reads a character of a class, or an escape that can stand in one. -/
def classAtom? (spaced : Bool) : List Char → Option (ClassItem × List Char)
  | [] => none
  | '\\' :: rest =>
      match escape? spaced rest with
      | some (.char c _, rest) => some (.char c, rest)
      | some (.shorthand negated, rest) => some (.shorthand negated, rest)
      | _ => none
  | c :: rest => some (.char c, rest)

/-- The character that decides if a hyphen in front of a text makes a range. Blanks are passed over,
and so is the number sign of a comment, but not what the comment says. -/
def afterHyphen? (spaced : Bool) (text : List Char) : Option Char :=
  if spaced then
    match text.dropWhile Text.isBlank with
    | '#' :: rest => (rest.dropWhile Text.isBlank).head?
    | rest => rest.head?
  else
    text.head?

/-- Reads a character, an escape or a range. A hyphen makes no range in front of another hyphen or
of the bracket that closes the class. -/
def classItem? (spaced : Bool) (text : List Char) : Option (ClassItem × List Char) := do
  let (first, rest) ← classAtom? spaced text
  match skipSpace spaced rest with
  | '-' :: rest =>
      let next? := afterHyphen? spaced rest
      if next? = some ']' ∨ next? = some '-' then
        return (first, '-' :: rest)
      else
        let (last, rest) ← classAtom? spaced (skipSpace spaced rest)
        match first, last with
        | .char first, .char last =>
            if first ≤ last then return (.range first last, rest) else none
        | _, _ => none
  | rest => return (first, rest)

/-- The names that a class may have between `[:` and `:]`. -/
def classNames : List String :=
  ["alnum", "alpha", "ascii", "blank", "cntrl", "digit", "graph", "lower", "print", "punct",
    "space", "upper", "word", "xdigit"]

/-- Reads a named class behind its opening bracket. -/
def namedClass? : List Char → Option (ClassItem × List Char)
  | ':' :: rest =>
      let (negated, body) := match rest with
        | '^' :: rest => (true, rest)
        | _ => (false, rest)
      match body.span (· != ':') with
      | (name, ':' :: ']' :: rest) =>
          if classNames.contains (String.ofList name) then some (.named negated, rest) else none
      | _ => none
  | _ => none

/-- Reads the hyphens at the start of a class, which count as themselves. `fuel` bounds their
number. -/
def leadingHyphens (spaced : Bool) : (fuel : Nat) → List Char → List ClassSet × List Char
  | fuel + 1, '-' :: rest =>
      let (hyphens, rest) := leadingHyphens spaced fuel (skipSpace spaced rest)
      (.leaf (.char '-') :: hyphens, rest)
  | _, text => ([], text)

/-- Reads what may stand behind the bracket that opens a class: a caret, which negates it, and then
hyphens or a closing bracket that count as themselves. -/
def classHead (spaced : Bool) (text : List Char) : Bool × List ClassSet × List Char :=
  let text := skipSpace spaced text
  let (negated, text) := match text with
    | '^' :: rest => (true, skipSpace spaced rest)
    | _ => (false, text)
  match text with
  | ']' :: rest => (negated, [.leaf (.char ']')], rest)
  | _ => (negated, leadingHyphens spaced text.length text)

/-- A class from the parts behind its last operator, in reverse, and from what is left of that
operator, if there is one. -/
def closeClass (left? : Option ClassSet) (parts : List ClassSet) : ClassSet :=
  match left? with
  | none => ClassSet.ofParts parts.reverse
  | some left => .operation left (ClassSet.ofParts parts.reverse)

/-- Reads the rest of a class with the bracket that closes it. `left?` is what is left of the last
operator, and `parts` is what was read since, in reverse. `fuel` bounds the number of steps. -/
def classRest? (spaced : Bool) : (fuel : Nat) → (left? : Option ClassSet) →
    (parts : List ClassSet) → List Char → Option (ClassSet × List Char)
  | 0, _, _, _ => none
  | fuel + 1, left?, parts, text =>
      match skipSpace spaced text with
      | [] => none
      | ']' :: rest => some (closeClass left? parts, rest)
      | '[' :: rest =>
          match namedClass? rest with
          | some (item, rest) => classRest? spaced fuel left? (.leaf item :: parts) rest
          | none =>
              let (negated, inner, rest) := classHead spaced rest
              match classRest? spaced fuel none inner rest with
              | some (body, rest) =>
                  classRest? spaced fuel left? (.bracketed negated body :: parts) rest
              | none => none
      | '&' :: '&' :: rest | '-' :: '-' :: rest | '~' :: '~' :: rest =>
          classRest? spaced fuel (some (closeClass left? parts)) [] rest
      | text =>
          match classItem? spaced text with
          | some (item, rest) => classRest? spaced fuel left? (.leaf item :: parts) rest
          | none => none

/-- Reads a bracketed class behind its opening bracket. `fuel` bounds the number of steps. -/
def bracketed? (spaced : Bool) (fuel : Nat) (text : List Char) : Option (ClassSet × List Char) :=
  let (negated, parts, rest) := classHead spaced text
  (classRest? spaced fuel none parts rest).map fun (body, rest) => (.bracketed negated body, rest)

/-! ## Groups -/

/-- What opens with a parenthesis: a group, or flags that hold from there on. -/
inductive Opening where
  | group (name : Option String) (settings : Settings)
  | flags (settings : Settings)
  deriving DecidableEq, Repr

/-- Reads flags up to the colon or the parenthesis behind them. Those in `settings` were met before,
and `negated` says that a minus sign was. -/
def flags? (negated : Bool) (settings : Settings) : List Char → Option (Opening × List Char)
  | [] => none
  | ':' :: rest => some (.group none settings, rest)
  | ')' :: rest => if settings.isEmpty then none else some (.flags settings, rest)
  | '-' :: ':' :: _ | '-' :: ')' :: _ => none
  | '-' :: rest => if negated then none else flags? true settings rest
  | c :: rest =>
      match Flag.ofChar? c with
      | some flag =>
          if (settings.lookup flag).isSome then none
          else flags? negated ((flag, !negated) :: settings) rest
      | none => none

/-- Whether a text can name a group. -/
def isGroupName : List Char → Bool
  | [] => false
  | c :: rest =>
      (c == '_' || Text.isAlphabetic c) &&
        rest.all fun c => ['_', '.', '[', ']'].contains c || Text.isAlphanumeric c

/-- Reads the name of a group, up to its closing angle bracket. -/
def groupName? (text : List Char) : Option (Opening × List Char) :=
  match text.span (· != '>') with
  | (name, _ :: rest) =>
      if isGroupName name then some (.group (some (String.ofList name)) [], rest) else none
  | _ => none

/-- Reads what stands behind an opening parenthesis. -/
def opening? : List Char → Option (Opening × List Char)
  | '?' :: 'P' :: '<' :: rest => groupName? rest
  | '?' :: '<' :: rest => groupName? rest
  | '?' :: rest => flags? false [] rest
  | rest => some (.group none [], rest)

/-! ## Expressions -/

/-- A text without the mark behind a repetition that makes it match as little as it can. -/
def dropLazyMark : List Char → List Char
  | '?' :: rest => rest
  | text => text

/-- An expression from the parts behind the last bar and the branches in front of it, both in
reverse. -/
def closeExpression (branches parts : List Expression) : Expression :=
  Expression.ofBranches (Expression.ofParts parts.reverse :: branches).reverse

/-- Reads the rest of an expression. `branches` holds what stands in front of the last bar, and
`parts` what was read since, both in reverse. `fuel` bounds the number of steps. -/
def expressionRest? : (fuel : Nat) → (spaced : Bool) → (branches parts : List Expression) →
    List Char → Option (Expression × List Char)
  | 0, _, _, _, _ => none
  | fuel + 1, spaced, branches, parts, text =>
      match skipSpace spaced text with
      | [] => some (closeExpression branches parts, [])
      | c :: rest =>
          match c with
          | ')' => some (closeExpression branches parts, c :: rest)
          | '|' =>
              expressionRest? fuel spaced (Expression.ofParts parts.reverse :: branches) [] rest
          | '(' =>
              match opening? (skipSpace spaced rest) with
              | some (.flags settings, rest) =>
                  expressionRest? fuel ((settings.lookup .ignoreSpace).getD spaced) branches
                    (.flags settings :: parts) rest
              | some (.group name settings, rest) =>
                  match expressionRest? fuel ((settings.lookup .ignoreSpace).getD spaced) [] []
                      rest with
                  | some (body, ')' :: rest) =>
                      expressionRest? fuel spaced branches (.group name settings body :: parts)
                        rest
                  | _ => none
              | none => none
          | '*' | '+' | '?' =>
              match parts with
              | [] => none
              | part :: parts =>
                  if part.isRepeatable then
                    expressionRest? fuel spaced branches (.repetition part :: parts)
                      (dropLazyMark rest)
                  else
                    none
          | '\x7b' => none
          | '[' =>
              match bracketed? spaced fuel rest with
              | some (set, rest) =>
                  expressionRest? fuel spaced branches (.bracketed set :: parts) rest
              | none => none
          | '\\' =>
              match escape? spaced rest with
              | some (part, rest) => expressionRest? fuel spaced branches (part :: parts) rest
              | none => none
          | '.' => expressionRest? fuel spaced branches (.anyChar :: parts) rest
          | '^' | '$' => expressionRest? fuel spaced branches (.textBoundary :: parts) rest
          | _ => expressionRest? fuel spaced branches (.char c false :: parts) rest

/-- Reads a text as an expression. -/
def expression? (text : List Char) : Option Expression :=
  match expressionRest? (text.length + 1) false [] [] text with
  | some (expression, []) => some expression
  | _ => none

end ValuePattern

end Cli

end ByteTape
