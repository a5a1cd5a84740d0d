import ByteTape.Cli.ValuePattern.CharacterClass

/-!
# Regular expressions

An expression is put together from characters, classes and boundaries by sequences, alternatives,
repetition and groups. Three things are asked of it beside its form: that it is not nested deeper
than `depthLimit`, that no two groups have the same name, and that all its parts are allowed in the
mode that holds where they stand. `modeAfter?` goes through the parts in the order in which they are
written and gives the mode behind the last, or nothing if one of them is not allowed. What a group
changes holds to the end of the group.
-/

namespace ByteTape

namespace Cli

namespace ValuePattern

/-- A regular expression. -/
inductive Expression where
  /-- A character. If it is given as a byte, it is one where classes are of bytes. -/
  | char (c : Char) (isByte : Bool)
  | anyChar
  /-- The start or the end of the text or of a line. -/
  | textBoundary
  /-- The start or the end of a word, or a place that is neither. -/
  | wordBoundary
  /-- One of `\d`, `\s` and `\w`, or of their negations. -/
  | shorthand (negated : Bool)
  | bracketed (set : ClassSet)
  /-- Flags that hold from here on. -/
  | flags (settings : Settings)
  | repetition (body : Expression)
  /-- A group, with the flags that hold in it alone. -/
  | group (name : Option String) (settings : Settings) (body : Expression)
  | sequence (parts : List Expression)
  | alternatives (branches : List Expression)

namespace Expression

/-- The sequence of some parts, which is the part itself if there is but one. -/
def ofParts : List Expression → Expression
  | [part] => part
  | parts => .sequence parts

/-- The alternatives between some branches, which are the branch itself if there is but one. -/
def ofBranches : List Expression → Expression
  | [branch] => branch
  | branches => .alternatives branches

/-- Whether an expression can be repeated: all but flags, which stand for nothing in the text. -/
def isRepeatable : Expression → Bool
  | .flags _ => false
  | _ => true

mutual

/-- How far classes, repetitions, groups, sequences and alternatives are nested. -/
def depth : Expression → Nat
  | .char _ _ | .anyChar | .textBoundary | .wordBoundary | .shorthand _ | .flags _ => 0
  | .bracketed set => set.depth
  | .repetition body => body.depth + 1
  | .group _ _ body => body.depth + 1
  | .sequence [] => 0
  | .sequence parts => greatestDepth parts + 1
  | .alternatives branches => greatestDepth branches + 1

/-- The greatest depth of some expressions. -/
def greatestDepth : List Expression → Nat
  | [] => 0
  | part :: parts => max part.depth (greatestDepth parts)

end

/-- The greatest depth an expression may have. -/
def depthLimit : Nat := 250

mutual

/-- The names of the groups, in order. -/
def names : Expression → List String
  | .char _ _ | .anyChar | .textBoundary | .wordBoundary | .shorthand _ | .flags _ => []
  | .bracketed _ => []
  | .repetition body => body.names
  | .group name _ body => name.toList ++ body.names
  | .sequence parts => allNames parts
  | .alternatives branches => allNames branches

/-- The names of the groups in some expressions, in order. -/
def allNames : List Expression → List String
  | [] => []
  | part :: parts => part.names ++ allNames parts

end

mutual

/-- The mode behind an expression, if it can stand where `mode` holds. Without tables of characters
letters have no other case and the boundaries of words cannot be told in Unicode mode; in byte mode
only what is in ASCII is sure to be a whole character. -/
def modeAfter? (mode : Mode) : Expression → Option Mode
  | .char c isByte =>
      let allowed := if mode.unicode then !mode.ignoresCase else !isByte || isAscii c
      if allowed then some mode else none
  | .anyChar => if mode.unicode then some mode else none
  | .textBoundary => some mode
  | .wordBoundary => if mode.unicode then none else some mode
  | .shorthand negated => if mode.unicode || negated then none else some mode
  | .bracketed set => if set.isAllowed mode then some mode else none
  | .flags settings => some (mode.set settings)
  | .repetition body => body.modeAfter? mode
  | .group _ settings body => (body.modeAfter? (mode.set settings)).map fun _ => mode
  | .sequence parts => modeAfterAll? mode parts
  | .alternatives branches => modeAfterAll? mode branches

/-- The mode behind some expressions that follow one another. -/
def modeAfterAll? (mode : Mode) : List Expression → Option Mode
  | [] => some mode
  | part :: parts => (part.modeAfter? mode).bind fun mode => modeAfterAll? mode parts

end

/-- Whether an expression can be used. -/
def isAllowed (expression : Expression) : Bool :=
  expression.depth ≤ depthLimit && decide expression.names.Nodup &&
    (expression.modeAfter? {}).isSome

end Expression

end ValuePattern

end Cli

end ByteTape
