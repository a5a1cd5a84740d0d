import ByteTape.Cli.ValuePattern.Flag

/-!
# Bracketed classes

A bracketed class is a set of characters, put together from characters, ranges, named classes and
other bracketed classes. `depth` counts how far they are nested, and `isAllowed` says which of them
can stand in a mode:

* in Unicode mode there are no tables for what `\d`, `\s` and `\w` stand for, and none that tell the
  other case of a letter, so that no character at all can be in a class that ignores case;
* in byte mode a class holds ASCII only, as every other byte is but a part of a character. So
  nothing in it is negated.
-/

namespace ByteTape

namespace Cli

namespace ValuePattern

/-- A part of a class that has no parts itself. -/
inductive ClassItem where
  | char (c : Char)
  | range (first last : Char)
  /-- A class that is written `[:name:]`, or `[:^name:]`. -/
  | named (negated : Bool)
  /-- One of `\d`, `\s` and `\w`, or of their negations. -/
  | shorthand (negated : Bool)
  deriving DecidableEq, Repr

/-- A set of characters, as it is written between brackets. -/
inductive ClassSet where
  | leaf (item : ClassItem)
  | bracketed (negated : Bool) (body : ClassSet)
  | union (parts : List ClassSet)
  /-- The intersection, difference or symmetric difference of two sets. -/
  | operation (left right : ClassSet)

/-- Whether a character is in ASCII. -/
def isAscii (c : Char) : Bool := c.toNat < 0x80

/-- Whether a part of a class can stand in a mode. -/
def ClassItem.isAllowed (mode : Mode) : ClassItem → Bool
  | char c => if mode.unicode then !mode.ignoresCase else isAscii c
  | range first last =>
      if mode.unicode then !mode.ignoresCase else isAscii first && isAscii last
  | named negated => if mode.unicode then !mode.ignoresCase else !negated
  | shorthand negated => !mode.unicode && !negated

namespace ClassSet

/-- The union of some parts, which is the part itself if there is but one. -/
def ofParts : List ClassSet → ClassSet
  | [part] => part
  | parts => .union parts

mutual

/-- How far brackets, unions of several parts and operations are nested in a class. -/
def depth : ClassSet → Nat
  | .leaf _ => 0
  | .bracketed _ body => body.depth + 1
  | .union [] => 0
  | .union parts => greatestDepth parts + 1
  | .operation left right => max left.depth right.depth + 1

/-- The greatest depth of some classes. -/
def greatestDepth : List ClassSet → Nat
  | [] => 0
  | part :: parts => max part.depth (greatestDepth parts)

end

mutual

/-- Whether a class can stand in a mode. -/
def isAllowed (mode : Mode) : ClassSet → Bool
  | .leaf item => item.isAllowed mode
  | .bracketed negated body => (mode.unicode || !negated) && body.isAllowed mode
  | .union parts => areAllowed mode parts
  | .operation left right => left.isAllowed mode && right.isAllowed mode

/-- Whether some classes can all stand in a mode. -/
def areAllowed (mode : Mode) : List ClassSet → Bool
  | [] => true
  | part :: parts => part.isAllowed mode && areAllowed mode parts

end

end ClassSet

end ValuePattern

end Cli

end ByteTape
