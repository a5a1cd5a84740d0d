/-!
# Flags of a pattern

A pattern turns flags on and off for a group, or from some point on to the end of the group it
stands in. Two of them decide which parts of a pattern are allowed, and make up its `Mode`; a third,
`ignoreSpace`, decides how the pattern is read. The others only change what a pattern matches.
-/

namespace ByteTape

namespace Cli

namespace ValuePattern

/-- What a pattern can turn on and off. -/
inductive Flag where
  | ignoreCase
  | multiLine
  | dotMatchesLineEnd
  | swapGreed
  | unicode
  | carriageReturns
  | ignoreSpace
  deriving DecidableEq, Repr

namespace Flag

/-- The flag a letter stands for. -/
def ofChar? : Char → Option Flag
  | 'i' => some .ignoreCase
  | 'm' => some .multiLine
  | 's' => some .dotMatchesLineEnd
  | 'U' => some .swapGreed
  | 'u' => some .unicode
  | 'R' => some .carriageReturns
  | 'x' => some .ignoreSpace
  | _ => none

end Flag

/-- Some flags, each with whether it is turned on. -/
abbrev Settings := List (Flag × Bool)

/-- What holds at some place of a pattern. -/
structure Mode where
  ignoresCase : Bool := false
  /-- Whether classes are of characters, and not of bytes. -/
  unicode : Bool := true
  deriving DecidableEq, Repr

namespace Mode

/-- What holds once some flags are turned on or off. -/
def set (mode : Mode) (settings : Settings) : Mode where
  ignoresCase := (settings.lookup .ignoreCase).getD mode.ignoresCase
  unicode := (settings.lookup .unicode).getD mode.unicode

end Mode

end ValuePattern

end Cli

end ByteTape
