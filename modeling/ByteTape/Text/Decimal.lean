/-!
# Decimal numbers

`natural?` reads a natural number written in ASCII digits, with an optional plus sign before them
and nothing else around. `word?` also asks that it fits in 64 bits, the range of the counts and
bounds a user can give. `ascii` and `padLeft`, `padRight` are the small helpers with which texts of
fixed form are laid out.
-/

namespace ByteTape

namespace Text

/-- The value of a run of digits, continuing a number whose digits so far amount to `value`. -/
def digits? (value : Nat) : List Char → Option Nat
  | [] => some value
  | c :: rest => if c.isDigit then digits? (value * 10 + (c.toNat - '0'.toNat)) rest else none

/-- The number a text spells: an optional `+` and at least one digit. -/
def natural? (text : String) : Option Nat :=
  match text.toList with
  | [] | ['+'] => none
  | '+' :: digits => digits? 0 digits
  | digits => digits? 0 digits

/-- The number a text spells, if it is below `2 ^ 64`. -/
def word? (text : String) : Option Nat :=
  (natural? text).filter (· < UInt64.size)

/-- The bytes of a text of ASCII characters. -/
def ascii (text : String) : List UInt8 := text.toList.map fun c => c.toNat.toUInt8

/-- Blanks in front of a text up to the given width. -/
def padLeft (width : Nat) (text : String) : String :=
  "".pushn ' ' (width - text.length) ++ text

/-- Blanks behind a text up to the given width. -/
def padRight (width : Nat) (text : String) : String :=
  text.pushn ' ' (width - text.length)

end Text

end ByteTape
