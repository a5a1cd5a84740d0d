/-!
# Escapes

A byte read as the character with that code point, written so that it is visible on one line:
printable ASCII stands for itself, the common control characters, quotes and the backslash get a
backslash, and everything else is `\u` with the code point in hexadecimal between braces.
-/

namespace ByteTape

namespace Text

/-- The visible form of a byte. -/
def escape (byte : UInt8) : String :=
  match byte with
  | 0x09 => "\\t"
  | 0x0a => "\\n"
  | 0x0d => "\\r"
  | 0x22 => "\\\""
  | 0x27 => "\\'"
  | 0x5c => "\\\\"
  | _ =>
      if 0x20 ≤ byte ∧ byte ≤ 0x7e then
        String.singleton (Char.ofNat byte.toNat)
      else
        "\\u\x7b" ++ String.ofList (Nat.toDigits 16 byte.toNat) ++ "\x7d"

end Text

end ByteTape
