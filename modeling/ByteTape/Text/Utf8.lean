/-!
# UTF-8

`decode` reads bytes as UTF-8. The first byte of a character fixes how many bytes follow and in
which range each of them lies (`announced?`), and `follow` takes those bytes one by one. A character
that is complete is decoded; where the bytes taken so far cannot be completed, they are one
ill-formed part, given as `none`, and reading resumes at the byte that did not fit.

So `none` stands for a longest run of bytes that begins a character and does not finish it, or for
a single byte that begins none. `lossy` shows each such part as U+FFFD and `isWellFormed` says that
there is none.
-/

namespace ByteTape

namespace Text

namespace Utf8

/-- The bytes from `first` to `last`. -/
structure ByteRange where
  first : UInt8
  last : UInt8

def ByteRange.contains (range : ByteRange) (byte : UInt8) : Bool :=
  range.first ≤ byte && byte ≤ range.last

/-- The bytes that may continue a character wherever no closer range is asked for. -/
def tail : ByteRange := ⟨0x80, 0xbf⟩

/-- What the first byte of a character announces: the leading bits of its code point and the
ranges of the bytes to come. The closer ranges shut out overlong forms, surrogates and code points
above U+10FFFF. -/
def announced? (byte : UInt8) : Option (Nat × List ByteRange) :=
  if byte ≤ 0x7f then some (byte.toNat, [])
  else if 0xc2 ≤ byte ∧ byte ≤ 0xdf then some (byte.toNat % 32, [tail])
  else if byte = 0xe0 then some (0, [⟨0xa0, 0xbf⟩, tail])
  else if byte = 0xed then some (13, [⟨0x80, 0x9f⟩, tail])
  else if 0xe1 ≤ byte ∧ byte ≤ 0xef then some (byte.toNat % 16, [tail, tail])
  else if byte = 0xf0 then some (0, [⟨0x90, 0xbf⟩, tail, tail])
  else if 0xf1 ≤ byte ∧ byte ≤ 0xf3 then some (byte.toNat % 8, [tail, tail, tail])
  else if byte = 0xf4 then some (4, [⟨0x80, 0x8f⟩, tail, tail])
  else none

/-- Takes the bytes still owed to a character whose bits so far are `bits`. Gives the code point,
or nothing if a byte is missing or out of its range, and what is left to read. -/
def follow : List ByteRange → (bits : Nat) → List UInt8 → Option Nat × List UInt8
  | [], bits, rest => (some bits, rest)
  | _ :: _, _, [] => (none, [])
  | range :: ranges, bits, byte :: rest =>
      if range.contains byte then follow ranges (bits * 64 + byte.toNat % 64) rest
      else (none, byte :: rest)

theorem length_follow_le (ranges : List ByteRange) (bits : Nat) (bytes : List UInt8) :
    (follow ranges bits bytes).2.length ≤ bytes.length := by
  fun_induction follow ranges bits bytes with
  | case1 => simp
  | case2 => simp
  | case3 bits range ranges byte rest h ih => simpa using Nat.le_succ_of_le ih
  | case4 => simp

/-- The characters some bytes spell, with `none` for each ill-formed part. -/
def decode : List UInt8 → List (Option Char)
  | [] => []
  | byte :: rest =>
      match announced? byte with
      | none => none :: decode rest
      | some (bits, ranges) =>
          have := length_follow_le ranges bits rest
          let followed := follow ranges bits rest
          followed.1.map Char.ofNat :: decode followed.2
termination_by bytes => bytes.length

/-- Whether some bytes are UTF-8 throughout. -/
def isWellFormed (bytes : List UInt8) : Bool := (decode bytes).all Option.isSome

/-- Some bytes as text, with U+FFFD in place of each ill-formed part. -/
def lossy (bytes : List UInt8) : String :=
  String.ofList ((decode bytes).map fun char? => char?.getD '\uFFFD')

end Utf8

end Text

end ByteTape
