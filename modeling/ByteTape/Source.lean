/-!
# Sources

A source is what a machine reads its input from, told as the events that its reads will meet: bytes
to take, a failure, an interruption, or an end of input after which more may follow. A read that is
interrupted is simply tried again, so an interruption is never seen; neither is where one piece of
data ends and the next begins. What can be seen is `items`, the bytes, ends and failures in order.

`next` takes one byte. `takeLine` takes the bytes up to a newline, an end or a failure, and
`drain` the bytes up to an end or a failure. After the last event every read meets the end.
-/

namespace ByteTape

/-- What happens to a read. -/
inductive SourceEvent where
  /-- Bytes can be taken. -/
  | data (bytes : List UInt8)
  /-- The read fails once. -/
  | failure (cause : String)
  /-- The read is interrupted once. -/
  | interrupt
  /-- The read meets the end of input once. -/
  | endOfInput
  deriving DecidableEq, Repr

/-- The events that reads will meet, in order. -/
abbrev Source := List SourceEvent

/-- What a reader of single bytes sees of a source. -/
inductive SourceItem where
  | byte (value : UInt8)
  | failure (cause : String)
  | endOfInput
  deriving DecidableEq, Repr

/-- The outcome of reading one byte. -/
inductive Read where
  | byte (value : UInt8)
  | failed (cause : String)
  | ended
  deriving DecidableEq, Repr

/-- A line as it was read: its bytes, and whether a newline ended it. -/
structure SourceLine where
  bytes : List UInt8
  terminated : Bool
  deriving DecidableEq, Repr

namespace SourceLine

/-- The text of a line. The carriage return of a `\r\n` terminator does not belong to it. -/
def text (line : SourceLine) : List UInt8 :=
  if line.terminated && line.bytes.getLast? == some 0x0d then line.bytes.dropLast
  else line.bytes

end SourceLine

namespace Source

/-- What a reader of single bytes sees of some events. -/
def items : Source → List SourceItem
  | [] => []
  | .data bytes :: rest => bytes.map .byte ++ items rest
  | .failure cause :: rest => .failure cause :: items rest
  | .interrupt :: rest => items rest
  | .endOfInput :: rest => .endOfInput :: items rest

/-- Reads one byte. -/
def next : Source → Read × Source
  | [] => (.ended, [])
  | .data [] :: rest => next rest
  | .data (byte :: bytes) :: rest => (.byte byte, .data bytes :: rest)
  | .failure cause :: rest => (.failed cause, rest)
  | .interrupt :: rest => next rest
  | .endOfInput :: rest => (.ended, rest)

/-- Reads a line: the bytes up to and including the first newline, or up to an end of input. The
bytes of a line that a failure cuts short are lost. -/
def takeLine : Source → Except String SourceLine × Source
  | [] => (.ok ⟨[], false⟩, [])
  | .data bytes :: rest =>
      match bytes.span (· != 0x0a) with
      | (front, _ :: back) => (.ok ⟨front, true⟩, .data back :: rest)
      | (front, []) =>
          match takeLine rest with
          | (.ok line, left) => (.ok { line with bytes := front ++ line.bytes }, left)
          | (.error cause, left) => (.error cause, left)
  | .failure cause :: rest => (.error cause, rest)
  | .interrupt :: rest => takeLine rest
  | .endOfInput :: rest => (.ok ⟨[], false⟩, rest)

/-- Reads everything up to an end of input or a failure. Gives the bytes and the failure, if that
is what stopped the reading. -/
def drain : Source → List UInt8 × Option String
  | [] => ([], none)
  | .data bytes :: rest => (bytes ++ (drain rest).1, (drain rest).2)
  | .failure cause :: _ => ([], some cause)
  | .interrupt :: rest => drain rest
  | .endOfInput :: _ => ([], none)

end Source

end ByteTape
