/-!
# Sinks

A sink is what a machine writes its output to. It takes at most `limit` bytes in all and at most
`chunk` bytes per call, and its first `interrupts` calls are interrupted. A call that can take
nothing is refused, in one of two ways. A sink counts the calls made to it and keeps the bytes it
took.

`writeAll` hands over a list of bytes: it calls again after an interruption and after a part was
taken, and stops at a refusal. Each call spends an interruption or takes a byte, which is why it
ends.
-/

namespace ByteTape

/-- How a sink declines to take anything. -/
inductive Refusal where
  /-- The call succeeds with nothing taken. -/
  | takesNothing
  /-- The call fails. -/
  | fails
  deriving DecidableEq, Repr

/-- The text of the error that a refused write ends in. -/
def Refusal.cause : Refusal → String
  | takesNothing => "failed to write whole buffer"
  | fails => "sink full"

/-- Where output goes. Without a `limit` or a `chunk` there is no such restriction. -/
structure Sink where
  limit : Option Nat := none
  chunk : Option Nat := none
  interrupts : Nat := 0
  refusal : Refusal := .fails
  flushFails : Bool := false
  taken : Array UInt8 := #[]
  writes : Nat := 0
  flushes : Nat := 0

namespace Sink

/-- The text of the error of a flush that fails. -/
def flushCause : String := "flush refused"

/-- The most the next call can take, if anything restricts it. -/
def allowance (sink : Sink) : Option Nat :=
  match sink.chunk, sink.limit with
  | none, none => none
  | some chunk, none => some chunk
  | none, some limit => some (limit - sink.taken.size)
  | some chunk, some limit => some (min chunk (limit - sink.taken.size))

/-- The front part of some bytes that the next call can take. -/
def accepts (sink : Sink) (bytes : List UInt8) : List UInt8 :=
  match sink.allowance with
  | none => bytes
  | some count => bytes.take count

/-- A call that is interrupted. -/
def interrupted (sink : Sink) : Sink :=
  { sink with interrupts := sink.interrupts - 1, writes := sink.writes + 1 }

/-- A call that is refused. -/
def refused (sink : Sink) : Sink := { sink with writes := sink.writes + 1 }

/-- A call that takes some bytes. -/
def take (sink : Sink) (bytes : List UInt8) : Sink :=
  { sink with taken := sink.taken ++ bytes, writes := sink.writes + 1 }

/-- Hands over all of `bytes`, with as many calls as that takes. An error is the cause of the
refusal that came before they were all taken. -/
def writeAll (sink : Sink) (bytes : List UInt8) : Except String Unit × Sink :=
  if bytes.isEmpty then
    (.ok (), sink)
  else if sink.interrupts ≠ 0 then
    writeAll sink.interrupted bytes
  else if (sink.accepts bytes).isEmpty then
    (.error sink.refusal.cause, sink.refused)
  else
    writeAll (sink.take (sink.accepts bytes)) (bytes.drop (sink.accepts bytes).length)
termination_by sink.interrupts + bytes.length
decreasing_by
  · simp only [interrupted]
    omega
  · rename_i hbytes _ hfront
    have := List.length_pos_iff.mpr (fun h => hbytes (List.isEmpty_iff.mpr h))
    have := List.length_pos_iff.mpr (fun h => hfront (List.isEmpty_iff.mpr h))
    simp only [take, List.length_drop]
    omega

/-- Asks the sink to pass on what it took. -/
def flush (sink : Sink) : Except String Unit × Sink :=
  let counted := { sink with flushes := sink.flushes + 1 }
  if counted.flushFails then (.error flushCause, counted) else (.ok (), counted)

end Sink

end ByteTape
