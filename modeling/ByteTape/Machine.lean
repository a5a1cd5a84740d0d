import ByteTape.Bracket.Partner
import ByteTape.Event
import ByteTape.Program
import ByteTape.Sink
import ByteTape.Tape

/-!
# The machine

A machine holds a program, a tape and the position of the next byte of the program, its cursor. It
takes one byte at a time: a comment is passed over, an instruction is executed in two parts.

* `resolve` settles what an instruction comes to. It reads from the source, writes to the sink and
  looks up the partner of a bracket, but leaves the machine alone; whatever can fail, fails here.
* `perform` carries out the resulting `Action` on the machine, which cannot fail, and lists the
  events to tell.

So an instruction that fails leaves the machine as it was, with the cursor on that instruction, and
a later run takes it up again. The byte of a `.` goes straight to the sink, unless the machine is
verbose: then output is collected in `buffer` and handed over when the run ends.

`step` takes one byte, `dispatch` takes bytes until the program ends or an instruction fails, and
`run` then hands over what was collected and flushes the sink. `dispatch` and `run` are given the
number of steps they may take and answer `none` when that does not suffice, so a run that never
ends is one for which no number suffices.
-/

namespace ByteTape

/-- An instruction whose outcome is settled. -/
inductive Action where
  | moveRight
  | moveLeft
  | increment
  | decrement
  /-- The current cell is put out. -/
  | emit
  /-- A byte that was read goes into the current cell. -/
  | store (value : UInt8)
  /-- There was no byte to read. -/
  | keep
  /-- The body of a loop begins. -/
  | enter
  /-- A loop is passed over; its `]` is at `closing`. -/
  | skip (closing : Nat)
  /-- A loop is done. -/
  | leave
  /-- A loop goes round again; its `[` is at `opening`. -/
  | again (opening : Nat)
  deriving DecidableEq, Repr

/-- A machine between two bytes of its program. -/
structure Machine where
  program : Program
  tape : Tape
  /-- The position of the byte to take next. -/
  cursor : Nat
  /-- How many loops the cursor is in. -/
  depth : Nat
  /-- Whether to tell of every operation and to collect output. -/
  verbose : Bool
  /-- Output collected in this run. -/
  buffer : Array UInt8
  /-- How many instructions were executed. -/
  executed : Nat

/-- The machine as an observer finds it after an instruction. -/
structure Report where
  instruction : Instruction
  /-- Where the instruction stands. -/
  position : Nat
  /-- Where the machine goes on. -/
  cursor : Nat
  pointer : Nat
  cell : UInt8
  depth : Nat
  deriving DecidableEq, Repr

/-- What a run leaves behind for its observers, in the order in which it happened: the events of
an instruction come before its report. -/
inductive Entry where
  | event (event : Event)
  | report (report : Report)
  deriving DecidableEq, Repr

/-- The summary of a run that came to the end of the program. -/
structure Halted where
  executed : Nat
  pointer : Nat
  size : Nat
  deriving DecidableEq, Repr

/-- A machine with what it reads from and writes to. -/
structure Configuration where
  machine : Machine
  source : Source
  sink : Sink

/-- What taking one byte comes to. -/
inductive Step where
  /-- The program has ended, so there is no byte to take. -/
  | halted (configuration : Configuration)
  /-- The instruction at the cursor failed. -/
  | failed (error : Error) (configuration : Configuration)
  | advanced (configuration : Configuration) (entries : List Entry)

/-- A run that ended: how it did, and all that it left behind. -/
structure Run where
  result : Except Error Halted
  machine : Machine
  source : Source
  sink : Sink
  trace : Array Entry

namespace Machine

/-- A machine at the start of a program, with a fresh tape. -/
def start (program : Program) (bound : Nat) (verbose : Bool) : Machine where
  program := program
  tape := Tape.blank bound
  cursor := 0
  depth := 0
  verbose := verbose
  buffer := #[]
  executed := 0

/-- Settles what an instruction at the cursor comes to. -/
def resolve (machine : Machine) (source : Source) (sink : Sink) :
    Instruction → Except Error Action × Source × Sink
  | .right => (.ok .moveRight, source, sink)
  | .left => (.ok .moveLeft, source, sink)
  | .increment => (.ok .increment, source, sink)
  | .decrement => (.ok .decrement, source, sink)
  | .output =>
      if machine.verbose then
        (.ok .emit, source, sink)
      else
        match sink.writeAll [machine.tape.current] with
        | (.ok (), sink) => (.ok .emit, source, sink)
        | (.error cause, sink) => (.error (.io cause), source, sink)
  | .input =>
      match source.next with
      | (.byte value, source) => (.ok (.store value), source, sink)
      | (.ended, source) => (.ok .keep, source, sink)
      | (.failed cause, source) => (.error (.io cause), source, sink)
  | .loopStart =>
      if machine.tape.current ≠ 0 then
        (.ok .enter, source, sink)
      else
        match Bracket.partnerAfter machine.program.code machine.cursor with
        | .ok closing => (.ok (.skip closing), source, sink)
        | .error unmatched => (.error (.malformed unmatched), source, sink)
  | .loopEnd =>
      if machine.tape.current = 0 then
        (.ok .leave, source, sink)
      else
        match Bracket.partnerBefore machine.program.code machine.cursor with
        | .ok opening => (.ok (.again opening), source, sink)
        | .error unmatched => (.error (.malformed unmatched), source, sink)

/-- Carries out the action of the instruction at the cursor and moves on. Lists every event of the
action, told or not. -/
def perform (machine : Machine) (action : Action) : Machine × List Event :=
  match machine with
  | ⟨program, tape, cursor, depth, verbose, buffer, executed⟩ =>
      match action with
      | .moveRight =>
          match tape.right with
          | (move, tape) =>
              let events := match move with
                | .clamped => [.rightRefused cursor tape.pointer tape.bound]
                | .grew => [.grew tape.size, .movedRight tape.pointer tape.current]
                | .moved => [.movedRight tape.pointer tape.current]
              (⟨program, tape, cursor + 1, depth, verbose, buffer, executed + 1⟩, events)
      | .moveLeft =>
          match tape.left with
          | (move, tape) =>
              let events := match move with
                | .clamped => [.leftRefused cursor]
                | _ => [.movedLeft tape.pointer tape.current]
              (⟨program, tape, cursor + 1, depth, verbose, buffer, executed + 1⟩, events)
      | .increment =>
          let before := tape.current
          let tape := tape.write (before + 1)
          (⟨program, tape, cursor + 1, depth, verbose, buffer, executed + 1⟩,
            [.incremented tape.pointer before (before + 1)])
      | .decrement =>
          let before := tape.current
          let tape := tape.write (before - 1)
          (⟨program, tape, cursor + 1, depth, verbose, buffer, executed + 1⟩,
            [.decremented tape.pointer before (before - 1)])
      | .emit =>
          let value := tape.current
          let buffer := if verbose then buffer.push value else buffer
          (⟨program, tape, cursor + 1, depth, verbose, buffer, executed + 1⟩,
            [.putOut tape.pointer value])
      | .store value =>
          let tape := tape.write value
          (⟨program, tape, cursor + 1, depth, verbose, buffer, executed + 1⟩,
            [.readIn tape.pointer value])
      | .keep =>
          (⟨program, tape, cursor + 1, depth, verbose, buffer, executed + 1⟩,
            [.inputExhausted tape.pointer])
      | .enter =>
          (⟨program, tape, cursor + 1, depth + 1, verbose, buffer, executed + 1⟩,
            [.loopEntered cursor tape.current (depth + 1)])
      | .skip closing =>
          (⟨program, tape, closing + 1, depth, verbose, buffer, executed + 1⟩,
            [.loopSkipped cursor (closing + 1) tape.current depth])
      | .leave =>
          (⟨program, tape, cursor + 1, depth - 1, verbose, buffer, executed + 1⟩,
            [.loopLeft cursor (depth - 1)])
      | .again opening =>
          (⟨program, tape, opening + 1, depth, verbose, buffer, executed + 1⟩,
            [.loopRepeated cursor opening tape.current depth])

/-- The machine as an observer finds it after the instruction at `position`. -/
def report (machine : Machine) (instruction : Instruction) (position : Nat) : Report where
  instruction := instruction
  position := position
  cursor := machine.cursor
  pointer := machine.tape.pointer
  cell := machine.tape.current
  depth := machine.depth

/-- Takes the byte at the cursor. -/
def step : Configuration → Step
  | ⟨machine, source, sink⟩ =>
      match machine.program.code[machine.cursor]? with
      | none => .halted ⟨machine, source, sink⟩
      | some byte =>
          match Instruction.ofByte? byte with
          | none => .advanced ⟨{ machine with cursor := machine.cursor + 1 }, source, sink⟩ []
          | some instruction =>
              let position := machine.cursor
              match machine.resolve source sink instruction with
              | (.error error, source, sink) => .failed error ⟨machine, source, sink⟩
              | (.ok action, source, sink) =>
                  match machine.perform action with
                  | (machine, events) =>
                      let told := events.filter (Event.isTold machine.verbose)
                      .advanced ⟨machine, source, sink⟩
                        (told.map .event ++ [.report (machine.report instruction position)])

/-- Takes bytes until the program ends or an instruction fails, but makes no more than `fuel`
steps. Adds what happens to `trace`. -/
def dispatch : (fuel : Nat) → Configuration → (trace : Array Entry) →
    Option (Except Error Unit × Configuration × Array Entry)
  | 0, _, _ => none
  | fuel + 1, configuration, trace =>
      match step configuration with
      | .halted configuration => some (.ok (), configuration, trace)
      | .failed error configuration => some (.error error, configuration, trace)
      | .advanced configuration entries => dispatch fuel configuration (trace ++ entries)

/-- Hands collected output over to a sink and flushes it. -/
def deliver (sink : Sink) (collected : Array UInt8) : Except String Unit × Sink :=
  match sink.writeAll collected.toList with
  | (.ok (), sink) => sink.flush
  | (.error cause, sink) => (.error cause, sink)

/-- The summary of a machine at the end of its program. -/
def halted (machine : Machine) : Halted where
  executed := machine.executed
  pointer := machine.tape.pointer
  size := machine.tape.size

/-- Ends a run. Collected output reaches the sink even after an instruction failed, but then that
failure is the result, whatever becomes of the output. -/
def conclude (outcome : Except Error Unit) (configuration : Configuration)
    (trace : Array Entry) : Run :=
  match configuration with
  | ⟨machine, source, sink⟩ =>
      match deliver sink machine.buffer with
      | (delivered, sink) =>
          let machine := { machine with buffer := #[] }
          match outcome, delivered with
          | .error error, _ => ⟨.error error, machine, source, sink, trace⟩
          | .ok (), .error cause => ⟨.error (.io cause), machine, source, sink, trace⟩
          | .ok (), .ok () =>
              let ⟨executed, pointer, size⟩ := machine.halted
              ⟨.ok machine.halted, machine, source, sink,
                trace.push (.event (.finished executed pointer size))⟩

/-- Runs a machine from where it stands until its program ends or an instruction fails, if `fuel`
steps suffice for that. -/
def run (fuel : Nat) (machine : Machine) (source : Source) (sink : Sink) : Option Run :=
  (dispatch fuel ⟨machine, source, sink⟩ #[]).map fun (outcome, configuration, trace) =>
    conclude outcome configuration trace

end Machine

end ByteTape
