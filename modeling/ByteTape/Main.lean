import ByteTape.Cli.Session

/-!
# The program

The command line in front of a real terminal. A session is carried out step by step, so that input
is asked for only when the program wants it and output, log lines and prompts appear as they
happen. What is done with the bytes read, and which bytes are written, is decided elsewhere:
`Machine.step` makes the steps, `Console` words what is shown, and `Session.conclude` ends the
session.
-/

namespace ByteTape

namespace Cli

namespace Live

/-- The text of a failure, with the number the operating system gives it. -/
def cause : IO.Error → String
  | .alreadyExists _ code text | .invalidArgument _ code text | .permissionDenied _ code text
  | .resourceExhausted _ code text | .inappropriateType _ code text | .noSuchThing _ code text
  | .interrupted _ code text | .noFileOrDirectory _ code text
  | .otherError code text | .resourceBusy code text | .resourceVanished code text
  | .unsupportedOperation code text | .hardwareFault code text
  | .unsatisfiedConstraints code text | .illegalOperation code text | .protocolError code text
  | .timeExpired code text => text ++ " (os error " ++ toString code ++ ")"
  | .unexpectedEof => "unexpected end of file"
  | .userError text => text

/-- Does something, and gives the text of the failure if it fails. -/
def attempt {α : Type} (action : IO α) : BaseIO (Except String α) := do
  match ← action.toBaseIO with
  | .ok value => return .ok value
  | .error error => return .error (cause error)

/-- What the next read meets, one byte at most. -/
def readByte (read : USize → IO ByteArray) : BaseIO SourceEvent := do
  match ← attempt (read 1) with
  | .error cause => return .failure cause
  | .ok bytes => return if bytes.isEmpty then .endOfInput else .data bytes.toList

/-- What reads meet up to the end of a line; `line` holds the bytes before, the last one first. -/
partial def readLine (read : USize → IO ByteArray) (line : List UInt8) :
    BaseIO Source := do
  match ← readByte read with
  | .data [0x0a] => return [.data (0x0a :: line).reverse]
  | .data bytes => readLine read (bytes ++ line)
  | event => return [.data line.reverse, event]

/-- Writes bytes to standard output at once. -/
def putOut (bytes : List UInt8) : IO Unit := do
  unless bytes.isEmpty do
    let stdout ← IO.getStdout
    stdout.write ⟨bytes.toArray⟩
    stdout.flush

/-- Brings what a console shows to standard error. -/
def bringOut (console : Console) : IO Console := do
  IO.eprint console.shown
  return { console with shown := "" }

/-- The contents of a file. -/
def readFile (path : String) : IO (List UInt8) := do
  let file ← IO.FS.Handle.mk path .read
  return (← file.readBinToEnd).toList

/-- Loads the program. -/
def load (options : Options) : IO (Except Error Program) := do
  match options.file with
  | some path =>
      return Program.ofFile path.toUTF8.toList (← attempt (readFile path))
  | none =>
      let stdin ← IO.getStdin
      return (Program.takeLine (← readLine stdin.read [])).1

/-- Opens the terminal for single-step mode, and says so on the console if there is none. -/
def openTerminal (options : Options) (console : Console) : IO (Console × Option IO.FS.Handle) := do
  if options.singleStep then
    match ← attempt (IO.FS.Handle.mk "/dev/tty" .read) with
    | .ok terminal => return ({ console with terminal := some [] }, some terminal)
    | .error cause => return (console.log (.warning (noTerminal cause)), none)
  else
    return (console, none)

/-- Shows what a step left behind and, after a prompt, waits for the answer. -/
def receive (terminal : Option IO.FS.Handle) (console : Console) (entry : Entry) : IO Console := do
  match entry, terminal, console.terminal with
  | .report report, some terminal, some _ =>
      let console ← bringOut (console.put (prompt report))
      match Source.takeLine (← readLine terminal.read []) with
      | (.ok line, _) => bringOut (console.answer line.bytes [])
      | (.error cause, _) =>
          bringOut { console.log (.warning (terminalFailed cause)) with terminal := none }
  | .event event, _, _ => bringOut (console.receive (.event event))
  | .report _, _, _ => return console

/-- Writes what a session leaves behind at its end. -/
def leave (outcome : Outcome) : IO UInt32 := do
  putOut outcome.output
  IO.eprint outcome.diagnostics
  return outcome.exitCode.toUInt32

/-- Ends the session of a machine that has stopped. -/
def finish (options : Options) (console : Console) (machine : Machine)
    (result : Except Error Unit) : IO UInt32 := do
  let run := Machine.conclude result ⟨machine, [], {}⟩ #[]
  leave (Session.conclude options (run.trace.foldl Console.receive console) run)

/-- What the instruction at the cursor will find in the input. Nothing is read unless it asks. -/
def readAhead (machine : Machine) : IO Source := do
  if machine.program.code[machine.cursor]? == some Instruction.input.toByte then
    let stdin ← IO.getStdin
    return [← readByte stdin.read]
  else
    return []

/-- Runs a machine to its end. -/
partial def run (options : Options) (terminal : Option IO.FS.Handle) (console : Console)
    (machine : Machine) : IO UInt32 := do
  let source ← readAhead machine
  match Machine.step ⟨machine, source, {}⟩ with
  | .halted ⟨machine, _, _⟩ => finish options console machine (.ok ())
  | .failed error ⟨machine, _, _⟩ => finish options console machine (.error error)
  | .advanced ⟨machine, _, sink⟩ entries =>
      match ← attempt (putOut sink.taken.toList) with
      | .error cause => finish options console machine (.error (.io cause))
      | .ok () =>
          let console ← entries.foldlM (receive terminal) console
          run options terminal console machine

/-- Carries out a session. -/
def session (options : Options) : IO UInt32 := do
  match ← load options with
  | .error error => leave ⟨1, [], error.message ++ "\n"⟩
  | .ok program =>
      if options.disassemble then
        leave ⟨0, Session.disassembly program, ""⟩
      else
        let filter := Session.filter options (← IO.getEnv "RUST_LOG")
        let (console, terminal) ← openTerminal options { filter, terminal := none }
        let console ← bringOut console
        run options terminal console (Machine.start program options.bound options.verbose)

end Live

end Cli

end ByteTape

/-- Does what the arguments ask for. -/
def main (arguments : List String) : IO UInt32 :=
  match ByteTape.Cli.Session.request arguments with
  | .inl outcome => ByteTape.Cli.Live.leave outcome
  | .inr options => ByteTape.Cli.Live.session options
