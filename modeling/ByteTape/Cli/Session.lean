import ByteTape.Cli.Console
import ByteTape.Cli.Options
import ByteTape.Listing

/-!
# Sessions

A session is one call of the program from the command line. It reads its arguments, loads a program
from a file or from the first line of its input, and then lists it or runs it on the rest of the
input. `run` gives the exit code, the bytes on standard output and the text on standard error.

The exit code is `0` unless something went wrong: `1` for an error of the program or of its run,
`2` for arguments that cannot be understood.
-/

namespace ByteTape

namespace Cli

/-- What a session finds around it. -/
structure Environment where
  /-- The contents of the file at a path, or why it cannot be read. -/
  files : List UInt8 → Except String (List UInt8)
  input : List UInt8
  /-- What the terminal will give, if there is one. -/
  terminal : Option (List UInt8)
  /-- The log filter asked for, if any. -/
  logSetting : Option String

/-- What a session leaves behind. -/
structure Outcome where
  exitCode : Nat
  output : List UInt8
  diagnostics : String
  deriving DecidableEq, Repr

namespace Session

/-- The name and version the program goes by. -/
def versionText : String := "bfvm 0.1.0\n"

/-- What the program can be asked for. -/
def helpText : String :=
  "Byte-tape virtual machine for the eight-instruction language

Usage: bfvm [OPTIONS]

Options:
      --file <FILE>            Program file to run. Without it, the first line of stdin is the program
  -v, --verbose                Trace every operation and print program output once at the end
  -d, --debug                  Single-step: wait for Enter after every instruction
      --max-cells <MAX_CELLS>  Maximum number of tape cells [default: 300000]
      --disassemble            Print the instruction listing and exit without running
  -h, --help                   Print help
  -V, --version                Print version
"

/-- What opening a terminal fails with where there is none. -/
def terminalMissing : String := "No such device or address (os error 6)"

/-- Loads the program, and gives what is then left of the input. -/
def load (options : Options) (environment : Environment) : Except Error Program × Source :=
  match options.file with
  | some path =>
      let path := path.toUTF8.toList
      (Program.ofFile path (environment.files path), [.data environment.input])
  | none => Program.takeLine [.data environment.input]

/-- The filter in force: the one asked for if it can be read, otherwise everything for a verbose
session and warnings for any other. -/
def filter (options : Options) (setting : Option String) : LogFilter :=
  (setting.bind LogFilter.parse?).getD
    (LogFilter.ofLevel (if options.verbose then .trace else .warn))

/-- The console at the start of a run. -/
def console (options : Options) (environment : Environment) : Console :=
  let filter := filter options environment.logSetting
  if options.singleStep then
    match environment.terminal with
    | some bytes => { filter, terminal := some bytes }
    | none =>
        { filter, terminal := none : Console }.log (.warning (noTerminal terminalMissing))
  else
    { filter, terminal := none }

/-- The instruction count and the listing of a program. -/
def disassembly (program : Program) : List UInt8 :=
  Text.ascii ("; " ++ toString program.instructionCount ++ " instructions\n") ++
    Listing.ofText program.text

/-- What a verbose session says at the end of a run. -/
def summary (program : Program) (halted : Halted) : String :=
  "halted after " ++ toString halted.executed ++ " instructions (" ++
    toString program.instructionCount ++ " in program) [ptr: " ++ toString halted.pointer ++
    "] [tape: " ++ toString halted.size ++ "]\n"

/-- What a session leaves behind after a run that `console` has followed. -/
def conclude (options : Options) (console : Console) (run : Run) : Outcome :=
  let output := run.sink.taken.toList
  match run.result with
  | .error error => ⟨1, output, console.shown ++ error.message ++ "\n"⟩
  | .ok halted =>
      if options.verbose then
        ⟨0, output ++ [0x0a], console.shown ++ summary run.machine.program halted⟩
      else
        ⟨0, output, console.shown⟩

/-- Runs a program, if `fuel` steps suffice for that. -/
def execute (fuel : Nat) (options : Options) (environment : Environment) (program : Program)
    (input : Source) : Option Outcome :=
  ((Machine.start program options.bound options.verbose).run fuel input {}).map fun run =>
    conclude options (run.trace.foldl Console.receive (console options environment)) run

/-- What the arguments come to: an outcome they settle alone, or the options of a session. -/
def request (arguments : List String) : Outcome ⊕ Options :=
  match parse arguments with
  | .error error => .inl ⟨2, [], error.message ++ "\n"⟩
  | .ok .help => .inl ⟨0, Text.ascii helpText, ""⟩
  | .ok .version => .inl ⟨0, Text.ascii versionText, ""⟩
  | .ok (.session options) => .inr options

/-- A session with some arguments, if `fuel` steps suffice for its run. -/
def run (fuel : Nat) (arguments : List String) (environment : Environment) : Option Outcome :=
  match request arguments with
  | .inl outcome => some outcome
  | .inr options =>
      match load options environment with
      | (.error error, _) => some ⟨1, [], error.message ++ "\n"⟩
      | (.ok program, input) =>
          if options.disassemble then some ⟨0, disassembly program, ""⟩
          else execute fuel options environment program input

end Session

end Cli

end ByteTape
