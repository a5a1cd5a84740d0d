import ByteTape.Cli.LogFilter
import ByteTape.Machine
import ByteTape.Text.Utf8

/-!
# The console

Everything a run has to say beside its output goes to the console: log lines that pass the filter
and, in single-step mode, a prompt after every instruction. A prompt is answered by one line of the
terminal. The terminal gives the bytes it was given and from then on empty lines; a line that is
not UTF-8 puts an end to the prompts, with a warning.
-/

namespace ByteTape

namespace Cli

/-- The prompt after an instruction; the cursor of the terminal stays behind it. -/
def prompt (report : Report) : String :=
  Text.padLeft 6 (toString report.position) ++ " " ++
    Text.padRight 14 report.instruction.mnemonic ++
    " [ptr: " ++ toString report.pointer ++ "] [val: " ++ toString report.cell ++
    "] [depth: " ++ toString report.depth ++ "] "

/-- What is said in single-step mode when no terminal can be opened. -/
def noTerminal (cause : String) : String := "single-step disabled, no terminal: " ++ cause

/-- What is said when a line of the terminal cannot be read. -/
def terminalFailed (cause : String) : String :=
  "single-step disabled, terminal read failed: " ++ cause

/-- What is wrong with a line that is not UTF-8. -/
def illFormedLine : String := "stream did not contain valid UTF-8"

/-- A console, and what it shows so far. -/
structure Console where
  filter : LogFilter
  /-- What the terminal has left to give, as long as it answers prompts. -/
  terminal : Option (List UInt8)
  shown : String := ""

namespace Console

/-- Shows a text as it is. -/
def put (console : Console) (text : String) : Console :=
  { console with shown := console.shown ++ text }

/-- Shows a log line, if it passes the filter. -/
def log (console : Console) (line : LogLine) : Console :=
  if console.filter.shows line then console.put line.render else console

/-- Takes the next line from the bytes of a terminal. -/
def takeLine (bytes : List UInt8) : List UInt8 × List UInt8 :=
  match bytes.span (· != 0x0a) with
  | (line, rest) => (line, rest.drop 1)

/-- Takes `line` as the answer to a prompt, after which the terminal has `rest` to give. -/
def answer (console : Console) (line rest : List UInt8) : Console :=
  if Text.Utf8.isWellFormed line then
    { console with terminal := some rest }
  else
    { console.log (.warning (terminalFailed illFormedLine)) with terminal := none }

/-- Prompts after an instruction and waits for the answer, if there is a terminal to give one. -/
def pause (console : Console) (report : Report) : Console :=
  match console.terminal with
  | none => console
  | some bytes =>
      let (line, rest) := takeLine bytes
      (console.put (prompt report)).answer line rest

/-- Shows what a run left behind. -/
def receive (console : Console) : Entry → Console
  | .event event => console.log (.ofEvent event)
  | .report report => console.pause report

end Console

end Cli

end ByteTape
