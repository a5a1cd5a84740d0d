import ByteTape.Tape
import ByteTape.Text.Decimal

/-!
# Command-line arguments

Arguments are taken from left to right. `--file` and `--max-cells` want a value, either after an
equals sign or as the next argument; a next argument that begins with a dash is no value, unless it
is a single dash. The other options are switches without a value, of which those with a short name
can be joined behind one dash. No option may be given twice, nothing but options may be given, and
`--` ends the options.

`help` and `version` act as soon as they are reached, so whatever follows them does not matter and
whatever is wrong before them does.
-/

namespace ByteTape

namespace Cli

/-- What a session is asked to do with a program. -/
structure Options where
  /-- The path of the program file; without one, the program is the first line of the input. -/
  file : Option String := none
  verbose : Bool := false
  singleStep : Bool := false
  bound : Nat := Tape.defaultBound
  disassemble : Bool := false
  deriving DecidableEq, Repr

/-- What the arguments ask for. -/
inductive Request where
  | help
  | version
  | session (options : Options)
  deriving DecidableEq, Repr

/-- Why the arguments cannot be understood. -/
inductive UsageError where
  | unexpected (argument : String)
  | repeated (option : String)
  | missingValue (option : String)
  | needlessValue (option : String)
  | invalidValue (option value : String)
  deriving DecidableEq, Repr

/-- A usage error in a few words. They name the reason, and are not a full usage message: neither
the usage line nor the form of the option's value is in them. -/
def UsageError.message : UsageError → String
  | unexpected argument => "error: unexpected argument '" ++ argument ++ "' found"
  | repeated option => "error: the argument '" ++ option ++ "' cannot be used multiple times"
  | missingValue option => "error: a value is required for '" ++ option ++ "' but none was supplied"
  | needlessValue option => "error: unexpected value for '" ++ option ++ "' found"
  | invalidValue option value => "error: invalid value '" ++ value ++ "' for '" ++ option ++ "'"

/-- An option without a value. -/
inductive Switch where
  | verbose
  | singleStep
  | disassemble
  | help
  | version
  deriving DecidableEq, Repr

/-- An option with a value. -/
inductive Setting where
  | file
  | bound
  deriving DecidableEq, Repr

def Switch.ofLongName? : String → Option Switch
  | "verbose" => some verbose
  | "debug" => some singleStep
  | "disassemble" => some disassemble
  | "help" => some help
  | "version" => some version
  | _ => none

def Switch.ofShortName? : Char → Option Switch
  | 'v' => some verbose
  | 'd' => some singleStep
  | 'h' => some help
  | 'V' => some version
  | _ => none

def Setting.ofLongName? : String → Option Setting
  | "file" => some file
  | "max-cells" => some bound
  | _ => none

/-- The options given so far. A setting that was not given is kept apart from one that was given
its default. -/
structure Given where
  file : Option String := none
  bound : Option Nat := none
  verbose : Bool := false
  singleStep : Bool := false
  disassemble : Bool := false

namespace Given

def options (given : Given) : Options where
  file := given.file
  verbose := given.verbose
  singleStep := given.singleStep
  bound := given.bound.getD Tape.defaultBound
  disassemble := given.disassemble

/-- What comes of one more option: the options given with it, or the request it makes at once. -/
abbrev Outcome := Except UsageError (Given ⊕ Request)

/-- Turns a switch on; `name` is how it was written. -/
def turnOn (given : Given) (name : String) : Switch → Given.Outcome
  | .help => .ok (.inr .help)
  | .version => .ok (.inr .version)
  | .verbose =>
      if given.verbose then .error (.repeated name)
      else .ok (.inl { given with verbose := true })
  | .singleStep =>
      if given.singleStep then .error (.repeated name)
      else .ok (.inl { given with singleStep := true })
  | .disassemble =>
      if given.disassemble then .error (.repeated name)
      else .ok (.inl { given with disassemble := true })

/-- Turns on the switches joined behind one dash, in order. -/
def turnOnAll (given : Given) : List Char → Given.Outcome
  | [] => .ok (.inl given)
  | letter :: rest =>
      let name := "-" ++ String.singleton letter
      match Switch.ofShortName? letter with
      | none => .error (.unexpected name)
      | some switch =>
          match given.turnOn name switch with
          | .ok (.inl given) => given.turnOnAll rest
          | outcome => outcome

/-- Gives a setting its value; `name` is how the setting was written. -/
def set (given : Given) (name value : String) : Setting → Except UsageError Given
  | .file =>
      if given.file.isSome then .error (.repeated name)
      else if value.isEmpty then .error (.invalidValue name value)
      else .ok { given with file := some value }
  | .bound =>
      if given.bound.isSome then .error (.repeated name)
      else match Text.word? value with
        | none => .error (.invalidValue name value)
        | some bound => .ok { given with bound := some bound }

end Given

/-- Whether an argument can be the value of the option before it. -/
def isValue (argument : String) : Bool :=
  match argument.toList with
  | '-' :: _ :: _ => false
  | _ => true

/-- A long option without its dashes, divided at its first equals sign. -/
def divide (text : List Char) : String × Option String :=
  match text.span (· != '=') with
  | (name, []) => (String.ofList name, none)
  | (name, _ :: value) => (String.ofList name, some (String.ofList value))

/-- Reads the arguments that follow the options given so far. -/
def parseFrom (given : Given) : List String → Except UsageError Request
  | [] => .ok (.session given.options)
  | argument :: rest =>
      match argument.toList with
      | ['-', '-'] =>
          match rest with
          | [] => .ok (.session given.options)
          | extra :: _ => .error (.unexpected extra)
      | '-' :: '-' :: text =>
          let (name, value?) := divide text
          let option := "--" ++ name
          match Switch.ofLongName? name, Setting.ofLongName? name, value? with
          | some switch, _, none =>
              match given.turnOn option switch with
              | .ok (.inl given) => parseFrom given rest
              | .ok (.inr request) => .ok request
              | .error error => .error error
          | some _, _, some _ => .error (.needlessValue option)
          | none, some setting, some value =>
              match given.set option value setting with
              | .ok given => parseFrom given rest
              | .error error => .error error
          | none, some setting, none =>
              match rest with
              | [] => .error (.missingValue option)
              | value :: rest =>
                  if isValue value then
                    match given.set option value setting with
                    | .ok given => parseFrom given rest
                    | .error error => .error error
                  else
                    .error (.missingValue option)
          | none, none, _ => .error (.unexpected argument)
      | '-' :: letter :: letters =>
          match given.turnOnAll (letter :: letters) with
          | .ok (.inl given) => parseFrom given rest
          | .ok (.inr request) => .ok request
          | .error error => .error error
      | _ => .error (.unexpected argument)

/-- Reads a list of arguments. -/
def parse (arguments : List String) : Except UsageError Request := parseFrom {} arguments

end Cli

end ByteTape
