import ByteTape.Bracket
import ByteTape.Text.Utf8

/-!
# Errors

What can go wrong: a program whose brackets do not pair up, a program file that cannot be read, and
a source or a sink that fails. `message` is the one place where the wording is fixed.
-/

namespace ByteTape

/-- Why a program could not be loaded or a run could not go on. -/
inductive Error where
  /-- A bracket of the program has no partner. -/
  | malformed (unmatched : Unmatched)
  /-- The program file at `path` could not be read. -/
  | load (path : List UInt8) (cause : String)
  /-- Reading input or writing output failed. -/
  | io (cause : String)
  deriving DecidableEq, Repr

namespace Error

/-- The text of an error. -/
def message : Error → String
  | malformed ⟨bracket, position⟩ =>
      "malformed program: unmatched '" ++ String.singleton bracket.symbol ++ "' at byte "
        ++ toString position
  | load path cause => "failed to read program from " ++ Text.Utf8.lossy path ++ ": " ++ cause
  | io cause => "I/O error: " ++ cause

/-- The text of the failure underneath, for an error that passes one on. -/
def cause? : Error → Option String
  | malformed _ => none
  | load _ cause => some cause
  | io cause => some cause

def isMalformed : Error → Bool
  | malformed _ => true
  | _ => false

end Error

end ByteTape
