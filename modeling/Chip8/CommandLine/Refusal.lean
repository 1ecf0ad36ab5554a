import Chip8.CommandLine.Value
import Chip8.Text.ControlSequence

set_option autoImplicit false

namespace Chip8.CommandLine

inductive Refusal where
  | missingRom
  | valueRequired (p : Parameter)
  | repeated (p : Parameter)
  | invalidValue (p : Parameter) (text : String) (reason : ValueError)
  | unexpectedArgument (text : String)
  | unexpectedValue (p : Parameter) (text : String)
deriving DecidableEq, Repr

def emphasised (text : String) : String :=
  "\x1b[1m" ++ text ++ "\x1b[0m"

def advice : String :=
  "For more information, try '" ++ emphasised Parameter.help.shown ++ "'."

def firstLine (text : List Char) : List Char :=
  let line := text.takeWhile (· ≠ '\n')
  if '\n' ∈ text ∧ line.getLast? = some '\r' then line.dropLast else line

namespace Refusal

def cause : Refusal → String
  | .missingRom => "the following required arguments were not provided:"
  | .valueRequired p => "a value is required for '" ++ p.shown ++ "' but none was supplied"
  | .repeated p => "the argument '" ++ p.shown ++ "' cannot be used multiple times"
  | .invalidValue p text reason =>
    "invalid value '" ++ emphasised text ++ "' for '" ++ p.shown ++ "': " ++ reason.message
  | .unexpectedArgument text => "unexpected argument '" ++ emphasised text ++ "' found"
  | .unexpectedValue p text =>
    "unexpected value '" ++ emphasised text ++ "' for '" ++ p.shown ++
      "' found; no more were expected"

-- A sequence left open in the cause can reach into the advice.
def message (r : Refusal) : String :=
  let text := "error: " ++ r.cause ++ "\n\n" ++ advice ++ "\n"
  String.ofList (firstLine (Text.visible text.toList))

end Refusal

end Chip8.CommandLine
