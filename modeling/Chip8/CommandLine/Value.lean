import Chip8.CommandLine.Parameter
import Chip8.Host.Scale
import Chip8.Text.Numeral

set_option autoImplicit false

namespace Chip8.CommandLine

open Text (NumeralError readNatural readSigned)

inductive ValueError where
  | numeral (e : NumeralError)
  | rateOutOfRange (n : Int)
  | notANumber (text : String)
  | notAScale
deriving DecidableEq, Repr

def rateLimit : Nat := 4294967295

def ValueError.message : ValueError → String
  | .numeral e => e.message
  | .rateOutOfRange n => toString n ++ " is not in 1..=" ++ toString rateLimit
  | .notANumber text => "`" ++ text ++ "` is not a number"
  | .notAScale => "scale must be one of " ++ toString Host.Scale.factors

-- A rate is read as a signed number before its bounds are looked at.
def readRate (text : String) : Except ValueError Nat :=
  match readSigned text.toList with
  | .error e => .error (.numeral e)
  | .ok n => if 1 ≤ n ∧ n ≤ rateLimit then .ok n.toNat else .error (.rateOutOfRange n)

def readScale (text : String) : Except ValueError Nat :=
  match readNatural (UInt64.size - 1) text.toList with
  | .error _ => .error (.notANumber text)
  | .ok n => if n ∈ Host.Scale.factors then .ok n else .error .notAScale

def readSeed (text : String) : Except ValueError Nat :=
  match readNatural (UInt64.size - 1) text.toList with
  | .error e => .error (.numeral e)
  | .ok n => .ok n

end Chip8.CommandLine
