set_option autoImplicit false

namespace Chip8.Text

inductive NumeralError where
  | empty
  | invalidDigit
  | tooLarge
  | tooSmall
deriving DecidableEq, Repr

def NumeralError.message : NumeralError → String
  | .empty => "cannot parse integer from empty string"
  | .invalidDigit => "invalid digit found in string"
  | .tooLarge => "number too large to fit in target type"
  | .tooSmall => "number too small to fit in target type"

def digitValue (c : Char) : Option Nat :=
  if c.isDigit then some (c.toNat - '0'.toNat) else none

-- Reads on from the value `acc`. Passing the limit counts only once the digit itself is valid.
def readDigits (limit : Nat) (passed : NumeralError) : Nat → List Char → Except NumeralError Nat
  | acc, [] => .ok acc
  | acc, c :: rest =>
    match digitValue c with
    | none => .error .invalidDigit
    | some d =>
      if limit < acc * 10 + d then .error passed
      else readDigits limit passed (acc * 10 + d) rest

def readNatural (limit : Nat) : List Char → Except NumeralError Nat
  | [] => .error .empty
  | '+' :: c :: rest => readDigits limit .tooLarge 0 (c :: rest)
  | cs => readDigits limit .tooLarge 0 cs

def signedSize : Nat := 0x8000000000000000

def readSigned : List Char → Except NumeralError Int
  | [] => .error .empty
  | '+' :: c :: rest => (readDigits (signedSize - 1) .tooLarge 0 (c :: rest)).map Int.ofNat
  | '-' :: c :: rest => (readDigits signedSize .tooSmall 0 (c :: rest)).map (fun n => -(n : Int))
  | cs => (readDigits (signedSize - 1) .tooLarge 0 cs).map Int.ofNat

end Chip8.Text
