import Chip8.Text.Hex

set_option autoImplicit false

namespace Chip8

open Text (hex address)

inductive Fault where
  | invalidRegister (register : Nat)
  | invalidDigit (digit : UInt8)
  | stackOverflow (target : UInt16)
  | protectionViolation (first last : Nat)
  | unknownInstruction
deriving DecidableEq, Repr

def Fault.message : Fault → String
  | .invalidRegister register => "invalid register V" ++ hex 1 register
  | .invalidDigit digit => "invalid font digit " ++ address 2 digit.toNat
  | .stackOverflow target => "stack overflow calling subroutine at " ++ address 3 target.toNat
  | .protectionViolation first last =>
    "memory protection violation accessing " ++ address 3 first ++ "..=" ++ address 3 last
  | .unknownInstruction => "unknown instruction"

inductive Failure where
  | cpu (word pc : UInt16) (fault : Fault)
  | programTooLarge (size limit : Nat)
  | io (text : String)
  | poison (text : String)
  | window (text : String)
  | audio (text : String)
deriving DecidableEq, Repr

def Failure.message : Failure → String
  | .cpu word pc fault =>
    "CPU Error: " ++ fault.message ++ " (opcode " ++ hex 4 word.toNat ++ " at " ++
      address 3 pc.toNat ++ ")"
  | .programTooLarge size limit =>
    "Program is " ++ toString size ++ " bytes, only " ++ toString limit ++ " bytes fit in memory"
  | .io text => "IO Error: " ++ text
  | .poison text => "Mutex Poison Error: " ++ text
  | .window text => "Minifb Error: " ++ text
  | .audio text => "Audio Error: " ++ text

/-- Arithmetic or indexing that left its range: a machine that meets one cannot go on. -/
inductive Trap where
  | overflow
  | outOfRange
deriving DecidableEq, Repr

/-- Why an operation stopped: with an error of its own, or caught by a check underneath it. -/
inductive Halt (ε : Type) where
  | error (e : ε)
  | trap (t : Trap)
deriving DecidableEq, Repr

def Halt.map {ε δ : Type} (f : ε → δ) : Halt ε → Halt δ
  | .error e => .error (f e)
  | .trap t => .trap t

end Chip8
