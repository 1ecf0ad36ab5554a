import Chip8.Fault
import Chip8.Text.Duration

set_option autoImplicit false

namespace Chip8

open Text (hex address duration)

inductive LogLine where
  | fetched (pc word : UInt16)
  | clockRunning (period : Nat)
  | clockStopped
  | awaitingKey (register : Fin 16)
  | failed (failure : Failure)
  | programRead (size : Nat) (path : String)
deriving DecidableEq, Repr

namespace LogLine

def level : LogLine → String
  | .fetched .. => "TRACE"
  | .awaitingKey _ => "DEBUG"
  | .failed _ => "ERROR"
  | .clockRunning _ | .clockStopped | .programRead .. => "INFO"

def text : LogLine → String
  | .fetched pc word => address 3 pc.toNat ++ ": " ++ hex 4 word.toNat
  | .clockRunning period => "instruction clock running at " ++ duration period ++ " per tick"
  | .clockStopped => "instruction clock stopped"
  | .awaitingKey register => "waiting for a key press for V" ++ hex 1 register.val
  | .failed failure => failure.message
  | .programRead size path => "read " ++ toString size ++ " bytes from " ++ path

def render (line : LogLine) : String :=
  line.level ++ " " ++ line.text

end LogLine

end Chip8
