import Chip8.Frame.Sprite
import Chip8.Instruction.Decode
import Chip8.Keypad
import Chip8.Random.Source
import Chip8.Store.Span

set_option autoImplicit false

namespace Chip8

structure Machine where
  store : Store
  frame : Frame
  keypad : Keypad
  random : Random.Source

def Machine.fresh (random : Random.Source) : Machine :=
  ⟨.initial, .blank, .empty, random⟩

inductive Progress where
  | executed
  | awaitingKey (x : Fin 16)
deriving DecidableEq, Repr

abbrev Exec := EStateM (Halt Fault) Machine

namespace Exec

def trap {α : Type} (t : Trap) : Exec α :=
  throw (.trap t)

def inspect {α : Type} (read : Store → Except (Halt Fault) α) : Exec α := fun m =>
  match read m.store with
  | .ok a => .ok a m
  | .error h => .error h m

def update (write : Store → Except (Halt Fault) Store) : Exec Unit := fun m =>
  match write m.store with
  | .ok store => .ok () { m with store }
  | .error h => .error h m

def change (f : Store → Store) : Exec Unit :=
  modify fun m => { m with store := f m.store }

def register (x : Nat) : Exec UInt8 :=
  inspect (·.readRegister x)

def setRegister (x : Nat) (value : UInt8) : Exec Unit :=
  update (·.writeRegister x value)

def setFlag (value : UInt8) : Exec Unit :=
  change (·.setFlag value)

def index : Exec UInt16 :=
  return (← get).store.i

def setIndex (a : UInt16) : Exec Unit :=
  change fun s => { s with i := a }

def jump (a : UInt16) : Exec Unit :=
  change fun s => { s with pc := a }

def skipIf (condition : Bool) : Exec Unit :=
  if condition then change Store.advance else pure ()

def randomByte : Exec UInt8 :=
  modifyGet fun m => (m.random.byte, { m with random := m.random.skip })

end Exec

end Chip8
