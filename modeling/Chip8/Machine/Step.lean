import Chip8.Log
import Chip8.Machine.Execute

set_option autoImplicit false

namespace Chip8.Machine

def fetch (m : Machine) : Except (Halt Fault) UInt16 :=
  m.store.readWord m.store.pc

def trace (m : Machine) : Option LogLine :=
  match m.fetch with
  | .ok word => some (.fetched m.store.pc word)
  | .error _ => none

def advance (m : Machine) : Machine :=
  { m with store := m.store.advance }

def executeWord (pc word : UInt16) (m : Machine) : Except (Halt Failure) Progress × Machine :=
  match Instruction.decode word with
  | none => (.error (.error (.cpu word pc .unknownInstruction)), m)
  | some instruction =>
    match Exec.execute instruction m with
    | .ok progress m => (.ok progress, m)
    | .error halt m => (.error (halt.map (.cpu word pc)), m)

def step (m : Machine) : Except (Halt Failure) Progress × Machine :=
  match m.fetch with
  | .error halt => (.error (halt.map (.cpu 0 m.store.pc)), m)
  | .ok word => m.advance.executeWord m.store.pc word

-- The word by which a failure to store a key in a register is reported.
def awaitWord (register : Nat) : UInt16 :=
  (0xF00A : UInt16) ||| ((UInt16.ofNat register &&& 0xF) <<< 8)

def resume (m : Machine) (register : Nat) (key : UInt8) : Except (Halt Failure) Unit × Machine :=
  match m.store.writeRegister register key with
  | .ok store => (.ok (), { m with store })
  | .error halt => (.error (halt.map (.cpu (awaitWord register) (m.store.pc - 2))), m)

def load (m : Machine) (program : List UInt8) : Except (Halt Failure) Unit × Machine :=
  match m.store.load program with
  | .ok store => (.ok (), { m with store })
  | .error halt => (.error halt, m)

structure Run where
  machine : Machine
  steps : Nat
  last : Except (Halt Failure) Progress
  logged : List LogLine

def Run.log (r : Run) : List LogLine := r.logged.reverse

def Run.extend : Nat → Run → Run
  | 0, r => r
  | n + 1, r =>
    let logged := r.machine.trace.toList ++ r.logged
    match r.machine.step with
    | (.ok .executed, m) =>
      Run.extend n { machine := m, steps := r.steps + 1, last := .ok .executed, logged }
    | (answer, m) => { machine := m, steps := r.steps + 1, last := answer, logged }

def run (m : Machine) (n : Nat) : Run :=
  Run.extend n { machine := m, steps := 0, last := .ok .executed, logged := [] }

end Chip8.Machine
