import Chip8.Machine.Step

set_option autoImplicit false

namespace Chip8

inductive KeyCommand where
  | press (code : UInt8)
  | release (code : UInt8)
  | replace (codes : List UInt8)
  | clear
deriving DecidableEq, Repr

def Keypad.perform (p : Keypad) : KeyCommand → Keypad
  | .press code => p.press code
  | .release code => p.release code
  | .replace codes => .ofCodes codes
  | .clear => .empty

def Keypad.performAll (p : Keypad) (commands : List KeyCommand) : Keypad :=
  commands.foldl perform p

-- Timers tick of their own accord, between any two of the others.
inductive Command where
  | load (program : List UInt8)
  | step
  | resume (register : Nat) (key : UInt8)
  | keys (command : KeyCommand)
  | tick (timer : Timer)
deriving DecidableEq, Repr

abbrev Answer := Except (Halt Failure) Progress

def Machine.perform (m : Machine) : Command → Answer × Machine
  | .load program =>
    let (answer, m) := m.load program
    (answer.map fun _ => .executed, m)
  | .step => m.step
  | .resume register key =>
    let (answer, m) := m.resume register key
    (answer.map fun _ => .executed, m)
  | .keys command => (.ok .executed, { m with keypad := m.keypad.perform command })
  | .tick timer => (.ok .executed, { m with store := m.store.tick timer })

-- A command that fails does not end the history.
def Machine.performAll (m : Machine) (history : List Command) : Machine :=
  history.foldl (fun m command => (m.perform command).2) m

theorem Machine.performAll_append (m : Machine) (before after : List Command) :
    m.performAll (before ++ after) = (m.performAll before).performAll after := by
  simp [performAll]

end Chip8
