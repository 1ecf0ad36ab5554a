import Chip8.Machine.Command

/-!
Waiting for a key while others use the keypad. The waiter looks at the keys, and only when none is
held does it ask whether it should stop; between the two it keeps the keypad to itself. It then
sleeps for a while and looks again.
-/

set_option autoImplicit false

namespace Chip8

inductive KeyWait where
  | looking
  | asking
  | ended (key : Option (Fin 16))
deriving DecidableEq, Repr

namespace KeyWait

def advance (keypad : Keypad) (stop : Bool) : KeyWait → KeyWait
  | .looking =>
    match keypad.first with
    | some key => .ended (some key)
    | none => .asking
  | .asking => if stop then .ended none else .looking
  | .ended key => .ended key

def holdsKeypad : KeyWait → Bool
  | .asking => true
  | _ => false

end KeyWait

structure SharedWait where
  keypad : Keypad
  stop : Bool
  wait : KeyWait
deriving DecidableEq, Repr

namespace SharedWait

inductive Event where
  | waiter
  | keys (command : KeyCommand)
  | stop
deriving DecidableEq, Repr

def react (s : SharedWait) : Event → SharedWait
  | .waiter => { s with wait := s.wait.advance s.keypad s.stop }
  | .keys command =>
    if s.wait.holdsKeypad then s else { s with keypad := s.keypad.perform command }
  | .stop => { s with stop := true }

def start (keypad : Keypad) (stop : Bool) : SharedWait := ⟨keypad, stop, .looking⟩

def run (s : SharedWait) (events : List Event) : SharedWait :=
  events.foldl react s

theorem run_append (s : SharedWait) (before after : List Event) :
    s.run (before ++ after) = (s.run before).run after := by
  simp [run]

end SharedWait

end Chip8
