import Chip8.KeyWait

/-!
A machine driven by a clock, one instruction a tick, while a host presses keys, asks for an end, or
dies holding the machine. Clock and host take turns in any order. Each turn of the clock is one
action that others see as a whole: it takes the machine for a fetch and the execution that follows,
and nobody else can have the machine in between.
-/

set_option autoImplicit false

namespace Chip8

namespace Session

abbrev Result := Except Failure Unit

inductive Phase where
  | starting
  | checking
  | locking
  | fetching
  | executing (pc word : UInt16)
  | announcing (x : Fin 16)
  | waiting (x : Fin 16) (wait : KeyWait)
  | storing (x key : Fin 16)
  | reporting (failure : Failure)
  | raising (failure : Failure)
  | closing (result : Result)
  | returned (result : Result)
  | trapped (t : Trap)

namespace Phase

def holdsMachine : Phase → Bool
  | .fetching | .executing .. => true
  | _ => false

def holdsKeypad : Phase → Bool
  | .waiting _ wait => wait.holdsKeypad
  | _ => false

def isOver : Phase → Bool
  | .returned _ | .trapped _ => true
  | _ => false

def ofHalt : Halt Failure → Phase
  | .error failure => .reporting failure
  | .trap t => .trapped t

end Phase

inductive HostAction where
  | keys (command : KeyCommand)
  | stop
  | poison
  | tick (timer : Timer)
deriving DecidableEq, Repr

inductive Event where
  | clock
  | host (action : HostAction)
deriving DecidableEq, Repr

def poisonText : String :=
  "Mutex poisoned: poisoned lock: another task failed inside"

def periodOfRate (rate : Nat) : Nat :=
  1000000000 / max rate 1

end Session

structure Session where
  machine : Machine
  stop : Bool
  poisoned : Bool
  period : Nat
  phase : Session.Phase
  logged : List LogLine

namespace Session

def prepare (machine : Machine) (poisoned stop : Bool) (rate : Nat) : Except Failure Session :=
  if poisoned then .error (.poison poisonText)
  else .ok ⟨machine, stop, poisoned, periodOfRate rate, .starting, []⟩

def log (s : Session) : List LogLine := s.logged.reverse

def visible (s : Session) : Option Machine :=
  if s.phase.holdsMachine then none else some s.machine

def goto (s : Session) (phase : Phase) : Session :=
  { s with phase }

def note (s : Session) (line : LogLine) : Session :=
  { s with logged := line :: s.logged }

def advance (s : Session) : Session :=
  match s.phase with
  | .starting => (s.note (.clockRunning s.period)).goto .checking
  | .checking => s.goto (if s.stop then .closing (.ok ()) else .locking)
  | .locking => s.goto (if s.poisoned then .reporting (.poison poisonText) else .fetching)
  | .fetching =>
    match s.machine.fetch with
    | .ok word =>
      let pc := s.machine.store.pc
      { s.note (.fetched pc word) with machine := s.machine.advance, phase := .executing pc word }
    | .error halt => s.goto (.ofHalt (halt.map (.cpu 0 s.machine.store.pc)))
  | .executing pc word =>
    match s.machine.executeWord pc word with
    | (.ok .executed, machine) => { s with machine, phase := .checking }
    | (.ok (.awaitingKey x), machine) => { s with machine, phase := .announcing x }
    | (.error halt, machine) => { s with machine, phase := .ofHalt halt }
  | .announcing x => (s.note (.awaitingKey x)).goto (.waiting x .looking)
  | .waiting x wait =>
    match wait.advance s.machine.keypad s.stop with
    | .ended (some key) => s.goto (.storing x key)
    | .ended none => s.goto (.closing (.ok ()))
    | wait => s.goto (.waiting x wait)
  | .storing x key =>
    if s.poisoned then s.goto (.reporting (.poison poisonText))
    else
      match s.machine.resume x (UInt8.ofNat key) with
      | (.ok (), machine) => { s with machine, phase := .checking }
      | (.error halt, machine) => { s with machine, phase := .ofHalt halt }
  | .reporting failure => (s.note (.failed failure)).goto (.raising failure)
  | .raising failure => { s with stop := true, phase := .closing (.error failure) }
  | .closing result => (s.note .clockStopped).goto (.returned result)
  | .returned _ | .trapped _ => s

def blocks (s : Session) : HostAction → Bool
  | .keys _ => s.phase.holdsKeypad
  | .poison => s.phase.holdsMachine
  | .stop | .tick _ => false

def act (s : Session) (action : HostAction) : Session :=
  if s.blocks action then s
  else
    match action with
    | .keys command =>
      { s with machine := { s.machine with keypad := s.machine.keypad.perform command } }
    | .stop => { s with stop := true }
    | .poison => { s with poisoned := true }
    | .tick timer =>
      { s with machine := { s.machine with store := s.machine.store.tick timer } }

def react (s : Session) : Event → Session
  | .clock => s.advance
  | .host action => s.act action

def run (s : Session) (events : List Event) : Session :=
  events.foldl react s

theorem run_append (s : Session) (before after : List Event) :
    s.run (before ++ after) = (s.run before).run after := by
  simp [run]

end Session

end Chip8
