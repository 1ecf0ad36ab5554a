import Chip8.Session.Basic

set_option autoImplicit false

namespace Chip8.Session

inductive Deed where
  -- The stop flag at the head of the loop.
  | checked (stop : Bool)
  | locked (poisoned : Bool)
  | stepped (answer : Answer)
  | looked (x : Fin 16) (found : Option (Fin 16))
  -- The stop flag while a key is waited for.
  | asked (stop : Bool)
  | resumed (x key : Fin 16) (answer : Answer)

inductive Entry where
  | clock (deed : Deed)
  | host (action : HostAction)

def HostAction.command? : HostAction → Option Command
  | .keys command => some (.keys command)
  | .tick timer => some (.tick timer)
  | .stop | .poison => none

namespace Entry

def command? : Entry → Option Command
  | .clock (.stepped _) => some .step
  | .clock (.resumed x key _) => some (.resume x (UInt8.ofNat key))
  | .clock _ => none
  | .host action => action.command?

def deed? : Entry → Option Deed
  | .clock deed => some deed
  | .host _ => none

def isRound : Entry → Bool
  | .clock (.checked false) => true
  | _ => false

def isStep : Entry → Bool
  | .clock (.stepped _) => true
  | _ => false

def isTransition : Entry → Bool
  | .clock (.stepped _) | .clock (.resumed ..) => true
  | _ => false

end Entry

def commands (story : List Entry) : List Command :=
  story.filterMap Entry.command?

def deeds (story : List Entry) : List Deed :=
  story.filterMap Entry.deed?

theorem commands_append (before after : List Entry) :
    commands (before ++ after) = commands before ++ commands after :=
  List.filterMap_append

theorem deeds_append (before after : List Entry) :
    deeds (before ++ after) = deeds before ++ deeds after :=
  List.filterMap_append

def nextDeeds (s : Session) : List Deed :=
  match s.phase with
  | .checking => [.checked s.stop]
  | .locking => [.locked s.poisoned]
  | .fetching =>
    match s.machine.fetch with
    | .ok _ => []
    | .error _ => [.stepped s.machine.step.1]
  | .executing pc word => [.stepped (s.machine.executeWord pc word).1]
  | .waiting x .looking => [.looked x s.machine.keypad.first]
  | .waiting _ .asking => [.asked s.stop]
  | .storing x key =>
    if s.poisoned then [.locked true]
    else [.locked false, .resumed x key (s.machine.perform (.resume x (UInt8.ofNat key))).1]
  | _ => []

def entries (s : Session) : Event → List Entry
  | .clock => s.nextDeeds.map .clock
  | .host action => if s.blocks action then [] else [.host action]

def story (s : Session) : List Event → List Entry
  | [] => []
  | event :: rest => s.entries event ++ (s.react event).story rest

end Chip8.Session
