import Chip8.Countdown
import Chip8.Session.Basic

set_option autoImplicit false

namespace Chip8.Session

structure Cue where
  pc : UInt16
  action : HostAction
deriving DecidableEq, Repr

structure Scene where
  session : Session
  cues : List Cue
  taken : Nat
  untilTick : Nat

namespace Scene

def turnsPerTick (rate : Nat) : Nat :=
  4 * max 1 (min (rate / Countdown.hertz) 256)

def isDue (s : Session) (cue : Cue) : Bool :=
  s.visible.any (fun m => m.store.pc = cue.pc) && !s.blocks cue.action

def takeCues (session : Session) (taken : Nat) : List Cue → Session × List Cue × Nat
  | [] => (session, [], taken)
  | cue :: rest =>
    if isDue session cue then takeCues (session.act cue.action) (taken + 1) rest
    else (session, cue :: rest, taken)

def turn (rate : Nat) (scene : Scene) : Scene :=
  let (session, cues, taken) := takeCues scene.session scene.taken scene.cues
  match scene.untilTick with
  | 0 =>
    let ticked := (session.act (.tick .delay)).act (.tick .sound)
    ⟨ticked.advance, cues, taken, turnsPerTick rate⟩
  | n + 1 => ⟨session.advance, cues, taken, n⟩

def play (rate : Nat) : Nat → Scene → Scene
  | 0, scene => scene
  | turns + 1, scene =>
    if scene.session.phase.isOver then scene else play rate turns (scene.turn rate)

def begin (session : Session) (cues : List Cue) (rate : Nat) : Scene :=
  ⟨session, cues, 0, turnsPerTick rate⟩

end Scene

def patience : Nat := 20000000

def perform (session : Session) (cues : List Cue) (rate : Nat) : Scene :=
  (Scene.begin session cues rate).play rate patience

end Chip8.Session
