/-!
A countdown timer: a value shared with a driver that lowers it sixty times a second and finishes
once it reaches zero. Setting the timer cancels the driver, waits until it has finished, stores the
new value and, unless that is zero, spawns a fresh driver. Caller and drivers take turns in any
order; each event is one atomic action of one of them.
-/

set_option autoImplicit false

namespace Chip8

namespace Countdown

def hertz : Nat := 60

-- A driver that is leaving its loop will not touch the value again, but has yet to finish.
inductive Phase where
  | waiting
  | ticking
  | leaving
  | finished
deriving DecidableEq, Repr

structure Driver where
  start : UInt8
  ticks : Nat
  cancelled : Bool
  phase : Phase
deriving DecidableEq, Repr

inductive Call where
  | idle
  | cancelling (value : UInt8)
  | joining (value : UInt8)
  | storing (value : UInt8)
  | spawning (value : UInt8)
deriving DecidableEq, Repr

inductive Event where
  | set (value : UInt8)
  | caller
  | timeout (driver : Nat)
  | decrement (driver : Nat)
  | notice (driver : Nat)
  | finish (driver : Nat)
deriving DecidableEq, Repr

end Countdown

/-- All drivers ever spawned are kept, the newest first. `held` says that the newest has not been
joined yet. -/
structure Countdown where
  value : UInt8
  drivers : List Countdown.Driver
  held : Bool
  call : Countdown.Call
deriving DecidableEq, Repr

namespace Countdown

def idle : Countdown := ⟨0, [], false, .idle⟩

def Driver.spawn (start : UInt8) : Driver := ⟨start, 0, false, .waiting⟩

def Driver.isFinished (d : Driver) : Bool := d.phase = .finished

def newestFinished (c : Countdown) : Bool :=
  c.drivers.head?.all Driver.isFinished

def isRunning (c : Countdown) : Bool :=
  c.held && !c.newestFinished

def cancelNewest (c : Countdown) : Countdown :=
  { c with drivers := c.drivers.modifyHead fun d => { d with cancelled := true } }

def advanceCall (c : Countdown) : Countdown :=
  match c.call with
  | .idle => c
  | .cancelling v =>
    if c.held then { c.cancelNewest with call := .joining v } else { c with call := .storing v }
  | .joining v =>
    if c.newestFinished then { c with held := false, call := .storing v } else c
  | .storing v => { c with value := v, call := if v = 0 then .idle else .spawning v }
  | .spawning v => { c with drivers := .spawn v :: c.drivers, held := true, call := .idle }

-- Driver `k` lowers the value. The subtraction wraps, so it must never meet a value of zero.
def decrement (c : Countdown) (k : Nat) (d : Driver) : Countdown :=
  let phase := if c.value - 1 = 0 then .leaving else .waiting
  { c with
    value := c.value - 1
    drivers := c.drivers.set k { d with ticks := d.ticks + 1, phase } }

-- What is not possible at the moment does not happen.
def react (c : Countdown) : Event → Countdown
  | .set v => if c.call = .idle then { c with call := .cancelling v } else c
  | .caller => c.advanceCall
  | .timeout k =>
    match c.drivers[k]? with
    | some d =>
      if d.phase = .waiting then { c with drivers := c.drivers.set k { d with phase := .ticking } }
      else c
    | none => c
  | .decrement k =>
    match c.drivers[k]? with
    | some d => if d.phase = .ticking then c.decrement k d else c
    | none => c
  | .notice k =>
    match c.drivers[k]? with
    | some d =>
      if d.phase = .waiting ∧ d.cancelled then
        { c with drivers := c.drivers.set k { d with phase := .leaving } }
      else c
    | none => c
  | .finish k =>
    match c.drivers[k]? with
    | some d =>
      if d.phase = .leaving then { c with drivers := c.drivers.set k { d with phase := .finished } }
      else c
    | none => c

def run (c : Countdown) (events : List Event) : Countdown :=
  events.foldl react c

theorem run_append (c : Countdown) (before after : List Event) :
    c.run (before ++ after) = (c.run before).run after := by
  simp [run]

def set (c : Countdown) (value : UInt8) : Countdown :=
  c.run [.set value, .caller, .notice 0, .finish 0, .caller, .caller, .caller]

def drain (c : Countdown) : Countdown :=
  c.run ((List.replicate c.value.toNat [Event.timeout 0, .decrement 0]).flatten ++ [.finish 0])

end Countdown

end Chip8
