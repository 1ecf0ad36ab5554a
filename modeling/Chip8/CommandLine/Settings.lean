import Chip8.CommandLine.Refusal

set_option autoImplicit false

namespace Chip8.CommandLine

structure Settings where
  rom : String
  clockRate : Nat
  scale : Nat
  seed : Option Nat
  muted : Bool
deriving DecidableEq, Repr

def defaultRate : Nat := 500
def defaultScale : Nat := 8

structure Draft where
  rom : Option String
  clockRate : Option Nat
  scale : Option Nat
  seed : Option Nat
  muted : Bool
deriving DecidableEq, Repr

def Draft.empty : Draft := ⟨none, none, none, none, false⟩

inductive Exit where
  | refused (r : Refusal)
  | help
  | version
deriving DecidableEq, Repr

abbrev Reading := Except Exit

def refuse {α : Type} (r : Refusal) : Reading α := .error (.refused r)

namespace Draft

def finish (d : Draft) : Reading Settings :=
  match d.rom with
  | none => refuse .missingRom
  | some rom =>
    .ok {
      rom
      clockRate := d.clockRate.getD defaultRate
      scale := d.scale.getD defaultScale
      seed := d.seed
      muted := d.muted }

def once {α : Type} (p : Parameter) (old : Option α) (read : String → Except ValueError α)
    (value : Option String) : Reading α :=
  match value with
  | none => refuse (.valueRequired p)
  | some text =>
    if old.isSome then refuse (.repeated p)
    else
      match read text with
      | .ok a => .ok a
      | .error reason => refuse (.invalidValue p text reason)

def setRom (d : Draft) (value : Option String) : Reading Draft :=
  match value with
  | none | some "" => refuse (.valueRequired .rom)
  | some text => .ok { d with rom := some text }

def enter (d : Draft) (p : Parameter) (value : Option String) : Reading Draft :=
  match p with
  | .rom => d.setRom value
  | .clockRate => do return { d with clockRate := ← once p d.clockRate readRate value }
  | .scale => do return { d with scale := ← once p d.scale readScale value }
  | .seed => do return { d with seed := ← once p d.seed readSeed value }
  | .mute => if d.muted then refuse (.repeated .mute) else .ok { d with muted := true }
  | .help => .error .help
  | .version => .error .version

end Draft

inductive Form where
  | separator
  | long (name : String) (value : Option String)
  | short (name : Char) (value : Option String)
  | plain
deriving DecidableEq, Repr

def splitEquals (cs : List Char) : String × Option String :=
  match cs.dropWhile (· ≠ '=') with
  | [] => (String.ofList cs, none)
  | _ :: value => (String.ofList (cs.takeWhile (· ≠ '=')), some (String.ofList value))

def attached : List Char → Option String
  | [] => none
  | '=' :: value => some (String.ofList value)
  | value => some (String.ofList value)

def Form.of (arg : String) : Form :=
  match arg.toList with
  | ['-', '-'] => .separator
  | '-' :: '-' :: cs =>
    let (name, value) := splitEquals cs
    .long name value
  | '-' :: c :: cs => .short c (attached cs)
  | _ => .plain

/-- The draft, the parameter that was named last but is not entered yet, and whether the separator
has been passed, behind which every argument is plain. -/
structure Reader where
  draft : Draft
  pending : Option (Parameter × Option String)
  plainOnly : Bool
deriving DecidableEq, Repr

namespace Reader

def start : Reader := ⟨.empty, none, false⟩

def settle (r : Reader) : Reading Reader :=
  match r.pending with
  | none => .ok r
  | some (p, value) => do return { r with draft := ← r.draft.enter p value, pending := none }

def romGiven (r : Reader) : Bool :=
  r.draft.rom.isSome || r.pending.any fun (p, _) => p = .rom

def takePlain (r : Reader) (arg : String) : Reading Reader :=
  if r.romGiven then refuse (.unexpectedArgument arg)
  else do
    let r ← r.settle
    return { r with pending := some (.rom, some arg) }

-- An option without a value in its own argument waits for the next one.
def takeOption (r : Reader) (p : Parameter) (value : Option String) : Reading Reader := do
  let r ← r.settle
  match value with
  | some _ => return { r with draft := ← r.draft.enter p value }
  | none => return { r with pending := some (p, none) }

def takeFlag (r : Reader) (p : Parameter) : Reading Reader := do
  let r ← r.settle
  return { r with draft := ← r.draft.enter p none }

def takeLong (r : Reader) (name : String) (value : Option String) : Reading Reader :=
  match Parameter.ofLong? name with
  | none => refuse (.unexpectedArgument ("--" ++ name))
  | some p =>
    if p.takesValue then r.takeOption p value
    else
      match value with
      | some text => refuse (.unexpectedValue p text)
      | none => r.takeFlag p

def takeShort (r : Reader) (name : Char) (value : Option String) : Reading Reader :=
  match Parameter.ofShort? name with
  | none => refuse (.unexpectedArgument (String.ofList ['-', name]))
  | some p => if p.takesValue then r.takeOption p value else r.takeFlag p

def take (r : Reader) (arg : String) : Reading Reader :=
  if r.plainOnly then r.takePlain arg
  else
    match Form.of arg, r.pending with
    | .separator, _ => .ok { r with plainOnly := true }
    | .long name value, _ => r.takeLong name value
    | .short name value, _ => r.takeShort name value
    | .plain, some (p, none) => .ok { r with pending := some (p, some arg) }
    | .plain, _ => r.takePlain arg

end Reader

-- Arguments are text: paths that are not UTF-8 are left out.
def read (args : List String) : Reading Settings := do
  let r ← args.foldlM Reader.take Reader.start
  let r ← r.settle
  r.draft.finish

end Chip8.CommandLine
