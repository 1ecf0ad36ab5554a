import Chip8.CallStack
import Chip8.Font

set_option autoImplicit false

namespace Chip8

abbrev Ram := Vector UInt8 4096

namespace Ram

def overwrite (ram : Ram) : Nat → List UInt8 → Ram
  | _, [] => ram
  | a, b :: rest => overwrite (ram.setIfInBounds a b) (a + 1) rest

theorem getElem_overwrite (ram : Ram) (a : Nat) (data : List UInt8) (t : Nat) (ht : t < 4096) :
    (ram.overwrite a data)[t] =
      if h : a ≤ t ∧ t < a + data.length then data[t - a] else ram[t] := by
  induction data generalizing ram a with
  | nil =>
    rw [dif_neg (by simp only [List.length_nil]; omega)]
    rfl
  | cons b rest ih =>
    rw [overwrite, ih]
    simp only [List.length_cons]
    rcases Nat.lt_trichotomy t a with before | here | after
    · rw [dif_neg (by omega), dif_neg (by omega), Vector.getElem_setIfInBounds_ne _ (by omega)]
    · subst here
      rw [dif_neg (by omega), dif_pos (by omega)]
      simp
    · obtain ⟨k, rfl⟩ := Nat.exists_eq_add_of_lt after
      have index : a + k + 1 - (a + 1) = k := by omega
      have next : a + k + 1 - a = k + 1 := by omega
      by_cases within : k < rest.length
      · rw [dif_pos (by omega), dif_pos (by omega)]
        simp [index, next]
      · rw [dif_neg (by omega), dif_neg (by omega), Vector.getElem_setIfInBounds_ne _ (by omega)]

end Ram

inductive Timer where
  | delay
  | sound
deriving DecidableEq, Repr

def Timer.lowered (value : UInt8) : UInt8 :=
  if value = 0 then 0 else value - 1

structure Store where
  ram : Ram
  v : Vector UInt8 16
  i : UInt16
  pc : UInt16
  stack : CallStack
  delay : UInt8
  sound : UInt8
deriving DecidableEq

namespace Store

def initial : Store where
  ram := Ram.overwrite (Vector.replicate 4096 0) Layout.glyphStart Font.glyphs
  v := Vector.replicate 16 0
  i := 0
  pc := 0x200
  stack := .empty
  delay := 0
  sound := 0

def readRegister (s : Store) (register : Nat) : Except (Halt Fault) UInt8 :=
  if h : register < 16 then .ok s.v[register] else .error (.error (.invalidRegister register))

def writeRegister (s : Store) (register : Nat) (value : UInt8) : Except (Halt Fault) Store :=
  if h : register < 16 then .ok { s with v := s.v.set register value }
  else .error (.error (.invalidRegister register))

def setFlag (s : Store) (value : UInt8) : Store :=
  { s with v := s.v.set 15 value }

def advance (s : Store) : Store :=
  { s with pc := s.pc + 2 }

def call (s : Store) (target : UInt16) : Except (Halt Fault) Store :=
  match s.stack.push? s.pc with
  | some stack => .ok { s with stack, pc := target }
  | none => .error (.error (.stackOverflow target))

-- Back to the address kept last. With nothing to return to, nothing happens.
def leave (s : Store) : Except (Halt Fault) Store :=
  match s.stack.pop with
  | .ok (some (pc, stack)) => .ok { s with stack, pc }
  | .ok none => .ok s
  | .error t => .error (.trap t)

def selectGlyph (s : Store) (digit : UInt8) : Except (Halt Fault) Store :=
  if 16 ≤ digit.toNat then .error (.error (.invalidDigit digit))
  else
    let start := Layout.glyphStart + digit.toNat * Font.glyphRows
    if start < UInt16.size then .ok { s with i := UInt16.ofNat start } else .error (.trap .overflow)

def timer (s : Store) : Timer → UInt8
  | .delay => s.delay
  | .sound => s.sound

def setTimer (s : Store) (timer : Timer) (value : UInt8) : Store :=
  match timer with
  | .delay => { s with delay := value }
  | .sound => { s with sound := value }

-- Each timer ticks on its own, sixty times a second, and stands still at zero.
def tick (s : Store) (timer : Timer) : Store :=
  s.setTimer timer (Timer.lowered (s.timer timer))

def runDown (s : Store) : Store :=
  { s with delay := 0, sound := 0 }

end Store

end Chip8
