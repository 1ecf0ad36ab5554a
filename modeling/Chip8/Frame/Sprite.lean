import Chip8.Fault
import Chip8.Frame.Basic

set_option autoImplicit false

namespace Chip8.Frame

def flip (f : Frame) (number : Nat) : Except Trap (Frame × Bool) :=
  if h : number / 8 < 256 then
    let byte := f.bytes[number / 8]
    .ok (⟨f.bytes.set (number / 8) (byte ^^^ mask number)⟩, byte &&& mask number != 0)
  else .error .outOfRange

def drawBit (row : UInt8) (x y : Nat) (drawn : Frame × Bool) (bit : Nat) :
    Except Trap (Frame × Bool) :=
  if row >>> UInt8.ofNat (7 - bit) &&& 1 = 0 then .ok drawn
  else
    match drawn.1.flip ((x + bit) % 64 + y * 64) with
    | .ok (f, wasLit) => .ok (f, drawn.2 || wasLit)
    | .error t => .error t

def drawRow (row : UInt8) (x y : Nat) (drawn : Frame × Bool) : Except Trap (Frame × Bool) :=
  (List.range 8).foldlM (drawBit row x y) drawn

-- A bit that falls past the right edge wraps around, a row below the bottom is dropped.
def drawRows (x y : Nat) (drawn : Frame × Bool) : List UInt8 → Except Trap (Frame × Bool)
  | [] => .ok drawn
  | row :: rest =>
    if 32 ≤ y then .ok drawn
    else
      match drawRow row x y drawn with
      | .ok drawn => drawRows x (y + 1) drawn rest
      | .error t => .error t

def draw (f : Frame) (sprite : List UInt8) (x y : Nat) : Except Trap (Frame × Bool) :=
  drawRows (x % 64) (y % 32) (f, false) sprite

end Chip8.Frame
