set_option autoImplicit false

namespace Chip8

-- Pixels row by row, eight to a byte, the leftmost in the most significant bit.
structure Frame where
  bytes : Vector UInt8 256
deriving DecidableEq

namespace Frame

def width : Nat := 64
def height : Nat := 32

def blank : Frame := ⟨Vector.replicate 256 0⟩

def mask (number : Nat) : UInt8 :=
  0x80 >>> UInt8.ofNat (number % 8)

def pixel (f : Frame) (x y : Nat) : Bool :=
  let number := x % 64 + y % 32 * 64
  have within : number / 8 < 256 := by omega
  f.bytes[number / 8] &&& mask number != 0

def isBlank (f : Frame) : Bool :=
  f.bytes.all (· == 0)

def grid (f : Frame) : Vector (Vector Bool 64) 32 :=
  Vector.ofFn fun y => Vector.ofFn fun x => f.pixel x y

theorem pixel_mod (f : Frame) (x y : Nat) : f.pixel x y = f.pixel (x % 64) (y % 32) := by
  simp [pixel]

end Frame

end Chip8
