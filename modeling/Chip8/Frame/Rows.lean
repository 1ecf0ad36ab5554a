import Chip8.Frame.Basic

set_option autoImplicit false

namespace Chip8.Frame

def joined (byte : Nat → UInt8) : (count : Nat) → BitVec (8 * count)
  | 0 => 0#0
  | count + 1 => joined byte count ++ (byte count).toBitVec

def rows (f : Frame) : Vector (BitVec 64) 32 :=
  Vector.ofFn fun y => joined (fun k => f.bytes.get (Fin.ofNat 256 (8 * y + k))) 8

def ofRows (rows : Vector (BitVec 64) 32) : Frame :=
  ⟨Vector.ofFn fun k =>
    have within : k.val / 8 < 32 := by omega
    .ofBitVec (rows[k.val / 8].extractLsb' (56 - 8 * (k.val % 8)) 8)⟩

end Chip8.Frame
