import Chip8.Instruction.Basic

set_option autoImplicit false

namespace Chip8

namespace Word

def x (w : UInt16) : Fin 16 := ⟨w.toNat / 256 % 16, Nat.mod_lt _ (by decide)⟩
def y (w : UInt16) : Fin 16 := ⟨w.toNat / 16 % 16, Nat.mod_lt _ (by decide)⟩
def last (w : UInt16) : Fin 16 := ⟨w.toNat % 16, Nat.mod_lt _ (by decide)⟩
def value (w : UInt16) : UInt8 := UInt8.ofNat w.toNat
def target (w : UInt16) : Fin 4096 := ⟨w.toNat % 4096, Nat.mod_lt _ (by decide)⟩

end Word

def Operation.ofNibble? : Nat → Option Operation
  | 0x0 => some .copy
  | 0x1 => some .or
  | 0x2 => some .and
  | 0x3 => some .xor
  | 0x4 => some .add
  | 0x5 => some .sub
  | 0x6 => some .shiftRight
  | 0x7 => some .subFrom
  | 0xE => some .shiftLeft
  | _ => none

namespace Instruction

open Word

def decodeF (x : Fin 16) : Nat → Option Instruction
  | 0x07 => some (.readDelay x)
  | 0x0A => some (.awaitKey x)
  | 0x15 => some (.setDelay x)
  | 0x18 => some (.setSound x)
  | 0x1E => some (.addIndex x)
  | 0x29 => some (.glyph x)
  | 0x33 => some (.digits x)
  | 0x55 => some (.save x)
  | 0x65 => some (.restore x)
  | _ => none

def decode (w : UInt16) : Option Instruction :=
  match w.toNat / 4096 with
  | 0x0 =>
    if w = 0x00E0 then some .clear
    else if w = 0x00EE then some .leave
    else none
  | 0x1 => some (.jump (target w))
  | 0x2 => some (.call (target w))
  | 0x3 => some (.skipEq (x w) (value w))
  | 0x4 => some (.skipNe (x w) (value w))
  | 0x5 => if (last w).val = 0 then some (.skipEqReg (x w) (y w)) else none
  | 0x6 => some (.set (x w) (value w))
  | 0x7 => some (.add (x w) (value w))
  | 0x8 => (Operation.ofNibble? (last w).val).map fun op => .operate op (x w) (y w)
  | 0x9 => if (last w).val = 0 then some (.skipNeReg (x w) (y w)) else none
  | 0xA => some (.setIndex (target w))
  | 0xB => some (.jumpFrom (target w))
  | 0xC => some (.random (x w) (value w))
  | 0xD => some (.draw (x w) (y w) (last w))
  | 0xE =>
    if w.toNat % 256 = 0x9E then some (.skipHeld (x w))
    else if w.toNat % 256 = 0xA1 then some (.skipFree (x w))
    else none
  | 0xF => decodeF (x w) (w.toNat % 256)
  | _ => none

end Instruction

end Chip8
