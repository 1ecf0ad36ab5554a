set_option autoImplicit false

namespace Chip8

inductive Operation where
  | copy
  | or
  | and
  | xor
  | add
  | sub
  | shiftRight
  | subFrom
  | shiftLeft
deriving DecidableEq, Repr

inductive Instruction where
  | clear
  | leave
  | jump (target : Fin 4096)
  | call (target : Fin 4096)
  | skipEq (x : Fin 16) (value : UInt8)
  | skipNe (x : Fin 16) (value : UInt8)
  | skipEqReg (x y : Fin 16)
  | set (x : Fin 16) (value : UInt8)
  | add (x : Fin 16) (value : UInt8)
  | operate (op : Operation) (x y : Fin 16)
  | skipNeReg (x y : Fin 16)
  | setIndex (target : Fin 4096)
  | jumpFrom (target : Fin 4096)
  | random (x : Fin 16) (mask : UInt8)
  | draw (x y rows : Fin 16)
  | skipHeld (x : Fin 16)
  | skipFree (x : Fin 16)
  | readDelay (x : Fin 16)
  | awaitKey (x : Fin 16)
  | setDelay (x : Fin 16)
  | setSound (x : Fin 16)
  | addIndex (x : Fin 16)
  | glyph (x : Fin 16)
  | digits (x : Fin 16)
  | save (x : Fin 16)
  | restore (x : Fin 16)
deriving DecidableEq, Repr

def Operation.nibble : Operation → Nat
  | .copy => 0x0
  | .or => 0x1
  | .and => 0x2
  | .xor => 0x3
  | .add => 0x4
  | .sub => 0x5
  | .shiftRight => 0x6
  | .subFrom => 0x7
  | .shiftLeft => 0xE

namespace Instruction

def withTarget (group : Nat) (target : Fin 4096) : UInt16 :=
  UInt16.ofNat (group * 4096 + target.val)

def withValue (group : Nat) (x : Fin 16) (value : UInt8) : UInt16 :=
  UInt16.ofNat (group * 4096 + x.val * 256 + value.toNat)

def withPair (group : Nat) (x y : Fin 16) (last : Nat) : UInt16 :=
  UInt16.ofNat (group * 4096 + x.val * 256 + y.val * 16 + last)

def encode : Instruction → UInt16
  | .clear => 0x00E0
  | .leave => 0x00EE
  | .jump target => withTarget 0x1 target
  | .call target => withTarget 0x2 target
  | .skipEq x value => withValue 0x3 x value
  | .skipNe x value => withValue 0x4 x value
  | .skipEqReg x y => withPair 0x5 x y 0x0
  | .set x value => withValue 0x6 x value
  | .add x value => withValue 0x7 x value
  | .operate op x y => withPair 0x8 x y op.nibble
  | .skipNeReg x y => withPair 0x9 x y 0x0
  | .setIndex target => withTarget 0xA target
  | .jumpFrom target => withTarget 0xB target
  | .random x mask => withValue 0xC x mask
  | .draw x y rows => withPair 0xD x y rows.val
  | .skipHeld x => withValue 0xE x 0x9E
  | .skipFree x => withValue 0xE x 0xA1
  | .readDelay x => withValue 0xF x 0x07
  | .awaitKey x => withValue 0xF x 0x0A
  | .setDelay x => withValue 0xF x 0x15
  | .setSound x => withValue 0xF x 0x18
  | .addIndex x => withValue 0xF x 0x1E
  | .glyph x => withValue 0xF x 0x29
  | .digits x => withValue 0xF x 0x33
  | .save x => withValue 0xF x 0x55
  | .restore x => withValue 0xF x 0x65

end Instruction

end Chip8
