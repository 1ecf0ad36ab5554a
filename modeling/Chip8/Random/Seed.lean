import Chip8.Random.ChaCha

set_option autoImplicit false

namespace Chip8.Random

def rotateRight (x : UInt32) (k : UInt32) : UInt32 :=
  x >>> k ||| x <<< ((32 - k) % 32)

def advanceSeed (s : UInt64) : UInt64 :=
  s * 6364136223846793005 + 11634580027462260723

def scramble (s : UInt64) : UInt32 :=
  rotateRight (((s >>> 18) ^^^ s) >>> 27).toUInt32 (s >>> 59).toUInt32

def keyOfSeed (seed : UInt64) : Key :=
  Vector.ofFn fun i => scramble (Nat.repeat advanceSeed (i.val + 1) seed)

def keyOfBytes (bytes : List UInt8) : Key :=
  Vector.ofFn fun i =>
    let byte (k : Nat) : UInt32 := (bytes.getD (4 * i.val + k) 0).toUInt32
    byte 0 ||| byte 1 <<< 8 ||| byte 2 <<< 16 ||| byte 3 <<< 24

end Chip8.Random
