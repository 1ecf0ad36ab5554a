import Chip8.Random.Seed

set_option autoImplicit false

namespace Chip8.Random

structure Source where
  word : Nat → UInt32
  position : Nat

namespace Source

def ofKey (key : Key) : Source := ⟨keyWord key, 0⟩

def ofSeed (seed : UInt64) : Source := ofKey (keyOfSeed seed)

def byte (s : Source) : UInt8 := (s.word s.position).toUInt8

def skip (s : Source) : Source := { s with position := s.position + 1 }

end Source

end Chip8.Random
