set_option autoImplicit false

namespace Chip8.Random

abbrev Key := Vector UInt32 8
abbrev Block := Vector UInt32 16

def rotateLeft (x : UInt32) (k : UInt32) : UInt32 :=
  x <<< k ||| x >>> (32 - k)

def quarterRound (s : Block) (a b c d : Fin 16) : Block :=
  let s := s.set a (s[a] + s[b])
  let s := s.set d (rotateLeft (s[d] ^^^ s[a]) 16)
  let s := s.set c (s[c] + s[d])
  let s := s.set b (rotateLeft (s[b] ^^^ s[c]) 12)
  let s := s.set a (s[a] + s[b])
  let s := s.set d (rotateLeft (s[d] ^^^ s[a]) 8)
  let s := s.set c (s[c] + s[d])
  s.set b (rotateLeft (s[b] ^^^ s[c]) 7)

def doubleRound (s : Block) : Block :=
  let s := quarterRound s 0 4 8 12
  let s := quarterRound s 1 5 9 13
  let s := quarterRound s 2 6 10 14
  let s := quarterRound s 3 7 11 15
  let s := quarterRound s 0 5 10 15
  let s := quarterRound s 1 6 11 12
  let s := quarterRound s 2 7 8 13
  quarterRound s 3 4 9 14

-- The text "expand 32-byte k" in four words.
def constants : Vector UInt32 4 :=
  #v[0x61707865, 0x3320646E, 0x79622D32, 0x6B206574]

def initialBlock (key : Key) (number : Nat) : Block :=
  constants ++ key ++ #v[UInt32.ofNat number, UInt32.ofNat (number / UInt32.size), 0, 0]

def block (key : Key) (number : Nat) : Block :=
  let start := initialBlock key number
  (Nat.repeat doubleRound 6 start).zipWith (· + ·) start

def keyWord (key : Key) (j : Nat) : UInt32 :=
  (block key (j / 16))[Fin.ofNat 16 j]

end Chip8.Random
