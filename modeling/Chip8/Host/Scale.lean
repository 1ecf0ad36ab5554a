set_option autoImplicit false

namespace Chip8.Host

inductive Scale where
  | x1
  | x2
  | x4
  | x8
  | x16
  | x32
deriving DecidableEq, Repr

namespace Scale

def factor : Scale → Nat
  | .x1 => 1
  | .x2 => 2
  | .x4 => 4
  | .x8 => 8
  | .x16 => 16
  | .x32 => 32

def factors : List Nat := [1, 2, 4, 8, 16, 32]

def ofFactor : Nat → Scale
  | 1 => .x1
  | 2 => .x2
  | 4 => .x4
  | 16 => .x16
  | 32 => .x32
  | _ => .x8

end Scale

end Chip8.Host
