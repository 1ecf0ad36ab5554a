set_option autoImplicit false

namespace Chip8.Host

inductive HostKey where
  | digit (d : Fin 10)
  | letter (c : Char)
  | other
deriving DecidableEq, Repr

def rows : List (List (HostKey × UInt8)) :=
  [ [(.digit 1, 0x1), (.digit 2, 0x2), (.digit 3, 0x3), (.digit 4, 0xC)],
    [(.letter 'Q', 0x4), (.letter 'W', 0x5), (.letter 'E', 0x6), (.letter 'R', 0xD)],
    [(.letter 'A', 0x7), (.letter 'S', 0x8), (.letter 'D', 0x9), (.letter 'F', 0xE)],
    [(.letter 'Z', 0xA), (.letter 'X', 0x0), (.letter 'C', 0xB), (.letter 'V', 0xF)] ]

def HostKey.code? (k : HostKey) : Option UInt8 :=
  rows.flatten.lookup k

end Chip8.Host
