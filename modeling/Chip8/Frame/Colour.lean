import Chip8.Frame.Basic

set_option autoImplicit false

namespace Chip8.Frame

def lit : UInt32 := 0xFF00FF00

def dark : UInt32 := 0xFF000000

def byteColours (byte : UInt8) : List UInt32 :=
  (List.range 8).reverse.map fun bit =>
    if byte >>> UInt8.ofNat bit &&& 1 = 1 then lit else dark

def colours (f : Frame) : List UInt32 :=
  f.bytes.toList.flatMap byteColours

theorem length_byteColours (byte : UInt8) : (byteColours byte).length = 8 := by
  simp [byteColours]

end Chip8.Frame
