set_option autoImplicit false

namespace Chip8.Text

def hexDigits (n : Nat) : List Char :=
  (Nat.toDigits 16 n).map Char.toUpper

def hexPadded (width n : Nat) : List Char :=
  List.replicate (width - (hexDigits n).length) '0' ++ hexDigits n

def hex (width n : Nat) : String :=
  String.ofList (hexPadded width n)

def address (width n : Nat) : String :=
  "0x" ++ hex width n

theorem toList_hex (width n : Nat) : (hex width n).toList = hexPadded width n := by
  simp [hex]

end Chip8.Text
