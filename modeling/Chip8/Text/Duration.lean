set_option autoImplicit false

namespace Chip8.Text

def trimZeros (digits : List Char) : List Char :=
  (digits.reverse.dropWhile (· = '0')).reverse

def fractionDigits (places n : Nat) : List Char :=
  let digits := Nat.toDigits 10 n
  trimZeros (List.replicate (places - digits.length) '0' ++ digits)

def decimalFraction (places n : Nat) : String :=
  let whole := toString (n / Nat.pow 10 places)
  match fractionDigits places (n % Nat.pow 10 places) with
  | [] => whole
  | digits => whole ++ "." ++ String.ofList digits

def duration (nanoseconds : Nat) : String :=
  if 1000000000 ≤ nanoseconds then decimalFraction 9 nanoseconds ++ "s"
  else if 1000000 ≤ nanoseconds then decimalFraction 6 nanoseconds ++ "ms"
  else if 1000 ≤ nanoseconds then decimalFraction 3 nanoseconds ++ "µs"
  else toString nanoseconds ++ "ns"

example : duration 2000000 = "2ms" := by decide +kernel

example : duration 1428571 = "1.428571ms" := by decide +kernel

example : duration 0 = "0ns" := by decide +kernel

end Chip8.Text
