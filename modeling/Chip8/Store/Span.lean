import Chip8.Store.Basic

set_option autoImplicit false

namespace Chip8.Store

open Layout

def allAddressable : Nat → Nat → Bool
  | _, 0 => true
  | a, len + 1 => decide (Addressable a) && allAddressable (a + 1) len

theorem allAddressable_iff (start len : Nat) :
    allAddressable start len = true ↔ ∀ a, start ≤ a → a < start + len → Addressable a := by
  induction len generalizing start with
  | zero =>
    simp only [allAddressable, true_iff]
    intro a h1 h2
    omega
  | succ len ih =>
    simp only [allAddressable, Bool.and_eq_true, decide_eq_true_eq, ih]
    constructor
    · intro ⟨first, others⟩ a h1 h2
      by_cases h : a = start
      · exact h ▸ first
      · exact others a (by omega) (by omega)
    · intro all
      exact ⟨all start (by omega) (by omega), fun a h1 h2 => all a (by omega) (by omega)⟩

-- Whether `len > 0` bytes from `start` on may be touched. The end of the span is computed in a
-- word of 64 bits, which must be able to hold it.
def checkSpan (start len : Nat) : Except (Halt Fault) Unit :=
  if UInt64.size ≤ start + len then .error (.trap .overflow)
  else if allAddressable start len then .ok ()
  else .error (.error (.protectionViolation start (start + len - 1)))

def slice (s : Store) (start len : Nat) : Except (Halt Fault) (List UInt8) :=
  if start + len ≤ ramSize then .ok (s.ram.extract start (start + len)).toList
  else .error (.trap .outOfRange)

def splice (s : Store) (start : Nat) (data : List UInt8) : Except (Halt Fault) Store :=
  if start + data.length ≤ ramSize then .ok { s with ram := s.ram.overwrite start data }
  else .error (.trap .outOfRange)

def readSpan (s : Store) (start len : Nat) : Except (Halt Fault) (List UInt8) :=
  if len = 0 then .ok []
  else do
    checkSpan start len
    s.slice start len

def writeSpan (s : Store) (start : Nat) (data : List UInt8) : Except (Halt Fault) Store :=
  if data = [] then .ok s
  else do
    checkSpan start data.length
    s.splice start data

def readWord (s : Store) (a : UInt16) : Except (Halt Fault) UInt16 :=
  if h : a.toNat + 1 < 4096 then
    .ok (s.ram[a.toNat].toUInt16 <<< 8 ||| s.ram[a.toNat + 1].toUInt16)
  else .error (.error (.protectionViolation a.toNat (a.toNat + 1)))

def load (s : Store) (program : List UInt8) : Except (Halt Failure) Store :=
  if programLimit < program.length then
    .error (.error (.programTooLarge program.length programLimit))
  else if programStart + program.length ≤ ramSize then
    .ok { s with ram := s.ram.overwrite programStart program }
  else .error (.trap .outOfRange)

end Chip8.Store
