set_option autoImplicit false

namespace Chip8

structure Keypad where
  mask : BitVec 16
deriving DecidableEq, Repr

namespace Keypad

def keyCount : Nat := 16

def empty : Keypad := ⟨0#16⟩

def bit (k : Fin 16) : BitVec 16 := BitVec.twoPow 16 k.val

def key? (code : UInt8) : Option (Fin 16) :=
  if h : code.toNat < 16 then some ⟨code.toNat, h⟩ else none

theorem key?_eq_some_iff {code : UInt8} {k : Fin 16} : key? code = some k ↔ code.toNat = k := by
  unfold key?
  split
  · simp [Fin.ext_iff]
  · have := k.isLt
    simp only [reduceCtorEq, false_iff]
    omega

theorem key?_eq_none_iff {code : UInt8} : key? code = none ↔ 16 ≤ code.toNat := by
  unfold key?
  split <;> simp_all

theorem and_bit_ne_zero (mask : BitVec 16) (k : Fin 16) :
    (mask &&& bit k != 0#16) = mask.getLsbD k := by
  have nonzero : BitVec.twoPow 16 k.val ≠ 0#16 := by
    intro zero
    have selected := congrArg (fun bits => bits.getLsbD k) zero
    simp at selected
  rw [bit, BitVec.and_twoPow]
  cases held : mask.getLsbD k <;> simp [nonzero]

def press (p : Keypad) (code : UInt8) : Keypad :=
  match key? code with
  | some k => ⟨p.mask ||| bit k⟩
  | none => p

def release (p : Keypad) (code : UInt8) : Keypad :=
  match key? code with
  | some k => ⟨p.mask &&& ~~~bit k⟩
  | none => p

def ofCodes (codes : List UInt8) : Keypad :=
  ⟨(codes.filterMap key?).foldl (fun mask k => mask ||| bit k) 0#16⟩

def isDown (p : Keypad) (code : UInt8) : Bool :=
  match key? code with
  | some k => p.mask &&& bit k != 0#16
  | none => false

@[simp] theorem isDown_empty (code : UInt8) : empty.isDown code = false := by
  unfold isDown
  split <;> simp [empty]

theorem isDown_of_key? {p : Keypad} {code : UInt8} {k : Fin 16} (h : key? code = some k) :
    p.isDown code = p.mask.getLsbD k := by
  simp [isDown, h, and_bit_ne_zero]

theorem getLsbD_bit (k j : Fin 16) : (bit k).getLsbD j = decide (j = k) := by
  simp [bit, Fin.ext_iff, eq_comm]

theorem getLsbD_press {p : Keypad} {code : UInt8} {k : Fin 16} (h : key? code = some k)
    (j : Fin 16) : (p.press code).mask.getLsbD j = (p.mask.getLsbD j || decide (j = k)) := by
  simp only [press, h, BitVec.getLsbD_or, getLsbD_bit]

theorem getLsbD_release {p : Keypad} {code : UInt8} {k : Fin 16} (h : key? code = some k)
    (j : Fin 16) : (p.release code).mask.getLsbD j = (p.mask.getLsbD j && decide (j ≠ k)) := by
  simp only [release, h, BitVec.getLsbD_and, BitVec.getLsbD_not, getLsbD_bit, j.isLt]
  simp

def first (p : Keypad) : Option (Fin 16) :=
  (List.finRange 16).find? fun k => p.mask.getLsbD k

end Keypad

end Chip8
