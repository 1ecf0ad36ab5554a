import Chip8.Frame.Sprite
import Mathlib.Data.Nat.Bitwise

set_option autoImplicit false

namespace Chip8.Frame

-- The bits of a row are counted from its most significant one.
def column (b : UInt8) (k : Nat) : Bool :=
  b.toNat.testBit (7 - k)

theorem column_eq {b : UInt8} {k : Nat} (within : k < 8) : column b k = b.toBitVec.getMsbD k := by
  rw [BitVec.getMsbD_eq_getLsbD, decide_eq_true within, Bool.true_and]
  rfl

theorem toNat_mask (n : Nat) : (mask n).toNat = 2 ^ (7 - n % 8) := by
  have all : ∀ k : Fin 8, ((0x80 : UInt8) >>> UInt8.ofNat k).toNat = 2 ^ (7 - k.val) := by decide
  exact all ⟨n % 8, Nat.mod_lt _ (by decide)⟩

theorem and_mask (byte : UInt8) (n : Nat) : (byte &&& mask n != 0) = column byte (n % 8) := by
  rw [Bool.eq_iff_iff, bne_iff_ne, ne_eq, ← UInt8.toNat_inj, UInt8.toNat_and, toNat_mask,
    Nat.and_two_pow, column]
  cases byte.toNat.testBit (7 - n % 8) <;> simp

theorem shifted_eq_one_iff (byte : UInt8) {k : Nat} (within : k < 8) :
    byte >>> UInt8.ofNat k &&& 1 = 1 ↔ column byte (7 - k) = true := by
  have back : 7 - (7 - k) = k := by omega
  rw [← UInt8.toNat_inj, column, back]
  simp [Nat.testBit_eq_decide_div_mod_eq, Nat.shiftRight_eq_div_pow, Nat.mod_eq_of_lt within]

theorem shifted_eq_zero_iff (byte : UInt8) {k : Nat} (within : k < 8) :
    byte >>> UInt8.ofNat (7 - k) &&& 1 = 0 ↔ column byte k = false := by
  have narrow : 7 - k < 8 := by omega
  rw [← UInt8.toNat_inj, column]
  simp [Nat.testBit_eq_decide_div_mod_eq, Nat.shiftRight_eq_div_pow, Nat.mod_eq_of_lt narrow]

theorem column_xor_mask (byte : UInt8) (n : Nat) {k : Nat} (within : k < 8) :
    column (byte ^^^ mask n) k = (column byte k ^^ decide (k = n % 8)) := by
  have narrow : n % 8 < 8 := Nat.mod_lt _ (by decide)
  rw [column, UInt8.toNat_xor, Nat.testBit_xor, toNat_mask, Nat.testBit_two_pow, column]
  congr 1
  rw [decide_eq_decide]
  omega

abbrev Point := Fin 64 × Fin 32

def isLit (f : Frame) (p : Point) : Bool :=
  f.pixel p.1 p.2

def number (p : Point) : Nat :=
  p.1 + p.2 * 64

theorem number_lt (p : Point) : number p / 8 < 256 := by
  unfold number
  omega

theorem number_inj {p q : Point} : number p = number q ↔ p = q := by
  simp only [number, Prod.ext_iff, Fin.ext_iff]
  omega

def byteOf (f : Frame) (p : Point) : UInt8 :=
  f.bytes.get ⟨number p / 8, number_lt p⟩

theorem isLit_eq (f : Frame) (p : Point) : f.isLit p = column (f.byteOf p) (number p % 8) := by
  simp only [isLit, pixel, Nat.mod_eq_of_lt p.1.isLt, Nat.mod_eq_of_lt p.2.isLt]
  exact and_mask _ _

theorem byte_ext {byte byte' : UInt8} (same : ∀ bit : Fin 8, column byte bit = column byte' bit) :
    byte = byte' := by
  apply UInt8.eq_of_toBitVec_eq
  apply BitVec.eq_of_getMsbD_eq
  intro bit narrow
  rw [← column_eq narrow, ← column_eq narrow]
  exact same ⟨bit, narrow⟩

def bitPoint (k : Fin 256) (bit : Fin 8) : Point :=
  (Fin.ofNat 64 (8 * (k.val % 8) + bit.val), Fin.ofNat 32 (k.val / 8))

theorem isLit_bitPoint (f : Frame) (k : Fin 256) (bit : Fin 8) :
    f.isLit (bitPoint k bit) = column (f.bytes.get k) bit := by
  have place : number (bitPoint k bit) = 8 * k + bit := by
    simp only [number, bitPoint, Fin.val_ofNat]
    omega
  have byte : number (bitPoint k bit) / 8 = k := by omega
  have narrow : number (bitPoint k bit) % 8 = bit := by omega
  simp only [isLit_eq, byteOf, byte, narrow, Fin.eta]

theorem ext_isLit {f g : Frame} (same : ∀ p, f.isLit p = g.isLit p) : f = g := by
  obtain ⟨bytes⟩ := f
  obtain ⟨bytes'⟩ := g
  congr 1
  apply Vector.ext
  intro k within
  apply byte_ext
  intro bit
  have here := same (bitPoint ⟨k, within⟩ bit)
  rw [isLit_bitPoint, isLit_bitPoint] at here
  exact here

def turn (f : Frame) (p : Point) : Frame :=
  ⟨f.bytes.set (number p / 8) (f.byteOf p ^^^ mask (number p)) (number_lt p)⟩

theorem flip_number (f : Frame) (p : Point) : f.flip (number p) = .ok (f.turn p, f.isLit p) := by
  rw [flip, dif_pos (number_lt p), isLit_eq, ← and_mask]
  rfl

theorem isLit_turn (f : Frame) (p q : Point) :
    (f.turn p).isLit q = (f.isLit q ^^ decide (q = p)) := by
  have narrow : number q % 8 < 8 := Nat.mod_lt _ (by decide)
  have same : decide (q = p) = decide (number q = number p) := decide_eq_decide.2 number_inj.symm
  rw [isLit_eq, isLit_eq, same]
  by_cases byte : number q / 8 = number p / 8
  · have here : (f.turn p).byteOf q = f.byteOf q ^^^ mask (number p) := by
      simp only [byteOf, turn, byte]
      exact Vector.getElem_set_self _
    rw [here, column_xor_mask _ _ narrow]
    congr 1
    rw [decide_eq_decide]
    omega
  · have other : (f.turn p).byteOf q = f.byteOf q :=
      Vector.getElem_set_ne (number_lt p) (number_lt q) (Ne.symm byte)
    have apart : number q ≠ number p := fun same => byte (congrArg (· / 8) same)
    simp [other, apart]

def turnAll (drawn : Frame × Bool) (points : List Point) : Frame × Bool :=
  points.foldl (fun drawn p => (drawn.1.turn p, drawn.2 || drawn.1.isLit p)) drawn

theorem turnAll_cons (drawn : Frame × Bool) (p : Point) (rest : List Point) :
    turnAll drawn (p :: rest) = turnAll (drawn.1.turn p, drawn.2 || drawn.1.isLit p) rest :=
  rfl

theorem turnAll_append (drawn : Frame × Bool) (points points' : List Point) :
    turnAll drawn (points ++ points') = turnAll (turnAll drawn points) points' :=
  List.foldl_append

def wrapped (x : Nat) (y : Fin 32) (bit : Nat) : Point :=
  (⟨(x + bit) % 64, Nat.mod_lt _ (by decide)⟩, y)

def rowPoints (row : UInt8) (x : Nat) (y : Fin 32) (bits : List Nat) : List Point :=
  (bits.filter (column row)).map (wrapped x y)

def spritePoints (x y : Nat) : List UInt8 → List Point
  | [] => []
  | row :: rest =>
    if h : y < 32 then rowPoints row x ⟨y, h⟩ (List.range 8) ++ spritePoints x (y + 1) rest else []

theorem drawBit_eq {row : UInt8} {x : Nat} {y : Fin 32} {bit : Nat} (narrow : bit < 8)
    (drawn : Frame × Bool) :
    drawBit row x y drawn bit = .ok (turnAll drawn (rowPoints row x y [bit])) := by
  have place : (x + bit) % 64 + y * 64 = number (wrapped x y bit) := rfl
  cases set : column row bit with
  | false =>
    rw [drawBit, if_pos ((shifted_eq_zero_iff row narrow).2 set)]
    simp [rowPoints, set, turnAll]
  | true =>
    have lit : ¬ row >>> UInt8.ofNat (7 - bit) &&& 1 = 0 := by
      simp [shifted_eq_zero_iff row narrow, set]
    rw [drawBit, if_neg lit, place, flip_number]
    simp [rowPoints, set, turnAll]

theorem drawBits_eq {row : UInt8} {x : Nat} {y : Fin 32} {bits : List Nat}
    (narrow : ∀ bit ∈ bits, bit < 8) (drawn : Frame × Bool) :
    bits.foldlM (drawBit row x y) drawn = .ok (turnAll drawn (rowPoints row x y bits)) := by
  induction bits generalizing drawn with
  | nil => rfl
  | cons bit rest ih =>
    obtain ⟨first, others⟩ := List.forall_mem_cons.1 narrow
    have split : rowPoints row x y (bit :: rest) =
        rowPoints row x y [bit] ++ rowPoints row x y rest := by
      simp [rowPoints, List.filter_cons]
      cases column row bit <;> rfl
    rw [List.foldlM_cons, drawBit_eq first, split, turnAll_append]
    exact ih others _

theorem drawRow_eq (row : UInt8) (x : Nat) (y : Fin 32) (drawn : Frame × Bool) :
    drawRow row x y drawn = .ok (turnAll drawn (rowPoints row x y (List.range 8))) :=
  drawBits_eq (by simp) drawn

theorem drawRows_eq (sprite : List UInt8) (x y : Nat) (drawn : Frame × Bool) :
    drawRows x y drawn sprite = .ok (turnAll drawn (spritePoints x y sprite)) := by
  induction sprite generalizing y drawn with
  | nil => rfl
  | cons row rest ih =>
    by_cases above : y < 32
    · have first := drawRow_eq row x ⟨y, above⟩ drawn
      rw [drawRows, if_neg (Nat.not_le.2 above), first, spritePoints, dif_pos above,
        turnAll_append]
      exact ih (y + 1) _
    · rw [drawRows, if_pos (Nat.le_of_not_lt above), spritePoints, dif_neg above]
      rfl

def drawn (f : Frame) (sprite : List UInt8) (x y : Nat) : Frame × Bool :=
  turnAll (f, false) (spritePoints (x % 64) (y % 32) sprite)

theorem draw_eq (f : Frame) (sprite : List UInt8) (x y : Nat) :
    f.draw sprite x y = .ok (f.drawn sprite x y) :=
  drawRows_eq sprite (x % 64) (y % 32) (f, false)

end Chip8.Frame
