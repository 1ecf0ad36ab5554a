import Chip8.Frame.Colour
import Chip8.Frame.Rows
import Chip8.Proofs.Sprite
import Mathlib.Data.Nat.Bitwise

set_option autoImplicit false

namespace Chip8

theorem getElem?_flatMap_of_even {α β : Type} {pieces : α → List β} {len : Nat}
    (even : ∀ a, (pieces a).length = len) (l : List α) (k : Nat) {i : Nat} (within : i < len) :
    (l.flatMap pieces)[len * k + i]? = l[k]?.bind fun a => (pieces a)[i]? := by
  induction l generalizing k with
  | nil => simp
  | cons a rest ih =>
    cases k with
    | zero => simp [List.getElem?_append_left, even, within]
    | succ k =>
      have next : len * (k + 1) + i - len = len * k + i := by
        rw [Nat.mul_succ]
        omega
      have beyond : len ≤ len * (k + 1) + i := by
        rw [Nat.mul_succ]
        omega
      simp [List.getElem?_append_right, even, beyond, next, ih]

theorem length_flatMap_of_even {α β : Type} {pieces : α → List β} {len : Nat}
    (even : ∀ a, (pieces a).length = len) (l : List α) :
    (l.flatMap pieces).length = len * l.length := by
  induction l with
  | nil => simp
  | cons a rest ih =>
    simp [even, ih, Nat.mul_succ, Nat.add_comm]

structure Agree (pixel : Nat → Nat → Bool) (colours : List UInt32)
    (grid : Vector (Vector Bool 64) 32) (blank : Bool) : Prop where
  count : colours.length = 2048
  lit (x : Fin 64) (y : Fin 32) :
    colours[64 * y.val + x]? = some Frame.lit ↔ pixel x y = true
  dark (x : Fin 64) (y : Fin 32) :
    colours[64 * y.val + x]? = some Frame.dark ↔ pixel x y = false
  grid (x : Fin 64) (y : Fin 32) : (grid.get y).get x = pixel x y
  wraps (x y : Nat) : pixel x y = pixel (x % 64) (y % 32)
  blank : blank = true ↔ ∀ (x : Fin 64) (y : Fin 32), pixel x y = false

theorem get_get_ofFn {pixel : Nat → Nat → Bool} (x : Fin 64) (y : Fin 32) :
    ((Vector.ofFn fun y : Fin 32 => Vector.ofFn fun x : Fin 64 => pixel x y).get y).get x =
      pixel x y := by
  have row : (Vector.ofFn fun y : Fin 32 => Vector.ofFn fun x : Fin 64 => pixel x y).get y =
      Vector.ofFn fun x : Fin 64 => pixel x y :=
    Vector.getElem_ofFn y.isLt
  rw [row]
  exact Vector.getElem_ofFn x.isLt

theorem Agree.of_entries {pixel : Nat → Nat → Bool} {colours : List UInt32} {blank : Bool}
    (count : colours.length = 2048)
    (entries : ∀ (x : Fin 64) (y : Fin 32),
      colours[64 * y.val + x]? = some (if pixel x y then Frame.lit else Frame.dark))
    (wraps : ∀ x y, pixel x y = pixel (x % 64) (y % 32))
    (blank_iff : blank = true ↔ ∀ (x : Fin 64) (y : Fin 32), pixel x y = false) :
    Agree pixel colours (Vector.ofFn fun y => Vector.ofFn fun x => pixel x y) blank where
  count := count
  lit x y := by
    rw [entries]
    cases pixel x y <;> decide
  dark x y := by
    rw [entries]
    cases pixel x y <;> decide
  grid := get_get_ofFn
  wraps := wraps
  blank := blank_iff

namespace Frame

variable {f g : Frame}

theorem byteColours_at (byte : UInt8) {k : Nat} (within : k < 8) :
    (byteColours byte)[k]? = some (if column byte k then lit else dark) := by
  have bit : 7 - k < 8 := by omega
  have back : 7 - (7 - k) = k := by omega
  simp [byteColours, within, shifted_eq_one_iff byte bit, back]

theorem length_colours (f : Frame) : f.colours.length = 2048 := by
  simp [colours, length_flatMap_of_even length_byteColours]

theorem pixel_at (f : Frame) {x y : Nat} (inRow : x < 64) (inColumn : y < 32) :
    f.pixel x y = column f.bytes[8 * y + x / 8] (x % 8) := by
  have byte : (x % 64 + y % 32 * 64) / 8 = 8 * y + x / 8 := by omega
  have bit : (x % 64 + y % 32 * 64) % 8 = x % 8 := by omega
  simp only [pixel, byte, and_mask, bit]

theorem colours_at (f : Frame) (x : Fin 64) (y : Fin 32) :
    f.colours[64 * y.val + x]? = some (if f.pixel x y then lit else dark) := by
  have place : 64 * y.val + x = 8 * (8 * y + x / 8) + x % 8 := by omega
  have narrow : x.val % 8 < 8 := Nat.mod_lt _ (by decide)
  have within : 8 * y.val + x / 8 < 256 := by omega
  have byte : f.bytes.toList[8 * y.val + x / 8]? = some f.bytes[8 * y.val + x / 8] := by
    simp [within]
  rw [colours, place, getElem?_flatMap_of_even length_byteColours _ _ narrow, byte,
    Option.bind_some, byteColours_at _ narrow, f.pixel_at x.isLt y.isLt]

theorem eq_iff_pixel : f = g ↔ ∀ (x : Fin 64) (y : Fin 32), f.pixel x y = g.pixel x y := by
  constructor
  · rintro rfl x y
    rfl
  · exact fun same => ext_isLit fun p => same p.1 p.2

theorem isBlank_iff : f.isBlank = true ↔ ∀ (x : Fin 64) (y : Fin 32), f.pixel x y = false := by
  simp only [isBlank, Vector.all_eq_true, beq_iff_eq]
  constructor
  · intro zero x y
    simp [f.pixel_at x.isLt y.isLt, zero, column]
  · intro off k within
    apply byte_ext
    intro bit
    have here : f.isLit (bitPoint ⟨k, within⟩ bit) = false := off _ _
    have zero : column 0 bit = false := by simp [column]
    rw [isLit_bitPoint] at here
    exact here.trans zero.symm

theorem agree (f : Frame) : Agree f.pixel f.colours f.grid f.isBlank :=
  .of_entries f.length_colours f.colours_at f.pixel_mod isBlank_iff

theorem getMsbD_joined {byte : Nat → UInt8} {count k : Nat} (within : k < 8 * count) :
    (joined byte count).getMsbD k = column (byte (k / 8)) (k % 8) := by
  induction count with
  | zero => omega
  | succ count ih =>
    rw [joined, BitVec.getMsbD_append]
    by_cases last : 8 * count ≤ k
    · have here : k / 8 = count := by omega
      have bit : k % 8 = k - 8 * count := by omega
      rw [if_pos last, here, bit, column_eq (by omega)]
    · rw [if_neg last, ih (by omega)]

theorem getMsbD_rows (f : Frame) (x : Fin 64) (y : Fin 32) :
    (f.rows.get y).getMsbD x = f.pixel x y := by
  have within : 8 * y.val + x / 8 < 256 := by omega
  have inRow : x.val < 8 * 8 := x.isLt
  have row : f.rows.get y = joined (fun k => f.bytes.get (Fin.ofNat 256 (8 * y + k))) 8 :=
    Vector.getElem_ofFn y.isLt
  rw [row, getMsbD_joined inRow, f.pixel_at x.isLt y.isLt]
  simp [Vector.get, Nat.mod_eq_of_lt within]

theorem pixel_ofRows (rows : Vector (BitVec 64) 32) (x : Fin 64) (y : Fin 32) :
    (ofRows rows).pixel x y = (rows.get y).getMsbD x := by
  have row : (8 * y.val + x / 8) / 8 = y := by omega
  have byte : (8 * y.val + x / 8) % 8 = x / 8 := by omega
  have narrow : x.val % 8 < 8 := by omega
  have fits : 56 - 8 * (x.val / 8) + 8 ≤ 64 + x % 8 := by omega
  have place : 64 - (56 - 8 * (x.val / 8) + 8 - x % 8) = x := by omega
  rw [(ofRows rows).pixel_at x.isLt y.isLt, column_eq narrow]
  simp [ofRows, row, byte, narrow, place, fits, BitVec.getMsbD_extractLsb', Vector.get]

theorem ofRows_rows (f : Frame) : ofRows f.rows = f :=
  eq_iff_pixel.2 fun x y => (pixel_ofRows f.rows x y).trans (f.getMsbD_rows x y)

theorem rows_ofRows (rows : Vector (BitVec 64) 32) : (ofRows rows).rows = rows := by
  apply Vector.ext
  intro y inColumn
  apply BitVec.eq_of_getMsbD_eq
  intro x inRow
  exact ((ofRows rows).getMsbD_rows ⟨x, inRow⟩ ⟨y, inColumn⟩).trans
    (pixel_ofRows rows ⟨x, inRow⟩ ⟨y, inColumn⟩)

end Frame

namespace Agree

variable {pixel pixel' : Nat → Nat → Bool} {colours colours' : List UInt32}
  {grid grid' : Vector (Vector Bool 64) 32} {blank blank' : Bool}

theorem unique (agree : Agree pixel colours grid blank)
    (agree' : Agree pixel colours' grid' blank') :
    colours = colours' ∧ grid = grid' ∧ blank = blank' := by
  refine ⟨?_, ?_, ?_⟩
  · apply List.ext_getElem?
    intro k
    by_cases within : k < 2048
    · have row : k / 64 < 32 := by omega
      have column : k % 64 < 64 := Nat.mod_lt _ (by decide)
      rw [← Nat.div_add_mod k 64]
      cases shown : pixel (k % 64) (k / 64) with
      | true =>
        have lit := (agree.lit ⟨_, column⟩ ⟨_, row⟩).2 shown
        exact lit.trans ((agree'.lit ⟨_, column⟩ ⟨_, row⟩).2 shown).symm
      | false =>
        have dark := (agree.dark ⟨_, column⟩ ⟨_, row⟩).2 shown
        exact dark.trans ((agree'.dark ⟨_, column⟩ ⟨_, row⟩).2 shown).symm
    · rw [List.getElem?_eq_none (by rw [agree.count]; omega),
        List.getElem?_eq_none (by rw [agree'.count]; omega)]
  · apply Vector.ext
    intro y inColumn
    apply Vector.ext
    intro x inRow
    exact (agree.grid ⟨x, inRow⟩ ⟨y, inColumn⟩).trans (agree'.grid ⟨x, inRow⟩ ⟨y, inColumn⟩).symm
  · rw [Bool.eq_iff_iff, agree.blank, agree'.blank]

end Agree

/-- All views of a picture agree, and its pixels settle it and every view of it. The picture can be
told from its rows and be made of any rows. -/
theorem views_agree :
    (∀ f : Frame, Agree f.pixel f.colours f.grid f.isBlank) ∧
    (∀ f g : Frame, f = g ↔ ∀ (x : Fin 64) (y : Fin 32), f.pixel x y = g.pixel x y) ∧
    (∀ (f : Frame) (colours : List UInt32) (grid : Vector (Vector Bool 64) 32) (blank : Bool),
      Agree f.pixel colours grid blank ↔
        f.colours = colours ∧ f.grid = grid ∧ f.isBlank = blank) ∧
    (∀ (f : Frame) (x : Fin 64) (y : Fin 32), (f.rows.get y).getMsbD x = f.pixel x y) ∧
    (∀ f : Frame, Frame.ofRows f.rows = f) ∧
    ∀ rows : Vector (BitVec 64) 32, (Frame.ofRows rows).rows = rows := by
  refine ⟨Frame.agree, fun f g => Frame.eq_iff_pixel, ?_, Frame.getMsbD_rows, Frame.ofRows_rows,
    Frame.rows_ofRows⟩
  intro f colours grid blank
  constructor
  · exact f.agree.unique
  · rintro ⟨rfl, rfl, rfl⟩
    exact f.agree

end Chip8
