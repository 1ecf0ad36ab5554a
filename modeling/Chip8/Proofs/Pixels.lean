import Chip8.Proofs.Sprite
import Mathlib.Data.List.Nodup

set_option autoImplicit false

namespace Chip8.Frame

variable {f : Frame} {sprite rest : List UInt8} {row : UInt8} {x y : Nat} {p q : Point}

def coversColumn (row : UInt8) (x : Nat) (p : Point) : Bool :=
  decide ((p.1.val + 64 - x) % 64 < 8) && column row ((p.1.val + 64 - x) % 64)

def covers (sprite : List UInt8) (x y : Nat) (p : Point) : Bool :=
  decide (y ≤ p.2.val) && (sprite[p.2.val - y]?).any fun row => coversColumn row x p

@[simp] theorem covers_nil (x y : Nat) (p : Point) : covers [] x y p = false := by
  simp [covers]

theorem covers_of_above (above : p.2.val < y) : covers sprite x y p = false := by
  simp [covers, Nat.not_le.2 above]

theorem covers_cons (row : UInt8) (rest : List UInt8) (x y : Nat) (p : Point) :
    covers (row :: rest) x y p =
      if p.2.val = y then coversColumn row x p else covers rest x (y + 1) p := by
  rcases Nat.lt_trichotomy p.2.val y with above | here | below
  · rw [if_neg (by omega), covers_of_above above, covers_of_above (by omega)]
  · simp [covers, here]
  · have next : p.2.val - y = p.2.val - (y + 1) + 1 := by omega
    simp [covers, Nat.ne_of_gt below, Nat.le_of_lt below, Nat.succ_le_of_lt below, next]

theorem mem_rowPoints {y : Fin 32} (inRow : x < 64) :
    p ∈ rowPoints row x y (List.range 8) ↔ p.2 = y ∧ coversColumn row x p = true := by
  obtain ⟨px, py⟩ := p
  simp only [rowPoints, List.mem_map, List.mem_filter, List.mem_range, wrapped, Prod.mk.injEq,
    Fin.ext_iff, coversColumn, Bool.and_eq_true, decide_eq_true_eq]
  constructor
  · rintro ⟨bit, ⟨narrow, set⟩, column, here⟩
    have back : (px.val + 64 - x) % 64 = bit := by omega
    exact ⟨here.symm, back.symm ▸ narrow, back.symm ▸ set⟩
  · rintro ⟨here, narrow, set⟩
    exact ⟨_, ⟨narrow, set⟩, by omega, here.symm⟩

theorem nodup_rowPoints (row : UInt8) (x : Nat) (y : Fin 32) :
    (rowPoints row x y (List.range 8)).Nodup := by
  refine List.Nodup.map_on ?_ (List.nodup_range.filter _)
  intro bit found bit' found' same
  simp only [List.mem_filter, List.mem_range] at found found'
  simp only [wrapped, Prod.mk.injEq, Fin.ext_iff, and_true] at same
  omega

theorem mem_spritePoints (inRow : x < 64) :
    p ∈ spritePoints x y sprite ↔ covers sprite x y p = true := by
  induction sprite generalizing y with
  | nil => simp [spritePoints]
  | cons row rest ih =>
    by_cases within : y < 32
    · rw [spritePoints, dif_pos within, List.mem_append, mem_rowPoints inRow, ih, covers_cons]
      by_cases here : p.2.val = y
      · have above : covers rest x (y + 1) p = false := covers_of_above (by omega)
        simp [here, above, Fin.ext_iff]
      · simp [here, Fin.ext_iff]
    · have above : covers (row :: rest) x y p = false := covers_of_above (by omega)
      simp [spritePoints, within, above]

-- The eight bits of a row fall on different columns, and the rows on different rows.
theorem nodup_spritePoints (inRow : x < 64) : (spritePoints x y sprite).Nodup := by
  induction sprite generalizing y with
  | nil => exact List.nodup_nil
  | cons row rest ih =>
    by_cases within : y < 32
    · rw [spritePoints, dif_pos within]
      refine List.Nodup.append (nodup_rowPoints _ _ _) ih ?_
      intro p first later
      have here := ((mem_rowPoints inRow).1 first).1
      have below := (mem_spritePoints inRow).1 later
      rw [covers_of_above (by simp [here])] at below
      contradiction
    · rw [spritePoints, dif_neg within]
      exact List.nodup_nil

theorem isLit_turnAll_iff {drawn : Frame × Bool} {points : List Point} (distinct : points.Nodup)
    (q : Point) : (turnAll drawn points).1.isLit q = drawn.1.isLit q ↔ q ∉ points := by
  induction points generalizing drawn with
  | nil => simp [turnAll]
  | cons p rest ih =>
    obtain ⟨fresh, others⟩ := List.nodup_cons.1 distinct
    rw [turnAll_cons]
    by_cases here : q = p
    · subst here
      rw [(ih others).2 fresh, isLit_turn]
      simp
    · have kept : (drawn.1.turn p).isLit q = drawn.1.isLit q := by simp [isLit_turn, here]
      rw [← kept, ih others]
      simp [here]

theorem turnAll_collides {drawn : Frame × Bool} {points : List Point} (distinct : points.Nodup) :
    (turnAll drawn points).2 = true ↔
      drawn.2 = true ∨ ∃ p ∈ points, drawn.1.isLit p = true := by
  induction points generalizing drawn with
  | nil => simp [turnAll]
  | cons p rest ih =>
    obtain ⟨fresh, distinct⟩ := List.nodup_cons.1 distinct
    have same (q : Point) (later : q ∈ rest) : (drawn.1.turn p).isLit q = drawn.1.isLit q := by
      have other : q ≠ p := fun here => fresh (here ▸ later)
      simp [isLit_turn, other]
    rw [turnAll_cons, ih distinct, List.exists_mem_cons_iff, Bool.or_eq_true, or_assoc]
    apply or_congr_right
    apply or_congr_right
    apply exists_congr
    intro q
    apply and_congr_right
    intro later
    rw [same q later]

theorem isLit_drawn (f : Frame) (sprite : List UInt8) (x y : Nat) (p : Point) :
    (f.drawn sprite x y).1.isLit p = (f.isLit p ^^ covers sprite (x % 64) (y % 32) p) := by
  have inRow : x % 64 < 64 := Nat.mod_lt _ (by decide)
  have turned : (f.drawn sprite x y).1.isLit p = f.isLit p ↔ _ :=
    isLit_turnAll_iff (nodup_spritePoints inRow) p
  rw [mem_spritePoints inRow] at turned
  cases covered : covers sprite (x % 64) (y % 32) p with
  | false => simp [turned, covered]
  | true =>
    have changed : (f.drawn sprite x y).1.isLit p ≠ f.isLit p := by simp [turned, covered]
    simp [Bool.eq_not_of_ne changed]

theorem drawn_collides_iff :
    (f.drawn sprite x y).2 = true ↔
      ∃ p, covers sprite (x % 64) (y % 32) p = true ∧ f.isLit p = true := by
  have inRow : x % 64 < 64 := Nat.mod_lt _ (by decide)
  rw [drawn, turnAll_collides (nodup_spritePoints inRow)]
  simp [mem_spritePoints inRow]

def Collides (f : Frame) (sprite : List UInt8) (x y : Nat) : Prop :=
  ∃ r, ∃ _ : r < sprite.length, y + r < 32 ∧
    ∃ k, k < 8 ∧ column sprite[r] k = true ∧ f.pixel (x + k) (y + r) = true

theorem collides_iff_covers (inRow : x < 64) :
    f.Collides sprite x y ↔ ∃ p, covers sprite x y p = true ∧ f.isLit p = true := by
  constructor
  · rintro ⟨r, within, above, k, narrow, drawn, lit⟩
    have back : ((x + k) % 64 + 64 - x) % 64 = k := by omega
    refine ⟨(⟨(x + k) % 64, Nat.mod_lt _ (by decide)⟩, ⟨y + r, above⟩), ?_, ?_⟩
    · simp [covers, coversColumn, within, back, narrow, drawn]
    · rw [pixel_mod, Nat.mod_eq_of_lt above] at lit
      exact lit
  · rintro ⟨p, covered, lit⟩
    simp only [covers, Bool.and_eq_true, decide_eq_true_eq, Option.any_eq_true, coversColumn]
      at covered
    obtain ⟨below, b, found, narrow, drawn⟩ := covered
    obtain ⟨within, here⟩ := List.getElem?_eq_some_iff.1 found
    have row : y + (p.2.val - y) = p.2 := Nat.add_sub_cancel' below
    have column : (x + (p.1.val + 64 - x) % 64) % 64 = p.1 := by omega
    refine ⟨p.2.val - y, within, by omega, _, narrow, here ▸ drawn, ?_⟩
    rw [row, pixel_mod, column, Nat.mod_eq_of_lt p.2.isLt]
    exact lit

theorem drawn_collides :
    (f.drawn sprite x y).2 = true ↔ f.Collides sprite (x % 64) (y % 32) := by
  rw [drawn_collides_iff, collides_iff_covers (Nat.mod_lt _ (by decide))]

/-- Every pixel that the sprite covers is turned over and no other, and the flag tells whether one
of them went out. -/
theorem draw_turns_pixels_over (f : Frame) (sprite : List UInt8) (x y : Nat) :
    ∃ g collided, f.draw sprite x y = .ok (g, collided) ∧
      (∀ p, g.isLit p = (f.isLit p ^^ covers sprite (x % 64) (y % 32) p)) ∧
      (collided = true ↔
        ∃ p, covers sprite (x % 64) (y % 32) p = true ∧ f.isLit p = true) ∧
      (collided = true ↔ ∃ p, f.isLit p = true ∧ g.isLit p = false) := by
  have turned := isLit_drawn f sprite x y
  refine ⟨(f.drawn sprite x y).1, (f.drawn sprite x y).2, draw_eq f sprite x y, turned,
    drawn_collides_iff, drawn_collides_iff.trans ?_⟩
  apply exists_congr
  intro p
  rw [turned]
  cases f.isLit p <;> simp

-- The row wraps around the right edge, and the row below the bottom is dropped.
example : ((blank.draw [0x81, 0xFF] 60 31).toOption.map fun drawn =>
    (drawn.1.isLit (3, 31), drawn.1.isLit (60, 0))) = some (true, false) := by
  decide

end Chip8.Frame
