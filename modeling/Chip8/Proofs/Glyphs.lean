import Chip8.Proofs.Footprint
import Chip8.Proofs.Pixels

set_option autoImplicit false

namespace Chip8

open Layout (Contained glyphStart glyphEnd)

namespace Font

def rowsFrom (digit count : Nat) : List UInt8 :=
  (glyphs.drop (glyphRows * digit)).take count

def picture (digit : Nat) : List UInt8 :=
  rowsFrom digit glyphRows

theorem take_picture {digit count : Nat} (short : count ≤ glyphRows) :
    (picture digit).take count = rowsFrom digit count := by
  simp [picture, rowsFrom, List.take_take, short]

end Font

namespace Store

variable {s t : Store}

def HoldsGlyphs (s : Store) : Prop :=
  s.bytes glyphStart Font.glyphs.length = Font.glyphs

theorem initial_holdsGlyphs : initial.HoldsGlyphs :=
  bytes_overwrite { initial with ram := Vector.replicate 4096 0 } (by decide)

theorem bytes_ext {start len : Nat} (fits : start + len ≤ 4096)
    (same : ∀ (a : Nat) (h : a < 4096), a < start + len → s.ram[a] = t.ram[a]) :
    s.bytes start len = t.bytes start len := by
  apply List.ext_getElem
  · simp [length_bytes fits]
  · intro k bound bound'
    have within : k < len := by simpa [length_bytes fits] using bound
    rw [getElem_bytes fits within, getElem_bytes fits within]
    exact same _ _ (by omega)

theorem HoldsGlyphs.congr (holds : s.HoldsGlyphs)
    (same : ∀ (a : Nat) (h : a < 4096), a < glyphEnd → t.ram[a] = s.ram[a]) : t.HoldsGlyphs :=
  (bytes_ext (by decide) same).trans holds

theorem HoldsGlyphs.bytes_eq (holds : s.HoldsGlyphs) {digit count : Nat}
    (fits : Font.glyphRows * digit + count ≤ Font.glyphs.length) :
    s.bytes (glyphStart + Font.glyphRows * digit) count = Font.rowsFrom digit count := by
  rw [Font.rowsFrom, ← s.take_drop_bytes fits, holds]

end Store

namespace Machine

variable {m : Machine} {command : Command} {history : List Command} {x a b rows : Fin 16}

variable (m) in
def WritesAtGlyphs : Prop :=
  (m.Runs ⟨0xF, .x, 0x3, 0x3⟩ ∨ m.Runs ⟨0xF, .x, 0x5, 0x5⟩) ∧ m.step.1 = .ok .executed ∧
    glyphStart ≤ m.store.i.toNat ∧ m.store.i.toNat < glyphEnd

instance : Decidable m.WritesAtGlyphs :=
  inferInstanceAs (Decidable (_ ∧ _))

def SparesGlyphs (m : Machine) : List Command → Prop
  | [] => True
  | command :: rest =>
    ¬ (command = .step ∧ m.WritesAtGlyphs) ∧ SparesGlyphs (m.perform command).2 rest

instance decidableSparesGlyphs (m : Machine) :
    (history : List Command) → Decidable (m.SparesGlyphs history)
  | [] => isTrue trivial
  | command :: rest =>
    have := decidableSparesGlyphs (m.perform command).2 rest
    inferInstanceAs (Decidable (_ ∧ _))

theorem Overwrites.writesAtGlyphs {a : Nat} (overwrites : m.Overwrites a) (below : a < glyphEnd) :
    m.WritesAtGlyphs := by
  have executed := overwrites.runs
  have region := overwrites.index_in_glyphs below
  obtain ⟨_, _, _, _, finished, _⟩ := overwrites
  exact ⟨executed, finished, region⟩

theorem holdsGlyphs_perform (holds : m.store.HoldsGlyphs)
    (spares : ¬ (command = .step ∧ m.WritesAtGlyphs)) :
    (m.perform command).2.store.HoldsGlyphs := by
  apply holds.congr
  intro a within below
  by_contra changed
  have replaces := replaces_of_changed within changed
  cases command with
  | load program =>
    have lower := replaces.2.1
    simp only [Layout.programStart, glyphEnd] at lower below
    omega
  | step => exact spares ⟨rfl, Overwrites.writesAtGlyphs replaces below⟩
  | _ => exact replaces.elim

theorem SparesGlyphs.holdsGlyphs (spares : m.SparesGlyphs history)
    (holds : m.store.HoldsGlyphs) : (m.performAll history).store.HoldsGlyphs := by
  induction history generalizing m with
  | nil => exact holds
  | cons command rest ih => exact ih spares.2 (holdsGlyphs_perform holds spares.1)

variable (m) in
def Spared : Prop :=
  ∃ source history, (fresh source).SparesGlyphs history ∧ (fresh source).performAll history = m

theorem Spared.holdsGlyphs (spared : m.Spared) : m.store.HoldsGlyphs := by
  obtain ⟨source, history, spares, rfl⟩ := spared
  exact spares.holdsGlyphs Store.initial_holdsGlyphs

theorem obey_glyph (isDigit : (m.store.v.get x).toNat ≤ 0xF) :
    m.obey (.glyph x) =
      (.ok .executed,
        { m.advance with
          store.i :=
            UInt16.ofNat (glyphStart + (m.store.v.get x).toNat * Font.glyphRows) }) :=
  obey_of_accepted (if_neg (Nat.not_le.2 (Nat.lt_succ_of_le isDigit)))

theorem index_of_glyph (isDigit : (m.store.v.get x).toNat ≤ 0xF) :
    (m.obey (.glyph x)).2.store.i.toNat =
      glyphStart + Font.glyphRows * (m.store.v.get x).toNat := by
  simp only [obey_glyph isDigit, UInt16.toNat_ofNat', glyphStart, Font.glyphRows]
  omega

theorem obey_draw (accepted : rows.val = 0 ∨ Contained m.store.i.toNat rows) :
    m.obey (.draw a b rows) =
      (.ok .executed,
        { m.advance with
          store.v := Exec.put m.store.v vF (Exec.flagOf (m.drawing a b rows).2)
          frame := (m.drawing a b rows).1 }) :=
  obey_of_accepted (span_accepted accepted)

theorem obey_draw_iff :
    (m.obey (.draw a b rows)).1 = .ok .executed ↔
      rows.val = 0 ∨ Contained m.store.i.toNat rows :=
  obey_span_iff rows rfl rfl

structure Overlaid (sprite : List UInt8) (column row : UInt8) (f : Frame) (m : Machine) : Prop where
  turned (p : Frame.Point) : m.frame.isLit p =
    (f.isLit p ^^ Frame.covers sprite (column.toNat % 64) (row.toNat % 32) p)
  met : m.store.v.get vF = 1 ↔
    ∃ p, Frame.covers sprite (column.toNat % 64) (row.toNat % 32) p = true ∧ f.isLit p = true
  flag : m.store.v.get vF = 0 ∨ m.store.v.get vF = 1

theorem overlaid_draw (a b : Fin 16) (accepted : rows.val = 0 ∨ Contained m.store.i.toNat rows) :
    Overlaid (m.store.bytes m.store.i.toNat rows) (m.store.v.get a) (m.store.v.get b) m.frame
      (m.obey (.draw a b rows)).2 := by
  have flag : (m.obey (.draw a b rows)).2.store.v.get vF = Exec.flagOf (m.drawing a b rows).2 := by
    simp [obey_draw accepted, Exec.get_put_self]
  constructor
  · simp only [obey_draw accepted]
    exact Frame.isLit_drawn _ _ _ _
  · rw [flag, ← Frame.drawn_collides_iff, drawing]
    cases (m.frame.drawn _ _ _).2 <;> simp [Exec.flagOf]
  · rw [flag]
    cases (m.drawing a b rows).2 <;> simp [Exec.flagOf]

theorem contained_rows {digit count : Nat} (isDigit : digit ≤ 0xF) :
    count = 0 ∨ Contained (glyphStart + Font.glyphRows * digit) count ↔
      count = 0 ∨ Font.glyphRows * digit + count ≤ Font.glyphs.length := by
  simp only [Contained, Font.glyphs_length, Font.glyphRows, Layout.programStart, glyphStart,
    glyphEnd]
  omega

theorem draw_glyph_iff (isDigit : (m.store.v.get x).toNat ≤ 0xF) (a b rows : Fin 16) :
    ((m.obey (.glyph x)).2.obey (.draw a b rows)).1 = .ok .executed ↔
      rows.val = 0 ∨ Font.glyphRows * (m.store.v.get x).toNat + rows ≤ Font.glyphs.length := by
  rw [obey_draw_iff, index_of_glyph isDigit, contained_rows isDigit]

-- Only I and the program counter are different when the sprite is drawn.
theorem overlaid_glyph (holds : m.store.HoldsGlyphs) (isDigit : (m.store.v.get x).toNat ≤ 0xF)
    (drawn : ((m.obey (.glyph x)).2.obey (.draw a b rows)).1 = .ok .executed) :
    Overlaid (Font.rowsFrom (m.store.v.get x).toNat rows) (m.store.v.get a) (m.store.v.get b)
      m.frame ((m.obey (.glyph x)).2.obey (.draw a b rows)).2 := by
  have overlaid := overlaid_draw a b (obey_draw_iff.1 drawn)
  have fits : Font.glyphRows * (m.store.v.get x).toNat + rows ≤ Font.glyphs.length := by
    have accepted := (draw_glyph_iff isDigit a b rows).1 drawn
    simp only [Font.glyphs_length, Font.glyphRows] at accepted ⊢
    omega
  have sprite : (m.obey (.glyph x)).2.store.bytes (m.obey (.glyph x)).2.store.i.toNat rows =
      Font.rowsFrom (m.store.v.get x).toNat rows := by
    have ram : (m.obey (.glyph x)).2.store.ram = m.store.ram := by rw [obey_glyph isDigit]; rfl
    rw [index_of_glyph isDigit, Store.bytes_congr ram, holds.bytes_eq fits]
  rw [sprite] at overlaid
  simp only [obey_glyph isDigit] at overlaid ⊢
  exact overlaid

/-- As long as nothing has been written over the glyphs, a digit in a register is drawn row by row
of the table, for as many rows as the table has left; up to five of them are rows of its own
picture. -/
theorem glyph_rows_are_drawn (spared : m.Spared) {digit : Nat}
    (shown : (m.store.v.get x).toNat = digit) (isDigit : digit ≤ 0xF) (a b rows : Fin 16) :
    (∀ (n : Machine) (i : Instruction), n.Fetches i.encode → n.step = n.obey i) ∧
    (m.obey (.glyph x)).1 = .ok .executed ∧
    (((m.obey (.glyph x)).2.obey (.draw a b rows)).1 = .ok .executed ↔
      rows.val = 0 ∨ 5 * digit + rows ≤ 80) ∧
    (((m.obey (.glyph x)).2.obey (.draw a b rows)).1 = .ok .executed →
      Overlaid (Font.rowsFrom digit rows) (m.store.v.get a) (m.store.v.get b) m.frame
        ((m.obey (.glyph x)).2.obey (.draw a b rows)).2) ∧
    (rows.val ≤ 5 →
      ((m.obey (.glyph x)).2.obey (.draw a b rows)).1 = .ok .executed ∧
        Overlaid ((Font.picture digit).take rows) (m.store.v.get a) (m.store.v.get b) m.frame
          ((m.obey (.glyph x)).2.obey (.draw a b rows)).2) := by
  subst shown
  have accepted := draw_glyph_iff isDigit a b rows
  have overlaid (drawn : ((m.obey (.glyph x)).2.obey (.draw a b rows)).1 = .ok .executed) :=
    overlaid_glyph spared.holdsGlyphs isDigit drawn
  refine ⟨fun n i => step_eq_obey, ?_, accepted, overlaid, ?_⟩
  · rw [obey_glyph isDigit]
  · intro short
    have drawn := accepted.2 (by simp only [Font.glyphs_length, Font.glyphRows]; omega)
    rw [Font.take_picture short]
    exact ⟨drawn, overlaid drawn⟩

-- The program writes three digits at the last glyph, but is kept from it, and then elsewhere. V0
-- holds a digit, V1 and V2 a place in the corner of the screen.
def besideGlyphs : List UInt8 :=
  [0xA0, 0x9E, 0xF0, 0x33, 0xA3, 0x00, 0xF0, 0x33]

def inTheCorner : List Command :=
  [.resume 0 0xF, .resume 1 62, .resume 2 30, .step, .step, .step, .step]

def cornered : Machine :=
  (loaded besideGlyphs).performAll inTheCorner

theorem spared_cornered : cornered.Spared := by
  refine ⟨⟨fun _ => 0, 0⟩, .load besideGlyphs :: inTheCorner, ?_, List.foldl_cons⟩
  decide +kernel

theorem last_digit_is_drawn_in_the_corner :
    cornered.store.ram[0x300] = 0 ∧ cornered.store.ram[0x302] = 5 ∧
      ((cornered.obey (.glyph 0)).2.obey (.draw 1 2 5)).1 = .ok .executed ∧
      ((cornered.obey (.glyph 0)).2.obey (.draw 1 2 5)).2.frame.isLit (1, 30) = true ∧
      ((cornered.obey (.glyph 0)).2.obey (.draw 1 2 5)).2.frame.isLit (62, 0) = false ∧
      ((cornered.obey (.glyph 0)).2.obey (.draw 1 2 6)).1 ≠ .ok .executed := by
  obtain ⟨shown, hundreds, ones, turned, dropped⟩ :
      (cornered.store.v.get 0).toNat = 0xF ∧ cornered.store.ram[0x300] = 0 ∧
        cornered.store.ram[0x302] = 5 ∧
        (cornered.frame.isLit (1, 30) ^^ Frame.covers (Font.rowsFrom 0xF 5)
          ((cornered.store.v.get 1).toNat % 64) ((cornered.store.v.get 2).toNat % 32) (1, 30)) =
            true ∧
        (cornered.frame.isLit (62, 0) ^^ Frame.covers (Font.rowsFrom 0xF 5)
          ((cornered.store.v.get 1).toNat % 64) ((cornered.store.v.get 2).toNat % 32) (62, 0)) =
            false := by
    decide +kernel
  obtain ⟨_, _, _, _, within⟩ := glyph_rows_are_drawn spared_cornered shown (by decide) 1 2 5
  obtain ⟨_, _, beyond, _⟩ := glyph_rows_are_drawn spared_cornered shown (by decide) 1 2 6
  obtain ⟨drawn, overlaid⟩ := within (by decide)
  refine ⟨hundreds, ones, drawn, (overlaid.turned _).trans turned,
    (overlaid.turned _).trans dropped, ?_⟩
  rw [ne_eq, beyond]
  decide

end Machine

end Chip8
