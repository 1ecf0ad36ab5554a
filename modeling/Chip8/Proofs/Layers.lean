import Chip8.Proofs.Pixels
import Mathlib.Data.List.Perm.Basic

set_option autoImplicit false

namespace Chip8

structure Stamp where
  sprite : List UInt8
  x : Nat
  y : Nat
deriving DecidableEq, Repr

namespace Frame

def stamp (f : Frame) (s : Stamp) : Except Trap (Frame × Bool) :=
  f.draw s.sprite s.x s.y

def drawAll (f : Frame) (stamps : List Stamp) : Except Trap Frame :=
  stamps.foldlM (fun drawn s => (drawn.stamp s).map Prod.fst) f

end Frame

namespace Stamp

def covers (s : Stamp) (p : Frame.Point) : Bool :=
  Frame.covers s.sprite (s.x % 64) (s.y % 32) p

def oddly (stamps : List Stamp) (p : Frame.Point) : Bool :=
  decide (stamps.countP (·.covers p) % 2 = 1)

theorem oddly_cons (s : Stamp) (rest : List Stamp) (p : Frame.Point) :
    oddly (s :: rest) p = (s.covers p ^^ oddly rest p) := by
  cases covered : s.covers p
  · simp [oddly, covered]
  · simp only [oddly, List.countP_cons, covered, if_true, Bool.true_xor, ← decide_not,
      decide_eq_decide]
    omega

theorem oddly_perm {stamps stamps' : List Stamp} (perm : stamps.Perm stamps') (p : Frame.Point) :
    oddly stamps p = oddly stamps' p := by
  simp [oddly, perm.countP_eq]

end Stamp

namespace Frame

variable {f : Frame} {s : Stamp} {stamps stamps' : List Stamp}

def stamped (f : Frame) (s : Stamp) : Frame × Bool :=
  f.drawn s.sprite s.x s.y

def stampedAll (f : Frame) (stamps : List Stamp) : Frame :=
  stamps.foldl (fun drawn s => (drawn.stamped s).1) f

theorem stamp_eq (f : Frame) (s : Stamp) : f.stamp s = .ok (f.stamped s) :=
  draw_eq f s.sprite s.x s.y

theorem drawAll_eq (f : Frame) (stamps : List Stamp) :
    f.drawAll stamps = .ok (f.stampedAll stamps) := by
  induction stamps generalizing f with
  | nil => rfl
  | cons s rest ih =>
    rw [drawAll, List.foldlM_cons, stamp_eq]
    exact ih (f.stamped s).1

theorem isLit_stamped (f : Frame) (s : Stamp) (p : Point) :
    (f.stamped s).1.isLit p = (f.isLit p ^^ s.covers p) :=
  isLit_drawn f s.sprite s.x s.y p

theorem stamped_collides_iff :
    (f.stamped s).2 = true ↔ ∃ p, s.covers p = true ∧ f.isLit p = true :=
  drawn_collides_iff

theorem isLit_stampedAll (f : Frame) (stamps : List Stamp) (p : Point) :
    (f.stampedAll stamps).isLit p = (f.isLit p ^^ Stamp.oddly stamps p) := by
  induction stamps generalizing f with
  | nil => simp [stampedAll, Stamp.oddly]
  | cons s rest ih =>
    have next : f.stampedAll (s :: rest) = (f.stamped s).1.stampedAll rest := rfl
    simp [next, ih, isLit_stamped, Stamp.oddly_cons]

theorem stampedAll_perm (perm : stamps.Perm stamps') :
    f.stampedAll stamps' = f.stampedAll stamps := by
  apply ext_isLit
  intro p
  simp [isLit_stampedAll, Stamp.oddly_perm perm]

theorem stampedAll_stampedAll (perm : stamps.Perm stamps') :
    (f.stampedAll stamps).stampedAll stamps' = f := by
  apply ext_isLit
  intro p
  simp [isLit_stampedAll, Stamp.oddly_perm perm]

-- The first drawing has turned over whatever the second one meets.
theorem second_stamped_collides_iff :
    ((f.stamped s).1.stamped s).2 = true ↔ ∃ p, s.covers p = true ∧ f.isLit p = false := by
  rw [stamped_collides_iff]
  apply exists_congr
  intro p
  apply and_congr_right
  intro covered
  simp [isLit_stamped, covered]

theorem either_stamped_collides_iff :
    (f.stamped s).2 = true ∨ ((f.stamped s).1.stamped s).2 = true ↔ ∃ p, s.covers p = true := by
  rw [stamped_collides_iff, second_stamped_collides_iff, ← exists_or]
  apply exists_congr
  intro p
  cases f.isLit p <;> simp

/-- Neither the order of the drawings nor what was on the screen before makes a difference to what
they change, so drawing all of them again, in any order, takes them away. A sprite that is drawn
twice collides the second time unless all that it covers was lit. -/
theorem stamps_commute_and_cancel (perm : stamps.Perm stamps') (f : Frame) :
    (∃ g, f.drawAll stamps = .ok g ∧ f.drawAll stamps' = .ok g ∧ g.drawAll stamps' = .ok f ∧
      ∀ p, g.isLit p = (f.isLit p ^^ Stamp.oddly stamps p)) ∧
    ∀ s : Stamp, ∃ g h : Frame, ∃ first second : Bool,
      f.stamp s = .ok (g, first) ∧ g.stamp s = .ok (h, second) ∧
      (second = false ↔ ∀ p, s.covers p = true → f.isLit p = true) ∧
      (first = true ∨ second = true ↔ ∃ p, s.covers p = true) ∧
      (first = false → (∃ p, s.covers p = true) → second = true) := by
  constructor
  · refine ⟨f.stampedAll stamps, drawAll_eq f stamps, ?_, ?_, isLit_stampedAll f stamps⟩
    · rw [drawAll_eq, stampedAll_perm perm]
    · rw [drawAll_eq, stampedAll_stampedAll perm]
  · intro s
    have either := either_stamped_collides_iff (f := f) (s := s)
    refine ⟨(f.stamped s).1, ((f.stamped s).1.stamped s).1, (f.stamped s).2,
      ((f.stamped s).1.stamped s).2, stamp_eq f s, stamp_eq _ s, ?_, either, ?_⟩
    · rw [← Bool.not_eq_true, second_stamped_collides_iff]
      simp
    · intro clear covered
      simpa [clear] using either.2 covered

def overEdge : Stamp := ⟨[0xFF, 0x0F], 60, 31⟩

def inCorner : Stamp := ⟨[0xF0], 64, 63⟩

theorem overlapping_stamps_commute_and_cancel :
    [overEdge, inCorner].Perm [inCorner, overEdge] ∧
      (∃ g, blank.drawAll [overEdge, inCorner] = .ok g ∧
        blank.drawAll [inCorner, overEdge] = .ok g ∧
        g.drawAll [inCorner, overEdge] = .ok blank ∧ g.isLit (62, 31) = true ∧
        g.isLit (2, 31) = false) ∧
      (blank.stamp overEdge).map Prod.snd = .ok false ∧
      ((blank.stamp overEdge).bind fun drawn => drawn.1.stamp inCorner).map Prod.snd = .ok true ∧
      (blank.stamp inCorner).map Prod.snd = .ok false ∧
      ((blank.stamp inCorner).bind fun drawn => drawn.1.stamp overEdge).map Prod.snd = .ok true ∧
      ((blank.stamp overEdge).bind fun drawn => drawn.1.stamp overEdge).map Prod.snd =
        .ok true := by
  have swap : [overEdge, inCorner].Perm [inCorner, overEdge] := List.Perm.swap _ _ _
  obtain ⟨⟨g, first, second, back, turned⟩, twice⟩ := stamps_commute_and_cancel swap blank
  obtain ⟨h, k, clear, met, drawn, again, -, -, last⟩ := twice overEdge
  have covered : ∃ p, overEdge.covers p = true := ⟨(0, 31), by decide⟩
  have none : (blank.stamp overEdge).map Prod.snd = .ok false := by decide
  refine ⟨swap, ⟨g, first, second, back, ?_, ?_⟩, none, by decide, by decide, by decide, ?_⟩
  · rw [turned]
    decide
  · rw [turned]
    decide
  · rw [drawn] at none ⊢
    have clear : clear = false := Except.ok.inj none
    have met : met = true := last clear covered
    simp [Except.bind, Except.map, again, met]

end Frame

end Chip8
