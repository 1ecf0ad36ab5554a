import Chip8.Machine.Command
import Chip8.Proofs.Keypad
import Mathlib.Data.Finset.Max
import Mathlib.Data.Fintype.Basic

set_option autoImplicit false

namespace Chip8.Keypad

variable {p : Keypad}

def held (p : Keypad) : Finset (Fin 16) :=
  {k | p.mask.getLsbD k = true}

theorem mem_held {k : Fin 16} : k ∈ p.held ↔ p.mask.getLsbD k = true := by
  simp [held]

theorem ext_held {p q : Keypad} (same : p.held = q.held) : p = q := by
  obtain ⟨mask⟩ := p
  obtain ⟨mask'⟩ := q
  congr 1
  apply BitVec.eq_of_getLsbD_eq
  intro k within
  have both := Finset.ext_iff.1 same ⟨k, within⟩
  rw [mem_held, mem_held] at both
  exact Bool.eq_iff_iff.2 both

theorem held_eq_empty_iff : p.held = ∅ ↔ ∀ code, p.isDown code = false := by
  rw [← first_eq_none_iff, first, List.find?_eq_none, Finset.eq_empty_iff_forall_notMem]
  simp only [mem_held, List.mem_finRange, true_implies]

@[simp] theorem held_empty : empty.held = ∅ := by
  simp [held_eq_empty_iff]

theorem first_eq_min' (any : p.held.Nonempty) : p.first = some (p.held.min' any) := by
  cases first : p.first with
  | none => simp [held_eq_empty_iff.2 (first_eq_none_iff.1 first)] at any
  | some key =>
    obtain ⟨down, least⟩ := lowest_of_first first
    congr 1
    apply le_antisymm
    · apply Finset.le_min'
      intro k held
      have lower := least (UInt8.ofNat k) ((isDown_ofNat p k).trans (mem_held.1 held))
      rw [UInt8.toNat_ofNat'] at lower
      simp only [Fin.le_def]
      omega
    · apply Finset.min'_le
      rw [mem_held, ← isDown_ofNat, down]

def named (codes : List UInt8) : Finset (Fin 16) :=
  (codes.filterMap key?).toFinset

theorem named_cons (code : UInt8) (rest : List UInt8) :
    named (code :: rest) = named [code] ∪ named rest := by
  cases key : key? code <;> simp [named, key]

def pressAll (p : Keypad) (codes : List UInt8) : Keypad :=
  codes.foldl press p

theorem held_press (code : UInt8) : (p.press code).held = named [code] ∪ p.held := by
  cases key : key? code with
  | none => simp [press, named, key]
  | some k =>
    ext j
    simp only [mem_held, getLsbD_press key, Finset.mem_union, Bool.or_eq_true, decide_eq_true_eq]
    simp [named, key, or_comm]

theorem held_pressAll (codes : List UInt8) : (p.pressAll codes).held = named codes ∪ p.held := by
  induction codes generalizing p with
  | nil => simp [pressAll, named]
  | cons code rest ih =>
    have next : p.pressAll (code :: rest) = (p.press code).pressAll rest := rfl
    rw [next, ih, held_press, named_cons code rest, ← Finset.union_assoc,
      Finset.union_comm (named rest)]

theorem ofCodes_eq_pressAll (codes : List UInt8) : ofCodes codes = empty.pressAll codes := by
  have folded (p : Keypad) :
      ⟨(codes.filterMap key?).foldl (fun mask k => mask ||| bit k) p.mask⟩ = p.pressAll codes := by
    induction codes generalizing p with
    | nil => simp [pressAll]
    | cons code rest ih =>
      have next : p.pressAll (code :: rest) = (p.press code).pressAll rest := rfl
      rw [next, ← ih]
      cases key : key? code <;> simp [press, key]
  exact folded empty

end Chip8.Keypad
