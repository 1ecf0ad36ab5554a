import Chip8.Keypad

set_option autoImplicit false

namespace Chip8.Keypad

theorem key?_ofNat (k : Fin 16) : key? (UInt8.ofNat k) = some k := by
  rw [key?_eq_some_iff, UInt8.toNat_ofNat']
  omega

theorem isDown_ofNat (p : Keypad) (k : Fin 16) : p.isDown (UInt8.ofNat k) = p.mask.getLsbD k :=
  isDown_of_key? (key?_ofNat k)

theorem first_eq_none_iff {p : Keypad} : p.first = none ↔ ∀ code, p.isDown code = false := by
  simp only [first, List.find?_eq_none, List.mem_finRange, true_implies, Bool.not_eq_true]
  constructor
  · intro free code
    cases key : key? code with
    | none => simp [isDown, key]
    | some k => rw [isDown_of_key? key, free k]
  · intro free k
    rw [← isDown_ofNat, free]

def Lowest (p : Keypad) (key : Fin 16) : Prop :=
  p.isDown (UInt8.ofNat key) = true ∧ ∀ code, p.isDown code = true → key.val ≤ code.toNat

theorem lowest_of_first {p : Keypad} {key : Fin 16} (first : p.first = some key) :
    p.Lowest key := by
  obtain ⟨held, k, _, here, free⟩ := List.find?_eq_some_iff_getElem.1 first
  rw [List.getElem_finRange] at here
  subst here
  refine ⟨(isDown_ofNat p _).trans held, fun code down => Nat.le_of_not_lt fun below => ?_⟩
  cases found : key? code with
  | none => simp [isDown, found] at down
  | some j =>
    have lower : j.val < k := key?_eq_some_iff.1 found ▸ below
    have absent := free j.val lower
    have same : (List.finRange 16)[j.val] = j := List.getElem_finRange _
    rw [same, ← isDown_of_key? found, down] at absent
    contradiction

theorem first_eq_some_iff {p : Keypad} {key : Fin 16} : p.first = some key ↔ p.Lowest key := by
  constructor
  · exact lowest_of_first
  · intro lowest
    cases first : p.first with
    | none =>
      have free := first_eq_none_iff.1 first (UInt8.ofNat key)
      rw [lowest.1] at free
      contradiction
    | some k =>
      have found := lowest_of_first first
      have above := found.2 _ lowest.1
      have below := lowest.2 _ found.1
      rw [UInt8.toNat_ofNat'] at above below
      congr 1
      omega

theorem exists_lowest {p : Keypad} {code : UInt8} (held : p.isDown code = true) :
    ∃ key, p.Lowest key := by
  cases first : p.first with
  | some key => exact ⟨key, lowest_of_first first⟩
  | none =>
    rw [first_eq_none_iff.1 first] at held
    contradiction

end Chip8.Keypad
